import Thinker.Lines
import Thinker.Transition

/-!
# Print statistics

`PrintStats` of `print_stats.py`, with the calls that `virtual_sdcard.py` makes and the order it
makes them in. A ledger beside the code adds up the time between `note_start` and the pause or the
end that follows, and remembers how much of it had passed when `get_status` or the end last found
that nothing had been extruded.

The durations of the code are differences of accumulators. They agree with the ledger as long as a
paused print is not cancelled after an extrusion, a failed print is not started again before a file
is loaded, and no reading takes the filament that was used back below the threshold
(`reports_time_printing`). A print that is cancelled in a pause counts the pause
(`not_reports_time_printing`).
-/

namespace Thinker.PrintTime

namespace PrintStats

/-- `state`. -/
inductive State where
  | standby
  | printing
  | paused
  | complete
  | error
  | cancelled
  deriving DecidableEq

/-- What is used of the status of `gcode_move`. `M221` only sets positive factors. -/
structure GcStatus where
  e : ℚ
  extrudeFactor : ℚ
  extrudeFactor_pos : 0 < extrudeFactor

/-- What `get_status` returns. -/
structure Status where
  filename : Text
  totalDuration : ℚ
  printDuration : ℚ
  filamentUsed : ℚ
  state : State
  message : Text
  totalLayer : Option ℕ
  currentLayer : Option ℕ

/-- The least use of filament that counts as an extrusion. -/
def minimalUse : ℚ := 1 / 10 ^ 7

end PrintStats

open PrintStats

/-- `PrintStats`. -/
structure PrintStats where
  filename : Text
  errorMessage : Text
  state : State
  prevPauseDuration : ℚ
  lastEpos : ℚ
  filamentUsed : ℚ
  totalDuration : ℚ
  printStartTime : Option ℚ
  lastPauseTime : Option ℚ
  initDuration : ℚ
  infoTotalLayer : Option ℕ
  infoCurrentLayer : Option ℕ

namespace PrintStats

variable (s : PrintStats)

/-- `reset`. -/
def reset : PrintStats where
  filename := []
  errorMessage := []
  state := .standby
  prevPauseDuration := 0
  lastEpos := 0
  filamentUsed := 0
  totalDuration := 0
  printStartTime := none
  lastPauseTime := none
  initDuration := 0
  infoTotalLayer := none
  infoCurrentLayer := none

/-- `_update_filament_usage`. -/
def updateFilamentUsage (gc : GcStatus) : PrintStats :=
  { s with
    filamentUsed := s.filamentUsed + (gc.e - s.lastEpos) / gc.extrudeFactor
    lastEpos := gc.e }

/-- `set_current_file`. -/
def setCurrentFile (filename : Text) : PrintStats :=
  { reset with filename := filename }

/-- `note_start` up to the position of the extruder. -/
def beginPrint (curtime : ℚ) : PrintStats :=
  match s.printStartTime, s.lastPauseTime with
  | none, _ => { s with printStartTime := some curtime }
  | some _, none => s
  | some _, some pause =>
    { s with
      prevPauseDuration := s.prevPauseDuration + (curtime - pause)
      lastPauseTime := none }

/-- `note_start`. -/
def noteStart (curtime : ℚ) (gc : GcStatus) : PrintStats :=
  { s.beginPrint curtime with lastEpos := gc.e, state := .printing, errorMessage := [] }

/-- `note_pause`. -/
def notePause (curtime : ℚ) (gc : GcStatus) : PrintStats :=
  let s :=
    if s.lastPauseTime.isSome then s
    else ({ s with lastPauseTime := some curtime } : PrintStats).updateFilamentUsage gc
  if s.state ≠ .error then { s with state := .paused } else s

/-- `_note_finish`. -/
def noteFinish (state : State) (errorMessage : Text) (eventtime : ℚ) : PrintStats :=
  match s.printStartTime with
  | none => s
  | some start =>
    { s with
      state := state
      errorMessage := errorMessage
      totalDuration := eventtime - start
      initDuration :=
        if s.filamentUsed < minimalUse then eventtime - start - s.prevPauseDuration
        else s.initDuration
      printStartTime := none }

/-- `note_complete`. -/
def noteComplete (eventtime : ℚ) : PrintStats :=
  s.noteFinish .complete [] eventtime

/-- `note_error`. -/
def noteError (message : Text) (eventtime : ℚ) : PrintStats :=
  s.noteFinish .error message eventtime

/-- `note_cancel`. -/
def noteCancel (eventtime : ℚ) : PrintStats :=
  s.noteFinish .cancelled [] eventtime

/-- `cmd_SET_PRINT_STATS_INFO`. -/
def cmdSetPrintStatsInfo (totalLayer currentLayer : Option ℕ) : PrintStats :=
  let total := totalLayer.or s.infoTotalLayer
  let current := currentLayer.or s.infoCurrentLayer
  let s : PrintStats :=
    if total = some 0 then { s with infoTotalLayer := none, infoCurrentLayer := none }
    else if total ≠ s.infoTotalLayer then
      { s with infoTotalLayer := total, infoCurrentLayer := some 0 }
    else s
  match s.infoTotalLayer, current with
  | some total, some current =>
    if some current ≠ s.infoCurrentLayer then { s with infoCurrentLayer := some (min current total) }
    else s
  | _, _ => s

/-- `time_paused` in `get_status`. -/
def timePaused (eventtime : ℚ) : ℚ :=
  match s.printStartTime, s.lastPauseTime with
  | some _, some pause => s.prevPauseDuration + (eventtime - pause)
  | _, _ => s.prevPauseDuration

/-- The reading of the extruder in `get_status`, which is not made in a pause. -/
def readFilament (gc : GcStatus) : PrintStats :=
  if s.lastPauseTime.isSome then s else s.updateFilamentUsage gc

/-- What `get_status` does to the statistics. -/
def updateDurations (eventtime : ℚ) (gc : GcStatus) : PrintStats :=
  match s.printStartTime with
  | none => s
  | some start =>
    let r := s.readFilament gc
    { r with
      totalDuration := eventtime - start
      initDuration :=
        if r.filamentUsed < minimalUse then eventtime - start - s.timePaused eventtime
        else r.initDuration }

/-- `get_status`. -/
def getStatus (eventtime : ℚ) (gc : GcStatus) : Status × PrintStats :=
  let r := s.updateDurations eventtime gc
  ({ filename := r.filename
     totalDuration := r.totalDuration
     printDuration := r.totalDuration - r.initDuration - s.timePaused eventtime
     filamentUsed := r.filamentUsed
     state := r.state
     message := r.errorMessage
     totalLayer := r.infoTotalLayer
     currentLayer := r.infoCurrentLayer }, r)

/-- Whether the filament that was used counts as an extrusion. -/
def Extruded : Prop :=
  minimalUse ≤ s.filamentUsed

instance : Decidable s.Extruded :=
  inferInstanceAs (Decidable (_ ≤ _))

end PrintStats

/-! ## The ledger -/

/-- The time that was spent printing : the sum of the intervals that are over, and the start of the
one that is not. `before` is that time when an extrusion had last not been seen. -/
structure PrintLedger where
  printed : ℚ
  since : Option ℚ
  extruded : Bool
  before : ℚ

namespace PrintLedger

variable (l : PrintLedger) (time : ℚ)

/-- Before the print. -/
def empty : PrintLedger where
  printed := 0
  since := none
  extruded := false
  before := 0

/-- The time spent printing. -/
def printing : ℚ :=
  l.printed + l.since.elim 0 (time - ·)

/-- `note_start`. -/
def start : PrintLedger :=
  { l with since := some time }

/-- `note_pause` or the end. -/
def stop : PrintLedger :=
  { l with printed := l.printing time, since := none }

/-- The extruder is read. -/
def see (extruded : Bool) : PrintLedger :=
  { l with extruded := l.extruded || extruded }

/-- The status is asked for, or the print ends. -/
def look (extruded : Bool) : PrintLedger :=
  if l.extruded || extruded then l.see extruded
  else { l with before := l.printing time }

/-- The time spent printing, less that before an extrusion was seen. -/
def duration : ℚ :=
  l.printing time - l.before

end PrintLedger

/-! ## The calls of the sdcard -/

namespace PrintStats

/-- The calls, by where `virtual_sdcard.py` makes them. -/
inductive Call where
  /-- `_load_file`, behind `_reset_file`. -/
  | load (filename : Text)
  /-- `_reset_file`, and `_load_file` raises an error, perhaps when the file is open. -/
  | loadFails (isOpen : Bool)
  /-- `cmd_SDCARD_RESET_FILE`. -/
  | resetFile
  /-- `work_handler` in front of its loop. -/
  | start
  /-- `work_handler` ends and there is a file. -/
  | leave
  /-- `work_handler` ends and the file is closed, now or by a command it has executed. -/
  | complete
  /-- `work_handler` ends after a command raised an error. -/
  | fail (message : Text)
  /-- `do_cancel` behind its wait, where there is a file. -/
  | cancel
  | status
  | info (totalLayer currentLayer : Option ℕ)

/-- A call, its time, and the status of `gcode_move`. -/
structure Event where
  time : ℚ
  gc : GcStatus
  call : Call

/-- The statistics, whether the sdcard has a file and its worker is in the loop, the time of the
last call, and the ledger. -/
structure Job where
  stats : PrintStats
  file : Bool
  working : Bool
  clock : ℚ
  ledger : PrintLedger

namespace Call

/-- The statistics after a call. -/
def stats (s : PrintStats) (time : ℚ) (gc : GcStatus) : Call → PrintStats
  | load filename => setCurrentFile filename
  | loadFails _ | resetFile => reset
  | start => s.noteStart time gc
  | leave => s.notePause time gc
  | complete => s.noteComplete time
  | fail message => s.noteError message time
  | cancel => s.noteCancel time
  | status => (s.getStatus time gc).2
  | info totalLayer currentLayer => s.cmdSetPrintStatsInfo totalLayer currentLayer

/-- The ledger after a call that has left the statistics with this use of filament. -/
def ledger (l : PrintLedger) (time : ℚ) (extruded : Bool) : Call → PrintLedger
  | load _ | loadFails _ | resetFile => .empty
  | start => l.start time
  | leave => (l.stop time).see extruded
  | complete | fail _ | cancel => (l.stop time).look time extruded
  | status => l.look time extruded
  | info _ _ => l

/-- Whether the sdcard can make a call. -/
def allowed (file working : Bool) : Call → Bool
  | load _ | loadFails _ | resetFile => !working
  | start => file && !working
  | leave => file && working
  | complete | fail _ => working
  | cancel => file
  | status | info _ _ => true

/-- Whether the sdcard has a file after a call. -/
def file (before : Bool) : Call → Bool
  | load _ => true
  | loadFails isOpen => isOpen
  | resetFile | complete | cancel => false
  | start | leave | fail _ | status | info _ _ => before

/-- Whether the worker is in its loop after a call. -/
def working (before : Bool) : Call → Bool
  | start => true
  | leave | complete | fail _ => false
  | load _ | loadFails _ | resetFile | cancel | status | info _ _ => before

end Call

/-- The state after a call. -/
def Job.after (j : Job) (e : Event) : Job :=
  let stats := e.call.stats j.stats e.time e.gc
  { stats := stats
    file := e.call.file j.file
    working := e.call.working j.working
    clock := e.time
    ledger := e.call.ledger j.ledger e.time (decide stats.Extruded) }

/-- The calls in the orders that the sdcard makes them in, at times that do not decrease. -/
def jobs : System Job Event where
  init j := j.stats = reset ∧ j.file = false ∧ j.working = false ∧ j.ledger = .empty
  next j e :=
    if j.clock ≤ e.time ∧ e.call.allowed j.file j.working = true then some (j.after e) else none

/-- What `get_status` reports is the time that was spent printing, less that before an extrusion
was seen, and lies between nothing and the whole duration. -/
def Job.StatusExact (j : Job) (time : ℚ) (gc : GcStatus) : Prop :=
  let (status, stats) := j.stats.getStatus time gc
  status.printDuration = (j.ledger.look time (decide stats.Extruded)).duration time ∧
    0 ≤ status.printDuration ∧ status.printDuration ≤ status.totalDuration

instance (j : Job) (time : ℚ) (gc : GcStatus) : Decidable (j.StatusExact time gc) :=
  inferInstanceAs (Decidable (_ ∧ _))

/-- The reading of the extruder keeps an extrusion. -/
def KeepsUse (s : PrintStats) (gc : GcStatus) : Prop :=
  s.printStartTime.isSome = true → s.lastPauseTime = none → s.Extruded →
    (s.updateFilamentUsage gc).Extruded

instance (s : PrintStats) (gc : GcStatus) : Decidable (KeepsUse s gc) :=
  inferInstanceAs (Decidable (_ → _ → _ → _))

/-- A paused print is only cancelled at once, or before an extrusion ; a print that has failed is
not started again ; and no reading takes back an extrusion. -/
def Call.Sound (j : Job) (time : ℚ) (gc : GcStatus) : Call → Prop
  | start => j.stats.printStartTime = none → j.stats.totalDuration = 0
  | cancel => j.stats.printStartTime.isSome = true →
      ∀ pause ∈ j.stats.lastPauseTime, time = pause ∨ ¬ j.stats.Extruded
  | leave | status => KeepsUse j.stats gc
  | load _ | loadFails _ | resetFile | complete | fail _ | info _ _ => True

instance (j : Job) (time : ℚ) (gc : GcStatus) (c : Call) : Decidable (c.Sound j time gc) :=
  match c with
  | .start => inferInstanceAs (Decidable (_ → _))
  | .cancel => inferInstanceAs (Decidable (_ → _))
  | .leave | .status => inferInstanceAs (Decidable (KeepsUse _ _))
  | .load _ | .loadFails _ | .resetFile | .complete | .fail _ | .info _ _ =>
    inferInstanceAs (Decidable True)

/-- The call is sound where it is made. -/
def Sound (j : Job) (e : Event) : Prop :=
  e.call.Sound j e.time e.gc

instance (j : Job) (e : Event) : Decidable (Sound j e) :=
  inferInstanceAs (Decidable (Call.Sound _ _ _ _))

/-! ## What the durations add up to -/

variable {j : Job} {time : ℚ} {gc : GcStatus}

/-- No print is going on. -/
structure Ended (j : Job) : Prop where
  start_eq : j.stats.printStartTime = none
  since_eq : j.ledger.since = none
  balance : j.stats.totalDuration - j.stats.initDuration - j.stats.prevPauseDuration =
    j.ledger.printed - j.ledger.before
  before_le : j.ledger.before ≤ j.ledger.printed
  duration_le : j.ledger.printed - j.ledger.before ≤ j.stats.totalDuration
  unseen : j.ledger.extruded = false → j.ledger.before = j.ledger.printed
  fresh : j.stats.totalDuration = 0 → j.stats.prevPauseDuration = 0 ∧ j.stats.initDuration = 0 ∧
    j.ledger.printed = 0 ∧ j.ledger.before = 0
  pause_eq : j.file = true → j.stats.lastPauseTime = none ∧ j.working = false

/-- The print goes on since `since`. -/
structure Printing (j : Job) (start since : ℚ) : Prop where
  start_eq : j.stats.printStartTime = some start
  pause_eq : j.stats.lastPauseTime = none
  since_eq : j.ledger.since = some since
  since_le : since ≤ j.clock
  balance : since - start = j.ledger.printed + j.stats.prevPauseDuration
  prev_nonneg : 0 ≤ j.stats.prevPauseDuration
  printed_nonneg : 0 ≤ j.ledger.printed
  init_eq : j.stats.initDuration = j.ledger.before
  before_nonneg : 0 ≤ j.ledger.before
  before_le : j.ledger.before ≤ j.ledger.printing j.clock
  working_eq : j.working = true

/-- The print is paused since `pause`. -/
structure Paused (j : Job) (start pause : ℚ) : Prop where
  start_eq : j.stats.printStartTime = some start
  pause_eq : j.stats.lastPauseTime = some pause
  since_eq : j.ledger.since = none
  pause_le : pause ≤ j.clock
  balance : pause - start = j.ledger.printed + j.stats.prevPauseDuration
  prev_nonneg : 0 ≤ j.stats.prevPauseDuration
  init_eq : j.stats.initDuration = j.ledger.before
  before_nonneg : 0 ≤ j.ledger.before
  before_le : j.ledger.before ≤ j.ledger.printed
  working_eq : j.working = false

/-- The durations and the ledger agree. -/
structure Accounted (j : Job) : Prop where
  extruded_eq : j.ledger.extruded = decide j.stats.Extruded
  phase : Ended j ∨ (∃ start since, Printing j start since) ∨ ∃ start pause, Paused j start pause

theorem lt_minimalUse {s : PrintStats} : s.filamentUsed < minimalUse ↔ ¬ s.Extruded :=
  not_le.symm

/-- After `reset`, and after `set_current_file`. -/
theorem accounted_setCurrentFile {filename : Text} (hstats : j.stats = setCurrentFile filename)
    (hledger : j.ledger = .empty) (hworking : j.working = false) : Accounted j := by
  have hextruded : ¬ (setCurrentFile filename).Extruded := by
    simp [Extruded, setCurrentFile, reset, minimalUse]
  refine ⟨by rw [hledger, hstats, decide_eq_false hextruded]; rfl, .inl ?_⟩
  constructor <;> simp [hstats, hledger, hworking, setCurrentFile, reset, PrintLedger.empty]

theorem accounted_init (h : jobs.init j) : Accounted j := by
  obtain ⟨hstats, -, hworking, hledger⟩ := h
  exact accounted_setCurrentFile (hstats.trans (show _ = setCurrentFile [] from rfl)) hledger
    hworking

/-- The time spent printing does not decrease. -/
theorem printing_mono (l : PrintLedger) {t u : ℚ} (h : t ≤ u) : l.printing t ≤ l.printing u := by
  unfold PrintLedger.printing
  cases l.since with
  | none => exact le_rfl
  | some since => exact add_le_add_right (sub_le_sub_right h since) _

theorem printing_of_none {l : PrintLedger} (h : l.since = none) (t : ℚ) :
    l.printing t = l.printed := by
  simp [PrintLedger.printing, h]

theorem printing_of_some {l : PrintLedger} {since : ℚ} (h : l.since = some since) (t : ℚ) :
    l.printing t = l.printed + (t - since) := by
  simp [PrintLedger.printing, h]

/-! ### The start and the pause -/

/-- A print starts. -/
theorem Ended.start (h : Ended j) (hextruded : j.ledger.extruded = decide j.stats.Extruded)
    (hfile : j.file = true) (hfresh : j.stats.totalDuration = 0) :
    Accounted (j.after ⟨time, gc, .start⟩) := by
  obtain ⟨hprev, hinit, hprinted, hbefore⟩ := h.fresh hfresh
  have hstats : j.stats.beginPrint time = { j.stats with printStartTime := some time } := by
    simp only [beginPrint, h.start_eq]
  have hpause := (h.pause_eq hfile).1
  refine ⟨?_, .inr (.inl ⟨time, time, ?_⟩)⟩
  · simp only [Job.after, Call.stats, Call.ledger, noteStart, hstats]
    exact hextruded
  · constructor <;>
      simp [Job.after, Call.stats, Call.ledger, Call.working, noteStart, hstats, hpause, hprev,
        hinit, hprinted, hbefore, PrintLedger.start, PrintLedger.printing]

/-- A paused print goes on. -/
theorem Paused.start {start pause : ℚ} (h : Paused j start pause)
    (hextruded : j.ledger.extruded = decide j.stats.Extruded) (htime : j.clock ≤ time) :
    Accounted (j.after ⟨time, gc, .start⟩) := by
  have hstats : j.stats.beginPrint time =
      { j.stats with
        prevPauseDuration := j.stats.prevPauseDuration + (time - pause)
        lastPauseTime := none } := by
    simp only [beginPrint, h.start_eq, h.pause_eq]
  have hprev := h.prev_nonneg
  have hle := h.pause_le
  have hbalance := h.balance
  have hbefore := h.before_le
  have hnonneg := h.before_nonneg
  refine ⟨?_, .inr (.inl ⟨start, time, ?_⟩)⟩
  · simp only [Job.after, Call.stats, Call.ledger, noteStart, hstats]
    exact hextruded
  · constructor <;>
      simp only [Job.after, Call.stats, Call.ledger, Call.working, noteStart, hstats,
        PrintLedger.start, PrintLedger.printing, Option.elim, h.start_eq, h.init_eq] <;>
      linarith

/-- What the ledger has seen, when a reading keeps an extrusion. -/
theorem see_extruded {s t : PrintStats} {b : Bool} (hb : b = decide s.Extruded)
    (hkeeps : s.Extruded → t.Extruded) : (b || decide t.Extruded) = decide t.Extruded := by
  by_cases hs : s.Extruded
  · simp [hkeeps hs]
  · simp [hb, hs]

/-- The worker leaves its loop, and the print is paused. -/
theorem Printing.leave {start since : ℚ} (h : Printing j start since)
    (hextruded : j.ledger.extruded = decide j.stats.Extruded) (htime : j.clock ≤ time)
    (hkeeps : KeepsUse j.stats gc) : Accounted (j.after ⟨time, gc, .leave⟩) := by
  have hstats : ∃ state, j.stats.notePause time gc =
      { j.stats.updateFilamentUsage gc with lastPauseTime := some time, state := state } := by
    unfold notePause
    simp only [h.pause_eq, Option.isSome_none, Bool.false_eq_true, if_false]
    split
    · exact ⟨_, rfl⟩
    · exact ⟨_, rfl⟩
  obtain ⟨state, hstats⟩ := hstats
  have hbalance := h.balance
  have hbefore := h.before_le.trans (printing_mono _ htime)
  rw [printing_of_some h.since_eq] at hbefore
  refine ⟨?_, .inr (.inr ⟨start, time, ?_⟩)⟩
  · simp only [Job.after, Call.stats, Call.ledger, hstats]
    exact see_extruded hextruded (hkeeps (by rw [h.start_eq]; rfl) h.pause_eq)
  · constructor
    case since_eq => rfl
    case pause_le => exact le_rfl
    case working_eq => rfl
    all_goals
      simp only [Job.after, Call.stats, Call.ledger, hstats, updateFilamentUsage, PrintLedger.stop,
        PrintLedger.see, printing_of_some h.since_eq, h.start_eq, h.init_eq]
    case balance => linarith
    case prev_nonneg => exact h.prev_nonneg
    case before_nonneg => exact h.before_nonneg
    case before_le => exact hbefore

/-! ### The end and the status -/

/-- A print is going on or paused : its whole duration is the time spent printing and that spent
paused. -/
structure Open (j : Job) (start time : ℚ) : Prop where
  start_eq : j.stats.printStartTime = some start
  balance : time - start = j.ledger.printing time + j.stats.timePaused time
  prev_nonneg : 0 ≤ j.stats.prevPauseDuration
  prev_le : j.stats.prevPauseDuration ≤ j.stats.timePaused time
  init_eq : j.stats.initDuration = j.ledger.before
  before_nonneg : 0 ≤ j.ledger.before
  before_le : j.ledger.before ≤ j.ledger.printing time

theorem Printing.timePaused_eq {start since : ℚ} (h : Printing j start since) (time : ℚ) :
    j.stats.timePaused time = j.stats.prevPauseDuration := by
  simp only [timePaused, h.start_eq, h.pause_eq]

theorem Paused.timePaused_eq {start pause : ℚ} (h : Paused j start pause) (time : ℚ) :
    j.stats.timePaused time = j.stats.prevPauseDuration + (time - pause) := by
  simp only [timePaused, h.start_eq, h.pause_eq]

theorem Printing.isOpen {start since : ℚ} (h : Printing j start since) (htime : j.clock ≤ time) :
    Open j start time where
  start_eq := h.start_eq
  balance := by
    have hbalance := h.balance
    rw [h.timePaused_eq, printing_of_some h.since_eq]
    linarith
  prev_nonneg := h.prev_nonneg
  prev_le := (h.timePaused_eq time).ge
  init_eq := h.init_eq
  before_nonneg := h.before_nonneg
  before_le := h.before_le.trans (printing_mono _ htime)

theorem Paused.isOpen {start pause : ℚ} (h : Paused j start pause) (htime : j.clock ≤ time) :
    Open j start time where
  start_eq := h.start_eq
  balance := by
    have hbalance := h.balance
    rw [h.timePaused_eq, printing_of_none h.since_eq]
    linarith
  prev_nonneg := h.prev_nonneg
  prev_le := by
    have hle := h.pause_le
    rw [h.timePaused_eq]
    linarith
  init_eq := h.init_eq
  before_nonneg := h.before_nonneg
  before_le := h.before_le.trans (printing_of_none h.since_eq time).ge

/-- What the ledger looks for, where it has seen an extrusion if the statistics have. -/
theorem look_of_extruded {l : PrintLedger} {s t : PrintStats} (hl : l.extruded = decide s.Extruded)
    (hkeeps : s.Extruded → t.Extruded) (time : ℚ) : l.look time (decide t.Extruded) =
      { l with
        extruded := decide t.Extruded
        before := if t.Extruded then l.before else l.printing time } := by
  by_cases ht : t.Extruded
  · simp [PrintLedger.look, PrintLedger.see, ht]
  · have hlf : l.extruded = false := by rw [hl, decide_eq_false fun hs => ht (hkeeps hs)]
    simp [PrintLedger.look, ht, hlf]

/-- What the end does to the statistics, the ledger and the sdcard. -/
structure Finishes (j t : Job) (time : ℚ) : Prop where
  stats_eq : ∃ state message, t.stats = j.stats.noteFinish state message time
  ledger_eq : t.ledger = (j.ledger.stop time).look time (decide t.stats.Extruded)
  idle : t.file = true → t.stats.lastPauseTime = none ∧ t.working = false

variable {t : Job}

/-- A print ends, when it is not paused or nothing was extruded. -/
theorem Open.finish {start : ℚ} (h : Open j start time)
    (hextruded : j.ledger.extruded = decide j.stats.Extruded)
    (hsound : j.stats.timePaused time = j.stats.prevPauseDuration ∨ ¬ j.stats.Extruded)
    (hf : Finishes j t time) : Accounted t := by
  obtain ⟨⟨state, message, hstats⟩, hledger, hidle⟩ := hf
  simp only [noteFinish, h.start_eq, lt_minimalUse] at hstats
  have hsame : t.stats.Extruded ↔ j.stats.Extruded := by rw [hstats]; rfl
  rw [look_of_extruded (l := j.ledger.stop time) hextruded hsame.2] at hledger
  have hprinted : t.ledger.printed = j.ledger.printing time := by rw [hledger]; rfl
  have hprev : t.stats.prevPauseDuration = j.stats.prevPauseDuration := by rw [hstats]
  have htotal : t.stats.totalDuration = time - start := by rw [hstats]
  have hbalance := h.balance
  have hprev_nonneg := h.prev_nonneg
  have hprev_le := h.prev_le
  have hbefore_nonneg := h.before_nonneg
  have hbefore_le := h.before_le
  have hinit : t.stats.initDuration =
      if j.stats.Extruded then j.ledger.before else time - start - j.stats.prevPauseDuration := by
    rw [hstats, ← h.init_eq]
    exact ite_not _ _ _
  have hbefore : t.ledger.before =
      if j.stats.Extruded then j.ledger.before else j.ledger.printing time := by
    rw [hledger]
    simp only [hsame, printing_of_none (l := j.ledger.stop time) rfl]
    rfl
  refine ⟨by rw [hledger], .inl ⟨by rw [hstats], by rw [hledger]; rfl, ?_, ?_, ?_, ?_, ?_, hidle⟩⟩
  all_goals rw [hprinted, hbefore]
  · rw [hinit, hprev, htotal]
    split_ifs with hext
    · have hpaused := hsound.resolve_right (not_not.2 hext)
      linarith
    · linarith
  · split_ifs <;> linarith
  · rw [htotal]
    split_ifs <;> linarith
  · intro hunseen
    rw [hledger] at hunseen
    rw [if_neg fun hext => by simp [hsame.2 hext] at hunseen]
  · intro hzero
    rw [htotal] at hzero
    rw [hprev, hinit]
    have hprinting : j.ledger.printing time = 0 := by linarith
    refine ⟨by linarith, ?_, hprinting, ?_⟩ <;> split_ifs <;> linarith

/-- The reading of `get_status` keeps an extrusion. -/
theorem KeepsUse.readFilament {s : PrintStats} (h : KeepsUse s gc)
    (hstart : s.printStartTime.isSome = true) : s.Extruded → (s.readFilament gc).Extruded := by
  intro hext
  unfold PrintStats.readFilament
  cases hpause : s.lastPauseTime with
  | none => exact h hstart hpause hext
  | some _ => exact hext

/-- What `get_status` does to a print that is open, and to the ledger. -/
theorem Open.look_eq {start : ℚ} (h : Open j start time)
    (hextruded : j.ledger.extruded = decide j.stats.Extruded) (hkeeps : KeepsUse j.stats gc) :
    j.stats.updateDurations time gc =
      { j.stats.readFilament gc with
        totalDuration := time - start
        initDuration :=
          if (j.stats.readFilament gc).Extruded then j.ledger.before
          else j.ledger.printing time } ∧
    j.ledger.look time (decide (j.stats.updateDurations time gc).Extruded) =
      { j.ledger with
        extruded := decide (j.stats.readFilament gc).Extruded
        before := if (j.stats.readFilament gc).Extruded then j.ledger.before
          else j.ledger.printing time } := by
  have hread : (j.stats.readFilament gc).initDuration = j.ledger.before := by
    rw [← h.init_eq]
    unfold PrintStats.readFilament
    split <;> rfl
  have hbalance : time - start - j.stats.timePaused time = j.ledger.printing time := by
    have hbalance := h.balance
    linarith
  have hupdate : j.stats.updateDurations time gc =
      { j.stats.readFilament gc with
        totalDuration := time - start
        initDuration :=
          if (j.stats.readFilament gc).Extruded then j.ledger.before
          else j.ledger.printing time } := by
    simp only [updateDurations, h.start_eq, lt_minimalUse, hread, hbalance, ite_not]
  refine ⟨hupdate, ?_⟩
  rw [hupdate]
  exact look_of_extruded (t := j.stats.readFilament gc) hextruded
    (hkeeps.readFilament (by rw [h.start_eq]; rfl)) time

/-- The report, from the statistics and the ledger that `get_status` leaves. -/
theorem statusExact_of {s : PrintStats} {l : PrintLedger} {duration : ℚ}
    (hupdate : j.stats.updateDurations time gc = s)
    (hlook : j.ledger.look time (decide (j.stats.updateDurations time gc).Extruded) = l)
    (hledger : l.duration time = duration)
    (hreport : s.totalDuration - s.initDuration - j.stats.timePaused time = duration)
    (hnonneg : 0 ≤ duration) (hle : duration ≤ s.totalDuration) : j.StatusExact time gc := by
  subst hupdate hlook
  exact ⟨hreport.trans hledger.symm, hnonneg.trans_eq hreport.symm, hreport.trans_le hle⟩

/-- The status of a print that is open. -/
theorem Open.statusExact {start : ℚ} (h : Open j start time)
    (hextruded : j.ledger.extruded = decide j.stats.Extruded) (hkeeps : KeepsUse j.stats gc) :
    j.StatusExact time gc := by
  obtain ⟨hupdate, hlook⟩ := h.look_eq hextruded hkeeps
  have hbalance := h.balance
  have hprev_nonneg := h.prev_nonneg
  have hprev_le := h.prev_le
  have hbefore_nonneg := h.before_nonneg
  have hbefore_le := h.before_le
  have hduration : PrintLedger.duration { j.ledger with
      extruded := decide (j.stats.readFilament gc).Extruded
      before := if (j.stats.readFilament gc).Extruded then j.ledger.before
        else j.ledger.printing time } time = j.ledger.printing time -
      if (j.stats.readFilament gc).Extruded then j.ledger.before else j.ledger.printing time := rfl
  refine statusExact_of hupdate hlook hduration ?_ ?_ ?_
  · dsimp only
    linarith
  · split_ifs <;> linarith
  · dsimp only
    split_ifs <;> linarith

/-- The status of a print that has ended. -/
theorem Ended.look_eq (h : Ended j)
    (hextruded : j.ledger.extruded = decide j.stats.Extruded) :
    j.stats.updateDurations time gc = j.stats ∧
      j.ledger.look time (decide (j.stats.updateDurations time gc).Extruded) = j.ledger := by
  have hupdate : j.stats.updateDurations time gc = j.stats := by
    simp only [updateDurations, h.start_eq]
  have hbefore : (if j.stats.Extruded then j.ledger.before else j.ledger.printing time) =
      j.ledger.before := by
    rw [printing_of_none h.since_eq]
    split_ifs with hext
    · rfl
    · exact (h.unseen (by rw [hextruded, decide_eq_false hext])).symm
  refine ⟨hupdate, ?_⟩
  rw [hupdate, look_of_extruded hextruded id, hbefore, ← hextruded]

theorem Ended.statusExact (h : Ended j)
    (hextruded : j.ledger.extruded = decide j.stats.Extruded) : j.StatusExact time gc := by
  obtain ⟨hupdate, hlook⟩ := @Ended.look_eq j time gc h hextruded
  have hpaused : j.stats.timePaused time = j.stats.prevPauseDuration := by
    simp only [timePaused, h.start_eq]
  have hledger : j.ledger.duration time = j.ledger.printed - j.ledger.before := by
    rw [PrintLedger.duration, printing_of_none h.since_eq]
  exact statusExact_of hupdate hlook hledger (hpaused ▸ h.balance) (sub_nonneg.2 h.before_le)
    h.duration_le

/-- What `get_status` reports agrees with the ledger. -/
theorem Accounted.statusExact (h : Accounted j) (htime : j.clock ≤ time)
    (hkeeps : KeepsUse j.stats gc) : j.StatusExact time gc := by
  obtain ⟨hextruded, hended | ⟨start, since, hprinting⟩ | ⟨start, pause, hpaused⟩⟩ := h
  · exact hended.statusExact hextruded
  · exact (hprinting.isOpen htime).statusExact hextruded hkeeps
  · exact (hpaused.isOpen htime).statusExact hextruded hkeeps

/-! ### A call keeps the accounts -/

/-- Only the statistics and the ledger matter to a print that has ended. -/
theorem Ended.mono (h : Ended j) (hstats : t.stats = j.stats) (hledger : t.ledger = j.ledger)
    (hidle : t.file = true → t.stats.lastPauseTime = none ∧ t.working = false) : Ended t where
  start_eq := hstats ▸ h.start_eq
  since_eq := hledger ▸ h.since_eq
  balance := hstats ▸ hledger ▸ h.balance
  before_le := hledger ▸ h.before_le
  duration_le := hstats ▸ hledger ▸ h.duration_le
  unseen := hledger ▸ h.unseen
  fresh := hstats ▸ hledger ▸ h.fresh
  pause_eq := hidle

theorem Ended.status (h : Ended j) (hextruded : j.ledger.extruded = decide j.stats.Extruded) :
    Accounted (j.after ⟨time, gc, .status⟩) := by
  obtain ⟨hupdate, hlook⟩ := @Ended.look_eq j time gc h hextruded
  have hstats : (j.after ⟨time, gc, .status⟩).stats = j.stats := hupdate
  refine ⟨?_, .inl (h.mono hupdate hlook fun hfile => hstats ▸ h.pause_eq hfile)⟩
  show (j.ledger.look time (decide (j.stats.updateDurations time gc).Extruded)).extruded = _
  rw [hlook, hextruded]
  exact congrArg (fun s : PrintStats => decide s.Extruded) hupdate.symm

/-- The time before an extrusion, after the look of `get_status`. -/
theorem Open.before_look {start : ℚ} (h : Open j start time) (p : Prop) [Decidable p] :
    0 ≤ (if p then j.ledger.before else j.ledger.printing time) ∧
      (if p then j.ledger.before else j.ledger.printing time) ≤ j.ledger.printing time := by
  have hnonneg := h.before_nonneg
  have hle := h.before_le
  split_ifs
  · exact ⟨hnonneg, hle⟩
  · exact ⟨hnonneg.trans hle, le_rfl⟩

/-- The ledger after `get_status` has seen what the statistics have. -/
theorem Open.extruded_look {start : ℚ} (h : Open j start time)
    (hextruded : j.ledger.extruded = decide j.stats.Extruded) (hkeeps : KeepsUse j.stats gc) :
    (j.after ⟨time, gc, .status⟩).ledger.extruded =
      decide (j.after ⟨time, gc, .status⟩).stats.Extruded := by
  obtain ⟨hupdate, hlook⟩ := h.look_eq hextruded hkeeps
  show (j.ledger.look time (decide (j.stats.updateDurations time gc).Extruded)).extruded =
    decide (j.stats.updateDurations time gc).Extruded
  rw [hlook, hupdate]
  rfl

theorem Printing.status {start since : ℚ} (h : Printing j start since)
    (hextruded : j.ledger.extruded = decide j.stats.Extruded) (htime : j.clock ≤ time)
    (hkeeps : KeepsUse j.stats gc) : Accounted (j.after ⟨time, gc, .status⟩) := by
  have hopen := h.isOpen htime
  obtain ⟨hupdate, hlook⟩ := hopen.look_eq hextruded hkeeps
  have hread : j.stats.readFilament gc = j.stats.updateFilamentUsage gc := by
    simp [PrintStats.readFilament, h.pause_eq]
  have hstats : (j.after ⟨time, gc, .status⟩).stats = j.stats.updateDurations time gc := rfl
  have hledger : (j.after ⟨time, gc, .status⟩).ledger =
    j.ledger.look time (decide (j.stats.updateDurations time gc).Extruded) := rfl
  have hbefore := hopen.before_look (j.stats.readFilament gc).Extruded
  refine ⟨hopen.extruded_look hextruded hkeeps, .inr (.inl ⟨start, since, ?_⟩)⟩
  constructor
  case since_le => exact h.since_le.trans htime
  case working_eq => exact h.working_eq
  all_goals
    try rw [hledger, hlook]
    try rw [hstats, hupdate]
  case start_eq => rw [hread]; exact h.start_eq
  case pause_eq => rw [hread]; exact h.pause_eq
  case since_eq => exact h.since_eq
  case balance => rw [hread]; exact h.balance
  case prev_nonneg => rw [hread]; exact h.prev_nonneg
  case printed_nonneg => exact h.printed_nonneg
  case before_nonneg => exact hbefore.1
  case before_le => exact hbefore.2

theorem Paused.status {start pause : ℚ} (h : Paused j start pause)
    (hextruded : j.ledger.extruded = decide j.stats.Extruded) (htime : j.clock ≤ time)
    (hkeeps : KeepsUse j.stats gc) : Accounted (j.after ⟨time, gc, .status⟩) := by
  have hopen := h.isOpen htime
  obtain ⟨hupdate, hlook⟩ := hopen.look_eq hextruded hkeeps
  have hread : j.stats.readFilament gc = j.stats := by
    simp [PrintStats.readFilament, h.pause_eq]
  have hstats : (j.after ⟨time, gc, .status⟩).stats = j.stats.updateDurations time gc := rfl
  have hledger : (j.after ⟨time, gc, .status⟩).ledger =
    j.ledger.look time (decide (j.stats.updateDurations time gc).Extruded) := rfl
  have hbefore := hopen.before_look (j.stats.readFilament gc).Extruded
  rw [printing_of_none h.since_eq] at hbefore
  refine ⟨hopen.extruded_look hextruded hkeeps, .inr (.inr ⟨start, pause, ?_⟩)⟩
  constructor
  case pause_le => exact h.pause_le.trans htime
  case working_eq => exact h.working_eq
  all_goals
    try rw [hledger, hlook]
    try rw [hstats, hupdate]
  case start_eq => rw [hread]; exact h.start_eq
  case pause_eq => rw [hread]; exact h.pause_eq
  case since_eq => exact h.since_eq
  case balance => rw [hread]; exact h.balance
  case prev_nonneg => rw [hread]; exact h.prev_nonneg
  case before_nonneg => rw [printing_of_none h.since_eq]; exact hbefore.1
  case before_le => rw [printing_of_none h.since_eq]; exact hbefore.2

/-- `SET_PRINT_STATS_INFO` changes what it says only. -/
theorem cmdSetPrintStatsInfo_eq (s : PrintStats) (totalLayer currentLayer : Option ℕ) :
    ∃ total current, s.cmdSetPrintStatsInfo totalLayer currentLayer =
      { s with infoTotalLayer := total, infoCurrentLayer := current } := by
  unfold cmdSetPrintStatsInfo
  dsimp only
  split_ifs <;> split <;> try split_ifs
  all_goals exact ⟨_, _, rfl⟩

theorem Accounted.info (h : Accounted j) (htime : j.clock ≤ time)
    (totalLayer currentLayer : Option ℕ) :
    Accounted (j.after ⟨time, gc, .info totalLayer currentLayer⟩) := by
  obtain ⟨total, current, hinfo⟩ := cmdSetPrintStatsInfo_eq j.stats totalLayer currentLayer
  have hafter : j.after ⟨time, gc, .info totalLayer currentLayer⟩ =
      { j with
        stats := { j.stats with infoTotalLayer := total, infoCurrentLayer := current }
        clock := time } := by
    unfold Job.after
    simp only [Call.stats, hinfo]
    rfl
  rw [hafter]
  obtain ⟨hextruded, h | ⟨start, since, h⟩ | ⟨start, pause, h⟩⟩ := h
  · exact ⟨hextruded, .inl ⟨h.start_eq, h.since_eq, h.balance, h.before_le, h.duration_le, h.unseen,
      h.fresh, h.pause_eq⟩⟩
  · exact ⟨hextruded, .inr (.inl ⟨start, since, h.start_eq, h.pause_eq, h.since_eq,
      h.since_le.trans htime, h.balance, h.prev_nonneg, h.printed_nonneg, h.init_eq,
      h.before_nonneg, h.before_le.trans (printing_mono _ htime), h.working_eq⟩)⟩
  · exact ⟨hextruded, .inr (.inr ⟨start, pause, h.start_eq, h.pause_eq, h.since_eq,
      h.pause_le.trans htime, h.balance, h.prev_nonneg, h.init_eq, h.before_nonneg, h.before_le,
      h.working_eq⟩)⟩

/-- The end changes nothing where no print is going on. -/
theorem Ended.finish (h : Ended j) (hextruded : j.ledger.extruded = decide j.stats.Extruded)
    (hf : Finishes j t time) : Accounted t := by
  obtain ⟨⟨state, message, hstats⟩, hledger, hidle⟩ := hf
  simp only [noteFinish, h.start_eq] at hstats
  have hstop : j.ledger.stop time = j.ledger := by
    simp [PrintLedger.stop, printing_of_none h.since_eq, ← h.since_eq]
  have hlook : j.ledger.look time (decide j.stats.Extruded) = j.ledger := by
    have hlook := (@Ended.look_eq j time ⟨0, 1, one_pos⟩ h hextruded).2
    simpa only [updateDurations, h.start_eq] using hlook
  rw [hstop, hstats, hlook] at hledger
  exact ⟨by rw [hledger, hstats, hextruded], .inl (h.mono hstats hledger hidle)⟩

/-- A call that ends the print. -/
theorem Accounted.finish (h : Accounted j) (htime : j.clock ≤ time)
    (hsound : j.stats.printStartTime.isSome = true →
      ∀ pause ∈ j.stats.lastPauseTime, time = pause ∨ ¬ j.stats.Extruded)
    (hf : Finishes j t time) : Accounted t := by
  obtain ⟨hextruded, h | ⟨start, since, h⟩ | ⟨start, pause, h⟩⟩ := h
  · exact h.finish hextruded hf
  · exact (h.isOpen htime).finish hextruded (.inl (h.timePaused_eq time)) hf
  · refine (h.isOpen htime).finish hextruded ?_ hf
    obtain rfl | hunused := hsound (by rw [h.start_eq]; rfl) pause h.pause_eq
    · exact .inl (by rw [h.timePaused_eq]; ring)
    · exact .inr hunused

/-- A worker in its loop is in no pause. -/
theorem Accounted.pause_of_working (h : Accounted j) (hworking : j.working = true) {pause : ℚ}
    (hstart : j.stats.printStartTime.isSome = true) (hpause : j.stats.lastPauseTime = some pause) :
    False := by
  obtain ⟨-, h | ⟨start, since, h⟩ | ⟨start, pause, h⟩⟩ := h
  · simp [h.start_eq] at hstart
  · simp [h.pause_eq] at hpause
  · simp [h.working_eq] at hworking

/-- A worker that has its file in its loop is in no pause. -/
theorem Accounted.pause_eq (h : Accounted j) (hfile : j.file = true) (hworking : j.working = true) :
    j.stats.lastPauseTime = none := by
  obtain ⟨-, h | ⟨start, since, h⟩ | ⟨start, pause, h⟩⟩ := h
  · exact (h.pause_eq hfile).1
  · exact h.pause_eq
  · simp [h.working_eq] at hworking

/-- Every call keeps the accounts. -/
theorem accounted_step {e : Event} (h : Accounted j) (hsound : Sound j e)
    (hnext : jobs.next j e = some t) : Accounted t := by
  obtain ⟨time, gc, call⟩ := e
  simp only [jobs, Option.ite_none_right_eq_some, Option.some_inj] at hnext
  obtain ⟨⟨htime, hallowed⟩, rfl⟩ := hnext
  cases call with
  | load filename =>
    have hidle : j.working = false := by simpa [Call.allowed] using hallowed
    exact accounted_setCurrentFile rfl rfl hidle
  | loadFails isOpen =>
    have hidle : j.working = false := by simpa [Call.allowed] using hallowed
    exact accounted_setCurrentFile (j := j.after _) (show _ = setCurrentFile [] from rfl) rfl hidle
  | resetFile =>
    have hidle : j.working = false := by simpa [Call.allowed] using hallowed
    exact accounted_setCurrentFile (j := j.after _) (show _ = setCurrentFile [] from rfl) rfl hidle
  | start =>
    obtain ⟨hfile, hworking⟩ : j.file = true ∧ j.working = false := by
      simpa [Call.allowed] using hallowed
    obtain ⟨hextruded, h | ⟨start, since, h⟩ | ⟨start, pause, h⟩⟩ := h
    · exact h.start hextruded hfile (hsound h.start_eq)
    · simp [h.working_eq] at hworking
    · exact h.start hextruded htime
  | leave =>
    obtain ⟨hfile, hworking⟩ : j.file = true ∧ j.working = true := by
      simpa [Call.allowed] using hallowed
    obtain ⟨hextruded, h | ⟨start, since, h⟩ | ⟨start, pause, h⟩⟩ := h
    · simp [(h.pause_eq hfile).2] at hworking
    · exact h.leave hextruded htime hsound
    · simp [h.working_eq] at hworking
  | complete =>
    exact h.finish htime (fun hstart pause hpause => (h.pause_of_working hallowed hstart hpause).elim)
      ⟨⟨_, _, rfl⟩, rfl, fun hfile => nomatch hfile⟩
  | fail message =>
    refine h.finish htime
      (fun hstart pause hpause => (h.pause_of_working hallowed hstart hpause).elim)
      ⟨⟨_, _, rfl⟩, rfl, fun hfile => ⟨?_, rfl⟩⟩
    have hpause : (j.stats.noteError message time).lastPauseTime = j.stats.lastPauseTime := by
      unfold noteError noteFinish
      split <;> rfl
    exact hpause.trans (h.pause_eq hfile hallowed)
  | cancel => exact h.finish htime hsound ⟨⟨_, _, rfl⟩, rfl, fun hfile => nomatch hfile⟩
  | status =>
    obtain ⟨hextruded, h | ⟨start, since, h⟩ | ⟨start, pause, h⟩⟩ := h
    · exact h.status hextruded
    · exact h.status hextruded htime hsound
    · exact h.status hextruded htime hsound
  | info totalLayer currentLayer => exact h.info htime totalLayer currentLayer

/-- In the runs whose calls are sound, the durations agree with the ledger. -/
theorem accounted_of_reachable (h : jobs.ReachableBy Sound j) : Accounted j :=
  h.invariant (fun _ => accounted_init) fun _ _ _ => accounted_step

/-! ## The report -/

/-- As long as a paused print is only cancelled at once or before an extrusion, a print that has
failed is not started again, and no reading takes back an extrusion, `get_status` reports the time
that was spent printing, less that before an extrusion was seen. -/
theorem reports_time_printing (h : jobs.ReachableBy Sound j) (htime : j.clock ≤ time)
    (hsound : Sound j ⟨time, gc, .status⟩) : j.StatusExact time gc :=
  (accounted_of_reachable h).statusExact htime hsound

/-- Nothing was called yet. -/
def Job.start : Job where
  stats := reset
  file := false
  working := false
  clock := 0
  ledger := .empty

/-- A status of `gcode_move`, without a factor. -/
def GcStatus.at (e : ℚ) : GcStatus :=
  ⟨e, 1, one_pos⟩

/-- A print of ten seconds, which goes on for five after a pause. -/
def resumedPrint : List Event :=
  [⟨0, .at 0, .load "a.gcode".toList⟩, ⟨0, .at 0, .start⟩, ⟨1, .at 0, .status⟩,
    ⟨10, .at 5, .leave⟩, ⟨110, .at 5, .start⟩, ⟨115, .at 8, .leave⟩]

/-- A print of ten seconds, cancelled after a pause of a hundred. -/
def cancelledPrint : List Event :=
  [⟨0, .at 0, .load "a.gcode".toList⟩, ⟨0, .at 0, .start⟩, ⟨10, .at 5, .leave⟩,
    ⟨110, .at 5, .cancel⟩]

/-- The state after a run from the start. -/
def Job.afterRun (events : List Event) : Job :=
  (jobs.run .start events).getD .start

theorem run_start {events : List Event} (h : (jobs.run .start events).isSome = true) :
    jobs.run .start events = some (.afterRun events) := by
  obtain ⟨j, hj⟩ := Option.isSome_iff_exists.1 h
  rw [Job.afterRun, hj]
  rfl

theorem reports_resumedPrint : (Job.afterRun resumedPrint).StatusExact 200 (.at 8) ∧
    ((Job.afterRun resumedPrint).stats.getStatus 200 (.at 8)).1.printDuration = 14 := by
  refine ⟨reports_time_printing ?_ (by decide +kernel) (by decide +kernel), by decide +kernel⟩
  exact System.ReachableBy.run (.init ⟨rfl, rfl, rfl, rfl⟩)
    (by decide +kernel : jobs.meets Sound .start resumedPrint = true) (run_start (by decide +kernel))

/-- A print that is cancelled in a pause counts the pause. -/
theorem not_reports_time_printing : ¬ ∀ j, jobs.Reachable j → ∀ time gc, j.clock ≤ time →
    j.StatusExact time gc := by
  intro h
  have hreach : jobs.Reachable (.afterRun cancelledPrint) :=
    System.Reachable.run (.init ⟨rfl, rfl, rfl, rfl⟩) (run_start (by decide +kernel))
  have hexact := h _ hreach 200 (.at 5) (by decide +kernel)
  exact absurd hexact (by decide +kernel)

example : ((Job.afterRun cancelledPrint).stats.getStatus 200 (.at 5)).1.printDuration = 110 := by
  decide +kernel

end PrintStats

end Thinker.PrintTime
