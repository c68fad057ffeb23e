import Thinker.Transition
import Mathlib.Tactic

/-!
# The idle timeout

The toolhead sends an event when it moves its print time to a time after the estimated one. The idle
timeout is in the state `Printing` from then on, a timer takes it to `Ready` when the motion is
over, and later to a script and to `Idle`. While the script runs the events are ignored.

The toolhead and the idle timeout are one `World`, with times that are rational numbers. Moves that
are sent in pieces, as in homing, are left out. `Moves` says what the toolhead does to the states,
`Inv` what holds in every state of a run in which the toolhead is flushed in time.
-/

namespace Thinker

namespace IdleTimeout

/-- `READY_TIMEOUT`. -/
def readyTimeout : ℚ := 1 / 2

/-- `MIN_KIN_TIME`. -/
def minKinTime : ℚ := 1 / 10

/-- `BUFFER_TIME_START`. -/
def bufferTimeStart : ℚ := 1 / 4

/-- `BUFFER_TIME_LOW`. -/
def bufferTimeLow : ℚ := 1

/-- `STEPCOMPRESS_FLUSH_TIME`. -/
def stepcompressFlushTime : ℚ := 1 / 20

/-- `BGFLUSH_LOW_TIME`. -/
def bgflushLowTime : ℚ := 1 / 5

/-- `BGFLUSH_BATCH_TIME`. -/
def bgflushBatchTime : ℚ := 1 / 5

/-- `BGFLUSH_EXTRA_TIME`. -/
def bgflushExtraTime : ℚ := 1 / 4

/-- `special_queuing_state`, which is empty in the main state. -/
inductive Queuing
  | main | needPrime | priming
deriving DecidableEq, Repr

/-- `state`. -/
inductive State
  | idle | printing | ready
deriving DecidableEq, Repr

/-- A start of the idle script : for how long no motion was pending, the timeout, whether moves are
queued and whether g-code is executing. -/
structure Start where
  idleTime : ℚ
  timeout : ℚ
  lookahead : ℕ
  executing : Bool
deriving DecidableEq, Repr

/-- The toolhead, the idle timeout and the g-code. -/
structure World where
  /-- The time of the reactor. -/
  now : ℚ
  /-- The estimated print time. -/
  est : ℚ
  printTime : ℚ
  special : Queuing
  /-- The number of moves in the look-ahead queue. -/
  lookahead : ℕ
  kinFlushDelay : ℚ
  lastFlushTime : ℚ
  minRestartTime : ℚ
  needFlushTime : ℚ
  stepGenTime : ℚ
  state : State
  /-- `timeout_timer`, when it is armed. -/
  timer : Option ℚ
  idleTimeout : ℚ
  /-- The mutex of the g-code is held. -/
  executing : Bool
  /-- The idle script runs. -/
  script : Bool
  /-- The time of the timer that started it. -/
  scriptTime : ℚ
  /-- An idle script has ended since the last change to `Printing`. -/
  stale : Bool
  /-- The last estimated print time at which motion was pending. -/
  lastBusy : ℚ
  /-- The starts of the idle script. -/
  starts : List Start
deriving DecidableEq, Repr

namespace World

/-- At `klippy:ready`, when the print time estimates to `est`. -/
def init (now est kinFlushDelay idleTimeout : ℚ) : World :=
  ⟨now, est, 0, .needPrime, 0, kinFlushDelay, 0, 0, 0, 0, .idle, none, idleTimeout, false, false, 0,
    false, 0, []⟩

variable (w : World)

/-! ## The toolhead -/

/-- `handle_sync_print_time`. The toolhead passes the estimated print time before the print time,
and the handler takes them in the other order. -/
def handleSyncPrintTime (curtime printTime estPrintTime : ℚ) : World :=
  if w.state = .printing then w
  else
    { w with
      state := .printing
      timer := some (curtime + (readyTimeout + printTime - estPrintTime))
      stale := false }

/-- `_advance_flush_time`. -/
def advanceFlushTime (flushTime : ℚ) : World :=
  let flushTime := max flushTime w.lastFlushTime
  let sgFlushWant := min (flushTime + stepcompressFlushTime) (w.printTime - w.kinFlushDelay)
  let sgFlushTime := max sgFlushWant flushTime
  { w with minRestartTime := max w.minRestartTime sgFlushTime, lastFlushTime := flushTime }

/-- `_advance_move_time`. The flushes in batches before the last one leave nothing else. -/
def advanceMoveTime (nextPrintTime : ℚ) : World :=
  let ptDelay := w.kinFlushDelay + stepcompressFlushTime
  let flushTime := max w.lastFlushTime (w.printTime - ptDelay)
  let printTime := max w.printTime nextPrintTime
  advanceFlushTime { w with printTime := printTime } (max flushTime (printTime - ptDelay))

/-- `_calc_print_time`. -/
def calcPrintTime : World :=
  let kinTime := max (w.est + minKinTime) w.minRestartTime + w.kinFlushDelay
  let minPrintTime := max (w.est + bufferTimeStart) kinTime
  if minPrintTime > w.printTime then
    handleSyncPrintTime { w with printTime := minPrintTime } w.now w.est minPrintTime
  else w

/-- `_process_moves` for a number of moves that take a time. -/
def processMoves (moves : ℕ) (time : ℚ) : World :=
  let w := if w.special = .main then w else calcPrintTime { w with special := .main }
  let nextMoveTime := w.printTime + time
  advanceMoveTime { w with
    needFlushTime := max w.needFlushTime (nextMoveTime + w.kinFlushDelay)
    stepGenTime := max w.stepGenTime (nextMoveTime + w.kinFlushDelay)
    lookahead := w.lookahead - moves } nextMoveTime

/-- `lookahead.flush`. -/
def flush (time : ℚ) : World :=
  if w.lookahead = 0 then w else w.processMoves w.lookahead time

/-- `_flush_lookahead`. -/
def flushLookahead (time : ℚ) : World := { w.flush time with special := .needPrime }

/-- `flush_step_generation`. -/
def flushStepGeneration (time : ℚ) : World :=
  let w := w.flushLookahead time
  let w := w.advanceFlushTime w.stepGenTime
  { w with minRestartTime := max w.minRestartTime w.printTime }

/-- `get_last_move_time`. -/
def getLastMoveTime (time : ℚ) : World :=
  if w.special = .main then w.flush time else (w.flushLookahead time).calcPrintTime

/-- `_check_pause`, which is always called in the special states. -/
def checkPause : World := if w.special = .main then w else { w with special := .priming }

/-- `move`, after which the first moves of the queue may be processed. -/
def move (flushed : ℕ) (time : ℚ) : World :=
  let w := { w with lookahead := w.lookahead + 1 }
  let w := if flushed = 0 then w else w.processMoves flushed time
  w.checkPause

/-- `dwell`. -/
def dwell (delay time : ℚ) : World :=
  let w := w.getLastMoveTime time
  (w.advanceMoveTime (w.printTime + max 0 delay)).checkPause

/-- `_priming_handler`. -/
def primingHandler (time : ℚ) : World :=
  if w.special = .priming then w.flushLookahead time else w

/-- `_flush_handler`. A second flush of the queues would find nothing to do. -/
def flushHandler (time : ℚ) : World :=
  if w.special = .main ∧ w.printTime - w.est > bufferTimeLow then w
  else
    let w := if w.special = .main then w.flushLookahead time else w
    let endFlush := w.needFlushTime + bgflushExtraTime
    if w.lastFlushTime ≥ endFlush ∨ w.lastFlushTime - w.est > bgflushLowTime then w
    else w.advanceFlushTime (min endFlush (w.est + bgflushLowTime + bgflushBatchTime))

/-! ## The idle timeout -/

/-- `transition_idle_state` until the script runs. -/
def transitionIdleState : World :=
  { w with
    state := .printing
    timer := none
    executing := true
    script := true
    scriptTime := w.now
    starts := w.starts ++ [⟨w.est - w.lastBusy, w.idleTimeout, w.lookahead, w.executing⟩] }

/-- `check_idle_timeout`. -/
def checkIdleTimeout : World :=
  let idleTime := w.est - w.printTime
  if w.lookahead ≠ 0 ∨ idleTime < 1 then { w with timer := some (w.now + w.idleTimeout) }
  else if idleTime < w.idleTimeout then
    { w with timer := some (w.now + w.idleTimeout - idleTime) }
  else if w.executing then { w with timer := some (w.now + 1) }
  else w.transitionIdleState

/-- `timeout_handler`. -/
def timeoutHandler : World :=
  if w.state = .ready then w.checkIdleTimeout
  else
    let bufferTime := min 2 (w.printTime - w.est)
    if w.lookahead ≠ 0 then { w with timer := some (w.now + readyTimeout + max 0 bufferTime) }
    else if bufferTime > -readyTimeout then
      { w with timer := some (w.now + readyTimeout + bufferTime) }
    else if w.executing then { w with timer := some (w.now + readyTimeout) }
    else { w with state := .ready, timer := some (w.now + w.idleTimeout) }

/-- The script has run. -/
def scriptDone (time : ℚ) : World :=
  { getLastMoveTime { w with executing := false } time with
    state := .idle
    timer := none
    script := false
    stale := true }

/-- The script has raised an error. -/
def scriptFailed : World :=
  { w with
    executing := false
    state := .ready
    timer := some (w.scriptTime + 1)
    script := false
    stale := true }

/-- `cmd_SET_IDLE_TIMEOUT`. -/
def setIdleTimeout (timeout : ℚ) : World :=
  { w with
    idleTimeout := timeout
    timer := if w.state = .ready then some (w.now + timeout) else w.timer }

/-- Time passes. -/
def tick (dt de : ℚ) : World :=
  { w with
    now := w.now + dt
    est := w.est + de
    lastBusy :=
      if w.lookahead = 0 then max w.lastBusy (min (w.est + de) w.printTime) else w.est + de }

end World

/-! ## Runs -/

/-- What may happen. -/
inductive Event
  /-- Time passes, and the estimated print time does not decrease. -/
  | tick (dt de : ℚ)
  /-- A g-code command starts to execute. -/
  | lock
  /-- It ends. -/
  | unlock
  | setIdleTimeout (timeout : ℚ)
  | move (flushed : ℕ) (time : ℚ)
  | dwell (delay time : ℚ)
  /-- `wait_moves`. -/
  | wait (time : ℚ)
  | lastMoveTime (time : ℚ)
  | flushStepGeneration (time : ℚ)
  | primingHandler (time : ℚ)
  | flushHandler (time : ℚ)
  | timeoutHandler
  | scriptDone (time : ℚ)
  | scriptFailed
deriving DecidableEq, Repr

/-- One step. The moves of a queue take no negative time. -/
def next (w : World) : Event → Option World
  | .tick dt de => if 0 ≤ dt ∧ 0 ≤ de then some (w.tick dt de) else none
  | .lock => if w.executing then none else some { w with executing := true }
  | .unlock => if w.executing ∧ ¬w.script then some { w with executing := false } else none
  | .setIdleTimeout timeout => if 0 < timeout then some (w.setIdleTimeout timeout) else none
  | .move flushed time =>
    if 0 ≤ time ∧ flushed ≤ w.lookahead + 1 then some (w.move flushed time) else none
  | .dwell delay time => if 0 ≤ time then some (w.dwell delay time) else none
  | .wait time => if 0 ≤ time then some (w.flushLookahead time) else none
  | .lastMoveTime time => if 0 ≤ time then some (w.getLastMoveTime time) else none
  | .flushStepGeneration time => if 0 ≤ time then some (w.flushStepGeneration time) else none
  | .primingHandler time => if 0 ≤ time then some (w.primingHandler time) else none
  | .flushHandler time => if 0 ≤ time then some (w.flushHandler time) else none
  | .timeoutHandler =>
    if ∃ t ∈ w.timer, t ≤ w.now then some w.timeoutHandler else none
  | .scriptDone time => if w.script ∧ 0 ≤ time then some (w.scriptDone time) else none
  | .scriptFailed => if w.script then some w.scriptFailed else none

/-- A printer from `klippy:ready` on. -/
def system : System World Event :=
  ⟨fun w => ∃ now est kinFlushDelay idleTimeout, 0 ≤ est ∧ 0 < idleTimeout ∧
    w = .init now est kinFlushDelay idleTimeout, next⟩

/-- In its main state the toolhead is used only while its print time is ahead, for its queue is
flushed before. -/
def InTime (w : World) : Event → Prop
  | .tick _ _ | .lock | .unlock | .setIdleTimeout _ | .timeoutHandler | .scriptFailed => True
  | _ => w.special = .main → w.est < w.printTime

/-! ## What the toolhead does -/

/-- What the toolhead leaves, and how it changes the print time and the state. -/
structure Moves (w w' : World) : Prop where
  est : w'.est = w.est
  script : w'.script = w.script
  lastBusy : w'.lastBusy = w.lastBusy
  starts : w'.starts = w.starts
  le : w.printTime ≤ w'.printTime
  state : w'.state = w.state ∧ w'.timer = w.timer ∧ w'.stale = w.stale ∨
    w.state ≠ .printing ∧ w'.state = .printing ∧ w'.timer.isSome = true ∧ w'.stale = false
  /-- The print time gets ahead in the state `Printing` only. -/
  ahead : w.est < w'.printTime → w.est < w.printTime ∨ w'.state = .printing
  /-- The moves that were queued are ahead. -/
  lookahead : w'.lookahead = 0 → w.lookahead = 0 ∨ w.est < w'.printTime

namespace Moves

variable {w w' w'' : World}

theorem refl (w : World) : Moves w w :=
  ⟨rfl, rfl, rfl, rfl, le_rfl, .inl ⟨rfl, rfl, rfl⟩, .inl, .inl⟩

/-- The state stays `Printing`. -/
theorem printing (h : Moves w w') (hs : w.state = .printing) : w'.state = .printing := by
  rcases h.state with ⟨hsame, -, -⟩ | ⟨-, hs', -⟩
  · exact hsame.trans hs
  · exact hs'

theorem trans (h : Moves w w') (h' : Moves w' w'') : Moves w w'' where
  est := h'.est.trans h.est
  script := h'.script.trans h.script
  lastBusy := h'.lastBusy.trans h.lastBusy
  starts := h'.starts.trans h.starts
  le := h.le.trans h'.le
  state := by
    rcases h'.state with ⟨hs', ht', hst'⟩ | ⟨hn', hs', ht', hst'⟩
    · rcases h.state with ⟨hs, ht, hst⟩ | ⟨hn, hs, ht, hst⟩
      · exact .inl ⟨hs'.trans hs, ht'.trans ht, hst'.trans hst⟩
      · exact .inr ⟨hn, hs'.trans hs, by rwa [ht'], hst'.trans hst⟩
    · exact .inr ⟨fun hs => hn' (h.printing hs), hs', ht', hst'⟩
  ahead hlt := by
    rcases h'.ahead (by rwa [h.est]) with hlt' | hs'
    · rw [h.est] at hlt'
      exact (h.ahead hlt').imp_right h'.printing
    · exact .inr hs'
  lookahead hz := by
    rcases h'.lookahead hz with hz' | hlt
    · exact (h.lookahead hz').imp_right fun hlt => hlt.trans_le h'.le
    · rw [h.est] at hlt
      exact .inr hlt

/-- What is neither the print time, the queue nor the state. -/
theorem of_eq (hest : w'.est = w.est) (hscript : w'.script = w.script)
    (hbusy : w'.lastBusy = w.lastBusy) (hstarts : w'.starts = w.starts)
    (hprint : w'.printTime = w.printTime) (hstate : w'.state = w.state)
    (htimer : w'.timer = w.timer) (hstale : w'.stale = w.stale)
    (hlook : w'.lookahead = w.lookahead) : Moves w w' :=
  ⟨hest, hscript, hbusy, hstarts, hprint.ge, .inl ⟨hstate, htimer, hstale⟩,
    fun h => .inl (hprint ▸ h), fun h => .inl (hlook ▸ h)⟩

theorem special (w : World) (q : Queuing) : Moves w { w with special := q } :=
  of_eq rfl rfl rfl rfl rfl rfl rfl rfl rfl

theorem advanceFlushTime (w : World) (t : ℚ) : Moves w (w.advanceFlushTime t) :=
  of_eq rfl rfl rfl rfl rfl rfl rfl rfl rfl

/-- The print time advances when it is ahead. -/
theorem advanceMoveTime (hlt : w.est < w.printTime) (t : ℚ) : Moves w (w.advanceMoveTime t) :=
  ⟨rfl, rfl, rfl, rfl, le_max_left _ _, .inl ⟨rfl, rfl, rfl⟩, fun _ => .inl hlt, .inl⟩

/-- After a resynchronisation the print time is ahead. -/
theorem calcPrintTime (w : World) :
    Moves w w.calcPrintTime ∧ w.est < w.calcPrintTime.printTime := by
  obtain ⟨t, ht⟩ : ∃ t, max (w.est + bufferTimeStart)
      (max (w.est + minKinTime) w.minRestartTime + w.kinFlushDelay) = t := ⟨_, rfl⟩
  have hest : w.est < t := by
    rw [← ht]
    exact lt_max_of_lt_left (lt_add_of_pos_right _ (by norm_num [bufferTimeStart]))
  unfold World.calcPrintTime
  simp only [ht]
  split
  next hlt =>
    unfold World.handleSyncPrintTime
    split
    next hs =>
      exact ⟨⟨rfl, rfl, rfl, rfl, hlt.le, .inl ⟨rfl, rfl, rfl⟩, fun _ => .inr hs, .inl⟩, hest⟩
    next hs =>
      exact ⟨⟨rfl, rfl, rfl, rfl, hlt.le, .inr ⟨hs, rfl, rfl, rfl⟩, fun _ => .inr rfl, .inl⟩, hest⟩
  next hle => exact ⟨.refl w, hest.trans_le (not_lt.1 hle)⟩

/-- Moves that are processed are ahead. -/
theorem processMoves (hsafe : w.special = .main → w.est < w.printTime) (moves : ℕ) (time : ℚ) :
    Moves w (w.processMoves moves time) ∧ w.est < (w.processMoves moves time).printTime := by
  obtain ⟨v, hv, hmoves, hlt⟩ : ∃ v, (if w.special = .main then w else
      World.calcPrintTime { w with special := .main }) = v ∧ Moves w v ∧ w.est < v.printTime := by
    split
    next hs => exact ⟨w, rfl, .refl w, hsafe hs⟩
    next =>
      obtain ⟨hmoves, hlt⟩ := calcPrintTime { w with special := .main }
      exact ⟨_, rfl, (special w .main).trans hmoves, hlt⟩
  have hlt' : v.est < v.printTime := by rwa [hmoves.est]
  unfold World.processMoves
  simp only [hv]
  -- the queue gets shorter while the print time is ahead
  have hqueue : Moves v { v with
      needFlushTime := max v.needFlushTime (v.printTime + time + v.kinFlushDelay)
      stepGenTime := max v.stepGenTime (v.printTime + time + v.kinFlushDelay)
      lookahead := v.lookahead - moves } :=
    ⟨rfl, rfl, rfl, rfl, le_rfl, .inl ⟨rfl, rfl, rfl⟩, .inl, fun _ => .inr hlt'⟩
  refine ⟨(hmoves.trans hqueue).trans (advanceMoveTime ?_ _), hlt.trans_le (le_max_left _ _)⟩
  exact hlt'

theorem flush (hsafe : w.special = .main → w.est < w.printTime) (time : ℚ) :
    Moves w (w.flush time) := by
  unfold World.flush
  split
  · exact .refl w
  · exact (processMoves hsafe _ time).1

theorem flushLookahead (hsafe : w.special = .main → w.est < w.printTime) (time : ℚ) :
    Moves w (w.flushLookahead time) :=
  (flush hsafe time).trans (special _ .needPrime)

theorem flushStepGeneration (hsafe : w.special = .main → w.est < w.printTime) (time : ℚ) :
    Moves w (w.flushStepGeneration time) :=
  ((flushLookahead hsafe time).trans
    (advanceFlushTime _ (w.flushLookahead time).stepGenTime)).trans
    (of_eq rfl rfl rfl rfl rfl rfl rfl rfl rfl)

/-- The last move time is ahead. -/
theorem getLastMoveTime (hsafe : w.special = .main → w.est < w.printTime) (time : ℚ) :
    Moves w (w.getLastMoveTime time) ∧ w.est < (w.getLastMoveTime time).printTime := by
  unfold World.getLastMoveTime
  split
  next hs =>
    have h := flush hsafe time
    exact ⟨h, (hsafe hs).trans_le h.le⟩
  next =>
    have h := flushLookahead hsafe time
    obtain ⟨hcalc, hlt⟩ := calcPrintTime (w.flushLookahead time)
    exact ⟨h.trans hcalc, h.est ▸ hlt⟩

theorem checkPause (w : World) : Moves w w.checkPause := by
  unfold World.checkPause
  split
  · exact .refl w
  · exact special w .priming

theorem move (hsafe : w.special = .main → w.est < w.printTime) (flushed : ℕ) (time : ℚ) :
    Moves w (w.move flushed time) := by
  have hadd : Moves w { w with lookahead := w.lookahead + 1 } :=
    ⟨rfl, rfl, rfl, rfl, le_rfl, .inl ⟨rfl, rfl, rfl⟩, .inl, fun hz => absurd hz (by simp)⟩
  refine Moves.trans ?_ (checkPause _)
  split
  · exact hadd
  · exact hadd.trans (processMoves (w := { w with lookahead := w.lookahead + 1 }) hsafe _ time).1

theorem dwell (hsafe : w.special = .main → w.est < w.printTime) (delay time : ℚ) :
    Moves w (w.dwell delay time) := by
  obtain ⟨h, hlt⟩ := getLastMoveTime hsafe time
  exact (h.trans (advanceMoveTime (h.est.symm ▸ hlt) _)).trans (checkPause _)

theorem primingHandler (hsafe : w.special = .main → w.est < w.printTime) (time : ℚ) :
    Moves w (w.primingHandler time) := by
  unfold World.primingHandler
  split
  · exact flushLookahead hsafe time
  · exact .refl w

theorem flushHandler (hsafe : w.special = .main → w.est < w.printTime) (time : ℚ) :
    Moves w (w.flushHandler time) := by
  unfold World.flushHandler
  split
  · exact .refl w
  · obtain ⟨v, hv, h⟩ : ∃ v, (if w.special = .main then w.flushLookahead time else w) = v ∧
        Moves w v := by
      split
      · exact ⟨_, rfl, flushLookahead hsafe time⟩
      · exact ⟨_, rfl, .refl w⟩
    simp only [hv]
    split
    · exact h
    · exact h.trans (advanceFlushTime _ _)

end Moves

/-! ## The idle timeout -/

/-- The script was started when no motion had been pending for the timeout, no move was queued and
no g-code was executing. -/
def Start.Idle (s : Start) : Prop :=
  s.timeout ≤ s.idleTime ∧ s.lookahead = 0 ∧ s.executing = false

/-- What holds in every state. -/
structure Inv (w : World) : Prop where
  printing : w.script = false → w.stale = false → w.est < w.printTime → w.state = .printing
  armed : w.script = false → w.state ≠ .idle → w.timer.isSome = true
  running : w.script = true → w.state = .printing ∧ w.timer = none
  lastBusy : w.lastBusy ≤ w.est
  /-- Motion was last pending before the print time, unless moves are queued. -/
  idle : w.lookahead = 0 → w.lastBusy ≤ w.printTime
  starts : ∀ s ∈ w.starts, s.Idle

namespace Inv

variable {w w' : World}

/-- The toolhead keeps it. -/
theorem moves (h : Inv w) (hm : Moves w w') : Inv w' where
  printing hscript hstale hlt := by
    rw [hm.script] at hscript
    rw [hm.est] at hlt
    rcases hm.state with ⟨hs, -, hst⟩ | ⟨-, hs, -⟩
    · rcases hm.ahead hlt with hlt' | hs'
      · exact hs.trans (h.printing hscript (hst.symm.trans hstale) hlt')
      · exact hs'
    · exact hs
  armed hscript hs' := by
    rw [hm.script] at hscript
    rcases hm.state with ⟨hs, ht, -⟩ | ⟨-, -, ht, -⟩
    · rw [ht]
      exact h.armed hscript (hs ▸ hs')
    · exact ht
  running hscript := by
    obtain ⟨hs, ht⟩ := h.running (hm.script ▸ hscript)
    rcases hm.state with ⟨hs', ht', -⟩ | ⟨hn, -⟩
    · exact ⟨hs'.trans hs, ht'.trans ht⟩
    · exact absurd hs hn
  lastBusy := by
    rw [hm.lastBusy, hm.est]
    exact h.lastBusy
  idle hz := by
    rw [hm.lastBusy]
    rcases hm.lookahead hz with hz' | hlt
    · exact (h.idle hz').trans hm.le
    · exact h.lastBusy.trans hlt.le
  starts := by
    rw [hm.starts]
    exact h.starts

theorem tick (h : Inv w) {dt de : ℚ} (hde : 0 ≤ de) : Inv (w.tick dt de) where
  printing hscript hstale hlt :=
    h.printing hscript hstale ((le_add_of_nonneg_right hde).trans_lt hlt)
  armed := h.armed
  running := h.running
  lastBusy := by
    show (if w.lookahead = 0 then _ else _) ≤ w.est + de
    split
    · exact max_le (h.lastBusy.trans (le_add_of_nonneg_right hde)) (min_le_left _ _)
    · exact le_rfl
  idle hz := by
    have hz : w.lookahead = 0 := hz
    show (if w.lookahead = 0 then _ else _) ≤ w.printTime
    rw [if_pos hz]
    exact max_le (h.idle hz) (min_le_right _ _)
  starts := h.starts

/-- The timer is set again. -/
theorem rearm (h : Inv w) (hscript : w.script = false) (t : ℚ) : Inv { w with timer := some t } :=
  ⟨h.printing, fun _ _ => rfl, fun hs => absurd (hscript.symm.trans hs) (by simp), h.lastBusy,
    h.idle, h.starts⟩

/-- The timer decides between the states. -/
theorem timeoutHandler (h : Inv w) (hscript : w.script = false) : Inv w.timeoutHandler := by
  unfold World.timeoutHandler
  split
  · unfold World.checkIdleTimeout
    simp only
    split
    · exact h.rearm hscript _
    next hbusy =>
      split
      · exact h.rearm hscript _
      next htimeout =>
        split
        · exact h.rearm hscript _
        next hexecuting =>
          -- the script starts
          obtain ⟨hlook, -⟩ := not_or.1 hbusy
          have hz : w.lookahead = 0 := not_not.1 hlook
          refine ⟨fun hn => absurd hn (by simp [World.transitionIdleState]),
            fun hn => absurd hn (by simp [World.transitionIdleState]), fun _ => ⟨rfl, rfl⟩,
            h.lastBusy, h.idle, fun s hs => ?_⟩
          rcases List.mem_append.1 hs with hs | hs
          · exact h.starts s hs
          · obtain rfl := List.mem_singleton.1 hs
            refine ⟨(not_lt.1 htimeout).trans ?_, hz, by simpa using hexecuting⟩
            exact sub_le_sub_left (h.idle hz) _
  · simp only
    split
    · exact h.rearm hscript _
    · split
      · exact h.rearm hscript _
      next hbuffer =>
        split
        · exact h.rearm hscript _
        · -- the motion is over
          refine ⟨fun _ _ hlt => absurd hlt ?_, fun _ _ => rfl,
            fun hs => absurd (hscript.symm.trans hs) (by simp), h.lastBusy, h.idle, h.starts⟩
          show ¬w.est < w.printTime
          intro hlt
          refine hbuffer (lt_min ?_ ?_)
          · norm_num [readyTimeout]
          · have : (0 : ℚ) < w.printTime - w.est := sub_pos.2 hlt
            exact lt_of_lt_of_le (by norm_num [readyTimeout]) this.le

theorem scriptDone (h : Inv w) (hsafe : w.special = .main → w.est < w.printTime) (time : ℚ) :
    Inv (w.scriptDone time) := by
  have hunlocked : Inv { w with executing := false } :=
    ⟨h.printing, h.armed, h.running, h.lastBusy, h.idle, h.starts⟩
  have hlast := hunlocked.moves (Moves.getLastMoveTime (w := { w with executing := false }) hsafe
    time).1
  exact ⟨fun _ hn => absurd hn (by simp [World.scriptDone]), fun _ hn => absurd rfl hn,
    fun hn => absurd hn (by simp [World.scriptDone]), hlast.lastBusy, hlast.idle, hlast.starts⟩

theorem next {e : Event} (h : Inv w) (he : InTime w e) (hw : next w e = some w') : Inv w' := by
  cases e with
  | tick dt de =>
    obtain ⟨⟨-, hde⟩, hw⟩ := Option.ite_none_right_eq_some.1 hw
    obtain rfl := Option.some_inj.1 hw
    exact h.tick hde
  | lock =>
    obtain ⟨-, hw⟩ := Option.ite_none_left_eq_some.1 hw
    obtain rfl := Option.some_inj.1 hw
    exact ⟨h.printing, h.armed, h.running, h.lastBusy, h.idle, h.starts⟩
  | unlock =>
    obtain ⟨-, hw⟩ := Option.ite_none_right_eq_some.1 hw
    obtain rfl := Option.some_inj.1 hw
    exact ⟨h.printing, h.armed, h.running, h.lastBusy, h.idle, h.starts⟩
  | setIdleTimeout timeout =>
    obtain ⟨-, hw⟩ := Option.ite_none_right_eq_some.1 hw
    obtain rfl := Option.some_inj.1 hw
    refine ⟨h.printing, fun hscript hs => ?_, fun hscript => ?_, h.lastBusy, h.idle, h.starts⟩
    · show (if w.state = .ready then some (w.now + timeout) else w.timer).isSome = true
      split
      · rfl
      · exact h.armed hscript hs
    · obtain ⟨hs, ht⟩ := h.running hscript
      refine ⟨hs, ?_⟩
      show (if w.state = .ready then some (w.now + timeout) else w.timer) = none
      rw [if_neg (by simp [hs]), ht]
  | move flushed time =>
    obtain ⟨-, hw⟩ := Option.ite_none_right_eq_some.1 hw
    obtain rfl := Option.some_inj.1 hw
    exact h.moves (.move he flushed time)
  | dwell delay time =>
    obtain ⟨-, hw⟩ := Option.ite_none_right_eq_some.1 hw
    obtain rfl := Option.some_inj.1 hw
    exact h.moves (.dwell he delay time)
  | wait time =>
    obtain ⟨-, hw⟩ := Option.ite_none_right_eq_some.1 hw
    obtain rfl := Option.some_inj.1 hw
    exact h.moves (.flushLookahead he time)
  | lastMoveTime time =>
    obtain ⟨-, hw⟩ := Option.ite_none_right_eq_some.1 hw
    obtain rfl := Option.some_inj.1 hw
    exact h.moves (Moves.getLastMoveTime he time).1
  | flushStepGeneration time =>
    obtain ⟨-, hw⟩ := Option.ite_none_right_eq_some.1 hw
    obtain rfl := Option.some_inj.1 hw
    exact h.moves (.flushStepGeneration he time)
  | primingHandler time =>
    obtain ⟨-, hw⟩ := Option.ite_none_right_eq_some.1 hw
    obtain rfl := Option.some_inj.1 hw
    exact h.moves (.primingHandler he time)
  | flushHandler time =>
    obtain ⟨-, hw⟩ := Option.ite_none_right_eq_some.1 hw
    obtain rfl := Option.some_inj.1 hw
    exact h.moves (.flushHandler he time)
  | timeoutHandler =>
    obtain ⟨⟨t, ht, -⟩, hw⟩ := Option.ite_none_right_eq_some.1 hw
    obtain rfl := Option.some_inj.1 hw
    refine h.timeoutHandler (Bool.eq_false_iff.2 fun hscript => ?_)
    rw [(h.running hscript).2] at ht
    exact absurd ht (by simp)
  | scriptDone time =>
    obtain ⟨-, hw⟩ := Option.ite_none_right_eq_some.1 hw
    obtain rfl := Option.some_inj.1 hw
    exact h.scriptDone he time
  | scriptFailed =>
    obtain ⟨-, hw⟩ := Option.ite_none_right_eq_some.1 hw
    obtain rfl := Option.some_inj.1 hw
    exact ⟨fun _ hn => absurd hn (by simp [World.scriptFailed]), fun _ _ => rfl,
      fun hn => absurd hn (by simp [World.scriptFailed]), h.lastBusy, h.idle, h.starts⟩

theorem of_reachable (h : system.ReachableBy InTime w) : Inv w := by
  refine System.ReachableBy.invariant ?_ ?_ h
  · rintro s ⟨now, est, kinFlushDelay, idleTimeout, hest, -, rfl⟩
    exact ⟨fun _ _ hlt => absurd hlt (not_lt.2 hest), fun _ hn => absurd rfl hn,
      fun hn => absurd hn Bool.false_ne_true, hest, fun _ => le_rfl, by simp [World.init]⟩
  · intro s e t hs he ht
    exact hs.next he ht

end Inv

/-- What the states say about the motion. -/
structure Correct (w : World) : Prop where
  /-- While the print time is ahead the state is `Printing`, but for the time from the end of an
  idle script to the next resynchronisation. -/
  printing : w.script = false → w.stale = false → w.est < w.printTime → w.state = .printing
  /-- In the states `Printing` and `Ready` the timer is armed. -/
  armed : w.script = false → w.state = .printing ∨ w.state = .ready → w.timer.isSome = true
  /-- The idle script is started when nothing goes on. -/
  starts : ∀ s ∈ w.starts, s.Idle

/-- As long as the toolhead is flushed in time the states follow the motion. -/
theorem follows_motion {w : World} (h : system.ReachableBy InTime w) : Correct w where
  printing := (Inv.of_reachable h).printing
  armed hscript hs := (Inv.of_reachable h).armed hscript fun hidle => by simp [hidle] at hs
  starts := (Inv.of_reachable h).starts

instance (w : World) (e : Event) : Decidable (InTime w e) := by
  cases e <;> unfold InTime <;> infer_instance

/-- A printer at its start. -/
def start : World := .init 0 0 (1 / 1000) 600

/-- One move, and the idle script after it. -/
def scriptRun : List Event :=
  [.move 0 0, .wait 1, .tick 1000 1000, .timeoutHandler, .tick 700 700, .timeoutHandler,
    .scriptDone 0]

theorem follows_motion_script : ∃ w, system.run start scriptRun = some w ∧ Correct w ∧
    w.starts.length = 1 := by
  obtain ⟨w, hw⟩ : ∃ w, system.run start scriptRun = some w :=
    Option.isSome_iff_exists.1 (by decide +kernel)
  have hlen : (system.run start scriptRun).map (fun w => w.starts.length) = some 1 := by
    decide +kernel
  rw [hw, Option.map_some, Option.some_inj] at hlen
  have hinit : system.init start := ⟨_, _, _, _, le_rfl, by norm_num, rfl⟩
  exact ⟨w, hw, follows_motion (.run (.init hinit) (by decide +kernel) hw), hlen⟩

/-- A move that waits in the queue. -/
def queuedRun : List Event := [.move 0 0]

/-- A move that the main state adds to a motion that was over. -/
def lateRun : List Event :=
  [.move 1 1, .tick 1000 1000, .timeoutHandler, .move 1 2000]

/-- The state is not always `Printing` : not with moves in the queue, not after an idle script, and
not when the queue is flushed late. -/
theorem not_printing :
    (¬∀ w, system.Reachable w → w.script = false → 0 < w.lookahead ∨ w.est < w.printTime →
      w.state = .printing) ∧
    (¬∀ w, system.ReachableBy InTime w → w.script = false → w.est < w.printTime →
      w.state = .printing) ∧
    ¬∀ w, system.Reachable w → w.script = false → w.stale = false → w.est < w.printTime →
      w.state = .printing := by
  have hinit : system.init start := ⟨_, _, _, _, le_rfl, by norm_num, rfl⟩
  refine ⟨fun hall => ?_, fun hall => ?_, fun hall => ?_⟩
  · have hrun : system.run start queuedRun = some ((system.run start queuedRun).getD start) := by
      decide +kernel
    exact absurd (hall _ (.run (.init hinit) hrun) (by decide +kernel) (by decide +kernel))
      (by decide +kernel)
  · have hrun : system.run start scriptRun = some ((system.run start scriptRun).getD start) := by
      decide +kernel
    exact absurd (hall _ (.run (.init hinit) (by decide +kernel) hrun) (by decide +kernel)
      (by decide +kernel)) (by decide +kernel)
  · have hrun : system.run start lateRun = some ((system.run start lateRun).getD start) := by
      decide +kernel
    exact absurd (hall _ (.run (.init hinit) hrun) (by decide +kernel) (by decide +kernel)
      (by decide +kernel)) (by decide +kernel)

end IdleTimeout

end Thinker
