import Thinker.Transition
import Mathlib.Tactic

/-!
# Time-lapses

The macro `TIMELAPSE_TAKE_FRAME` parks the head and asks the component for a frame. The component
starts two timers, one that releases the head and one that captures the frame, and a delayed macro
resumes the print when the head is released. The component numbers the frames by a counter that it
changes before and after a capture. Parking is enabled in the macros.

The macros (`Macros`), the component (`Timelapse`) and the messages between them make a `World`. As
long as each request is accepted, the releases of the parked head are on their way (`Parked`). As
long as captures fail in order and without leaving a file, and the frames are removed or counted
only between captures, the frames are numbered by the counter (`Numbered`).
-/

namespace Thinker

namespace Lapse

/-! ## The macros -/

/-- The rendered text of `_WAIT_TIMELAPSE_TAKE_FRAME`. -/
inductive Script
  | rearm | resume
deriving DecidableEq, Repr

/-- The variables and the delayed g-code of the macros. -/
structure Macros where
  enable : Bool
  takingframe : Bool
  isPaused : Bool
  /-- `run` of `HYPERLAPSE`. -/
  run : Bool
  /-- `_HYPERLAPSE_LOOP` is scheduled. -/
  loopArmed : Bool
  /-- `_WAIT_TIMELAPSE_TAKE_FRAME` is scheduled. -/
  waitArmed : Bool
  /-- It was rendered and its script waits for other g-code. -/
  inside : Option Script
  /-- `repeat`, it is scheduled again after its script. -/
  again : Bool
deriving DecidableEq, Repr

namespace Macros

variable (m : Macros)

/-- The variables at the start. -/
def init : Macros := ⟨false, false, false, false, false, false, none, false⟩

/-- `UPDATE_DELAYED_GCODE ID=_WAIT_TIMELAPSE_TAKE_FRAME`. -/
def updateWait : Macros :=
  if m.inside.isSome then { m with again := true } else { m with waitArmed := true }

/-- The head is parked. -/
def park : Macros := { m with isPaused := true, takingframe := true }.updateWait

/-- The timer of `_WAIT_TIMELAPSE_TAKE_FRAME` renders its script. -/
def renderWait : Macros :=
  { m with waitArmed := false, inside := some (if m.takingframe then .rearm else .resume) }

/-- The script is executed. -/
def script : Script → Macros
  | .rearm => { m with waitArmed := true, inside := none, again := false }
  | .resume => { m with isPaused := false, waitArmed := m.again, inside := none, again := false }

/-- Whether `TIMELAPSE_TAKE_FRAME` takes a frame. -/
def takes (hyperlapse : Bool) : Bool :=
  m.enable && (hyperlapse && m.run || !hyperlapse && !m.run)

end Macros

/-! ## The component -/

/-- The modes. -/
inductive Mode
  /-- Macros of the layers ask for frames. -/
  | layers
  | hyperlapse
deriving DecidableEq, Repr

/-- What the component asks of the printer. -/
inductive Command
  /-- `release_parkedhead`. -/
  | release
  /-- `setgcodevariables`. -/
  | setup (enable : Bool)
  /-- `HYPERLAPSE ACTION=START`. -/
  | start
  /-- `HYPERLAPSE ACTION=STOP`. -/
  | stop
deriving DecidableEq, Repr

/-- How a capture ends, and whether it leaves a file that is no frame. -/
inductive Outcome
  | success
  | failure (leaves : Bool)
  | raises (leaves : Bool)
deriving DecidableEq, Repr

/-- `Timelapse`. -/
structure Timelapse where
  enabled : Bool
  mode : Mode
  duplicatelastframe : ℕ
  ffmpegInstalled : Bool
  /-- `hyperlapse_cycle` is at least a second longer than `park_time`. -/
  cycleFits : Bool
  takingframe : Bool
  framecount : ℤ
  printing : Bool
  hyperlapserunning : Bool
  renderisrunning : Bool
  /-- A render has not copied the last frame yet. -/
  copying : Bool
  /-- The copies of the last frame. -/
  duplicates : List ℤ
  /-- The timers for `release_parkedhead`. -/
  releases : ℕ
  /-- The timers for `newframe`. -/
  scheduled : ℕ
  /-- The numbers of the captures that run. -/
  running : List ℤ
  /-- The numbers of the frame files. -/
  files : Finset ℤ
deriving DecidableEq

namespace Timelapse

variable (tl : Timelapse)

/-- At the start, without frames. -/
def init (enabled : Bool) (mode : Mode) (duplicatelastframe : ℕ)
    (ffmpegInstalled cycleFits : Bool) : Timelapse :=
  ⟨enabled, mode, duplicatelastframe, ffmpegInstalled, cycleFits, false, 0, false, false, false,
    false, [], 0, 0, [], ∅⟩

/-- `spawn_newframe_callbacks`. -/
def spawnNewframeCallbacks : Timelapse :=
  { tl with releases := tl.releases + 1, scheduled := tl.scheduled + 1 }

/-- `call_newframe` takes the frame. The argument `hyperlapse` is a text, which is true unless it is
empty. -/
def accepts (hyperlapse : String) : Bool :=
  tl.enabled && (tl.mode ≠ .hyperlapse || hyperlapse ≠ "" && !tl.takingframe)

/-- `call_newframe`. -/
def callNewframe (hyperlapse : String) : Timelapse :=
  if tl.accepts hyperlapse then
    if tl.mode = .hyperlapse then { tl with takingframe := true }.spawnNewframeCallbacks
    else tl.spawnNewframeCallbacks
  else tl

/-- `newframe` until the capture runs. -/
def newframe : Timelapse :=
  { tl with
    scheduled := tl.scheduled - 1
    framecount := tl.framecount + 1
    running := tl.running ++ [tl.framecount + 1] }

/-- The rest of `newframe`. After an exception `cmdstatus` is unbound, which is another one. -/
def captured (n : ℤ) : Outcome → Timelapse
  | .success =>
    { tl with
      running := tl.running.erase n
      files := insert n tl.files
      takingframe := false }
  | .failure leaves =>
    { tl with
      running := tl.running.erase n
      files := if leaves then insert n tl.files else tl.files
      framecount := tl.framecount - 1
      takingframe := false }
  | .raises leaves =>
    { tl with
      running := tl.running.erase n
      files := if leaves then insert n tl.files else tl.files }

/-- `cleanup`. -/
def cleanup : Timelapse := { tl with files := ∅, framecount := 0 }

/-- The first lines of `saveFramesZip` and `render`. -/
def count : Timelapse := { tl with framecount := tl.files.card }

/-- `render` until the printer is asked for the name of the file. -/
def render : Timelapse :=
  if tl.files = ∅ ∨ tl.renderisrunning ∨ !tl.ffmpegInstalled then tl.count
  else { tl.count with renderisrunning := true, copying := true }

/-- `render` until `ffmpeg` runs, and whether the last frame could be copied. -/
def copyLast (copied : Bool) : Timelapse :=
  if tl.duplicatelastframe = 0 then { tl with copying := false }
  else
    let duplicates := (List.range tl.duplicatelastframe).map fun i => tl.framecount + i + 1
    let files := if copied then tl.files ∪ duplicates.toFinset else tl.files
    { tl with copying := false, duplicates := duplicates, files := files, framecount := files.card }

/-- The end of `render`. -/
def rendered : Timelapse :=
  { tl with
    renderisrunning := false
    files := tl.files \ tl.duplicates.toFinset
    duplicates := [] }

/-- `start_hyperlapse`. -/
def startHyperlapse : List Command := if tl.cycleFits then [.start] else []

end Timelapse

/-! ## Runs -/

/-- The printer, the component and what is between them. -/
structure World where
  mac : Macros
  tl : Timelapse
  /-- Requests for a frame that the component has not seen, with their argument `HYPERLAPSE`. -/
  requests : List String
  /-- Commands that the printer has not executed. -/
  commands : List Command
  /-- How often the head was parked. -/
  parkings : ℕ
  /-- How many releases the component has asked for. -/
  requested : ℕ
  /-- A capture wrote over a frame. -/
  overwritten : Bool

/-- What may happen. -/
inductive Event
  /-- `TIMELAPSE_TAKE_FRAME`. -/
  | takeFrame (hyperlapse : Bool)
  /-- `HYPERLAPSE ACTION=START`. -/
  | startHyperlapse
  /-- `HYPERLAPSE ACTION=STOP`. -/
  | stopHyperlapse
  /-- `_HYPERLAPSE_LOOP`. -/
  | loop
  /-- `_WAIT_TIMELAPSE_TAKE_FRAME` is rendered. -/
  | wait
  /-- Its script is executed. -/
  | script
  /-- The printer executes a command of the component. -/
  | execute (c : Command)
  /-- The component receives a request. -/
  | request
  /-- The timer for `release_parkedhead` fires. -/
  | release
  /-- The timer for `newframe` fires. -/
  | newframe
  /-- A capture ends. -/
  | captured (n : ℤ) (outcome : Outcome)
  | fileSelected
  | donePrinting
  | cancelled
  | setEnabled (enabled : Bool)
  | setMode (mode : Mode)
  | setDuplicates (n : ℕ)
  | saveFrames
  | render
  | copyLast (copied : Bool)
  | rendered
deriving DecidableEq, Repr

namespace World

/-- At the start. -/
def init (tl : Timelapse) : World := ⟨.init, tl, [], [], 0, 0, false⟩

variable (w : World)

/-- `TIMELAPSE_TAKE_FRAME`, with parking. -/
def takeFrame (hyperlapse : Bool) : World :=
  if w.mac.takes hyperlapse then
    { w with
      mac := w.mac.park
      requests := w.requests ++ [if hyperlapse then "True" else "False"]
      parkings := w.parkings + 1 }
  else w

/-- `HYPERLAPSE ACTION=START`. -/
def startHyperlapse : World :=
  takeFrame { w with mac := { w.mac with run := true, loopArmed := true } } true

/-- `HYPERLAPSE ACTION=STOP`. -/
def stopHyperlapse : World :=
  { w with mac := { w.mac with run := false, loopArmed := false } }

/-- The printer executes a command. -/
def execute (c : Command) : World :=
  let w := { w with commands := w.commands.erase c }
  match c with
  | .release => { w with mac := { w.mac with takingframe := false } }
  | .setup enable => { w with mac := { w.mac with enable := enable } }
  | .start => { w.startHyperlapse with tl := { w.tl with hyperlapserunning := true } }
  | .stop => { w.stopHyperlapse with tl := { w.tl with hyperlapserunning := false } }

/-- A setting `mode` is changed. -/
def setMode (mode : Mode) : World :=
  { w with
    tl := { w.tl with mode := mode }
    commands := w.commands ++
      (match mode with
        | .hyperlapse =>
          if !w.tl.hyperlapserunning && w.tl.printing then w.tl.startHyperlapse else []
        | .layers => if w.tl.hyperlapserunning then [.stop] else []) }

end World

/-- One step. -/
def next (w : World) : Event → Option World
  | .takeFrame hyperlapse => some (w.takeFrame hyperlapse)
  | .startHyperlapse => some w.startHyperlapse
  | .stopHyperlapse => some w.stopHyperlapse
  | .loop => if w.mac.loopArmed then some (w.takeFrame true) else none
  | .wait => if w.mac.waitArmed then some { w with mac := w.mac.renderWait } else none
  | .script => w.mac.inside.map fun s => { w with mac := w.mac.script s }
  | .execute c => if c ∈ w.commands then some (w.execute c) else none
  | .request =>
    match w.requests with
    | [] => none
    | hyperlapse :: rest =>
      some { w with
        tl := w.tl.callNewframe hyperlapse
        requests := rest
        requested := w.requested + (if w.tl.accepts hyperlapse then 1 else 0) }
  | .release =>
    if 0 < w.tl.releases then
      some { w with
        tl := { w.tl with releases := w.tl.releases - 1 }
        commands := w.commands ++ [.release] }
    else none
  | .newframe => if 0 < w.tl.scheduled then some { w with tl := w.tl.newframe } else none
  | .captured n outcome =>
    if n ∈ w.tl.running then
      some { w with
        tl := w.tl.captured n outcome
        overwritten := w.overwritten || n ∈ w.tl.files }
    else none
  | .fileSelected =>
    some { w with
      tl := { w.tl.cleanup with printing := true }
      commands := w.commands ++ (if w.tl.mode = .hyperlapse then w.tl.startHyperlapse else []) }
  | .donePrinting =>
    some { w with
      tl := { w.tl with printing := false }
      commands := w.commands ++ (if w.tl.mode = .hyperlapse then [.stop] else []) }
  | .cancelled =>
    some { w with tl := { w.tl with printing := false }, commands := w.commands ++ [.stop] }
  | .setEnabled enabled =>
    some { w with
      tl := { w.tl with enabled := enabled }
      commands := w.commands ++ [.setup enabled] }
  | .setMode mode => some (w.setMode mode)
  | .setDuplicates n => some { w with tl := { w.tl with duplicatelastframe := n } }
  | .saveFrames => some { w with tl := w.tl.count }
  | .render => some { w with tl := w.tl.render }
  | .copyLast copied =>
    if w.tl.copying then some { w with tl := w.tl.copyLast copied } else none
  | .rendered =>
    if w.tl.renderisrunning && !w.tl.copying then some { w with tl := w.tl.rendered } else none

/-- The macros with the component. -/
def system : System World Event :=
  ⟨fun w => ∃ enabled mode n ffmpegInstalled cycleFits,
    w = .init (.init enabled mode n ffmpegInstalled cycleFits), next⟩

/-- Requests are accepted. Captures fail last first, without a file, and raise nothing. The frames
are removed or counted only between captures, and the last is not copied. -/
def Safe (w : World) : Event → Prop
  | .request => ∀ hyperlapse ∈ w.requests.head?, w.tl.accepts hyperlapse = true
  | .captured n (.failure leaves) => n = w.tl.framecount ∧ leaves = false
  | .captured _ (.raises _) => False
  | .fileSelected | .saveFrames | .render => w.tl.running = []
  | .copyLast _ => w.tl.duplicatelastframe = 0
  | _ => True

/-! ## Frames -/

/-- The frames are numbered by the counter, but for those that are being captured. -/
structure Numbered (tl : Timelapse) : Prop where
  files : ∀ n, n ∈ tl.files ↔ 1 ≤ n ∧ n ≤ tl.framecount ∧ n ∉ tl.running
  running : ∀ n ∈ tl.running, 1 ≤ n ∧ n ≤ tl.framecount
  nodup : tl.running.Nodup
  nonneg : 0 ≤ tl.framecount
  takingframe : tl.takingframe = true → 0 < tl.scheduled + tl.running.length
  duplicates : tl.duplicates = []

namespace Numbered

variable {tl : Timelapse}

theorem init (enabled : Bool) (mode : Mode) (n : ℕ) (ffmpegInstalled cycleFits : Bool) :
    Numbered (.init enabled mode n ffmpegInstalled cycleFits) where
  files n := by
    simp only [Timelapse.init, Finset.notMem_empty, false_iff]
    omega
  running := by simp [Timelapse.init]
  nodup := List.nodup_nil
  nonneg := le_rfl
  takingframe := by simp [Timelapse.init]
  duplicates := rfl

theorem callNewframe (h : Numbered tl) (hyperlapse : String) :
    Numbered (tl.callNewframe hyperlapse) := by
  have hpos : 0 < tl.scheduled + 1 + tl.running.length := by omega
  unfold Timelapse.callNewframe
  split
  · split <;> exact ⟨h.files, h.running, h.nodup, h.nonneg, fun _ => hpos, h.duplicates⟩
  · exact h

/-- A capture takes the next number. -/
theorem newframe (h : Numbered tl) : Numbered tl.newframe where
  files n := by
    have hn := h.files n
    have hrun := h.running n
    simp only [Timelapse.newframe, List.mem_append, List.mem_singleton]
    constructor
    · intro hf
      obtain ⟨hpos, hle, hnot⟩ := hn.1 hf
      exact ⟨hpos, by omega, by rintro (hr | rfl); exacts [hnot hr, absurd hle (by omega)]⟩
    · rintro ⟨hpos, hle, hnot⟩
      exact hn.2 ⟨hpos, by have := fun heq => hnot (.inr heq); omega, fun hr => hnot (.inl hr)⟩
  running n hn := by
    have hnonneg := h.nonneg
    simp only [Timelapse.newframe, List.mem_append, List.mem_singleton] at hn ⊢
    rcases hn with hn | rfl
    · have := h.running n hn
      omega
    · omega
  nodup := by
    refine List.nodup_append.2 ⟨h.nodup, List.nodup_singleton _, fun a ha b hb => ?_⟩
    have := h.running a ha
    rw [List.mem_singleton.1 hb]
    omega
  nonneg := by
    have := h.nonneg
    simp only [Timelapse.newframe]
    omega
  takingframe _ := by
    simp only [Timelapse.newframe, List.length_append, List.length_singleton]
    omega
  duplicates := h.duplicates

/-- A capture that succeeds is a new frame with its number. -/
theorem success (h : Numbered tl) {n : ℤ} (hn : n ∈ tl.running) :
    Numbered (tl.captured n .success) ∧ n ∉ tl.files := by
  have hmem : ∀ m, m ∈ tl.running.erase n ↔ m ≠ n ∧ m ∈ tl.running := fun m => h.nodup.mem_erase_iff
  have hbound := h.running n hn
  refine ⟨⟨fun m => ?_, fun m hm => h.running m ((hmem m).1 hm).2, h.nodup.erase n, h.nonneg,
    fun hf => absurd hf Bool.false_ne_true, h.duplicates⟩, fun hf => ((h.files n).1 hf).2.2 hn⟩
  simp only [Timelapse.captured, Finset.mem_insert, hmem, h.files m]
  by_cases heq : m = n
  · subst heq
    simp [hbound.1, hbound.2]
  · simp [heq]

/-- The last capture fails, and the next has its number. -/
theorem failure (h : Numbered tl) (hn : tl.framecount ∈ tl.running) :
    Numbered (tl.captured tl.framecount (.failure false)) where
  files m := by
    have hm := h.files m
    simp only [Timelapse.captured, Bool.false_eq_true, if_false, h.nodup.mem_erase_iff, hm]
    by_cases heq : m = tl.framecount
    · subst heq
      simp [hn]
    · simp only [ne_eq, heq, not_false_eq_true, true_and, and_congr_right_iff]
      intro _
      exact and_congr_left fun _ => by omega
  running m hm := by
    obtain ⟨hne, hm⟩ := h.nodup.mem_erase_iff.1 hm
    have := h.running m hm
    simp only [Timelapse.captured]
    omega
  nodup := h.nodup.erase _
  nonneg := by
    have := h.running _ hn
    simp only [Timelapse.captured]
    omega
  takingframe hf := absurd hf Bool.false_ne_true
  duplicates := h.duplicates

/-- Without captures there are as many frames as the counter says. -/
theorem card_files (h : Numbered tl) (hrun : tl.running = []) :
    (tl.files.card : ℤ) = tl.framecount := by
  have hfiles : tl.files = Finset.Icc 1 tl.framecount := by
    ext n
    rw [h.files, hrun, Finset.mem_Icc]
    simp
  have hnonneg := h.nonneg
  rw [hfiles, Int.card_Icc]
  omega

theorem count (h : Numbered tl) (hrun : tl.running = []) : tl.count = tl := by
  rw [Timelapse.count, h.card_files hrun]

theorem cleanup (h : Numbered tl) (hrun : tl.running = []) : Numbered tl.cleanup where
  files n := by
    simp only [Timelapse.cleanup, Finset.notMem_empty, false_iff]
    omega
  running n hn := by
    rw [Timelapse.cleanup, hrun] at hn
    exact absurd hn List.not_mem_nil
  nodup := h.nodup
  nonneg := le_rfl
  takingframe := h.takingframe
  duplicates := h.duplicates

theorem render (h : Numbered tl) (hrun : tl.running = []) : Numbered tl.render := by
  unfold Timelapse.render
  rw [h.count hrun]
  split
  · exact h
  · exact ⟨h.files, h.running, h.nodup, h.nonneg, h.takingframe, h.duplicates⟩

theorem copyLast (h : Numbered tl) (copied : Bool) (hnone : tl.duplicatelastframe = 0) :
    Numbered (tl.copyLast copied) := by
  rw [Timelapse.copyLast, if_pos hnone]
  exact ⟨h.files, h.running, h.nodup, h.nonneg, h.takingframe, h.duplicates⟩

theorem rendered (h : Numbered tl) : Numbered tl.rendered where
  files n := by
    refine Iff.trans ?_ (h.files n)
    simp [Timelapse.rendered, h.duplicates]
  running := h.running
  nodup := h.nodup
  nonneg := h.nonneg
  takingframe := h.takingframe
  duplicates := rfl

end Numbered

/-! ## Parking -/

/-- The releases of the parked head are on their way, and the delayed macro waits for them. -/
structure Parked (w : World) : Prop where
  /-- The head is parked only while a request, a timer or a command is to release it. -/
  released : w.mac.takingframe = true →
    0 < w.requests.length + w.tl.releases + w.commands.count .release
  /-- Each parking whose request was received has its release. -/
  each : w.parkings = w.requests.length + w.requested
  waits : w.mac.isPaused = true → w.mac.waitArmed = true ∨ w.mac.inside.isSome = true

variable {w w' : World}

theorem updateWait_waits (m : Macros) :
    m.updateWait.waitArmed = true ∨ m.updateWait.inside.isSome = true := by
  unfold Macros.updateWait
  split
  next h => exact .inr h
  next => exact .inl rfl

namespace Parked

theorem takeFrame (h : Parked w) (hyperlapse : Bool) : Parked (w.takeFrame hyperlapse) := by
  unfold World.takeFrame
  split
  · refine ⟨fun _ => ?_, ?_, fun _ => updateWait_waits _⟩
    · rw [List.length_append, List.length_singleton]
      omega
    · have := h.each
      show w.parkings + 1 = (w.requests ++ [_]).length + w.requested
      rw [List.length_append, List.length_singleton]
      omega
  · exact h

theorem startHyperlapse (h : Parked w) : Parked w.startHyperlapse :=
  takeFrame (w := { w with mac := { w.mac with run := true, loopArmed := true } })
    ⟨h.released, h.each, h.waits⟩ true

/-- More commands release no less. -/
theorem commands (h : Parked w) (tl : Timelapse) (htl : tl.releases = w.tl.releases)
    (more : List Command) : Parked { w with tl := tl, commands := w.commands ++ more } := by
  refine ⟨fun hf => ?_, h.each, h.waits⟩
  have := h.released hf
  show 0 < w.requests.length + tl.releases + (w.commands ++ more).count .release
  rw [List.count_append, htl]
  omega

theorem execute (h : Parked w) (c : Command) : Parked (w.execute c) := by
  -- the other commands leave the release
  have hother : c ≠ .release → Parked { w with commands := w.commands.erase c } := fun hne => by
    refine ⟨fun hf => ?_, h.each, h.waits⟩
    rw [List.count_erase_of_ne (Ne.symm hne)]
    exact h.released hf
  cases c with
  | release => exact ⟨fun hf => absurd hf Bool.false_ne_true, h.each, h.waits⟩
  | setup enable =>
    have h := hother (by simp)
    exact ⟨h.released, h.each, h.waits⟩
  | start =>
    have h := (hother (by simp)).startHyperlapse
    have htl : ∀ (w : World) (b : Bool), (w.takeFrame b).tl = w.tl := fun w b => by
      unfold World.takeFrame
      split <;> rfl
    refine ⟨fun hf => ?_, h.each, h.waits⟩
    have hpos := h.released hf
    rw [World.startHyperlapse, htl] at hpos
    exact hpos
  | stop =>
    have h := hother (by simp)
    exact ⟨h.released, h.each, h.waits⟩

theorem script (h : Parked w) (s : Script) : Parked { w with mac := w.mac.script s } := by
  cases s with
  | rearm => exact ⟨h.released, h.each, fun _ => .inl rfl⟩
  | resume => exact ⟨h.released, h.each, fun hf => absurd hf Bool.false_ne_true⟩

/-- An accepted request gets its release. -/
theorem request (h : Parked w) {hyperlapse : String} {rest : List String}
    (hreq : w.requests = hyperlapse :: rest) (haccepts : w.tl.accepts hyperlapse = true) :
    Parked { w with
      tl := w.tl.callNewframe hyperlapse
      requests := rest
      requested := w.requested + (if w.tl.accepts hyperlapse then 1 else 0) } := by
  have hreleases : (w.tl.callNewframe hyperlapse).releases = w.tl.releases + 1 := by
    rw [Timelapse.callNewframe, if_pos haccepts]
    split <;> rfl
  refine ⟨fun _ => ?_, ?_, h.waits⟩
  · rw [hreleases]
    omega
  · have := h.each
    rw [hreq, List.length_cons] at this
    rw [if_pos haccepts]
    show w.parkings = rest.length + (w.requested + 1)
    omega

/-- The timer fires, and the command is sent. -/
theorem release (h : Parked w) : Parked { w with
    tl := { w.tl with releases := w.tl.releases - 1 }
    commands := w.commands ++ [.release] } := by
  refine ⟨fun _ => ?_, h.each, h.waits⟩
  rw [List.count_append, List.count_singleton_self]
  omega

end Parked

/-- What holds in every state. -/
structure Inv (w : World) : Prop where
  parked : Parked w
  numbered : Numbered w.tl
  overwritten : w.overwritten = false

theorem takeFrame_tl (w : World) (hyperlapse : Bool) : (w.takeFrame hyperlapse).tl = w.tl ∧
    (w.takeFrame hyperlapse).overwritten = w.overwritten := by
  unfold World.takeFrame
  split <;> exact ⟨rfl, rfl⟩

theorem Inv.takeFrame (h : Inv w) (hyperlapse : Bool) : Inv (w.takeFrame hyperlapse) := by
  obtain ⟨htl, hover⟩ := takeFrame_tl w hyperlapse
  exact ⟨h.parked.takeFrame hyperlapse, htl ▸ h.numbered, hover.trans h.overwritten⟩

theorem Inv.execute (h : Inv w) (c : Command) : Inv (w.execute c) := by
  refine ⟨h.parked.execute c, ?_, ?_⟩
  · have hn := h.numbered
    cases c with
    | release | setup => exact hn
    | start | stop =>
      exact ⟨hn.files, hn.running, hn.nodup, hn.nonneg, hn.takingframe, hn.duplicates⟩
  · cases c with
    | start => exact (takeFrame_tl _ true).2.trans h.overwritten
    | _ => exact h.overwritten

theorem Inv.next {e : Event} (h : Inv w) (hsafe : Safe w e) (hw : next w e = some w') : Inv w' := by
  have hp := h.parked
  have hn := h.numbered
  cases e with
  | takeFrame hyperlapse =>
    obtain rfl := Option.some_inj.1 hw
    exact h.takeFrame hyperlapse
  | startHyperlapse =>
    obtain rfl := Option.some_inj.1 hw
    exact Inv.takeFrame (w := { w with mac := { w.mac with run := true, loopArmed := true } })
      ⟨⟨hp.released, hp.each, hp.waits⟩, hn, h.overwritten⟩ true
  | stopHyperlapse =>
    obtain rfl := Option.some_inj.1 hw
    exact ⟨⟨hp.released, hp.each, hp.waits⟩, hn, h.overwritten⟩
  | loop =>
    obtain ⟨-, hw⟩ := Option.ite_none_right_eq_some.1 hw
    obtain rfl := Option.some_inj.1 hw
    exact h.takeFrame true
  | wait =>
    obtain ⟨-, hw⟩ := Option.ite_none_right_eq_some.1 hw
    obtain rfl := Option.some_inj.1 hw
    exact ⟨⟨hp.released, hp.each, fun _ => .inr rfl⟩, hn, h.overwritten⟩
  | script =>
    obtain ⟨s, -, rfl⟩ := Option.map_eq_some_iff.1 hw
    exact ⟨hp.script s, hn, h.overwritten⟩
  | execute c =>
    obtain ⟨-, hw⟩ := Option.ite_none_right_eq_some.1 hw
    obtain rfl := Option.some_inj.1 hw
    exact h.execute c
  | request =>
    cases hreq : w.requests with
    | nil => simp [Lapse.next, hreq] at hw
    | cons hyperlapse rest =>
      simp only [Lapse.next, hreq] at hw
      obtain rfl := Option.some_inj.1 hw
      have haccepts : w.tl.accepts hyperlapse = true :=
        hsafe hyperlapse (by rw [hreq]; rfl)
      exact ⟨hp.request hreq haccepts, hn.callNewframe hyperlapse, h.overwritten⟩
  | release =>
    obtain ⟨-, hw⟩ := Option.ite_none_right_eq_some.1 hw
    obtain rfl := Option.some_inj.1 hw
    exact ⟨hp.release, ⟨hn.files, hn.running, hn.nodup, hn.nonneg, hn.takingframe, hn.duplicates⟩,
      h.overwritten⟩
  | newframe =>
    obtain ⟨-, hw⟩ := Option.ite_none_right_eq_some.1 hw
    obtain rfl := Option.some_inj.1 hw
    exact ⟨⟨hp.released, hp.each, hp.waits⟩, hn.newframe, h.overwritten⟩
  | captured n outcome =>
    obtain ⟨hrun, hw⟩ := Option.ite_none_right_eq_some.1 hw
    obtain rfl := Option.some_inj.1 hw
    obtain ⟨hsuccess, hnot⟩ := hn.success hrun
    have hover : (w.overwritten || decide (n ∈ w.tl.files)) = false := by
      rw [h.overwritten, decide_eq_false hnot, Bool.false_or]
    cases outcome with
    | success => exact ⟨⟨hp.released, hp.each, hp.waits⟩, hsuccess, hover⟩
    | failure leaves =>
      obtain ⟨rfl, rfl⟩ := hsafe
      exact ⟨⟨hp.released, hp.each, hp.waits⟩, hn.failure hrun, hover⟩
    | raises => exact hsafe.elim
  | fileSelected =>
    obtain rfl := Option.some_inj.1 hw
    have hc := hn.cleanup hsafe
    exact ⟨hp.commands { w.tl.cleanup with printing := true } rfl _,
      ⟨hc.files, hc.running, hc.nodup, hc.nonneg, hc.takingframe, hc.duplicates⟩, h.overwritten⟩
  | donePrinting =>
    obtain rfl := Option.some_inj.1 hw
    exact ⟨hp.commands { w.tl with printing := false } rfl _,
      ⟨hn.files, hn.running, hn.nodup, hn.nonneg, hn.takingframe, hn.duplicates⟩, h.overwritten⟩
  | cancelled =>
    obtain rfl := Option.some_inj.1 hw
    exact ⟨hp.commands { w.tl with printing := false } rfl _,
      ⟨hn.files, hn.running, hn.nodup, hn.nonneg, hn.takingframe, hn.duplicates⟩, h.overwritten⟩
  | setEnabled enabled =>
    obtain rfl := Option.some_inj.1 hw
    exact ⟨hp.commands { w.tl with enabled := enabled } rfl _,
      ⟨hn.files, hn.running, hn.nodup, hn.nonneg, hn.takingframe, hn.duplicates⟩, h.overwritten⟩
  | setMode mode =>
    obtain rfl := Option.some_inj.1 hw
    exact ⟨hp.commands { w.tl with mode := mode } rfl _,
      ⟨hn.files, hn.running, hn.nodup, hn.nonneg, hn.takingframe, hn.duplicates⟩, h.overwritten⟩
  | setDuplicates n =>
    obtain rfl := Option.some_inj.1 hw
    exact ⟨⟨hp.released, hp.each, hp.waits⟩,
      ⟨hn.files, hn.running, hn.nodup, hn.nonneg, hn.takingframe, hn.duplicates⟩, h.overwritten⟩
  | saveFrames =>
    obtain rfl := Option.some_inj.1 hw
    rw [hn.count hsafe]
    exact h
  | render =>
    obtain rfl := Option.some_inj.1 hw
    have hreleases : w.tl.render.releases = w.tl.releases := by
      unfold Timelapse.render
      split <;> rfl
    exact ⟨⟨by rw [hreleases]; exact hp.released, hp.each, hp.waits⟩, hn.render hsafe,
      h.overwritten⟩
  | copyLast copied =>
    obtain ⟨-, hw⟩ := Option.ite_none_right_eq_some.1 hw
    obtain rfl := Option.some_inj.1 hw
    have hreleases : (w.tl.copyLast copied).releases = w.tl.releases := by
      unfold Timelapse.copyLast
      split <;> rfl
    exact ⟨⟨by rw [hreleases]; exact hp.released, hp.each, hp.waits⟩, hn.copyLast copied hsafe,
      h.overwritten⟩
  | rendered =>
    obtain ⟨-, hw⟩ := Option.ite_none_right_eq_some.1 hw
    obtain rfl := Option.some_inj.1 hw
    exact ⟨⟨hp.released, hp.each, hp.waits⟩, hn.rendered, h.overwritten⟩

theorem Inv.of_reachable (h : system.ReachableBy Safe w) : Inv w := by
  refine System.ReachableBy.invariant ?_ ?_ h
  · rintro s ⟨enabled, mode, n, ffmpegInstalled, cycleFits, rfl⟩
    exact ⟨⟨fun hf => absurd hf Bool.false_ne_true, rfl, fun hf => absurd hf Bool.false_ne_true⟩,
      .init .., rfl⟩
  · intro s e t hs he ht
    exact hs.next he ht

/-! ## The time-lapse -/

/-- The print is not left parked, and the frames are numbered. -/
structure Correct (w : World) : Prop where
  /-- Each parking whose request was received has its release. -/
  each : w.parkings = w.requests.length + w.requested
  /-- The head is parked only while a request, a timer or a command is to release it. -/
  released : w.mac.takingframe = true →
    0 < w.requests.length + w.tl.releases + w.commands.count .release
  /-- When it is released, the delayed macro resumes the print. -/
  resumes : w.mac.isPaused = true → w.mac.takingframe = false →
    ∃ es w', (∀ e ∈ es, e = .wait ∨ e = .script) ∧ system.run w es = some w' ∧
      w'.mac.isPaused = false
  /-- The flag is set only while a capture is scheduled or runs. -/
  takingframe : w.tl.takingframe = true → 0 < w.tl.scheduled + w.tl.running.length
  /-- The frames are numbered up to the counter, but for those that are being captured. -/
  numbered : w.tl.renderisrunning = false →
    ∀ n, n ∈ w.tl.files ↔ 1 ≤ n ∧ n ≤ w.tl.framecount ∧ n ∉ w.tl.running
  /-- No frame was written over. -/
  overwritten : w.overwritten = false

/-- The delayed macro, when the head is released. -/
theorem Parked.resumes (h : Parked w) (hpaused : w.mac.isPaused = true)
    (hreleased : w.mac.takingframe = false) : ∃ es w', (∀ e ∈ es, e = .wait ∨ e = .script) ∧
      system.run w es = some w' ∧ w'.mac.isPaused = false := by
  -- once the script is rendered anew it resumes the print
  have hwait : ∀ w : World, w.mac.takingframe = false → w.mac.waitArmed = true →
      ∃ w', system.run w [.wait, .script] = some w' ∧ w'.mac.isPaused = false := fun w ht ha =>
    ⟨_, by simp [System.run, system, Lapse.next, ha, ht, Macros.renderWait]; rfl, rfl⟩
  rcases hin : w.mac.inside with _ | _ | _
  · have harmed : w.mac.waitArmed = true := (h.waits hpaused).resolve_right (by simp [hin])
    obtain ⟨w', hrun, hw'⟩ := hwait w hreleased harmed
    exact ⟨_, w', by simp, hrun, hw'⟩
  · obtain ⟨w', hrun, hw'⟩ := hwait { w with mac := w.mac.script .rearm } hreleased rfl
    refine ⟨[.script, .wait, .script], w', by simp, ?_, hw'⟩
    rw [System.run]
    simp only [system, Lapse.next, hin, Option.map_some, Option.bind_some]
    exact hrun
  · exact ⟨[.script], { w with mac := w.mac.script .resume }, by simp,
      by simp [System.run, system, Lapse.next, hin], rfl⟩

/-- As long as requests are accepted and captures are safe, no print is left parked and the frames
are numbered. -/
theorem not_left_parked (h : system.ReachableBy Safe w) : Correct w where
  each := (Inv.of_reachable h).parked.each
  released := (Inv.of_reachable h).parked.released
  resumes := (Inv.of_reachable h).parked.resumes
  takingframe := (Inv.of_reachable h).numbered.takingframe
  numbered _ := (Inv.of_reachable h).numbered.files
  overwritten := (Inv.of_reachable h).overwritten

instance (w : World) (e : Event) : Decidable (Safe w e) :=
  match e with
  | .request => inferInstanceAs (Decidable (∀ _ ∈ w.requests.head?, _))
  | .captured _ outcome =>
    match outcome with
    | .success => isTrue trivial
    | .failure _ => inferInstanceAs (Decidable (_ ∧ _))
    | .raises _ => isFalse id
  | .fileSelected | .saveFrames | .render => inferInstanceAs (Decidable (w.tl.running = []))
  | .copyLast _ => inferInstanceAs (Decidable (w.tl.duplicatelastframe = 0))
  | .takeFrame _ | .startHyperlapse | .stopHyperlapse | .loop | .wait | .script | .execute _
  | .release | .newframe | .donePrinting | .cancelled | .setEnabled _ | .setMode _
  | .setDuplicates _ | .rendered => isTrue trivial

/-- A component that is enabled, as it is configured at first. -/
def start : World := .init (.init true .layers 5 true true)

/-- A layer's frame, taken after the macros are set up. -/
def layerRun : List Event :=
  [.setEnabled true, .execute (.setup true), .takeFrame false, .request, .newframe, .release,
    .captured 1 .success, .wait, .script, .execute .release, .wait, .script]

/-- The frame is taken and the print goes on. -/
theorem not_left_parked_layer : ∃ w, system.run start layerRun = some w ∧ Correct w ∧
    w.parkings = 1 ∧ w.mac.isPaused = false ∧ w.tl.files = {1} := by
  obtain ⟨w, hw⟩ : ∃ w, system.run start layerRun = some w :=
    Option.isSome_iff_exists.1 (by decide +kernel)
  have hends : (system.run start layerRun).map
      (fun w => (w.parkings, w.mac.isPaused, w.tl.files)) = some (1, false, {1}) := by
    decide +kernel
  rw [hw, Option.map_some, Option.some_inj, Prod.mk.injEq, Prod.mk.injEq] at hends
  exact ⟨w, hw, not_left_parked (.run (.init ⟨_, _, _, _, _, rfl⟩) (by decide +kernel) hw), hends⟩

/-- The component is disabled before its macros are, and a layer asks for a frame in between. -/
def disabledRun : List Event :=
  [.setEnabled true, .execute (.setup true), .setEnabled false, .takeFrame false, .request]

/-- The head is parked, and nothing is to release it. -/
theorem left_parked : ∃ w, system.Reachable w ∧ ¬Correct w := by
  obtain ⟨w, hw⟩ : ∃ w, system.run start disabledRun = some w :=
    Option.isSome_iff_exists.1 (by decide +kernel)
  have hends : (system.run start disabledRun).map (fun w => (w.mac.takingframe,
      w.requests.length + w.tl.releases + w.commands.count .release)) = some (true, 0) := by
    decide +kernel
  rw [hw, Option.map_some, Option.some_inj, Prod.mk.injEq] at hends
  refine ⟨w, .run (.init ⟨_, _, _, _, _, rfl⟩) hw, fun h => ?_⟩
  exact absurd (h.released hends.1) (by rw [hends.2]; exact Nat.lt_irrefl 0)

end Lapse

end Thinker
