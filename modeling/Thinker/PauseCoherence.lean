import Thinker.PauseResume

/-!
# Pausing and the worker

`PauseResume` has three flags about a print that the worker of `VirtualSD` makes. `PAUSE` and
`RESUME` keep them in step with the worker. `M24`, `SDCARD_RESET_FILE` and the commands that load a
file do not look at them, and `CANCEL_PRINT` looks at them but not at the file.

A run is a sequence of commands, each cut where it waits, and of steps of the worker. A command
that comes while the worker executes a line is a command of that line. If the commands are given
with care (`Careful`), whenever no command is executing a paused printer has no worker, a print
that `PAUSE` stopped is started again by `RESUME` where it was stopped, and `CANCEL_PRINT` has left
no file and no worker (`coherent_of_reachable`).
-/

namespace Thinker

namespace VirtualSd

/-- The file that is loaded, and the position in it. -/
def mark (v : VirtualSd) : Option (ℕ × ℕ) :=
  v.currentFile.map fun f => (f.number, v.filePosition)

/-- The loop of `work_handler` ends where it finds `must_pause_work`. -/
def settle (v : VirtualSd) : VirtualSd :=
  if v.mustPauseWork then v.workStep 1 none else v

end VirtualSd

namespace PauseCoherence

/-- What a `RESUME` of a print that had been paused has done. -/
structure Resumed where
  moved : Bool
  raised : Bool

/-- The printer, where its command waits, and three things that are not in the code : the file and
the position at which the worker last ended, whether the commands since there was none executing
include a `CANCEL_PRINT`, and what their `RESUME` has done. -/
structure Run where
  p : PauseResume
  waiting : Option SdWait
  left : Option (ℕ × ℕ)
  cancelled : Bool
  resumed : Option Resumed

/-- What happens to the print. -/
inductive Event where
  | command (c : SdCommand)
  /-- The command that waits goes on. -/
  | proceed (raises : Bool)
  /-- The work timer is due. -/
  | begin
  /-- A turn of the loop of the worker, up to the execution of a line. -/
  | turn (count : ℕ) (recovery : Option ℕ)
  /-- The line has been executed. -/
  | done (failed : Bool)

/-- Whether a command is `CANCEL_PRINT`. -/
def isCancel : SdCommand → Bool
  | .cancelPrint => true
  | _ => false

namespace Run

variable (r : Run)

/-- Whether a command is executing : by itself, or as a line of the file. -/
def executing : Bool :=
  r.waiting.isSome || r.p.vSd.cmdFromSd

/-- Something new begins, unless a command is executing. -/
def fresh : Run :=
  if r.executing then r else { r with cancelled := false, resumed := none }

/-- A command has come to a result. -/
def finish (cancel : Bool) : SdResult → Run
  | .returned p | .raised p =>
    { r with p := p, waiting := none, cancelled := r.cancelled || cancel }
  | .waits p w => { r with p := p, waiting := some w }

/-- `RESUME` of a print that had been paused. -/
def noteResumed (raises : Bool) : SdResult → Option Resumed
  | .returned _ => some ⟨!raises, false⟩
  | .raised _ => some ⟨!raises, true⟩
  | .waits _ _ => r.resumed

/-- A command goes on. -/
def goOn (w : SdWait) (raises : Bool) (result : SdResult) : Run :=
  let t := r.finish (decide (w = .cancelPrint)) result
  if w = .restore .resume ∧ r.p.sdPaused = true then
    { t with resumed := r.noteResumed raises result }
  else t

/-- The worker has come to this. -/
def work (v : VirtualSd) : Run :=
  { r with
    p := { r.p with vSd := v }
    left := if r.p.vSd.isActive && !v.isActive then v.mark else r.left }

/-- Whether the worker goes through its loop. It executes no line while a command executes. -/
def mayTurn : Bool :=
  match r.p.vSd.workTimer with
  | .running _ lines _ => r.waiting.isNone || r.p.vSd.mustPauseWork || lines.isEmpty
  | _ => false

end Run

/-- The step of an event, from where something new may begin. -/
def step (r : Run) : Event → Option Run
  | .command c => if r.waiting.isNone then some (r.finish (isCancel c) (c.start r.p)) else none
  | .proceed raises =>
    r.waiting.bind fun w => (r.p.proceed w raises).map fun result => r.goOn w raises result
  | .begin =>
    if r.p.vSd.workTimer = .registered then some (r.work r.p.vSd.workHandler.settle) else none
  | .turn count recovery =>
    if r.mayTurn ∧ 0 < count ∧ count ≤ 8192 then some (r.work (r.p.vSd.workStep count recovery))
    else none
  | .done failed =>
    if r.p.vSd.cmdFromSd ∧ r.waiting.isNone then some (r.work (r.p.vSd.commandDone failed).settle)
    else none

/-- A printer before any print. -/
def start : Run where
  p := ⟨.start, false, false, false⟩
  waiting := none
  left := none
  cancelled := false
  resumed := none

/-- The runs of a printer. -/
def system : System Run Event where
  init r := r = start
  next r e := step r.fresh e

/-- The flags agree with the worker. -/
structure Coherent (r : Run) : Prop where
  paused : r.p.isPaused = true → r.p.vSd.isActive = false
  resumed : ∀ x ∈ r.resumed, (x.raised = true ∧ x.moved = false) ∨
    (x.raised = false ∧ r.p.vSd.workTimer = .registered ∧ r.p.vSd.mark.isSome = true ∧
      r.p.vSd.mark = r.left)
  cancelled : r.cancelled = true → r.p.vSd.currentFile = none ∧ r.p.vSd.isActive = false

/-- A print that `PAUSE` has stopped. -/
def PrintPaused (p : PauseResume) : Prop :=
  p.isPaused = true ∧ p.sdPaused = true

/-- Commands that are given with care. -/
def Careful (r : Run) : Event → Prop
  | .command .m24 =>
    r.p.vSd.isActive = true ∨ r.p.isPaused = false ∧ r.p.vSd.currentFile.isSome = true
  | .command .resume => r.p.isPaused = true → r.p.vSd.isActive = false
  | .command .pause => r.p.vSd.isActive = true → r.p.vSd.currentFile.isSome = true
  | .command (.m23 _) | .command (.m26 _) | .command .sdcardResetFile
  | .command (.sdcardPrintFile _) => r.p.vSd.isActive = true ∨ ¬PrintPaused r.p
  | .command .cancelPrint =>
    r.p.vSd.currentFile.isSome = true → r.p.vSd.isActive = true ∨ r.p.sdPaused = true
  | _ => True

/-! ## The sdcard -/

section

variable (v : VirtualSd)

@[simp] theorem isActive_doPause : v.doPause.isActive = v.isActive := by
  unfold VirtualSd.doPause
  split_ifs <;> rfl

@[simp] theorem cmdFromSd_doPause : v.doPause.cmdFromSd = v.cmdFromSd := by
  unfold VirtualSd.doPause
  split_ifs <;> rfl

@[simp] theorem currentFile_doPause : v.doPause.currentFile = v.currentFile := by
  unfold VirtualSd.doPause
  split_ifs <;> rfl

@[simp] theorem mark_doPause : v.doPause.mark = v.mark := by
  unfold VirtualSd.doPause
  split_ifs <;> rfl

theorem mustPauseWork_doPause (h : v.isActive = true) : v.doPause.mustPauseWork = true := by
  simp [VirtualSd.doPause, h]

end

variable {v v' : VirtualSd}

theorem isActive_of_cmdFromSd (h : v.cmdFromSd = true) : v.isActive = true := by
  unfold VirtualSd.cmdFromSd at h
  unfold VirtualSd.isActive
  split at h <;> simp_all

theorem doResume_eq_some : v.doResume = some v' ↔
    v.isActive = false ∧ v' = { v with mustPauseWork := false, workTimer := .registered } := by
  unfold VirtualSd.doResume
  cases v.isActive <;> simp [eq_comm]

/-- What a step of the worker leaves. -/
structure Worked (v v' : VirtualSd) : Prop where
  mustPauseWork_eq : v'.mustPauseWork = v.mustPauseWork
  file : v'.isActive = true → v'.currentFile.isSome = v.currentFile.isSome
  stopped : v.mustPauseWork = true →
    v'.isActive = false ∧ v'.currentFile.isSome = v.currentFile.isSome

/-- A worker in its loop that is to pause ends. -/
theorem workStep_of_mustPauseWork {file : ℕ} {lines : List Text} {partialInput : Text}
    (hwork : v.workTimer = .running file lines partialInput) (h : v.mustPauseWork = true)
    (count : ℕ) (recovery : Option ℕ) : v.workStep count recovery = v.exitWork := by
  simp [VirtualSd.workStep, hwork, h]

theorem workStep_of_idle (h : v.workTimer = .idle) (count : ℕ) (recovery : Option ℕ) :
    v.workStep count recovery = v := by
  simp [VirtualSd.workStep, h]

/-- The loop is entered or left. -/
theorem worked_settle {w : VirtualSd} (hmust : w.mustPauseWork = v.mustPauseWork)
    (hfile : w.currentFile.isSome = v.currentFile.isSome)
    (hwork : w.workTimer = .idle ∨ ∃ file lines partialInput,
      w.workTimer = .running file lines partialInput) : Worked v w.settle := by
  unfold VirtualSd.settle
  split_ifs with hpause
  · rcases hwork with hidle | ⟨file, lines, partialInput, hrunning⟩
    · rw [workStep_of_idle hidle]
      exact ⟨hmust, fun _ => hfile, fun _ => ⟨by simp [VirtualSd.isActive, hidle], hfile⟩⟩
    · rw [workStep_of_mustPauseWork hrunning hpause]
      exact ⟨hmust, fun _ => hfile, fun _ => ⟨by simp [VirtualSd.isActive, VirtualSd.exitWork],
        hfile⟩⟩
  · exact ⟨hmust, fun _ => hfile, fun h => absurd (hmust.trans h) hpause⟩

theorem worked_begin : Worked v v.workHandler.settle := by
  unfold VirtualSd.workHandler
  cases hfile : v.currentFile with
  | none => exact worked_settle rfl (by simp [hfile]) (.inl rfl)
  | some f => exact worked_settle rfl (by simp [hfile]) (.inr ⟨_, _, _, rfl⟩)

theorem worked_done (h : v.cmdFromSd = true) (failed : Bool) :
    Worked v (v.commandDone failed).settle := by
  unfold VirtualSd.cmdFromSd at h
  unfold VirtualSd.commandDone
  split at h
  · next file line lines partialInput next hwork =>
    rw [hwork]
    dsimp only
    split_ifs with hfailed hposition
    · exact worked_settle rfl rfl (.inl rfl)
    · exact worked_settle rfl rfl (.inr ⟨_, _, _, rfl⟩)
    · cases hfile : v.currentFile with
      | none => exact worked_settle rfl (by simp [VirtualSd.exitWork, hfile]) (.inl rfl)
      | some f => exact worked_settle rfl (by simp [hfile]) (.inr ⟨_, _, _, rfl⟩)
  · exact absurd h (by simp)

theorem worked_readData (v : VirtualSd) (partialInput : Text) (count : ℕ) (recovery : Option ℕ) :
    (v.readData partialInput count recovery).mustPauseWork = v.mustPauseWork ∧
    ((v.readData partialInput count recovery).isActive = true →
      (v.readData partialInput count recovery).currentFile.isSome = v.currentFile.isSome) := by
  unfold VirtualSd.readData
  cases hfile : v.currentFile with
  | none => exact ⟨rfl, fun _ => by simp [VirtualSd.exitWork, hfile]⟩
  | some f =>
    cases hrest : f.rest with
    | none => exact ⟨by simp only [hrest]; rfl, fun _ => by simp [VirtualSd.exitWork, hfile, hrest]⟩
    | some rest =>
      simp only [hrest]
      split_ifs <;> exact ⟨rfl, by simp [VirtualSd.exitWork, VirtualSd.isActive]⟩

theorem worked_turn {file : ℕ} {lines : List Text} {partialInput : Text}
    (hwork : v.workTimer = .running file lines partialInput) (count : ℕ) (recovery : Option ℕ) :
    Worked v (v.workStep count recovery) := by
  cases hpause : v.mustPauseWork with
  | true =>
    rw [workStep_of_mustPauseWork hwork hpause]
    exact ⟨rfl, fun _ => rfl, fun _ => ⟨by simp [VirtualSd.isActive, VirtualSd.exitWork], rfl⟩⟩
  | false =>
    cases lines with
    | nil =>
      have hread := worked_readData v partialInput count recovery
      have hstep : v.workStep count recovery = v.readData partialInput count recovery := by
        simp [VirtualSd.workStep, hwork, hpause]
      rw [hstep]
      exact ⟨hread.1, hread.2, fun h => absurd (h.symm.trans hpause) (by simp)⟩
    | cons line lines =>
      refine ⟨?_, fun _ => ?_, fun h => absurd (h.symm.trans hpause) (by simp)⟩ <;>
        simp [VirtualSd.workStep, hwork, hpause]

/-! ## The invariant -/

/-- No file, and no worker but one whose line is executing and that ends then. -/
structure Gone (v : VirtualSd) : Prop where
  file : v.currentFile = none
  ends : v.isActive = true → v.cmdFromSd = true ∧ v.mustPauseWork = true

/-- The same, while that line is executing. -/
structure WorkerGone (v : VirtualSd) : Prop extends Gone v where
  active : v.isActive = true

/-- What holds between the flags and the worker, also while a command executes. -/
structure Held (p : PauseResume) (left : Option (ℕ × ℕ)) : Prop where
  sent : p.pauseCommandSent = true → p.isPaused = true
  ends : p.isPaused = true → p.vSd.isActive = true →
    p.vSd.cmdFromSd = true ∧ p.vSd.mustPauseWork = true
  file : p.vSd.isActive = true → p.vSd.currentFile.isSome = true ∨
    p.vSd.cmdFromSd = true ∧ p.vSd.mustPauseWork = true
  stopped : PrintPaused p → p.vSd.currentFile.isSome = true ∧
    (p.vSd.isActive = false → p.vSd.mark = left)

/-- What holds while a command waits. -/
def Waits (p : PauseResume) (left : Option (ℕ × ℕ)) : SdWait → Prop
  | .pause => p.sdPaused = true ∧ (p.vSd.isActive = true → p.vSd.mustPauseWork = true) ∧
    p.vSd.currentFile.isSome = true ∧ (p.vSd.isActive = false → p.vSd.mark = left)
  | .m25 => True
  | .cancelPrint => p.vSd.isActive = true → p.vSd.mustPauseWork = true
  | .resetFile => (p.vSd.isActive = true → p.vSd.mustPauseWork = true) ∧ ¬PrintPaused p
  | .restore caller => p.isPaused = true ∧ p.vSd.isActive = false ∧
    (caller ≠ .resume → p.sdPaused = false ∧ p.vSd.currentFile.isSome = true)

/-- What holds of the result of a command. `cancelled` says whether a `CANCEL_PRINT` came before,
and `cancel` whether the command is one. -/
def Result (left : Option (ℕ × ℕ)) (cancelled cancel : Bool) : SdResult → Prop
  | .returned p | .raised p => Held p left ∧ ((cancelled || cancel) = true → Gone p.vSd)
  | .waits p w => Held p left ∧ Waits p left w ∧ (cancelled = true → WorkerGone p.vSd)

/-! ## The commands -/

variable {p : PauseResume} {left : Option (ℕ × ℕ)} {cancelled : Bool}

/-- A command that leaves everything as it is. -/
theorem Held.same (h : Held p left) (hgone : cancelled = true → WorkerGone p.vSd) :
    Result left cancelled false (.returned p) ∧ Result left cancelled false (.raised p) := by
  rw [Result, Result, Bool.or_false]
  exact ⟨⟨h, fun hc => (hgone hc).toGone⟩, h, fun hc => (hgone hc).toGone⟩

theorem WorkerGone.doPause (h : WorkerGone v) : WorkerGone v.doPause where
  file := by simpa using h.file
  ends _ := ⟨by simpa using (h.ends h.active).1, mustPauseWork_doPause v h.active⟩
  active := by simpa using h.active

/-- `do_pause` keeps the flags in step with the worker. -/
theorem Held.doPause (h : Held p left) : Held { p with vSd := p.vSd.doPause } left where
  sent := h.sent
  ends hpaused hactive := by
    rw [isActive_doPause] at hactive
    exact ⟨by simpa using (h.ends hpaused hactive).1, mustPauseWork_doPause _ hactive⟩
  file hactive := by
    rw [isActive_doPause] at hactive
    have hmust := mustPauseWork_doPause _ hactive
    simpa [hmust] using (h.file hactive).imp id And.left
  stopped hstopped := by simpa using h.stopped hstopped

/-- Without a worker, the flags say nothing of a file that is not paused. -/
theorem held_of_idle (hsent : p.pauseCommandSent = true → p.isPaused = true)
    (hidle : p.vSd.isActive = false) (hstopped : ¬PrintPaused p) : Held p left where
  sent := hsent
  ends _ hactive := absurd (hidle.symm.trans hactive) (by simp)
  file hactive := absurd (hidle.symm.trans hactive) (by simp)
  stopped h := absurd h hstopped

theorem result_pause (h : Held p left) (hgone : cancelled = true → WorkerGone p.vSd)
    (hcareful : p.vSd.isActive = true → p.vSd.currentFile.isSome = true) :
    Result left cancelled false p.cmdPause := by
  unfold PauseResume.cmdPause
  cases hpaused : p.isPaused with
  | true => exact (h.same hgone).1
  | false =>
    have hsent : p.pauseCommandSent = false := by
      cases hsent : p.pauseCommandSent with
      | false => rfl
      | true => exact absurd (hpaused.symm.trans (h.sent hsent)) (by simp)
    unfold PauseResume.sendPauseCommand PauseResume.isSdActive
    cases hactive : p.vSd.isActive with
    | true =>
      have hdo := h.doPause
      have hmust := mustPauseWork_doPause _ hactive
      simp only [hsent, if_true, if_false, Bool.false_eq_true]
      refine ⟨⟨by simp, hdo.ends, hdo.file, fun hstopped => ?_⟩, ⟨rfl, fun _ => hmust, ?_, ?_⟩,
        fun hcancelled => (hgone hcancelled).doPause⟩
      · exact absurd (hpaused.symm.trans hstopped.1) (by simp)
      · simpa using hcareful hactive
      · intro hidle
        rw [isActive_doPause, hactive] at hidle
        exact absurd hidle (by simp)
    | false =>
      simp only [hsent, if_true, if_false, Bool.false_eq_true]
      refine ⟨held_of_idle (fun _ => rfl) hactive fun hstopped => ?_, ?_⟩
      · exact absurd hstopped.2 (by simp [PauseResume.pauseSent])
      · rw [Bool.or_false]
        exact fun hc => (hgone hc).toGone

theorem result_resume (h : Held p left) (hgone : cancelled = true → WorkerGone p.vSd)
    (hcareful : p.isPaused = true → p.vSd.isActive = false) :
    Result left cancelled false p.cmdResume := by
  unfold PauseResume.cmdResume
  split_ifs with hpaused
  · exact ⟨h, ⟨hpaused, hcareful hpaused, fun hne => absurd rfl hne⟩, hgone⟩
  · exact (h.same hgone).1

/-- `cmd_CLEAR_PAUSE` keeps the flags in step. -/
theorem Held.clearPause (h : Held p left) : Held p.cmdClearPause left where
  sent hsent := absurd hsent (by simp [PauseResume.cmdClearPause])
  ends hpaused := absurd hpaused (by simp [PauseResume.cmdClearPause])
  file := h.file
  stopped hstopped := absurd hstopped.1 (by simp [PauseResume.cmdClearPause])

/-- `file_position` means nothing without a file. -/
theorem Held.noFile (h : Held p left) (hfile : p.vSd.currentFile = none) : Held p.noFile left where
  sent := h.sent
  ends := h.ends
  file := h.file
  stopped hstopped := by
    have hsome := (h.stopped hstopped).1
    rw [hfile] at hsome
    exact absurd hsome (by simp)

theorem result_cancelPrint (h : Held p left) (hgone : cancelled = true → WorkerGone p.vSd)
    (hcareful : p.vSd.currentFile.isSome = true →
      p.vSd.isActive = true ∨ p.sdPaused = true) :
    Result left cancelled true p.cmdCancelPrint := by
  unfold PauseResume.cmdCancelPrint PauseResume.isSdActive
  have hends : p.vSd.currentFile = none → p.vSd.isActive = true →
      p.vSd.cmdFromSd = true ∧ p.vSd.mustPauseWork = true := fun hfile hactive =>
    (h.file hactive).resolve_left (by simp [hfile])
  split_ifs with hprinting hfile
  · exact ⟨h.doPause, fun hactive => mustPauseWork_doPause _ (by simpa using hactive),
      fun hcancelled => (hgone hcancelled).doPause⟩
  · rw [Option.not_isSome_iff_eq_none] at hfile
    exact ⟨(h.noFile hfile).clearPause, fun _ => ⟨hfile, hends hfile⟩⟩
  · have hfile : p.vSd.currentFile = none := by
      by_contra hne
      have hor := hcareful (Option.isSome_iff_ne_none.2 hne)
      simp only [Bool.or_eq_true] at hprinting
      exact hprinting hor
    exact ⟨h.clearPause, fun _ => ⟨hfile, hends hfile⟩⟩

/-- The worker is started for the file that is loaded. -/
theorem result_doResume (h : Held p left) (hgone : cancelled = true → WorkerGone p.vSd)
    (hcareful : p.vSd.isActive = true ∨ p.isPaused = false ∧ p.vSd.currentFile.isSome = true) :
    Result left cancelled false p.doResume := by
  unfold PauseResume.doResume
  cases hresume : p.vSd.doResume with
  | none => exact (h.same hgone).2
  | some v =>
    obtain ⟨hidle, rfl⟩ := doResume_eq_some.1 hresume
    have hready := hcareful.resolve_left (by simp [hidle])
    refine ⟨⟨h.sent, fun hpaused => ?_, fun _ => .inl hready.2, fun hstopped => ?_⟩, fun hc => ?_⟩
    · exact absurd (hready.1.symm.trans hpaused) (by simp)
    · exact absurd (hready.1.symm.trans hstopped.1) (by simp)
    · rw [Bool.or_false] at hc
      exact absurd (hidle.symm.trans ((hgone hc).active)) (by simp)

theorem result_m25 (h : Held p left) (hgone : cancelled = true → WorkerGone p.vSd) :
    Result left cancelled false (SdCommand.m25.start p) := by
  unfold SdCommand.start
  dsimp only
  split_ifs
  · exact ⟨h.doPause, trivial, fun hcancelled => (hgone hcancelled).doPause⟩
  · exact (h.same hgone).1

theorem result_resetFile (h : Held p left) (hgone : cancelled = true → WorkerGone p.vSd)
    (hcareful : p.vSd.isActive = true ∨ ¬PrintPaused p) :
    Result left cancelled false p.cmdSdcardResetFile := by
  unfold PauseResume.cmdSdcardResetFile
  split_ifs with hsd hfile
  · exact (h.same hgone).2
  · refine ⟨h.doPause, ⟨fun hactive => mustPauseWork_doPause _ (by simpa using hactive), ?_⟩,
      fun hcancelled => (hgone hcancelled).doPause⟩
    exact fun hstopped => hcareful.elim (fun hactive => hsd (h.ends hstopped.1 hactive).1)
      fun hnot => hnot hstopped
  · rw [Option.not_isSome_iff_eq_none] at hfile
    refine ⟨h.noFile hfile, ?_⟩
    rw [Bool.or_false]
    exact fun hcancelled => ⟨hfile, (hgone hcancelled).toGone.ends⟩

theorem result_m26 (h : Held p left) (hgone : cancelled = true → WorkerGone p.vSd)
    (hcareful : p.vSd.isActive = true ∨ ¬PrintPaused p) (position : ℕ) :
    Result left cancelled false (p.cmdM26 position) := by
  unfold PauseResume.cmdM26 PauseResume.isSdActive
  split_ifs with hactive
  · exact (h.same hgone).2
  · have hnot := hcareful.resolve_left hactive
    rw [Bool.not_eq_true] at hactive
    refine ⟨held_of_idle h.sent hactive hnot, ?_⟩
    rw [Bool.or_false]
    exact fun hcancelled => ⟨(hgone hcancelled).toGone.file, (hgone hcancelled).toGone.ends⟩

theorem loadFile_eq_some {content : Text} {z : Bool} {pose : Option ℕ}
    (h : v.loadFile content z pose = some v') :
    v'.workTimer = v.workTimer ∧ v'.currentFile.isSome = true := by
  unfold VirtualSd.loadFile at h
  split_ifs at h
  · obtain ⟨position, -, rfl⟩ := Option.map_eq_some_iff.1 h
    exact ⟨rfl, rfl⟩
  · obtain rfl := Option.some_inj.1 h
    exact ⟨rfl, rfl⟩

theorem isActive_congr (h : v'.workTimer = v.workTimer) : v'.isActive = v.isActive := by
  unfold VirtualSd.isActive
  rw [h]

/-- A file is loaded while the worker is off. -/
theorem result_load (h : Held p left) (hgone : cancelled = true → WorkerGone p.vSd)
    (hcareful : p.vSd.isActive = true ∨ ¬PrintPaused p) (caller : SdCaller) (load : SdLoad) :
    Result left cancelled false (p.cmdLoad caller load) := by
  unfold PauseResume.cmdLoad PauseResume.isSdActive
  split_ifs with hactive
  · exact (h.same hgone).2
  have hnot := hcareful.resolve_left hactive
  rw [Bool.not_eq_true] at hactive
  have hfresh : cancelled = false := by
    cases cancelled with
    | false => rfl
    | true => exact absurd (hactive.symm.trans ((hgone rfl).active)) (by simp)
  subst hfresh
  -- whatever the sdcard becomes, the worker stays off and the flags as they are
  have hheld : ∀ v : VirtualSd, v.workTimer = p.vSd.workTimer →
      Held { p with vSd := v } left := fun v hv =>
    held_of_idle h.sent ((isActive_congr hv).trans hactive) hnot
  unfold PauseResume.loadFile
  cases load with
  | none => exact ⟨hheld p.vSd.closeFile rfl, nofun⟩
  | some load =>
    obtain ⟨content, z, pose⟩ := load
    cases hload : p.vSd.closeFile.loadFile content z pose with
    | none =>
      simp only [hload]
      refine ⟨hheld _ ?_, nofun⟩
      rfl
    | some v =>
      simp only [hload]
      obtain ⟨hwork, hfile⟩ := loadFile_eq_some hload
      have hv := hheld v hwork
      have hidle : v.isActive = false := (isActive_congr hwork).trans hactive
      split_ifs with hpaused hprint
      · refine ⟨hv, ⟨hpaused, hidle, fun _ => ⟨?_, hfile⟩⟩, nofun⟩
        exact Bool.eq_false_iff.2 fun hsd => hnot ⟨hpaused, hsd⟩
      · exact result_doResume hv nofun (.inr ⟨Bool.eq_false_iff.2 hpaused, hfile⟩)
      · exact ⟨hv, nofun⟩

/-- The result of a command that is given with care. -/
theorem result_start {r : Run} (h : Held r.p left)
    (hgone : cancelled = true → WorkerGone r.p.vSd) {c : SdCommand}
    (hcareful : Careful r (.command c)) : Result left cancelled (isCancel c) (c.start r.p) := by
  cases c with
  | pause => exact result_pause h hgone hcareful
  | resume => exact result_resume h hgone hcareful
  | clearPause =>
    refine ⟨h.clearPause, ?_⟩
    simp only [isCancel, Bool.or_false]
    exact fun hc => ⟨(hgone hc).toGone.file, (hgone hc).toGone.ends⟩
  | cancelPrint => exact result_cancelPrint h hgone hcareful
  | m23 load => exact result_load h hgone hcareful _ load
  | m24 => exact result_doResume h hgone hcareful
  | m25 => exact result_m25 h hgone
  | m26 position => exact result_m26 h hgone hcareful position
  | sdcardResetFile => exact result_resetFile h hgone hcareful
  | sdcardPrintFile load => exact result_load h hgone hcareful _ load

/-! ## The waits -/

theorem Held.pauseSent (h : Held p left) (hw : Waits p left .pause) (hover : p.vSd.Paused) :
    Held p.pauseSent left := by
  obtain ⟨hsd, hmust, hfile, hmark⟩ := hw
  refine ⟨fun _ => rfl, fun _ hactive => ⟨?_, hmust hactive⟩, h.file, fun _ => ⟨hfile, hmark⟩⟩
  exact hover.resolve_left (by simp [show p.vSd.isActive = true from hactive])

/-- Behind the wait of `do_pause`, an active worker is one whose line is executing. -/
theorem ends_of_paused (hmust : p.vSd.isActive = true → p.vSd.mustPauseWork = true)
    (hover : p.vSd.Paused) (hactive : p.vSd.isActive = true) :
    p.vSd.cmdFromSd = true ∧ p.vSd.mustPauseWork = true :=
  ⟨hover.resolve_left (by simp [hactive]), hmust hactive⟩

/-- `closeFile` behind the wait of `do_pause`. -/
theorem gone_closeFile (hmust : p.vSd.isActive = true → p.vSd.mustPauseWork = true)
    (hover : p.vSd.Paused) : Gone p.vSd.closeFile :=
  ⟨rfl, ends_of_paused hmust hover⟩

/-- The end of `RESUME` by itself. -/
theorem sendResumeCommand_of_paused (h : Held p left) (hpaused : p.isPaused = true)
    (hidle : p.vSd.isActive = false) : ∃ t, p.sendResumeCommand = .returned t ∧ Held t left ∧
      t.isPaused = false ∧ t.vSd.currentFile = p.vSd.currentFile ∧ t.vSd.mark = p.vSd.mark ∧
      (p.sdPaused = true → t.vSd.workTimer = .registered) ∧
      (p.sdPaused = false → t.vSd = p.vSd) := by
  unfold PauseResume.sendResumeCommand
  split_ifs with hsd
  · obtain ⟨v, hv⟩ : ∃ v, p.vSd.doResume = some v := ⟨_, doResume_eq_some.2 ⟨hidle, rfl⟩⟩
    rw [hv]
    obtain ⟨-, rfl⟩ := doResume_eq_some.1 hv
    have hfile := (h.stopped ⟨hpaused, hsd⟩).1
    exact ⟨_, rfl, ⟨nofun, nofun, fun _ => .inl hfile, nofun⟩, rfl, rfl, rfl, fun _ => rfl,
      fun hnot => absurd (hnot.symm.trans hsd) (by simp)⟩
  · exact ⟨_, rfl, held_of_idle nofun hidle fun hstopped => by simpa using hstopped.1, rfl, rfl,
      rfl, fun hsd' => absurd hsd' hsd, fun _ => rfl⟩

theorem result_proceed (h : Held p left) {w : SdWait} (hw : Waits p left w)
    (hgone : cancelled = true → WorkerGone p.vSd)
    {raises : Bool} {result : SdResult} (hnext : p.proceed w raises = some result) :
    Result left cancelled (decide (w = .cancelPrint)) result := by
  unfold PauseResume.proceed at hnext
  cases w with
  | pause =>
    dsimp only at hnext
    split_ifs at hnext with hover
    obtain rfl := Option.some_inj.1 hnext
    refine ⟨h.pauseSent hw hover, ?_⟩
    simp only [reduceCtorEq, decide_false, Bool.or_false]
    exact fun hc => (hgone hc).toGone
  | m25 =>
    dsimp only at hnext
    split_ifs at hnext with hover
    obtain rfl := Option.some_inj.1 hnext
    exact (h.same hgone).1
  | cancelPrint =>
    dsimp only at hnext
    split_ifs at hnext with hover
    obtain rfl := Option.some_inj.1 hnext
    cases hfile : p.vSd.currentFile with
    | none =>
      simp only [PauseResume.closeFile, hfile, Option.map_none, Option.elim_none]
      exact ⟨h, fun _ => ⟨hfile, ends_of_paused hw hover⟩⟩
    | some f =>
      simp only [PauseResume.closeFile, hfile, Option.map_some, Option.elim_some]
      refine ⟨⟨nofun, nofun, fun hactive => .inr (ends_of_paused hw hover hactive), nofun⟩,
        fun _ => gone_closeFile hw hover⟩
  | resetFile =>
    dsimp only at hnext
    split_ifs at hnext with hover
    obtain rfl := Option.some_inj.1 hnext
    obtain ⟨hmust, hnot⟩ := hw
    cases hfile : p.vSd.currentFile with
    | none =>
      simp only [PauseResume.closeFile, hfile, Option.map_none, Option.elim_none]
      exact (h.same hgone).2
    | some f =>
      simp only [PauseResume.closeFile, hfile, Option.map_some, Option.elim_some]
      exact ⟨⟨h.sent, fun _ hactive => ends_of_paused hmust hover hactive,
        fun hactive => .inr (ends_of_paused hmust hover hactive), fun hp => absurd hp hnot⟩,
        fun _ => gone_closeFile hmust hover⟩
  | restore caller =>
    obtain ⟨hpaused, hidle, hcaller⟩ := hw
    have hfresh : cancelled = false :=
      Bool.eq_false_iff.2 fun hc => absurd (hidle.symm.trans ((hgone hc).active)) (by simp)
    have hkind : decide (SdWait.restore caller = .cancelPrint) = false := by simp
    obtain rfl := Option.some_inj.1 hnext
    rw [hfresh, hkind]
    split_ifs with hraises
    · exact (@Held.same p left false h nofun).2
    · obtain ⟨t, ht, hheld, hnot, hfile, -, -, hsame⟩ :=
        sendResumeCommand_of_paused h hpaused hidle
      unfold PauseResume.restored
      rw [ht]
      cases caller with
      | resume => exact ⟨hheld, nofun⟩
      | m23 => exact ⟨hheld, nofun⟩
      | sdcardPrintFile =>
        obtain ⟨hsd, hsome⟩ := hcaller (by decide)
        exact result_doResume hheld nofun (.inr ⟨hnot, by rw [hfile]; exact hsome⟩)

/-! ## A run -/

/-- What holds of every state of a run of careful commands. -/
structure Inv (r : Run) : Prop where
  held : Held r.p r.left
  waits : ∀ w ∈ r.waiting, Waits r.p r.left w
  gone : r.cancelled = true → Gone r.p.vSd
  nested : r.waiting.isSome = true → r.cancelled = true → r.p.vSd.isActive = true
  resumed : ∀ x ∈ r.resumed, r.executing = false ∧ ((x.raised = true ∧ x.moved = false) ∨
    (x.raised = false ∧ r.p.vSd.workTimer = .registered ∧ r.p.vSd.mark.isSome = true ∧
      r.p.vSd.mark = r.left))

variable {r t : Run}

theorem Inv.coherent (h : Inv r) (hidle : r.executing = false) : Coherent r where
  paused hpaused := Bool.eq_false_iff.2 fun hactive => by
    have hsd := (h.held.ends hpaused hactive).1
    simp [Run.executing, hsd] at hidle
  resumed x hx := (h.resumed x hx).2
  cancelled hcancelled := by
    have hgone := h.gone hcancelled
    refine ⟨hgone.file, Bool.eq_false_iff.2 fun hactive => ?_⟩
    have hsd := (hgone.ends hactive).1
    simp [Run.executing, hsd] at hidle

/-- What holds where something new may begin. -/
structure Ready (r : Run) : Prop extends Inv r where
  resumed_eq : r.resumed = none
  workerGone : r.cancelled = true → WorkerGone r.p.vSd

theorem Inv.ready (h : Inv r) : Ready r.fresh := by
  unfold Run.fresh
  split_ifs with hexecuting
  · refine ⟨h, ?_, fun hcancelled => ⟨h.gone hcancelled, ?_⟩⟩
    · refine Option.eq_none_iff_forall_not_mem.2 fun x hx => ?_
      exact absurd ((h.resumed x hx).1.symm.trans hexecuting) (by simp)
    · simp only [Run.executing, Bool.or_eq_true] at hexecuting
      exact hexecuting.elim (fun hw => h.nested hw hcancelled) isActive_of_cmdFromSd
  · exact ⟨⟨h.held, h.waits, nofun, nofun, nofun⟩, rfl, nofun⟩

/-- A command has come to a result. -/
theorem inv_finish (hresumed : r.resumed = none) {cancel : Bool} {result : SdResult}
    (h : Result r.left r.cancelled cancel result) : Inv (r.finish cancel result) := by
  cases result with
  | returned p | raised p =>
    exact ⟨h.1, nofun, h.2, nofun, fun x hx => absurd (hresumed.symm.trans hx) nofun⟩
  | waits p w =>
    refine ⟨h.1, fun w' hw' => ?_, fun hc => (h.2.2 hc).toGone, fun _ hc => (h.2.2 hc).active,
      fun x hx => absurd (hresumed.symm.trans hx) nofun⟩
    obtain rfl := Option.some_inj.1 hw'
    exact h.2.1

/-- The worker goes on. It does not while a command of its own line waits. -/
theorem inv_work (h : Ready r) {v : VirtualSd} (hworked : Worked r.p.vSd v)
    (hactive : r.p.vSd.isActive = true)
    (hline : r.waiting = none ∨ r.p.vSd.cmdFromSd = false) : Inv (r.work v) := by
  have hleft : v.isActive = false → v.mark = (r.work v).left := fun hidle => by
    simp [Run.work, hactive, hidle]
  have hstops : r.p.vSd.mustPauseWork = true →
      v.isActive = false ∧ v.currentFile.isSome = r.p.vSd.currentFile.isSome := hworked.stopped
  refine ⟨⟨h.held.sent, fun hpaused hv => ?_, fun hv => ?_, fun hpaused => ?_⟩, fun w hw => ?_,
    fun hcancelled => ?_, fun hsome hcancelled => ?_, fun x hx => ?_⟩
  · have hidle := (hstops (h.held.ends hpaused hactive).2).1
    exact absurd (hidle.symm.trans hv) (by simp)
  · refine .inl ((hworked.file hv).trans ((h.held.file hactive).resolve_right fun hends => ?_))
    exact absurd ((hstops hends.2).1.symm.trans hv) (by simp)
  · obtain ⟨hidle, hfile⟩ := hstops (h.held.ends hpaused.1 hactive).2
    exact ⟨hfile.trans (h.held.stopped hpaused).1, hleft⟩
  · have hwaits := h.waits w hw
    cases w with
    | pause =>
      obtain ⟨hsd, hmust, hfile, -⟩ := hwaits
      obtain ⟨hidle, hsame⟩ := hstops (hmust hactive)
      exact ⟨hsd, fun hv => absurd (hidle.symm.trans hv) (by simp), hsame.trans hfile, hleft⟩
    | m25 => trivial
    | cancelPrint => exact fun _ => hworked.mustPauseWork_eq.trans (hwaits hactive)
    | resetFile => exact ⟨fun _ => hworked.mustPauseWork_eq.trans (hwaits.1 hactive), hwaits.2⟩
    | restore caller => exact absurd (hwaits.2.1.symm.trans hactive) (by simp)
  · have hgone := h.workerGone hcancelled
    obtain ⟨hidle, hfile⟩ := hstops (hgone.ends hactive).2
    rw [hgone.file, Option.isSome_none] at hfile
    refine ⟨Option.not_isSome_iff_eq_none.1 fun hsome => ?_, fun hv => ?_⟩
    · exact absurd (hfile.symm.trans hsome) (by simp)
    · exact absurd (hidle.symm.trans hv) (by simp)
  · have hsd := ((h.workerGone hcancelled).ends hactive).1
    rcases hline with hnone | hnot
    · exact absurd hsome (by simp [Run.work, hnone])
    · exact absurd (hnot.symm.trans hsd) (by simp)
  · exact absurd (h.resumed_eq.symm.trans hx) nofun

/-- `RESUME` of a print that had been paused starts it again, or has not moved. -/
theorem resumed_restore (h : Held r.p r.left) (hw : Waits r.p r.left (.restore .resume))
    (hsd : r.p.sdPaused = true) {raises : Bool} {result : SdResult}
    (hnext : r.p.proceed (.restore .resume) raises = some result) (x : Resumed)
    (hx : x ∈ r.noteResumed raises result) (cancel : Bool) :
    (r.finish cancel result).executing = false ∧ ((x.raised = true ∧ x.moved = false) ∨
      (x.raised = false ∧ (r.finish cancel result).p.vSd.workTimer = .registered ∧
        (r.finish cancel result).p.vSd.mark.isSome = true ∧
        (r.finish cancel result).p.vSd.mark = (r.finish cancel result).left)) := by
  obtain ⟨hpaused, hidle, -⟩ := hw
  obtain rfl := Option.some_inj.1 hnext
  cases raises with
  | true =>
    obtain rfl := Option.some_inj.1 hx
    have hline : r.p.vSd.cmdFromSd = false := Bool.eq_false_iff.2 fun hline =>
      absurd (hidle.symm.trans (isActive_of_cmdFromSd hline)) (by simp)
    exact ⟨by simp [Run.executing, Run.finish, hline], .inl ⟨rfl, rfl⟩⟩
  | false =>
    obtain ⟨t, ht, -, -, -, hmark, hstarted, -⟩ := sendResumeCommand_of_paused h hpaused hidle
    obtain ⟨hfile, hleft⟩ := h.stopped ⟨hpaused, hsd⟩
    simp only [PauseResume.restored, ht, Bool.false_eq_true, if_false] at hx ⊢
    obtain rfl := Option.some_inj.1 hx
    refine ⟨?_, .inr ⟨rfl, hstarted hsd, ?_, hmark.trans (hleft hidle)⟩⟩
    · simp [Run.executing, Run.finish, VirtualSd.cmdFromSd, hstarted hsd]
    · show t.vSd.mark.isSome = true
      rw [hmark]
      simpa [VirtualSd.mark] using hfile

/-- A command goes on. -/
theorem inv_goOn (h : Ready r) {w : SdWait} (hw : r.waiting = some w) {raises : Bool}
    {result : SdResult} (hnext : r.p.proceed w raises = some result) :
    Inv (r.goOn w raises result) := by
  have hwaits := h.waits w hw
  have hfinish : Inv (r.finish (decide (w = .cancelPrint)) result) :=
    inv_finish h.resumed_eq (result_proceed h.held hwaits h.workerGone hnext)
  unfold Run.goOn
  dsimp only
  split_ifs with hresume
  · obtain ⟨rfl, hsd⟩ := hresume
    exact ⟨hfinish.held, hfinish.waits, hfinish.gone, hfinish.nested,
      fun x hx => resumed_restore h.held hwaits hsd hnext x hx _⟩
  · exact hfinish

theorem inv_step (h : Ready r) {e : Event} (hcareful : Careful r e) (hnext : step r e = some t) :
    Inv t := by
  cases e with
  | command c =>
    obtain ⟨-, hsome⟩ := Option.ite_none_right_eq_some.1 hnext
    obtain rfl := Option.some_inj.1 hsome
    exact inv_finish h.resumed_eq (result_start h.held h.workerGone hcareful)
  | proceed raises =>
    obtain ⟨w, hw, hmap⟩ := Option.bind_eq_some_iff.1 hnext
    obtain ⟨result, hresult, rfl⟩ := Option.map_eq_some_iff.1 hmap
    exact inv_goOn h hw hresult
  | begin =>
    obtain ⟨hwork, hsome⟩ := Option.ite_none_right_eq_some.1 hnext
    obtain rfl := Option.some_inj.1 hsome
    exact inv_work h worked_begin (by simp [VirtualSd.isActive, hwork])
      (.inr (by simp [VirtualSd.cmdFromSd, hwork]))
  | turn count recovery =>
    obtain ⟨⟨hturn, -⟩, hsome⟩ := Option.ite_none_right_eq_some.1 hnext
    obtain rfl := Option.some_inj.1 hsome
    unfold Run.mayTurn at hturn
    split at hturn
    · next file lines partialInput hwork =>
      exact inv_work h (worked_turn hwork count recovery) (by simp [VirtualSd.isActive, hwork])
        (.inr (by simp [VirtualSd.cmdFromSd, hwork]))
    · exact absurd hturn nofun
  | done failed =>
    obtain ⟨⟨hsd, hnone⟩, hsome⟩ := Option.ite_none_right_eq_some.1 hnext
    obtain rfl := Option.some_inj.1 hsome
    exact inv_work h (worked_done hsd failed) (isActive_of_cmdFromSd hsd)
      (.inl (Option.isNone_iff_eq_none.1 hnone))

/-- Whether an event is careful does not depend on what a run remembers. -/
theorem careful_fresh {e : Event} (h : Careful r e) : Careful r.fresh e := by
  unfold Run.fresh
  split_ifs
  · exact h
  · exact h

theorem inv_of_reachable (h : system.ReachableBy Careful r) : Inv r := by
  refine h.invariant ?_ fun r e t hr hcareful hnext =>
    inv_step hr.ready (careful_fresh hcareful) hnext
  rintro r rfl
  exact ⟨⟨nofun, nofun, nofun, nofun⟩, nofun, nofun, nofun, nofun⟩

/-- Whenever no command is executing, the flags agree with the worker. -/
theorem coherent_of_reachable (h : system.ReachableBy Careful r) (hidle : r.executing = false) :
    Coherent r :=
  (inv_of_reachable h).coherent hidle

/-! ## Two runs -/

instance (r : Run) (e : Event) : Decidable (Careful r e) := by
  unfold Careful PrintPaused
  split <;> infer_instance

/-- The printer after a run. -/
def afterRun (events : List Event) : Run :=
  (system.run start events).getD start

theorem run_start {events : List Event} (h : (system.run start events).isSome = true) :
    system.run start events = some (afterRun events) := by
  obtain ⟨r, hr⟩ := Option.isSome_iff_exists.1 h
  rw [afterRun, hr]
  rfl

/-- A print that is paused by a command and resumed. -/
def resumedPrint : List Event :=
  [.command (.sdcardPrintFile (some ("G1\nG2\n".toList, false, none))), .begin, .turn 8192 none,
    .turn 8192 none, .done false, .command .pause, .turn 8192 none, .proceed false,
    .command .resume, .proceed false]

theorem coherent_resumedPrint : Coherent (afterRun resumedPrint) :=
  coherent_of_reachable (System.ReachableBy.run (.init rfl) (by decide +kernel)
    (run_start (by decide +kernel))) (by decide +kernel)

/-- A print that is paused, and then started with `M24`. -/
def startedPrint : List Event :=
  [.command (.sdcardPrintFile (some ("G1\nG2\n".toList, false, none))), .begin, .command .pause,
    .turn 8192 none, .proceed false, .command .m24]

/-- The worker runs while the printer is paused. -/
theorem not_coherent : ¬ ∀ r, system.Reachable r → r.executing = false → Coherent r := by
  intro h
  have hreachable : system.Reachable (afterRun startedPrint) :=
    System.Reachable.run (.init rfl) (run_start (by decide +kernel))
  have hidle := (h _ hreachable (by decide +kernel)).paused (by decide +kernel)
  exact absurd hidle (by decide +kernel)

end PauseCoherence

end Thinker
