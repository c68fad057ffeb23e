import Thinker.Numerals
import Thinker.PosixPath
import Thinker.PrintStats

/-!
# Starting a print

`SDCARD_PRINT_FILE` and `M23` (`virtual_sdcard.py`) drop the loaded file, look the new one up, open
it, and go to the position in `/tmp/pose` if there is a Z parameter. If the printer is paused they
call `cmd_RESUME` (`pause_resume.py`), which goes back to the paused position and starts the worker
of a print that it had paused. `SDCARD_PRINT_FILE` starts the worker after that.

What can raise before the file is open leaves nothing behind; what raises later leaves the file
loaded, and the worker too if it was `RESUME` that had started it (`allOrNothing_iff`).
-/

namespace Thinker.PrintStart

/-- What is raised : an error of a command, or another exception. -/
inductive Problem where
  | error (message : String)
  | exception
  deriving DecidableEq

/-- `GCodeCommand`, with its raw parameters. -/
structure Gcmd where
  commandline : String
  rawParameters : Text
  params : String → Option Text

/-- What a command finds : the files of the directory and of those below it, the sizes of files
that can be opened, the first line of `/tmp/pose` if that can be read and has one, and what
`RESTORE_GCODE_STATE` raises at a speed. The last three are functions of Python. -/
structure Environment where
  listDirectory : Option (List (Text × ℕ))
  walkDirectory : Option (List (Text × ℕ))
  openFile : Text → Option ℕ
  pose : Option (Option Text)
  restoreGcodeState : ℚ → Option Problem
  lower : Text → Text
  int : Text → Option ℤ
  float : Text → Option ℚ

/-- An open file. -/
structure OpenFile where
  path : Text
  size : ℕ
  deriving DecidableEq

/-- `VirtualSD` and `PauseResume`. The last counts the timers registered for `work_handler`. -/
structure Printer where
  sdcardDirname : Text
  currentFile : Option OpenFile
  filePosition : ℤ
  fileSize : ℕ
  zStr : Option Text
  mustPauseWork : Bool
  workTimer : Bool
  printStats : PrintTime.PrintStats
  recoverVelocity : ℚ
  isPaused : Bool
  sdPaused : Bool
  pauseCommandSent : Bool
  workers : ℕ

/-- A function has completed, or raised. -/
inductive Outcome where
  | completed (p : Printer)
  | raised (problem : Problem) (p : Printer)

/-- What follows a function if it has not raised. -/
def Outcome.andThen : Outcome → (Printer → Outcome) → Outcome
  | .completed p, rest => rest p
  | .raised problem p, _ => .raised problem p

namespace Environment

variable (env : Environment)

/-- `get_file_list`. -/
def getFileList (checkSubdirs : Bool) : Except Problem (List (Text × ℕ)) :=
  if checkSubdirs then
    match env.walkDirectory with
    | none => .error .exception
    | some files => .ok files
  else
    match env.listDirectory with
    | none => .error (.error "Unable to get file list")
    | some files => .ok files

/-- The name that `_load_file` opens : of a file in the list, or of the last one that is the same
in lower case. -/
def fileName (files : List (Text × ℕ)) (filename : Text) : Option Text :=
  if filename ∈ files.map Prod.fst then some filename
  else (files.reverse.find? fun f => env.lower f.1 = env.lower filename).map Prod.fst

/-- The file that `_load_file` opens. -/
def openListed (sdcardDirname : Text) (files : List (Text × ℕ)) (filename : Text) :
    Option OpenFile :=
  (env.fileName files filename).bind fun fname =>
    let path := PosixPath.join sdcardDirname fname
    (env.openFile path).map fun size => ⟨path, size⟩

/-- The position that `_load_file` reads : it stays at the start if `/tmp/pose` has no line. -/
def readPose : Option ℤ :=
  match env.pose with
  | none => none
  | some none => some 0
  | some (some line) => env.int line

end Environment

namespace Gcmd

/-- `get_float(name, default)`. -/
def getFloat (env : Environment) (gcmd : Gcmd) (name : String) (default : ℚ) : Except Problem ℚ :=
  match gcmd.params name with
  | none => .ok default
  | some w =>
    match env.float w with
    | none =>
      let word := String.ofList w
      .error (.error s!"Error on '{gcmd.commandline}': unable to parse {word}")
    | some v => .ok v

/-- Whether there is a Z parameter that is not empty. -/
def hasZ (gcmd : Gcmd) : Bool :=
  (gcmd.params "Z").any fun z => !z.isEmpty

end Gcmd

namespace Printer

variable (p : Printer)

/-- `do_resume`. -/
def doResume : Outcome :=
  if p.workTimer then .raised (.error "SD busy") p
  else .completed { p with mustPauseWork := false, workTimer := true, workers := p.workers + 1 }

/-- `_reset_file`. The commands call it only when there is no worker, so `do_pause` does nothing. -/
def resetFile : Printer :=
  { p with currentFile := none, filePosition := 0, fileSize := 0, printStats := .reset }

/-- `send_resume_command`. -/
def sendResumeCommand : Outcome :=
  if p.sdPaused then
    p.doResume.andThen fun p => .completed { p with sdPaused := false, pauseCommandSent := false }
  else .completed { p with pauseCommandSent := false }

/-- `cmd_RESUME`. -/
def cmdResume (env : Environment) (gcmd : Gcmd) : Outcome :=
  if p.isPaused then
    match gcmd.getFloat env "VELOCITY" p.recoverVelocity with
    | .error problem => .raised problem p
    | .ok velocity =>
      match env.restoreGcodeState velocity with
      | some problem => .raised problem p
      | none => p.sendResumeCommand.andThen fun p => .completed { p with isPaused := false }
  else .completed p

/-- `_load_file` from where the position is known. -/
def fileLoaded (env : Environment) (gcmd : Gcmd) (filename : Text) (fsize : ℕ) : Outcome :=
  let p := { p with fileSize := fsize }
  (if p.isPaused then p.cmdResume env gcmd else .completed p).andThen fun p =>
    .completed { p with printStats := .setCurrentFile filename }

/-- `_load_file` with the file open. -/
def publishFile (env : Environment) (gcmd : Gcmd) (filename : Text) (f : OpenFile) : Outcome :=
  let p := { p with currentFile := some f, filePosition := 0, zStr := gcmd.params "Z" }
  if gcmd.hasZ then
    match env.readPose with
    | none => .raised (.error "resume print fail,Unable to open file /tmp/pose") p
    | some position => { p with filePosition := position }.fileLoaded env gcmd filename f.size
  else p.fileLoaded env gcmd filename f.size

/-- `_load_file`. -/
def loadFile (env : Environment) (gcmd : Gcmd) (filename : Text) (checkSubdirs : Bool) : Outcome :=
  match env.getFileList checkSubdirs with
  | .error problem => .raised problem p
  | .ok files =>
    match env.openListed p.sdcardDirname files filename with
    | none => .raised (.error "Unable to open file") p
    | some f => p.publishFile env gcmd filename f

end Printer

/-- A filename without a slash at its start. -/
def stripSlash (filename : Text) : Text :=
  if filename.head? = some '/' then filename.tail else filename

namespace Printer

variable (p : Printer) (env : Environment) (gcmd : Gcmd)

/-- `cmd_SDCARD_PRINT_FILE`. -/
def cmdSdcardPrintFile : Outcome :=
  if p.workTimer then .raised (.error "SD busy") p
  else
    match gcmd.params "FILENAME" with
    | none => .raised (.error s!"Error on '{gcmd.commandline}': missing FILENAME") p.resetFile
    -- `filename[0]` of an empty string
    | some [] => .raised .exception p.resetFile
    | some filename =>
      (p.resetFile.loadFile env gcmd (stripSlash filename) true).andThen Printer.doResume

/-- `cmd_M23`. -/
def cmdM23 : Outcome :=
  if p.workTimer then .raised (.error "SD busy") p
  else p.resetFile.loadFile env gcmd (stripSlash gcmd.rawParameters.strip) false

end Printer

/-- The commands that load a file. -/
inductive Command where
  | sdcardPrintFile
  | m23
  deriving DecidableEq

namespace Command

variable (env : Environment) (gcmd : Gcmd)

/-- The handler of a command. -/
def handler (p : Printer) : Command → Outcome
  | .sdcardPrintFile => p.cmdSdcardPrintFile env gcmd
  | .m23 => p.cmdM23 env gcmd

/-- The filename that a command is given. -/
def filename : Command → Option Text
  | .sdcardPrintFile =>
    match gcmd.params "FILENAME" with
    | none | some [] => none
    | some filename => some (stripSlash filename)
  | .m23 => some (stripSlash gcmd.rawParameters.strip)

/-- The files that a command chooses from. -/
def files : Command → Option (List (Text × ℕ))
  | .sdcardPrintFile => env.walkDirectory
  | .m23 => env.listDirectory

/-- The file that a command is given, with its name, if it is in the list and can be opened. -/
def Chooses (dirname : Text) (cmd : Command) (filename : Text) (f : OpenFile) : Prop :=
  cmd.filename gcmd = some filename ∧ ∃ files, cmd.files env = some files ∧
    env.openListed dirname files filename = some f

end Command

/-- Nothing is loaded, and nothing runs. -/
structure Nothing (p : Printer) : Prop where
  currentFile_eq : p.currentFile = none
  workTimer_eq : p.workTimer = false
  filePosition_eq : p.filePosition = 0
  fileSize_eq : p.fileSize = 0

/-- The chosen file is loaded, and the worker started if the command is to print it. -/
structure All (env : Environment) (gcmd : Gcmd) (cmd : Command) (before p : Printer)
    (filename : Text) (f : OpenFile) : Prop where
  currentFile_eq : p.currentFile = some f
  fileSize_eq : p.fileSize = f.size
  filePosition_eq : some p.filePosition = if gcmd.hasZ then env.readPose else some 0
  worker : cmd = .sdcardPrintFile →
    p.workTimer = true ∧ p.workers = before.workers + 1 ∧ p.mustPauseWork = false ∧
      p.printStats.filename = filename

/-- The print is started, or nothing is left of the attempt. -/
def AllOrNothing (env : Environment) (gcmd : Gcmd) (cmd : Command) (before : Printer) :
    Outcome → Prop
  | .completed p => ∃ filename f, cmd.Chooses env gcmd before.sdcardDirname filename f ∧
    All env gcmd cmd before p filename f
  | .raised _ p => Nothing p

/-- Whether `cmd_RESUME` of a paused printer goes back to the paused position. -/
def Resumes (env : Environment) (gcmd : Gcmd) (p : Printer) : Prop :=
  ∃ velocity, gcmd.getFloat env "VELOCITY" p.recoverVelocity = .ok velocity ∧
    env.restoreGcodeState velocity = none

/-- Once the file is open, nothing raises : `/tmp/pose` has a position if it is read, and the
printer is not paused, or resumes without starting the worker that the command is to start. -/
structure Smooth (env : Environment) (gcmd : Gcmd) (cmd : Command) (p : Printer) : Prop where
  pose : gcmd.hasZ = true → env.readPose.isSome = true
  resume : p.isPaused = true → Resumes env gcmd p
  idle : p.isPaused = true → cmd = .sdcardPrintFile → p.sdPaused = false

/-! ## Resuming -/

variable {env : Environment} {gcmd : Gcmd} {cmd : Command} {p t : Printer} {filename : Text}
  {f : OpenFile} {fsize : ℕ}

/-- A paused printer that `cmd_RESUME` has resumed. -/
def Printer.resumed (p : Printer) : Printer :=
  if p.sdPaused then
    { p with
      mustPauseWork := false
      workTimer := true
      workers := p.workers + 1
      sdPaused := false
      pauseCommandSent := false
      isPaused := false }
  else { p with pauseCommandSent := false, isPaused := false }

theorem doResume_of_idle (hidle : p.workTimer = false) : p.doResume =
    .completed { p with mustPauseWork := false, workTimer := true, workers := p.workers + 1 } := by
  simp [Printer.doResume, hidle]

theorem cmdResume_of_resumes (hidle : p.workTimer = false) (hpaused : p.isPaused = true)
    (h : Resumes env gcmd p) : p.cmdResume env gcmd = .completed p.resumed := by
  obtain ⟨velocity, hvelocity, hrestore⟩ := h
  simp only [Printer.cmdResume, hpaused, if_true, hvelocity, hrestore, Printer.sendResumeCommand,
    doResume_of_idle hidle, Printer.resumed]
  split_ifs <;> rfl

theorem cmdResume_of_not_resumes (hpaused : p.isPaused = true) (h : ¬Resumes env gcmd p) :
    ∃ problem, p.cmdResume env gcmd = .raised problem p := by
  simp only [Printer.cmdResume, hpaused, if_true]
  cases hvelocity : gcmd.getFloat env "VELOCITY" p.recoverVelocity with
  | error problem => exact ⟨problem, rfl⟩
  | ok velocity =>
    cases hrestore : env.restoreGcodeState velocity with
    | none => exact absurd ⟨velocity, hvelocity, hrestore⟩ h
    | some problem => exact ⟨problem, by simp only [hrestore]⟩

/-! ## Loading -/

/-- A file is loaded, and there is a worker for it if the printer had paused one. -/
structure Loaded (p t : Printer) (filename : Text) (fsize : ℕ) : Prop where
  currentFile_eq : t.currentFile = p.currentFile
  filePosition_eq : t.filePosition = p.filePosition
  fileSize_eq : t.fileSize = fsize
  filename_eq : t.printStats.filename = filename
  workTimer_eq : t.workTimer = (p.isPaused && p.sdPaused)
  workers_eq : t.workTimer = false → t.workers = p.workers

theorem fileLoaded_of_resumes (filename : Text) (fsize : ℕ) (hidle : p.workTimer = false)
    (h : p.isPaused = true → Resumes env gcmd p) :
    ∃ t, p.fileLoaded env gcmd filename fsize = .completed t ∧ Loaded p t filename fsize := by
  unfold Printer.fileLoaded
  dsimp only
  split_ifs with hpaused
  · rw [cmdResume_of_resumes (p := { p with fileSize := fsize }) hidle hpaused (h hpaused)]
    refine ⟨_, rfl, ?_⟩
    unfold Printer.resumed
    dsimp only
    split_ifs with hsd
    · exact ⟨rfl, rfl, rfl, rfl, by simp [hpaused, hsd], nofun⟩
    · exact ⟨rfl, rfl, rfl, rfl, by simp [hidle, hsd], fun _ => rfl⟩
  · exact ⟨_, rfl, rfl, rfl, rfl, rfl, by simp [hidle, hpaused], fun _ => rfl⟩

theorem fileLoaded_of_not_resumes (hpaused : p.isPaused = true) (h : ¬Resumes env gcmd p) :
    ∃ problem t, p.fileLoaded env gcmd filename fsize = .raised problem t ∧
      t.currentFile = p.currentFile := by
  obtain ⟨problem, hraised⟩ :=
    cmdResume_of_not_resumes (p := { p with fileSize := fsize }) hpaused h
  refine ⟨problem, { p with fileSize := fsize }, ?_, rfl⟩
  unfold Printer.fileLoaded
  dsimp only
  rw [if_pos hpaused, hraised]
  rfl

/-- What `_load_file` does with an open file, if nothing raises then. -/
theorem publishFile_of_smooth (filename : Text) (f : OpenFile) (hidle : p.workTimer = false)
    (hpose : gcmd.hasZ = true → env.readPose.isSome = true)
    (h : p.isPaused = true → Resumes env gcmd p) :
    ∃ t, p.publishFile env gcmd filename f = .completed t ∧ t.currentFile = some f ∧
      t.fileSize = f.size ∧ (some t.filePosition = if gcmd.hasZ then env.readPose else some 0) ∧
      t.printStats.filename = filename ∧ t.workTimer = (p.isPaused && p.sdPaused) ∧
      (t.workTimer = false → t.workers = p.workers) := by
  unfold Printer.publishFile
  dsimp only
  split_ifs with hz
  · obtain ⟨position, hposition⟩ := Option.isSome_iff_exists.1 (hpose hz)
    rw [hposition]
    obtain ⟨t, ht, hloaded⟩ := fileLoaded_of_resumes filename f.size
      (p := { p with currentFile := some f, filePosition := position, zStr := gcmd.params "Z" })
      hidle h
    exact ⟨t, ht, hloaded.currentFile_eq, hloaded.fileSize_eq,
      congrArg some hloaded.filePosition_eq, hloaded.filename_eq, hloaded.workTimer_eq,
      hloaded.workers_eq⟩
  · obtain ⟨t, ht, hloaded⟩ := fileLoaded_of_resumes filename f.size
      (p := { p with currentFile := some f, filePosition := 0, zStr := gcmd.params "Z" })
      hidle h
    exact ⟨t, ht, hloaded.currentFile_eq, hloaded.fileSize_eq,
      congrArg some hloaded.filePosition_eq, hloaded.filename_eq, hloaded.workTimer_eq,
      hloaded.workers_eq⟩

/-- What raises with the file open leaves it loaded. -/
theorem publishFile_of_not_smooth (filename : Text) (f : OpenFile)
    (h : ¬((gcmd.hasZ = true → env.readPose.isSome = true) ∧
      (p.isPaused = true → Resumes env gcmd p))) :
    ∃ problem t, p.publishFile env gcmd filename f = .raised problem t ∧
      t.currentFile = some f := by
  unfold Printer.publishFile
  dsimp only
  split_ifs with hz
  · cases hposition : env.readPose with
    | none => exact ⟨_, _, rfl, rfl⟩
    | some position =>
      have hpaused : p.isPaused = true ∧ ¬Resumes env gcmd p := by
        by_contra hnot
        push Not at hnot
        exact h ⟨fun _ => by rw [hposition]; rfl, hnot⟩
      exact fileLoaded_of_not_resumes hpaused.1 hpaused.2
  · have hpaused : p.isPaused = true ∧ ¬Resumes env gcmd p := by
      by_contra hnot
      push Not at hnot
      exact h ⟨fun hz' => absurd hz' hz, hnot⟩
    exact fileLoaded_of_not_resumes hpaused.1 hpaused.2

/-! ## All or nothing -/

/-- `_load_file` with a file to open. -/
theorem loadFile_of_chooses {files : List (Text × ℕ)} (hfiles : cmd.files env = some files)
    (hopen : env.openListed p.sdcardDirname files filename = some f) :
    p.loadFile env gcmd filename (cmd = .sdcardPrintFile) = p.publishFile env gcmd filename f := by
  have hlist : env.getFileList (cmd = .sdcardPrintFile) = .ok files := by
    unfold Environment.getFileList
    cases cmd <;> simp only [Command.files] at hfiles <;> simp [hfiles]
  simp only [Printer.loadFile, hlist, hopen]

/-- `_load_file` without a file to open. -/
theorem loadFile_of_not_chooses
    (h : ∀ files f, cmd.files env = some files →
      env.openListed p.sdcardDirname files filename ≠ some f) :
    ∃ problem, p.loadFile env gcmd filename (cmd = .sdcardPrintFile) = .raised problem p := by
  unfold Printer.loadFile Environment.getFileList
  have hnone : ∀ files, cmd.files env = some files →
      env.openListed p.sdcardDirname files filename = none := fun files hfiles =>
    Option.eq_none_iff_forall_ne_some.2 fun f => h files f hfiles
  cases cmd with
  | sdcardPrintFile =>
    cases hfiles : env.walkDirectory with
    | none => exact ⟨.exception, by simp⟩
    | some files => exact ⟨.error "Unable to open file", by simp [hnone files hfiles]⟩
  | m23 =>
    cases hfiles : env.listDirectory with
    | none => exact ⟨.error "Unable to get file list", by simp⟩
    | some files => exact ⟨.error "Unable to open file", by simp [hnone files hfiles]⟩

/-- The end of a command. -/
def Command.finish (p : Printer) : Command → Outcome
  | .sdcardPrintFile => p.doResume
  | .m23 => .completed p

/-- A command without a worker. -/
theorem handler_eq (hidle : p.workTimer = false) :
    (∃ filename, cmd.filename gcmd = some filename ∧ cmd.handler env gcmd p =
      (p.resetFile.loadFile env gcmd filename (cmd = .sdcardPrintFile)).andThen
        fun p => cmd.finish p) ∨
    cmd.filename gcmd = none ∧ ∃ problem, cmd.handler env gcmd p = .raised problem p.resetFile := by
  cases cmd with
  | sdcardPrintFile =>
    simp only [Command.handler, Printer.cmdSdcardPrintFile, hidle, Command.filename]
    match hname : gcmd.params "FILENAME" with
    | none => exact .inr ⟨rfl, _, rfl⟩
    | some [] => exact .inr ⟨rfl, _, rfl⟩
    | some (c :: rest) => exact .inl ⟨_, rfl, rfl⟩
  | m23 =>
    refine .inl ⟨_, rfl, ?_⟩
    simp only [Command.handler, Printer.cmdM23, hidle]
    cases hload : p.resetFile.loadFile env gcmd (stripSlash gcmd.rawParameters.strip) false with
    | completed t => simp [hload, Outcome.andThen, Command.finish]
    | raised problem t => simp [hload, Outcome.andThen]

theorem nothing_resetFile (hidle : p.workTimer = false) : Nothing p.resetFile :=
  ⟨rfl, hidle, rfl, rfl⟩

/-- A command with the file open. -/
theorem published_iff (hidle : p.workTimer = false)
    (hchooses : cmd.Chooses env gcmd p.sdcardDirname filename f) :
    AllOrNothing env gcmd cmd p
        ((p.resetFile.publishFile env gcmd filename f).andThen fun p => cmd.finish p) ↔
      Smooth env gcmd cmd p := by
  by_cases hsmooth : (gcmd.hasZ = true → env.readPose.isSome = true) ∧
      (p.isPaused = true → Resumes env gcmd p)
  · obtain ⟨t, ht, hfile, hsize, hposition, hstats, hwork, hworkers⟩ :=
      publishFile_of_smooth (p := p.resetFile) filename f hidle hsmooth.1 hsmooth.2
    rw [ht]
    cases cmd with
    | m23 =>
      exact iff_of_true ⟨filename, f, hchooses, hfile, hsize, hposition, nofun⟩
        ⟨hsmooth.1, hsmooth.2, nofun⟩
    | sdcardPrintFile =>
      show AllOrNothing env gcmd .sdcardPrintFile p t.doResume ↔ _
      cases hbusy : t.workTimer with
      | true =>
        -- `RESUME` has started the worker
        rw [hwork, Bool.and_eq_true] at hbusy
        simp only [Printer.doResume, hwork, hbusy, Bool.and_self, if_true]
        refine iff_of_false (fun h => ?_) fun h => ?_
        · exact absurd (hfile.symm.trans h.currentFile_eq) (by simp)
        · exact absurd (hbusy.2.symm.trans (h.idle hbusy.1 rfl)) (by simp)
      | false =>
        rw [doResume_of_idle hbusy]
        refine iff_of_true ⟨filename, f, hchooses, hfile, hsize, hposition, fun _ => ?_⟩
          ⟨hsmooth.1, hsmooth.2, fun hpaused _ => ?_⟩
        · exact ⟨rfl, congrArg (· + 1) (hworkers hbusy), rfl, hstats⟩
        · rw [hwork] at hbusy
          simpa [Printer.resetFile, hpaused] using hbusy
  · obtain ⟨problem, t, hraised, hfile⟩ :=
      publishFile_of_not_smooth (p := p.resetFile) filename f hsmooth
    rw [hraised]
    refine iff_of_false (fun h => ?_) fun h => hsmooth ⟨h.pose, h.resume⟩
    exact absurd (hfile.symm.trans h.currentFile_eq) (by simp)

/-- The print is started or nothing is left of the attempt, if and only if nothing raises once
the file is open. -/
theorem allOrNothing_iff (hidle : p.workTimer = false) :
    AllOrNothing env gcmd cmd p (cmd.handler env gcmd p) ↔
      ∀ filename f, cmd.Chooses env gcmd p.sdcardDirname filename f → Smooth env gcmd cmd p := by
  obtain ⟨filename, hname, hhandler⟩ | ⟨hname, problem, hhandler⟩ := handler_eq hidle
  · by_cases hopens : ∃ files f, cmd.files env = some files ∧
        env.openListed p.sdcardDirname files filename = some f
    · obtain ⟨files, f, hfiles, hopen⟩ := hopens
      have hchooses : cmd.Chooses env gcmd p.sdcardDirname filename f :=
        ⟨hname, files, hfiles, hopen⟩
      have hall : (∀ filename f, cmd.Chooses env gcmd p.sdcardDirname filename f →
          Smooth env gcmd cmd p) ↔ Smooth env gcmd cmd p :=
        ⟨fun h => h filename f hchooses, fun h _ _ _ => h⟩
      rw [hhandler, loadFile_of_chooses hfiles (p := p.resetFile) hopen, hall]
      exact published_iff hidle hchooses
    · obtain ⟨problem, hraised⟩ := @loadFile_of_not_chooses env gcmd cmd p.resetFile filename
        fun files f hfiles hopen => hopens ⟨files, f, hfiles, hopen⟩
      rw [hhandler, hraised]
      refine iff_of_true (nothing_resetFile hidle) fun filename' f hchooses => ?_
      obtain ⟨hname', files, hfiles, hopen⟩ := hchooses
      rw [hname] at hname'
      obtain rfl := Option.some_inj.1 hname'
      exact absurd ⟨files, f, hfiles, hopen⟩ hopens
  · rw [hhandler]
    refine iff_of_true (nothing_resetFile hidle) fun filename f hchooses => ?_
    rw [hchooses.1] at hname
    exact absurd hname (by simp)

/-- A printer that has just started. -/
def Printer.fresh : Printer where
  sdcardDirname := "/gcodes".toList
  currentFile := none
  filePosition := 0
  fileSize := 0
  zStr := none
  mustPauseWork := false
  workTimer := false
  printStats := .reset
  recoverVelocity := 50
  isPaused := false
  sdPaused := false
  pauseCommandSent := false
  workers := 0

/-- One file, and this `/tmp/pose`. -/
def Environment.oneFile (pose : Option (Option Text)) : Environment where
  listDirectory := some [("a.gcode".toList, 10)]
  walkDirectory := some [("a.gcode".toList, 10)]
  openFile _ := some 10
  pose := pose
  restoreGcodeState _ := none
  lower := id
  int line := if line = ['7'] then some 7 else none
  float _ := none

/-- `SDCARD_PRINT_FILE` of the file from where it was left. -/
def printAgain : Gcmd where
  commandline := "SDCARD_PRINT_FILE FILENAME=a.gcode Z=1"
  rawParameters := "FILENAME=a.gcode Z=1".toList
  params name := if name = "FILENAME" then some "a.gcode".toList
    else if name = "Z" then some ['1'] else none

theorem allOrNothing_printAgain :
    AllOrNothing (.oneFile (some (some ['7']))) printAgain .sdcardPrintFile .fresh
      (Command.handler (.oneFile (some (some ['7']))) printAgain .fresh .sdcardPrintFile) :=
  (allOrNothing_iff rfl).2 fun _ _ _ => ⟨fun _ => by decide, nofun, nofun⟩

/-- The printer after a function. -/
def Outcome.printer : Outcome → Printer
  | .completed p | .raised _ p => p

/-- Whether a function has raised. -/
def Outcome.isRaised : Outcome → Bool
  | .completed _ => false
  | .raised _ _ => true

theorem AllOrNothing.currentFile_eq {o : Outcome} (h : AllOrNothing env gcmd cmd p o)
    (hraised : o.isRaised = true) : o.printer.currentFile = none := by
  cases o with
  | completed t => exact absurd hraised (by simp [Outcome.isRaised])
  | raised problem t => exact Nothing.currentFile_eq h

/-- Without `/tmp/pose`, the file stays loaded. -/
theorem not_allOrNothing : ¬ ∀ env gcmd cmd p, p.workTimer = false →
    AllOrNothing env gcmd cmd p (cmd.handler env gcmd p) := by
  intro h
  have hfile := (h (.oneFile none) printAgain .sdcardPrintFile .fresh rfl).currentFile_eq
    (by decide +kernel)
  exact absurd hfile (by decide +kernel)

end Thinker.PrintStart
