import Thinker.Lines
import Thinker.Transition

/-!
# The virtual sdcard

`VirtualSD` of `virtual_sdcard.py` : a worker hands the lines of a file to `gcode.run_script`.
It reads characters and counts bytes. Between two lines it gives way to the rest of the host,
so it is cut into steps there : one step is one turn of the loop of `work_handler`, and a line
that is being executed is a state of its own.

Waiting for the g-code mutex and for a pause changes nothing, and is left out.
-/

namespace Thinker

/-- An open file : its number among the files that were loaded, its content, and what `read`
goes on with, if that can be decoded. -/
structure SdFile where
  number : ℕ
  content : Text
  rest : Option Text

/-- `work_timer`, with the local variables of `work_handler`. The lines in hand come from the
file of this number. -/
inductive Work where
  | idle
  | registered
  | running (file : ℕ) (lines : List Text) (partialInput : Text)
  /-- In `run_script`, called with `cmd_from_sd` set. -/
  | command (file : ℕ) (line : Text) (lines : List Text) (partialInput : Text)
    (nextFilePosition : ℕ)
  deriving DecidableEq

/-- `VirtualSD`. The last four are not in the code : the lines that were handed to `run_script`
with the number of their file, those that were executed without an exception, how many were
not, and for each time that `run_plr` was run the number of the line at which it raised an
exception, if it did. -/
structure VirtualSd where
  currentFile : Option SdFile
  loaded : ℕ
  filePosition : ℕ
  mustPauseWork : Bool
  nextFilePosition : ℕ
  workTimer : Work
  zStr : Bool
  scripts : List (ℕ × Text)
  completed : List Text
  failures : ℕ
  recoveries : List (Option ℕ)

namespace VirtualSd

/-- Before any file is loaded. -/
def start : VirtualSd where
  currentFile := none
  loaded := 0
  filePosition := 0
  mustPauseWork := false
  nextFilePosition := 0
  workTimer := .idle
  zStr := false
  scripts := []
  completed := []
  failures := 0
  recoveries := []

/-- `is_active`. -/
def isActive (s : VirtualSd) : Bool :=
  decide (s.workTimer ≠ .idle)

/-- `cmd_from_sd`. -/
def cmdFromSd (s : VirtualSd) : Bool :=
  match s.workTimer with
  | .command _ _ _ _ _ => true
  | _ => false

/-- `do_pause`, up to the wait. -/
def doPause (s : VirtualSd) : VirtualSd :=
  if s.isActive then { s with mustPauseWork := true } else s

/-- What `do_pause` waits for. -/
def Paused (s : VirtualSd) : Prop :=
  s.isActive = false ∨ s.cmdFromSd = true

instance (s : VirtualSd) : Decidable s.Paused :=
  inferInstanceAs (Decidable (_ ∨ _))

/-- `do_resume`. `none` stands for the error "SD busy". -/
def doResume (s : VirtualSd) : Option VirtualSd :=
  if s.isActive then none else some { s with mustPauseWork := false, workTimer := .registered }

/-- `_reset_file` and `do_cancel` behind their wait, where there is a file. -/
def closeFile (s : VirtualSd) : VirtualSd :=
  { s with currentFile := none, filePosition := 0 }

/-- `_load_file` of a file with this content. `z` says whether there is a Z parameter that is
not empty, and `pose` is the first line of `/tmp/pose` if it is a number ; `none` stands for
the error that it is not. -/
def loadFile (s : VirtualSd) (content : Text) (z : Bool) (pose : Option ℕ) : Option VirtualSd :=
  let s := { s with
    currentFile := some ⟨s.loaded, content, some content⟩
    loaded := s.loaded + 1
    filePosition := 0
    zStr := z }
  if z then pose.map fun position => { s with filePosition := position } else some s

/-- `work_handler` up to its loop. -/
def workHandler (s : VirtualSd) : VirtualSd :=
  match s.currentFile with
  | none => { s with workTimer := .idle }
  | some f =>
    let file : SdFile := { f with rest := f.content.seek s.filePosition }
    { s with currentFile := some file, workTimer := .running f.number [] [] }

/-- The end of `work_handler`. -/
def exitWork (s : VirtualSd) : VirtualSd :=
  { s with workTimer := .idle }

/-- Read more data : up to `count` characters. `recovery` is the line at which `run_plr` raises
an exception, if it is run and does. -/
def readData (s : VirtualSd) (partialInput : Text) (count : ℕ) (recovery : Option ℕ) : VirtualSd :=
  match s.currentFile with
  | none => s.exitWork
  | some f =>
    match f.rest with
    | none => s.exitWork
    | some rest =>
      let data := rest.take count
      let file : SdFile := { f with rest := some (rest.drop count) }
      let s := { s with currentFile := some file }
      let recovers := decide (s.filePosition > 0) && s.zStr
      let s := if recovers then { s with zStr := false, recoveries := s.recoveries ++ [recovery] }
        else s
      if recovers && recovery.isSome then s.exitWork
      else if data = [] then { s with currentFile := none }.exitWork
      else
        let lines := data.splitOn '\n'
        let lines := lines.modifyHead (partialInput ++ ·)
        let work := Work.running f.number lines.dropLast (lines.getLast?.getD [])
        { s with workTimer := work }

/-- One turn of the loop of `work_handler`, up to `run_script`. -/
def workStep (s : VirtualSd) (count : ℕ) (recovery : Option ℕ) : VirtualSd :=
  match s.workTimer with
  | .running file lines partialInput =>
    if s.mustPauseWork then s.exitWork
    else
      match lines with
      | [] => s.readData partialInput count recovery
      | line :: lines =>
        let nextFilePosition := s.filePosition + line.bytes + 1
        { s with
          nextFilePosition := nextFilePosition
          workTimer := .command file line lines partialInput nextFilePosition
          scripts := s.scripts ++ [(file, line)] }
  | _ => s

/-- The rest of the turn, once `run_script` has returned, or `failed` with an exception. -/
def commandDone (s : VirtualSd) (failed : Bool) : VirtualSd :=
  match s.workTimer with
  | .command file line lines partialInput nextFilePosition =>
    if failed then { s with failures := s.failures + 1 }.exitWork
    else
      let s := { s with
        filePosition := s.nextFilePosition
        completed := s.completed ++ [line] }
      if s.nextFilePosition = nextFilePosition then
        { s with workTimer := .running file lines partialInput }
      else
        match s.currentFile with
        | none => s.exitWork
        | some f =>
          let file : SdFile := { f with rest := f.content.seek s.filePosition }
          { s with currentFile := some file, workTimer := .running f.number [] [] }
  | _ => s

end VirtualSd

/-- What happens to the worker. -/
inductive SdEvent where
  | pause
  | resume
  /-- The work timer is due. -/
  | begin
  /-- A turn of the loop reads up to this many characters, or starts to execute a line. -/
  | turn (count : ℕ) (recovery : Option ℕ)
  /-- The line has been executed. -/
  | done (failed : Bool)
  /-- A command that is being executed calls `set_file_position`. -/
  | setFilePosition (position : ℕ)

/-- The worker, from the time that a file is loaded, which an active worker does not allow. A
block has up to 8192 characters, and is empty only at the end of the file. -/
def sdWorker (content : Text) (z : Bool) (pose : Option ℕ) : System VirtualSd SdEvent where
  init s := ∃ s₀ : VirtualSd, s₀.isActive = false ∧ s₀.scripts = [] ∧ s₀.completed = [] ∧
    s₀.failures = 0 ∧ s₀.recoveries = [] ∧ s₀.closeFile.loadFile content z pose = some s
  next s
    | .pause => some s.doPause
    | .resume => s.doResume
    | .begin => if s.workTimer = .registered then some s.workHandler else none
    | .turn count recovery =>
      if s.isActive = true ∧ s.cmdFromSd = false ∧ s.workTimer ≠ .registered ∧ 0 < count ∧
        count ≤ 8192 then some (s.workStep count recovery) else none
    | .done failed => if s.cmdFromSd then some (s.commandDone failed) else none
    | .setFilePosition position =>
      if s.cmdFromSd then some { s with nextFilePosition := position } else none

end Thinker
