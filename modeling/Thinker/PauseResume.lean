import Thinker.GCodeScript

/-!
# Pausing, resuming and cancelling a print

The commands of `pause_resume.py` and `virtual_sdcard.py` that start, stop or change a print.
A command is cut where it waits : in the loop of `do_pause`, and in the moves of
`RESTORE_GCODE_STATE`, which may raise an error. In between the rest of the host may run.
-/

namespace Thinker

/-- `PauseResume`, with `v_sd`. A printer without a virtual sdcard is one whose sdcard is never
used. -/
structure PauseResume where
  vSd : VirtualSd
  isPaused : Bool
  sdPaused : Bool
  pauseCommandSent : Bool

/-- The command that loads a file or restores the position. -/
inductive SdCaller where
  | resume
  | m23
  | sdcardPrintFile
  deriving DecidableEq

/-- Where a command waits. -/
inductive SdWait where
  /-- `cmd_PAUSE` in `do_pause`. -/
  | pause
  /-- `cmd_M25` in `do_pause`. -/
  | m25
  /-- `cmd_CANCEL_PRINT` in the `do_pause` of `do_cancel`. -/
  | cancelPrint
  /-- `cmd_SDCARD_RESET_FILE` in the `do_pause` of `_reset_file`. -/
  | resetFile
  /-- `cmd_RESUME`, called by itself or by `_load_file`, in `RESTORE_GCODE_STATE`. -/
  | restore (caller : SdCaller)
  deriving DecidableEq

/-- A command has returned, or raised an error, or waits. -/
inductive SdResult where
  | returned (p : PauseResume)
  | raised (p : PauseResume)
  | waits (p : PauseResume) (w : SdWait)

/-- What `_load_file` finds : no file, or its content, whether the command has a Z parameter that
is not empty, and the first line of `/tmp/pose` if it is a number. -/
abbrev SdLoad := Option (Text × Bool × Option ℕ)

namespace PauseResume

variable (p : PauseResume)

/-- `is_sd_active`. -/
def isSdActive : Bool :=
  p.vSd.isActive

/-- `send_pause_command`, up to the wait of `do_pause`. -/
def sendPauseCommand : PauseResume :=
  if p.pauseCommandSent then p
  else if p.isSdActive then { p with sdPaused := true, vSd := p.vSd.doPause }
  else { p with sdPaused := false, pauseCommandSent := true }

/-- The end of `cmd_PAUSE`. -/
def pauseSent : PauseResume :=
  { p with pauseCommandSent := true, isPaused := true }

/-- `cmd_PAUSE`. -/
def cmdPause : SdResult :=
  if p.isPaused then .returned p
  else if p.sendPauseCommand.pauseCommandSent then .returned p.sendPauseCommand.pauseSent
  else .waits p.sendPauseCommand .pause

/-- `do_resume` of the sdcard. -/
def doResume : SdResult :=
  match p.vSd.doResume with
  | none => .raised p
  | some v => .returned { p with vSd := v }

/-- `send_resume_command`, and the end of `cmd_RESUME`. -/
def sendResumeCommand : SdResult :=
  if p.sdPaused then
    match p.vSd.doResume with
    | none => .raised p
    | some v =>
      .returned { p with vSd := v, sdPaused := false, pauseCommandSent := false, isPaused := false }
  else .returned { p with pauseCommandSent := false, isPaused := false }

/-- The end of the command that called `cmd_RESUME`. -/
def restored (caller : SdCaller) : SdResult :=
  match p.sendResumeCommand, caller with
  | .returned p, .sdcardPrintFile => p.doResume
  | result, _ => result

/-- `cmd_RESUME`. -/
def cmdResume : SdResult :=
  if p.isPaused then .waits p (.restore .resume) else .returned p

/-- `cmd_CLEAR_PAUSE`. -/
def cmdClearPause : PauseResume :=
  { p with isPaused := false, pauseCommandSent := false }

/-- `do_cancel` behind its wait. The file may have been closed during the wait, and
`current_file.close()` raises an exception then. -/
def closeFile : Option PauseResume :=
  p.vSd.currentFile.map fun _ => { p with vSd := p.vSd.closeFile }

/-- `file_position` of a sdcard that has no file. -/
def noFile : PauseResume :=
  { p with vSd := { p.vSd with filePosition := 0 } }

/-- `cmd_CANCEL_PRINT`. -/
def cmdCancelPrint : SdResult :=
  if p.isSdActive || p.sdPaused then
    if p.vSd.currentFile.isSome then .waits { p with vSd := p.vSd.doPause } .cancelPrint
    else .returned p.noFile.cmdClearPause
  else .returned p.cmdClearPause

/-- `cmd_SDCARD_RESET_FILE`. -/
def cmdSdcardResetFile : SdResult :=
  if p.vSd.cmdFromSd then .raised p
  else if p.vSd.currentFile.isSome then .waits { p with vSd := p.vSd.doPause } .resetFile
  else .returned p.noFile

/-- `_load_file`, called by `cmd_M23` or `cmd_SDCARD_PRINT_FILE`, and the rest of the command. -/
def loadFile (caller : SdCaller) (load : SdLoad) : SdResult :=
  match load with
  | none => .raised p
  | some (content, z, pose) =>
    match p.vSd.loadFile content z pose with
    | none =>
      -- The file is open when `/tmp/pose` turns out to be unreadable.
      let v := p.vSd.loadFile content false pose
      .raised { p with vSd := { v.getD p.vSd with zStr := true } }
    | some v =>
      let p : PauseResume := { p with vSd := v }
      if p.isPaused then .waits p (.restore caller)
      else if caller = .sdcardPrintFile then p.doResume
      else .returned p

/-- `cmd_M23` and `cmd_SDCARD_PRINT_FILE`. The work timer is off, so `_reset_file` does not
wait. -/
def cmdLoad (caller : SdCaller) (load : SdLoad) : SdResult :=
  if p.isSdActive then .raised p
  else ({ p with vSd := p.vSd.closeFile } : PauseResume).loadFile caller load

/-- `cmd_M26`. -/
def cmdM26 (position : ℕ) : SdResult :=
  if p.isSdActive then .raised p
  else .returned { p with vSd := { p.vSd with filePosition := position } }

/-- A command goes on : its wait is over, or the moves of `RESTORE_GCODE_STATE` have been made or
have raised an error. `none` stands for a wait that is not over. -/
def proceed (w : SdWait) (raises : Bool) : Option SdResult :=
  match w with
  | .restore caller => some (if raises then .raised p else p.restored caller)
  | .pause => if p.vSd.Paused then some (.returned p.pauseSent) else none
  | .m25 => if p.vSd.Paused then some (.returned p) else none
  | .cancelPrint =>
    if p.vSd.Paused then
      some (p.closeFile.elim (.raised p) fun p => .returned p.cmdClearPause)
    else none
  | .resetFile =>
    if p.vSd.Paused then some (p.closeFile.elim (.raised p) .returned) else none

end PauseResume

/-- A command about the print, with what it finds. -/
inductive SdCommand where
  | pause
  | resume
  | clearPause
  | cancelPrint
  | m23 (load : SdLoad)
  | m24
  | m25
  | m26 (position : ℕ)
  | sdcardResetFile
  | sdcardPrintFile (load : SdLoad)

namespace SdCommand

/-- The name that the command is registered under. -/
def key : SdCommand → Text
  | .pause => "PAUSE".toList
  | .resume => "RESUME".toList
  | .clearPause => "CLEAR_PAUSE".toList
  | .cancelPrint => "CANCEL_PRINT".toList
  | .m23 _ => "M23".toList
  | .m24 => "M24".toList
  | .m25 => "M25".toList
  | .m26 _ => "M26".toList
  | .sdcardResetFile => "SDCARD_RESET_FILE".toList
  | .sdcardPrintFile _ => "SDCARD_PRINT_FILE".toList

/-- The handler of a command, up to its wait. -/
def start (p : PauseResume) : SdCommand → SdResult
  | .pause => p.cmdPause
  | .resume => p.cmdResume
  | .clearPause => .returned p.cmdClearPause
  | .cancelPrint => p.cmdCancelPrint
  | .m23 load => p.cmdLoad .m23 load
  | .m24 => p.doResume
  | .m25 => if p.isSdActive then .waits { p with vSd := p.vSd.doPause } .m25 else .returned p
  | .m26 position => p.cmdM26 position
  | .sdcardResetFile => p.cmdSdcardResetFile
  | .sdcardPrintFile load => p.cmdLoad .sdcardPrintFile load

end SdCommand

end Thinker
