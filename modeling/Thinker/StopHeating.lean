import Thinker.PauseResume
import Thinker.Transition

/-!
# Scripts, cancels and heater waits

`run_script` of `gcode.py` cancels the print and raises the four `stop_heating` flags where the
first line of the script names `CANCEL_PRINT`, before it takes the g-code mutex. The flags are
cleared by a script that finds x not homed, by a heater wait that finds the file closed, and at
the end of a probe session. Scripts of any number of clients take turns with the worker of the
sdcard, and are cut where they wait ; `run_plr` is part of a step. A printer has both heaters, a
probe and a sdcard : without one of them `run_script` raises an exception.
-/

namespace Thinker

/-- The `stop_heating` flags of the heaters `extruder` and `heater_bed`, of the probe and of
`gcode_move`. -/
structure StopHeating where
  extruder : ℕ
  heaterBed : ℕ
  probe : ℕ
  gcodeMove : ℕ
  deriving DecidableEq

namespace StopHeating

/-- All flags are 0. -/
def cleared : StopHeating :=
  ⟨0, 0, 0, 0⟩

/-- All flags are 1. -/
def raised : StopHeating :=
  ⟨1, 1, 1, 1⟩

end StopHeating

/-- The heaters whose flag a cancel raises, and any other. -/
inductive HeaterName where
  | extruder
  | heaterBed
  | other
  deriving DecidableEq

/-- What `check_busy` clears for a print that was cancelled. -/
def StopHeating.clear (f : StopHeating) : HeaterName → StopHeating
  | .extruder => { f with extruder := 0, probe := 0, gcodeMove := 0 }
  | .heaterBed => { f with heaterBed := 0, probe := 0, gcodeMove := 0 }
  | .other => { f with probe := 0, gcodeMove := 0 }

/-- `ControlBangBang` or `ControlPID`, with what `check_busy` reads. -/
inductive HeaterControl where
  | bangBang (maxDelta : ℚ)
  | pid (prevTempDeriv : ℚ)

/-- `check_busy` of a control. -/
def HeaterControl.checkBusy (smoothedTemp targetTemp : ℚ) : HeaterControl → Bool
  | .bangBang maxDelta => decide (smoothedTemp < targetTemp - maxDelta)
  | .pid prevTempDeriv => decide (4 < |targetTemp - smoothedTemp| ∨ 1 / 10 < |prevTempDeriv|)

/-- `cmd_G1` reaches `move_with_transform`. -/
def reachesMove (stopHeating : ℕ) (params : List (Text × Text)) : Bool :=
  let has (key : String) := (params.lookup key.toList).isSome
  if stopHeating = 0 then true
  else if has "Z" || has "240" || has "200" then true
  else
    match params.lookup "X".toList with
    | none => false
    | some x => x.has "240".toList || x.has "200".toList

/-- `script.split('\n')[0]`. -/
def firstLine (script : Text) : Text :=
  script.takeWhile (· ≠ '\n')

/-- The text that makes `run_script` cancel the print. -/
def cancels (script : Text) : Bool :=
  (firstLine script).has "CANCEL_PRINT".toList || (firstLine script).has "cancel_print".toList

/-- Where the script of a client is. -/
inductive ScriptPhase where
  /-- In the `do_pause` of `do_cancel`, called by `run_script`. -/
  | cancelling
  /-- It waits for the mutex. -/
  | waiting
  | running
  | returned
  deriving DecidableEq

/-- Who holds the mutex. -/
inductive ScriptHolder where
  | worker
  | client (k : ℕ)
  deriving DecidableEq

/-- What a command waits for. -/
inductive ScriptWait where
  | sd (w : SdWait)
  /-- `_wait_for_temperature`. -/
  | heat (heater : HeaterName)
  deriving DecidableEq

/-- The host as far as scripts are concerned. `mutex` is who holds the mutex and what its command
waits for. The last three are not in the code : the scripts that have cancelled the print, the
number of each file that was closed by a cancel or a reset with the number of lines that had
been handed to `run_script` then, and the files for which `cmd_G1` has left out a move although
they were not closed. -/
structure ScriptHost where
  pauseResume : PauseResume
  stopHeating : StopHeating
  xHomed : Bool
  isShutdown : Bool
  mutex : Option (ScriptHolder × Option ScriptWait)
  clients : List ScriptPhase
  cancelScripts : List Text
  cancelled : List (ℕ × ℕ)
  dropped : List ℕ

namespace ScriptHost

/-- The sdcard. -/
def vSd (s : ScriptHost) : VirtualSd :=
  s.pauseResume.vSd

/-- The state with another sdcard. -/
def setSd (s : ScriptHost) (v : VirtualSd) : ScriptHost :=
  { s with pauseResume := { s.pauseResume with vSd := v } }

/-- The file that a cancel or a reset closes, with the number of lines handed over. -/
def closes (s : ScriptHost) : List (ℕ × ℕ) :=
  s.vSd.currentFile.toList.map fun f => (f.number, s.vSd.scripts.length)

/-- `run_script` in the lines that cancel the print, up to the wait of `do_pause`. -/
def beginCancel (s : ScriptHost) (script : Text) : ScriptHost :=
  if cancels script then
    let s : ScriptHost := { s with
      stopHeating := .raised
      cancelScripts := s.cancelScripts ++ [script] }
    if s.vSd.currentFile.isSome then s.setSd s.vSd.doPause
    else { s with pauseResume := s.pauseResume.noFile }
  else s

/-- `run_script` behind the cancel. -/
def clearFlags (s : ScriptHost) : ScriptHost :=
  if s.xHomed then s else { s with stopHeating := .cleared }

/-- `do_cancel` behind its wait. -/
def endCancel (s : ScriptHost) : ScriptHost :=
  { s.setSd s.vSd.closeFile with cancelled := s.cancelled ++ s.closes }

/-- `run_script` of the worker, up to the mutex : `cmd_from_sd` is set, so `do_cancel` does not
wait. -/
def workerScript (s : ScriptHost) (script : Text) : ScriptHost :=
  let t := s.beginCancel script
  (if cancels script && s.vSd.currentFile.isSome then t.endCancel else t).clearFlags

/-- `run_script` of a client, up to its first wait. -/
def clientScript (s : ScriptHost) (script : Text) : ScriptHost :=
  let t := s.beginCancel script
  if cancels script && s.vSd.currentFile.isSome then
    if t.vSd.Paused then
      let t := t.endCancel.clearFlags
      { t with clients := t.clients ++ [.waiting] }
    else { t with clients := t.clients ++ [.cancelling] }
  else
    let t := t.clearFlags
    { t with clients := t.clients ++ [.waiting] }

/-- The wait of `do_cancel` in the script of client `k` is over. If the file was closed in the
meantime, `current_file.close()` raises an exception. -/
def cancelDone (s : ScriptHost) (k : ℕ) : ScriptHost :=
  if s.vSd.currentFile.isSome then
    let s := s.endCancel.clearFlags
    { s with clients := s.clients.set k .waiting }
  else { s with clients := s.clients.set k .returned }

/-- A command of the script that holds the mutex has returned, or raised an error, or waits. -/
def afterCommand (s : ScriptHost) (holder : ScriptHolder) : SdResult → ScriptHost
  | .returned p | .raised p => { s with pauseResume := p, mutex := some (holder, none) }
  | .waits p w => { s with pauseResume := p, mutex := some (holder, some (.sd w)) }

/-- The wait of a command is over. -/
def proceed (s : ScriptHost) (holder : ScriptHolder) (w : SdWait) (raises : Bool) :
    Option ScriptHost :=
  (s.pauseResume.proceed w raises).map fun result =>
    let closed := if w = .cancelPrint ∨ w = .resetFile then s.closes else []
    { s.afterCommand holder result with cancelled := s.cancelled ++ closed }

/-- `check_busy` of a heater : the flags and whether the wait goes on. -/
def checkBusy (s : ScriptHost) (heater : HeaterName) (control : HeaterControl)
    (smoothedTemp targetTemp : ℚ) : ScriptHost × Bool :=
  if (s.pauseResume.isSdActive || s.pauseResume.sdPaused) && s.vSd.currentFile.isNone then
    ({ s with stopHeating := s.stopHeating.clear heater }, false)
  else (s, control.checkBusy smoothedTemp targetTemp)

/-- One turn of the loop of `_wait_for_temperature`. -/
def waitTurn (s : ScriptHost) (holder : ScriptHolder) (heater : HeaterName)
    (control : HeaterControl) (smoothedTemp targetTemp : ℚ) : ScriptHost :=
  if s.isShutdown then { s with mutex := some (holder, none) }
  else
    match s.checkBusy heater control smoothedTemp targetTemp with
    | (s, true) => s
    | (s, false) => { s with mutex := some (holder, none) }

/-- The number of the file whose line is being executed. -/
def workFile (s : ScriptHost) : Option ℕ :=
  match s.vSd.workTimer with
  | .command file _ _ _ _ => some file
  | _ => none

/-- The line that the worker hands to `run_script` in its next turn. -/
def nextLine (s : ScriptHost) (count : ℕ) (recovery : Option ℕ) : Option Text :=
  match (s.vSd.workStep count recovery).workTimer with
  | .command _ line _ _ _ => some line
  | _ => none

/-- Whether file `n` was closed by a cancel or a reset. -/
def Cancelled (s : ScriptHost) (n : ℕ) : Prop :=
  n ∈ s.cancelled.map Prod.fst

instance (s : ScriptHost) (n : ℕ) : Decidable (s.Cancelled n) :=
  inferInstanceAs (Decidable (_ ∈ _))

/-- `cmd_G1` in the script that holds the mutex. -/
def cmdG1 (s : ScriptHost) (holder : ScriptHolder) (params : List (Text × Text)) : ScriptHost :=
  match holder, s.workFile with
  | .worker, some n =>
    if reachesMove s.stopHeating.gcodeMove params = true ∨ s.Cancelled n then s
    else { s with dropped := s.dropped ++ [n] }
  | _, _ => s

/-- What happens to the host. -/
inductive Event where
  /-- A client calls `run_script`. -/
  | runScript (script : Text)
  | cancelDone (k : ℕ)
  /-- Client `k` gets the mutex. -/
  | enter (k : ℕ)
  /-- The script of the client that holds the mutex returns or raises an error. -/
  | exit
  /-- The script that holds the mutex executes a command, itself or in a macro. -/
  | command (cmd : SdCommand)
  | proceed (raises : Bool)
  | g1 (params : List (Text × Text))
  /-- M109 or M190 with a target. -/
  | heat (heater : HeaterName)
  | waitTurn (control : HeaterControl) (smoothedTemp targetTemp : ℚ)
  /-- `multi_probe_end`. -/
  | multiProbeEnd
  /-- Homing, or motors that are switched off. -/
  | setHomed (xHomed : Bool)
  | shutdown
  /-- The work timer is due. -/
  | begin
  | turn (count : ℕ) (recovery : Option ℕ)
  /-- A line of the file has raised an error, and the worker runs `on_error_gcode`. -/
  | onError (script : Text)
  /-- The line of the file is done with. -/
  | done (failed : Bool)

/-- The state after an event. -/
def next (s : ScriptHost) : Event → Option ScriptHost
  | .runScript script => some (s.clientScript script)
  | .cancelDone k =>
    if s.clients[k]? = some .cancelling ∧ s.vSd.Paused then some (s.cancelDone k) else none
  | .enter k =>
    if s.clients[k]? = some .waiting ∧ s.mutex = none then
      some { s with clients := s.clients.set k .running, mutex := some (.client k, none) }
    else none
  | .exit =>
    match s.mutex with
    | some (.client k, none) =>
      some { s with clients := s.clients.set k .returned, mutex := none }
    | _ => none
  | .command cmd =>
    match s.mutex with
    | some (holder, none) => some (s.afterCommand holder (cmd.start s.pauseResume))
    | _ => none
  | .proceed raises =>
    match s.mutex with
    | some (holder, some (.sd w)) => s.proceed holder w raises
    | _ => none
  | .g1 params =>
    match s.mutex with
    | some (holder, none) => some (s.cmdG1 holder params)
    | _ => none
  | .heat heater =>
    match s.mutex with
    | some (holder, none) => some { s with mutex := some (holder, some (.heat heater)) }
    | _ => none
  | .waitTurn control smoothedTemp targetTemp =>
    match s.mutex with
    | some (holder, some (.heat heater)) =>
      some (s.waitTurn holder heater control smoothedTemp targetTemp)
    | _ => none
  | .multiProbeEnd => some { s with stopHeating := { s.stopHeating with extruder := 0 } }
  | .setHomed xHomed => some { s with xHomed := xHomed }
  | .shutdown => some { s with isShutdown := true }
  | .begin =>
    if s.vSd.workTimer = .registered then some (s.setSd s.vSd.workHandler) else none
  | .turn count recovery =>
    if s.vSd.isActive = true ∧ s.vSd.cmdFromSd = false ∧ s.vSd.workTimer ≠ .registered ∧
      0 < count ∧ count ≤ 8192 then
      let t := s.setSd (s.vSd.workStep count recovery)
      match s.nextLine count recovery with
      | none => some t
      | some line =>
        -- Nothing else runs between the test of the mutex and its lock.
        if s.mutex = none then
          some (({ t with mutex := some (.worker, none) } : ScriptHost).workerScript line)
        else none
    else none
  | .onError script =>
    if s.mutex = some (.worker, none) then some (s.workerScript script) else none
  | .done failed =>
    if s.mutex = some (.worker, none) then
      some { s.setSd (s.vSd.commandDone failed) with mutex := none }
    else none

/-- Before any file is loaded. -/
structure Starts (s : ScriptHost) : Prop where
  vSd : s.vSd = .start
  stopHeating : s.stopHeating = .cleared
  mutex : s.mutex = none
  clients : s.clients = []
  cancelScripts : s.cancelScripts = []
  cancelled : s.cancelled = []
  dropped : s.dropped = []

/-- The host, from the time that it starts. -/
def system : System ScriptHost Event where
  init := Starts
  next := next

end ScriptHost

end Thinker
