import Thinker.PauseResume
import Thinker.Transition
import Mathlib.Logic.Function.Basic

/-!
# Shutdown of the printer

`Printer` of `klippy.py`, the handlers of the messages `shutdown`, `is_shutdown` and `starting`
of `mcu.py`, and what they stop : the micro-controllers, the dispatch of g-code and the print.
A message is handled in a thread of its micro-controller, in two steps. `invoke_shutdown` is cut
between the handlers that it calls.
-/

namespace Thinker

/-! ## The state of the printer -/

/-- `message_ready`. -/
def messageReady : Text := "Printer is ready".toList

/-- `message_startup`. -/
def messageStartup : Text :=
  ("\nPrinter is not ready\nThe klippy host software is attempting to connect.  Please\n" ++
    "retry in a few moments.\n").toList

/-- `message_shutdown`. -/
def messageShutdown : Text :=
  ("\nOnce the underlying issue is corrected, use the\n" ++
    "\"FIRMWARE_RESTART\" command to reset the firmware, reload the\n" ++
    "config, and restart the host software.\nPrinter is shutdown\n").toList

/-- `Printer`. `debuginput` says whether the start argument of this name is there. -/
structure Printer where
  stateMessage : Text
  inShutdownState : Bool
  debuginput : Bool
  runResult : Option Text

namespace Printer

/-- `request_exit`. -/
def requestExit (p : Printer) (result : Text) : Printer :=
  { p with runResult := p.runResult.or (some result) }

/-- `_set_state`. -/
def setState (p : Printer) (msg : Text) : Printer :=
  let p := if p.stateMessage = messageReady ∨ p.stateMessage = messageStartup then
      { p with stateMessage := msg }
    else p
  if msg ≠ messageReady ∧ p.debuginput = true then p.requestExit "error_exit".toList else p

/-- `invoke_shutdown`, up to the handlers. -/
def invokeShutdown (p : Printer) (msg : Text) : Printer :=
  if p.inShutdownState then p
  else ({ p with inShutdownState := true } : Printer).setState (msg ++ messageShutdown)

end Printer

/-! ## The micro-controllers -/

/-- What the thread of a micro-controller does. -/
inductive Handling where
  | idle
  /-- `_handle_shutdown` has set `_is_shutdown` for a message of this name. -/
  | shutdown (name : Text)
  /-- In the `do_pause` of `send_pause_command`. -/
  | pausing
  deriving DecidableEq

/-- The parameters of a `shutdown` or `is_shutdown` message. -/
structure ShutdownParams where
  name : Text
  clock : Option ℤ
  staticStringId : Text

/-- `MCU`. `lastClock` is the one of `clocksync`, `emergencyStopCmd` says whether the command is
known, which it is once the micro-controller is connected, and `emergencyStops` counts how often
it was sent. `connected` is not in the code : whether the command was known when the printer was
shut down. -/
structure HostMcu where
  name : Text
  isShutdown : Bool
  shutdownClock : ℤ
  shutdownMsg : Text
  lastClock : ℤ
  emergencyStopCmd : Bool
  emergencyStops : ℕ
  handling : Handling
  connected : Bool

/-- `Common_MCU_errors`. -/
def commonMcuErrors : List (List Text × Text) :=
  [(["Timer too close".toList],
    ("\nThis often indicates the host computer is overloaded. Check\n" ++
      "for other processes consuming excessive CPU time, high swap\n" ++
      "usage, disk errors, overheating, unstable voltage, or\n" ++
      "similar system problems on the host computer.").toList),
   (["Missed scheduling of next ".toList],
    ("\nThis is generally indicative of an intermittent\n" ++
      "communication failure between micro-controller and host.").toList),
   (["ADC out of range".toList],
    ("\nThis generally occurs when a heater temperature exceeds\n" ++
      "its configured min_temp or max_temp.").toList),
   (["Rescheduled timer in the past".toList, "Stepper too far in past".toList],
    ("\nThis generally occurs when the micro-controller has been\n" ++
      "requested to step at a rate higher than it is capable of\nobtaining.").toList),
   (["Command request".toList],
    ("\nThis generally occurs in response to an M112 G-Code command\n" ++
      "or in response to an internal error in the host software.").toList)]

/-- `error_help`. -/
def errorHelp (msg : Text) : Text :=
  ((commonMcuErrors.find? fun entry => entry.1.any fun sub => sub.isPrefixOf msg).map
    Prod.snd).getD []

/-- The reasons that only pause the print. -/
def pauseReasons : List Text :=
  ["Timer too close".toList, "Stepper too far".toList, "Missed scheduling".toList,
    "Rescheduled timer in the past".toList]

/-- A reason that only pauses the print. -/
def PausesPrint (msg : Text) : Prop :=
  ∃ reason ∈ pauseReasons, msg.has reason = true

instance (msg : Text) : Decidable (PausesPrint msg) :=
  inferInstanceAs (Decidable (∃ reason ∈ pauseReasons, msg.has reason = true))

namespace HostMcu

/-- `clock32_to_clock64`. -/
def clock32ToClock64 (m : HostMcu) (clock32 : ℤ) : ℤ :=
  let diff := (clock32 - m.lastClock) % 2 ^ 32
  m.lastClock + if 2 ^ 31 ≤ diff then diff - 2 ^ 32 else diff

/-- The first lines of `_handle_shutdown`. -/
def handleShutdown (m : HostMcu) (params : ShutdownParams) : HostMcu :=
  if m.isShutdown then m
  else
    { m with
      isShutdown := true
      shutdownClock := params.clock.elim m.shutdownClock m.clock32ToClock64
      shutdownMsg := params.staticStringId
      handling := .shutdown params.name }

/-- The message that `_handle_shutdown` shuts the printer down with. -/
def shutdownText (m : HostMcu) (name : Text) : Text :=
  (if name = "is_shutdown".toList then "Previous MCU '".toList else "MCU '".toList) ++ m.name ++
    "' shutdown: ".toList ++ m.shutdownMsg ++ errorHelp m.shutdownMsg

/-- `_shutdown`. -/
def shutdown (m : HostMcu) : HostMcu :=
  if m.emergencyStopCmd = false ∨ m.isShutdown = true then m
  else { m with emergencyStops := m.emergencyStops + 1 }

end HostMcu

/-! ## The host -/

/-- A handler of the event `klippy:shutdown`. -/
inductive ShutdownHandler (n : ℕ) where
  /-- `MCU._shutdown`. -/
  | mcu (i : Fin n)
  /-- `GCodeDispatch._handle_shutdown`. -/
  | gcode
  /-- `VirtualSD.handle_shutdown`. -/
  | virtualSd
  /-- A handler that changes nothing here. -/
  | other (id : ℕ)
  deriving DecidableEq

/-- The host. `asyncQueue` is the messages of the calls of `invoke_shutdown` that are scheduled,
`nextHandler` is where the loop of `invoke_shutdown` is, and `waits` are the commands about the
print that wait. `called` and `executed` are not in the code : the indices of the handlers that
were called, and the commands whose g-code handler was. -/
structure Klippy (n : ℕ) where
  printer : Printer
  mcus : Fin n → HostMcu
  asyncQueue : List Text
  handlers : List (ShutdownHandler n)
  nextHandler : ℕ
  gcode : GCodeDispatch
  hasPauseResume : Bool
  pauseResume : PauseResume
  waits : List SdWait
  called : List ℕ
  executed : List Text

namespace Klippy

variable {n : ℕ}

/-- The state with another micro-controller `i`. -/
def setMcu (s : Klippy n) (i : Fin n) (m : HostMcu) : Klippy n :=
  { s with mcus := Function.update s.mcus i m }

/-- `invoke_shutdown`, up to the handlers. -/
def invokeShutdown (s : Klippy n) (msg : Text) : Klippy n :=
  if s.printer.inShutdownState then s
  else
    { s with
      printer := s.printer.invokeShutdown msg
      mcus := fun i => { s.mcus i with connected := (s.mcus i).emergencyStopCmd } }

/-- A handler of `klippy:shutdown` returns, or raises an exception and leaves a state. The
commands are sent, and the attributes set, before anything that may raise one. -/
def runHandler (s : Klippy n) (handler : ShutdownHandler n) (raises : Bool) :
    Except (Klippy n) (Klippy n) :=
  let s : Klippy n := match handler with
    | .mcu i => s.setMcu i (s.mcus i).shutdown
    | .gcode => { s with gcode := s.gcode.handleShutdown }
    | .virtualSd => { s with pauseResume := { s.pauseResume with vSd := s.pauseResume.vSd.doPause } }
    | .other _ => s
  if raises then .error s else .ok s

/-- One turn of the loop of `invoke_shutdown`. -/
def callHandler (s : Klippy n) (handler : ShutdownHandler n) (raises : Bool) : Klippy n :=
  let s : Klippy n := { s with
    nextHandler := s.nextHandler + 1
    called := s.called ++ [s.nextHandler] }
  match s.runHandler handler raises with
  | .ok s => s
  | .error s => s

/-- The rest of `_handle_shutdown` for micro-controller `i`, up to the wait of `do_pause`. -/
def handleShutdown (s : Klippy n) (i : Fin n) (name : Text) : Klippy n :=
  let m := s.mcus i
  let idle : HostMcu := { m with handling := .idle }
  if PausesPrint m.shutdownMsg then
    -- Without the object `pause_resume` the lookup raises an exception.
    if s.hasPauseResume = false then s.setMcu i idle
    else
      let p := s.pauseResume.sendPauseCommand
      let m : HostMcu := if p.pauseCommandSent then idle else { m with handling := .pausing }
      { s.setMcu i m with pauseResume := p }
  else { s.setMcu i idle with asyncQueue := s.asyncQueue ++ [m.shutdownText name] }

/-- The wait of `do_pause` in the thread of micro-controller `i` ends, or raises an exception. -/
def endPause (s : Klippy n) (i : Fin n) (raises : Bool) : Klippy n :=
  let s : Klippy n := s.setMcu i { s.mcus i with handling := .idle }
  if raises then s
  else { s with pauseResume := { s.pauseResume with pauseCommandSent := true } }

/-- `_handle_starting`. -/
def handleStarting (s : Klippy n) (i : Fin n) : Klippy n :=
  let m := s.mcus i
  if m.isShutdown then s
  else { s with asyncQueue :=
    s.asyncQueue ++ ["MCU '".toList ++ m.name ++ "' spontaneous restart".toList] }

/-- `_connect` sets the state to ready and, if that is the state then, `GCodeDispatch` is the
first to be told. -/
def ready (s : Klippy n) : Klippy n :=
  let s : Klippy n := { s with printer := s.printer.setState messageReady }
  if s.printer.stateMessage = messageReady then { s with gcode := s.gcode.handleReady } else s

/-- The lookup of a command. The handler of M112 shuts the printer down. -/
def dispatch (s : Klippy n) (cmd : Text) : GCodeDispatch.Lookup × Klippy n :=
  let lookup := s.gcode.lookup s.printer.stateMessage cmd
  match lookup with
  | .handler key =>
    let s : Klippy n := { s with executed := s.executed ++ [key] }
    (lookup, if key = "M112".toList then
      s.invokeShutdown "Shutdown due to M112 command".toList else s)
  | _ => (lookup, s)

/-- The host after a command about the print. -/
def afterCommand (s : Klippy n) : SdResult → Klippy n
  | .returned p | .raised p => { s with pauseResume := p }
  | .waits p w => { s with pauseResume := p, waits := s.waits ++ [w] }

/-- The worker takes a line, and its command is looked up. -/
def workLine (s : Klippy n) (upper : Text → Text) (count : ℕ) (recovery : Option ℕ) : Klippy n :=
  let v := s.pauseResume.vSd.workStep count recovery
  let s : Klippy n := { s with pauseResume := { s.pauseResume with vSd := v } }
  match v.workTimer with
  | .command _ line _ _ _ =>
    match s.dispatch (command upper line) with
    | (.notReady _, s) => { s with pauseResume := { s.pauseResume with vSd := v.commandDone true } }
    | (_, s) => s
  | _ => s

/-- What happens to the host. -/
inductive Event (n : ℕ) where
  /-- Micro-controller `i` is connected, and its commands are known. -/
  | identify (i : Fin n)
  /-- `_connect` ends with an error. -/
  | error (msg : Text)
  | ready
  /-- A `shutdown` or `is_shutdown` message of micro-controller `i`. -/
  | shutdown (i : Fin n) (params : ShutdownParams)
  /-- The rest of its handler. -/
  | handle (i : Fin n)
  | endPause (i : Fin n) (raises : Bool)
  | starting (i : Fin n)
  | invokeShutdown (msg : Text)
  | invokeAsyncShutdown (msg : Text)
  /-- The reactor runs a call of `invoke_shutdown` that is scheduled. -/
  | runAsync (index : ℕ)
  | callHandler (raises : Bool)
  /-- A command of a script or a macro. -/
  | command (cmd : Text)
  /-- A command about the print. -/
  | sdCommand (cmd : SdCommand)
  | proceed (index : ℕ) (raises : Bool)
  /-- The work timer is due. -/
  | begin
  /-- A turn of the worker. -/
  | turn (count : ℕ) (recovery : Option ℕ)
  /-- The line of the worker has been executed. -/
  | done (failed : Bool)

/-- The state after an event. -/
def next (upper : Text → Text) (s : Klippy n) : Event n → Option (Klippy n)
  | .identify i => some (s.setMcu i { s.mcus i with emergencyStopCmd := true })
  | .error msg => some { s with printer := s.printer.setState msg }
  | .ready => some s.ready
  | .shutdown i params =>
    if (s.mcus i).handling = .idle then some (s.setMcu i ((s.mcus i).handleShutdown params))
    else none
  | .handle i =>
    match (s.mcus i).handling with
    | .shutdown name => some (s.handleShutdown i name)
    | _ => none
  | .endPause i raises =>
    if (s.mcus i).handling = .pausing ∧ (s.pauseResume.vSd.Paused ∨ raises = true) then
      some (s.endPause i raises)
    else none
  | .starting i => if (s.mcus i).handling = .idle then some (s.handleStarting i) else none
  | .invokeShutdown msg => some (s.invokeShutdown msg)
  | .invokeAsyncShutdown msg => some { s with asyncQueue := s.asyncQueue ++ [msg] }
  | .runAsync index =>
    s.asyncQueue[index]?.map fun msg =>
      ({ s with asyncQueue := s.asyncQueue.eraseIdx index } : Klippy n).invokeShutdown msg
  | .callHandler raises =>
    if s.printer.inShutdownState then
      s.handlers[s.nextHandler]?.map fun handler => s.callHandler handler raises
    else none
  | .command cmd => some (s.dispatch cmd).2
  | .sdCommand cmd =>
    match s.dispatch cmd.key with
    | (.handler _, s) => some (s.afterCommand (cmd.start s.pauseResume))
    | (_, s) => some s
  | .proceed index raises =>
    s.waits[index]?.bind fun w =>
      (s.pauseResume.proceed w raises).map fun result =>
        ({ s with waits := s.waits.eraseIdx index } : Klippy n).afterCommand result
  | .begin =>
    let v := s.pauseResume.vSd
    if v.workTimer = .registered then
      some { s with pauseResume := { s.pauseResume with vSd := v.workHandler } }
    else none
  | .turn count recovery =>
    let v := s.pauseResume.vSd
    if v.isActive = true ∧ v.cmdFromSd = false ∧ v.workTimer ≠ .registered ∧ 0 < count ∧
      count ≤ 8192 then some (s.workLine upper count recovery) else none
  | .done failed =>
    let v := s.pauseResume.vSd
    if v.cmdFromSd then
      some { s with pauseResume := { s.pauseResume with vSd := v.commandDone failed } }
    else none

/-- Before the printer is connected. -/
structure Starts (s : Klippy n) : Prop where
  stateMessage : s.printer.stateMessage = messageStartup
  inShutdownState : s.printer.inShutdownState = false
  isShutdown : ∀ i, (s.mcus i).isShutdown = false
  emergencyStopCmd : ∀ i, (s.mcus i).emergencyStopCmd = false
  emergencyStops : ∀ i, (s.mcus i).emergencyStops = 0
  handling : ∀ i, (s.mcus i).handling = .idle
  connected : ∀ i, (s.mcus i).connected = false
  asyncQueue : s.asyncQueue = []
  nextHandler : s.nextHandler = 0
  isPrinterReady : s.gcode.isPrinterReady = false
  isActive : s.pauseResume.isSdActive = false
  waits : s.waits = []
  called : s.called = []
  executed : s.executed = []
  mcu : ∀ i, .mcu i ∈ s.handlers
  gcode : .gcode ∈ s.handlers

/-- The host of a printer with `n` micro-controllers. -/
def system (n : ℕ) (upper : Text → Text) : System (Klippy n) (Event n) where
  init := Starts
  next := next upper

end Klippy

end Thinker
