import Thinker.Stepper
import Thinker.Endstop
import Thinker.Transition

/-!
# Synchronized triggers

`trsync.c`, with the steppers (`stepper.c`) that are stopped by a trigger and the endstops
(`endstop.c`) that call it. A trsync triggers at most once after its start : then it stops the
steppers that are attached to it.

Timers are dispatched in any order and at any time at which they are scheduled, between any two
commands and while `trsync_task` reports. A command is not run during the task. The pins, and
when a clock that is read is the next one, are the environment's choice. The clock is kept in
full, and the code sees its 32 bit reading.
-/

namespace Thinker

/-- `struct trsync`. Beside it are the steppers attached since its start, and the triggers that
took effect, with their reasons and times. -/
structure Trsync (S : Type*) where
  /-- Whether the timer `report_time` is scheduled. -/
  reportActive : Bool
  reportWaketime : BitVec 32
  reportTicks : BitVec 32
  /-- Whether the timer `expire_time` is scheduled. -/
  expireActive : Bool
  expireWaketime : BitVec 32
  signals : List S
  /-- `TSF_CAN_TRIGGER`. -/
  canTrigger : Bool
  /-- `TSF_REPORT`. -/
  report : Bool
  triggerReason : BitVec 8
  expireReason : BitVec 8
  attached : List S
  triggers : List (BitVec 8 × ℕ)
  deriving DecidableEq, Repr

/-- `trsync_state oid=%c can_trigger=%c trigger_reason=%c clock=%u`. -/
structure TrsyncStateMsg (T : Type*) where
  oid : T
  canTrigger : Bool
  triggerReason : BitVec 8
  clock : BitVec 32
  deriving DecidableEq, Repr

/-- A micro-controller with its trsyncs, steppers and endstops. -/
structure HomingMcu (T S E : Type*) where
  now : ℕ
  isShutdown : Bool
  trsyncs : T → Trsync S
  steppers : S → Stepper
  endstops : E → Endstop T
  /-- `trsync_wake`. -/
  wake : Bool
  /-- The trsyncs that the running `trsync_task` has still to visit. -/
  task : List T
  /-- The time it has read for the first of them. -/
  taskTime : Option ℕ
  sent : List (TrsyncStateMsg T)
  /-- The trsyncs whose triggers have stopped a stepper. -/
  stops : S → List T
  /-- The step edges and the position of a stepper when a trigger stopped it, until its step
  clock is reset. -/
  stoppedAt : S → Option (ℕ × BitVec 32)

namespace Trsync

variable {S : Type*} (ts : Trsync S)

/-- `trsync_clear`. -/
def clear : Trsync S :=
  { ts with
    reportActive := false
    expireActive := false
    signals := []
    canTrigger := false
    report := false
    triggerReason := 0
    expireReason := 0 }

/-- `command_config_trsync`. -/
def config : Trsync S where
  reportActive := false
  reportWaketime := 0
  reportTicks := 0
  expireActive := false
  expireWaketime := 0
  signals := []
  canTrigger := false
  report := false
  triggerReason := 0
  expireReason := 0
  attached := []
  triggers := []

end Trsync

namespace HomingMcu

variable {T S E : Type*} [DecidableEq T] [DecidableEq S] [DecidableEq E]
variable (board : StepperBoard) (s : HomingMcu T S E)

/-- Replace a trsync. -/
def setTrsync (τ : T) (ts : Trsync S) : HomingMcu T S E :=
  { s with trsyncs := Function.update s.trsyncs τ ts }

/-- Replace a stepper. -/
def setStepper (σ : S) (x : Stepper) : HomingMcu T S E :=
  { s with steppers := Function.update s.steppers σ x }

/-- Replace an endstop. -/
def setEndstop (ε : E) (e : Endstop T) : HomingMcu T S E :=
  { s with endstops := Function.update s.endstops ε e }

/-! ## Triggers -/

/-- The callback of a signal : its stepper is stopped. -/
def signal (τ : T) (σ : S) : HomingMcu T S E :=
  let x : Stepper := { s.steppers σ with stopSignal := false }
  { s.setStepper σ (x.stop board) with
    stops := Function.update s.stops σ (s.stops σ ++ [τ])
    stoppedAt := Function.update s.stoppedAt σ (some (x.edges, x.getPosition board)) }

/-- The loop of `trsync_do_trigger`. -/
def dispatchSignals (τ : T) (signals : List S) : HomingMcu T S E :=
  signals.foldl (fun s σ => s.signal board τ σ) s

/-- `trsync_do_trigger`. -/
def trsyncDoTrigger (τ : T) (reason : BitVec 8) : HomingMcu T S E :=
  let ts := s.trsyncs τ
  if !ts.canTrigger then s
  else
    let s := s.setTrsync τ { ts with
      triggerReason := reason
      canTrigger := false
      report := true
      signals := []
      triggers := ts.triggers ++ [(reason, s.now)] }
    { s.dispatchSignals board τ ts.signals with wake := true }

/-- The loop of `trsync_clear`. -/
def clearSignals (signals : List S) : HomingMcu T S E :=
  signals.foldl (fun s σ => s.setStepper σ { s.steppers σ with stopSignal := false }) s

/-! ## Timers -/

/-- `trsync_expire_event`. -/
def trsyncExpireEvent (τ : T) : HomingMcu T S E :=
  (s.setTrsync τ { s.trsyncs τ with expireActive := false }).trsyncDoTrigger board τ
    (s.trsyncs τ).expireReason

/-- `trsync_report_event`. -/
def trsyncReportEvent (τ : T) : HomingMcu T S E :=
  let ts := s.trsyncs τ
  { s.setTrsync τ { ts with
      report := true
      reportWaketime := ts.reportWaketime + ts.reportTicks } with wake := true }

/-- The timer of an endstop, with what its pin reads. -/
def endstopEvent (ε : E) (val val' : Bool) : HomingMcu T S E :=
  let e := (s.endstops ε).event val val'
  let s := s.setEndstop ε e
  if !e.fired then s
  else match e.ts with
    | none => s
    | some τ => s.trsyncDoTrigger board τ e.triggerReason

/-! ## Shutdown -/

/-- `sched_shutdown` : no timer is left, the trsyncs are cleared and the steppers stopped. -/
def shutdown : HomingMcu T S E :=
  { s with
    isShutdown := true
    trsyncs := fun τ => (s.trsyncs τ).clear
    steppers := fun σ =>
      Stepper.stop board { s.steppers σ with active := false, mq := [], stopSignal := false }
    endstops := fun ε => { s.endstops ε with active := false }
    task := []
    taskTime := none }

/-! ## Commands -/

/-- `command_trsync_start`. -/
def commandTrsyncStart (τ : T) (reportClock reportTicks : BitVec 32) (expireReason : BitVec 8) :
    HomingMcu T S E :=
  (s.clearSignals (s.trsyncs τ).signals).setTrsync τ { (s.trsyncs τ).clear with
    canTrigger := true
    reportWaketime := reportClock
    reportTicks := reportTicks
    reportActive := decide (reportTicks ≠ 0)
    expireReason := expireReason
    attached := []
    triggers := [] }

/-- `command_trsync_set_timeout`. -/
def commandTrsyncSetTimeout (τ : T) (clock : BitVec 32) : HomingMcu T S E :=
  let ts := s.trsyncs τ
  if ts.canTrigger then s.setTrsync τ { ts with expireActive := true, expireWaketime := clock }
  else s

/-- `command_trsync_trigger`. -/
def commandTrsyncTrigger (τ : T) (reason : BitVec 8) : HomingMcu T S E :=
  let s := s.trsyncDoTrigger board τ reason
  let s := s.setTrsync τ { s.trsyncs τ with
    reportActive := false
    expireActive := false
    canTrigger := false
    report := false }
  { s with sent := s.sent ++ [⟨τ, false, (s.trsyncs τ).triggerReason, 0⟩] }

/-- `command_stepper_stop_on_trigger`, with `trsync_add_signal`. -/
def commandStepperStopOnTrigger (σ : S) (τ : T) : HomingMcu T S E :=
  let ts := s.trsyncs τ
  if (s.steppers σ).stopSignal then s.shutdown board
  else (s.setStepper σ { s.steppers σ with stopSignal := true }).setTrsync τ { ts with
    signals := σ :: ts.signals
    attached := ts.attached ++ [σ] }

/-- The result of a command or an event of a stepper. -/
def ofStepper (σ : S) : Option Stepper → HomingMcu T S E
  | none => s.shutdown board
  | some x => s.setStepper σ x

/-- `command_reset_step_clock`. -/
def commandResetStepClock (σ : S) (clock : BitVec 32) : HomingMcu T S E :=
  { s.ofStepper board σ ((s.steppers σ).resetStepClock clock) with
    stoppedAt := Function.update s.stoppedAt σ none }

/-! ## The reporting task -/

/-- `trsync_task` looks at the next trsync, and reads the time if it is to be reported. -/
def taskNext (τ : T) (rest : List T) : HomingMcu T S E :=
  if (s.trsyncs τ).report then { s with taskTime := some s.now } else { s with task := rest }

/-- `trsync_task` reads the flags and sends the report, with the time that it has read before. -/
def taskReport (τ : T) (rest : List T) (time : ℕ) : HomingMcu T S E :=
  let ts := s.trsyncs τ
  { s.setTrsync τ { ts with report := false } with
    task := rest
    taskTime := none
    sent := s.sent ++ [⟨τ, ts.canTrigger, ts.triggerReason, BitVec.ofNat 32 time⟩] }

end HomingMcu

/-- A command for the trsyncs, steppers or endstops. -/
inductive HomingCommand (T S E : Type*) where
  | trsyncStart (τ : T) (reportClock reportTicks : BitVec 32) (expireReason : BitVec 8)
  | trsyncSetTimeout (τ : T) (clock : BitVec 32)
  | trsyncTrigger (τ : T) (reason : BitVec 8)
  | stepperStopOnTrigger (σ : S) (τ : T)
  | endstopHome (ε : E) (clock sampleTicks : BitVec 32) (sampleCount : BitVec 8)
      (restTicks : BitVec 32) (pinValue : Bool) (τ : T) (triggerReason : BitVec 8)
  | queueStep (σ : S) (interval : BitVec 32) (count add : BitVec 16)
  | setNextStepDir (σ : S) (dir : Bool)
  | resetStepClock (σ : S) (clock : BitVec 32)
  deriving DecidableEq, Repr

/-- What happens at the micro-controller. -/
inductive HomingEvent (T S E : Type*) where
  | tick
  | command (c : HomingCommand T S E)
  | expire (τ : T)
  | report (τ : T)
  | endstop (ε : E) (val val' : Bool)
  | step (σ : S)
  | taskStart
  | taskNext
  | taskReport
  /-- A shutdown for another reason. -/
  | shutdown

namespace HomingMcu

variable {T S E : Type*} [DecidableEq T] [DecidableEq S] [DecidableEq E]
variable (board : StepperBoard) (s : HomingMcu T S E)

/-- The state after a command. -/
def command : HomingCommand T S E → HomingMcu T S E
  | .trsyncStart τ reportClock reportTicks expireReason =>
    s.commandTrsyncStart τ reportClock reportTicks expireReason
  | .trsyncSetTimeout τ clock => s.commandTrsyncSetTimeout τ clock
  | .trsyncTrigger τ reason => s.commandTrsyncTrigger board τ reason
  | .stepperStopOnTrigger σ τ => s.commandStepperStopOnTrigger board σ τ
  | .endstopHome ε clock sampleTicks sampleCount restTicks pinValue τ triggerReason =>
    s.setEndstop ε ((s.endstops ε).home clock sampleTicks sampleCount restTicks pinValue τ
      triggerReason)
  | .queueStep σ interval count add =>
    s.ofStepper board σ ((s.steppers σ).queueStep board interval count add)
  | .setNextStepDir σ dir => s.setStepper σ ((s.steppers σ).setNextStepDir dir)
  | .resetStepClock σ clock => s.commandResetStepClock board σ clock

/-- After `config` commands for the steppers. -/
def config (now : ℕ) (invertStep : S → ℤ) (stepPulseTicks : S → BitVec 32) :
    HomingMcu T S E where
  now := now
  isShutdown := false
  trsyncs := fun _ => Trsync.config
  steppers := fun σ => Stepper.config board (invertStep σ) (stepPulseTicks σ)
  endstops := fun _ => Endstop.config
  wake := false
  task := []
  taskTime := none
  sent := []
  stops := fun _ => []
  stoppedAt := fun _ => none

end HomingMcu

/-- A micro-controller whose trsyncs have the ids of the list. -/
def homingMcu {T S E : Type*} [DecidableEq T] [DecidableEq S] [DecidableEq E]
    (board : StepperBoard) (oids : List T) : System (HomingMcu T S E) (HomingEvent T S E) where
  init s := ∃ now invertStep stepPulseTicks,
    s = HomingMcu.config board now invertStep stepPulseTicks
  next s a :=
    if s.isShutdown then
      match a with
      | .tick => some { s with now := s.now + 1 }
      | _ => none
    else match a with
      | .tick => some { s with now := s.now + 1 }
      | .command c => if s.task = [] then some (s.command board c) else none
      | .expire τ => if (s.trsyncs τ).expireActive then some (s.trsyncExpireEvent board τ) else none
      | .report τ => if (s.trsyncs τ).reportActive then some (s.trsyncReportEvent τ) else none
      | .endstop ε val val' =>
        if (s.endstops ε).active then some (s.endstopEvent board ε val val') else none
      | .step σ =>
        if (s.steppers σ).active then
          some (s.ofStepper board σ ((s.steppers σ).event board (BitVec.ofNat 32 s.now)))
        else none
      | .taskStart =>
        if s.wake = true ∧ s.task = [] then some { s with wake := false, task := oids } else none
      | .taskNext =>
        match s.task, s.taskTime with
        | τ :: rest, none => some (s.taskNext τ rest)
        | _, _ => none
      | .taskReport =>
        match s.task, s.taskTime with
        | τ :: rest, some time => some (s.taskReport τ rest time)
        | _, _ => none
      | .shutdown => some (s.shutdown board)

end Thinker
