import Thinker.Clock
import Thinker.Transition

/-!
# Output pins

`gpiocmds.c` and `pwmcmds.c` : updates of an output pin are queued for a clock each. A pin has
one timer, which loads the next update, toggles the pin in between (software PWM), and shuts
the micro-controller down if no update has arrived for `max_duration` ticks while the pin is
not at its default value.

The state has the clock in full and its 32 bit reading is what the code sees. A tick of the clock
is a step, and a timer is dispatched in the tick that it is due in. So a command is handled no
later than its clock. The updates that were queued, with their clocks in full, and those that
were loaded, with the time of the load, are kept beside the state.
-/

namespace Thinker

/-- What the code reads of a clock. -/
def word (clock : ℕ) : BitVec 32 :=
  BitVec.ofNat 32 clock

/-! ## Digital pins -/

/-- `struct digital_move`. -/
structure DigitalMove where
  waketime : BitVec 32
  onDuration : BitVec 32
  deriving DecidableEq, Repr

/-- The timer function of a digital pin. -/
inductive DigitalFunc where
  | toggle
  | load
  deriving DecidableEq, Repr

/-- `struct digital_out_s`, with the pin and the state of the scheduler. -/
structure DigitalOut where
  now : ℕ
  isShutdown : Bool
  /-- Whether the timer is scheduled. -/
  active : Bool
  waketime : BitVec 32
  func : DigitalFunc
  onDuration : BitVec 32
  offDuration : BitVec 32
  endTime : BitVec 32
  pin : Bool
  maxDuration : BitVec 32
  cycleTime : BitVec 32
  mq : List DigitalMove
  dfOn : Bool
  dfToggling : Bool
  dfCheckEnd : Bool
  dfDefaultOn : Bool
  queued : List (ℕ × BitVec 32)
  loads : List (ℕ × DigitalMove)
  /-- When the last update was loaded. -/
  lastLoad : ℕ
  deriving DecidableEq, Repr

namespace DigitalOut

variable (s : DigitalOut)

/-- `sched_shutdown`, with `digital_out_shutdown`. -/
def shutdown : DigitalOut :=
  { s with
    isShutdown := true
    active := false
    pin := s.dfDefaultOn
    dfOn := s.dfDefaultOn
    dfToggling := false
    dfCheckEnd := false
    mq := [] }

/-- `digital_toggle_event`. -/
def digitalToggleEvent : DigitalOut :=
  let dfOn := !s.dfOn
  let waketime := s.waketime + if dfOn then s.onDuration else s.offDuration
  let ends := s.dfCheckEnd && !timerIsBefore waketime s.endTime
  { s with
    pin := !s.pin
    dfOn := dfOn
    func := if ends then .load else s.func
    waketime := if ends then s.endTime else waketime }

/-- `digital_load_event` from `d->end_time = end_time` on. -/
def scheduleNext (onDuration endTime : BitVec 32) (dfOn dfToggling dfCheckEnd : Bool) :
    DigitalOut :=
  let s := { s with
    endTime := endTime
    dfOn := dfOn
    dfToggling := dfToggling
    dfCheckEnd := dfCheckEnd }
  if !dfToggling then
    if !dfCheckEnd then { s with active := false } else { s with waketime := endTime }
  else
    let waketime := s.waketime + onDuration
    if dfCheckEnd && !timerIsBefore waketime endTime then { s with waketime := endTime }
    else { s with
      func := .toggle
      waketime := waketime
      onDuration := onDuration
      offDuration := s.cycleTime - onDuration }

/-- `digital_load_event`. -/
def digitalLoadEvent : DigitalOut :=
  match s.mq with
  | [] => s.shutdown
  | m :: mq =>
    let dfOn := decide (m.onDuration ≠ 0)
    let s : DigitalOut :=
      { s with mq := mq, pin := dfOn, loads := s.loads ++ [(s.now, m)], lastLoad := s.now }
    let steady := !dfOn || decide (s.cycleTime ≤ m.onDuration)
    let dfCheckEnd :=
      (if steady then dfOn != s.dfDefaultOn else true) && decide (s.maxDuration ≠ 0)
    let endTime := if dfCheckEnd then s.waketime + s.maxDuration else 0
    match mq with
    | [] => s.scheduleNext m.onDuration endTime dfOn (!steady) dfCheckEnd
    | next :: _ =>
      if dfCheckEnd && timerIsBefore endTime next.waketime then s.shutdown
      else s.scheduleNext m.onDuration next.waketime dfOn (!steady) true

/-- `command_queue_digital_out`. -/
def commandQueueDigitalOut (clock : ℕ) (onTicks : BitVec 32) : DigitalOut :=
  let time := word clock
  let empty := s.mq.isEmpty
  let s := { s with mq := s.mq ++ [⟨time, onTicks⟩], queued := s.queued ++ [(clock, onTicks)] }
  if !empty then s
  else if s.dfCheckEnd && timerIsBefore s.endTime time then s.shutdown
  else
    let toggles := s.dfToggling && timerIsBefore s.waketime time
    let s := { s with endTime := time, dfCheckEnd := true }
    if toggles then s else { s with active := true, waketime := time, func := .load }

/-- `command_update_digital_out`. -/
def commandUpdateDigitalOut (value : BitVec 8) : DigitalOut :=
  if !s.mq.isEmpty then s.shutdown
  else
    let dfOn := decide (value ≠ 0)
    let s := { s with
      active := false
      pin := dfOn
      dfOn := dfOn
      dfToggling := false
      lastLoad := s.now }
    if dfOn != s.dfDefaultOn && decide (s.maxDuration ≠ 0) then
      let endTime := word s.now + s.maxDuration
      { s with
        active := true
        waketime := endTime
        endTime := endTime
        func := .load
        dfCheckEnd := true }
    else { s with dfCheckEnd := false }

/-- The timer is due. -/
def Due : Prop :=
  s.active = true ∧ s.waketime = word s.now

instance : Decidable s.Due :=
  inferInstanceAs (Decidable (_ ∧ _))

/-- The dispatch of the timer. -/
def dispatch : DigitalOut :=
  match s.func with
  | .toggle => s.digitalToggleEvent
  | .load => s.digitalLoadEvent

/-- The output does not change and is at its default value. -/
def SteadyDefault : Prop :=
  s.dfToggling = false ∧ s.pin = s.dfDefaultOn

/-- `command_config_digital_out` with the value `default`, and the PWM cycle. -/
def config (now : ℕ) (default : Bool) (maxDuration cycleTime : BitVec 32) : DigitalOut where
  now := now
  isShutdown := false
  active := false
  waketime := 0
  func := .load
  onDuration := 0
  offDuration := 0
  endTime := 0
  pin := default
  maxDuration := maxDuration
  cycleTime := cycleTime
  mq := []
  dfOn := default
  dfToggling := false
  dfCheckEnd := false
  dfDefaultOn := default
  queued := []
  loads := []
  lastLoad := now

end DigitalOut

/-- Whether a command for this clock may come : it is not late, the clocks do not decrease, and
the time up to it is less than half of the clock's range. -/
def OnTime {α : Type*} (now : ℕ) (queued : List (ℕ × α)) (clock : ℕ) : Prop :=
  now ≤ clock ∧ clock < now + 2 ^ 31 ∧ ∀ p ∈ queued.getLast?, p.1 ≤ clock

instance {α : Type*} (now : ℕ) (queued : List (ℕ × α)) (clock : ℕ) :
    Decidable (OnTime now queued clock) :=
  inferInstanceAs (Decidable (_ ∧ _ ∧ _))

/-- What happens at a digital pin. -/
inductive DigitalEvent where
  | tick
  | dispatch
  | queue (clock : ℕ) (onTicks : BitVec 32)
  | update (value : BitVec 8)
  /-- A shutdown for another reason. -/
  | shutdown

/-- A digital pin. Once the micro-controller is shut down only the clock goes on. -/
def digitalOut (maxDuration cycleTime : BitVec 32) : System DigitalOut DigitalEvent where
  init s := ∃ now default, s = DigitalOut.config now default maxDuration cycleTime
  next s
    | .tick => if s.Due then none else some { s with now := s.now + 1 }
    | .dispatch => if s.Due then some s.dispatch else none
    | .queue clock onTicks =>
      if s.isShutdown = false ∧ OnTime s.now s.queued clock then
        some (s.commandQueueDigitalOut clock onTicks) else none
    | .update value =>
      if s.isShutdown = false then some (s.commandUpdateDigitalOut value) else none
    | .shutdown => if s.isShutdown = false then some s.shutdown else none

/-! ## PWM pins -/

/-- `struct pwm_move`. -/
structure PwmMove where
  waketime : BitVec 32
  value : BitVec 16
  deriving DecidableEq, Repr

/-- The timer function of a PWM pin. -/
inductive PwmFunc where
  | event
  | endEvent
  deriving DecidableEq, Repr

/-- `struct pwm_out_s`, with the pin and the state of the scheduler. -/
structure PwmOut where
  now : ℕ
  isShutdown : Bool
  /-- Whether the timer is scheduled. -/
  active : Bool
  waketime : BitVec 32
  func : PwmFunc
  pin : BitVec 16
  maxDuration : BitVec 32
  defaultValue : BitVec 16
  mq : List PwmMove
  queued : List (ℕ × BitVec 16)
  loads : List (ℕ × PwmMove)
  /-- When the last update was loaded. -/
  lastLoad : ℕ
  deriving DecidableEq, Repr

namespace PwmOut

variable (s : PwmOut)

/-- `sched_shutdown`, with `pwm_shutdown`. -/
def shutdown : PwmOut :=
  { s with isShutdown := true, active := false, pin := s.defaultValue, func := .event, mq := [] }

/-- `pwm_event`. It is not dispatched with an empty queue. -/
def pwmEvent : PwmOut :=
  match s.mq with
  | [] => s
  | m :: mq =>
    let s : PwmOut := { s with
      mq := mq
      pin := m.value
      loads := s.loads ++ [(s.now, m)]
      lastLoad := s.now }
    match mq with
    | [] =>
      if m.value = s.defaultValue ∨ s.maxDuration = 0 then { s with active := false }
      else { s with waketime := s.waketime + s.maxDuration, func := .endEvent }
    | next :: _ =>
      if m.value ≠ s.defaultValue ∧ s.maxDuration ≠ 0 ∧
          timerIsBefore (s.waketime + s.maxDuration) next.waketime = true then s.shutdown
      else { s with waketime := next.waketime }

/-- `command_queue_pwm_out`. -/
def commandQueuePwmOut (clock : ℕ) (value : BitVec 16) : PwmOut :=
  let time := word clock
  let needAddTimer := s.mq.isEmpty
  let s := { s with mq := s.mq ++ [⟨time, value⟩], queued := s.queued ++ [(clock, value)] }
  if !needAddTimer then s
  else if s.func = .endEvent ∧ timerIsBefore s.waketime time = true then s.shutdown
  else { s with active := true, func := .event, waketime := time }

/-- The timer is due. -/
def Due : Prop :=
  s.active = true ∧ s.waketime = word s.now

instance : Decidable s.Due :=
  inferInstanceAs (Decidable (_ ∧ _))

/-- The dispatch of the timer. `pwm_end_event` shuts down. -/
def dispatch : PwmOut :=
  match s.func with
  | .event => s.pwmEvent
  | .endEvent => s.shutdown

/-- `command_config_pwm_out` with the value `default`. -/
def config (now : ℕ) (default : BitVec 16) (maxDuration : BitVec 32) : PwmOut where
  now := now
  isShutdown := false
  active := false
  waketime := 0
  func := .event
  pin := default
  maxDuration := maxDuration
  defaultValue := default
  mq := []
  queued := []
  loads := []
  lastLoad := now

end PwmOut

/-- What happens at a PWM pin. -/
inductive PwmEvent where
  | tick
  | dispatch
  | queue (clock : ℕ) (value : BitVec 16)
  /-- A shutdown for another reason. -/
  | shutdown

/-- A PWM pin. Once the micro-controller is shut down only the clock goes on. -/
def pwmOut (maxDuration : BitVec 32) : System PwmOut PwmEvent where
  init s := ∃ now default, s = PwmOut.config now default maxDuration
  next s
    | .tick => if s.Due then none else some { s with now := s.now + 1 }
    | .dispatch => if s.Due then some s.dispatch else none
    | .queue clock value =>
      if s.isShutdown = false ∧ OnTime s.now s.queued clock then
        some (s.commandQueuePwmOut clock value) else none
    | .shutdown => if s.isShutdown = false then some s.shutdown else none

end Thinker
