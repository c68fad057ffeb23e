import Thinker.Handlers
import Thinker.Stepper
import Thinker.OutputPins

/-!
# Move queues of steppers and output pins

The handlers of `stepper.c`, `gpiocmds.c` and `pwmcmds.c` over the move pool. What they do with the
other fields of an object is that of `Stepper`, `DigitalOut` and `PwmOut` on the items that they
take from the queue or look at.

A command has interrupts enabled until it has written its item, and `command_queue_pwm_out` also
once the item is in the queue. `pwm_event` takes the first item without a test : while the timer of
a pin is scheduled for it the queue is not empty (`pwmLoads`).
-/

set_option linter.unusedSectionVars false

namespace Thinker



/-- An entry of `oids`. The list `mq` of an object is not used : its queue is in the pool. -/
inductive Oid
  | stepper (s : Stepper)
  | digitalOut (d : DigitalOut)
  | pwmOut (p : PwmOut)

namespace Oid

def isStepper : Oid → Bool
  | stepper _ => true
  | _ => false

def isDigitalOut : Oid → Bool
  | digitalOut _ => true
  | _ => false

def isPwmOut : Oid → Bool
  | pwmOut _ => true
  | _ => false

end Oid

/-- The objects, and the moves that are written in the items. -/
structure Objects (ι : Type) where
  oid : ι → Oid
  stepperMove : ℕ → StepperMove
  digitalMove : ℕ → DigitalMove
  pwmMove : ℕ → PwmMove

namespace Objects

variable {ι : Type} [DecidableEq ι]

/-- An object is changed. -/
def set (o : ι) (x : Oid) (objs : Objects ι) : Objects ι :=
  { objs with oid := Function.update objs.oid o x }

/-- All objects are changed. -/
def map (f : Oid → Oid) (objs : Objects ι) : Objects ι :=
  { objs with oid := fun o => f (objs.oid o) }

def writeStepperMove (m : ℕ) (move : StepperMove) (objs : Objects ι) : Objects ι :=
  { objs with stepperMove := Function.update objs.stepperMove m move }

def writeDigitalMove (m : ℕ) (move : DigitalMove) (objs : Objects ι) : Objects ι :=
  { objs with digitalMove := Function.update objs.digitalMove m move }

def writePwmMove (m : ℕ) (move : PwmMove) (objs : Objects ι) : Objects ι :=
  { objs with pwmMove := Function.update objs.pwmMove m move }

end Objects

/-- Whether a step event comes to `stepper_load_next`. -/
def Stepper.loadsNext (board : StepperBoard) (s : Stepper) : Bool :=
  if s.singleSched ∧ board.build = .avr then s.count.setWidth 16 - 1 = 0 else s.count - 1 = 0

namespace MoveQueues

variable {ι : Type} [DecidableEq ι] (board : StepperBoard)

/-! ## Steppers -/

/-- `stepper_oid_lookup`. -/
def lookupStepper (o : ι) (k : Stepper → Code (Objects ι) ι) : Code (Objects ι) ι :=
  .look fun objs =>
    match objs.oid o with
    | .stepper s => k s
    | _ => .shutdown "Invalid oid type"

/-- `stepper_load_next`. -/
def stepperLoadNext (o : ι) (s : Stepper) : Code (Objects ι) ι :=
  .first o fun
    | none => .modify (Objects.set o (.stepper ({ s with mq := [] }.loadNext board))) .done
    | some _ =>
      .pop o fun m =>
      .look fun objs =>
      .modify (Objects.set o (.stepper ({ s with mq := [objs.stepperMove m] }.loadNext board))) <|
      .free m .done

/-- `command_queue_step`. -/
def commandQueueStep (o : ι) (interval : BitVec 32) (count add : BitVec 16) :
    Code (Objects ι) ι :=
  lookupStepper o fun _ =>
  .alloc fun m =>
  .poll <|
  if count = 0 then .shutdown "Invalid count parameter"
  else
    lookupStepper o fun s =>
    .modify (Objects.writeStepperMove m ⟨interval, add, count, s.lastDir != s.nextDir⟩) <|
    let t := { s with lastDir := s.nextDir }
    if s.count ≠ 0 then .modify (Objects.set o (.stepper t)) <| .push m o fun _ => .done
    else if s.needReset then .free m .done
    else .push m o fun _ => stepperLoadNext board o t

/-- `command_set_next_step_dir`. -/
def commandSetNextStepDir (o : ι) (dir : Bool) : Code (Objects ι) ι :=
  lookupStepper o fun s => .modify (Objects.set o (.stepper (s.setNextStepDir dir))) .done

/-- `command_reset_step_clock`. -/
def commandResetStepClock (o : ι) (waketime : BitVec 32) : Code (Objects ι) ι :=
  lookupStepper o fun s =>
    match s.resetStepClock waketime with
    | none => .shutdown "Can't reset time when stepper active"
    | some s => .modify (Objects.set o (.stepper s)) .done

/-- `stepper_event`, with the moves that it takes from the queue. -/
def stepperEventWith (o : ι) (s : Stepper) (curtime : BitVec 32) (mq : List StepperMove) :
    Code (Objects ι) ι :=
  match { s with mq := mq }.event board curtime with
  | none => .shutdown "Stepper too far in past"
  | some s => .modify (Objects.set o (.stepper s)) .done

/-- `stepper_event`. -/
def stepperEvent (o : ι) (s : Stepper) (curtime : BitVec 32) : Code (Objects ι) ι :=
  if s.loadsNext board then
    .first o fun
      | none => stepperEventWith board o s curtime []
      | some _ =>
        .pop o fun m =>
        .look fun objs =>
        .free m <| stepperEventWith board o s curtime [objs.stepperMove m]
  else stepperEventWith board o s curtime []

/-- `stepper_stop`. -/
def stepperStop (o : ι) (s : Stepper) : Code (Objects ι) ι :=
  .modify (Objects.set o (.stepper (s.stop board))) <| .drain o .done

/-! ## Digital pins -/

/-- `oid_lookup` for a digital pin. -/
def lookupDigitalOut (o : ι) (k : DigitalOut → Code (Objects ι) ι) : Code (Objects ι) ι :=
  .look fun objs =>
    match objs.oid o with
    | .digitalOut d => k d
    | _ => .shutdown "Invalid oid type"

/-- A digital pin after a handler, which may have shut down. -/
def setDigitalOut (o : ι) (d : DigitalOut) : Code (Objects ι) ι :=
  if d.isShutdown then .shutdown "Scheduled digital out event will exceed max_duration"
  else .modify (Objects.set o (.digitalOut d)) .done

/-- `digital_load_event`. -/
def digitalLoadEvent (o : ι) (d : DigitalOut) : Code (Objects ι) ι :=
  .first o fun
    | none => .shutdown "Missed scheduling of next digital out event"
    | some _ =>
      .pop o fun m =>
      .look fun objs =>
      .free m <|
      .first o fun next =>
      setDigitalOut o { d with
        isShutdown := false
        mq := objs.digitalMove m :: (next.map objs.digitalMove).toList }.digitalLoadEvent

/-- `command_queue_digital_out`. -/
def commandQueueDigitalOut (o : ι) (clock : ℕ) (onTicks : BitVec 32) : Code (Objects ι) ι :=
  lookupDigitalOut o fun _ =>
  .alloc fun m =>
  .modify (Objects.writeDigitalMove m ⟨word clock, onTicks⟩) <|
  .poll <|
  .push m o fun firstOnQueue =>
  if !firstOnQueue then .done
  else
    lookupDigitalOut o fun d =>
    setDigitalOut o ({ d with isShutdown := false, mq := [] }.commandQueueDigitalOut clock onTicks)

/-- `command_set_digital_out_pwm_cycle`. -/
def commandSetDigitalOutPwmCycle (o : ι) (cycleTicks : BitVec 32) : Code (Objects ι) ι :=
  lookupDigitalOut o fun d =>
  .first o fun
    | some _ => .shutdown "Can not set soft pwm cycle ticks while updates pending"
    | none => .modify (Objects.set o (.digitalOut { d with cycleTime := cycleTicks })) .done

/-- `command_update_digital_out` at the time `now`. -/
def commandUpdateDigitalOut (o : ι) (value : BitVec 8) (now : ℕ) : Code (Objects ι) ι :=
  lookupDigitalOut o fun d =>
  .modify (Objects.set o (.digitalOut { d with active := false })) <|
  .first o fun
    | some _ => .shutdown "update_digital_out not valid with active queue"
    | none =>
      setDigitalOut o ({ d with
        now := now, isShutdown := false, mq := [] }.commandUpdateDigitalOut value)

/-! ## PWM pins -/

/-- `oid_lookup` for a PWM pin. -/
def lookupPwmOut (o : ι) (k : PwmOut → Code (Objects ι) ι) : Code (Objects ι) ι :=
  .look fun objs =>
    match objs.oid o with
    | .pwmOut p => k p
    | _ => .shutdown "Invalid oid type"

/-- A PWM pin after a handler, which may have shut down. -/
def setPwmOut (o : ι) (p : PwmOut) : Code (Objects ι) ι :=
  if p.isShutdown then .shutdown "Scheduled pwm event will exceed max_duration"
  else .modify (Objects.set o (.pwmOut p)) .done

/-- `pwm_event`. -/
def pwmEvent (o : ι) (p : PwmOut) : Code (Objects ι) ι :=
  .pop o fun m =>
  .look fun objs =>
  .free m <|
  .first o fun next =>
  setPwmOut o { p with
    isShutdown := false
    mq := objs.pwmMove m :: (next.map objs.pwmMove).toList }.pwmEvent

/-- `command_queue_pwm_out`. -/
def commandQueuePwmOut (o : ι) (clock : ℕ) (value : BitVec 16) : Code (Objects ι) ι :=
  lookupPwmOut o fun _ =>
  .alloc fun m =>
  .modify (Objects.writePwmMove m ⟨word clock, value⟩) <|
  .poll <|
  .push m o fun needAddTimer =>
  .poll <|
  if !needAddTimer then .done
  else
    -- `sched_del_timer`
    lookupPwmOut o fun p =>
    .modify (Objects.set o (.pwmOut { p with active := false })) <|
    .poll <|
    lookupPwmOut o fun p =>
    setPwmOut o ({ p with isShutdown := false, mq := [] }.commandQueuePwmOut clock value)

/-! ## The firmware -/

/-- The commands for objects with a move queue. -/
inductive QueueCommand (ι : Type)
  | queueStep (o : ι) (interval : BitVec 32) (count add : BitVec 16)
  | setNextStepDir (o : ι) (dir : Bool)
  | resetStepClock (o : ι) (waketime : BitVec 32)
  | queueDigitalOut (o : ι) (clock : ℕ) (onTicks : BitVec 32)
  | setDigitalOutPwmCycle (o : ι) (cycleTicks : BitVec 32)
  | updateDigitalOut (o : ι) (value : BitVec 8) (now : ℕ)
  | queuePwmOut (o : ι) (clock : ℕ) (value : BitVec 16)

def QueueCommand.code : QueueCommand ι → Code (Objects ι) ι
  | .queueStep o interval count add => commandQueueStep board o interval count add
  | .setNextStepDir o dir => commandSetNextStepDir o dir
  | .resetStepClock o waketime => commandResetStepClock o waketime
  | .queueDigitalOut o clock onTicks => commandQueueDigitalOut o clock onTicks
  | .setDigitalOutPwmCycle o cycleTicks => commandSetDigitalOutPwmCycle o cycleTicks
  | .updateDigitalOut o value now => commandUpdateDigitalOut o value now
  | .queuePwmOut o clock value => commandQueuePwmOut o clock value

/-- The timer of an object, dispatched at the time `curtime`, and a trigger. -/
inductive QueueInterrupt (ι : Type)
  | timer (o : ι) (curtime : BitVec 32)
  | stop (o : ι)

def QueueInterrupt.code : QueueInterrupt ι → Objects ι → Option (Code (Objects ι) ι)
  | .timer o curtime, objs =>
    match objs.oid o with
    | .stepper s => if s.active then some (stepperEvent board o s curtime) else none
    | .digitalOut d =>
      if d.active then
        match d.func with
        | .toggle => some (.modify (Objects.set o (.digitalOut d.digitalToggleEvent)) .done)
        | .load => some (digitalLoadEvent o d)
      else none
    | .pwmOut p =>
      if p.active then
        match p.func with
        | .event => some (pwmEvent o p)
        | .endEvent => some (.shutdown "Missed scheduling of next hard pwm event")
      else none
  | .stop o, objs =>
    match objs.oid o with
    | .stepper s => some (stepperStop board o s)
    | _ => none

/-- `sched_timer_reset`. -/
def schedTimerReset : Oid → Oid
  | .stepper s => .stepper { s with active := false }
  | .digitalOut d => .digitalOut { d with active := false }
  | .pwmOut p => .pwmOut { p with active := false }

/-- The functions that are declared with `DECL_SHUTDOWN`. -/
inductive QueueShutdown
  | moveReset
  | stepperShutdown
  | digitalOutShutdown
  | pwmShutdown

/-- The loop of `stepper_stop` finds an empty queue in `stepper_shutdown`. -/
def QueueShutdown.run : QueueShutdown → MovePool ι × Objects ι → MovePool ι × Objects ι
  | .moveReset, (pool, objs) => (pool.moveReset, objs)
  | .stepperShutdown, (pool, objs) =>
    (pool.moveQueueClear fun o => (objs.oid o).isStepper, objs.map fun
      | .stepper s => .stepper (s.stop board)
      | x => x)
  | .digitalOutShutdown, (pool, objs) =>
    (pool.moveQueueClear fun o => (objs.oid o).isDigitalOut, objs.map fun
      | .digitalOut d => .digitalOut { d.shutdown with isShutdown := false }
      | x => x)
  | .pwmShutdown, (pool, objs) =>
    (pool.moveQueueClear fun o => (objs.oid o).isPwmOut, objs.map fun
      | .pwmOut p => .pwmOut { p.shutdown with isShutdown := false }
      | x => x)

/-- The firmware, as far as it uses the move pool. -/
def firmware (ι : Type) [DecidableEq ι] : Firmware (Objects ι) ι where
  Command := QueueCommand ι
  Interrupt := QueueInterrupt ι
  ShutdownFunc := QueueShutdown
  command := QueueCommand.code board
  interrupt := QueueInterrupt.code board
  reset := Objects.map schedTimerReset
  shutdownFunc := QueueShutdown.run board

/-- The state after `finalize_config`. No PWM pin is scheduled. -/
structure Init (m : Processor (Objects ι) ι) : Prop where
  pool : ∃ p : MovePool ι, p.moveCount ≠ 0 ∧ (∀ q, (p.mq q).first = none) ∧ m.pool = p.moveReset
  frame : ∀ c, m.frame c = none
  active : ∀ o p, m.objs.oid o = .pwmOut p → p.active = false

/-! ## Items are put back -/

section Linear

variable {board} {c : Context} {held : Option ℕ} {o : ι}

theorem linear_shutdown {reason : String} (h : reason ≠ moveQueueOverflow) :
    (Code.shutdown reason : Code (Objects ι) ι).Linear c held :=
  h

theorem linear_lookupStepper {k : Stepper → Code (Objects ι) ι}
    (h : ∀ s, (k s).Linear c held) : (lookupStepper o k).Linear c held := by
  intro objs
  dsimp only
  cases objs.oid o with
  | stepper s => exact h s
  | digitalOut d => exact linear_shutdown (by decide)
  | pwmOut p => exact linear_shutdown (by decide)

theorem linear_lookupDigitalOut {k : DigitalOut → Code (Objects ι) ι}
    (h : ∀ d, (k d).Linear c held) : (lookupDigitalOut o k).Linear c held := by
  intro objs
  dsimp only
  cases objs.oid o with
  | stepper s => exact linear_shutdown (by decide)
  | digitalOut d => exact h d
  | pwmOut p => exact linear_shutdown (by decide)

theorem linear_lookupPwmOut {k : PwmOut → Code (Objects ι) ι}
    (h : ∀ p, (k p).Linear c held) : (lookupPwmOut o k).Linear c held := by
  intro objs
  dsimp only
  cases objs.oid o with
  | stepper s => exact linear_shutdown (by decide)
  | digitalOut d => exact linear_shutdown (by decide)
  | pwmOut p => exact h p

theorem linear_setDigitalOut (d : DigitalOut) : (setDigitalOut o d).Linear c none := by
  unfold setDigitalOut
  split_ifs
  · exact linear_shutdown (by decide)
  · rfl

theorem linear_setPwmOut (p : PwmOut) : (setPwmOut o p).Linear c none := by
  unfold setPwmOut
  split_ifs
  · exact linear_shutdown (by decide)
  · rfl

theorem linear_stepperLoadNext (s : Stepper) : (stepperLoadNext board o s).Linear c none := by
  intro head
  cases head with
  | none => rfl
  | some _ => exact ⟨rfl, fun m objs => ⟨rfl, rfl⟩⟩

theorem linear_stepperEventWith (s : Stepper) (curtime : BitVec 32) (mq : List StepperMove) :
    (stepperEventWith board o s curtime mq).Linear c none := by
  unfold stepperEventWith
  cases { s with mq := mq }.event board curtime with
  | none => exact linear_shutdown (by decide)
  | some s => rfl

theorem linear_stepperEvent (s : Stepper) (curtime : BitVec 32) :
    (stepperEvent board o s curtime).Linear c none := by
  unfold stepperEvent
  split_ifs
  · intro head
    cases head with
    | none => exact linear_stepperEventWith s curtime []
    | some _ => exact ⟨rfl, fun m objs => ⟨rfl, linear_stepperEventWith s curtime _⟩⟩
  · exact linear_stepperEventWith s curtime []

theorem linear_digitalLoadEvent (d : DigitalOut) : (digitalLoadEvent o d).Linear c none := by
  intro head
  cases head with
  | none => exact linear_shutdown (by decide)
  | some _ => exact ⟨rfl, fun m objs => ⟨rfl, fun next => linear_setDigitalOut _⟩⟩

theorem linear_commandQueueStep (interval : BitVec 32) (count add : BitVec 16) :
    (commandQueueStep board o interval count add).Linear .task none := by
  refine linear_lookupStepper fun _ => ⟨rfl, rfl, fun m => ?_⟩
  show Code.Linear .task (if count = 0 then _ else _) (some m)
  split_ifs
  · exact linear_shutdown (by decide)
  · refine linear_lookupStepper fun s => ?_
    show Code.Linear .task (if s.count ≠ 0 then _ else _) (some m)
    split_ifs
    · exact ⟨rfl, fun _ => rfl⟩
    · exact ⟨rfl, rfl⟩
    · exact ⟨rfl, fun _ => linear_stepperLoadNext _⟩

theorem linear_commandQueueDigitalOut (clock : ℕ) (onTicks : BitVec 32) :
    (commandQueueDigitalOut o clock onTicks).Linear .task none := by
  refine linear_lookupDigitalOut fun _ => ⟨rfl, rfl, fun m => ⟨rfl, fun first => ?_⟩⟩
  cases first with
  | false => rfl
  | true => exact linear_lookupDigitalOut fun d => linear_setDigitalOut _

theorem linear_commandQueuePwmOut (clock : ℕ) (value : BitVec 16) :
    (commandQueuePwmOut o clock value).Linear .task none := by
  refine linear_lookupPwmOut fun _ => ⟨rfl, rfl, fun m => ⟨rfl, fun need => ?_⟩⟩
  cases need with
  | false => rfl
  | true =>
    exact linear_lookupPwmOut fun _ => linear_lookupPwmOut fun _ => linear_setPwmOut _

theorem linear_command (cmd : QueueCommand ι) : (cmd.code board).Linear .task none := by
  cases cmd with
  | queueStep o interval count add => exact linear_commandQueueStep interval count add
  | setNextStepDir o dir => exact linear_lookupStepper fun _ => rfl
  | resetStepClock o waketime =>
    refine linear_lookupStepper fun s => ?_
    cases s.resetStepClock waketime with
    | none => exact linear_shutdown (by decide)
    | some s => rfl
  | queueDigitalOut o clock onTicks => exact linear_commandQueueDigitalOut clock onTicks
  | setDigitalOutPwmCycle o cycleTicks =>
    refine linear_lookupDigitalOut fun d head => ?_
    cases head with
    | none => rfl
    | some _ => exact linear_shutdown (by decide)
  | updateDigitalOut o value now =>
    refine linear_lookupDigitalOut fun d head => ?_
    cases head with
    | none => exact linear_setDigitalOut _
    | some _ => exact linear_shutdown (by decide)
  | queuePwmOut o clock value => exact linear_commandQueuePwmOut clock value

theorem linear_interrupt (i : QueueInterrupt ι) {objs : Objects ι} {code : Code (Objects ι) ι}
    (h : i.code board objs = some code) : code.Linear .irq none := by
  cases i with
  | timer o curtime =>
    unfold QueueInterrupt.code at h
    dsimp only at h
    cases hoid : objs.oid o with
    | stepper s =>
      rw [hoid] at h
      dsimp only at h
      split_ifs at h
      obtain rfl := Option.some_inj.1 h
      exact linear_stepperEvent s curtime
    | digitalOut d =>
      rw [hoid] at h
      dsimp only at h
      split_ifs at h
      cases hfunc : d.func with
      | toggle =>
        rw [hfunc] at h
        obtain rfl := Option.some_inj.1 h
        rfl
      | load =>
        rw [hfunc] at h
        obtain rfl := Option.some_inj.1 h
        exact linear_digitalLoadEvent d
    | pwmOut p =>
      rw [hoid] at h
      dsimp only at h
      split_ifs at h
      cases hfunc : p.func with
      | event =>
        rw [hfunc] at h
        obtain rfl := Option.some_inj.1 h
        exact ⟨rfl, fun m objs => ⟨rfl, fun next => linear_setPwmOut _⟩⟩
      | endEvent =>
        rw [hfunc] at h
        obtain rfl := Option.some_inj.1 h
        exact linear_shutdown (by decide)
  | stop o =>
    unfold QueueInterrupt.code at h
    dsimp only at h
    cases hoid : objs.oid o with
    | stepper s =>
      rw [hoid] at h
      obtain rfl := Option.some_inj.1 h
      exact ⟨rfl, rfl⟩
    | digitalOut d =>
      rw [hoid] at h
      cases h
    | pwmOut p =>
      rw [hoid] at h
      cases h

end Linear

/-! ## After a shutdown -/

section Shutdown

variable {board}

theorem moveCount_run (f : QueueShutdown) (ps : MovePool ι × Objects ι) :
    (f.run board ps).1.moveCount = ps.1.moveCount := by
  obtain ⟨pool, objs⟩ := ps
  cases f with
  | moveReset => exact pool.moveCount_reset
  | stepperShutdown => rfl
  | digitalOutShutdown => rfl
  | pwmShutdown => rfl

/-- The objects stay of their kinds, and no queue gets an item. -/
theorem run_spec (f : QueueShutdown) (ps : MovePool ι × Objects ι) (o : ι) :
    (((f.run board ps).2.oid o).isStepper = (ps.2.oid o).isStepper ∧
      ((f.run board ps).2.oid o).isDigitalOut = (ps.2.oid o).isDigitalOut ∧
      ((f.run board ps).2.oid o).isPwmOut = (ps.2.oid o).isPwmOut) ∧
    ((ps.1.mq o).first = none → ((f.run board ps).1.mq o).first = none) := by
  obtain ⟨pool, objs⟩ := ps
  have hclear : ∀ clears : ι → Bool, (pool.mq o).first = none →
      ((pool.moveQueueClear clears).mq o).first = none := by
    intro clears hempty
    show (if clears o then _ else pool.mq o : MoveQueueHead).first = none
    split_ifs
    · rfl
    · exact hempty
  cases f with
  | moveReset =>
    refine ⟨⟨rfl, rfl, rfl⟩, fun hempty => ?_⟩
    show (pool.moveReset.mq o).first = none
    rwa [MovePool.mq_reset]
  | stepperShutdown =>
    refine ⟨?_, hclear _⟩
    simp only [QueueShutdown.run, Objects.map]
    cases objs.oid o <;> exact ⟨rfl, rfl, rfl⟩
  | digitalOutShutdown =>
    refine ⟨?_, hclear _⟩
    simp only [QueueShutdown.run, Objects.map]
    cases objs.oid o <;> exact ⟨rfl, rfl, rfl⟩
  | pwmShutdown =>
    refine ⟨?_, hclear _⟩
    simp only [QueueShutdown.run, Objects.map]
    cases objs.oid o <;> exact ⟨rfl, rfl, rfl⟩

/-- The queues of the objects of a kind are cleared by the function for this kind. -/
theorem first_runShutdown_of_kind (order : (firmware board ι).Order) (pool : MovePool ι)
    (objs : Objects ι) (o : ι) (kind : Oid → Bool) (f : QueueShutdown)
    (hkind : ∀ g ps, kind ((QueueShutdown.run board g ps).2.oid o) = kind (ps.2.oid o))
    (hclear : ∀ pool objs, kind (objs.oid o) = true →
      ((QueueShutdown.run board f (pool, objs)).1.mq o).first = none)
    (ho : kind (((firmware board ι).runShutdown order pool objs).2.oid o) = true) :
    (((firmware board ι).runShutdown order pool objs).1.mq o).first = none :=
  (firmware board ι).runShutdown_establish (P := fun ps : MovePool ι × Objects ι =>
      kind (ps.2.oid o) = true → (ps.1.mq o).first = none) f
    (fun ps ho => hclear ps.1 ps.2 ((hkind f ps).symm.trans ho))
    (fun g ps h ho => (run_spec g ps o).2 (h ((hkind g ps).symm.trans ho))) order pool objs ho

/-- In any order of the shutdown functions all queues are cleared. -/
theorem first_runShutdown (order : (firmware board ι).Order) (pool : MovePool ι)
    (objs : Objects ι) (o : ι) :
    (((firmware board ι).runShutdown order pool objs).1.mq o).first = none := by
  have hclear : ∀ (pool : MovePool ι) (clears : ι → Bool), clears o = true →
      ((pool.moveQueueClear clears).mq o).first = none := by
    intro pool clears ho
    show (if clears o then _ else pool.mq o : MoveQueueHead).first = none
    rw [if_pos ho]
  cases hoid : ((firmware board ι).runShutdown order pool objs).2.oid o with
  | stepper s =>
    exact first_runShutdown_of_kind order pool objs o Oid.isStepper .stepperShutdown
      (fun g ps => (run_spec g ps o).1.1)
      (fun pool objs => hclear pool fun o => (objs.oid o).isStepper) (by rw [hoid]; rfl)
  | digitalOut d =>
    exact first_runShutdown_of_kind order pool objs o Oid.isDigitalOut .digitalOutShutdown
      (fun g ps => (run_spec g ps o).1.2.1)
      (fun pool objs => hclear pool fun o => (objs.oid o).isDigitalOut) (by rw [hoid]; rfl)
  | pwmOut p =>
    exact first_runShutdown_of_kind order pool objs o Oid.isPwmOut .pwmShutdown
      (fun g ps => (run_spec g ps o).1.2.2)
      (fun pool objs => hclear pool fun o => (objs.oid o).isPwmOut) (by rw [hoid]; rfl)

/-- And the free list is that of `move_reset`. -/
theorem free_runShutdown (order : (firmware board ι).Order) (pool : MovePool ι)
    (objs : Objects ι) (hcount : pool.moveCount ≠ 0) :
    ((firmware board ι).runShutdown order pool objs).1.moveCount = pool.moveCount ∧
      ((firmware board ι).runShutdown order pool objs).1.moveFreeList = some 0 ∧
      ∃ next, ((firmware board ι).runShutdown order pool objs).1.next = Function.update
        (MovePool.linkItems next (pool.moveCount - 1)) (pool.moveCount - 1) none := by
  have hkeep := (firmware board ι).runShutdown_keep (P := fun ps =>
      ps.1.moveCount = pool.moveCount) (fun g ps h => (moveCount_run g ps).trans h) order
    (p := pool) (s := objs) rfl
  have hmoveReset : ∀ p : MovePool ι, p.moveReset.moveCount ≠ 0 →
      p.moveReset.moveFreeList = some 0 ∧ ∃ next, p.moveReset.next = Function.update
        (MovePool.linkItems next (p.moveReset.moveCount - 1)) (p.moveReset.moveCount - 1) none := by
    intro p hp
    rw [MovePool.moveCount_reset] at hp ⊢
    exact MovePool.moveReset_spec hp
  have hreset := (firmware board ι).runShutdown_establish (P := fun ps =>
      ps.1.moveCount ≠ 0 → ps.1.moveFreeList = some 0 ∧ ∃ next, ps.1.next = Function.update
        (MovePool.linkItems next (ps.1.moveCount - 1)) (ps.1.moveCount - 1) none) .moveReset
    (fun ps => hmoveReset ps.1) (fun g ps h => ?_) order pool objs
  · refine ⟨hkeep, ?_⟩
    rw [hkeep] at hreset
    exact hreset hcount
  · cases g with
    | moveReset => exact hmoveReset ps.1
    | stepperShutdown => exact h
    | digitalOutShutdown => exact h
    | pwmShutdown => exact h

theorem linear : (firmware board ι).Linear where
  command := linear_command
  interrupt i _ _ h := linear_interrupt i h
  shutdown order pool objs hcount := by
    obtain ⟨hsame, hfree, next, hnext⟩ := free_runShutdown order pool objs hcount
    have hcount' := hsame.symm ▸ hcount
    exact ⟨hcount', _, _, _, MovePool.layout_reset hcount' hfree (hsame.symm ▸ hnext)
      (first_runShutdown order pool objs)⟩

end Shutdown

/-! ## The first item of a PWM pin's queue -/

/-- The timer is scheduled for `pwm_event`. -/
def Loads (p : PwmOut) : Prop :=
  p.active = true ∧ p.func = .event

/-- While the timer of a PWM pin is scheduled for `pwm_event` its queue is not empty. An interrupt
schedules no timer for `pwm_event`, and leaves the queue as it is if it is not. -/
def pwmLoads (ι : Type) : Interference (Objects ι) ι where
  ok objs e := ∀ o p, objs.oid o = .pwmOut p → Loads p → e o = true
  rely objs e objs' e' := ∀ o p, objs.oid o = .pwmOut p →
    ∃ p', objs'.oid o = .pwmOut p' ∧ (¬ Loads p → ¬ Loads p' ∧ e' o = e o)
  refl objs e o p hp := ⟨p, hp, fun h => ⟨h, rfl⟩⟩
  trans objs e objs' e' objs'' e'' h h' o p hp := by
    obtain ⟨p', hp', hkeep⟩ := h o p hp
    obtain ⟨p'', hp'', hkeep'⟩ := h' o p' hp'
    refine ⟨p'', hp'', fun hloads => ?_⟩
    obtain ⟨hloads', he⟩ := hkeep hloads
    obtain ⟨hloads'', he'⟩ := hkeep' hloads'
    exact ⟨hloads'', he'.trans he⟩

section Safe

variable {board} {post : Assertion (Objects ι) ι} {objs : Objects ι} {e : ι → Bool} {o : ι}

/-- Only an object that is not a PWM pin is changed, and its queue. -/
structure Kept (o : ι) (objs : Objects ι) (e : ι → Bool) (objs' : Objects ι) (e' : ι → Bool) :
    Prop where
  others : ∀ q, q ≠ o → objs'.oid q = objs.oid q ∧ e' q = e q
  before : (objs.oid o).isPwmOut = false
  after : (objs'.oid o).isPwmOut = false

theorem Kept.ok {objs' : Objects ι} {e' : ι → Bool} (h : Kept o objs e objs' e')
    (hok : (pwmLoads ι).ok objs e) : (pwmLoads ι).ok objs' e' := by
  intro q p hp hloads
  by_cases hq : q = o
  · subst hq
    have hafter := h.after
    rw [hp] at hafter
    cases hafter
  · obtain ⟨hoid, he⟩ := h.others q hq
    rw [he]
    exact hok q p (hoid ▸ hp) hloads

theorem Kept.rely {objs' : Objects ι} {e' : ι → Bool} (h : Kept o objs e objs' e') :
    (pwmLoads ι).rely objs e objs' e' := by
  intro q p hp
  by_cases hq : q = o
  · subst hq
    have hbefore := h.before
    rw [hp] at hbefore
    cases hbefore
  · obtain ⟨hoid, he⟩ := h.others q hq
    exact ⟨p, hoid.trans hp, fun hloads => ⟨hloads, he⟩⟩

theorem Kept.set (ho : (objs.oid o).isPwmOut = false) {x : Oid} (hx : x.isPwmOut = false)
    {objs' : Objects ι} (hobjs : objs'.oid = objs.oid) {e' : ι → Bool}
    (he : ∀ q, q ≠ o → e' q = e q) : Kept o objs e (objs'.set o x) e' where
  others q hq := by
    refine ⟨?_, he q hq⟩
    show Function.update objs'.oid o x q = _
    rw [Function.update_of_ne hq, hobjs]
  before := ho
  after := by
    show (Function.update objs'.oid o x o).isPwmOut = false
    rw [Function.update_self]
    exact hx

theorem update_ne {v : Bool} : ∀ q, q ≠ o → Function.update e o v q = e q :=
  fun _ hq => Function.update_of_ne hq _ _

theorem safe_lookupStepper {k : Stepper → Code (Objects ι) ι}
    (h : ∀ s, objs.oid o = .stepper s → (k s).Safe (pwmLoads ι) post objs e) :
    (lookupStepper o k).Safe (pwmLoads ι) post objs e := by
  show Code.Safe _ _ (match objs.oid o with | .stepper s => k s | _ => _) objs e
  cases hoid : objs.oid o with
  | stepper s => exact h s hoid
  | digitalOut d => trivial
  | pwmOut p => trivial

theorem safe_lookupDigitalOut {k : DigitalOut → Code (Objects ι) ι}
    (h : ∀ d, objs.oid o = .digitalOut d → (k d).Safe (pwmLoads ι) post objs e) :
    (lookupDigitalOut o k).Safe (pwmLoads ι) post objs e := by
  show Code.Safe _ _ (match objs.oid o with | .digitalOut d => k d | _ => _) objs e
  cases hoid : objs.oid o with
  | stepper s => trivial
  | digitalOut d => exact h d hoid
  | pwmOut p => trivial

theorem safe_lookupPwmOut {k : PwmOut → Code (Objects ι) ι}
    (h : ∀ p, objs.oid o = .pwmOut p → (k p).Safe (pwmLoads ι) post objs e) :
    (lookupPwmOut o k).Safe (pwmLoads ι) post objs e := by
  show Code.Safe _ _ (match objs.oid o with | .pwmOut p => k p | _ => _) objs e
  cases hoid : objs.oid o with
  | stepper s => trivial
  | digitalOut d => trivial
  | pwmOut p => exact h p hoid

theorem safe_setDigitalOut {d : DigitalOut} (h : post (objs.set o (.digitalOut d)) e) :
    (setDigitalOut o d).Safe (pwmLoads ι) post objs e := by
  unfold setDigitalOut
  split_ifs
  · trivial
  · exact h

theorem safe_setPwmOut {p : PwmOut} (h : post (objs.set o (.pwmOut p)) e) :
    (setPwmOut o p).Safe (pwmLoads ι) post objs e := by
  unfold setPwmOut
  split_ifs
  · trivial
  · exact h

theorem safe_stepperLoadNext (s : Stepper) (ho : (objs.oid o).isPwmOut = false)
    (hpost : ∀ objs' e', Kept o objs e objs' e' → post objs' e') :
    (stepperLoadNext board o s).Safe (pwmLoads ι) post objs e := by
  rw [stepperLoadNext, Code.Safe]
  split_ifs with he
  · exact fun _ => ⟨he, fun m left => hpost _ _ (.set ho rfl rfl update_ne)⟩
  · exact hpost _ _ (.set ho rfl rfl fun _ _ => rfl)

theorem safe_stepperEventWith (s : Stepper) (curtime : BitVec 32) (mq : List StepperMove)
    (hpost : ∀ x : Oid, x.isPwmOut = false → post (objs.set o x) e) :
    (stepperEventWith board o s curtime mq).Safe (pwmLoads ι) post objs e := by
  unfold stepperEventWith
  cases { s with mq := mq }.event board curtime with
  | none => trivial
  | some s => exact hpost _ rfl

theorem safe_stepperEvent (s : Stepper) (curtime : BitVec 32) (ho : (objs.oid o).isPwmOut = false)
    (hpost : ∀ objs' e', Kept o objs e objs' e' → post objs' e') :
    (stepperEvent board o s curtime).Safe (pwmLoads ι) post objs e := by
  have hwith : ∀ mq (e' : ι → Bool), (∀ q, q ≠ o → e' q = e q) →
      (stepperEventWith board o s curtime mq).Safe (pwmLoads ι) post objs e' :=
    fun mq e' he => safe_stepperEventWith s curtime mq fun x hx => hpost _ _ (.set ho hx rfl he)
  unfold stepperEvent
  split_ifs
  · rw [Code.Safe]
    split_ifs with he
    · exact fun _ => ⟨he, fun m left => hwith _ _ update_ne⟩
    · exact hwith _ _ fun _ _ => rfl
  · exact hwith _ _ fun _ _ => rfl

theorem safe_digitalLoadEvent (d : DigitalOut) (ho : (objs.oid o).isPwmOut = false)
    (hpost : ∀ objs' e', Kept o objs e objs' e' → post objs' e') :
    (digitalLoadEvent o d).Safe (pwmLoads ι) post objs e := by
  rw [digitalLoadEvent, Code.Safe]
  split_ifs with he
  · refine fun _ => ⟨he, fun m left => ?_⟩
    have hset : ∀ d : DigitalOut, (setDigitalOut o d).Safe (pwmLoads ι) post objs
        (Function.update e o left) :=
      fun d => safe_setDigitalOut (hpost _ _ (.set ho rfl rfl update_ne))
    show (if Function.update e o left o = true then ∀ _, _ else _ : Prop)
    split_ifs
    · exact fun next => hset _
    · exact hset _
  · trivial

/-- After the last update the timer is not scheduled for `pwm_event`. -/
theorem not_loads_pwmEvent (p : PwmOut) (m : PwmMove) :
    ¬ Loads { p with isShutdown := false, mq := [m] }.pwmEvent := by
  rintro ⟨hactive, hfunc⟩
  unfold PwmOut.pwmEvent at hactive hfunc
  dsimp only at hactive hfunc
  split_ifs at hactive hfunc

theorem safe_pwmEvent {p : PwmOut} (hok : (pwmLoads ι).ok objs e) (ho : objs.oid o = .pwmOut p)
    (hloads : Loads p) : (pwmEvent o p).Safe (pwmLoads ι)
      (fun objs' e' => (pwmLoads ι).ok objs' e' ∧ (pwmLoads ι).rely objs e objs' e') objs e := by
  -- the other pins are as before, and this one is as before or its queue is empty
  have hpost : ∀ p' (e' : ι → Bool), (∀ q, q ≠ o → e' q = e q) → (Loads p' → e' o = true) →
      (pwmLoads ι).ok (objs.set o (.pwmOut p')) e' ∧
        (pwmLoads ι).rely objs e (objs.set o (.pwmOut p')) e' := by
    intro p' e' he hp'
    have hoid : ∀ q, q ≠ o → (objs.set o (.pwmOut p')).oid q = objs.oid q := fun q hq =>
      Function.update_of_ne hq _ _
    have hself : (objs.set o (.pwmOut p')).oid o = .pwmOut p' := Function.update_self ..
    refine ⟨fun q p'' hq hl => ?_, fun q p'' hq => ?_⟩
    · by_cases hqo : q = o
      · subst hqo
        rw [hself] at hq
        exact hp' (Oid.pwmOut.inj hq ▸ hl)
      · rw [hoid q hqo] at hq
        exact (he q hqo).trans (hok q p'' hq hl)
    · by_cases hqo : q = o
      · subst hqo
        exact ⟨p', hself, fun hl => absurd (Oid.pwmOut.inj (ho.symm.trans hq) ▸ hloads) hl⟩
      · exact ⟨p'', (hoid q hqo).trans hq, fun hl => ⟨hl, he q hqo⟩⟩
  refine ⟨hok o p ho hloads, fun m left => ?_⟩
  show (if Function.update e o left o = true then ∀ _, _ else _ : Prop)
  split_ifs with hleft
  · exact fun next => safe_setPwmOut (hpost _ _ update_ne fun _ => hleft)
  · exact safe_setPwmOut (hpost _ _ update_ne fun hl => absurd hl (not_loads_pwmEvent p _))

theorem safe_interrupt (i : QueueInterrupt ι) {code : Code (Objects ι) ι}
    (hok : (pwmLoads ι).ok objs e) (h : i.code board objs = some code) :
    code.Safe (pwmLoads ι)
      (fun objs' e' => (pwmLoads ι).ok objs' e' ∧ (pwmLoads ι).rely objs e objs' e') objs e := by
  have hkept : ∀ o objs' e', Kept o objs e objs' e' →
      (pwmLoads ι).ok objs' e' ∧ (pwmLoads ι).rely objs e objs' e' :=
    fun o objs' e' hk => ⟨hk.ok hok, hk.rely⟩
  cases i with
  | timer o curtime =>
    unfold QueueInterrupt.code at h
    dsimp only at h
    cases hoid : objs.oid o with
    | stepper s =>
      rw [hoid] at h
      dsimp only at h
      split_ifs at h
      obtain rfl := Option.some_inj.1 h
      exact safe_stepperEvent s curtime (by rw [hoid]; rfl) (hkept o)
    | digitalOut d =>
      rw [hoid] at h
      dsimp only at h
      split_ifs at h
      cases hfunc : d.func with
      | toggle =>
        rw [hfunc] at h
        obtain rfl := Option.some_inj.1 h
        exact hkept o _ _ (.set (by rw [hoid]; rfl) rfl rfl fun _ _ => rfl)
      | load =>
        rw [hfunc] at h
        obtain rfl := Option.some_inj.1 h
        exact safe_digitalLoadEvent d (by rw [hoid]; rfl) (hkept o)
    | pwmOut p =>
      rw [hoid] at h
      dsimp only at h
      split_ifs at h with hactive
      cases hfunc : p.func with
      | event =>
        rw [hfunc] at h
        obtain rfl := Option.some_inj.1 h
        exact safe_pwmEvent hok hoid ⟨hactive, hfunc⟩
      | endEvent =>
        rw [hfunc] at h
        obtain rfl := Option.some_inj.1 h
        trivial
  | stop o =>
    unfold QueueInterrupt.code at h
    dsimp only at h
    cases hoid : objs.oid o with
    | stepper s =>
      rw [hoid] at h
      obtain rfl := Option.some_inj.1 h
      exact hkept o _ _ (.set (by rw [hoid]; rfl) rfl rfl update_ne)
    | digitalOut d =>
      rw [hoid] at h
      cases h
    | pwmOut p =>
      rw [hoid] at h
      cases h

theorem safe_commandQueueStep (interval : BitVec 32) (count add : BitVec 16)
    (hok : (pwmLoads ι).ok objs e) : (commandQueueStep board o interval count add).Safe
      (pwmLoads ι) (pwmLoads ι).ok objs e := by
  refine safe_lookupStepper fun _ _ => fun m => ⟨hok, fun objs' e' hok' _ => ?_⟩
  show Code.Safe _ _ (if count = 0 then _ else _) objs' e'
  split_ifs
  · trivial
  · refine safe_lookupStepper fun s hs => ?_
    have ho : (objs'.oid o).isPwmOut = false := by rw [hs]; rfl
    show Code.Safe _ _ (if s.count ≠ 0 then _ else _)
      (objs'.writeStepperMove m ⟨interval, add, count, s.lastDir != s.nextDir⟩) e'
    split_ifs
    · exact (Kept.set ho rfl rfl update_ne).ok hok'
    · exact hok'
    · refine safe_stepperLoadNext _ ho fun objs'' e'' hkept => ?_
      refine Kept.ok ⟨fun q hq => ?_, ho, hkept.after⟩ hok'
      obtain ⟨hoid, he⟩ := hkept.others q hq
      exact ⟨hoid, he.trans (update_ne q hq)⟩

theorem ok_push (hok : (pwmLoads ι).ok objs e) :
    (pwmLoads ι).ok objs (Function.update e o true) := by
  intro q p hp hloads
  by_cases hq : q = o
  · subst hq
    exact Function.update_self ..
  · exact (update_ne q hq).trans (hok q p hp hloads)

theorem safe_commandQueueDigitalOut (clock : ℕ) (onTicks : BitVec 32)
    (hok : (pwmLoads ι).ok objs e) :
    (commandQueueDigitalOut o clock onTicks).Safe (pwmLoads ι) (pwmLoads ι).ok objs e := by
  refine safe_lookupDigitalOut fun _ _ => fun m => ⟨hok, fun objs' e' hok' hrely => ?_⟩
  show Code.Safe _ _ (if (!!e' o) = true then _ else _) objs' (Function.update e' o true)
  split_ifs
  · exact ok_push hok'
  · refine safe_lookupDigitalOut fun d hd => safe_setDigitalOut ?_
    exact (Kept.set (by rw [hd]; rfl) rfl rfl update_ne).ok hok'

/-- A PWM pin is changed, and is scheduled for `pwm_event` only with an item in its queue. -/
theorem ok_setPwmOut {p : PwmOut} (hok : (pwmLoads ι).ok objs e) (hp : Loads p → e o = true) :
    (pwmLoads ι).ok (objs.set o (.pwmOut p)) e := by
  intro q p' hq hloads
  by_cases hqo : q = o
  · subst hqo
    have hself : (objs.set q (.pwmOut p)).oid q = .pwmOut p := Function.update_self ..
    exact hp (Oid.pwmOut.inj (hself.symm.trans hq) ▸ hloads)
  · have hother : (objs.set o (.pwmOut p)).oid q = objs.oid q := Function.update_of_ne hqo _ _
    exact hok q p' (hother ▸ hq) hloads

theorem safe_commandQueuePwmOut (clock : ℕ) (value : BitVec 16) (hok : (pwmLoads ι).ok objs e) :
    (commandQueuePwmOut o clock value).Safe (pwmLoads ι) (pwmLoads ι).ok objs e := by
  refine safe_lookupPwmOut fun p hp => fun m => ⟨hok, fun objs' e' hok' hrely => ?_⟩
  obtain ⟨p', hp', -⟩ := hrely o p hp
  refine ⟨ok_push hok', fun objs₁ e₁ hok₁ hrely₁ => ?_⟩
  show Code.Safe _ _ (if (!!e' o) = true then _ else _) objs₁ e₁
  split_ifs with hempty
  · exact hok₁
  · -- the queue was empty, so the timer is not scheduled for `pwm_event` and the item stays there
    have hloads' : ¬ Loads p' := fun hloads => hempty (by rw [hok' o p' hp' hloads]; rfl)
    obtain ⟨p₁, hp₁, hkeep₁⟩ := hrely₁ o p' hp'
    have he₁ : e₁ o = true := (hkeep₁ hloads').2.trans (Function.update_self ..)
    refine safe_lookupPwmOut fun p₁ _ => ?_
    have hdel : ¬ Loads { p₁ with active := false } :=
      fun hloads => Bool.false_ne_true hloads.1
    refine ⟨ok_setPwmOut hok₁ fun hloads => absurd hloads hdel, fun objs₂ e₂ hok₂ hrely₂ => ?_⟩
    obtain ⟨p₂, hp₂, hkeep₂⟩ := hrely₂ o _ (Function.update_self ..)
    refine safe_lookupPwmOut fun p₂ _ => safe_setPwmOut (ok_setPwmOut hok₂ fun _ => ?_)
    exact (hkeep₂ hdel).2.trans he₁

theorem safe_command (cmd : QueueCommand ι) (hok : (pwmLoads ι).ok objs e) :
    (cmd.code board).Safe (pwmLoads ι) (pwmLoads ι).ok objs e := by
  cases cmd with
  | queueStep o interval count add => exact safe_commandQueueStep interval count add hok
  | setNextStepDir o dir =>
    exact safe_lookupStepper fun s hs => (Kept.set (by rw [hs]; rfl) rfl rfl fun _ _ => rfl).ok hok
  | resetStepClock o waketime =>
    refine safe_lookupStepper fun s hs => ?_
    cases s.resetStepClock waketime with
    | none => trivial
    | some t => exact (Kept.set (by rw [hs]; rfl) rfl rfl fun _ _ => rfl).ok hok
  | queueDigitalOut o clock onTicks => exact safe_commandQueueDigitalOut clock onTicks hok
  | setDigitalOutPwmCycle o cycleTicks =>
    refine safe_lookupDigitalOut fun d hd => ?_
    show (if e o = true then ∀ _, _ else _ : Prop)
    split_ifs
    · exact fun _ => trivial
    · exact (Kept.set (by rw [hd]; rfl) rfl rfl fun _ _ => rfl).ok hok
  | updateDigitalOut o value now =>
    refine safe_lookupDigitalOut fun d hd => ?_
    show (if e o = true then ∀ _, _ else _ : Prop)
    split_ifs
    · exact fun _ => trivial
    · have hok' := (Kept.set (by rw [hd]; rfl) (x := .digitalOut { d with active := false }) rfl rfl
        fun _ _ => rfl).ok hok
      refine safe_setDigitalOut ((Kept.set ?_ rfl rfl fun _ _ => rfl).ok hok')
      show (Function.update objs.oid o _ o).isPwmOut = false
      rw [Function.update_self]
      rfl
  | queuePwmOut o clock value => exact safe_commandQueuePwmOut clock value hok

end Safe

theorem active_pwmShutdown (pool : MovePool ι) (objs : Objects ι) (o : ι) (p : PwmOut)
    (hp : (QueueShutdown.run board .pwmShutdown (pool, objs)).2.oid o = .pwmOut p) :
    p.active = false := by
  simp only [QueueShutdown.run, Objects.map] at hp
  cases hoid : objs.oid o with
  | stepper s => exact nomatch hoid ▸ hp
  | digitalOut d => exact nomatch hoid ▸ hp
  | pwmOut p' =>
    rw [hoid] at hp
    rw [← Oid.pwmOut.inj hp]
    rfl

section Result

variable {board}

theorem safe : (firmware board ι).Safe (pwmLoads ι) where
  command cmd _ _ hok := safe_command cmd hok
  interrupt i _ _ _ hok h := safe_interrupt i hok h
  shutdown order pool objs o p hp hloads := by
    have hinactive := (firmware board ι).runShutdown_establish
      (P := fun ps : MovePool ι × Objects ι => ∀ p, ps.2.oid o = .pwmOut p → p.active = false)
      .pwmShutdown (fun ps p hp => ?_) (fun g ps h p hp => ?_) order pool objs
    · exact nomatch (hinactive p hp).symm.trans hloads.1
    · obtain ⟨pool, objs⟩ := ps
      exact active_pwmShutdown board pool objs o p hp
    · obtain ⟨pool, objs⟩ := ps
      cases g with
      | moveReset => exact h p hp
      | stepperShutdown =>
        refine h p ?_
        simp only [QueueShutdown.run, firmware, Objects.map] at hp
        cases hoid : objs.oid o with
        | pwmOut p' =>
          rw [hoid] at hp
          exact hp
        | stepper x =>
          rw [hoid] at hp
          cases hp
        | digitalOut x =>
          rw [hoid] at hp
          cases hp
      | digitalOutShutdown =>
        refine h p ?_
        simp only [QueueShutdown.run, firmware, Objects.map] at hp
        cases hoid : objs.oid o with
        | pwmOut p' =>
          rw [hoid] at hp
          exact hp
        | stepper x =>
          rw [hoid] at hp
          cases hp
        | digitalOut x =>
          rw [hoid] at hp
          cases hp
      | pwmShutdown => exact active_pwmShutdown board pool objs o p hp

/-! ## The result -/

theorem Init.conserving {m : Processor (Objects ι) ι} (h : Init m) : m.Conserving := by
  obtain ⟨p, hcount, hempty, hpool⟩ := h.pool
  have hheld : m.held = fun _ => none := funext fun c => by rw [Processor.held, h.frame]; rfl
  obtain ⟨hfree, next, hnext⟩ := MovePool.moveReset_spec hcount
  have hcount' : p.moveReset.moveCount ≠ 0 := by rwa [MovePool.moveCount_reset]
  refine ⟨hpool ▸ hcount', ?_, fun c fr hfr => by simp [h.frame c] at hfr⟩
  rw [hheld, hpool]
  have hlinks : p.moveReset.next = Function.update
      (MovePool.linkItems next (p.moveReset.moveCount - 1)) (p.moveReset.moveCount - 1) none := by
    rw [hnext, MovePool.moveCount_reset]
  refine ⟨_, _, _, MovePool.layout_reset hcount' hfree hlinks fun q => ?_⟩
  rw [MovePool.mq_reset]
  exact hempty q

theorem Init.safe {m : Processor (Objects ι) ι} (h : Init m) : m.Safe (pwmLoads ι) := by
  refine (Processor.safe_of_task (h.frame .irq)).2 (.inl ⟨fun o p hp hloads => ?_, h.frame .task⟩)
  exact nomatch (h.active o p hp).symm.trans hloads.1

/-- Each item of the pool is on the free list, in one queue, or with the handler that took it; the
free list and the queues end, and the last item of a queue is the one that is recorded. A handler
frees only what it holds, takes the first item only of a queue that has one, and shuts down for an
overflow only when all items are queued. -/
theorem pool_of_reachable {m : Processor (Objects ι) ι}
    (h : ((firmware board ι).system Init).Reachable m) :
    ∃ avail queue place, m.pool.Layout m.held avail queue place ∧
      avail.Nodup ∧ (∀ q, (queue q).Nodup) ∧
      (∀ item k held, m.frame m.running = some ⟨.free item k, held⟩ →
        m.held m.running = some item ∧ item ∉ avail ∧ ∀ q, item ∉ queue q) ∧
      (∀ q k held, m.frame m.running = some ⟨.pop q k, held⟩ → queue q ≠ []) ∧
      ∀ c held, m.frame c = some ⟨.shutdown moveQueueOverflow, held⟩ →
        ∀ i < m.pool.moveCount, ∃ q, i ∈ queue q := by
  have hconserving := Processor.conserved_of_reachable linear (fun _ hi => hi.conserving) h
  have hsafe := Processor.safe_of_reachable safe (fun _ hi => hi.safe) h
  obtain ⟨avail, queue, place, hlayout⟩ := hconserving.conserved
  refine ⟨avail, queue, place, hlayout, hlayout.freeChain.nodup,
    fun q => (hlayout.queueChain q).nodup, fun item k held hfr => ?_, fun q k held hfr hempty => ?_,
    fun c held hfr => ?_⟩
  · have hlinear := hconserving.linear_of_running hfr nofun _ _ hfr
    have hheld : m.held m.running = some item := by
      rw [Processor.held, hfr]
      exact hlinear.1
    have hplace := ((hlayout.held_eq _ item).1 hheld).2
    exact ⟨hheld, hlayout.not_mem_free (by simp [hplace]),
      fun q => hlayout.not_mem_queue (by simp [hplace])⟩
  · have hnonEmpty := hsafe.nonEmpty_of_pop hfr
    rw [MovePool.nonEmpty, (hlayout.queueChain q).eq_nil_iff.1 hempty] at hnonEmpty
    cases hnonEmpty
  · -- the reason is not given in any handler
    rcases hconserving.linear c _ hfr with hreason | ⟨-, hirq, htask, hfree⟩
    · exact absurd rfl hreason
    have hnone : ∀ c, m.held c = none := by
      intro c
      cases c with
      | task => rw [Processor.held, htask]; rfl
      | irq => rw [Processor.held, hirq]; rfl
    intro i hi
    cases hplace : place i with
    | queue q => exact ⟨q, (hlayout.mem_queue q i).2 ⟨hi, hplace⟩⟩
    | free =>
      have hmem := (hlayout.mem_free i).2 ⟨hi, hplace⟩
      rw [hlayout.freeChain.eq_nil_iff.2 hfree] at hmem
      cases hmem
    | held c =>
      have hheld := (hlayout.held_eq c i).2 ⟨hi, hplace⟩
      simp [hnone c] at hheld

end Result

/-- A stepper and a PWM pin. -/
def twoObjects : Objects Bool where
  oid o := if o then .pwmOut (PwmOut.config 0 0 0) else .stepper (Stepper.config ⟨.regular, 2⟩ 0 2)
  stepperMove _ := ⟨0, 0, 0, false⟩
  digitalMove _ := ⟨0, 0⟩
  pwmMove _ := ⟨0, 0⟩

/-- One item after `finalize_config`. -/
def oneItem : Processor (Objects Bool) Bool where
  pool := MovePool.moveReset ⟨1, fun _ => none, none, fun _ => ⟨none, none⟩⟩
  objs := twoObjects
  frame _ := none
  isShutdown := false

/-- The second move of the stepper stays in its queue, and the third finds no item. -/
theorem pool_of_reachable_overflow : ∃ m : Processor (Objects Bool) Bool,
    ((firmware ⟨.regular, 2⟩ Bool).system Init).Reachable m ∧ m.pool.moveCount = 1 ∧
      m.frame .task = some ⟨.shutdown moveQueueOverflow, none⟩ ∧
      ∃ queue : Bool → List ℕ, (∃ q, 0 ∈ queue q) ∧ ∀ q, (queue q).Nodup := by
  have hrun : (((firmware ⟨.regular, 2⟩ Bool).system Init).run oneItem
      ([.command (.queueStep false 100 2 0)] ++ List.replicate 12 .step ++
        [.command (.queueStep false 100 2 0)] ++ List.replicate 8 .step ++
        [.command (.queueStep false 100 2 0), .step, .step])).map (fun m =>
          (m.pool.moveCount, (m.frame .task).map fun fr => (fr.held, match fr.code with
            | .shutdown reason => some reason
            | _ => none))) = some (1, some (none, some moveQueueOverflow)) := by
    decide +kernel
  obtain ⟨m, hm, heq⟩ := Option.map_eq_some_iff.1 hrun
  obtain ⟨hcount, hframe⟩ := Prod.mk.inj heq
  obtain ⟨⟨code, held⟩, hfr, heq⟩ := Option.map_eq_some_iff.1 hframe
  obtain ⟨hheld, hcode⟩ := Prod.mk.inj heq
  have htask : m.frame .task = some ⟨.shutdown moveQueueOverflow, none⟩ := by
    rw [hfr]
    obtain rfl : held = none := hheld
    cases code with
    | shutdown reason => rw [Option.some_inj.1 hcode]
    | _ => exact nomatch hcode
  have hinit : Init oneItem := {
    pool := ⟨⟨1, fun _ => none, none, fun _ => ⟨none, none⟩⟩, by decide, fun _ => rfl, rfl⟩
    frame := fun _ => rfl
    active := fun o p hp => by
      cases o with
      | false => exact nomatch hp
      | true =>
        rw [← Oid.pwmOut.inj hp]
        rfl }
  have hreach : ((firmware ⟨.regular, 2⟩ Bool).system Init).Reachable m :=
    System.Reachable.run (.init hinit) hm
  obtain ⟨avail, queue, place, -, -, hnodup, -, -, hoverflow⟩ := pool_of_reachable hreach
  exact ⟨m, hreach, hcount, htask, queue, hoverflow .task none htask 0 (by omega), hnodup⟩

end MoveQueues

end Thinker
