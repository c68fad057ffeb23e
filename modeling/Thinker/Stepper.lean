import Thinker.Clock

/-!
# Steppers

`stepper.c` : a stepper has one timer, which toggles its step pin and loads the moves of its
queue one after the other. A stop (`Stepper.stop`) removes the timer and the moves, keeps the
position, and lets no further move in until the step clock is reset.

The build of the firmware and the stepper's flags choose the timer function. `none` as a result
is a shutdown.
-/

namespace Thinker

/-- The build options : `HAVE_EDGE_OPTIMIZATION`, `HAVE_AVR_OPTIMIZATION` or neither. -/
inductive StepperBuild where
  | edge
  | avr
  | regular
  deriving DecidableEq, Repr

/-- `HAVE_SINGLE_SCHEDULE`. -/
def StepperBuild.haveSingleSchedule : StepperBuild → Bool
  | .regular => false
  | _ => true

/-- What `stepper.c` is built for, with the ticks of `timer_from_us(1000)`. -/
structure StepperBoard where
  build : StepperBuild
  timerFromUs1000 : BitVec 32

/-- `struct stepper_move`. -/
structure StepperMove where
  interval : BitVec 32
  add : BitVec 16
  count : BitVec 16
  /-- `MF_DIR`. -/
  dir : Bool
  deriving DecidableEq, Repr

/-- `struct stepper`, with its pins. -/
structure Stepper where
  /-- Whether the timer is scheduled. -/
  active : Bool
  waketime : BitVec 32
  interval : BitVec 32
  add : BitVec 16
  count : BitVec 32
  nextStepTime : BitVec 32
  stepPulseTicks : BitVec 32
  position : BitVec 32
  mq : List StepperMove
  /-- Whether `stop_signal.func` is set. -/
  stopSignal : Bool
  lastDir : Bool
  nextDir : Bool
  invertStep : Bool
  needReset : Bool
  singleSched : Bool
  haveAdd : Bool
  stepPin : Bool
  dirPin : Bool
  /-- How many times the timer toggled the step pin. -/
  edges : ℕ
  deriving DecidableEq, Repr

namespace Stepper

variable (board : StepperBoard) (s : Stepper)

/-! ## Step events -/

/-- `gpio_out_toggle_noirq(s->step_pin)` in a step event. -/
def toggleStep : Stepper :=
  { s with stepPin := !s.stepPin, edges := s.edges + 1 }

/-- `stepper_load_next`. The timer is done or rescheduled. -/
def loadNext : Stepper :=
  match s.mq with
  | [] => { s with active := false, count := 0 }
  | m :: mq =>
    let s := { s with
      active := true
      mq := mq
      add := m.add
      interval := m.interval + m.add.signExtend 32 }
    let s : Stepper :=
      if board.build.haveSingleSchedule && s.singleSched then
        { s with
          waketime := s.waketime + m.interval
          haveAdd := if board.build = .avr then decide (m.add ≠ 0) else s.haveAdd
          count := m.count.setWidth 32 }
      else
        { s with
          nextStepTime := s.nextStepTime + m.interval
          waketime := s.nextStepTime + m.interval
          count := m.count.setWidth 32 * 2 }
    if m.dir then
      { s with position := -s.position + m.count.setWidth 32, dirPin := !s.dirPin }
    else { s with position := s.position + m.count.setWidth 32 }

/-- `stepper_event_edge`. -/
def eventEdge : Stepper :=
  let s := s.toggleStep
  let count := s.count - 1
  if count ≠ 0 then
    { s with
      count := count
      waketime := s.waketime + s.interval
      interval := s.interval + s.add.signExtend 32 }
  else s.loadNext board

/-- `stepper_event_avr`, which counts in the low half of `count`. -/
def eventAvr : Stepper :=
  let s := s.toggleStep
  let count := s.count.setWidth 16 - 1
  if count ≠ 0 then
    let s := { s with
      count := (s.count >>> 16 <<< 16) ||| count.setWidth 32
      waketime := s.waketime + s.interval }.toggleStep
    { s with interval := if s.haveAdd then s.interval + s.add.signExtend 32 else s.interval }
  else (s.loadNext board).toggleStep

/-- `stepper_event_full` at the time `curtime`. -/
def eventFull (curtime : BitVec 32) : Option Stepper :=
  let s := s.toggleStep
  let minNextTime := curtime + s.stepPulseTicks
  let s := { s with count := s.count - 1 }
  if s.count &&& 1 ≠ 0 then some { s with waketime := minNextTime }
  else if s.count ≠ 0 then
    let s := { s with
      nextStepTime := s.nextStepTime + s.interval
      interval := s.interval + s.add.signExtend 32 }
    if timerIsBefore s.nextStepTime minNextTime then some { s with waketime := minNextTime }
    else some { s with waketime := s.nextStepTime }
  else
    let s := s.loadNext board
    if !s.active || !timerIsBefore s.waketime minNextTime then some s
    else if (s.waketime - minNextTime).slt (-board.timerFromUs1000) then none
    else some { s with waketime := minNextTime }

/-- The timer function of the stepper. -/
def event (curtime : BitVec 32) : Option Stepper :=
  if s.singleSched then
    match board.build with
    | .edge => some (s.eventEdge board)
    | .avr => some (s.eventAvr board)
    | .regular => s.eventFull board curtime
  else s.eventFull board curtime

/-! ## Commands -/

/-- `command_config_stepper`, with `invert_step` positive, negative or zero. -/
def config (invertStep : ℤ) (stepPulseTicks : BitVec 32) : Stepper where
  active := false
  waketime := 0
  interval := 0
  add := 0
  count := 0
  nextStepTime := 0
  stepPulseTicks := stepPulseTicks
  position := -0x40000000
  mq := []
  stopSignal := false
  lastDir := false
  nextDir := false
  invertStep := decide (0 < invertStep)
  needReset := false
  singleSched :=
    match board.build with
    | .edge => decide (stepPulseTicks = 0) && decide (invertStep < 0)
    | .avr => decide (stepPulseTicks ≤ 40)
    | .regular => false
  haveAdd := false
  stepPin := decide (0 < invertStep)
  dirPin := false
  edges := 0

/-- `command_queue_step`. -/
def queueStep (interval : BitVec 32) (count add : BitVec 16) : Option Stepper :=
  if count = 0 then none
  else
    let m : StepperMove := ⟨interval, add, count, s.lastDir != s.nextDir⟩
    let lastDir := s.nextDir
    if s.count ≠ 0 then some { s with lastDir := lastDir, mq := s.mq ++ [m] }
    else if s.needReset then some s
    else some ({ s with lastDir := lastDir, mq := s.mq ++ [m] }.loadNext board)

/-- `command_set_next_step_dir`. -/
def setNextStepDir (dir : Bool) : Stepper :=
  { s with nextDir := dir }

/-- `command_reset_step_clock`. -/
def resetStepClock (waketime : BitVec 32) : Option Stepper :=
  if s.count ≠ 0 then none
  else some { s with nextStepTime := waketime, waketime := waketime, needReset := false }

/-- `stepper_get_position`. -/
def getPosition : BitVec 32 :=
  let position :=
    if board.build.haveSingleSchedule && s.singleSched then s.position - s.count
    else s.position - s.count / 2
  if position.msb then -position else position

/-- `stepper_stop`. -/
def stop : Stepper :=
  { s with
    active := false
    nextStepTime := 0
    waketime := 0
    position := -s.getPosition board
    count := 0
    lastDir := false
    nextDir := false
    haveAdd := false
    needReset := true
    dirPin := false
    stepPin := if board.build = .edge && s.singleSched then s.stepPin else s.invertStep
    mq := [] }

/-! ## The stop signal -/

variable {board s}

@[simp] theorem stopSignal_toggleStep : s.toggleStep.stopSignal = s.stopSignal :=
  rfl

@[simp] theorem stopSignal_loadNext : (s.loadNext board).stopSignal = s.stopSignal := by
  unfold loadNext
  cases s.mq with
  | nil => rfl
  | cons m mq =>
    dsimp only
    split_ifs <;> rfl

theorem stopSignal_eventFull {curtime : BitVec 32} {t : Stepper}
    (h : s.eventFull board curtime = some t) : t.stopSignal = s.stopSignal := by
  unfold eventFull at h
  dsimp only at h
  split_ifs at h
  all_goals
    cases h
    simp

/-- A step event does not touch the stop signal. -/
theorem stopSignal_event {curtime : BitVec 32} {t : Stepper}
    (h : s.event board curtime = some t) : t.stopSignal = s.stopSignal := by
  have hedge : (s.eventEdge board).stopSignal = s.stopSignal := by
    unfold eventEdge
    dsimp only
    split_ifs <;> simp
  have havr : (s.eventAvr board).stopSignal = s.stopSignal := by
    unfold eventAvr
    dsimp only
    split_ifs <;> simp
  unfold event at h
  by_cases hsingle : s.singleSched = true
  · rw [if_pos hsingle] at h
    cases hbuild : board.build with
    | edge =>
      rw [hbuild] at h
      rw [← Option.some_inj.1 h]
      exact hedge
    | avr =>
      rw [hbuild] at h
      rw [← Option.some_inj.1 h]
      exact havr
    | regular =>
      rw [hbuild] at h
      exact stopSignal_eventFull h
  · rw [if_neg hsingle] at h
    exact stopSignal_eventFull h

theorem stopSignal_queueStep {interval : BitVec 32} {count add : BitVec 16} {t : Stepper}
    (h : s.queueStep board interval count add = some t) : t.stopSignal = s.stopSignal := by
  unfold queueStep at h
  dsimp only at h
  split_ifs at h
  all_goals
    cases h
    simp

/-! ## A stopped stepper -/

/-- Nothing is scheduled or queued, and nothing will be before the step clock is reset. -/
structure Stopped (s : Stepper) : Prop where
  active : s.active = false
  count : s.count = 0
  mq : s.mq = []
  needReset : s.needReset = true

theorem stopped_stop : (s.stop board).Stopped :=
  ⟨rfl, rfl, rfl, rfl⟩

/-- The position survives a stop : it is at most the bias of the reverse direction. -/
theorem getPosition_stop : (s.stop board).getPosition board = s.getPosition board := by
  have habs : ∀ p : BitVec 32, (if (-(if p.msb then -p else p)).msb = true
      then - -(if p.msb then -p else p) else -(if p.msb then -p else p)) =
      if p.msb then -p else p := by
    intro p
    have hmsb : ∀ q : BitVec 32, q.msb = decide (2 ^ 31 ≤ q.toNat) := fun q =>
      BitVec.msb_eq_decide q
    by_cases hp : p.msb = true
    · rw [if_pos hp, BitVec.neg_neg, if_pos hp]
    · rw [if_neg hp]
      split_ifs with hneg
      · exact BitVec.neg_neg
      · rw [hmsb] at hp hneg
        rw [decide_eq_true_iff] at hp hneg
        bv_omega
  unfold getPosition stop
  dsimp only
  have hzero : ∀ p : BitVec 32, (if (board.build.haveSingleSchedule && s.singleSched) = true
      then p - 0 else p - 0 / 2) = p := by
    intro p
    rw [show (0 : BitVec 32) / 2 = 0 from rfl, ite_self]
    exact BitVec.sub_zero p
  rw [hzero]
  exact habs _

/-- A stopped stepper takes no move. -/
theorem Stopped.queueStep (h : s.Stopped) {interval : BitVec 32} {count add : BitVec 16}
    {t : Stepper} (ht : s.queueStep board interval count add = some t) : t = s := by
  unfold Stepper.queueStep at ht
  by_cases hcount : count = 0
  · rw [if_pos hcount] at ht
    cases ht
  · rw [if_neg hcount] at ht
    dsimp only at ht
    rw [if_neg (not_not.2 h.count), if_pos h.needReset] at ht
    exact (Option.some_inj.1 ht).symm

end Stepper

end Thinker
