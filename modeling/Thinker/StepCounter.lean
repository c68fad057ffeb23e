import Thinker.Stepper
import Thinker.Transition

/-!
# The step counter

`stepper_load_next` adds all steps of a move to the position at once, and turns the sign of the
position with the direction pin : the counter is the net number of steps above `POSITION_BIAS`
while the pin is set, and its negative while the pin is clear (`counterAt`). What is left of the
move is subtracted when the position is asked for (`remaining`), so between the two the counter
follows the edges of the step pin (`Counted`), and the position that is reported is the net number
of steps that were emitted (`getPosition_eq`).
-/

namespace Thinker

namespace Stepper

variable (board : StepperBoard) (s : Stepper)

/-! ## Emitted steps -/

/-- Whether the next timer event emits a step : an edge away from the idle level of the pin, or
any edge where the driver steps on both. -/
def stepsNext : Bool :=
  (board.build.haveSingleSchedule && s.singleSched) || s.stepPin == s.invertStep

/-- The steps of a move that are not taken yet, as `stepper_get_position` subtracts them. -/
def remaining : BitVec 32 :=
  if board.build.haveSingleSchedule && s.singleSched then s.count else s.count / 2

end Stepper

/-- What happens to a stepper. -/
inductive StepperEvent where
  | queueStep (interval : BitVec 32) (count add : BitVec 16)
  | setNextStepDir (dir : Bool)
  | resetStepClock (waketime : BitVec 32)
  /-- The timer runs at a time. -/
  | timer (curtime : BitVec 32)
  | stop
  deriving DecidableEq, Repr

/-- A stepper with the steps that were emitted while its direction pin was set and clear. -/
structure StepCounter where
  stepper : Stepper
  forward : ℕ
  backward : ℕ
  deriving DecidableEq, Repr

namespace StepCounter

/-- The net number of steps. -/
def net (r : StepCounter) : ℤ :=
  r.forward - r.backward

/-- Count the step that the next timer event emits. -/
def countStep (board : StepperBoard) (r : StepCounter) : StepCounter :=
  if r.stepper.stepsNext board then
    if r.stepper.dirPin then { r with forward := r.forward + 1 }
    else { r with backward := r.backward + 1 }
  else r

/-- The stepper after an event, unless the event shuts down. -/
def next (board : StepperBoard) (r : StepCounter) : StepperEvent → Option StepCounter
  | .queueStep interval count add =>
    (r.stepper.queueStep board interval count add).map fun s => { r with stepper := s }
  | .setNextStepDir dir => some { r with stepper := r.stepper.setNextStepDir dir }
  | .resetStepClock waketime =>
    (r.stepper.resetStepClock waketime).map fun s => { r with stepper := s }
  | .timer curtime =>
    if r.stepper.active then
      (r.stepper.event board curtime).map fun s => { r.countStep board with stepper := s }
    else none
  | .stop => some { r with stepper := r.stepper.stop board }

/-- A stepper from its configuration on. -/
def system (board : StepperBoard) (invertStep : ℤ) (stepPulseTicks : BitVec 32) :
    System StepCounter StepperEvent where
  init r := r = ⟨Stepper.config board invertStep stepPulseTicks, 0, 0⟩
  next := next board

/-! ## The counter of a direction -/

/-- The position for a net number of steps, with the sign of the direction. -/
def counterAt (dir : Bool) (net : ℤ) : BitVec 32 :=
  if dir then BitVec.ofInt 32 (2 ^ 30 + net) else -BitVec.ofInt 32 (2 ^ 30 + net)

theorem counterAt_not (dir : Bool) (net : ℤ) : counterAt (!dir) net = -counterAt dir net := by
  cases dir with
  | false => exact (BitVec.neg_neg).symm
  | true => rfl

/-- A step adds one to the counter in either direction. -/
theorem counterAt_step (dir : Bool) (net : ℤ) :
    counterAt dir (if dir then net + 1 else net - 1) = counterAt dir net + 1 := by
  have hone : ∀ x : ℤ, BitVec.ofInt 32 (x + 1) = BitVec.ofInt 32 x + 1 := fun x =>
    BitVec.ofInt_add x 1
  cases dir with
  | false =>
    have h := hone (2 ^ 30 + (net - 1))
    rw [show 2 ^ 30 + (net - 1) + 1 = 2 ^ 30 + net by ring] at h
    simp only [counterAt, Bool.false_eq_true, if_false, h]
    bv_omega
  | true =>
    simp only [counterAt, if_true]
    rw [← hone, add_assoc]

/-- Among fewer than `POSITION_BIAS` steps the top bit of the counter is the direction. -/
theorem counterAt_abs {dir : Bool} {net : ℤ} (h : |net| < 2 ^ 30) :
    (if (counterAt dir net).msb then -counterAt dir net else counterAt dir net) =
      BitVec.ofInt 32 (2 ^ 30 + net) := by
  obtain ⟨hlow, hhigh⟩ := abs_lt.1 h
  have htoNat : ((BitVec.ofInt 32 (2 ^ 30 + net)).toNat : ℤ) = 2 ^ 30 + net := by
    rw [BitVec.toNat_ofInt]
    omega
  cases dir with
  | false =>
    simp only [counterAt, Bool.false_eq_true, if_false]
    rw [if_pos, BitVec.neg_neg]
    rw [BitVec.msb_eq_decide, decide_eq_true_iff, BitVec.toNat_neg]
    omega
  | true =>
    simp only [counterAt, if_true]
    rw [if_neg]
    rw [BitVec.msb_eq_decide, decide_eq_true_iff]
    omega

end StepCounter

/-! ## Halves of the count -/

theorem toNat_land_one (c : BitVec 32) : c &&& 1 = 0 ↔ c.toNat % 2 = 0 := by
  rw [← BitVec.toNat_inj, BitVec.toNat_and]
  exact Eq.congr (Nat.and_one_is_mod _) rfl

theorem toNat_half (c : BitVec 32) : (c / 2).toNat = c.toNat / 2 :=
  BitVec.toNat_udiv

/-- The unstep event leaves the number of steps. -/
theorem half_pred_odd {c : BitVec 32} (h : ¬ c &&& 1 = 0) : (c - 1) / 2 = c / 2 := by
  rw [toNat_land_one] at h
  have hpred : (c - 1).toNat = c.toNat - 1 := by bv_omega
  apply BitVec.eq_of_toNat_eq
  rw [toNat_half, toNat_half, hpred]
  omega

/-- The step event takes one step. -/
theorem half_pred_even {c : BitVec 32} (h : c &&& 1 = 0) (hc : c ≠ 0) :
    (c - 1) / 2 = c / 2 - 1 := by
  rw [toNat_land_one] at h
  have hpos : c.toNat ≠ 0 := fun hz => hc (BitVec.eq_of_toNat_eq hz)
  have hpred : (c - 1).toNat = c.toNat - 1 := by bv_omega
  have hhalf := toNat_half c
  have hsub : (c / 2 - 1).toNat = (c / 2).toNat - 1 := by
    generalize c / 2 = q at hhalf ⊢
    bv_omega
  apply BitVec.eq_of_toNat_eq
  rw [toNat_half, hsub, hhalf, hpred]
  omega

/-- The parity turns with each event. -/
theorem land_one_pred (c : BitVec 32) : (c - 1) &&& 1 = 0 ↔ ¬ c &&& 1 = 0 := by
  rw [toNat_land_one, toNat_land_one]
  bv_omega

/-- A doubled count is even, and its half is the count. -/
theorem half_double (c : BitVec 16) : c.setWidth 32 * 2 / 2 = c.setWidth 32 := by
  have hlt := c.isLt
  apply BitVec.eq_of_toNat_eq
  rw [toNat_half]
  bv_omega

theorem land_one_double (c : BitVec 16) : c.setWidth 32 * 2 &&& 1 = 0 := by
  rw [toNat_land_one]
  bv_omega

theorem double_ne_zero {c : BitVec 16} (h : c ≠ 0) : c.setWidth 32 * 2 ≠ 0 := by
  have hlt := c.isLt
  bv_omega

/-- The low half of a small count is the count. -/
theorem setWidth_pred {c : BitVec 32} (hc : c ≠ 0) (h : c.toNat < 2 ^ 16) :
    (c.setWidth 16 - 1).setWidth 32 = c - 1 := by
  bv_omega

theorem shiftRight_low {c : BitVec 32} (h : c.toNat < 2 ^ 16) : c >>> 16 <<< 16 = 0 := by
  have hshift : c >>> 16 = 0 := by
    apply BitVec.eq_of_toNat_eq
    rw [BitVec.toNat_ushiftRight, Nat.shiftRight_eq_div_pow, Nat.div_eq_of_lt h]
    rfl
  rw [hshift]
  rfl

theorem setWidth_ne_zero {c : BitVec 16} (h : c ≠ 0) : c.setWidth 32 ≠ 0 := by
  bv_omega

/-! ## The counter follows the pin -/

namespace Stepper

open StepCounter

variable {board : StepperBoard} {s t : Stepper} {net : ℤ}

/-- The position without the steps that are left is the counter of the steps emitted so far, and
the step pin is at its idle level whenever a whole number of steps is left. -/
structure Counted (board : StepperBoard) (s : Stepper) (net : ℤ) : Prop where
  position_eq : s.position - s.remaining board = counterAt s.dirPin net
  idle : (board.build.haveSingleSchedule && s.singleSched) = false →
    (s.count &&& 1 = 0 ↔ s.stepPin = s.invertStep)
  count_ne_zero : s.active = true → s.count ≠ 0
  count_lt : (board.build.haveSingleSchedule && s.singleSched) = true → s.count.toNat < 2 ^ 16
  queued : ∀ m ∈ s.mq, m.count ≠ 0

/-- The net number of steps after the next timer event. -/
def netNext (board : StepperBoard) (s : Stepper) (net : ℤ) : ℤ :=
  if s.stepsNext board then if s.dirPin then net + 1 else net - 1 else net

theorem counted_single (h : (board.build.haveSingleSchedule && s.singleSched) = true)
    (hposition : s.position - s.count = counterAt s.dirPin net) (hcount : s.count ≠ 0)
    (hlow : s.count.toNat < 2 ^ 16) (hqueued : ∀ m ∈ s.mq, m.count ≠ 0) : Counted board s net where
  position_eq := by
    unfold remaining
    rw [if_pos h]
    exact hposition
  idle h' := absurd (h'.symm.trans h) Bool.false_ne_true
  count_ne_zero _ := hcount
  count_lt _ := hlow
  queued := hqueued

theorem counted_double (h : (board.build.haveSingleSchedule && s.singleSched) = false)
    (hposition : s.position - s.count / 2 = counterAt s.dirPin net)
    (hidle : s.count &&& 1 = 0 ↔ s.stepPin = s.invertStep) (hcount : s.count ≠ 0)
    (hqueued : ∀ m ∈ s.mq, m.count ≠ 0) : Counted board s net where
  position_eq := by
    unfold remaining
    rw [if_neg (Bool.eq_false_iff.1 h)]
    exact hposition
  idle _ := hidle
  count_ne_zero _ := hcount
  count_lt h' := absurd (h.symm.trans h') Bool.false_ne_true
  queued := hqueued

theorem remaining_zero (h : s.count = 0) : s.remaining board = 0 := by
  unfold remaining
  rw [h]
  exact ite_self _

/-- A stepper without steps. -/
theorem counted_zero (hcount : s.count = 0) (hactive : s.active = false)
    (hposition : s.position = counterAt s.dirPin net)
    (hidle : (board.build.haveSingleSchedule && s.singleSched) = false → s.stepPin = s.invertStep)
    (hqueued : ∀ m ∈ s.mq, m.count ≠ 0) : Counted board s net where
  position_eq := by
    rw [remaining_zero hcount]
    exact (BitVec.sub_zero _).trans hposition
  idle h := by
    rw [hcount]
    exact iff_of_true rfl (hidle h)
  count_ne_zero h := absurd (hactive.symm.trans h) Bool.false_ne_true
  count_lt _ := by
    rw [hcount]
    show (0 : ℕ) < 2 ^ 16
    norm_num
  queued := hqueued

theorem counted_config (invertStep : ℤ) (stepPulseTicks : BitVec 32) :
    Counted board (config board invertStep stepPulseTicks) 0 :=
  counted_zero rfl rfl (show (-0x40000000 : BitVec 32) = counterAt false 0 by decide) (fun _ => rfl)
    fun _ h => absurd h List.not_mem_nil

theorem singleSched_loadNext : (s.loadNext board).singleSched = s.singleSched := by
  unfold loadNext
  cases s.mq with
  | nil => rfl
  | cons m mq =>
    dsimp only
    split_ifs <;> rfl

/-- A stepper that has taken all its steps goes on with the next move. -/
theorem counted_loadNext (hposition : s.position = counterAt s.dirPin net)
    (hidle : (board.build.haveSingleSchedule && s.singleSched) = false → s.stepPin = s.invertStep)
    (hqueued : ∀ m ∈ s.mq, m.count ≠ 0) : Counted board (s.loadNext board) net := by
  unfold loadNext
  cases hmq : s.mq with
  | nil => exact counted_zero rfl rfl hposition hidle fun _ h => absurd h List.not_mem_nil
  | cons m mq =>
    have hm : m.count ≠ 0 := hqueued m (hmq ▸ List.mem_cons_self)
    have hmoves : ∀ x ∈ mq, x.count ≠ 0 := fun x hx =>
      hqueued x (hmq ▸ List.mem_cons_of_mem m hx)
    have hlow : (m.count.setWidth 32).toNat < 2 ^ 16 := by
      have hlt := m.count.isLt
      rw [BitVec.toNat_setWidth]
      omega
    have hturn : -s.position = counterAt (!s.dirPin) net := by
      rw [hposition, counterAt_not]
    have hadd : ∀ p c : BitVec 32, p + c - c = p := BitVec.add_sub_cancel
    dsimp only
    cases hsingle : board.build.haveSingleSchedule && s.singleSched with
    | true =>
      cases m.dir with
      | true => exact counted_single hsingle ((hadd _ _).trans hturn) (setWidth_ne_zero hm) hlow hmoves
      | false =>
        exact counted_single hsingle ((hadd _ _).trans hposition) (setWidth_ne_zero hm) hlow hmoves
    | false =>
      have hhalf : ∀ p : BitVec 32,
          p + m.count.setWidth 32 - m.count.setWidth 32 * 2 / 2 = p := fun p => by
        rw [half_double, hadd]
      have hpin : m.count.setWidth 32 * 2 &&& 1 = 0 ↔ s.stepPin = s.invertStep :=
        iff_of_true (land_one_double _) (hidle hsingle)
      cases m.dir with
      | true => exact counted_double hsingle ((hhalf _).trans hturn) hpin (double_ne_zero hm) hmoves
      | false =>
        exact counted_double hsingle ((hhalf _).trans hposition) hpin (double_ne_zero hm) hmoves

theorem counterAt_netNext (h : s.stepsNext board = true) :
    counterAt s.dirPin (s.netNext board net) = counterAt s.dirPin net + 1 := by
  unfold netNext
  rw [if_pos h]
  exact counterAt_step _ _

/-- A step in the middle of a move, where the driver steps on each edge. -/
theorem Counted.position_pred (h : Counted board s net)
    (hsingle : (board.build.haveSingleSchedule && s.singleSched) = true) :
    s.position - (s.count - 1) = counterAt s.dirPin (s.netNext board net) := by
  have hposition := h.position_eq
  unfold remaining at hposition
  rw [if_pos hsingle] at hposition
  have hsteps : s.stepsNext board = true := by
    unfold stepsNext
    rw [hsingle, Bool.true_or]
  rw [counterAt_netNext hsteps, ← hposition]
  bv_omega

theorem counted_eventEdge (h : Counted board s net)
    (hsingle : (board.build.haveSingleSchedule && s.singleSched) = true) (hactive : s.active = true) :
    Counted board (s.eventEdge board) (s.netNext board net) := by
  have hposition := h.position_pred hsingle
  have hlow := h.count_lt hsingle
  have hcount := h.count_ne_zero hactive
  unfold eventEdge
  dsimp only
  by_cases hlast : s.toggleStep.count - 1 ≠ 0
  · rw [if_pos hlast]
    refine counted_single hsingle hposition hlast ?_ h.queued
    show (s.count - 1).toNat < 2 ^ 16
    bv_omega
  · rw [if_neg hlast]
    have hzero : s.count - 1 = 0 := not_not.1 hlast
    rw [hzero] at hposition
    refine counted_loadNext ((BitVec.sub_zero _).symm.trans hposition) (fun h' => ?_) h.queued
    exact absurd (h'.symm.trans hsingle) Bool.false_ne_true

theorem counted_eventAvr (h : Counted board s net)
    (hsingle : (board.build.haveSingleSchedule && s.singleSched) = true) (hactive : s.active = true) :
    Counted board (s.eventAvr board) (s.netNext board net) := by
  have hposition := h.position_pred hsingle
  have hlow := h.count_lt hsingle
  have hcount := h.count_ne_zero hactive
  have hpred := setWidth_pred hcount hlow
  unfold eventAvr
  dsimp only
  by_cases hlast : s.toggleStep.count.setWidth 16 - 1 ≠ 0
  · rw [if_pos hlast]
    have hnext : (s.count >>> 16 <<< 16) ||| (s.count.setWidth 16 - 1).setWidth 32 =
        s.count - 1 := by
      rw [shiftRight_low hlow, hpred]
      exact BitVec.zero_or
    have hne : s.count - 1 ≠ 0 := by
      rw [← hpred]
      exact setWidth_ne_zero hlast
    refine counted_single hsingle ?_ ?_ ?_ h.queued
    · exact (congrArg (s.position - ·) hnext).trans hposition
    · exact hnext.trans_ne hne
    · refine (congrArg BitVec.toNat hnext).trans_lt ?_
      bv_omega
  · rw [if_neg hlast]
    have hzero : s.count - 1 = 0 := by
      have hlast : s.count.setWidth 16 - 1 = 0 := not_not.1 hlast
      rw [← hpred, hlast]
      rfl
    rw [hzero] at hposition
    have hload : Counted board (s.toggleStep.loadNext board) (s.netNext board net) := by
      refine counted_loadNext ((BitVec.sub_zero _).symm.trans hposition) (fun h' => ?_) h.queued
      exact absurd (h'.symm.trans hsingle) Bool.false_ne_true
    have hkeep : (board.build.haveSingleSchedule &&
        (s.toggleStep.loadNext board).toggleStep.singleSched) = true :=
      (congrArg (board.build.haveSingleSchedule && ·) singleSched_loadNext).trans hsingle
    exact ⟨hload.position_eq, fun h' => absurd (h'.symm.trans hkeep) Bool.false_ne_true,
      hload.count_ne_zero, hload.count_lt, hload.queued⟩

/-- Half of the events of the double schedule are steps. -/
theorem Counted.position_half (h : Counted board s net)
    (hdouble : (board.build.haveSingleSchedule && s.singleSched) = false) (hcount : s.count ≠ 0) :
    s.position - (s.count - 1) / 2 = counterAt s.dirPin (s.netNext board net) := by
  have hposition := h.position_eq
  unfold remaining at hposition
  rw [if_neg (Bool.eq_false_iff.1 hdouble)] at hposition
  by_cases heven : s.count &&& 1 = 0
  · have hsteps : s.stepsNext board = true := by
      unfold stepsNext
      rw [hdouble, Bool.false_or, (h.idle hdouble).1 heven]
      exact beq_self_eq_true _
    rw [half_pred_even heven hcount, counterAt_netNext hsteps, ← hposition]
    generalize s.count / 2 = q
    bv_omega
  · have hsteps : ¬ s.stepsNext board = true := by
      unfold stepsNext
      rw [hdouble, Bool.false_or, beq_iff_eq]
      exact fun heq => heven ((h.idle hdouble).2 heq)
    unfold netNext
    rw [half_pred_odd heven, if_neg hsteps]
    exact hposition

theorem counted_eventFull (h : Counted board s net)
    (hdouble : (board.build.haveSingleSchedule && s.singleSched) = false) (hactive : s.active = true)
    {curtime : BitVec 32} (ht : s.eventFull board curtime = some t) :
    Counted board t (s.netNext board net) := by
  have hcount := h.count_ne_zero hactive
  have hposition := h.position_half hdouble hcount
  -- the pin leaves its level whenever the parity of the count turns
  have hidle : s.count - 1 &&& 1 = 0 ↔ (!s.stepPin) = s.invertStep := by
    rw [land_one_pred, h.idle hdouble]
    cases s.stepPin <;> cases s.invertStep <;> decide
  unfold eventFull at ht
  dsimp only at ht
  by_cases hodd : s.count - 1 &&& 1 ≠ 0
  · rw [if_pos (show s.toggleStep.count - 1 &&& 1 ≠ 0 from hodd)] at ht
    obtain rfl := Option.some_inj.1 ht
    refine counted_double hdouble hposition hidle (fun hzero => hodd ?_) h.queued
    have hzero : s.count - 1 = 0 := hzero
    rw [hzero]
    rfl
  · rw [if_neg (show ¬ s.toggleStep.count - 1 &&& 1 ≠ 0 from hodd)] at ht
    by_cases hmore : s.count - 1 ≠ 0
    · rw [if_pos (show s.toggleStep.count - 1 ≠ 0 from hmore)] at ht
      split_ifs at ht
      all_goals
        obtain rfl := Option.some_inj.1 ht
        exact counted_double hdouble hposition hidle hmore h.queued
    · rw [if_neg (show ¬ s.toggleStep.count - 1 ≠ 0 from hmore)] at ht
      have hzero : s.count - 1 = 0 := not_not.1 hmore
      have hload : Counted board ({ s.toggleStep with count := s.toggleStep.count - 1 }.loadNext
          board) (s.netNext board net) := by
        rw [hzero] at hposition
        refine counted_loadNext ((BitVec.sub_zero _).symm.trans hposition) (fun _ => ?_) h.queued
        exact hidle.1 (not_not.1 hodd)
      split_ifs at ht
      · obtain rfl := Option.some_inj.1 ht
        exact hload
      · obtain rfl := Option.some_inj.1 ht
        exact ⟨hload.position_eq, hload.idle, hload.count_ne_zero, hload.count_lt, hload.queued⟩

/-- A timer event takes the steps that it emits. -/
theorem Counted.event (h : Counted board s net) (hactive : s.active = true) {curtime : BitVec 32}
    (ht : s.event board curtime = some t) : Counted board t (s.netNext board net) := by
  unfold Stepper.event at ht
  cases hsched : s.singleSched with
  | false =>
    rw [hsched, if_neg Bool.false_ne_true] at ht
    exact counted_eventFull h (by rw [hsched, Bool.and_false]) hactive ht
  | true =>
    rw [hsched, if_pos rfl] at ht
    cases hbuild : board.build with
    | edge =>
      rw [hbuild] at ht
      obtain rfl := Option.some_inj.1 ht
      exact counted_eventEdge h (by rw [hsched, hbuild]; rfl) hactive
    | avr =>
      rw [hbuild] at ht
      obtain rfl := Option.some_inj.1 ht
      exact counted_eventAvr h (by rw [hsched, hbuild]; rfl) hactive
    | regular =>
      rw [hbuild] at ht
      exact counted_eventFull h (by rw [hsched, hbuild]; rfl) hactive ht

/-! ## Commands and stops -/

theorem Counted.queueStep (h : Counted board s net) {interval : BitVec 32} {count add : BitVec 16}
    (ht : s.queueStep board interval count add = some t) : Counted board t net := by
  unfold Stepper.queueStep at ht
  by_cases hzero : count = 0
  · rw [if_pos hzero] at ht
    cases ht
  rw [if_neg hzero] at ht
  dsimp only at ht
  have hqueued : ∀ m ∈ s.mq ++ [⟨interval, add, count, s.lastDir != s.nextDir⟩], m.count ≠ 0 := by
    intro m hm
    rcases List.mem_append.1 hm with hm | hm
    · exact h.queued m hm
    · rw [List.mem_singleton.1 hm]
      exact hzero
  by_cases hcount : s.count ≠ 0
  · rw [if_pos hcount] at ht
    obtain rfl := Option.some_inj.1 ht
    exact ⟨h.position_eq, h.idle, h.count_ne_zero, h.count_lt, hqueued⟩
  rw [if_neg hcount] at ht
  by_cases hreset : s.needReset = true
  · rw [if_pos hreset] at ht
    obtain rfl := Option.some_inj.1 ht
    exact h
  rw [if_neg hreset] at ht
  obtain rfl := Option.some_inj.1 ht
  have hcount : s.count = 0 := not_not.1 hcount
  have hposition := h.position_eq
  rw [remaining_zero hcount] at hposition
  refine counted_loadNext ((BitVec.sub_zero _).symm.trans hposition) (fun hdouble => ?_) hqueued
  refine (h.idle hdouble).1 ?_
  rw [hcount]
  rfl

theorem Counted.resetStepClock (h : Counted board s net) {waketime : BitVec 32}
    (ht : s.resetStepClock waketime = some t) : Counted board t net := by
  unfold Stepper.resetStepClock at ht
  split_ifs at ht
  obtain rfl := Option.some_inj.1 ht
  exact ⟨h.position_eq, h.idle, h.count_ne_zero, h.count_lt, h.queued⟩

/-- The counter without its sign is the net number of steps above the bias. -/
theorem Counted.getPosition (h : Counted board s net) (hnet : |net| < 2 ^ 30) :
    s.getPosition board = BitVec.ofInt 32 (2 ^ 30 + net) := by
  have hposition := h.position_eq
  rw [← counterAt_abs hnet, ← hposition]
  unfold Stepper.getPosition remaining
  cases board.build.haveSingleSchedule && s.singleSched with
  | true => rfl
  | false => rfl

theorem Counted.stop (h : Counted board s net) (hnet : |net| < 2 ^ 30) :
    Counted board (s.stop board) net := by
  refine counted_zero rfl rfl ?_ (fun hdouble => ?_) fun _ hm => absurd hm List.not_mem_nil
  · exact congrArg Neg.neg (h.getPosition hnet)
  · have hpin : (s.stop board).stepPin = s.invertStep := by
      unfold Stepper.stop
      refine if_neg fun hedge => ?_
      rw [Bool.and_eq_true, decide_eq_true_iff] at hedge
      have hdouble : (board.build.haveSingleSchedule && s.singleSched) = false := hdouble
      rw [hedge.1, hedge.2] at hdouble
      exact Bool.noConfusion hdouble
    exact hpin

end Stepper

namespace StepCounter

variable {board : StepperBoard} {invertStep : ℤ} {stepPulseTicks : BitVec 32} {r u : StepCounter}

theorem net_countStep : (r.countStep board).net = r.stepper.netNext board r.net := by
  unfold countStep Stepper.netNext net
  split_ifs
  · push_cast
    ring
  · push_cast
    ring
  · rfl

/-- Each event keeps the counter in step with the pin. -/
theorem counted_next (h : Stepper.Counted board r.stepper r.net) (hnet : |r.net| < 2 ^ 30)
    {e : StepperEvent} (hu : next board r e = some u) : Stepper.Counted board u.stepper u.net := by
  cases e with
  | queueStep interval count add =>
    obtain ⟨t, ht, rfl⟩ := Option.map_eq_some_iff.1 hu
    exact h.queueStep ht
  | setNextStepDir dir =>
    obtain rfl := Option.some_inj.1 hu
    exact ⟨h.position_eq, h.idle, h.count_ne_zero, h.count_lt, h.queued⟩
  | resetStepClock waketime =>
    obtain ⟨t, ht, rfl⟩ := Option.map_eq_some_iff.1 hu
    exact h.resetStepClock ht
  | timer curtime =>
    simp only [next] at hu
    split_ifs at hu with hactive
    obtain ⟨t, ht, rfl⟩ := Option.map_eq_some_iff.1 hu
    exact net_countStep (r := r) ▸ h.event hactive ht
  | stop =>
    obtain rfl := Option.some_inj.1 hu
    exact h.stop hnet

/-- At every moment of a run the position that is reported is the net number of steps that were
emitted. -/
theorem getPosition_eq
    (h : (system board invertStep stepPulseTicks).ReachableBy (fun r _ => |r.net| < 2 ^ 30) r)
    (hnet : |r.net| < 2 ^ 30) :
    r.stepper.getPosition board - 0x40000000 = BitVec.ofInt 32 r.net := by
  have hcounted : Stepper.Counted board r.stepper r.net := by
    refine h.invariant (fun r hr => ?_) fun r e u hr hC hu => counted_next hr hC hu
    have hr : r = _ := hr
    rw [hr]
    exact Stepper.counted_config invertStep stepPulseTicks
  rw [hcounted.getPosition hnet, BitVec.ofInt_add]
  exact (BitVec.add_comm _ _).symm ▸ BitVec.add_sub_cancel _ _

/-- Two steps forward, and a stop in the middle of a move of three steps backward. -/
def turnEvents : List StepperEvent :=
  [.setNextStepDir true, .queueStep 100 2 0, .setNextStepDir false, .queueStep 100 3 0, .timer 100,
    .timer 110, .timer 200, .timer 210, .timer 300, .stop]

/-- After the stop the net number of steps is one. -/
theorem getPosition_turnEvents :
    ∃ r, (system ⟨.regular, 1000⟩ 0 2).run ⟨Stepper.config ⟨.regular, 1000⟩ 0 2, 0, 0⟩ turnEvents =
      some r ∧ r.stepper.getPosition ⟨.regular, 1000⟩ - 0x40000000 = 1 := by
  have hrun : (((system ⟨.regular, 1000⟩ 0 2).run ⟨Stepper.config ⟨.regular, 1000⟩ 0 2, 0, 0⟩
      turnEvents).map net) = some 1 := by
    decide +kernel
  obtain ⟨r, hr, hnet⟩ := Option.map_eq_some_iff.1 hrun
  have hreach : (system ⟨.regular, 1000⟩ 0 2).ReachableBy (fun r _ => |r.net| < 2 ^ 30) r :=
    (System.ReachableBy.init rfl).run (by decide +kernel) hr
  refine ⟨r, hr, ?_⟩
  rw [getPosition_eq hreach (by rw [hnet]; norm_num), hnet]
  rfl

end StepCounter

end Thinker
