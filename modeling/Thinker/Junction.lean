import Thinker.Move

/-!
# Junctions of moves

`calc_junction` bounds the speed at which one move may follow another, and `set_junction`
plans a move once its speeds are known. Speeds are squared.

`Follows` is what the planner uses of `calc_junction` : the bounds of a move are in reach of
the move before it. `Junction.Fits` is what makes the three phases of a planned move
possible, so that all their distances and times are nonnegative and no divisor is zero.
-/

set_option linter.unusedSectionVars false

namespace Thinker

variable {K : Type*} [Field K] [LinearOrder K] [IsStrictOrderedRing K]

/-- What the code relies on of `math.sqrt` in exact arithmetic. -/
structure IsSqrt (sqrt : K → K) : Prop where
  nonneg : ∀ x, 0 ≤ x → 0 ≤ sqrt x
  mul_self : ∀ x, 0 ≤ x → sqrt x * sqrt x = x

namespace IsSqrt

variable {sqrt : K → K} (h : IsSqrt sqrt) {x : K}

include h

theorem pos (hx : 0 < x) : 0 < sqrt x := by
  refine (h.nonneg x hx.le).lt_of_ne fun h0 => hx.ne ?_
  rw [← h.mul_self x hx.le, ← h0, zero_mul]

theorem lt_one (hx : 0 ≤ x) (hx1 : x < 1) : sqrt x < 1 := by
  by_contra hge
  have h1 : 1 ≤ sqrt x := not_lt.1 hge
  have := mul_le_mul h1 h1 zero_le_one (h.nonneg x hx)
  rw [h.mul_self x hx, one_mul] at this
  exact not_lt.2 this hx1

end IsSqrt

namespace Move

/-- `calc_junction`, with the bound that the extruder gives. -/
def calcJunction (sqrt : K → K) (extruderV2 : K) (prev m : Move K) : Move K :=
  if !m.isKinematicMove || !prev.isKinematicMove then m
  else
    let junctionCosTheta := -(m.axesR 0 * prev.axesR 0 + m.axesR 1 * prev.axesR 1 +
      m.axesR 2 * prev.axesR 2)
    if junctionCosTheta > 0.999999 then m
    else
      let junctionCosTheta := max junctionCosTheta (-0.999999)
      let sinThetaD2 := sqrt (0.5 * (1 - junctionCosTheta))
      let rJd := sinThetaD2 / (1 - sinThetaD2)
      let tanThetaD2 := sinThetaD2 / sqrt (0.5 * (1 + junctionCosTheta))
      let moveCentripetalV2 := 0.5 * m.moveD * tanThetaD2 * m.accel
      let prevMoveCentripetalV2 := 0.5 * prev.moveD * tanThetaD2 * prev.accel
      let maxStartV2 := min (rJd * m.junctionDeviation * m.accel) <|
        min (rJd * prev.junctionDeviation * prev.accel) <|
        min moveCentripetalV2 <| min prevMoveCentripetalV2 <| min extruderV2 <|
        min m.maxCruiseV2 <| min prev.maxCruiseV2 (prev.maxStartV2 + prev.deltaV2)
      { m with
        maxStartV2 := maxStartV2
        maxSmoothedV2 := min maxStartV2 (prev.maxSmoothedV2 + prev.smoothDeltaV2) }

/-- The length, acceleration and speed of a move are positive. -/
structure Plannable (m : Move K) : Prop where
  moveD_pos : 0 < m.moveD
  accel_pos : 0 < m.accel
  junctionDeviation_nonneg : 0 ≤ m.junctionDeviation
  deltaV2_eq : m.deltaV2 = 2 * m.moveD * m.accel
  smoothDeltaV2_pos : 0 < m.smoothDeltaV2
  smoothDeltaV2_le : m.smoothDeltaV2 ≤ m.deltaV2
  maxCruiseV2_pos : 0 < m.maxCruiseV2

/-- A move as it is handed to the planner, before its junction is calculated. -/
structure Fresh (m : Move K) : Prop extends Plannable m where
  maxStartV2_eq : m.maxStartV2 = 0
  maxSmoothedV2_eq : m.maxSmoothedV2 = 0

/-- A move in the queue. -/
structure Sound (m : Move K) : Prop extends Plannable m where
  maxSmoothedV2_nonneg : 0 ≤ m.maxSmoothedV2
  maxSmoothedV2_le : m.maxSmoothedV2 ≤ m.maxStartV2
  maxStartV2_le : m.maxStartV2 ≤ m.maxCruiseV2

/-- The bounds at the start of the next move are in reach of this move, and the smoothed
bound is no lower than it needs to be. -/
structure Follows (m : Move K) (start smoothed : K) : Prop where
  start_le_cruise : start ≤ m.maxCruiseV2
  start_le : start ≤ m.maxStartV2 + m.deltaV2
  smoothed_le : smoothed ≤ m.maxSmoothedV2 + m.smoothDeltaV2
  smoothed_eq : smoothed = start ∨ smoothed = m.maxSmoothedV2 + m.smoothDeltaV2

variable {sqrt : K → K} {m prev : Move K} {extruderV2 : K}

theorem Plannable.deltaV2_pos (h : Plannable m) : 0 < m.deltaV2 :=
  h.smoothDeltaV2_pos.trans_le h.smoothDeltaV2_le

theorem Fresh.sound (h : Fresh m) : Sound m where
  toPlannable := h.toPlannable
  maxSmoothedV2_nonneg := h.maxSmoothedV2_eq.ge
  maxSmoothedV2_le := (h.maxSmoothedV2_eq.trans h.maxStartV2_eq.symm).le
  maxStartV2_le := h.maxStartV2_eq.trans_le h.maxCruiseV2_pos.le

theorem Sound.maxStartV2_nonneg (h : Sound m) : 0 ≤ m.maxStartV2 :=
  h.maxSmoothedV2_nonneg.trans h.maxSmoothedV2_le

/-- A new move can be handed to the planner. -/
theorem fresh_new {th : MoveLimits K} {p q : Coord K} {speed : K}
    (hspeed : 0 < speed) (hvelocity : 0 < th.maxVelocity) (haccel : 0 < th.maxAccel)
    (hdecel : 0 < th.maxAccelToDecel) (hjd : 0 ≤ th.junctionDeviation)
    (hlen : 0 < (new sqrt th p q speed).moveD)
    (hle : (new sqrt th p q speed).smoothDeltaV2 ≤ (new sqrt th p q speed).deltaV2) :
    Fresh (new sqrt th p q speed) := by
  refine ⟨⟨hlen, ?_, ?_, ?_, ?_, hle, ?_⟩, ?_, ?_⟩
  all_goals simp only [new] at hlen ⊢
  all_goals split_ifs at hlen ⊢ <;> first | rfl | positivity

/-- A speed limit does not change that. -/
theorem Fresh.limitSpeed (h : Fresh m) {speed accel : K} (hspeed : 0 < speed)
    (haccel : 0 < accel) : Fresh (m.limitSpeed speed accel) := by
  have hd : 0 < 2 * m.moveD * min m.accel accel :=
    mul_pos (mul_pos two_pos h.moveD_pos) (lt_min h.accel_pos haccel)
  refine ⟨⟨?_, ?_, ?_, ?_, ?_, ?_, ?_⟩, ?_, ?_⟩
  · rw [limitSpeed_moveD]
    exact h.moveD_pos
  · rw [limitSpeed_accel]
    exact lt_min h.accel_pos haccel
  · simp only [Move.limitSpeed]
    split_ifs <;> exact h.junctionDeviation_nonneg
  · simp only [Move.limitSpeed]
  · simp only [Move.limitSpeed]
    split_ifs <;> exact lt_min h.smoothDeltaV2_pos hd
  · simp only [Move.limitSpeed]
    split_ifs <;> exact min_le_right _ _
  · rw [limitSpeed_maxCruiseV2]
    exact lt_min h.maxCruiseV2_pos (by positivity)
  · simp only [Move.limitSpeed]
    split_ifs <;> exact h.maxStartV2_eq
  · simp only [Move.limitSpeed]
    split_ifs <;> exact h.maxSmoothedV2_eq

/-- A stop is in reach of every move. -/
theorem Sound.follows_zero (h : Sound m) : Follows m 0 0 where
  start_le_cruise := h.maxCruiseV2_pos.le
  start_le := add_nonneg h.maxStartV2_nonneg h.deltaV2_pos.le
  smoothed_le := add_nonneg h.maxSmoothedV2_nonneg h.smoothDeltaV2_pos.le
  smoothed_eq := Or.inl rfl

/-- The factors that `calc_junction` finds from the angle of a junction are nonnegative. -/
theorem junction_factors_nonneg (hs : IsSqrt sqrt) {c : K} (hlo : -0.999999 ≤ c)
    (hhi : c ≤ 0.999999) :
    0 ≤ sqrt (0.5 * (1 - c)) / (1 - sqrt (0.5 * (1 - c))) ∧
      0 ≤ sqrt (0.5 * (1 - c)) / sqrt (0.5 * (1 + c)) := by
  have h1 : 0 ≤ 0.5 * (1 - c) := by norm_num at hhi ⊢; linarith
  have h2 : 0.5 * (1 - c) < 1 := by norm_num at hlo ⊢; linarith
  have h3 : 0 ≤ 0.5 * (1 + c) := by norm_num at hlo ⊢; linarith
  exact ⟨div_nonneg (hs.nonneg _ h1) (sub_nonneg.2 (hs.lt_one h1 h2).le),
    div_nonneg (hs.nonneg _ h1) (hs.nonneg _ h3)⟩

/-- After `calc_junction` a move can be queued, and its bounds are in reach of the move
before it. -/
theorem calcJunction_spec (hs : IsSqrt sqrt) (hp : Sound prev) (hm : Fresh m)
    (he : 0 ≤ extruderV2) :
    Sound (calcJunction sqrt extruderV2 prev m) ∧
      Follows prev (calcJunction sqrt extruderV2 prev m).maxStartV2
        (calcJunction sqrt extruderV2 prev m).maxSmoothedV2 := by
  have hstop : Sound m ∧ Follows prev m.maxStartV2 m.maxSmoothedV2 := by
    rw [hm.maxStartV2_eq, hm.maxSmoothedV2_eq]
    exact ⟨hm.sound, hp.follows_zero⟩
  unfold calcJunction
  split_ifs with hkin
  · exact hstop
  dsimp only
  generalize -(m.axesR 0 * prev.axesR 0 + m.axesR 1 * prev.axesR 1 + m.axesR 2 * prev.axesR 2) = c
  split_ifs with hc
  · exact hstop
  obtain ⟨hr, ht⟩ := junction_factors_nonneg hs (le_max_right c (-0.999999))
    (max_le (not_lt.1 hc) (by norm_num))
  generalize sqrt (0.5 * (1 - max c (-0.999999))) / (1 - sqrt (0.5 * (1 - max c (-0.999999)))) = r
    at hr ⊢
  generalize sqrt (0.5 * (1 - max c (-0.999999))) / sqrt (0.5 * (1 + max c (-0.999999))) = t
    at ht ⊢
  have hbound : ∀ v, v ≤ min prev.maxCruiseV2 (prev.maxStartV2 + prev.deltaV2) → 0 ≤ v →
      v ≤ m.maxCruiseV2 → Sound { m with
        maxStartV2 := v, maxSmoothedV2 := min v (prev.maxSmoothedV2 + prev.smoothDeltaV2) } ∧
      Follows prev v (min v (prev.maxSmoothedV2 + prev.smoothDeltaV2)) := by
    intro v hprev h0 hcruise
    have hsmooth := add_nonneg hp.maxSmoothedV2_nonneg hp.smoothDeltaV2_pos.le
    refine ⟨⟨⟨hm.moveD_pos, hm.accel_pos, hm.junctionDeviation_nonneg, hm.deltaV2_eq,
      hm.smoothDeltaV2_pos, hm.smoothDeltaV2_le, hm.maxCruiseV2_pos⟩, le_min h0 hsmooth,
      min_le_left _ _, hcruise⟩, ?_⟩
    exact ⟨(le_min_iff.1 hprev).1, (le_min_iff.1 hprev).2, min_le_right _ _, min_choice _ _⟩
  have hhalf : (0 : K) ≤ 0.5 := by norm_num
  refine hbound _ ?_ ?_ ?_
  · simp only [min_le_iff, le_refl, or_true]
  · have h1 := mul_nonneg (mul_nonneg hr hm.junctionDeviation_nonneg) hm.accel_pos.le
    have h2 := mul_nonneg (mul_nonneg hr hp.junctionDeviation_nonneg) hp.accel_pos.le
    have h3 := mul_nonneg (mul_nonneg (mul_nonneg hhalf hm.moveD_pos.le) ht) hm.accel_pos.le
    have h4 := mul_nonneg (mul_nonneg (mul_nonneg hhalf hp.moveD_pos.le) ht) hp.accel_pos.le
    have h5 := add_nonneg hp.maxStartV2_nonneg hp.deltaV2_pos.le
    exact le_min h1 (le_min h2 (le_min h3 (le_min h4 (le_min he (le_min hm.maxCruiseV2_pos.le
      (le_min hp.maxCruiseV2_pos.le h5))))))
  · simp only [min_le_iff, le_refl, true_or, or_true]

end Move

/-- The speeds of a planned move. -/
structure Junction (K : Type*) where
  startV2 : K
  cruiseV2 : K
  endV2 : K
  deriving DecidableEq, Repr

/-- The times and speeds that `set_junction` sets. -/
structure Phases (K : Type*) where
  startV : K
  cruiseV : K
  endV : K
  accelT : K
  cruiseT : K
  decelT : K

namespace Move

/-- The distances of the three phases in `set_junction`. -/
def phaseD (m : Move K) (j : Junction K) : K × K × K :=
  let halfInvAccel := 0.5 / m.accel
  let accelD := (j.cruiseV2 - j.startV2) * halfInvAccel
  let decelD := (j.cruiseV2 - j.endV2) * halfInvAccel
  (accelD, m.moveD - accelD - decelD, decelD)

/-- `set_junction`. -/
def setJunction (sqrt : K → K) (m : Move K) (j : Junction K) : Phases K :=
  let (accelD, cruiseD, decelD) := m.phaseD j
  let startV := sqrt j.startV2
  let cruiseV := sqrt j.cruiseV2
  let endV := sqrt j.endV2
  { startV := startV, cruiseV := cruiseV, endV := endV
    accelT := accelD / ((startV + cruiseV) * 0.5)
    cruiseT := cruiseD / cruiseV
    decelT := decelD / ((endV + cruiseV) * 0.5) }

/-- The move can be driven with these speeds. -/
structure Fits (m : Move K) (j : Junction K) : Prop where
  cruise_pos : 0 < j.cruiseV2
  cruise_le : j.cruiseV2 ≤ m.maxCruiseV2
  start_nonneg : 0 ≤ j.startV2
  start_le : j.startV2 ≤ m.maxStartV2
  start_le_cruise : j.startV2 ≤ j.cruiseV2
  end_nonneg : 0 ≤ j.endV2
  end_le_cruise : j.endV2 ≤ j.cruiseV2
  change_le : (j.cruiseV2 - j.startV2) + (j.cruiseV2 - j.endV2) ≤ m.deltaV2

variable {sqrt : K → K} {m : Move K} {j : Junction K}

/-- Then the distances of the phases are nonnegative. -/
theorem Fits.phaseD_nonneg (h : Fits m j) (hm : Plannable m) :
    0 ≤ (m.phaseD j).1 ∧ 0 ≤ (m.phaseD j).2.1 ∧ 0 ≤ (m.phaseD j).2.2 := by
  have hhalf : 0 < 0.5 / m.accel := div_pos (by norm_num) hm.accel_pos
  refine ⟨mul_nonneg (sub_nonneg.2 h.start_le_cruise) hhalf.le, ?_,
    mul_nonneg (sub_nonneg.2 h.end_le_cruise) hhalf.le⟩
  have hlen : m.deltaV2 * (0.5 / m.accel) = m.moveD := by
    rw [hm.deltaV2_eq]
    have := hm.accel_pos.ne'
    field_simp
    norm_num
    ring
  have := mul_le_mul_of_nonneg_right h.change_le hhalf.le
  rw [hlen, add_mul] at this
  show 0 ≤ m.moveD - _ - _
  linarith

/-- Then no divisor of `set_junction` is zero, and the times of the phases are nonnegative. -/
theorem Fits.setJunction_nonneg (hs : IsSqrt sqrt) (h : Fits m j) (hm : Plannable m) :
    m.accel ≠ 0 ∧ ((m.setJunction sqrt j).startV + (m.setJunction sqrt j).cruiseV) * 0.5 ≠ 0 ∧
      (m.setJunction sqrt j).cruiseV ≠ 0 ∧
      ((m.setJunction sqrt j).endV + (m.setJunction sqrt j).cruiseV) * 0.5 ≠ 0 ∧
      0 ≤ (m.setJunction sqrt j).accelT ∧ 0 ≤ (m.setJunction sqrt j).cruiseT ∧
      0 ≤ (m.setJunction sqrt j).decelT := by
  obtain ⟨ha, hc, hd⟩ := h.phaseD_nonneg hm
  have hcruise : 0 < sqrt j.cruiseV2 := hs.pos h.cruise_pos
  have hhalf : (0 : K) < 0.5 := by norm_num
  have hstart : 0 < (sqrt j.startV2 + sqrt j.cruiseV2) * 0.5 :=
    mul_pos (add_pos_of_nonneg_of_pos (hs.nonneg _ h.start_nonneg) hcruise) hhalf
  have hend : 0 < (sqrt j.endV2 + sqrt j.cruiseV2) * 0.5 :=
    mul_pos (add_pos_of_nonneg_of_pos (hs.nonneg _ h.end_nonneg) hcruise) hhalf
  exact ⟨hm.accel_pos.ne', hstart.ne', hcruise.ne', hend.ne', div_nonneg ha hstart.le,
    div_nonneg hc hcruise.le, div_nonneg hd hend.le⟩

end Move

end Thinker
