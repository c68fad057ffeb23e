import Mathlib.Data.Rat.Sqrt
import Thinker.Move
import Thinker.Raises
import Thinker.Transition

/-!
# The limits of CoreXY kinematics

`CoreXYKinematics` of `corexy.py` and the part of `ToolHead` that checks and commits a move.
An axis that is not homed has the inverted limits `(1, -1)`.

`_check_endstops` goes over the axes and returns at the first one in the tolerance band
above its limits, without a look at the axes behind it. The band also lies above inverted
limits, so a target in `(-1, -0.92)` passes on an axis that is not homed. Apart from these
moves (`Excused`) an accepted move changes homed axes only and stays within their range
(`accepted_iff`), and over runs without them no move leaves the range (`withinRange`).
-/

set_option linter.unusedSectionVars false

namespace Thinker

variable {K : Type} [Field K] [LinearOrder K] [IsStrictOrderedRing K]

/-- The attributes of `PrinterExtruder` that `check_move` reads. -/
structure Extruder (K : Type) where
  canExtrude : Bool
  maxEDist : K
  maxEVelocity : K
  maxEAccel : K
  maxExtrudeRatio : K
  nozzleDiameter : K
  filamentArea : K

/-- `check_move` of the active extruder, `none` for a `DummyExtruder`. -/
def Extruder.checkMove (extruder : Option (Extruder K)) (m : Move K) :
    Except (CommandError K) (Move K) :=
  match extruder with
  | none => .error (m.moveError "Extrude when no extruder present")
  | some ext =>
    let axisR := m.axesR 3
    if !ext.canExtrude then
      .error ⟨"Extrude below minimum temp\n" ++
        "See the 'min_extrude_temp' config option for details", []⟩
    else if (m.axesD 0 = 0 ∧ m.axesD 1 = 0) ∨ axisR < 0 then
      if |m.axesD 3| > ext.maxEDist then
        .error ⟨"Extrude only move too long (%.3fmm vs %.3fmm)\n" ++
          "See the 'max_extrude_only_distance' config option for details",
          [m.axesD 3, ext.maxEDist]⟩
      else
        let invExtrudeR := 1 / |axisR|
        .ok (m.limitSpeed (ext.maxEVelocity * invExtrudeR) (ext.maxEAccel * invExtrudeR))
    else if axisR > ext.maxExtrudeRatio then
      if m.axesD 3 ≤ ext.nozzleDiameter * ext.maxExtrudeRatio then .ok m
      else .error ⟨"Move exceeds maximum extrusion (%.3fmm^2 vs %.3fmm^2)\n" ++
        "See the 'max_extrude_cross_section' config option for details",
        [axisR * ext.filamentArea, ext.maxExtrudeRatio * ext.filamentArea]⟩
    else .ok m

/-- `position_min` and `position_max` of a rail, checked when the config is read. -/
structure RailRange (K : Type) [LT K] where
  positionMin : K
  positionMax : K
  lt : positionMin < positionMax

/-- `get_range`. -/
def RailRange.getRange (r : RailRange K) : K × K := (r.positionMin, r.positionMax)

/-- `CoreXYKinematics` : the ranges of the rails, the limits of the z axis, and the limits
of moves. -/
structure CoreXY (K : Type) [LT K] where
  range : Fin 3 → RailRange K
  maxZVelocity : K
  maxZAccel : K
  limits : Fin 3 → K × K

namespace CoreXY

/-- The limits of an axis that is not homed. -/
def notHomed : K × K := (1, -1)

/-- `set_position`. -/
def setPosition (kin : CoreXY K) (homingAxes : List (Fin 3)) : CoreXY K :=
  { kin with limits := fun i => if i ∈ homingAxes then (kin.range i).getRange else kin.limits i }

/-- `note_z_not_homed`. -/
def noteZNotHomed (kin : CoreXY K) : CoreXY K :=
  { kin with limits := fun i => if i = 2 then notHomed else kin.limits i }

/-- `_motor_off`. -/
def motorOff (kin : CoreXY K) : CoreXY K :=
  { kin with limits := fun _ => notHomed }

/-- A move changes an axis and its target is outside of the limits. -/
def Outside (kin : CoreXY K) (m : Move K) (i : Fin 3) : Prop :=
  m.axesD i.castSucc ≠ 0 ∧
    (m.endPos i.castSucc < (kin.limits i).1 ∨ m.endPos i.castSucc > (kin.limits i).2)

/-- The target is in the tolerance band above the limits. -/
def InBand (kin : CoreXY K) (m : Move K) (i : Fin 3) : Prop :=
  m.endPos i.castSucc > (kin.limits i).2 ∧ m.endPos i.castSucc < (kin.limits i).2 + 0.08

instance (kin : CoreXY K) (m : Move K) (i : Fin 3) : Decidable (kin.Outside m i) :=
  inferInstanceAs (Decidable (_ ∧ _))

instance (kin : CoreXY K) (m : Move K) (i : Fin 3) : Decidable (kin.InBand m i) :=
  inferInstanceAs (Decidable (_ ∧ _))

/-- The loop of `_check_endstops` over the axes that are left. -/
def checkAxes (kin : CoreXY K) (m : Move K) : List (Fin 3) → Except (CommandError K) Unit
  | [] => .ok ()
  | i :: axes =>
    if kin.Outside m i then
      if kin.InBand m i then .ok ()
      else if (kin.limits i).1 > (kin.limits i).2 then
        .error (m.moveError "Must home axis first")
      else .error (m.moveError "Move out of range")
    else checkAxes kin m axes

/-- `_check_endstops`. -/
def checkEndstops (kin : CoreXY K) (m : Move K) : Except (CommandError K) Unit :=
  kin.checkAxes m [0, 1, 2]

/-- `check_move` : the move with the limits that were applied to it. -/
def checkMove (kin : CoreXY K) (m : Move K) : Except (CommandError K) (Move K) := do
  let xpos := m.endPos 0
  let ypos := m.endPos 1
  if xpos < (kin.limits 0).1 ∨ xpos > (kin.limits 0).2 ∨
      ypos < (kin.limits 1).1 ∨ ypos > (kin.limits 1).2 then
    kin.checkEndstops m
  if m.axesD 2 = 0 then
    return m
  kin.checkEndstops m
  let zRatio := m.moveD / |m.axesD 2|
  return m.limitSpeed (kin.maxZVelocity * zRatio) (kin.maxZAccel * zRatio)

/-! ## Accepted moves -/

/-- The limits of the axis are in order. -/
def Homed (kin : CoreXY K) (i : Fin 3) : Prop := (kin.limits i).1 ≤ (kin.limits i).2

/-- A position on an axis is in the range of the rail, up to the tolerance. -/
def InRange (kin : CoreXY K) (i : Fin 3) (x : K) : Prop :=
  (kin.range i).positionMin ≤ x ∧ x < (kin.range i).positionMax + 0.08

/-- The first axis outside of its limits is excused by the tolerance band, though it is not
homed, or an axis behind it is outside and not in the band of a homed axis. -/
def Excused (kin : CoreXY K) (m : Move K) : Prop :=
  ∃ i, kin.Outside m i ∧ (∀ j < i, ¬kin.Outside m j) ∧ kin.InBand m i ∧
    (¬kin.Homed i ∨ ∃ j > i, kin.Outside m j ∧ ¬(kin.Homed j ∧ kin.InBand m j))

instance (kin : CoreXY K) (i : Fin 3) : Decidable (kin.Homed i) :=
  inferInstanceAs (Decidable (_ ≤ _))

instance (kin : CoreXY K) (i : Fin 3) (x : K) : Decidable (kin.InRange i x) :=
  inferInstanceAs (Decidable (_ ∧ _))

instance (kin : CoreXY K) (m : Move K) : Decidable (kin.Excused m) :=
  inferInstanceAs (Decidable (∃ i, kin.Outside m i ∧ (∀ j < i, ¬kin.Outside m j) ∧
    kin.InBand m i ∧
      (¬kin.Homed i ∨ ∃ j > i, kin.Outside m j ∧ ¬(kin.Homed j ∧ kin.InBand m j))))

/-- The limits of each axis are its range or those of an axis that is not homed. -/
def LimitsValid (kin : CoreXY K) : Prop :=
  ∀ i, kin.limits i = (kin.range i).getRange ∨ kin.limits i = notHomed

variable {kin : CoreXY K} {m m' : Move K}

theorem not_homed_of_eq {i : Fin 3} (h : kin.limits i = notHomed) : ¬kin.Homed i := by
  rw [Homed, h, notHomed, not_le]
  norm_num

theorem LimitsValid.eq_range (h : kin.LimitsValid) {i : Fin 3} (hi : kin.Homed i) :
    kin.limits i = (kin.range i).getRange :=
  (h i).resolve_right fun hn => not_homed_of_eq hn hi

/-- The loop passes if the first axis outside of its limits is in the tolerance band. -/
theorem checkAxes_eq_ok_iff {axes : List (Fin 3)} (hord : axes.Pairwise (· < ·)) :
    kin.checkAxes m axes = .ok () ↔
      ∀ i ∈ axes, kin.Outside m i → (∀ j ∈ axes, j < i → ¬kin.Outside m j) → kin.InBand m i := by
  induction axes with
  | nil => simp [checkAxes]
  | cons a axes ih =>
    obtain ⟨hlt, hord⟩ := List.pairwise_cons.1 hord
    by_cases ha : kin.Outside m a
    · have hfirst : ∀ j ∈ a :: axes, j < a → ¬kin.Outside m j := fun j hj hja => by
        rcases List.mem_cons.1 hj with rfl | hj
        · exact absurd hja (lt_irrefl j)
        · exact absurd hja (hlt j hj).not_gt
      by_cases hb : kin.InBand m a
      · rw [checkAxes, if_pos ha, if_pos hb]
        refine iff_of_true rfl fun i hi _ hbefore => ?_
        rcases List.mem_cons.1 hi with rfl | hi
        · exact hb
        · exact absurd ha (hbefore a (by simp) (hlt i hi))
      · rw [checkAxes, if_pos ha, if_neg hb]
        refine iff_of_false ?_ fun h => hb (h a (by simp) ha hfirst)
        split_ifs <;> simp
    · rw [checkAxes, if_neg ha, ih hord]
      simp [ha]

theorem checkEndstops_eq_ok_iff : kin.checkEndstops m = .ok () ↔
    ∀ i, kin.Outside m i → (∀ j < i, ¬kin.Outside m j) → kin.InBand m i := by
  have hall : ∀ i : Fin 3, i ∈ [0, 1, 2] := by decide
  rw [checkEndstops, checkAxes_eq_ok_iff (by decide)]
  simp [hall]

/-- A move is accepted if `_check_endstops` passes, and then the limits of the z axis are
applied to a move that changes z. -/
theorem checkMove_eq_ok_iff : kin.checkMove m = .ok m' ↔ kin.checkEndstops m = .ok () ∧
    m' = if m.axesD 2 = 0 then m else
      m.limitSpeed (kin.maxZVelocity * (m.moveD / |m.axesD 2|))
        (kin.maxZAccel * (m.moveD / |m.axesD 2|)) := by
  by_cases hxy : m.endPos 0 < (kin.limits 0).1 ∨ m.endPos 0 > (kin.limits 0).2 ∨
      m.endPos 1 < (kin.limits 1).1 ∨ m.endPos 1 > (kin.limits 1).2
  · cases hc : kin.checkEndstops m with
    | error e => simp [checkMove, hxy, hc, bind, Except.bind]
    | ok u =>
      by_cases hz : m.axesD 2 = 0 <;>
        simp [checkMove, hxy, hc, hz, bind, Except.bind, pure, Except.pure, eq_comm]
  · by_cases hz : m.axesD 2 = 0
    · -- without a change of z the fast path looks at every axis that could be outside
      have hc : kin.checkEndstops m = .ok () := by
        refine checkEndstops_eq_ok_iff.2 fun i hi _ => absurd hi ?_
        fin_cases i
        · exact fun h => hxy (h.2.elim Or.inl fun h => Or.inr (Or.inl h))
        · exact fun h => hxy (h.2.elim (fun h => Or.inr (Or.inr (Or.inl h)))
            fun h => Or.inr (Or.inr (Or.inr h)))
        · exact fun h => h.1 hz
      simp [checkMove, hxy, hc, hz, pure, Except.pure, eq_comm]
    · cases hc : kin.checkEndstops m with
      | error e => simp [checkMove, hxy, hc, hz, bind, Except.bind]
      | ok u => simp [checkMove, hxy, hc, hz, bind, Except.bind, pure, Except.pure, eq_comm]

theorem inRange_of_not_outside (hv : kin.LimitsValid) {i : Fin 3}
    (hd : m.axesD i.castSucc ≠ 0) (h : ¬kin.Outside m i) :
    kin.Homed i ∧ kin.InRange i (m.endPos i.castSucc) := by
  simp only [Outside, not_and, not_or, not_lt, gt_iff_lt] at h
  obtain ⟨hlo, hhi⟩ := h hd
  have hhomed : kin.Homed i := hlo.trans hhi
  rw [hv.eq_range hhomed] at hlo hhi
  refine ⟨hhomed, hlo, hhi.trans_lt ?_⟩
  exact lt_add_of_pos_right _ (by norm_num)

theorem inRange_of_inBand (hv : kin.LimitsValid) {i : Fin 3} (hhomed : kin.Homed i)
    (h : kin.InBand m i) : kin.InRange i (m.endPos i.castSucc) := by
  obtain ⟨hlo, hhi⟩ := h
  rw [hv.eq_range hhomed] at hlo hhi
  exact ⟨((kin.range i).lt.trans hlo).le, hhi⟩

theorem inBand_of_inRange (hv : kin.LimitsValid) {i : Fin 3} (hhomed : kin.Homed i)
    (h : kin.InRange i (m.endPos i.castSucc)) (hout : kin.Outside m i) : kin.InBand m i := by
  obtain ⟨-, hout⟩ := hout
  rw [InBand]
  rw [hv.eq_range hhomed] at hout ⊢
  exact ⟨hout.resolve_left (not_lt.2 h.1), h.2⟩

/-- Accepted moves change homed axes only and stay in their range, unless they are excused. -/
theorem accepted_iff (hv : kin.LimitsValid) :
    ((∃ m', kin.checkMove m = .ok m') → ∀ i : Fin 3, m.axesD i.castSucc ≠ 0 →
      kin.Homed i ∧ kin.InRange i (m.endPos i.castSucc)) ↔ ¬kin.Excused m := by
  have hacc : (∃ m', kin.checkMove m = .ok m') ↔
      ∀ i, kin.Outside m i → (∀ j < i, ¬kin.Outside m j) → kin.InBand m i := by
    simp only [checkMove_eq_ok_iff, checkEndstops_eq_ok_iff, exists_and_left, exists_eq, and_true]
  rw [hacc]
  constructor
  · rintro h ⟨i, hi, hfirst, hband, hbad⟩
    have hok : ∀ j, kin.Outside m j → (∀ k < j, ¬kin.Outside m k) → kin.InBand m j :=
      fun j hj hjfirst => by
        rcases lt_trichotomy i j with hij | rfl | hji
        · exact absurd hi (hjfirst i hij)
        · exact hband
        · exact absurd hj (hfirst j hji)
    rcases hbad with hnot | ⟨j, -, hj, hnot⟩
    · exact hnot (h hok i hi.1).1
    · obtain ⟨hhomed, hrange⟩ := h hok j hj.1
      exact hnot ⟨hhomed, inBand_of_inRange hv hhomed hrange hj⟩
  · intro hex hok i hd
    by_cases hi : kin.Outside m i
    · -- the first axis outside is in the band, so it is homed, and so are those behind it
      obtain ⟨f, hf, hfirst⟩ : ∃ f, kin.Outside m f ∧ ∀ j < f, ¬kin.Outside m j := by
        obtain ⟨f, hf, hmin⟩ := WellFounded.has_min (wellFounded_lt (α := Fin 3))
          {j | kin.Outside m j} ⟨i, hi⟩
        exact ⟨f, hf, fun j hj hout => hmin j hout hj⟩
      have hband := hok f hf hfirst
      have hgood : ¬(¬kin.Homed f ∨ ∃ j > f, kin.Outside m j ∧ ¬(kin.Homed j ∧ kin.InBand m j)) :=
        fun hbad => hex ⟨f, hf, hfirst, hband, hbad⟩
      obtain ⟨hhomed, hrest⟩ := not_or.1 hgood
      rcases lt_trichotomy i f with hlt | rfl | hgt
      · exact absurd hi (hfirst i hlt)
      · exact ⟨not_not.1 hhomed, inRange_of_inBand hv (not_not.1 hhomed) hband⟩
      · by_cases hi' : kin.Homed i ∧ kin.InBand m i
        · exact ⟨hi'.1, inRange_of_inBand hv hi'.1 hi'.2⟩
        · exact absurd ⟨i, hgt, hi, hi'⟩ hrest
    · exact inRange_of_not_outside hv hd hi

/-- The z axis keeps to its own speed and acceleration. -/
def ZLimited (kin : CoreXY K) (m : Move K) : Prop :=
  m.maxCruiseV2 * m.axesD 2 ^ 2 ≤ (kin.maxZVelocity * m.moveD) ^ 2 ∧
    m.accel * |m.axesD 2| ≤ kin.maxZAccel * m.moveD

/-- Lower limits are kept to as well. -/
theorem ZLimited.mono (h : kin.ZLimited m) (hD : m'.axesD = m.axesD) (hd : m'.moveD = m.moveD)
    (hv : m'.maxCruiseV2 ≤ m.maxCruiseV2) (ha : m'.accel ≤ m.accel) : kin.ZLimited m' := by
  rw [ZLimited, hD, hd]
  exact ⟨(mul_le_mul_of_nonneg_right hv (sq_nonneg _)).trans h.1,
    (mul_le_mul_of_nonneg_right ha (abs_nonneg _)).trans h.2⟩

/-- An accepted move that changes z has the limits of the z axis applied. -/
theorem zLimited_of_checkMove (h : kin.checkMove m = .ok m') (hz : m.axesD 2 ≠ 0) :
    kin.ZLimited m' := by
  obtain ⟨-, rfl⟩ := checkMove_eq_ok_iff.1 h
  have habs : |m.axesD 2| ≠ 0 := abs_ne_zero.2 hz
  rw [if_neg hz, ZLimited, Move.limitSpeed_maxCruiseV2, Move.limitSpeed_axesD,
    Move.limitSpeed_moveD, Move.limitSpeed_accel]
  constructor
  · calc min m.maxCruiseV2 ((kin.maxZVelocity * (m.moveD / |m.axesD 2|)) ^ 2) * m.axesD 2 ^ 2
        ≤ (kin.maxZVelocity * (m.moveD / |m.axesD 2|)) ^ 2 * m.axesD 2 ^ 2 :=
          mul_le_mul_of_nonneg_right (min_le_right _ _) (sq_nonneg _)
      _ = (kin.maxZVelocity * m.moveD) ^ 2 := by
          rw [← sq_abs (m.axesD 2)]
          field_simp
  · calc min m.accel (kin.maxZAccel * (m.moveD / |m.axesD 2|)) * |m.axesD 2|
        ≤ kin.maxZAccel * (m.moveD / |m.axesD 2|) * |m.axesD 2| :=
          mul_le_mul_of_nonneg_right (min_le_right _ _) (abs_nonneg _)
      _ = kin.maxZAccel * m.moveD := by field_simp

end CoreXY

/-- What the check of the extruder leaves unchanged. -/
theorem Extruder.checkMove_spec {extruder : Option (Extruder K)} {m m' : Move K}
    (h : Extruder.checkMove extruder m = .ok m') :
    m'.endPos = m.endPos ∧ m'.axesD = m.axesD ∧ m'.moveD = m.moveD ∧
      m'.maxCruiseV2 ≤ m.maxCruiseV2 ∧ m'.accel ≤ m.accel := by
  have hlim : ∀ v a, m.limitSpeed v a = m' → m'.endPos = m.endPos ∧ m'.axesD = m.axesD ∧
      m'.moveD = m.moveD ∧ m'.maxCruiseV2 ≤ m.maxCruiseV2 ∧ m'.accel ≤ m.accel := by
    rintro v a rfl
    simp
  have hsame : m = m' → m'.endPos = m.endPos ∧ m'.axesD = m.axesD ∧
      m'.moveD = m.moveD ∧ m'.maxCruiseV2 ≤ m.maxCruiseV2 ∧ m'.accel ≤ m.accel := by
    rintro rfl
    simp
  rcases extruder with _ | ext
  · cases h
  · simp only [Extruder.checkMove] at h
    split_ifs at h
    · exact hlim _ _ (Except.ok.inj h)
    · exact hsame (Except.ok.inj h)
    · exact hsame (Except.ok.inj h)

/-! ## Runs -/

/-- The toolhead's position and kinematics, with the history of axes and moves. -/
structure Machine (K : Type) [LT K] where
  kin : CoreXY K
  commandedPos : Coord K
  /-- The axis was homed since it was last marked as not homed. -/
  homed : Fin 3 → Bool
  /-- The position on the axis was last changed by a `set_position` to a place out of range. -/
  setOut : Fin 3 → Bool
  /-- The moves handed to the look-ahead queue. -/
  accepted : List (Move K)

/-- What can happen to the machine. -/
inductive MachineEvent (K : Type)
  | setPosition (newpos : Coord K) (homingAxes : List (Fin 3))
  | noteZNotHomed
  | motorOff
  /-- A move, with the velocity limits and the extruder of that moment. -/
  | move (th : MoveLimits K) (extruder : Option (Extruder K)) (newpos : Coord K) (speed : K)

namespace Machine

/-- `ToolHead.move` : the move handed to the look-ahead queue, if any. -/
def checkMove (sqrt : K → K) (s : Machine K) (th : MoveLimits K)
    (extruder : Option (Extruder K)) (newpos : Coord K) (speed : K) :
    Except (CommandError K) (Option (Move K)) := do
  let m := Move.new sqrt th s.commandedPos newpos speed
  if m.moveD = 0 then
    return none
  let m ← (if m.isKinematicMove then s.kin.checkMove m else .ok m)
  let m ← (if m.axesD 3 ≠ 0 then Extruder.checkMove extruder m else .ok m)
  return some m

/-- The state after an event. A command error leaves the state as it is. -/
def next (sqrt : K → K) (s : Machine K) : MachineEvent K → Option (Machine K)
  | .setPosition newpos homingAxes =>
    some { s with
      kin := s.kin.setPosition homingAxes
      commandedPos := newpos
      homed := fun i => decide (i ∈ homingAxes) || s.homed i
      setOut := fun i => !decide ((s.kin.range i).positionMin ≤ newpos i.castSucc ∧
        newpos i.castSucc < (s.kin.range i).positionMax + 0.08) }
  | .noteZNotHomed =>
    some { s with kin := s.kin.noteZNotHomed, homed := fun i => decide (i ≠ 2) && s.homed i }
  | .motorOff => some { s with kin := s.kin.motorOff, homed := fun _ => false }
  | .move th extruder newpos speed =>
    match s.checkMove sqrt th extruder newpos speed with
    | .ok (some m) =>
      some { s with
        commandedPos := m.endPos
        setOut := fun i => decide (m.axesD i.castSucc = 0) && s.setOut i
        accepted := s.accepted ++ [m] }
    | .ok none => some s
    | .error _ => some s

/-- Runs with some ranges and limits of the z axis. At the start no axis is homed. -/
def system (sqrt : K → K) (range : Fin 3 → RailRange K) (maxZVelocity maxZAccel : K) :
    System (Machine K) (MachineEvent K) where
  init s := s.kin = ⟨range, maxZVelocity, maxZAccel, fun _ => CoreXY.notHomed⟩ ∧
    s.homed = (fun _ => false) ∧ s.setOut = (fun _ => true) ∧ s.accepted = []
  next := next sqrt

/-- Moves that the tolerance band excuses do not occur. -/
def NoneExcused (sqrt : K → K) (s : Machine K) : MachineEvent K → Prop
  | .move th _ newpos speed => ¬s.kin.Excused (Move.new sqrt th s.commandedPos newpos speed)
  | _ => True

/-- The limits follow the homing of the axes, moves that change z keep to the limits of the z
axis, and only `set_position` puts an axis out of range. -/
structure Inv (s : Machine K) : Prop where
  limits : ∀ i, s.kin.limits i =
    if s.homed i then (s.kin.range i).getRange else CoreXY.notHomed
  inRange : ∀ i, s.setOut i = false → s.kin.InRange i (s.commandedPos i.castSucc)
  zLimited : ∀ m ∈ s.accepted, m.axesD 2 ≠ 0 → s.kin.ZLimited m

variable {sqrt : K → K} {s s' : Machine K}

theorem Inv.limitsValid (h : Inv s) : s.kin.LimitsValid := by
  intro i
  rw [h.limits i]
  split_ifs
  · exact Or.inl rfl
  · exact Or.inr rfl

theorem Inv.homed_iff (h : Inv s) (i : Fin 3) : s.homed i = true ↔ s.kin.Homed i := by
  constructor
  · intro hi
    rw [CoreXY.Homed, h.limits i, if_pos hi]
    exact (s.kin.range i).lt.le
  · intro hi
    by_contra hno
    exact CoreXY.not_homed_of_eq ((h.limits i).trans (if_neg hno)) hi

/-- What the checks of a move leave of it. -/
theorem checkMove_spec {th : MoveLimits K} {extruder : Option (Extruder K)} {newpos : Coord K}
    {speed : K} {m : Move K} (h : s.checkMove sqrt th extruder newpos speed = .ok (some m)) :
    m.endPos = (Move.new sqrt th s.commandedPos newpos speed).endPos ∧
      m.axesD = (Move.new sqrt th s.commandedPos newpos speed).axesD ∧
      ((Move.new sqrt th s.commandedPos newpos speed).isKinematicMove = true →
        (∃ m', s.kin.checkMove (Move.new sqrt th s.commandedPos newpos speed) = .ok m') ∧
        (m.axesD 2 ≠ 0 → s.kin.ZLimited m)) := by
  simp only [checkMove] at h
  generalize Move.new sqrt th s.commandedPos newpos speed = M at h ⊢
  by_cases hd : M.moveD = 0
  · rw [if_pos hd] at h
    cases h
  rw [if_neg hd] at h
  obtain ⟨m1, hm1, h⟩ := bind_eq_ok.1 h
  obtain ⟨m2, hm2, h⟩ := bind_eq_ok.1 h
  obtain rfl : m2 = m := Option.some.inj (Except.ok.inj h)
  have h1 : m1.endPos = M.endPos ∧ m1.axesD = M.axesD ∧ (M.isKinematicMove = true →
      (∃ m', s.kin.checkMove M = .ok m') ∧ (M.axesD 2 ≠ 0 → s.kin.ZLimited m1)) := by
    split_ifs at hm1 with hk
    · refine ⟨?_, ?_, fun _ => ⟨⟨m1, hm1⟩, CoreXY.zLimited_of_checkMove hm1⟩⟩
      · rw [(CoreXY.checkMove_eq_ok_iff.1 hm1).2]
        split_ifs <;> simp
      · rw [(CoreXY.checkMove_eq_ok_iff.1 hm1).2]
        split_ifs <;> simp
    · obtain rfl := Except.ok.inj hm1
      exact ⟨rfl, rfl, fun h => absurd h hk⟩
  have h2 : m2.endPos = m1.endPos ∧ m2.axesD = m1.axesD ∧ (s.kin.ZLimited m1 →
      s.kin.ZLimited m2) := by
    split_ifs at hm2 with he
    · obtain ⟨hend, hD, hmd, hv, ha⟩ := Extruder.checkMove_spec hm2
      exact ⟨hend, hD, fun hz => hz.mono hD hmd hv ha⟩
    · obtain rfl := Except.ok.inj hm2
      exact ⟨rfl, rfl, id⟩
  obtain ⟨hend1, hD1, hkin⟩ := h1
  obtain ⟨hend2, hD2, hz⟩ := h2
  refine ⟨hend2.trans hend1, hD2.trans hD1, fun hk => ⟨(hkin hk).1, fun hne => ?_⟩⟩
  rw [hD2, hD1] at hne
  exact hz ((hkin hk).2 hne)

/-- Every event but an excused move keeps the invariant. -/
theorem Inv.next (h : Inv s) {e : MachineEvent K} (hC : NoneExcused sqrt s e)
    (hn : next sqrt s e = some s') : Inv s' := by
  cases e with
  | setPosition newpos homingAxes =>
    obtain rfl := Option.some_inj.1 hn
    refine ⟨fun i => ?_, fun i hi => ?_, fun m hm hz => ?_⟩
    · have := h.limits i
      by_cases hi : i ∈ homingAxes <;> simp_all [CoreXY.setPosition]
    · simpa [CoreXY.InRange, CoreXY.setPosition] using hi
    · exact h.zLimited m hm hz
  | noteZNotHomed =>
    obtain rfl := Option.some_inj.1 hn
    refine ⟨fun i => ?_, h.inRange, h.zLimited⟩
    have := h.limits i
    by_cases hi : i = 2 <;> simp_all [CoreXY.noteZNotHomed]
  | motorOff =>
    obtain rfl := Option.some_inj.1 hn
    exact ⟨fun i => rfl, h.inRange, h.zLimited⟩
  | move th extruder newpos speed =>
    cases hc : s.checkMove sqrt th extruder newpos speed with
    | error e =>
      obtain rfl : s = s' := by simpa [Machine.next, hc] using hn
      exact h
    | ok r =>
      cases r with
      | none =>
        obtain rfl : s = s' := by simpa [Machine.next, hc] using hn
        exact h
      | some m =>
        simp only [Machine.next, hc, Option.some.injEq] at hn
        subst hn
        obtain ⟨hend, hD, hkin⟩ := checkMove_spec hc
        have hD' : ∀ i, m.axesD i = m.endPos i - s.commandedPos i := fun i => by
          rw [hD, hend, Move.new_axesD]
        -- a move that is not kinematic changes no axis
        have hkin' : ∀ i : Fin 3, m.axesD i.castSucc ≠ 0 →
            (Move.new sqrt th s.commandedPos newpos speed).isKinematicMove = true := by
          intro i hi
          by_contra hno
          exact hi (hD ▸ Move.new_axesD_eq_zero (Bool.eq_false_iff.2 hno) i)
        refine ⟨h.limits, fun i hi => ?_, fun m' hm' hz => ?_⟩
        · by_cases hzero : m.axesD i.castSucc = 0
          · have hsame : m.endPos i.castSucc = s.commandedPos i.castSucc :=
              sub_eq_zero.1 ((hD' _).symm.trans hzero)
            have hout : s.setOut i = false := by simpa [hzero] using hi
            have := h.inRange i hout
            rwa [← hsame] at this
          · have hgood := (CoreXY.accepted_iff h.limitsValid).2 hC (hkin (hkin' i hzero)).1 i
              (hD ▸ hzero)
            rw [← hend] at hgood
            exact hgood.2
        · rcases List.mem_append.1 hm' with hm' | hm'
          · exact h.zLimited m' hm' hz
          · obtain rfl := List.mem_singleton.1 hm'
            exact (hkin (hkin' 2 hz)).2 hz

variable {range : Fin 3 → RailRange K} {maxZVelocity maxZAccel : K}

theorem inv_of_reachable
    (h : (system sqrt range maxZVelocity maxZAccel).ReachableBy (NoneExcused sqrt) s) :
    Inv s := by
  refine h.invariant (I := Inv) (fun s hs => ?_) fun s e s' hi hC hn => hi.next hC hn
  obtain ⟨hkin, hhomed, hset, hacc⟩ := hs
  refine ⟨fun i => ?_, fun i hi => ?_, fun m hm => ?_⟩
  · rw [hkin, hhomed]
    rfl
  · rw [hset] at hi
    cases hi
  · rw [hacc] at hm
    cases hm

/-- The ranges and the limits of the z axis stay as they are configured. -/
theorem config_of_reachable
    (h : (system sqrt range maxZVelocity maxZAccel).ReachableBy (NoneExcused sqrt) s) :
    s.kin.range = range ∧ s.kin.maxZVelocity = maxZVelocity ∧ s.kin.maxZAccel = maxZAccel := by
  induction h with
  | init h =>
    rw [h.1]
    exact ⟨rfl, rfl, rfl⟩
  | @step s t e _ _ hn ih =>
    obtain ⟨hr, hv, ha⟩ : t.kin.range = s.kin.range ∧ t.kin.maxZVelocity = s.kin.maxZVelocity ∧
        t.kin.maxZAccel = s.kin.maxZAccel := by
      cases e with
      | move th extruder newpos speed =>
        simp only [system, next] at hn
        split at hn <;> obtain rfl := Option.some_inj.1 hn <;> exact ⟨rfl, rfl, rfl⟩
      | _ => obtain rfl := Option.some_inj.1 hn; exact ⟨rfl, rfl, rfl⟩
    rw [hr, hv, ha]
    exact ih

/-- Over runs without excused moves : a move is accepted only if it changes homed axes and
stays within their range, and this holds of just the moves that are not excused; only
`set_position` puts an axis out of range; and every move that changes z keeps to the limits
of the z axis. -/
theorem withinRange
    (h : (system sqrt range maxZVelocity maxZAccel).ReachableBy (NoneExcused sqrt) s) :
    (s.kin.range = range ∧ s.kin.maxZVelocity = maxZVelocity ∧ s.kin.maxZAccel = maxZAccel) ∧
      (∀ m, ((∃ m', s.kin.checkMove m = .ok m') → ∀ i : Fin 3, m.axesD i.castSucc ≠ 0 →
        s.homed i = true ∧ s.kin.InRange i (m.endPos i.castSucc)) ↔ ¬s.kin.Excused m) ∧
      (∀ i, s.setOut i = false → s.kin.InRange i (s.commandedPos i.castSucc)) ∧
      ∀ m ∈ s.accepted, m.axesD 2 ≠ 0 → s.kin.ZLimited m := by
  have hi := inv_of_reachable h
  refine ⟨config_of_reachable h, fun m => ?_, hi.inRange, hi.zLimited⟩
  simp only [hi.homed_iff]
  exact CoreXY.accepted_iff hi.limitsValid

/-- A bed of 200 mm, with 200 mm in z. -/
def bed : Fin 3 → RailRange ℚ := fun _ => ⟨0, 200, by norm_num⟩

/-- The limits of the toolhead used on it. -/
def bedLimits : MoveLimits ℚ := ⟨300, 3000, 1500, 1 / 100⟩

/-- The machine before homing. -/
def bedStart : Machine ℚ :=
  ⟨⟨bed, 10, 100, fun _ => CoreXY.notHomed⟩, 0, fun _ => false, fun _ => true, []⟩

/-- The machine after homing, at x = 170.05 and y = 170. -/
def bedHomed : Machine ℚ :=
  (next Rat.sqrt bedStart (.setPosition ![170.05, 170, 10, 0] [0, 1, 2])).getD bedStart

theorem reachable_bedHomed (C : Machine ℚ → MachineEvent ℚ → Prop)
    (hC : C bedStart (.setPosition ![170.05, 170, 10, 0] [0, 1, 2])) :
    (system Rat.sqrt bed 10 100).ReachableBy C bedHomed :=
  .step (.init ⟨rfl, rfl, rfl, rfl⟩) hC rfl

/-- A move within the bed. -/
theorem withinRange_bed : ∃ s : Machine ℚ,
    next Rat.sqrt bedHomed (.move bedLimits none ![200, 130, 10, 0] 100) = some s ∧
      s.commandedPos 1 = 130 ∧ s.kin.InRange 1 (s.commandedPos 1) := by
  have hrun : (next Rat.sqrt bedHomed (.move bedLimits none ![200, 130, 10, 0] 100)).map
      (fun s => (s.commandedPos 1, s.setOut 1)) = some (130, false) := by decide +kernel
  obtain ⟨s, hs, heq⟩ := Option.map_eq_some_iff.1 hrun
  simp only [Prod.mk.injEq] at heq
  have hnone : NoneExcused Rat.sqrt bedHomed (.move bedLimits none ![200, 130, 10, 0] 100) := by
    rw [NoneExcused]
    decide +kernel
  have hreach := System.ReachableBy.step (reachable_bedHomed (NoneExcused Rat.sqrt) trivial) hnone hs
  exact ⟨s, hs, heq.1, (withinRange hreach).2.2.1 1 heq.2⟩

/-- With x in the tolerance band, a move to y = 210 is accepted on a bed of 200 mm. -/
theorem not_withinRange_band : ¬∀ s : Machine ℚ,
    (system Rat.sqrt bed 10 100).Reachable s → ∀ m, (∃ m', s.kin.checkMove m = .ok m') →
      ∀ i : Fin 3, m.axesD i.castSucc ≠ 0 →
        s.homed i = true ∧ s.kin.InRange i (m.endPos i.castSucc) := by
  intro h
  have hok : bedHomed.kin.checkEndstops
      (Move.new Rat.sqrt bedLimits bedHomed.commandedPos ![200.05, 210, 10, 0] 100) = .ok () := by
    rw [CoreXY.checkEndstops_eq_ok_iff]
    decide +kernel
  have hgood := h bedHomed (reachable_bedHomed _ trivial) _
    ⟨_, CoreXY.checkMove_eq_ok_iff.2 ⟨hok, rfl⟩⟩ 1 (by decide +kernel)
  exact absurd hgood.2 (by decide +kernel)

end Machine

end Thinker
