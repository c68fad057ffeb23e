import Mathlib.Analysis.Calculus.Deriv.Pow
import Mathlib.Analysis.SpecialFunctions.Integrals.Basic
import Mathlib.MeasureTheory.Integral.IntervalIntegral.FundThmCalculus
import Thinker.TrapqMove

/-!
# Pressure advance

`kin_extruder.c`. The position of the extruder stepper is a weighted mean of `pa_position` over the
times around the given one. It is computed move by move, from the one that the time is in to those
before and behind it, each with the integral of its polynomial.
-/

set_option linter.unusedSectionVars false

open intervalIntegral Set

namespace Thinker

section Code

variable {K : Type*} [Field K] [LinearOrder K] [IsStrictOrderedRing K]

/-- `extruder_integrate`. -/
def extruderIntegrate (base startV halfAccel start stop : K) : K :=
  let halfV := 0.5 * startV
  let sixthA := 1 / 3 * halfAccel
  let si := start * (base + start * (halfV + start * sixthA))
  let ei := stop * (base + stop * (halfV + stop * sixthA))
  ei - si

/-- `extruder_integrate_time`. -/
def extruderIntegrateTime (base startV halfAccel start stop : K) : K :=
  let halfB := 0.5 * base
  let thirdV := 1 / 3 * startV
  let eighthA := 0.25 * halfAccel
  let si := start * start * (halfB + start * (thirdV + start * eighthA))
  let ei := stop * stop * (halfB + stop * (thirdV + stop * eighthA))
  ei - si

/-- `can_pressure_advance`, as a factor of the pressure advance. -/
def TrapqMove.advance (m : TrapqMove K) (pressureAdvance : K) : K :=
  if m.axesR 1 ≠ 0 then pressureAdvance else 0

/-- `pa_move_integrate`. -/
def paMoveIntegrate (m : TrapqMove K) (pressureAdvance base start stop timeOffset : K) : K :=
  let start := if start < 0 then 0 else start
  let stop := if stop > m.moveT then m.moveT else stop
  -- Calculate base position and velocity with pressure advance
  let pressureAdvance := m.advance pressureAdvance
  let base := base + pressureAdvance * m.startV
  let startV := m.startV + pressureAdvance * 2 * m.halfAccel
  -- Calculate definitive integral
  let iext := extruderIntegrate base startV m.halfAccel start stop
  let wgtExt := extruderIntegrateTime base startV m.halfAccel start stop
  wgtExt - timeOffset * iext

/-- The loop over the previous moves. `none` is a read before the list. -/
def paIntegrateBack (pressureAdvance startBase : K) : List (TrapqMove K) → K → K → Option K
  | prevs, start, res =>
    if start < 0 then
      match prevs with
      | [] => none
      | prev :: prevs =>
        let start := start + prev.moveT
        let base := prev.startPos 0 - startBase
        paIntegrateBack pressureAdvance startBase prevs start
          (res + paMoveIntegrate prev pressureAdvance base start prev.moveT start)
    else some res

/-- The loop over the future moves. `none` is a read behind the list. -/
def paIntegrateForward (pressureAdvance startBase : K) :
    TrapqMove K → List (TrapqMove K) → K → K → Option K
  | m, nexts, stop, res =>
    if stop > m.moveT then
      match nexts with
      | [] => none
      | next :: nexts =>
        let stop := stop - m.moveT
        let base := next.startPos 0 - startBase
        paIntegrateForward pressureAdvance startBase next nexts stop
          (res - paMoveIntegrate next pressureAdvance base 0 stop stop)
    else some res

/-- `pa_range_integrate`. -/
def paRangeIntegrate (c : TrapqCursor K) (moveTime pressureAdvance hst : K) : Option K :=
  -- Calculate integral for the current move
  let start := moveTime - hst
  let stop := moveTime + hst
  let startBase := c.move.startPos 0
  let res := paMoveIntegrate c.move pressureAdvance 0 start moveTime start -
    paMoveIntegrate c.move pressureAdvance 0 moveTime stop stop
  (paIntegrateBack pressureAdvance startBase c.prevs start res).bind fun res =>
    paIntegrateForward pressureAdvance startBase c.move c.nexts stop res

/-- `struct extruder_stepper`. -/
structure ExtruderStepper (K : Type*) where
  pressureAdvance : K
  halfSmoothTime : K
  invHalfSmoothTime2 : K
  genStepsPreActive : K
  genStepsPostActive : K

namespace ExtruderStepper

variable (es : ExtruderStepper K)

/-- `extruder_calc_position`. -/
def calcPosition (c : TrapqCursor K) (moveTime : K) : Option K :=
  let hst := es.halfSmoothTime
  -- Pressure advance not enabled
  if hst = 0 then some (c.move.startPos 0 + c.move.getDistance moveTime)
  else
    (paRangeIntegrate c moveTime es.pressureAdvance hst).map fun area =>
      c.move.startPos 0 + area * es.invHalfSmoothTime2

/-- `extruder_set_pressure_advance`. -/
def setPressureAdvance (pressureAdvance smoothTime : K) : ExtruderStepper K :=
  let hst := smoothTime * 0.5
  let es := { es with halfSmoothTime := hst, genStepsPreActive := hst, genStepsPostActive := hst }
  if hst = 0 then es
  else { es with invHalfSmoothTime2 := 1 / (hst * hst), pressureAdvance := pressureAdvance }

end ExtruderStepper

end Code

/-! ## The position with pressure advance -/

namespace TrapqMove

/-- The nominal position at a time in a move. -/
def nominalPosition {K : Type*} [Field K] (m : TrapqMove K) (moveTime : K) : K :=
  m.startPos 0 + m.getDistance moveTime

variable (m : TrapqMove ℝ) (adv : ℝ)

/-- `pa_position` at a time in a move. -/
noncomputable def paPosition (moveTime : ℝ) : ℝ :=
  m.nominalPosition moveTime + m.advance adv * m.velocity moveTime

theorem continuous_paPosition : Continuous (m.paPosition adv) := by
  unfold paPosition nominalPosition getDistance velocity
  fun_prop

end TrapqMove

variable {f : ℝ → ℝ} {adv : ℝ}

theorem extruderIntegrate_eq (base startV halfAccel start stop : ℝ) :
    extruderIntegrate base startV halfAccel start stop =
      ∫ x in start..stop, base + (startV + halfAccel * x) * x := by
  have hderiv : ∀ x ∈ uIcc start stop,
      HasDerivAt (fun x : ℝ => x * (base + x * (0.5 * startV + x * (1 / 3 * halfAccel))))
        (base + (startV + halfAccel * x) * x) x := by
    intro x _
    have hid := hasDerivAt_id' x
    refine (hid.mul ((hid.mul ((hid.mul_const (1 / 3 * halfAccel)).const_add
      (0.5 * startV))).const_add base)).congr_deriv ?_
    simp only [Pi.mul_apply]
    ring
  rw [integral_eq_sub_of_hasDerivAt hderiv (Continuous.intervalIntegrable (by fun_prop) _ _)]
  rfl

theorem extruderIntegrateTime_eq (base startV halfAccel start stop : ℝ) :
    extruderIntegrateTime base startV halfAccel start stop =
      ∫ x in start..stop, x * (base + (startV + halfAccel * x) * x) := by
  have hderiv : ∀ x ∈ uIcc start stop,
      HasDerivAt (fun x : ℝ => x * x * (0.5 * base + x * (1 / 3 * startV + x * (0.25 * halfAccel))))
        (x * (base + (startV + halfAccel * x) * x)) x := by
    intro x _
    have hid := hasDerivAt_id' x
    refine ((hid.mul hid).mul ((hid.mul ((hid.mul_const (0.25 * halfAccel)).const_add
      (1 / 3 * startV))).const_add (0.5 * base))).congr_deriv ?_
    simp only [Pi.mul_apply]
    ring
  rw [integral_eq_sub_of_hasDerivAt hderiv (Continuous.intervalIntegrable (by fun_prop) _ _)]
  rfl

/-- The integral over a move is that of its weighted position. -/
theorem paMoveIntegrate_eq (m : TrapqMove ℝ) (adv base start stop offset : ℝ) :
    paMoveIntegrate m adv base start stop offset =
      ∫ x in (max start 0)..(min stop m.moveT),
        (x - offset) * (m.paPosition adv x - (m.startPos 0 - base)) := by
  have hstart : (if start < 0 then 0 else start) = max start 0 := by
    split_ifs with h
    · exact (max_eq_right h.le).symm
    · exact (max_eq_left (not_lt.1 h)).symm
  have hstop : (if stop > m.moveT then m.moveT else stop) = min stop m.moveT := by
    split_ifs with h
    · exact (min_eq_right h.le).symm
    · exact (min_eq_left (not_lt.1 h)).symm
  unfold paMoveIntegrate
  simp only [hstart, hstop, extruderIntegrate_eq, extruderIntegrateTime_eq]
  rw [← integral_const_mul, ← integral_sub (Continuous.intervalIntegrable (by fun_prop) _ _)
    (Continuous.intervalIntegrable (by fun_prop) _ _)]
  refine integral_congr fun x _ => ?_
  simp only [TrapqMove.paPosition, TrapqMove.nominalPosition, TrapqMove.getDistance,
    TrapqMove.velocity]
  ring

/-! ## The integral over a window -/

/-- `f` is `pa_position` inside the moves, between two times. -/
def IsPaPosition (adv : ℝ) (ms : List (TrapqMove ℝ)) (a b : ℝ) (f : ℝ → ℝ) : Prop :=
  ∀ m ∈ ms, ∀ x, m.printTime < x → x < m.endTime → a < x → x < b →
    f x = m.paPosition adv (x - m.printTime)

variable {ms : List (TrapqMove ℝ)} {m : TrapqMove ℝ} {a b : ℝ}

/-- The part of a move that is in the window. -/
theorem IsPaPosition.eqOn (hf : IsPaPosition adv ms a b f) (hm : m ∈ ms) {u v : ℝ} (huv : u ≤ v)
    (hu : m.printTime ≤ u) (hv : v ≤ m.endTime) (hau : a ≤ u) (hvb : v ≤ b) :
    EqOn (fun x => m.paPosition adv (x - m.printTime)) f (uIoo u v) := by
  intro x hx
  rw [uIoo_of_le huv] at hx
  exact (hf m hm x (hu.trans_lt hx.1) (hx.2.trans_le hv) (hau.trans_lt hx.1)
    (hx.2.trans_le hvb)).symm

theorem IsPaPosition.integrable (hf : IsPaPosition adv ms a b f) (hm : m ∈ ms) {u v : ℝ}
    (huv : u ≤ v) (hu : m.printTime ≤ u) (hv : v ≤ m.endTime) (hau : a ≤ u) (hvb : v ≤ b) :
    IntervalIntegrable f MeasureTheory.volume u v :=
  (((m.continuous_paPosition adv).comp (continuous_sub_right m.printTime)).intervalIntegrable
    u v).congr_uIoo (hf.eqOn hm huv hu hv hau hvb)

/-- The integral that is computed over a part of a move. -/
theorem IsPaPosition.paMoveIntegrate_eq (hf : IsPaPosition adv ms a b f) (hm : m ∈ ms) {u v : ℝ}
    {start stop : ℝ} (hstart : max start 0 = u - m.printTime)
    (hstop : min stop m.moveT = v - m.printTime) (huv : u ≤ v) (hau : a ≤ u) (hvb : v ≤ b)
    (startBase offset : ℝ) :
    paMoveIntegrate m adv (m.startPos 0 - startBase) start stop (offset - m.printTime) =
      ∫ x in u..v, (x - offset) * (f x - startBase) := by
  have hu : m.printTime ≤ u := sub_nonneg.1 (hstart ▸ le_max_right _ _)
  have hv : v ≤ m.endTime := by
    have := min_le_right stop m.moveT
    unfold TrapqMove.endTime
    linarith
  rw [Thinker.paMoveIntegrate_eq, hstart, hstop, ← intervalIntegral.integral_comp_sub_right
    (fun x => (x - (offset - m.printTime)) *
      (m.paPosition adv x - (m.startPos 0 - (m.startPos 0 - startBase)))) m.printTime]
  refine integral_congr_uIoo fun x hx => ?_
  have hx := hf.eqOn hm huv hu hv hau hvb hx
  simp only at hx ⊢
  rw [hx]
  ring

theorem integrable_weighted {u v : ℝ} (h : IntervalIntegrable f MeasureTheory.volume u v)
    {w : ℝ → ℝ} (hw : Continuous w) (base : ℝ) :
    IntervalIntegrable (fun x => w x * (f x - base)) MeasureTheory.volume u v :=
  (h.sub intervalIntegrable_const).continuousOn_mul hw.continuousOn

/-- A part before a time and a part behind it, where one of them is empty. -/
theorem integral_min_add_max {g : ℝ → ℝ} {a p v : ℝ} (hbefore :
    IntervalIntegrable g MeasureTheory.volume (min a p) p) (hbehind :
    IntervalIntegrable g MeasureTheory.volume (max a p) v) :
    (∫ x in (max a p)..v, g x) + (∫ x in (min a p)..p, g x) = ∫ x in a..v, g x ∧
      IntervalIntegrable g MeasureTheory.volume a v := by
  rcases le_total a p with hap | hpa
  · rw [min_eq_left hap] at hbefore ⊢
    rw [max_eq_right hap] at hbehind ⊢
    rw [add_comm, integral_add_adjacent_intervals hbefore hbehind]
    exact ⟨rfl, hbefore.trans hbehind⟩
  · rw [min_eq_right hpa, integral_same, add_zero]
    rw [max_eq_left hpa] at hbehind ⊢
    exact ⟨rfl, hbehind⟩

theorem integral_min_add_max_right {g : ℝ → ℝ} {u b e : ℝ} (hbefore :
    IntervalIntegrable g MeasureTheory.volume u (min b e)) (hbehind :
    IntervalIntegrable g MeasureTheory.volume e (max b e)) :
    (∫ x in u..(min b e), g x) + (∫ x in e..(max b e), g x) = ∫ x in u..b, g x ∧
      IntervalIntegrable g MeasureTheory.volume u b := by
  rcases le_total b e with hbe | heb
  · rw [max_eq_right hbe, integral_same, add_zero]
    rw [min_eq_left hbe] at hbefore ⊢
    exact ⟨rfl, hbefore⟩
  · rw [min_eq_right heb] at hbefore ⊢
    rw [max_eq_left heb] at hbehind ⊢
    rw [integral_add_adjacent_intervals hbefore hbehind]
    exact ⟨rfl, hbefore.trans hbehind⟩

variable {c : TrapqCursor ℝ}

/-- The previous moves add the integral from the start of the window on. -/
theorem paIntegrateBack_eq (h : Contiguous c.moves) (hf : IsPaPosition adv c.moves a b f)
    (hstart : ∃ m ∈ c.moves, m.printTime ≤ a) (hb : c.move.printTime ≤ b)
    (front : List (TrapqMove ℝ)) (startBase res : ℝ) :
    paIntegrateBack adv startBase (c.prevs ++ front) (a - c.move.printTime) res =
        some (res + ∫ x in (min a c.move.printTime)..c.move.printTime,
          (x - a) * (f x - startBase)) ∧
      IntervalIntegrable f MeasureTheory.volume (min a c.move.printTime) c.move.printTime := by
  obtain ⟨prevs, m, nexts⟩ := c
  simp only at hb ⊢
  induction prevs generalizing m nexts res with
  | nil =>
    have hle : m.printTime ≤ a := by
      obtain ⟨n, hn, hna⟩ := hstart
      exact (Contiguous.printTime_le [] h n hn).trans hna
    rw [min_eq_right hle, integral_same, add_zero]
    refine ⟨?_, IntervalIntegrable.refl⟩
    unfold paIntegrateBack
    rw [if_neg (not_lt.2 (sub_nonneg.2 hle))]
  | cons p prevs ih =>
    unfold paIntegrateBack
    by_cases hneg : a - m.printTime < 0
    · have hfollows : m.printTime = p.endTime := TrapqCursor.follows_prev h
      rw [← TrapqCursor.moves_back] at h hf hstart
      have hmem : p ∈ TrapqCursor.moves ⟨prevs, p, m :: nexts⟩ := by simp [TrapqCursor.moves]
      have hp : p.printTime ≤ m.printTime := hfollows ▸ h.endTime_ge hmem
      have ham : a ≤ m.printTime := (sub_neg.1 hneg).le
      have htime : a - m.printTime + p.moveT = a - p.printTime := by
        rw [hfollows, TrapqMove.endTime]
        ring
      have hmove := hf.paMoveIntegrate_eq hmem
        (show max (a - p.printTime) 0 = max a p.printTime - p.printTime by
          rw [← max_sub_sub_right, sub_self])
        (show min p.moveT p.moveT = m.printTime - p.printTime by
          rw [min_self, hfollows, TrapqMove.endTime, add_sub_cancel_left])
        (max_le ham hp) (le_max_left _ _) hb startBase a
      have hint := hf.integrable hmem (max_le ham hp) (le_max_right _ _) hfollows.le
        (le_max_left _ _) hb
      obtain ⟨hrun, hint'⟩ := ih (res + ∫ x in (max a p.printTime)..m.printTime,
        (x - a) * (f x - startBase)) p (m :: nexts) h hf hstart (hp.trans hb)
      have hw : Continuous fun x : ℝ => x - a := continuous_sub_right a
      rw [if_pos hneg, min_eq_left ham,
        ← (integral_min_add_max (integrable_weighted hint' hw startBase)
          (integrable_weighted hint hw startBase)).1]
      refine ⟨?_, (integral_min_add_max hint' hint).2⟩
      simp only [List.cons_append, htime]
      rw [hmove, hrun, add_assoc]
    · have hle : m.printTime ≤ a := by linarith
      rw [min_eq_right hle, integral_same, add_zero, if_neg hneg]
      exact ⟨rfl, IntervalIntegrable.refl⟩

/-- The future moves subtract the integral up to the end of the window. -/
theorem paIntegrateForward_eq (h : Contiguous c.moves) (hf : IsPaPosition adv c.moves a b f)
    (hstop : ∃ m ∈ c.moves, b ≤ m.endTime) (ha : a ≤ c.move.endTime)
    (back : List (TrapqMove ℝ)) (startBase res : ℝ) :
    paIntegrateForward adv startBase c.move (c.nexts ++ back) (b - c.move.printTime) res =
        some (res - ∫ x in c.move.endTime..(max b c.move.endTime),
          (x - b) * (f x - startBase)) ∧
      IntervalIntegrable f MeasureTheory.volume c.move.endTime (max b c.move.endTime) := by
  obtain ⟨prevs, m, nexts⟩ := c
  simp only at ha ⊢
  have hend : ∀ m : TrapqMove ℝ, b - m.printTime > m.moveT ↔ m.endTime < b := fun m => by
    rw [gt_iff_lt, lt_sub_iff_add_lt', TrapqMove.endTime]
  induction nexts generalizing m prevs res with
  | nil =>
    have hle : b ≤ m.endTime := by
      obtain ⟨p, hp, hbp⟩ := hstop
      exact hbp.trans (Contiguous.le_endTime [] h p hp)
    rw [max_eq_right hle, integral_same, sub_zero]
    refine ⟨?_, IntervalIntegrable.refl⟩
    unfold paIntegrateForward
    rw [if_neg (fun hlt => not_lt.2 hle ((hend m).1 hlt))]
  | cons n nexts ih =>
    unfold paIntegrateForward
    by_cases hlt : b - m.printTime > m.moveT
    · rw [TrapqCursor.moves_back] at h hf hstop
      have hfollows : n.printTime = m.endTime := TrapqCursor.follows_prev h
      have hmem : n ∈ TrapqCursor.moves ⟨m :: prevs, n, nexts⟩ := by simp [TrapqCursor.moves]
      have hn : m.endTime ≤ n.endTime := hfollows ▸ h.endTime_ge hmem
      have hmb : m.endTime ≤ b := ((hend m).1 hlt).le
      have htime : b - m.printTime - m.moveT = b - n.printTime := by
        rw [hfollows, TrapqMove.endTime]
        ring
      have hmove := hf.paMoveIntegrate_eq hmem
        (show max 0 0 = m.endTime - n.printTime by rw [max_self, hfollows, sub_self])
        (show min (b - n.printTime) n.moveT = min b n.endTime - n.printTime by
          rw [← min_sub_sub_right, TrapqMove.endTime, add_sub_cancel_left])
        (le_min hmb hn) ha (min_le_left _ _) startBase b
      have hint := hf.integrable hmem (le_min hmb hn) hfollows.le (min_le_right _ _) ha
        (min_le_left _ _)
      obtain ⟨hrun, hint'⟩ := ih (res - ∫ x in m.endTime..(min b n.endTime),
        (x - b) * (f x - startBase)) (m :: prevs) n h hf hstop (ha.trans hn)
      have hw : Continuous fun x : ℝ => x - b := continuous_sub_right b
      rw [if_pos hlt, max_eq_left hmb,
        ← (integral_min_add_max_right (integrable_weighted hint hw startBase)
          (integrable_weighted hint' hw startBase)).1]
      refine ⟨?_, (integral_min_add_max_right hint hint').2⟩
      simp only [List.cons_append, htime]
      rw [hmove, hrun, sub_sub]
    · have hle : b ≤ m.endTime := not_lt.1 fun hlt' => hlt ((hend m).2 hlt')
      rw [max_eq_right hle, integral_same, sub_zero, if_neg hlt]
      exact ⟨rfl, IntervalIntegrable.refl⟩

/-! ## The smoothed position -/

/-- A move, a time in it, and the moves around it that are read. -/
structure Reads (c : TrapqCursor ℝ) (time h : ℝ) : Prop where
  contiguous : Contiguous c.moves
  nonneg : 0 ≤ time
  le : time ≤ c.move.moveT
  covers : Covers c.moves (c.move.printTime + time - h) (c.move.printTime + time + h)

/-- The weight of a time rises up to the middle of the window, and falls from there on. -/
theorem integral_weighted {g : ℝ → ℝ} {t h : ℝ} (hh : 0 ≤ h)
    (hbefore : IntervalIntegrable g MeasureTheory.volume (t - h) t)
    (hbehind : IntervalIntegrable g MeasureTheory.volume t (t + h)) :
    ∫ x in (t - h)..(t + h), (h - |t - x|) * g x =
      (∫ x in (t - h)..t, (x - (t - h)) * g x) - ∫ x in t..(t + h), (x - (t + h)) * g x := by
  have hw : Continuous fun x : ℝ => h - |t - x| := by fun_prop
  have hleft : ∫ x in (t - h)..t, (h - |t - x|) * g x =
      ∫ x in (t - h)..t, (x - (t - h)) * g x := by
    refine integral_congr fun x hx => ?_
    rw [uIcc_of_le (by linarith)] at hx
    simp only [abs_of_nonneg (sub_nonneg.2 hx.2)]
    ring
  have hright : ∫ x in t..(t + h), (h - |t - x|) * g x =
      -∫ x in t..(t + h), (x - (t + h)) * g x := by
    rw [← intervalIntegral.integral_neg]
    refine integral_congr fun x hx => ?_
    rw [uIcc_of_le (by linarith)] at hx
    simp only [abs_of_nonpos (sub_nonpos.2 hx.1)]
    ring
  rw [← integral_add_adjacent_intervals (hbefore.continuousOn_mul hw.continuousOn)
    (hbehind.continuousOn_mul hw.continuousOn), hleft, hright, ← sub_eq_add_neg]

/-- The weights add up to the square of half the window. -/
theorem integral_weight (t : ℝ) {h : ℝ} (hh : 0 ≤ h) :
    ∫ x in (t - h)..(t + h), (h - |t - x|) = h * h := by
  have hsplit := integral_weighted (g := fun _ => 1) (t := t) hh intervalIntegrable_const
    intervalIntegrable_const
  simp only [mul_one] at hsplit
  rw [hsplit, intervalIntegral.integral_comp_sub_right fun x => x,
    intervalIntegral.integral_comp_sub_right fun x => x, integral_id, integral_id]
  ring

/-- The integral that is computed is that of the weighted position. -/
theorem paRangeIntegrate_eq {time h : ℝ} (hh : 0 < h) (hr : Reads c time h)
    (hf : IsPaPosition adv c.moves (c.move.printTime + time - h) (c.move.printTime + time + h) f)
    (front back : List (TrapqMove ℝ)) :
    IntervalIntegrable f MeasureTheory.volume (c.move.printTime + time - h)
        (c.move.printTime + time + h) ∧
      paRangeIntegrate (c.within front back) time adv h =
        some (∫ x in (c.move.printTime + time - h)..(c.move.printTime + time + h),
          (h - |c.move.printTime + time - x|) * (f x - c.move.startPos 0)) := by
  obtain ⟨hcontiguous, hnonneg, hle, hcovers⟩ := hr
  set t := c.move.printTime + time with ht
  have hmem : c.move ∈ c.moves := by simp [TrapqCursor.moves]
  have hPt : c.move.printTime ≤ t := le_add_of_nonneg_right hnonneg
  have htE : t ≤ c.move.endTime := add_le_add_right hle _
  have hstart : time - h = t - h - c.move.printTime := by rw [ht]; ring
  have hstop : time + h = t + h - c.move.printTime := by rw [ht]; ring
  have hat : t - h ≤ t := by linarith
  have htb : t ≤ t + h := by linarith
  have hfirst := hf.paMoveIntegrate_eq hmem
    (show max (t - h - c.move.printTime) 0 = max (t - h) c.move.printTime - c.move.printTime by
      rw [← max_sub_sub_right, sub_self])
    (show min time c.move.moveT = t - c.move.printTime by
      rw [min_eq_left hle, ht, add_sub_cancel_left])
    (max_le hat hPt) (le_max_left _ _) htb (c.move.startPos 0) (t - h)
  have hsecond := hf.paMoveIntegrate_eq hmem
    (show max time 0 = t - c.move.printTime by rw [max_eq_left hnonneg, ht, add_sub_cancel_left])
    (show min (t + h - c.move.printTime) c.move.moveT =
        min (t + h) c.move.endTime - c.move.printTime by
      rw [← min_sub_sub_right, TrapqMove.endTime, add_sub_cancel_left])
    (le_min htb htE) hat (min_le_left _ _) (c.move.startPos 0) (t + h)
  rw [sub_self] at hfirst hsecond
  have hintFirst := hf.integrable hmem (max_le hat hPt) (le_max_right _ _) htE (le_max_left _ _)
    htb
  have hintSecond := hf.integrable hmem (le_min htb htE) hPt (min_le_right _ _) hat
    (min_le_left _ _)
  obtain ⟨hback, hintBack⟩ := paIntegrateBack_eq hcontiguous hf hcovers.start (hPt.trans htb)
    front (c.move.startPos 0)
    ((∫ x in (max (t - h) c.move.printTime)..t, (x - (t - h)) * (f x - c.move.startPos 0)) -
      ∫ x in t..(min (t + h) c.move.endTime), (x - (t + h)) * (f x - c.move.startPos 0))
  obtain ⟨hforward, hintForward⟩ := paIntegrateForward_eq hcontiguous hf hcovers.stop
    (hat.trans htE) back (c.move.startPos 0)
    ((∫ x in (max (t - h) c.move.printTime)..t, (x - (t - h)) * (f x - c.move.startPos 0)) -
      (∫ x in t..(min (t + h) c.move.endTime), (x - (t + h)) * (f x - c.move.startPos 0)) +
      ∫ x in (min (t - h) c.move.printTime)..c.move.printTime,
        (x - (t - h)) * (f x - c.move.startPos 0))
  have hbefore := (integral_min_add_max hintBack hintFirst).2
  have hbehind := (integral_min_add_max_right hintSecond hintForward).2
  refine ⟨hbefore.trans hbehind, ?_⟩
  have hwBack : Continuous fun x : ℝ => x - (t - h) := continuous_sub_right _
  have hwForward : Continuous fun x : ℝ => x - (t + h) := continuous_sub_right _
  unfold paRangeIntegrate TrapqCursor.within
  simp only [hstart, hstop, hfirst, hsecond]
  rw [hback, Option.bind_some, hforward, integral_weighted hh.le
    (hbefore.sub intervalIntegrable_const) (hbehind.sub intervalIntegrable_const),
    ← (integral_min_add_max (integrable_weighted hintBack hwBack (c.move.startPos 0))
      (integrable_weighted hintFirst hwBack (c.move.startPos 0))).1,
    ← (integral_min_add_max_right
      (integrable_weighted hintSecond hwForward (c.move.startPos 0))
      (integrable_weighted hintForward hwForward (c.move.startPos 0))).1]
  refine congrArg some ?_
  ring

/-- The position of the stepper is the weighted mean. -/
theorem ExtruderStepper.calcPosition_eq {time smoothTime : ℝ} (hsmooth : 0 < smoothTime)
    (hr : Reads c time (smoothTime * 0.5)) (hf : IsPaPosition adv c.moves
      (c.move.printTime + time - smoothTime * 0.5) (c.move.printTime + time + smoothTime * 0.5) f)
    (es : ExtruderStepper ℝ) (front back : List (TrapqMove ℝ)) :
    (es.setPressureAdvance adv smoothTime).calcPosition (c.within front back) time =
      some (1 / (smoothTime * 0.5) ^ 2 *
        ∫ x in (c.move.printTime + time - smoothTime * 0.5)..
            (c.move.printTime + time + smoothTime * 0.5),
          (smoothTime * 0.5 - |c.move.printTime + time - x|) * f x) := by
  have hh : 0 < smoothTime * 0.5 := by positivity
  set h := smoothTime * 0.5 with hhalf
  set t := c.move.printTime + time
  obtain ⟨hint, hrange⟩ := paRangeIntegrate_eq hh hr hf front back
  unfold setPressureAdvance calcPosition
  simp only [← hhalf, if_neg hh.ne']
  rw [hrange]
  have hw : Continuous fun x : ℝ => h - |t - x| := by fun_prop
  have hsub : ∫ x in (t - h)..(t + h), (h - |t - x|) * (f x - c.move.startPos 0) =
      (∫ x in (t - h)..(t + h), (h - |t - x|) * f x) - h * h * c.move.startPos 0 := by
    rw [← integral_weight t hh.le, ← intervalIntegral.integral_mul_const,
      ← intervalIntegral.integral_sub (hint.continuousOn_mul hw.continuousOn)
        (Continuous.intervalIntegrable (by fun_prop) _ _)]
    exact integral_congr fun x _ => by ring
  refine congrArg some ?_
  rw [hsub]
  simp only [TrapqCursor.within]
  field_simp
  ring

/-! ## What it depends on -/

/-- `pa_position` at a time, of the move that the time is in. -/
noncomputable def paPosition (adv : ℝ) (ms : List (TrapqMove ℝ)) (x : ℝ) : ℝ :=
  ((ms.find? fun m => decide (x ≤ m.endTime)).map fun m =>
    m.paPosition adv (x - m.printTime)).getD 0

/-- A move that is split in two at a time. -/
def TrapqMove.split {K : Type*} [Field K] (m : TrapqMove K) (s : K) : TrapqMove K × TrapqMove K :=
  ({ m with moveT := s },
    { m with
      printTime := m.printTime + s
      moveT := m.moveT - s
      startV := m.velocity s
      startPos := Function.update m.startPos 0 (m.nominalPosition s) })

theorem isPaPosition_paPosition (h : Contiguous ms) (adv a b : ℝ) :
    IsPaPosition adv ms a b (paPosition adv ms) := by
  intro m hm x hlt hgt _ _
  unfold paPosition
  rw [h.find?_eq hm hlt hgt.le, Option.map_some, Option.getD_some]

theorem TrapqMove.paPosition_split (m : TrapqMove ℝ) (adv s τ : ℝ) :
    (m.split s).2.paPosition adv τ = m.paPosition adv (τ + s) := by
  have hadvance : (m.split s).2.advance adv = m.advance adv := rfl
  unfold TrapqMove.paPosition
  rw [hadvance]
  simp only [TrapqMove.split, TrapqMove.nominalPosition, TrapqMove.getDistance,
    TrapqMove.velocity, Function.update_self]
  ring

section Split

variable {l r : List (TrapqMove ℝ)} {s : ℝ}

theorem TrapqMove.split_endTime (m : TrapqMove ℝ) (s : ℝ) : (m.split s).2.endTime = m.endTime := by
  simp only [TrapqMove.split, TrapqMove.endTime]
  ring

theorem Contiguous.split (h : Contiguous (l ++ m :: r)) (hs : 0 ≤ s) (hsm : s ≤ m.moveT) :
    Contiguous (l ++ (m.split s).1 :: (m.split s).2 :: r) := by
  have hchain := h.chain
  rw [List.isChain_append, List.isChain_cons] at hchain
  obtain ⟨hl, ⟨hmr, hr⟩, hlm⟩ := hchain
  refine ⟨List.isChain_append.2 ⟨hl, List.isChain_cons_cons.2 ⟨rfl, List.isChain_cons.2
    ⟨fun n hn => ?_, hr⟩⟩, fun p hp q hq => ?_⟩, fun p hp => ?_⟩
  · rw [Follows, m.split_endTime]
    exact hmr n hn
  · obtain rfl := Option.some_inj.1 hq
    exact hlm p hp m rfl
  · rcases List.mem_append.1 hp with hp | hp
    · exact h.nonneg p (List.mem_append_left _ hp)
    · rcases List.mem_cons.1 hp with rfl | hp
      · exact hs
      · rcases List.mem_cons.1 hp with rfl | hp
        · exact sub_nonneg.2 hsm
        · exact h.nonneg p (List.mem_append_right _ (List.mem_cons_of_mem _ hp))

theorem IsPaPosition.split (hf : IsPaPosition adv (l ++ m :: r) a b f) (hs : 0 ≤ s)
    (hsm : s ≤ m.moveT) : IsPaPosition adv (l ++ (m.split s).1 :: (m.split s).2 :: r) a b f := by
  intro p hp x hlt hgt ha hb
  have hm : m ∈ l ++ m :: r := by simp
  rcases List.mem_append.1 hp with hp | hp
  · exact hf p (List.mem_append_left _ hp) x hlt hgt ha hb
  · rcases List.mem_cons.1 hp with rfl | hp
    · exact hf m hm x hlt (hgt.trans_le (add_le_add_right hsm _)) ha hb
    · rcases List.mem_cons.1 hp with rfl | hp
      · rw [m.split_endTime] at hgt
        have hstart : m.printTime < x := (le_add_of_nonneg_right hs).trans_lt hlt
        rw [hf m hm x hstart hgt ha hb, m.paPosition_split]
        refine congrArg _ ?_
        simp only [TrapqMove.split]
        ring
      · exact hf p (List.mem_append_right _ (List.mem_cons_of_mem _ hp)) x hlt hgt ha hb

theorem Covers.split (h : Covers (l ++ m :: r) a b) :
    Covers (l ++ (m.split s).1 :: (m.split s).2 :: r) a b := by
  have hmem : ∀ p ∈ l ++ m :: r, p = m ∨ p ∈ l ++ (m.split s).1 :: (m.split s).2 :: r := by
    intro p hp
    simp only [List.mem_append, List.mem_cons] at hp ⊢
    tauto
  obtain ⟨⟨p, hp, hpa⟩, q, hq, hbq⟩ := h
  constructor
  · rcases hmem p hp with rfl | hp
    · exact ⟨(p.split s).1, by simp, hpa⟩
    · exact ⟨p, hp, hpa⟩
  · rcases hmem q hq with rfl | hq
    · exact ⟨(q.split s).2, by simp, by rwa [q.split_endTime]⟩
    · exact ⟨q, hq, hbq⟩

end Split

/-- Where the nominal position is constant, nothing is added to it. -/
theorem isPaPosition_const {p : ℝ} (h : ∀ m ∈ ms, ∀ x, m.printTime < x → x < m.endTime → a < x →
    x < b → m.nominalPosition (x - m.printTime) = p) (adv : ℝ) :
    IsPaPosition adv ms a b fun _ => p := by
  intro m hm x hlt hgt ha hb
  have hderiv : HasDerivAt (fun y => m.nominalPosition (y - m.printTime))
      (m.velocity (x - m.printTime)) x := by
    have hid := (hasDerivAt_id' x).sub_const m.printTime
    refine ((((hid.const_mul m.halfAccel).const_add m.startV).mul hid).const_add
      (m.startPos 0)).congr_deriv ?_
    unfold TrapqMove.velocity
    ring
  have hconst : (fun y => m.nominalPosition (y - m.printTime)) =ᶠ[nhds x] fun _ => p := by
    filter_upwards [Ioo_mem_nhds hlt hgt, Ioo_mem_nhds ha hb] with y hy hy'
    exact h m hm y hy.1 hy.2 hy'.1 hy'.2
  have hzero : m.velocity (x - m.printTime) = 0 :=
    hderiv.unique ((hasDerivAt_const x p).congr_of_eventuallyEq hconst)
  rw [TrapqMove.paPosition, h m hm x hlt hgt ha hb, hzero, mul_zero, add_zero]

/-! ## Smoothing -/

/-- The position of a stepper with pressure advance is the mean of `pa_position`, and depends on
nothing else. -/
structure Smooths (es : ExtruderStepper ℝ) (adv h : ℝ) : Prop where
  average : ∀ c time front back, Reads c time h →
    es.calcPosition (c.within front back) time =
      some (1 / h ^ 2 * ∫ x in (c.move.printTime + time - h)..(c.move.printTime + time + h),
        (h - |c.move.printTime + time - x|) * paPosition adv c.moves x)
  boundary : ∀ prevs m m' nexts front back,
    Reads (⟨prevs, m, m' :: nexts⟩ : TrapqCursor ℝ) m.moveT h →
    Reads (⟨m :: prevs, m', nexts⟩ : TrapqCursor ℝ) 0 h ∧
      es.calcPosition (TrapqCursor.within ⟨prevs, m, m' :: nexts⟩ front back) m.moveT =
        es.calcPosition (TrapqCursor.within ⟨m :: prevs, m', nexts⟩ front back) 0
  split : ∀ c c' : TrapqCursor ℝ, ∀ time time' l m r s front back, c.moves = l ++ m :: r →
    0 ≤ s → s ≤ m.moveT → c'.moves = l ++ (m.split s).1 :: (m.split s).2 :: r →
    Reads c time h → 0 ≤ time' → time' ≤ c'.move.moveT →
    c'.move.printTime + time' = c.move.printTime + time →
    es.calcPosition (c'.within front back) time' = es.calcPosition (c.within front back) time
  constant : ∀ c time front back, Reads c time h → ∀ p,
    (∀ m ∈ c.moves, ∀ x, m.printTime < x → x < m.endTime → c.move.printTime + time - h < x →
      x < c.move.printTime + time + h → m.nominalPosition (x - m.printTime) = p) →
    es.calcPosition (c.within front back) time = some p

/-- The end of a move is the start of the next one. -/
theorem Reads.next {prevs nexts : List (TrapqMove ℝ)} {m m' : TrapqMove ℝ} {h : ℝ}
    (hr : Reads (⟨prevs, m, m' :: nexts⟩ : TrapqCursor ℝ) m.moveT h) :
    Reads (⟨m :: prevs, m', nexts⟩ : TrapqCursor ℝ) 0 h ∧
      m'.printTime + 0 = m.printTime + m.moveT := by
  obtain ⟨hcontiguous, hnonneg, hle, hcovers⟩ := hr
  simp only [TrapqCursor.moves_back] at hcontiguous hcovers
  have htime := TrapqCursor.boundary_eq hcontiguous
  rw [← htime] at hcovers
  exact ⟨⟨hcontiguous, le_rfl, hcontiguous.nonneg m' (by simp [TrapqCursor.moves]), hcovers⟩,
    htime⟩

theorem ExtruderStepper.smooths_setPressureAdvance (es : ExtruderStepper ℝ) (adv : ℝ)
    {smoothTime : ℝ} (hsmooth : 0 < smoothTime) :
    Smooths (es.setPressureAdvance adv smoothTime) adv (smoothTime * 0.5) := by
  have haverage : ∀ c time front back, Reads c time (smoothTime * 0.5) →
      (es.setPressureAdvance adv smoothTime).calcPosition (c.within front back) time =
        some (1 / (smoothTime * 0.5) ^ 2 *
          ∫ x in (c.move.printTime + time - smoothTime * 0.5)..
              (c.move.printTime + time + smoothTime * 0.5),
            (smoothTime * 0.5 - |c.move.printTime + time - x|) * paPosition adv c.moves x) :=
    fun c time front back hr => calcPosition_eq hsmooth hr
      (isPaPosition_paPosition hr.contiguous adv _ _) es front back
  refine ⟨haverage, ?_, ?_, ?_⟩
  · intro prevs m m' nexts front back hr
    obtain ⟨hr', htime⟩ := hr.next
    refine ⟨hr', ?_⟩
    rw [haverage _ _ front back hr, haverage _ _ front back hr', TrapqCursor.moves_back, htime]
  · intro c c' time time' l m r s front back hmoves hs hsm hmoves' hr hnonneg hle htime
    have hf := isPaPosition_paPosition hr.contiguous adv
      (c.move.printTime + time - smoothTime * 0.5) (c.move.printTime + time + smoothTime * 0.5)
    have hcontiguous := hr.contiguous
    have hcovers := hr.covers
    rw [hmoves] at hcontiguous hcovers
    have hr' : Reads c' time' (smoothTime * 0.5) := by
      refine ⟨?_, hnonneg, hle, ?_⟩
      · rw [hmoves']
        exact hcontiguous.split hs hsm
      · rw [hmoves', htime]
        exact hcovers.split
    rw [haverage c time front back hr, calcPosition_eq hsmooth hr' (f := paPosition adv c.moves) ?_,
      htime]
    rw [hmoves', htime]
    rw [hmoves] at hf ⊢
    exact hf.split hs hsm
  · intro c time front back hr p hp
    have hh : smoothTime * 0.5 ≠ 0 := by positivity
    rw [calcPosition_eq hsmooth hr (isPaPosition_const hp adv),
      intervalIntegral.integral_mul_const, integral_weight _ (by positivity)]
    refine congrArg some ?_
    field_simp

/-- A move that stands for ten seconds. -/
def standing : TrapqMove ℝ :=
  ⟨0, 10, 0, 0, ![3, 0, 0], 0⟩

/-- The extruder stands where the move does. -/
theorem calcPosition_standing :
    ((⟨0, 0, 0, 0, 0⟩ : ExtruderStepper ℝ).setPressureAdvance 1 1).calcPosition
      (TrapqCursor.within ⟨[], standing, []⟩ [] []) 5 = some 3 := by
  have hsmooths := ExtruderStepper.smooths_setPressureAdvance ⟨0, 0, 0, 0, 0⟩ 1 one_pos
  have hmem : standing ∈ TrapqCursor.moves ⟨[], standing, []⟩ := List.mem_singleton_self _
  have hend : standing.endTime = 10 := by norm_num [standing, TrapqMove.endTime]
  refine hsmooths.constant _ _ [] [] ⟨⟨List.isChain_singleton _, ?_⟩, ?_, ?_, ?_, ?_⟩ 3 ?_
  · intro m hm
    rw [List.mem_singleton.1 hm]
    norm_num [standing]
  · norm_num
  · norm_num [standing]
  · exact ⟨standing, hmem, by norm_num [standing]⟩
  · exact ⟨standing, hmem, by rw [hend]; norm_num [standing]⟩
  · intro m hm x _ _ _ _
    rw [List.mem_singleton.1 hm]
    norm_num [standing, TrapqMove.nominalPosition, TrapqMove.getDistance]

end Thinker
