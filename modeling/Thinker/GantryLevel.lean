import Thinker.BedMesh
import Thinker.Transition

/-!
# Gantry levelling

`QuadGantryLevel` of `quad_gantry_level.py`, `ZTilt` of `z_tilt.py` and what they share: the helper
of the probe points, the retries, and whether the gantry is levelled.

Four line fits find the heights of the actuators. They are those of the bilinear function through
the probed points (`Bilinear.eval_eq_zHeight`), and the adjustments make it constant
(`QuadGantryLevel.eval_adjusted`). A run probes again until the range of the probed heights, rounded
to six digits, is within the tolerance (`LevelRun.levels_of_reachable`).

Arithmetic is exact. The coordinate descent of `z_tilt.py` is a parameter.
-/

set_option linter.unusedSectionVars false

namespace Thinker

variable {K : Type} [Field K] [LinearOrder K] [IsStrictOrderedRing K] [FloorRing K]

/-! ## Line fits -/

/-- `linefit`. -/
def linefit (p1 p2 : K × K) : K × K :=
  if p1.2 = p2.2 then (0, p1.2)
  else
    let m := (p2.2 - p1.2) / (p2.1 - p1.1)
    (m, p1.2 - m * p1.1)

/-- `plot`. -/
def plot (f : K × K) (x : K) : K :=
  f.1 * x + f.2

/-- The fit of two points of a line is the line, also where it is level. -/
theorem plot_linefit {p1 p2 : K × K} {u v : K} (hx : p1.1 ≠ p2.1) (h1 : p1.2 = u + v * p1.1)
    (h2 : p2.2 = u + v * p2.1) (x : K) : plot (linefit p1 p2) x = u + v * x := by
  have hd : p2.1 - p1.1 ≠ 0 := sub_ne_zero.2 hx.symm
  have hslope : p2.2 - p1.2 = v * (p2.1 - p1.1) := by
    rw [h1, h2]
    ring
  unfold linefit plot
  split_ifs with heq
  · have hv : v = 0 := by
      rw [heq, sub_self] at hslope
      exact (mul_eq_zero.1 hslope.symm).resolve_right hd
    rw [h1, hv]
    ring
  · dsimp only
    rw [hslope, mul_div_cancel_right₀ _ hd, h1]
    ring

/-- There is a line through two points. -/
theorem exists_plot {x1 x2 : K} (hx : x1 ≠ x2) (z1 z2 : K) :
    ∃ f : K × K, plot f x1 = z1 ∧ plot f x2 = z2 := by
  have hd : x2 - x1 ≠ 0 := sub_ne_zero.2 hx.symm
  have h1 : z1 = z1 - (z2 - z1) / (x2 - x1) * x1 + (z2 - z1) / (x2 - x1) * x1 := by ring
  have h2 : z2 = z1 - (z2 - z1) / (x2 - x1) * x1 + (z2 - z1) / (x2 - x1) * x2 := by
    field_simp
    ring
  exact ⟨linefit (x1, z1) (x2, z2), (plot_linefit hx h1 h2 x1).trans h1.symm,
    (plot_linefit hx h1 h2 x2).trans h2.symm⟩

/-- `a + b x + c y + d x y`. -/
structure Bilinear (K : Type) where
  a : K
  b : K
  c : K
  d : K

namespace Bilinear

/-- The value at a point. -/
def eval (f : Bilinear K) (x y : K) : K :=
  f.a + f.b * x + f.c * y + f.d * x * y

/-- The function whose lines at `y0` and `y1` are given. -/
def ofLines (y0 y1 : K) (f0 f1 : K × K) : Bilinear K where
  a := f0.2 - y0 * ((f1.2 - f0.2) / (y1 - y0))
  b := f0.1 - y0 * ((f1.1 - f0.1) / (y1 - y0))
  c := (f1.2 - f0.2) / (y1 - y0)
  d := (f1.1 - f0.1) / (y1 - y0)

theorem eval_ofLines_fst (y0 y1 : K) (f0 f1 : K × K) (x : K) :
    (ofLines y0 y1 f0 f1).eval x y0 = plot f0 x := by
  unfold ofLines eval plot
  ring

theorem eval_ofLines_snd {y0 y1 : K} (hy : y0 ≠ y1) (f0 f1 : K × K) (x : K) :
    (ofLines y0 y1 f0 f1).eval x y1 = plot f1 x := by
  have hd : y1 - y0 ≠ 0 := sub_ne_zero.2 hy.symm
  unfold ofLines eval plot
  field_simp
  ring

/-- The fit along x. -/
theorem plot_alongX (f : Bilinear K) {x1 x2 y z1 z2 : K} (hx : x1 ≠ x2) (h1 : z1 = f.eval x1 y)
    (h2 : z2 = f.eval x2 y) (x : K) : plot (linefit (x1, z1) (x2, z2)) x = f.eval x y := by
  rw [plot_linefit (u := f.a + f.c * y) (v := f.b + f.d * y) hx (by rw [h1, eval]; ring)
    (by rw [h2, eval]; ring), eval]
  ring

/-- The fit along y. -/
theorem plot_alongY (f : Bilinear K) {x y1 y2 : K} (hy : y1 ≠ y2) (y : K) :
    plot (linefit (y1, f.eval x y1) (y2, f.eval x y2)) y = f.eval x y := by
  rw [plot_linefit (u := f.a + f.b * x) (v := f.c + f.d * x) hy (by rw [eval]; ring)
    (by rw [eval]; ring), eval]
  ring

/-- A function is known from its values at two points each of two lines. -/
theorem eq_of_eval {f g : Bilinear K} {x0 x1 x2 x3 y0 y1 : K} (hy : y0 ≠ y1) (h03 : x0 ≠ x3)
    (h12 : x1 ≠ x2) (h0 : f.eval x0 y0 = g.eval x0 y0) (h3 : f.eval x3 y0 = g.eval x3 y0)
    (h1 : f.eval x1 y1 = g.eval x1 y1) (h2 : f.eval x2 y1 = g.eval x2 y1) : f = g := by
  have hy' : y0 - y1 ≠ 0 := sub_ne_zero.2 hy
  -- the lines of the difference vanish
  have hslope0 : f.b + f.d * y0 = g.b + g.d * y0 := by
    refine mul_right_cancel₀ (sub_ne_zero.2 h03) ?_
    simp only [eval] at h0 h3
    linear_combination h0 - h3
  have hslope1 : f.b + f.d * y1 = g.b + g.d * y1 := by
    refine mul_right_cancel₀ (sub_ne_zero.2 h12) ?_
    simp only [eval] at h1 h2
    linear_combination h1 - h2
  have hd : f.d = g.d := by
    refine mul_right_cancel₀ hy' ?_
    linear_combination hslope0 - hslope1
  have hb : f.b = g.b := by
    rw [hd] at hslope0
    exact add_right_cancel hslope0
  have hc : f.c = g.c := by
    refine mul_right_cancel₀ hy' ?_
    simp only [eval, hb, hd] at h0 h1
    linear_combination h0 - h1
  have ha : f.a = g.a := by
    simp only [eval, hb, hc, hd] at h0
    linear_combination h0
  cases f
  cases g
  simp_all

end Bilinear

/-! ## The adjustments of a gantry -/

/-- A position of the toolhead where the bed was probed. -/
abbrev ProbedPos (K : Type) := Fin 3 → K

/-- The configuration of `QuadGantryLevel` and the offsets of the probe. -/
structure QuadGantryLevel (K : Type) where
  maxAdjust : K
  horizontalMoveZ : K
  /-- The first two of `gantry_corners`. -/
  gantryCorners : Fin 2 → K × K
  offsets : Fin 3 → K

namespace QuadGantryLevel

variable (q : QuadGantryLevel K) (positions : Fin 4 → ProbedPos K)

/-- `z_positions` of `probe_finalize`. -/
def zPositions (i : Fin 4) : K :=
  q.horizontalMoveZ - positions i 2

/-- `z_height` of `probe_finalize`. -/
def zHeight : Fin 4 → K :=
  let z := q.zPositions positions
  let ppx : Fin 4 → K × K := fun i => (positions i 0 + q.offsets 0, z i)
  let slopeXPp03 := linefit (ppx 0) (ppx 3)
  let slopeXPp12 := linefit (ppx 1) (ppx 2)
  let a1 := (positions 0 1 + q.offsets 1, plot slopeXPp03 (q.gantryCorners 0).1)
  let a2 := (positions 1 1 + q.offsets 1, plot slopeXPp12 (q.gantryCorners 0).1)
  let slopeYS01 := linefit a1 a2
  let b1 := (positions 0 1 + q.offsets 1, plot slopeXPp03 (q.gantryCorners 1).1)
  let b2 := (positions 1 1 + q.offsets 1, plot slopeXPp12 (q.gantryCorners 1).1)
  let slopeYS23 := linefit b1 b2
  ![plot slopeYS01 (q.gantryCorners 0).2, plot slopeYS01 (q.gantryCorners 1).2,
    plot slopeYS23 (q.gantryCorners 1).2, plot slopeYS23 (q.gantryCorners 0).2]

/-- `z_ave` of `probe_finalize`. -/
def zAve : K :=
  (∑ i, q.zHeight positions i) / 4

/-- `z_adjust` of `probe_finalize`. -/
def zAdjust (i : Fin 4) : K :=
  q.zAve positions - q.zHeight positions i

/-- What `probe_finalize` adjusts the steppers by. -/
def adjustments : Except (CommandError K) (Fin 4 → K) :=
  let z := q.zAdjust positions
  let adjustMax := max (max (z 0) (z 1)) (max (z 2) (z 3))
  if adjustMax > q.maxAdjust then
    .error ⟨"Aborting quad_gantry_level required adjustment %0.6f is greater than max_adjust %0.6f",
      [adjustMax, q.maxAdjust]⟩
  else .ok z

/-- The probed points are two on each of two lines along x. -/
structure Square : Prop where
  y03 : positions 0 1 = positions 3 1
  y12 : positions 1 1 = positions 2 1
  y01 : positions 0 1 ≠ positions 1 1
  x03 : positions 0 0 ≠ positions 3 0
  x12 : positions 1 0 ≠ positions 2 0

/-- The corner of an actuator. -/
def corner : Fin 4 → K × K :=
  ![((q.gantryCorners 0).1, (q.gantryCorners 0).2), ((q.gantryCorners 0).1, (q.gantryCorners 1).2),
    ((q.gantryCorners 1).1, (q.gantryCorners 1).2), ((q.gantryCorners 1).1, (q.gantryCorners 0).2)]

/-- A function goes through the probed points. -/
def Through (f : Bilinear K) : Prop :=
  ∀ i, f.eval (positions i 0 + q.offsets 0) (positions i 1 + q.offsets 1) = q.zPositions positions i

variable {q positions}

/-- The heights of the actuators are those of the function through the probed points. -/
theorem zHeight_eq (hsquare : Square positions) {f : Bilinear K} (hf : q.Through positions f)
    (i : Fin 4) : q.zHeight positions i = f.eval (q.corner i).1 (q.corner i).2 := by
  obtain ⟨y03, y12, y01, x03, x12⟩ := hsquare
  have hline03 : ∀ x, plot (linefit (positions 0 0 + q.offsets 0, q.zPositions positions 0)
      (positions 3 0 + q.offsets 0, q.zPositions positions 3)) x =
      f.eval x (positions 0 1 + q.offsets 1) :=
    f.plot_alongX (fun h => x03 (add_right_cancel h)) (hf 0).symm
      ((hf 3).symm.trans (by rw [y03]))
  have hline12 : ∀ x, plot (linefit (positions 1 0 + q.offsets 0, q.zPositions positions 1)
      (positions 2 0 + q.offsets 0, q.zPositions positions 2)) x =
      f.eval x (positions 1 1 + q.offsets 1) :=
    f.plot_alongX (fun h => x12 (add_right_cancel h)) (hf 1).symm
      ((hf 2).symm.trans (by rw [y12]))
  have hacross : ∀ x y, plot (linefit
      (positions 0 1 + q.offsets 1, f.eval x (positions 0 1 + q.offsets 1))
      (positions 1 1 + q.offsets 1, f.eval x (positions 1 1 + q.offsets 1))) y = f.eval x y :=
    fun x y => f.plot_alongY (fun h => y01 (add_right_cancel h)) y
  unfold zHeight
  simp only [hline03, hline12, hacross]
  fin_cases i <;> rfl

/-- There is one function through the probed points. -/
theorem existsUnique_through (hsquare : Square positions) :
    ∃! f : Bilinear K, q.Through positions f := by
  obtain ⟨y03, y12, y01, x03, x12⟩ := hsquare
  have hy : positions 0 1 + q.offsets 1 ≠ positions 1 1 + q.offsets 1 :=
    fun h => y01 (add_right_cancel h)
  have hx03 : positions 0 0 + q.offsets 0 ≠ positions 3 0 + q.offsets 0 :=
    fun h => x03 (add_right_cancel h)
  have hx12 : positions 1 0 + q.offsets 0 ≠ positions 2 0 + q.offsets 0 :=
    fun h => x12 (add_right_cancel h)
  obtain ⟨f0, h0, h3⟩ := exists_plot hx03 (q.zPositions positions 0) (q.zPositions positions 3)
  obtain ⟨f1, h1, h2⟩ := exists_plot hx12 (q.zPositions positions 1) (q.zPositions positions 2)
  obtain ⟨f, hf⟩ : ∃ f : Bilinear K, q.Through positions f := by
    refine ⟨.ofLines (positions 0 1 + q.offsets 1) (positions 1 1 + q.offsets 1) f0 f1, fun i => ?_⟩
    fin_cases i
    · exact (Bilinear.eval_ofLines_fst ..).trans h0
    · exact (Bilinear.eval_ofLines_snd hy ..).trans h1
    · show Bilinear.eval _ (positions 2 0 + q.offsets 0) (positions 2 1 + q.offsets 1) = _
      rw [← y12]
      exact (Bilinear.eval_ofLines_snd hy ..).trans h2
    · show Bilinear.eval _ (positions 3 0 + q.offsets 0) (positions 3 1 + q.offsets 1) = _
      rw [← y03]
      exact (Bilinear.eval_ofLines_fst ..).trans h3
  refine ⟨f, hf, fun g hg => ?_⟩
  refine Bilinear.eq_of_eval hy hx03 hx12 ((hg 0).trans (hf 0).symm) ?_
    ((hg 1).trans (hf 1).symm) ?_
  · rw [y03]
    exact (hg 3).trans (hf 3).symm
  · rw [y12]
    exact (hg 2).trans (hf 2).symm

/-- The adjustments have no part that lifts the gantry. -/
theorem sum_zAdjust : ∑ i, q.zAdjust positions i = 0 := by
  unfold zAdjust zAve
  rw [Finset.sum_sub_distrib, Finset.sum_const, Finset.card_univ, Fintype.card_fin, nsmul_eq_mul]
  norm_num
  ring

/-- The adjusted gantry is level. -/
theorem eval_adjusted (hx : (q.gantryCorners 0).1 ≠ (q.gantryCorners 1).1)
    (hy : (q.gantryCorners 0).2 ≠ (q.gantryCorners 1).2) {g : Bilinear K}
    (hg : ∀ i, g.eval (q.corner i).1 (q.corner i).2 =
      q.zHeight positions i + q.zAdjust positions i) (x y : K) :
    g.eval x y = q.zAve positions := by
  have hlevel : ∀ i, g.eval (q.corner i).1 (q.corner i).2 = q.zAve positions := by
    intro i
    rw [hg i, zAdjust]
    ring
  have hconst : g = ⟨q.zAve positions, 0, 0, 0⟩ := by
    refine Bilinear.eq_of_eval hy hx hx
      ((hlevel 0).trans ?_) ((hlevel 3).trans ?_) ((hlevel 1).trans ?_) ((hlevel 2).trans ?_)
    all_goals
      unfold Bilinear.eval
      ring
  rw [hconst, Bilinear.eval]
  ring

end QuadGantryLevel

/-! ## Retries -/

/-- What `check_retry` returns. -/
inductive RetryResult where
  | done
  | retry
  deriving DecidableEq, Repr

/-- `max(z_positions) - min(z_positions)`. -/
def probedRange (zPositions : List K) : K :=
  zPositions.max?.getD 0 - zPositions.min?.getD 0

/-- The error of probed heights: their range, rounded to six digits. -/
def roundedRange (zPositions : List K) : K :=
  (roundHalfEven (probedRange zPositions * 1000000) : K) / 1000000

/-- `RetryHelper` in a run. -/
structure RetryHelper (K : Type) where
  errorMsgExtra : String
  maxRetries : ℕ
  retryTolerance : K
  currentRetry : ℕ
  previous : Option K
  increasing : ℕ

namespace RetryHelper

/-- `start`. -/
def start (errorMsgExtra : String) (maxRetries : ℕ) (retryTolerance : K) : RetryHelper K :=
  ⟨errorMsgExtra, maxRetries, retryTolerance, 0, none, 0⟩

variable (r : RetryHelper K)

/-- The condition of `check_increase`. There is no previous error if it was zero. -/
def grew (error : K) : Bool :=
  match r.previous with
  | some previous => previous ≠ 0 && error > previous + 0.0000001
  | none => false

/-- `check_increase`, which returns whether `increasing` is above one. -/
def checkIncrease (error : K) : RetryHelper K :=
  { r with
    increasing := if r.grew error then r.increasing + 1 else r.increasing - 1
    previous := some error }

/-- `check_retry`. -/
def checkRetry (zPositions : List K) :
    Except (CommandError K) (Option RetryResult × RetryHelper K) :=
  if r.maxRetries = 0 then .ok (none, r)
  else
    let error := roundedRange zPositions
    let r := r.checkIncrease error
    if r.increasing > 1 then
      .error ⟨"Retries aborting: Probed points range is increasing. " ++ r.errorMsgExtra, []⟩
    else if error ≤ r.retryTolerance then .ok (some .done, r)
    else
      let r := { r with currentRetry := r.currentRetry + 1 }
      if r.currentRetry > r.maxRetries then .error ⟨"Too many retries", []⟩
      else .ok (some .retry, r)

/-- What `check_retry` returns for the rounded range. -/
theorem checkRetry_eq_ok {r r' : RetryHelper K} {zPositions : List K} {result : Option RetryResult}
    (h : r.checkRetry zPositions = .ok (result, r')) :
    r'.maxRetries = r.maxRetries ∧ r'.retryTolerance = r.retryTolerance ∧
      (r.maxRetries = 0 ∧ result = none ∨
        r.maxRetries ≠ 0 ∧ result = some .done ∧ roundedRange zPositions ≤ r.retryTolerance ∨
        r.maxRetries ≠ 0 ∧ result = some .retry ∧ r.retryTolerance < roundedRange zPositions ∧
          r'.currentRetry = r.currentRetry + 1 ∧ r'.currentRetry ≤ r.maxRetries) := by
  unfold checkRetry at h
  dsimp only at h
  split_ifs at h with hzero hincrease htolerance hmany
  · obtain ⟨rfl, rfl⟩ := Prod.mk.inj (Except.ok.inj h)
    exact ⟨rfl, rfl, Or.inl ⟨hzero, rfl⟩⟩
  · obtain ⟨rfl, rfl⟩ := Prod.mk.inj (Except.ok.inj h)
    exact ⟨rfl, rfl, Or.inr (Or.inl ⟨hzero, rfl, htolerance⟩)⟩
  · obtain ⟨rfl, rfl⟩ := Prod.mk.inj (Except.ok.inj h)
    exact ⟨rfl, rfl, Or.inr (Or.inr ⟨hzero, rfl, not_le.1 htolerance, rfl, not_lt.1 hmany⟩)⟩

end RetryHelper

/-! ## Runs of a command -/

/-- A command that levels, with its configuration. -/
structure Leveller (K : Type) where
  points : ℕ
  steppers : ℕ
  /-- What `probe_finalize` calls `adjust_steppers` with. -/
  adjustments : (Fin points → ProbedPos K) → Except (CommandError K) (Fin steppers → K)
  /-- What `probe_finalize` calls `check_retry` with. -/
  zPositions : (Fin points → ProbedPos K) → List K

/-- `QUAD_GANTRY_LEVEL`. -/
def QuadGantryLevel.leveller (q : QuadGantryLevel K) : Leveller K where
  points := 4
  steppers := 4
  adjustments := q.adjustments
  zPositions := fun positions => List.ofFn (q.zPositions positions)

/-- The configuration of `ZTilt` and the offsets of the probe. -/
structure ZTilt (K : Type) where
  points : ℕ
  zPositions : List (K × K)
  offsets : Fin 3 → K
  /-- `mathutil.coordinate_descent`, over the parameters x, y and z. -/
  coordinateDescent : (Fin 3 → K) → ((Fin 3 → K) → K) → Fin 3 → K

namespace ZTilt

variable (z : ZTilt K) (positions : Fin z.points → ProbedPos K)

/-- `adjusted_height`. -/
def adjustedHeight (pos : ProbedPos K) (params : Fin 3 → K) : K :=
  pos 2 - pos 0 * params 0 - pos 1 * params 1 - params 2

/-- `errorfunc`. -/
def errorfunc (params : Fin 3 → K) : K :=
  ∑ i, adjustedHeight (positions i) params ^ 2

/-- `adjustments` of `probe_finalize`. -/
def adjustments (i : Fin z.zPositions.length) : K :=
  let zOffset := z.offsets 2
  let newParams := z.coordinateDescent ![0, 0, zOffset] (z.errorfunc positions)
  let zAdjust := newParams 2 - zOffset - newParams 0 * z.offsets 0 - newParams 1 * z.offsets 1
  (z.zPositions.get i).1 * newParams 0 + (z.zPositions.get i).2 * newParams 1 + zAdjust

/-- `Z_TILT_ADJUST`. -/
def leveller : Leveller K where
  points := z.points
  steppers := z.zPositions.length
  adjustments := fun positions => .ok (z.adjustments positions)
  zPositions := fun positions => List.ofFn fun i => positions i 2

variable {z positions}

/-- On a flat bed the adjustment of a stepper is the height of the bed there, up to the error that
`coordinate_descent` leaves. The stepper is at the mean of the probed points with the weights `w`. -/
theorem sq_adjustments_sub_le {a b c : K}
    (hflat : ∀ i, positions i 2 = a * (positions i 0 + z.offsets 0) +
      b * (positions i 1 + z.offsets 1) + c + z.offsets 2)
    (j : Fin z.zPositions.length) {w : Fin z.points → K} (hw : ∑ i, w i = 1)
    (hx : ∑ i, w i * (positions i 0 + z.offsets 0) = (z.zPositions.get j).1)
    (hy : ∑ i, w i * (positions i 1 + z.offsets 1) = (z.zPositions.get j).2) :
    (a * (z.zPositions.get j).1 + b * (z.zPositions.get j).2 + c - z.adjustments positions j) ^ 2 ≤
      (∑ i, w i ^ 2) * z.errorfunc positions
        (z.coordinateDescent ![0, 0, z.offsets 2] (z.errorfunc positions)) := by
  refine (congrArg (· ^ 2) ?_).trans_le
    (Finset.sum_mul_sq_le_sq_mul_sq Finset.univ w fun i => adjustedHeight (positions i) _)
  set p := z.coordinateDescent ![0, 0, z.offsets 2] (z.errorfunc positions) with hp
  have hsum : ∀ i, w i * adjustedHeight (positions i) p =
      (a - p 0) * (w i * (positions i 0 + z.offsets 0)) +
        (b - p 1) * (w i * (positions i 1 + z.offsets 1)) +
          w i * (c + z.offsets 2 - p 2 + p 0 * z.offsets 0 + p 1 * z.offsets 1) := by
    intro i
    rw [adjustedHeight, hflat]
    ring
  rw [Finset.sum_congr rfl fun i _ => hsum i, Finset.sum_add_distrib, Finset.sum_add_distrib,
    ← Finset.mul_sum, ← Finset.mul_sum, ← Finset.sum_mul, hx, hy, hw]
  simp only [adjustments, ← hp]
  ring

/-- Three probed points of a bed that rises by a tenth in x, and a stepper. -/
def slope : ZTilt ℚ := ⟨3, [(20, 10)], ![0, 0, 1], fun _ _ => ![1 / 10, 0, 1]⟩

theorem sq_adjustments_sub_le_slope : ∃ p j, (1 / 10 * (slope.zPositions.get j).1 +
    0 * (slope.zPositions.get j).2 + 0 - slope.adjustments p j) ^ 2 ≤
      (∑ i, ![-1, 1, 1] i ^ 2) * slope.errorfunc p
        (slope.coordinateDescent ![0, 0, slope.offsets 2] (slope.errorfunc p)) :=
  ⟨![![0, 0, 1], ![20, 0, 3], ![0, 10, 1]], ⟨0, Nat.one_pos⟩, sq_adjustments_sub_le
    (by decide +kernel) _ (by decide +kernel) (by decide +kernel) (by decide +kernel)⟩

end ZTilt

/-- What a probing of a point comes to. Only a manual one is aborted. -/
inductive ProbeResult (K : Type) where
  | raised
  | aborted
  | found (pos : ProbedPos K)

/-- What happens in a turn of the loop of `start_probe`, as far as it comes to it : which moves
raise, whether the heaters are to stop, and the probing. -/
structure Turn (K : Type) where
  liftRaises : Bool
  adjustRaises : Bool
  moveRaises : Bool
  stopHeating : Bool
  probe : ProbeResult K

inductive LevelEvent (K : Type) where
  | turn (t : Turn K)
  /-- `multi_probe_end` at the end. -/
  | endProbe (raises : Bool)

inductive LevelStatus (K : Type) where
  | running
  | ending
  | returned
  | raised (error : Option (CommandError K))
  deriving DecidableEq

/-- A run of a command, with the points probed and the calls of `adjust_steppers` so far. -/
structure LevelRun (L : Leveller K) where
  manual : Bool
  applied : Bool
  retryHelper : RetryHelper K
  results : List (ProbedPos K)
  status : LevelStatus K
  probings : List (Fin L.points → ProbedPos K)
  adjusted : List (Fin L.steppers → K)

namespace LevelRun

variable {L : Leveller K}

/-- The command after `reset` of the status and `start` of the retries. -/
def start (L : Leveller K) (manual : Bool) (r : RetryHelper K) : LevelRun L :=
  ⟨manual, false, r, [], .running, [], []⟩

variable (s : LevelRun L)

/-- `probe_finalize`. -/
def probeFinalize (positions : Fin L.points → ProbedPos K) (adjustRaises : Bool) :
    LevelRun L × Except (Option (CommandError K)) (Option RetryResult) :=
  let s := { s with probings := s.probings ++ [positions] }
  match L.adjustments positions with
  | .error e => (s, .error (some e))
  | .ok a =>
    let s := { s with adjusted := s.adjusted ++ [a] }
    if adjustRaises then (s, .error none)
    else
      match s.retryHelper.checkRetry (L.zPositions positions) with
      | .error e => (s, .error (some e))
      | .ok (result, r) =>
        -- `check_retry_result`
        ({ s with retryHelper := r, applied := s.applied || result = some .done }, .ok result)

/-- The rest of a turn, where the points are not all probed. -/
def nextPoint (t : Turn K) : LevelRun L :=
  if t.moveRaises then { s with status := .raised none }
  else if !s.manual && t.stopHeating then { s with status := .ending }
  else
    match t.probe with
    | .raised => { s with status := .raised none }
    | .aborted => { s with status := .returned }
    | .found pos => { s with results := s.results ++ [pos] }

/-- A turn of the loop of `start_probe`, or of the manual probe : `_move_next` and a probing. -/
def turn (t : Turn K) : LevelRun L :=
  if t.liftRaises then { s with status := .raised none }
  else if h : L.points ≤ s.results.length then
    match s.probeFinalize (fun i => s.results.get ⟨i, i.2.trans_le h⟩) t.adjustRaises with
    | (s, .error e) => { s with status := .raised e }
    | (s, .ok (some .retry)) => { s with results := [] }.nextPoint t
    | (s, .ok _) => { s with status := if s.manual then .returned else .ending }
  else s.nextPoint t

/-- The run after an event, if it can happen. -/
def next (e : LevelEvent K) : Option (LevelRun L) :=
  match s.status, e with
  | .running, .turn t =>
    match s.manual, t.probe with
    | false, .aborted => none
    | _, _ => some (s.turn t)
  | .ending, .endProbe raises =>
    some { s with status := if raises then .raised none else .returned }
  | _, _ => none

/-- The runs of a command. -/
def system (L : Leveller K) (maxRetries : ℕ) (retryTolerance : K) :
    System (LevelRun L) (LevelEvent K) where
  init s := ∃ manual errorMsgExtra,
    s = start L manual (.start errorMsgExtra maxRetries retryTolerance)
  next := next

/-- The rounded range of the last probed heights is within the tolerance. -/
def WithinTolerance (retryTolerance : K) : Prop :=
  ∃ positions ∈ s.probings.getLast?, roundedRange (L.zPositions positions) ≤ retryTolerance

/-- What holds in every state of a run. -/
structure Levels (maxRetries : ℕ) (retryTolerance : K) : Prop where
  maxRetries_eq : s.retryHelper.maxRetries = maxRetries
  tolerance_eq : s.retryHelper.retryTolerance = retryTolerance
  probings_le : s.probings.length ≤ maxRetries + 1
  adjusted : ∀ a ∈ s.adjusted, ∃ positions ∈ s.probings, L.adjustments positions = .ok a
  within : s.applied = true → maxRetries ≠ 0 ∧ s.WithinTolerance retryTolerance
  applied : s.status = .ending ∨ s.status = .returned → maxRetries ≠ 0 →
    s.WithinTolerance retryTolerance → s.applied = true

/-- What holds besides while points are probed. -/
structure Probing (maxRetries : ℕ) (retryTolerance : K) : Prop where
  probings_eq : s.probings.length = s.retryHelper.currentRetry
  currentRetry_le : s.retryHelper.currentRetry ≤ maxRetries
  applied : s.applied = false
  not_within : ¬s.WithinTolerance retryTolerance

variable {s} {maxRetries : ℕ} {retryTolerance : K}

/-- A turn that probes no further point, or one. -/
theorem levels_nextPoint (h : s.Levels maxRetries retryTolerance)
    (hs : s.Probing maxRetries retryTolerance) (t : Turn K) :
    (s.nextPoint t).Levels maxRetries retryTolerance ∧
      ((s.nextPoint t).status = .running → (s.nextPoint t).Probing maxRetries retryTolerance) := by
  have hlevels : ∀ (status : LevelStatus K) (results : List (ProbedPos K)),
      ({ s with status := status, results := results } : LevelRun L).Levels
        maxRetries retryTolerance := fun status results =>
    ⟨h.maxRetries_eq, h.tolerance_eq, h.probings_le, h.adjusted, h.within,
      fun _ _ hwithin => absurd hwithin hs.not_within⟩
  have hprobing : ∀ (status : LevelStatus K) (results : List (ProbedPos K)),
      ({ s with status := status, results := results } : LevelRun L).Probing
        maxRetries retryTolerance := fun status results =>
    ⟨hs.probings_eq, hs.currentRetry_le, hs.applied, hs.not_within⟩
  unfold nextPoint
  split_ifs
  · exact ⟨hlevels _ _, fun _ => hprobing _ _⟩
  · exact ⟨hlevels _ _, fun _ => hprobing _ _⟩
  · cases t.probe with
    | raised => exact ⟨hlevels _ _, fun _ => hprobing _ _⟩
    | aborted => exact ⟨hlevels _ _, fun _ => hprobing _ _⟩
    | found pos => exact ⟨hlevels _ _, fun _ => hprobing _ _⟩

/-- What `probe_finalize` leaves in a run, by what becomes of it. -/
def Finalized (maxRetries : ℕ) (retryTolerance : K) :
    LevelRun L × Except (Option (CommandError K)) (Option RetryResult) → Prop
  | (s, .error e) => ({ s with status := .raised e } : LevelRun L).Levels maxRetries retryTolerance
  | (s, .ok (some .retry)) => s.Levels maxRetries retryTolerance ∧
      s.Probing maxRetries retryTolerance
  | (s, .ok _) => ∀ status, ({ s with status := status } : LevelRun L).Levels
      maxRetries retryTolerance

theorem finalized_probeFinalize (h : s.Levels maxRetries retryTolerance)
    (hs : s.Probing maxRetries retryTolerance) (hrunning : s.status = .running)
    (positions : Fin L.points → ProbedPos K) (adjustRaises : Bool) :
    Finalized maxRetries retryTolerance (s.probeFinalize positions adjustRaises) := by
  have hcount : (s.probings ++ [positions]).length = s.retryHelper.currentRetry + 1 := by
    rw [List.length_append, List.length_singleton, hs.probings_eq]
  have hprobings : (s.probings ++ [positions]).length ≤ maxRetries + 1 := by
    rw [hcount]
    exact Nat.succ_le_succ hs.currentRetry_le
  have hlast : positions ∈ (s.probings ++ [positions]).getLast? := List.getLast?_concat
  have hnotApplied : ¬s.applied = true := by
    rw [hs.applied]
    exact Bool.false_ne_true
  have hadjusted : ∀ a ∈ s.adjusted, ∃ p ∈ s.probings ++ [positions], L.adjustments p = .ok a := by
    intro a ha
    obtain ⟨p, hp, hpa⟩ := h.adjusted a ha
    exact ⟨p, List.mem_append_left _ hp, hpa⟩
  unfold probeFinalize
  dsimp only
  cases ha : L.adjustments positions with
  | error e =>
    exact ⟨h.maxRetries_eq, h.tolerance_eq, hprobings, hadjusted,
      fun happlied => absurd happlied hnotApplied, fun hstatus => by simp at hstatus⟩
  | ok a =>
    have hadjusted' : ∀ b ∈ s.adjusted ++ [a],
        ∃ p ∈ s.probings ++ [positions], L.adjustments p = .ok b := by
      intro b hb
      rcases List.mem_append.1 hb with hb | hb
      · exact hadjusted b hb
      · obtain rfl := List.mem_singleton.1 hb
        exact ⟨positions, by simp, ha⟩
    dsimp only
    split_ifs
    · exact ⟨h.maxRetries_eq, h.tolerance_eq, hprobings, hadjusted',
        fun happlied => absurd happlied hnotApplied, fun hstatus => by simp at hstatus⟩
    · cases hr : s.retryHelper.checkRetry (L.zPositions positions) with
      | error e =>
        exact ⟨h.maxRetries_eq, h.tolerance_eq, hprobings, hadjusted',
          fun happlied => absurd happlied hnotApplied, fun hstatus => by simp at hstatus⟩
      | ok out =>
        obtain ⟨result, r⟩ := out
        obtain ⟨hretries, htolerance, hcases⟩ := RetryHelper.checkRetry_eq_ok hr
        rw [h.maxRetries_eq] at hretries hcases
        rw [h.tolerance_eq] at htolerance hcases
        rcases hcases with ⟨hzero, rfl⟩ | ⟨hne, rfl, hle⟩ | ⟨hne, rfl, hlt, hcurrent, hcurrent_le⟩
        · -- no retries requested
          refine fun status => ⟨hretries, htolerance, hprobings, hadjusted', fun happlied => ?_,
            fun _ hne => absurd hzero hne⟩
          simp [hs.applied] at happlied
        · exact fun status => ⟨hretries, htolerance, hprobings, hadjusted',
            fun _ => ⟨hne, positions, hlast, hle⟩, fun _ _ _ => by simp⟩
        · have hnot : ∀ p ∈ (s.probings ++ [positions]).getLast?,
              ¬roundedRange (L.zPositions p) ≤ retryTolerance := by
            intro p hp
            rw [List.getLast?_concat] at hp
            obtain rfl := Option.some_inj.1 hp
            exact not_le.2 hlt
          have hnotYet : (s.applied || decide (some RetryResult.retry = some .done)) = false := by
            rw [hs.applied]
            rfl
          refine ⟨⟨hretries, htolerance, hprobings, hadjusted', fun happlied => ?_,
            fun hstatus => ?_⟩, ⟨hcount.trans hcurrent.symm, hcurrent_le, hnotYet, ?_⟩⟩
          · exact absurd (hnotYet.symm.trans happlied) Bool.false_ne_true
          · simp [hrunning] at hstatus
          · rintro ⟨p, hp, hle⟩
            exact hnot p hp hle

/-- A turn. -/
theorem levels_turn (h : s.Levels maxRetries retryTolerance)
    (hs : s.Probing maxRetries retryTolerance) (hrunning : s.status = .running) (t : Turn K) :
    (s.turn t).Levels maxRetries retryTolerance ∧
      ((s.turn t).status = .running → (s.turn t).Probing maxRetries retryTolerance) := by
  unfold turn
  split_ifs with hlift hpoints
  · exact ⟨⟨h.maxRetries_eq, h.tolerance_eq, h.probings_le, h.adjusted, h.within,
      fun _ _ hwithin => absurd hwithin hs.not_within⟩,
      fun _ => ⟨hs.probings_eq, hs.currentRetry_le, hs.applied, hs.not_within⟩⟩
  · have hfinalized := finalized_probeFinalize h hs hrunning
      (fun i => s.results.get ⟨i, i.2.trans_le hpoints⟩) t.adjustRaises
    cases hf : s.probeFinalize (fun i => s.results.get ⟨i, i.2.trans_le hpoints⟩)
        t.adjustRaises with
    | mk u out =>
      rw [hf] at hfinalized
      match out, hfinalized with
      | .error e, hu => exact ⟨hu, fun hstatus => by cases hstatus⟩
      | .ok (some .retry), ⟨hu, hprobing⟩ =>
        exact levels_nextPoint (s := { u with results := [] })
          ⟨hu.maxRetries_eq, hu.tolerance_eq, hu.probings_le, hu.adjusted, hu.within, hu.applied⟩
          ⟨hprobing.probings_eq, hprobing.currentRetry_le, hprobing.applied, hprobing.not_within⟩ t
      | .ok (some .done), hu =>
        refine ⟨hu _, fun hstatus => ?_⟩
        dsimp only at hstatus
        split_ifs at hstatus
      | .ok none, hu =>
        refine ⟨hu _, fun hstatus => ?_⟩
        dsimp only at hstatus
        split_ifs at hstatus
  · exact levels_nextPoint h hs t

/-- Every state of a run. -/
theorem levels_of_reachable (h : (system L maxRetries retryTolerance).Reachable s) :
    s.Levels maxRetries retryTolerance ∧
      (s.status = .running → s.Probing maxRetries retryTolerance) := by
  refine h.invariant (I := fun s => s.Levels maxRetries retryTolerance ∧
    (s.status = .running → s.Probing maxRetries retryTolerance)) ?_ ?_
  · rintro s ⟨manual, errorMsgExtra, rfl⟩
    refine ⟨⟨rfl, rfl, Nat.zero_le _, fun a ha => ?_, fun happlied => ?_, fun hstatus => ?_⟩,
      fun _ => ⟨rfl, Nat.zero_le _, rfl, ?_⟩⟩
    · cases ha
    · cases happlied
    · rcases hstatus with hstatus | hstatus <;> cases hstatus
    · rintro ⟨p, hp, -⟩
      cases hp
  · rintro s e t ⟨hs, hprobing⟩ - hnext
    simp only [system, next] at hnext
    split at hnext
    · rename_i hrunning
      split at hnext
      · cases hnext
      · obtain rfl := Option.some_inj.1 hnext
        exact levels_turn hs (hprobing hrunning) hrunning _
    · rename_i raises hending
      obtain rfl := Option.some_inj.1 hnext
      refine ⟨⟨hs.maxRetries_eq, hs.tolerance_eq, hs.probings_le, hs.adjusted, hs.within,
        fun _ => hs.applied (Or.inl hending)⟩, fun hstatus => ?_⟩
      dsimp only at hstatus
      split_ifs at hstatus
    · cases hnext

/-- A run probes at most once more than it has retries. With retries, the gantry is levelled only if
the last probed heights are within the tolerance, and if they are where the run returned. -/
structure Ends (maxRetries : ℕ) (retryTolerance : K) (s : LevelRun L) : Prop where
  probings_le : s.probings.length ≤ maxRetries + 1
  probings_lt : s.status = .running → s.probings.length < maxRetries + 1
  within : maxRetries ≠ 0 → s.applied = true → s.WithinTolerance retryTolerance
  applied : maxRetries ≠ 0 → s.status = .returned →
    (s.applied = true ↔ s.WithinTolerance retryTolerance)

theorem ends_of_reachable (h : (system L maxRetries retryTolerance).Reachable s) :
    s.Ends maxRetries retryTolerance := by
  obtain ⟨hs, hprobing⟩ := levels_of_reachable h
  refine ⟨hs.probings_le, fun hstatus => ?_, fun _ happlied => (hs.within happlied).2,
    fun hne hstatus => ⟨fun happlied => (hs.within happlied).2, hs.applied (Or.inr hstatus) hne⟩⟩
  have hprobing := hprobing hstatus
  rw [hprobing.probings_eq]
  exact Nat.lt_succ_of_le hprobing.currentRetry_le

end LevelRun

namespace QuadGantryLevel

variable {q : QuadGantryLevel K} {positions : Fin 4 → ProbedPos K}

/-- Only adjustments up to the limit are made. -/
theorem adjustments_eq_ok {a : Fin 4 → K} (h : q.adjustments positions = .ok a) :
    a = q.zAdjust positions ∧ ∀ i, a i ≤ q.maxAdjust := by
  unfold adjustments at h
  dsimp only at h
  split_ifs at h with hmax
  obtain rfl := Except.ok.inj h
  simp only [gt_iff_lt, not_lt, max_le_iff] at hmax
  refine ⟨rfl, fun i => ?_⟩
  fin_cases i
  · exact hmax.1.1
  · exact hmax.1.2
  · exact hmax.2.1
  · exact hmax.2.2

/-- Levelling a gantry : the heights of the actuators are those of the function through the probed
points, the adjustments make it level and are within the limit, and the retries end. -/
theorem levels_of_square (hsquare : Square positions)
    (hx : (q.gantryCorners 0).1 ≠ (q.gantryCorners 1).1)
    (hy : (q.gantryCorners 0).2 ≠ (q.gantryCorners 1).2) :
    (∃! f : Bilinear K, q.Through positions f) ∧
    (∀ f : Bilinear K, q.Through positions f →
      (∀ i, q.zHeight positions i = f.eval (q.corner i).1 (q.corner i).2) ∧
      ∀ g : Bilinear K, (∀ i, g.eval (q.corner i).1 (q.corner i).2 =
        f.eval (q.corner i).1 (q.corner i).2 + q.zAdjust positions i) →
        ∀ x y, g.eval x y = q.zAve positions) ∧
    ∑ i, q.zAdjust positions i = 0 ∧
    (∀ (maxRetries : ℕ) (retryTolerance : K) (s : LevelRun q.leveller),
      (LevelRun.system q.leveller maxRetries retryTolerance).Reachable s →
      ∀ a ∈ s.adjusted, ∃ p ∈ s.probings, a = q.zAdjust p ∧ ∀ i, a i ≤ q.maxAdjust) ∧
    ∀ (L : Leveller K) (maxRetries : ℕ) (retryTolerance : K) (s : LevelRun L),
      (LevelRun.system L maxRetries retryTolerance).Reachable s →
      s.Ends maxRetries retryTolerance := by
  refine ⟨existsUnique_through hsquare, fun f hf => ⟨zHeight_eq hsquare hf, fun g hg => ?_⟩,
    sum_zAdjust, fun maxRetries retryTolerance s hs a ha => ?_,
    fun L maxRetries retryTolerance s hs => LevelRun.ends_of_reachable hs⟩
  · refine eval_adjusted hx hy fun i => (hg i).trans ?_
    rw [zHeight_eq hsquare hf i]
  · obtain ⟨p, hp, hpa⟩ := (LevelRun.levels_of_reachable hs).1.adjusted a ha
    exact ⟨p, hp, adjustments_eq_ok hpa⟩

/-- A gantry of an example. -/
def largeGantry : QuadGantryLevel ℚ where
  maxAdjust := 4
  horizontalMoveZ := 5
  gantryCorners := ![(-50, -10), (350, 370)]
  offsets := ![0, 20, 2]

/-- The points of it, with their heights. -/
def largePoints (z : Fin 4 → ℚ) : Fin 4 → ProbedPos ℚ :=
  ![![50, 30, z 0], ![50, 230, z 1], ![250, 230, z 2], ![250, 30, z 3]]

theorem square_largePoints (z : Fin 4 → ℚ) : Square (largePoints z) :=
  ⟨rfl, rfl, show (30 : ℚ) ≠ 230 by norm_num, show (50 : ℚ) ≠ 250 by norm_num,
    show (50 : ℚ) ≠ 250 by norm_num⟩

theorem levels_largeGantry :
    ∃ f : Bilinear ℚ, largeGantry.Through (largePoints ![2, 2, 1, 1]) f ∧
      f.eval (-50) (-10) = 2.5 := by
  obtain ⟨⟨f, hf, -⟩, hheight, -⟩ := levels_of_square (square_largePoints ![2, 2, 1, 1])
    (q := largeGantry) (by decide +kernel) (by decide +kernel)
  refine ⟨f, hf, ?_⟩
  have hcorner := (hheight f hf).1 0
  exact hcorner.symm.trans (by decide +kernel)

/-- The turns of a run that probes heights almost within a tolerance of a micrometre. -/
def almostLevel : List (LevelEvent ℚ) :=
  let pos := largePoints ![0, 0, 0, 14 / 10000000]
  [pos 0, pos 1, pos 2, pos 3, pos 0].map (fun p => .turn ⟨false, false, false, false, .found p⟩) ++
    [.endProbe false]

/-- The end of this run. -/
def almostLevelled : LevelRun largeGantry.leveller :=
  ((LevelRun.system largeGantry.leveller 1 (1 / 1000000)).run
    (LevelRun.start largeGantry.leveller false (.start "" 1 (1 / 1000000))) almostLevel).get
      (by decide +kernel)

/-- The range is rounded before it is compared. -/
theorem not_levels_rounded :
    ¬∀ (maxRetries : ℕ) (retryTolerance : ℚ) (s : LevelRun largeGantry.leveller),
      (LevelRun.system largeGantry.leveller maxRetries retryTolerance).Reachable s →
      maxRetries ≠ 0 → s.status = .returned → s.applied = true →
      ∃ p ∈ s.probings.getLast?,
        probedRange (largeGantry.leveller.zPositions p) ≤ retryTolerance := by
  intro h
  have hinit : (LevelRun.system largeGantry.leveller 1 (1 / 1000000)).Reachable
      (LevelRun.start largeGantry.leveller false (.start "" 1 (1 / 1000000))) :=
    .init ⟨false, "", rfl⟩
  have hreach : (LevelRun.system largeGantry.leveller 1 (1 / 1000000)).Reachable almostLevelled :=
    hinit.run (Option.some_get _).symm
  obtain ⟨p, hp, hle⟩ := h 1 (1 / 1000000) _ hreach one_ne_zero (by decide +kernel)
    (by decide +kernel)
  have hlast : almostLevelled.probings.getLast?.all (fun p =>
      1 / 1000000 < probedRange (largeGantry.leveller.zPositions p)) = true := by decide +kernel
  rw [Option.mem_def.1 hp] at hlast
  exact not_le.2 (of_decide_eq_true hlast) hle

end QuadGantryLevel

end Thinker
