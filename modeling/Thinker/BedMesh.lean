import Thinker.Move
import Thinker.ZMesh

/-!
# Bed mesh compensation

`BedMesh` (`bed_mesh.py`) is a move transform : `move` adds the height of the mesh, faded out with
the z of the g-code, and `get_position` takes it away from the position of the toolhead again. It
only knows the z of the toolhead there, so it compares this and this without the full height with
the range of the fade. Both are shifted by the fade target, which the comparison leaves out :
`Recovers` says for which heights the factor is found again (`findsAdj_iff`).

Arithmetic is exact, and `math.sqrt` is a parameter.
-/

set_option linter.unusedSectionVars false

namespace Thinker

variable {K : Type} [Field K] [LinearOrder K] [IsStrictOrderedRing K] [FloorRing K]

/-! ## Heights of a mesh -/

/-- `round` to an integer, halves to the even one. -/
def roundHalfEven (x : K) : ℤ :=
  if Int.fract x < 1 / 2 then ⌊x⌋
  else if 1 / 2 < Int.fract x then ⌊x⌋ + 1
  else if Even ⌊x⌋ then ⌊x⌋ else ⌊x⌋ + 1

namespace ZMesh

/-- `get_z_range`. -/
def getZRange (m : ZMesh K) : Option (K × K) :=
  match m.table m.meshMatrix with
  | some tbl => do
    let mins ← tbl.mapM fun row => row.min?
    let maxs ← tbl.mapM fun row => row.max?
    let lowest ← mins.min?
    let highest ← maxs.max?
    pure (lowest, highest)
  | none => some (0, 0)

/-- `get_z_average`. -/
def getZAverage (m : ZMesh K) : Option K :=
  match m.table m.meshMatrix with
  | some tbl => do
    let avg ← divide ((tbl.map List.sum).sum) (((tbl.map List.length).sum : ℕ) : K)
    pure (roundHalfEven (avg * 100) / 100)
  | none => some 0

end ZMesh

/-! ## The fade -/

/-- `FADE_DISABLE`. -/
def fadeDisable : K := 0x7FFFFFFF

/-- The range in which the compensation fades out. It is empty where fading is disabled. -/
structure Fade (K : Type) [Field K] [LinearOrder K] where
  fadeStart : K
  fadeEnd : K
  fadeDist : K
  range : (fadeDist = fadeEnd - fadeStart ∧ 0 < fadeDist) ∨ (fadeStart = fadeEnd ∧ fadeDist ≤ 0)

namespace Fade

/-- The fade of a configuration. -/
def init (fadeStart fadeEnd : K) : Fade K :=
  if h : fadeEnd - fadeStart ≤ 0 then ⟨fadeDisable, fadeDisable, fadeEnd - fadeStart, .inr ⟨rfl, h⟩⟩
  else ⟨fadeStart, fadeEnd, fadeEnd - fadeStart, .inl ⟨rfl, not_le.1 h⟩⟩

variable (f : Fade K)

/-- `get_z_factor`. -/
def getZFactor (zPos : K) : K :=
  if zPos ≥ f.fadeEnd then 0
  else if zPos ≥ f.fadeStart then (f.fadeEnd - zPos) / f.fadeDist
  else 1

/-- The factor that `get_position` finds for a z of the toolhead. -/
def findFactor (fadeTarget maxAdj z : K) : Option K :=
  let zAdj := maxAdj - fadeTarget
  if min z (z - maxAdj) ≥ f.fadeEnd then some 0
  else if max z (z - maxAdj) ≥ f.fadeStart then
    (divide (f.fadeEnd + fadeTarget - z) (f.fadeDist - zAdj)).map fun factor => constrain factor 0 1
  else some 1

end Fade

/-! ## Splitting moves -/

/-- `MoveSplitter` : its options, and the mesh that it was initialized with. -/
structure MoveSplitter (K : Type) [Field K] [LinearOrder K] where
  splitDeltaZ : K
  moveCheckDistance : K
  zMesh : Option (ZMesh K)
  fadeOffset : K
  three_le : 3 ≤ moveCheckDistance

/-- What `build_move` and `split` keep of a move. -/
structure SplitMove (K : Type) where
  prevPos : Coord K
  nextPos : Coord K
  currentPos : Coord K
  zFactor : K
  zOffset : K
  traverseComplete : Bool
  distanceChecked : K
  totalMoveLength : K
  axisMove : Fin 4 → Bool

namespace MoveSplitter

variable (sqrt : K → K) (sp : MoveSplitter K)

/-- `_calc_z_offset`. -/
def calcZOffset (zFactor : K) (pos : Coord K) : Option K := do
  let mesh ← sp.zMesh
  let z ← mesh.calcZ (pos 0) (pos 1)
  pure (zFactor * (z - sp.fadeOffset) + sp.fadeOffset)

/-- `isclose(d, 0., abs_tol=1e-10)`. -/
def isCloseZero (d : K) : Bool :=
  decide (|d| ≤ max (1 / 10 ^ 9 * |d|) (1 / 10 ^ 10))

/-- `build_move`. -/
def buildMove (prevPos nextPos : Coord K) (factor : K) : Option (SplitMove K) := do
  let zOffset ← sp.calcZOffset factor prevPos
  let axesD : Coord K := fun i => nextPos i - prevPos i
  pure
    { prevPos := prevPos
      nextPos := nextPos
      currentPos := prevPos
      zFactor := factor
      zOffset := zOffset
      traverseComplete := false
      distanceChecked := 0
      totalMoveLength := sqrt (axesD 0 * axesD 0 + axesD 1 * axesD 1 + axesD 2 * axesD 2)
      axisMove := fun i => !isCloseZero (axesD i) }

/-- `_set_next_move`. -/
def setNextMove (s : SplitMove K) (distanceFromPrev : K) : Option (SplitMove K) := do
  let t ← divide distanceFromPrev s.totalMoveLength
  if t > 1 ∨ t < 0 then none
  else pure { s with
    currentPos := fun i =>
      if s.axisMove i then lerp t (s.prevPos i) (s.nextPos i) else s.currentPos i }

/-- A position with another z. -/
def withZ (pos : Coord K) (z : K) : Coord K :=
  ![pos 0, pos 1, z, pos 3]

/-- The loop of `split` over the distances that are checked : the position where the move is split,
if there is one. -/
def splitLoop : ℕ → SplitMove K → Option (SplitMove K × Option (Coord K))
  | 0, _ => none
  | fuel + 1, s =>
    if s.distanceChecked + sp.moveCheckDistance < s.totalMoveLength then do
      let s := { s with distanceChecked := s.distanceChecked + sp.moveCheckDistance }
      let s ← setNextMove s s.distanceChecked
      let nextZ ← sp.calcZOffset s.zFactor s.currentPos
      if |nextZ - s.zOffset| ≥ sp.splitDeltaZ then
        pure ({ s with zOffset := nextZ }, some (withZ s.currentPos (s.currentPos 2 + nextZ)))
      else splitLoop fuel s
    else some (s, none)

/-- Only a move in X or Y is checked. -/
def checkMove (fuel : ℕ) (s : SplitMove K) : Option (SplitMove K × Option (Coord K)) :=
  if s.axisMove 0 || s.axisMove 1 then sp.splitLoop fuel s else some (s, none)

/-- `split` of a move that is not complete. -/
def split (fuel : ℕ) (s : SplitMove K) : Option (SplitMove K × Coord K) := do
  let (s, pos) ← sp.checkMove fuel s
  match pos with
  | some pos => pure (s, pos)
  | none =>
    let zOffset ← sp.calcZOffset s.zFactor s.nextPos
    let pos := withZ s.nextPos (s.nextPos 2 + zOffset)
    pure ({ s with currentPos := pos, zOffset := zOffset, traverseComplete := true }, pos)

/-- The loop of `move` over the parts of a move : the positions that the toolhead moves to. -/
def traverse (fuel : ℕ) : ℕ → SplitMove K → Option (List (Coord K))
  | 0, _ => none
  | n + 1, s =>
    if s.traverseComplete then some []
    else do
      let (s, pos) ← sp.split fuel s
      let rest ← traverse fuel n s
      pure (pos :: rest)

end MoveSplitter

/-! ## The transform -/

/-- `BedMesh`, with the position of the toolhead. -/
structure BedMesh (K : Type) [Field K] [LinearOrder K] where
  fade : Fade K
  baseFadeTarget : Option K
  fadeTarget : K
  zMesh : Option (ZMesh K)
  splitter : MoveSplitter K
  lastPosition : Coord K
  toolhead : Coord K

namespace BedMesh

variable (sqrt : K → K) (b : BedMesh K)

/-- `set_mesh` before it raises : the splitter keeps its mesh. -/
def dropMesh : BedMesh K :=
  { b with zMesh := none, fadeTarget := 0 }

/-- The mesh is taken by the transform and the splitter. -/
def takeMesh (mesh : Option (ZMesh K)) (fadeTarget : K) : BedMesh K :=
  { b with
    zMesh := mesh
    fadeTarget := fadeTarget
    splitter := { b.splitter with zMesh := mesh, fadeOffset := fadeTarget } }

/-- `set_mesh` : the state after it, or with which it raises. -/
def setMesh (mesh : Option (ZMesh K)) : Except (BedMesh K) (BedMesh K) :=
  match mesh with
  | none => .ok (b.takeMesh none 0)
  | some m =>
    if b.fade.fadeEnd = fadeDisable then .ok (b.takeMesh (some m) 0)
    else
      match m.getZRange, b.baseFadeTarget.or m.getZAverage with
      | some (minZ, maxZ), some target =>
        if b.baseFadeTarget ≠ none ∧ ¬ (minZ ≤ target ∧ target ≤ maxZ) ∧ target ≠ 0 then
          .error b.dropMesh
        else if b.fade.fadeDist ≤ max |minZ| |maxZ| then .error b.dropMesh
        else .ok (b.takeMesh (some m) target)
      | _, _ => .error b

/-- The parts of a move are as many as fit into its length, and its end. -/
def splitFuel (s : SplitMove K) : ℕ :=
  ⌊s.totalMoveLength / b.splitter.moveCheckDistance⌋₊ + 2

/-- `toolhead.move`. -/
def toolheadMove (pos : Coord K) : BedMesh K :=
  { b with toolhead := pos }

/-- The moves of the toolhead for a g-code position. -/
def toolheadMoves (newpos : Coord K) : Option (List (Coord K)) :=
  let factor := b.fade.getZFactor (newpos 2)
  if b.zMesh.isNone || factor = 0 then
    some [MoveSplitter.withZ newpos (newpos 2 + b.fadeTarget)]
  else do
    let s ← b.splitter.buildMove sqrt b.lastPosition newpos factor
    b.splitter.traverse (b.splitFuel s) (b.splitFuel s + 1) s

/-- `move`. -/
def move (newpos : Coord K) : Option (BedMesh K) := do
  let moves ← b.toolheadMoves sqrt newpos
  pure { moves.foldl toolheadMove b with lastPosition := newpos }

/-- The position of the toolhead without the adjustment of the mesh. -/
def unadjusted : Option (Coord K) :=
  match b.zMesh with
  | none => some (MoveSplitter.withZ b.toolhead (b.toolhead 2 - b.fadeTarget))
  | some mesh => do
    let maxAdj ← mesh.calcZ (b.toolhead 0) (b.toolhead 1)
    let factor ← b.fade.findFactor b.fadeTarget maxAdj (b.toolhead 2)
    let finalZAdj := factor * (maxAdj - b.fadeTarget) + b.fadeTarget
    pure (MoveSplitter.withZ b.toolhead (b.toolhead 2 - finalZAdj))

/-- `get_position`. -/
def getPosition : Option (BedMesh K × Coord K) := do
  let pos ← b.unadjusted
  pure ({ b with lastPosition := pos }, pos)

end BedMesh

/-! ## The factor is found again -/

namespace Fade

variable {f : Fade K} {T h z : K}

/-- The heights `h` of the mesh and `T` of the fade target for which the compensation of a g-code z
is found from the z of the toolhead : the two heights that are compared lie on the same side of the
ends of the fade as `z`, and the equation for the factor has a solution. -/
def Recovers (f : Fade K) (T h z : K) : Prop :=
  if f.fadeEnd ≤ z then
    (f.fadeEnd ≤ z + T ∧ f.fadeEnd ≤ z + T - h) ∨
      (f.fadeStart ≤ z + T ∨ f.fadeStart ≤ z + T - h) ∧
        (0 < f.fadeDist - (h - T) ∨ f.fadeDist - (h - T) < 0 ∧ (z = f.fadeEnd ∨ h = T))
  else if f.fadeStart ≤ z then
    h = T ∨
      f.fadeDist - (h - T) ≠ 0 ∧
        ¬ ((f.fadeEnd - z) * (f.fadeDist - (h - T)) ≤ T * f.fadeDist ∧
          (f.fadeEnd - z) * f.fadeDist ≤ (z - f.fadeStart) * (T - h)) ∧
        ((f.fadeStart - z) * f.fadeDist ≤ (f.fadeEnd - z) * (h - T) + T * f.fadeDist ∨
          0 ≤ (z - f.fadeStart) * (f.fadeDist - (h - T)))
  else z + h < f.fadeStart ∨ 0 < f.fadeDist - (h - T) ∨ f.fadeDist - (h - T) < 0 ∧ h = T

/-- The z of the toolhead for a g-code z. -/
def toolZ (f : Fade K) (T h z : K) : K :=
  z + (f.getZFactor z * (h - T) + T)

/-- The factor that is found takes away what was added. -/
def FindsAdj (f : Fade K) (T h z : K) : Prop :=
  ∃ factor, f.findFactor T h (f.toolZ T h z) = some factor ∧
    factor * (h - T) = f.getZFactor z * (h - T)

theorem fadeStart_le (f : Fade K) : f.fadeStart ≤ f.fadeEnd := by
  rcases f.range with ⟨hdist, hpos⟩ | ⟨heq, -⟩
  · linarith
  · exact heq.le

/-- Below the fade more than its length is left. -/
theorem fadeDist_lt (hz : z < f.fadeStart) : f.fadeDist < f.fadeEnd - z := by
  rcases f.range with ⟨hdist, hpos⟩ | ⟨heq, hle⟩
  · linarith
  · linarith

/-- Where there is a fade it has a length. -/
theorem fadeDist_eq (hstart : f.fadeStart ≤ z) (hend : z < f.fadeEnd) :
    f.fadeDist = f.fadeEnd - f.fadeStart ∧ 0 < f.fadeDist := by
  rcases f.range with henabled | ⟨heq, -⟩
  · exact henabled
  · exact absurd (heq ▸ hstart) (not_le.2 hend)

theorem findFactor_low {t : K} (hend : f.fadeEnd ≤ t ∧ f.fadeEnd ≤ t - h) :
    f.findFactor T h t = some 0 := by
  unfold findFactor
  exact if_pos (le_min hend.1 hend.2)

theorem findFactor_mid {t : K} (hend : ¬ (f.fadeEnd ≤ t ∧ f.fadeEnd ≤ t - h))
    (hstart : f.fadeStart ≤ t ∨ f.fadeStart ≤ t - h) : f.findFactor T h t =
      if f.fadeDist - (h - T) = 0 then none
      else some (constrain ((f.fadeEnd + T - t) / (f.fadeDist - (h - T))) 0 1) := by
  unfold findFactor divide
  rw [if_neg (mt le_min_iff.1 hend), if_pos (le_max_iff.2 hstart)]
  split_ifs <;> rfl

theorem findFactor_high {t : K} (hstart : ¬ (f.fadeStart ≤ t ∨ f.fadeStart ≤ t - h)) :
    f.findFactor T h t = some 1 := by
  have hend : ¬ (f.fadeEnd ≤ t ∧ f.fadeEnd ≤ t - h) := fun hle =>
    hstart (.inl (f.fadeStart_le.trans hle.1))
  unfold findFactor
  rw [if_neg (mt le_min_iff.1 hend), if_neg (mt le_max_iff.1 hstart)]

theorem constrain_eq_zero {q : K} : constrain q 0 1 = 0 ↔ q ≤ 0 := by
  unfold constrain
  constructor
  · intro heq
    by_contra hlt
    rw [max_eq_right (not_le.1 hlt).le] at heq
    rcases min_choice 1 q with hmin | hmin
    · exact one_ne_zero (hmin.symm.trans heq)
    · exact hlt (hmin.symm.trans heq).le
  · intro hle
    rw [max_eq_left hle, min_eq_right zero_le_one]

theorem constrain_eq_one {q : K} : constrain q 0 1 = 1 ↔ 1 ≤ q := by
  unfold constrain
  rw [min_eq_left_iff, le_max_iff]
  exact or_iff_right (not_le.2 one_pos)

theorem div_nonpos_iff_of_neg {a b : K} (hb : b < 0) : a / b ≤ 0 ↔ 0 ≤ a := by
  rw [div_le_iff_of_neg hb, zero_mul]

/-- Above the fade. -/
theorem findsAdj_end (hz : f.fadeEnd ≤ z) : f.FindsAdj T h z ↔ f.Recovers T h z := by
  have hfactor : f.getZFactor z = 0 := if_pos hz
  have htool : f.toolZ T h z = z + T := by
    unfold toolZ
    rw [hfactor, zero_mul, zero_add]
  have hle := f.fadeStart_le
  unfold FindsAdj Recovers
  rw [if_pos hz, hfactor, htool, zero_mul]
  by_cases hend : f.fadeEnd ≤ z + T ∧ f.fadeEnd ≤ z + T - h
  · rw [findFactor_low hend]
    exact iff_of_true ⟨0, rfl, zero_mul _⟩ (.inl hend)
  rw [or_iff_right hend]
  by_cases hstart : f.fadeStart ≤ z + T ∨ f.fadeStart ≤ z + T - h
  · rw [and_iff_right hstart, findFactor_mid hend hstart]
    by_cases hd : f.fadeDist - (h - T) = 0
    · rw [if_pos hd, hd]
      refine iff_of_false ?_ ?_
      · rintro ⟨factor, hnone, -⟩
        cases hnone
      · rintro (hlt | ⟨hlt, -⟩)
        · exact lt_irrefl _ hlt
        · exact lt_irrefl _ hlt
    · rw [if_neg hd]
      simp only [Option.some_inj, exists_eq_left']
      rw [mul_eq_zero, constrain_eq_zero, sub_eq_zero, add_sub_add_right_eq_sub]
      rcases lt_or_gt_of_ne hd with hneg | hpos
      · rw [or_iff_right (not_lt.2 hneg.le), and_iff_right hneg]
        refine or_congr_left ⟨fun hq => ?_, fun heq => ?_⟩
        · have := (div_nonpos_iff_of_neg hneg).1 hq
          linarith
        · rw [heq, sub_self, zero_div]
      · exact iff_of_true (.inl (div_nonpos_of_nonpos_of_nonneg (by linarith) hpos.le)) (.inl hpos)
  · rw [findFactor_high hstart]
    refine iff_of_false ?_ fun hand => hstart hand.1
    rintro ⟨factor, hone, hzero⟩
    obtain rfl := Option.some_inj.1 hone
    push Not at hstart
    linarith [hstart.2]

/-- Below the fade. -/
theorem findsAdj_start (hz : z < f.fadeStart) : f.FindsAdj T h z ↔ f.Recovers T h z := by
  have hle := f.fadeStart_le
  have hfactor : f.getZFactor z = 1 := by
    unfold getZFactor
    rw [if_neg (by linarith), if_neg (not_le.2 hz)]
  have htool : f.toolZ T h z = z + h := by
    unfold toolZ
    rw [hfactor]
    ring
  have hend : ¬ (f.fadeEnd ≤ z + h ∧ f.fadeEnd ≤ z + h - h) := by
    rintro ⟨-, hend⟩
    linarith
  have hdist := fadeDist_lt hz
  unfold FindsAdj Recovers
  rw [if_neg (by linarith), if_neg (not_le.2 hz), hfactor, htool, one_mul]
  by_cases hstart : f.fadeStart ≤ z + h ∨ f.fadeStart ≤ z + h - h
  · have hlow : ¬ z + h < f.fadeStart := by
      rcases hstart with hstart | hstart
      · exact not_lt.2 hstart
      · linarith
    rw [or_iff_right hlow, findFactor_mid hend hstart]
    by_cases hd : f.fadeDist - (h - T) = 0
    · rw [if_pos hd, hd]
      refine iff_of_false ?_ ?_
      · rintro ⟨factor, hnone, -⟩
        cases hnone
      · rintro (hlt | ⟨hlt, -⟩)
        · exact lt_irrefl _ hlt
        · exact lt_irrefl _ hlt
    · rw [if_neg hd]
      simp only [Option.some_inj, exists_eq_left']
      rw [mul_left_eq_self₀, constrain_eq_one, sub_eq_zero]
      rcases lt_or_gt_of_ne hd with hneg | hpos
      · rw [or_iff_right (not_lt.2 hneg.le), and_iff_right hneg]
        refine or_iff_right fun hq => ?_
        have := (one_le_div_of_neg hneg).1 hq
        linarith
      · refine iff_of_true (.inl ((one_le_div hpos).2 ?_)) (.inl hpos)
        linarith
  · rw [findFactor_high hstart]
    exact iff_of_true ⟨1, rfl, one_mul _⟩ (.inl (not_le.1 fun hle => hstart (.inl hle)))

/-- Inside the fade. -/
theorem findsAdj_mid (hstart : f.fadeStart ≤ z) (hend : z < f.fadeEnd) :
    f.FindsAdj T h z ↔ f.Recovers T h z := by
  obtain ⟨hdist, hpos⟩ := fadeDist_eq hstart hend
  have hfactor : f.getZFactor z = (f.fadeEnd - z) / f.fadeDist := by
    unfold getZFactor
    rw [if_neg (not_le.2 hend), if_pos hstart]
  have htool : f.toolZ T h z * f.fadeDist =
      z * f.fadeDist + (f.fadeEnd - z) * (h - T) + T * f.fadeDist := by
    unfold toolZ
    rw [hfactor]
    field_simp
    ring
  have hcompare : ∀ a c : K, a ≤ f.toolZ T h z - c ↔
      (a + c) * f.fadeDist ≤ z * f.fadeDist + (f.fadeEnd - z) * (h - T) + T * f.fadeDist := by
    intro a c
    rw [← htool, mul_le_mul_iff_left₀ hpos, le_sub_iff_add_le]
  -- the two comparisons with an end of the fade, multiplied by its length
  have hA : f.fadeEnd ≤ f.toolZ T h z ↔
      (f.fadeEnd - z) * (f.fadeDist - (h - T)) ≤ T * f.fadeDist := by
    have := hcompare f.fadeEnd 0
    rw [sub_zero, add_zero] at this
    rw [this]
    constructor <;> intro hle <;> linarith
  have hB : f.fadeEnd ≤ f.toolZ T h z - h ↔
      (f.fadeEnd - z) * f.fadeDist ≤ (z - f.fadeStart) * (T - h) := by
    rw [hcompare, hdist]
    constructor <;> intro hle <;> linarith
  have hC : f.fadeStart ≤ f.toolZ T h z ↔
      (f.fadeStart - z) * f.fadeDist ≤ (f.fadeEnd - z) * (h - T) + T * f.fadeDist := by
    have := hcompare f.fadeStart 0
    rw [sub_zero, add_zero] at this
    rw [this]
    constructor <;> intro hle <;> linarith
  have hD : f.fadeStart ≤ f.toolZ T h z - h ↔
      0 ≤ (z - f.fadeStart) * (f.fadeDist - (h - T)) := by
    rw [hcompare, hdist]
    constructor <;> intro hle <;> linarith
  unfold FindsAdj Recovers
  rw [if_neg (not_le.2 hend), if_pos hstart, ← hA, ← hB, ← hC, ← hD]
  by_cases hflat : h = T
  · have hsolve : ∃ factor, f.findFactor T h (f.toolZ T h z) = some factor := by
      by_cases hlow : f.fadeEnd ≤ f.toolZ T h z ∧ f.fadeEnd ≤ f.toolZ T h z - h
      · exact ⟨0, findFactor_low hlow⟩
      by_cases hhigh : f.fadeStart ≤ f.toolZ T h z ∨ f.fadeStart ≤ f.toolZ T h z - h
      · rw [findFactor_mid hlow hhigh, hflat, sub_self, sub_zero, if_neg hpos.ne']
        exact ⟨_, rfl⟩
      · exact ⟨1, findFactor_high hhigh⟩
    obtain ⟨factor, hfound⟩ := hsolve
    refine iff_of_true ⟨factor, hfound, ?_⟩ (.inl hflat)
    rw [hflat, sub_self, mul_zero, mul_zero]
  rw [or_iff_right hflat]
  have hadj : h - T ≠ 0 := sub_ne_zero.2 hflat
  simp only [mul_left_inj' hadj]
  rw [hfactor]
  by_cases hlow : f.fadeEnd ≤ f.toolZ T h z ∧ f.fadeEnd ≤ f.toolZ T h z - h
  · rw [findFactor_low hlow]
    refine iff_of_false ?_ fun hand => hand.2.1 hlow
    rintro ⟨factor, hzero, heq⟩
    obtain rfl := Option.some_inj.1 hzero
    exact (div_pos (sub_pos.2 hend) hpos).ne heq
  by_cases hhigh : f.fadeStart ≤ f.toolZ T h z ∨ f.fadeStart ≤ f.toolZ T h z - h
  · rw [findFactor_mid hlow hhigh]
    by_cases hd : f.fadeDist - (h - T) = 0
    · rw [if_pos hd]
      refine iff_of_false ?_ fun hand => hand.1 hd
      rintro ⟨factor, hnone, -⟩
      cases hnone
    · rw [if_neg hd]
      refine iff_of_true ⟨_, rfl, ?_⟩ ⟨hd, hlow, hhigh⟩
      have hq : (f.fadeEnd + T - f.toolZ T h z) / (f.fadeDist - (h - T)) =
          (f.fadeEnd - z) / f.fadeDist := by
        rw [div_eq_div_iff hd hpos.ne']
        linear_combination -htool
      rw [hq]
      unfold constrain
      rw [max_eq_right (div_nonneg (by linarith) hpos.le), min_eq_right]
      rw [div_le_one hpos]
      linarith
  · rw [findFactor_high hhigh]
    refine iff_of_false ?_ fun hand => hhigh hand.2.2
    rintro ⟨factor, hone, heq⟩
    obtain rfl := Option.some_inj.1 hone
    -- a factor of one is that of the start of the fade, where the second height is the start
    rw [eq_comm, div_eq_one_iff_eq hpos.ne'] at heq
    refine hhigh (.inr (hD.2 ?_))
    rw [show z - f.fadeStart = 0 by linarith, zero_mul]

theorem findsAdj_iff (f : Fade K) (T h z : K) : f.FindsAdj T h z ↔ f.Recovers T h z := by
  by_cases hend : f.fadeEnd ≤ z
  · exact findsAdj_end hend
  by_cases hstart : f.fadeStart ≤ z
  · exact findsAdj_mid hstart (not_le.1 hend)
  · exact findsAdj_start (not_le.1 hstart)

end Fade

/-! ## A mesh over a square -/

namespace BedMesh

/-- Four probed points over a square, without interpolation. -/
def squareMesh (front back : ℚ) : ZMesh ℚ where
  params := { ZMesh.flatParams 0 with algo := .direct }
  xOffset := 0
  yOffset := 0
  store := [[[front, front], [back, back]]]
  probedMatrix := some 0
  meshMatrix := some 0

theorem built_squareMesh (front back : ℚ) : (squareMesh front back).Built :=
  ⟨[[front, front], [back, back]], rfl, rfl, fun row hrow => by
    obtain rfl | rfl : row = [front, front] ∨ row = [back, back] := by simpa using hrow
    · rfl
    · rfl⟩

end BedMesh

end Thinker
