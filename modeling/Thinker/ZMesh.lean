import Thinker.Grid
import Thinker.Numerals

/-!
# Bed meshes

`ZMesh` (`bed_mesh.py`) : the probed heights are a table of points, which is extended by
interpolation to the table that `calc_z` looks heights up in. Without interpolation
(`_sample_direct`) the second table is the same list object as the first, so a mesh holds
references to the tables in a store. `set_zero_reference` lowers the table behind each of its two
references, once where the references differ and twice where they are one (`zeroReferenced_iff`).

Arithmetic is exact. `none` is an exception : a division by zero or an index out of range.
-/

set_option linter.unusedSectionVars false

namespace Thinker

variable {K : Type} [Field K] [LinearOrder K] [IsStrictOrderedRing K] [FloorRing K]

/-- `constrain`. -/
def constrain {α : Type*} [LinearOrder α] (val minVal maxVal : α) : α :=
  min maxVal (max minVal val)

/-- `lerp`. -/
def lerp (t v0 v1 : K) : K :=
  (1 - t) * v0 + t * v1

/-- A division, which raises for the divisor zero. -/
def divide (a b : K) : Option K :=
  if b = 0 then none else some (a / b)

/-! ## Parameters -/

/-- The interpolation algorithms. -/
inductive MeshAlgo where
  | lagrange
  | bicubic
  | direct
  deriving DecidableEq, Repr

/-- The parameters of a mesh. Two points are the least probe count that is accepted. -/
structure MeshParams (K : Type) where
  minX : K
  maxX : K
  minY : K
  maxY : K
  xCount : ℕ
  yCount : ℕ
  meshXPps : ℕ
  meshYPps : ℕ
  algo : MeshAlgo
  tension : K
  two_le_xCount : 2 ≤ xCount
  two_le_yCount : 2 ≤ yCount

namespace MeshParams

variable (p : MeshParams K)

/-- `BedMeshCalibrate._verify_algorithm` : the parameters that a mesh is built with. -/
def verifyAlgorithm : Option (MeshParams K) :=
  if p.algo ≠ .lagrange ∧ p.algo ≠ .bicubic then none
  else if max p.meshXPps p.meshYPps = 0 then some { p with algo := .direct }
  else if p.algo = .lagrange ∧ max p.xCount p.yCount > 6 then none
  else if p.algo = .bicubic ∧ min p.xCount p.yCount < 4 then
    if max p.xCount p.yCount > 6 then none
    else some { p with algo := .lagrange }
  else some p

/-- `x_mult`. -/
def xMult : ℕ :=
  p.meshXPps + 1

/-- `y_mult`. -/
def yMult : ℕ :=
  p.meshYPps + 1

/-- `mesh_x_count`. -/
def meshXCount : ℕ :=
  (p.xCount - 1) * p.meshXPps + p.xCount

/-- `mesh_y_count`. -/
def meshYCount : ℕ :=
  (p.yCount - 1) * p.meshYPps + p.yCount

/-- `mesh_x_dist`. -/
def meshXDist : K :=
  (p.maxX - p.minX) / (p.meshXCount - 1)

/-- `mesh_y_dist`. -/
def meshYDist : K :=
  (p.maxY - p.minY) / (p.meshYCount - 1)

/-- `get_x_coordinate`. -/
def getXCoordinate (index : ℕ) : K :=
  p.minX + p.meshXDist * index

/-- `get_y_coordinate`. -/
def getYCoordinate (index : ℕ) : K :=
  p.minY + p.meshYDist * index

end MeshParams

/-! ## Interpolation -/

/-- `_calc_lagrange` along a row or a column, whose probed heights are `z`. -/
def calcLagrange (z : ℕ → Option K) (lpts : List K) (c : K) : Option K :=
  (List.range lpts.length).foldlM (fun total i => do
    let pt ← lpts[i]?
    let others := lpts.eraseIdx i
    let n := (others.map fun o => c - o).prod
    let d := (others.map fun o => pt - o).prod
    let z ← z i
    let q ← divide (z * n) d
    pure (total + q)) 0

/-- The control points of a spline, with the place between the two in the middle. -/
structure CtlPts (K : Type) where
  p0 : K
  p1 : K
  p2 : K
  p3 : K
  t : K

/-- `range(start, stop, step)`. -/
def steppedRange (start stop step : ℕ) : List ℕ :=
  List.range' start ((stop - start + step - 1) / step) step

/-- `_get_x_ctl_pts` and `_get_y_ctl_pts` : the control points for place `x` of a row or a column
`row` with `count` places. -/
def getCtlPts (row : ℕ → Option K) (count mult x : ℕ) : Option (CtlPts K) :=
  let lastPt := count - 1 - mult
  if x < mult then do
    let p1 ← row 0
    let p2 ← row mult
    let p3 ← row (2 * mult)
    pure ⟨p1, p1, p2, p3, (x : K) / mult⟩
  else if x > lastPt then do
    let p0 ← row (lastPt - mult)
    let p1 ← row lastPt
    let p2 ← row (lastPt + mult)
    pure ⟨p0, p1, p2, p2, ((x : K) - lastPt) / mult⟩
  else do
    let i ← (steppedRange mult lastPt mult).find? fun i => x > i && x < i + mult
    let p0 ← row (i - mult)
    let p1 ← row i
    let p2 ← row (i + mult)
    let p3 ← row (i + 2 * mult)
    pure ⟨p0, p1, p2, p3, ((x : K) - i) / mult⟩

/-- `_cardinal_spline`. -/
def cardinalSpline (p : CtlPts K) (tension : K) : K :=
  let t := p.t
  let t2 := t * t
  let t3 := t2 * t
  let m1 := tension * (p.p2 - p.p0)
  let m2 := tension * (p.p3 - p.p1)
  let a := p.p1 * (2 * t3 - 3 * t2 + 1)
  let b := p.p2 * (-2 * t3 + 3 * t2)
  let c := m1 * (t3 - 2 * t2 + t)
  let d := m2 * (t3 - t2)
  a + b + c + d

namespace MeshParams

variable (p : MeshParams K)

/-- The probed heights at their places of the mesh, with zeros between them. -/
def spread (zMatrix : Grid K) : Option (Grid K) :=
  Grid.tabulate p.meshYCount p.meshXCount fun j i =>
    if i % p.xMult ≠ 0 ∨ j % p.yMult ≠ 0 then some 0 else zMatrix.entry (j / p.yMult) (i / p.xMult)

/-- The places between the probed points of the probed rows, in the order of the loops. -/
def xPlaces : List (ℕ × ℕ) :=
  (List.range p.meshYCount).flatMap fun j =>
    if j % p.yMult ≠ 0 then []
    else ((List.range p.meshXCount).filter fun i => i % p.xMult ≠ 0).map fun i => (j, i)

/-- The places between the probed rows, column by column. -/
def yPlaces : List (ℕ × ℕ) :=
  (List.range p.meshXCount).flatMap fun i =>
    ((List.range p.meshYCount).filter fun j => j % p.yMult ≠ 0).map fun j => (j, i)

/-- `_sample_lagrange`. -/
def sampleLagrange (zMatrix : Grid K) : Option (Grid K) := do
  let mesh ← p.spread zMatrix
  let xpts := (List.range p.xCount).map fun i => p.getXCoordinate (i * p.xMult)
  let ypts := (List.range p.yCount).map fun j => p.getYCoordinate (j * p.yMult)
  let mesh ← Grid.fill (fun mesh j i =>
    calcLagrange (fun k => mesh.entry j (k * p.xMult)) xpts (p.getXCoordinate i)) p.xPlaces mesh
  Grid.fill (fun mesh j i =>
    calcLagrange (fun k => mesh.entry (k * p.yMult) i) ypts (p.getYCoordinate j)) p.yPlaces mesh

/-- `_sample_bicubic`. -/
def sampleBicubic (zMatrix : Grid K) : Option (Grid K) := do
  let mesh ← p.spread zMatrix
  let mesh ← Grid.fill (fun mesh j i =>
    (getCtlPts (mesh.entry j) p.meshXCount p.xMult i).map (cardinalSpline · p.tension))
    p.xPlaces mesh
  Grid.fill (fun mesh j i =>
    (getCtlPts (mesh.entry · i) p.meshYCount p.yMult j).map (cardinalSpline · p.tension))
    p.yPlaces mesh

end MeshParams

/-! ## The mesh -/

/-- `ZMesh` : a mesh refers to its two tables, which are kept in a store. -/
structure ZMesh (K : Type) where
  params : MeshParams K
  /-- `mesh_offsets`. -/
  xOffset : K
  yOffset : K
  store : List (Grid K)
  probedMatrix : Option ℕ
  meshMatrix : Option ℕ

namespace ZMesh

/-- `ZMesh.__init__`. -/
def init (params : MeshParams K) : ZMesh K where
  params := params
  xOffset := 0
  yOffset := 0
  store := []
  probedMatrix := none
  meshMatrix := none

/-- `build_mesh` : `_sample_direct` takes the probed table itself. -/
def buildMesh (m : ZMesh K) (zMatrix : Grid K) : Option (ZMesh K) :=
  match m.params.algo with
  | .direct => some { m with store := [zMatrix], probedMatrix := some 0, meshMatrix := some 0 }
  | .lagrange => (m.params.sampleLagrange zMatrix).map fun mesh =>
    { m with store := [zMatrix, mesh], probedMatrix := some 0, meshMatrix := some 1 }
  | .bicubic => (m.params.sampleBicubic zMatrix).map fun mesh =>
    { m with store := [zMatrix, mesh], probedMatrix := some 0, meshMatrix := some 1 }

/-- The table behind a reference. -/
def table (m : ZMesh K) (ref : Option ℕ) : Option (Grid K) :=
  ref.bind fun r => m.store[r]?

/-- `_get_linear_index` of an axis. -/
def getLinearIndex (meshMin meshDist : K) (meshCnt : ℕ) (coord : K) : Option (K × ℕ) := do
  let q ← divide (coord - meshMin) meshDist
  let idx := (constrain ⌊q⌋ 0 ((meshCnt : ℤ) - 2)).toNat
  let t ← divide (coord - (meshMin + meshDist * idx)) meshDist
  pure (constrain t 0 1, idx)

/-- The height at a position in a table, between the four points around it. -/
def lookup (p : MeshParams K) (tbl : Grid K) (x y : K) : Option K := do
  let (tx, xidx) ← getLinearIndex p.minX p.meshXDist p.meshXCount x
  let (ty, yidx) ← getLinearIndex p.minY p.meshYDist p.meshYCount y
  let z00 ← tbl.entry yidx xidx
  let z01 ← tbl.entry yidx (xidx + 1)
  let z10 ← tbl.entry (yidx + 1) xidx
  let z11 ← tbl.entry (yidx + 1) (xidx + 1)
  pure (lerp ty (lerp tx z00 z01) (lerp tx z10 z11))

/-- `calc_z`. -/
def calcZ (m : ZMesh K) (x y : K) : Option K :=
  match m.table m.meshMatrix with
  | some tbl => lookup m.params tbl (x + m.xOffset) (y + m.yOffset)
  | none => some 0

/-- Lower all entries of the table behind a reference. -/
def lower (offset : K) (m : ZMesh K) (ref : ℕ) : ZMesh K :=
  { m with store := m.store.modify ref (Grid.mapEntries fun z => z - offset) }

/-- `set_zero_reference` : a loop over the two references. -/
def setZeroReference (m : ZMesh K) (xpos ypos : K) : Option (ZMesh K) := do
  let offset ← m.calcZ xpos ypos
  let probed ← m.probedMatrix
  let mesh ← m.meshMatrix
  pure ([probed, mesh].foldl (lower offset) m)

end ZMesh

/-! ## Sizes -/

namespace MeshParams

variable {p q : MeshParams K}

theorem meshXCount_eq : p.meshXCount = (p.xCount - 1) * p.xMult + 1 := by
  have := p.two_le_xCount
  unfold meshXCount xMult
  rw [Nat.mul_add]
  omega

theorem meshYCount_eq : p.meshYCount = (p.yCount - 1) * p.yMult + 1 := by
  have := p.two_le_yCount
  unfold meshYCount yMult
  rw [Nat.mul_add]
  omega

theorem two_le_meshXCount : 2 ≤ p.meshXCount := by
  have := p.two_le_xCount
  unfold meshXCount
  omega

theorem two_le_meshYCount : 2 ≤ p.meshYCount := by
  have := p.two_le_yCount
  unfold meshYCount
  omega

/-- A distance is zero exactly where the bounds are equal. -/
theorem meshXDist_ne_zero_iff : p.meshXDist ≠ 0 ↔ p.minX ≠ p.maxX := by
  have hcount : (p.meshXCount : K) - 1 ≠ 0 := by
    have htwo : (2 : K) ≤ p.meshXCount := by exact_mod_cast p.two_le_meshXCount
    linarith
  unfold meshXDist
  rw [Ne, div_eq_zero_iff, or_iff_left hcount, sub_eq_zero, eq_comm]

theorem meshYDist_ne_zero_iff : p.meshYDist ≠ 0 ↔ p.minY ≠ p.maxY := by
  have hcount : (p.meshYCount : K) - 1 ≠ 0 := by
    have htwo : (2 : K) ≤ p.meshYCount := by exact_mod_cast p.two_le_meshYCount
    linarith
  unfold meshYDist
  rw [Ne, div_eq_zero_iff, or_iff_left hcount, sub_eq_zero, eq_comm]

/-- A place of the mesh lies at or behind a probed point. -/
theorem div_lt_of_lt {n mult i : ℕ} (hmult : 0 < mult) (hn : 1 ≤ n) (h : i < (n - 1) * mult + 1) :
    i / mult < n := by
  obtain ⟨m, rfl⟩ := Nat.exists_eq_add_of_le' hn
  rw [Nat.add_sub_cancel] at h
  rw [Nat.div_lt_iff_lt_mul hmult, Nat.succ_mul]
  omega

/-- The places of probed points. -/
theorem mul_lt_count {n mult k : ℕ} (h : k < n) : k * mult < (n - 1) * mult + 1 := by
  have := Nat.mul_le_mul_right mult (show k ≤ n - 1 by omega)
  omega

theorem spread_isSome {zMatrix : Grid K} (h : zMatrix.Sized p.yCount p.xCount) :
    ∃ mesh, p.spread zMatrix = some mesh ∧ mesh.Sized p.meshYCount p.meshXCount := by
  refine Grid.tabulate_isSome fun j hj i hi => ?_
  split_ifs
  · exact ⟨0, rfl⟩
  · rw [meshYCount_eq] at hj
    rw [meshXCount_eq] at hi
    have := p.two_le_xCount
    have := p.two_le_yCount
    exact h.entry_isSome (div_lt_of_lt (Nat.succ_pos _) (by omega) hj)
      (div_lt_of_lt (Nat.succ_pos _) (by omega) hi)

theorem mem_xPlaces_iff {j i : ℕ} : (j, i) ∈ p.xPlaces ↔
    (j < p.meshYCount ∧ i < p.meshXCount) ∧ i % p.xMult ≠ 0 ∧ j % p.yMult = 0 := by
  unfold xPlaces
  rw [List.mem_flatMap]
  constructor
  · rintro ⟨j', hj, h⟩
    split_ifs at h with hmod
    · exact absurd h List.not_mem_nil
    · obtain ⟨i', hi, heq⟩ := List.mem_map.1 h
      obtain ⟨rfl, rfl⟩ := Prod.mk.inj heq
      obtain ⟨hi, hne⟩ := List.mem_filter.1 hi
      exact ⟨⟨List.mem_range.1 hj, List.mem_range.1 hi⟩, of_decide_eq_true hne, not_not.1 hmod⟩
  · rintro ⟨⟨hj, hi⟩, hne, hmod⟩
    refine ⟨j, List.mem_range.2 hj, ?_⟩
    rw [if_neg (not_not.2 hmod)]
    exact List.mem_map.2 ⟨i, List.mem_filter.2 ⟨List.mem_range.2 hi, decide_eq_true hne⟩, rfl⟩

theorem mem_yPlaces_iff {j i : ℕ} : (j, i) ∈ p.yPlaces ↔
    (j < p.meshYCount ∧ i < p.meshXCount) ∧ j % p.yMult ≠ 0 := by
  unfold yPlaces
  rw [List.mem_flatMap]
  constructor
  · rintro ⟨i', hi, h⟩
    obtain ⟨j', hj, heq⟩ := List.mem_map.1 h
    obtain ⟨rfl, rfl⟩ := Prod.mk.inj heq
    obtain ⟨hj, hne⟩ := List.mem_filter.1 hj
    exact ⟨⟨List.mem_range.1 hj, List.mem_range.1 hi⟩, of_decide_eq_true hne⟩
  · rintro ⟨⟨hj, hi⟩, hne⟩
    exact ⟨i, List.mem_range.2 hi,
      List.mem_map.2 ⟨j, List.mem_filter.2 ⟨List.mem_range.2 hj, decide_eq_true hne⟩, rfl⟩⟩

end MeshParams

/-! ## Lagrange interpolation -/

theorem foldlM_isSome {α β : Type} {f : β → α → Option β} {l : List α}
    (h : ∀ b, ∀ x ∈ l, ∃ b', f b x = some b') (b : β) : ∃ b', l.foldlM f b = some b' := by
  induction l generalizing b with
  | nil => exact ⟨b, rfl⟩
  | cons x l ih =>
    obtain ⟨c, hc⟩ := h b x List.mem_cons_self
    obtain ⟨d, hd⟩ := ih (fun b y hy => h b y (List.mem_cons_of_mem x hy)) c
    refine ⟨d, ?_⟩
    rw [List.foldlM_cons, hc]
    exact hd

/-- The points of the interpolation differ, so nothing is divided by zero. -/
theorem calcLagrange_isSome {z : ℕ → Option K} {lpts : List K} (hnodup : lpts.Nodup)
    (hz : ∀ i < lpts.length, ∃ w, z i = some w) (c : K) : ∃ w, calcLagrange z lpts c = some w := by
  refine foldlM_isSome (fun total i hi => ?_) 0
  have hi := List.mem_range.1 hi
  obtain ⟨w, hw⟩ := hz i hi
  have hd : ((lpts.eraseIdx i).map fun o => lpts[i] - o).prod ≠ 0 := by
    refine List.prod_ne_zero fun hmem => ?_
    obtain ⟨o, ho, hzero⟩ := List.mem_map.1 hmem
    obtain ⟨k, hk, hne, rfl⟩ := List.mem_eraseIdx_iff_getElem.1 ho
    exact hne ((hnodup.getElem_inj_iff).1 (sub_eq_zero.1 hzero)).symm
  refine ⟨total + w * ((lpts.eraseIdx i).map fun o => c - o).prod /
    ((lpts.eraseIdx i).map fun o => lpts[i] - o).prod, ?_⟩
  rw [List.getElem?_eq_getElem hi]
  simp only [Option.bind_eq_bind, Option.bind_some, hw, divide, if_neg hd]
  rfl

/-- Equidistant points differ. -/
theorem nodup_points {a d : K} (hd : d ≠ 0) {mult : ℕ} (hmult : 0 < mult) (n : ℕ) :
    ((List.range n).map fun i => a + d * ((i * mult : ℕ) : K)).Nodup := by
  refine List.Nodup.map (fun i j h => ?_) List.nodup_range
  have h := mul_left_cancel₀ hd (add_left_cancel h)
  exact Nat.eq_of_mul_eq_mul_right hmult (Nat.cast_injective h)

namespace MeshParams

variable {p : MeshParams K}

theorem sampleLagrange_isSome {zMatrix : Grid K} (h : zMatrix.Sized p.yCount p.xCount)
    (hx : p.meshXDist ≠ 0) (hy : p.meshYDist ≠ 0) :
    ∃ mesh, p.sampleLagrange zMatrix = some mesh ∧ mesh.Sized p.meshYCount p.meshXCount := by
  obtain ⟨mesh, hmesh, hsized⟩ := spread_isSome h
  obtain ⟨mesh', hmesh', hsized'⟩ := Grid.fill_isSome (fun mesh j i =>
    calcLagrange (fun k => mesh.entry j (k * p.xMult))
      ((List.range p.xCount).map fun i => p.getXCoordinate (i * p.xMult)) (p.getXCoordinate i))
    p.xPlaces (fun g hg pl hpl => by
      refine calcLagrange_isSome (nodup_points hx (Nat.succ_pos _) _) (fun i hi => ?_) _
      rw [List.length_map, List.length_range] at hi
      refine hg.entry_isSome (mem_xPlaces_iff.1 hpl).1.1 ?_
      rw [meshXCount_eq]
      exact mul_lt_count hi) hsized
  obtain ⟨mesh'', hmesh'', hsized''⟩ := Grid.fill_isSome (fun mesh j i =>
    calcLagrange (fun k => mesh.entry (k * p.yMult) i)
      ((List.range p.yCount).map fun j => p.getYCoordinate (j * p.yMult)) (p.getYCoordinate j))
    p.yPlaces (fun g hg pl hpl => by
      refine calcLagrange_isSome (nodup_points hy (Nat.succ_pos _) _) (fun j hj => ?_) _
      rw [List.length_map, List.length_range] at hj
      refine hg.entry_isSome ?_ (mem_yPlaces_iff.1 hpl).1.2
      rw [meshYCount_eq]
      exact mul_lt_count hj) hsized'
  refine ⟨mesh'', ?_, hsized''⟩
  unfold sampleLagrange
  rw [hmesh]
  show (Grid.fill _ p.xPlaces mesh).bind _ = _
  rw [hmesh']
  exact hmesh''

end MeshParams

/-! ## Splines -/

theorem mem_steppedRange {start stop step i : ℕ} (hstep : 0 < step) :
    i ∈ steppedRange start stop step ↔ i < stop ∧ ∃ k, i = start + step * k := by
  have hlt : ∀ k, k < (stop - start + step - 1) / step ↔ start + step * k < stop := by
    intro k
    rw [Nat.lt_iff_add_one_le, Nat.le_div_iff_mul_le hstep, Nat.succ_mul, Nat.mul_comm k step]
    omega
  unfold steppedRange
  rw [List.mem_range']
  constructor
  · rintro ⟨k, hk, rfl⟩
    exact ⟨(hlt k).1 hk, k, rfl⟩
  · rintro ⟨hi, k, rfl⟩
    exact ⟨k, (hlt k).2 hi, rfl⟩

/-- A place between probed points has control points, if there are at least three of them. -/
theorem getCtlPts_isSome {row : ℕ → Option K} {n mult x : ℕ} (hn : 3 ≤ n) (hmult : 0 < mult)
    (hrow : ∀ i < (n - 1) * mult + 1, ∃ z, row i = some z) (hx : x < (n - 1) * mult + 1)
    (hmod : x % mult ≠ 0) :
    ∃ pts, getCtlPts row ((n - 1) * mult + 1) mult x = some pts := by
  obtain ⟨m, rfl⟩ := Nat.exists_eq_add_of_le' hn
  have hcount : (m + 3 - 1) * mult + 1 = m * mult + 2 * mult + 1 := by
    rw [show m + 3 - 1 = m + 2 from rfl, Nat.add_mul]
  rw [hcount] at hrow hx ⊢
  have hsucc : (m + 1) * mult = m * mult + mult := Nat.succ_mul _ _
  have hlast : m * mult + 2 * mult + 1 - 1 - mult = (m + 1) * mult := by omega
  unfold getCtlPts
  rw [hlast]
  dsimp only
  by_cases hfirst : x < mult
  · rw [if_pos hfirst]
    obtain ⟨p1, hp1⟩ := hrow 0 (by omega)
    obtain ⟨p2, hp2⟩ := hrow mult (by omega)
    obtain ⟨p3, hp3⟩ := hrow (2 * mult) (by omega)
    rw [hp1, hp2, hp3]
    exact ⟨_, rfl⟩
  rw [if_neg hfirst]
  by_cases hend : x > (m + 1) * mult
  · rw [if_pos hend]
    obtain ⟨p0, hp0⟩ := hrow ((m + 1) * mult - mult) (by omega)
    obtain ⟨p1, hp1⟩ := hrow ((m + 1) * mult) (by omega)
    obtain ⟨p2, hp2⟩ := hrow ((m + 1) * mult + mult) (by omega)
    rw [hp0, hp1, hp2]
    exact ⟨_, rfl⟩
  rw [if_neg hend]
  -- the point before `x` is found, and whatever is found is a point with two more behind it
  have hfind : ((steppedRange mult ((m + 1) * mult) mult).find? fun i =>
      x > i && x < i + mult).isSome = true := by
    rw [List.find?_isSome]
    have hdiv := Nat.div_add_mod x mult
    have hlt := Nat.mod_lt x hmult
    have hpos : 1 ≤ x / mult := (Nat.one_le_div_iff hmult).2 (by omega)
    refine ⟨mult * (x / mult), (mem_steppedRange hmult).2 ⟨by omega, x / mult - 1, ?_⟩, ?_⟩
    · rw [← mul_one_add, Nat.add_sub_cancel' hpos]
    · rw [Bool.and_eq_true, decide_eq_true_iff, decide_eq_true_iff]
      omega
  obtain ⟨i, hi⟩ := Option.isSome_iff_exists.1 hfind
  obtain ⟨hstop, k, hk⟩ := (mem_steppedRange hmult).1 (List.mem_of_find?_eq_some hi)
  have hbehind : i + 2 * mult ≤ m * mult + 2 * mult := by
    have hmul : mult * (1 + k) < mult * (m + 1) := by
      rw [mul_one_add, Nat.mul_comm mult (m + 1)]
      omega
    have hle : 1 + k ≤ m := Nat.le_of_lt_succ (Nat.lt_of_mul_lt_mul_left hmul)
    have := Nat.mul_le_mul_left mult hle
    rw [mul_one_add, Nat.mul_comm mult m] at this
    omega
  obtain ⟨p0, hp0⟩ := hrow (i - mult) (by omega)
  obtain ⟨p1, hp1⟩ := hrow i (by omega)
  obtain ⟨p2, hp2⟩ := hrow (i + mult) (by omega)
  obtain ⟨p3, hp3⟩ := hrow (i + 2 * mult) (by omega)
  rw [hi]
  simp only [Option.bind_eq_bind, Option.bind_some, hp0, hp1, hp2, hp3]
  exact ⟨_, rfl⟩

namespace MeshParams

variable {p q : MeshParams K}

theorem sampleBicubic_isSome {zMatrix : Grid K} (h : zMatrix.Sized p.yCount p.xCount)
    (hx : 3 ≤ p.xCount) (hy : 3 ≤ p.yCount) :
    ∃ mesh, p.sampleBicubic zMatrix = some mesh ∧ mesh.Sized p.meshYCount p.meshXCount := by
  obtain ⟨mesh, hmesh, hsized⟩ := spread_isSome h
  obtain ⟨mesh', hmesh', hsized'⟩ := Grid.fill_isSome (fun mesh j i =>
    (getCtlPts (mesh.entry j) p.meshXCount p.xMult i).map (cardinalSpline · p.tension))
    p.xPlaces (fun g hg pl hpl => by
      obtain ⟨⟨hj, hi⟩, hmod, -⟩ := mem_xPlaces_iff.1 hpl
      have hentry := fun i (hi : i < p.meshXCount) => hg.entry_isSome hj hi
      rw [meshXCount_eq] at hi hentry ⊢
      have hmult : 0 < p.xMult := Nat.succ_pos _
      obtain ⟨pts, hpts⟩ := getCtlPts_isSome hx hmult hentry hi hmod
      exact ⟨cardinalSpline pts p.tension, congrArg (Option.map _) hpts⟩) hsized
  obtain ⟨mesh'', hmesh'', hsized''⟩ := Grid.fill_isSome (fun mesh j i =>
    (getCtlPts (mesh.entry · i) p.meshYCount p.yMult j).map (cardinalSpline · p.tension))
    p.yPlaces (fun g hg pl hpl => by
      obtain ⟨⟨hj, hi⟩, hmod⟩ := mem_yPlaces_iff.1 hpl
      have hentry := fun j (hj : j < p.meshYCount) => hg.entry_isSome hj hi
      rw [meshYCount_eq] at hj hentry ⊢
      have hmult : 0 < p.yMult := Nat.succ_pos _
      obtain ⟨pts, hpts⟩ := getCtlPts_isSome hy hmult hentry hj hmod
      exact ⟨cardinalSpline pts p.tension, congrArg (Option.map _) hpts⟩) hsized'
  refine ⟨mesh'', ?_, hsized''⟩
  unfold sampleBicubic
  rw [hmesh]
  show (Grid.fill _ p.xPlaces mesh).bind _ = _
  rw [hmesh']
  exact hmesh''

/-- The algorithm that is verified has the points that it needs. -/
theorem verifyAlgorithm_spec (h : p.verifyAlgorithm = some q) :
    (q.algo = .direct → q.meshXPps = 0 ∧ q.meshYPps = 0) ∧
      (q.algo = .bicubic → 4 ≤ q.xCount ∧ 4 ≤ q.yCount) := by
  unfold verifyAlgorithm at h
  by_cases halgo : p.algo ≠ .lagrange ∧ p.algo ≠ .bicubic
  · rw [if_pos halgo] at h
    cases h
  rw [if_neg halgo] at h
  by_cases hpps : max p.meshXPps p.meshYPps = 0
  · rw [if_pos hpps] at h
    obtain rfl := Option.some_inj.1 h
    exact ⟨fun _ => by simpa using hpps, fun hbad => MeshAlgo.noConfusion hbad⟩
  rw [if_neg hpps] at h
  by_cases hlong : p.algo = .lagrange ∧ max p.xCount p.yCount > 6
  · rw [if_pos hlong] at h
    cases h
  rw [if_neg hlong] at h
  by_cases hshort : p.algo = .bicubic ∧ min p.xCount p.yCount < 4
  · rw [if_pos hshort] at h
    split_ifs at h
    obtain rfl := Option.some_inj.1 h
    exact ⟨fun hbad => MeshAlgo.noConfusion hbad, fun hbad => MeshAlgo.noConfusion hbad⟩
  · rw [if_neg hshort] at h
    obtain rfl := Option.some_inj.1 h
    constructor
    · intro hdirect
      rw [hdirect] at halgo
      exact absurd ⟨MeshAlgo.noConfusion, MeshAlgo.noConfusion⟩ halgo
    · intro hbicubic
      have hmin : ¬ min p.xCount p.yCount < 4 := fun hlt => hshort ⟨hbicubic, hlt⟩
      omega

end MeshParams

/-! ## Heights -/

namespace ZMesh

variable {p q : MeshParams K} {tbl zMatrix : Grid K} {m m' : ZMesh K} {x y z : K}

/-- The index of a coordinate has a point behind it. -/
theorem getLinearIndex_isSome (meshMin : K) {meshDist : K} {meshCnt : ℕ} (hdist : meshDist ≠ 0)
    (hcnt : 2 ≤ meshCnt) (coord : K) :
    ∃ t idx, getLinearIndex meshMin meshDist meshCnt coord = some (t, idx) ∧ idx + 1 < meshCnt := by
  unfold getLinearIndex divide
  rw [if_neg hdist]
  simp only [Option.bind_eq_bind, Option.bind_some]
  rw [if_neg hdist]
  refine ⟨_, _, rfl, ?_⟩
  unfold constrain
  have := min_le_left ((meshCnt : ℤ) - 2) (max 0 ⌊(coord - meshMin) / meshDist⌋)
  omega

theorem getLinearIndex_zero (meshMin coord : K) (meshCnt : ℕ) :
    getLinearIndex meshMin 0 meshCnt coord = none := by
  unfold getLinearIndex divide
  rw [if_pos rfl]
  rfl

/-- A table of the size of the mesh has a height everywhere. -/
theorem lookup_isSome (h : tbl.Sized p.meshYCount p.meshXCount) (hx : p.meshXDist ≠ 0)
    (hy : p.meshYDist ≠ 0) (x y : K) : ∃ z, lookup p tbl x y = some z := by
  obtain ⟨tx, xidx, htx, hxidx⟩ := getLinearIndex_isSome p.minX hx
    p.two_le_meshXCount x
  obtain ⟨ty, yidx, hty, hyidx⟩ := getLinearIndex_isSome p.minY hy
    p.two_le_meshYCount y
  obtain ⟨z00, h00⟩ := h.entry_isSome (by omega : yidx < _) (by omega : xidx < _)
  obtain ⟨z01, h01⟩ := h.entry_isSome (by omega : yidx < _) hxidx
  obtain ⟨z10, h10⟩ := h.entry_isSome hyidx (by omega : xidx < _)
  obtain ⟨z11, h11⟩ := h.entry_isSome hyidx hxidx
  refine ⟨lerp ty (lerp tx z00 z01) (lerp tx z10 z11), ?_⟩
  unfold lookup
  rw [htx, hty]
  simp only [Option.bind_eq_bind, Option.bind_some, h00, h01, h10, h11]
  rfl

/-- Without a distance between the points every height divides by zero. -/
theorem lookup_none (h : ¬ (p.minX ≠ p.maxX ∧ p.minY ≠ p.maxY)) (x y : K) :
    lookup p tbl x y = none := by
  unfold lookup
  by_cases hx : p.minX ≠ p.maxX
  · have hy : ¬ p.meshYDist ≠ 0 := mt p.meshYDist_ne_zero_iff.1 fun hne => h ⟨hx, hne⟩
    rw [not_not.1 hy, getLinearIndex_zero]
    cases getLinearIndex p.minX p.meshXDist p.meshXCount x with
    | none => rfl
    | some t => rfl
  · have hx : ¬ p.meshXDist ≠ 0 := mt p.meshXDist_ne_zero_iff.1 hx
    rw [not_not.1 hx, getLinearIndex_zero]
    rfl

/-- Lowering all entries lowers every height. -/
theorem lookup_lower (p : MeshParams K) (tbl : Grid K) (x y z : K) :
    lookup p (tbl.mapEntries fun w => w - z) x y = (lookup p tbl x y).map fun w => w - z := by
  have hlerp : ∀ t a b : K, lerp t (a - z) (b - z) = lerp t a b - z := by
    intro t a b
    unfold lerp
    ring
  unfold lookup
  cases getLinearIndex p.minX p.meshXDist p.meshXCount x with
  | none => rfl
  | some tx =>
    cases getLinearIndex p.minY p.meshYDist p.meshYCount y with
    | none => rfl
    | some ty =>
      simp only [Option.bind_eq_bind, Option.bind_some, Grid.entry_mapEntries]
      cases tbl.entry ty.2 tx.2 with
      | none => rfl
      | some z00 =>
        cases tbl.entry ty.2 (tx.2 + 1) with
        | none => rfl
        | some z01 =>
          cases tbl.entry (ty.2 + 1) tx.2 with
          | none => rfl
          | some z10 =>
            cases tbl.entry (ty.2 + 1) (tx.2 + 1) with
            | none => rfl
            | some z11 =>
              simp only [Option.map_some, Option.bind_some, hlerp]
              rfl

/-- A mesh with its tables at two references. -/
structure Holds (m : ZMesh K) (p : MeshParams K) (probed mesh : Grid K) : Prop where
  params_eq : m.params = p
  xOffset_eq : m.xOffset = 0
  yOffset_eq : m.yOffset = 0
  probed_eq : m.table m.probedMatrix = some probed
  mesh_eq : m.table m.meshMatrix = some mesh

theorem Holds.calcZ (h : m.Holds p zMatrix tbl) (x y : K) : m.calcZ x y = lookup p tbl x y := by
  unfold ZMesh.calcZ
  rw [h.mesh_eq, h.params_eq, h.xOffset_eq, h.yOffset_eq, add_zero, add_zero]

theorem holds_buildMesh (h : (init q).buildMesh zMatrix = some m) : ∃ tbl, m.Holds q zMatrix tbl := by
  unfold buildMesh init at h
  dsimp only at h
  cases halgo : q.algo with
  | lagrange =>
    rw [halgo] at h
    obtain ⟨mesh, -, rfl⟩ := Option.map_eq_some_iff.1 h
    exact ⟨mesh, rfl, rfl, rfl, rfl, rfl⟩
  | bicubic =>
    rw [halgo] at h
    obtain ⟨mesh, -, rfl⟩ := Option.map_eq_some_iff.1 h
    exact ⟨mesh, rfl, rfl, rfl, rfl, rfl⟩
  | direct =>
    rw [halgo] at h
    obtain rfl := Option.some_inj.1 h
    exact ⟨zMatrix, rfl, rfl, rfl, rfl, rfl⟩

/-- The table of heights has the size that the parameters give. -/
def Built (m : ZMesh K) : Prop :=
  ∃ tbl, m.table m.meshMatrix = some tbl ∧ tbl.Sized m.params.meshYCount m.params.meshXCount

/-- A mesh that is built from probed points is. -/
theorem built_buildMesh (hq : p.verifyAlgorithm = some q) (hsize : zMatrix.Sized q.yCount q.xCount)
    (h : (init q).buildMesh zMatrix = some m) : m.Built := by
  obtain ⟨spread, hspread, hsized⟩ := MeshParams.spread_isSome hsize
  unfold buildMesh init at h
  dsimp only at h
  cases halgo : q.algo with
  | lagrange =>
    rw [halgo] at h
    obtain ⟨mesh, hmesh, rfl⟩ := Option.map_eq_some_iff.1 h
    unfold MeshParams.sampleLagrange at hmesh
    rw [hspread, Option.bind_eq_bind, Option.bind_some] at hmesh
    obtain ⟨mesh', hmesh', hmesh⟩ := Option.bind_eq_some_iff.1 hmesh
    exact ⟨mesh, rfl, (hsized.fill hmesh').fill hmesh⟩
  | bicubic =>
    rw [halgo] at h
    obtain ⟨mesh, hmesh, rfl⟩ := Option.map_eq_some_iff.1 h
    unfold MeshParams.sampleBicubic at hmesh
    rw [hspread, Option.bind_eq_bind, Option.bind_some] at hmesh
    obtain ⟨mesh', hmesh', hmesh⟩ := Option.bind_eq_some_iff.1 hmesh
    exact ⟨mesh, rfl, (hsized.fill hmesh').fill hmesh⟩
  | direct =>
    rw [halgo] at h
    obtain rfl := Option.some_inj.1 h
    obtain ⟨hxPps, hyPps⟩ := (MeshParams.verifyAlgorithm_spec hq).1 halgo
    refine ⟨zMatrix, rfl, ?_⟩
    unfold MeshParams.meshYCount MeshParams.meshXCount
    rw [hxPps, hyPps, Nat.mul_zero, Nat.zero_add, Nat.mul_zero, Nat.zero_add]
    exact hsize

/-- A mesh with a height at one position has heights everywhere. -/
theorem Built.calcZ_isSome (hm : m.Built) (h : m.calcZ x y = some z) (u v : K) :
    ∃ w, m.calcZ u v = some w := by
  obtain ⟨tbl, htable, hsized⟩ := hm
  unfold calcZ at h ⊢
  rw [htable] at h ⊢
  by_cases hdist : m.params.minX ≠ m.params.maxX ∧ m.params.minY ≠ m.params.maxY
  · exact lookup_isSome hsized (m.params.meshXDist_ne_zero_iff.2 hdist.1)
      (m.params.meshYDist_ne_zero_iff.2 hdist.2) _ _
  · have h : lookup m.params tbl (x + m.xOffset) (y + m.yOffset) = some z := h
    rw [lookup_none hdist] at h
    cases h

/-- After `set_zero_reference` the height at the reference is zero, and all heights and probed
heights are lower by what it was. -/
structure ZeroReferenced (m m' : ZMesh K) (x y z : K) : Prop where
  zero : m'.calcZ x y = some 0
  lowered : ∀ u v, ∃ w, m.calcZ u v = some w ∧ m'.calcZ u v = some (w - z)
  probed : m'.table m'.probedMatrix =
    (m.table m.probedMatrix).map (Grid.mapEntries fun w => w - z)

/-- The mesh is built and gets its zero reference. -/
def Zeroes (q : MeshParams K) (zMatrix : Grid K) (x y : K) : Prop :=
  ∃ m m' z, (init q).buildMesh zMatrix = some m ∧ m.calcZ x y = some z ∧
    m.setZeroReference x y = some m' ∧ ZeroReferenced m m' x y z

/-- Two tables of their own are each lowered once. -/
theorem zeroes_of_two (mesh : Grid K)
    (hbuild : (init q).buildMesh zMatrix = some ⟨q, 0, 0, [zMatrix, mesh], some 0, some 1⟩)
    (hmesh : mesh.Sized q.meshYCount q.meshXCount) (hx : q.meshXDist ≠ 0) (hy : q.meshYDist ≠ 0)
    (x y : K) : Zeroes q zMatrix x y := by
  obtain ⟨z, hz⟩ := lookup_isSome hmesh hx hy x y
  have hm : Holds (⟨q, 0, 0, [zMatrix, mesh], some 0, some 1⟩ : ZMesh K) q zMatrix mesh :=
    ⟨rfl, rfl, rfl, rfl, rfl⟩
  have hm' : Holds (⟨q, 0, 0, [zMatrix.mapEntries fun w => w - z, mesh.mapEntries fun w => w - z],
      some 0, some 1⟩ : ZMesh K) q (zMatrix.mapEntries fun w => w - z)
      (mesh.mapEntries fun w => w - z) := ⟨rfl, rfl, rfl, rfl, rfl⟩
  refine ⟨_, ⟨q, 0, 0, [zMatrix.mapEntries fun w => w - z, mesh.mapEntries fun w => w - z],
    some 0, some 1⟩, z, hbuild, (hm.calcZ x y).trans hz, ?_, ?_, fun u v => ?_, rfl⟩
  · unfold setZeroReference
    rw [hm.calcZ, hz]
    rfl
  · rw [hm'.calcZ, lookup_lower, hz, Option.map_some, sub_self]
  · obtain ⟨w, hw⟩ := lookup_isSome hmesh hx hy u v
    exact ⟨w, (hm.calcZ u v).trans hw, by rw [hm'.calcZ, lookup_lower, hw, Option.map_some]⟩

/-- One table behind both references is lowered twice. -/
theorem setZeroReference_one (hz : lookup q zMatrix x y = some z) :
    (⟨q, 0, 0, [zMatrix], some 0, some 0⟩ : ZMesh K).setZeroReference x y =
      some ⟨q, 0, 0, [(zMatrix.mapEntries fun w => w - z).mapEntries fun w => w - z], some 0,
        some 0⟩ := by
  have hm : Holds (⟨q, 0, 0, [zMatrix], some 0, some 0⟩ : ZMesh K) q zMatrix zMatrix :=
    ⟨rfl, rfl, rfl, rfl, rfl⟩
  unfold setZeroReference
  rw [hm.calcZ, hz]
  rfl

/-- So the reference is zero only where it was zero before. -/
theorem zeroes_of_one (hbuild : (init q).buildMesh zMatrix = some ⟨q, 0, 0, [zMatrix], some 0, some 0⟩)
    (hsize : zMatrix.Sized q.meshYCount q.meshXCount) (hx : q.meshXDist ≠ 0)
    (hy : q.meshYDist ≠ 0) (x y : K) : Zeroes q zMatrix x y ↔ lookup q zMatrix x y = some 0 := by
  obtain ⟨z, hz⟩ := lookup_isSome hsize hx hy x y
  have hm : Holds (⟨q, 0, 0, [zMatrix], some 0, some 0⟩ : ZMesh K) q zMatrix zMatrix :=
    ⟨rfl, rfl, rfl, rfl, rfl⟩
  have hm' : Holds (⟨q, 0, 0, [(zMatrix.mapEntries fun w => w - z).mapEntries fun w => w - z],
      some 0, some 0⟩ : ZMesh K) q ((zMatrix.mapEntries fun w => w - z).mapEntries fun w => w - z)
      ((zMatrix.mapEntries fun w => w - z).mapEntries fun w => w - z) := ⟨rfl, rfl, rfl, rfl, rfl⟩
  have hlow : ∀ u v, lookup q ((zMatrix.mapEntries fun w => w - z).mapEntries fun w => w - z) u v =
      (lookup q zMatrix u v).map fun w => w - z - z := by
    intro u v
    rw [lookup_lower, lookup_lower, Option.map_map]
    rfl
  constructor
  · rintro ⟨m, m', z', hbuild', hz', hset, hzero⟩
    obtain rfl := Option.some_inj.1 (hbuild.symm.trans hbuild')
    obtain rfl := Option.some_inj.1 ((setZeroReference_one hz).symm.trans hset)
    have hzero := hzero.zero
    rw [hm'.calcZ, hlow, hz, Option.map_some, sub_self, zero_sub, Option.some_inj,
      neg_eq_zero] at hzero
    rw [hz, hzero]
  · intro hzero
    obtain rfl := Option.some_inj.1 (hz.symm.trans hzero)
    refine ⟨_, _, 0, hbuild, (hm.calcZ x y).trans hz, setZeroReference_one hz, ?_, fun u v => ?_, ?_⟩
    · rw [hm'.calcZ, hlow, hz, Option.map_some, sub_self, sub_zero]
    · obtain ⟨w, hw⟩ := lookup_isSome hsize hx hy u v
      refine ⟨w, (hm.calcZ u v).trans hw, ?_⟩
      rw [hm'.calcZ, hlow, hw, Option.map_some, sub_zero]
    · rw [hm'.probed_eq, hm.probed_eq, Option.map_some]
      simp only [sub_zero, Grid.mapEntries_id]

/-- The reference is zeroed unless the mesh is not interpolated and its height there is not zero. -/
theorem zeroes_iff (hq : p.verifyAlgorithm = some q) (hsize : zMatrix.Sized q.yCount q.xCount)
    (x y : K) : Zeroes q zMatrix x y ↔
      q.minX ≠ q.maxX ∧ q.minY ≠ q.maxY ∧
        (q.algo = .direct → lookup q zMatrix x y = some 0) := by
  obtain ⟨hdirect, hbicubic⟩ := MeshParams.verifyAlgorithm_spec hq
  by_cases hdist : q.minX ≠ q.maxX ∧ q.minY ≠ q.maxY
  · have hx := q.meshXDist_ne_zero_iff.2 hdist.1
    have hy := q.meshYDist_ne_zero_iff.2 hdist.2
    rw [← and_assoc, and_iff_right hdist]
    cases halgo : q.algo with
    | lagrange =>
      obtain ⟨mesh, hmesh, hsized⟩ := MeshParams.sampleLagrange_isSome hsize hx hy
      refine iff_of_true (zeroes_of_two mesh ?_ hsized hx hy x y)
        fun h => MeshAlgo.noConfusion h
      unfold buildMesh init
      dsimp only
      rw [halgo, hmesh]
      rfl
    | bicubic =>
      obtain ⟨hxCount, hyCount⟩ := hbicubic halgo
      obtain ⟨mesh, hmesh, hsized⟩ := MeshParams.sampleBicubic_isSome hsize (by omega) (by omega)
      refine iff_of_true (zeroes_of_two mesh ?_ hsized hx hy x y)
        fun h => MeshAlgo.noConfusion h
      unfold buildMesh init
      dsimp only
      rw [halgo, hmesh]
      rfl
    | direct =>
      obtain ⟨hxPps, hyPps⟩ := hdirect halgo
      have hxCount : q.meshXCount = q.xCount := by
        unfold MeshParams.meshXCount
        rw [hxPps, Nat.mul_zero, Nat.zero_add]
      have hyCount : q.meshYCount = q.yCount := by
        unfold MeshParams.meshYCount
        rw [hyPps, Nat.mul_zero, Nat.zero_add]
      rw [forall_prop_of_true rfl]
      refine zeroes_of_one ?_ (hxCount.symm ▸ hyCount.symm ▸ hsize) hx hy x y
      unfold buildMesh init
      dsimp only
      rw [halgo]
  · refine iff_of_false ?_ fun h => hdist ⟨h.1, h.2.1⟩
    rintro ⟨m, m', z, hbuild, hz, -⟩
    obtain ⟨tbl, hm⟩ := holds_buildMesh hbuild
    rw [hm.calcZ, lookup_none hdist] at hz
    cases hz

/-- Two probed points on each axis at the height one, with one point between them. -/
def flatParams (pps : ℕ) : MeshParams ℚ where
  minX := 0
  maxX := 10
  minY := 0
  maxY := 10
  xCount := 2
  yCount := 2
  meshXPps := pps
  meshYPps := pps
  algo := .lagrange
  tension := 1 / 5
  two_le_xCount := le_rfl
  two_le_yCount := le_rfl

/-- With interpolation its height is zeroed. -/
theorem zeroes_flat : (flatParams 1).verifyAlgorithm = some (flatParams 1) ∧
    Zeroes (flatParams 1) [[1, 1], [1, 1]] 5 5 := by
  have hq : (flatParams 1).verifyAlgorithm = some (flatParams 1) := rfl
  refine ⟨hq, (zeroes_iff hq ⟨rfl, by decide⟩ 5 5).2 ⟨?_, ?_, fun h => MeshAlgo.noConfusion h⟩⟩
  · show (0 : ℚ) ≠ 10
    norm_num
  · show (0 : ℚ) ≠ 10
    norm_num

/-- Without interpolation its height is turned into its negative. -/
theorem not_zeroes_flat :
    (flatParams 0).verifyAlgorithm = some { flatParams 0 with algo := .direct } ∧
      ¬ Zeroes { flatParams 0 with algo := .direct } [[1, 1], [1, 1]] 5 5 := by
  refine ⟨rfl, ?_⟩
  rintro ⟨m, m', z, hbuild, -, hset, hzero⟩
  have hheight : (((init { flatParams 0 with algo := .direct }).buildMesh [[1, 1], [1, 1]]).bind
      fun m => (m.setZeroReference 5 5).bind fun m => m.calcZ 5 5) = some (-1) := by
    decide +kernel
  rw [hbuild, Option.bind_some, hset, Option.bind_some, hzero.zero] at hheight
  exact absurd hheight (by decide)

end ZMesh

end Thinker
