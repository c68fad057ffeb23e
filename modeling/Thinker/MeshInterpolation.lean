import Thinker.BedMesh
import Mathlib.LinearAlgebra.Lagrange

/-!
# The interpolated mesh

`build_mesh` writes the probed heights to their places in a larger table and fills the places
between them, first along the probed rows and then along all columns. Neither pass writes to the
place of a probed height.

`_calc_lagrange` finds the value of the polynomial through the points. Over heights that are those
of a polynomial in X and Y of degrees less than the counts, both passes find the heights of the
polynomial. `calc_z` finds the heights of the table at its nodes, and between them no height beyond
those of the table (`interpolated_buildMesh`).
-/

set_option linter.unusedSectionVars false

namespace Thinker

open Polynomial

variable {K : Type} [Field K] [LinearOrder K] [IsStrictOrderedRing K] [FloorRing K]

/-! ## The polynomial through points -/

section Lagrange

variable {v w : ℕ → K} {n i : ℕ}

theorem map_eraseIdx (v : ℕ → K) (l : List ℕ) (i : ℕ) :
    (l.map v).eraseIdx i = (l.eraseIdx i).map v := by
  rw [List.eraseIdx_eq_take_drop_succ, List.eraseIdx_eq_take_drop_succ, List.map_append,
    List.map_take, List.map_drop]

/-- The product over the other points. -/
theorem prod_others (v : ℕ → K) (g : K → K) (hi : i < n) :
    ((((List.range n).map v).eraseIdx i).map g).prod =
      ∏ j ∈ (Finset.range n).erase i, g (v j) := by
  have hlength : i < (List.range n).length := List.length_range.symm ▸ hi
  have hperm := List.erase_getElem hlength
  rw [List.getElem_range] at hperm
  rw [map_eraseIdx, List.map_map, ← (hperm.map _).prod_eq,
    ← List.prod_toFinset _ (List.nodup_range.erase i)]
  refine Finset.prod_congr ?_ fun _ _ => rfl
  ext j
  rw [List.mem_toFinset, List.nodup_range.mem_erase_iff, List.mem_range, Finset.mem_erase,
    Finset.mem_range]

/-- The factor of a point. -/
theorem eval_basis (hi : i < n) (c : K) :
    (Lagrange.basis (Finset.range n) v i).eval c =
      ((((List.range n).map v).eraseIdx i).map fun o => c - o).prod /
        ((((List.range n).map v).eraseIdx i).map fun o => v i - o).prod := by
  rw [prod_others v _ hi, prod_others v _ hi, ← Finset.prod_div_distrib, Lagrange.basis,
    eval_prod]
  refine Finset.prod_congr rfl fun j _ => ?_
  rw [Lagrange.basisDivisor, eval_mul, eval_C, eval_sub, eval_X, eval_C, div_eq_inv_mul]

/-- A loop that adds up. -/
theorem foldlM_range_eq_sum {f : K → ℕ → Option K} {g : ℕ → K}
    (h : ∀ total, ∀ i < n, f total i = some (total + g i)) :
    (List.range n).foldlM f 0 = some (∑ i ∈ Finset.range n, g i) := by
  induction n with
  | zero => rfl
  | succ n ih =>
    rw [List.range_succ, List.foldlM_append, ih fun total i hi => h total i (by omega),
      Finset.sum_range_succ]
    exact (congrArg (Option.bind · _) (h _ n (Nat.lt_succ_self n))).trans rfl

/-- `_calc_lagrange` finds the value of the polynomial through the points. -/
theorem calcLagrange_eq {z : ℕ → Option K} (hinj : Set.InjOn v (Finset.range n))
    (hz : ∀ i < n, z i = some (w i)) (c : K) :
    calcLagrange z ((List.range n).map v) c =
      some ((Lagrange.interpolate (Finset.range n) v w).eval c) := by
  unfold calcLagrange
  rw [List.length_map, List.length_range, Lagrange.interpolate_apply, eval_finsetSum]
  refine foldlM_range_eq_sum fun total i hi => ?_
  have hd : ((((List.range n).map v).eraseIdx i).map fun o => v i - o).prod ≠ 0 := by
    rw [prod_others v _ hi, Finset.prod_ne_zero_iff]
    intro j hj
    obtain ⟨hne, hj⟩ := Finset.mem_erase.1 hj
    exact sub_ne_zero.2 fun heq =>
      hne (hinj hj (Finset.mem_coe.2 (Finset.mem_range.2 hi)) heq.symm)
  rw [List.getElem?_map, List.getElem?_range hi, Option.map_some, hz i hi]
  simp only [Option.bind_eq_bind, Option.bind_some]
  unfold divide
  rw [if_neg hd, Option.bind_some, eval_mul, eval_C, eval_basis hi, mul_div_assoc]
  rfl

/-- A polynomial of a degree less than the number of points is found again. -/
theorem calcLagrange_eval {z : ℕ → Option K} {P : K[X]} (hinj : Set.InjOn v (Finset.range n))
    (hdegree : P.degree < n) (hz : ∀ i < n, z i = some (P.eval (v i))) (c : K) :
    calcLagrange z ((List.range n).map v) c = some (P.eval c) := by
  have hcard : P.degree < (Finset.range n).card := by rwa [Finset.card_range]
  rw [calcLagrange_eq hinj hz]
  exact congrArg (fun Q : K[X] => some (Q.eval c))
    (Lagrange.eq_interpolate_of_eval_eq _ hinj hcard fun _ _ => rfl).symm

/-- Coefficients of a polynomial. -/
theorem exists_polynomial (d : ℕ → K) (n : ℕ) :
    ∃ P : K[X], P.degree < n ∧ ∀ x, P.eval x = ∑ a ∈ Finset.range n, d a * x ^ a := by
  refine ⟨∑ a ∈ Finset.range n, C (d a) * X ^ a, ?_, fun x => ?_⟩
  · rw [← mem_degreeLT]
    refine Submodule.sum_mem _ fun a ha => mem_degreeLT.2 ?_
    refine (degree_C_mul_X_pow_le a (d a)).trans_lt ?_
    exact_mod_cast Finset.mem_range.1 ha
  · rw [eval_finsetSum]
    simp only [eval_mul, eval_C, eval_pow, eval_X]

end Lagrange

/-! ## The places of the table -/

namespace MeshParams

variable {p : MeshParams K} {zMatrix tbl : Grid K} {j i : ℕ}

theorem mul_xMult_lt (hi : i < p.xCount) : i * p.xMult < p.meshXCount := by
  rw [meshXCount_eq]
  exact mul_lt_count hi

theorem mul_yMult_lt (hj : j < p.yCount) : j * p.yMult < p.meshYCount := by
  rw [meshYCount_eq]
  exact mul_lt_count hj

theorem exists_eq_mul_xMult (hi : i < p.meshXCount) (hmod : i % p.xMult = 0) :
    ∃ k < p.xCount, i = k * p.xMult := by
  have hcount := p.two_le_xCount
  rw [meshXCount_eq] at hi
  exact ⟨i / p.xMult, div_lt_of_lt (Nat.succ_pos _) (by omega) hi,
    (Nat.div_mul_cancel (Nat.dvd_of_mod_eq_zero hmod)).symm⟩

theorem exists_eq_mul_yMult (hj : j < p.meshYCount) (hmod : j % p.yMult = 0) :
    ∃ k < p.yCount, j = k * p.yMult := by
  have hcount := p.two_le_yCount
  rw [meshYCount_eq] at hj
  exact ⟨j / p.yMult, div_lt_of_lt (Nat.succ_pos _) (by omega) hj,
    (Nat.div_mul_cancel (Nat.dvd_of_mod_eq_zero hmod)).symm⟩

/-- A probed height is written to its place. -/
theorem entry_spread (h : p.spread zMatrix = some tbl) (hj : j < p.yCount) (hi : i < p.xCount) :
    tbl.entry (j * p.yMult) (i * p.xMult) = zMatrix.entry j i := by
  have hxMult : 0 < p.xMult := Nat.succ_pos _
  have hyMult : 0 < p.yMult := Nat.succ_pos _
  unfold spread at h
  rw [Grid.entry_tabulate h (mul_yMult_lt hj) (mul_xMult_lt hi), Nat.mul_mod_left, Nat.mul_mod_left,
    if_neg (by simp), Nat.mul_div_cancel _ hyMult, Nat.mul_div_cancel _ hxMult]

/-- The two passes leave the probed heights at their places. -/
theorem entry_passes {fx fy : Grid K → ℕ → ℕ → Option K} {mesh mesh' : Grid K}
    (h : p.spread zMatrix = some mesh) (hfx : Grid.fill fx p.xPlaces mesh = some mesh')
    (hfy : Grid.fill fy p.yPlaces mesh' = some tbl) (hj : j < p.yCount) (hi : i < p.xCount) :
    tbl.entry (j * p.yMult) (i * p.xMult) = zMatrix.entry j i := by
  have hy : (j * p.yMult, i * p.xMult) ∉ p.yPlaces := fun hmem =>
    (mem_yPlaces_iff.1 hmem).2 (Nat.mul_mod_left _ _)
  have hx : (j * p.yMult, i * p.xMult) ∉ p.xPlaces := fun hmem =>
    (mem_xPlaces_iff.1 hmem).2.1 (Nat.mul_mod_left _ _)
  rw [Grid.entry_fill_of_notMem hfy hy, Grid.entry_fill_of_notMem hfx hx, entry_spread h hj hi]

/-! ## Polynomials -/

/-- A polynomial in X and Y of degrees less than the counts. -/
def polynomialAt (p : MeshParams K) (c : ℕ → ℕ → K) (x y : K) : K :=
  ∑ a ∈ Finset.range p.xCount, ∑ b ∈ Finset.range p.yCount, c a b * x ^ a * y ^ b

/-- Along X it is a polynomial in X. -/
theorem exists_polynomial_x (c : ℕ → ℕ → K) (y : K) :
    ∃ P : K[X], P.degree < p.xCount ∧ ∀ x, P.eval x = p.polynomialAt c x y := by
  obtain ⟨P, hdegree, hP⟩ :=
    exists_polynomial (fun a => ∑ b ∈ Finset.range p.yCount, c a b * y ^ b) p.xCount
  refine ⟨P, hdegree, fun x => (hP x).trans ?_⟩
  unfold polynomialAt
  refine Finset.sum_congr rfl fun a _ => ?_
  rw [Finset.sum_mul]
  exact Finset.sum_congr rfl fun b _ => by ring

/-- Along Y it is a polynomial in Y. -/
theorem exists_polynomial_y (c : ℕ → ℕ → K) (x : K) :
    ∃ P : K[X], P.degree < p.yCount ∧ ∀ y, P.eval y = p.polynomialAt c x y := by
  obtain ⟨P, hdegree, hP⟩ :=
    exists_polynomial (fun b => ∑ a ∈ Finset.range p.xCount, c a b * x ^ a) p.yCount
  refine ⟨P, hdegree, fun y => (hP y).trans ?_⟩
  unfold polynomialAt
  rw [Finset.sum_comm]
  exact Finset.sum_congr rfl fun b _ => Finset.sum_mul _ _ _

/-- Equidistant points differ. -/
theorem injOn_points {a d : K} (hd : d ≠ 0) {mult : ℕ} (hmult : 0 < mult) (s : Set ℕ) :
    Set.InjOn (fun k : ℕ => a + d * ((k * mult : ℕ) : K)) s := fun _ _ _ _ h =>
  Nat.eq_of_mul_eq_mul_right hmult (Nat.cast_injective (mul_left_cancel₀ hd (add_left_cancel h)))

/-- Over heights of a polynomial both passes find the heights of the polynomial. -/
theorem entry_sampleLagrange (hsize : zMatrix.Sized p.yCount p.xCount) (hx : p.meshXDist ≠ 0)
    (hy : p.meshYDist ≠ 0) (h : p.sampleLagrange zMatrix = some tbl) {c : ℕ → ℕ → K}
    (hprobed : ∀ j < p.yCount, ∀ i < p.xCount, zMatrix.entry j i =
      some (p.polynomialAt c (p.getXCoordinate (i * p.xMult)) (p.getYCoordinate (j * p.yMult))))
    (hj : j < p.meshYCount) (hi : i < p.meshXCount) :
    tbl.entry j i = some (p.polynomialAt c (p.getXCoordinate i) (p.getYCoordinate j)) := by
  have hxMult : 0 < p.xMult := Nat.succ_pos _
  have hyMult : 0 < p.yMult := Nat.succ_pos _
  obtain ⟨mesh, hmesh, hsized⟩ := spread_isSome hsize
  unfold sampleLagrange at h
  rw [hmesh, Option.bind_eq_bind, Option.bind_some] at h
  obtain ⟨mesh', hfx, hfy⟩ := Option.bind_eq_some_iff.1 h
  have hsized' := hsized.fill hfx
  -- what is known before and after the first pass
  have hrows := Grid.entry_fill
    (fun j i => (∃ k < p.yCount, j = k * p.yMult) ∧ ∃ k < p.xCount, i = k * p.xMult)
    (v := fun j i => p.polynomialAt c (p.getXCoordinate i) (p.getYCoordinate j)) hsized
    (fun place hplace => (mem_xPlaces_iff.1 hplace).1) ?_ ?_ hfx
  · have hrow : ∀ k < p.yCount, ∀ i < p.meshXCount,
        ((∃ l < p.yCount, k * p.yMult = l * p.yMult) ∧ ∃ l < p.xCount, i = l * p.xMult) ∨
          (k * p.yMult, i) ∈ p.xPlaces := by
      intro k hk i hi
      by_cases hmod : i % p.xMult = 0
      · exact .inl ⟨⟨k, hk, rfl⟩, exists_eq_mul_xMult hi hmod⟩
      · exact .inr (mem_xPlaces_iff.2 ⟨⟨mul_yMult_lt hk, hi⟩, hmod, Nat.mul_mod_left _ _⟩)
    refine Grid.entry_fill _ hsized' (fun place hplace => (mem_yPlaces_iff.1 hplace).1) ?_
      hrows hfy j i ?_
    · intro g hg place hplace
      obtain ⟨P, hdegree, hP⟩ := exists_polynomial_y (p := p) c (p.getXCoordinate place.2)
      rw [← hP]
      refine calcLagrange_eval (injOn_points hy hyMult _) hdegree (fun k hk => ?_) _
      rw [hg _ _ (hrow k hk _ (mem_yPlaces_iff.1 hplace).1.2), hP]
      rfl
    · by_cases hmod : j % p.yMult = 0
      · obtain ⟨k, hk, rfl⟩ := exists_eq_mul_yMult hj hmod
        exact .inl (hrow k hk i hi)
      · exact .inr (mem_yPlaces_iff.2 ⟨⟨hj, hi⟩, hmod⟩)
  · intro g hg place hplace
    obtain ⟨⟨hrow, -⟩, -, hmod⟩ := mem_xPlaces_iff.1 hplace
    obtain ⟨P, hdegree, hP⟩ := exists_polynomial_x (p := p) c (p.getYCoordinate place.1)
    rw [← hP]
    refine calcLagrange_eval (injOn_points hx hxMult _) hdegree (fun k hk => ?_) _
    rw [hg _ _ ⟨exists_eq_mul_yMult hrow hmod, k, hk, rfl⟩, hP]
    rfl
  · rintro j i ⟨⟨k, hk, rfl⟩, l, hl, rfl⟩
    rw [entry_spread hmesh hk hl, hprobed k hk l hl]

end MeshParams

/-! ## Heights between the nodes -/

theorem lerp_zero (a b : K) : lerp 0 a b = a := by
  unfold lerp
  ring

theorem lerp_one (a b : K) : lerp 1 a b = b := by
  unfold lerp
  ring

/-- Between two heights there is none beyond them. -/
theorem lerp_mem_Icc {t a b lo hi : K} (ht : t ∈ Set.Icc 0 1) (ha : a ∈ Set.Icc lo hi)
    (hb : b ∈ Set.Icc lo hi) : lerp t a b ∈ Set.Icc lo hi :=
  convex_Icc lo hi ha hb (sub_nonneg.2 ht.2) ht.1 (sub_add_cancel 1 t)

namespace ZMesh

variable {p q : MeshParams K} {tbl zMatrix : Grid K} {m : ZMesh K} {x y z : K} {j i : ℕ}

/-- The index of a coordinate with the part of the way to the next one. -/
theorem getLinearIndex_mem_Icc {meshMin meshDist coord t : K} {meshCnt idx : ℕ}
    (h : getLinearIndex meshMin meshDist meshCnt coord = some (t, idx)) :
    t ∈ Set.Icc (0 : K) 1 := by
  unfold getLinearIndex at h
  obtain ⟨q, -, h⟩ := Option.bind_eq_some_iff.1 h
  obtain ⟨u, -, h⟩ := Option.bind_eq_some_iff.1 h
  obtain ⟨rfl, -⟩ := Prod.mk.inj (Option.some_inj.1 h)
  exact ⟨le_min zero_le_one (le_max_left 0 u), min_le_left _ _⟩

/-- A node is found at its index, the last one behind the index before it. -/
theorem getLinearIndex_node (meshMin : K) {meshDist : K} {meshCnt : ℕ} (hdist : meshDist ≠ 0)
    (hcnt : 2 ≤ meshCnt) (hi : i < meshCnt) :
    ∃ t idx, getLinearIndex meshMin meshDist meshCnt (meshMin + meshDist * i) = some (t, idx) ∧
      idx + 1 < meshCnt ∧ (t = 0 ∧ i = idx ∨ t = 1 ∧ i = idx + 1) := by
  have hq : (meshMin + meshDist * i - meshMin) / meshDist = i := by
    rw [add_sub_cancel_left, mul_div_cancel_left₀ _ hdist]
  unfold getLinearIndex divide
  rw [if_neg hdist, hq, Option.bind_eq_bind, Option.bind_some, Int.floor_natCast]
  dsimp only
  rw [if_neg hdist, Option.bind_some]
  refine ⟨_, _, rfl, ?_⟩
  unfold constrain
  by_cases hlast : i + 1 < meshCnt
  · have hidx : (min ((meshCnt : ℤ) - 2) (max 0 (i : ℤ))).toNat = i := by omega
    rw [hidx, sub_self, zero_div, max_self, min_eq_right zero_le_one]
    exact ⟨hlast, .inl ⟨rfl, rfl⟩⟩
  · have hidx : (min ((meshCnt : ℤ) - 2) (max 0 (i : ℤ))).toNat = i - 1 := by omega
    have ht : (meshMin + meshDist * i - (meshMin + meshDist * ((i - 1 : ℕ) : K))) / meshDist =
        1 := by
      rw [Nat.cast_sub (by omega), Nat.cast_one, div_eq_one_iff_eq hdist]
      ring
    rw [hidx, ht, max_eq_right zero_le_one, min_self]
    exact ⟨by omega, .inr ⟨rfl, by omega⟩⟩

/-- At a node the height of the table is found. -/
theorem lookup_node (h : tbl.Sized p.meshYCount p.meshXCount) (hx : p.meshXDist ≠ 0)
    (hy : p.meshYDist ≠ 0) (hj : j < p.meshYCount) (hi : i < p.meshXCount) :
    lookup p tbl (p.getXCoordinate i) (p.getYCoordinate j) = tbl.entry j i := by
  obtain ⟨tx, xidx, htx, hxidx, hxnode⟩ := getLinearIndex_node p.minX hx p.two_le_meshXCount hi
  obtain ⟨ty, yidx, hty, hyidx, hynode⟩ := getLinearIndex_node p.minY hy p.two_le_meshYCount hj
  obtain ⟨z00, h00⟩ := h.entry_isSome (by omega : yidx < _) (by omega : xidx < _)
  obtain ⟨z01, h01⟩ := h.entry_isSome (by omega : yidx < _) hxidx
  obtain ⟨z10, h10⟩ := h.entry_isSome hyidx (by omega : xidx < _)
  obtain ⟨z11, h11⟩ := h.entry_isSome hyidx hxidx
  have hlookup : lookup p tbl (p.getXCoordinate i) (p.getYCoordinate j) =
      some (lerp ty (lerp tx z00 z01) (lerp tx z10 z11)) := by
    unfold lookup MeshParams.getXCoordinate MeshParams.getYCoordinate
    rw [htx, hty]
    simp only [Option.bind_eq_bind, Option.bind_some, h00, h01, h10, h11]
    rfl
  rw [hlookup]
  rcases hxnode with ⟨rfl, rfl⟩ | ⟨rfl, rfl⟩
  · rw [lerp_zero, lerp_zero]
    rcases hynode with ⟨rfl, rfl⟩ | ⟨rfl, rfl⟩
    · rw [lerp_zero, h00]
    · rw [lerp_one, h10]
  · rw [lerp_one, lerp_one]
    rcases hynode with ⟨rfl, rfl⟩ | ⟨rfl, rfl⟩
    · rw [lerp_zero, h01]
    · rw [lerp_one, h11]

/-- No height lies beyond those of the table. -/
theorem lookup_mem_Icc {lo hi : K} (h : ∀ j i z, tbl.entry j i = some z → z ∈ Set.Icc lo hi)
    (hz : lookup p tbl x y = some z) : z ∈ Set.Icc lo hi := by
  unfold lookup at hz
  obtain ⟨⟨tx, xidx⟩, htx, hz⟩ := Option.bind_eq_some_iff.1 hz
  obtain ⟨⟨ty, yidx⟩, hty, hz⟩ := Option.bind_eq_some_iff.1 hz
  obtain ⟨z00, h00, hz⟩ := Option.bind_eq_some_iff.1 hz
  obtain ⟨z01, h01, hz⟩ := Option.bind_eq_some_iff.1 hz
  obtain ⟨z10, h10, hz⟩ := Option.bind_eq_some_iff.1 hz
  obtain ⟨z11, h11, hz⟩ := Option.bind_eq_some_iff.1 hz
  obtain rfl := Option.some_inj.1 hz
  have htx := getLinearIndex_mem_Icc htx
  exact lerp_mem_Icc (getLinearIndex_mem_Icc hty)
    (lerp_mem_Icc htx (h _ _ _ h00) (h _ _ _ h01))
    (lerp_mem_Icc htx (h _ _ _ h10) (h _ _ _ h11))

/-- The least and the greatest height bound all of them. -/
theorem getZRange_isSome {rows cols : ℕ} (htable : m.table m.meshMatrix = some tbl)
    (h : tbl.Sized rows cols) (hrows : 0 < rows) (hcols : 0 < cols) :
    ∃ lo hi, m.getZRange = some (lo, hi) ∧
      ∀ j i z, tbl.entry j i = some z → z ∈ Set.Icc lo hi := by
  have hne : tbl ≠ [] := List.ne_nil_of_length_pos (h.length_eq.symm ▸ hrows)
  have hrow : ∀ row ∈ tbl, row ≠ [] := fun row hmem =>
    List.ne_nil_of_length_pos ((h.row_length row hmem).symm ▸ hcols)
  obtain ⟨mins, hmins, hlength, -⟩ := Grid.mapM_isSome (l := tbl) (f := fun row => row.min?)
    (P := fun _ => True) fun row hmem => by
      obtain ⟨lo, hlo⟩ := Option.isSome_iff_exists.1 (List.isSome_min?_iff.2 (hrow row hmem))
      exact ⟨lo, hlo, trivial⟩
  obtain ⟨maxs, hmaxs, hlength', -⟩ := Grid.mapM_isSome (l := tbl) (f := fun row => row.max?)
    (P := fun _ => True) fun row hmem => by
      obtain ⟨hi, hhi⟩ := Option.isSome_iff_exists.1 (List.isSome_max?_iff.2 (hrow row hmem))
      exact ⟨hi, hhi, trivial⟩
  have hminsNe : mins ≠ [] := fun hnil => hne (List.eq_nil_of_length_eq_zero
    (hlength.symm.trans (congrArg List.length hnil)))
  have hmaxsNe : maxs ≠ [] := fun hnil => hne (List.eq_nil_of_length_eq_zero
    (hlength'.symm.trans (congrArg List.length hnil)))
  obtain ⟨lo, hlo⟩ := Option.isSome_iff_exists.1 (List.isSome_min?_iff.2 hminsNe)
  obtain ⟨hi, hhi⟩ := Option.isSome_iff_exists.1 (List.isSome_max?_iff.2 hmaxsNe)
  refine ⟨lo, hi, ?_, fun j i z hz => ?_⟩
  · unfold getZRange
    rw [htable]
    simp only [Option.bind_eq_bind, hmins, hmaxs, hlo, hhi, Option.bind_some]
    rfl
  · obtain ⟨row, hrow, hz⟩ := Option.bind_eq_some_iff.1 hz
    obtain ⟨least, hleast, hmem⟩ := Grid.getElem?_mapM hmins hrow
    obtain ⟨greatest, hgreatest, hmem'⟩ := Grid.getElem?_mapM hmaxs hrow
    have hz := List.mem_of_getElem? hz
    exact ⟨((List.min?_eq_some_iff.1 hlo).2 _ (List.mem_of_getElem? hmem)).trans
        ((List.min?_eq_some_iff.1 hleast).2 z hz),
      ((List.max?_eq_some_iff.1 hgreatest).2 z hz).trans
        ((List.max?_eq_some_iff.1 hhi).2 _ (List.mem_of_getElem? hmem'))⟩

/-! ## The mesh of probed points -/

/-- What the table of a mesh holds, and which heights are looked up in it. -/
structure Interpolated (q : MeshParams K) (zMatrix : Grid K) (m : ZMesh K) (tbl : Grid K) :
    Prop where
  table_eq : m.table m.meshMatrix = some tbl
  sized : tbl.Sized q.meshYCount q.meshXCount
  probed : ∀ j < q.yCount, ∀ i < q.xCount,
    tbl.entry (j * q.yMult) (i * q.xMult) = zMatrix.entry j i
  polynomial : q.algo = .lagrange → ∀ c : ℕ → ℕ → K,
    (∀ j < q.yCount, ∀ i < q.xCount, zMatrix.entry j i =
      some (q.polynomialAt c (q.getXCoordinate (i * q.xMult)) (q.getYCoordinate (j * q.yMult)))) →
    ∀ j < q.meshYCount, ∀ i < q.meshXCount,
      tbl.entry j i = some (q.polynomialAt c (q.getXCoordinate i) (q.getYCoordinate j))
  node : ∀ j < q.meshYCount, ∀ i < q.meshXCount,
    m.calcZ (q.getXCoordinate i) (q.getYCoordinate j) = tbl.entry j i
  between : ∃ lo hi, m.getZRange = some (lo, hi) ∧
    ∀ x y, ∃ z, m.calcZ x y = some z ∧ z ∈ Set.Icc lo hi

/-- The table that a mesh is built with. -/
theorem exists_table (hq : p.verifyAlgorithm = some q) (hsize : zMatrix.Sized q.yCount q.xCount)
    (hx : q.meshXDist ≠ 0) (hy : q.meshYDist ≠ 0) :
    ∃ m tbl, (init q).buildMesh zMatrix = some m ∧ m.Holds q zMatrix tbl ∧
      tbl.Sized q.meshYCount q.meshXCount ∧
      (∀ j < q.yCount, ∀ i < q.xCount,
        tbl.entry (j * q.yMult) (i * q.xMult) = zMatrix.entry j i) ∧
      (q.algo = .lagrange → q.sampleLagrange zMatrix = some tbl) := by
  obtain ⟨hdirect, hbicubic⟩ := MeshParams.verifyAlgorithm_spec hq
  obtain ⟨spread, hspread, -⟩ := MeshParams.spread_isSome hsize
  unfold buildMesh init
  dsimp only
  cases halgo : q.algo with
  | lagrange =>
    obtain ⟨tbl, htbl, hsized⟩ := MeshParams.sampleLagrange_isSome hsize hx hy
    rw [htbl]
    refine ⟨_, tbl, rfl, ⟨rfl, rfl, rfl, rfl, rfl⟩, hsized, fun j hj i hi => ?_, fun _ => rfl⟩
    unfold MeshParams.sampleLagrange at htbl
    rw [hspread, Option.bind_eq_bind, Option.bind_some] at htbl
    obtain ⟨mesh, hfx, hfy⟩ := Option.bind_eq_some_iff.1 htbl
    exact MeshParams.entry_passes hspread hfx hfy hj hi
  | bicubic =>
    obtain ⟨hxCount, hyCount⟩ := hbicubic halgo
    obtain ⟨tbl, htbl, hsized⟩ :=
      MeshParams.sampleBicubic_isSome hsize (by omega) (by omega)
    rw [htbl]
    refine ⟨_, tbl, rfl, ⟨rfl, rfl, rfl, rfl, rfl⟩, hsized, fun j hj i hi => ?_,
      fun h => MeshAlgo.noConfusion h⟩
    unfold MeshParams.sampleBicubic at htbl
    rw [hspread, Option.bind_eq_bind, Option.bind_some] at htbl
    obtain ⟨mesh, hfx, hfy⟩ := Option.bind_eq_some_iff.1 htbl
    exact MeshParams.entry_passes hspread hfx hfy hj hi
  | direct =>
    obtain ⟨hxPps, hyPps⟩ := hdirect halgo
    refine ⟨_, zMatrix, rfl, ⟨rfl, rfl, rfl, rfl, rfl⟩, ?_, fun j _ i _ => ?_,
      fun h => MeshAlgo.noConfusion h⟩
    · unfold MeshParams.meshYCount MeshParams.meshXCount
      rw [hxPps, hyPps, Nat.mul_zero, Nat.zero_add, Nat.mul_zero, Nat.zero_add]
      exact hsize
    · unfold MeshParams.yMult MeshParams.xMult
      rw [hxPps, hyPps, Nat.zero_add, Nat.mul_one, Nat.mul_one]

/-- Every mesh of probed points is built and interpolates them. -/
theorem interpolated_buildMesh (hq : p.verifyAlgorithm = some q)
    (hsize : zMatrix.Sized q.yCount q.xCount) (hx : q.minX ≠ q.maxX) (hy : q.minY ≠ q.maxY) :
    ∃ m tbl, (init q).buildMesh zMatrix = some m ∧ Interpolated q zMatrix m tbl := by
  have hx := q.meshXDist_ne_zero_iff.2 hx
  have hy := q.meshYDist_ne_zero_iff.2 hy
  obtain ⟨m, tbl, hbuild, hm, hsized, hprobed, hlagrange⟩ := exists_table hq hsize hx hy
  refine ⟨m, tbl, hbuild, hm.mesh_eq, hsized, hprobed, ?_, ?_, ?_⟩
  · intro halgo c hc j hj i hi
    exact MeshParams.entry_sampleLagrange hsize hx hy (hlagrange halgo) hc hj hi
  · intro j hj i hi
    rw [hm.calcZ]
    exact lookup_node hsized hx hy hj hi
  · have hrows := q.two_le_meshYCount
    have hcols := q.two_le_meshXCount
    obtain ⟨lo, hi, hrange, hbounds⟩ := getZRange_isSome hm.mesh_eq hsized (by omega) (by omega)
    refine ⟨lo, hi, hrange, fun x y => ?_⟩
    obtain ⟨z, hz⟩ := lookup_isSome hsized hx hy x y
    exact ⟨z, (hm.calcZ x y).trans hz, lookup_mem_Icc hbounds hz⟩

/-- Two points on each axis with one between them. -/
theorem interpolated_flat : ∃ m tbl,
    (init (flatParams 1)).buildMesh [[1, 1], [1, 1]] = some m ∧
      Interpolated (flatParams 1) [[1, 1], [1, 1]] m tbl :=
  interpolated_buildMesh (p := flatParams 1) rfl ⟨rfl, by decide⟩ (by decide +kernel)
    (by decide +kernel)

end ZMesh

end Thinker
