import Thinker.ProbeGrid

/-!
# The table of a probe grid

The points of row `j` are the places `gridPoint j i` of the columns `i` that are within the bed,
every other row backwards (`points_eq`). On a round bed these are the columns up to the same
distance from both ends (`exists_margin`), so a row is filled up evenly. What was substituted is a
list of replacements (`Generated`), which `Splice` counts the samples of; `ZigZag` finds the rows
again as long as rows are further apart than what `isclose` takes for equal (`IsApart`).
-/

set_option linter.unusedSectionVars false

namespace Thinker

variable {K : Type} [Field K] [LinearOrder K] [IsStrictOrderedRing K] [FloorRing K]

namespace MeshArea

/-! ## Points -/

/-- What the points are moved by. -/
def base (a : MeshArea K) : K × K :=
  if a.radius.isSome then a.origin else (0, 0)

/-- The point in column `i` of row `j`, counted in increasing X and Y. -/
def gridPoint (a : MeshArea K) (j i : ℕ) : K × K :=
  (a.base.1 + (a.minCorner.1 + i * a.xDist), a.base.2 + (a.minCorner.2 + j * a.yDist))

/-- Whether a round bed has the point. -/
def isInside (a : MeshArea K) (j i : ℕ) : Bool :=
  (a.pointAt (a.minCorner.1 + i * a.xDist) (a.minCorner.2 + j * a.yDist)).isSome

/-- The columns in the direction of a row. -/
def columns (a : MeshArea K) (j : ℕ) : List ℕ :=
  ZigZag.orient (decide (j % 2 = 0)) (List.range a.xCount)

/-- The columns of a row that a bed has, in its direction. -/
def insideColumns (a : MeshArea K) (j : ℕ) : List ℕ :=
  (a.columns j).filter (a.isInside j)

variable {a : MeshArea K} {i j : ℕ} {p : K × K} {x y : K}

theorem pointAt_eq (a : MeshArea K) (x y : K) :
    a.pointAt x y =
      if (a.pointAt x y).isSome then some (a.base.1 + x, a.base.2 + y) else none := by
  unfold pointAt base
  cases hr : a.radius with
  | none => simp
  | some r =>
    by_cases h : x * x + y * y ≤ r * r <;> simp [h]

theorem odd_xCount {r : K} (hr : a.radius = some r) : a.xCount = 2 * (a.xCount / 2) + 1 := by
  obtain ⟨-, -, -, -, hodd⟩ := a.circle r hr
  omega

theorem maxCorner_sub (a : MeshArea K) {j : ℕ} (hj : j < a.xCount) :
    a.maxCorner.1 - j * a.xDist = a.minCorner.1 + (a.xCount - 1 - j : ℕ) * a.xDist := by
  have hcast : ((a.xCount - 1 - j : ℕ) : K) = a.xCount - 1 - j := by
    rw [Nat.cast_sub (by omega), Nat.cast_sub (by omega), Nat.cast_one]
  unfold maxCorner minCorner
  cases hr : a.radius with
  | none =>
    simp only [Option.isSome_none, Bool.false_eq_true, if_false, hcast]
    ring
  | some r =>
    have hodd : (a.xCount : K) = 2 * (a.xCount / 2 : ℕ) + 1 := by exact_mod_cast odd_xCount hr
    simp only [Option.isSome_some, if_true, hcast, newRadius, hodd]
    ring

/-- The points of a row. -/
theorem pointRow_eq (a : MeshArea K) (j : ℕ) :
    a.pointRow j (a.minCorner.2 + j * a.yDist) = (a.insideColumns j).map (a.gridPoint j) := by
  have hplaces : a.pointRow j (a.minCorner.2 + j * a.yDist) = (a.columns j).filterMap fun (i : ℕ) =>
      a.pointAt (a.minCorner.1 + i * a.xDist) (a.minCorner.2 + j * a.yDist) := by
    unfold pointRow columns ZigZag.orient
    by_cases hj : j % 2 = 0
    · simp [hj]
    · have hreverse : (List.range a.xCount).reverse =
          (List.range a.xCount).map fun i => a.xCount - 1 - i := by
        rw [List.range_eq_range', List.reverse_range', ← List.range_eq_range', Nat.zero_add]
      simp only [hj, decide_false, Bool.false_eq_true, if_false]
      rw [hreverse, List.filterMap_map]
      refine List.filterMap_congr fun i hi => ?_
      rw [a.maxCorner_sub (List.mem_range.1 hi)]
      rfl
  rw [hplaces, insideColumns, ← List.filterMap_eq_map, List.filterMap_filter]
  refine List.filterMap_congr fun i _ => ?_
  rw [pointAt_eq]
  rfl

theorem pointRows_eq (a : MeshArea K) (n j : ℕ) :
    a.pointRows n j (a.minCorner.2 + j * a.yDist) =
      (List.range' j n).flatMap fun j => (a.insideColumns j).map (a.gridPoint j) := by
  induction n generalizing j with
  | zero => rfl
  | succ n ih =>
    have hnext : a.minCorner.2 + j * a.yDist + a.yDist =
        a.minCorner.2 + (j + 1 : ℕ) * a.yDist := by
      push_cast
      ring
    rw [pointRows, pointRow_eq, hnext, ih, List.range'_succ, List.flatMap_cons]

/-- The points, row by row. -/
theorem points_eq (a : MeshArea K) :
    a.points =
      (List.range a.yCount).flatMap fun j => (a.insideColumns j).map (a.gridPoint j) := by
  have h := a.pointRows_eq a.yCount 0
  rw [Nat.cast_zero, zero_mul, add_zero] at h
  rw [points, h, List.range_eq_range']

/-! ## Rows -/

theorem floorDist_le (lo hi : K) (count : ℕ) : floorDist lo hi count ≤ (hi - lo) / (count - 1) := by
  unfold floorDist
  rw [div_le_iff₀ (by norm_num)]
  exact Int.floor_le _

theorem yDist_eq (hr : a.radius.isSome = true) : a.yDist = a.xDist := by
  simp [yDist, hr]

theorem newRadius_le {r : K} (hr : a.radius = some r) : a.newRadius ≤ r := by
  obtain ⟨hr0, hmin, hmax, -⟩ := a.circle r hr
  have hodd : (a.xCount : K) = 2 * (a.xCount / 2 : ℕ) + 1 := by exact_mod_cast odd_xCount hr
  have hhalf : (0 : K) < (a.xCount / 2 : ℕ) := by
    exact_mod_cast Nat.div_pos a.two_le_xCount Nat.two_pos
  have hle := floorDist_le a.meshMin.1 a.meshMax.1 a.xCount
  rw [hmin, hmax, le_div_iff₀ (by linarith)] at hle
  have hdist : floorDist (-r) r a.xCount = a.xDist := by rw [xDist, hmin, hmax]
  rw [hdist, hodd] at hle
  dsimp only at hle
  unfold newRadius
  linarith

/-- The place of a column, from the middle. -/
theorem isInside_iff {r : K} (hr : a.radius = some r) : a.isInside j i = true ↔
    ((i : K) - (a.xCount / 2 : ℕ)) ^ 2 * a.xDist ^ 2 +
      ((j : K) - (a.xCount / 2 : ℕ)) ^ 2 * a.xDist ^ 2 ≤ r * r := by
  have hsome : a.radius.isSome = true := by simp [hr]
  have hx (k : ℕ) : (-a.newRadius + k * a.xDist) * (-a.newRadius + k * a.xDist) =
      ((k : K) - (a.xCount / 2 : ℕ)) ^ 2 * a.xDist ^ 2 := by
    unfold newRadius
    ring
  unfold isInside pointAt minCorner
  rw [yDist_eq hsome]
  simp only [hr, Option.isSome_some, if_true, hx, Option.isSome_ite]

/-- The columns of a row within the bed are those up to a distance from its ends. -/
theorem exists_margin (a : MeshArea K) (hd : 0 < a.xDist) (hj : j < a.yCount) :
    ∃ lo, 2 * lo < a.xCount ∧ (a.radius = none → lo = 0) ∧
      (a.radius.isSome = true → (a.xCount - (a.xCount - 2 * lo)) / 2 = lo ∧
        (a.xCount - 2 * lo) % 2 = 1) ∧
      ∀ i < a.xCount, a.isInside j i = true ↔ lo ≤ i ∧ i < a.xCount - lo := by
  cases hr : a.radius with
  | none =>
    refine ⟨0, by have := a.two_le_xCount; omega, fun _ => rfl, by simp, fun i hi => ?_⟩
    simp [isInside, pointAt, hr, hi]
  | some r =>
    classical
    obtain ⟨hr0, -, -, hxy, -⟩ := a.circle r hr
    have hodd := odd_xCount hr
    set h := a.xCount / 2 with hh
    let P (e : ℕ) : Prop :=
      (e : K) ^ 2 * a.xDist ^ 2 + ((j : K) - (h : ℕ)) ^ 2 * a.xDist ^ 2 ≤ r * r
    have hmiddle : P 0 := by
      have hle := newRadius_le hr
      unfold newRadius at hle
      have hj' : |(j : K) - h| ≤ h := by
        have h1 : (j : K) ≤ 2 * h := by
          exact_mod_cast (by omega : j ≤ 2 * h)
        rw [abs_le]
        constructor <;> linarith [Nat.cast_nonneg (α := K) j]
      have hsq : ((j : K) - h) ^ 2 * a.xDist ^ 2 ≤ r * r := by
        rw [← mul_pow, ← pow_two, ← sq_abs, abs_mul, abs_of_pos hd]
        refine pow_le_pow_left₀ (by positivity) ?_ 2
        exact (mul_le_mul_of_nonneg_right hj' hd.le).trans hle
      simpa [P] using hsq
    have hmono {e e' : ℕ} (he : e ≤ e') (hP : P e') : P e := by
      have hcast : (e : K) ≤ e' := by exact_mod_cast he
      have hsq : (e : K) ^ 2 * a.xDist ^ 2 ≤ (e' : K) ^ 2 * a.xDist ^ 2 := by gcongr
      exact (add_le_add_left hsq _).trans hP
    obtain ⟨m, hm, hiff⟩ : ∃ m ≤ h, ∀ e ≤ h, P e ↔ e ≤ m := by
      have hspec : P (Nat.findGreatest P h) := Nat.findGreatest_spec (Nat.zero_le h) hmiddle
      exact ⟨_, Nat.findGreatest_le h, fun e he =>
        ⟨fun hP => Nat.le_findGreatest he hP, fun hle => hmono hle hspec⟩⟩
    refine ⟨h - m, by omega, by simp, fun _ => by omega, fun i hi => ?_⟩
    rw [isInside_iff hr]
    rcases Nat.le_total i h with hih | hih
    · have hcast : ((h - i : ℕ) : K) = h - i := Nat.cast_sub hih
      have hP := hiff (h - i) (Nat.sub_le h i)
      simp only [P, hcast, ← neg_sub (i : K) h, neg_sq] at hP
      rw [hP]
      omega
    · have hcast : ((i - h : ℕ) : K) = i - h := Nat.cast_sub hih
      have hP := hiff (i - h) (by omega)
      simp only [P, hcast] at hP
      rw [hP]
      omega

end MeshArea

namespace BedMeshCalibrate

open Splice

variable {c c' : BedMeshCalibrate K} {os : List (Option (List (K × K)))}

/-! ## What is substituted -/

/-- The points are those of the area, and some are replaced. -/
structure Generated (c : BedMeshCalibrate K) (os : List (Option (List (K × K)))) : Prop where
  points : c.points = c.area.points
  one_le_xDist : 1 ≤ c.area.xDist
  one_le_yDist : 1 ≤ c.area.yDist
  length : os.length = c.points.length
  substituted : c.substitutedIndices = entries 0 os
  valid : ∀ b, some b ∈ os → b ≠ [] ∧ ∀ p ∈ b, c.area.isValid p = true
  reference : c.zeroReferenceMode = .probe → c.zeroRefPos.isSome = true

/-- A point is left, or replaced by coordinates that are taken to be within the mesh boundary. -/
theorem substitute_cases {st st' : K × Bool × List (ℕ × List (K × K))} {p : K × K} {n : ℕ}
    (h : c.substitute st (p, n) = .ok st') :
    st'.2.2 = st.2.2 ∨ ∃ b, (b ≠ [] ∧ ∀ p ∈ b, c.area.isValid p = true) ∧
      st'.2.2 = st.2.2 ++ [(n, b)] := by
  unfold substitute at h
  dsimp only at h
  generalize c.adjCoords p _ = adjCoords at h
  split at h
  · obtain rfl := Except.ok.inj h
    exact .inl rfl
  · split at h
    · cases h
    · rename_i hnone
      obtain rfl := Except.ok.inj h
      refine .inr ⟨_, ⟨fun hnil => hnone (by rw [hnil]; rfl), fun p hp => ?_⟩, rfl⟩
      exact (List.mem_filter.1 hp).2

theorem foldlM_substitute (l : List (K × K)) (n : ℕ) (st st' : K × Bool × List (ℕ × List (K × K)))
    (h : (l.zipIdx n).foldlM c.substitute st = .ok st') :
    ∃ os, os.length = l.length ∧ st'.2.2 = st.2.2 ++ entries n os ∧
      ∀ b, some b ∈ os → b ≠ [] ∧ ∀ p ∈ b, c.area.isValid p = true := by
  induction l generalizing n st with
  | nil =>
    obtain rfl : st = st' := by simpa [pure, Except.pure] using h
    exact ⟨[], rfl, by simp [entries], by simp⟩
  | cons p l ih =>
    rw [List.zipIdx_cons, List.foldlM_cons] at h
    cases hstep : c.substitute st (p, n) with
    | error e =>
      rw [hstep] at h
      cases h
    | ok st₁ =>
      rw [hstep] at h
      obtain ⟨os, hlen, hsub, hvalid⟩ := ih (n + 1) st₁ h
      rcases substitute_cases hstep with hsame | ⟨b, hb, happend⟩
      · exact ⟨none :: os, by simp [hlen], by rw [hsub, hsame, entries], by simpa using hvalid⟩
      · refine ⟨some b :: os, by simp [hlen], ?_, fun b' hb' => ?_⟩
        · rw [hsub, happend, entries, List.append_assoc, List.singleton_append]
        · rcases List.mem_cons.1 hb' with he | hb'
          · exact Option.some_inj.1 he ▸ hb
          · exact hvalid b' hb'

theorem entries_replicate_none (n k : ℕ) :
    entries n (List.replicate k (none : Option (List (K × K)))) = [] := by
  induction k generalizing n with
  | zero => rfl
  | succ k ih => exact ih (n + 1)

theorem exists_generated {manual : Bool} (h : c.generatePoints manual = .ok c')
    (hs : c.faultyRegions.isEmpty = true → c.substitutedIndices = []) :
    (c'.faultyRegions.isEmpty = true → c'.substitutedIndices = []) ∧ ∃ os, Generated c' os := by
  unfold generatePoints at h
  by_cases hclose : c.area.xDist < 1 ∨ c.area.flooredYDist < 1
  · rw [if_pos hclose] at h
    cases h
  rw [if_neg hclose] at h
  have hdist := hclose
  rw [not_or, not_lt, not_lt] at hdist
  have hy : 1 ≤ c.area.yDist := by
    unfold MeshArea.yDist
    split_ifs
    · exact hdist.1
    · exact hdist.2
  dsimp only at h
  cases hzero : c.zeroReference c.area.points with
  | error e =>
    rw [hzero] at h
    cases h
  | ok zeroRefPos =>
    rw [hzero] at h
    have href : c.referenceMode zeroRefPos manual = .probe → zeroRefPos.isSome = true := by
      cases zeroRefPos with
      | none => nofun
      | some p => exact fun _ => rfl
    have hnone : ∀ b, some b ∈ List.replicate c.area.points.length (none : Option (List (K × K))) →
        b ≠ [] ∧ ∀ p ∈ b, c.area.isValid p = true := fun b hb => by
      cases (List.mem_replicate.1 hb).2
    simp only [Except.bind] at h
    split at h
    · rename_i hempty
      obtain rfl := Except.ok.inj h
      exact ⟨hs, _, rfl, hdist.1, hy, List.length_replicate,
        (hs hempty).trans (entries_replicate_none _ _).symm, hnone, href⟩
    · rename_i hregions
      split at h
      · cases h
      · split at h
        · obtain rfl := Except.ok.inj h
          exact ⟨fun _ => rfl, _, rfl, hdist.1, hy, List.length_replicate,
            (entries_replicate_none _ _).symm, hnone, href⟩
        · unfold Except.map at h
          split at h
          · cases h
          · rename_i st hst
            obtain rfl := Except.ok.inj h
            obtain ⟨os, hlen, hsub, hvalid⟩ := foldlM_substitute _ _ _ _ hst
            exact ⟨fun hempty => absurd hempty hregions, os, rfl, hdist.1, hy, hlen,
              by simpa using hsub, hvalid, href⟩

theorem substitutedIndices_of_init {o : CalibrateOptions K} (h : initMeshConfig o = .ok c) :
    c.substitutedIndices = [] := by
  unfold initMeshConfig at h
  split at h
  · cases h
  · simp only [Except.bind] at h
    split at h
    · cases h
    · split at h
      · cases h
      · split at h
        · cases h
        · split at h
          · cases h
          · split at h
            · cases h
            · obtain rfl := Except.ok.inj h
              rfl

/-- After each calibration some points are replaced. -/
theorem exists_generated_of_calibrate {o : CalibrateOptions K} {manual : List Bool}
    (h : calibrate o manual = .ok c) : ∃ os, Generated c os := by
  have hrun (l : List Bool) (m : Bool) (c₀ : BedMeshCalibrate K)
      (hs : c₀.faultyRegions.isEmpty = true → c₀.substitutedIndices = [])
      (h : (m :: l).foldlM generatePoints c₀ = .ok c) : ∃ os, Generated c os := by
    induction l generalizing m c₀ with
    | nil =>
      have h : c₀.generatePoints m = .ok c := by simpa using h
      exact (exists_generated h hs).2
    | cons m' l ih =>
      rw [List.foldlM_cons] at h
      cases hstep : c₀.generatePoints m with
      | error e =>
        rw [hstep] at h
        cases h
      | ok c₁ =>
        rw [hstep] at h
        exact ih m' c₁ (exists_generated hstep hs).1 h
  unfold calibrate at h
  cases hinit : initMeshConfig o with
  | error e =>
    rw [hinit] at h
    cases h
  | ok c₀ =>
    rw [hinit] at h
    exact hrun manual false c₀ (fun _ => substitutedIndices_of_init hinit) h

/-! ## Samples -/

/-- How many positions are probed for a generated point. -/
def sampleCount (c : BedMeshCalibrate K) (k : ℕ) : ℕ :=
  (c.substitutedIndices.lookup k).elim 1 List.length

/-- The place of the first of them. -/
def firstSample (c : BedMeshCalibrate K) (k : ℕ) : ℕ :=
  ((List.range k).map c.sampleCount).sum

/-- What is at the places of a generated point, in a list that has one place for each position. -/
def samples {α : Type} (c : BedMeshCalibrate K) (k : ℕ) (l : List α) : List α :=
  (l.drop (c.firstSample k)).take (c.sampleCount k)

/-- The probed height of a generated point, the average of its samples. -/
def measured (c : BedMeshCalibrate K) (results : List (K × K × K)) (k : ℕ) : K :=
  ((c.samples k results).map (·.2.2)).sum / c.sampleCount k

/-- The reference that is probed last. -/
def reference (c : BedMeshCalibrate K) : List (K × K) :=
  match c.zeroReferenceMode, c.zeroRefPos with
  | .probe, some p => [p]
  | _, _ => []

/-- A result is at a point less the offset, up to rounding. -/
def IsAt (offsets : K × K × K) (tol : K) (r : K × K × K) (p : K × K) : Prop :=
  |r.1 - (p.1 - offsets.1)| ≤ tol ∧ |r.2.1 - (p.2 - offsets.2.1)| ≤ tol

theorem getAdjustedPoints_eq (h : Generated c os) :
    c.getAdjustedPoints = (blocks c.points os).flatten ++ c.reference := by
  have hexpand := expand_eq c.points os h.length
  dsimp only at hexpand
  rw [← h.substituted] at hexpand
  have hadj : (if c.substitutedIndices.isEmpty then c.points
      else (c.substitutedIndices.foldl (expandStep c.points) ([], 0)).1 ++
        c.points.drop (c.substitutedIndices.foldl (expandStep c.points) ([], 0)).2) =
      (blocks c.points os).flatten := by
    rw [← hexpand]
    split_ifs with hempty
    · rw [List.isEmpty_iff.1 hempty]
      simp
    · rfl
  unfold getAdjustedPoints reference
  dsimp only
  rw [hadj]
  cases c.zeroReferenceMode <;> cases c.zeroRefPos <;> simp

theorem sampleCount_eq (h : Generated c os) (k : ℕ) :
    c.sampleCount k = os[k]?.join.elim 1 List.length := by
  have hlookup := lookup_entries (n := 0) (k := k) os
  rw [Nat.zero_add, ← h.substituted] at hlookup
  rw [sampleCount, hlookup]

/-- The places of a generated point are those of a block. -/
theorem samples_flatten {α : Type} (h : Generated c os) {rs : List (List α)} (post : List α)
    (hrs : List.Forall₂ (fun o r => r.length = o.elim 1 List.length) os rs) {k : ℕ}
    (hk : k < rs.length) : c.samples k (rs.flatten ++ post) = rs[k] ∧
      c.sampleCount k = rs[k].length := by
  have hcount (i : ℕ) (hi : i < rs.length) : c.sampleCount i = rs[i].length := by
    have hos : i < os.length := hrs.length_eq ▸ hi
    rw [sampleCount_eq h, List.getElem?_eq_getElem hos, Option.join_some]
    exact (hrs.get hos hi).symm
  have hfirst : c.firstSample k = ((rs.take k).map List.length).sum := by
    unfold firstSample
    congr 1
    refine List.ext_getElem (by simp [hk.le]) fun i hi hi' => ?_
    have hik : i < k := by simpa using hi
    simp [hcount i (hik.trans hk)]
  refine ⟨?_, hcount k hk⟩
  rw [samples, hfirst, hcount k hk]
  exact take_drop_flatten rs post k hk

theorem length_blocks (h : Generated c os) :
    List.Forall₂ (fun o r => r.length = o.elim 1 List.length) os (blocks c.points os) := by
  rw [List.forall₂_iff_get]
  refine ⟨by simp [blocks, h.length], fun k hk hk' => ?_⟩
  simp only [blocks, List.get_eq_getElem, List.getElem_zipWith]
  cases os[k] <;> rfl

/-- The places of a generated point hold the point, or what replaces it. -/
theorem samples_adjusted (h : Generated c os) {k : ℕ} (hk : k < c.points.length) :
    c.samples k c.getAdjustedPoints = (c.substitutedIndices.lookup k).getD [c.points[k]] := by
  have hk' : k < (blocks c.points os).length := by simpa [blocks, h.length] using hk
  have hos : k < os.length := by rwa [h.length]
  have hlookup := lookup_entries (n := 0) (k := k) os
  rw [Nat.zero_add, ← h.substituted] at hlookup
  rw [getAdjustedPoints_eq h, (samples_flatten h _ (length_blocks h) hk').1, hlookup,
    List.getElem?_eq_getElem hos, Option.join_some]
  simp [blocks]

/-! ## Corrected positions -/

theorem abs_roundHundredth_sub (x : K) : |roundHundredth x - x| ≤ 1 / 200 := by
  have hround : |(roundHalfEven (x * 100) : K) - x * 100| ≤ 1 / 2 := by
    have hfract := Int.self_sub_floor (x * 100)
    have hnonneg := Int.fract_nonneg (x * 100)
    have hlt := Int.fract_lt_one (x * 100)
    unfold roundHalfEven
    rw [abs_le]
    split_ifs with hlow hhigh heven <;> push_cast <;> constructor <;> linarith
  have hscale : roundHundredth x - x = (roundHalfEven (x * 100) - x * 100) / 100 := by
    unfold roundHundredth
    ring
  rw [hscale, abs_div, abs_of_pos (by norm_num : (0 : K) < 100), div_le_iff₀ (by norm_num)]
  linarith

theorem IsAt.roundXY {offsets r : K × K × K} {p : K × K} (h : IsAt offsets (1 / 100) r p) :
    IsAt offsets (3 / 200) (roundXY r) p := by
  have hx := abs_roundHundredth_sub r.1
  have hy := abs_roundHundredth_sub r.2.1
  obtain ⟨h1, h2⟩ := h
  unfold IsAt BedMeshCalibrate.roundXY
  rw [abs_le] at hx hy h1 h2
  constructor <;> rw [abs_le] <;> constructor <;> dsimp only <;> linarith

theorem IsAt.isMatch {offsets q : K × K × K} {p : K × K} (h : IsAt offsets (3 / 200) q p) :
    isMatch offsets (p, q) = true := by
  have hclose (u v : K) (huv : |v - u| ≤ 3 / 200) :
      isClose u v (1 / 1000000000) (1 / 10) = true := by
    refine decide_eq_true ((le_max_right _ _).trans' ?_)
    rw [abs_sub_comm]
    exact huv.trans (by norm_num)
  exact Bool.and_eq_true_iff.2 ⟨hclose _ _ h.1, hclose _ _ h.2⟩

/-- There is one position for each generated point, with its probed height. -/
structure Corrected (c : BedMeshCalibrate K) (offsets : K × K × K) (height : ℕ → K)
    (positions : List (K × K × K)) : Prop where
  length : positions.length = c.points.length
  isAt : ∀ k p q, c.points[k]? = some p → positions[k]? = some q →
    IsAt offsets (3 / 200) q p ∧ q.2.2 = height k

theorem Corrected.all_isMatch {offsets : K × K × K} {height : ℕ → K}
    {positions : List (K × K × K)} (h : Corrected c offsets height positions) :
    (c.points.zip positions).all (isMatch offsets) = true := by
  rw [List.all_eq_true]
  rintro ⟨p, q⟩ hmem
  obtain ⟨k, hk⟩ := List.mem_iff_getElem?.1 hmem
  obtain ⟨hp, hq⟩ := List.getElem?_zip_eq_some.1 hk
  exact (h.isAt k p q hp hq).1.isMatch

/-- The height that is taken off : of the reference, if it was probed. -/
def zOffset (c : BedMeshCalibrate K) (offsets : K × K × K) (results : List (K × K × K)) : K :=
  if c.zeroReferenceMode = .probe then results.getLast?.elim 0 (·.2.2) else offsets.2.2

/-- The results are at the adjusted points less the offset, up to rounding to hundredths. -/
def Probes (c : BedMeshCalibrate K) (offsets : K × K × K) (results : List (K × K × K)) : Prop :=
  List.Forall₂ (IsAt offsets (1 / 100)) results c.getAdjustedPoints

theorem sum_roundXY (l : List (K × K × K)) :
    ((l.map roundXY).map (·.2.2)).sum = (l.map (·.2.2)).sum := by
  rw [List.map_map]
  rfl

theorem length_samples (h : Generated c os) {R : K × K × K → K × K → Prop}
    {rs : List (List (K × K × K))}
    (hrs : List.Forall₂ (List.Forall₂ R) rs (blocks c.points os)) :
    List.Forall₂ (fun o r => r.length = o.elim 1 List.length) os rs :=
  List.forall₂_iff_get.2 ⟨(length_blocks h).length_eq.trans hrs.length_eq.symm, fun _ hk hk' =>
    (hrs.get hk' (hrs.length_eq ▸ hk')).length_eq.trans
      ((length_blocks h).get hk (hrs.length_eq ▸ hk'))⟩

theorem corrected_collapse (h : Generated c os) {offsets : K × K × K} {rs : List (List (K × K × K))}
    (hrs : List.Forall₂ (List.Forall₂ (IsAt offsets (1 / 100))) rs (blocks c.points os))
    (post : List (K × K × K)) :
    Corrected c offsets (c.measured (rs.flatten ++ post))
      (collapse (c.correctedPoint offsets) 0 os (rs.map fun r => r.map roundXY)) := by
  have hlen := length_samples h hrs
  have hlen' : List.Forall₂ (fun o r => r.length = o.elim 1 List.length) os
      (rs.map fun r => r.map roundXY) := by
    rw [List.forall₂_map_right_iff]
    simpa using hlen
  refine ⟨(length_collapse _ hlen' 0).trans h.length, fun k p q hp hq => ?_⟩
  obtain ⟨hk, rfl⟩ := List.getElem?_eq_some_iff.1 hp
  have hos : k < os.length := by rwa [h.length]
  have hrk : k < rs.length := hlen.length_eq ▸ hos
  have hblock : k < (blocks c.points os).length := hrs.length_eq ▸ hrk
  obtain ⟨hsamples, hcount⟩ := samples_flatten h post hlen hrk
  have hmeasured : c.measured (rs.flatten ++ post) k =
      (rs[k].map (·.2.2)).sum / rs[k].length := by
    rw [measured, hsamples, hcount]
  have hat : List.Forall₂ (IsAt offsets (1 / 100)) rs[k] (os[k].getD [c.points[k]]) := by
    have := hrs.get hrk hblock
    simpa [blocks] using this
  rw [hmeasured]
  rw [getElem?_collapse _ hlen', List.getElem?_eq_getElem hos, Option.bind_some, List.getElem?_map,
    List.getElem?_eq_getElem hrk, Option.map_some, Option.bind_some] at hq
  have hrlen : rs[k].length = os[k].elim 1 List.length := hlen.get hos hrk
  cases ho : os[k] with
  | none =>
    rw [ho] at hq hat hrlen
    obtain ⟨r, hr⟩ := List.length_eq_one_iff.1 hrlen
    rw [hr] at hq hat ⊢
    obtain rfl : roundXY r = q := by simpa using hq
    exact ⟨(List.forall₂_cons.1 hat).1.roundXY, by simp [roundXY]⟩
  | some b =>
    rw [ho] at hq hrlen
    obtain rfl := Option.some_inj.1 hq
    have hpoint : c.points.getD (0 + k) (0, 0) = c.points[k] := by simp [hk]
    refine ⟨?_, ?_⟩
    · simp only [IsAt, correctedPoint, hpoint, sub_self, abs_zero]
      norm_num
    · simp only [correctedPoint, avgZ, sum_roundXY]
      rw [hrlen]
      rfl

/-- What was substituted is folded back without an error. -/
theorem correctPositions_eq (h : Generated c os) {offsets : K × K × K} {height : ℕ → K}
    (rs : List (List (K × K × K)))
    (hrs : List.Forall₂ (fun o r => r.length = o.elim 1 List.length) os rs)
    (hc : Corrected c offsets height (collapse (c.correctedPoint offsets) 0 os rs)) :
    c.correctPositions offsets rs.flatten =
      .ok (collapse (c.correctedPoint offsets) 0 os rs) := by
  have hcollapse := collapse_eq (c.correctedPoint offsets) os rs hrs fun b hb => (h.valid b hb).1
  dsimp only at hcollapse
  rw [← h.substituted] at hcollapse
  unfold correctPositions
  split_ifs with hempty
  · rw [← hcollapse, List.isEmpty_iff.1 hempty]
    rfl
  · have hcorrected : c.correctedPoints offsets rs.flatten =
        collapse (c.correctedPoint offsets) 0 os rs := hcollapse
    dsimp only
    rw [hcorrected, if_neg (not_not.2 hc.length.symm), if_pos hc.all_isMatch]

/-- The reference is taken off the positions, and the rest is one position for each point. -/
theorem exists_corrected (h : Generated c os) (hne : c.points ≠ []) {offsets : K × K × K}
    {results : List (K × K × K)} (hp : c.Probes offsets results) :
    ∃ first rest corrected, Corrected c offsets (c.measured results) corrected ∧
      c.probeFinalize offsets results =
        (c.probedMatrix (c.zOffset offsets results) corrected).map fun matrix =>
          (c.meshParams offsets first rest, matrix) := by
  unfold Probes at hp
  rw [getAdjustedPoints_eq h] at hp
  obtain ⟨rs, post, rfl, hrs, hpost⟩ := exists_blocks _ _ _ hp
  have hcorrected := corrected_collapse h hrs post
  have hlen := length_samples h hrs
  have heq := correctPositions_eq h (rs.map fun r => r.map roundXY)
    (by rw [List.forall₂_map_right_iff]; simpa using hlen) hcorrected
  obtain ⟨first, rest, hfirst⟩ : ∃ first rest,
      (rs.map fun r => r.map roundXY).flatten = first :: rest := by
    refine List.exists_cons_of_ne_nil fun hnil => ?_
    have hos : 0 < os.length := h.length ▸ List.length_pos_iff.2 hne
    have hpos : 0 < rs.length := hlen.length_eq ▸ hos
    have hr : rs[0].map roundXY = [] :=
      List.flatten_eq_nil_iff.1 hnil _ (List.mem_map_of_mem (List.getElem_mem hpos))
    have hcount : rs[0].length = os[0].elim 1 List.length := hlen.get hos hpos
    rw [List.map_eq_nil_iff.1 hr] at hcount
    cases ho : os[0] with
    | none => simp [ho] at hcount
    | some b =>
      have hb := (h.valid b (ho ▸ List.getElem_mem hos)).1
      exact hb (List.length_eq_zero_iff.1 (by simpa [ho] using hcount.symm))
  refine ⟨first, rest, _, hcorrected, ?_⟩
  rw [hfirst] at heq
  have hpositions : rs.flatten.map roundXY = first :: rest := by rw [List.map_flatten, hfirst]
  unfold probeFinalize zOffset
  by_cases hprobe : c.zeroReferenceMode = .probe
  · obtain ⟨p, hzero⟩ := Option.isSome_iff_exists.1 (h.reference hprobe)
    have hreference : c.reference = [p] := by simp [reference, hprobe, hzero]
    rw [hreference] at hpost
    obtain ⟨r, hr⟩ := List.length_eq_one_iff.1 hpost.length_eq
    subst hr
    simp only [hprobe, if_true, List.map_append, hpositions, List.map_cons, List.map_nil,
      List.getLast?_concat, List.dropLast_concat, heq, Option.elim_some]
    rfl
  · have hreference : c.reference = [] := by
      unfold reference
      split
      · exact absurd ‹_› hprobe
      · rfl
    rw [hreference] at hpost
    obtain rfl := List.length_eq_zero_iff.1 hpost.length_eq
    simp only [hprobe, if_false, List.append_nil, hpositions, heq]
    rfl

/-! ## Rows -/

/-- The rows are further apart than what `isclose` takes for equal. -/
def IsApart (c : BedMeshCalibrate K) (offsets : K × K × K) : Prop :=
  ∀ p ∈ c.points, |p.2 - offsets.2.1| ≤ 10 ^ 9 * (c.area.yDist - 1 / 20)

section

variable {offsets q q' : K × K × K} {p p' : K × K}

theorem yChanged_eq_false (hq : IsAt offsets (3 / 200) q p) (hq' : IsAt offsets (3 / 200) q' p')
    (hp : p.2 = p'.2) : yChanged q' q = false := by
  obtain ⟨h1, h2⟩ := abs_le.1 hq.2
  obtain ⟨h1', h2'⟩ := abs_le.1 hq'.2
  have hclose : |q'.2.1 - q.2.1| ≤ 1 / 10 := abs_le.2 ⟨by linarith, by linarith⟩
  unfold yChanged isClose
  rw [Bool.not_eq_false', decide_eq_true_eq]
  exact hclose.trans (le_max_right _ _)

theorem yChanged_eq_true {d : K} (hd : 1 ≤ d) (hq : IsAt offsets (3 / 200) q p)
    (hq' : IsAt offsets (3 / 200) q' p') (hp : p'.2 = p.2 + d)
    (hapart : |p.2 - offsets.2.1| ≤ 10 ^ 9 * (d - 1 / 20))
    (hapart' : |p'.2 - offsets.2.1| ≤ 10 ^ 9 * (d - 1 / 20)) : yChanged q' q = true := by
  obtain ⟨h1, h2⟩ := abs_le.1 hq.2
  obtain ⟨h1', h2'⟩ := abs_le.1 hq'.2
  obtain ⟨h3, h4⟩ := abs_le.1 hapart
  obtain ⟨h3', h4'⟩ := abs_le.1 hapart'
  have hdiff : d - 3 / 100 ≤ q'.2.1 - q.2.1 := by linarith
  have hbound (y : K) (hlow : -(10 ^ 9 * (d - 1 / 20)) - 3 / 200 ≤ y)
      (hhigh : y ≤ 10 ^ 9 * (d - 1 / 20) + 3 / 200) :
      |y| ≤ 10 ^ 9 * (d - 1 / 20) + 3 / 200 := abs_le.2 ⟨by linarith, hhigh⟩
  have hy := hbound q.2.1 (by linarith) (by linarith)
  have hy' := hbound q'.2.1 (by linarith) (by linarith)
  unfold yChanged isClose
  rw [Bool.not_eq_true', decide_eq_false_iff_not, not_le, max_lt_iff]
  have hpos : d - 3 / 100 ≤ |q'.2.1 - q.2.1| := hdiff.trans (le_abs_self _)
  refine ⟨?_, by linarith⟩
  have hmax := max_le hy' hy
  linarith

theorem isForward_eq (hq : IsAt offsets (3 / 200) q p) (hq' : IsAt offsets (3 / 200) q' p')
    {forward : Bool} (hp : if forward then p.1 + 1 ≤ p'.1 else p'.1 + 1 ≤ p.1) :
    isForward q' q = forward := by
  obtain ⟨h1, h2⟩ := abs_le.1 hq.1
  obtain ⟨h1', h2'⟩ := abs_le.1 hq'.1
  unfold isForward
  cases forward with
  | true => exact decide_eq_true (by simp only [if_true] at hp; linarith)
  | false =>
    refine decide_eq_false (not_lt.2 ?_)
    simp only [Bool.false_eq_true, if_false] at hp
    linarith

end

end BedMeshCalibrate

namespace MeshArea

variable {a : MeshArea K}

/-- The columns of a row come in its direction. -/
theorem pairwise_insideColumns (a : MeshArea K) (j : ℕ) :
    (a.insideColumns j).Pairwise fun i i' => if decide (j % 2 = 0) then i < i' else i' < i := by
  unfold insideColumns columns ZigZag.orient
  refine List.Pairwise.filter _ ?_
  by_cases hj : j % 2 = 0
  · simpa [hj] using List.pairwise_lt_range
  · simpa [hj, List.pairwise_reverse] using List.pairwise_lt_range

theorem pairwise_points (h : 1 ≤ a.xDist) (j : ℕ) :
    ((a.insideColumns j).map (a.gridPoint j)).Pairwise fun p p' =>
      if decide (j % 2 = 0) then p.1 + 1 ≤ p'.1 else p'.1 + 1 ≤ p.1 := by
  have hstep {i i' : ℕ} (hi : i < i') : (a.gridPoint j i).1 + 1 ≤ (a.gridPoint j i').1 := by
    have hcast : (i : K) + 1 ≤ i' := by exact_mod_cast hi
    have hmul : ((i : K) + 1) * a.xDist ≤ i' * a.xDist :=
      mul_le_mul_of_nonneg_right hcast (zero_le_one.trans h)
    unfold gridPoint
    dsimp only
    linarith
  rw [List.pairwise_map]
  refine (a.pairwise_insideColumns j).imp fun {i i'} hi => ?_
  split_ifs at hi ⊢
  · exact hstep hi
  · exact hstep hi

theorem orient_insideColumns (a : MeshArea K) (j : ℕ) :
    ZigZag.orient (decide (j % 2 = 0)) (a.insideColumns j) =
      (List.range a.xCount).filter (a.isInside j) := by
  unfold insideColumns columns ZigZag.orient
  by_cases hj : j % 2 = 0 <;> simp [hj, List.filter_reverse]

theorem filter_range {f : ℕ → Bool} {n lo : ℕ} (hlo : 2 * lo < n)
    (h : ∀ i < n, f i = true ↔ lo ≤ i ∧ i < n - lo) :
    (List.range n).filter f = List.range' lo (n - 2 * lo) := by
  obtain ⟨m, rfl⟩ : ∃ m, n = lo + (m + lo) := ⟨n - 2 * lo, by omega⟩
  have hm : lo + (m + lo) - 2 * lo = m := by omega
  have hsplit : List.range (lo + (m + lo)) =
      List.range' 0 lo ++ (List.range' lo m ++ List.range' (lo + m) lo) := by
    rw [List.range'_append_1, List.range_eq_range', ← List.range'_append_1, Nat.zero_add]
  have hout (l : List ℕ) (hl : ∀ i ∈ l, f i = false) : l.filter f = [] :=
    List.filter_eq_nil_iff.2 fun i hi => by simp [hl i hi]
  rw [hm, hsplit, List.filter_append, List.filter_append, hout (List.range' 0 lo),
    hout (List.range' (lo + m) lo), List.nil_append, List.append_nil, List.filter_eq_self]
  · intro i hi
    obtain ⟨h1, h2⟩ := List.mem_range'_1.1 hi
    exact (h i (by omega)).2 ⟨h1, by omega⟩
  · intro i hi
    obtain ⟨h1, h2⟩ := List.mem_range'_1.1 hi
    rw [← Bool.not_eq_true, h i (by omega)]
    omega
  · intro i hi
    obtain ⟨h1, h2⟩ := List.mem_range'_1.1 hi
    rw [← Bool.not_eq_true, h i (by omega)]
    omega

/-- The points of a row in increasing X. -/
theorem exists_row (a : MeshArea K) (hd : 0 < a.xDist) {j : ℕ} (hj : j < a.yCount) :
    ∃ lo, 2 * lo < a.xCount ∧ (a.radius = none → lo = 0) ∧
      (a.radius.isSome = true → (a.xCount - (a.xCount - 2 * lo)) / 2 = lo ∧
        (a.xCount - 2 * lo) % 2 = 1) ∧
      (∀ i < a.xCount, a.isInside j i = true ↔ lo ≤ i ∧ i < a.xCount - lo) ∧
      ZigZag.orient (decide (j % 2 = 0)) ((a.insideColumns j).map (a.gridPoint j)) =
        (List.range' lo (a.xCount - 2 * lo)).map (a.gridPoint j) := by
  obtain ⟨lo, hlo, hnone, hsome, hiff⟩ := a.exists_margin hd hj
  refine ⟨lo, hlo, hnone, hsome, hiff, ?_⟩
  rw [← ZigZag.map_orient, orient_insideColumns, filter_range hlo hiff]

end MeshArea

namespace BedMeshCalibrate

open ZigZag

variable {c : BedMeshCalibrate K} {offsets : K × K × K} {height : ℕ → K}
  {positions : List (K × K × K)}

/-- A generated point and the position for it. -/
def Paired (c : BedMeshCalibrate K) (offsets : K × K × K) (height : ℕ → K)
    (e : (K × K) × K × K × K) : Prop :=
  IsAt offsets (3 / 200) e.2 e.1 ∧ ∃ k, c.points[k]? = some e.1 ∧ e.2.2.2 = height k

/-- The positions in rows, each with its point. -/
theorem exists_places (hpoints : c.points = c.area.points)
    (h : Corrected c offsets height positions) :
    ∃ place : ℕ → List ((K × K) × K × K × K),
      positions = (List.range c.area.yCount).flatMap (fun j => (place j).map Prod.snd) ∧
      ∀ j < c.area.yCount, (place j).map Prod.fst =
          (c.area.insideColumns j).map (c.area.gridPoint j) ∧
        ∀ e ∈ place j, Paired c offsets height e := by
  have hfst : (c.points.zip positions).map Prod.fst = c.points :=
    List.map_fst_zip h.length.ge
  have hsnd : (c.points.zip positions).map Prod.snd = positions :=
    List.map_snd_zip h.length.le
  obtain ⟨place, hplace, hrow⟩ := exists_rows _ _ _ (hfst.trans (hpoints.trans c.area.points_eq))
  refine ⟨place, ?_, fun j hj => ⟨hrow j hj, fun e he => ?_⟩⟩
  · rw [← List.map_flatMap, ← hplace, hsnd]
  · have hmem : e ∈ c.points.zip positions := by
      rw [hplace]
      exact List.mem_flatMap.2 ⟨j, List.mem_range.2 hj, he⟩
    obtain ⟨k, hk⟩ := List.mem_iff_getElem?.1 hmem
    obtain ⟨hp, hq⟩ := List.getElem?_zip_eq_some.1 hk
    obtain ⟨hat, hz⟩ := h.isAt k _ _ hp hq
    exact ⟨hat, k, hp, hz⟩

/-- Places in rows that are paired with the points of an area. -/
structure Places (c : BedMeshCalibrate K) (offsets : K × K × K) (height : ℕ → K)
    (place : ℕ → List ((K × K) × K × K × K)) : Prop where
  fst : ∀ j < c.area.yCount,
    (place j).map Prod.fst = (c.area.insideColumns j).map (c.area.gridPoint j)
  paired : ∀ j < c.area.yCount, ∀ e ∈ place j, Paired c offsets height e

section

variable {place : ℕ → List ((K × K) × K × K × K)}

theorem Places.snd_eq (h : Places c offsets height place) {j : ℕ} (hj : j < c.area.yCount)
    {e : (K × K) × K × K × K} (he : e ∈ place j) : e.1.2 = (c.area.gridPoint j 0).2 := by
  have hmem : e.1 ∈ (place j).map Prod.fst := List.mem_map_of_mem he
  rw [h.fst j hj] at hmem
  obtain ⟨i, -, hi⟩ := List.mem_map.1 hmem
  rw [← hi]
  rfl

theorem Places.ne_nil (h : Places c offsets height place) (hd : 0 < c.area.xDist) {j : ℕ}
    (hj : j < c.area.yCount) : place j ≠ [] := by
  intro hnil
  obtain ⟨lo, hlo, -, -, -, hrow⟩ := c.area.exists_row hd hj
  have hlen := congrArg List.length hrow
  rw [← h.fst j hj, hnil] at hlen
  have hzero : (orient (decide (j % 2 = 0)) ([] : List (K × K))).length = 0 := by
    unfold orient
    split_ifs <;> rfl
  rw [List.map_nil, hzero, List.length_map, List.length_range'] at hlen
  omega

/-- The rows are found again. -/
theorem Places.zigs (h : Places c offsets height place) (hx : 1 ≤ c.area.xDist)
    (hy : 1 ≤ c.area.yDist) (hapart : c.IsApart offsets) :
    Zigs yChanged isForward (fun j => decide (j % 2 = 0)) c.area.yCount
      fun j => (place j).map Prod.snd where
  ne_nil j hj hnil := h.ne_nil (zero_lt_one.trans_le hx) hj (List.map_eq_nil_iff.1 hnil)
  along j hj := by
    have hpair := c.area.pairwise_points hx j
    rw [← h.fst j hj, List.pairwise_map] at hpair
    rw [List.isChain_map]
    refine (hpair.imp_of_mem fun {e e'} he he' hlt => ?_).isChain
    have hat := (h.paired j hj e he).1
    have hat' := (h.paired j hj e' he').1
    exact ⟨yChanged_eq_false hat hat' ((h.snd_eq hj he).trans (h.snd_eq hj he').symm),
      isForward_eq hat hat' hlt⟩
  turn j hj p hp q hq := by
    obtain ⟨e, he, rfl⟩ := List.mem_map.1 hp
    obtain ⟨e', he', rfl⟩ := List.mem_map.1 hq
    obtain ⟨hat, k, hk, -⟩ := h.paired j (by omega) e he
    obtain ⟨hat', k', hk', -⟩ := h.paired (j + 1) hj e' he'
    refine yChanged_eq_true hy hat hat' ?_ (hapart _ (List.mem_of_getElem? hk))
      (hapart _ (List.mem_of_getElem? hk'))
    rw [h.snd_eq (by omega) he, h.snd_eq hj he']
    unfold MeshArea.gridPoint
    push_cast
    ring
  first p hp := by
    obtain ⟨e, he, rfl⟩ := List.mem_map.1 hp
    have hat := (h.paired 0 (by have := c.area.two_le_yCount; omega) e he).1
    exact yChanged_eq_false hat hat rfl

/-- The table, with each row in increasing X and filled up. -/
theorem Places.probedMatrix_eq (h : Places c offsets height place) (hx : 1 ≤ c.area.xDist)
    (hy : 1 ≤ c.area.yDist) (hapart : c.IsApart offsets) {lo : ℕ → ℕ}
    (hlo : ∀ j < c.area.yCount, 2 * lo j < c.area.xCount ∧ (c.area.radius = none → lo j = 0) ∧
      (c.area.radius.isSome = true →
        (c.area.xCount - (c.area.xCount - 2 * lo j)) / 2 = lo j ∧
          (c.area.xCount - 2 * lo j) % 2 = 1) ∧ (place j).length = c.area.xCount - 2 * lo j)
    (zOffset : K) :
    c.probedMatrix zOffset
        ((List.range c.area.yCount).flatMap fun j => (place j).map Prod.snd) =
      .ok ((List.range c.area.yCount).map fun j => pad (lo j)
        (orient (decide (j % 2 = 0)) ((place j).map fun e => e.2.2.2 - zOffset))) := by
  have hrows := rows_eq (v := fun pos : K × K × K => pos.2.2 - zOffset) (h.zigs hx hy hapart)
    (by have := c.area.two_le_yCount; omega)
  simp only [List.map_map] at hrows
  set row : ℕ → List K := fun j =>
    orient (decide (j % 2 = 0)) ((place j).map fun e => e.2.2.2 - zOffset) with hrow
  have hrows' : ZigZag.rows yChanged isForward (fun pos => pos.2.2 - zOffset)
      ((List.range c.area.yCount).flatMap fun j => (place j).map Prod.snd) =
        (List.range c.area.yCount).map row := hrows
  have hlen (j : ℕ) (hj : j < c.area.yCount) : (row j).length = c.area.xCount - 2 * lo j := by
    rw [hrow, length_orient, List.length_map, (hlo j hj).2.2.2]
  have hodd : (c.area.radius.isSome && ((List.range c.area.yCount).map row).any
      fun row => decide (row.length % 2 = 0)) = false := by
    rw [Bool.and_eq_false_imp]
    intro hsome
    rw [List.any_eq_false]
    rintro _ hmem
    obtain ⟨j, hj, rfl⟩ := List.mem_map.1 hmem
    have hj := List.mem_range.1 hj
    simp [hlen j hj, ((hlo j hj).2.2.1 hsome).2]
  have hpad : (if c.area.radius.isSome then
      ((List.range c.area.yCount).map row).map fun row => pad ((c.area.xCount - row.length) / 2) row
      else (List.range c.area.yCount).map row) =
        (List.range c.area.yCount).map fun j => pad (lo j) (row j) := by
    split_ifs with hsome
    · rw [List.map_map]
      refine List.map_congr_left fun j hj => ?_
      have hj := List.mem_range.1 hj
      rw [Function.comp_apply, hlen j hj, ((hlo j hj).2.2.1 hsome).1]
    · refine List.map_congr_left fun j hj => ?_
      rw [(hlo j (List.mem_range.1 hj)).2.1 (by simpa using hsome), pad_zero]
  have hsize : (((List.range c.area.yCount).map fun j => pad (lo j) (row j)).any
      fun row => decide (row.length ≠ c.area.xCount)) = false := by
    rw [List.any_eq_false]
    rintro _ hmem
    obtain ⟨j, hj, rfl⟩ := List.mem_map.1 hmem
    have hj := List.mem_range.1 hj
    have hne : row j ≠ [] := fun hnil => by
      have := hlen j hj
      rw [hnil, List.length_nil] at this
      have := (hlo j hj).1
      omega
    have := (hlo j hj).1
    simp only [length_pad hne, hlen j hj, ne_eq, decide_not, Bool.not_eq_true',
      decide_eq_false_iff_not, not_not]
    omega
  unfold probedMatrix
  dsimp only
  rw [hrows', List.length_map, List.length_range, if_neg (not_not.2 rfl), hodd, hpad, hsize]
  rfl

end

end BedMeshCalibrate

namespace MeshArea

variable {a : MeshArea K}

theorem points_ne_nil (hx : 0 < a.xDist) : a.points ≠ [] := by
  intro hnil
  have hcount := Nat.zero_lt_of_lt a.two_le_yCount
  rw [a.points_eq, List.flatMap_eq_nil_iff] at hnil
  obtain ⟨lo, hlo, -, -, -, hrow⟩ := a.exists_row hx hcount
  have hlen := congrArg List.length hrow
  rw [hnil 0 (List.mem_range.2 hcount), ZigZag.length_orient, List.length_map,
    List.length_range'] at hlen
  simp only [List.length_nil] at hlen
  omega

theorem gridPoint_inj (hx : 0 < a.xDist) (hy : 0 < a.yDist) {j i j' i' : ℕ}
    (h : a.gridPoint j i = a.gridPoint j' i') : j = j' ∧ i = i' := by
  unfold gridPoint at h
  simp only [Prod.mk.injEq, add_right_inj, mul_eq_mul_right_iff, Nat.cast_inj, hx.ne', hy.ne',
    or_false] at h
  exact ⟨h.2, h.1⟩

theorem mem_points (hx : 0 < a.xDist) (hy : 0 < a.yDist) {j i : ℕ}
    (h : a.gridPoint j i ∈ a.points) : a.isInside j i = true := by
  rw [a.points_eq] at h
  obtain ⟨j', -, hmem⟩ := List.mem_flatMap.1 h
  obtain ⟨i', hi', heq⟩ := List.mem_map.1 hmem
  obtain ⟨rfl, rfl⟩ := gridPoint_inj hx hy heq
  exact (List.mem_filter.1 hi').2

theorem nodup_points (hx : 0 < a.xDist) (hy : 0 < a.yDist) : a.points.Nodup := by
  rw [a.points_eq, List.nodup_flatMap]
  refine ⟨fun j _ => ?_, ?_⟩
  · refine List.Nodup.map (fun i i' h => (gridPoint_inj hx hy h).2) ?_
    refine (a.pairwise_insideColumns j).imp fun {i i'} hi => ?_
    split_ifs at hi
    · exact hi.ne
    · exact hi.ne'
  · refine List.pairwise_lt_range.imp fun {j j'} hj p hp hp' => ?_
    obtain ⟨i, -, rfl⟩ := List.mem_map.1 hp
    obtain ⟨i', -, heq⟩ := List.mem_map.1 hp'
    exact hj.ne (gridPoint_inj hx hy heq).1.symm

/-- What is taken to be within the mesh boundary : up to a tolerance in the rectangle, or within the
radius of the point (0, 0). -/
theorem bounds_of_isValid {p : K × K} (h : a.isValid p = true) :
    (a.radius = none →
      (a.meshMin.1 - 1 / 10 ^ 6 ≤ p.1 ∧ p.1 ≤ a.meshMax.1 + 1 / 10 ^ 6) ∧
        a.meshMin.2 - 1 / 10 ^ 6 ≤ p.2 ∧ p.2 ≤ a.meshMax.2 + 1 / 10 ^ 6) ∧
      ∀ r, a.radius = some r → p.1 * p.1 + p.2 * p.2 ≤ r * r := by
  refine ⟨fun hnone => ?_, fun r hr => ?_⟩
  · unfold isValid BedMeshCalibrate.within at h
    simp only [hnone, minCorner, maxCorner, Option.isSome_none, Bool.false_eq_true, if_false,
      decide_eq_true_eq] at h
    obtain ⟨⟨h1, h2⟩, h3, h4⟩ := h
    have hcount : (0 : K) < a.xCount - 1 := by
      have : (2 : K) ≤ a.xCount := by exact_mod_cast a.two_le_xCount
      linarith
    have hdist : a.xDist * (a.xCount - 1) ≤ a.meshMax.1 - a.meshMin.1 :=
      (le_div_iff₀ hcount).1 (floorDist_le _ _ _)
    refine ⟨⟨?_, ?_⟩, ?_, ?_⟩ <;> norm_num at * <;> linarith
  · unfold isValid at h
    simpa only [hr, decide_eq_true_eq] using h

end MeshArea

namespace BedMeshCalibrate

open Splice ZigZag

variable {c : BedMeshCalibrate K} {os : List (Option (List (K × K)))}

/-- The table has the heights of the points, and beside a round bed that of the nearest point of the
row. -/
theorem exists_matrix (h : Generated c os) {offsets : K × K × K} {results : List (K × K × K)}
    (hp : c.Probes offsets results) (hapart : c.IsApart offsets) :
    ∃ params matrix, c.probeFinalize offsets results = .ok (params, matrix) ∧
      matrix.Sized c.area.yCount c.area.xCount ∧
      ∀ j < c.area.yCount, ∀ i < c.area.xCount, ∃ i' < c.area.xCount, ∃ k,
        c.points[k]? = some (c.area.gridPoint j i') ∧
        (∀ i'' < c.area.xCount, c.area.gridPoint j i'' ∈ c.points →
          |(i' : ℤ) - i| ≤ |(i'' : ℤ) - i|) ∧
        matrix.entry j i = some (c.measured results k - c.zOffset offsets results) := by
  have hx := zero_lt_one.trans_le h.one_le_xDist
  have hy := zero_lt_one.trans_le h.one_le_yDist
  have hne : c.points ≠ [] := h.points ▸ MeshArea.points_ne_nil hx
  obtain ⟨first, rest, corrected, hcorrected, hfinal⟩ := exists_corrected h hne hp
  obtain ⟨place, hplace, hrows⟩ := exists_places h.points hcorrected
  have hplaces : Places c offsets (c.measured results) place :=
    ⟨fun j hj => (hrows j hj).1, fun j hj => (hrows j hj).2⟩
  choose! lo hlo hnone hsome hinside hrow using fun j (hj : j < c.area.yCount) =>
    c.area.exists_row hx hj
  have hfst (j : ℕ) (hj : j < c.area.yCount) :
      (orient (decide (j % 2 = 0)) (place j)).map Prod.fst =
        (List.range' (lo j) (c.area.xCount - 2 * lo j)).map (c.area.gridPoint j) := by
    rw [map_orient, hplaces.fst j hj, hrow j hj]
  have hlen (j : ℕ) (hj : j < c.area.yCount) : (place j).length = c.area.xCount - 2 * lo j := by
    have hlength := congrArg List.length (hfst j hj)
    simpa using hlength
  have hmatrix := hplaces.probedMatrix_eq h.one_le_xDist h.one_le_yDist hapart
    (fun j hj => ⟨hlo j hj, hnone j hj, hsome j hj, hlen j hj⟩) (c.zOffset offsets results)
  rw [← hplace] at hmatrix
  rw [hmatrix] at hfinal
  refine ⟨_, _, hfinal, ⟨by simp, fun row hmem => ?_⟩, fun j hj i hi => ?_⟩
  · obtain ⟨j, hj, rfl⟩ := List.mem_map.1 hmem
    have hj := List.mem_range.1 hj
    have hlo := hlo j hj
    have hne : orient (decide (j % 2 = 0))
        ((place j).map fun e => e.2.2.2 - c.zOffset offsets results) ≠ [] := by
      rw [← List.length_pos_iff, length_orient, List.length_map, hlen j hj]
      omega
    rw [length_pad hne, length_orient, List.length_map, hlen j hj]
    omega
  · have hlo := hlo j hj
    set row := orient (decide (j % 2 = 0)) (place j) with hrow'
    have hrowlen : row.length = c.area.xCount - 2 * lo j := by rw [hrow', length_orient, hlen j hj]
    obtain ⟨t, ht⟩ : ∃ t, t = min (i - lo j) (row.length - 1) := ⟨_, rfl⟩
    have hlt : t < row.length := by omega
    have hvalue : (row.map fun e => e.2.2.2 - c.zOffset offsets results) ≠ [] := by
      rw [← List.length_pos_iff, List.length_map]
      omega
    have hpoint : row[t].1 = c.area.gridPoint j (lo j + t) := by
      have hget := congrArg (·[t]?) (hfst j hj)
      simp only [List.getElem?_map, List.getElem?_range' (hrowlen ▸ hlt), ← hrow',
        List.getElem?_eq_getElem hlt, Option.map_some, one_mul] at hget
      exact Option.some_inj.1 hget
    have hmem : row[t] ∈ place j := mem_orient.1 (List.getElem_mem hlt)
    obtain ⟨-, k, hk, hz⟩ := hplaces.paired j hj _ hmem
    refine ⟨lo j + t, by omega, k, hpoint ▸ hk, fun i'' hi'' hin => ?_, ?_⟩
    · rw [h.points] at hin
      have hbounds := (hinside j hj i'' hi'').1 (MeshArea.mem_points hx hy hin)
      rcases abs_cases (((lo j + t : ℕ) : ℤ) - i) with ⟨habs, _⟩ | ⟨habs, _⟩ <;>
        rcases abs_cases ((i'' : ℤ) - i) with ⟨habs', _⟩ | ⟨habs', _⟩ <;> rw [habs, habs'] <;> omega
    · rw [Grid.entry, List.getElem?_map, List.getElem?_range hj, Option.map_some, Option.bind_some,
        ← map_orient, ← hrow', getElem?_pad hvalue (by rw [List.length_map]; omega),
        List.length_map, ← ht, List.getElem?_map, List.getElem?_eq_getElem hlt, Option.map_some, hz]

/-- A substitute is within the rectangle up to a tolerance, or within a circle around (0, 0). Every
list of results at the adjusted points, with rows that are apart, gives a table of the size of the
mesh, whose entries are the heights of the generated points, each averaged over the places that the
adjusted points have for it; beside a round bed they are those of the nearest point of the row. -/
theorem probeGrid (o : CalibrateOptions K) (manual : List Bool) (c : BedMeshCalibrate K)
    (h : calibrate o manual = .ok c) :
    (∀ k pts, (k, pts) ∈ c.substitutedIndices → ∀ p ∈ pts,
      (c.area.radius = none →
        (c.area.meshMin.1 - 1 / 10 ^ 6 ≤ p.1 ∧ p.1 ≤ c.area.meshMax.1 + 1 / 10 ^ 6) ∧
          c.area.meshMin.2 - 1 / 10 ^ 6 ≤ p.2 ∧ p.2 ≤ c.area.meshMax.2 + 1 / 10 ^ 6) ∧
      ∀ r, c.area.radius = some r → c.area.origin = (0, 0) →
        (p.1 - c.area.origin.1) ^ 2 + (p.2 - c.area.origin.2) ^ 2 ≤ r ^ 2) ∧
    c.points.Nodup ∧
    (∀ k p, c.points[k]? = some p →
      c.samples k c.getAdjustedPoints = (c.substitutedIndices.lookup k).getD [p]) ∧
    ∀ offsets results, c.Probes offsets results → c.IsApart offsets →
      ∃ params matrix, c.probeFinalize offsets results = .ok (params, matrix) ∧
        matrix.Sized c.area.yCount c.area.xCount ∧
        ∀ j < c.area.yCount, ∀ i < c.area.xCount, ∃ i' < c.area.xCount, ∃ k,
          c.points[k]? = some (c.area.gridPoint j i') ∧
          (∀ i'' < c.area.xCount, c.area.gridPoint j i'' ∈ c.points →
            |(i' : ℤ) - i| ≤ |(i'' : ℤ) - i|) ∧
          matrix.entry j i = some (c.measured results k - c.zOffset offsets results) := by
  obtain ⟨os, hg⟩ := exists_generated_of_calibrate h
  have hx := zero_lt_one.trans_le hg.one_le_xDist
  have hy := zero_lt_one.trans_le hg.one_le_yDist
  refine ⟨fun k pts hmem p hp => ?_, hg.points ▸ MeshArea.nodup_points hx hy, fun k p hk => ?_,
    fun offsets results hp hapart => exists_matrix hg hp hapart⟩
  · rw [hg.substituted] at hmem
    have hos := (mem_entries.1 hmem).2
    obtain ⟨hrect, hround⟩ :=
      MeshArea.bounds_of_isValid ((hg.valid pts (List.mem_of_getElem? hos)).2 p hp)
    refine ⟨hrect, fun r hr horigin => ?_⟩
    rw [horigin, sub_zero, sub_zero, pow_two, pow_two, pow_two]
    exact hround r hr
  · obtain ⟨hlt, rfl⟩ := List.getElem?_eq_some_iff.1 hk
    exact samples_adjusted hg hlt

/-- A rectangular bed with nine points and a faulty region. -/
def squareBed (minY : ℚ) (region : Option (Region ℚ)) : CalibrateOptions ℚ :=
  { meshMin := some (0, minY)
    meshMax := some (10, minY + 10)
    probeCount := [3, 3]
    faultyRegionMin := fun i => if i = 1 then region.map Prod.fst else none
    faultyRegionMax := fun i => if i = 1 then region.map Prod.snd else none }

/-- A region around the point at the left end of the middle row. -/
def leftRegion : Region ℚ :=
  ((-1 / 2000000, 4), (2, 6))

theorem probeGrid_squareBed : ∃ c, calibrate (squareBed 0 (some leftRegion)) [] = .ok c ∧
    c.points.Nodup := by
  have hok : (calibrate (squareBed 0 (some leftRegion)) []).isOk = true := by decide +kernel
  cases h : calibrate (squareBed 0 (some leftRegion)) [] with
  | error e => simp [h, Except.isOk, Except.toBool] at hok
  | ok c => exact ⟨c, rfl, (probeGrid _ _ c h).2.1⟩

/-- The heights of a bed in probing order, with the error of the end. -/
def finalError (o : CalibrateOptions ℚ) : Option FinalizeError :=
  match calibrate o [] with
  | .error _ => none
  | .ok c =>
    match c.probeFinalize (0, 0, 0) (c.getAdjustedPoints.map fun p => (p.1, p.2, 0)) with
    | .error e => some e
    | .ok _ => none

/-- A substitute is outside of the rectangle, by less than the tolerance; and rows that are apart by
less than a relative tolerance are taken for one. -/
theorem not_probeGrid :
    (∃ c, calibrate (squareBed 0 (some leftRegion)) [] = .ok c ∧
      ¬∀ k pts, (k, pts) ∈ c.substitutedIndices → ∀ p ∈ pts, 0 ≤ p.1) ∧
    finalError (squareBed (10 ^ 10) none) = some (.yLength 1) := by
  refine ⟨?_, by decide +kernel⟩
  have hout : (calibrate (squareBed 0 (some leftRegion)) []).toOption.any (fun c =>
      c.substitutedIndices.any fun e => e.2.any fun p => decide (p.1 < 0)) = true := by
    decide +kernel
  cases h : calibrate (squareBed 0 (some leftRegion)) [] with
  | error e => simp [h, Except.toOption] at hout
  | ok c =>
    refine ⟨c, rfl, fun hall => ?_⟩
    simp only [h, Except.toOption, Option.any_some, List.any_eq_true, decide_eq_true_eq] at hout
    obtain ⟨⟨k, pts⟩, hmem, p, hp, hlt⟩ := hout
    exact absurd (hall k pts hmem p hp) (not_le.2 hlt)

end BedMeshCalibrate

end Thinker
