import Thinker.BedMesh

/-!
# The points of a split move

`BedMesh.move` calls `MoveSplitter.split` until the move is complete. A move is checked at the
multiples of `move_check_distance`, and split where the offset of the mesh has changed by
`split_delta_z` since the last point. An axis that moves by no more than `1e-10` stands still until
the end of the move (`Coord.wayPoint`).

The points come to an end, and lie behind one another on the way of the move, each with the offset
of the mesh there. Between two of them no check finds a change of `split_delta_z`
(`splits_of_buildMove`).
-/

set_option linter.unusedSectionVars false

namespace Thinker

variable {K : Type} [Field K] [LinearOrder K] [IsStrictOrderedRing K] [FloorRing K]

/-- A position with its offset. -/
def Coord.raise (offset : Coord K → K) (pos : Coord K) : Coord K :=
  MoveSplitter.withZ pos (pos 2 + offset pos)

/-- A part of the way. -/
def Coord.linePoint (prevPos nextPos : Coord K) (t : K) : Coord K :=
  fun i => prevPos i + t * (nextPos i - prevPos i)

/-- A part of the way of a move, on which an axis that hardly moves stands still. -/
def Coord.wayPoint (prevPos nextPos : Coord K) (t : K) : Coord K :=
  fun i =>
    if |nextPos i - prevPos i| ≤ 1 / 10 ^ 10 then prevPos i else linePoint prevPos nextPos t i

namespace MoveSplitter

variable (sp : MoveSplitter K)

/-- Which part of the way a check is at. -/
def checkAt (length : K) (k : ℕ) : K :=
  k * sp.moveCheckDistance / length

/-- A check finds no change of the offset since a point. -/
def Near (offset : Coord K → K) (point : K → Coord K) (length a : K) (k : ℕ) : Prop :=
  |offset (point (sp.checkAt length k)) - offset (point a)| < sp.splitDeltaZ

/-- Two points of a move behind one another, with no change of the offset to be found between
them. -/
def Part (offset : Coord K → K) (point : K → Coord K) (length a b : K) : Prop :=
  a < b ∧ ∀ k, a < sp.checkAt length k → sp.checkAt length k < b →
    sp.Near offset point length a k

/-- The offset is known everywhere. -/
def Surface (zFactor : K) (offset : Coord K → K) : Prop :=
  ∀ pos, sp.calcZOffset zFactor pos = some (offset pos)

end MoveSplitter

namespace SplitMove

variable (s : SplitMove K)

/-- A part of the way : an axis that hardly moves stands still. -/
def pointAt (t : K) : Coord K :=
  fun i => if s.axisMove i then lerp t (s.prevPos i) (s.nextPos i) else s.prevPos i

/-- The move after some checks, with the offset at a part of the way. -/
def atCheck (sp : MoveSplitter K) (offset : Coord K → K) (j : ℕ) (a : K) : SplitMove K :=
  { s with
    currentPos := s.pointAt (sp.checkAt s.totalMoveLength j)
    zOffset := offset (s.pointAt a)
    distanceChecked := j * sp.moveCheckDistance }

end SplitMove

namespace MoveSplitter

variable {sp : MoveSplitter K} {s s' : SplitMove K} {offset : Coord K → K} {a length : K}
  {j k fuel : ℕ}

theorem moveCheckDistance_pos (sp : MoveSplitter K) : 0 < sp.moveCheckDistance :=
  lt_of_lt_of_le (by norm_num) sp.three_le

theorem checkAt_zero : sp.checkAt length 0 = 0 := by
  simp [checkAt]

theorem checkAt_lt_checkAt (hlength : 0 < length) :
    sp.checkAt length j < sp.checkAt length k ↔ j < k := by
  unfold checkAt
  rw [div_lt_div_iff_of_pos_right hlength, mul_lt_mul_iff_left₀ sp.moveCheckDistance_pos,
    Nat.cast_lt]

theorem checkAt_lt_one (hlength : 0 < length) :
    sp.checkAt length k < 1 ↔ (k : K) * sp.moveCheckDistance < length := by
  unfold checkAt
  rw [div_lt_one hlength]

/-- A check behind a point has a way. -/
theorem length_pos_of_checkAt (h : 0 < sp.checkAt length k) : 0 < length := by
  have hnonneg : 0 ≤ (k : K) * sp.moveCheckDistance :=
    mul_nonneg (Nat.cast_nonneg k) sp.moveCheckDistance_pos.le
  unfold checkAt at h
  by_contra hle
  exact absurd h (not_lt.2 (div_nonpos_of_nonneg_of_nonpos hnonneg (not_lt.1 hle)))

/-- The part up to the end of the move. -/
theorem part_one {point : K → Coord K} (hstart : 0 ≤ a) (hbefore : a < 1)
    (h : ∀ k, a < sp.checkAt length k → (k : K) * sp.moveCheckDistance < length →
      sp.Near offset point length a k) :
    sp.Part offset point length a 1 := by
  refine ⟨hbefore, fun k hk hend => h k hk ?_⟩
  exact (checkAt_lt_one (length_pos_of_checkAt (hstart.trans_lt hk))).1 hend

/-- The offset depends on X and Y only. -/
theorem Surface.congr {zFactor : K} (h : sp.Surface zFactor offset) {pos pos' : Coord K}
    (hx : pos 0 = pos' 0) (hy : pos 1 = pos' 1) : offset pos = offset pos' := by
  have heq : sp.calcZOffset zFactor pos = sp.calcZOffset zFactor pos' := by
    unfold calcZOffset
    rw [hx, hy]
  rw [h pos, h pos'] at heq
  exact Option.some_inj.1 heq

@[simp] theorem atCheck_distanceChecked :
    (s.atCheck sp offset j a).distanceChecked = j * sp.moveCheckDistance :=
  rfl

@[simp] theorem atCheck_totalMoveLength :
    (s.atCheck sp offset j a).totalMoveLength = s.totalMoveLength :=
  rfl

theorem pointAt_zero : s.pointAt 0 = s.prevPos := by
  funext i
  unfold SplitMove.pointAt lerp
  split_ifs
  · ring
  · rfl

/-- A check that is made is within the move. -/
theorem length_pos (h : (j : K) * sp.moveCheckDistance + sp.moveCheckDistance < s.totalMoveLength) :
    0 < s.totalMoveLength := by
  have hcheck := sp.moveCheckDistance_pos
  have hj : 0 ≤ (j : K) * sp.moveCheckDistance := mul_nonneg (Nat.cast_nonneg j) hcheck.le
  linarith

/-- A check brings the move to its place. -/
theorem setNextMove_atCheck (offset : Coord K → K) (a : K)
    (h : (j : K) * sp.moveCheckDistance + sp.moveCheckDistance < s.totalMoveLength) :
    setNextMove { s.atCheck sp offset j a with
        distanceChecked := (j : K) * sp.moveCheckDistance + sp.moveCheckDistance }
      ((j : K) * sp.moveCheckDistance + sp.moveCheckDistance) =
      some (s.atCheck sp offset (j + 1) a) := by
  have hcheck := sp.moveCheckDistance_pos
  have hlength := length_pos h
  have hnonneg : 0 ≤ (j : K) * sp.moveCheckDistance + sp.moveCheckDistance :=
    add_nonneg (mul_nonneg (Nat.cast_nonneg j) hcheck.le) hcheck.le
  have hslice : ¬ (((j : K) * sp.moveCheckDistance + sp.moveCheckDistance) / s.totalMoveLength > 1 ∨
      ((j : K) * sp.moveCheckDistance + sp.moveCheckDistance) / s.totalMoveLength < 0) := by
    rintro (hgt | hneg)
    · exact absurd ((one_lt_div hlength).1 hgt) (not_lt.2 h.le)
    · exact absurd hneg (not_lt.2 (div_nonneg hnonneg hlength.le))
  have hnext : ((j + 1 : ℕ) : K) * sp.moveCheckDistance =
      j * sp.moveCheckDistance + sp.moveCheckDistance := by
    push_cast
    ring
  unfold setNextMove divide
  have htotal : (s.atCheck sp offset j a).totalMoveLength = s.totalMoveLength := rfl
  dsimp only
  rw [htotal, if_neg hlength.ne', Option.bind_eq_bind, Option.bind_some, if_neg hslice]
  unfold SplitMove.atCheck SplitMove.pointAt checkAt
  dsimp only
  rw [hnext]
  refine congrArg some (congrArg (fun pos => SplitMove.mk _ _ pos _ _ _ _ _ _) ?_)
  funext i
  split_ifs <;> rfl

/-- The checks from one place on find the next place to split, or none up to the end. -/
theorem splitLoop_atCheck (hsurface : sp.Surface s.zFactor offset) (a : K)
    (hfuel : s.totalMoveLength ≤ ((j + fuel + 1 : ℕ) : K) * sp.moveCheckDistance) :
    (∃ j', j < j' ∧ (j' : K) * sp.moveCheckDistance < s.totalMoveLength ∧
      (∀ k, j < k → k < j' → sp.Near offset s.pointAt s.totalMoveLength a k) ∧
      sp.splitLoop (fuel + 1) (s.atCheck sp offset j a) =
        some (s.atCheck sp offset j' (sp.checkAt s.totalMoveLength j'),
          some (Coord.raise offset (s.pointAt (sp.checkAt s.totalMoveLength j'))))) ∨
    ∃ j', j ≤ j' ∧ s.totalMoveLength ≤ ((j' + 1 : ℕ) : K) * sp.moveCheckDistance ∧
      (∀ k, j < k → k ≤ j' → sp.Near offset s.pointAt s.totalMoveLength a k) ∧
      sp.splitLoop (fuel + 1) (s.atCheck sp offset j a) =
        some (s.atCheck sp offset j' a, none) := by
  have hstep : ∀ n : ℕ, ((n + 1 : ℕ) : K) * sp.moveCheckDistance =
      n * sp.moveCheckDistance + sp.moveCheckDistance := fun n => by
    push_cast
    ring
  induction fuel generalizing j with
  | zero =>
    refine .inr ⟨j, le_rfl, hfuel, fun k hk hkj => absurd hkj (not_le.2 hk), ?_⟩
    rw [Nat.add_zero, hstep] at hfuel
    unfold splitLoop
    rw [atCheck_distanceChecked, atCheck_totalMoveLength, if_neg (not_lt.2 hfuel)]
  | succ fuel ih =>
    by_cases hmore : (j : K) * sp.moveCheckDistance + sp.moveCheckDistance < s.totalMoveLength
    · have hz := hsurface (s.pointAt (sp.checkAt s.totalMoveLength (j + 1)))
      have hloop : sp.splitLoop (fuel + 2) (s.atCheck sp offset j a) =
          if |offset (s.pointAt (sp.checkAt s.totalMoveLength (j + 1))) - offset (s.pointAt a)| ≥
              sp.splitDeltaZ then
            some (s.atCheck sp offset (j + 1) (sp.checkAt s.totalMoveLength (j + 1)),
              some (Coord.raise offset (s.pointAt (sp.checkAt s.totalMoveLength (j + 1)))))
          else sp.splitLoop (fuel + 1) (s.atCheck sp offset (j + 1) a) := by
        rw [splitLoop, atCheck_distanceChecked, atCheck_totalMoveLength, if_pos hmore]
        refine (congrArg (fun next => Option.bind next _)
          (setNextMove_atCheck offset a hmore)).trans ?_
        refine (congrArg (fun z => Option.bind z _) hz).trans ?_
        rfl
      rw [hloop]
      split_ifs with hsplit
      · refine .inl ⟨j + 1, Nat.lt_succ_self j, ?_, fun k hk hkj => ?_, rfl⟩
        · rw [hstep]
          exact hmore
        · omega
      · have hnear := not_le.1 hsplit
        have hrest : s.totalMoveLength ≤ ((j + 1 + fuel + 1 : ℕ) : K) * sp.moveCheckDistance := by
          rwa [show j + 1 + fuel + 1 = j + (fuel + 1) + 1 by omega]
        rcases ih hrest with ⟨j', hj, hlt, hall, heq⟩ | ⟨j', hj, hle, hall, heq⟩
        · refine .inl ⟨j', by omega, hlt, fun k hk hkj => ?_, heq⟩
          rcases Nat.lt_or_eq_of_le hk with hlt | rfl
          · exact hall k hlt hkj
          · exact hnear
        · refine .inr ⟨j', by omega, hle, fun k hk hkj => ?_, heq⟩
          rcases Nat.lt_or_eq_of_le hk with hlt | rfl
          · exact hall k hlt hkj
          · exact hnear
    · refine .inr ⟨j, le_rfl, ?_, fun k hk hkj => absurd hkj (not_le.2 hk), ?_⟩
      · rw [hstep]
        exact not_lt.1 hmore
      · unfold splitLoop
        rw [atCheck_distanceChecked, atCheck_totalMoveLength, if_neg hmore]

/-! ## The run of a move -/

/-- More fuel changes nothing. -/
theorem splitLoop_mono {r : SplitMove K × Option (Coord K)} {fuel' : ℕ}
    (h : sp.splitLoop fuel s = some r) (hle : fuel ≤ fuel') : sp.splitLoop fuel' s = some r := by
  induction fuel generalizing s fuel' with
  | zero => cases h
  | succ fuel ih =>
    obtain ⟨fuel', rfl⟩ : ∃ f, fuel' = f + 1 := ⟨fuel' - 1, by omega⟩
    unfold splitLoop at h ⊢
    by_cases hmore : s.distanceChecked + sp.moveCheckDistance < s.totalMoveLength
    · rw [if_pos hmore] at h ⊢
      obtain ⟨next, hnext, h⟩ := Option.bind_eq_some_iff.1 h
      obtain ⟨z, hz, h⟩ := Option.bind_eq_some_iff.1 h
      refine Option.bind_eq_some_iff.2 ⟨next, hnext, Option.bind_eq_some_iff.2 ⟨z, hz, ?_⟩⟩
      split_ifs at h ⊢
      · exact h
      · exact ih h (by omega)
    · rw [if_neg hmore] at h ⊢
      exact h

theorem split_mono {r : SplitMove K × Coord K} {fuel' : ℕ} (h : sp.split fuel s = some r)
    (hle : fuel ≤ fuel') : sp.split fuel' s = some r := by
  unfold split at h ⊢
  obtain ⟨checked, hchecked, h⟩ := Option.bind_eq_some_iff.1 h
  refine Option.bind_eq_some_iff.2 ⟨checked, ?_, h⟩
  unfold checkMove at hchecked ⊢
  split_ifs at hchecked ⊢
  · exact splitLoop_mono hchecked hle
  · exact hchecked

theorem traverse_mono {moves : List (Coord K)} {n fuel' n' : ℕ}
    (h : sp.traverse fuel n s = some moves) (hfuel : fuel ≤ fuel') (hn : n ≤ n') :
    sp.traverse fuel' n' s = some moves := by
  induction n generalizing s n' moves with
  | zero => cases h
  | succ n ih =>
    obtain ⟨n', rfl⟩ : ∃ k, n' = k + 1 := ⟨n' - 1, by omega⟩
    unfold traverse at h ⊢
    split_ifs at h ⊢
    · exact h
    · obtain ⟨part, hpart, h⟩ := Option.bind_eq_some_iff.1 h
      obtain ⟨rest, hrest, h⟩ := Option.bind_eq_some_iff.1 h
      refine Option.bind_eq_some_iff.2 ⟨part, split_mono hpart hfuel, ?_⟩
      exact Option.bind_eq_some_iff.2 ⟨rest, ih hrest (by omega), h⟩

/-- The end of a move is reached. -/
theorem traverse_end {n : ℕ} (hsurface : sp.Surface s.zFactor offset)
    (hopen : s.traverseComplete = false) (hloop : sp.checkMove fuel s = some (s', none))
    (hs : s'.zFactor = s.zFactor ∧ s'.nextPos = s.nextPos) :
    sp.traverse fuel (n + 2) s = some [Coord.raise offset s.nextPos] := by
  have hsplit : ∃ s'', sp.split fuel s = some (s'', Coord.raise offset s.nextPos) ∧
      s''.traverseComplete = true := by
    unfold split
    rw [hloop, Option.bind_eq_bind, Option.bind_some]
    dsimp only
    rw [hs.1, hs.2, hsurface s.nextPos]
    exact ⟨_, rfl, rfl⟩
  obtain ⟨s'', hsplit, hcomplete⟩ := hsplit
  rw [traverse, hopen, if_neg Bool.false_ne_true, hsplit, Option.bind_eq_bind, Option.bind_some]
  dsimp only
  rw [traverse, if_pos hcomplete]
  rfl

/-- The rest of a move from a point on. -/
theorem traverse_atCheck (hsurface : sp.Surface s.zFactor offset)
    (hopen : s.traverseComplete = false) (hmove : (s.axisMove 0 || s.axisMove 1) = true) {n i : ℕ}
    (hstart : 0 ≤ sp.checkAt s.totalMoveLength j) (hbefore : sp.checkAt s.totalMoveLength j < 1)
    (hn : s.totalMoveLength ≤ ((j + n + 1 : ℕ) : K) * sp.moveCheckDistance) (hfuel : n < fuel)
    (hi : n + 1 < i) :
    ∃ ts, (sp.checkAt s.totalMoveLength j :: (ts ++ [1])).IsChain
        (sp.Part offset s.pointAt s.totalMoveLength) ∧
      sp.traverse fuel i (s.atCheck sp offset j (sp.checkAt s.totalMoveLength j)) =
        some (ts.map (fun t => Coord.raise offset (s.pointAt t)) ++
          [Coord.raise offset s.nextPos]) := by
  induction n using Nat.strong_induction_on generalizing j i with
  | h n ih =>
    obtain ⟨fuel, rfl⟩ : ∃ f, fuel = f + 1 := ⟨fuel - 1, by omega⟩
    obtain ⟨i, rfl⟩ : ∃ k, i = k + 2 := ⟨i - 2, by omega⟩
    have hcheck := sp.moveCheckDistance_pos
    have henough : s.totalMoveLength ≤ ((j + fuel + 1 : ℕ) : K) * sp.moveCheckDistance := by
      refine hn.trans (mul_le_mul_of_nonneg_right ?_ hcheck.le)
      exact_mod_cast (by omega : j + n + 1 ≤ j + fuel + 1)
    have hchecked : sp.checkMove (fuel + 1)
        (s.atCheck sp offset j (sp.checkAt s.totalMoveLength j)) =
        sp.splitLoop (fuel + 1) (s.atCheck sp offset j (sp.checkAt s.totalMoveLength j)) :=
      if_pos hmove
    rcases splitLoop_atCheck hsurface (sp.checkAt s.totalMoveLength j) henough with
      ⟨j', hj, hlt, hnear, hloop⟩ | ⟨j', hj, hle, hnear, hloop⟩
    · have hjn : j' < j + n + 1 := by
        have := hlt.trans_le hn
        rw [mul_lt_mul_iff_left₀ hcheck] at this
        exact_mod_cast this
      have hlength : 0 < s.totalMoveLength :=
        (mul_nonneg (Nat.cast_nonneg j') hcheck.le).trans_lt hlt
      have hbehind : sp.checkAt s.totalMoveLength j < sp.checkAt s.totalMoveLength j' :=
        (checkAt_lt_checkAt hlength).2 hj
      obtain ⟨ts, hchain, hrest⟩ := ih (j + n - j') (by omega) (j := j') (i := i + 1)
        (hstart.trans hbehind.le) ((checkAt_lt_one hlength).2 hlt)
        (by rwa [show j' + (j + n - j') + 1 = j + n + 1 by omega]) (by omega) (by omega)
      refine ⟨sp.checkAt s.totalMoveLength j' :: ts, ?_, ?_⟩
      · rw [List.cons_append, List.isChain_cons_cons]
        refine ⟨⟨hbehind, fun k hk hend => ?_⟩, hchain⟩
        exact hnear k ((checkAt_lt_checkAt hlength).1 hk) ((checkAt_lt_checkAt hlength).1 hend)
      · have hsplit : sp.split (fuel + 1)
            (s.atCheck sp offset j (sp.checkAt s.totalMoveLength j)) =
            some (s.atCheck sp offset j' (sp.checkAt s.totalMoveLength j'),
              Coord.raise offset (s.pointAt (sp.checkAt s.totalMoveLength j'))) := by
          unfold split
          rw [hchecked, hloop]
          rfl
        rw [traverse, show (s.atCheck sp offset j (sp.checkAt s.totalMoveLength j)).traverseComplete
          = s.traverseComplete from rfl, hopen, if_neg Bool.false_ne_true, hsplit,
          Option.bind_eq_bind, Option.bind_some]
        dsimp only
        rw [hrest]
        rfl
    · refine ⟨[], ?_, ?_⟩
      · rw [List.nil_append, List.isChain_pair]
        refine part_one hstart hbefore fun k hk hend => ?_
        have hlength := length_pos_of_checkAt (hstart.trans_lt hk)
        refine hnear k ((checkAt_lt_checkAt hlength).1 hk) (Nat.le_of_lt_succ ?_)
        have := hend.trans_le hle
        rw [mul_lt_mul_iff_left₀ hcheck] at this
        exact_mod_cast this
      · exact traverse_end (s := s.atCheck sp offset j _) hsurface hopen (hchecked.trans hloop)
          ⟨rfl, rfl⟩

/-- Without a move in X or Y no check is at another offset. -/
theorem part_still (hsurface : sp.Surface s.zFactor offset)
    (hstill : (s.axisMove 0 || s.axisMove 1) = false) (hdelta : 0 < sp.splitDeltaZ) :
    sp.Part offset s.pointAt s.totalMoveLength 0 1 := by
  have hstand : ∀ t u, offset (s.pointAt t) = offset (s.pointAt u) := by
    obtain ⟨hx, hy⟩ := Bool.or_eq_false_iff.1 hstill
    refine fun t u => hsurface.congr ?_ ?_
    · unfold SplitMove.pointAt
      rw [hx, if_neg Bool.false_ne_true, if_neg Bool.false_ne_true]
    · unfold SplitMove.pointAt
      rw [hy, if_neg Bool.false_ne_true, if_neg Bool.false_ne_true]
  refine ⟨one_pos, fun k _ _ => ?_⟩
  unfold Near
  rw [hstand _ 0, sub_self, abs_zero]
  exact hdelta

/-- Without a move in X or Y only the end of the move is reached. -/
theorem traverse_still (hsurface : sp.Surface s.zFactor offset)
    (hopen : s.traverseComplete = false) (hstill : (s.axisMove 0 || s.axisMove 1) = false)
    (n : ℕ) : sp.traverse fuel (n + 2) s = some [Coord.raise offset s.nextPos] := by
  have hloop : sp.checkMove fuel s = some (s, none) := by
    unfold checkMove
    rw [hstill, if_neg Bool.false_ne_true]
  exact traverse_end hsurface hopen hloop ⟨rfl, rfl⟩

/-! ## Splitting a move -/

/-- The points on the way of a move that it is split at, with its end behind them. -/
def Splits (sqrt : K → K) (sp : MoveSplitter K) (point : Coord K → Coord K → K → Coord K)
    (factor : K) (prevPos nextPos : Coord K) : Prop :=
  ∃ offset s ts, sp.Surface factor offset ∧ sp.buildMove sqrt prevPos nextPos factor = some s ∧
    (∀ fuel n, ⌊s.totalMoveLength / sp.moveCheckDistance⌋₊ < fuel →
      ⌊s.totalMoveLength / sp.moveCheckDistance⌋₊ + 1 < n →
      sp.traverse fuel n s = some (ts.map (fun t => (point prevPos nextPos t).raise offset) ++
        [nextPos.raise offset])) ∧
    (0 :: (ts ++ [1])).IsChain (sp.Part offset (point prevPos nextPos) s.totalMoveLength)

theorem isCloseZero_iff (d : K) : isCloseZero d = true ↔ |d| ≤ 1 / 10 ^ 10 := by
  unfold isCloseZero
  rw [decide_eq_true_iff, le_max_iff]
  refine or_iff_right_of_imp fun hle => ?_
  have hzero : |d| ≤ 0 := by linarith [abs_nonneg d]
  exact hzero.trans (by positivity)

/-- The mesh of a transform has an offset everywhere. -/
theorem surface_of_built {m : ZMesh K} (hmesh : sp.zMesh = some m) (hm : m.Built)
    (hx : m.params.minX ≠ m.params.maxX) (hy : m.params.minY ≠ m.params.maxY) (factor : K) :
    ∃ offset, sp.Surface factor offset := by
  obtain ⟨tbl, htable, hsized⟩ := hm
  have hz : ∀ pos : Coord K, ∃ z, sp.calcZOffset factor pos = some z := by
    intro pos
    obtain ⟨z, hz⟩ := ZMesh.lookup_isSome hsized (m.params.meshXDist_ne_zero_iff.2 hx)
      (m.params.meshYDist_ne_zero_iff.2 hy) (pos 0 + m.xOffset) (pos 1 + m.yOffset)
    refine ⟨factor * (z - sp.fadeOffset) + sp.fadeOffset, ?_⟩
    unfold calcZOffset ZMesh.calcZ
    rw [hmesh, Option.bind_eq_bind, Option.bind_some, htable]
    dsimp only
    rw [hz]
    rfl
  choose offset hoffset using hz
  exact ⟨offset, hoffset⟩

/-- The run of a move over a surface, from its start to its end. -/
theorem traverse_buildMove (sqrt : K → K) {factor : K} (hsurface : sp.Surface factor offset)
    (prevPos nextPos : Coord K) :
    ∃ s ts, sp.buildMove sqrt prevPos nextPos factor = some s ∧
      (∀ fuel n, ⌊s.totalMoveLength / sp.moveCheckDistance⌋₊ < fuel →
        ⌊s.totalMoveLength / sp.moveCheckDistance⌋₊ + 1 < n →
        sp.traverse fuel n s =
          some (ts.map (fun t => (Coord.wayPoint prevPos nextPos t).raise offset) ++
            [nextPos.raise offset])) ∧
      (0 < sp.splitDeltaZ → (0 :: (ts ++ [1])).IsChain
        (sp.Part offset (Coord.wayPoint prevPos nextPos) s.totalMoveLength)) := by
  obtain ⟨s, hs, hprev, hnext, hfactor, hopen, hzero, haxis⟩ :
      ∃ s, sp.buildMove sqrt prevPos nextPos factor = some s ∧ s.prevPos = prevPos ∧
        s.nextPos = nextPos ∧ s.zFactor = factor ∧ s.traverseComplete = false ∧
        s = s.atCheck sp offset 0 (sp.checkAt s.totalMoveLength 0) ∧
        ∀ i, s.axisMove i = !isCloseZero (nextPos i - prevPos i) := by
    unfold buildMove
    rw [hsurface prevPos]
    refine ⟨_, rfl, rfl, rfl, rfl, rfl, ?_, fun _ => rfl⟩
    unfold SplitMove.atCheck
    rw [checkAt_zero, pointAt_zero, Nat.cast_zero, zero_mul]
  have hpoint : s.pointAt = Coord.wayPoint prevPos nextPos := by
    funext t i
    unfold SplitMove.pointAt Coord.wayPoint
    by_cases hclose : |nextPos i - prevPos i| ≤ 1 / 10 ^ 10
    · rw [haxis i, (isCloseZero_iff _).2 hclose, if_pos hclose, hprev, Bool.not_true,
        if_neg Bool.false_ne_true]
    · rw [haxis i, eq_false_of_ne_true (mt (isCloseZero_iff _).1 hclose), if_neg hclose, hprev,
        hnext, Bool.not_false, if_pos rfl]
      unfold Coord.linePoint lerp
      ring
  have hcheck := sp.moveCheckDistance_pos
  have hlength : s.totalMoveLength ≤
      ((0 + ⌊s.totalMoveLength / sp.moveCheckDistance⌋₊ + 1 : ℕ) : K) * sp.moveCheckDistance := by
    have hlt := Nat.lt_floor_add_one (s.totalMoveLength / sp.moveCheckDistance)
    rw [div_lt_iff₀ hcheck] at hlt
    rw [Nat.zero_add]
    push_cast
    exact hlt.le
  rw [← hfactor] at hsurface
  refine ⟨s, ?_⟩
  rw [← hpoint, ← hnext]
  cases hmove : (s.axisMove 0 || s.axisMove 1) with
  | false =>
    refine ⟨[], hnext ▸ hs, fun fuel n _ hn => ?_, fun hdelta => ?_⟩
    · exact traverse_mono (traverse_still hsurface hopen hmove _) le_rfl hn
    · rw [List.nil_append, List.isChain_pair]
      exact part_still hsurface hmove hdelta
  | true =>
    obtain ⟨ts, hchain, hts⟩ := traverse_atCheck hsurface hopen hmove (j := 0) checkAt_zero.ge
      (checkAt_zero.trans_lt one_pos) hlength (Nat.lt_succ_self _) (Nat.lt_succ_self _)
    rw [checkAt_zero] at hchain
    rw [← hzero] at hts
    exact ⟨ts, hnext ▸ hs, fun fuel n hfuel hn => traverse_mono hts hfuel hn, fun _ => hchain⟩

/-- Every move over a surface is split. -/
theorem splits_of_surface (sqrt : K → K) (hdelta : 0 < sp.splitDeltaZ) {factor : K}
    (hsurface : sp.Surface factor offset) (prevPos nextPos : Coord K) :
    sp.Splits sqrt Coord.wayPoint factor prevPos nextPos := by
  obtain ⟨s, ts, hs, hts, hchain⟩ := traverse_buildMove sqrt hsurface prevPos nextPos
  exact ⟨offset, s, ts, hsurface, hs, hts, hchain hdelta⟩

/-- Every move over a mesh is split. -/
theorem splits_of_buildMove (sqrt : K → K) {m : ZMesh K} (hmesh : sp.zMesh = some m)
    (hm : m.Built) (hx : m.params.minX ≠ m.params.maxX) (hy : m.params.minY ≠ m.params.maxY)
    (hdelta : 0 < sp.splitDeltaZ) (factor : K) (prevPos nextPos : Coord K) :
    sp.Splits sqrt Coord.wayPoint factor prevPos nextPos := by
  obtain ⟨offset, hsurface⟩ := surface_of_built hmesh hm hx hy factor
  exact splits_of_surface sqrt hdelta hsurface prevPos nextPos

/-- A splitter with a mesh that rises along Y. -/
def slopeSplitter : MoveSplitter ℚ :=
  ⟨1 / 40, 5, some (BedMesh.squareMesh 0 1), 0, by norm_num⟩

/-- A move along Y with an extruder that hardly moves. -/
theorem splits_slope : slopeSplitter.Splits Rat.sqrt Coord.wayPoint 1 ![0, 0, 0, 0]
    ![0, 10, 0, 1 / 10 ^ 11] :=
  splits_of_buildMove Rat.sqrt rfl (BedMesh.built_squareMesh 0 1) (by decide +kernel)
    (by decide +kernel) (by decide +kernel) 1 _ _

/-- The extruder stands still in the middle of it. -/
theorem traverse_slope :
    (slopeSplitter.buildMove Rat.sqrt ![0, 0, 0, 0] ![0, 10, 0, 1 / 10 ^ 11] 1).map (fun s =>
      (⌊s.totalMoveLength / slopeSplitter.moveCheckDistance⌋₊, slopeSplitter.traverse 3 4 s)) =
      some (2, some [![0, 5, 1 / 2, 0], ![0, 10, 1, 1 / 10 ^ 11]]) := by
  decide +kernel

/-- Not every point lies on the line of its move. -/
theorem not_splits_linePoint : ¬ ∀ (sp : MoveSplitter ℚ) (m : ZMesh ℚ), sp.zMesh = some m →
    m.Built → m.params.minX ≠ m.params.maxX → m.params.minY ≠ m.params.maxY →
    0 < sp.splitDeltaZ → ∀ (factor : ℚ) (prevPos nextPos : Coord ℚ),
      sp.Splits Rat.sqrt Coord.linePoint factor prevPos nextPos := by
  intro h
  obtain ⟨offset, s, ts, -, hs, htraverse, hchain⟩ := h slopeSplitter (BedMesh.squareMesh 0 1) rfl
    (BedMesh.built_squareMesh 0 1) (by decide +kernel) (by decide +kernel) (by decide +kernel) 1
    ![0, 0, 0, 0] ![0, 10, 0, 1 / 10 ^ 11]
  have hslope := traverse_slope
  rw [hs, Option.map_some, Option.some_inj] at hslope
  obtain ⟨hchecks, hpoints⟩ := Prod.mk.inj hslope
  have heq := htraverse 3 4 (by omega) (by omega)
  rw [hpoints, Option.some_inj] at heq
  cases ts with
  | nil => exact absurd (congrArg List.length heq) (Nat.succ_ne_self 1)
  | cons t ts =>
    have hstart : 0 < t := by
      rw [List.cons_append, List.isChain_cons_cons] at hchain
      exact hchain.1.1
    have hhead := (List.cons.inj heq).1
    have hextruder : (0 : ℚ) = 0 + t * (1 / 10 ^ 11 - 0) := congrFun hhead 3
    linarith

end MoveSplitter

end Thinker
