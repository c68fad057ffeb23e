import Thinker.MoveSplit

/-!
# The position of a bed mesh

`BedMesh.move` moves to a position with the height of the mesh, faded out, and
`BedMesh.get_position` takes the height away again. The position is found again just where
`Recovers` says so for the height there (`getPosition_move_iff`).
-/

set_option linter.unusedSectionVars false

namespace Thinker

variable {K : Type} [Field K] [LinearOrder K] [IsStrictOrderedRing K] [FloorRing K]

/-! ## The position is found again -/

namespace BedMesh

open MoveSplitter

variable {sqrt : K → K} {b b₀ : BedMesh K} {mesh : Option (ZMesh K)} {m : ZMesh K} {h : K}
  {pos : Coord K}

theorem withZ_eq_self (pos : Coord K) (z : K) : withZ pos z = pos ↔ z = pos 2 := by
  constructor
  · intro heq
    exact congrFun heq 2
  · rintro rfl
    funext i
    fin_cases i <;> rfl

/-- The transform and its splitter take the same mesh and fade target. -/
theorem setMesh_ok (hset : b₀.setMesh mesh = .ok b) : b = b₀.takeMesh mesh b.fadeTarget := by
  unfold setMesh at hset
  cases mesh with
  | none =>
    obtain rfl := Except.ok.inj hset
    rfl
  | some m =>
    dsimp only at hset
    split_ifs at hset with hdisable
    · obtain rfl := Except.ok.inj hset
      rfl
    · split at hset
      · split_ifs at hset
        obtain rfl := Except.ok.inj hset
        rfl
      · cases hset

theorem foldl_toolheadMove (moves : List (Coord K)) (b : BedMesh K) :
    ∃ t, moves.foldl toolheadMove b = { b with toolhead := t } := by
  induction moves generalizing b with
  | nil => exact ⟨b.toolhead, rfl⟩
  | cons pos moves ih => exact ih (b.toolheadMove pos)

/-- The last move of the toolhead is to the position with the height of the mesh, faded out. -/
theorem toolheadMoves_isSome (sqrt : K → K) (hmesh : b.zMesh = some m)
    (hsplitter : b.splitter.zMesh = some m) (hoffset : b.splitter.fadeOffset = b.fadeTarget)
    (hm : m.Built) (hh : m.calcZ (pos 0) (pos 1) = some h) :
    ∃ moves, b.toolheadMoves sqrt pos =
      some (moves ++ [withZ pos (b.fade.toolZ b.fadeTarget h (pos 2))]) := by
  unfold toolheadMoves
  dsimp only
  by_cases hfactor : b.fade.getZFactor (pos 2) = 0
  · rw [hfactor, decide_eq_true rfl, Bool.or_true, if_pos rfl]
    refine ⟨[], ?_⟩
    unfold Fade.toolZ
    rw [hfactor, zero_mul, zero_add]
    rfl
  · rw [hmesh, decide_eq_false hfactor, Option.isNone_some, Bool.or_false,
      if_neg Bool.false_ne_true]
    have hz : ∀ p : Coord K, ∃ z,
        b.splitter.calcZOffset (b.fade.getZFactor (pos 2)) p = some z := by
      intro p
      obtain ⟨w, hw⟩ := hm.calcZ_isSome hh (p 0) (p 1)
      refine ⟨b.fade.getZFactor (pos 2) * (w - b.splitter.fadeOffset) + b.splitter.fadeOffset, ?_⟩
      unfold calcZOffset
      rw [hsplitter, Option.bind_eq_bind, Option.bind_some, hw]
      rfl
    choose offset hsurface using hz
    obtain ⟨s, ts, hs, htraverse, -⟩ := traverse_buildMove sqrt hsurface b.lastPosition pos
    have hfuel : ⌊s.totalMoveLength / b.splitter.moveCheckDistance⌋₊ < b.splitFuel s :=
      Nat.lt_add_of_pos_right two_pos
    have hend := hsurface pos
    unfold calcZOffset at hend
    rw [hsplitter, hoffset, Option.bind_eq_bind, Option.bind_some, hh] at hend
    refine ⟨ts.map fun t => (Coord.wayPoint b.lastPosition pos t).raise offset, ?_⟩
    rw [hs, Option.bind_eq_bind, Option.bind_some,
      htraverse _ _ hfuel (Nat.succ_lt_succ hfuel)]
    unfold Coord.raise
    rw [← Option.some_inj.1 hend]
    rfl

/-- The code finds the position again that it has moved to. -/
def Returns (sqrt : K → K) (b : BedMesh K) (pos : Coord K) : Prop :=
  ∃ b', b.move sqrt pos = some b' ∧ b'.getPosition.map Prod.snd = some pos

theorem map_getPosition (b : BedMesh K) : b.getPosition.map Prod.snd = b.unadjusted := by
  unfold getPosition
  cases b.unadjusted with
  | none => rfl
  | some pos => rfl

theorem returns_iff (moves : List (Coord K)) {t : Coord K}
    (hmoves : b.toolheadMoves sqrt pos = some (moves ++ [t])) : Returns sqrt b pos ↔
      ({ b with toolhead := t, lastPosition := pos } : BedMesh K).unadjusted = some pos := by
  have hmove : b.move sqrt pos = some { b with toolhead := t, lastPosition := pos } := by
    obtain ⟨t', ht'⟩ := foldl_toolheadMove moves b
    unfold move
    rw [hmoves, Option.bind_eq_bind, Option.bind_some, List.foldl_append, ht']
    rfl
  unfold Returns
  rw [hmove]
  simp only [Option.some_inj, exists_eq_left', map_getPosition]

/-- `get_position` after `move` returns the position exactly for the heights that `Recovers`
describes, for the mesh, the fade target and the z of the position. -/
theorem getPosition_move_iff (hset : b₀.setMesh mesh = .ok b) (hmesh : ∀ m ∈ mesh, m.Built)
    (sqrt : K → K) (lastPosition toolhead pos : Coord K) :
    Returns sqrt { b with lastPosition := lastPosition, toolhead := toolhead } pos ↔
      ∀ m ∈ mesh, ∃ h, m.calcZ (pos 0) (pos 1) = some h ∧
        b.fade.Recovers b.fadeTarget h (pos 2) := by
  have htake := setMesh_ok hset
  have hzMesh : b.zMesh = mesh := by rw [htake]; rfl
  have hsplitter : b.splitter.zMesh = mesh := by rw [htake]; rfl
  have hoffset : b.splitter.fadeOffset = b.fadeTarget := by rw [htake]; rfl
  cases mesh with
  | none =>
    refine iff_of_true ((returns_iff [] (t := withZ pos (pos 2 + b.fadeTarget)) ?_).2 ?_)
      fun m hm => absurd hm (by simp)
    · unfold toolheadMoves
      dsimp only
      rw [hzMesh, Option.isNone_none, Bool.true_or]
      rfl
    · unfold unadjusted
      dsimp only
      rw [hzMesh]
      show some (withZ pos (pos 2 + b.fadeTarget - b.fadeTarget)) = some pos
      rw [add_sub_cancel_right, (withZ_eq_self _ _).2 rfl]
  | some m =>
    simp only [Option.mem_def, Option.some_inj, forall_eq']
    have hm : m.Built := hmesh m rfl
    cases hh : m.calcZ (pos 0) (pos 1) with
    | none =>
      refine iff_of_false ?_ fun ⟨h, hnone, _⟩ => by cases hnone
      rintro ⟨b', hmove, hfound⟩
      obtain ⟨moves, -, hmoved⟩ := Option.bind_eq_some_iff.1 hmove
      obtain ⟨t, ht⟩ := foldl_toolheadMove moves
        { b with lastPosition := lastPosition, toolhead := toolhead }
      rw [ht] at hmoved
      obtain rfl := Option.some_inj.1 hmoved
      -- without a height here there is none at the position of the toolhead either
      have hnone : m.calcZ (t 0) (t 1) = none := by
        cases hw : m.calcZ (t 0) (t 1) with
        | none => rfl
        | some w =>
          obtain ⟨z, hz⟩ := hm.calcZ_isSome hw (pos 0) (pos 1)
          rw [hh] at hz
          cases hz
      rw [map_getPosition] at hfound
      unfold unadjusted at hfound
      dsimp only at hfound
      rw [hzMesh] at hfound
      dsimp only at hfound
      rw [hnone] at hfound
      cases hfound
    | some h =>
      obtain ⟨moves, hmoves⟩ := toolheadMoves_isSome sqrt
        (b := { b with lastPosition := lastPosition, toolhead := toolhead }) hzMesh hsplitter
        hoffset hm hh
      rw [returns_iff moves hmoves]
      simp only [Option.some_inj, exists_eq_left']
      rw [← Fade.findsAdj_iff]
      unfold unadjusted Fade.FindsAdj
      dsimp only
      rw [hzMesh]
      generalize hZ : b.fade.toolZ b.fadeTarget h (pos 2) = Z
      show ((m.calcZ (pos 0) (pos 1)).bind fun maxAdj =>
        (b.fade.findFactor b.fadeTarget maxAdj Z).bind fun factor =>
          some (withZ pos (Z - (factor * (maxAdj - b.fadeTarget) + b.fadeTarget)))) = some pos ↔ _
      rw [hh, Option.bind_some, Option.bind_eq_some_iff]
      refine exists_congr fun factor => and_congr_right fun _ => ?_
      rw [Option.some_inj, withZ_eq_self, ← hZ]
      unfold Fade.toolZ
      constructor
      · intro heq
        linarith
      · intro heq
        linarith

/-! ## Positions that are not found -/

theorem setMesh_eq (b₀ : BedMesh K) (mesh : Option (ZMesh K)) {T : K}
    (h : (b₀.setMesh mesh).toOption.map fadeTarget = some T) :
    b₀.setMesh mesh = .ok (b₀.takeMesh mesh T) := by
  obtain ⟨b, hb, rfl⟩ := Option.map_eq_some_iff.1 h
  cases hset : b₀.setMesh mesh with
  | error c =>
    rw [hset] at hb
    cases hb
  | ok c =>
    rw [hset] at hb
    obtain rfl := Option.some_inj.1 hb
    exact congrArg Except.ok (setMesh_ok hset)

theorem three_le_five : (3 : ℚ) ≤ 5 := by norm_num

/-- A transform that fades from 1 to an end, at a position. -/
def fadedMesh (fadeEnd : ℚ) (baseFadeTarget : Option ℚ) (pos : Coord ℚ) : BedMesh ℚ where
  fade := Fade.init 1 fadeEnd
  baseFadeTarget := baseFadeTarget
  fadeTarget := 0
  zMesh := none
  splitter := ⟨1 / 40, 5, none, 0, three_le_five⟩
  lastPosition := pos
  toolhead := pos

/-- A position below the fade is found again. -/
theorem returns_low :
    ∃ b, (fadedMesh 11 none ![5, 0, 0, 0]).setMesh (some (squareMesh 0 1)) = .ok b ∧
      Returns id { b with lastPosition := ![5, 0, 0, 0], toolhead := ![5, 0, 0, 0] }
        ![5, 0, 0, 0] := by
  have hset := setMesh_eq (fadedMesh 11 none ![5, 0, 0, 0]) (some (squareMesh 0 1))
    (T := 1 / 2) (by decide +kernel)
  refine ⟨_, hset, (getPosition_move_iff hset ?_ id _ _ _).2 ?_⟩
  · rintro m hm
    obtain rfl := Option.some_inj.1 hm
    exact built_squareMesh 0 1
  · rintro m hm
    obtain rfl := Option.some_inj.1 hm
    refine ⟨0, by decide +kernel, ?_⟩
    have hend : ¬ (Fade.init (1 : ℚ) 11).fadeEnd ≤ 0 := by decide +kernel
    have hstart : ¬ (Fade.init (1 : ℚ) 11).fadeStart ≤ 0 := by decide +kernel
    show (Fade.init (1 : ℚ) 11).Recovers (1 / 2) 0 0
    unfold Fade.Recovers
    rw [if_neg hend, if_neg hstart]
    exact .inl (by decide +kernel)

/-- Near the end of the fade the factor is lost, and a mesh that is a fade's length above the fade
target divides by zero. -/
theorem not_returns_faded :
    (∃ b, (fadedMesh 11 none ![5, 0, 109 / 10, 0]).setMesh (some (squareMesh 0 1)) = .ok b ∧
      ¬ Returns id b ![5, 0, 109 / 10, 0]) ∧
    ∃ b, (fadedMesh 3 (some (-1)) ![5, 10, 1 / 2, 0]).setMesh (some (squareMesh (-1) 1)) = .ok b ∧
      ¬ Returns id b ![5, 10, 1 / 2, 0] := by
  constructor
  · have hset := setMesh_eq (fadedMesh 11 none ![5, 0, 109 / 10, 0])
      (some (squareMesh 0 1)) (T := 1 / 2) (by decide +kernel)
    refine ⟨_, hset, ?_⟩
    rintro ⟨b', hmove, hfound⟩
    have hheight : ((((fadedMesh 11 none ![5, 0, 109 / 10, 0]).takeMesh (some (squareMesh 0 1))
        (1 / 2)).move id ![5, 0, 109 / 10, 0]).bind fun b' =>
          b'.getPosition.map fun p => p.2 2) = some (10895 / 1000) := by decide +kernel
    have hz := congrArg (Option.map fun p : Coord ℚ => p 2) hfound
    rw [hmove, Option.bind_some] at hheight
    rw [Option.map_map] at hz
    exact absurd (hheight.symm.trans hz) (by decide +kernel)
  · have hset := setMesh_eq (fadedMesh 3 (some (-1)) ![5, 10, 1 / 2, 0])
      (some (squareMesh (-1) 1)) (T := -1) (by decide +kernel)
    refine ⟨_, hset, ?_⟩
    rintro ⟨b', hmove, hfound⟩
    have hheight : ((((fadedMesh 3 (some (-1)) ![5, 10, 1 / 2, 0]).takeMesh
        (some (squareMesh (-1) 1)) (-1)).move id ![5, 10, 1 / 2, 0]).bind fun b' =>
          b'.getPosition.map fun p => p.2 2) = none := by decide +kernel
    have hz := congrArg (Option.map fun p : Coord ℚ => p 2) hfound
    rw [hmove, Option.bind_some] at hheight
    rw [Option.map_map] at hz
    exact absurd (hheight.symm.trans hz) (by decide +kernel)

end BedMesh

end Thinker
