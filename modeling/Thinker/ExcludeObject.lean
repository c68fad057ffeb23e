import Thinker.Move
import Thinker.Transition

/-!
# Excluding objects

`ExcludeObject` of `exclude_object.py`, a transform in front of the moves of the tool head. The
moves of an excluded object are left out, and the offsets from then on are the distance from the
g-code to the head. They are computed from `last_position_extruded`, which is the last target
that was not left out. The head may not be there : while there are offsets, such a target is
moved to with them. So the offsets are wrong where an object is entered before those of another
one have been worked off (`position_move_iff`).

There is one extruder, and the next transform moves where it is told to.
-/

set_option linter.unusedSectionVars false

namespace Thinker

variable {K : Type} [AddCommGroup K] [LinearOrder K]

/-- `ExcludeObject`. `next` is the position of the next transform and `moves` what it was given. -/
structure ExcludeObject (K : Type) where
  /-- Whether `next_transform` is set. -/
  nextTransform : Bool
  next : Coord K
  moves : List (Coord K × K)
  lastPosition : Coord K
  lastPositionExtruded : Coord K
  lastPositionExcluded : Coord K
  /-- The entry of `extrusion_offsets` for the extruder. -/
  extrusionOffset : Option (Coord K)
  maxPositionExtruded : K
  maxPositionExcluded : K
  extruderAdj : K
  initialExtrusionMoves : ℕ
  objects : List String
  excludedObjects : List String
  currentObject : Option String
  inExcludedRegion : Bool

namespace ExcludeObject

variable (s : ExcludeObject K)

/-- `_register_transform`. -/
def registerTransform (tuningTower : Bool) : ExcludeObject K :=
  if s.nextTransform ∨ tuningTower then s
  else { s with
    nextTransform := true
    extrusionOffset := some 0
    maxPositionExtruded := 0
    maxPositionExcluded := 0
    extruderAdj := 0
    initialExtrusionMoves := 5
    lastPosition := s.next
    lastPositionExtruded := s.next
    lastPositionExcluded := s.next }

/-- `_unregister_transform`. -/
def unregisterTransform (tuningTower : Bool) : ExcludeObject K :=
  if tuningTower then s else { s with nextTransform := false }

/-- `_reset_state`. -/
def resetState : ExcludeObject K :=
  { s with objects := [], excludedObjects := [], currentObject := none, inExcludedRegion := false }

/-- `_reset_file`. -/
def resetFile (tuningTower : Bool) : ExcludeObject K :=
  s.resetState.unregisterTransform tuningTower

/-- `_get_extrusion_offsets`. -/
def offset : Coord K :=
  s.extrusionOffset.getD 0

/-- What `get_position` returns. -/
def position : Coord K := fun i => s.next i + s.offset i

/-- `get_position`. -/
def getPosition : ExcludeObject K :=
  { s with extrusionOffset := some s.offset, lastPosition := s.position }

/-- The corrections of `_normal_move` after an excluded object : the offsets and what is left of
`extruder_adj`. -/
def workOff (newpos : Coord K) : Coord K × K :=
  let offset := s.offset
  let excluded := s.lastPositionExcluded
  let adj := s.extruderAdj
  let xy := (offset 0 ≠ 0 ∨ offset 1 ≠ 0) ∧ (newpos 0 ≠ excluded 0 ∨ newpos 1 ≠ excluded 1)
  let offset := if xy then ![0, 0, 0, offset 3 + adj] else offset
  let adj := if xy then 0 else adj
  let offset := if offset 2 ≠ 0 ∧ newpos 2 ≠ excluded 2 then Function.update offset 2 0 else offset
  if adj ≠ 0 ∧ newpos 3 ≠ excluded 3 then (Function.update offset 3 (offset 3 + adj), 0)
  else (offset, adj)

/-- `_normal_move`. -/
def normalMove (newpos : Coord K) (speed : K) : ExcludeObject K :=
  let extrudes := 0 < s.initialExtrusionMoves ∧ s.lastPosition 3 ≠ newpos 3
  let (offset, adj) := s.workOff newpos
  let target : Coord K := fun i => newpos i - offset i
  { s with
    initialExtrusionMoves := if extrudes then s.initialExtrusionMoves - 1 else s.initialExtrusionMoves
    lastPosition := newpos
    lastPositionExtruded := newpos
    maxPositionExtruded := max s.maxPositionExtruded (newpos 3)
    extrusionOffset := some offset
    extruderAdj := adj
    next := target
    moves := s.moves ++ [(target, speed)] }

/-- `_ignore_move`. -/
def ignoreMove (newpos : Coord K) : ExcludeObject K :=
  { s with
    extrusionOffset := some ![newpos 0 - s.lastPositionExtruded 0,
      newpos 1 - s.lastPositionExtruded 1, newpos 2 - s.lastPositionExtruded 2,
      s.offset 3 + newpos 3 - s.lastPosition 3]
    lastPosition := newpos
    lastPositionExcluded := newpos
    maxPositionExcluded := max s.maxPositionExcluded (newpos 3) }

/-- `_move_into_excluded_region`. -/
def moveIntoExcludedRegion (newpos : Coord K) : ExcludeObject K :=
  { s with inExcludedRegion := true }.ignoreMove newpos

/-- `_move_from_excluded_region`. -/
def moveFromExcludedRegion (newpos : Coord K) (speed : K) : ExcludeObject K :=
  { s with
    inExcludedRegion := false
    extruderAdj := s.maxPositionExcluded - s.lastPositionExcluded 3 -
      (s.maxPositionExtruded - s.lastPositionExtruded 3) }.normalMove newpos speed

/-- `_test_in_excluded_region`. -/
def testInExcludedRegion : Bool :=
  decide (∃ name ∈ s.currentObject, name ∈ s.excludedObjects) &&
    decide (s.initialExtrusionMoves = 0)

/-- `move`. -/
def move (newpos : Coord K) (speed : K) : ExcludeObject K :=
  if s.testInExcludedRegion then
    if s.inExcludedRegion then s.ignoreMove newpos else s.moveIntoExcludedRegion newpos
  else if s.inExcludedRegion then s.moveFromExcludedRegion newpos speed
  else s.normalMove newpos speed

/-! ## Commands -/

/-- `sorted`. -/
def sorted (names : List String) : List String :=
  names.insertionSort fun a b => decide (a ≤ b) = true

/-- `_add_object_definition`. -/
def addObjectDefinition (name : String) : ExcludeObject K :=
  { s with objects := sorted (s.objects ++ [name]) }

/-- `_exclude_object`. -/
def excludeObject (name : String) (tuningTower : Bool) : ExcludeObject K :=
  let s := s.registerTransform tuningTower
  if name ∈ s.excludedObjects then s
  else { s with excludedObjects := sorted (s.excludedObjects ++ [name]) }

/-- `_unexclude_object`. -/
def unexcludeObject (name : String) : ExcludeObject K :=
  if name ∈ s.excludedObjects then { s with excludedObjects := sorted (s.excludedObjects.erase name) }
  else s

/-- Whether a parameter is there and not empty. -/
def isSet (param : Option String) : Bool :=
  param.any (· ≠ "")

variable (upper : String → String)

/-- `cmd_EXCLUDE_OBJECT_START`. Without a name it raises an error. -/
def cmdExcludeObjectStart (name : Option String) : ExcludeObject K :=
  match name with
  | none => s
  | some name =>
    let name := upper name
    let s := if name ∈ s.objects then s else s.addObjectDefinition name
    { s with currentObject := some name }

/-- `cmd_EXCLUDE_OBJECT_END`. A name that does not match is reported. -/
def cmdExcludeObjectEnd : ExcludeObject K :=
  if s.currentObject = none ∧ s.nextTransform then s else { s with currentObject := none }

/-- `cmd_EXCLUDE_OBJECT`. Without a current object that is to be excluded it raises an error. -/
def cmdExcludeObject (reset current name : Option String) (tuningTower : Bool) : ExcludeObject K :=
  let name := upper (name.getD "")
  if isSet reset then
    if name ≠ "" then s.unexcludeObject name else { s with excludedObjects := [] }
  else if name ≠ "" then
    if upper name ∈ s.excludedObjects then s else s.excludeObject (upper name) tuningTower
  else if isSet current then
    match s.currentObject with
    | none => s
    | some object => if object = "" then s else s.excludeObject object tuningTower
  else s

/-- `cmd_EXCLUDE_OBJECT_DEFINE`. Of a definition only the name is kept. -/
def cmdExcludeObjectDefine (reset name : Option String) (tuningTower : Bool) : ExcludeObject K :=
  let name := upper (name.getD "")
  if isSet reset then s.resetFile tuningTower
  else if name ≠ "" then s.addObjectDefinition (upper name)
  else s

end ExcludeObject

/-- What happens to the transform. Its own moves are possible only once it is registered, and
before that the head moves without it. -/
inductive ExcludeEvent (K : Type) where
  | start (name : Option String)
  | finish
  | exclude (reset current name : Option String) (tuningTower : Bool)
  | define (reset name : Option String) (tuningTower : Bool)
  | resetFile (tuningTower : Bool)
  | getPosition
  | move (newpos : Coord K) (speed : K)
  | moveWithout (newpos : Coord K)

/-- The transform, from its creation on. `upper` is `str.upper`. -/
def excluding (upper : String → String) : System (ExcludeObject K) (ExcludeEvent K) where
  init s := s.nextTransform = false ∧ s.inExcludedRegion = false
  next s
    | .start name => some (s.cmdExcludeObjectStart upper name)
    | .finish => some s.cmdExcludeObjectEnd
    | .exclude reset current name tuningTower =>
      some (s.cmdExcludeObject upper reset current name tuningTower)
    | .define reset name tuningTower => some (s.cmdExcludeObjectDefine upper reset name tuningTower)
    | .resetFile tuningTower => some (s.resetFile tuningTower)
    | .getPosition => if s.nextTransform then some s.getPosition else none
    | .move newpos speed => if s.nextTransform then some (s.move newpos speed) else none
    | .moveWithout newpos => if s.nextTransform then none else some { s with next := newpos }

namespace ExcludeObject

/-! ## The position after a move -/

/-- If a move is left out, the head is at `last_position_extruded`. -/
def Aligned (s : ExcludeObject K) : Prop :=
  s.testInExcludedRegion = true → ∀ i : Fin 4, i ≠ 3 → s.next i = s.lastPositionExtruded i

instance (s : ExcludeObject K) : Decidable s.Aligned :=
  inferInstanceAs (Decidable (_ → _))

variable {s : ExcludeObject K}

theorem position_normalMove (newpos : Coord K) (speed : K) :
    (s.normalMove newpos speed).position = newpos := by
  funext i
  show newpos i - (s.workOff newpos).1 i + (s.workOff newpos).1 i = newpos i
  exact sub_add_cancel _ _

theorem position_ignoreMove_extruder (h : s.position 3 = s.lastPosition 3) (newpos : Coord K) :
    (s.ignoreMove newpos).position 3 = newpos 3 := by
  show s.next 3 + (s.offset 3 + newpos 3 - s.lastPosition 3) = newpos 3
  rw [← h]
  unfold position
  abel

theorem position_ignoreMove (newpos : Coord K) {i : Fin 4} (hi : i ≠ 3) :
    (s.ignoreMove newpos).position i = newpos i ↔ s.next i = s.lastPositionExtruded i := by
  have heq : (s.ignoreMove newpos).position i =
      s.next i + (newpos i - s.lastPositionExtruded i) := by
    unfold position ignoreMove offset
    fin_cases i
    · rfl
    · rfl
    · rfl
    · exact absurd rfl hi
  rw [heq, add_sub_left_comm, add_eq_left, sub_eq_zero]

/-- After a move that is left out the position is its target exactly if the head was at
`last_position_extruded`. -/
theorem position_ignoreMove_iff (h : s.position 3 = s.lastPosition 3) (newpos : Coord K) :
    (s.ignoreMove newpos).position = newpos ↔
      ∀ i : Fin 4, i ≠ 3 → s.next i = s.lastPositionExtruded i := by
  constructor
  · intro heq i hi
    exact (position_ignoreMove newpos hi).1 (congrFun heq i)
  · intro heq
    funext i
    by_cases hi : i = 3
    · rw [hi]
      exact position_ignoreMove_extruder h newpos
    · exact (position_ignoreMove newpos hi).2 (heq i hi)

/-- What a move does : it is left out, or made with the offsets that are left. -/
theorem move_cases (s : ExcludeObject K) (newpos : Coord K) (speed : K) :
    (s.testInExcludedRegion = true ∧ ∃ inRegion, s.move newpos speed =
      { s with inExcludedRegion := inRegion }.ignoreMove newpos) ∨
    (s.testInExcludedRegion = false ∧ ∃ inRegion adj, s.move newpos speed =
      { s with inExcludedRegion := inRegion, extruderAdj := adj }.normalMove newpos speed) := by
  unfold move
  cases htest : s.testInExcludedRegion with
  | true =>
    left
    refine ⟨rfl, ?_⟩
    rw [if_pos rfl]
    split_ifs
    · exact ⟨s.inExcludedRegion, rfl⟩
    · exact ⟨true, rfl⟩
  | false =>
    right
    refine ⟨rfl, ?_⟩
    rw [if_neg Bool.false_ne_true]
    split_ifs
    · exact ⟨false, _, rfl⟩
    · exact ⟨s.inExcludedRegion, s.extruderAdj, rfl⟩

theorem position_move_iff (h : s.position 3 = s.lastPosition 3) (newpos : Coord K) (speed : K) :
    (s.move newpos speed).position = newpos ↔ s.Aligned := by
  unfold Aligned
  obtain ⟨htest, inRegion, heq⟩ | ⟨htest, inRegion, adj, heq⟩ := s.move_cases newpos speed
  · rw [heq, htest, position_ignoreMove_iff (by exact h)]
    simp
  · rw [heq, position_normalMove, htest]
    simp

/-! ## What holds in every state -/

/-- A command that is no move leaves the positions and the offset of a registered transform. -/
structure Keeps (s t : ExcludeObject K) : Prop where
  nextTransform : t.nextTransform = true → s.nextTransform = true
  next : t.next = s.next
  offset : t.offset = s.offset
  lastPosition : t.lastPosition = s.lastPosition
  lastPositionExcluded : t.lastPositionExcluded = s.lastPositionExcluded

/-- A transform that was just registered. -/
structure Registered (t : ExcludeObject K) : Prop where
  offset : t.offset = 0
  lastPosition : t.lastPosition = t.next
  lastPositionExcluded : t.lastPositionExcluded = t.next

theorem keeps_or_registered_excludeObject (s : ExcludeObject K) (name : String)
    (tuningTower : Bool) : Keeps s (s.excludeObject name tuningTower) ∨
      Registered (s.excludeObject name tuningTower) := by
  unfold excludeObject registerTransform
  by_cases hnone : s.nextTransform ∨ tuningTower
  · left
    simp only [if_pos hnone]
    split_ifs <;> exact ⟨id, rfl, rfl, rfl, rfl⟩
  · right
    simp only [if_neg hnone]
    split_ifs <;> exact ⟨rfl, rfl, rfl⟩

theorem keeps_resetFile (s : ExcludeObject K) (tuningTower : Bool) :
    Keeps s (s.resetFile tuningTower) := by
  unfold resetFile unregisterTransform
  split_ifs
  · exact ⟨id, rfl, rfl, rfl, rfl⟩
  · exact ⟨fun h => absurd h Bool.false_ne_true, rfl, rfl, rfl, rfl⟩

variable {upper : String → String}

/-- What a step can do. -/
theorem step_cases {a : ExcludeEvent K} {t : ExcludeObject K}
    (h : (excluding upper).next s a = some t) :
    Keeps s t ∨ Registered t ∨ t.nextTransform = false ∨
      (s.nextTransform = true ∧ t = s.getPosition) ∨
      ∃ newpos speed, a = .move newpos speed ∧ s.nextTransform = true ∧
        t = s.move newpos speed := by
  have hkeeps : Keeps s s := ⟨id, rfl, rfl, rfl, rfl⟩
  cases a with
  | start name =>
    obtain rfl := Option.some_inj.1 h
    left
    unfold cmdExcludeObjectStart addObjectDefinition
    cases name with
    | none => exact hkeeps
    | some name =>
      dsimp only
      split_ifs <;> exact ⟨id, rfl, rfl, rfl, rfl⟩
  | finish =>
    obtain rfl := Option.some_inj.1 h
    left
    unfold cmdExcludeObjectEnd
    split_ifs <;> exact ⟨id, rfl, rfl, rfl, rfl⟩
  | exclude reset current name tuningTower =>
    obtain rfl := Option.some_inj.1 h
    unfold cmdExcludeObject unexcludeObject
    dsimp only
    split_ifs
    · exact Or.inl ⟨id, rfl, rfl, rfl, rfl⟩
    · exact Or.inl hkeeps
    · exact Or.inl ⟨id, rfl, rfl, rfl, rfl⟩
    · exact Or.inl hkeeps
    · exact (keeps_or_registered_excludeObject _ _ _).imp_right Or.inl
    · cases s.currentObject with
      | none => exact Or.inl hkeeps
      | some object =>
        dsimp only
        split_ifs
        · exact Or.inl hkeeps
        · exact (keeps_or_registered_excludeObject _ _ _).imp_right Or.inl
    · exact Or.inl hkeeps
  | define reset name tuningTower =>
    obtain rfl := Option.some_inj.1 h
    left
    unfold cmdExcludeObjectDefine addObjectDefinition
    dsimp only
    split_ifs
    · exact keeps_resetFile s tuningTower
    · exact ⟨id, rfl, rfl, rfl, rfl⟩
    · exact hkeeps
  | resetFile tuningTower =>
    obtain rfl := Option.some_inj.1 h
    exact Or.inl (keeps_resetFile s tuningTower)
  | getPosition =>
    obtain ⟨hreg, h⟩ := Option.ite_none_right_eq_some.1 h
    exact Or.inr (Or.inr (Or.inr (Or.inl ⟨hreg, (Option.some_inj.1 h).symm⟩)))
  | move newpos speed =>
    obtain ⟨hreg, h⟩ := Option.ite_none_right_eq_some.1 h
    exact Or.inr (Or.inr (Or.inr (Or.inr ⟨_, _, rfl, hreg, (Option.some_inj.1 h).symm⟩)))
  | moveWithout newpos =>
    obtain ⟨hreg, h⟩ := Option.ite_none_left_eq_some.1 h
    obtain rfl := Option.some_inj.1 h
    exact Or.inr (Or.inr (Or.inl (by simpa using hreg)))

/-- The extruder is where the last move or reading says. -/
theorem position_extruder (h : (excluding upper).Reachable s) (hreg : s.nextTransform = true) :
    s.position 3 = s.lastPosition 3 := by
  refine h.invariant (I := fun s : ExcludeObject K => s.nextTransform = true →
    s.position 3 = s.lastPosition 3) ?_ ?_ hreg
  · rintro s ⟨hnone, -⟩ hreg
    rw [hnone] at hreg
    cases hreg
  · rintro s a t hs - ht hreg
    obtain hk | hr | hnone | ⟨-, rfl⟩ | ⟨newpos, speed, -, hreg', rfl⟩ := step_cases ht
    · have := hs (hk.nextTransform hreg)
      unfold position at this ⊢
      rwa [hk.next, hk.offset, hk.lastPosition]
    · rw [hr.lastPosition, position, hr.offset]
      exact add_zero _
    · rw [hnone] at hreg
      cases hreg
    · rfl
    · obtain ⟨-, inRegion, heq⟩ | ⟨-, inRegion, adj, heq⟩ := s.move_cases newpos speed
      · rw [heq]
        exact position_ignoreMove_extruder (hs hreg') newpos
      · rw [heq, position_normalMove]
        rfl

/-! ## Moves of the extruder alone -/

/-- Where there are offsets, the g-code is at the end of the excluded object. -/
def AtExcluded (s : ExcludeObject K) (offset pos : Coord K) : Prop :=
  (offset 0 ≠ 0 ∨ offset 1 ≠ 0 →
    pos 0 = s.lastPositionExcluded 0 ∧ pos 1 = s.lastPositionExcluded 1) ∧
  (offset 2 ≠ 0 → pos 2 = s.lastPositionExcluded 2)

/-- The offsets that are left have not been worked off by the move. -/
theorem atExcluded_workOff (newpos : Coord K) : s.AtExcluded (s.workOff newpos).1 newpos := by
  unfold AtExcluded workOff
  dsimp only
  by_cases hxy : (s.offset 0 ≠ 0 ∨ s.offset 1 ≠ 0) ∧
      (newpos 0 ≠ s.lastPositionExcluded 0 ∨ newpos 1 ≠ s.lastPositionExcluded 1)
  · simp only [if_pos hxy]
    split_ifs <;> simp
  · simp only [if_neg hxy]
    push Not at hxy
    split_ifs with hz hadj hadj <;> simp_all

/-- A move that stays where the g-code is works no offset off. -/
theorem workOff_of_atExcluded {newpos : Coord K} (h : s.AtExcluded s.offset newpos) {i : Fin 4}
    (hi : i ≠ 3) : (s.workOff newpos).1 i = s.offset i := by
  obtain ⟨hxy, hz⟩ := h
  have hxy : ¬((s.offset 0 ≠ 0 ∨ s.offset 1 ≠ 0) ∧
      (newpos 0 ≠ s.lastPositionExcluded 0 ∨ newpos 1 ≠ s.lastPositionExcluded 1)) := by
    rintro ⟨hoff, hne⟩
    obtain ⟨h0, h1⟩ := hxy hoff
    exact hne.elim (fun h => h h0) fun h => h h1
  have hz : ¬(s.offset 2 ≠ 0 ∧ newpos 2 ≠ s.lastPositionExcluded 2) := fun ⟨hoff, hne⟩ =>
    hne (hz hoff)
  unfold workOff
  simp only [if_neg hxy, if_neg hz]
  split_ifs
  · exact Function.update_of_ne hi _ _
  · rfl

/-- A move is left out only with the head in place. -/
def AlignedStep (s : ExcludeObject K) : ExcludeEvent K → Prop
  | .move _ _ => s.Aligned
  | _ => True

instance (s : ExcludeObject K) (a : ExcludeEvent K) : Decidable (s.AlignedStep a) := by
  cases a <;> unfold AlignedStep <;> infer_instance

/-- Where there are offsets, the position is at the end of the excluded object. -/
theorem atExcluded_of_reachable (h : (excluding upper).ReachableBy AlignedStep s)
    (hreg : s.nextTransform = true) : s.AtExcluded s.offset s.position := by
  refine (h.invariant (I := fun s : ExcludeObject K => s.nextTransform = true →
    s.AtExcluded s.offset s.position ∧ s.position 3 = s.lastPosition 3) ?_ ?_ hreg).1
  · rintro s ⟨hnone, -⟩ hreg
    rw [hnone] at hreg
    cases hreg
  · rintro s a t hs hC ht hreg
    obtain hk | hr | hnone | ⟨hreg', rfl⟩ | ⟨newpos, speed, rfl, hreg', rfl⟩ := step_cases ht
    · have := hs (hk.nextTransform hreg)
      unfold AtExcluded position at this ⊢
      rwa [hk.next, hk.offset, hk.lastPosition, hk.lastPositionExcluded]
    · unfold AtExcluded position
      rw [hr.lastPosition, hr.offset]
      exact ⟨⟨fun h => absurd h (by simp), fun h => absurd rfl h⟩, add_zero _⟩
    · rw [hnone] at hreg
      cases hreg
    · exact ⟨(hs hreg').1, rfl⟩
    · have hpos := (position_move_iff (hs hreg').2 newpos speed).2 hC
      obtain ⟨htest, inRegion, heq⟩ | ⟨-, inRegion, adj, heq⟩ := s.move_cases newpos speed
      · rw [hpos, heq]
        exact ⟨⟨fun _ => ⟨rfl, rfl⟩, fun _ => rfl⟩, rfl⟩
      · rw [hpos, heq]
        exact ⟨atExcluded_workOff newpos, rfl⟩

/-- After a move the position is its target exactly if the move was not left out, or the head
was at `last_position_extruded`. Where all moves meet this, a move of the extruder alone keeps
the head in its place. -/
theorem move_of_reachable (h : (excluding upper).Reachable s) (hreg : s.nextTransform = true)
    (newpos : Coord K) (speed : K) :
    ((s.move newpos speed).position = newpos ↔ s.Aligned) ∧
    ((excluding upper).ReachableBy AlignedStep s → (∀ i ≠ 3, newpos i = s.position i) →
      ∀ i ≠ 3, (s.move newpos speed).next i = s.next i) := by
  refine ⟨position_move_iff (position_extruder h hreg) newpos speed, fun hC hnew i hi => ?_⟩
  obtain ⟨htest, inRegion, heq⟩ | ⟨-, inRegion, adj, heq⟩ := s.move_cases newpos speed
  · rw [heq]
    rfl
  · rw [heq]
    have hat : s.AtExcluded s.offset newpos := by
      have := atExcluded_of_reachable hC hreg
      unfold AtExcluded at this ⊢
      rwa [hnew 0 (by decide), hnew 1 (by decide), hnew 2 (by decide)]
    show newpos i - (({ s with inExcludedRegion := inRegion, extruderAdj := adj } :
      ExcludeObject K).workOff newpos).1 i = s.next i
    rw [workOff_of_atExcluded (by exact hat) hi, hnew i hi]
    exact add_sub_cancel_right _ _

/-- Before the transform is registered, with the head at the origin. -/
def unregistered : ExcludeObject ℤ where
  nextTransform := false
  next := 0
  moves := []
  lastPosition := 0
  lastPositionExtruded := 0
  lastPositionExcluded := 0
  extrusionOffset := none
  maxPositionExtruded := 0
  maxPositionExcluded := 0
  extruderAdj := 0
  initialExtrusionMoves := 0
  objects := []
  excludedObjects := []
  currentObject := none
  inExcludedRegion := false

/-- Object B is excluded and left with a move of the extruder. -/
def leavingB : List (ExcludeEvent ℤ) :=
  [.exclude none none (some "B") false, .move ![0, 0, 0, 1] 1, .move ![0, 0, 0, 2] 1,
    .move ![0, 0, 0, 3] 1, .move ![0, 0, 0, 4] 1, .move ![0, 0, 0, 5] 1, .start (some "B"),
    .move ![10, 0, 0, 5] 1, .finish, .move ![10, 0, 0, 6] 1]

/-- The next move goes on where the g-code is. -/
theorem move_of_reachable_leaving :
    ∃ s : ExcludeObject ℤ, (excluding id).run unregistered leavingB = some s ∧
      (s.move ![10, 0, 0, 7] 1).position = ![10, 0, 0, 7] ∧
      ∀ i ≠ 3, (s.move ![10, 0, 0, 7] 1).next i = s.next i := by
  have hrun : ((excluding id).run unregistered leavingB).map
      (fun s => decide (s.nextTransform = true ∧ s.Aligned ∧
        ∀ i ≠ 3, ![10, 0, 0, 7] i = s.position i)) = some true := by decide +kernel
  obtain ⟨s, hs, hok⟩ := Option.map_eq_some_iff.1 hrun
  obtain ⟨hreg, hok, hnew⟩ := of_decide_eq_true hok
  have hinit : (excluding id).init unregistered := ⟨rfl, rfl⟩
  have hC : (excluding id).ReachableBy AlignedStep s :=
    System.ReachableBy.run (.init hinit) (by decide +kernel) hs
  obtain ⟨hiff, honly⟩ :=
    move_of_reachable (System.Reachable.run (.init hinit) hs) hreg ![10, 0, 0, 7] 1
  exact ⟨s, hs, hiff.2 hok, honly hC hnew⟩

/-- Where the next object is excluded too, its first move is taken for one from the wrong
place. -/
theorem not_position_move_leaving :
    ∃ s : ExcludeObject ℤ, (excluding id).Reachable s ∧ s.nextTransform = true ∧
      s.position = ![10, 0, 0, 6] ∧
      (s.move ![20, 0, 0, 6] 1).position ≠ ![20, 0, 0, 6] := by
  have hrun : ((excluding id).run unregistered (leavingB ++ [.start (some "B")])).map
      (fun s => (s.nextTransform, s.position, (s.move ![20, 0, 0, 6] 1).position)) =
      some (true, ![10, 0, 0, 6], ![10, 0, 0, 6]) := by decide +kernel
  obtain ⟨s, hs, heq⟩ := Option.map_eq_some_iff.1 hrun
  obtain ⟨hreg, heq⟩ := Prod.mk.inj heq
  obtain ⟨hpos, hmove⟩ := Prod.mk.inj heq
  refine ⟨s, System.Reachable.run (.init ⟨rfl, rfl⟩) hs, hreg, hpos, ?_⟩
  rw [hmove]
  decide

end ExcludeObject

end Thinker
