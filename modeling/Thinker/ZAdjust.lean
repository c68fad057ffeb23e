import Thinker.Move
import Mathlib.Data.Rat.Sqrt
import Mathlib.Data.List.Sort

/-!
# Adjusting the z steppers

`ZAdjustHelper` of `z_tilt.py`. All z steppers are taken off the queue of moves and put back one by
one, the one with the largest adjustment first; after each the print head goes up by what the next
one has to do less, and this becomes its position. So every stepper goes up by what its adjustment
is above the least one (`adjusts_adjustSteppers`), and by no more where a move is refused half-way.

A step generator follows the moves of the queue that it is attached to. Moves are refused by
`check_move` of the kinematics, before they are queued. A move of less than a nanometre is not made.
-/

set_option linter.unusedSectionVars false

namespace Thinker

variable {K : Type*} [Field K] [LinearOrder K] [IsStrictOrderedRing K]

/-- A z stepper. -/
structure ZStepper (K : Type*) where
  /-- Whether it follows the queue of the toolhead. -/
  trapq : Bool
  commandedPos : K
  /-- How far it went up, move by move. -/
  moved : List K

namespace ZStepper

/-- A stepper that follows a move. -/
def follow (z : ZStepper K) (dz : K) : ZStepper K :=
  if z.trapq then { z with commandedPos := z.commandedPos + dz, moved := z.moved ++ [dz] } else z

end ZStepper

/-- The toolhead with its z steppers. -/
structure ZGantry (n : ℕ) (K : Type*) where
  commandedPos : Coord K
  zSteppers : Fin n → ZStepper K

namespace ZGantry

variable {n : ℕ} (sqrt : K → K) (th : MoveLimits K) (checkMove : Move K → Bool)
  (s : ZGantry n K)

/-- The toolhead at a position, with steppers that have not moved. -/
def start (n : ℕ) (pos : Coord K) : ZGantry n K :=
  ⟨pos, fun _ => ⟨true, pos 2, []⟩⟩

/-- `set_trapq` of a stepper. -/
def attach (i : Fin n) : ZGantry n K :=
  { s with zSteppers := Function.update s.zSteppers i { s.zSteppers i with trapq := true } }

/-- `set_trapq` of all steppers. -/
def setTrapqs (trapq : Bool) : ZGantry n K :=
  { s with zSteppers := fun i => { s.zSteppers i with trapq := trapq } }

/-- `move`, with the steps that it makes. -/
def move (newpos : Coord K) (speed : K) : Option (ZGantry n K) :=
  let m := Move.new sqrt th s.commandedPos newpos speed
  if m.moveD = 0 then some s
  else if m.isKinematicMove && !checkMove m then none
  else some ⟨m.endPos, fun i => (s.zSteppers i).follow (m.axesD 2)⟩

/-- `set_position`. -/
def setPosition (newpos : Coord K) : ZGantry n K :=
  ⟨newpos, fun i => { s.zSteppers i with commandedPos := newpos 2 }⟩

/-- The loop of `adjust_steppers`, with the steppers that are left. An error leaves all steppers
attached. -/
def adjustLoop (speed zLow : K) :
    List (K × Fin n) → Coord K → ZGantry n K → Except (ZGantry n K) (Coord K × ZGantry n K)
  | (_, stepper) :: (nextStepperOffset, next) :: rest, curpos, s =>
    let s := s.attach stepper
    let curpos := Function.update curpos 2 (zLow + nextStepperOffset)
    match s.move sqrt th checkMove curpos speed with
    | none => .error (s.setTrapqs true)
    | some s =>
      adjustLoop speed zLow ((nextStepperOffset, next) :: rest) curpos (s.setPosition curpos)
  | _, curpos, s => .ok (curpos, s)

/-- `positions` of `adjust_steppers`. -/
def positions (adjustments : Fin n → K) : List (K × Fin n) :=
  ((List.finRange n).map fun i => (-adjustments i, i)).insertionSort fun p q => p.1 ≤ q.1

/-- `adjust_steppers`. -/
def adjustSteppers (adjustments : Fin n → K) (speed : K) : Except (ZGantry n K) (ZGantry n K) :=
  match positions adjustments with
  | [] => .error s
  | (firstStepperOffset, stepper) :: rest => do
    let zLow := s.commandedPos 2 - firstStepperOffset
    let (curpos, s) ← adjustLoop sqrt th checkMove speed zLow
      ((firstStepperOffset, stepper) :: rest) s.commandedPos (s.setTrapqs false)
    let s := s.attach (((firstStepperOffset, stepper) :: rest).getLast (List.cons_ne_nil _ _)).2
    return s.setPosition (Function.update curpos 2 (curpos 2 + firstStepperOffset))

/-! ## What a move does -/

end ZGantry

namespace ZStepper

/-- A stepper that goes up, or stays where it is because it is detached. -/
structure Raised (dz : K) (z z' : ZStepper K) : Prop where
  trapq : z'.trapq = z.trapq
  moved : ∃ up, z'.moved = z.moved ++ up ∧ up.sum = (if z.trapq then dz else 0) ∧ ∀ d ∈ up, 0 ≤ d

theorem Raised.sum {dz : K} {z z' : ZStepper K} (h : Raised dz z z') :
    z'.moved.sum = z.moved.sum + if z.trapq then dz else 0 := by
  obtain ⟨up, hmoved, hsum, -⟩ := h.moved
  rw [hmoved, List.sum_append, hsum]

theorem Raised.nonneg {dz : K} {z z' : ZStepper K} (h : Raised dz z z')
    (hz : ∀ d ∈ z.moved, 0 ≤ d) : ∀ d ∈ z'.moved, 0 ≤ d := by
  obtain ⟨up, hmoved, -, hup⟩ := h.moved
  intro d hd
  rw [hmoved] at hd
  rcases List.mem_append.1 hd with hd | hd
  · exact hz d hd
  · exact hup d hd

theorem raised_zero (z : ZStepper K) : Raised 0 z z :=
  ⟨rfl, [], (List.append_nil _).symm, by simp, by simp⟩

theorem raised_follow {dz : K} (hdz : 0 ≤ dz) (z : ZStepper K) : Raised dz z (z.follow dz) := by
  unfold follow
  split_ifs with htrapq
  · exact ⟨rfl, [dz], rfl, by simp [htrapq], by simpa using hdz⟩
  · exact ⟨rfl, [], (List.append_nil _).symm, by simp [htrapq], by simp⟩

end ZStepper

namespace ZGantry

variable {n : ℕ} {sqrt : K → K} {th : MoveLimits K} {checkMove : Move K → Bool} {s t : ZGantry n K}

/-- A move up goes all the way, or it is a tiny one and is not made. -/
theorem raised_of_move (hsqrt : ∀ x, sqrt (x * x) = |x|) {z speed : K}
    (hle : s.commandedPos 2 ≤ z)
    (h : s.move sqrt th checkMove (Function.update s.commandedPos 2 z) speed = some t) :
    ∃ dz, (∀ i, ZStepper.Raised dz (s.zSteppers i) (t.zSteppers i)) ∧
      (dz = z - s.commandedPos 2 ∨ dz = 0 ∧ z - s.commandedPos 2 < 0.000000001) := by
  have hroot : sqrt ((Function.update s.commandedPos 2 z 0 - s.commandedPos 0) *
      (Function.update s.commandedPos 2 z 0 - s.commandedPos 0) +
      (Function.update s.commandedPos 2 z 1 - s.commandedPos 1) *
        (Function.update s.commandedPos 2 z 1 - s.commandedPos 1) +
      (Function.update s.commandedPos 2 z 2 - s.commandedPos 2) *
        (Function.update s.commandedPos 2 z 2 - s.commandedPos 2)) = z - s.commandedPos 2 := by
    simp [hsqrt, hle]
  rcases lt_or_ge (z - s.commandedPos 2) 0.000000001 with htiny | hgap
  · -- an extrude only move, without extrusion
    have hzero : (Move.new sqrt th s.commandedPos
        (Function.update s.commandedPos 2 z) speed).moveD = 0 := by
      unfold Move.new
      dsimp only
      rw [hroot, if_pos htiny]
      simp
    unfold move at h
    dsimp only at h
    rw [if_pos hzero] at h
    obtain rfl := Option.some_inj.1 h
    exact ⟨0, fun i => ZStepper.raised_zero _, Or.inr ⟨rfl, htiny⟩⟩
  · have hnew : (Move.new sqrt th s.commandedPos
        (Function.update s.commandedPos 2 z) speed).axesD 2 = z - s.commandedPos 2 ∧
        (Move.new sqrt th s.commandedPos
          (Function.update s.commandedPos 2 z) speed).moveD = z - s.commandedPos 2 := by
      unfold Move.new
      dsimp only
      rw [hroot, if_neg (not_lt.2 hgap)]
      simp
    have hpos : z - s.commandedPos 2 ≠ 0 := by
      intro hzero
      rw [hzero] at hgap
      norm_num at hgap
    unfold move at h
    dsimp only at h
    rw [hnew.1, hnew.2, if_neg hpos] at h
    split_ifs at h
    obtain rfl := Option.some_inj.1 h
    exact ⟨_, fun i => ZStepper.raised_follow (sub_nonneg.2 hle) _, Or.inl rfl⟩

/-! ## Half-way through the steppers -/

@[simp] theorem trapq_attach (i j : Fin n) :
    ((s.attach i).zSteppers j).trapq = true ↔ j = i ∨ (s.zSteppers j).trapq = true := by
  by_cases hj : j = i
  · subst hj
    simp [attach]
  · simp [attach, hj]

@[simp] theorem commandedPos_attach (i j : Fin n) :
    ((s.attach i).zSteppers j).commandedPos = (s.zSteppers j).commandedPos := by
  by_cases hj : j = i
  · subst hj
    simp [attach]
  · simp [attach, hj]

@[simp] theorem moved_attach (i j : Fin n) :
    ((s.attach i).zSteppers j).moved = (s.zSteppers j).moved := by
  by_cases hj : j = i
  · subst hj
    simp [attach]
  · simp [attach, hj]

@[simp] theorem moved_setTrapqs (trapq : Bool) (j : Fin n) :
    ((s.setTrapqs trapq).zSteppers j).moved = (s.zSteppers j).moved := rfl

@[simp] theorem moved_setPosition (newpos : Coord K) (j : Fin n) :
    ((s.setPosition newpos).zSteppers j).moved = (s.zSteppers j).moved := rfl

/-- The steppers at the position of the toolhead, after moves up only. -/
structure Risen (s : ZGantry n K) : Prop where
  commandedPos : ∀ i, (s.zSteppers i).commandedPos = s.commandedPos 2
  upwards : ∀ i, ∀ d ∈ (s.zSteppers i).moved, 0 ≤ d

theorem Risen.attach (h : s.Risen) (i : Fin n) : (s.attach i).Risen where
  commandedPos j := (commandedPos_attach i j).trans (h.commandedPos j)
  upwards j := by
    rw [moved_attach]
    exact h.upwards j

theorem Risen.setTrapqs (h : s.Risen) (trapq : Bool) : (s.setTrapqs trapq).Risen :=
  ⟨h.commandedPos, h.upwards⟩

variable {adjustments : Fin n → K}

/-- Each stepper has gone up by what it has to do above an offset, less a slack. -/
def RisenTo (adjustments : Fin n → K) (offset slack : K) (s : ZGantry n K) : Prop :=
  ∀ i, (s.zSteppers i).moved.sum ≤ max 0 (offset + adjustments i) ∧
    max 0 (offset + adjustments i) - slack ≤ (s.zSteppers i).moved.sum

/-- The steppers that are left are sorted, and no others are detached. -/
structure Left (adjustments : Fin n → K) (left : List (K × Fin n)) (s : ZGantry n K) : Prop where
  sorted : left.Pairwise fun p q => p.1 ≤ q.1
  nodup : (left.map Prod.snd).Nodup
  offset_eq : ∀ p ∈ left, p.1 = -adjustments p.2
  trapq : ∀ i, (s.zSteppers i).trapq = true ↔ i ∉ left.map Prod.snd
  done : ∀ i ∉ left.map Prod.snd, ∀ p ∈ left, -adjustments i ≤ p.1

theorem Left.tail {p q : K × Fin n} {rest : List (K × Fin n)}
    (h : Left adjustments (p :: q :: rest) s) : Left adjustments (q :: rest) (s.attach p.2) := by
  obtain ⟨hp, hsorted⟩ := List.pairwise_cons.1 h.sorted
  obtain ⟨hnotin, hnodup⟩ := List.nodup_cons.1 h.nodup
  have hmem : ∀ i, i ∉ (q :: rest).map Prod.snd ↔ i = p.2 ∨ i ∉ (p :: q :: rest).map Prod.snd := by
    intro i
    rw [List.map_cons (a := p), List.mem_cons (a := i)]
    by_cases hi : i = p.2
    · simpa [hi] using hnotin
    · simp [hi]
  refine ⟨hsorted, hnodup, fun r hr => h.offset_eq r (List.mem_cons_of_mem _ hr), fun i => ?_,
    fun i hi r hr => ?_⟩
  · rw [trapq_attach, hmem, h.trapq]
  · rcases (hmem i).1 hi with rfl | hi
    · rw [← h.offset_eq p List.mem_cons_self]
      exact hp r hr
    · exact h.done i hi r (List.mem_cons_of_mem _ hr)

/-- Adjustments that are closer than a nanometre are closer than `eps`. -/
def Gaps (adjustments : Fin n → K) (eps : K) : Prop :=
  ∀ i j, |adjustments i - adjustments j| < 0.000000001 → |adjustments i - adjustments j| ≤ eps

/-- A move to the next offset. -/
theorem risenTo_of_raised {p q : K × Fin n} {rest : List (K × Fin n)} {dz slack eps : K}
    (hleft : Left adjustments (p :: q :: rest) s) (hto : RisenTo adjustments p.1 slack s)
    (hraised : ∀ i, ZStepper.Raised dz ((s.attach p.2).zSteppers i) (t.zSteppers i))
    (hdz : dz ≤ q.1 - p.1) (heps : q.1 - p.1 - eps ≤ dz) :
    RisenTo adjustments q.1 (slack + eps) t := by
  intro i
  have hpq := (List.pairwise_cons.1 hleft.sorted).1 q List.mem_cons_self
  have htoi := hto i
  rw [(hraised i).sum, moved_attach]
  by_cases hi : i ∈ (q :: rest).map Prod.snd
  · -- the stepper is still detached
    have htrapq : ((s.attach p.2).zSteppers i).trapq ≠ true :=
      fun htrapq => (hleft.tail.trapq i).1 htrapq hi
    obtain ⟨r, hr, rfl⟩ := List.mem_map.1 hi
    have hle : q.1 ≤ r.1 := by
      rcases List.mem_cons.1 hr with rfl | hr
      · exact le_rfl
      · exact (List.pairwise_cons.1 hleft.tail.sorted).1 r hr
    have hoffset := hleft.offset_eq r (List.mem_cons_of_mem _ hr)
    rw [max_eq_left (by linarith)] at htoi
    rw [if_neg htrapq, add_zero, max_eq_left (by linarith)]
    exact ⟨htoi.1, by linarith [htoi.2]⟩
  · have htrapq : ((s.attach p.2).zSteppers i).trapq = true := (hleft.tail.trapq i).2 hi
    have hle : -adjustments i ≤ p.1 := by
      by_cases hip : i = p.2
      · rw [hip, ← hleft.offset_eq p List.mem_cons_self]
      · refine hleft.done i (fun hmem => ?_) p List.mem_cons_self
        rcases List.mem_cons.1 hmem with h | h
        · exact hip h
        · exact hi h
    rw [max_eq_right (by linarith)] at htoi
    rw [if_pos htrapq, max_eq_right (by linarith)]
    exact ⟨by linarith [htoi.1], by linarith [htoi.2]⟩

/-- A pass of the loop. -/
theorem pass_spec (hsqrt : ∀ x, sqrt (x * x) = |x|) {eps : K} (hgaps : Gaps adjustments eps)
    (heps : 0 ≤ eps) {p q : K × Fin n} {rest : List (K × Fin n)} {zLow speed slack : K}
    (hleft : Left adjustments (p :: q :: rest) s) (hto : RisenTo adjustments p.1 slack s)
    (hrisen : s.Risen) (hz : s.commandedPos 2 = zLow + p.1)
    (h : (s.attach p.2).move sqrt th checkMove
      (Function.update s.commandedPos 2 (zLow + q.1)) speed = some t) :
    Left adjustments (q :: rest) (t.setPosition (Function.update s.commandedPos 2 (zLow + q.1))) ∧
      RisenTo adjustments q.1 (slack + eps)
        (t.setPosition (Function.update s.commandedPos 2 (zLow + q.1))) ∧
      (t.setPosition (Function.update s.commandedPos 2 (zLow + q.1))).Risen := by
  have hpq := (List.pairwise_cons.1 hleft.sorted).1 q List.mem_cons_self
  have hp := hleft.offset_eq p List.mem_cons_self
  have hq := hleft.offset_eq q (by simp)
  have hdist : zLow + q.1 - (s.attach p.2).commandedPos 2 = q.1 - p.1 := by
    show zLow + q.1 - s.commandedPos 2 = q.1 - p.1
    rw [hz]
    ring
  obtain ⟨dz, hraised, hdz⟩ := raised_of_move (s := s.attach p.2) hsqrt (z := zLow + q.1)
    (show s.commandedPos 2 ≤ _ by rw [hz]; linarith) h
  rw [hdist] at hdz
  have hbounds : dz ≤ q.1 - p.1 ∧ q.1 - p.1 - eps ≤ dz := by
    rcases hdz with rfl | ⟨rfl, htiny⟩
    · exact ⟨le_rfl, by linarith⟩
    · have habs : |adjustments p.2 - adjustments q.2| = q.1 - p.1 := by
        rw [hp, hq, abs_of_nonneg (by linarith)]
        ring
      have hclose := hgaps p.2 q.2 (habs.trans_lt htiny)
      exact ⟨by linarith, by linarith⟩
  refine ⟨⟨hleft.tail.sorted, hleft.tail.nodup, hleft.tail.offset_eq, fun i => ?_, hleft.tail.done⟩,
    fun i => risenTo_of_raised hleft hto hraised hbounds.1 hbounds.2 i, fun i => rfl,
    fun i => ?_⟩
  · rw [← hleft.tail.trapq i]
    exact iff_of_eq (congrArg (· = true) (hraised i).trapq)
  · exact (hraised i).nonneg ((hrisen.attach p.2).upwards i)

variable (th checkMove) in
/-- The loop raises the steppers to the last offset, or to an earlier one. -/
theorem adjustLoop_spec (hsqrt : ∀ x, sqrt (x * x) = |x|) {eps : K}
    (hgaps : Gaps adjustments eps) (heps : 0 ≤ eps)
    (zLow speed : K) {slack : K} (p : K × Fin n) (rest : List (K × Fin n))
    (hleft : Left adjustments (p :: rest) s) (hto : RisenTo adjustments p.1 slack s)
    (hrisen : s.Risen) (hz : s.commandedPos 2 = zLow + p.1) :
    (∀ curpos t, adjustLoop sqrt th checkMove speed zLow (p :: rest) s.commandedPos s =
        .ok (curpos, t) → t.Risen ∧
          Left adjustments [(p :: rest).getLast (List.cons_ne_nil _ _)] t ∧
          RisenTo adjustments ((p :: rest).getLast (List.cons_ne_nil _ _)).1
            (slack + rest.length * eps) t ∧
          curpos = Function.update s.commandedPos 2
            (zLow + ((p :: rest).getLast (List.cons_ne_nil _ _)).1)) ∧
    ∀ t, adjustLoop sqrt th checkMove speed zLow (p :: rest) s.commandedPos s = .error t →
      t.Risen ∧ (∀ i, (t.zSteppers i).trapq = true) ∧
        ∃ q ∈ p :: rest, ∃ slack', RisenTo adjustments q.1 slack' t := by
  induction rest generalizing p s slack with
  | nil =>
    refine ⟨fun curpos t h => ?_, fun t h => by cases h⟩
    obtain ⟨rfl, rfl⟩ := Prod.mk.inj (Except.ok.inj h)
    refine ⟨hrisen, hleft, ?_, ?_⟩
    · simpa using hto
    · rw [List.getLast_singleton, ← hz, Function.update_eq_self]
  | cons q rest ih =>
    have hloop : adjustLoop sqrt th checkMove speed zLow (p :: q :: rest) s.commandedPos s =
        match (s.attach p.2).move sqrt th checkMove
          (Function.update s.commandedPos 2 (zLow + q.1)) speed with
        | none => .error ((s.attach p.2).setTrapqs true)
        | some u => adjustLoop sqrt th checkMove speed zLow (q :: rest)
            (Function.update s.commandedPos 2 (zLow + q.1))
            (u.setPosition (Function.update s.commandedPos 2 (zLow + q.1))) := rfl
    rw [List.getLast_cons_cons, hloop]
    cases hmove : (s.attach p.2).move sqrt th checkMove
        (Function.update s.commandedPos 2 (zLow + q.1)) speed with
    | none =>
      refine ⟨fun curpos u h => (by cases h), fun u h => ?_⟩
      obtain rfl := Except.error.inj h
      refine ⟨(hrisen.attach p.2).setTrapqs true, fun i => rfl, p, List.mem_cons_self, slack,
        fun i => ?_⟩
      rw [moved_setTrapqs, moved_attach]
      exact hto i
    | some u =>
      obtain ⟨hleft', hto', hrisen'⟩ := pass_spec hsqrt hgaps heps hleft hto hrisen hz hmove
      obtain ⟨hok, herror⟩ := ih q hleft' hto' hrisen'
        (show Function.update s.commandedPos 2 (zLow + q.1) 2 = _ from Function.update_self ..)
      refine ⟨fun curpos t h => ?_, fun t h => ?_⟩
      · obtain ⟨h1, h2, h3, h4⟩ := hok curpos t h
        refine ⟨h1, h2, ?_, h4.trans (Function.update_idem ..)⟩
        rwa [List.length_cons, Nat.cast_succ, add_mul, one_mul, add_comm (_ * eps), ← add_assoc]
      · obtain ⟨h1, h2, r, hr, h3⟩ := herror t h
        exact ⟨h1, h2, r, List.mem_cons_of_mem _ hr, h3⟩

/-! ## The whole adjustment -/

theorem left_positions (adjustments : Fin n → K) (pos : Coord K) :
    Left adjustments (positions adjustments) ((start n pos).setTrapqs false) := by
  have hperm : (positions adjustments).Perm
      ((List.finRange n).map fun i => (-adjustments i, i)) := List.perm_insertionSort _ _
  have hsnd : ((positions adjustments).map Prod.snd).Perm (List.finRange n) := by
    simpa [Function.comp_def] using hperm.map Prod.snd
  have hall : ∀ i, i ∈ (positions adjustments).map Prod.snd :=
    fun i => hsnd.mem_iff.2 (List.mem_finRange i)
  refine ⟨?_, hsnd.nodup_iff.2 (List.nodup_finRange n), fun p hp => ?_, fun i => ?_,
    fun i hi => absurd (hall i) hi⟩
  · have : Std.Total fun p q : K × Fin n => p.1 ≤ q.1 := ⟨fun p q => le_total p.1 q.1⟩
    have : IsTrans (K × Fin n) fun p q => p.1 ≤ q.1 := ⟨fun _ _ _ => le_trans⟩
    exact List.pairwise_insertionSort _ _
  · obtain ⟨i, -, rfl⟩ := List.mem_map.1 (hperm.mem_iff.1 hp)
    rfl
  · exact iff_of_false Bool.false_ne_true (not_not.2 (hall i))

/-- What holds of the steppers after adjusting, returned or not. -/
structure Adjusted (s : ZGantry n K) : Prop extends s.Risen where
  trapq : ∀ i, (s.zSteppers i).trapq = true

theorem adjustSteppers_eq {p : K × Fin n} {rest : List (K × Fin n)} {speed : K}
    (h : positions adjustments = p :: rest) :
    s.adjustSteppers sqrt th checkMove adjustments speed =
      (adjustLoop sqrt th checkMove speed (s.commandedPos 2 - p.1) (p :: rest) s.commandedPos
        (s.setTrapqs false)).map fun r =>
          (r.2.attach ((p :: rest).getLast (List.cons_ne_nil _ _)).2).setPosition
            (Function.update r.1 2 (r.1 2 + p.1)) := by
  unfold adjustSteppers
  rw [h]
  rfl

variable (th checkMove) in
theorem adjustSteppers_spec (hsqrt : ∀ x, sqrt (x * x) = |x|) {m eps : K}
    (hm : IsLeast (Set.range adjustments) m) (hgaps : Gaps adjustments eps) (heps : 0 ≤ eps)
    (pos : Coord K) (speed : K) :
    (∀ t, (start n pos).adjustSteppers sqrt th checkMove adjustments speed = .ok t →
      t.Adjusted ∧ t.commandedPos = Function.update pos 2 (pos 2 - m) ∧
        ∀ i, (t.zSteppers i).moved.sum ≤ adjustments i - m ∧
          adjustments i - m - (n - 1 : K) * eps ≤ (t.zSteppers i).moved.sum) ∧
    ∀ t, (start n pos).adjustSteppers sqrt th checkMove adjustments speed = .error t →
      t.Adjusted ∧ ∀ i, (t.zSteppers i).moved.sum ≤ adjustments i - m := by
  have hleft := left_positions adjustments pos
  have hmem : ∀ i, ∃ p ∈ positions adjustments, p.2 = i := by
    intro i
    by_contra hi
    have htrapq := (hleft.trapq i).2 fun h => hi (by
      obtain ⟨p, hp, rfl⟩ := List.mem_map.1 h
      exact ⟨p, hp, rfl⟩)
    cases htrapq
  have hle : ∀ p ∈ positions adjustments, p.1 ≤ -m := by
    intro p hp
    rw [hleft.offset_eq p hp]
    exact neg_le_neg (hm.2 ⟨p.2, rfl⟩)
  have hlength : (positions adjustments).length = n := by
    rw [positions, List.length_insertionSort, List.length_map, List.length_finRange]
  cases hpositions : positions adjustments with
  | nil =>
    obtain ⟨i, -⟩ := hm.1
    obtain ⟨p, hp, -⟩ := hmem i
    rw [hpositions] at hp
    cases hp
  | cons p rest =>
    rw [hpositions] at hleft hmem hle hlength
    obtain ⟨hp, -⟩ := List.pairwise_cons.1 hleft.sorted
    have hfirst : ∀ i, p.1 + adjustments i ≤ 0 := by
      intro i
      obtain ⟨q, hq, rfl⟩ := hmem i
      have hoffset := hleft.offset_eq q hq
      rcases List.mem_cons.1 hq with rfl | hq
      · linarith
      · linarith [hp q hq]
    have hto : RisenTo adjustments p.1 0 ((start n pos).setTrapqs false) := by
      intro i
      rw [max_eq_left (hfirst i)]
      exact ⟨le_rfl, (sub_zero (0 : K)).le⟩
    obtain ⟨hok, herror⟩ := adjustLoop_spec th checkMove hsqrt hgaps heps (pos 2 - p.1) speed p rest
      hleft hto ⟨fun i => rfl, fun i d hd => by cases hd⟩ (sub_add_cancel _ _).symm
    have hlast : ((p :: rest).getLast (List.cons_ne_nil _ _)).1 = -m := by
      refine (hle _ (List.getLast_mem _)).antisymm ?_
      obtain ⟨i, hi⟩ := hm.1
      obtain ⟨q, hq, rfl⟩ := hmem i
      rw [← hi, ← hleft.offset_eq q hq]
      exact hleft.sorted.rel_getLast_of_rel_getLast_getLast hq le_rfl
    have hmax : ∀ i, max 0 (-m + adjustments i) = adjustments i - m := by
      intro i
      rw [max_eq_right (by linarith [hm.2 ⟨i, rfl⟩])]
      ring
    have hcall : (start n pos).adjustSteppers sqrt th checkMove adjustments speed =
        (adjustLoop sqrt th checkMove speed (pos 2 - p.1) (p :: rest) pos
          ((start n pos).setTrapqs false)).map _ := adjustSteppers_eq hpositions
    rw [hcall]
    cases hloop : adjustLoop sqrt th checkMove speed (pos 2 - p.1) (p :: rest) pos
        ((start n pos).setTrapqs false) with
    | ok r =>
      obtain ⟨curpos, u⟩ := r
      refine ⟨fun t h => ?_, fun t h => (by cases h)⟩
      obtain rfl := Except.ok.inj h
      obtain ⟨hrisen, hdetached, hrisenTo, rfl⟩ := hok _ _ hloop
      refine ⟨⟨⟨fun i => rfl, (hrisen.attach _).upwards⟩, fun i => ?_⟩, ?_, fun i => ?_⟩
      · by_cases hi : i = ((p :: rest).getLast (List.cons_ne_nil _ _)).2
        · exact (trapq_attach _ _).2 (Or.inl hi)
        · refine (trapq_attach _ _).2 (Or.inr ((hdetached.trapq i).2 ?_))
          simpa using hi
      · show Function.update (Function.update pos 2 _) 2
          (Function.update pos 2 (pos 2 - p.1 + _) 2 + p.1) = _
        rw [Function.update_idem, Function.update_self, hlast, sub_add_eq_add_sub, sub_add_cancel,
          sub_eq_add_neg]
      · have hcount : ((p :: rest).length : K) = n := congrArg Nat.cast hlength
        rw [List.length_cons, Nat.cast_succ] at hcount
        have hi := hrisenTo i
        rw [hlast, hmax, zero_add] at hi
        dsimp only
        rw [moved_setPosition, moved_attach, ← hcount, add_sub_cancel_right]
        exact hi
    | error u =>
      refine ⟨fun t h => (by cases h), fun t h => ?_⟩
      obtain rfl := Except.error.inj h
      obtain ⟨hrisen, htrapq, q, hq, slack', hrisenTo⟩ := herror u hloop
      refine ⟨⟨hrisen, htrapq⟩, fun i => (hrisenTo i).1.trans ?_⟩
      rw [← hmax i]
      exact max_le_max le_rfl (by linarith [hle q hq])

/-- Each stepper goes up by what its adjustment is above the least one, to a nanometre for each
other stepper, and exactly if adjustments are the same or not tiny apart. An error leaves the
steppers attached, at the position of the toolhead and not above that. -/
theorem adjusts_adjustSteppers (hsqrt : ∀ x, sqrt (x * x) = |x|) {m : K}
    (hm : IsLeast (Set.range adjustments) m) (pos : Coord K) (speed : K) :
    (∀ t, (start n pos).adjustSteppers sqrt th checkMove adjustments speed = .ok t →
      t.Adjusted ∧ t.commandedPos = Function.update pos 2 (pos 2 - m) ∧
        (∀ i, (t.zSteppers i).moved.sum ≤ adjustments i - m ∧
          adjustments i - m - (n - 1 : K) * 0.000000001 ≤ (t.zSteppers i).moved.sum) ∧
        ((∀ i j, adjustments i = adjustments j ∨
            0.000000001 ≤ |adjustments i - adjustments j|) →
          ∀ i, (t.zSteppers i).moved.sum = adjustments i - m)) ∧
    ∀ t, (start n pos).adjustSteppers sqrt th checkMove adjustments speed = .error t →
      t.Adjusted ∧ ∀ i, (t.zSteppers i).moved.sum ≤ adjustments i - m := by
  have hwide : Gaps adjustments 0.000000001 := fun i j h => h.le
  have hspec := adjustSteppers_spec th checkMove hsqrt hm hwide (by norm_num) pos speed
  refine ⟨fun t h => ?_, hspec.2⟩
  obtain ⟨hadjusted, hpos, hmoved⟩ := hspec.1 t h
  refine ⟨hadjusted, hpos, hmoved, fun hgap i => ?_⟩
  have hgaps : Gaps adjustments 0 := by
    intro j k hlt
    rcases hgap j k with heq | hge
    · rw [heq, sub_self, abs_zero]
    · exact absurd hlt (not_lt.2 hge)
  have hexact := ((adjustSteppers_spec th checkMove hsqrt hm hgaps le_rfl pos speed).1 t h).2.2 i
  rw [mul_zero, sub_zero] at hexact
  exact hexact.1.antisymm hexact.2

/-- The limits of the toolhead in an example. -/
def levelLimits : MoveLimits ℚ := ⟨300, 3000, 1500, 0⟩

theorem adjusts_three :
    ∃ t, (start 3 0).adjustSteppers Rat.sqrt levelLimits (fun _ => true) ![1, -1/2, 0] 5 = .ok t ∧
      t.commandedPos 2 = 1/2 ∧ (t.zSteppers 0).moved.sum = 3/2 := by
  cases h : (start 3 0).adjustSteppers Rat.sqrt levelLimits (fun _ => true) ![1, -1/2, 0] 5 with
  | error t =>
    have hok : ((start 3 0).adjustSteppers Rat.sqrt levelLimits (fun _ => true)
      ![1, -1/2, 0] 5).toBool = true := by decide +kernel
    rw [h] at hok
    cases hok
  | ok t =>
    have hm : IsLeast (Set.range (![1, -1/2, 0] : Fin 3 → ℚ)) (-1/2) := by
      refine ⟨⟨1, rfl⟩, ?_⟩
      rintro _ ⟨i, rfl⟩
      fin_cases i <;> norm_num
    obtain ⟨-, hpos, -, hexact⟩ :=
      (adjusts_adjustSteppers (fun x => Rat.sqrt_eq x) hm 0 5).1 t h
    refine ⟨t, rfl, ?_, ?_⟩
    · rw [hpos]
      norm_num
    · rw [hexact (by decide +kernel)]
      norm_num

theorem not_adjusts_tiny :
    ¬∀ (adjustments : Fin 2 → ℚ) (m : ℚ) (pos : Coord ℚ) (speed : ℚ) (t : ZGantry 2 ℚ),
      IsLeast (Set.range adjustments) m →
      (start 2 pos).adjustSteppers Rat.sqrt levelLimits (fun _ => true) adjustments speed = .ok t →
      ∀ i, (t.zSteppers i).moved.sum = adjustments i - m := by
  intro h
  cases hrun : (start 2 0).adjustSteppers Rat.sqrt levelLimits (fun _ => true)
      ![0, 1/2000000000] 5 with
  | error t =>
    have hok : ((start 2 0).adjustSteppers Rat.sqrt levelLimits (fun _ => true)
      ![0, 1/2000000000] 5).toBool = true := by decide +kernel
    rw [hrun] at hok
    cases hok
  | ok t =>
    have hm : IsLeast (Set.range (![0, 1/2000000000] : Fin 2 → ℚ)) 0 := by
      refine ⟨⟨0, rfl⟩, ?_⟩
      rintro _ ⟨i, rfl⟩
      fin_cases i <;> norm_num
    have hmoved : ((start 2 0).adjustSteppers Rat.sqrt levelLimits (fun _ => true)
        ![0, 1/2000000000] 5).toOption.map (fun t => (t.zSteppers 1).moved.sum) = some 0 := by
      decide +kernel
    rw [hrun] at hmoved
    have hzero : (t.zSteppers 1).moved.sum = 0 := Option.some_inj.1 hmoved
    have hexact := h _ 0 0 5 t hm hrun 1
    rw [hzero] at hexact
    norm_num at hexact

end ZGantry

end Thinker
