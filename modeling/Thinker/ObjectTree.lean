import Thinker.OrderedDict

/-!
# Trees of nested objects

A tree is a value, or an object whose members are trees. A path of keys names a tree inside another.
`get` follows a path, `set` puts a tree there and makes the objects on the way that are missing,
`modify` changes a tree that is there, and `pop` takes it out. Each says nothing about a path that
leads elsewhere (`Apart`).
-/

namespace Thinker

/-- A value, or an object. -/
inductive ObjectTree (κ α : Type) where
  | leaf (a : α)
  | node (members : List (κ × ObjectTree κ α))

namespace ObjectTree

variable {κ α : Type}

/-- Neither path leads through the other. -/
def Apart (p q : List κ) : Prop :=
  ¬p <+: q ∧ ¬q <+: p

theorem Apart.symm {p q : List κ} (h : Apart p q) : Apart q p :=
  ⟨h.2, h.1⟩

theorem not_apart_nil (q : List κ) : ¬Apart [] q := fun h => h.1 List.nil_prefix

theorem apart_cons {k : κ} {p q : List κ} (h : Apart (k :: p) (k :: q)) : Apart p q :=
  ⟨fun hpq => h.1 (List.cons_prefix_cons.2 ⟨rfl, hpq⟩),
    fun hqp => h.2 (List.cons_prefix_cons.2 ⟨rfl, hqp⟩)⟩

/-- Paths of which the first keys differ, or the rest. -/
theorem Apart.cases {p q : List κ} (h : Apart p q) : ∃ k p' l q', p = k :: p' ∧ q = l :: q' ∧
    (k ≠ l ∨ k = l ∧ Apart p' q') := by
  cases p with
  | nil => exact absurd h (not_apart_nil q)
  | cons k p =>
    cases q with
    | nil => exact absurd h.symm (not_apart_nil _)
    | cons l q =>
      refine ⟨k, p, l, q, rfl, rfl, ?_⟩
      by_cases hkl : k = l
      · subst hkl
        exact .inr ⟨rfl, apart_cons h⟩
      · exact .inl hkl

variable [DecidableEq κ]

/-- Whether a tree is an object. -/
def isNode : ObjectTree κ α → Bool
  | leaf _ => false
  | node _ => true

/-- The tree at a path. -/
def get : ObjectTree κ α → List κ → Option (ObjectTree κ α)
  | t, [] => some t
  | leaf _, _ :: _ => none
  | node m, k :: p => (OrderedDict.find k m).bind (get · p)

/-- A tree with `v` at a path, if no value is on the way. -/
def set (v : ObjectTree κ α) : ObjectTree κ α → List κ → Option (ObjectTree κ α)
  | _, [] => some v
  | leaf _, _ :: _ => none
  | node m, k :: p =>
    (set v ((OrderedDict.find k m).getD (node [])) p).map fun s => node (OrderedDict.place k s m)

/-- A tree with what is at a path changed, if there is something. -/
def modify (f : ObjectTree κ α → ObjectTree κ α) :
    ObjectTree κ α → List κ → Option (ObjectTree κ α)
  | t, [] => some (f t)
  | leaf _, _ :: _ => none
  | node m, k :: p =>
    (OrderedDict.find k m).bind fun s =>
      (modify f s p).map fun s' => node (OrderedDict.place k s' m)

/-- What is at a path, and the tree without it. -/
def pop : ObjectTree κ α → List κ → Option (ObjectTree κ α × ObjectTree κ α)
  | _, [] => none
  | leaf _, _ :: _ => none
  | node m, [k] => (OrderedDict.find k m).map fun v => (v, node (m.filter (·.1 ≠ k)))
  | node m, k :: p =>
    (OrderedDict.find k m).bind fun s =>
      (pop s p).map fun r => (r.1, node (OrderedDict.place k r.2 m))

/-- An object with the members of another, one level deep, or the other tree. -/
def merge : ObjectTree κ α → ObjectTree κ α → ObjectTree κ α
  | node m, node n => node (n.foldl (fun m e => OrderedDict.place e.1 e.2 m) m)
  | _, v => v

variable {t u v : ObjectTree κ α} {p q : List κ}

@[simp] theorem get_nil (t : ObjectTree κ α) : get t [] = some t := by
  cases t <;> rfl

theorem get_cons_node (m : List (κ × ObjectTree κ α)) (k : κ) (p : List κ) :
    get (node m) (k :: p) = (OrderedDict.find k m).bind (get · p) := rfl

/-- A member of an object that was changed. -/
theorem get_place (m : List (κ × ObjectTree κ α)) (k : κ) (s : ObjectTree κ α) (l : κ)
    (q : List κ) : get (node (OrderedDict.place k s m)) (l :: q) =
      if k = l then get s q else get (node m) (l :: q) := by
  rw [get_cons_node, OrderedDict.find_place]
  by_cases h : k = l
  · simp [h]
  · simp [h, get_cons_node]

theorem get_empty (q : List κ) (h : q ≠ []) : get (node [] : ObjectTree κ α) q = none := by
  cases q with
  | nil => exact absurd rfl h
  | cons l q => rfl

/-! ## Putting a tree in -/

theorem get_set_self (h : set v t p = some u) : get u p = some v := by
  induction p generalizing t u with
  | nil =>
    obtain rfl : v = u := by cases t <;> simpa [set] using h
    exact get_nil v
  | cons k p ih =>
    cases t with
    | leaf a => simp [set] at h
    | node m =>
      obtain ⟨s, hs, rfl⟩ := Option.map_eq_some_iff.1 h
      rw [get_place, if_pos rfl]
      exact ih hs

theorem get_set_apart (h : set v t p = some u) (hpq : Apart p q) : get u q = get t q := by
  induction p generalizing t u q with
  | nil => exact absurd hpq (not_apart_nil q)
  | cons k p ih =>
    obtain ⟨_, _, l, q, he, rfl, hkl⟩ := hpq.cases
    obtain ⟨rfl, rfl⟩ := List.cons.inj he
    cases t with
    | leaf a => simp [set] at h
    | node m =>
      obtain ⟨s, hs, rfl⟩ := Option.map_eq_some_iff.1 h
      rw [get_place]
      rcases hkl with hne | ⟨rfl, hpq'⟩
      · rw [if_neg hne]
      · rw [if_pos rfl, ih hs hpq', get_cons_node]
        cases OrderedDict.find k m with
        | some r => rfl
        | none =>
          refine get_empty q fun hq => ?_
          subst hq
          exact not_apart_nil _ hpq'.symm

/-! ## Changing a tree -/

theorem modify_isSome {f : ObjectTree κ α → ObjectTree κ α} :
    (modify f t p).isSome = (get t p).isSome := by
  induction p generalizing t with
  | nil => cases t <;> rfl
  | cons k p ih =>
    cases t with
    | leaf a => rfl
    | node m =>
      rw [get_cons_node]
      unfold modify
      cases OrderedDict.find k m with
      | none => rfl
      | some s => simpa using ih

theorem get_modify_self {f : ObjectTree κ α → ObjectTree κ α} (h : modify f t p = some u) :
    get u p = (get t p).map f := by
  induction p generalizing t u with
  | nil =>
    obtain rfl : f t = u := by cases t <;> simpa [modify] using h
    simp
  | cons k p ih =>
    cases t with
    | leaf a => simp [modify] at h
    | node m =>
      obtain ⟨s, hs, h⟩ := Option.bind_eq_some_iff.1 h
      obtain ⟨s', hs', rfl⟩ := Option.map_eq_some_iff.1 h
      rw [get_place, if_pos rfl, ih hs', get_cons_node, hs]
      rfl

theorem get_modify_apart {f : ObjectTree κ α → ObjectTree κ α} (h : modify f t p = some u)
    (hpq : Apart p q) : get u q = get t q := by
  induction p generalizing t u q with
  | nil => exact absurd hpq (not_apart_nil q)
  | cons k p ih =>
    obtain ⟨_, _, l, q, he, rfl, hkl⟩ := hpq.cases
    obtain ⟨rfl, rfl⟩ := List.cons.inj he
    cases t with
    | leaf a => simp [modify] at h
    | node m =>
      obtain ⟨s, hs, h⟩ := Option.bind_eq_some_iff.1 h
      obtain ⟨s', hs', rfl⟩ := Option.map_eq_some_iff.1 h
      rw [get_place]
      rcases hkl with hne | ⟨rfl, hpq'⟩
      · rw [if_neg hne]
      · rw [if_pos rfl, ih hs' hpq', get_cons_node, hs]
        rfl

/-! ## Taking a tree out -/

theorem pop_cons_cons (m : List (κ × ObjectTree κ α)) (k l : κ) (p : List κ) :
    pop (node m) (k :: l :: p) =
      (OrderedDict.find k m).bind fun s =>
        (pop s (l :: p)).map fun r => (r.1, node (OrderedDict.place k r.2 m)) := rfl

theorem get_filter (m : List (κ × ObjectTree κ α)) (k l : κ) (q : List κ) :
    get (node (m.filter (·.1 ≠ k))) (l :: q) =
      if k = l then none else get (node m) (l :: q) := by
  rw [get_cons_node, OrderedDict.find_filter (· ≠ k)]
  by_cases h : k = l
  · simp [h]
  · simp [h, Ne.symm h, get_cons_node]

theorem get_pop_self (h : pop t p = some (v, u)) : get t p = some v ∧ get u p = none := by
  induction p generalizing t u with
  | nil => cases t <;> simp [pop] at h
  | cons k p ih =>
    cases t with
    | leaf a => cases p <;> simp [pop] at h
    | node m =>
      cases p with
      | nil =>
        obtain ⟨w, hw, he⟩ := Option.map_eq_some_iff.1 h
        obtain ⟨rfl, rfl⟩ := Prod.mk.inj he
        exact ⟨by simp [get_cons_node, hw], by rw [get_filter, if_pos rfl]⟩
      | cons l p =>
        rw [pop_cons_cons] at h
        obtain ⟨s, hs, h⟩ := Option.bind_eq_some_iff.1 h
        obtain ⟨⟨w, s'⟩, hr, he⟩ := Option.map_eq_some_iff.1 h
        obtain ⟨rfl, rfl⟩ := Prod.mk.inj he
        obtain ⟨hget, hnone⟩ := ih hr
        exact ⟨by rw [get_cons_node, hs]; exact hget, by rw [get_place, if_pos rfl]; exact hnone⟩

theorem get_pop_apart (h : pop t p = some (v, u)) (hpq : Apart p q) : get u q = get t q := by
  induction p generalizing t u q with
  | nil => exact absurd hpq (not_apart_nil q)
  | cons k p ih =>
    obtain ⟨_, _, l, q, he, rfl, hkl⟩ := hpq.cases
    obtain ⟨rfl, rfl⟩ := List.cons.inj he
    cases t with
    | leaf a => cases p <;> simp [pop] at h
    | node m =>
      cases p with
      | nil =>
        obtain ⟨w, hw, he⟩ := Option.map_eq_some_iff.1 h
        obtain ⟨rfl, rfl⟩ := Prod.mk.inj he
        rcases hkl with hne | ⟨-, hnil⟩
        · rw [get_filter, if_neg hne]
        · exact absurd hnil (not_apart_nil q)
      | cons j p =>
        rw [pop_cons_cons] at h
        obtain ⟨s, hs, h⟩ := Option.bind_eq_some_iff.1 h
        obtain ⟨⟨w, s'⟩, hr, he⟩ := Option.map_eq_some_iff.1 h
        obtain ⟨rfl, rfl⟩ := Prod.mk.inj he
        rw [get_place]
        rcases hkl with hne | ⟨rfl, hpq'⟩
        · rw [if_neg hne]
        · rw [if_pos rfl, ih hr hpq', get_cons_node, hs]
          rfl

end ObjectTree

end Thinker
