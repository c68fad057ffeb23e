import Mathlib.Tactic

/-!
# Dictionaries that keep the order of their keys

The entries of a dictionary in the order in which their keys were added. A key that is put again
keeps its place; a key that was removed and is put again comes last.
-/

namespace Thinker

/-- A dictionary with the order of its keys. -/
structure OrderedDict (α β : Type*) where
  entries : List (α × β)
  nodup : (entries.map Prod.fst).Nodup

namespace OrderedDict

variable {α β : Type*}

/-- The empty dictionary. -/
def empty : OrderedDict α β :=
  ⟨[], List.nodup_nil⟩

/-- `list(d.keys())`. -/
def keys (d : OrderedDict α β) : List α :=
  d.entries.map Prod.fst

/-- The entries whose keys satisfy `p`. -/
def filterKeys (p : α → Bool) (d : OrderedDict α β) : OrderedDict α β where
  entries := d.entries.filter (p ·.1)
  nodup := List.Nodup.sublist (List.filter_sublist.map Prod.fst) d.nodup

variable [DecidableEq α]

/-- The value of a key in some entries. -/
def find (a : α) : List (α × β) → Option β
  | [] => none
  | (a', b) :: l => if a' = a then some b else find a l

/-- `d.get(a)`. -/
def get (d : OrderedDict α β) (a : α) : Option β :=
  find a d.entries

/-- Some entries with the value of a key changed or added. -/
def place (a : α) (b : β) : List (α × β) → List (α × β)
  | [] => [(a, b)]
  | (a', b') :: l => if a' = a then (a', b) :: l else (a', b') :: place a b l

theorem keys_place (a : α) (b : β) (l : List (α × β)) : (place a b l).map Prod.fst =
    if a ∈ l.map Prod.fst then l.map Prod.fst else l.map Prod.fst ++ [a] := by
  induction l with
  | nil => rfl
  | cons e l ih =>
    obtain ⟨a', b'⟩ := e
    unfold place
    by_cases h : a' = a
    · simp [h]
    · rw [if_neg h, List.map_cons, ih]
      by_cases hmem : a ∈ l.map Prod.fst
      · have hcons : a ∈ ((a', b') :: l).map Prod.fst := List.mem_cons_of_mem _ hmem
        rw [if_pos hmem, if_pos hcons, List.map_cons]
      · have hcons : a ∉ ((a', b') :: l).map Prod.fst := by
          rw [List.map_cons, List.mem_cons, not_or]
          exact ⟨Ne.symm h, hmem⟩
        rw [if_neg hmem, if_neg hcons, List.map_cons, List.cons_append]

theorem place_of_not_mem {a : α} {l : List (α × β)} (h : a ∉ l.map Prod.fst) (b : β) :
    place a b l = l ++ [(a, b)] := by
  induction l with
  | nil => rfl
  | cons e l ih =>
    obtain ⟨a', b'⟩ := e
    rw [List.map_cons, List.mem_cons, not_or] at h
    rw [place, if_neg (Ne.symm h.1), ih h.2, List.cons_append]

/-- `d[a] = b`. -/
def put (d : OrderedDict α β) (a : α) (b : β) : OrderedDict α β where
  entries := place a b d.entries
  nodup := by
    rw [keys_place]
    split_ifs with h
    · exact d.nodup
    · exact d.nodup.append (List.nodup_singleton a) (List.disjoint_singleton.2 h)

/-- `d.pop(a, None)`, without its value. -/
def del (d : OrderedDict α β) (a : α) : OrderedDict α β :=
  d.filterKeys (· ≠ a)

theorem find_place (a : α) (b : β) (l : List (α × β)) (x : α) :
    find x (place a b l) = if a = x then some b else find x l := by
  induction l with
  | nil => rfl
  | cons e l ih =>
    obtain ⟨a', b'⟩ := e
    unfold place
    by_cases h : a' = a
    · subst h
      by_cases hx : a' = x <;> simp [find, hx]
    · rw [if_neg h]
      by_cases hx : a' = x
      · have hne : a ≠ x := fun hax => h (hx.trans hax.symm)
        simp [find, hx, hne]
      · simp [find, hx, ih]

@[simp]
theorem get_put (d : OrderedDict α β) (a : α) (b : β) (x : α) :
    (d.put a b).get x = if a = x then some b else d.get x :=
  find_place a b d.entries x

theorem find_filter (p : α → Bool) (l : List (α × β)) (x : α) :
    find x (l.filter (p ·.1)) = if p x then find x l else none := by
  induction l with
  | nil => simp [find]
  | cons e l ih =>
    obtain ⟨a', b'⟩ := e
    by_cases hx : a' = x
    · subst hx
      cases hp : p a' <;> simp [find, hp, ih]
    · cases hp : p a' <;> simp [find, hp, hx, ih]

@[simp]
theorem get_filterKeys (p : α → Bool) (d : OrderedDict α β) (x : α) :
    (d.filterKeys p).get x = if p x then d.get x else none :=
  find_filter p d.entries x

@[simp]
theorem get_del (d : OrderedDict α β) (a x : α) :
    (d.del a).get x = if a = x then none else d.get x := by
  unfold del
  rw [get_filterKeys]
  by_cases h : a = x
  · simp [h]
  · simp [h, Ne.symm h]

theorem find_isSome_iff (l : List (α × β)) (x : α) :
    (find x l).isSome = true ↔ x ∈ l.map Prod.fst := by
  induction l with
  | nil => simp [find]
  | cons e l ih =>
    obtain ⟨a', b'⟩ := e
    by_cases hx : a' = x
    · simp [find, hx]
    · simp [find, hx, ih, Ne.symm hx]

theorem mem_of_find {l : List (α × β)} {x : α} {b : β} (h : find x l = some b) : (x, b) ∈ l := by
  induction l with
  | nil => cases h
  | cons e l ih =>
    obtain ⟨a, b'⟩ := e
    unfold find at h
    split_ifs at h with hx
    · obtain rfl := hx
      obtain rfl := Option.some_inj.1 h
      exact List.mem_cons_self
    · exact List.mem_cons_of_mem _ (ih h)

theorem find_of_mem {l : List (α × β)} (hn : (l.map Prod.fst).Nodup) {e : α × β} (he : e ∈ l) :
    find e.1 l = some e.2 := by
  induction l with
  | nil => cases he
  | cons e' l ih =>
    rw [List.map_cons, List.nodup_cons] at hn
    unfold find
    rcases List.mem_cons.1 he with rfl | he
    · exact if_pos rfl
    · rw [if_neg fun h => hn.1 (by rw [h]; exact List.mem_map_of_mem he)]
      exact ih hn.2 he

theorem get_isSome_iff (d : OrderedDict α β) (x : α) : (d.get x).isSome = true ↔ x ∈ d.keys :=
  find_isSome_iff d.entries x

theorem entries_put_of_get_eq_none {d : OrderedDict α β} {a : α} (h : d.get a = none) (b : β) :
    (d.put a b).entries = d.entries ++ [(a, b)] := by
  refine place_of_not_mem (fun hmem => ?_) b
  have hsome := (find_isSome_iff d.entries a).2 hmem
  change (d.get a).isSome = true at hsome
  rw [h] at hsome
  exact Bool.false_ne_true hsome

end OrderedDict

end Thinker
