import Mathlib.Data.List.AList
import Mathlib.Tactic

/-!
# Dictionaries

A dictionary is an association list without duplicate keys (`AList`). Added here are the
comprehension `{k: g(k, v) for k, v in d.items()}` that leaves out some keys (`filterMap`), `update`,
and a merge that combines the values of common keys (`mergeWith`), each with its `lookup`; and
dictionaries of dictionaries, of which two keys name a value (`get`).
-/

namespace Thinker

/-- A dictionary. -/
abbrev Dict (α β : Type*) :=
  AList fun _ : α => β

namespace Dict

variable {α β γ : Type*}

/-- The keys that a comprehension keeps. -/
theorem keys_filterMap_sublist (g : α → β → Option γ) (l : List (Sigma fun _ : α => β)) :
    (l.filterMap fun e => (g e.1 e.2).map (Sigma.mk (β := fun _ => γ) e.1)).keys.Sublist l.keys := by
  induction l with
  | nil => exact List.Sublist.slnil
  | cons e l ih =>
    rw [List.filterMap_cons]
    cases g e.1 e.2 with
    | none => exact ih.cons _
    | some c => exact ih.cons_cons _

/-- The values that `g` gives to the keys, without those to which it gives none. -/
def filterMap (g : α → β → Option γ) (d : Dict α β) : Dict α γ :=
  ⟨d.entries.filterMap fun e => (g e.1 e.2).map (Sigma.mk (β := fun _ => γ) e.1),
    List.Nodup.sublist (keys_filterMap_sublist g d.entries) d.nodupKeys⟩

variable [DecidableEq α]

@[simp]
theorem lookup_filterMap (g : α → β → Option γ) (d : Dict α β) (a : α) :
    (d.filterMap g).lookup a = (d.lookup a).bind (g a) := by
  ext c
  rw [← Option.mem_def, AList.mem_lookup_iff, Option.bind_eq_some_iff]
  show _ ∈ d.entries.filterMap _ ↔ _
  rw [List.mem_filterMap]
  constructor
  · rintro ⟨⟨a', b⟩, hmem, he⟩
    obtain ⟨c', hc', he⟩ := Option.map_eq_some_iff.1 he
    obtain ⟨rfl, hc⟩ := Sigma.mk.inj he
    obtain rfl := eq_of_heq hc
    exact ⟨b, AList.mem_lookup_iff.2 hmem, hc'⟩
  · rintro ⟨b, hb, hc⟩
    exact ⟨⟨a, b⟩, AList.mem_lookup_iff.1 hb, by rw [hc, Option.map_some]⟩

/-- `d.update(e)`. -/
def update (d e : Dict α β) : Dict α β :=
  e ∪ d

@[simp]
theorem lookup_update (d e : Dict α β) (a : α) :
    (d.update e).lookup a = (e.lookup a).or (d.lookup a) := by
  unfold update
  by_cases h : a ∈ e
  · obtain ⟨b, hb⟩ := Option.isSome_iff_exists.1 (AList.lookup_isSome.2 h)
    rw [AList.lookup_union_left h, hb, Option.some_or]
  · rw [AList.lookup_union_right h, AList.lookup_eq_none.2 h, Option.none_or]

/-- The entries of `e` are added to `d`, combined with those that are there. -/
def mergeWith (f : β → β → β) (d e : Dict α β) : Dict α β :=
  d.update (e.filterMap fun a b => some ((d.lookup a).elim b (f · b)))

theorem lookup_mergeWith (f : β → β → β) (d e : Dict α β) (a : α) :
    (d.mergeWith f e).lookup a =
      (e.lookup a).elim (d.lookup a) fun b => some ((d.lookup a).elim b (f · b)) := by
  unfold mergeWith
  rw [lookup_update, lookup_filterMap]
  cases e.lookup a with
  | none => rfl
  | some b => rfl

/-- `{a: f(a) for a in l}`. -/
def ofList (l : List α) (f : α → β) : Dict α β :=
  (l.map fun a => Sigma.mk (β := fun _ => β) a (f a)).toAList

@[simp]
theorem lookup_ofList (l : List α) (f : α → β) (a : α) :
    (ofList l f).lookup a = if a ∈ l then some (f a) else none := by
  unfold ofList
  rw [AList.lookup_to_alist]
  induction l with
  | nil => rfl
  | cons b l ih =>
    rw [List.map_cons]
    by_cases h : a = b
    · subst h
      rw [List.dlookup_cons_eq, if_pos List.mem_cons_self]
    · rw [List.dlookup_cons_ne _ _ h, ih]
      simp [h]

/-! ## Dictionaries of dictionaries -/

variable {ι : Type*} [DecidableEq ι]

/-- `d[a][i]`. -/
def get (d : Dict α (Dict ι β)) (a : α) (i : ι) : Option β :=
  (d.lookup a).bind (AList.lookup i)

/-- `d.setdefault(a, {}).update(e[a])` for each key `a` of `e`. -/
def updateEach (d e : Dict α (Dict ι β)) : Dict α (Dict ι β) :=
  d.mergeWith update e

@[simp]
theorem get_updateEach (d e : Dict α (Dict ι β)) (a : α) (i : ι) :
    (d.updateEach e).get a i = (e.get a i).or (d.get a i) := by
  unfold get updateEach
  rw [lookup_mergeWith]
  cases e.lookup a with
  | none => rfl
  | some b =>
    cases d.lookup a with
    | none => simp
    | some c => simp

/-- What some dictionaries say together that come one after the other. -/
def view (l : List (Dict α (Dict ι β))) (a : α) (i : ι) : Option β :=
  (l.foldl updateEach ∅).get a i

theorem view_append (l : List (Dict α (Dict ι β))) (d : Dict α (Dict ι β)) (a : α) (i : ι) :
    view (l ++ [d]) a i = (d.get a i).or (view l a i) := by
  unfold view
  rw [List.foldl_concat, get_updateEach]

theorem view_singleton (d : Dict α (Dict ι β)) (a : α) (i : ι) : view [d] a i = d.get a i :=
  (view_append [] d a i).trans (Option.or_none ..)

end Dict

end Thinker
