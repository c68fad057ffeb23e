import Mathlib.Tactic

/-!
# The two least values in one pass

One pass over a list that keeps the least value so far, where it was found, and the next one.
So for every element it has the least value of the others (`except_twoLeast`). `top` stands for
no value.
-/

set_option linter.unusedSectionVars false

namespace Thinker

variable {ι α : Type*} [DecidableEq ι] [LinearOrder α]

/-- The least value, the next one, and where the least one was found. -/
structure TwoLeast (ι α : Type*) where
  least : α
  next : α
  index : Option ι
  deriving DecidableEq

namespace TwoLeast

/-- Before the first value. -/
def start (top : α) : TwoLeast ι α :=
  ⟨top, top, none⟩

/-- One more value. -/
def step (f : ι → α) (s : TwoLeast ι α) (i : ι) : TwoLeast ι α :=
  if f i < s.next then
    if f i < s.least then ⟨f i, s.least, some i⟩ else { s with next := f i }
  else s

/-- The least value of the others. -/
def except (s : TwoLeast ι α) (i : ι) : α :=
  if s.index = some i then s.next else s.least

end TwoLeast

/-- The least value of a list, and `top` if it is empty. -/
def leastValue (top : α) (f : ι → α) (l : List ι) : α :=
  l.foldr (fun i => min (f i)) top

variable {top : α} {f : ι → α} {l : List ι} {i : ι}

theorem leastValue_append_singleton :
    leastValue top f (l ++ [i]) = min (leastValue top f l) (f i) := by
  induction l with
  | nil => exact min_comm _ _
  | cons j l ih =>
    show min (f j) (leastValue top f (l ++ [i])) = min (min (f j) (leastValue top f l)) (f i)
    rw [ih, min_assoc]

theorem leastValue_le_top : leastValue top f l ≤ top := by
  induction l with
  | nil => exact le_rfl
  | cons j l ih => exact (min_le_right _ _).trans ih

theorem leastValue_le (hi : i ∈ l) : leastValue top f l ≤ f i := by
  induction l with
  | nil => cases hi
  | cons j l ih =>
    rcases List.mem_cons.1 hi with rfl | hi
    · exact min_le_left _ _
    · exact (min_le_right _ _).trans (ih hi)

theorem leastValue_anti {l' : List ι} (h : ∀ j ∈ l', j ∈ l) :
    leastValue top f l ≤ leastValue top f l' := by
  induction l' with
  | nil => exact leastValue_le_top
  | cons j l' ih =>
    refine le_min (leastValue_le (h j List.mem_cons_self)) (ih fun k hk => ?_)
    exact h k (List.mem_cons_of_mem j hk)

theorem leastValue_lt (htop : ∀ j ∈ l, f j < top) (hne : l ≠ []) : leastValue top f l < top := by
  obtain ⟨j, l, rfl⟩ := List.exists_cons_of_ne_nil hne
  exact (min_le_left _ _).trans_lt (htop j List.mem_cons_self)

/-- Where all values are below `top`, it is the least one. -/
theorem min?_eq_leastValue (htop : ∀ j ∈ l, f j < top) (hne : l ≠ []) :
    (l.map f).min? = some (leastValue top f l) := by
  rw [List.min?_eq_some_iff]
  constructor
  · induction l with
    | nil => exact absurd rfl hne
    | cons j l ih =>
      rw [List.map_cons, List.mem_cons]
      have hcons : leastValue top f (j :: l) = min (f j) (leastValue top f l) := rfl
      rcases le_total (f j) (leastValue top f l) with hle | hle
      · exact Or.inl (hcons.trans (min_eq_left hle))
      · right
        rw [hcons, min_eq_right hle]
        refine ih (fun k hk => htop k (List.mem_cons_of_mem j hk)) fun hnil => ?_
        rw [hnil] at hle
        exact absurd hle (not_le.2 (htop j List.mem_cons_self))
  · intro b hb
    obtain ⟨j, hj, rfl⟩ := List.mem_map.1 hb
    exact leastValue_le hj

/-- What the pass has found in the list. -/
structure TwoLeast.Of (top : α) (f : ι → α) (l : List ι) (s : TwoLeast ι α) : Prop where
  least_eq : s.least = leastValue top f l
  index_none : s.index = none → s.least = top ∧ s.next = top
  index_some : ∀ i, s.index = some i → i ∈ l ∧ f i = s.least ∧
    s.next = leastValue top f (l.filter fun j => decide (j ≠ i))

namespace TwoLeast.Of

variable {s : TwoLeast ι α}

theorem start : (TwoLeast.start top).Of top f ([] : List ι) :=
  ⟨rfl, fun _ => ⟨rfl, rfl⟩, fun i hi => by cases hi⟩

theorem least_le_next (h : s.Of top f l) : s.least ≤ s.next := by
  cases hindex : s.index with
  | none =>
    obtain ⟨hleast, hnext⟩ := h.index_none hindex
    rw [hleast, hnext]
  | some i =>
    rw [h.least_eq, (h.index_some i hindex).2.2]
    exact leastValue_anti fun j hj => (List.mem_filter.1 hj).1

theorem step (h : s.Of top f l) (hi : i ∉ l) : (s.step f i).Of top f (l ++ [i]) := by
  have hfilter : (l ++ [i]).filter (fun j => decide (j ≠ i)) = l := by
    rw [List.filter_append, List.filter_eq_self.2 fun j hj => ?_]
    · simp
    · rw [decide_eq_true_eq]
      rintro rfl
      exact hi hj
  have hother : ∀ j, i ≠ j → (l ++ [i]).filter (fun k => decide (k ≠ j)) =
      l.filter (fun k => decide (k ≠ j)) ++ [i] := by
    intro j hne
    simp [List.filter_append, hne]
  unfold TwoLeast.step
  split_ifs with hnext hleast
  · -- the new value is the least
    refine ⟨?_, fun hnone => (by cases hnone), fun j hj => ?_⟩
    · rw [leastValue_append_singleton, ← h.least_eq, min_eq_right hleast.le]
    · obtain rfl := Option.some_inj.1 hj
      refine ⟨List.mem_append_right _ List.mem_cons_self, rfl, ?_⟩
      rw [hfilter, ← h.least_eq]
  · -- the new value is the next one
    refine ⟨?_, fun hnone => ?_, fun j hj => ?_⟩
    · rw [leastValue_append_singleton, ← h.least_eq, min_eq_left (not_lt.1 hleast)]
    · obtain ⟨hl, hn⟩ := h.index_none hnone
      rw [hn, ← hl] at hnext
      exact absurd hnext hleast
    · obtain ⟨hmem, heq, hn⟩ := h.index_some j hj
      have hne : i ≠ j := fun h' => hi (h' ▸ hmem)
      refine ⟨List.mem_append_left _ hmem, heq, ?_⟩
      rw [hother j hne, leastValue_append_singleton, ← hn, min_eq_right hnext.le]
  · -- the new value is not among the two
    have hn := not_lt.1 hnext
    refine ⟨?_, h.index_none, fun j hj => ?_⟩
    · rw [leastValue_append_singleton, ← h.least_eq, min_eq_left (h.least_le_next.trans hn)]
    · obtain ⟨hmem, heq, hnj⟩ := h.index_some j hj
      have hne : i ≠ j := fun h' => hi (h' ▸ hmem)
      refine ⟨List.mem_append_left _ hmem, heq, ?_⟩
      rw [hother j hne, leastValue_append_singleton, ← hnj, min_eq_left hn]

theorem foldl {l' : List ι} (h : s.Of top f l) (hnodup : (l ++ l').Nodup) :
    (l'.foldl (TwoLeast.step f) s).Of top f (l ++ l') := by
  induction l' generalizing s l with
  | nil => simpa using h
  | cons i l' ih =>
    have hi : i ∉ l := fun hi =>
      (List.nodup_append.1 hnodup).2.2 i hi i List.mem_cons_self rfl
    have hsplit : l ++ i :: l' = (l ++ [i]) ++ l' := by simp
    rw [hsplit] at hnodup ⊢
    exact ih (h.step hi) hnodup

/-- For every element, the least value of the others. -/
theorem except_eq (h : s.Of top f l) (i : ι) :
    s.except i = leastValue top f (l.filter fun j => decide (j ≠ i)) := by
  unfold TwoLeast.except
  split_ifs with hindex
  · exact (h.index_some i hindex).2.2
  · have hle : leastValue top f l ≤ leastValue top f (l.filter fun j => decide (j ≠ i)) :=
      leastValue_anti fun j hj => (List.mem_filter.1 hj).1
    refine le_antisymm (h.least_eq ▸ hle) ?_
    cases hj : s.index with
    | none =>
      rw [(h.index_none hj).1]
      exact leastValue_le_top
    | some j =>
      obtain ⟨hmem, heq, -⟩ := h.index_some j hj
      rw [← heq]
      refine leastValue_le (List.mem_filter.2 ⟨hmem, ?_⟩)
      rw [decide_eq_true_eq]
      rintro rfl
      exact hindex hj

end TwoLeast.Of

/-- The pass over a list. The only element of a list is among its others. -/
def twoLeast (top : α) (f : ι → α) (l : List ι) : TwoLeast ι α :=
  let s := l.foldl (TwoLeast.step f) (TwoLeast.start top)
  if s.next = top then { s with next := s.least } else s

/-- For each element of a list, the least value of the others. -/
theorem except_twoLeast (hnodup : l.Nodup) (htop : ∀ j ∈ l, f j < top) (hi : i ∈ l) :
    ((l.filter fun j => decide (j ≠ i ∨ l = [i])).map f).min? =
      some ((twoLeast top f l).except i) := by
  have hpass : (l.foldl (TwoLeast.step f) (TwoLeast.start top)).Of top f l :=
    TwoLeast.Of.start.foldl hnodup
  unfold twoLeast
  by_cases hl : l = [i]
  · subst hl
    have hlt : f i < top := htop i hi
    simp [TwoLeast.step, TwoLeast.start, TwoLeast.except, hlt]
  · -- there are others, and so two values below `top`
    obtain ⟨j, hj, hne⟩ : ∃ j ∈ l, j ≠ i := by
      by_contra hno
      push Not at hno
      refine hl (List.perm_singleton.1 ?_)
      refine (List.perm_ext_iff_of_nodup hnodup (List.nodup_singleton i)).2 fun k => ?_
      rw [List.mem_singleton]
      exact ⟨hno k, fun h => h ▸ hi⟩
    have hothers : ∀ k, (l.filter fun j => decide (j ≠ k)) ≠ [] := by
      intro k hnil
      have hall : ∀ m ∈ l, m = k := by simpa [List.filter_eq_nil_iff] using hnil
      exact hne ((hall j hj).trans (hall i hi).symm)
    have hnext : (l.foldl (TwoLeast.step f) (TwoLeast.start top)).next ≠ top := by
      cases hindex : (l.foldl (TwoLeast.step f) (TwoLeast.start top)).index with
      | none =>
        have hleast := hpass.least_eq.symm.trans (hpass.index_none hindex).1
        exact absurd hleast (leastValue_lt htop (List.ne_nil_of_mem hi)).ne
      | some k =>
        rw [(hpass.index_some k hindex).2.2]
        exact (leastValue_lt (fun m hm => htop m (List.mem_filter.1 hm).1) (hothers k)).ne
    simp only [hl, or_false, if_neg hnext]
    rw [hpass.except_eq, min?_eq_leastValue (fun m hm => htop m (List.mem_filter.1 hm).1)
      (hothers i)]

end Thinker
