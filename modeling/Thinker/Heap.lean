import Mathlib.Tactic
import Mathlib.Order.BoundedOrder.Basic

/-!
# Replacing the least entry of a binary heap

A min-heap in a list : the children of position `i` are `2 * i + 1` and `2 * i + 2`.
Positions past the end count as `⊤`, so that the order of a heap needs no bounds.

`siftDown` puts a value into a hole. Until it stops, the list with the value written into
the hole is in order at every position but the hole (`HoleAt`), and a step only swaps two of
its entries (`siftDown_perm`).
-/

namespace Thinker.Heap

variable {α : Type*} [LinearOrder α] [OrderTop α]

/-- The entry at a position, `⊤` past the end. -/
def entry (mc : List α) (i : ℕ) : α := (mc[i]?).getD ⊤

/-- No entry is below its parent. -/
def IsHeap (mc : List α) : Prop :=
  ∀ c, 0 < c → entry mc ((c - 1) / 2) ≤ entry mc c

/-- In order but for the children of `pos`, which are not below the parent of `pos`. -/
structure HoleAt (mc : List α) (pos : ℕ) : Prop where
  order : ∀ c, 0 < c → (c - 1) / 2 ≠ pos → entry mc ((c - 1) / 2) ≤ entry mc c
  above : ∀ c, 0 < c → (c - 1) / 2 = pos → 0 < pos → entry mc ((pos - 1) / 2) ≤ entry mc c

theorem entry_of_length_le {mc : List α} {i : ℕ} (h : mc.length ≤ i) : entry mc i = ⊤ := by
  rw [entry, List.getElem?_eq_none h, Option.getD_none]

theorem lt_length_of_entry_lt {mc : List α} {i : ℕ} {x : α} (h : entry mc i < x) :
    i < mc.length := by
  by_contra hle
  rw [entry_of_length_le (not_lt.1 hle)] at h
  exact not_top_lt h

theorem entry_eq_getElem {mc : List α} {i : ℕ} (h : i < mc.length) : entry mc i = mc[i] := by
  rw [entry, List.getElem?_eq_getElem h, Option.getD_some]

theorem entry_set {mc : List α} {pos : ℕ} (h : pos < mc.length) (x : α) (i : ℕ) :
    entry (mc.set pos x) i = if i = pos then x else entry mc i := by
  rw [entry, List.getElem?_set]
  by_cases hi : pos = i
  · subst hi
    simp [h]
  · rw [if_neg hi, if_neg (Ne.symm hi), entry]

/-- The hole goes down along the lesser child until the value fits. -/
def siftDown (x : α) (mc : List α) (pos : ℕ) : List α :=
  let child1 := entry mc (2 * pos + 1)
  let child2 := entry mc (2 * pos + 2)
  if x ≤ child1 ∧ x ≤ child2 then mc.set pos x
  else if child1 < child2 then siftDown x (mc.set pos child1) (2 * pos + 1)
  else siftDown x (mc.set pos child2) (2 * pos + 2)
termination_by mc.length - pos
decreasing_by
  · have := lt_length_of_entry_lt ‹entry mc (2 * pos + 1) < entry mc (2 * pos + 2)›
    rw [List.length_set]
    omega
  · rename_i hfit hlt
    have hx : entry mc (2 * pos + 2) < x := by grind
    have := lt_length_of_entry_lt hx
    rw [List.length_set]
    omega

variable {mc : List α} {pos c : ℕ} {x : α}

/-- The value fits into the hole. -/
theorem HoleAt.fill (h : HoleAt (mc.set pos x) pos) (hpos : pos < mc.length)
    (hfit : ∀ d, 0 < d → (d - 1) / 2 = pos → x ≤ entry mc d) : IsHeap (mc.set pos x) := by
  intro d hd
  by_cases hpar : (d - 1) / 2 = pos
  · rw [entry_set hpos, entry_set hpos, if_pos hpar, if_neg (by omega)]
    exact hfit d hd hpar
  · exact h.order d hd hpar

/-- The lesser child moves into the hole. -/
theorem HoleAt.move (h : HoleAt (mc.set pos x) pos) (hpos : pos < mc.length) (hc : 0 < c)
    (hpar : (c - 1) / 2 = pos) (hlt : entry mc c < x)
    (hmin : ∀ d, 0 < d → (d - 1) / 2 = pos → entry mc c ≤ entry mc d) :
    HoleAt ((mc.set pos (entry mc c)).set c x) c := by
  have hclen : c < (mc.set pos (entry mc c)).length := by
    rw [List.length_set]
    exact lt_length_of_entry_lt hlt
  have hnew : ∀ i, entry ((mc.set pos (entry mc c)).set c x) i =
      if i = c then x else if i = pos then entry mc c else entry mc i := fun i => by
    rw [entry_set hclen, entry_set hpos]
  have hold : ∀ i, entry (mc.set pos x) i = if i = pos then x else entry mc i :=
    entry_set hpos x
  refine ⟨fun d hd hdc => ?_, fun d hd hdc _ => ?_⟩
  · rw [hnew, hnew, if_neg hdc]
    rcases eq_or_ne d c with rfl | hne
    · rw [if_pos rfl, if_pos hpar]
      exact hlt.le
    rw [if_neg hne]
    by_cases hdp : (d - 1) / 2 = pos
    · rw [if_pos hdp, if_neg (by omega)]
      exact hmin d hd hdp
    · rw [if_neg hdp]
      by_cases hd' : d = pos
      · -- the parent of the hole is not above the child that moves up
        have := h.above c hc hpar (by omega)
        rw [hold, hold, if_neg (by omega), if_neg (by omega)] at this
        rwa [if_pos hd', hd']
      · have := h.order d hd hdp
        rw [hold, hold, if_neg hdp, if_neg hd'] at this
        rwa [if_neg hd']
  · have hlow : pos < c := by omega
    rw [hnew, hnew, hpar, if_neg hlow.ne, if_pos rfl, if_neg (by omega), if_neg (by omega)]
    have := h.order d hd (by omega)
    rwa [hold, hold, hdc, if_neg hlow.ne', if_neg (by omega)] at this

/-- Moving a child into the hole swaps two entries. -/
theorem move_perm (hpos : pos < mc.length) (hc : c < mc.length) (hne : pos ≠ c) :
    ((mc.set pos (entry mc c)).set c x).Perm (mc.set pos x) := by
  have hp : pos < (mc.set pos x).length := by rwa [List.length_set]
  have hc' : c < (mc.set pos x).length := by rwa [List.length_set]
  have := List.set_set_perm hp hc'
  rwa [List.set_set, List.getElem_set_self, List.getElem_set_ne hne, ← entry_eq_getElem hc] at this

/-- The list becomes a heap, and its entries are those of the list with the value written
into the hole. -/
theorem siftDown_spec (x : α) (mc : List α) (pos : ℕ) (hpos : pos < mc.length)
    (h : HoleAt (mc.set pos x) pos) :
    IsHeap (siftDown x mc pos) ∧ (siftDown x mc pos).Perm (mc.set pos x) := by
  induction mc, pos using siftDown.induct x with
  | case1 mc pos child1 child2 hfit =>
    rw [siftDown, if_pos hfit]
    refine ⟨h.fill hpos fun d hd hpar => ?_, .refl _⟩
    obtain rfl | rfl : d = 2 * pos + 1 ∨ d = 2 * pos + 2 := by omega
    · exact hfit.1
    · exact hfit.2
  | case2 mc pos child1 child2 hfit hlt ih =>
    rw [siftDown, if_neg hfit, if_pos hlt]
    have hx : child1 < x := by grind
    have hlen := lt_length_of_entry_lt hx
    have hmove := h.move (c := 2 * pos + 1) hpos (by omega) (by omega) hx fun d hd hpar => by
      obtain rfl | rfl : d = 2 * pos + 1 ∨ d = 2 * pos + 2 := by omega
      · exact le_rfl
      · exact hlt.le
    obtain ⟨hheap, hperm⟩ := ih (by rwa [List.length_set]) hmove
    exact ⟨hheap, hperm.trans (move_perm hpos hlen (by omega))⟩
  | case3 mc pos child1 child2 hfit hlt ih =>
    rw [siftDown, if_neg hfit, if_neg hlt]
    have hx : child2 < x := by grind
    have hlen := lt_length_of_entry_lt hx
    have hmove := h.move (c := 2 * pos + 2) hpos (by omega) (by omega) hx fun d hd hpar => by
      obtain rfl | rfl : d = 2 * pos + 1 ∨ d = 2 * pos + 2 := by omega
      · exact not_lt.1 hlt
      · exact le_rfl
    obtain ⟨hheap, hperm⟩ := ih (by rwa [List.length_set]) hmove
    exact ⟨hheap, hperm.trans (move_perm hpos hlen (by omega))⟩

/-- The first entry of a heap is the least. -/
theorem IsHeap.entry_zero_le (h : IsHeap mc) (i : ℕ) : entry mc 0 ≤ entry mc i := by
  induction i using Nat.strong_induction_on with
  | _ i ih =>
    rcases Nat.eq_zero_or_pos i with rfl | hi
    · exact le_rfl
    · exact (ih _ (by omega)).trans (h i hi)

theorem IsHeap.entry_zero_le_of_mem (h : IsHeap mc) {y : α} (hy : y ∈ mc) : entry mc 0 ≤ y := by
  obtain ⟨i, hi, rfl⟩ := List.mem_iff_getElem.1 hy
  rw [← entry_eq_getElem hi]
  exact h.entry_zero_le i

/-- From a heap, the value replaces the least entry. -/
theorem IsHeap.siftDown_zero (h : IsHeap mc) (hlen : 0 < mc.length) (x : α) :
    IsHeap (siftDown x mc 0) ∧ (siftDown x mc 0).Perm (x :: mc.erase (entry mc 0)) := by
  have hset : mc.set 0 x = x :: mc.erase (entry mc 0) := by
    obtain ⟨y, rest, rfl⟩ := List.exists_cons_of_length_pos hlen
    rw [entry_eq_getElem hlen, List.getElem_cons_zero, List.erase_cons_head, List.set_cons_zero]
  rw [← hset]
  refine siftDown_spec x mc 0 hlen ⟨fun c hc hpar => ?_, fun _ _ _ h0 => absurd h0 (lt_irrefl 0)⟩
  rw [entry_set hlen, entry_set hlen, if_neg hpar, if_neg hc.ne']
  exact h c hc

theorem isHeap_replicate (n : ℕ) (x : α) : IsHeap (List.replicate n x) := by
  intro c hc
  rcases lt_or_ge c n with hlt | hge
  · rw [entry_eq_getElem (by rw [List.length_replicate]; omega),
      entry_eq_getElem (by rwa [List.length_replicate]), List.getElem_replicate,
      List.getElem_replicate]
  · rw [entry_of_length_le (i := c) (by rwa [List.length_replicate])]
    exact le_top

end Thinker.Heap
