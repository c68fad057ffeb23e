import Mathlib.Data.List.Basic
import Mathlib.Tactic

/-!
# Lists with replaced elements

Some elements of a list are replaced, each by a list. What replaces them is kept as the pairs of an
index and a list (`entries`). `expandStep` builds the list with the replacements from these pairs,
with slices of the list between them. `collapseStep` does the reverse on a list of the same shape :
each replacement becomes one element again. An index into the longer list is shifted by what was
replaced before it.
-/

namespace Thinker

namespace Splice

variable {α β γ : Type*}

/-- `l[i:j]`. -/
def slice (l : List α) (i j : ℕ) : List α :=
  (l.take j).drop i

/-- The replacements of a list, with the indices of what they replace. -/
def entries : ℕ → List (Option β) → List (ℕ × β)
  | _, [] => []
  | n, none :: os => entries (n + 1) os
  | n, some b :: os => (n, b) :: entries (n + 1) os

/-- A list after replacement, element by element. -/
def blocks (l : List α) (os : List (Option (List α))) : List (List α) :=
  List.zipWith (fun a o => o.getD [a]) l os

/-- What is before a replacement, and the replacement. -/
def expandStep (l : List α) (st : List α × ℕ) (e : ℕ × List α) : List α × ℕ :=
  (st.1 ++ slice l st.2 e.1 ++ e.2, e.1 + 1)

/-- What is before a replacement, and one element for it. The state is the list so far, the shift of
the indices and the index that is next. -/
def collapseStep (f : ℕ → List β → List γ → γ) (ps : List γ) (st : List γ × ℕ × ℕ)
    (e : ℕ × List β) : List γ × ℕ × ℕ :=
  let idx := e.1 + st.2.1
  (st.1 ++ slice ps st.2.2 idx ++ [f e.1 e.2 (slice ps idx (idx + e.2.length))],
    st.2.1 + (e.2.length - 1), idx + e.2.length)

/-- One element for each block. -/
def collapse (f : ℕ → List β → List γ → γ) : ℕ → List (Option (List β)) → List (List γ) → List γ
  | n, none :: os, r :: rs => r ++ collapse f (n + 1) os rs
  | n, some b :: os, r :: rs => f n b r :: collapse f (n + 1) os rs
  | _, _, _ => []

theorem slice_append (pre mid post : List α) :
    slice (pre ++ mid ++ post) pre.length (pre.length + mid.length) = mid := by
  unfold slice
  rw [← List.length_append, List.take_left, List.drop_left]

theorem mem_entries {n k : ℕ} {b : β} {os : List (Option β)} :
    (k, b) ∈ entries n os ↔ n ≤ k ∧ os[k - n]? = some (some b) := by
  induction os generalizing n with
  | nil => simp [entries]
  | cons o os ih =>
    rcases Nat.lt_trichotomy k n with hk | rfl | hk
    · refine iff_of_false (fun h => ?_) fun h => absurd h.1 (by omega)
      cases o with
      | none => exact absurd (ih.1 h).1 (by omega)
      | some b' =>
        rcases List.mem_cons.1 h with he | h
        · exact absurd (Prod.mk.inj he).1 (by omega)
        · exact absurd (ih.1 h).1 (by omega)
    · have hnot : (k, b) ∉ entries (k + 1) os := fun h => absurd (ih.1 h).1 (by omega)
      cases o with
      | none => simpa [entries] using hnot
      | some b' => simp [entries, hnot, eq_comm]
    · obtain ⟨d, rfl⟩ : ∃ d, k = n + 1 + d := ⟨k - (n + 1), by omega⟩
      have hd : n + 1 + d - n = d + 1 := by omega
      have htail : (n + 1 + d, b) ∈ entries n (o :: os) ↔ (n + 1 + d, b) ∈ entries (n + 1) os := by
        cases o with
        | none => rfl
        | some b' => simp [entries, show n + 1 + d ≠ n by omega]
      rw [htail, ih, hd, List.getElem?_cons_succ]
      simp [show n ≤ n + 1 + d by omega]

theorem lookup_entries {n k : ℕ} (os : List (Option β)) :
    (entries n os).lookup (n + k) = os[k]?.join := by
  induction os generalizing n k with
  | nil => rfl
  | cons o os ih =>
    cases k with
    | zero =>
      cases o with
      | none =>
        have hnone : (entries (n + 1) os).lookup n = none := by
          rw [List.lookup_eq_none_iff]
          rintro ⟨k, b⟩ hk
          have := (mem_entries.1 hk).1
          simp only [bne_iff_ne, ne_eq]
          omega
        exact hnone
      | some b => simp [entries]
    | succ k =>
      have hk : n + (k + 1) = n + 1 + k := by omega
      rw [hk, List.getElem?_cons_succ, ← ih]
      cases o with
      | none => rfl
      | some b =>
        have hne : (n + 1 + k == n) = false := beq_eq_false_iff_ne.2 (by omega)
        simp [entries, List.lookup_cons, hne]

/-- `expandStep` from a place where `pend` was not yet copied. -/
theorem expand_from (os : List (Option (List α))) (out pre pend rest : List α)
    (h : os.length = rest.length) :
    let st := (entries (pre.length + pend.length) os).foldl (expandStep (pre ++ pend ++ rest))
      (out, pre.length)
    st.1 ++ (pre ++ pend ++ rest).drop st.2 = out ++ pend ++ (blocks rest os).flatten := by
  induction os generalizing out pre pend rest with
  | nil =>
    obtain rfl : rest = [] := List.length_eq_zero_iff.1 h.symm
    simp [entries, blocks]
  | cons o os ih =>
    cases rest with
    | nil => cases h
    | cons a rest =>
      have hlen : os.length = rest.length := Nat.succ.inj h
      cases o with
      | none =>
        have hih := ih out pre (pend ++ [a]) rest hlen
        simpa [entries, blocks, Nat.add_assoc] using hih
      | some b =>
        have hih := ih (out ++ pend ++ b) (pre ++ pend ++ [a]) [] rest hlen
        have hslice := slice_append pre pend (a :: rest)
        simp only [entries, List.foldl_cons, expandStep, hslice]
        simpa [blocks, Nat.add_assoc] using hih

/-- The list with the replacements. -/
theorem expand_eq (l : List α) (os : List (Option (List α))) (h : os.length = l.length) :
    let st := (entries 0 os).foldl (expandStep l) ([], 0)
    st.1 ++ l.drop st.2 = (blocks l os).flatten := by
  simpa using expand_from os [] [] [] l h

/-- `collapseStep` from a place where `pend` was not yet copied. -/
theorem collapse_from (f : ℕ → List β → List γ → γ) (os : List (Option (List β)))
    (rs : List (List γ)) (hrs : List.Forall₂ (fun o r => r.length = o.elim 1 List.length) os rs)
    (hne : ∀ b, some b ∈ os → b ≠ []) (n off : ℕ) (out pre pend : List γ)
    (hn : n + off = pre.length + pend.length) :
    let ps := pre ++ pend ++ rs.flatten
    let st := (entries n os).foldl (collapseStep f ps) (out, off, pre.length)
    st.1 ++ ps.drop st.2.2 = out ++ pend ++ collapse f n os rs := by
  induction hrs generalizing n off out pre pend with
  | nil => simp [entries, collapse]
  | @cons o r os rs hr hrs ih =>
    have hne' : ∀ b, some b ∈ os → b ≠ [] := fun b hb => hne b (List.mem_cons_of_mem _ hb)
    cases o with
    | none =>
      obtain ⟨x, rfl⟩ := List.length_eq_one_iff.1 hr
      have hih := ih hne' (n + 1) off out pre (pend ++ [x]) (by simp; omega)
      simpa [entries, collapse] using hih
    | some b =>
      have hb : 0 < b.length := List.length_pos_iff.2 (hne b List.mem_cons_self)
      have hr : r.length = b.length := hr
      have hih := ih hne' (n + 1) (off + (b.length - 1)) (out ++ pend ++ [f n b r])
        (pre ++ pend ++ r) [] (by simp; omega)
      have hbefore : slice (pre ++ pend ++ (r ++ rs.flatten)) pre.length (n + off) = pend := by
        rw [hn, slice_append]
      have hstart : n + off + b.length = (pre ++ pend ++ r).length := by
        simp only [List.length_append]
        omega
      have hblock : slice (pre ++ pend ++ (r ++ rs.flatten)) (n + off) (pre ++ pend ++ r).length =
          r := by
        rw [hn, List.length_append, ← List.length_append, ← List.append_assoc, slice_append]
      simp only [entries, List.foldl_cons, collapseStep, List.flatten_cons, hbefore, hblock, hstart]
      simpa [collapse] using hih

/-- One element for each element of the list before replacement. -/
theorem collapse_eq (f : ℕ → List β → List γ → γ) (os : List (Option (List β)))
    (rs : List (List γ)) (hrs : List.Forall₂ (fun o r => r.length = o.elim 1 List.length) os rs)
    (hne : ∀ b, some b ∈ os → b ≠ []) :
    let st := (entries 0 os).foldl (collapseStep f rs.flatten) ([], 0, 0)
    st.1 ++ rs.flatten.drop st.2.2 = collapse f 0 os rs := by
  simpa using collapse_from f os rs hrs hne 0 0 [] [] [] rfl

theorem length_collapse (f : ℕ → List β → List γ → γ) {os : List (Option (List β))}
    {rs : List (List γ)} (hrs : List.Forall₂ (fun o r => r.length = o.elim 1 List.length) os rs)
    (n : ℕ) : (collapse f n os rs).length = os.length := by
  induction hrs generalizing n with
  | nil => rfl
  | @cons o r os rs hr hrs ih =>
    cases o with
    | none =>
      have hr : r.length = 1 := hr
      rw [collapse, List.length_append, ih, hr, List.length_cons, Nat.add_comm]
    | some b => rw [collapse, List.length_cons, ih, List.length_cons]

/-- The element for a block. -/
theorem getElem?_collapse (f : ℕ → List β → List γ → γ) {os : List (Option (List β))}
    {rs : List (List γ)} (hrs : List.Forall₂ (fun o r => r.length = o.elim 1 List.length) os rs)
    (n k : ℕ) : (collapse f n os rs)[k]? =
      os[k]?.bind fun o => rs[k]?.bind fun r => o.elim r.head? fun b => some (f (n + k) b r) := by
  induction hrs generalizing n k with
  | nil => simp [collapse]
  | @cons o r os rs hr hrs ih =>
    have hcons : ∃ x, collapse f n (o :: os) (r :: rs) = x :: collapse f (n + 1) os rs ∧
        o.elim r.head? (fun b => some (f n b r)) = some x := by
      cases o with
      | none =>
        obtain ⟨x, rfl⟩ := List.length_eq_one_iff.1 hr
        exact ⟨x, rfl, rfl⟩
      | some b => exact ⟨_, rfl, rfl⟩
    obtain ⟨x, hx, hhead⟩ := hcons
    rw [hx]
    cases k with
    | zero => simpa using hhead.symm
    | succ k =>
      have hk : n + 1 + k = n + (k + 1) := by omega
      simpa [hk] using ih (n + 1) k

/-- A block of a list that is put together from blocks. -/
theorem take_drop_flatten (ls : List (List α)) (post : List α) (k : ℕ) (hk : k < ls.length) :
    ((ls.flatten ++ post).drop ((ls.take k).map List.length).sum).take ls[k].length = ls[k] := by
  induction ls generalizing k with
  | nil => cases hk
  | cons l ls ih =>
    cases k with
    | zero => simp
    | succ k =>
      have hdrop : (l :: ls).flatten ++ post = l ++ (ls.flatten ++ post) := by simp
      rw [List.take_succ_cons, List.map_cons, List.sum_cons, hdrop, ← List.drop_drop,
        List.drop_left, List.getElem_cons_succ]
      exact ih k (Nat.lt_of_succ_lt_succ hk)

/-- What is related to a list of blocks is one of blocks itself. -/
theorem exists_blocks {R : γ → α → Prop} (ls : List (List α)) (post : List α) (l : List γ)
    (h : List.Forall₂ R l (ls.flatten ++ post)) :
    ∃ rs post', l = rs.flatten ++ post' ∧ List.Forall₂ (List.Forall₂ R) rs ls ∧
      List.Forall₂ R post' post := by
  induction ls generalizing l with
  | nil => exact ⟨[], l, rfl, .nil, h⟩
  | cons b ls ih =>
    rw [List.flatten_cons, List.append_assoc] at h
    obtain ⟨rs, post', hl, hrs, hpost⟩ := ih _ (List.forall₂_drop_append _ _ _ h)
    refine ⟨l.take b.length :: rs, post', ?_, .cons (List.forall₂_take_append _ _ _ h) hrs, hpost⟩
    rw [List.flatten_cons, List.append_assoc, ← hl, List.take_append_drop]

end Splice

end Thinker
