import Mathlib.Tactic

/-!
# Singly linked lists

A list in memory is a map from each node to the node that its pointer leads to. `Linked` says
which nodes a walk from one node to another passes. `walkInsert` and `walkRemove` are the two
loops that change such a list in place. Both are given fuel, and with more fuel than the list
has nodes they end (`walkInsert_spec`, `walkRemove_spec`).
-/

set_option linter.unusedSectionVars false

namespace Thinker

variable {α : Type*} [DecidableEq α]

/-- From `a` the pointers lead through the nodes of the list to `b`. -/
def Linked (next : α → Option α) : α → List α → α → Prop
  | a, [], b => next a = some b
  | a, x :: l, b => next a = some x ∧ Linked next x l b

variable {next next' : α → Option α} {a b t x : α} {l p q : List α}

namespace Linked

theorem append_iff : Linked next a (p ++ x :: q) b ↔ Linked next a p x ∧ Linked next x q b := by
  induction p generalizing a with
  | nil => exact Iff.rfl
  | cons y p ih => simp only [List.cons_append, Linked, ih, and_assoc]

/-- The list depends on the pointer of its start and on those of its nodes. -/
theorem congr {a' : α} (h : Linked next a l b) (hstart : next' a' = next a)
    (hl : ∀ y ∈ l, next' y = next y) : Linked next' a' l b := by
  induction l generalizing a a' with
  | nil => exact hstart.trans h
  | cons y l ih =>
    exact ⟨hstart.trans h.1, ih h.2 (hl y List.mem_cons_self)
      fun z hz => hl z (List.mem_cons_of_mem y hz)⟩

theorem frame (h : Linked next a l b) (hl : ∀ y ∈ a :: l, next' y = next y) :
    Linked next' a l b :=
  h.congr (hl a List.mem_cons_self) fun y hy => hl y (List.mem_cons_of_mem a hy)

/-- The two writes that put `t` behind the start. -/
theorem insert (h : Linked next a l b) {c : α} (hc : next a = some c) (hnodup : (a :: l).Nodup)
    (ht : t ∉ a :: l) :
    Linked (Function.update (Function.update next t (some c)) a (some t)) a (t :: l) b := by
  have hta : t ≠ a := fun h => ht (h ▸ List.mem_cons_self)
  refine ⟨Function.update_self _ _ _, h.congr ?_ fun y hy => ?_⟩
  · rw [Function.update_of_ne hta, Function.update_self, hc]
  · have hya : y ≠ a := fun h => (List.nodup_cons.1 hnodup).1 (h ▸ hy)
    have hyt : y ≠ t := fun h => ht (h ▸ List.mem_cons_of_mem a hy)
    rw [Function.update_of_ne hya, Function.update_of_ne hyt]

end Linked

/-! ## Inserting a node -/

/-- Walk from `prev` to the first node behind it that meets `stop`, and insert `t` in front
of that node. -/
def walkInsert (stop : α → Bool) (t : α) : ℕ → α → (α → Option α) → Option (α → Option α)
  | 0, _, _ => none
  | fuel + 1, prev, next =>
    match next prev with
    | none => none
    | some pos =>
      if stop pos then some (Function.update (Function.update next t (some pos)) prev (some t))
      else walkInsert stop t fuel pos next

/-- The nodes of the list with `t` in front of the first one that meets `stop`. -/
def place (stop : α → Bool) (t : α) : List α → List α
  | [] => [t]
  | x :: l => if stop x then t :: x :: l else x :: place stop t l

variable {stop : α → Bool}

theorem place_perm (stop : α → Bool) (t : α) (l : List α) : (place stop t l).Perm (t :: l) := by
  induction l with
  | nil => exact List.Perm.refl _
  | cons x l ih =>
    unfold place
    split_ifs
    · exact List.Perm.refl _
    · exact (ih.cons x).trans (List.Perm.swap t x l)

/-- Where `stop` compares with `t`, an ordered list stays ordered. -/
theorem place_pairwise {d : α → ℕ} (hl : l.Pairwise fun x y => d x ≤ d y)
    (hstop : ∀ y ∈ l, stop y = true ↔ d t < d y) :
    (place stop t l).Pairwise fun x y => d x ≤ d y := by
  induction l with
  | nil => exact List.pairwise_singleton _ _
  | cons x l ih =>
    obtain ⟨hx, hl'⟩ := List.pairwise_cons.1 hl
    have hcmp := hstop x List.mem_cons_self
    unfold place
    split_ifs with h
    · refine List.pairwise_cons.2 ⟨fun y hy => ?_, hl⟩
      have hlt := hcmp.1 h
      rcases List.mem_cons.1 hy with rfl | hy
      · exact hlt.le
      · exact hlt.le.trans (hx y hy)
    · refine List.pairwise_cons.2 ⟨fun y hy => ?_,
        ih hl' fun y hy => hstop y (List.mem_cons_of_mem x hy)⟩
      rcases List.mem_cons.1 ((place_perm stop t l).mem_iff.1 hy) with rfl | hy
      · exact not_lt.1 (mt hcmp.2 h)
      · exact hx y hy

/-- A node that does not meet `stop` is passed. -/
theorem walkInsert_succ {fuel : ℕ} (h : next a = some x) (hx : stop x = false) :
    walkInsert stop t (fuel + 1) a next = walkInsert stop t fuel x next := by
  simp [walkInsert, h, hx]

/-- If some node or the end of the list meets `stop`, the walk ends with `t` in its place. -/
theorem walkInsert_spec {fuel : ℕ} (h : Linked next a l b) (hnodup : (a :: l).Nodup)
    (ht : t ∉ a :: l) (hstop : stop b = true ∨ ∃ y ∈ l, stop y = true) (hfuel : l.length < fuel) :
    ∃ next', walkInsert stop t fuel a next = some next' ∧ Linked next' a (place stop t l) b ∧
      ∀ y, y ∉ a :: l → y ≠ t → next' y = next y := by
  induction l generalizing a fuel with
  | nil =>
    obtain ⟨fuel, rfl⟩ := Nat.exists_eq_add_one_of_ne_zero (Nat.ne_of_gt hfuel)
    have hb : stop b = true := by simpa using hstop
    refine ⟨Function.update (Function.update next t (some b)) a (some t), ?_,
      h.insert h hnodup ht, fun y hy hyt => ?_⟩
    · unfold Linked at h
      simp [walkInsert, h, hb]
    · rw [Function.update_of_ne (List.ne_of_not_mem_cons hy), Function.update_of_ne hyt]
  | cons x l ih =>
    obtain ⟨fuel, rfl⟩ := Nat.exists_eq_add_one_of_ne_zero (Nat.ne_of_gt (Nat.zero_lt_of_lt hfuel))
    rw [List.length_cons] at hfuel
    cases hx : stop x with
    | true =>
      refine ⟨Function.update (Function.update next t (some x)) a (some t), ?_, ?_,
        fun y hy hyt => ?_⟩
      · simp [walkInsert, h.1, hx]
      · rw [place, if_pos hx]
        exact h.insert h.1 hnodup ht
      · rw [Function.update_of_ne (List.ne_of_not_mem_cons hy), Function.update_of_ne hyt]
    | false =>
      have hstop' : stop b = true ∨ ∃ y ∈ l, stop y = true := by simpa [hx] using hstop
      obtain ⟨ha, hnodup'⟩ := List.nodup_cons.1 hnodup
      obtain ⟨next', heq, hlinked, hframe⟩ :=
        ih h.2 hnodup' (fun hm => ht (List.mem_cons_of_mem a hm)) hstop'
          (show l.length < fuel by omega)
      refine ⟨next', ?_, ?_, fun y hy hyt => hframe y (fun hm => hy (List.mem_cons_of_mem a hm)) hyt⟩
      · rw [walkInsert_succ h.1 hx, heq]
      · have hta : a ≠ t := fun h => ht (h ▸ List.mem_cons_self)
        rw [place, hx]
        exact ⟨(hframe a ha hta).trans h.1, hlinked⟩

/-- Nodes that do not meet `stop` stay in front. -/
theorem place_append (h : ∀ y ∈ p, stop y = false) :
    place stop t (p ++ q) = p ++ place stop t q := by
  induction p with
  | nil => rfl
  | cons x p ih =>
    rw [List.cons_append, place, h x List.mem_cons_self,
      ih fun y hy => h y (List.mem_cons_of_mem x hy)]
    rfl

/-- The walk may also start behind nodes that do not meet `stop`. -/
theorem walkInsert_mid {fuel : ℕ} (h : Linked next a (p ++ x :: q) b)
    (hnodup : (a :: (p ++ x :: q)).Nodup) (ht : t ∉ a :: (p ++ x :: q))
    (hpass : ∀ y ∈ p ++ [x], stop y = false)
    (hstop : stop b = true ∨ ∃ y ∈ p ++ x :: q, stop y = true) (hfuel : q.length < fuel) :
    ∃ next', walkInsert stop t fuel x next = some next' ∧
      Linked next' a (place stop t (p ++ x :: q)) b ∧
      ∀ y, y ∉ a :: (p ++ x :: q) → y ≠ t → next' y = next y := by
  obtain ⟨hp, hq⟩ := Linked.append_iff.1 h
  have hmem : ∀ y ∈ x :: q, y ∈ a :: (p ++ x :: q) := fun y hy =>
    List.mem_cons_of_mem a (List.mem_append_right p hy)
  have hnodup' : ((a :: p) ++ x :: q).Nodup := hnodup
  have hdisj := List.disjoint_of_nodup_append hnodup'
  have hstop' : stop b = true ∨ ∃ y ∈ q, stop y = true := by
    rcases hstop with hb | ⟨y, hy, hs⟩
    · exact Or.inl hb
    · refine Or.inr ⟨y, ?_, hs⟩
      rcases List.mem_append.1 hy with hy | hy
      · simp [hpass y (List.mem_append_left _ hy)] at hs
      · rcases List.mem_cons.1 hy with rfl | hy
        · simp [hpass y (by simp)] at hs
        · exact hy
  obtain ⟨next', heq, hlinked, hframe⟩ :=
    walkInsert_spec hq hnodup'.of_append_right
      (fun hm => ht (hmem t hm)) hstop' hfuel
  refine ⟨next', heq, ?_, fun y hy hyt => hframe y (fun hm => hy (hmem y hm)) hyt⟩
  have hplace : place stop t (p ++ x :: q) = p ++ x :: place stop t q := by
    have := place_append (t := t) (q := q) hpass
    rwa [List.append_assoc, List.append_assoc] at this
  rw [hplace, Linked.append_iff]
  refine ⟨hp.frame fun y hy => hframe y (fun hm => hdisj hy hm) ?_, hlinked⟩
  rintro rfl
  exact ht (by simpa using (List.mem_append_left (x :: q) hy))

/-! ## Removing a node -/

/-- Walk from `pos` to the node in front of `del`, and unlink `del` there. -/
def walkRemove (del : α) : ℕ → α → (α → Option α) → Option (α → Option α)
  | 0, _, _ => none
  | fuel + 1, pos, next =>
    match next pos with
    | none => some next
    | some x =>
      if x = del then some (Function.update next pos (next del))
      else walkRemove del fuel x next

/-- The walk ends, and `del` is not in the list afterwards. -/
theorem walkRemove_spec {del : α} {fuel : ℕ} (h : Linked next a l b) (hb : next b = none)
    (hdel : del ≠ b) (hnodup : (a :: l).Nodup) (hfuel : l.length + 1 < fuel) :
    ∃ next', walkRemove del fuel a next = some next' ∧ Linked next' a (l.erase del) b ∧
      ∀ y, y ∉ a :: l → next' y = next y := by
  induction l generalizing a fuel with
  | nil =>
    obtain ⟨fuel, rfl⟩ : ∃ k, fuel = k + 2 := ⟨fuel - 2, by rw [List.length_nil] at hfuel; omega⟩
    unfold Linked at h
    refine ⟨next, ?_, h, fun _ _ => rfl⟩
    simp [walkRemove, h, hb, hdel.symm]
  | cons x l ih =>
    obtain ⟨fuel, rfl⟩ := Nat.exists_eq_add_one_of_ne_zero (Nat.ne_of_gt (Nat.zero_lt_of_lt hfuel))
    rw [List.length_cons] at hfuel
    obtain ⟨ha, hnodup'⟩ := List.nodup_cons.1 hnodup
    by_cases hx : x = del
    · subst hx
      refine ⟨Function.update next a (next x), ?_, ?_, fun y hy => ?_⟩
      · simp [walkRemove, h.1]
      · rw [List.erase_cons_head]
        refine h.2.congr (Function.update_self _ _ _) fun y hy => ?_
        have hya : y ≠ a := fun h => ha (h ▸ List.mem_cons_of_mem x hy)
        exact Function.update_of_ne hya _ _
      · exact Function.update_of_ne (List.ne_of_not_mem_cons hy) _ _
    · obtain ⟨next', heq, hlinked, hframe⟩ := ih h.2 hnodup' (show l.length + 1 < fuel by omega)
      refine ⟨next', ?_, ?_, fun y hy => hframe y fun hm => hy (List.mem_cons_of_mem a hm)⟩
      · simp [walkRemove, h.1, hx, heq]
      · rw [List.erase_cons_tail (by simpa using hx)]
        exact ⟨(hframe a ha).trans h.1, hlinked⟩

end Thinker
