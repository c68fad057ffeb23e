import Thinker.Linked

/-!
# Wrap-around clocks

`timer_is_before` compares two readings of a 32 bit clock that rolls over. It is no order :
only among times that are all within half of the clock's range from one base time it is, and
there it compares the ticks from the base (`timerIsBefore_iff_of_le`). `TimeWindow` is a list of
such times in their order.
-/

set_option linter.unusedSectionVars false

namespace Thinker

/-- `timer_is_before` : `(int32_t)(time1 - time2) < 0`. -/
def timerIsBefore (time1 time2 : BitVec 32) : Bool :=
  (time1 - time2).slt 0

/-- The ticks from one time to another. -/
def ticks (a b : BitVec 32) : ℕ :=
  (b - a).toNat

variable {a b c : BitVec 32}

theorem ticks_lt (a b : BitVec 32) : ticks a b < 2 ^ 32 :=
  (b - a).isLt

@[simp] theorem ticks_self (a : BitVec 32) : ticks a a = 0 := by
  simp [ticks]

@[simp] theorem ticks_add (a k : BitVec 32) : ticks a (a + k) = k.toNat := by
  unfold ticks
  bv_omega

theorem ticks_trans (a b c : BitVec 32) : ticks a c = (ticks a b + ticks b c) % 2 ^ 32 := by
  unfold ticks
  bv_omega

theorem ticks_eq_zero : ticks a b = 0 ↔ a = b := by
  unfold ticks
  bv_omega

theorem timerIsBefore_iff : timerIsBefore a b = true ↔ 0 < ticks a b ∧ ticks a b ≤ 2 ^ 31 := by
  unfold timerIsBefore ticks
  rw [BitVec.slt_iff_toInt_lt, BitVec.toInt_eq_toNat_cond]
  have hflip : (a - b).toNat = (2 ^ 32 - (b - a).toNat) % 2 ^ 32 := by bv_omega
  have := (a - b).isLt
  have := (b - a).isLt
  have hzero : (0 : BitVec 32).toInt = 0 := rfl
  rw [hzero]
  split_ifs <;> omega

/-- Near a base time `timer_is_before` compares the ticks from it. -/
theorem timerIsBefore_iff_of_le (base : BitVec 32) (ha : ticks base a < 2 ^ 31)
    (hb : ticks base b ≤ 2 ^ 31) : timerIsBefore a b = true ↔ ticks base a < ticks base b := by
  have h := ticks_trans base a b
  have := ticks_lt a b
  rw [timerIsBefore_iff]
  omega

theorem ticks_lt_of_timerIsBefore (h : timerIsBefore b a = false) : ticks a b < 2 ^ 31 := by
  have h1 := ticks_trans b a b
  have := ticks_lt a b
  have := ticks_lt b a
  rw [← Bool.not_eq_true, timerIsBefore_iff] at h
  rw [ticks_self] at h1
  omega

/-- No later than. -/
def NotAfter (a b : BitVec 32) : Prop :=
  a = b ∨ timerIsBefore a b = true

instance (a b : BitVec 32) : Decidable (NotAfter a b) :=
  inferInstanceAs (Decidable (_ ∨ _))

theorem notAfter_iff : NotAfter a b ↔ ticks a b ≤ 2 ^ 31 := by
  rw [NotAfter, timerIsBefore_iff, ← ticks_eq_zero]
  omega

/-! ## Times in order -/

variable {α : Type*} [DecidableEq α]

/-- The times of the list are in order, and within half of the clock's range from the base. -/
structure TimeWindow (wt : α → BitVec 32) (base : BitVec 32) (l : List α) : Prop where
  sorted : l.Pairwise fun x y => ticks base (wt x) ≤ ticks base (wt y)
  near : ∀ x ∈ l, ticks base (wt x) ≤ 2 ^ 31

namespace TimeWindow

variable {wt wt' : α → BitVec 32} {base base' w : BitVec 32} {l p q : List α} {x t : α}

theorem nil : TimeWindow wt base [] :=
  ⟨List.Pairwise.nil, fun _ h => absurd h List.not_mem_nil⟩

theorem congr (h : TimeWindow wt base l) (heq : ∀ x ∈ l, wt' x = wt x) : TimeWindow wt' base l := by
  refine ⟨h.sorted.imp_of_mem fun hx hy hle => ?_, fun x hx => ?_⟩
  · rwa [heq _ hx, heq _ hy]
  · rw [heq x hx]
    exact h.near x hx

theorem sublist (h : TimeWindow wt base l) (hp : p.Sublist l) : TimeWindow wt base p :=
  ⟨h.sorted.sublist hp, fun x hx => h.near x (hp.subset hx)⟩

/-- The base itself may stand in front. -/
theorem cons_base (h : TimeWindow wt (wt x) l) : TimeWindow wt (wt x) (x :: l) := by
  refine ⟨List.pairwise_cons.2 ⟨fun y _ => ?_, h.sorted⟩, fun y hy => ?_⟩
  · rw [ticks_self]
    exact Nat.zero_le _
  · rcases List.mem_cons.1 hy with rfl | hy
    · rw [ticks_self]
      exact Nat.zero_le _
    · exact h.near y hy

/-- Time may go on up to the first time of the list. -/
theorem forward (h : TimeWindow wt base l) (hle : ∀ x ∈ l, ticks base base' ≤ ticks base (wt x)) :
    TimeWindow wt base' l := by
  have hshift : ∀ x ∈ l, ticks base' (wt x) = ticks base (wt x) - ticks base base' := by
    intro x hx
    have := hle x hx
    have := h.near x hx
    have := ticks_trans base base' (wt x)
    have := ticks_lt base' (wt x)
    have := ticks_lt base base'
    omega
  refine ⟨h.sorted.imp_of_mem fun hx hy hxy => ?_, fun x hx => ?_⟩
  · rw [hshift _ hx, hshift _ hy]
    omega
  · rw [hshift x hx]
    have := h.near x hx
    omega

/-- The base may be a time before all times of the list. -/
theorem backward (h : TimeWindow wt base l) (hbase : timerIsBefore base' base = true)
    (hl : ∀ x ∈ l, timerIsBefore base' (wt x) = true) : TimeWindow wt base' l := by
  have hb := timerIsBefore_iff.1 hbase
  have hshift : ∀ x ∈ l, ticks base' (wt x) = ticks base' base + ticks base (wt x) := by
    intro x hx
    have := timerIsBefore_iff.1 (hl x hx)
    have := h.near x hx
    have := ticks_trans base' base (wt x)
    omega
  refine ⟨h.sorted.imp_of_mem fun hx hy hxy => ?_, fun x hx => ?_⟩
  · rw [hshift _ hx, hshift _ hy]
    omega
  · exact (timerIsBefore_iff.1 (hl x hx)).2

/-- The times of the list do not go down. -/
theorem notAfter (h : TimeWindow wt base l) : l.Pairwise fun x y => NotAfter (wt x) (wt y) := by
  refine h.sorted.imp_of_mem fun {x y} hx hy hxy => ?_
  have := h.near x hx
  have := h.near y hy
  have := ticks_trans base (wt x) (wt y)
  have := ticks_lt (wt x) (wt y)
  rw [notAfter_iff]
  omega

/-- A timer is placed in the order of its time. -/
theorem place (h : TimeWindow wt base l) (ht : ticks base (wt t) < 2 ^ 31) :
    TimeWindow wt base (place (fun pos => timerIsBefore (wt t) (wt pos)) t l) := by
  refine ⟨place_pairwise h.sorted fun y hy => ?_, fun y hy => ?_⟩
  · exact timerIsBefore_iff_of_le base ht (h.near y hy)
  · rcases List.mem_cons.1 ((place_perm _ t l).mem_iff.1 hy) with rfl | hy
    · exact ht.le
    · exact h.near y hy

end TimeWindow

end Thinker
