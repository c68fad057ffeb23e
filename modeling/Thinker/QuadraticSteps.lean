import Mathlib.Tactic
import Thinker.Numerals

/-!
# Quadratic sequences

A sequence that starts with a step and changes the step by the same amount each time is at
`quad add interval k` after `k` steps. How many steps it has made by some time is the floor of a
root of its equation (`quad_le_iff_le_root`).

Windows that lie behind one another (`Windows`) are met by such a sequence one after the other
(`Meets`) : so it increases, a longer one ends later, and what the change of the steps adds up to is
bounded by where it ends (`Meets.abs_mul_tri_le`).
-/

namespace Thinker

/-- `k * (k - 1) / 2`. -/
def tri (k : ℕ) : ℤ :=
  (k : ℤ) * (k - 1) / 2

/-- Where a sequence is after `k` steps. -/
def quad (add interval : ℤ) (k : ℕ) : ℤ :=
  add * tri k + interval * k

theorem two_mul_tri (k : ℕ) : 2 * tri k = k * (k - 1) := by
  have h : (2 : ℤ) ∣ (k : ℤ) * (k - 1) := by
    have := (Int.even_mul_pred_self (k : ℤ)).two_dvd
    exact this
  exact Int.mul_ediv_cancel' h

theorem tri_succ (k : ℕ) : tri (k + 1) = tri k + k := by
  have h := two_mul_tri k
  have h' := two_mul_tri (k + 1)
  push_cast at h'
  linarith

theorem tri_nonneg (k : ℕ) : 0 ≤ tri k := by
  induction k with
  | zero => decide
  | succ k ih =>
    rw [tri_succ]
    positivity

@[simp] theorem tri_one : tri 1 = 0 := by
  decide

theorem quad_succ (add interval : ℤ) (k : ℕ) :
    quad add interval (k + 1) = quad add interval k + (interval + add * k) := by
  unfold quad
  rw [tri_succ]
  push_cast
  ring

@[simp] theorem quad_zero (add interval : ℤ) : quad add interval 0 = 0 := by
  simp [quad, tri]

@[simp] theorem quad_one (add interval : ℤ) : quad add interval 1 = interval := by
  simp [quad]

/-- If no step goes back, what is added to the steps is at most where the sequence ends. -/
theorem abs_mul_tri_le_quad {add interval : ℤ} {d : ℕ} (hfirst : 0 ≤ interval)
    (hlast : 0 ≤ interval + add * d) : |add| * tri (d + 1) ≤ quad add interval (d + 1) := by
  have htri := two_mul_tri (d + 1)
  push_cast at htri
  rw [add_sub_cancel_right] at htri
  have hd : (0 : ℤ) ≤ d := Int.natCast_nonneg d
  unfold quad
  push_cast
  rcases abs_cases add with ⟨habs, hsign⟩ | ⟨habs, hsign⟩
  · rw [habs]
    nlinarith
  · rw [habs]
    nlinarith

/-- If no step goes back, neither does the sequence. -/
theorem quad_le_quad {add interval : ℤ} {n : ℕ}
    (hstep : ∀ j, 1 ≤ j → j < n → 0 ≤ interval + add * j) {j k : ℕ} (hj : 1 ≤ j) (hjk : j ≤ k)
    (hk : k ≤ n) : quad add interval j ≤ quad add interval k := by
  induction k, hjk using Nat.le_induction with
  | base => exact le_rfl
  | succ k hjk ih =>
    rw [quad_succ]
    have hnext := hstep k (hj.trans hjk) hk
    have hprev := ih (by omega)
    linarith

/-! ## The steps of a sequence -/

/-- The clocks of `count` steps : `next += interval; interval += add` before each. -/
def stepClocks (add : ℤ) : ℤ → ℤ → ℕ → List ℤ
  | _, _, 0 => []
  | next, interval, count + 1 =>
    (next + interval) :: stepClocks add (next + interval) (interval + add) count

theorem quad_succ' (add interval : ℤ) (k : ℕ) :
    quad add interval (k + 1) = interval + quad add (interval + add) k := by
  unfold quad
  rw [tri_succ]
  push_cast
  ring

/-- As many steps are over as the sequence has made up to a clock. -/
theorem countP_stepClocks {add next interval clock : ℤ} {count m : ℕ} (hm : m ≤ count)
    (h : ∀ k, 1 ≤ k → k ≤ count → (next + quad add interval k ≤ clock ↔ k ≤ m)) :
    (stepClocks add next interval count).countP (fun step => step ≤ clock) = m := by
  induction count generalizing next interval m with
  | zero => exact (Nat.le_zero.1 hm).symm
  | succ count ih =>
    have hfirst := h 1 le_rfl (by omega)
    rw [quad_one] at hfirst
    rw [stepClocks, List.countP_cons]
    have hrest : ∀ k, 1 ≤ k → k ≤ count →
        (next + interval + quad add (interval + add) k ≤ clock ↔ k ≤ m - 1) := fun k hk hkc => by
      have hnext := h (k + 1) (by omega) (by omega)
      rw [quad_succ', ← add_assoc] at hnext
      rw [hnext]
      omega
    rw [ih (by omega) hrest]
    rcases Nat.eq_zero_or_pos m with rfl | hpos
    · simpa using hfirst
    · rw [if_pos (decide_eq_true (hfirst.2 hpos)), Nat.sub_add_cancel hpos]

/-! ## The inverse of a sequence -/

section Root

variable {K : Type*} [Field K] [LinearOrder K] [IsStrictOrderedRing K]

/-- Where a sequence is, with `a = add / 2` and `b = interval - add / 2`. -/
theorem cast_quad (add interval : ℤ) (k : ℕ) :
    ((quad add interval k : ℤ) : K) =
      (add : K) / 2 * k ^ 2 + ((interval : K) - (add : K) / 2) * k := by
  have htri : (2 : K) * (tri k : ℤ) = k * (k - 1) := by
    exact_mod_cast congrArg (Int.cast : ℤ → K) (two_mul_tri k)
  unfold quad
  push_cast
  linear_combination (add : K) / 2 * htri

variable {a b t s x : K}

theorem mul_sub_eq (hs : s * s = b * b + 4 * a * t) :
    4 * a * (a * x ^ 2 + b * x - t) = (2 * a * x + b) ^ 2 - s ^ 2 := by
  linear_combination hs

/-- A parabola that is open at the top, after it has passed below `t`. -/
theorem le_root_of_pos (ha : 0 < a) (hs : 0 ≤ s) (hsq : s * s = b * b + 4 * a * t)
    {x₀ : K} (h₀ : a * x₀ ^ 2 + b * x₀ ≤ t) (hx : x₀ ≤ x) :
    a * x ^ 2 + b * x ≤ t ↔ x ≤ (s - b) / (2 * a) := by
  have hlow : -s ≤ 2 * a * x₀ + b := by
    refine (abs_le.1 (abs_le_of_sq_le_sq ?_ hs)).1
    have hle := mul_nonpos_of_nonneg_of_nonpos (by positivity : 0 ≤ 4 * a) (sub_nonpos.2 h₀)
    rw [mul_sub_eq hsq] at hle
    exact sub_nonpos.1 hle
  have hmono : 2 * a * x₀ + b ≤ 2 * a * x + b := by
    gcongr
  rw [le_div_iff₀ (by positivity)]
  constructor
  · intro h
    have hle := mul_nonpos_of_nonneg_of_nonpos (by positivity : 0 ≤ 4 * a) (sub_nonpos.2 h)
    rw [mul_sub_eq hsq] at hle
    have habs := (abs_le.1 (abs_le_of_sq_le_sq (sub_nonpos.1 hle) hs)).2
    linarith
  · intro h
    have hsq' : (2 * a * x + b) ^ 2 ≤ s ^ 2 :=
      sq_le_sq' (hlow.trans hmono) (by linarith)
    have hle : 4 * a * (a * x ^ 2 + b * x - t) ≤ 0 := by
      rw [mul_sub_eq hsq]
      exact sub_nonpos.2 hsq'
    exact sub_nonpos.1 (nonpos_of_mul_nonpos_right hle (by positivity))

/-- A parabola that is open at the bottom, before it has passed above `t`. -/
theorem le_root_of_neg (ha : a < 0) (hs : 0 ≤ s) (hsq : s * s = b * b + 4 * a * t)
    {x₁ : K} (h₁ : t < a * x₁ ^ 2 + b * x₁) (hx : x ≤ x₁) :
    a * x ^ 2 + b * x ≤ t ↔ x ≤ (s - b) / (2 * a) := by
  have hlow : -s < 2 * a * x₁ + b := by
    refine (abs_lt.1 (abs_lt_of_sq_lt_sq ?_ hs)).1
    have hlt := mul_neg_of_neg_of_pos (by linarith : 4 * a < 0) (sub_pos.2 h₁)
    rw [mul_sub_eq hsq] at hlt
    exact sub_neg.1 hlt
  have hmono : 2 * a * x₁ + b ≤ 2 * a * x + b := by
    nlinarith
  rw [le_div_iff_of_neg (by linarith)]
  constructor
  · intro h
    have hle := mul_nonneg_of_nonpos_of_nonpos (by linarith : 4 * a ≤ 0) (sub_nonpos.2 h)
    rw [mul_sub_eq hsq] at hle
    have habs := sq_le_sq.1 (sub_nonneg.1 hle)
    rw [abs_of_nonneg hs] at habs
    rcases le_abs.1 habs with habs | habs
    · linarith
    · linarith
  · intro h
    have hsq' : s ^ 2 ≤ (2 * a * x + b) ^ 2 := by
      gcongr
      linarith
    have hle : 0 ≤ 4 * a * (a * x ^ 2 + b * x - t) := by
      rw [mul_sub_eq hsq]
      exact sub_nonneg.2 hsq'
    have h4a : 4 * a < 0 := by linarith
    nlinarith

/-- A square root that is exact. -/
def ExactSqrt (sqrt : K → K) : Prop :=
  ∀ x, 0 ≤ x → 0 ≤ sqrt x ∧ sqrt x * sqrt x = x

/-- A sequence that starts at or before `t` and ends after it has made as many steps by `t` as the
root of its equation says, with either sign of `add`. -/
theorem quad_le_iff_le_root {sqrt : K → K} (hsqrt : ExactSqrt sqrt) {add interval t : ℤ} {n : ℕ}
    (hadd : add ≠ 0) (hfirst : quad add interval 1 ≤ t) (hlast : t < quad add interval n) {k : ℕ}
    (hk : 1 ≤ k) (hkn : k ≤ n) :
    quad add interval k ≤ t ↔
      (k : K) ≤ (sqrt ((interval - add / 2) * (interval - add / 2) - 4 * (add / 2) * -t) -
        (interval - add / 2)) / (2 * (add / 2)) := by
  have hcast : (quad add interval k ≤ t) ↔
      (add : K) / 2 * k ^ 2 + ((interval : K) - (add : K) / 2) * k ≤ t := by
    rw [← cast_quad]
    exact Int.cast_le.symm
  have hfirst' : (add : K) / 2 * ((1 : ℕ) : K) ^ 2 +
      ((interval : K) - (add : K) / 2) * ((1 : ℕ) : K) ≤ t := by
    rw [← cast_quad]
    exact Int.cast_le.2 hfirst
  have hlast' : (t : K) < (add : K) / 2 * (n : K) ^ 2 +
      ((interval : K) - (add : K) / 2) * (n : K) := by
    rw [← cast_quad]
    exact Int.cast_lt.2 hlast
  rw [hcast]
  rcases lt_or_gt_of_ne hadd with hneg | hpos
  · have ha : (add : K) / 2 < 0 := by
      have hneg : (add : K) < 0 := Int.cast_lt_zero.2 hneg
      linarith
    have hdisc : 0 ≤ ((interval : K) - add / 2) * (interval - add / 2) - 4 * (add / 2) * -t := by
      have hsq := sq_nonneg (2 * ((add : K) / 2) * n + (interval - add / 2))
      nlinarith
    obtain ⟨hroot, hroot_sq⟩ := hsqrt _ hdisc
    exact le_root_of_neg ha hroot (by rw [hroot_sq]; ring) hlast' (Nat.cast_le.2 hkn)
  · have ha : 0 < (add : K) / 2 := by
      have hpos : 0 < (add : K) := Int.cast_pos.2 hpos
      linarith
    have hdisc : 0 ≤ ((interval : K) - add / 2) * (interval - add / 2) - 4 * (add / 2) * -t := by
      have hsq := sq_nonneg (2 * ((add : K) / 2) * ((1 : ℕ) : K) + (interval - add / 2))
      nlinarith
    obtain ⟨hroot, hroot_sq⟩ := hsqrt _ hdisc
    exact le_root_of_pos ha hroot (by rw [hroot_sq]; ring) hfirst' (Nat.cast_le.2 hk)

end Root

/-! ## Sequences that meet windows -/

/-- Windows for the steps from the first to the last, behind one another and within a bound. -/
structure Windows (lo hi : ℕ → ℤ) (n : ℕ) (bound : ℤ) : Prop where
  le : ∀ k, 1 ≤ k → k ≤ n → lo k ≤ hi k
  behind : ∀ k, 1 ≤ k → k < n → hi k < lo (k + 1)
  pos : 1 ≤ lo 1
  lt_bound : ∀ k, 1 ≤ k → k ≤ n → hi k < bound

/-- A sequence meets the first `k` windows. -/
def Meets (lo hi : ℕ → ℤ) (add interval : ℤ) (k : ℕ) : Prop :=
  ∀ j, 1 ≤ j → j ≤ k → lo j ≤ quad add interval j ∧ quad add interval j ≤ hi j

variable {lo hi : ℕ → ℤ} {n k j : ℕ} {bound add interval : ℤ}

theorem Meets.mono (h : Meets lo hi add interval k) (hj : j ≤ k) : Meets lo hi add interval j :=
  fun i hi hij => h i hi (hij.trans hj)

theorem Meets.succ (h : Meets lo hi add interval k)
    (hk : lo (k + 1) ≤ quad add interval (k + 1) ∧ quad add interval (k + 1) ≤ hi (k + 1)) :
    Meets lo hi add interval (k + 1) := by
  intro j hj hjk
  rcases Nat.le_succ_iff.1 hjk with hjk | rfl
  · exact h j hj hjk
  · exact hk

theorem Windows.hi_lt_lo (h : Windows lo hi n bound) {j k : ℕ} (hj : 1 ≤ j) (hjk : j < k)
    (hk : k ≤ n) : hi j < lo k := by
  induction k with
  | zero => omega
  | succ k ih =>
    rcases Nat.lt_succ_iff_lt_or_eq.1 hjk with hjk | rfl
    · exact ((ih hjk (by omega)).trans_le (h.le k (by omega) (by omega))).trans
        (h.behind k (by omega) (by omega))
    · exact h.behind j hj (by omega)

theorem Windows.lo_pos (h : Windows lo hi n bound) (hk : 1 ≤ k) (hn : k ≤ n) : 1 ≤ lo k := by
  rcases Nat.lt_or_eq_of_le hk with hlt | rfl
  · have h1 := h.le 1 le_rfl (by omega)
    have h2 := h.hi_lt_lo le_rfl hlt hn
    have h3 := h.pos
    omega
  · exact h.pos

/-- A step of a sequence that meets windows behind one another goes ahead. -/
theorem Meets.step_pos (hw : Windows lo hi n bound) (h : Meets lo hi add interval k) (hk : k ≤ n)
    (hj : j < k) : 1 ≤ interval + add * j := by
  rcases Nat.eq_zero_or_pos j with rfl | hpos
  · have h1 := (h 1 le_rfl hj).1
    rw [quad_one] at h1
    have h2 := hw.pos
    push_cast
    linarith
  · have h1 := (h j hpos hj.le).2
    have h2 := (h (j + 1) (by omega) hj).1
    rw [quad_succ] at h2
    have h3 := hw.behind j hpos (by omega)
    linarith

/-- What is added to the steps is less than where the sequence ends. -/
theorem Meets.abs_mul_tri_le (hw : Windows lo hi n bound) (h : Meets lo hi add interval k)
    (hk1 : 1 ≤ k) (hk : k ≤ n) : |add| * tri k ≤ quad add interval k := by
  obtain ⟨d, rfl⟩ : ∃ d, k = d + 1 := ⟨k - 1, by omega⟩
  have hfirst := h.step_pos hw hk (Nat.succ_pos d)
  have hlast := h.step_pos hw hk (Nat.lt_succ_self d)
  exact abs_mul_tri_le_quad (by push_cast at hfirst; linarith) (by linarith)

/-- A longer sequence ends later. -/
theorem Meets.lt_of_lt (hw : Windows lo hi n bound) {add' interval' : ℤ}
    (h : Meets lo hi add interval j) (h' : Meets lo hi add' interval' k) (hj : 1 ≤ j)
    (hjk : j < k) (hk : k ≤ n) : quad add interval j < quad add' interval' k :=
  ((h j hj le_rfl).2.trans_lt (hw.hi_lt_lo hj hjk hk)).trans_le (h' k (by omega) le_rfl).1

end Thinker
