import Mathlib.Tactic
import Mathlib.Data.Int.Bitwise
import Mathlib.Data.Nat.Bitwise

/-!
# Bit operations as arithmetic

On unbounded two's-complement integers a mask of `k` low bits is the remainder modulo
`2 ^ k`, setting every bit from `k` up subtracts `2 ^ k` from it, and an `or` of `k` low
bits into a number shifted left by `k` is a sum.
-/

namespace Thinker

/-- The `k` low bits cleared by `m` : the complement of `m` in `k` bits. -/
theorem ldiff_mask (k m : ℕ) : Nat.ldiff (2 ^ k - 1) m = 2 ^ k - (m % 2 ^ k + 1) := by
  have hlt : m % 2 ^ k < 2 ^ k := Nat.mod_lt _ (by positivity)
  apply Nat.eq_of_testBit_eq
  intro i
  rw [Nat.testBit_ldiff, Nat.testBit_two_pow_sub_one, Nat.testBit_two_pow_sub_succ hlt,
    Nat.testBit_mod_two_pow]
  by_cases hi : i < k <;> simp [hi]

theorem ldiff_low (m k d : ℕ) (hd : d < 2 ^ k) :
    Nat.ldiff (2 ^ k * m + (2 ^ k - 1)) d = 2 ^ k * m + (2 ^ k - (d + 1)) := by
  have hpos : 0 < 2 ^ k := by positivity
  apply Nat.eq_of_testBit_eq
  intro i
  rw [Nat.testBit_ldiff, Nat.testBit_two_pow_mul_add _ (by omega),
    Nat.testBit_two_pow_mul_add _ (by omega), Nat.testBit_two_pow_sub_one,
    Nat.testBit_two_pow_sub_succ hd]
  by_cases hi : i < k
  · simp [hi]
  · have hz : d.testBit i = false :=
      Nat.testBit_lt_two_pow (hd.trans_le (Nat.pow_le_pow_right (by decide) (by omega)))
    simp [hi, hz]

/-- A mask of `k` low bits is the remainder modulo `2 ^ k`, also of a negative number. -/
theorem land_mask (v : ℤ) (k : ℕ) : Int.land v ((2 ^ k - 1 : ℕ) : ℤ) = v % 2 ^ k := by
  cases v with
  | ofNat n =>
    show ((n &&& (2 ^ k - 1) : ℕ) : ℤ) = _
    rw [Nat.and_two_pow_sub_one_eq_mod]
    simp
  | negSucc m =>
    show ((Nat.ldiff (2 ^ k - 1) m : ℕ) : ℤ) = _
    have hlt : m % 2 ^ k < 2 ^ k := Nat.mod_lt _ (by positivity)
    rw [ldiff_mask, Int.negSucc_emod _ (by positivity)]
    push_cast [show m % 2 ^ k + 1 ≤ 2 ^ k by omega]
    ring

/-- Setting every bit from `k` up leaves the `k` low bits, read as a negative number. -/
theorem lor_neg_two_pow (n k : ℕ) : Int.lor n (-(2 ^ k : ℤ)) = (n % 2 ^ k : ℤ) - 2 ^ k := by
  have hpos : 0 < 2 ^ k := by positivity
  have h : (-(2 ^ k : ℤ)) = Int.negSucc (2 ^ k - 1) := by
    rw [Int.negSucc_eq]
    push_cast [show 1 ≤ 2 ^ k by omega]
    ring
  have hlt : n % 2 ^ k < 2 ^ k := Nat.mod_lt _ hpos
  rw [h]
  show Int.negSucc (Nat.ldiff (2 ^ k - 1) n) = _
  rw [ldiff_mask, Int.negSucc_eq]
  push_cast [show n % 2 ^ k + 1 ≤ 2 ^ k by omega]
  ring

/-- `k` low bits put below a number shifted left by `k` are added to it. -/
theorem lor_shiftLeft (v : ℤ) (k d : ℕ) (hd : d < 2 ^ k) :
    Int.lor (v <<< k) d = v * 2 ^ k + d := by
  rw [Int.shiftLeft_eq']
  have hpos : 0 < 2 ^ k := by positivity
  cases v with
  | ofNat n =>
    have h : Int.ofNat n * ((2 ^ k : ℕ) : ℤ) = ((2 ^ k * n : ℕ) : ℤ) := by
      push_cast [Int.ofNat_eq_natCast]
      ring
    rw [h]
    show ((2 ^ k * n ||| d : ℕ) : ℤ) = _
    rw [← Nat.two_pow_add_eq_or_of_lt hd]
    push_cast [Int.ofNat_eq_natCast]
    ring
  | negSucc m =>
    have h : Int.negSucc m * ((2 ^ k : ℕ) : ℤ) = Int.negSucc (2 ^ k * m + (2 ^ k - 1)) := by
      rw [Int.negSucc_eq, Int.negSucc_eq]
      push_cast [show 1 ≤ 2 ^ k by omega]
      ring
    rw [h]
    show Int.negSucc (Nat.ldiff (2 ^ k * m + (2 ^ k - 1)) d) = _
    rw [ldiff_low m k d hd, Int.negSucc_eq, Int.negSucc_eq]
    push_cast [show d + 1 ≤ 2 ^ k by omega]
    ring

/-- The next digits of `x` after its remainder modulo `a`. -/
theorem emod_mul (x : ℤ) {a : ℤ} (ha : 0 < a) (b : ℤ) : x % (a * b) = x % a + a * (x / a % b) := by
  rw [Int.emod_def, Int.emod_def x a, Int.emod_def (x / a), Int.ediv_ediv_of_nonneg ha.le]
  ring

end Thinker
