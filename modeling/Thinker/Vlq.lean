import Thinker.Bits
import Thinker.Numerals

/-!
# Variable length integers on the wire

Three implementations of one integer format : `encode_int` and `parse_int` of the
firmware (`command.c`), their copies in the host's C helper (`msgblock.c`), and the
`PT_*` classes of the host's `msgproto.py`. A number is a sequence of seven bit digits,
most significant first, with `0x80` on every byte but the last; a first digit with both
bits of `0x60` set makes the number negative.

`vlqParse_eq` : the C parser reads the host's number modulo `2 ^ 32` and stops at the same
byte, so it is enough to know what the host reads. `parseRaw_wireOf` : the host reads `x`
back whenever its leading digit is in `-32 .. 95`. `codecAgrees_iff` puts the three
implementations together; they disagree on a negative number below `-2 ^ 26`, which the C
encoder writes with bits 28 to 31 of the unsigned word as its first digit.
-/

namespace Thinker

/-! ## The C codec -/

/-- The text that `encode_int` has in both C files. -/
def vlqEncode (v : UInt32) : List UInt8 :=
  let sv := v.toInt32.toInt
  let f4 := [(v &&& 0x7f).toUInt8]
  let f3 := (((v >>> 7) &&& 0x7f) ||| 0x80).toUInt8 :: f4
  let f2 := (((v >>> 14) &&& 0x7f) ||| 0x80).toUInt8 :: f3
  let f1 := (((v >>> 21) &&& 0x7f) ||| 0x80).toUInt8 :: f2
  if sv < (3 : ℤ) <<< 5 ∧ sv ≥ -((1 : ℤ) <<< 5) then f4
  else if sv < (3 : ℤ) <<< 12 ∧ sv ≥ -((1 : ℤ) <<< 12) then f3
  else if sv < (3 : ℤ) <<< 19 ∧ sv ≥ -((1 : ℤ) <<< 19) then f2
  else if sv < (3 : ℤ) <<< 26 ∧ sv ≥ -((1 : ℤ) <<< 26) then f1
  else ((v >>> 28) ||| 0x80).toUInt8 :: f1

/-- `while (c & 0x80)` of `parse_int` : `c` is the last byte read, `none` a read past
the end of the bytes. -/
def vlqParseLoop (v : UInt32) (c : UInt8) : List UInt8 → Option (UInt32 × List UInt8)
  | [] => if c &&& 0x80 = 0 then some (v, []) else none
  | c' :: p =>
    if c &&& 0x80 = 0 then some (v, c' :: p)
    else vlqParseLoop ((v <<< 7) ||| (c' &&& 0x7f).toUInt32) c' p

/-- The text that `parse_int` has in both C files : the number and the bytes after it. -/
def vlqParse : List UInt8 → Option (UInt32 × List UInt8)
  | [] => none
  | c :: p =>
    let v := (c &&& 0x7f).toUInt32
    vlqParseLoop (if c &&& 0x60 = 0x60 then v ||| 0xffffffe0 else v) c p

namespace Command

/-- `encode_int` of `command.c`. -/
def encodeInt (v : UInt32) : List UInt8 := vlqEncode v

/-- `parse_int` of `command.c`. -/
def parseInt (p : List UInt8) : Option (UInt32 × List UInt8) := vlqParse p

end Command

namespace Msgblock

/-- `encode_int` of `msgblock.c`. -/
def encodeInt (v : UInt32) : List UInt8 := vlqEncode v

/-- `parse_int` of `msgblock.c`. -/
def parseInt (p : List UInt8) : Option (UInt32 × List UInt8) := vlqParse p

end Msgblock

/-! ## The host's parameter types -/

/-- The integer classes among the values of `MessageTypes`. -/
inductive IntType
  | uint32 | int32 | uint16 | int16 | byte
  deriving DecidableEq, Repr

namespace IntType

/-- The class attribute `signed`. -/
def signed : IntType → Bool
  | uint32 | uint16 | byte => false
  | int32 | int16 => true

/-- `PT_uint32.encode`, inherited by every integer class. -/
def encode (_t : IntType) (v : ℤ) : List UInt8 :=
  let digit (s : ℕ) := UInt8.ofInt (Int.lor (Int.land (v >>> s) 0x7f) 0x80)
  (if v ≥ 0xc000000 ∨ v < -0x4000000 then [digit 28] else []) ++
  (if v ≥ 0x180000 ∨ v < -0x80000 then [digit 21] else []) ++
  (if v ≥ 0x3000 ∨ v < -0x1000 then [digit 14] else []) ++
  (if v ≥ 0x60 ∨ v < -0x20 then [digit 7] else []) ++
  [UInt8.ofInt (Int.land v 0x7f)]

/-- `while c & 0x80` of `PT_uint32.parse`. -/
def parseLoop (v : ℤ) (c : UInt8) : List UInt8 → Option (ℤ × List UInt8)
  | [] => if c &&& 0x80 = 0 then some (v, []) else none
  | c' :: s =>
    if c &&& 0x80 = 0 then some (v, c' :: s)
    else parseLoop (Int.lor (v <<< (7 : ℕ)) (c' &&& 0x7f).toNat) c' s

/-- `PT_uint32.parse` before the test of `signed`. -/
def parseRaw : List UInt8 → Option (ℤ × List UInt8)
  | [] => none
  | c :: s =>
    let v : ℤ := (c &&& 0x7f).toNat
    parseLoop (if c &&& 0x60 = 0x60 then Int.lor v (-0x20) else v) c s

/-- `PT_uint32.parse`, inherited by every integer class. -/
def parse (t : IntType) (s : List UInt8) : Option (ℤ × List UInt8) :=
  (parseRaw s).map fun r => (if t.signed then r.1 else Int.land r.1 0xffffffff, r.2)

end IntType

/-! ## Reading digits -/

/-- The bytes of a number with first digit `d` and further digits `ds`. -/
def wire (d : ℕ) : List ℕ → List UInt8
  | [] => [UInt8.ofNat d]
  | e :: es => UInt8.ofNat (d + 128) :: wire e es

/-- The digits `ds` appended to `v` in base 128. -/
def pack (v : ℤ) (ds : List ℕ) : ℤ :=
  ds.foldl (fun a d => a * 128 + d) v

/-- The value of a first digit. -/
def firstDigit (d : ℕ) : ℤ :=
  if 96 ≤ d then d - 128 else d

theorem toNat_and_7f (c : UInt8) : (c &&& 0x7f).toNat = c.toNat % 128 := by
  rw [UInt8.toNat_and]
  exact Nat.and_two_pow_sub_one_eq_mod c.toNat 7

theorem and_80_eq_zero (c : UInt8) : c &&& 0x80 = 0 ↔ c.toNat < 128 := by
  have h : ∀ n < 256, n &&& 128 = 0 ↔ n < 128 := by decide +kernel
  rw [← UInt8.toNat_inj, UInt8.toNat_and]
  exact h _ c.toNat_lt

theorem and_60_eq (c : UInt8) : c &&& 0x60 = 0x60 ↔ 96 ≤ c.toNat % 128 := by
  have h : ∀ n < 256, n &&& 96 = 96 ↔ 96 ≤ n % 128 := by decide +kernel
  rw [← UInt8.toNat_inj, UInt8.toNat_and]
  exact h _ c.toNat_lt

theorem toNat_ofInt (v : ℤ) : ((UInt32.ofInt v).toNat : ℤ) = v % 2 ^ 32 := by
  rw [UInt32.ofInt, UInt32.toNat_ofNat']
  omega

theorem ofInt_eq_iff (w : UInt32) (v : ℤ) : w = UInt32.ofInt v ↔ (w.toNat : ℤ) = v % 2 ^ 32 := by
  rw [← UInt32.toNat_inj, ← toNat_ofInt]
  exact Nat.cast_inj.symm

theorem shiftLeft_or (v : ℤ) (c : UInt8) :
    (UInt32.ofInt v <<< 7) ||| (c &&& 0x7f).toUInt32 =
      UInt32.ofInt (Int.lor (v <<< (7 : ℕ)) (c &&& 0x7f).toNat) := by
  have hc : (c &&& 0x7f).toNat < 2 ^ 7 := by
    rw [toNat_and_7f]
    omega
  rw [lor_shiftLeft v 7 _ hc, ofInt_eq_iff, UInt32.toNat_or, UInt32.toNat_shiftLeft]
  have h := toNat_ofInt v
  have h7 : ((UInt32.ofInt v).toNat <<< ((7 : UInt32).toNat % 32)) % 2 ^ 32 =
      2 ^ 7 * ((UInt32.ofInt v).toNat % 2 ^ 25) := by
    show ((UInt32.ofInt v).toNat <<< 7) % 2 ^ 32 = _
    rw [Nat.shiftLeft_eq]
    omega
  rw [h7, UInt8.toNat_toUInt32, ← Nat.two_pow_add_eq_or_of_lt hc]
  push_cast
  omega

/-- The C parser reads the host's number modulo `2 ^ 32`, and stops at the same byte. -/
theorem vlqParseLoop_eq (v : ℤ) (c : UInt8) (s : List UInt8) :
    vlqParseLoop (UInt32.ofInt v) c s =
      (IntType.parseLoop v c s).map fun r => (UInt32.ofInt r.1, r.2) := by
  induction s generalizing v c with
  | nil =>
    unfold vlqParseLoop IntType.parseLoop
    split_ifs <;> rfl
  | cons c' s ih =>
    unfold vlqParseLoop IntType.parseLoop
    split_ifs
    · rfl
    · rw [shiftLeft_or, ih]

theorem vlqParse_eq (s : List UInt8) :
    vlqParse s = (IntType.parseRaw s).map fun r => (UInt32.ofInt r.1, r.2) := by
  cases s with
  | nil => rfl
  | cons c s =>
    have hc := toNat_and_7f c
    simp only [vlqParse, IntType.parseRaw]
    rw [← vlqParseLoop_eq]
    congr 1
    split_ifs with h
    · have h96 := (and_60_eq c).1 h
      have hor : ∀ n < 128, 96 ≤ n → n ||| 0xffffffe0 = 0xffffff80 + n := by decide +kernel
      have hl : Int.lor (c &&& 0x7f).toNat (-0x20) = ((c &&& 0x7f).toNat % 2 ^ 5 : ℤ) - 2 ^ 5 :=
        lor_neg_two_pow _ 5
      rw [hl, ofInt_eq_iff, UInt32.toNat_or, UInt8.toNat_toUInt32]
      show (((c &&& 0x7f).toNat ||| 0xffffffe0 : ℕ) : ℤ) = _
      rw [hor _ (by omega) (by omega)]
      push_cast
      omega
    · rw [ofInt_eq_iff, UInt8.toNat_toUInt32]
      omega

theorem parseLoop_wire (d : ℕ) (hd : d < 128) (ds : List ℕ) (hds : ∀ e ∈ ds, e < 128) (v : ℤ)
    (rest : List UInt8) : ∀ c s, wire d ds = c :: s →
      IntType.parseLoop v c (s ++ rest) = some (pack v ds, rest) := by
  induction ds generalizing d v with
  | nil =>
    rintro c s h
    obtain ⟨rfl, rfl⟩ := List.cons.inj h
    have hz : UInt8.ofNat d &&& 0x80 = 0 := by
      rw [and_80_eq_zero, UInt8.toNat_ofNat']
      omega
    cases rest <;> simp [IntType.parseLoop, hz, pack]
  | cons e es ih =>
    rintro c s h
    obtain ⟨rfl, rfl⟩ := List.cons.inj h
    have hnz : ¬(UInt8.ofNat (d + 128) &&& 0x80 = 0) := by
      rw [and_80_eq_zero, UInt8.toNat_ofNat']
      omega
    have he : e < 128 := hds e (by simp)
    obtain ⟨c', s', hw⟩ : ∃ c' s', wire e es = c' :: s' := by
      cases es <;> exact ⟨_, _, rfl⟩
    have hc' : (c' &&& 0x7f).toNat = e := by
      rw [toNat_and_7f]
      cases es <;> (obtain ⟨rfl, -⟩ := List.cons.inj hw; rw [UInt8.toNat_ofNat']; omega)
    rw [hw, List.cons_append, IntType.parseLoop, if_neg hnz, hc', lor_shiftLeft v 7 e he,
      ih e he (fun x hx => hds x (by simp [hx])) _ c' s' hw]
    simp [pack]

/-- The host reads digits back, whatever bytes follow. -/
theorem parseRaw_wire (d : ℕ) (hd : d < 128) (ds : List ℕ) (hds : ∀ e ∈ ds, e < 128)
    (rest : List UInt8) :
    IntType.parseRaw (wire d ds ++ rest) = some (pack (firstDigit d) ds, rest) := by
  obtain ⟨c, s, hw⟩ : ∃ c s, wire d ds = c :: s := by
    cases ds <;> exact ⟨_, _, rfl⟩
  have hc : (c &&& 0x7f).toNat = d := by
    rw [toNat_and_7f]
    cases ds <;> (obtain ⟨rfl, -⟩ := List.cons.inj hw; rw [UInt8.toNat_ofNat']; omega)
  have h60 : c &&& 0x60 = 0x60 ↔ 96 ≤ d := by
    rw [and_60_eq, ← toNat_and_7f, hc]
  rw [hw, List.cons_append, IntType.parseRaw, ← parseLoop_wire d hd ds hds _ rest c s hw, hc]
  congr 1
  unfold firstDigit
  split_ifs with h h' h'
  · have hl : Int.lor d (-0x20) = (d % 2 ^ 5 : ℤ) - 2 ^ 5 := lor_neg_two_pow d 5
    rw [hl]
    omega
  · exact (h' (h60.1 h)).elim
  · exact (h (h60.2 h')).elim
  · rfl

/-! ## Writing digits -/

theorem toInt_toInt32 (v : UInt32) :
    v.toInt32.toInt = if v.toNat < 2 ^ 31 then (v.toNat : ℤ) else v.toNat - 2 ^ 32 := by
  show v.toBitVec.toInt = _
  rw [BitVec.toInt_eq_toNat_cond]
  have := v.toNat_lt
  simp only [UInt32.toNat_toBitVec]
  split_ifs <;> push_cast <;> omega

theorem toUInt8_low (v : UInt32) : (v &&& 0x7f).toUInt8 = UInt8.ofNat (v.toNat % 128) := by
  rw [← UInt8.toNat_inj, UInt32.toNat_toUInt8, UInt32.toNat_and, UInt8.toNat_ofNat']
  congr 1
  exact Nat.and_two_pow_sub_one_eq_mod v.toNat 7

theorem toUInt8_or_80 (v : UInt32) (hv : v.toNat < 128) :
    (v ||| 0x80).toUInt8 = UInt8.ofNat (v.toNat + 128) := by
  rw [← UInt8.toNat_inj, UInt32.toNat_toUInt8, UInt32.toNat_or, UInt8.toNat_ofNat']
  congr 1
  show v.toNat ||| 2 ^ 7 * 1 = _
  rw [Nat.or_comm, ← Nat.two_pow_add_eq_or_of_lt hv]
  omega

theorem toUInt8_digit (v : UInt32) (k : ℕ) (hk : k < 32) :
    (((v >>> UInt32.ofNat k) &&& 0x7f) ||| 0x80).toUInt8 =
      UInt8.ofNat (v.toNat / 2 ^ k % 128 + 128) := by
  have h : ((v >>> UInt32.ofNat k) &&& 0x7f).toNat = v.toNat / 2 ^ k % 128 := by
    rw [UInt32.toNat_and, UInt32.toNat_shiftRight, Nat.shiftRight_eq_div_pow,
      UInt32.toNat_ofNat']
    rw [show k % 2 ^ 32 % 32 = k by omega]
    exact Nat.and_two_pow_sub_one_eq_mod _ 7
  rw [toUInt8_or_80 _ (by omega), h]

theorem toUInt8_top (v : UInt32) :
    ((v >>> 28) ||| 0x80).toUInt8 = UInt8.ofNat (v.toNat / 2 ^ 28 + 128) := by
  have h : (v >>> 28).toNat = v.toNat / 2 ^ 28 := by
    rw [UInt32.toNat_shiftRight, Nat.shiftRight_eq_div_pow]
    rfl
  have := v.toNat_lt
  rw [toUInt8_or_80 _ (by omega), h]

/-- The digits of `x` below its digit `k`, most significant first. -/
def digits (x : ℤ) : ℕ → List ℕ
  | 0 => []
  | k + 1 => (x / 2 ^ (7 * k) % 128).toNat :: digits x k

/-- `x` in `k + 1` bytes. -/
def wireOf (x : ℤ) (k : ℕ) : List UInt8 :=
  wire (x / 2 ^ (7 * k) % 128).toNat (digits x k)

theorem digits_lt (x : ℤ) (k : ℕ) : ∀ e ∈ digits x k, e < 128 := by
  induction k with
  | zero => simp [digits]
  | succ k ih =>
    intro e he
    rcases List.mem_cons.1 he with rfl | he
    · omega
    · exact ih e he

theorem pack_digits (x v : ℤ) (k : ℕ) :
    pack v (digits x k) = v * 2 ^ (7 * k) + x % 2 ^ (7 * k) := by
  induction k generalizing v with
  | zero => simp [pack, digits]
  | succ k ih =>
    have hd : (((x / 2 ^ (7 * k) % 128).toNat : ℕ) : ℤ) = x / 2 ^ (7 * k) % 128 := by omega
    have hm : x % 2 ^ (7 * (k + 1)) = x % 2 ^ (7 * k) + 2 ^ (7 * k) * (x / 2 ^ (7 * k) % 128) := by
      rw [show 7 * (k + 1) = 7 * k + 7 by ring, pow_add]
      exact emod_mul x (by positivity) 128
    show pack (v * 128 + (x / 2 ^ (7 * k) % 128).toNat) (digits x k) = _
    rw [ih, hd, hm]
    ring

/-- A number whose leading digit is in `-32 .. 95` is read back as it is. -/
theorem parseRaw_wireOf (x : ℤ) (k : ℕ) (h : -32 ≤ x / 2 ^ (7 * k)) (h' : x / 2 ^ (7 * k) < 96)
    (rest : List UInt8) : IntType.parseRaw (wireOf x k ++ rest) = some (x, rest) := by
  have hf : firstDigit (x / 2 ^ (7 * k) % 128).toNat = x / 2 ^ (7 * k) := by
    unfold firstDigit
    split_ifs <;> omega
  rw [wireOf, parseRaw_wire _ (by omega) _ (digits_lt x k), pack_digits, hf, mul_comm,
    Int.mul_ediv_add_emod]

/-- The length classes of the C encoder. The last one holds the word itself. -/
theorem vlqEncode_eq (v : UInt32) : vlqEncode v =
    if v.toInt32.toInt < (3 : ℤ) <<< 5 ∧ v.toInt32.toInt ≥ -((1 : ℤ) <<< 5) then
      wireOf v.toInt32.toInt 0
    else if v.toInt32.toInt < (3 : ℤ) <<< 12 ∧ v.toInt32.toInt ≥ -((1 : ℤ) <<< 12) then
      wireOf v.toInt32.toInt 1
    else if v.toInt32.toInt < (3 : ℤ) <<< 19 ∧ v.toInt32.toInt ≥ -((1 : ℤ) <<< 19) then
      wireOf v.toInt32.toInt 2
    else if v.toInt32.toInt < (3 : ℤ) <<< 26 ∧ v.toInt32.toInt ≥ -((1 : ℤ) <<< 26) then
      wireOf v.toInt32.toInt 3
    else wireOf v.toNat 4 := by
  have hlt := v.toNat_lt
  have hsv := toInt_toInt32 v
  have h7 : (((v >>> 7) &&& 0x7f) ||| 0x80).toUInt8 = _ := toUInt8_digit v 7 (by decide)
  have h14 : (((v >>> 14) &&& 0x7f) ||| 0x80).toUInt8 = _ := toUInt8_digit v 14 (by decide)
  have h21 : (((v >>> 21) &&& 0x7f) ||| 0x80).toUInt8 = _ := toUInt8_digit v 21 (by decide)
  simp only [vlqEncode, toUInt8_low, h7, h14, h21, toUInt8_top]
  generalize v.toInt32.toInt = sv at hsv ⊢
  generalize v.toNat = n at hlt hsv ⊢
  -- the digits of `sv` and of the word `n` agree below bit 28
  have d0 : (sv % 128).toNat = n % 128 := by split_ifs at hsv <;> omega
  have d7 : (sv / 2 ^ 7 % 128).toNat = n / 2 ^ 7 % 128 := by split_ifs at hsv <;> omega
  have d14 : (sv / 2 ^ 14 % 128).toNat = n / 2 ^ 14 % 128 := by split_ifs at hsv <;> omega
  have d21 : (sv / 2 ^ 21 % 128).toNat = n / 2 ^ 21 % 128 := by split_ifs at hsv <;> omega
  have n0 : ((n : ℤ) % 128).toNat = n % 128 := by omega
  have n7 : ((n : ℤ) / 2 ^ 7 % 128).toNat = n / 2 ^ 7 % 128 := by omega
  have n14 : ((n : ℤ) / 2 ^ 14 % 128).toNat = n / 2 ^ 14 % 128 := by omega
  have n21 : ((n : ℤ) / 2 ^ 21 % 128).toNat = n / 2 ^ 21 % 128 := by omega
  have n28 : ((n : ℤ) / 2 ^ 28 % 128).toNat = n / 2 ^ 28 := by omega
  simp only [wireOf, digits, wire, Nat.mul_zero, Nat.mul_one, pow_zero, Int.ediv_one,
    Nat.reduceMul, d0, d7, d14, d21, n0, n7, n14, n21, n28]

theorem toUInt8_land (x : ℤ) (s : ℕ) :
    UInt8.ofInt (Int.lor (Int.land (x >>> s) 0x7f) 0x80) =
      UInt8.ofNat ((x / 2 ^ s % 128).toNat + 128) := by
  have h : Int.land (x >>> s) 0x7f = ((x / 2 ^ s % 128).toNat : ℕ) := by
    rw [Int.shiftRight_eq_div_pow]
    have hm : Int.land (x / ((2 ^ s : ℕ) : ℤ)) 0x7f = x / ((2 ^ s : ℕ) : ℤ) % 2 ^ 7 :=
      land_mask _ 7
    rw [hm]
    push_cast
    omega
  have hd : (x / 2 ^ s % 128).toNat < 2 ^ 7 := by omega
  rw [h]
  show UInt8.ofInt (((x / 2 ^ s % 128).toNat ||| 2 ^ 7 * 1 : ℕ) : ℤ) = _
  rw [Nat.or_comm, ← Nat.two_pow_add_eq_or_of_lt hd, ← UInt8.toNat_inj, UInt8.ofInt,
    UInt8.toNat_ofNat', UInt8.toNat_ofNat']
  omega

/-- The length classes of the host's encoder. -/
theorem encode_eq (t : IntType) (x : ℤ) : t.encode x =
    if x ≥ 0xc000000 ∨ x < -0x4000000 then wireOf x 4
    else if x ≥ 0x180000 ∨ x < -0x80000 then wireOf x 3
    else if x ≥ 0x3000 ∨ x < -0x1000 then wireOf x 2
    else if x ≥ 0x60 ∨ x < -0x20 then wireOf x 1
    else wireOf x 0 := by
  have hlow : UInt8.ofInt (Int.land x 0x7f) = UInt8.ofNat (x % 128).toNat := by
    have hm : Int.land x 0x7f = x % 2 ^ 7 := land_mask x 7
    rw [hm, ← UInt8.toNat_inj, UInt8.ofInt, UInt8.toNat_ofNat', UInt8.toNat_ofNat']
    omega
  simp only [IntType.encode, toUInt8_land, hlow, wireOf, digits, wire, Nat.mul_zero, Nat.mul_one,
    pow_zero, Int.ediv_one, Nat.reduceMul]
  split_ifs <;> first | rfl | omega

/-- What the host reads from the C encoder : the signed value, but the word itself where
all five bytes are used. -/
theorem parseRaw_vlqEncode (v : UInt32) (rest : List UInt8) :
    IntType.parseRaw (vlqEncode v ++ rest) =
      some (if v.toInt32.toInt < 3 * 2 ^ 26 ∧ v.toInt32.toInt ≥ -2 ^ 26 then v.toInt32.toInt
        else v.toNat, rest) := by
  have hlt := v.toNat_lt
  have h5 : (3 : ℤ) <<< 5 = 96 ∧ (1 : ℤ) <<< 5 = 32 := ⟨rfl, rfl⟩
  have h12 : (3 : ℤ) <<< 12 = 3 * 2 ^ 12 ∧ (1 : ℤ) <<< 12 = 2 ^ 12 := ⟨rfl, rfl⟩
  have h19 : (3 : ℤ) <<< 19 = 3 * 2 ^ 19 ∧ (1 : ℤ) <<< 19 = 2 ^ 19 := ⟨rfl, rfl⟩
  have h26 : (3 : ℤ) <<< 26 = 3 * 2 ^ 26 ∧ (1 : ℤ) <<< 26 = 2 ^ 26 := ⟨rfl, rfl⟩
  rw [vlqEncode_eq, h5.1, h5.2, h12.1, h12.2, h19.1, h19.2, h26.1, h26.2]
  generalize v.toInt32.toInt = sv
  split_ifs <;> first
    | omega
    | exact parseRaw_wireOf _ _ (by omega) (by omega) rest

/-- The firmware, and the host's C helper, read back what either of them wrote. -/
theorem vlqParse_vlqEncode (v : UInt32) (rest : List UInt8) :
    vlqParse (vlqEncode v ++ rest) = some (v, rest) := by
  have hlt := v.toNat_lt
  rw [vlqParse_eq, parseRaw_vlqEncode, Option.map_some, toInt_toInt32]
  congr 2
  symm
  rw [ofInt_eq_iff]
  split_ifs <;> omega

/-- The host reads back every number that it encodes in at most five bytes. -/
theorem parseRaw_encode (t : IntType) (x : ℤ) (h : -2 ^ 31 ≤ x) (h' : x < 2 ^ 32)
    (rest : List UInt8) : IntType.parseRaw (t.encode x ++ rest) = some (x, rest) := by
  rw [encode_eq]
  split_ifs <;> exact parseRaw_wireOf _ _ (by omega) (by omega) rest

theorem vlqParse_encode (t : IntType) (x : ℤ) (h : -2 ^ 31 ≤ x) (h' : x < 2 ^ 32)
    (rest : List UInt8) : vlqParse (t.encode x ++ rest) = some (UInt32.ofInt x, rest) := by
  rw [vlqParse_eq, parseRaw_encode t x h h', Option.map_some]

/-! ## Blocks of integers -/

namespace Msgblock

/-- `msgblock_decode` on the bytes between header and trailer. A number that runs into
the trailer leaves `p` past `end`, the same error as too few bytes. -/
def decode : ℕ → List UInt8 → Option (List UInt32)
  | 0, p => if p = [] then some [] else none
  | n + 1, p =>
    if p = [] then none
    else match parseInt p with
      | none => none
      | some (v, p') => (decode n p').map (v :: ·)

theorem encodeInt_ne_nil (v : UInt32) : encodeInt v ≠ [] := by
  intro h
  have := vlqParse_vlqEncode v []
  rw [encodeInt] at h
  rw [h] at this
  simp [vlqParse] at this

/-- A block of encoded words decodes to these words. -/
theorem decode_encodeInt (data : List UInt32) :
    decode data.length (data.flatMap encodeInt) = some data := by
  induction data with
  | nil => rfl
  | cons v data ih =>
    have hne : encodeInt v ++ data.flatMap encodeInt ≠ [] := by simp [encodeInt_ne_nil]
    rw [List.flatMap_cons, List.length_cons, decode, if_neg hne, parseInt, encodeInt,
      vlqParse_vlqEncode]
    show (decode data.length (data.flatMap encodeInt)).map (v :: ·) = _
    rw [ih, Option.map_some]

end Msgblock

/-! ## Agreement -/

/-- What a parameter of type `t` should be read as when the firmware sends `v`. -/
def IntType.meaning (t : IntType) (v : UInt32) : ℤ :=
  if t.signed then v.toInt32.toInt else v.toNat

theorem IntType.parse_vlqEncode (t : IntType) (v : UInt32) (rest : List UInt8) :
    t.parse (vlqEncode v ++ rest) = some (t.meaning v, rest) ↔
      (t.signed → ¬(2 ^ 31 ≤ v.toNat ∧ v.toNat < 2 ^ 32 - 2 ^ 26)) := by
  have hlt := v.toNat_lt
  have hmask : ∀ x : ℤ, Int.land x 0xffffffff = x % 2 ^ 32 := fun x => land_mask x 32
  rw [IntType.parse, parseRaw_vlqEncode, Option.map_some, Option.some_inj, Prod.mk.injEq,
    IntType.meaning, hmask, toInt_toInt32]
  cases t.signed with
  | false =>
    simp only [Bool.false_eq_true, if_false, false_imp_iff, iff_true, and_true]
    split_ifs <;> omega
  | true =>
    simp only [if_true, forall_const, and_true]
    split_ifs <;> omega

/-- One word `v` sent by the firmware as a parameter of type `t` and one integer `x` sent
by the host : each reader gets the value the writer meant and leaves the bytes after it. -/
structure CodecAgrees (t : IntType) (v : UInt32) (x : ℤ) (rest : List UInt8) : Prop where
  firmware_host : t.parse (Command.encodeInt v ++ rest) = some (t.meaning v, rest)
  host_firmware : Command.parseInt (t.encode x ++ rest) = some (UInt32.ofInt x, rest)
  msgblock_host : t.parse (Msgblock.encodeInt v ++ rest) = some (t.meaning v, rest)
  host_msgblock : Msgblock.parseInt (t.encode x ++ rest) = some (UInt32.ofInt x, rest)
  msgblock_firmware : Command.parseInt (Msgblock.encodeInt v ++ rest) = some (v, rest)
  firmware_msgblock : Msgblock.parseInt (Command.encodeInt v ++ rest) = some (v, rest)

/-- The codecs agree exactly if the word is not a negative number below `-2 ^ 26` sent as
a signed type : its fifth byte carries bits 28 to 31 of the unsigned word, so the first
digit shows no sign. -/
theorem codecAgrees_iff (t : IntType) (v : UInt32) (x : ℤ) (h : -2 ^ 31 ≤ x) (h' : x < 2 ^ 32)
    (rest : List UInt8) : CodecAgrees t v x rest ↔
      (t.signed → ¬(2 ^ 31 ≤ v.toNat ∧ v.toNat < 2 ^ 32 - 2 ^ 26)) := by
  rw [← IntType.parse_vlqEncode t v rest]
  refine ⟨fun a => a.firmware_host, fun a => ?_⟩
  exact ⟨a, vlqParse_encode t x h h' rest, a, vlqParse_encode t x h h' rest,
    vlqParse_vlqEncode v rest, vlqParse_vlqEncode v rest⟩

theorem codecAgrees_position : CodecAgrees .int32 0xfffffff0 (-2 ^ 31) [0x7e] :=
  (codecAgrees_iff .int32 0xfffffff0 (-2 ^ 31) (by decide) (by decide) [0x7e]).2 (by decide)

/-- The word `0x80000000` sent as `%i` is read as `2 ^ 31`. -/
theorem not_codecAgrees_int32 :
    ¬∀ (t : IntType) (v : UInt32) (x : ℤ) (rest : List UInt8), -2 ^ 31 ≤ x → x < 2 ^ 32 →
      CodecAgrees t v x rest := by
  intro h
  have hp := (h .int32 0x80000000 0 [] (by decide) (by decide)).firmware_host
  have hr : IntType.int32.parse (Command.encodeInt 0x80000000 ++ []) = some (2 ^ 31, []) := by
    rw [IntType.parse, Command.encodeInt, parseRaw_vlqEncode]
    rfl
  rw [hr] at hp
  revert hp
  decide

end Thinker
