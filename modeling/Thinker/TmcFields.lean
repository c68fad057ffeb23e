import Mathlib.Data.Nat.Size
import Mathlib.Tactic
import Thinker.Bits
import Thinker.Lines
import Thinker.Numerals
import Thinker.Raises

/-!
# Fields of the registers of a TMC stepper driver

`FieldHelper` keeps the last known word of each register and reads and writes the fields
in it by their masks. A field is a range of bits, and the fields of a register do not
overlap (`FieldTable`). Writing one fills the bits of its mask with the low bits of the
value and leaves the others as they were (`testBit_fillField`), so what is read back is
the value modulo its width (`readField_fillField`) and nothing else changes.

A call of `setField` starts from the stored word or from a word it is given, and then it
is that word whose other fields the register takes. `setConfigField` reads the value of a
field of one bit as a boolean, of any other one as a number in the range of the field.
-/

namespace Thinker

/-! ## Ranges of bits -/

/-- The mask of `width` bits from bit `low` up. -/
def bitRange (low width : ℕ) : ℕ := (2 ^ width - 1) <<< low

theorem testBit_bitRange (s w i : ℕ) :
    (bitRange s w).testBit i = decide (s ≤ i ∧ i < s + w) := by
  rw [bitRange, Nat.testBit_shiftLeft, Nat.testBit_two_pow_sub_one]
  by_cases hi : s ≤ i
  · simp only [hi, decide_true, Bool.true_and, true_and]
    exact decide_eq_decide.mpr (by omega)
  · simp [hi]

theorem bitRange_shiftRight (s w : ℕ) : bitRange s w >>> s = 2 ^ w - 1 := by
  rw [bitRange, Nat.shiftLeft_shiftRight]

/-- Return the position of the first bit set in a mask. -/
def ffs (mask : ℕ) : ℕ := (Int.land mask (-mask)).toNat.size - 1

/-- Of a number and its negative the lowest bit set is left. -/
theorem land_neg_bitRange {s w : ℕ} (hw : 0 < w) :
    Int.land (bitRange s w) (-(bitRange s w : ℕ)) = (2 ^ s : ℕ) := by
  have hs : 0 < 2 ^ s := by positivity
  have hp : 2 ^ w = 2 * 2 ^ (w - 1) := by rw [← pow_succ', Nat.sub_add_cancel hw]
  have hp' : 0 < 2 ^ (w - 1) := by positivity
  have hm : bitRange s w = 2 ^ s * (2 ^ w - 2) + (2 ^ s - 1) + 1 := by
    rw [bitRange, Nat.shiftLeft_eq, show 2 ^ w - 1 = (2 ^ w - 2) + 1 by omega, Nat.add_one_mul]
    rw [mul_comm]
    omega
  rw [hm]
  show ((Nat.ldiff _ (2 ^ s * (2 ^ w - 2) + (2 ^ s - 1)) : ℕ) : ℤ) = _
  congr 1
  apply Nat.eq_of_testBit_eq
  intro i
  rw [Nat.testBit_ldiff, ← hm, testBit_bitRange, Nat.testBit_two_pow_mul_add _ (by omega),
    Nat.testBit_two_pow_sub_one, Nat.testBit_two_pow]
  rcases lt_trichotomy i s with hi | rfl | hi
  · simp [show ¬s ≤ i by omega, show s ≠ i by omega]
  · rw [if_neg (lt_irrefl i), Nat.sub_self, Nat.testBit_zero,
      show (2 ^ w - 2) % 2 = 0 by omega]
    simp [hw]
  · obtain ⟨j, hj⟩ : ∃ j, i - s = j + 1 := ⟨i - s - 1, by omega⟩
    rw [if_neg (by omega), hj, Nat.testBit_succ, show (2 ^ w - 2) / 2 = 2 ^ (w - 1) - 1 by omega,
      Nat.testBit_two_pow_sub_one]
    by_cases hi' : i < s + w
    · simp [show s ≠ i by omega, show j < w - 1 by omega]
    · simp [show s ≠ i by omega, hi']

@[simp] theorem ffs_bitRange {s w : ℕ} (hw : 0 < w) : ffs (bitRange s w) = s := by
  rw [ffs, land_neg_bitRange hw, Int.toNat_natCast, Nat.size_pow, Nat.add_sub_cancel]

/-- A value moved to a mask of `w` bits leaves its `w` low bits there, also a negative one. -/
theorem land_bitRange (v : ℤ) (s w : ℕ) :
    (Int.land (v <<< s) (bitRange s w)).toNat = (v % 2 ^ w).toNat <<< s := by
  rw [Int.shiftLeft_eq']
  have hs : 0 < 2 ^ s := by positivity
  cases v with
  | ofNat n =>
    have h : Int.ofNat n * ((2 ^ s : ℕ) : ℤ) = ((2 ^ s * n : ℕ) : ℤ) := by
      push_cast [Int.ofNat_eq_natCast]
      ring
    have hn : (Int.ofNat n % 2 ^ w).toNat = n % 2 ^ w := rfl
    rw [h, hn]
    show 2 ^ s * n &&& bitRange s w = _
    apply Nat.eq_of_testBit_eq
    intro i
    rw [Nat.testBit_and, Nat.testBit_two_pow_mul, testBit_bitRange, Nat.testBit_shiftLeft,
      Nat.testBit_mod_two_pow]
    by_cases hi : s ≤ i
    · simp [hi, show i < s + w ↔ i - s < w by omega, Bool.and_comm]
    · simp [hi]
  | negSucc m =>
    have h : Int.negSucc m * ((2 ^ s : ℕ) : ℤ) = Int.negSucc (2 ^ s * m + (2 ^ s - 1)) := by
      rw [Int.negSucc_eq, Int.negSucc_eq]
      push_cast [show 1 ≤ 2 ^ s by omega]
      ring
    have hlt : m % 2 ^ w < 2 ^ w := Nat.mod_lt _ (by positivity)
    have hn : (Int.negSucc m % 2 ^ w).toNat = 2 ^ w - (m % 2 ^ w + 1) := by
      have : Int.negSucc m % 2 ^ w = ((2 ^ w - (m % 2 ^ w + 1) : ℕ) : ℤ) := by
        rw [Int.negSucc_emod _ (by positivity)]
        push_cast [show m % 2 ^ w + 1 ≤ 2 ^ w by omega]
        ring
      rw [this, Int.toNat_natCast]
    rw [h, hn]
    show Nat.ldiff (bitRange s w) (2 ^ s * m + (2 ^ s - 1)) = _
    apply Nat.eq_of_testBit_eq
    intro i
    rw [Nat.testBit_ldiff, testBit_bitRange, Nat.testBit_two_pow_mul_add _ (by omega),
      Nat.testBit_two_pow_sub_one, Nat.testBit_shiftLeft, Nat.testBit_two_pow_sub_succ hlt,
      Nat.testBit_mod_two_pow]
    by_cases hi : s ≤ i
    · by_cases hw : i - s < w
      · simp [hi, hw, show i < s + w by omega, show ¬i < s by omega]
      · simp [hi, hw, show ¬i < s + w by omega]
    · simp [hi]

/-! ## A field in a word -/

/-- The value of the field with this mask in a register word. -/
def readField (signed : Bool) (mask regValue : ℕ) : ℤ :=
  let fieldValue := (regValue &&& mask) >>> ffs mask
  if signed ∧ mask < (regValue &&& mask) <<< 1 then
    (fieldValue : ℤ) - ((1 <<< fieldValue.size : ℕ) : ℤ)
  else
    fieldValue

/-- The register word with the field bits filled with the value. -/
def fillField (mask regValue : ℕ) (fieldValue : ℤ) : ℕ :=
  Nat.ldiff regValue mask ||| (Int.land (fieldValue <<< ffs mask) mask).toNat

/-- The values a field of `width` bits can hold. -/
def InRange (signed : Bool) (width : ℕ) (v : ℤ) : Prop :=
  if signed then -2 ^ (width - 1) ≤ v ∧ v < 2 ^ (width - 1) else 0 ≤ v ∧ v < 2 ^ width

theorem land_bitRange_shiftRight (x s w : ℕ) :
    x &&& bitRange s w = (x >>> s % 2 ^ w) <<< s := by
  apply Nat.eq_of_testBit_eq
  intro i
  rw [Nat.testBit_and, testBit_bitRange, Nat.testBit_shiftLeft, Nat.testBit_mod_two_pow,
    Nat.testBit_shiftRight]
  by_cases hi : s ≤ i
  · simp [hi, show i < s + w ↔ i - s < w by omega, Bool.and_comm]
  · simp [hi]

/-- A field reads as its bits, from the upper half on minus `2 ^ w` if it is signed. -/
theorem readField_bitRange (signed : Bool) (x s : ℕ) {w : ℕ} (hw : 0 < w) :
    readField signed (bitRange s w) x =
      if signed ∧ 2 ^ (w - 1) ≤ x >>> s % 2 ^ w then ((x >>> s % 2 ^ w : ℕ) : ℤ) - 2 ^ w
      else ((x >>> s % 2 ^ w : ℕ) : ℤ) := by
  have hlt : x >>> s % 2 ^ w < 2 ^ w := Nat.mod_lt _ (by positivity)
  have hp : 2 ^ w = 2 * 2 ^ (w - 1) := by rw [← pow_succ', Nat.sub_add_cancel hw]
  have hp' : 0 < 2 ^ (w - 1) := by positivity
  have hs : 0 < 2 ^ s := by positivity
  have hu : bitRange s w < ((x >>> s % 2 ^ w) <<< s) <<< 1 ↔ 2 ^ (w - 1) ≤ x >>> s % 2 ^ w := by
    rw [bitRange, Nat.shiftLeft_eq, Nat.shiftLeft_eq, Nat.shiftLeft_eq, mul_right_comm,
      Nat.mul_lt_mul_right hs]
    omega
  simp only [readField, ffs_bitRange hw, land_bitRange_shiftRight, Nat.shiftLeft_shiftRight, hu]
  split_ifs with h
  · have hsize : (x >>> s % 2 ^ w).size = w :=
      le_antisymm (Nat.size_le.mpr hlt) (by have := Nat.lt_size.mpr h.2; omega)
    rw [hsize, Nat.one_shiftLeft]
    push_cast
    rfl
  · rfl

theorem testBit_fillField (x i s : ℕ) {w : ℕ} (hw : 0 < w) (v : ℤ) :
    (fillField (bitRange s w) x v).testBit i =
      if s ≤ i ∧ i < s + w then (v % 2 ^ w).toNat.testBit (i - s) else x.testBit i := by
  rw [fillField, ffs_bitRange hw, land_bitRange, Nat.testBit_or, Nat.testBit_ldiff,
    testBit_bitRange, Nat.testBit_shiftLeft]
  have hlt : (v % 2 ^ w).toNat < 2 ^ w := by
    have := Int.emod_lt_of_pos v (show (0 : ℤ) < 2 ^ w by positivity)
    have := Int.emod_nonneg v (show (2 : ℤ) ^ w ≠ 0 by positivity)
    zify
    rwa [Int.toNat_of_nonneg this]
  by_cases hi : s ≤ i ∧ i < s + w
  · simp [hi]
  · rw [if_neg hi]
    by_cases hs : s ≤ i
    · rw [Nat.testBit_lt_two_pow (hlt.trans_le (Nat.pow_le_pow_right (by decide) (by omega)))]
      simp [hi]
    · simp [hs]

/-- The bits of the field are those of the value. -/
theorem fillField_bits (x s : ℕ) {w : ℕ} (hw : 0 < w) (v : ℤ) :
    fillField (bitRange s w) x v >>> s % 2 ^ w = (v % 2 ^ w).toNat := by
  have hlt : v % 2 ^ w < 2 ^ w := Int.emod_lt_of_pos v (by positivity)
  have hpos : 0 ≤ v % 2 ^ w := Int.emod_nonneg v (by positivity)
  apply Nat.eq_of_testBit_eq
  intro i
  rw [Nat.testBit_mod_two_pow, Nat.testBit_shiftRight, testBit_fillField x _ s hw]
  by_cases hi : i < w
  · simp [hi]
  · have : (v % 2 ^ w).toNat < 2 ^ w := by zify; rwa [Int.toNat_of_nonneg hpos]
    have hz : (v % 2 ^ w).toNat.testBit i = false :=
      Nat.testBit_lt_two_pow (this.trans_le (Nat.pow_le_pow_right (by decide) (by omega)))
    simp [hi, hz]

/-- A value in the range of the field is read back. -/
theorem readField_fillField (signed : Bool) (x s : ℕ) {w : ℕ} (hw : 0 < w) {v : ℤ}
    (hv : InRange signed w v) :
    readField signed (bitRange s w) (fillField (bitRange s w) x v) = v := by
  rw [readField_bitRange signed _ s hw, fillField_bits x s hw]
  have hp : (2 : ℤ) ^ w = 2 * 2 ^ (w - 1) := by rw [← pow_succ', Nat.sub_add_cancel hw]
  have hp' : (0 : ℤ) < 2 ^ (w - 1) := by positivity
  have hpos : 0 ≤ v % 2 ^ w := Int.emod_nonneg v (by positivity)
  have hle : 2 ^ (w - 1) ≤ (v % 2 ^ w).toNat ↔ (2 : ℤ) ^ (w - 1) ≤ v % 2 ^ w := by
    zify
    rw [Int.toNat_of_nonneg hpos]
  simp only [hle, Int.toNat_of_nonneg hpos]
  cases signed with
  | false =>
    simp only [InRange, Bool.false_eq_true, if_false, false_and] at hv ⊢
    exact Int.emod_eq_of_lt hv.1 hv.2
  | true =>
    simp only [InRange, if_true, true_and] at hv ⊢
    by_cases h : 0 ≤ v
    · rw [Int.emod_eq_of_lt h (by omega), if_neg (by omega)]
    · have : v % 2 ^ w = v + 2 ^ w := by
        rw [← Int.add_emod_right, Int.emod_eq_of_lt (by omega) (by omega)]
      rw [this, if_pos (by omega)]
      ring

/-- A field that shares no bit with the one written reads as before. -/
theorem readField_congr (signed : Bool) {mask x y : ℕ} (h : x &&& mask = y &&& mask) :
    readField signed mask x = readField signed mask y := by
  rw [readField, readField, h]

theorem fillField_land {s w m : ℕ} (hw : 0 < w) (x : ℕ) (v : ℤ)
    (hm : bitRange s w &&& m = 0) : fillField (bitRange s w) x v &&& m = x &&& m := by
  apply Nat.eq_of_testBit_eq
  intro i
  have hi : (bitRange s w &&& m).testBit i = false := by rw [hm, Nat.zero_testBit]
  rw [Nat.testBit_and, testBit_bitRange] at hi
  rw [Nat.testBit_and, Nat.testBit_and, testBit_fillField x i s hw]
  split_ifs with h
  · simp [show m.testBit i = false by simpa [h] using hi]
  · rfl

/-! ## The helper of a driver -/

/-- The registers of a driver with their fields and the masks of these. A mask is a
range of bits, and the masks of one register are disjoint. -/
structure FieldTable where
  registers : List (Text × List (Text × ℕ))
  ranges : ∀ reg ∈ registers, ∀ field ∈ reg.2, ∃ s w, 0 < w ∧ field.2 = bitRange s w
  disjoint : ∀ reg ∈ registers, reg.2.Pairwise fun f g => f.2 &&& g.2 = 0

structure FieldHelper where
  allFields : FieldTable
  signedFields : List Text
  registers : Text → Option ℕ

inductive TmcError
  | keyError (key : Text)
  | config (message : Text)
deriving DecidableEq

/-- A section of the configuration, with the reading of numbers. -/
structure ConfigSection where
  name : Text
  fileconfig : Text → Option Text
  toInt : Text → Option ℤ

namespace ConfigSection

/-- `RawConfigParser.getboolean`, with `1` for true. -/
def toBoolean (value : Text) : Option ℤ :=
  if value.map Char.toLower ∈ ["1".toList, "yes".toList, "true".toList, "on".toList] then some 1
  else if value.map Char.toLower ∈ ["0".toList, "no".toList, "false".toList, "off".toList] then
    some 0
  else none

def message (config : ConfigSection) (option : Text) (text : String) : Text :=
  "Option '".toList ++ option ++ "' in section '".toList ++ config.name ++ text.toList

def getWrapper (config : ConfigSection) (parser : Text → Option ℤ) (option : Text)
    (default : ℤ) (bounds : Option (ℤ × ℤ)) : Except TmcError ℤ :=
  match config.fileconfig option with
  | none => .ok default
  | some value =>
    match parser value with
    | none => .error (.config ("Unable to parse option '".toList ++ option ++
        "' in section '".toList ++ config.name ++ "'".toList))
    | some v =>
      match bounds with
      | none => .ok v
      | some (minval, maxval) =>
        if v < minval then
          .error (.config (config.message option "' must have minimum of " ++
            (toString minval).toList))
        else if maxval < v then
          .error (.config (config.message option "' must have maximum of " ++
            (toString maxval).toList))
        else .ok v

def getint (config : ConfigSection) (option : Text) (default minval maxval : ℤ) :
    Except TmcError ℤ :=
  config.getWrapper config.toInt option default (some (minval, maxval))

def getboolean (config : ConfigSection) (option : Text) (default : ℤ) : Except TmcError ℤ :=
  config.getWrapper toBoolean option default none

end ConfigSection

namespace FieldHelper

/-- The register of a field : the last one of the table that has it. -/
def fieldToRegister (h : FieldHelper) (fieldName : Text) : Option Text :=
  (h.allFields.registers.reverse.find? fun reg => (reg.2.lookup fieldName).isSome).map Prod.fst

/-- The register a call is about : the one it names, or that of the field. -/
def regName (h : FieldHelper) (fieldName : Text) : Option Text → Except TmcError Text
  | some regName => .ok regName
  | none =>
    match h.fieldToRegister fieldName with
    | some regName => .ok regName
    | none => .error (.keyError fieldName)

def mask (h : FieldHelper) (regName fieldName : Text) : Except TmcError ℕ :=
  match h.allFields.registers.lookup regName with
  | none => .error (.keyError regName)
  | some fields =>
    match fields.lookup fieldName with
    | none => .error (.keyError fieldName)
    | some mask => .ok mask

/-- The stored word of a register. -/
def word (h : FieldHelper) (regName : Text) : ℕ :=
  (h.registers regName).getD 0

def setWord (h : FieldHelper) (regName : Text) (newValue : ℕ) : FieldHelper :=
  { h with registers := Function.update h.registers regName (some newValue) }

@[simp] theorem word_setWord (h : FieldHelper) (r : Text) (v : ℕ) : (h.setWord r v).word r = v := by
  simp [word, setWord]

theorem word_setWord_of_ne (h : FieldHelper) {r r' : Text} (hne : r ≠ r') (v : ℕ) :
    (h.setWord r' v).word r = h.word r := by
  simp [word, setWord, Function.update_of_ne hne]

/-- Returns value of the register field. -/
def getField (h : FieldHelper) (fieldName : Text) (regValue : Option ℕ)
    (regName : Option Text) : Except TmcError ℤ := do
  let regName ← h.regName fieldName regName
  let mask ← h.mask regName fieldName
  return readField (fieldName ∈ h.signedFields) mask (regValue.getD (h.word regName))

/-- Returns register value with field bits filled with supplied value. -/
def setField (h : FieldHelper) (fieldName : Text) (fieldValue : ℤ) (regValue : Option ℕ)
    (regName : Option Text) : Except TmcError (ℕ × FieldHelper) := do
  let regName ← h.regName fieldName regName
  let mask ← h.mask regName fieldName
  let newValue := fillField mask (regValue.getD (h.word regName)) fieldValue
  return (newValue, h.setWord regName newValue)

/-- The value of a field in the configuration. -/
def configValue (h : FieldHelper) (config : ConfigSection) (fieldName : Text) (default : ℤ) :
    Except TmcError ℤ := do
  let configName := "driver_".toList ++ fieldName.map Char.toUpper
  let regName ← h.regName fieldName none
  let mask ← h.mask regName fieldName
  let maxval : ℤ := (mask >>> ffs mask : ℕ)
  if maxval = 1 then
    config.getboolean configName default
  else if fieldName ∈ h.signedFields then
    config.getint configName default (-(maxval / 2 + 1)) (maxval / 2)
  else
    config.getint configName default 0 maxval

/-- Allow a field to be set from the config file. -/
def setConfigField (h : FieldHelper) (config : ConfigSection) (fieldName : Text)
    (default : ℤ) : Except TmcError (ℕ × FieldHelper) := do
  let val ← h.configValue config fieldName default
  h.setField fieldName val none none

end FieldHelper

/-- A call of `setField`. -/
structure SetCall where
  fieldName : Text
  fieldValue : ℤ
  regValue : Option ℕ := none
  regName : Option Text := none

namespace FieldHelper

/-- A call that raises leaves the registers as they are. -/
def call (h : FieldHelper) (c : SetCall) : FieldHelper :=
  match h.setField c.fieldName c.fieldValue c.regValue c.regName with
  | .ok (_, h') => h'
  | .error _ => h

def run (h : FieldHelper) (calls : List SetCall) : FieldHelper :=
  calls.foldl call h

variable (h : FieldHelper)

/-- The call writes the field : it is about it, or it gives the register a word. -/
def Touches (c : SetCall) (r g : Text) : Prop :=
  h.regName c.fieldName c.regName = .ok r ∧ (∃ m, h.mask r c.fieldName = .ok m) ∧
    (c.fieldName = g ∨ c.regValue.isSome)

/-! ## What a call does -/

variable {h}

theorem mask_mem {r f : Text} {m : ℕ} (hm : h.mask r f = .ok m) :
    ∃ fields, h.allFields.registers.lookup r = some fields ∧
      (r, fields) ∈ h.allFields.registers ∧ (f, m) ∈ fields := by
  rw [mask] at hm
  split at hm
  · cases hm
  · next fields hr =>
    split at hm
    · cases hm
    · next m' hf =>
      cases hm
      have mem {α : Type} {l : List (Text × α)} {k : Text} {b : α} (hl : l.lookup k = some b) :
          (k, b) ∈ l := by
        obtain ⟨l₁, l₂, rfl, -⟩ := List.lookup_eq_some_iff.mp hl
        simp
      exact ⟨fields, hr, mem hr, mem hf⟩

theorem mask_range {r f : Text} {m : ℕ} (hm : h.mask r f = .ok m) :
    ∃ s w, 0 < w ∧ m = bitRange s w := by
  obtain ⟨fields, -, hr, hf⟩ := mask_mem hm
  exact h.allFields.ranges _ hr _ hf

theorem mask_width {r f : Text} {s w : ℕ} (hm : h.mask r f = .ok (bitRange s w)) : 0 < w := by
  obtain ⟨s', w', hw, he⟩ := mask_range hm
  have hi : (bitRange s w).testBit s' := by
    rw [he, testBit_bitRange]
    simpa using hw
  rw [testBit_bitRange] at hi
  have := of_decide_eq_true hi
  omega

theorem mask_disjoint {r f g : Text} {m m' : ℕ} (hm : h.mask r f = .ok m)
    (hm' : h.mask r g = .ok m') (hne : g ≠ f) : m &&& m' = 0 := by
  obtain ⟨fields, hr, hreg, hf⟩ := mask_mem hm
  obtain ⟨fields', hr', -, hg⟩ := mask_mem hm'
  cases hr.symm.trans hr'
  have : Std.Symm fun a b : Text × ℕ => a.2 &&& b.2 = 0 := ⟨fun a b hab => by rwa [Nat.and_comm]⟩
  exact (h.allFields.disjoint _ hreg).forall hf hg fun e => hne (congrArg Prod.fst e).symm

/-- A call raises and leaves the helper as it is, or writes one field of one register. -/
theorem call_cases (h : FieldHelper) (c : SetCall) :
    (h.call c = h ∧ ∀ r, h.regName c.fieldName c.regName = .ok r →
      ∀ m, h.mask r c.fieldName ≠ .ok m) ∨
    ∃ r m, h.regName c.fieldName c.regName = .ok r ∧ h.mask r c.fieldName = .ok m ∧
      h.call c =
        h.setWord r (fillField m (c.regValue.getD (h.word r)) c.fieldValue) := by
  rw [call, setField]
  cases hr : h.regName c.fieldName c.regName with
  | error e => exact .inl ⟨rfl, nofun⟩
  | ok r =>
    cases hm : h.mask r c.fieldName with
    | error e =>
      refine .inl ⟨by simp [bind, Except.bind, hm], ?_⟩
      rintro _ ⟨⟩ m hm'
      cases hm.symm.trans hm'
    | ok m => exact .inr ⟨r, m, rfl, hm, by simp [bind, Except.bind, pure, Except.pure, hm]⟩

@[simp] theorem call_allFields (h : FieldHelper) (c : SetCall) :
    (h.call c).allFields = h.allFields := by
  obtain ⟨h1, -⟩ | ⟨r, m, -, -, h1⟩ := call_cases h c
  · rw [h1]
  · rw [h1, setWord]

@[simp] theorem call_signedFields (h : FieldHelper) (c : SetCall) :
    (h.call c).signedFields = h.signedFields := by
  obtain ⟨h1, -⟩ | ⟨r, m, -, -, h1⟩ := call_cases h c
  · rw [h1]
  · rw [h1, setWord]

@[simp] theorem call_mask (h : FieldHelper) (c : SetCall) (r f : Text) :
    (h.call c).mask r f = h.mask r f := by
  rw [mask, mask, call_allFields]

@[simp] theorem call_regName (h : FieldHelper) (c : SetCall) (f : Text) (r : Option Text) :
    (h.call c).regName f r = h.regName f r := by
  cases r with
  | some r => rfl
  | none => rw [regName, regName, fieldToRegister, fieldToRegister, call_allFields]

/-- The word of a register after a call that wrote one of its fields. -/
theorem word_call {c : SetCall} {r : Text} {m : ℕ}
    (hr : h.regName c.fieldName c.regName = .ok r) (hm : h.mask r c.fieldName = .ok m) :
    (h.call c).word r = fillField m (c.regValue.getD (h.word r)) c.fieldValue := by
  obtain ⟨-, hno⟩ | ⟨r', m', hr', hm', h1⟩ := call_cases h c
  · exact absurd hm (hno r hr m)
  · cases hr.symm.trans hr'
    cases hm.symm.trans hm'
    rw [h1, word_setWord]

theorem word_call_of_ne {c : SetCall} {r : Text}
    (hr : h.regName c.fieldName c.regName ≠ .ok r) : (h.call c).word r = h.word r := by
  obtain ⟨h1, -⟩ | ⟨r', m, hr', -, h1⟩ := call_cases h c
  · rw [h1]
  · have hne : r ≠ r' := fun e => hr (e ▸ hr')
    rw [h1, word_setWord_of_ne h hne]

theorem getField_eq {r g : Text} {m : ℕ} (hm : h.mask r g = .ok m) (v : Option ℕ) :
    h.getField g v (some r) =
      .ok (readField (g ∈ h.signedFields) m (v.getD (h.word r))) := by
  simp only [getField, regName, bind, Except.bind, hm, pure, Except.pure]

theorem getField_congr {h' : FieldHelper} (hm : ∀ r g, h'.mask r g = h.mask r g)
    (hs : h'.signedFields = h.signedFields) {r g : Text} {v v' : Option ℕ}
    (hw : ∀ m, h.mask r g = .ok m → v'.getD (h'.word r) &&& m = v.getD (h.word r) &&& m) :
    h'.getField g v' (some r) = h.getField g v (some r) := by
  cases hg : h.mask r g with
  | error e => simp only [getField, regName, bind, Except.bind, hm, hg]
  | ok m =>
    rw [getField_eq hg, getField_eq (by rw [hm, hg]), hs, readField_congr _ (hw m hg)]

/-- Another field of the register reads as in the word the call started from. -/
theorem getField_call {c : SetCall} {r g : Text} {m : ℕ}
    (hr : h.regName c.fieldName c.regName = .ok r) (hm : h.mask r c.fieldName = .ok m)
    (hne : g ≠ c.fieldName) :
    (h.call c).getField g none (some r) = h.getField g c.regValue (some r) := by
  obtain ⟨s, w, hw, rfl⟩ := mask_range hm
  refine getField_congr (call_mask h c) (call_signedFields h c) fun m' hm' => ?_
  rw [Option.getD_none, word_call hr hm]
  exact fillField_land hw _ _ (mask_disjoint hm hm' hne)

/-- A field the call does not touch reads as before. -/
theorem getField_call_of_not_touches {c : SetCall} {r g : Text} (hno : ¬h.Touches c r g) :
    (h.call c).getField g none (some r) = h.getField g none (some r) := by
  obtain ⟨h1, -⟩ | ⟨r', m, hr, hm, -⟩ := call_cases h c
  · rw [h1]
  · by_cases he : r' = r
    · subst he
      have hno' : ¬(c.fieldName = g ∨ c.regValue.isSome) := fun hc => hno ⟨hr, ⟨m, hm⟩, hc⟩
      rw [not_or, Option.not_isSome_iff_eq_none] at hno'
      rw [getField_call hr hm (Ne.symm hno'.1), hno'.2]
    · refine getField_congr (call_mask h c) (call_signedFields h c) fun m' _ => ?_
      rw [Option.getD_none, Option.getD_none,
        word_call_of_ne fun e => he (Except.ok.inj (hr.symm.trans e))]

/-- A bit outside the mask of a field written is that of the word the call started from. -/
theorem testBit_word_call {c : SetCall} {r : Text} {m i : ℕ}
    (hr : h.regName c.fieldName c.regName = .ok r) (hm : h.mask r c.fieldName = .ok m)
    (hi : m.testBit i = false) :
    ((h.call c).word r).testBit i = (c.regValue.getD (h.word r)).testBit i := by
  obtain ⟨s, w, hw, rfl⟩ := mask_range hm
  rw [testBit_bitRange, decide_eq_false_iff_not] at hi
  rw [word_call hr hm, testBit_fillField _ _ _ hw, if_neg hi]

/-! ## Runs of calls -/

@[simp] theorem run_cons (h : FieldHelper) (c : SetCall) (calls : List SetCall) :
    h.run (c :: calls) = (h.call c).run calls := rfl

theorem run_append (h : FieldHelper) (calls calls' : List SetCall) :
    h.run (calls ++ calls') = (h.run calls).run calls' :=
  List.foldl_append

theorem touches_call {c d : SetCall} {r g : Text} :
    (h.call c).Touches d r g ↔ h.Touches d r g := by
  simp only [Touches, call_regName, call_mask]

/-- What the calls of a run leave of the tables. -/
theorem run_table (h : FieldHelper) (calls : List SetCall) :
    (h.run calls).signedFields = h.signedFields ∧
      (∀ r f, (h.run calls).mask r f = h.mask r f) ∧
      ∀ f r, (h.run calls).regName f r = h.regName f r := by
  induction calls generalizing h with
  | nil => exact ⟨rfl, fun _ _ => rfl, fun _ _ => rfl⟩
  | cons c calls ih =>
    obtain ⟨h1, h2, h3⟩ := ih (h.call c)
    exact ⟨h1.trans (call_signedFields h c), fun r f => (h2 r f).trans (call_mask h c r f),
      fun f r => (h3 f r).trans (call_regName h c f r)⟩

theorem getField_run {calls : List SetCall} {r g : Text}
    (hno : ∀ c ∈ calls, ¬h.Touches c r g) :
    (h.run calls).getField g none (some r) = h.getField g none (some r) := by
  induction calls generalizing h with
  | nil => rfl
  | cons c calls ih =>
    rw [run_cons, ih fun d hd ht => hno d (List.mem_cons_of_mem c hd) (touches_call.mp ht),
      getField_call_of_not_touches (hno c List.mem_cons_self)]

theorem testBit_word_run {calls : List SetCall} {r : Text} {i : ℕ}
    (hno : ∀ c ∈ calls, h.regName c.fieldName c.regName = .ok r → c.regValue = none)
    (hi : ∀ f m, h.mask r f = .ok m → m.testBit i = false) :
    ((h.run calls).word r).testBit i = (h.word r).testBit i := by
  induction calls generalizing h with
  | nil => rfl
  | cons c calls ih =>
    rw [run_cons, ih (fun d hd hr => hno d (List.mem_cons_of_mem c hd) (by rwa [← call_regName h c]))
      fun f m hm => hi f m (by rwa [← call_mask h c])]
    obtain ⟨h1, -⟩ | ⟨r', m, hr, hm, -⟩ := call_cases h c
    · rw [h1]
    · by_cases he : r' = r
      · subst he
        rw [testBit_word_call hr hm (hi _ m hm), hno c List.mem_cons_self hr, Option.getD_none]
      · rw [word_call_of_ne fun e => he (Except.ok.inj (hr.symm.trans e))]

theorem getField_regName {f r : Text} {regName : Option Text} (hr : h.regName f regName = .ok r)
    (v : Option ℕ) : h.getField f v regName = h.getField f v (some r) := by
  simp only [getField, hr, bind, Except.bind]
  rfl

/-- The value set is read back right after the call. -/
theorem getField_call_self {c : SetCall} {r : Text} {s w : ℕ}
    (hr : h.regName c.fieldName c.regName = .ok r)
    (hm : h.mask r c.fieldName = .ok (bitRange s w))
    (hv : InRange (c.fieldName ∈ h.signedFields) w c.fieldValue) :
    (h.call c).getField c.fieldName none (some r) = .ok c.fieldValue := by
  rw [getField_eq (by rw [call_mask, hm]), call_signedFields, Option.getD_none, word_call hr hm,
    readField_fillField _ _ _ (mask_width hm) hv]

/-! ## Values from the configuration -/

theorem getWrapper_some {config : ConfigSection} {parser : Text → Option ℤ} {option value : Text}
    {default v : ℤ} {bounds : Option (ℤ × ℤ)} (ho : config.fileconfig option = some value)
    (hv : config.getWrapper parser option default bounds = .ok v) :
    parser value = some v ∧ ∀ b, bounds = some b → b.1 ≤ v ∧ v ≤ b.2 := by
  rw [ConfigSection.getWrapper, ho] at hv
  cases hp : parser value with
  | none => simp [hp] at hv
  | some v' =>
    cases bounds with
    | none =>
      simp only [hp, Except.ok.injEq] at hv
      exact ⟨by rw [hv], nofun⟩
    | some b =>
      simp only [hp] at hv
      split_ifs at hv with h1 h2
      cases hv
      refine ⟨rfl, ?_⟩
      rintro _ ⟨⟩
      exact ⟨not_lt.mp h1, not_lt.mp h2⟩

theorem toBoolean_some {value : Text} {v : ℤ} (hv : ConfigSection.toBoolean value = some v) :
    v = 0 ∨ v = 1 := by
  rw [ConfigSection.toBoolean] at hv
  split_ifs at hv
  · exact .inr (Option.some.inj hv).symm
  · exact .inl (Option.some.inj hv).symm

/-- A value of the configuration is one that the field can hold, unless the field is a
signed one of one bit. -/
theorem configValue_inRange {config : ConfigSection} {f r value : Text} {default v : ℤ}
    {s w : ℕ} (hr : h.regName f none = .ok r) (hm : h.mask r f = .ok (bitRange s w))
    (ho : config.fileconfig ("driver_".toList ++ f.map Char.toUpper) = some value)
    (hv : h.configValue config f default = .ok v) (hbit : f ∈ h.signedFields → w ≠ 1) :
    InRange (f ∈ h.signedFields) w v := by
  have hw := mask_width hm
  have hp : 2 ^ w = 2 * 2 ^ (w - 1) := by rw [← pow_succ', Nat.sub_add_cancel hw]
  have hp' : 0 < 2 ^ (w - 1) := by positivity
  simp only [configValue, hr, hm, bind, Except.bind, ffs_bitRange hw, bitRange_shiftRight] at hv
  generalize "driver_".toList ++ f.map Char.toUpper = configName at ho hv
  push_cast [show 1 ≤ 2 ^ w by omega] at hv
  zify at hp hp'
  split_ifs at hv with h1 h2
  · have hw1 : w = 1 := by
      by_contra hne
      have : (2 : ℤ) ^ 2 ≤ 2 ^ w := pow_le_pow_right₀ (by norm_num) (by omega)
      omega
    have hf : f ∉ h.signedFields := fun hf => hbit hf hw1
    have := toBoolean_some (getWrapper_some ho hv).1
    simp only [InRange, hf, decide_false, Bool.false_eq_true, if_false]
    omega
  · obtain ⟨h3, h4⟩ := (getWrapper_some ho hv).2 _ rfl
    simp only [InRange, h2, decide_true, if_true]
    omega
  · obtain ⟨h3, h4⟩ := (getWrapper_some ho hv).2 _ rfl
    simp only [InRange, h2, decide_false, Bool.false_eq_true, if_false]
    omega

end FieldHelper

/-! ## The fields are independent -/

/-- What the fields of a helper keep of each other over every run of calls. -/
structure FieldsIndependent (h : FieldHelper) : Prop where
  /-- The last value set is read back, if the field can hold it. -/
  readBack : ∀ before c after r s w,
    h.regName c.fieldName c.regName = .ok r → h.mask r c.fieldName = .ok (bitRange s w) →
    (∀ d ∈ after, ¬h.Touches d r c.fieldName) →
    InRange (c.fieldName ∈ h.signedFields) w c.fieldValue →
      (h.run (before ++ c :: after)).getField c.fieldName none c.regName = .ok c.fieldValue
  /-- A field that no call touches keeps its value. -/
  others : ∀ calls r g, (∀ c ∈ calls, ¬h.Touches c r g) →
    (h.run calls).getField g none (some r) = h.getField g none (some r)
  /-- The other fields of the register are those of the word a call started from. -/
  given : ∀ calls c r m g, h.regName c.fieldName c.regName = .ok r →
    h.mask r c.fieldName = .ok m → g ≠ c.fieldName →
      (h.run (calls ++ [c])).getField g none (some r) =
        (h.run calls).getField g c.regValue (some r)
  /-- So are the bits outside the mask. -/
  givenBits : ∀ calls c r m i, h.regName c.fieldName c.regName = .ok r →
    h.mask r c.fieldName = .ok m → m.testBit i = false →
      ((h.run (calls ++ [c])).word r).testBit i =
        (c.regValue.getD ((h.run calls).word r)).testBit i
  /-- The bits outside all fields are preserved by the calls that start from the stored word. -/
  otherBits : ∀ calls r i,
    (∀ c ∈ calls, h.regName c.fieldName c.regName = .ok r → c.regValue = none) →
    (∀ f m, h.mask r f = .ok m → m.testBit i = false) →
      ((h.run calls).word r).testBit i = (h.word r).testBit i
  /-- A value admitted from the configuration is one that the field can hold, so it is
  read back. -/
  configured : ∀ config f default r s w value word h', h.regName f none = .ok r →
    h.mask r f = .ok (bitRange s w) → (f ∈ h.signedFields → w ≠ 1) →
    config.fileconfig ("driver_".toList ++ f.map Char.toUpper) = some value →
    h.setConfigField config f default = .ok (word, h') →
      ∃ v, h.configValue config f default = .ok v ∧ InRange (f ∈ h.signedFields) w v ∧
        h'.getField f none none = .ok v

namespace FieldHelper

theorem fields_independent (h : FieldHelper) : FieldsIndependent h where
  readBack before c after r s w hr hm hafter hv := by
    obtain ⟨hs, hmask, hreg⟩ := run_table h before
    have hr' : (h.run before).regName c.fieldName c.regName = .ok r := by rw [hreg, hr]
    have hm' : (h.run before).mask r c.fieldName = .ok (bitRange s w) := by rw [hmask, hm]
    rw [run_append, run_cons, getField_regName (r := r)]
    · rw [getField_run, getField_call_self hr' hm' (by rwa [hs])]
      intro d hd ht
      refine hafter d hd ?_
      simpa only [Touches, call_regName, call_mask, hmask, hreg] using ht
    · rw [(run_table _ after).2.2, call_regName, hr']
  others calls r g hno := getField_run hno
  given calls c r m g hr hm hne := by
    obtain ⟨-, hmask, hreg⟩ := run_table h calls
    rw [run_append]
    exact getField_call ((hreg _ _).trans hr) ((hmask _ _).trans hm) hne
  givenBits calls c r m i hr hm hi := by
    obtain ⟨-, hmask, hreg⟩ := run_table h calls
    rw [run_append]
    exact testBit_word_call ((hreg _ _).trans hr) ((hmask _ _).trans hm) hi
  otherBits calls r i hno hi := testBit_word_run hno hi
  configured config f default r s w value word h' hr hm hbit ho hset := by
    obtain ⟨v, hv, hset⟩ := bind_eq_ok.mp hset
    have hrange := configValue_inRange hr hm ho hv hbit
    have hcall : h.call { fieldName := f, fieldValue := v } = h' := by simp only [call, hset]
    refine ⟨v, hv, hrange, ?_⟩
    subst hcall
    rw [getField_regName ((call_regName h _ f none).trans hr)]
    exact getField_call_self (c := { fieldName := f, fieldValue := v }) hr hm hrange

end FieldHelper

/-- The register COOLCONF of a TMC2130. -/
def coolconf : FieldTable where
  registers := [("COOLCONF".toList, [("semin".toList, 0x0f), ("seup".toList, 0x03 <<< 5),
    ("semax".toList, 0x0f <<< 8), ("sedn".toList, 0x03 <<< 13), ("seimin".toList, 1 <<< 15),
    ("sgt".toList, 0x7f <<< 16), ("sfilt".toList, 1 <<< 24)])]
  ranges := by
    refine List.forall_mem_singleton.2 ?_
    simp only [List.forall_mem_cons]
    exact ⟨⟨0, 4, by decide⟩, ⟨5, 2, by decide⟩, ⟨8, 4, by decide⟩, ⟨13, 2, by decide⟩,
      ⟨15, 1, by decide⟩, ⟨16, 7, by decide⟩, ⟨24, 1, by decide⟩, List.forall_mem_nil _⟩
  disjoint := List.forall_mem_singleton.2 (by decide)

/-- A section with one option, the text of which reads as 1. -/
def oneOption (option : Text) : ConfigSection where
  name := "tmc2130 stepper_x".toList
  fileconfig o := if o = option then some "1".toList else none
  toInt _ := some 1

/-- A signed field of one bit takes the value 1 from the configuration and reads as -1, a
default is not checked, and a word given to `setField` brings its other fields along. -/
theorem fields_dependent :
    let seimin : FieldHelper := ⟨coolconf, ["seimin".toList], fun _ => none⟩
    let sgt : FieldHelper := ⟨coolconf, ["sgt".toList], fun _ => none⟩
    let set (c : SetCall) (f : String) := (sgt.call c).getField f.toList none none
    seimin.configValue (oneOption "driver_SEIMIN".toList) "seimin".toList 0 = .ok 1 ∧
      (seimin.call ⟨"seimin".toList, 1, none, none⟩).getField "seimin".toList none none =
        .ok (-1) ∧
      sgt.configValue (oneOption []) "semin".toList 16 = .ok 16 ∧
      set ⟨"semin".toList, 16, none, none⟩ "semin" = .ok 0 ∧
      set ⟨"semin".toList, 2, some 0x10000, none⟩ "sgt" = .ok 1 ∧
      set ⟨"semin".toList, 2, none, none⟩ "sgt" = .ok 0 := by
  decide +kernel

theorem fields_independent_coolconf :
    (FieldHelper.run ⟨coolconf, ["sgt".toList], fun _ => none⟩
      [⟨"semin".toList, 3, none, none⟩, ⟨"sgt".toList, -64, none, none⟩,
        ⟨"sfilt".toList, 1, none, none⟩]).getField "sgt".toList none none = .ok (-64) := by
  refine (FieldHelper.fields_independent ⟨coolconf, ["sgt".toList], fun _ => none⟩).readBack
    [⟨"semin".toList, 3, none, none⟩] ⟨"sgt".toList, -64, none, none⟩
    [⟨"sfilt".toList, 1, none, none⟩] "COOLCONF".toList 16 7 (by decide) (by decide) ?_ ?_
  · refine List.forall_mem_singleton.2 ?_
    rintro ⟨-, -, h⟩
    exact absurd h (by decide)
  · rw [InRange, if_pos (by decide)]
    decide

end Thinker
