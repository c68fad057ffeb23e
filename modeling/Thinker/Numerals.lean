import Mathlib.Data.Nat.Cast.Defs

/-!
# Instances of literals

What the literals of the model's definitions ask of their types, as constants, so that one
literal is the same term in every module.
-/

namespace Thinker

instance atLeastTwo_2 : Nat.AtLeastTwo 2 := inferInstance

instance atLeastTwo_3 : Nat.AtLeastTwo 3 := inferInstance

instance atLeastTwo_4 : Nat.AtLeastTwo 4 := inferInstance

instance atLeastTwo_5 : Nat.AtLeastTwo 5 := inferInstance

instance atLeastTwo_10 : Nat.AtLeastTwo 10 := inferInstance

instance atLeastTwo_25 : Nat.AtLeastTwo 25 := inferInstance

instance atLeastTwo_60 : Nat.AtLeastTwo 60 := inferInstance

instance atLeastTwo_100 : Nat.AtLeastTwo 100 := inferInstance

instance atLeastTwo_255 : Nat.AtLeastTwo 255 := inferInstance

instance atLeastTwo_1000 : Nat.AtLeastTwo 1000 := inferInstance

instance atLeastTwo_2000 : Nat.AtLeastTwo 2000 := inferInstance

instance atLeastTwo_100000 : Nat.AtLeastTwo 100000 := inferInstance

instance atLeastTwo_1000000 : Nat.AtLeastTwo 1000000 := inferInstance

instance neZero_1 : @NeZero ℕ Zero.ofOfNat0 1 := inferInstance

instance neZero_2 : @NeZero ℕ Zero.ofOfNat0 2 := inferInstance

instance neZero_3 : @NeZero ℕ Zero.ofOfNat0 3 := inferInstance

instance neZero_4 : @NeZero ℕ Zero.ofOfNat0 4 := inferInstance

instance lawfulBEq_text : LawfulBEq (List Char) := inferInstance

end Thinker
