import Mathlib.Tactic
import Thinker.Lines

/-!
# JSON values

The values that a JSON text stands for. An object is the list of its members in the order of the
text; a key is looked up from the front.
-/

namespace Thinker

/-- A JSON value. -/
inductive Json where
  | null
  | bool (b : Bool)
  | num (q : ℚ)
  | str (t : Text)
  | arr (items : List Json)
  | obj (members : List (Text × Json))

namespace Json

/-- `isinstance(v, dict)`. -/
def isObj : Json → Bool
  | obj _ => true
  | _ => false

/-- `v is None`. -/
def isNull : Json → Bool
  | null => true
  | _ => false

/-- The values that can be a key of a dictionary. -/
def hashable : Json → Bool
  | arr _ => false
  | obj _ => false
  | _ => true

/-- A value that equals the number `n`, as `True` equals 1. -/
def equalsInt : Json → ℤ → Bool
  | num q, n => q == n
  | bool b, n => n == b.toNat
  | _, _ => false

theorem isNull_iff {v : Json} : v.isNull = true ↔ v = null := by
  cases v <;> simp [isNull]

end Json

end Thinker
