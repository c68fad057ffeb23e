import Mathlib.Tactic

/-!
# Computations that return or raise

Rules for what holds of the value a computation returns and of the error it raises.
`Ensures x Q E` is both together, with a rule for each way to build a computation.
-/

namespace Thinker

variable {ε α β : Type}

/-- Two computations in a row return if both do. -/
theorem bind_eq_ok {x : Except ε α} {f : α → Except ε β} {b : β} :
    (x >>= f) = .ok b ↔ ∃ a, x = .ok a ∧ f a = .ok b := by
  cases x with
  | error e => simp [bind, Except.bind]
  | ok a => simp [bind, Except.bind]

/-- The value returned satisfies `Q`, or the error raised satisfies `E`. -/
def Ensures (x : Except ε α) (Q : α → Prop) (E : ε → Prop) : Prop :=
  match x with
  | .ok a => Q a
  | .error e => E e

namespace Ensures

variable {Q Q' : α → Prop} {E : ε → Prop} {R : β → Prop}

theorem ok {a : α} (h : Q a) : Ensures (.ok a) Q E := h

theorem error {e : ε} (h : E e) : Ensures (.error e) Q E := h

theorem bind {x : Except ε α} {f : α → Except ε β} (hx : Ensures x Q E)
    (hf : ∀ a, Q a → Ensures (f a) R E) : Ensures (x >>= f) R E := by
  cases x with
  | error e => exact hx
  | ok a => exact hf a hx

end Ensures

end Thinker
