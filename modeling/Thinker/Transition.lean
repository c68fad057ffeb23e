import Mathlib.Tactic

/-!
# Transition systems

A system is its initial states and a partial step function : `next s a` is the state that
the event `a` leads to from `s`, and `none` where `a` cannot happen there. Every choice
that the environment makes is part of the event, so `next` can be evaluated. A state is
reachable by events that meet a condition `C` if some run from an initial state leads to
it and each event of the run meets `C` where it happens.
-/

namespace Thinker

/-- Initial states and a partial step function. -/
structure System (σ α : Type*) where
  /-- The states a run may start in. -/
  init : σ → Prop
  /-- The state after an event, if the event can happen. -/
  next : σ → α → Option σ

namespace System

variable {σ α : Type*} (M : System σ α)

/-- States reached by runs whose events all meet `C`. -/
inductive ReachableBy (C : σ → α → Prop) : σ → Prop
  | init {s : σ} (h : M.init s) : ReachableBy C s
  | step {s t : σ} {a : α} (hs : ReachableBy C s) (hC : C s a) (h : M.next s a = some t) :
      ReachableBy C t

/-- States reached by any run. -/
abbrev Reachable : σ → Prop :=
  M.ReachableBy fun _ _ => True

/-- The state after the events of a list. -/
def run : σ → List α → Option σ
  | s, [] => some s
  | s, a :: as => (M.next s a).bind fun t => run t as

/-- Whether each event of a list meets `C` where it happens. -/
def meets (C : σ → α → Prop) [∀ s a, Decidable (C s a)] : σ → List α → Bool
  | _, [] => true
  | s, a :: as => decide (C s a) && (M.next s a).all fun t => meets C t as

variable {M} {C : σ → α → Prop}

/-- What holds initially and is kept by every event that meets `C` holds in every state
that such events reach. -/
theorem ReachableBy.invariant {I : σ → Prop} (hinit : ∀ s, M.init s → I s)
    (hstep : ∀ s a t, I s → C s a → M.next s a = some t → I t) {s : σ}
    (h : M.ReachableBy C s) : I s := by
  induction h with
  | init h => exact hinit _ h
  | step _ hC h ih => exact hstep _ _ _ ih hC h

/-- A weaker condition reaches as much. -/
theorem ReachableBy.mono {C' : σ → α → Prop} {s : σ} (h : M.ReachableBy C s)
    (hC : ∀ s a, C s a → C' s a) : M.ReachableBy C' s := by
  induction h with
  | init h => exact .init h
  | step _ ha h ih => exact ih.step (hC _ _ ha) h

/-- A run from a reachable state ends in a reachable state. -/
theorem Reachable.run {s t : σ} (hs : M.Reachable s) {as : List α} (h : M.run s as = some t) :
    M.Reachable t := by
  induction as generalizing s with
  | nil =>
    obtain rfl := Option.some_inj.1 h
    exact hs
  | cons a as ih =>
    obtain ⟨u, hu, ht⟩ := Option.bind_eq_some_iff.1 h
    exact ih (hs.step trivial hu) ht

/-- A run whose events meet `C` leads to a state that such events reach. -/
theorem ReachableBy.run [∀ s a, Decidable (C s a)] {s t : σ} (hs : M.ReachableBy C s)
    {as : List α} (hC : M.meets C s as = true) (h : M.run s as = some t) : M.ReachableBy C t := by
  induction as generalizing s with
  | nil =>
    obtain rfl := Option.some_inj.1 h
    exact hs
  | cons a as ih =>
    obtain ⟨u, hu, ht⟩ := Option.bind_eq_some_iff.1 h
    simp only [meets, Bool.and_eq_true, decide_eq_true_eq, hu, Option.all_some] at hC
    exact ih (hs.step hC.1 hu) hC.2 ht

/-- A reflexive and transitive relation that every step respects, from states that meet an
invariant, holds between the ends of a run. -/
theorem run_rel {I : σ → Prop} {R : σ → σ → Prop} (hrefl : ∀ s, R s s)
    (htrans : ∀ s t u, R s t → R t u → R s u)
    (hstep : ∀ s a t, I s → M.next s a = some t → I t ∧ R s t) {s t : σ} (hs : I s) {as : List α}
    (h : M.run s as = some t) : I t ∧ R s t := by
  induction as generalizing s with
  | nil =>
    obtain rfl := Option.some_inj.1 h
    exact ⟨hs, hrefl s⟩
  | cons a as ih =>
    obtain ⟨u, hu, ht⟩ := Option.bind_eq_some_iff.1 h
    obtain ⟨hIu, hsu⟩ := hstep s a u hs hu
    exact ⟨(ih hIu ht).1, htrans s u t hsu (ih hIu ht).2⟩

end System

end Thinker
