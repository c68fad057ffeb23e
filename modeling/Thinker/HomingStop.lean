import Thinker.Numerals
import Thinker.Trsync

/-!
# The stop of a homing move

A trigger takes effect at most once after the start of its trsync, and in that step every stepper
that is attached is stopped once, and no stepper in any other step (`HomingMcu.Effect`). What is
stopped stays so until its step clock is reset (`HomingMcu.Good`).
-/

set_option linter.unusedSectionVars false

namespace Thinker

variable {T S E : Type*} [DecidableEq T] [DecidableEq S] [DecidableEq E]
variable {board : StepperBoard} {s t u : HomingMcu T S E} {τ : T} {σ : S} {ε : E}
  {reason : BitVec 8}

namespace HomingMcu


/-! ## The signals of a trigger -/

/-- A stepper with what is kept beside it. -/
def stepperAt (s : HomingMcu T S E) (σ : S) : Stepper × List T × Option (ℕ × BitVec 32) :=
  (s.steppers σ, s.stops σ, s.stoppedAt σ)

/-- A stepper that a trigger has stopped. -/
def stoppedBy (board : StepperBoard) (τ : T) (x : Stepper × List T × Option (ℕ × BitVec 32)) :
    Stepper × List T × Option (ℕ × BitVec 32) :=
  (Stepper.stop board { x.1 with stopSignal := false }, x.2.1 ++ [τ],
    some (x.1.edges, x.1.getPosition board))

theorem stepperAt_signal (s : HomingMcu T S E) (τ : T) (σ σ' : S) :
    (s.signal board τ σ).stepperAt σ' =
      if σ' = σ then stoppedBy board τ (s.stepperAt σ') else s.stepperAt σ' := by
  unfold stepperAt signal setStepper
  dsimp only
  by_cases h : σ' = σ
  · subst h
    rw [if_pos rfl, Function.update_self, Function.update_self, Function.update_self]
    rfl
  · rw [if_neg h, Function.update_of_ne h, Function.update_of_ne h, Function.update_of_ne h]

/-- Every stepper of the list is stopped, once. -/
theorem stepperAt_dispatchSignals (board : StepperBoard) {l : List S} (hl : l.Nodup)
    (s : HomingMcu T S E) (τ : T) (σ : S) : (s.dispatchSignals board τ l).stepperAt σ =
      if σ ∈ l then stoppedBy board τ (s.stepperAt σ) else s.stepperAt σ := by
  unfold dispatchSignals
  induction l generalizing s with
  | nil =>
    rw [if_neg List.not_mem_nil]
    rfl
  | cons σ' l ih =>
    obtain ⟨hnotin, hl⟩ := List.nodup_cons.1 hl
    rw [List.foldl_cons, ih hl, stepperAt_signal]
    by_cases h : σ = σ'
    · subst h
      rw [if_neg hnotin, if_pos rfl, if_pos List.mem_cons_self]
    · rw [if_neg h]
      simp only [List.mem_cons, h, false_or]

/-- Only steppers change. -/
theorem dispatchSignals_frame (board : StepperBoard) (s : HomingMcu T S E) (τ : T) (l : List S) :
    ∃ steppers stops stoppedAt, s.dispatchSignals board τ l =
      { s with steppers := steppers, stops := stops, stoppedAt := stoppedAt } := by
  unfold dispatchSignals
  induction l generalizing s with
  | nil => exact ⟨_, _, _, rfl⟩
  | cons σ l ih =>
    obtain ⟨steppers, stops, stoppedAt, heq⟩ := ih (s.signal board τ σ)
    exact ⟨steppers, stops, stoppedAt, heq⟩

theorem trsyncDoTrigger_of_not (h : (s.trsyncs τ).canTrigger = false) :
    s.trsyncDoTrigger board τ reason = s := by
  unfold trsyncDoTrigger
  dsimp only
  rw [h, Bool.not_false, if_pos rfl]

/-- The trsync after its trigger. -/
def triggered (s : HomingMcu T S E) (τ : T) (reason : BitVec 8) : Trsync S :=
  { s.trsyncs τ with
    triggerReason := reason
    canTrigger := false
    report := true
    signals := []
    triggers := (s.trsyncs τ).triggers ++ [(reason, s.now)] }

/-- A trigger that takes effect. -/
theorem trsyncDoTrigger_of (board : StepperBoard) (reason : BitVec 8)
    (h : (s.trsyncs τ).canTrigger = true) (hnodup : (s.trsyncs τ).signals.Nodup) :
    ∃ steppers stops stoppedAt, s.trsyncDoTrigger board τ reason =
      { s with
        trsyncs := Function.update s.trsyncs τ (s.triggered τ reason)
        wake := true
        steppers := steppers
        stops := stops
        stoppedAt := stoppedAt } ∧
      ∀ σ, (steppers σ, stops σ, stoppedAt σ) =
        if σ ∈ (s.trsyncs τ).signals then stoppedBy board τ (s.stepperAt σ) else s.stepperAt σ := by
  unfold trsyncDoTrigger
  dsimp only
  rw [h, Bool.not_true, if_neg Bool.false_ne_true]
  obtain ⟨steppers, stops, stoppedAt, heq⟩ :=
    dispatchSignals_frame board (s.setTrsync τ (s.triggered τ reason)) τ
      (s.trsyncs τ).signals
  refine ⟨steppers, stops, stoppedAt, ?_, fun σ => ?_⟩
  · have heq' := congrArg (fun u : HomingMcu T S E => { u with wake := true }) heq
    exact heq'
  · have hat := stepperAt_dispatchSignals board hnodup
      (s.setTrsync τ (s.triggered τ reason)) τ σ
    rw [heq] at hat
    exact hat

/-! ## What holds in every state -/

end HomingMcu

/-- A trsync triggers once, for the reason that it keeps. Before that the steppers that are
attached to it wait for its signal. -/
structure Trsync.Good {S : Type*} (ts : Trsync S) (up : Prop) : Prop where
  nodup : ts.signals.Nodup
  fresh : ts.canTrigger = true → ts.triggers = []
  attached : ts.canTrigger = true → ∀ σ, σ ∈ ts.attached ↔ σ ∈ ts.signals
  once : ts.triggers.length ≤ 1
  reason : up → ∀ p ∈ ts.triggers, ts.triggerReason = p.1

namespace HomingMcu

/-- A stepper has stayed as the last trigger has stopped it. -/
def Halted (board : StepperBoard) (x : Stepper) (stop : Option (ℕ × BitVec 32)) : Prop :=
  ∀ p ∈ stop, x.Stopped ∧ x.edges = p.1 ∧ x.getPosition board = p.2

theorem Halted.setStopSignal {x : Stepper} {stop : Option (ℕ × BitVec 32)}
    (h : Halted board x stop) (b : Bool) : Halted board { x with stopSignal := b } stop := by
  intro p hp
  obtain ⟨hstopped, hedges, hposition⟩ := h p hp
  exact ⟨⟨hstopped.active, hstopped.count, hstopped.mq, hstopped.needReset⟩, hedges, hposition⟩

/-- What holds in every state. A stepper is attached to one trsync at a time. -/
structure Good (board : StepperBoard) (s : HomingMcu T S E) : Prop where
  trsync : ∀ τ, Trsync.Good (s.trsyncs τ) (s.isShutdown = false)
  signal : ∀ τ, ∀ σ ∈ (s.trsyncs τ).signals, (s.steppers σ).stopSignal = true
  disjoint : ∀ τ τ' σ, σ ∈ (s.trsyncs τ).signals → σ ∈ (s.trsyncs τ').signals → τ = τ'
  halted : ∀ σ, Halted board (s.steppers σ) (s.stoppedAt σ)
  endstop : ∀ ε, (s.endstops ε).Counts
  taskTime : ∀ time ∈ s.taskTime, time ≤ s.now

namespace Good

theorem setEndstop (h : s.Good board) (ε : E) {e : Endstop T} (he : e.Counts) :
    (s.setEndstop ε e).Good board := by
  refine ⟨h.trsync, h.signal, h.disjoint, h.halted, fun ε' => ?_, h.taskTime⟩
  show (Function.update s.endstops ε e ε').Counts
  by_cases hε : ε' = ε
  · rw [hε, Function.update_self]
    exact he
  · rw [Function.update_of_ne hε]
    exact h.endstop ε'

theorem setStepper (h : s.Good board) {x : Stepper}
    (hsignal : x.stopSignal = (s.steppers σ).stopSignal) (hx : Halted board x (s.stoppedAt σ)) :
    (s.setStepper σ x).Good board := by
  refine ⟨h.trsync, fun τ σ' hσ' => ?_, h.disjoint, fun σ' => ?_, h.endstop, h.taskTime⟩
  · show (Function.update s.steppers σ x σ').stopSignal = true
    by_cases hσ : σ' = σ
    · rw [hσ, Function.update_self, hsignal]
      exact h.signal τ σ (hσ ▸ hσ')
    · rw [Function.update_of_ne hσ]
      exact h.signal τ σ' hσ'
  · show Halted board (Function.update s.steppers σ x σ') _
    by_cases hσ : σ' = σ
    · rw [hσ, Function.update_self]
      exact hx
    · rw [Function.update_of_ne hσ]
      exact h.halted σ'

/-- A change that leaves the signals as they are. -/
theorem setTrsync (h : s.Good board) (τ : T) (ts : Trsync S)
    (hts : Trsync.Good ts (s.isShutdown = false))
    (hsignals : ts.signals = (s.trsyncs τ).signals) : (s.setTrsync τ ts).Good board := by
  have hall : ∀ τ', ((s.setTrsync τ ts).trsyncs τ').signals = (s.trsyncs τ').signals := by
    intro τ'
    show (Function.update s.trsyncs τ ts τ').signals = _
    by_cases hτ : τ' = τ
    · rw [hτ, Function.update_self, hsignals]
    · rw [Function.update_of_ne hτ]
  refine ⟨fun τ' => ?_, fun τ' σ hσ => ?_, fun τ₁ τ₂ σ h₁ h₂ => ?_, h.halted, h.endstop,
    h.taskTime⟩
  · show Trsync.Good (Function.update s.trsyncs τ ts τ') _
    by_cases hτ : τ' = τ
    · rw [hτ, Function.update_self]
      exact hts
    · rw [Function.update_of_ne hτ]
      exact h.trsync τ'
  · rw [hall] at hσ
    exact h.signal τ' σ hσ
  · rw [hall] at h₁ h₂
    exact h.disjoint τ₁ τ₂ σ h₁ h₂

theorem trsyncDoTrigger (h : s.Good board) (τ : T) (reason : BitVec 8) :
    (s.trsyncDoTrigger board τ reason).Good board := by
  cases hcan : (s.trsyncs τ).canTrigger with
  | false =>
    rw [trsyncDoTrigger_of_not hcan]
    exact h
  | true =>
    have hτ := h.trsync τ
    obtain ⟨steppers, stops, stoppedAt, heq, hat⟩ :=
      trsyncDoTrigger_of board reason hcan hτ.nodup
    have htriggered : ((s.triggered τ reason).triggers) = [(reason, s.now)] := by
      show (s.trsyncs τ).triggers ++ _ = _
      rw [hτ.fresh hcan, List.nil_append]
    have hsignals : ∀ τ' σ, σ ∈ (Function.update s.trsyncs τ (s.triggered τ reason) τ').signals →
        τ' ≠ τ ∧ σ ∈ (s.trsyncs τ').signals := by
      intro τ' σ hσ
      by_cases hne : τ' = τ
      · rw [hne, Function.update_self] at hσ
        exact absurd hσ List.not_mem_nil
      · rw [Function.update_of_ne hne] at hσ
        exact ⟨hne, hσ⟩
    rw [heq]
    refine ⟨fun τ' => ?_, fun τ' σ hσ => ?_, fun τ₁ τ₂ σ h₁ h₂ => ?_, fun σ => ?_, h.endstop,
      h.taskTime⟩
    · show Trsync.Good (Function.update s.trsyncs τ (s.triggered τ reason) τ') _
      by_cases hne : τ' = τ
      · rw [hne, Function.update_self]
        refine ⟨List.nodup_nil, fun hf => (by cases hf), fun hf => (by cases hf), ?_,
          fun _ p hp => ?_⟩
        · rw [htriggered]
          exact le_rfl
        · rw [htriggered] at hp
          rw [List.mem_singleton.1 hp]
          rfl
      · rw [Function.update_of_ne hne]
        exact h.trsync τ'
    · obtain ⟨hne, hσ⟩ := hsignals τ' σ hσ
      have hnot : σ ∉ (s.trsyncs τ).signals := fun hτσ => hne (h.disjoint τ' τ σ hσ hτσ)
      have hσat := hat σ
      rw [if_neg hnot] at hσat
      show (steppers σ).stopSignal = true
      rw [(Prod.mk.inj hσat).1]
      exact h.signal τ' σ hσ
    · exact h.disjoint τ₁ τ₂ σ (hsignals τ₁ σ h₁).2 (hsignals τ₂ σ h₂).2
    · have hσat := hat σ
      show Halted board (steppers σ) (stoppedAt σ)
      by_cases hσ : σ ∈ (s.trsyncs τ).signals
      · rw [if_pos hσ] at hσat
        obtain ⟨hstepper, hrest⟩ := Prod.mk.inj hσat
        rw [hstepper, (Prod.mk.inj hrest).2]
        intro p hp
        rw [← Option.some_inj.1 hp]
        exact ⟨Stepper.stopped_stop, rfl, Stepper.getPosition_stop⟩
      · rw [if_neg hσ] at hσat
        obtain ⟨hstepper, hrest⟩ := Prod.mk.inj hσat
        rw [hstepper, (Prod.mk.inj hrest).2]
        exact h.halted σ

theorem shutdown (h : s.Good board) : (s.shutdown board).Good board := by
  refine ⟨fun τ => ?_, fun τ σ hσ => absurd hσ List.not_mem_nil,
    fun τ τ' σ hσ => absurd hσ List.not_mem_nil, fun σ p hp => ?_,
    fun ε => (h.endstop ε).inactive, fun time htime => (by cases htime)⟩
  · exact ⟨List.nodup_nil, fun hf => (by cases hf), fun hf => (by cases hf), (h.trsync τ).once,
      fun hf => (by cases hf)⟩
  · obtain ⟨-, hedges, hposition⟩ := h.halted σ p hp
    exact ⟨Stepper.stopped_stop, hedges, Stepper.getPosition_stop.trans hposition⟩

/-- The result of a stepper's command or event, if it keeps a stopped stepper as it is. -/
theorem ofStepper (h : s.Good board) (σ : S) (r : Option Stepper)
    (hsignal : ∀ x ∈ r, x.stopSignal = (s.steppers σ).stopSignal)
    (hr : ∀ x ∈ r, Halted board x (s.stoppedAt σ)) : (s.ofStepper board σ r).Good board := by
  cases r with
  | none => exact h.shutdown
  | some x => exact h.setStepper (hsignal x rfl) (hr x rfl)

theorem stepperAt_clearSignals (l : List S) (s : HomingMcu T S E) :
    ∃ steppers, s.clearSignals l = { s with steppers := steppers } ∧
      ∀ σ, steppers σ =
        if σ ∈ l then { s.steppers σ with stopSignal := false } else s.steppers σ := by
  unfold clearSignals
  induction l generalizing s with
  | nil => exact ⟨s.steppers, rfl, fun σ => (if_neg List.not_mem_nil).symm⟩
  | cons σ' l ih =>
    obtain ⟨steppers, heq, hat⟩ :=
      ih (s.setStepper σ' { s.steppers σ' with stopSignal := false })
    refine ⟨steppers, heq, fun σ => ?_⟩
    rw [hat σ]
    show (if σ ∈ l then { Function.update s.steppers σ' _ σ with stopSignal := false }
      else Function.update s.steppers σ' _ σ) = _
    by_cases hσ : σ = σ'
    · rw [hσ, Function.update_self, if_pos List.mem_cons_self, ite_self]
    · rw [Function.update_of_ne hσ]
      simp only [List.mem_cons, hσ, false_or]

/-- The old signals are removed, and their steppers may be attached again. -/
theorem commandTrsyncStart (h : s.Good board) (reportClock reportTicks : BitVec 32)
    (expireReason : BitVec 8) :
    (s.commandTrsyncStart τ reportClock reportTicks expireReason).Good board := by
  obtain ⟨steppers, heq, hat⟩ := stepperAt_clearSignals (s.trsyncs τ).signals s
  unfold HomingMcu.commandTrsyncStart
  rw [heq]
  have hsignals : ∀ (ts : Trsync S) (τ' : T) (σ : S), ts.signals = [] →
      σ ∈ (Function.update s.trsyncs τ ts τ').signals →
        τ' ≠ τ ∧ σ ∈ (s.trsyncs τ').signals := by
    intro ts τ' σ hnil hσ
    by_cases hne : τ' = τ
    · rw [hne, Function.update_self, hnil] at hσ
      exact absurd hσ List.not_mem_nil
    · rw [Function.update_of_ne hne] at hσ
      exact ⟨hne, hσ⟩
  refine ⟨fun τ' => ?_, fun τ' σ hσ => ?_, fun τ₁ τ₂ σ h₁ h₂ => ?_, fun σ => ?_, h.endstop,
    h.taskTime⟩
  · show Trsync.Good (Function.update s.trsyncs τ _ τ') _
    by_cases hne : τ' = τ
    · rw [hne, Function.update_self]
      exact ⟨List.nodup_nil, fun _ => rfl, fun _ σ => Iff.rfl, Nat.zero_le 1,
        fun _ p hp => absurd hp List.not_mem_nil⟩
    · rw [Function.update_of_ne hne]
      exact h.trsync τ'
  · obtain ⟨hne, hσ⟩ := hsignals _ τ' σ rfl hσ
    have hnot : σ ∉ (s.trsyncs τ).signals := fun hτσ => hne (h.disjoint τ' τ σ hσ hτσ)
    show (steppers σ).stopSignal = true
    rw [hat σ, if_neg hnot]
    exact h.signal τ' σ hσ
  · exact h.disjoint τ₁ τ₂ σ (hsignals _ τ₁ σ rfl h₁).2 (hsignals _ τ₂ σ rfl h₂).2
  · show Halted board (steppers σ) (s.stoppedAt σ)
    rw [hat σ]
    split_ifs
    · exact (h.halted σ).setStopSignal false
    · exact h.halted σ

theorem commandStepperStopOnTrigger (h : s.Good board) (σ : S) (τ : T) :
    (s.commandStepperStopOnTrigger board σ τ).Good board := by
  unfold HomingMcu.commandStepperStopOnTrigger
  dsimp only
  by_cases hsignal : (s.steppers σ).stopSignal = true
  · rw [if_pos hsignal]
    exact h.shutdown
  rw [if_neg hsignal]
  -- the stepper waits for no signal yet
  have hfree : ∀ τ', σ ∉ (s.trsyncs τ').signals := fun τ' hσ => hsignal (h.signal τ' σ hσ)
  have hmem : ∀ (ts : Trsync S) (τ' : T) (σ' : S), ts.signals = σ :: (s.trsyncs τ).signals →
      σ' ∈ (Function.update s.trsyncs τ ts τ').signals →
        (σ' = σ ∧ τ' = τ) ∨ σ' ∈ (s.trsyncs τ').signals := by
    intro ts τ' σ' hcons hσ'
    by_cases hne : τ' = τ
    · rw [hne, Function.update_self, hcons] at hσ'
      rcases List.mem_cons.1 hσ' with rfl | hσ'
      · exact Or.inl ⟨rfl, hne⟩
      · exact Or.inr (hne ▸ hσ')
    · rw [Function.update_of_ne hne] at hσ'
      exact Or.inr hσ'
  have hτ := h.trsync τ
  refine ⟨fun τ' => ?_, fun τ' σ' hσ' => ?_, fun τ₁ τ₂ σ' h₁ h₂ => ?_, fun σ' => ?_, h.endstop,
    h.taskTime⟩
  · show Trsync.Good (Function.update s.trsyncs τ _ τ') _
    by_cases hne : τ' = τ
    · rw [hne, Function.update_self]
      refine ⟨List.nodup_cons.2 ⟨hfree τ, hτ.nodup⟩, hτ.fresh, fun hcan σ' => ?_, hτ.once,
        hτ.reason⟩
      rw [List.mem_append, List.mem_singleton, List.mem_cons, hτ.attached hcan σ', or_comm]
    · rw [Function.update_of_ne hne]
      exact h.trsync τ'
  · show (Function.update s.steppers σ _ σ').stopSignal = true
    by_cases hσ : σ' = σ
    · rw [hσ, Function.update_self]
    · rw [Function.update_of_ne hσ]
      rcases hmem _ τ' σ' rfl hσ' with ⟨heq, -⟩ | hσ'
      · exact absurd heq hσ
      · exact h.signal τ' σ' hσ'
  · rcases hmem _ τ₁ σ' rfl h₁ with ⟨heq, h₁⟩ | h₁
    · rcases hmem _ τ₂ σ' rfl h₂ with ⟨-, h₂⟩ | h₂
      · rw [h₁, h₂]
      · exact absurd (heq ▸ h₂) (hfree τ₂)
    · rcases hmem _ τ₂ σ' rfl h₂ with ⟨heq, h₂⟩ | h₂
      · exact absurd (heq ▸ h₁) (hfree τ₁)
      · exact h.disjoint τ₁ τ₂ σ' h₁ h₂
  · show Halted board (Function.update s.steppers σ _ σ') (s.stoppedAt σ')
    by_cases hσ : σ' = σ
    · rw [hσ, Function.update_self]
      exact (h.halted σ).setStopSignal true
    · rw [Function.update_of_ne hσ]
      exact h.halted σ'

theorem commandTrsyncTrigger (h : s.Good board) (τ : T) (reason : BitVec 8) :
    (s.commandTrsyncTrigger board τ reason).Good board := by
  have htrigger := h.trsyncDoTrigger τ reason
  have hτ := htrigger.trsync τ
  have hset := htrigger.setTrsync τ ({ (s.trsyncDoTrigger board τ reason).trsyncs τ with
    reportActive := false
    expireActive := false
    canTrigger := false
    report := false })
    ⟨hτ.nodup, fun hf => (by cases hf), fun hf => (by cases hf), hτ.once, hτ.reason⟩ rfl
  exact ⟨hset.trsync, hset.signal, hset.disjoint, hset.halted, hset.endstop, hset.taskTime⟩

theorem commandResetStepClock (h : s.Good board) (σ : S) (clock : BitVec 32) :
    (s.commandResetStepClock board σ clock).Good board := by
  -- nothing is kept of the stop any more
  have hfree : Good board { s with stoppedAt := Function.update s.stoppedAt σ none } := by
    refine ⟨h.trsync, h.signal, h.disjoint, fun σ' => ?_, h.endstop, h.taskTime⟩
    show Halted board (s.steppers σ') (Function.update s.stoppedAt σ none σ')
    by_cases hσ : σ' = σ
    · rw [hσ, Function.update_self]
      exact fun p hp => (by cases hp)
    · rw [Function.update_of_ne hσ]
      exact h.halted σ'
  have hgood := hfree.ofStepper σ ((s.steppers σ).resetStepClock clock)
    (fun x hx => ?_) (fun x _ p hp => ?_)
  · unfold HomingMcu.commandResetStepClock
    cases hr : (s.steppers σ).resetStepClock clock with
    | none =>
      rw [hr] at hgood
      exact hgood
    | some x =>
      rw [hr] at hgood
      exact hgood
  · obtain ⟨-, hx⟩ := Option.ite_none_left_eq_some.1 hx
    rw [← Option.some_inj.1 hx]
  · change p ∈ Function.update s.stoppedAt σ none σ at hp
    rw [Function.update_self] at hp
    cases hp

theorem command (h : s.Good board) (c : HomingCommand T S E) : (s.command board c).Good board := by
  cases c with
  | trsyncStart τ reportClock reportTicks expireReason =>
    exact h.commandTrsyncStart reportClock reportTicks expireReason
  | trsyncSetTimeout τ clock =>
    show (s.commandTrsyncSetTimeout τ clock).Good board
    unfold commandTrsyncSetTimeout
    dsimp only
    split_ifs
    · have hτ := h.trsync τ
      exact h.setTrsync _ _ ⟨hτ.nodup, hτ.fresh, hτ.attached, hτ.once, hτ.reason⟩ rfl
    · exact h
  | trsyncTrigger τ reason => exact h.commandTrsyncTrigger τ reason
  | stepperStopOnTrigger σ τ => exact h.commandStepperStopOnTrigger σ τ
  | endstopHome ε clock sampleTicks sampleCount restTicks pinValue τ triggerReason =>
    exact h.setEndstop ε (Endstop.counts_home _ _ _ _ _ _ _ _)
  | queueStep σ interval count add =>
    refine h.ofStepper σ _ (fun x hx => Stepper.stopSignal_queueStep hx) fun x hx p hp => ?_
    obtain ⟨hstopped, hedges, hposition⟩ := h.halted σ p hp
    rw [hstopped.queueStep hx]
    exact ⟨hstopped, hedges, hposition⟩
  | setNextStepDir σ dir =>
    refine h.setStepper rfl fun p hp => ?_
    obtain ⟨hstopped, hedges, hposition⟩ := h.halted σ p hp
    exact ⟨⟨hstopped.active, hstopped.count, hstopped.mq, hstopped.needReset⟩, hedges, hposition⟩
  | resetStepClock σ clock => exact h.commandResetStepClock σ clock

theorem next (h : s.Good board) {oids : List T} {a : HomingEvent T S E}
    (ht : (homingMcu board oids).next s a = some t) : t.Good board := by
  have htick : Good board { s with now := s.now + 1 } :=
    ⟨h.trsync, h.signal, h.disjoint, h.halted, h.endstop,
      fun time htime => (h.taskTime time htime).trans (Nat.le_succ _)⟩
  unfold homingMcu at ht
  dsimp only at ht
  by_cases hup : s.isShutdown = true
  · rw [if_pos hup] at ht
    cases a <;> cases ht
    exact htick
  rw [if_neg hup] at ht
  cases a with
  | tick =>
    cases ht
    exact htick
  | command c =>
    obtain ⟨-, ht⟩ := Option.ite_none_right_eq_some.1 ht
    cases ht
    exact h.command c
  | expire τ =>
    obtain ⟨-, ht⟩ := Option.ite_none_right_eq_some.1 ht
    cases ht
    have hτ := h.trsync τ
    have hset := h.setTrsync τ ({ s.trsyncs τ with expireActive := false })
      ⟨hτ.nodup, hτ.fresh, hτ.attached, hτ.once, hτ.reason⟩ rfl
    exact hset.trsyncDoTrigger τ _
  | report τ =>
    obtain ⟨-, ht⟩ := Option.ite_none_right_eq_some.1 ht
    cases ht
    have hτ := h.trsync τ
    have hset := h.setTrsync τ ({ s.trsyncs τ with
      report := true
      reportWaketime := (s.trsyncs τ).reportWaketime + (s.trsyncs τ).reportTicks })
      ⟨hτ.nodup, hτ.fresh, hτ.attached, hτ.once, hτ.reason⟩ rfl
    exact ⟨hset.trsync, hset.signal, hset.disjoint, hset.halted, hset.endstop, hset.taskTime⟩
  | endstop ε val val' =>
    obtain ⟨hactive, ht⟩ := Option.ite_none_right_eq_some.1 ht
    cases ht
    have hset := h.setEndstop ε ((h.endstop ε).event hactive val val')
    unfold HomingMcu.endstopEvent
    dsimp only
    split_ifs
    · exact hset
    · cases ((s.endstops ε).event val val').ts with
      | none => exact hset
      | some τ => exact hset.trsyncDoTrigger τ _
  | step σ =>
    obtain ⟨hactive, ht⟩ := Option.ite_none_right_eq_some.1 ht
    cases ht
    refine h.ofStepper σ _ (fun x hx => Stepper.stopSignal_event hx) fun x hx p hp => ?_
    exact absurd ((h.halted σ p hp).1.active.symm.trans hactive) (by decide)
  | taskStart =>
    obtain ⟨-, ht⟩ := Option.ite_none_right_eq_some.1 ht
    cases ht
    exact ⟨h.trsync, h.signal, h.disjoint, h.halted, h.endstop, h.taskTime⟩
  | taskNext =>
    dsimp only at ht
    split at ht
    · cases ht
      unfold HomingMcu.taskNext
      split_ifs
      · refine ⟨h.trsync, h.signal, h.disjoint, h.halted, h.endstop, fun time htime => ?_⟩
        rw [← Option.some_inj.1 htime]
      · exact ⟨h.trsync, h.signal, h.disjoint, h.halted, h.endstop, h.taskTime⟩
    · cases ht
  | taskReport =>
    dsimp only at ht
    split at ht
    · rename_i τ rest time htask htime
      cases ht
      have hτ := h.trsync τ
      have hset := h.setTrsync τ ({ s.trsyncs τ with report := false })
        ⟨hτ.nodup, hτ.fresh, hτ.attached, hτ.once, hτ.reason⟩ rfl
      exact ⟨hset.trsync, hset.signal, hset.disjoint, hset.halted, hset.endstop,
        fun time htime => (by cases htime)⟩
    · cases ht
  | shutdown =>
    cases ht
    exact h.shutdown

end Good

theorem good_of_reachable {oids : List T} (h : (homingMcu board oids).Reachable s) :
    s.Good board := by
  refine h.invariant ?_ fun s a t hs _ ht => hs.next ht
  rintro s ⟨now, invertStep, stepPulseTicks, rfl⟩
  refine ⟨fun τ => ?_, fun τ σ hσ => absurd hσ List.not_mem_nil,
    fun τ τ' σ hσ => absurd hσ List.not_mem_nil, fun σ p hp => (by cases hp),
    fun ε => Endstop.counts_config, fun time htime => (by cases htime)⟩
  exact ⟨List.nodup_nil, fun hf => (by cases hf), fun hf => (by cases hf), Nat.zero_le 1,
    fun _ p hp => absurd hp List.not_mem_nil⟩

/-! ## What a step does -/

/-- A trigger takes effect in a step. -/
def TakesEffect (s t : HomingMcu T S E) (τ : T) (reason : BitVec 8) : Prop :=
  (s.trsyncs τ).canTrigger = true ∧ (t.trsyncs τ).triggers = [(reason, s.now)]

/-- A trigger stops a stepper in a step, where it is. -/
structure Halts (board : StepperBoard) (s t : HomingMcu T S E) (σ : S) (τ : T) : Prop where
  stops : t.stops σ = s.stops σ ++ [τ]
  stopped : (t.steppers σ).Stopped
  edges : (t.steppers σ).edges = (s.steppers σ).edges
  position : (t.steppers σ).getPosition board = (s.steppers σ).getPosition board
  stoppedAt : t.stoppedAt σ = some ((t.steppers σ).edges, (t.steppers σ).getPosition board)

/-- In a step the triggers that take effect stop the steppers that are attached to them, and no
other stepper is stopped. -/
structure Effect (board : StepperBoard) (s t : HomingMcu T S E) : Prop where
  halts : ∀ τ reason, TakesEffect s t τ reason →
    ∀ σ ∈ (s.trsyncs τ).attached, Halts board s t σ τ
  only : ∀ σ, t.stops σ ≠ s.stops σ →
    ∃ τ reason, TakesEffect s t τ reason ∧ σ ∈ (s.trsyncs τ).attached

/-- Only what concerns triggers and steppers matters. -/
theorem Effect.congr {v : HomingMcu T S E} (h : Effect board u v) (hnow : u.now = s.now)
    (hs : ∀ τ, (u.trsyncs τ).canTrigger = (s.trsyncs τ).canTrigger ∧
      (u.trsyncs τ).attached = (s.trsyncs τ).attached)
    (hsat : ∀ σ, u.stepperAt σ = s.stepperAt σ)
    (ht : ∀ τ, (v.trsyncs τ).triggers = (t.trsyncs τ).triggers)
    (htat : ∀ σ, v.stepperAt σ = t.stepperAt σ) : Effect board s t := by
  have htakes : ∀ τ reason, TakesEffect u v τ reason ↔ TakesEffect s t τ reason := by
    intro τ reason
    unfold TakesEffect
    rw [hnow, (hs τ).1, ht τ]
  refine ⟨fun τ reason heffect σ hσ => ?_, fun σ hne => ?_⟩
  · rw [← (hs τ).2] at hσ
    obtain ⟨hstops, hstopped, hedges, hposition, hat⟩ :=
      h.halts τ reason ((htakes τ reason).2 heffect) σ hσ
    obtain ⟨hs1, hs2⟩ := Prod.mk.inj (hsat σ)
    obtain ⟨ht1, ht2⟩ := Prod.mk.inj (htat σ)
    rw [(Prod.mk.inj hs2).1, (Prod.mk.inj ht2).1] at hstops
    rw [ht1] at hstopped
    rw [hs1, ht1] at hedges hposition
    rw [(Prod.mk.inj ht2).2, ht1] at hat
    exact ⟨hstops, hstopped, hedges, hposition, hat⟩
  · obtain ⟨-, hs2⟩ := Prod.mk.inj (hsat σ)
    obtain ⟨-, ht2⟩ := Prod.mk.inj (htat σ)
    rw [← (Prod.mk.inj hs2).1, ← (Prod.mk.inj ht2).1] at hne
    obtain ⟨τ, reason, heffect, hσ⟩ := h.only σ hne
    exact ⟨τ, reason, (htakes τ reason).1 heffect, (hs τ).2 ▸ hσ⟩

/-- A step in which nothing is triggered. -/
theorem Good.effect_of_quiet (h : s.Good board)
    (ht : ∀ τ, (t.trsyncs τ).triggers = (s.trsyncs τ).triggers ∨ (t.trsyncs τ).triggers = [])
    (hstops : t.stops = s.stops) : Effect board s t := by
  refine ⟨fun τ reason ⟨hcan, htriggers⟩ => ?_, fun σ hne => absurd (congrFun hstops σ) hne⟩
  rcases ht τ with heq | heq
  · rw [heq, (h.trsync τ).fresh hcan] at htriggers
    cases htriggers
  · rw [heq] at htriggers
    cases htriggers

theorem Good.effect_trsyncDoTrigger (h : s.Good board) (τ : T) (reason : BitVec 8) :
    Effect board s (s.trsyncDoTrigger board τ reason) := by
  cases hcan : (s.trsyncs τ).canTrigger with
  | false =>
    rw [trsyncDoTrigger_of_not hcan]
    exact h.effect_of_quiet (fun _ => Or.inl rfl) rfl
  | true =>
    have hτ := h.trsync τ
    obtain ⟨steppers, stops, stoppedAt, heq, hat⟩ :=
      trsyncDoTrigger_of board reason hcan hτ.nodup
    rw [heq]
    refine ⟨fun τ' reason' ⟨hcan', htriggers⟩ σ hσ => ?_, fun σ hne => ⟨τ, reason, ⟨hcan, ?_⟩, ?_⟩⟩
    · -- no other trsync is triggered
      have hττ : τ' = τ := by
        by_contra hne
        change (Function.update s.trsyncs τ (s.triggered τ reason) τ').triggers = _ at htriggers
        rw [Function.update_of_ne hne, (h.trsync τ').fresh hcan'] at htriggers
        cases htriggers
      rw [hττ] at hσ ⊢
      have hσat := hat σ
      rw [if_pos ((hτ.attached hcan σ).1 hσ)] at hσat
      obtain ⟨hstepper, hrest⟩ := Prod.mk.inj hσat
      obtain ⟨hstops, hstoppedAt⟩ := Prod.mk.inj hrest
      refine ⟨hstops, ?_, ?_, ?_, ?_⟩
      · show (steppers σ).Stopped
        rw [hstepper]
        exact Stepper.stopped_stop
      · show (steppers σ).edges = _
        rw [hstepper]
        rfl
      · show (steppers σ).getPosition board = _
        rw [hstepper]
        exact Stepper.getPosition_stop
      · show stoppedAt σ = some ((steppers σ).edges, (steppers σ).getPosition board)
        rw [hstoppedAt, hstepper]
        exact congrArg (fun p => some ((s.steppers σ).edges, p)) Stepper.getPosition_stop.symm
    · show (Function.update s.trsyncs τ (s.triggered τ reason) τ).triggers = _
      rw [Function.update_self]
      show (s.trsyncs τ).triggers ++ _ = _
      rw [hτ.fresh hcan, List.nil_append]
    · by_contra hσ
      have hσat := hat σ
      rw [if_neg (mt (hτ.attached hcan σ).2 hσ)] at hσat
      exact hne (Prod.mk.inj (Prod.mk.inj hσat).2).1

/-- What is kept of a stop stays until the step clock is reset. -/
def Keeps (s : HomingMcu T S E) (a : HomingEvent T S E) (t : HomingMcu T S E) : Prop :=
  ∀ σ, t.stoppedAt σ = s.stoppedAt σ ∨ t.stops σ ≠ s.stops σ ∨
    ∃ clock, a = .command (.resetStepClock σ clock)

/-- A report that a trsync can trigger is sent with a time up to which it has not triggered. -/
def Reports (s t : HomingMcu T S E) : Prop :=
  ∀ m, t.sent = s.sent ++ [m] → m.canTrigger = true →
    ∃ time ≤ s.now, m.clock = BitVec.ofNat 32 time ∧ (s.trsyncs m.oid).triggers = []

/-- An event of an endstop takes one sample, which matches when all reads of the pin do. It calls
the trigger when this ends the first `sample_count` matches in a row. -/
def Samples (s : HomingMcu T S E) (a : HomingEvent T S E) (t : HomingMcu T S E) : Prop :=
  ∀ ε val val', a = .endstop ε val val' →
    (∃ reads, reads ≠ [] ∧ (t.endstops ε).reads = (s.endstops ε).reads ++ reads ∧
      (t.endstops ε).samples = (s.endstops ε).samples ++ [reads.all id]) ∧
    ((t.endstops ε).fired = true ↔
      Endstop.FirstRun (t.endstops ε).sampleCount.toNat (t.endstops ε).samples) ∧
    ((t.endstops ε).fired = true → ∃ τ, (s.endstops ε).ts = some τ ∧
      ((s.trsyncs τ).canTrigger = true → TakesEffect s t τ (s.endstops ε).triggerReason))

/-- A step in which nothing is triggered, stopped or sent. -/
structure Quiet (s t : HomingMcu T S E) : Prop where
  triggers : ∀ τ, (t.trsyncs τ).triggers = (s.trsyncs τ).triggers ∨ (t.trsyncs τ).triggers = []
  stops : t.stops = s.stops
  stoppedAt : t.stoppedAt = s.stoppedAt
  sent : t.sent = s.sent

theorem quiet_setTrsync (s : HomingMcu T S E) (τ : T) (ts : Trsync S)
    (hts : ts.triggers = (s.trsyncs τ).triggers ∨ ts.triggers = []) :
    Quiet s (s.setTrsync τ ts) := by
  refine ⟨fun τ' => ?_, rfl, rfl, rfl⟩
  show (Function.update s.trsyncs τ ts τ').triggers = _ ∨
    (Function.update s.trsyncs τ ts τ').triggers = _
  by_cases hne : τ' = τ
  · rw [hne, Function.update_self]
    exact hts
  · rw [Function.update_of_ne hne]
    exact Or.inl rfl

theorem quiet_shutdown (board : StepperBoard) (s : HomingMcu T S E) :
    Quiet s (s.shutdown board) :=
  ⟨fun _ => Or.inl rfl, rfl, rfl, rfl⟩

theorem quiet_ofStepper (board : StepperBoard) (s : HomingMcu T S E) (σ : S)
    (r : Option Stepper) : Quiet s (s.ofStepper board σ r) := by
  cases r with
  | none => exact quiet_shutdown board s
  | some x => exact ⟨fun _ => Or.inl rfl, rfl, rfl, rfl⟩

theorem quiet_commandTrsyncStart (s : HomingMcu T S E) (τ : T)
    (reportClock reportTicks : BitVec 32) (expireReason : BitVec 8) :
    Quiet s (s.commandTrsyncStart τ reportClock reportTicks expireReason) := by
  obtain ⟨steppers, heq, -⟩ := Good.stepperAt_clearSignals (s.trsyncs τ).signals s
  unfold commandTrsyncStart
  rw [heq]
  obtain ⟨htriggers, -⟩ := quiet_setTrsync s τ ({ (s.trsyncs τ).clear with
    canTrigger := true
    reportWaketime := reportClock
    reportTicks := reportTicks
    reportActive := decide (reportTicks ≠ 0)
    expireReason := expireReason
    attached := []
    triggers := [] }) (Or.inr rfl)
  exact ⟨htriggers, rfl, rfl, rfl⟩

theorem quiet_commandStepperStopOnTrigger (board : StepperBoard) (s : HomingMcu T S E) (σ : S)
    (τ : T) : Quiet s (s.commandStepperStopOnTrigger board σ τ) := by
  unfold commandStepperStopOnTrigger
  dsimp only
  split_ifs
  · exact quiet_shutdown board s
  · obtain ⟨htriggers, -⟩ := quiet_setTrsync s τ ({ s.trsyncs τ with
      signals := σ :: (s.trsyncs τ).signals
      attached := (s.trsyncs τ).attached ++ [σ] }) (Or.inl rfl)
    exact ⟨htriggers, rfl, rfl, rfl⟩

theorem sent_trsyncDoTrigger (board : StepperBoard) (s : HomingMcu T S E) (τ : T)
    (reason : BitVec 8) : (s.trsyncDoTrigger board τ reason).sent = s.sent ∧
      (s.trsyncDoTrigger board τ reason).endstops = s.endstops ∧
      (s.trsyncDoTrigger board τ reason).isShutdown = s.isShutdown := by
  unfold trsyncDoTrigger
  dsimp only
  split_ifs
  · exact ⟨rfl, rfl, rfl⟩
  · obtain ⟨steppers, stops, stoppedAt, heq⟩ :=
      dispatchSignals_frame board (s.setTrsync τ (s.triggered τ reason)) τ (s.trsyncs τ).signals
    have hsent := congrArg HomingMcu.sent heq
    have hendstops := congrArg HomingMcu.endstops heq
    have hshutdown := congrArg HomingMcu.isShutdown heq
    exact ⟨hsent, hendstops, hshutdown⟩

theorem Good.keeps_trsyncDoTrigger (h : s.Good board) (τ : T) (reason : BitVec 8) (σ : S) :
    (s.trsyncDoTrigger board τ reason).stoppedAt σ = s.stoppedAt σ ∨
      (s.trsyncDoTrigger board τ reason).stops σ ≠ s.stops σ := by
  cases hcan : (s.trsyncs τ).canTrigger with
  | false =>
    rw [trsyncDoTrigger_of_not hcan]
    exact Or.inl rfl
  | true =>
    obtain ⟨steppers, stops, stoppedAt, heq, hat⟩ :=
      trsyncDoTrigger_of board reason hcan (h.trsync τ).nodup
    rw [heq]
    have hσat := hat σ
    by_cases hσ : σ ∈ (s.trsyncs τ).signals
    · rw [if_pos hσ] at hσat
      right
      show stops σ ≠ s.stops σ
      rw [(Prod.mk.inj (Prod.mk.inj hσat).2).1]
      exact fun hnil => absurd (List.append_right_eq_self.1 hnil) (List.cons_ne_nil _ _)
    · rw [if_neg hσ] at hσat
      exact Or.inl (Prod.mk.inj (Prod.mk.inj hσat).2).2

/-- What one step does. -/
structure StepSpec (board : StepperBoard) (s : HomingMcu T S E) (a : HomingEvent T S E)
    (t : HomingMcu T S E) : Prop where
  effect : Effect board s t
  keeps : Keeps s a t
  reports : Reports s t
  samples : Samples s a t

/-- Nothing is reported in a step that sends nothing. -/
theorem reports_of_sent (h : t.sent = s.sent) : Reports s t := by
  intro m hm
  rw [h] at hm
  exact absurd (List.self_eq_append_right.1 hm) (List.cons_ne_nil _ _)

theorem samples_of_ne {a : HomingEvent T S E} (h : ∀ ε val val', a ≠ .endstop ε val val') :
    Samples s a t :=
  fun ε val val' ha => absurd ha (h ε val val')

theorem Good.stepSpec_of_quiet (h : s.Good board) (hq : Quiet s t) {a : HomingEvent T S E}
    (ha : ∀ ε val val', a ≠ .endstop ε val val') : StepSpec board s a t :=
  ⟨h.effect_of_quiet hq.triggers hq.stops, fun σ => Or.inl (congrFun hq.stoppedAt σ),
    reports_of_sent hq.sent, samples_of_ne ha⟩

/-- The step of a command. -/
theorem Good.stepSpec_command (h : s.Good board) (c : HomingCommand T S E) :
    StepSpec board s (.command c) (s.command board c) := by
  have hne : ∀ (ε : E) (val val' : Bool), HomingEvent.command c ≠ .endstop ε val val' :=
    fun ε val val' heq => (by cases heq)
  cases c with
  | trsyncStart τ reportClock reportTicks expireReason =>
    exact h.stepSpec_of_quiet
      (quiet_commandTrsyncStart s τ reportClock reportTicks expireReason) hne
  | trsyncSetTimeout τ clock =>
    refine h.stepSpec_of_quiet ?_ hne
    show Quiet s (s.commandTrsyncSetTimeout τ clock)
    unfold commandTrsyncSetTimeout
    dsimp only
    split_ifs
    · exact quiet_setTrsync _ _ _ (Or.inl rfl)
    · exact ⟨fun _ => Or.inl rfl, rfl, rfl, rfl⟩
  | trsyncTrigger τ reason =>
    have htriggers : ∀ τ', ((s.trsyncDoTrigger board τ reason).trsyncs τ').triggers =
        ((s.commandTrsyncTrigger board τ reason).trsyncs τ').triggers := by
      intro τ'
      unfold HomingMcu.commandTrsyncTrigger
      show _ = (Function.update (s.trsyncDoTrigger board τ reason).trsyncs τ _ τ').triggers
      by_cases hτ : τ' = τ
      · rw [hτ, Function.update_self]
      · rw [Function.update_of_ne hτ]
    refine ⟨(h.effect_trsyncDoTrigger τ reason).congr rfl (fun _ => ⟨rfl, rfl⟩) (fun _ => rfl)
      htriggers (fun _ => rfl), fun σ => ?_, fun m hm hcan => ?_, samples_of_ne hne⟩
    · rcases h.keeps_trsyncDoTrigger τ reason σ with hkeeps | hstops
      · exact Or.inl hkeeps
      · exact Or.inr (Or.inl hstops)
    · -- the answer of the command says that nothing can be triggered
      have hsent : s.sent ++ [_] = s.sent ++ [m] :=
        (congrArg (· ++ _) (sent_trsyncDoTrigger board s τ reason).1).symm.trans hm
      rw [← List.singleton_inj.1 (List.append_cancel_left hsent)] at hcan
      cases hcan
  | stepperStopOnTrigger σ τ =>
    exact h.stepSpec_of_quiet (quiet_commandStepperStopOnTrigger board s σ τ) hne
  | endstopHome ε clock sampleTicks sampleCount restTicks pinValue τ triggerReason =>
    refine h.stepSpec_of_quiet ?_ hne
    exact ⟨fun _ => Or.inl rfl, rfl, rfl, rfl⟩
  | queueStep σ interval count add =>
    exact h.stepSpec_of_quiet (quiet_ofStepper board s σ _) hne
  | setNextStepDir σ dir =>
    refine h.stepSpec_of_quiet ?_ hne
    exact ⟨fun _ => Or.inl rfl, rfl, rfl, rfl⟩
  | resetStepClock σ clock =>
    have hq := quiet_ofStepper board s σ ((s.steppers σ).resetStepClock clock)
    refine ⟨h.effect_of_quiet hq.triggers hq.stops, fun σ' => ?_, reports_of_sent hq.sent,
      samples_of_ne hne⟩
    by_cases hσ : σ' = σ
    · exact Or.inr (Or.inr ⟨clock, by rw [hσ]⟩)
    · exact Or.inl (Function.update_of_ne hσ _ _)

/-- The step of an endstop. -/
theorem Good.stepSpec_endstop (h : s.Good board) {val val' : Bool}
    (hactive : (s.endstops ε).active = true) :
    StepSpec board s (.endstop ε val val') (s.endstopEvent board ε val val') := by
  have hε := h.endstop ε
  have hset := h.setEndstop ε (hε.event hactive val val')
  obtain ⟨hts, hreason⟩ := (s.endstops ε).setting_event val val'
  obtain ⟨τ, hτ⟩ := Option.isSome_iff_exists.1 (hε.ts hactive)
  have hself : (s.setEndstop ε ((s.endstops ε).event val val')).endstops ε =
      (s.endstops ε).event val val' := Function.update_self ..
  have hsamples : ∀ t : HomingMcu T S E, t.endstops ε = (s.endstops ε).event val val' →
      (((s.endstops ε).event val val').fired = true → (s.trsyncs τ).canTrigger = true →
        TakesEffect s t τ (s.endstops ε).triggerReason) →
      Samples s (.endstop ε val val') t := by
    intro t ht htakes ε' v v' heq
    obtain ⟨rfl, rfl, rfl⟩ := HomingEvent.endstop.inj heq
    rw [ht]
    exact ⟨(s.endstops ε).reads_event val val', hε.fired_iff hactive val val',
      fun hfired => ⟨τ, hτ, htakes hfired⟩⟩
  unfold HomingMcu.endstopEvent
  dsimp only
  rw [hts, hτ]
  cases hfired : ((s.endstops ε).event val val').fired with
  | false =>
    rw [Bool.not_false, if_pos rfl]
    refine ⟨h.effect_of_quiet (fun _ => Or.inl rfl) rfl, fun _ => Or.inl rfl,
      reports_of_sent rfl, hsamples _ hself fun hf => ?_⟩
    exact absurd (hfired.symm.trans hf) (by decide)
  | true =>
    rw [Bool.not_true, if_neg Bool.false_ne_true]
    dsimp only
    obtain ⟨hsent, hendstops, -⟩ :=
      sent_trsyncDoTrigger board (s.setEndstop ε ((s.endstops ε).event val val')) τ
        ((s.endstops ε).event val val').triggerReason
    refine ⟨(hset.effect_trsyncDoTrigger τ _).congr rfl (fun _ => ⟨rfl, rfl⟩) (fun _ => rfl)
      (fun _ => rfl) (fun _ => rfl), fun σ => ?_, reports_of_sent hsent,
      hsamples _ ((congrFun hendstops ε).trans hself) fun _ hcan => ⟨hcan, ?_⟩⟩
    · rcases hset.keeps_trsyncDoTrigger τ _ σ with hkeeps | hstops
      · exact Or.inl hkeeps
      · exact Or.inr (Or.inl hstops)
    · obtain ⟨steppers, stops, stoppedAt, heq, -⟩ :=
        trsyncDoTrigger_of board (s := s.setEndstop ε ((s.endstops ε).event val val'))
          ((s.endstops ε).event val val').triggerReason hcan (h.trsync τ).nodup
      rw [heq, hreason]
      show (Function.update s.trsyncs τ _ τ).triggers = _
      rw [Function.update_self]
      show (s.trsyncs τ).triggers ++ _ = _
      rw [(h.trsync τ).fresh hcan]
      rfl

theorem Good.stepSpec (h : s.Good board) {oids : List T} {a : HomingEvent T S E}
    (ht : (homingMcu board oids).next s a = some t) : StepSpec board s a t := by
  have hquiet : Quiet s t → (∀ ε val val', a ≠ .endstop ε val val') → StepSpec board s a t :=
    fun hq ha => h.stepSpec_of_quiet hq ha
  unfold homingMcu at ht
  dsimp only at ht
  by_cases hup : s.isShutdown = true
  · rw [if_pos hup] at ht
    cases a <;> cases ht
    exact hquiet ⟨fun _ => Or.inl rfl, rfl, rfl, rfl⟩ fun _ _ _ heq => (by cases heq)
  rw [if_neg hup] at ht
  cases a with
  | tick =>
    cases ht
    exact hquiet ⟨fun _ => Or.inl rfl, rfl, rfl, rfl⟩ fun _ _ _ heq => (by cases heq)
  | command c =>
    obtain ⟨-, ht⟩ := Option.ite_none_right_eq_some.1 ht
    cases ht
    exact h.stepSpec_command c
  | expire τ =>
    obtain ⟨-, ht⟩ := Option.ite_none_right_eq_some.1 ht
    cases ht
    have hτ := h.trsync τ
    have hset := h.setTrsync τ ({ s.trsyncs τ with expireActive := false })
      ⟨hτ.nodup, hτ.fresh, hτ.attached, hτ.once, hτ.reason⟩ rfl
    have hsame : ∀ τ', ((s.setTrsync τ { s.trsyncs τ with expireActive := false }).trsyncs
        τ').canTrigger = (s.trsyncs τ').canTrigger ∧
        ((s.setTrsync τ { s.trsyncs τ with expireActive := false }).trsyncs τ').attached =
          (s.trsyncs τ').attached := by
      intro τ'
      unfold HomingMcu.setTrsync
      dsimp only
      by_cases hne : τ' = τ
      · rw [hne, Function.update_self]
        exact ⟨rfl, rfl⟩
      · rw [Function.update_of_ne hne]
        exact ⟨rfl, rfl⟩
    refine ⟨(hset.effect_trsyncDoTrigger τ _).congr rfl hsame (fun _ => rfl)
      (fun _ => rfl) (fun _ => rfl), fun σ => ?_,
      reports_of_sent (sent_trsyncDoTrigger board _ τ _).1,
      samples_of_ne fun _ _ _ heq => (by cases heq)⟩
    rcases hset.keeps_trsyncDoTrigger τ _ σ with hkeeps | hstops
    · exact Or.inl hkeeps
    · exact Or.inr (Or.inl hstops)
  | report τ =>
    obtain ⟨-, ht⟩ := Option.ite_none_right_eq_some.1 ht
    cases ht
    obtain ⟨htriggers, -⟩ := quiet_setTrsync s τ ({ s.trsyncs τ with
      report := true
      reportWaketime := (s.trsyncs τ).reportWaketime + (s.trsyncs τ).reportTicks }) (Or.inl rfl)
    exact hquiet ⟨htriggers, rfl, rfl, rfl⟩ fun _ _ _ heq => (by cases heq)
  | endstop ε val val' =>
    obtain ⟨hactive, ht⟩ := Option.ite_none_right_eq_some.1 ht
    cases ht
    exact h.stepSpec_endstop hactive
  | step σ =>
    obtain ⟨-, ht⟩ := Option.ite_none_right_eq_some.1 ht
    cases ht
    exact hquiet (quiet_ofStepper board s σ _) fun _ _ _ heq => (by cases heq)
  | taskStart =>
    obtain ⟨-, ht⟩ := Option.ite_none_right_eq_some.1 ht
    cases ht
    exact hquiet ⟨fun _ => Or.inl rfl, rfl, rfl, rfl⟩ fun _ _ _ heq => (by cases heq)
  | taskNext =>
    dsimp only at ht
    split at ht
    · cases ht
      refine hquiet ?_ fun _ _ _ heq => (by cases heq)
      unfold HomingMcu.taskNext
      split_ifs <;> exact ⟨fun _ => Or.inl rfl, rfl, rfl, rfl⟩
    · cases ht
  | taskReport =>
    dsimp only at ht
    split at ht
    · rename_i τ rest time htask htime
      cases ht
      obtain ⟨htriggers, -⟩ :=
        quiet_setTrsync s τ ({ s.trsyncs τ with report := false }) (Or.inl rfl)
      refine ⟨h.effect_of_quiet htriggers rfl, fun _ => Or.inl rfl, fun m hm hcan => ?_,
        samples_of_ne fun _ _ _ heq => (by cases heq)⟩
      have hmsg := List.singleton_inj.1 (List.append_cancel_left hm)
      rw [← hmsg] at hcan ⊢
      exact ⟨time, h.taskTime time htime, rfl, (h.trsync τ).fresh hcan⟩
    · cases ht
  | shutdown =>
    cases ht
    exact hquiet (quiet_shutdown board s) fun _ _ _ heq => (by cases heq)

/-- The stop of a homing move on one micro-controller, in every state of every run. -/
theorem homingStop_of_reachable {oids : List T} (h : (homingMcu board oids).Reachable s) :
    (∀ τ, (s.trsyncs τ).triggers.length ≤ 1 ∧
      (s.isShutdown = false → ∀ p ∈ (s.trsyncs τ).triggers, (s.trsyncs τ).triggerReason = p.1)) ∧
    (∀ σ, Halted board (s.steppers σ) (s.stoppedAt σ)) ∧
    ∀ a t, (homingMcu board oids).next s a = some t → StepSpec board s a t := by
  have hgood := good_of_reachable h
  exact ⟨fun τ => ⟨(hgood.trsync τ).once, (hgood.trsync τ).reason⟩, hgood.halted,
    fun a t ht => hgood.stepSpec ht⟩

/-- A firmware that steps on both edges. -/
def edgeBoard : StepperBoard :=
  ⟨.edge, 16000⟩

/-- A stepper is attached and starts to move, and the endstop is to match twice. -/
def homingStart (sampleCount : BitVec 8) : List (HomingEvent (Fin 1) (Fin 1) (Fin 1)) :=
  [.command (.trsyncStart 0 0 0 2), .command (.stepperStopOnTrigger 0 0),
    .command (.queueStep 0 100 5 0),
    .command (.endstopHome 0 50 10 sampleCount 100 true 0 1)]

/-- The endstop matches twice while the stepper takes two of its steps. -/
theorem homingStop_of_reachable_two :
    ∃ s : HomingMcu (Fin 1) (Fin 1) (Fin 1), (homingMcu edgeBoard [0]).run
        (config edgeBoard 0 (fun _ => -1) fun _ => 0)
        (homingStart 2 ++ [.step 0, .endstop 0 true true, .step 0, .endstop 0 true true]) =
        some s ∧ (s.trsyncs 0).triggers = [(1, 0)] ∧
      s.stoppedAt 0 = some (2, 0x3ffffffe) ∧ Halted edgeBoard (s.steppers 0) (s.stoppedAt 0) := by
  have hrun : ((homingMcu edgeBoard [0]).run
      (config edgeBoard 0 (fun _ => -1) fun _ => 0 : HomingMcu (Fin 1) (Fin 1) (Fin 1))
      (homingStart 2 ++ [.step 0, .endstop 0 true true, .step 0, .endstop 0 true true])).map
      (fun s => ((s.trsyncs 0).triggers, s.stoppedAt 0)) =
      some ([(1, 0)], some (2, 0x3ffffffe)) := by decide +kernel
  obtain ⟨s, hs, heq⟩ := Option.map_eq_some_iff.1 hrun
  obtain ⟨htriggers, hstoppedAt⟩ := Prod.mk.inj heq
  have hreach : (homingMcu edgeBoard [0]).Reachable s :=
    System.Reachable.run (.init ⟨_, _, _, rfl⟩) hs
  exact ⟨s, hs, htriggers, hstoppedAt, (homingStop_of_reachable hreach).2.1 0⟩

/-- A first read of the pin may match, and still it is not the end of a run of one match : it is
read again at once. -/
theorem not_fired_after_read :
    ∃ s : HomingMcu (Fin 1) (Fin 1) (Fin 1), (homingMcu edgeBoard [0]).Reachable s ∧
      (s.endstops 0).sampleCount = 1 ∧ (s.endstops 0).reads = [true, false] ∧
      Endstop.FirstRun 1 [true] ∧ (s.endstops 0).fired = false := by
  have hrun : ((homingMcu edgeBoard [0]).run
      (config edgeBoard 0 (fun _ => -1) fun _ => 0 : HomingMcu (Fin 1) (Fin 1) (Fin 1))
      (homingStart 1 ++ [.endstop 0 true false])).map
      (fun s => ((s.endstops 0).sampleCount, (s.endstops 0).reads, (s.endstops 0).fired)) =
      some (1, [true, false], false) := by decide +kernel
  obtain ⟨s, hs, heq⟩ := Option.map_eq_some_iff.1 hrun
  obtain ⟨hcount, heq⟩ := Prod.mk.inj heq
  obtain ⟨hreads, hfired⟩ := Prod.mk.inj heq
  exact ⟨s, System.Reachable.run (.init ⟨_, _, _, rfl⟩) hs, hcount, hreads,
    (Endstop.Run.start Nat.one_pos).last rfl, hfired⟩

end HomingMcu

end Thinker
