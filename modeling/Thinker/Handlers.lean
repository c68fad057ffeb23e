import Thinker.MovePool
import Thinker.Transition

/-!
# Handlers that share a pool

The code of a micro-controller as far as it uses a move pool : commands run in the task, and
interrupt handlers run to their end at the points where the task has interrupts enabled. A shutdown
may come before any step. It abandons both, and the shutdown functions run in any order.

`Code.Linear` says that a handler puts back each item that it takes, and `Code.Safe` is the weakest
precondition of a handler for its own state and for which queues are empty; where interrupts are
enabled the state may change as the interrupt handlers guarantee. For handlers that meet these, the
pool is conserved in every reachable state (`conserved_of_reachable`), and a handler that takes the
first item of a queue finds one (`safe_of_reachable`).
-/

set_option linter.unusedSectionVars false

namespace Thinker

/-- What `move_alloc` shuts down with. -/
def moveQueueOverflow : String := "Move queue overflow"

/-- Code over the state `σ` of the objects and over the pool. -/
inductive Code (σ ι : Type) : Type
  | done
  | shutdown (reason : String)
  /-- Reads the objects. -/
  | look (k : σ → Code σ ι)
  /-- Changes the objects. -/
  | modify (f : σ → σ) (k : Code σ ι)
  | alloc (k : ℕ → Code σ ι)
  | free (m : ℕ) (k : Code σ ι)
  /-- `move_queue_push`, with whether the queue was empty. -/
  | push (m : ℕ) (q : ι) (k : Bool → Code σ ι)
  | pop (q : ι) (k : ℕ → Code σ ι)
  | first (q : ι) (k : Option ℕ → Code σ ι)
  /-- `while (!move_queue_empty(q))` with `move_queue_pop` and `move_free`. -/
  | drain (q : ι) (k : Code σ ι)
  /-- A point where interrupts are enabled. -/
  | poll (k : Code σ ι)

/-- The task and the interrupt handlers. -/
inductive Context
  | task
  | irq
  deriving DecidableEq, Repr

/-- Code that is running, with the item that it took and has not yet put back. -/
structure Frame (σ ι : Type) where
  code : Code σ ι
  held : Option ℕ

/-- The state of the micro-controller. -/
structure Processor (σ ι : Type) where
  pool : MovePool ι
  objs : σ
  frame : Context → Option (Frame σ ι)
  isShutdown : Bool

/-- The code of a micro-controller. -/
structure Firmware (σ ι : Type) where
  Command : Type
  Interrupt : Type
  ShutdownFunc : Type
  command : Command → Code σ ι
  /-- The code of an interrupt, if it can come now. -/
  interrupt : Interrupt → σ → Option (Code σ ι)
  /-- What `run_shutdown` does before the shutdown functions. -/
  reset : σ → σ
  shutdownFunc : ShutdownFunc → MovePool ι × σ → MovePool ι × σ

/-- An order of the shutdown functions. -/
structure Firmware.Order {σ ι : Type} (fw : Firmware σ ι) where
  funcs : List fw.ShutdownFunc
  nodup : funcs.Nodup
  mem : ∀ f, f ∈ funcs

/-- What can happen next. -/
inductive ProcessorEvent {σ ι : Type} (fw : Firmware σ ι) : Type
  | command (c : fw.Command)
  | interrupt (i : fw.Interrupt)
  /-- The next step of what is running. -/
  | step
  | shutdown (order : fw.Order)
  | clearShutdown

variable {σ ι : Type} [DecidableEq ι]

/-- One step of code. There is none at its end, at a shutdown, and where the first item of an empty
queue is taken. -/
def Frame.step (p : MovePool ι) (s : σ) : Frame σ ι → Option (MovePool ι × σ × Frame σ ι)
  | ⟨.done, _⟩ | ⟨.shutdown _, _⟩ => none
  | ⟨.look k, held⟩ => some (p, s, ⟨k s, held⟩)
  | ⟨.modify f k, held⟩ => some (p, f s, ⟨k, held⟩)
  | ⟨.alloc k, held⟩ =>
    match p.moveAlloc with
    | none => some (p, s, ⟨.shutdown moveQueueOverflow, held⟩)
    | some (m, p) => some (p, s, ⟨k m, some m⟩)
  | ⟨.free m k, _⟩ => some (p.moveFree m, s, ⟨k, none⟩)
  | ⟨.push m q k, _⟩ => some ((p.moveQueuePush m q).2, s, ⟨k (p.moveQueuePush m q).1, none⟩)
  | ⟨.pop q k, _⟩ => (p.moveQueuePop q).map fun (m, p) => (p, s, ⟨k m, some m⟩)
  | ⟨.first q k, held⟩ => some (p, s, ⟨k (p.moveQueueFirst q), held⟩)
  | ⟨.drain q k, held⟩ =>
    match p.moveQueuePop q with
    | none => some (p, s, ⟨k, held⟩)
    | some (m, p) => some (p, s, ⟨.free m (.drain q k), some m⟩)
  | ⟨.poll k, held⟩ => some (p, s, ⟨k, held⟩)

/-- Whether code has come to its end. -/
def Code.isDone : Code σ ι → Bool
  | .done => true
  | _ => false

/-- Whether code is at a point where interrupts are enabled. -/
def Code.polls : Code σ ι → Bool
  | .poll _ => true
  | _ => false

/-- `run_shutdown`. -/
def Firmware.runShutdown (fw : Firmware σ ι) (order : fw.Order) (p : MovePool ι) (s : σ) :
    MovePool ι × σ :=
  order.funcs.foldl (fun ps f => fw.shutdownFunc f ps) (p, fw.reset s)

namespace Processor

/-- What is running. -/
def running (m : Processor σ ι) : Context :=
  if (m.frame .irq).isSome then .irq else .task

/-- The item of each context. -/
def held (m : Processor σ ι) (c : Context) : Option ℕ :=
  (m.frame c).bind Frame.held

/-- The state after an event. -/
def next (fw : Firmware σ ι) (m : Processor σ ι) : ProcessorEvent fw → Option (Processor σ ι)
  | .command c =>
    if m.isShutdown = false ∧ m.frame .irq = none ∧ m.frame .task = none then
      some { m with frame := Function.update m.frame .task (some ⟨fw.command c, none⟩) }
    else none
  | .interrupt i =>
    if (m.frame .irq).isNone ∧ (m.frame .task).all fun fr => fr.code.polls then
      (fw.interrupt i m.objs).map fun code =>
        { m with frame := Function.update m.frame .irq (some ⟨code, none⟩) }
    else none
  | .step =>
    match m.frame m.running with
    | none => none
    | some fr =>
      if fr.code.isDone then some { m with frame := Function.update m.frame m.running none }
      else (fr.step m.pool m.objs).map fun (p, s, fr) =>
        { m with
          pool := p
          objs := s
          frame := Function.update m.frame m.running (some fr) }
  | .shutdown order =>
    some {
      pool := (fw.runShutdown order m.pool m.objs).1
      objs := (fw.runShutdown order m.pool m.objs).2
      frame := fun _ => none
      isShutdown := true }
  | .clearShutdown => some { m with isShutdown := false }

end Processor

/-- Runs of the micro-controller. -/
def Firmware.system (fw : Firmware σ ι) (init : Processor σ ι → Prop) :
    System (Processor σ ι) (ProcessorEvent fw) :=
  ⟨init, Processor.next fw⟩

/-- What one of the shutdown functions makes so and the others keep. -/
theorem Firmware.runShutdown_establish (fw : Firmware σ ι) {P : MovePool ι × σ → Prop}
    (f : fw.ShutdownFunc) (hf : ∀ ps, P (fw.shutdownFunc f ps))
    (hkeep : ∀ g ps, P ps → P (fw.shutdownFunc g ps)) (order : fw.Order) (p : MovePool ι) (s : σ) :
    P (fw.runShutdown order p s) := by
  have hkept : ∀ (l : List fw.ShutdownFunc) ps, P ps →
      P (l.foldl (fun ps f => fw.shutdownFunc f ps) ps) := by
    intro l
    induction l with
    | nil => exact fun ps h => h
    | cons g l ih => exact fun ps h => ih _ (hkeep g ps h)
  obtain ⟨before, behind, hsplit⟩ := List.append_of_mem (order.mem f)
  rw [runShutdown, hsplit, List.foldl_append, List.foldl_cons]
  exact hkept behind _ (hf _)

/-- What all shutdown functions keep. -/
theorem Firmware.runShutdown_keep (fw : Firmware σ ι) {P : MovePool ι × σ → Prop}
    (hkeep : ∀ g ps, P ps → P (fw.shutdownFunc g ps)) (order : fw.Order) {p : MovePool ι} {s : σ}
    (h : P (p, fw.reset s)) : P (fw.runShutdown order p s) := by
  rw [runShutdown]
  generalize (p, fw.reset s) = ps at h ⊢
  induction order.funcs generalizing ps with
  | nil => exact h
  | cons g l ih => exact ih _ (hkeep g ps h)

/-! ## Items are put back -/

/-- The code puts back each item that it takes, and only that. Interrupt handlers take none from
the free list. -/
def Code.Linear (c : Context) : Code σ ι → Option ℕ → Prop
  | .done, held => held = none
  | .shutdown reason, _ => reason ≠ moveQueueOverflow
  | .look k, held => ∀ s, (k s).Linear c held
  | .modify _ k, held => k.Linear c held
  | .alloc k, held => c = .task ∧ held = none ∧ ∀ m, (k m).Linear c (some m)
  | .free m k, held => held = some m ∧ k.Linear c none
  | .push m _ k, held => held = some m ∧ ∀ wasEmpty, (k wasEmpty).Linear c none
  | .pop _ k, held => held = none ∧ ∀ m, (k m).Linear c (some m)
  | .first _ k, held => ∀ m, (k m).Linear c held
  | .drain _ k, held => held = none ∧ k.Linear c none
  | .poll k, held => k.Linear c held

/-- A free item was wanted and there was none. -/
def Processor.Overflow (m : Processor σ ι) : Prop :=
  m.frame .irq = none ∧ m.frame .task = some ⟨.shutdown moveQueueOverflow, none⟩ ∧
    m.pool.moveFreeList = none

/-- One step keeps the items in their places. -/
theorem Frame.step_conserved {p p' : MovePool ι} {held : Context → Option ℕ} {c : Context}
    {s s' : σ} {fr fr' : Frame σ ι} (h : p.Conserved held) (hheld : held c = fr.held)
    (hlinear : fr.code.Linear c fr.held) (hstep : fr.step p s = some (p', s', fr')) :
    p'.Conserved (Function.update held c fr'.held) ∧ p'.moveCount = p.moveCount ∧
      (fr'.code.Linear c fr'.held ∨
        c = .task ∧ fr' = ⟨.shutdown moveQueueOverflow, none⟩ ∧ p'.moveFreeList = none) := by
  have hsame : Function.update held c fr.held = held := by rw [← hheld, Function.update_eq_self]
  obtain ⟨code, item⟩ := fr
  cases code with
  | done => cases hstep
  | shutdown reason => cases hstep
  | look k =>
    cases hstep
    exact ⟨hsame.symm ▸ h, rfl, .inl (hlinear s)⟩
  | modify f k =>
    cases hstep
    exact ⟨hsame.symm ▸ h, rfl, .inl hlinear⟩
  | first q k =>
    cases hstep
    exact ⟨hsame.symm ▸ h, rfl, .inl (hlinear _)⟩
  | poll k =>
    cases hstep
    exact ⟨hsame.symm ▸ h, rfl, .inl hlinear⟩
  | alloc k =>
    obtain ⟨rfl, rfl, hlinear⟩ := hlinear
    cases ha : p.moveAlloc with
    | none =>
      simp only [step, ha] at hstep
      cases hstep
      exact ⟨hsame.symm ▸ h, rfl, .inr ⟨rfl, rfl, Option.map_eq_none_iff.1 ha⟩⟩
    | some mp =>
      obtain ⟨m, p''⟩ := mp
      simp only [step, ha] at hstep
      cases hstep
      exact ⟨h.alloc hheld ha, MovePool.moveCount_alloc ha, .inl (hlinear m)⟩
  | free m k =>
    cases hstep
    exact ⟨h.free (hheld.trans hlinear.1), rfl, .inl hlinear.2⟩
  | push m q k =>
    cases hstep
    exact ⟨h.push (hheld.trans hlinear.1) q, MovePool.moveCount_push p m q, .inl (hlinear.2 _)⟩
  | pop q k =>
    obtain ⟨⟨m, p''⟩, ha, heq⟩ := Option.map_eq_some_iff.1 hstep
    cases heq
    exact ⟨h.pop (hheld.trans hlinear.1) ha, MovePool.moveCount_pop ha, .inl (hlinear.2 m)⟩
  | drain q k =>
    obtain ⟨rfl, hlinear⟩ := hlinear
    cases ha : p.moveQueuePop q with
    | none =>
      simp only [step, ha] at hstep
      cases hstep
      exact ⟨hsame.symm ▸ h, rfl, .inl hlinear⟩
    | some mp =>
      obtain ⟨m, p''⟩ := mp
      simp only [step, ha] at hstep
      cases hstep
      exact ⟨h.pop hheld ha, MovePool.moveCount_pop ha, .inl ⟨rfl, rfl, hlinear⟩⟩

/-- The items of a firmware are put back, and after a shutdown all are free. -/
structure Firmware.Linear (fw : Firmware σ ι) : Prop where
  command : ∀ c, (fw.command c).Linear .task none
  interrupt : ∀ i s code, fw.interrupt i s = some code → code.Linear .irq none
  shutdown : ∀ order p s, p.moveCount ≠ 0 → (fw.runShutdown order p s).1.moveCount ≠ 0 ∧
    (fw.runShutdown order p s).1.Conserved fun _ : Context => none

namespace Processor

/-- Each item of the pool is in one place, and what is running will put back what it holds. -/
structure Conserving (m : Processor σ ι) : Prop where
  count : m.pool.moveCount ≠ 0
  conserved : m.pool.Conserved m.held
  linear : ∀ c fr, m.frame c = some fr → fr.code.Linear c fr.held ∨ c = .task ∧ m.Overflow

variable {fw : Firmware σ ι} {m m' : Processor σ ι}

theorem held_update (m : Processor σ ι) (c : Context) (fr : Option (Frame σ ι)) (c' : Context) :
    ((Function.update m.frame c fr) c').bind Frame.held =
      Function.update m.held c (fr.bind Frame.held) c' := by
  by_cases hc : c' = c
  · subst hc
    rw [Function.update_self, Function.update_self]
  · rw [Function.update_of_ne hc, Function.update_of_ne hc]
    rfl

/-- What runs is linear, and so is what it interrupts. -/
theorem Conserving.linear_of_running (h : m.Conserving) {fr : Frame σ ι}
    (hfr : m.frame m.running = some fr) (hcode : ∀ reason, fr.code ≠ .shutdown reason) :
    ∀ c fr', m.frame c = some fr' → fr'.code.Linear c fr'.held := by
  intro c fr' hfr'
  rcases h.linear c fr' hfr' with hlinear | ⟨rfl, hirq, htask, -⟩
  · exact hlinear
  · -- after an overflow the task is what runs
    have hrunning : m.running = .task := by rw [running, hirq]; rfl
    rw [hrunning, htask] at hfr
    obtain rfl := Option.some_inj.1 hfr
    exact absurd rfl (hcode moveQueueOverflow)

/-- A frame begins or ends. -/
theorem Conserving.replace (h : m.Conserving) {c : Context} {fr : Option (Frame σ ι)}
    (hlinear : ∀ c' fr', c' ≠ c → m.frame c' = some fr' → fr'.code.Linear c' fr'.held)
    (hheld : m.held c = fr.bind Frame.held)
    (hfr : ∀ fr', fr = some fr' → fr'.code.Linear c fr'.held) :
    Conserving { m with frame := Function.update m.frame c fr } where
  count := h.count
  conserved := by
    have hsame : held { m with frame := Function.update m.frame c fr } = m.held := by
      funext c'
      show ((Function.update m.frame c fr) c').bind Frame.held = _
      rw [held_update, ← hheld, Function.update_eq_self]
    rw [hsame]
    exact h.conserved
  linear c' fr' hfr' := by
    replace hfr' : Function.update m.frame c fr c' = some fr' := hfr'
    by_cases hc : c' = c
    · subst hc
      rw [Function.update_self] at hfr'
      exact .inl (hfr fr' hfr')
    · rw [Function.update_of_ne hc] at hfr'
      exact .inl (hlinear c' fr' hc hfr')

theorem Conserving.step (h : m.Conserving) (hm : next fw m .step = some m') : m'.Conserving := by
  cases hfr : m.frame m.running with
  | none => simp [next, hfr] at hm
  | some fr =>
    simp only [next, hfr] at hm
    have hheld : m.held m.running = fr.held := by rw [held, hfr]; rfl
    by_cases hdone : fr.code.isDone = true
    · rw [if_pos hdone] at hm
      obtain rfl := Option.some_inj.1 hm
      have hcode : fr.code = .done := by
        cases hc : fr.code <;> rw [hc] at hdone <;> first | rfl | cases hdone
      have hlinear := h.linear_of_running hfr (by rw [hcode]; exact nofun)
      refine h.replace (fun c' fr' _ hfr' => hlinear c' fr' hfr') ?_ nofun
      have hnone := hlinear _ fr hfr
      rw [hcode] at hnone
      exact hheld.trans hnone
    · rw [if_neg hdone] at hm
      obtain ⟨⟨p, s, fr'⟩, hstep, heq⟩ := Option.map_eq_some_iff.1 hm
      subst heq
      have hcode : ∀ reason, fr.code ≠ .shutdown reason := by
        rintro reason hcode
        obtain ⟨code, item⟩ := fr
        obtain rfl : code = .shutdown reason := hcode
        cases hstep
      have hlinear := h.linear_of_running hfr hcode
      obtain ⟨hconserved, hcount, hnext⟩ :=
        Frame.step_conserved h.conserved hheld (hlinear _ fr hfr) hstep
      refine ⟨hcount ▸ h.count, ?_, fun c fr'' hfr'' => ?_⟩
      · have hsame : held { m with
            pool := p, objs := s, frame := Function.update m.frame m.running (some fr') } =
            Function.update m.held m.running fr'.held :=
          funext fun c => held_update m m.running (some fr') c
        rw [hsame]
        exact hconserved
      · replace hfr'' : Function.update m.frame m.running (some fr') c = some fr'' := hfr''
        by_cases hc : c = m.running
        · subst hc
          rw [Function.update_self] at hfr''
          obtain rfl := Option.some_inj.1 hfr''
          rcases hnext with hnext | ⟨hrunning, rfl, hfree⟩
          · exact .inl hnext
          · refine .inr ⟨hrunning, ?_, ?_, hfree⟩
            · show Function.update m.frame m.running _ .irq = none
              rw [hrunning, Function.update_of_ne (by decide)]
              by_contra hirq
              rw [running, if_pos (Option.isSome_iff_ne_none.2 hirq)] at hrunning
              cases hrunning
            · show Function.update m.frame m.running _ .task = _
              rw [hrunning, Function.update_self]
        · rw [Function.update_of_ne hc] at hfr''
          exact .inl (hlinear c fr'' hfr'')

theorem Conserving.next (hfw : fw.Linear) (h : m.Conserving) {e : ProcessorEvent fw}
    (hm : next fw m e = some m') : m'.Conserving := by
  cases e with
  | step => exact h.step hm
  | command c =>
    rw [Processor.next, Option.ite_none_right_eq_some] at hm
    obtain ⟨⟨-, hirq, htask⟩, hm⟩ := hm
    obtain rfl := Option.some_inj.1 hm
    refine h.replace (fun c' fr' hc hfr' => ?_) (by rw [held, htask]; rfl) fun fr' hfr' => ?_
    · cases c' with
      | task => exact absurd rfl hc
      | irq => exact nomatch hirq.symm.trans hfr'
    · obtain rfl := Option.some_inj.1 hfr'
      exact hfw.command c
  | interrupt i =>
    rw [Processor.next, Option.ite_none_right_eq_some] at hm
    obtain ⟨⟨hirq, hpolls⟩, hm⟩ := hm
    obtain ⟨code, hcode, rfl⟩ := Option.map_eq_some_iff.1 hm
    rw [Option.isNone_iff_eq_none] at hirq
    refine h.replace (fun c' fr' hc hfr' => ?_) (by rw [held, hirq]; rfl) fun fr' hfr' => ?_
    · cases c' with
      | irq => exact absurd rfl hc
      | task =>
        -- a task that polls has not overflowed
        rcases h.linear _ fr' hfr' with hlinear | ⟨-, -, hover, -⟩
        · exact hlinear
        · rw [hover] at hpolls
          cases hpolls
    · obtain rfl := Option.some_inj.1 hfr'
      exact hfw.interrupt i m.objs code hcode
  | shutdown order =>
    obtain rfl := Option.some_inj.1 hm
    obtain ⟨hcount, hconserved⟩ := hfw.shutdown order m.pool m.objs h.count
    exact ⟨hcount, hconserved, nofun⟩
  | clearShutdown =>
    obtain rfl := Option.some_inj.1 hm
    exact ⟨h.count, h.conserved, h.linear⟩

/-- For linear handlers the pool is conserved in every reachable state. -/
theorem conserved_of_reachable {init : Processor σ ι → Prop} (hfw : fw.Linear)
    (hinit : ∀ m, init m → m.Conserving) (h : (fw.system init).Reachable m) : m.Conserving :=
  h.invariant (I := Conserving) hinit fun _ _ _ hi _ hm => hi.next hfw hm

end Processor

/-! ## What a handler relies on -/

/-- What may be asked of the objects, and of which queues are not empty. -/
abbrev Assertion (σ ι : Type) := σ → (ι → Bool) → Prop

/-- The assertion that holds where interrupts are enabled, and what the interrupt handlers may
change. -/
structure Interference (σ ι : Type) where
  ok : Assertion σ ι
  rely : σ → (ι → Bool) → Assertion σ ι
  refl : ∀ s e, rely s e s e
  trans : ∀ s e s' e' s'' e'', rely s e s' e' → rely s' e' s'' e'' → rely s e s'' e''

/-- The weakest precondition of code for what holds at its end. The first item is taken of queues
only that are not empty. -/
def Code.Safe (I : Interference σ ι) (post : Assertion σ ι) : Code σ ι → Assertion σ ι
  | .done, s, e => post s e
  | .shutdown _, _, _ => True
  | .look k, s, e => (k s).Safe I post s e
  | .modify f k, s, e => k.Safe I post (f s) e
  | .alloc k, s, e => ∀ m, (k m).Safe I post s e
  | .free _ k, s, e => k.Safe I post s e
  | .push _ q k, s, e => (k (!e q)).Safe I post s (Function.update e q true)
  | .pop q k, s, e =>
    e q = true ∧ ∀ m left, (k m).Safe I post s (Function.update e q left)
  | .first q k, s, e =>
    if e q then ∀ m, (k (some m)).Safe I post s e else (k none).Safe I post s e
  | .drain q k, s, e => k.Safe I post s (Function.update e q false)
  | .poll k, s, e => I.ok s e ∧ ∀ s' e', I.ok s' e' → I.rely s e s' e' → k.Safe I post s' e'

variable {I : Interference σ ι} {post post' : Assertion σ ι}

theorem Code.Safe.mono (hpost : ∀ s e, post s e → post' s e) {code : Code σ ι} {s : σ}
    {e : ι → Bool} (h : code.Safe I post s e) : code.Safe I post' s e := by
  induction code generalizing s e with
  | done => exact hpost s e h
  | shutdown reason => trivial
  | look k ih => exact ih s h
  | modify f k ih => exact ih h
  | alloc k ih => exact fun m => ih m (h m)
  | free m k ih => exact ih h
  | push m q k ih => exact ih _ h
  | pop q k ih => exact ⟨h.1, fun m left => ih m (h.2 m left)⟩
  | first q k ih =>
    rw [Safe] at h ⊢
    split_ifs at h ⊢
    · exact fun m => ih (some m) (h m)
    · exact ih none h
  | drain q k ih => exact ih h
  | poll k ih => exact ⟨h.1, fun s' e' hok hrely => ih (h.2 s' e' hok hrely)⟩

/-- A point where interrupts are enabled may be left at once. -/
theorem Code.Safe.poll {k : Code σ ι} {s : σ} {e : ι → Bool} (h : (Code.poll k).Safe I post s e) :
    k.Safe I post s e :=
  h.2 s e h.1 (I.refl s e)

/-- One step keeps the precondition. -/
theorem Frame.step_safe {p p' : MovePool ι} {s s' : σ} {fr fr' : Frame σ ι}
    (h : fr.code.Safe I post s p.nonEmpty) (hstep : fr.step p s = some (p', s', fr')) :
    fr'.code.Safe I post s' p'.nonEmpty := by
  obtain ⟨code, item⟩ := fr
  cases code with
  | done => cases hstep
  | shutdown reason => cases hstep
  | look k =>
    cases hstep
    exact h
  | modify f k =>
    cases hstep
    exact h
  | free m k =>
    cases hstep
    exact h
  | poll k =>
    cases hstep
    exact h.poll
  | alloc k =>
    cases ha : p.moveAlloc with
    | none =>
      simp only [step, ha] at hstep
      cases hstep
      trivial
    | some mp =>
      obtain ⟨m, p''⟩ := mp
      simp only [step, ha] at hstep
      cases hstep
      rw [MovePool.nonEmpty_alloc ha]
      exact h m
  | push m q k =>
    cases hstep
    obtain ⟨hempty, hnonEmpty⟩ := p.nonEmpty_push m q
    rw [hempty, hnonEmpty]
    exact h
  | pop q k =>
    obtain ⟨⟨m, p''⟩, ha, heq⟩ := Option.map_eq_some_iff.1 hstep
    cases heq
    obtain ⟨-, left, hnonEmpty⟩ := MovePool.nonEmpty_pop ha
    rw [hnonEmpty]
    exact h.2 m left
  | first q k =>
    cases hstep
    rw [Code.Safe] at h
    cases hfirst : p.moveQueueFirst q with
    | none =>
      have hempty : p.nonEmpty q = false := congrArg Option.isSome hfirst
      rw [if_neg (by rw [hempty]; exact Bool.false_ne_true)] at h
      exact h
    | some m =>
      have hsome : p.nonEmpty q = true := congrArg Option.isSome hfirst
      rw [if_pos hsome] at h
      exact h m
  | drain q k =>
    cases ha : p.moveQueuePop q with
    | none =>
      simp only [step, ha] at hstep
      cases hstep
      have hempty : p.nonEmpty q = false :=
        congrArg Option.isSome (Option.map_eq_none_iff.1 ha)
      rw [Code.Safe, ← hempty, Function.update_eq_self] at h
      exact h
    | some mp =>
      obtain ⟨m, p''⟩ := mp
      simp only [step, ha] at hstep
      cases hstep
      obtain ⟨-, left, hnonEmpty⟩ := MovePool.nonEmpty_pop ha
      show k.Safe I post s (Function.update p'.nonEmpty q false)
      rw [hnonEmpty, Function.update_idem]
      exact h

/-- The handlers of a firmware keep the assertion, and the interrupt handlers change no more than
the others rely on. -/
structure Firmware.Safe (fw : Firmware σ ι) (I : Interference σ ι) : Prop where
  command : ∀ c s e, I.ok s e → (fw.command c).Safe I I.ok s e
  interrupt : ∀ i s e code, I.ok s e → fw.interrupt i s = some code →
    code.Safe I (fun s' e' => I.ok s' e' ∧ I.rely s e s' e') s e
  shutdown : ∀ order p s, I.ok (fw.runShutdown order p s).2 (fw.runShutdown order p s).1.nonEmpty

namespace Processor

/-- What the task needs to go on. -/
def TaskSafe (I : Interference σ ι) (m : Processor σ ι) : Assertion σ ι := fun s e =>
  I.ok s e ∧ m.frame .task = none ∨ ∃ fr, m.frame .task = some fr ∧ fr.code.Safe I I.ok s e

/-- What is running is safe, and leaves to the task what it needs. -/
def Safe (I : Interference σ ι) (m : Processor σ ι) : Prop :=
  match m.frame .irq with
  | none => m.TaskSafe I m.objs m.pool.nonEmpty
  | some fr =>
    fr.code.Safe I (fun s e => I.ok s e ∧ m.TaskSafe I s e) m.objs m.pool.nonEmpty

variable {fw : Firmware σ ι} {m m' : Processor σ ι}

theorem update_irq (f : Context → Option (Frame σ ι)) (fr : Option (Frame σ ι)) :
    Function.update f .irq fr .irq = fr ∧ Function.update f .irq fr .task = f .task :=
  ⟨Function.update_self .., Function.update_of_ne (by decide) ..⟩

theorem update_task (f : Context → Option (Frame σ ι)) (fr : Option (Frame σ ι)) :
    Function.update f .task fr .task = fr ∧ Function.update f .task fr .irq = f .irq :=
  ⟨Function.update_self .., Function.update_of_ne (by decide) ..⟩

theorem TaskSafe.congr {s : σ} {e : ι → Bool} (h : m.TaskSafe I s e)
    (htask : m'.frame .task = m.frame .task) : m'.TaskSafe I s e := by
  rw [TaskSafe, htask]
  exact h

theorem safe_of_task (hirq : m.frame .irq = none) :
    m.Safe I ↔ m.TaskSafe I m.objs m.pool.nonEmpty := by
  rw [Safe, hirq]

theorem safe_of_irq {fr : Frame σ ι} (hirq : m.frame .irq = some fr) :
    m.Safe I ↔ fr.code.Safe I (fun s e => I.ok s e ∧ m.TaskSafe I s e) m.objs m.pool.nonEmpty := by
  rw [Safe, hirq]

theorem Safe.interrupt (hfw : fw.Safe I) (h : m.Safe I) {i : fw.Interrupt}
    (hm : next fw m (.interrupt i) = some m') : m'.Safe I := by
  rw [next, Option.ite_none_right_eq_some] at hm
  obtain ⟨⟨hirq, hpolls⟩, hm⟩ := hm
  obtain ⟨code, hcode, rfl⟩ := Option.map_eq_some_iff.1 hm
  rw [Option.isNone_iff_eq_none] at hirq
  rw [safe_of_task hirq] at h
  -- the task may be left for any state that the interrupt handler may lead to
  have htask : I.ok m.objs m.pool.nonEmpty ∧ ∀ s e, I.ok s e →
      I.rely m.objs m.pool.nonEmpty s e → m.TaskSafe I s e := by
    rcases h with ⟨hok, htask⟩ | ⟨fr, htask, hsafe⟩
    · exact ⟨hok, fun s e hok' _ => .inl ⟨hok', htask⟩⟩
    · rw [htask] at hpolls
      obtain ⟨k, hk⟩ : ∃ k, fr.code = .poll k := by
        cases hc : fr.code <;> rw [Option.all_some, hc] at hpolls <;>
          first | exact ⟨_, rfl⟩ | cases hpolls
      rw [hk] at hsafe
      refine ⟨hsafe.1, fun s e hok' hrely => .inr ⟨fr, htask, ?_⟩⟩
      rw [hk]
      exact ⟨hok', fun s' e' hok'' hrely' => hsafe.2 s' e' hok'' (I.trans _ _ _ _ _ _ hrely hrely')⟩
  refine (safe_of_irq (update_irq m.frame (some ⟨code, none⟩)).1).2 ?_
  exact (hfw.interrupt i m.objs _ code htask.1 hcode).mono fun s e ⟨hok, hrely⟩ =>
    ⟨hok, (htask.2 s e hok hrely).congr (update_irq m.frame (some ⟨code, none⟩)).2⟩

theorem eq_done_of_isDone {code : Code σ ι} (h : code.isDone = true) : code = .done := by
  cases code <;> first | rfl | cases h

theorem Safe.step (h : m.Safe I) (hm : next fw m .step = some m') : m'.Safe I := by
  cases hirq : m.frame .irq with
  | none =>
    have hrunning : m.running = .task := by rw [running, hirq]; rfl
    rw [safe_of_task hirq] at h
    cases htask : m.frame .task with
    | none => simp [next, hrunning, htask] at hm
    | some fr =>
      have hsafe : fr.code.Safe I I.ok m.objs m.pool.nonEmpty := by
        rcases h with ⟨-, hnone⟩ | ⟨fr', hfr', hsafe⟩
        · exact nomatch hnone.symm.trans htask
        · rwa [← Option.some_inj.1 (hfr'.symm.trans htask)]
      simp only [next, hrunning, htask] at hm
      by_cases hdone : fr.code.isDone = true
      · rw [if_pos hdone] at hm
        obtain rfl := Option.some_inj.1 hm
        rw [eq_done_of_isDone hdone] at hsafe
        refine (safe_of_task ?_).2 (.inl ⟨hsafe, (update_task m.frame none).1⟩)
        exact (update_task m.frame none).2.trans hirq
      · rw [if_neg hdone] at hm
        obtain ⟨⟨p, s, fr'⟩, hstep, rfl⟩ := Option.map_eq_some_iff.1 hm
        refine (safe_of_task ?_).2
          (.inr ⟨fr', (update_task m.frame (some fr')).1, Frame.step_safe hsafe hstep⟩)
        exact (update_task m.frame (some fr')).2.trans hirq
  | some fr =>
    have hrunning : m.running = .irq := by rw [running, hirq]; rfl
    rw [safe_of_irq hirq] at h
    simp only [next, hrunning, hirq] at hm
    by_cases hdone : fr.code.isDone = true
    · rw [if_pos hdone] at hm
      obtain rfl := Option.some_inj.1 hm
      rw [eq_done_of_isDone hdone] at h
      refine (safe_of_task ?_).2 (h.2.congr (update_irq m.frame none).2)
      exact (update_irq m.frame none).1
    · rw [if_neg hdone] at hm
      obtain ⟨⟨p, s, fr'⟩, hstep, rfl⟩ := Option.map_eq_some_iff.1 hm
      refine (safe_of_irq (update_irq m.frame (some fr')).1).2 ?_
      exact (Frame.step_safe h hstep).mono fun s e hpost =>
        ⟨hpost.1, hpost.2.congr (update_irq m.frame (some fr')).2⟩

theorem Safe.next (hfw : fw.Safe I) (h : m.Safe I) {e : ProcessorEvent fw}
    (hm : next fw m e = some m') : m'.Safe I := by
  cases e with
  | interrupt i => exact h.interrupt hfw hm
  | step => exact h.step hm
  | command c =>
    rw [Processor.next, Option.ite_none_right_eq_some] at hm
    obtain ⟨⟨-, hirq, htask⟩, hm⟩ := hm
    obtain rfl := Option.some_inj.1 hm
    have hok : I.ok m.objs m.pool.nonEmpty := by
      rw [safe_of_task hirq] at h
      rcases h with ⟨hok, -⟩ | ⟨fr, hfr, -⟩
      · exact hok
      · exact nomatch htask.symm.trans hfr
    refine (safe_of_task ?_).2
      (.inr ⟨⟨fw.command c, none⟩, (update_task m.frame _).1, hfw.command c _ _ hok⟩)
    exact (update_task m.frame (some ⟨fw.command c, none⟩)).2.trans hirq
  | shutdown order =>
    obtain rfl := Option.some_inj.1 hm
    exact .inl ⟨hfw.shutdown order m.pool m.objs, rfl⟩
  | clearShutdown =>
    obtain rfl := Option.some_inj.1 hm
    exact h

/-- For safe handlers the precondition of what is running holds in every reachable state. -/
theorem safe_of_reachable {init : Processor σ ι → Prop} (hfw : fw.Safe I)
    (hinit : ∀ m, init m → m.Safe I) (h : (fw.system init).Reachable m) : m.Safe I :=
  h.invariant (I := fun m => m.Safe I) hinit fun _ _ _ hi _ hm => hi.next hfw hm

/-- Where the first item of a queue is taken, the queue is not empty. -/
theorem Safe.nonEmpty_of_pop (h : m.Safe I) {q : ι} {k : ℕ → Code σ ι} {held : Option ℕ}
    (hfr : m.frame m.running = some ⟨.pop q k, held⟩) : m.pool.nonEmpty q = true := by
  cases hirq : m.frame .irq with
  | none =>
    have hrunning : m.running = .task := by rw [running, hirq]; rfl
    rw [hrunning] at hfr
    rw [safe_of_task hirq] at h
    rcases h with ⟨-, hnone⟩ | ⟨fr, hfr', hsafe⟩
    · exact nomatch hnone.symm.trans hfr
    · rw [Option.some_inj.1 (hfr'.symm.trans hfr)] at hsafe
      exact hsafe.1
  | some fr =>
    have hrunning : m.running = .irq := by rw [running, hirq]; rfl
    rw [hrunning] at hfr
    rw [safe_of_irq hfr] at h
    exact h.1

end Processor

end Thinker
