import Thinker.HomingStop
import Thinker.SerialReader

/-!
# Queries get their own answers

The handler of a query keeps the last message of its name and oid. This is an answer to it if
nothing else interferes (`SerialReader.Undisturbed`) : no other handler takes its place, and
where some other message is received, an answer is still to come and is not lost.

The invariant follows the last command of a transmission : it is on its way to the
micro-controller, or else its notification is on its way back, behind its answer
(`SerialReader.Transit`).
-/

set_option linter.unusedSectionVars false

namespace Thinker

variable {μ ε γ M κ : Type*} [DecidableEq κ]

/-! ## Undisturbed queries -/

/-- Nothing but answers to the query has been received. -/
def SerialRetryCommand.Alone (x : SerialRetryCommand γ M κ) (q : ℕ) : Prop :=
  ∀ p ∈ x.heard, p.1 = some q

instance (x : SerialRetryCommand γ M κ) (q : ℕ) : Decidable (x.Alone q) :=
  inferInstanceAs (Decidable (∀ p ∈ x.heard, p.1 = some q))

/-- Whether a frame is an answer to a query of this name and oid. -/
def QueryFrame.isAnswer (key : M → κ) (q : ℕ) (k : κ) : QueryFrame M → Bool
  | .msg query params => decide (query = some q) && decide (key params = k)
  | .ack _ => false

namespace SerialReader

variable (key : M → κ) (s : SerialReader μ γ M κ)

/-- No query of this name and oid is in progress. -/
def Free (k : κ) : Prop :=
  ∀ q < s.count, ∀ x ∈ s.queries q, x.key = k → x.phase.isDone = true

instance (k : κ) : Decidable (s.Free k) :=
  inferInstanceAs (Decidable (∀ q < s.count, ∀ x ∈ s.queries q, x.key = k → x.phase.isDone = true))

/-- An answer to a query is still to come : a transmission is to be made, to be executed, or its
answer is on its way. -/
def AnswerAhead (q : ℕ) (x : SerialRetryCommand γ M κ) : Prop :=
  (match x.phase with
    | .pausing => true
    | _ => false) = true ∨
  (∃ c ∈ s.toMcu, c.query = some q ∧ c.notify = true) ∨
  ∃ f ∈ s.fromMcu, f.isAnswer key q x.key = true

instance (q : ℕ) (x : SerialRetryCommand γ M κ) : Decidable (s.AnswerAhead key q x) :=
  inferInstanceAs (Decidable (_ ∨ _ ∨ _))

/-- The next command is executed undisturbed : it is answered, or nothing else has been received
since its query was made. -/
def ExecUndisturbed (D : QueryMcu μ ε γ M) : Prop :=
  ∀ c ∈ s.toMcu.head?, c.notify = true → ∀ q ∈ c.query, ∀ x ∈ s.queries q,
    x.Alone q ∨ ((D.exec s.mcu c.cmd).any fun r => r.2.any fun m => decide (key m = x.key)) = true

instance (D : QueryMcu μ ε γ M) : Decidable (s.ExecUndisturbed key D) :=
  inferInstanceAs (Decidable (∀ c ∈ s.toMcu.head?, c.notify = true → ∀ q ∈ c.query,
    ∀ x ∈ s.queries q, _ ∨ _))

/-- The next message is received undisturbed : if it is no answer to the query whose handler it
comes to, then an answer is still to come. -/
def ReceiveUndisturbed : Prop :=
  match s.fromMcu with
  | .msg query params :: _ =>
    match s.handlers (key params) with
    | some (.query q) => query = some q ∨ ∀ x ∈ s.queries q, s.AnswerAhead key q x
    | _ => True
  | _ => True

instance : Decidable (s.ReceiveUndisturbed key) := by
  unfold ReceiveUndisturbed
  split
  · split <;> infer_instance
  · infer_instance

/-- The next message is lost undisturbed : if it is an answer to a query, then nothing else has
been received since the query was made. -/
def LoseUndisturbed : Prop :=
  match s.fromMcu with
  | .msg (some q) params :: _ => ∀ x ∈ s.queries q, key params = x.key → x.Alone q
  | _ => True

instance : Decidable (s.LoseUndisturbed key) := by
  unfold LoseUndisturbed
  split <;> infer_instance

/-- The event does not disturb a query. -/
def Undisturbed (D : QueryMcu μ ε γ M) : SerialEvent ε γ κ → Prop
  | .query k _ _ => s.Free k
  | .register k => s.Free k
  | .unregister k => s.Free k
  | .exec => s.ExecUndisturbed key D
  | .receive => s.ReceiveUndisturbed key
  | .lose => s.LoseUndisturbed key
  | _ => True

instance (D : QueryMcu μ ε γ M) (a : SerialEvent ε γ κ) : Decidable (s.Undisturbed key D a) := by
  cases a <;> unfold Undisturbed <;> infer_instance

end SerialReader

/-! ## A transmission under way -/

/-- Nothing of a query is on its way back. -/
def NoFrames (q : ℕ) (back : List (QueryFrame M)) : Prop :=
  ∀ f ∈ back, f ≠ .ack q ∧ ∀ params, f ≠ .msg (some q) params

/-- Nothing of a query is on its way. -/
structure Idle (q : ℕ) (out : List (Transmission γ)) (back : List (QueryFrame M)) : Prop where
  out : ∀ c ∈ out, c.query ≠ some q
  back : NoFrames q back

/-- The last command of a transmission is to be executed. -/
structure Pending (q : ℕ) (out : List (Transmission γ)) (back : List (QueryFrame M)) : Prop where
  out : ∃ pre last post, out = pre ++ last :: post ∧ last.query = some q ∧ last.notify = true ∧
    (∀ c ∈ pre, c.query = some q → c.notify = false) ∧ ∀ c ∈ post, c.query ≠ some q
  back : ∀ f ∈ back, f ≠ .ack q

/-- A transmission has been executed, and its notification is on its way. -/
structure Notified (q : ℕ) (out : List (Transmission γ)) (back : List (QueryFrame M)) :
    Prop where
  out : ∀ c ∈ out, c.query ≠ some q
  back : ∃ l r, back = l ++ .ack q :: r ∧ (∀ f ∈ l, f ≠ .ack q) ∧ NoFrames q r

section Transit

variable {q : ℕ} {c : Transmission γ} {out out' : List (Transmission γ)} {f : QueryFrame M}
  {back back' : List (QueryFrame M)}

theorem forall_mem_append {α : Type*} {P : α → Prop} {l l' : List α} (h : ∀ a ∈ l, P a)
    (h' : ∀ a ∈ l', P a) : ∀ a ∈ l ++ l', P a := by
  intro a ha
  rcases List.mem_append.1 ha with ha | ha
  · exact h a ha
  · exact h' a ha

theorem Idle.send (h : Idle q out back) (hout : ∀ c ∈ out', c.query ≠ some q) :
    Idle q (out ++ out') back :=
  ⟨forall_mem_append h.out hout, h.back⟩

theorem Pending.send (h : Pending q out back) (hout : ∀ c ∈ out', c.query ≠ some q) :
    Pending q (out ++ out') back := by
  obtain ⟨pre, last, post, heq, hquery, hnotify, hpre, hpost⟩ := h.out
  refine ⟨⟨pre, last, post ++ out', ?_, hquery, hnotify, hpre, forall_mem_append hpost hout⟩,
    h.back⟩
  rw [heq, List.append_assoc, List.cons_append]

theorem Notified.send (h : Notified q out back) (hout : ∀ c ∈ out', c.query ≠ some q) :
    Notified q (out ++ out') back :=
  ⟨forall_mem_append h.out hout, h.back⟩

theorem Idle.answer (h : Idle q out back) (hback : NoFrames q back') :
    Idle q out (back ++ back') :=
  ⟨h.out, forall_mem_append h.back hback⟩

theorem Pending.answer (h : Pending q out back) (hback : ∀ f ∈ back', f ≠ .ack q) :
    Pending q out (back ++ back') :=
  ⟨h.out, forall_mem_append h.back hback⟩

theorem Notified.answer (h : Notified q out back) (hback : NoFrames q back') :
    Notified q out (back ++ back') := by
  obtain ⟨l, r, heq, hl, hr⟩ := h.back
  refine ⟨h.out, l, r ++ back', ?_, hl, forall_mem_append hr hback⟩
  rw [heq, List.append_assoc, List.cons_append]

theorem Idle.tail (h : Idle q (c :: out) back) : Idle q out back :=
  ⟨fun c' hc' => h.out c' (List.mem_cons_of_mem c hc'), h.back⟩

theorem Notified.tail (h : Notified q (c :: out) back) : Notified q out back :=
  ⟨fun c' hc' => h.out c' (List.mem_cons_of_mem c hc'), h.back⟩

/-- A command is executed that does not end the transmission. -/
theorem Pending.tail (h : Pending q (c :: out) back)
    (hc : c.query = some q → c.notify = false) : Pending q out back := by
  obtain ⟨pre, last, post, heq, hquery, hnotify, hpre, hpost⟩ := h.out
  cases pre with
  | nil =>
    obtain ⟨rfl, -⟩ := List.cons.inj heq
    exact absurd (hnotify.symm.trans (hc hquery)) (by decide)
  | cons c' pre =>
    exact ⟨⟨pre, last, post, (List.cons.inj heq).2, hquery, hnotify,
      fun d hd => hpre d (List.mem_cons_of_mem c' hd), hpost⟩, h.back⟩

/-- The last command of a transmission is executed. -/
theorem Pending.notified (h : Pending q (c :: out) back) (hquery : c.query = some q)
    (hnotify : c.notify = true) (hback : ∀ f ∈ back', f ≠ .ack q) :
    Notified q out (back ++ back' ++ [.ack q]) := by
  obtain ⟨pre, last, post, heq, -, -, hpre, hpost⟩ := h.out
  cases pre with
  | nil =>
    obtain ⟨-, rfl⟩ := List.cons.inj heq
    exact ⟨hpost, back ++ back', [], rfl, forall_mem_append h.back hback,
      fun f hf => absurd hf List.not_mem_nil⟩
  | cons c' pre =>
    obtain ⟨rfl, -⟩ := List.cons.inj heq
    exact absurd (hnotify.symm.trans (hpre c List.mem_cons_self hquery)) (by decide)

theorem Idle.drop (h : Idle q out (f :: back)) : Idle q out back :=
  ⟨h.out, fun f' hf' => h.back f' (List.mem_cons_of_mem f hf')⟩

theorem Pending.drop (h : Pending q out (f :: back)) : Pending q out back :=
  ⟨h.out, fun f' hf' => h.back f' (List.mem_cons_of_mem f hf')⟩

theorem Notified.drop (h : Notified q out (f :: back)) (hf : f ≠ .ack q) :
    Notified q out back := by
  obtain ⟨l, r, heq, hl, hr⟩ := h.back
  cases l with
  | nil => exact absurd (List.cons.inj heq).1 hf
  | cons f' l =>
    exact ⟨h.out, l, r, (List.cons.inj heq).2, fun g hg => hl g (List.mem_cons_of_mem f' hg), hr⟩

/-- The notification arrives. -/
theorem Notified.idle (h : Notified q out (.ack q :: back)) : Idle q out back := by
  obtain ⟨l, r, heq, hl, hr⟩ := h.back
  cases l with
  | nil =>
    obtain ⟨-, rfl⟩ := List.cons.inj heq
    exact ⟨h.out, hr⟩
  | cons f l =>
    obtain ⟨rfl, -⟩ := List.cons.inj heq
    exact absurd rfl (hl _ List.mem_cons_self)

theorem isAnswer_iff {key : M → κ} {k : κ} :
    f.isAnswer key q k = true ↔ ∃ params, f = .msg (some q) params ∧ key params = k := by
  cases f with
  | ack q' =>
    refine ⟨fun hf => (by cases hf), ?_⟩
    rintro ⟨params, hf, -⟩
    cases hf
  | msg query params =>
    unfold QueryFrame.isAnswer
    rw [Bool.and_eq_true, decide_eq_true_iff, decide_eq_true_iff]
    constructor
    · rintro ⟨rfl, hk⟩
      exact ⟨params, rfl, hk⟩
    · rintro ⟨params', heq, hk⟩
      obtain ⟨rfl, rfl⟩ := QueryFrame.msg.inj heq
      exact ⟨rfl, hk⟩

theorem NoFrames.not_isAnswer (h : NoFrames q back) (key : M → κ) (k : κ) :
    ¬∃ f ∈ back, f.isAnswer key q k = true := by
  rintro ⟨f, hf, hanswer⟩
  obtain ⟨params, heq, -⟩ := isAnswer_iff.1 hanswer
  exact (h f hf).2 params heq

end Transit

/-! ## The invariant -/

/-- The last message that the handler was called with is an answer. -/
def SerialRetryCommand.Own (x : SerialRetryCommand γ M κ) (q : ℕ) : Prop :=
  ∀ p ∈ x.heard.getLast?, p.1 = some q

theorem SerialRetryCommand.Alone.own {x : SerialRetryCommand γ M κ} {q : ℕ} (h : x.Alone q) :
    x.Own q :=
  fun p hp => h p (List.mem_of_getLast? hp)

namespace SerialReader

/-- What holds of a query. -/
structure QueryInv (key : M → κ) (s : SerialReader μ γ M κ) (q : ℕ)
    (x : SerialRetryCommand γ M κ) : Prop where
  handler : x.phase.isDone = false → s.handlers x.key = some (.query q)
  lastParams : x.lastParams = x.heard.getLast?.map Prod.snd
  logged : ∀ m, (some q, m) ∈ x.heard → ∃ mcu, (q, m, mcu) ∈ s.answers
  waiting : x.phase = .waiting → Pending q s.toMcu s.fromMcu ∨
    Notified q s.toMcu s.fromMcu ∧ (x.Own q ∨ ∃ f ∈ s.fromMcu, f.isAnswer key q x.key = true)
  idle : x.phase ≠ .waiting → Idle q s.toMcu s.fromMcu
  acked : x.phase = .acked → x.Own q
  transmissions : x.phase = .waiting ∨ x.phase = .acked → x.transmissions + x.retries = 6
  pausing : x.phase = .pausing → x.transmissions + x.retries = 5
  ok : ∀ m, x.phase = .done (.ok m) → ∃ mcu, (q, m, mcu) ∈ s.answers
  error : x.phase = .done .error → x.transmissions = 6
  keyError : x.phase ≠ .done .keyError

/-- What holds in every state. -/
structure Inv (key : M → κ) (s : SerialReader μ γ M κ) : Prop where
  query : ∀ q x, s.queries q = some x → s.QueryInv key q x
  unmade : ∀ q, s.queries q = none → Idle q s.toMcu s.fromMcu
  count : ∀ q, s.count ≤ q → s.queries q = none
  handlers : ∀ k q, s.handlers k = some (.query q) →
    ∃ x, s.queries q = some x ∧ x.key = k ∧ x.phase.isDone = false
  answers : ∀ q m, .msg (some q) m ∈ s.fromMcu → ∃ mcu, (q, m, mcu) ∈ s.answers

variable {key : M → κ} {s t : SerialReader μ γ M κ} {q : ℕ} {x : SerialRetryCommand γ M κ}

/-- What happens elsewhere. -/
theorem QueryInv.congr (h : s.QueryInv key q x)
    (hhandler : x.phase.isDone = false → t.handlers x.key = s.handlers x.key)
    (hanswers : s.answers ⊆ t.answers)
    (hidle : Idle q s.toMcu s.fromMcu → Idle q t.toMcu t.fromMcu)
    (hwaiting : x.phase = .waiting → Pending q t.toMcu t.fromMcu ∨
      Notified q t.toMcu t.fromMcu ∧
        (x.Own q ∨ ∃ f ∈ t.fromMcu, f.isAnswer key q x.key = true)) :
    t.QueryInv key q x := by
  refine ⟨fun hdone => (hhandler hdone).trans (h.handler hdone), h.lastParams, fun m hm => ?_,
    hwaiting, fun hphase => hidle (h.idle hphase), h.acked, h.transmissions, h.pausing,
    fun m hm => ?_, h.error, h.keyError⟩
  · obtain ⟨mcu, hmcu⟩ := h.logged m hm
    exact ⟨mcu, hanswers hmcu⟩
  · obtain ⟨mcu, hmcu⟩ := h.ok m hm
    exact ⟨mcu, hanswers hmcu⟩

/-- Only what is on its way changes. -/
theorem Inv.congr (h : s.Inv key) (hqueries : t.queries = s.queries) (hcount : t.count = s.count)
    (hhandlers : t.handlers = s.handlers) (hanswers : s.answers ⊆ t.answers)
    (hidle : ∀ q, Idle q s.toMcu s.fromMcu → Idle q t.toMcu t.fromMcu)
    (hwaiting : ∀ q x, s.queries q = some x → x.phase = .waiting →
      Pending q t.toMcu t.fromMcu ∨ Notified q t.toMcu t.fromMcu ∧
        (x.Own q ∨ ∃ f ∈ t.fromMcu, f.isAnswer key q x.key = true))
    (hframes : ∀ q m, .msg (some q) m ∈ t.fromMcu → ∃ mcu, (q, m, mcu) ∈ t.answers) :
    t.Inv key := by
  refine ⟨fun q x hx => ?_, fun q hq => ?_, ?_, ?_, hframes⟩
  · rw [hqueries] at hx
    exact (h.query q x hx).congr (fun _ => by rw [hhandlers]) hanswers (hidle q)
      (hwaiting q x hx)
  · rw [hqueries] at hq
    exact hidle q (h.unmade q hq)
  · rw [hqueries, hcount]
    exact h.count
  · rw [hqueries, hhandlers]
    exact h.handlers

theorem inv_start (mcu : μ) : (start mcu : SerialReader μ γ M κ).Inv key := by
  refine ⟨fun q x hx => (by cases hx), fun q _ => ⟨fun c hc => (by cases hc),
    fun f hf => (by cases hf)⟩, fun _ _ => rfl, fun k q hk => (by cases hk),
    fun q m hm => (by cases hm)⟩

/-- A query whose transmissions have all been acknowledged starts another one. -/
theorem pending_transmission {out : List (Transmission γ)}
    {back : List (QueryFrame M)} (h : Idle q out back) (preface : List γ) (cmd : γ) :
    Pending q (out ++ transmission q preface cmd) back := by
  refine ⟨⟨out ++ preface.map fun c => ⟨some q, c, false⟩, ⟨some q, cmd, true⟩, [], ?_, rfl, rfl,
    fun c hc hquery => ?_, fun c hc => absurd hc List.not_mem_nil⟩, fun f hf => (h.back f hf).1⟩
  · rw [List.append_assoc]
    rfl
  · rcases List.mem_append.1 hc with hc | hc
    · exact absurd hquery (h.out c hc)
    · obtain ⟨c', -, rfl⟩ := List.mem_map.1 hc
      rfl

theorem query_of_mem_transmission {preface : List γ} {cmd : γ} {c : Transmission γ}
    (hc : c ∈ transmission q preface cmd) : c.query = some q := by
  rcases List.mem_append.1 hc with hc | hc
  · obtain ⟨c', -, rfl⟩ := List.mem_map.1 hc
    rfl
  · rw [List.mem_singleton.1 hc]

/-- Another query's transmission is sent. -/
theorem Inv.transit_send (h : s.Inv key) {out : List (Transmission γ)}
    (hout : ∀ c ∈ out, c.query ≠ some q) :
    (Idle q s.toMcu s.fromMcu → Idle q (s.toMcu ++ out) s.fromMcu) ∧
    ∀ x, s.queries q = some x → x.phase = .waiting → Pending q (s.toMcu ++ out) s.fromMcu ∨
      Notified q (s.toMcu ++ out) s.fromMcu ∧
        (x.Own q ∨ ∃ f ∈ s.fromMcu, f.isAnswer key q x.key = true) := by
  refine ⟨fun hidle => hidle.send hout, fun x hx hphase => ?_⟩
  rcases (h.query q x hx).waiting hphase with hpending | ⟨hnotified, hown⟩
  · exact Or.inl (hpending.send hout)
  · exact Or.inr ⟨hnotified.send hout, hown⟩

theorem Inv.send (h : s.Inv key) (cmd : γ) :
    Inv key { s with toMcu := s.toMcu ++ [⟨none, cmd, false⟩] } := by
  have hout : ∀ q, ∀ c ∈ [(⟨none, cmd, false⟩ : Transmission γ)], c.query ≠ some q := by
    intro q c hc hquery
    rw [List.mem_singleton.1 hc] at hquery
    cases hquery
  exact h.congr rfl rfl rfl (fun _ ha => ha) (fun q => (h.transit_send (hout q)).1)
    (fun q => (h.transit_send (hout q)).2) h.answers

theorem Inv.makeQuery (h : s.Inv key) {k : κ} (hfree : s.Free k) (preface : List γ) (cmd : γ) :
    (s.makeQuery k preface cmd).Inv key := by
  have hidle := h.unmade s.count (h.count _ le_rfl)
  have hout : ∀ q, q ≠ s.count → ∀ c ∈ transmission s.count preface cmd, c.query ≠ some q := by
    intro q hq c hc hquery
    rw [query_of_mem_transmission hc] at hquery
    exact hq (Option.some_inj.1 hquery).symm
  have hkey : ∀ q x, s.queries q = some x → x.phase.isDone = false → x.key ≠ k := by
    intro q x hx hdone hk
    have hlt : q < s.count := by
      by_contra hle
      rw [h.count q (not_lt.1 hle)] at hx
      cases hx
    exact absurd ((hfree q hlt x hx hk).symm.trans hdone) (by decide)
  refine ⟨fun q x hx => ?_, fun q hq => ?_, fun q hq => ?_, fun k' q hk' => ?_, h.answers⟩
  · change Function.update s.queries s.count _ q = some x at hx
    by_cases hq : q = s.count
    · rw [hq, Function.update_self] at hx
      rw [hq, ← Option.some_inj.1 hx]
      refine ⟨fun _ => Function.update_self .., rfl, fun m hm => (by cases hm),
        fun _ => Or.inl (pending_transmission hidle preface cmd), fun hne => absurd rfl hne,
        fun hf => (by cases hf), fun _ => rfl, fun hf => (by cases hf), fun m hm => (by cases hm),
        fun hf => (by cases hf), fun hf => (by cases hf)⟩
    · rw [Function.update_of_ne hq] at hx
      obtain ⟨hidle', hwaiting⟩ := h.transit_send (hout q hq)
      exact (h.query q x hx).congr
        (fun hdone => Function.update_of_ne (hkey q x hx hdone) _ _) (fun _ ha => ha) hidle'
        (hwaiting x hx)
  · change Function.update s.queries s.count _ q = none at hq
    by_cases hne : q = s.count
    · rw [hne, Function.update_self] at hq
      cases hq
    · rw [Function.update_of_ne hne] at hq
      exact (h.transit_send (hout q hne)).1 (h.unmade q hq)
  · show Function.update s.queries s.count _ q = none
    change s.count + 1 ≤ q at hq
    rw [Function.update_of_ne (by omega)]
    exact h.count q (by omega)
  · change Function.update s.handlers k _ k' = _ at hk'
    show ∃ x, Function.update s.queries s.count _ q = some x ∧ _
    by_cases hk : k' = k
    · rw [hk, Function.update_self] at hk'
      have hq := ResponseHandler.query.inj (Option.some_inj.1 hk')
      rw [← hq, Function.update_self]
      exact ⟨_, rfl, hk.symm, rfl⟩
    · rw [Function.update_of_ne hk] at hk'
      obtain ⟨x, hx, hxk, hdone⟩ := h.handlers k' q hk'
      have hq : q ≠ s.count := by
        rintro rfl
        rw [h.count s.count le_rfl] at hx
        cases hx
      rw [Function.update_of_ne hq]
      exact ⟨x, hx, hxk, hdone⟩

/-- Messages are sent that answer nothing. -/
theorem Inv.mcu (h : s.Inv key) (mcu : μ) (msgs : List M) :
    Inv key { s with mcu := mcu, fromMcu := s.fromMcu ++ msgs.map (.msg none) } := by
  have hnone : ∀ q, NoFrames q (msgs.map (QueryFrame.msg none)) := by
    intro q f hf
    obtain ⟨m, -, rfl⟩ := List.mem_map.1 hf
    exact ⟨fun heq => (by cases heq), fun params heq => (by cases heq)⟩
  refine h.congr rfl rfl rfl (fun _ ha => ha) (fun q hidle => hidle.answer (hnone q))
    (fun q x hx hphase => ?_) fun q m hm => ?_
  · rcases (h.query q x hx).waiting hphase with hpending | ⟨hnotified, hown⟩
    · exact Or.inl (hpending.answer fun f hf => (hnone q f hf).1)
    · refine Or.inr ⟨hnotified.answer (hnone q), hown.imp_right ?_⟩
      rintro ⟨f, hf, hanswer⟩
      exact ⟨f, List.mem_append_left _ hf, hanswer⟩
  · rcases List.mem_append.1 hm with hm | hm
    · exact h.answers q m hm
    · exact absurd rfl ((hnone q _ hm).2 m)

/-- The frames that the execution of a command sends. -/
def execFrames (c : Transmission γ) (reply : Option M) : List (QueryFrame M) :=
  reply.toList.map (.msg c.query) ++ if c.notify then c.query.toList.map .ack else []

theorem noFrames_execFrames {c : Transmission γ} (hc : c.query ≠ some q) (reply : Option M) :
    NoFrames q (execFrames c reply) := by
  intro f hf
  unfold execFrames at hf
  rcases List.mem_append.1 hf with hf | hf
  · obtain ⟨m, -, rfl⟩ := List.mem_map.1 hf
    exact ⟨fun heq => (by cases heq), fun params heq => hc (QueryFrame.msg.inj heq).1⟩
  · split_ifs at hf
    · obtain ⟨q', hq', rfl⟩ := List.mem_map.1 hf
      refine ⟨fun heq => ?_, fun params heq => (by cases heq)⟩
      rw [QueryFrame.ack.inj heq] at hq'
      exact hc (Option.mem_toList.1 hq')
    · exact absurd hf List.not_mem_nil

/-- A command is executed, and answered. -/
theorem Inv.exec (h : s.Inv key) {c : Transmission γ} {rest : List (Transmission γ)}
    (hout : s.toMcu = c :: rest) (mcu : μ) (reply : Option M)
    (hundisturbed : c.notify = true → ∀ q ∈ c.query, ∀ x ∈ s.queries q,
      x.Alone q ∨ ∃ m ∈ reply, key m = x.key) :
    Inv key { s with
      mcu := mcu
      toMcu := rest
      fromMcu := s.fromMcu ++ execFrames c reply
      answers := s.answers ++ c.query.toList.flatMap fun q =>
        reply.toList.map fun params => (q, params, mcu) } := by
  refine h.congr rfl rfl rfl (fun _ ha => List.mem_append_left _ ha) (fun q hidle => ?_)
    (fun q x hx hphase => ?_) fun q m hm => ?_
  · rw [hout] at hidle
    exact hidle.tail.answer (noFrames_execFrames (hidle.out c List.mem_cons_self) reply)
  · have hwaiting := (h.query q x hx).waiting hphase
    rw [hout] at hwaiting
    by_cases hc : c.query = some q
    · -- a waiting query has not been executed to its end
      rcases hwaiting with hpending | ⟨hnotified, -⟩
      · have hmsgs : ∀ f ∈ reply.toList.map (QueryFrame.msg c.query), f ≠ .ack q := by
          intro f hf heq
          obtain ⟨m, -, rfl⟩ := List.mem_map.1 hf
          cases heq
        cases hnotify : c.notify with
        | false =>
          refine Or.inl (hpending.tail (fun _ => hnotify) |>.answer fun f hf => ?_)
          unfold execFrames at hf
          rw [hnotify, if_neg Bool.false_ne_true, List.append_nil] at hf
          exact hmsgs f hf
        | true =>
          right
          have hframes : execFrames c reply =
              reply.toList.map (QueryFrame.msg c.query) ++ [.ack q] := by
            unfold execFrames
            rw [hnotify, if_pos rfl, hc]
            rfl
          show Notified q rest (s.fromMcu ++ execFrames c reply) ∧ (_ ∨
            ∃ f ∈ s.fromMcu ++ execFrames c reply, _)
          rw [hframes, ← List.append_assoc]
          refine ⟨hpending.notified hc hnotify hmsgs, ?_⟩
          rcases hundisturbed hnotify q hc x hx with halone | ⟨m, hm, hk⟩
          · exact Or.inl halone.own
          · refine Or.inr ⟨.msg (some q) m, ?_, isAnswer_iff.2 ⟨m, rfl, hk⟩⟩
            refine List.mem_append_left _ (List.mem_append_right _ ?_)
            rw [hc]
            exact List.mem_map.2 ⟨m, Option.mem_toList.2 hm, rfl⟩
      · exact absurd hc (hnotified.out c List.mem_cons_self)
    · have hframes := noFrames_execFrames hc reply
      rcases hwaiting with hpending | ⟨hnotified, hown⟩
      · exact Or.inl (hpending.tail (fun hq => absurd hq hc) |>.answer fun f hf =>
          (hframes f hf).1)
      · refine Or.inr ⟨hnotified.tail.answer hframes, hown.imp_right ?_⟩
        rintro ⟨f, hf, hanswer⟩
        exact ⟨f, List.mem_append_left _ hf, hanswer⟩
  · rcases List.mem_append.1 hm with hm | hm
    · obtain ⟨mcu', hmcu'⟩ := h.answers q m hm
      exact ⟨mcu', List.mem_append_left _ hmcu'⟩
    · unfold execFrames at hm
      rcases List.mem_append.1 hm with hm | hm
      · obtain ⟨m', hm', heq⟩ := List.mem_map.1 hm
        obtain ⟨hc, rfl⟩ := QueryFrame.msg.inj heq
        refine ⟨mcu, List.mem_append_right _ ?_⟩
        rw [hc]
        exact List.mem_flatMap.2 ⟨q, Option.mem_toList.2 rfl, List.mem_map.2 ⟨m', hm', rfl⟩⟩
      · split_ifs at hm
        · obtain ⟨q', -, heq⟩ := List.mem_map.1 hm
          cases heq
        · exact absurd hm List.not_mem_nil

/-- A message is lost. -/
theorem Inv.lose (h : s.Inv key) {f : QueryFrame M} {rest : List (QueryFrame M)}
    (hback : s.fromMcu = f :: rest) (hmsg : ∀ q, f ≠ .ack q)
    (hundisturbed : ∀ q x, s.queries q = some x → f.isAnswer key q x.key = true → x.Own q) :
    Inv key { s with fromMcu := rest } := by
  refine h.congr rfl rfl rfl (fun _ ha => ha) (fun q hidle => ?_) (fun q x hx hphase => ?_)
    fun q m hm => h.answers q m (hback ▸ List.mem_cons_of_mem f hm)
  · rw [hback] at hidle
    exact hidle.drop
  · have hwaiting := (h.query q x hx).waiting hphase
    rw [hback] at hwaiting
    rcases hwaiting with hpending | ⟨hnotified, hown⟩
    · exact Or.inl hpending.drop
    · refine Or.inr ⟨hnotified.drop (hmsg q), ?_⟩
      rcases hown with hown | ⟨f', hf', hanswer⟩
      · exact Or.inl hown
      · rcases List.mem_cons.1 hf' with rfl | hf'
        · exact Or.inl (hundisturbed q x hx hanswer)
        · exact Or.inr ⟨f', hf', hanswer⟩

/-- A query is replaced, and the others go on as before. -/
theorem Inv.replace (h : s.Inv key) (hx : s.queries q = some x)
    {x' : SerialRetryCommand γ M κ} (hqueries : t.queries = Function.update s.queries q (some x'))
    (hcount : t.count = s.count) (hx' : t.QueryInv key q x')
    (hothers : ∀ q' ≠ q, ∀ y, s.queries q' = some y → t.QueryInv key q' y)
    (hidle : ∀ q' ≠ q, Idle q' s.toMcu s.fromMcu → Idle q' t.toMcu t.fromMcu)
    (hhandlers : ∀ k q', t.handlers k = some (.query q') → s.handlers k = some (.query q') ∧
      (q' = q → k = x.key → k = x'.key ∧ x'.phase.isDone = false))
    (hanswers : ∀ q m, .msg (some q) m ∈ t.fromMcu → ∃ mcu, (q, m, mcu) ∈ t.answers) :
    t.Inv key := by
  refine ⟨fun q' y hy => ?_, fun q' hq' => ?_, fun q' hq' => ?_, fun k q' hk => ?_, hanswers⟩
  · rw [hqueries] at hy
    by_cases hq : q' = q
    · rw [hq, Function.update_self] at hy
      rw [hq, ← Option.some_inj.1 hy]
      exact hx'
    · rw [Function.update_of_ne hq] at hy
      exact hothers q' hq y hy
  · rw [hqueries] at hq'
    by_cases hq : q' = q
    · rw [hq, Function.update_self] at hq'
      cases hq'
    · rw [Function.update_of_ne hq] at hq'
      exact hidle q' hq (h.unmade q' hq')
  · have hnone := h.count q' (hcount ▸ hq')
    have hq : q' ≠ q := by
      rintro rfl
      rw [hx] at hnone
      cases hnone
    rw [hqueries, Function.update_of_ne hq]
    exact hnone
  · obtain ⟨hk, hself⟩ := hhandlers k q' hk
    obtain ⟨y, hy, hyk, hdone⟩ := h.handlers k q' hk
    by_cases hq : q' = q
    · rw [hq, hx] at hy
      obtain ⟨hkey, hdone'⟩ := hself hq (Option.some_inj.1 hy ▸ hyk.symm)
      exact ⟨x', by rw [hqueries, hq, Function.update_self], hkey.symm, hdone'⟩
    · exact ⟨y, by rw [hqueries, Function.update_of_ne hq, hy], hyk, hdone⟩

/-- A query in progress goes on. -/
theorem Inv.setQuery (h : s.Inv key) (hx : s.queries q = some x)
    {x' : SerialRetryCommand γ M κ} (hx' : (s.setQuery q x').QueryInv key q x')
    (hkey : x'.key = x.key) (hdone : x'.phase.isDone = false) : (s.setQuery q x').Inv key :=
  h.replace hx rfl rfl hx'
    (fun q' _ y hy => (h.query q' y hy).congr (fun _ => rfl) (fun _ ha => ha) id
      (h.query q' y hy).waiting)
    (fun _ _ hidle => hidle) (fun _ _ hk => ⟨hk, fun _ heq => ⟨heq.trans hkey.symm, hdone⟩⟩)
    h.answers

/-- An answer on its way belongs to a query in progress, whose handler it will come to. -/
theorem Inv.handler_of_isAnswer (h : s.Inv key) {f : QueryFrame M} (hf : f ∈ s.fromMcu)
    (hx : s.queries q = some x) (hanswer : f.isAnswer key q x.key = true) :
    s.handlers x.key = some (.query q) := by
  have hquery := h.query q x hx
  have hwaiting : x.phase = .waiting := by
    by_contra hne
    exact (hquery.idle hne).back.not_isAnswer key x.key ⟨f, hf, hanswer⟩
  exact hquery.handler (by rw [hwaiting]; rfl)

/-- A message is received. -/
theorem Inv.handle (h : s.Inv key) {query : Option ℕ} {m : M} {rest : List (QueryFrame M)}
    (hback : s.fromMcu = .msg query m :: rest)
    (hundisturbed : ∀ q, s.handlers (key m) = some (.query q) →
      query = some q ∨ ∀ x ∈ s.queries q, s.AnswerAhead key q x) :
    ({ s with fromMcu := rest }.handle key query m).Inv key := by
  have hmem : QueryFrame.msg query m ∈ s.fromMcu := hback ▸ List.mem_cons_self
  unfold SerialReader.handle
  dsimp only
  cases hhandler : s.handlers (key m) with
  | none =>
    refine h.lose hback (fun q heq => (by cases heq)) fun q x hx hanswer => ?_
    obtain ⟨m', heq, hk⟩ := isAnswer_iff.1 hanswer
    obtain ⟨-, rfl⟩ := QueryFrame.msg.inj heq
    have hq := h.handler_of_isAnswer hmem hx hanswer
    rw [← hk, hhandler] at hq
    cases hq
  | some handler =>
    cases handler with
    | callback =>
      refine h.lose hback (fun q heq => (by cases heq)) fun q x hx hanswer => ?_
      obtain ⟨m', heq, hk⟩ := isAnswer_iff.1 hanswer
      obtain ⟨-, rfl⟩ := QueryFrame.msg.inj heq
      have hq := h.handler_of_isAnswer hmem hx hanswer
      rw [← hk, hhandler] at hq
      cases hq
    | query q =>
      obtain ⟨x, hx, hk, hdone⟩ := h.handlers _ _ hhandler
      dsimp only
      rw [hx]
      dsimp only
      have hquery := h.query q x hx
      let x' : SerialRetryCommand γ M κ := { x with
        lastParams := some m
        heard := x.heard ++ [(query, m)] }
      have hown : query = some q → x'.Own q := by
        intro hq p hp
        rw [show x'.heard.getLast? = some (query, m) from List.getLast?_concat] at hp
        rw [← Option.some_inj.1 hp]
        exact hq
      have hx' : (s.setQuery q x').QueryInv key q x' := by
        refine ⟨hquery.handler, ?_, fun m' hm' => ?_, fun hphase => ?_, hquery.idle,
          fun hphase => ?_, hquery.transmissions, hquery.pausing, hquery.ok, hquery.error,
          hquery.keyError⟩
        · rw [show x'.heard.getLast? = some (query, m) from List.getLast?_concat]
          rfl
        · rcases List.mem_append.1 hm' with hm' | hm'
          · exact hquery.logged m' hm'
          · obtain ⟨rfl, rfl⟩ := Prod.mk.inj (List.mem_singleton.1 hm')
            exact h.answers q m' hmem
        · rcases hquery.waiting hphase with hpending | ⟨hnotified, -⟩
          · exact Or.inl hpending
          · refine Or.inr ⟨hnotified, ?_⟩
            rcases hundisturbed q hhandler with hq | hahead
            · exact Or.inl (hown hq)
            · rcases hahead x hx with hpausing | ⟨c, hc, hcq, -⟩ | hanswer
              · change x.phase = .waiting at hphase
                rw [hphase] at hpausing
                cases hpausing
              · exact absurd hcq (hnotified.out c hc)
              · exact Or.inr hanswer
        · -- nothing is to come after the notification
          change x.phase = .acked at hphase
          rcases hundisturbed q hhandler with hq | hahead
          · exact hown hq
          · have hidle := hquery.idle (by rw [hphase]; exact fun hf => (by cases hf))
            rcases hahead x hx with hpausing | ⟨c, hc, hcq, -⟩ | hanswer
            · rw [hphase] at hpausing
              cases hpausing
            · exact absurd hcq (hidle.out c hc)
            · exact absurd hanswer (hidle.back.not_isAnswer key x.key)
      have hset := h.setQuery hx hx' rfl hdone
      refine hset.lose hback (fun q' heq => (by cases heq)) fun q' y hy hanswer => ?_
      have hq' := hset.handler_of_isAnswer hmem hy hanswer
      obtain ⟨m', heq, hky⟩ := isAnswer_iff.1 hanswer
      obtain ⟨hqq, rfl⟩ := QueryFrame.msg.inj heq
      have hq : q' = q := by
        change s.handlers y.key = _ at hq'
        rw [← hky, hhandler] at hq'
        exact (ResponseHandler.query.inj (Option.some_inj.1 hq')).symm
      subst hq
      change Function.update s.queries q' (some x') q' = some y at hy
      rw [Function.update_self] at hy
      rw [← Option.some_inj.1 hy]
      exact hown hqq

/-- A notification is received. -/
theorem Inv.complete (h : s.Inv key) {rest : List (QueryFrame M)}
    (hback : s.fromMcu = .ack q :: rest) :
    ({ s with fromMcu := rest }.complete q).Inv key := by
  have hmem : QueryFrame.ack q ∈ s.fromMcu := hback ▸ List.mem_cons_self
  cases hx : s.queries q with
  | none => exact absurd rfl ((h.unmade q hx).back _ hmem).1
  | some x =>
    have hquery := h.query q x hx
    have hwaiting : x.phase = .waiting := by
      by_contra hne
      exact ((hquery.idle hne).back _ hmem).1 rfl
    -- the query has been executed, and its answer is not behind the notification
    obtain ⟨hidle, hown⟩ : Idle q s.toMcu rest ∧ x.Own q := by
      rcases hquery.waiting hwaiting with hpending | ⟨hnotified, hown⟩
      · exact absurd rfl (hpending.back _ hmem)
      · rw [hback] at hnotified hown
        refine ⟨hnotified.idle, hown.resolve_right ?_⟩
        rintro ⟨f, hf, hanswer⟩
        rcases List.mem_cons.1 hf with rfl | hf
        · cases hanswer
        · exact hnotified.idle.back.not_isAnswer key x.key ⟨f, hf, hanswer⟩
    unfold SerialReader.complete
    dsimp only
    rw [hx]
    dsimp only
    have hothers : ∀ q', Idle q' s.toMcu s.fromMcu → Idle q' s.toMcu rest := by
      intro q' hidle'
      rw [hback] at hidle'
      exact hidle'.drop
    refine h.replace hx rfl rfl ⟨fun _ => hquery.handler (by rw [hwaiting]; rfl),
        hquery.lastParams, hquery.logged, fun hf => (by cases hf), fun _ => hidle, fun _ => hown,
        fun _ => hquery.transmissions (Or.inl hwaiting), fun hf => (by cases hf),
        fun m hf => (by cases hf), fun hf => (by cases hf), fun hf => (by cases hf)⟩
      (fun q' hq y hy => ?_) (fun q' _ => hothers q') (fun _ _ hk => ⟨hk, fun _ heq => ⟨heq, rfl⟩⟩)
      fun q' m hm => h.answers q' m (hback ▸ List.mem_cons_of_mem _ hm)
    have hy' := h.query q' y hy
    refine hy'.congr (fun _ => rfl) (fun _ ha => ha) (hothers q') fun hphase => ?_
    have hy'' := hy'.waiting hphase
    rw [hback] at hy''
    rcases hy'' with hpending | ⟨hnotified, hown'⟩
    · exact Or.inl hpending.drop
    · refine Or.inr ⟨hnotified.drop fun heq => hq (QueryFrame.ack.inj heq).symm, ?_⟩
      refine hown'.imp_right ?_
      rintro ⟨f, hf, hanswer⟩
      rcases List.mem_cons.1 hf with rfl | hf
      · cases hanswer
      · exact ⟨f, hf, hanswer⟩

/-- A handler is registered or removed where no query is in progress. -/
theorem Inv.registerResponse (h : s.Inv key) {k : κ} {handler : Option ResponseHandler}
    (hhandler : ∀ q, handler ≠ some (.query q)) (hfree : s.Free k) :
    (s.registerResponse handler k).Inv key := by
  refine ⟨fun q x hx => ?_, h.unmade, h.count, fun k' q hk' => ?_, h.answers⟩
  · have hquery := h.query q x hx
    refine hquery.congr (fun hdone => ?_) (fun _ ha => ha) id hquery.waiting
    have hlt : q < s.count := by
      by_contra hle
      have hnone := h.count q (not_lt.1 hle)
      change s.queries q = some x at hx
      rw [hx] at hnone
      cases hnone
    refine Function.update_of_ne (fun hk => ?_) _ _
    exact absurd ((hfree q hlt x hx hk).symm.trans hdone) (by decide)
  · change Function.update s.handlers k handler k' = _ at hk'
    by_cases hk : k' = k
    · rw [hk, Function.update_self] at hk'
      exact absurd hk' (hhandler q)
    · rw [Function.update_of_ne hk] at hk'
      exact h.handlers k' q hk'

/-- A query ends. -/
theorem Inv.finish (h : s.Inv key) (hx : s.queries q = some x) (hacked : x.phase = .acked)
    {result : QueryResult M} (hok : ∀ m, result = .ok m → ∃ mcu, (q, m, mcu) ∈ s.answers)
    (herror : result = .error → x.retries = 0) (hkey : result ≠ .keyError) :
    (s.finish q x result).Inv key := by
  have hquery := h.query q x hx
  have hhandler := hquery.handler (by rw [hacked]; rfl)
  unfold SerialReader.finish
  rw [hhandler]
  dsimp only
  refine h.replace hx rfl rfl ⟨fun hf => (by cases hf), hquery.lastParams, hquery.logged,
      fun hf => (by cases hf),
      fun _ => hquery.idle (by rw [hacked]; exact fun hf => (by cases hf)),
      fun hf => (by cases hf), fun hf => ?_, fun hf => (by cases hf), fun m hm => ?_,
      fun hm => ?_, fun hm => ?_⟩
    (fun q' hq y hy => ?_) (fun _ _ hidle => hidle) (fun k q' hk => ?_) h.answers
  · rcases hf with hf | hf <;> cases hf
  · exact hok m (QueryPhase.done.inj hm)
  · have hsum := hquery.transmissions (Or.inr hacked)
    rw [herror (QueryPhase.done.inj hm)] at hsum
    exact hsum
  · exact hkey (QueryPhase.done.inj hm)
  · have hy' := h.query q' y hy
    refine hy'.congr (fun hdone => ?_) (fun _ ha => ha) id hy'.waiting
    refine Function.update_of_ne (fun hk => hq ?_) _ _
    have heq := hy'.handler hdone
    rw [hk, hhandler] at heq
    exact (ResponseHandler.query.inj (Option.some_inj.1 heq)).symm
  · change Function.update s.handlers x.key none k = _ at hk
    by_cases hkx : k = x.key
    · rw [hkx, Function.update_self] at hk
      cases hk
    · rw [Function.update_of_ne hkx] at hk
      exact ⟨hk, fun _ heq => absurd heq hkx⟩

theorem Inv.resume (h : s.Inv key) (hx : s.queries q = some x) (hacked : x.phase = .acked) :
    (s.resume q x).Inv key := by
  have hquery := h.query q x hx
  unfold SerialReader.resume
  cases hparams : x.lastParams with
  | some params =>
    refine h.finish hx hacked (fun m hm => ?_) (fun hf => (by cases hf)) (fun hf => (by cases hf))
    -- the last message that was heard is an answer
    have hlast := hquery.lastParams
    rw [hparams] at hlast
    obtain ⟨p, hp, hpm⟩ := Option.map_eq_some_iff.1 hlast.symm
    have hown := hquery.acked hacked p hp
    rw [QueryResult.ok.inj hm] at hpm
    refine hquery.logged m ?_
    rw [← hown, ← hpm]
    exact List.mem_of_getLast? hp
  | none =>
    dsimp only
    by_cases hretries : x.retries = 0
    · rw [if_pos hretries]
      exact h.finish hx hacked (fun m hm => (by cases hm)) (fun _ => hretries)
        (fun hf => (by cases hf))
    · rw [if_neg hretries]
      have hsum := hquery.transmissions (Or.inr hacked)
      refine h.setQuery hx ⟨fun _ => hquery.handler (by rw [hacked]; rfl), ?_,
        hquery.logged, fun hf => (by cases hf),
        fun _ => hquery.idle (by rw [hacked]; exact fun hf => (by cases hf)),
        fun hf => (by cases hf), fun hf => ?_, fun _ => ?_, fun m hm => (by cases hm),
        fun hm => (by cases hm), fun hm => (by cases hm)⟩ rfl rfl
      · exact hparams ▸ hquery.lastParams
      · rcases hf with hf | hf <;> cases hf
      · show x.transmissions + (x.retries - 1) = 5
        omega

theorem Inv.retry (h : s.Inv key) (hx : s.queries q = some x) (hpausing : x.phase = .pausing) :
    (s.retry q x).Inv key := by
  have hquery := h.query q x hx
  have hidle := hquery.idle (by rw [hpausing]; exact fun hf => (by cases hf))
  have hsum := hquery.pausing hpausing
  have hout : ∀ q', q' ≠ q → ∀ c ∈ transmission q x.preface x.cmd, c.query ≠ some q' := by
    intro q' hq c hc hq'
    rw [query_of_mem_transmission hc] at hq'
    exact hq (Option.some_inj.1 hq').symm
  refine h.replace hx rfl rfl ⟨fun _ => hquery.handler (by rw [hpausing]; rfl),
      hquery.lastParams, hquery.logged,
      fun _ => Or.inl (pending_transmission hidle x.preface x.cmd), fun hne => absurd rfl hne,
      fun hf => (by cases hf), fun _ => ?_, fun hf => (by cases hf), fun m hm => (by cases hm),
      fun hm => (by cases hm), fun hm => (by cases hm)⟩
    (fun q' hq y hy => ?_) (fun q' hq => (h.transit_send (hout q' hq)).1)
    (fun _ _ hk => ⟨hk, fun _ heq => ⟨heq, rfl⟩⟩) h.answers
  · show x.transmissions + 1 + x.retries = 6
    omega
  · obtain ⟨hidle', hwaiting⟩ := h.transit_send (hout q' hq)
    exact (h.query q' y hy).congr (fun _ => rfl) (fun _ ha => ha) hidle' (hwaiting y hy)

theorem Inv.next {D : QueryMcu μ ε γ M} {init : μ → Prop} (h : s.Inv key)
    {a : SerialEvent ε γ κ} (hundisturbed : s.Undisturbed key D a)
    (ht : (connection D key init).next s a = some t) : t.Inv key := by
  cases a with
  | query k preface cmd =>
    cases ht
    exact h.makeQuery hundisturbed preface cmd
  | register k =>
    cases ht
    exact h.registerResponse (fun q hf => (by cases hf)) hundisturbed
  | unregister k =>
    cases ht
    exact h.registerResponse (fun q hf => (by cases hf)) hundisturbed
  | send cmd =>
    cases ht
    exact h.send cmd
  | exec =>
    cases hout : s.toMcu with
    | nil =>
      simp only [connection, hout] at ht
      cases ht
    | cons c rest =>
      simp only [connection, hout] at ht
      obtain ⟨r, hr, rfl⟩ := Option.map_eq_some_iff.1 ht
      have hexec := h.exec hout r.1 r.2 fun hnotify q hq x hx => ?_
      · rw [List.append_assoc]
        exact hexec
      · refine (hundisturbed c (by rw [hout]; rfl) hnotify q hq x hx).imp_right fun hany => ?_
        rw [hr, Option.any_some, Option.any_eq_true] at hany
        obtain ⟨m, hm, hk⟩ := hany
        exact ⟨m, hm, of_decide_eq_true hk⟩
  | mcu e =>
    obtain ⟨r, -, rfl⟩ := Option.map_eq_some_iff.1 ht
    exact h.mcu r.1 r.2
  | receive =>
    cases hback : s.fromMcu with
    | nil =>
      simp only [connection, hback] at ht
      cases ht
    | cons f rest =>
      cases f with
      | msg query params =>
        simp only [connection, hback] at ht
        cases ht
        refine h.handle hback fun q hq => ?_
        unfold Undisturbed ReceiveUndisturbed at hundisturbed
        rw [hback] at hundisturbed
        dsimp only at hundisturbed
        rw [hq] at hundisturbed
        exact hundisturbed
      | ack q =>
        simp only [connection, hback] at ht
        cases ht
        exact h.complete hback
  | lose =>
    cases hback : s.fromMcu with
    | nil =>
      simp only [connection, hback] at ht
      cases ht
    | cons f rest =>
      cases f with
      | msg query params =>
        simp only [connection, hback] at ht
        cases ht
        refine h.lose hback (fun q hf => (by cases hf)) fun q x hx hanswer => ?_
        obtain ⟨params', heq, hk⟩ := isAnswer_iff.1 hanswer
        obtain ⟨rfl, rfl⟩ := QueryFrame.msg.inj heq
        unfold Undisturbed LoseUndisturbed at hundisturbed
        rw [hback] at hundisturbed
        exact (hundisturbed x hx hk).own
      | ack q =>
        simp only [connection, hback] at ht
        cases ht
  | resume q =>
    simp only [connection] at ht
    split at ht
    · cases ht
    · rename_i x hx
      split at ht
      · rename_i hacked
        cases ht
        exact h.resume hx hacked
      · cases ht
  | retry q =>
    simp only [connection] at ht
    split at ht
    · cases ht
    · rename_i x hx
      split at ht
      · rename_i hpausing
        cases ht
        exact h.retry hx hpausing
      · cases ht

theorem inv_of_reachableBy {D : QueryMcu μ ε γ M} {init : μ → Prop}
    (h : (connection D key init).ReachableBy (Undisturbed key · D) s) : s.Inv key := by
  refine h.invariant ?_ fun s a t hs hundisturbed ht => hs.next hundisturbed ht
  rintro s ⟨mcu, -, rfl⟩
  exact inv_start mcu

/-! ## What is executed -/

/-- The queries that were made are kept, with their commands. -/
def Keeps (s t : SerialReader μ γ M κ) : Prop :=
  ∀ q x, s.queries q = some x →
    ∃ y, t.queries q = some y ∧ y.preface = x.preface ∧ y.cmd = x.cmd

/-- A message is the answer to a command of a query, with the state after its execution. -/
def Executes (D : QueryMcu μ ε γ M) (x : SerialRetryCommand γ M κ) (m : M) (mcu : μ) : Prop :=
  ∃ mcu' c, c ∈ x.preface ++ [x.cmd] ∧ D.exec mcu' c = some (mcu, some m)

/-- What is sent for a query are its commands, and its answers answer them. -/
structure Executed (D : QueryMcu μ ε γ M) (s : SerialReader μ γ M κ) : Prop where
  count : ∀ q, s.count ≤ q → s.queries q = none
  toMcu : ∀ c ∈ s.toMcu, ∀ q, c.query = some q →
    ∃ x, s.queries q = some x ∧ c.cmd ∈ x.preface ++ [x.cmd]
  answers : ∀ q m mcu, (q, m, mcu) ∈ s.answers →
    ∃ x, s.queries q = some x ∧ Executes D x m mcu

variable {D : QueryMcu μ ε γ M}

theorem Keeps.executed (hk : Keeps s t) (h : s.Executed D)
    (hcount : ∀ q, t.count ≤ q → t.queries q = none)
    (hout : ∀ c ∈ t.toMcu, c ∈ s.toMcu ∨ ∀ q, c.query = some q →
      ∃ x, t.queries q = some x ∧ c.cmd ∈ x.preface ++ [x.cmd])
    (hanswers : ∀ q m mcu, (q, m, mcu) ∈ t.answers → (q, m, mcu) ∈ s.answers ∨
      ∃ x, t.queries q = some x ∧ Executes D x m mcu) : t.Executed D := by
  refine ⟨hcount, fun c hc q hq => ?_, fun q m mcu hm => ?_⟩
  · rcases hout c hc with hc | hc
    · obtain ⟨x, hx, hcmd⟩ := h.toMcu c hc q hq
      obtain ⟨y, hy, hpreface, hcmd'⟩ := hk q x hx
      exact ⟨y, hy, by rw [hpreface, hcmd']; exact hcmd⟩
    · exact hc q hq
  · rcases hanswers q m mcu hm with hm | hm
    · obtain ⟨x, hx, mcu', c, hc, hexec⟩ := h.answers q m mcu hm
      obtain ⟨y, hy, hpreface, hcmd⟩ := hk q x hx
      exact ⟨y, hy, mcu', c, by rw [hpreface, hcmd]; exact hc, hexec⟩
    · exact hm

theorem keeps_setQuery {x' : SerialRetryCommand γ M κ} (hx : s.queries q = some x)
    (hpreface : x'.preface = x.preface) (hcmd : x'.cmd = x.cmd) : Keeps s (s.setQuery q x') := by
  intro q' y hy
  show ∃ y', Function.update s.queries q (some x') q' = some y' ∧ _
  by_cases hq : q' = q
  · rw [hq, hx] at hy
    rw [hq, Function.update_self]
    exact ⟨x', rfl, by rw [hpreface, Option.some_inj.1 hy], by rw [hcmd, Option.some_inj.1 hy]⟩
  · rw [Function.update_of_ne hq]
    exact ⟨y, hy, rfl, rfl⟩

theorem Executed.setQuery (h : s.Executed D) {x' : SerialRetryCommand γ M κ}
    (hx : s.queries q = some x) (hpreface : x'.preface = x.preface) (hcmd : x'.cmd = x.cmd) :
    (s.setQuery q x').Executed D := by
  refine (keeps_setQuery hx hpreface hcmd).executed h (fun q' hq' => ?_)
    (fun c hc => Or.inl hc) fun q m mcu hm => Or.inl hm
  have hnone := h.count q' hq'
  have hq : q' ≠ q := by
    rintro rfl
    rw [hx] at hnone
    cases hnone
  exact (Function.update_of_ne hq _ _).trans hnone

theorem cmd_of_mem_transmission {preface : List γ} {cmd : γ} {c : Transmission γ}
    (hc : c ∈ transmission q preface cmd) : c.cmd ∈ preface ++ [cmd] := by
  rcases List.mem_append.1 hc with hc | hc
  · obtain ⟨c', hc', rfl⟩ := List.mem_map.1 hc
    exact List.mem_append_left _ hc'
  · rw [List.mem_singleton.1 hc]
    exact List.mem_append_right _ (List.mem_singleton_self cmd)

/-- A transmission of a query is sent. -/
theorem Executed.transmit (h : s.Executed D) (hx : s.queries q = some x) :
    Executed D { s with toMcu := s.toMcu ++ transmission q x.preface x.cmd } := by
  refine ⟨h.count, fun c hc q' hq' => ?_, h.answers⟩
  rcases List.mem_append.1 hc with hc | hc
  · exact h.toMcu c hc q' hq'
  · rw [query_of_mem_transmission hc] at hq'
    rw [← Option.some_inj.1 hq']
    exact ⟨x, hx, cmd_of_mem_transmission hc⟩

theorem Executed.makeQuery (h : s.Executed D) (k : κ) (preface : List γ) (cmd : γ) :
    (s.makeQuery k preface cmd).Executed D := by
  have hnew : (s.makeQuery k preface cmd).queries s.count = some _ := Function.update_self ..
  have hold : ∀ q, q ≠ s.count → (s.makeQuery k preface cmd).queries q = s.queries q :=
    fun q hq => Function.update_of_ne hq _ _
  have hkeeps : Keeps s (s.makeQuery k preface cmd) := by
    intro q x hx
    have hq : q ≠ s.count := by
      rintro rfl
      rw [h.count s.count le_rfl] at hx
      cases hx
    exact ⟨x, (hold q hq).trans hx, rfl, rfl⟩
  refine hkeeps.executed h (fun q hq => ?_) (fun c hc => ?_) fun q m mcu hm => Or.inl hm
  · change s.count + 1 ≤ q at hq
    rw [hold q (by omega)]
    exact h.count q (by omega)
  · rcases List.mem_append.1 hc with hc | hc
    · exact Or.inl hc
    · refine Or.inr fun q hq => ?_
      rw [query_of_mem_transmission hc] at hq
      rw [← Option.some_inj.1 hq]
      exact ⟨_, hnew, cmd_of_mem_transmission hc⟩

theorem Executed.exec (h : s.Executed D) {c : Transmission γ} {rest : List (Transmission γ)}
    (hout : s.toMcu = c :: rest) {r : μ × Option M} (hr : D.exec s.mcu c.cmd = some r)
    (back : List (QueryFrame M)) : Executed D { s with
      mcu := r.1
      toMcu := rest
      fromMcu := back
      answers := s.answers ++ c.query.toList.flatMap fun q =>
        r.2.toList.map fun params => (q, params, r.1) } := by
  refine ⟨h.count, fun c' hc' => h.toMcu c' (hout ▸ List.mem_cons_of_mem c hc'),
    fun q m mcu hm => ?_⟩
  rcases List.mem_append.1 hm with hm | hm
  · exact h.answers q m mcu hm
  · obtain ⟨q', hq', hm⟩ := List.mem_flatMap.1 hm
    obtain ⟨m', hm', heq⟩ := List.mem_map.1 hm
    obtain ⟨rfl, hrest⟩ := Prod.mk.inj heq
    obtain ⟨rfl, rfl⟩ := Prod.mk.inj hrest
    obtain ⟨x, hx, hcmd⟩ :=
      h.toMcu c (hout ▸ List.mem_cons_self) q' (Option.mem_toList.1 hq')
    refine ⟨x, hx, s.mcu, c.cmd, hcmd, ?_⟩
    rw [hr, ← Option.mem_toList.1 hm']

theorem Executed.finish (h : s.Executed D) (hx : s.queries q = some x)
    (result : QueryResult M) : (s.finish q x result).Executed D := by
  unfold SerialReader.finish
  split
  · exact h.setQuery hx rfl rfl
  · have hset : (s.setQuery q { x with phase := .done result }).Executed D :=
      h.setQuery hx rfl rfl
    exact ⟨hset.count, hset.toMcu, hset.answers⟩

theorem Executed.next {init : μ → Prop} (h : s.Executed D) {a : SerialEvent ε γ κ}
    (ht : (connection D key init).next s a = some t) : t.Executed D := by
  have hsame : ∀ (mcu : μ) (handlers : κ → Option ResponseHandler)
      (back : List (QueryFrame M)),
      Executed D { s with mcu := mcu, handlers := handlers, fromMcu := back } :=
    fun mcu handlers back => ⟨h.count, h.toMcu, h.answers⟩
  cases a with
  | query k preface cmd =>
    cases ht
    exact h.makeQuery k preface cmd
  | register k =>
    cases ht
    exact hsame _ _ _
  | unregister k =>
    cases ht
    exact hsame _ _ _
  | send cmd =>
    cases ht
    refine ⟨h.count, fun c hc q hq => ?_, h.answers⟩
    rcases List.mem_append.1 hc with hc | hc
    · exact h.toMcu c hc q hq
    · rw [List.mem_singleton.1 hc] at hq
      cases hq
  | exec =>
    cases hout : s.toMcu with
    | nil =>
      simp only [connection, hout] at ht
      cases ht
    | cons c rest =>
      simp only [connection, hout] at ht
      obtain ⟨r, hr, rfl⟩ := Option.map_eq_some_iff.1 ht
      exact h.exec hout hr _
  | mcu e =>
    obtain ⟨r, -, rfl⟩ := Option.map_eq_some_iff.1 ht
    exact hsame _ _ _
  | receive =>
    cases hback : s.fromMcu with
    | nil =>
      simp only [connection, hback] at ht
      cases ht
    | cons f rest =>
      cases f with
      | msg query params =>
        simp only [connection, hback] at ht
        cases ht
        unfold SerialReader.handle
        split
        · split
          · rename_i x hx
            exact (hsame s.mcu s.handlers rest).setQuery hx rfl rfl
          · exact hsame _ _ _
        · exact hsame _ _ _
      | ack q =>
        simp only [connection, hback] at ht
        cases ht
        unfold SerialReader.complete
        split
        · rename_i x hx
          exact (hsame s.mcu s.handlers rest).setQuery hx rfl rfl
        · exact hsame _ _ _
  | lose =>
    simp only [connection] at ht
    split at ht
    · cases ht
      exact hsame _ _ _
    · cases ht
  | resume q =>
    simp only [connection] at ht
    split at ht
    · cases ht
    · rename_i x hx
      split at ht
      · cases ht
        unfold SerialReader.resume
        split
        · exact h.finish hx _
        · split_ifs
          · exact h.finish hx _
          · exact h.setQuery hx rfl rfl
      · cases ht
  | retry q =>
    simp only [connection] at ht
    split at ht
    · cases ht
    · rename_i x hx
      split at ht
      · cases ht
        let x' : SerialRetryCommand γ M κ := { x with
          phase := .waiting
          transmissions := x.transmissions + 1 }
        have hset : (s.setQuery q x').Executed D := h.setQuery hx rfl rfl
        have hx' : (s.setQuery q x').queries q = some x' := Function.update_self ..
        have htransmit := hset.transmit hx'
        exact htransmit
      · cases ht

theorem executes_of_reachable {init : μ → Prop} (h : (connection D key init).Reachable s) :
    s.Executed D := by
  refine h.invariant ?_ fun s a t hs _ ht => hs.next ht
  rintro s ⟨mcu, -, rfl⟩
  exact ⟨fun _ _ => rfl, fun c hc => (by cases hc), fun q m mcu hm => (by cases hm)⟩

/-! ## The answers -/

/-- A query in progress has its handler. It ends with an answer to a command of one of its
transmissions, or with an error after six transmissions. -/
structure Answered (D : QueryMcu μ ε γ M) (s : SerialReader μ γ M κ) : Prop where
  handler : ∀ q x, s.queries q = some x → x.phase.isDone = false →
    s.handlers x.key = some (.query q)
  ok : ∀ q x m, s.queries q = some x → x.phase = .done (.ok m) →
    ∃ mcu, (q, m, mcu) ∈ s.answers ∧ Executes D x m mcu
  error : ∀ q x, s.queries q = some x → x.phase = .done .error → x.transmissions = 6
  keyError : ∀ q x, s.queries q = some x → x.phase ≠ .done .keyError

theorem answered {init : μ → Prop}
    (h : (connection D key init).ReachableBy (Undisturbed key · D) s) : s.Answered D := by
  have hinv := inv_of_reachableBy h
  have hexecuted : s.Executed D := executes_of_reachable (h.mono fun _ _ _ => trivial)
  refine ⟨fun q x hx => (hinv.query q x hx).handler, fun q x m hx hm => ?_,
    fun q x hx => (hinv.query q x hx).error, fun q x hx => (hinv.query q x hx).keyError⟩
  obtain ⟨mcu, hmcu⟩ := (hinv.query q x hx).ok m hm
  obtain ⟨y, hy, hexecutes⟩ := hexecuted.answers q m mcu hmcu
  rw [hx] at hy
  exact ⟨mcu, hmcu, Option.some_inj.1 hy ▸ hexecutes⟩

end SerialReader

end Thinker
