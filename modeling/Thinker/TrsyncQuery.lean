import Thinker.Queries

/-!
# Stopping a trsync

`MCU_trsync.stop` asks a trsync for the reason of its trigger, with the query that triggers it if
it has not been triggered yet. The answer carries the reason that the micro-controller has
recorded. A report that is still on its way has the same name and oid, and is returned instead
when it arrives while the query waits and the answer is lost.
-/

set_option linter.unusedSectionVars false

namespace Thinker

variable {T S E : Type*} [DecidableEq T] [DecidableEq S] [DecidableEq E]
variable {board : StepperBoard} {oids : List T}

open SerialReader

/-- `MCU_trsync.REASON_HOST_REQUEST`. -/
def reasonHostRequest : BitVec 8 := 3

/-- A connection to a micro-controller with trsyncs. -/
abbrev trsyncConnection (S E : Type*) [DecidableEq S] [DecidableEq E] (board : StepperBoard)
    (oids : List T) : System (SerialReader (HomingMcu T S E) (HomingCommand T S E)
      (TrsyncStateMsg T) T) (SerialEvent (HomingEvent T S E) (HomingCommand T S E) T) :=
  connection (trsyncMcu board oids) TrsyncStateMsg.oid (homingMcu board oids).init

/-- `MCU_trsync.stop` : the handler of `start` is removed, and the query is made. -/
def trsyncStop (τ : T) : List (SerialEvent (HomingEvent T S E) (HomingCommand T S E) T) :=
  [.unregister τ, .query τ [] (.trsyncTrigger τ reasonHostRequest)]

/-- The answer to the query has the reason that is recorded. -/
theorem exec_trsyncTrigger {u v : HomingMcu T S E} {τ : T} {reason : BitVec 8}
    {m : TrsyncStateMsg T}
    (h : (trsyncMcu board oids).exec u (.trsyncTrigger τ reason) = some (v, some m)) :
    m = ⟨τ, false, (v.trsyncs τ).triggerReason, 0⟩ ∧ v.isShutdown = false := by
  unfold trsyncMcu at h
  dsimp only at h
  by_cases hup : u.isShutdown = true
  · rw [if_pos hup] at h
    cases (Prod.mk.inj (Option.some_inj.1 h)).2
  rw [if_neg hup] at h
  obtain ⟨t, ht, heq⟩ := Option.map_eq_some_iff.1 h
  obtain ⟨rfl, hm⟩ := Prod.mk.inj heq
  unfold homingMcu at ht
  dsimp only at ht
  rw [if_neg hup] at ht
  obtain ⟨-, ht⟩ := Option.ite_none_right_eq_some.1 ht
  obtain rfl := Option.some_inj.1 ht
  obtain ⟨hsent, -, hshutdown⟩ := HomingMcu.sent_trsyncDoTrigger board u τ reason
  constructor
  · have hdrop : (u.commandTrsyncTrigger board τ reason).sent.drop u.sent.length =
        [⟨τ, false, ((u.commandTrsyncTrigger board τ reason).trsyncs τ).triggerReason, 0⟩] := by
      unfold HomingMcu.commandTrsyncTrigger
      dsimp only
      rw [show ∀ ts, ((u.trsyncDoTrigger board τ reason).setTrsync τ ts).sent = u.sent from
        fun _ => hsent, List.drop_left]
    rw [show (u.command board (.trsyncTrigger τ reason)) =
      u.commandTrsyncTrigger board τ reason from rfl, hdrop] at hm
    exact (Option.some_inj.1 hm).symm
  · exact hshutdown.trans (Bool.eq_false_iff.2 hup)

/-- The states of the micro-controller are reachable, also those right after an answer. -/
structure McuReachable (board : StepperBoard) (oids : List T)
    (s : SerialReader (HomingMcu T S E) (HomingCommand T S E) (TrsyncStateMsg T) T) : Prop where
  mcu : (homingMcu board oids).Reachable s.mcu
  answers : ∀ q m mcu, (q, m, mcu) ∈ s.answers → (homingMcu board oids).Reachable mcu

theorem McuReachable.next
    {s t : SerialReader (HomingMcu T S E) (HomingCommand T S E) (TrsyncStateMsg T) T}
    (h : McuReachable board oids s)
    {a : SerialEvent (HomingEvent T S E) (HomingCommand T S E) T}
    (ht : (trsyncConnection S E board oids).next s a = some t) : McuReachable board oids t := by
  have hexec : ∀ c r, (trsyncMcu board oids).exec s.mcu c = some r →
      (homingMcu board oids).Reachable r.1 := by
    intro c r hr
    unfold trsyncMcu at hr
    dsimp only at hr
    split_ifs at hr
    · rw [← Option.some_inj.1 hr]
      exact h.mcu
    · obtain ⟨v, hv, rfl⟩ := Option.map_eq_some_iff.1 hr
      exact h.mcu.step trivial hv
  have hstep : ∀ e r, (trsyncMcu board oids).step s.mcu e = some r →
      (homingMcu board oids).Reachable r.1 := by
    intro e r hr
    unfold trsyncMcu at hr
    dsimp only at hr
    split at hr
    · cases hr
    · obtain ⟨v, hv, rfl⟩ := Option.map_eq_some_iff.1 hr
      exact h.mcu.step trivial hv
  cases a with
  | exec =>
    cases hout : s.toMcu with
    | nil =>
      simp only [trsyncConnection, connection, hout] at ht
      cases ht
    | cons c rest =>
      simp only [trsyncConnection, connection, hout] at ht
      obtain ⟨r, hr, rfl⟩ := Option.map_eq_some_iff.1 ht
      refine ⟨hexec _ r hr, fun q m mcu hm => ?_⟩
      rcases List.mem_append.1 hm with hm | hm
      · exact h.answers q m mcu hm
      · obtain ⟨q', -, hm⟩ := List.mem_flatMap.1 hm
        obtain ⟨m', -, heq⟩ := List.mem_map.1 hm
        rw [← (Prod.mk.inj (Prod.mk.inj heq).2).2]
        exact hexec _ r hr
  | mcu e =>
    obtain ⟨r, hr, rfl⟩ := Option.map_eq_some_iff.1 ht
    exact ⟨hstep e r hr, h.answers⟩
  | query k preface cmd =>
    cases ht
    exact ⟨h.mcu, h.answers⟩
  | register k =>
    cases ht
    exact ⟨h.mcu, h.answers⟩
  | unregister k =>
    cases ht
    exact ⟨h.mcu, h.answers⟩
  | send cmd =>
    cases ht
    exact ⟨h.mcu, h.answers⟩
  | receive =>
    simp only [trsyncConnection, connection] at ht
    split at ht
    · cases ht
    · cases ht
      unfold SerialReader.handle
      split
      · split <;> exact ⟨h.mcu, h.answers⟩
      · exact ⟨h.mcu, h.answers⟩
    · cases ht
      unfold SerialReader.complete
      split <;> exact ⟨h.mcu, h.answers⟩
  | lose =>
    simp only [trsyncConnection, connection] at ht
    split at ht
    · cases ht
      exact ⟨h.mcu, h.answers⟩
    · cases ht
  | resume q =>
    simp only [trsyncConnection, connection] at ht
    split at ht
    · cases ht
    · split at ht
      · cases ht
        unfold SerialReader.resume
        split
        · unfold SerialReader.finish
          split <;> exact ⟨h.mcu, h.answers⟩
        · split_ifs
          · unfold SerialReader.finish
            split <;> exact ⟨h.mcu, h.answers⟩
          · exact ⟨h.mcu, h.answers⟩
      · cases ht
  | retry q =>
    simp only [trsyncConnection, connection] at ht
    split at ht
    · cases ht
    · split at ht
      · cases ht
        exact ⟨h.mcu, h.answers⟩
      · cases ht

theorem mcuReachable
    {s : SerialReader (HomingMcu T S E) (HomingCommand T S E) (TrsyncStateMsg T) T}
    (h : (trsyncConnection S E board oids).Reachable s) : McuReachable board oids s := by
  refine h.invariant ?_ fun s a t hs _ ht => hs.next ht
  rintro s ⟨mcu, hinit, rfl⟩
  exact ⟨.init hinit, fun q m mcu hm => (by cases hm)⟩

/-- The answer to `MCU_trsync.stop` : the reason of the trigger, as the micro-controller has
recorded it right after a transmission of the query was executed. -/
def Recorded (board : StepperBoard) (oids : List T)
    (s : SerialReader (HomingMcu T S E) (HomingCommand T S E) (TrsyncStateMsg T) T) (q : ℕ) (τ : T)
    (m : TrsyncStateMsg T) : Prop :=
  ∃ mcu, (q, m, mcu) ∈ s.answers ∧ (homingMcu board oids).Reachable mcu ∧ m.oid = τ ∧
    m.canTrigger = false ∧ m.triggerReason = (mcu.trsyncs τ).triggerReason ∧
    ∀ p ∈ (mcu.trsyncs τ).triggers, m.triggerReason = p.1

/-- Undisturbed queries are answered, and a trsync that is stopped gives its reason. -/
theorem answered_of_undisturbed {μ ε γ M κ : Type*} [DecidableEq κ] (D : QueryMcu μ ε γ M)
    (key : M → κ) (init : μ → Prop) (board : StepperBoard) (oids : List T) :
    (∀ s, (connection D key init).ReachableBy (Undisturbed key · D) s → s.Answered D) ∧
    ∀ s, (trsyncConnection S E board oids).ReachableBy
        (Undisturbed TrsyncStateMsg.oid · (trsyncMcu board oids)) s →
      ∀ q x τ reason m, s.queries q = some x → x.preface = [] →
        x.cmd = .trsyncTrigger τ reason → x.phase = .done (.ok m) →
          Recorded board oids s q τ m := by
  refine ⟨fun s h => answered h, fun s h q x τ reason m hx hpreface hcmd hm => ?_⟩
  obtain ⟨mcu, hmcu, mcu', c, hc, hexec⟩ := (answered h).ok q x m hx hm
  have hreach := (mcuReachable (h.mono fun _ _ _ => trivial)).answers q m mcu hmcu
  rw [hpreface, hcmd, List.nil_append, List.mem_singleton] at hc
  rw [hc] at hexec
  obtain ⟨rfl, hup⟩ := exec_trsyncTrigger hexec
  exact ⟨mcu, hmcu, hreach, rfl, rfl, rfl,
    ((HomingMcu.good_of_reachable hreach).trsync τ).reason hup⟩

/-- A micro-controller with one trsync, one stepper and one endstop. -/
abbrev OneTrsync := SerialReader (HomingMcu (Fin 1) (Fin 1) (Fin 1))
  (HomingCommand (Fin 1) (Fin 1) (Fin 1)) (TrsyncStateMsg (Fin 1)) (Fin 1)

/-- The host connects. -/
def connected : OneTrsync :=
  SerialReader.start (HomingMcu.config HomingMcu.edgeBoard 0 (fun _ => -1) fun _ => 0)

/-- A trsync is started, and its first report is on its way when it expires. -/
def reportBeforeExpiry : List
    (SerialEvent (HomingEvent (Fin 1) (Fin 1) (Fin 1)) (HomingCommand (Fin 1) (Fin 1) (Fin 1))
      (Fin 1)) :=
  [.register 0, .send (.trsyncStart 0 10 100 2), .exec, .send (.trsyncSetTimeout 0 50), .exec,
    .mcu (.report 0), .mcu .taskStart, .mcu .taskNext, .mcu .taskReport, .mcu (.expire 0)]

/-- The report arrives before the trsync is stopped. The first answer is then lost. -/
def stopWithRetry : List
    (SerialEvent (HomingEvent (Fin 1) (Fin 1) (Fin 1)) (HomingCommand (Fin 1) (Fin 1) (Fin 1))
      (Fin 1)) :=
  reportBeforeExpiry ++ [.receive] ++ trsyncStop 0 ++
    [.exec, .lose, .receive, .resume 0, .retry 0, .exec, .receive, .receive, .resume 0]

/-- The report arrives while the query to stop the trsync waits. Its answer is then lost. -/
def stopWithReport : List
    (SerialEvent (HomingEvent (Fin 1) (Fin 1) (Fin 1)) (HomingCommand (Fin 1) (Fin 1) (Fin 1))
      (Fin 1)) :=
  reportBeforeExpiry ++ trsyncStop 0 ++ [.receive, .exec, .lose, .receive, .resume 0]

/-- The first answer is lost, and the second one gives the reason of the expiry. -/
theorem answered_of_undisturbed_retry :
    ∃ s, (trsyncConnection (Fin 1) (Fin 1) HomingMcu.edgeBoard [0]).run connected stopWithRetry =
        some s ∧ Recorded HomingMcu.edgeBoard [0] s 0 0 ⟨0, false, 2, 0⟩ := by
  have hrun : ((trsyncConnection (Fin 1) (Fin 1) HomingMcu.edgeBoard [0]).run connected
      stopWithRetry).map (fun s => s.queries 0) =
      some (some ⟨0, [], .trsyncTrigger 0 3, some ⟨0, false, 2, 0⟩, 4,
        .done (.ok ⟨0, false, 2, 0⟩), 2, [(some 0, ⟨0, false, 2, 0⟩)]⟩) := by
    decide +kernel
  obtain ⟨s, hs, hq⟩ := Option.map_eq_some_iff.1 hrun
  have hreach : (trsyncConnection (Fin 1) (Fin 1) HomingMcu.edgeBoard [0]).ReachableBy
      (Undisturbed TrsyncStateMsg.oid · (trsyncMcu HomingMcu.edgeBoard [0])) s :=
    System.ReachableBy.run (.init ⟨_, ⟨_, _, _, rfl⟩, rfl⟩) (by decide +kernel) hs
  have hanswered := answered_of_undisturbed (S := Fin 1) (E := Fin 1)
    (trsyncMcu (T := Fin 1) (S := Fin 1) (E := Fin 1) HomingMcu.edgeBoard [0])
    TrsyncStateMsg.oid (fun _ => True) HomingMcu.edgeBoard [(0 : Fin 1)]
  exact ⟨s, hs, hanswered.2 s hreach 0 _ 0 3 _ hq rfl rfl rfl⟩

/-- The query returns the report, which was sent before the expiry and answers nothing, while the
reason that is recorded is the one of the expiry. -/
theorem not_answered_report :
    ∃ s : OneTrsync, (trsyncConnection (Fin 1) (Fin 1) HomingMcu.edgeBoard [0]).Reachable s ∧
      (∃ x, s.queries 0 = some x ∧ x.phase = .done (.ok ⟨0, true, 0, 0⟩)) ∧
      (s.mcu.trsyncs 0).triggerReason = 2 ∧
      s.answers.map (fun a => (a.1, a.2.1)) = [(0, ⟨0, false, 2, 0⟩)] := by
  have hrun : ((trsyncConnection (Fin 1) (Fin 1) HomingMcu.edgeBoard [0]).run connected
      stopWithReport).map (fun s => ((s.queries 0).map SerialRetryCommand.phase,
        (s.mcu.trsyncs 0).triggerReason, s.answers.map fun a => (a.1, a.2.1))) =
      some (some (.done (.ok ⟨0, true, 0, 0⟩)), 2, [(0, ⟨0, false, 2, 0⟩)]) := by
    decide +kernel
  obtain ⟨s, hs, heq⟩ := Option.map_eq_some_iff.1 hrun
  obtain ⟨hphase, hrest⟩ := Prod.mk.inj heq
  obtain ⟨hreason, hanswers⟩ := Prod.mk.inj hrest
  obtain ⟨x, hx, hphase⟩ := Option.map_eq_some_iff.1 hphase
  exact ⟨s, System.Reachable.run (.init ⟨_, ⟨_, _, _, rfl⟩, rfl⟩) hs, ⟨x, hx, hphase⟩, hreason,
    hanswers⟩

end Thinker
