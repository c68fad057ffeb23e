import Mathlib.Algebra.BigOperators.Finprod
import Thinker.TransmitQueue

/-!
# What the host transmits

Messages move from `upcoming_queue` to `ready_queue` and from there to a block, and the counters
with them (`Inv`). As long as there are ready bytes, one of the queues has a ready message, so that
the loop of `build_and_send_command` always finds one (`fillBlock_spec`).
-/

set_option linter.unusedSectionVars false

namespace Thinker

/-! ## Sums over queues -/

/-- A sum over all queues in which one queue changes. -/
theorem finsum_update {ι α : Type*} [DecidableEq ι] {q : ι → α} {f : α → ℤ}
    (hq : (Function.support fun i => f (q i)).Finite) (i : ι) (x : α) :
    ∑ᶠ j, f (Function.update q i x j) = ∑ᶠ j, f (q j) + (f x - f (q i)) := by
  have hmem : i ∈ insert i hq.toFinset := Finset.mem_insert_self i _
  have hsupport : (Function.support fun j => f (q j)) ⊆ ↑(insert i hq.toFinset) := by
    intro j hj
    simpa using Or.inr hj
  have hupdate : (Function.support fun j => f (Function.update q i x j)) ⊆
      ↑(insert i hq.toFinset) := by
    intro j hj
    by_cases hji : j = i
    · simp [hji]
    · rw [Function.mem_support, Function.update_of_ne hji] at hj
      simpa using Or.inr hj
  rw [finsum_eq_sum_of_support_subset _ hsupport, finsum_eq_sum_of_support_subset _ hupdate,
    ← Finset.add_sum_erase _ _ hmem, ← Finset.add_sum_erase _ (fun j => f (q j)) hmem,
    Function.update_self]
  have hrest : ∑ j ∈ (insert i hq.toFinset).erase i, f (Function.update q i x j) =
      ∑ j ∈ (insert i hq.toFinset).erase i, f (q j) :=
    Finset.sum_congr rfl fun j hj => by rw [Function.update_of_ne (Finset.ne_of_mem_erase hj)]
  rw [hrest]
  omega

section Messages

variable {κ : Type*}

@[simp] theorem totalLen_nil : totalLen ([] : List (PendingMessage κ)) = 0 := rfl

@[simp] theorem totalLen_cons (qm : PendingMessage κ) (qms : List (PendingMessage κ)) :
    totalLen (qm :: qms) = qm.len + totalLen qms := by
  simp [totalLen]

@[simp] theorem totalLen_append (qms qms' : List (PendingMessage κ)) :
    totalLen (qms ++ qms') = totalLen qms + totalLen qms' := by
  simp [totalLen]

@[simp] theorem PendingMessage.setMinClock_len (qm : PendingMessage κ) :
    qm.setMinClock.len = qm.len := by
  unfold setMinClock
  split <;> rfl

@[simp] theorem PendingMessage.setMinClock_reqClock (qm : PendingMessage κ) :
    qm.setMinClock.reqClock = qm.reqClock := by
  unfold setMinClock
  split <;> rfl

namespace CommandQueue

variable (cq : CommandQueue κ)

theorem empty_iff : cq.Empty ↔ cq.messages = [] := by
  simp [Empty, messages]

/-- The order of the messages is that in which they are released. -/
@[simp] theorem messages_release (ackClock : ℕ) : (cq.release ackClock).messages = cq.messages := by
  have hmap : (((cq.released ackClock).map fun qm => (qm, ackClock)).map Prod.fst) =
      cq.released ackClock := by
    rw [List.map_map]
    exact List.map_id _
  rw [messages, release, List.map_append, hmap, List.append_assoc, released,
    List.takeWhile_append_dropWhile]
  rfl

theorem totalLen_release (ackClock : ℕ) :
    totalLen (cq.release ackClock).upcomingQueue =
        totalLen cq.upcomingQueue - totalLen (cq.released ackClock) ∧
      totalLen ((cq.release ackClock).readyQueue.map Prod.fst) =
        totalLen (cq.readyQueue.map Prod.fst) + totalLen (cq.released ackClock) := by
  constructor
  · have hsplit := congrArg totalLen (List.takeWhile_append_dropWhile
      (p := fun qm : PendingMessage κ => decide (¬ ackClock < qm.minClock)) (l := cq.upcomingQueue))
    rw [totalLen_append] at hsplit
    exact (sub_eq_of_eq_add' hsplit.symm).symm
  · rw [release, List.map_append, totalLen_append, List.map_map]
    congr 2
    exact List.map_id _

end CommandQueue

end Messages

namespace TransmitQueue

variable {ι κ : Type*} [DecidableEq ι]

/-! ## The queues and their counters -/

/-- The messages of one queue among these. -/
def takenFrom (cq : ι) (ms : List (Taken ι κ)) : List (PendingMessage κ) :=
  (ms.filter fun m => m.queue = cq).map Taken.qm

/-- The queues while a block is built of the messages `ms`. -/
structure Inv (s : TransmitQueue ι κ) (ms : List (Taken ι κ)) : Prop where
  nodup : s.pendingQueues.Nodup
  pending : ∀ cq, cq ∈ s.pendingQueues ↔ ¬ (s.queues cq).Empty
  ready : s.readyBytes = ∑ᶠ cq, totalLen ((s.queues cq).readyQueue.map Prod.fst)
  upcoming : s.upcomingBytes = ∑ᶠ cq, totalLen (s.queues cq).upcomingQueue
  wellFormed : ∀ cq, ∀ qm ∈ (s.queues cq).messages, WellFormed qm
  released : ∀ cq, ∀ m ∈ (s.queues cq).readyQueue, m.1.minClock ≤ m.2
  order : ∀ cq, s.queued cq = takenFrom cq (s.blocks.flatten ++ ms) ++ (s.queues cq).messages
  taken : ∀ m ∈ s.blocks.flatten ++ ms, m.qm.minClock ≤ m.ackClock

namespace Inv

variable {s : TransmitQueue ι κ} {ms : List (Taken ι κ)}

theorem init (h : Init s) : Inv s [] where
  nodup := h.pendingQueues ▸ List.nodup_nil
  pending cq := by rw [h.pendingQueues, h.queues]; simp [CommandQueue.Empty]
  ready := by simp [h.readyBytes, h.queues]
  upcoming := by simp [h.upcomingBytes, h.queues]
  wellFormed cq := by rw [h.queues]; simp [CommandQueue.messages]
  released cq := by rw [h.queues]; simp
  order cq := by rw [h.queued, h.queues, h.blocks]; rfl
  taken := by rw [h.blocks]; simp

/-- What the queues do not depend on. -/
theorem congr (h : Inv s ms) {t : TransmitQueue ι κ} (hqueues : t.queues = s.queues)
    (hpending : t.pendingQueues = s.pendingQueues) (hready : t.readyBytes = s.readyBytes)
    (hupcoming : t.upcomingBytes = s.upcomingBytes) (hqueued : t.queued = s.queued)
    {ms' : List (Taken ι κ)} (hblocks : t.blocks.flatten ++ ms' = s.blocks.flatten ++ ms) :
    Inv t ms' where
  nodup := hpending ▸ h.nodup
  pending := by rw [hpending, hqueues]; exact h.pending
  ready := by rw [hready, hqueues]; exact h.ready
  upcoming := by rw [hupcoming, hqueues]; exact h.upcoming
  wellFormed := by rw [hqueues]; exact h.wellFormed
  released := by rw [hqueues]; exact h.released
  order := by rw [hqueued, hblocks, hqueues]; exact h.order
  taken := by rw [hblocks]; exact h.taken

/-- Only the queues of `pending_queues` count. -/
theorem finite_support (h : Inv s ms) {f : CommandQueue κ → ℤ} (hf : ∀ q, q.Empty → f q = 0) :
    (Function.support fun cq => f (s.queues cq)).Finite := by
  refine s.pendingQueues.toFinset.finite_toSet.subset fun cq hcq => ?_
  rw [List.coe_toFinset]
  exact (h.pending cq).2 fun hempty => hcq (hf _ hempty)

/-- The sums after one queue has changed. -/
theorem sums (h : Inv s ms) (cq : ι) (q : CommandQueue κ) :
    ∑ᶠ i, totalLen ((Function.update s.queues cq q i).readyQueue.map Prod.fst) = s.readyBytes +
        (totalLen (q.readyQueue.map Prod.fst) - totalLen ((s.queues cq).readyQueue.map Prod.fst)) ∧
      ∑ᶠ i, totalLen (Function.update s.queues cq q i).upcomingQueue = s.upcomingBytes +
        (totalLen q.upcomingQueue - totalLen (s.queues cq).upcomingQueue) := by
  have hready := h.finite_support (f := fun q => totalLen (q.readyQueue.map Prod.fst)) (by
    rintro q ⟨hq, -⟩
    rw [hq]
    rfl)
  have hupcoming := h.finite_support (f := fun q => totalLen q.upcomingQueue) (by
    rintro q ⟨-, hq⟩
    rw [hq]
    rfl)
  rw [h.ready, h.upcoming]
  exact ⟨finsum_update (f := fun q => totalLen (q.readyQueue.map Prod.fst)) hready cq q,
    finsum_update (f := fun q => totalLen q.upcomingQueue) hupcoming cq q⟩

/-- One queue is replaced, and the counters follow. -/
theorem update (h : Inv s ms) {t : TransmitQueue ι κ} {ms' : List (Taken ι κ)} (cq : ι)
    {q : CommandQueue κ} (hqueues : t.queues = Function.update s.queues cq q)
    (hnodup : t.pendingQueues.Nodup) (hmem : cq ∈ t.pendingQueues ↔ ¬ q.Empty)
    (hother : ∀ i, i ≠ cq → (i ∈ t.pendingQueues ↔ i ∈ s.pendingQueues))
    (hready : t.readyBytes = s.readyBytes + (totalLen (q.readyQueue.map Prod.fst) -
      totalLen ((s.queues cq).readyQueue.map Prod.fst)))
    (hupcoming : t.upcomingBytes = s.upcomingBytes +
      (totalLen q.upcomingQueue - totalLen (s.queues cq).upcomingQueue))
    (hwellFormed : ∀ qm ∈ q.messages, WellFormed qm)
    (hreleased : ∀ m ∈ q.readyQueue, m.1.minClock ≤ m.2)
    (horder : t.queued cq = takenFrom cq (t.blocks.flatten ++ ms') ++ q.messages)
    (hqueued : ∀ i, i ≠ cq → t.queued i = s.queued i)
    (htakenFrom : ∀ i, i ≠ cq →
      takenFrom i (t.blocks.flatten ++ ms') = takenFrom i (s.blocks.flatten ++ ms))
    (htaken : ∀ m ∈ t.blocks.flatten ++ ms', m.qm.minClock ≤ m.ackClock) : Inv t ms' := by
  obtain ⟨hsumready, hsumupcoming⟩ := h.sums cq q
  have hoff : ∀ i, i ≠ cq → t.queues i = s.queues i := fun i hi => by
    rw [hqueues, Function.update_of_ne hi]
  have hself : t.queues cq = q := by rw [hqueues, Function.update_self]
  refine ⟨hnodup, fun i => ?_, ?_, ?_, fun i => ?_, fun i => ?_, fun i => ?_, htaken⟩
  · by_cases hi : i = cq
    · rw [hi, hself]
      exact hmem
    · rw [hoff i hi, hother i hi]
      exact h.pending i
  · rw [hready, hqueues, hsumready]
  · rw [hupcoming, hqueues, hsumupcoming]
  · by_cases hi : i = cq
    · rw [hi, hself]
      exact hwellFormed
    · rw [hoff i hi]
      exact h.wellFormed i
  · by_cases hi : i = cq
    · rw [hi, hself]
      exact hreleased
    · rw [hoff i hi]
      exact h.released i
  · by_cases hi : i = cq
    · rw [hi, hself]
      exact horder
    · rw [hqueued i hi, htakenFrom i hi, hoff i hi]
      exact h.order i

/-- A check releases messages of a pending queue. -/
theorem release (h : Inv s ms) {cq : ι} (hcq : cq ∈ s.pendingQueues) (ackClock : ℕ) :
    Inv { s with
      queues := Function.update s.queues cq ((s.queues cq).release ackClock)
      upcomingBytes := s.upcomingBytes - totalLen ((s.queues cq).released ackClock)
      readyBytes := s.readyBytes + totalLen ((s.queues cq).released ackClock) } ms := by
  obtain ⟨hupcoming, hready⟩ := (s.queues cq).totalLen_release ackClock
  have hempty := (h.pending cq).1 hcq
  rw [CommandQueue.empty_iff, ← CommandQueue.messages_release _ ackClock,
    ← CommandQueue.empty_iff] at hempty
  refine h.update cq rfl h.nodup (iff_of_true hcq hempty) (fun i _ => Iff.rfl) ?_ ?_ ?_ ?_ ?_
    (fun i _ => rfl) (fun i _ => rfl) h.taken
  · dsimp only
    omega
  · dsimp only
    omega
  · rw [CommandQueue.messages_release]
    exact h.wellFormed cq
  · intro m hm
    rcases List.mem_append.1 hm with hm | hm
    · exact h.released cq m hm
    · obtain ⟨qm, hqm, rfl⟩ := List.mem_map.1 hm
      simpa using List.all_eq_true.1 List.all_takeWhile qm hqm
  · rw [CommandQueue.messages_release]
    exact h.order cq

theorem releaseReady (h : Inv s ms) (ackClock : ℕ) {l : List ι}
    (hl : ∀ cq ∈ l, cq ∈ s.pendingQueues) : Inv (releaseReady ackClock l s) ms := by
  induction l generalizing s with
  | nil => exact h
  | cons cq l ih =>
    obtain ⟨hcq, hl⟩ := List.forall_mem_cons.1 hl
    exact ih (h.release hcq ackClock) hl

/-- A batch is queued. -/
theorem sendBatch (h : Inv s ms) (cq : ι) {msgs : List (PendingMessage κ)}
    (hmsgs : ∀ qm ∈ msgs, WellFormed qm) : Inv (s.sendBatch cq msgs) ms := by
  have hmsgs : ∀ qm ∈ msgs.map PendingMessage.setMinClock, WellFormed qm := by
    intro qm hqm
    obtain ⟨qm', hqm', rfl⟩ := List.mem_map.1 hqm
    unfold WellFormed
    rw [PendingMessage.setMinClock_len, PendingMessage.setMinClock_reqClock]
    exact hmsgs qm' hqm'
  unfold TransmitQueue.sendBatch
  generalize msgs.map PendingMessage.setMinClock = msgs at hmsgs
  cases msgs with
  | nil => exact h
  | cons qm rest =>
    dsimp only
    by_cases hlen : totalLen (qm :: rest) = 0
    · rw [if_pos hlen]
      exact h
    rw [if_neg hlen]
    have hmem := h.pending cq
    refine h.update cq rfl ?_ ?_ ?_ ?_ ?_ ?_ (h.released cq) ?_ ?_ (fun i _ => rfl) h.taken
    · dsimp only
      split_ifs with hempty
      · exact h.nodup.append (List.nodup_singleton cq) (by simpa using mt hmem.1 (not_not.2 hempty))
      · exact h.nodup
    · dsimp only
      refine iff_of_true ?_ (by simp [CommandQueue.Empty])
      split_ifs with hempty
      · simp
      · exact hmem.2 hempty
    · intro i hi
      dsimp only
      split_ifs
      · simp [hi]
      · rfl
    · rw [sub_self, add_zero]
    · dsimp only
      rw [totalLen_append]
      omega
    · intro qm' hqm'
      rw [CommandQueue.messages, ← List.append_assoc, List.mem_append] at hqm'
      exact hqm'.elim (h.wellFormed cq qm') (hmsgs qm')
    · dsimp only
      rw [Function.update_self, h.order cq, CommandQueue.messages, CommandQueue.messages]
      simp only [List.append_assoc]
    · intro i hi
      exact Function.update_of_ne hi _ _

theorem takenFrom_concat (cq : ι) (ms : List (Taken ι κ)) (m : Taken ι κ) :
    takenFrom cq (ms ++ [m]) = takenFrom cq ms ++ if m.queue = cq then [m.qm] else [] := by
  unfold takenFrom
  rw [List.filter_append, List.map_append]
  by_cases hm : m.queue = cq
  · simp [hm]
  · simp [hm]

/-- The first ready message of a queue is taken. -/
theorem takeReady (h : Inv s ms) {m : Taken ι κ} {rest : List (PendingMessage κ × ℕ)}
    (hready : (s.queues m.queue).readyQueue = (m.qm, m.ackClock) :: rest) :
    Inv (s.takeReady m) (ms ++ [m]) := by
  have hmem := (h.pending m.queue).2 fun hempty => by
    rw [hempty.1] at hready
    cases hready
  have hmessages : (s.queues m.queue).messages = m.qm :: (CommandQueue.messages
      { s.queues m.queue with readyQueue := rest }) := by
    rw [CommandQueue.messages, hready]
    rfl
  have hassoc : (s.takeReady m).blocks.flatten ++ (ms ++ [m]) =
      s.blocks.flatten ++ ms ++ [m] := (List.append_assoc _ _ _).symm
  have htail : (s.takeReady m).queues = Function.update s.queues m.queue
      { s.queues m.queue with readyQueue := rest } := by
    unfold TransmitQueue.takeReady
    rw [hready]
    rfl
  have hpending : (s.takeReady m).pendingQueues =
      if CommandQueue.Empty { s.queues m.queue with readyQueue := rest } then
        s.pendingQueues.erase m.queue else s.pendingQueues := by
    unfold TransmitQueue.takeReady
    rw [hready]
    rfl
  refine h.update m.queue htail ?_ ?_ ?_ ?_ ?_ ?_ ?_ ?_ (fun i _ => rfl) ?_ ?_
  · rw [hpending]
    split_ifs
    · exact h.nodup.erase _
    · exact h.nodup
  · rw [hpending]
    split_ifs with hempty
    · exact iff_of_false (fun hmem => h.nodup.not_mem_erase hmem) (not_not.2 hempty)
    · exact iff_of_true hmem hempty
  · intro i hi
    rw [hpending]
    split_ifs
    · exact List.mem_erase_of_ne hi
    · rfl
  · rw [hready, List.map_cons, totalLen_cons]
    show s.readyBytes - (m.qm.len : ℤ) =
      s.readyBytes + (totalLen (rest.map Prod.fst) - (m.qm.len + totalLen (rest.map Prod.fst)))
    omega
  · rw [sub_self, add_zero]
    rfl
  · intro qm hqm
    exact h.wellFormed m.queue qm (hmessages ▸ List.mem_cons_of_mem _ hqm)
  · intro m' hm'
    exact h.released m.queue m' (hready ▸ List.mem_cons_of_mem _ hm')
  · rw [hassoc, takenFrom_concat, if_pos rfl, List.append_assoc, List.singleton_append,
      ← hmessages]
    exact h.order m.queue
  · intro i hi
    rw [hassoc, takenFrom_concat, if_neg (Ne.symm hi), List.append_nil]
  · intro m' hm'
    rw [hassoc] at hm'
    rcases List.mem_append.1 hm' with hm' | hm'
    · exact h.taken m' hm'
    · rw [List.mem_singleton.1 hm']
      exact h.released m.queue (m.qm, m.ackClock) (hready ▸ List.mem_cons_self)

end Inv

/-! ## A block -/

/-- The best message so far is none, or the first of a pending queue. -/
def Best (s : TransmitQueue ι κ) (best : ℕ × Option (Taken ι κ)) : Prop :=
  best = (maxClock, none) ∨ ∃ m rest, best = (m.qm.reqClock, some m) ∧
    (s.queues m.queue).readyQueue = (m.qm, m.ackClock) :: rest

/-- The best message after these queues has no higher clock than the first of each. -/
theorem best_foldl (s : TransmitQueue ι κ) (l : List ι) (best : ℕ × Option (Taken ι κ))
    (h : s.Best best) :
    s.Best (l.foldl (fun best cq =>
      match (s.queues cq).readyQueue with
      | [] => best
      | m :: _ =>
        if m.1.reqClock < best.1 then (m.1.reqClock, some ⟨cq, m.1, m.2⟩) else best) best) ∧
    ∀ c : ℕ, (c = best.1 ∨ ∃ cq ∈ l, ∃ m ∈ (s.queues cq).readyQueue.head?, c = m.1.reqClock) →
      (l.foldl (fun best cq =>
        match (s.queues cq).readyQueue with
        | [] => best
        | m :: _ =>
          if m.1.reqClock < best.1 then (m.1.reqClock, some ⟨cq, m.1, m.2⟩) else best)
        best).1 ≤ c := by
  induction l generalizing best with
  | nil =>
    refine ⟨h, fun c hc => ?_⟩
    rcases hc with rfl | ⟨cq, hcq, -⟩
    · exact le_rfl
    · cases hcq
  | cons cq l ih =>
    rw [List.foldl_cons]
    cases hready : (s.queues cq).readyQueue with
    | nil =>
      dsimp only
      obtain ⟨hbest, hle⟩ := ih best h
      refine ⟨hbest, fun c hc => hle c (hc.imp_right ?_)⟩
      rintro ⟨cq', hcq', m, hm, rfl⟩
      rcases List.mem_cons.1 hcq' with rfl | hcq'
      · rw [hready] at hm
        cases hm
      · exact ⟨cq', hcq', m, hm, rfl⟩
    | cons m rest =>
      dsimp only
      split_ifs with hlt
      · obtain ⟨hbest, hle⟩ := ih (m.1.reqClock, some ⟨cq, m.1, m.2⟩)
          (.inr ⟨⟨cq, m.1, m.2⟩, rest, rfl, hready⟩)
        refine ⟨hbest, fun c hc => ?_⟩
        rcases hc with rfl | ⟨cq', hcq', m', hm', rfl⟩
        · exact (hle _ (.inl rfl)).trans hlt.le
        · rcases List.mem_cons.1 hcq' with rfl | hcq'
          · rw [hready] at hm'
            obtain rfl := Option.some_inj.1 hm'
            exact hle _ (.inl rfl)
          · exact hle _ (.inr ⟨cq', hcq', m', hm', rfl⟩)
      · obtain ⟨hbest, hle⟩ := ih best h
        refine ⟨hbest, fun c hc => ?_⟩
        rcases hc with rfl | ⟨cq', hcq', m', hm', rfl⟩
        · exact hle _ (.inl rfl)
        · rcases List.mem_cons.1 hcq' with rfl | hcq'
          · rw [hready] at hm'
            obtain rfl := Option.some_inj.1 hm'
            exact (hle _ (.inl rfl)).trans (not_lt.1 hlt)
          · exact hle _ (.inr ⟨cq', hcq', m', hm', rfl⟩)

/-- While there are ready bytes, some queue has a ready message. The one that is found is the first
of its queue, and no ready message that is first has a lower clock. -/
theorem selectReady_spec {s : TransmitQueue ι κ} {ms : List (Taken ι κ)} (h : Inv s ms)
    (hready : s.readyBytes ≠ 0) : ∃ m rest, s.selectReady = some m ∧
      (s.queues m.queue).readyQueue = (m.qm, m.ackClock) :: rest ∧
      ∀ cq, ∀ m' ∈ (s.queues cq).readyQueue.head?, m.qm.reqClock ≤ m'.1.reqClock := by
  obtain ⟨hbest, hle⟩ := s.best_foldl s.pendingQueues (maxClock, none) (.inl rfl)
  have hmem : ∀ cq, ∀ m' ∈ (s.queues cq).readyQueue.head?, cq ∈ s.pendingQueues := by
    refine fun cq m' hm' => (h.pending cq).2 fun hempty => ?_
    rw [hempty.1] at hm'
    cases hm'
  rcases hbest with hnone | ⟨m, rest, hbest, hqueue⟩
  · exfalso
    refine hready (h.ready.trans (finsum_eq_zero_of_forall_eq_zero fun cq => ?_))
    cases hqueue : (s.queues cq).readyQueue with
    | nil => rfl
    | cons m rest =>
      have hhead : m ∈ (s.queues cq).readyQueue.head? := hqueue ▸ rfl
      have hclock := hle _ (.inr ⟨cq, hmem cq m hhead, m, hhead, rfl⟩)
      rw [hnone] at hclock
      have hqm : m.1 ∈ (s.queues cq).messages := by
        rw [CommandQueue.messages, hqueue]
        exact List.mem_cons_self
      exact absurd hclock (not_le.2 (h.wellFormed cq m.1 hqm).2.2)
  · refine ⟨m, rest, congrArg Prod.snd hbest, hqueue, fun cq m' hm' => ?_⟩
    have hclock := hle _ (.inr ⟨cq, hmem cq m' hm', m', hm', rfl⟩)
    rwa [hbest] at hclock

/-- The bytes of the messages of a block. -/
def payload (ms : List (Taken ι κ)) : ℕ :=
  (ms.map fun m => m.qm.len).sum

/-- The loop of `build_and_send_command` ends with a block that has room for the trailer, and has a
message if one is ready. -/
theorem fillBlock_spec (turns len : ℕ) {s : TransmitQueue ι κ} {ms : List (Taken ι κ)}
    (h : Inv s ms) (hturns : 61 < turns + len) (hlen : len ≤ 61) :
    ∃ t ms', fillBlock turns len s = some (t, ms') ∧ Inv t (ms ++ ms') ∧ len + payload ms' ≤ 61 ∧
      (s.readyBytes ≠ 0 → len = 2 → ms' ≠ []) ∧
      t = { s with
        queues := t.queues, pendingQueues := t.pendingQueues, readyBytes := t.readyBytes } := by
  induction turns generalizing len s ms with
  | zero => omega
  | succ turns ih =>
    rw [fillBlock]
    split_ifs with hready
    · refine ⟨s, [], rfl, ?_, hlen, fun hne => absurd hready hne, rfl⟩
      rw [List.append_nil]
      exact h
    obtain ⟨m, rest, hselect, hqueue, -⟩ := selectReady_spec h hready
    rw [hselect]
    dsimp only
    have hqm : m.qm ∈ (s.queues m.queue).messages := by
      rw [CommandQueue.messages, hqueue]
      exact List.mem_cons_self
    obtain ⟨hpos, hmax, -⟩ := h.wellFormed m.queue m.qm hqm
    have hmax : m.qm.len ≤ 59 := hmax
    split_ifs with hfull
    · have hfull : 61 < len + m.qm.len := hfull
      refine ⟨s, [], rfl, ?_, hlen, fun _ htwo => by omega, rfl⟩
      rw [List.append_nil]
      exact h
    · have hfull : ¬ 61 < len + m.qm.len := hfull
      obtain ⟨t, ms', hfill, ht, hsum, -, hsame⟩ := ih (len + m.qm.len)
        (h.takeReady hqueue) (by omega) (by omega)
      refine ⟨t, m :: ms', ?_, ?_, ?_, fun _ _ => List.cons_ne_nil m ms', ?_⟩
      · rw [hfill]
        rfl
      · rw [List.append_cons]
        exact ht
      · rw [payload, List.map_cons, List.sum_cons, ← Nat.add_assoc]
        exact hsum
      · exact hsame

end TransmitQueue

/-! ## Acknowledgements -/

namespace SerialQueue

variable {κ : Type*}

/-- `need_ack_bytes` counts the blocks of `sent_queue`. -/
def AckCounted (sq : SerialQueue κ) : Prop :=
  sq.needAckBytes = (sq.sentQueue.map fun f => (f.len : ℤ)).sum

namespace AckCounted

theorem popSent {rseq : ℕ} : ∀ {q : List (CommandFrame κ)} {sentSeq : ℕ} {sq : SerialQueue κ},
    sq.sentQueue = q → sq.AckCounted → (popSent rseq sentSeq q sq).AckCounted
  | [], _, sq, hq, h => by
    unfold AckCounted at h ⊢
    rw [hq] at h
    exact h
  | sent :: rest, sentSeq, sq, hq, h => by
    have hrest : AckCounted { sq with needAckBytes := sq.needAckBytes - sent.len,
                                      sentQueue := rest } := by
      unfold AckCounted at h ⊢
      rw [hq, List.map_cons, List.sum_cons] at h
      dsimp only
      omega
    rw [SerialQueue.popSent]
    split_ifs
    · exact hrest
    · exact popSent rfl hrest

theorem handleMessage {sq : SerialQueue κ} (h : sq.AckCounted) (f : ResponseFrame) :
    (sq.handleMessage f).AckCounted := by
  unfold SerialQueue.handleMessage
  dsimp only
  split_ifs
  · exact h
  all_goals first
    | exact h
    | exact h.popSent rfl

theorem buildAndSendCommand {sq : SerialQueue κ} (h : sq.AckCounted)
    (qms : List (QueueMessage κ)) : (sq.buildAndSendCommand qms).1.AckCounted := by
  unfold AckCounted at h ⊢
  rw [buildAndSendCommand_fst_sentQueue, List.map_append, List.sum_append, ← h,
    List.map_singleton, List.sum_singleton]
  rfl

end AckCounted

end SerialQueue

namespace TransmitQueue

variable {ι κ : Type*} [DecidableEq ι]

/-! ## A run -/

/-- A block of these messages, which is not too long. -/
structure IsBlock (f : CommandFrame κ) (ms : List (Taken ι κ)) : Prop where
  msg : f.msg = ms.map fun m => m.qm.msg
  len : f.len = messageMin + payload ms
  le : f.len ≤ messageMax

/-- What holds in every state. -/
structure Transmitting (s : TransmitQueue ι κ) : Prop where
  queues : Inv s []
  acks : s.sq.AckCounted
  frames : List.Forall₂ IsBlock (s.written ++ s.buf) s.blocks
  room : s.buflen ≤ bufSize
  unlocked : s.locked = false → s.buf = []

/-- The queues and their counters are all that changes. -/
def SameBlocks (s t : TransmitQueue ι κ) : Prop :=
  t.sq = s.sq ∧ t.locked = s.locked ∧ t.buf = s.buf ∧ t.blocks = s.blocks ∧ t.written = s.written

theorem SameBlocks.refl (s : TransmitQueue ι κ) : s.SameBlocks s :=
  ⟨rfl, rfl, rfl, rfl, rfl⟩

theorem sameBlocks_sendBatch (s : TransmitQueue ι κ) (cq : ι) (msgs : List (PendingMessage κ)) :
    s.SameBlocks (s.sendBatch cq msgs) := by
  unfold sendBatch
  dsimp only
  split
  · exact .refl s
  · split_ifs <;> exact ⟨rfl, rfl, rfl, rfl, rfl⟩

theorem sameBlocks_releaseReady (ackClock : ℕ) (l : List ι) (s : TransmitQueue ι κ) :
    s.SameBlocks (releaseReady ackClock l s) := by
  induction l generalizing s with
  | nil => exact .refl s
  | cons cq l ih => exact ih _

namespace Transmitting

variable {s t : TransmitQueue ι κ}

theorem init (h : Init s) : Transmitting s where
  queues := .init h
  acks := by unfold SerialQueue.AckCounted; rw [h.needAckBytes, h.sentQueue]; rfl
  frames := by rw [h.written, h.buf, h.blocks]; exact .nil
  room := by rw [buflen, h.buf]; exact Nat.zero_le _
  unlocked _ := h.buf

/-- The queues change, and the blocks do not. -/
theorem mono (h : Transmitting s) (hsame : s.SameBlocks t) (hqueues : Inv t []) :
    Transmitting t := by
  obtain ⟨hsq, hlocked, hbuf, hblocks, hwritten⟩ := hsame
  refine ⟨hqueues, hsq ▸ h.acks, ?_, ?_, ?_⟩
  · rw [hwritten, hbuf, hblocks]
    exact h.frames
  · rw [buflen, hbuf]
    exact h.room
  · rw [hlocked, hbuf]
    exact h.unlocked

/-- An acknowledgement or a retransmission. -/
theorem ack (h : Transmitting s) {sq : SerialQueue κ} (hsq : sq.AckCounted) :
    Transmitting { s with sq := sq } :=
  ⟨by apply h.queues.congr <;> rfl, hsq, h.frames, h.room, h.unlocked⟩

theorem checkSendCommand (h : Transmitting s) (e : Estimate) :
    Transmitting (s.checkSendCommand e).1 := by
  have hready : Transmitting (releaseReady e.ackClock s.pendingQueues s) :=
    h.mono (sameBlocks_releaseReady _ _ s) (h.queues.releaseReady e.ackClock fun _ hcq => hcq)
  have hclock : ∀ n, Transmitting
      { releaseReady e.ackClock s.pendingQueues s with needKickClock := n } := fun n =>
    hready.mono ⟨rfl, rfl, rfl, rfl, rfl⟩ (by apply hready.queues.congr <;> rfl)
  unfold TransmitQueue.checkSendCommand
  dsimp only
  by_cases hsq : s.sq.checkSendCommand = true
  · rw [if_pos hsq]
    split_ifs
    all_goals first
      | exact hready
      | exact hclock _
  · rw [if_neg hsq]
    exact h

theorem flush (h : Transmitting s) : Transmitting s.flush where
  queues := by apply h.queues.congr <;> rfl
  acks := h.acks
  frames := by
    show List.Forall₂ IsBlock (s.written ++ s.buf ++ []) s.blocks
    rw [List.append_nil]
    exact h.frames
  room := Nat.zero_le _
  unlocked _ := rfl

/-- In front of `build_and_send_command` there is room for a block. -/
theorem beforeBuild (h : Transmitting s) (e : Estimate) : Transmitting (s.beforeBuild e).1 ∧
    (s.beforeBuild e).1.buflen + messageMax ≤ bufSize ∧
    ((s.beforeBuild e).2 = false → (s.beforeBuild e).1.buf = []) := by
  have hcheck := h.checkSendCommand e
  have hroom : messageMax ≤ bufSize := by decide
  unfold TransmitQueue.beforeBuild
  dsimp only
  split_ifs with hflush
  · refine ⟨hcheck.flush, ?_, fun _ => rfl⟩
    show 0 + messageMax ≤ bufSize
    omega
  · push Not at hflush
    exact ⟨hcheck, hflush.2, fun hnever => absurd hflush.1 (of_decide_eq_false hnever)⟩

/-- `build_and_send_command` finds its messages, and one at least if there are ready bytes. The
block fits into the buffer. -/
theorem buildAndSendCommand (h : Transmitting s) (hroom : s.buflen + messageMax ≤ bufSize) :
    ∃ t out, ∃ ms : List (Taken ι κ), s.buildAndSendCommand = some t ∧
      Transmitting { t with locked := true } ∧
      t.buf = s.buf ++ [out] ∧ IsBlock out ms ∧ (s.readyBytes ≠ 0 → ms ≠ []) := by
  obtain ⟨t, ms, hfill, ht, hlen, hne, hsame⟩ := fillBlock_spec messageMax 2 h.queues
    (by decide) (by decide)
  have hsum : (((ms.map fun m => m.qm.toQueueMessage).map QueueMessage.len).sum) = payload ms := by
    rw [List.map_map]
    rfl
  have hblock : IsBlock (s.sq.buildAndSendCommand (ms.map fun m => m.qm.toQueueMessage)).2 ms := by
    rw [SerialQueue.buildAndSendCommand_snd, hsum]
    refine ⟨by rw [List.map_map]; rfl, rfl, ?_⟩
    show 5 + payload ms ≤ 64
    omega
  unfold TransmitQueue.buildAndSendCommand
  rw [hfill, hsame]
  refine ⟨_, _, ms, rfl, ?_, rfl, hblock, fun hready => hne hready rfl⟩
  refine ⟨?_, h.acks.buildAndSendCommand _, ?_, ?_, nofun⟩
  · apply ht.congr
    · rfl
    · rfl
    · rfl
    · rw [hsame]
    · rw [hsame]
    · rw [hsame]
      simp
  · show List.Forall₂ IsBlock (s.written ++ (s.buf ++ [_])) (s.blocks ++ [ms])
    rw [← List.append_assoc]
    exact List.rel_append h.frames (.cons hblock .nil)
  · show ((s.buf ++ [_]).map CommandFrame.len).sum ≤ bufSize
    rw [List.map_append, List.sum_append, List.map_singleton, List.sum_singleton]
    exact (Nat.add_le_add_left hblock.le _).trans hroom

/-- A turn of `command_event` is never stuck. -/
theorem commandEvent (h : Transmitting s) (e : Estimate) :
    ∃ t, s.commandEvent e = some t ∧ Transmitting t := by
  obtain ⟨hbefore, hroom, hdone⟩ := h.beforeBuild e
  unfold TransmitQueue.commandEvent
  dsimp only
  split_ifs with hagain
  · obtain ⟨t, -, -, ht, htrans, -⟩ := hbefore.buildAndSendCommand hroom
    rw [ht]
    exact ⟨_, rfl, htrans⟩
  · have hbuf := hdone (Bool.not_eq_true _ ▸ hagain)
    exact ⟨_, rfl, by apply hbefore.queues.congr <;> rfl, hbefore.acks, hbefore.frames,
      hbefore.room, fun _ => hbuf⟩

end Transmitting

/-- What holds in every state of a run. -/
theorem transmitting_of_reachable {s : TransmitQueue ι κ}
    (h : (system ι κ).ReachableBy Allowed s) : Transmitting s := by
  refine h.invariant (fun s hs => .init hs) ?_
  clear h s
  rintro s a t hs ha ht
  cases a with
  | sendBatch cq msgs =>
    obtain ⟨-, ht⟩ := Option.ite_none_left_eq_some.1 ht
    obtain rfl := Option.some_inj.1 ht
    exact hs.mono (sameBlocks_sendBatch s cq msgs) (hs.queues.sendBatch cq ha)
  | command e =>
    obtain ⟨t', ht', htrans⟩ := hs.commandEvent e
    obtain rfl := Option.some_inj.1 (ht'.symm.trans ht)
    exact htrans
  | receive f =>
    obtain ⟨-, ht⟩ := Option.ite_none_left_eq_some.1 ht
    obtain rfl := Option.some_inj.1 ht
    exact hs.ack (hs.acks.handleMessage f)
  | retransmit =>
    obtain ⟨-, ht⟩ := Option.ite_none_left_eq_some.1 ht
    obtain rfl := Option.some_inj.1 ht
    exact hs.ack hs.acks

/-- In every state the counters are the bytes of the queues, a queue is pending if it has a message,
and the messages of a queue are those of it that were put into blocks, in the order in which they
were queued, and those that it has. None of them is released before its `min_clock`. A turn of
`command_event` has room for the block that it builds, and finds a message while bytes are ready. -/
theorem transmission_of_reachable {s : TransmitQueue ι κ}
    (h : (system ι κ).ReachableBy Allowed s) :
    (s.readyBytes = ∑ᶠ cq, totalLen ((s.queues cq).readyQueue.map Prod.fst) ∧
      s.upcomingBytes = ∑ᶠ cq, totalLen (s.queues cq).upcomingQueue ∧
      s.sq.needAckBytes = (s.sq.sentQueue.map fun f => (f.len : ℤ)).sum) ∧
    (s.pendingQueues.Nodup ∧ ∀ cq, cq ∈ s.pendingQueues ↔
      (s.queues cq).readyQueue ≠ [] ∨ (s.queues cq).upcomingQueue ≠ []) ∧
    (List.Forall₂ IsBlock (s.written ++ s.buf) s.blocks ∧ ∀ cq, s.queued cq =
      takenFrom cq s.blocks.flatten ++
        ((s.queues cq).readyQueue.map Prod.fst ++ (s.queues cq).upcomingQueue)) ∧
    (∀ m ∈ s.blocks.flatten, m.qm.minClock ≤ m.ackClock) ∧
    (s.readyBytes ≠ 0 → s.selectReady.isSome = true) ∧ s.buflen ≤ bufSize ∧
    ∀ e, (s.beforeBuild e).1.buflen + messageMax ≤ bufSize ∧
      ∃ t out, ∃ ms : List (Taken ι κ), (s.beforeBuild e).1.buildAndSendCommand = some t ∧
        t.buf = (s.beforeBuild e).1.buf ++ [out] ∧ IsBlock out ms ∧
        ((s.beforeBuild e).1.readyBytes ≠ 0 → ms ≠ []) := by
  have hs := transmitting_of_reachable h
  refine ⟨⟨hs.queues.ready, hs.queues.upcoming, hs.acks⟩, ⟨hs.queues.nodup, fun cq => ?_⟩,
    ⟨hs.frames, fun cq => ?_⟩, fun m hm => ?_, fun hready => ?_, hs.room, fun e => ?_⟩
  · rw [hs.queues.pending cq, CommandQueue.Empty]
    tauto
  · have horder := hs.queues.order cq
    rwa [List.append_nil] at horder
  · exact hs.queues.taken m (List.mem_append_left _ hm)
  · obtain ⟨m, -, hselect, -⟩ := selectReady_spec hs.queues hready
    rw [hselect]
    rfl
  · obtain ⟨hbefore, hroom, -⟩ := hs.beforeBuild e
    obtain ⟨t, out, ms, ht, -, hbuf, hblock, hne⟩ := hbefore.buildAndSendCommand hroom
    exact ⟨hroom, t, out, ms, ht, hbuf, hblock, hne⟩

instance (s : TransmitQueue ι κ) : (a : TransmitEvent ι κ) → Decidable (Allowed s a)
  | .sendBatch _ msgs => inferInstanceAs (Decidable (∀ qm ∈ msgs, _ ∧ _))
  | .command _ => isTrue trivial
  | .receive _ => isTrue trivial
  | .retransmit => isTrue trivial

/-- Two queues before anything is queued. -/
def twoQueues : TransmitQueue Bool ℕ where
  sq := ⟨.uart, 0, 1, 1, 0, 0, 0, [], 0, 0, .never, [], []⟩
  queues _ := ⟨[], []⟩
  pendingQueues := []
  readyBytes := 0
  upcomingBytes := 0
  needKickClock := maxClock
  locked := false
  buf := []
  queued _ := []
  blocks := []
  written := []

/-- Two messages of one queue, and one of the other that goes out between them. -/
theorem transmission_of_reachable_two :
    ∃ s, (system Bool ℕ).ReachableBy Allowed s ∧ s.sq.needAckBytes = 0 ∧
      s.written.map CommandFrame.msg = [[1, 3, 2]] ∧ s.pendingQueues = [] ∧
      s.queued false = takenFrom false s.blocks.flatten := by
  have hrun : ((system Bool ℕ).run twoQueues
      [.sendBatch false [⟨⟨1, 4, 0⟩, 0, 10⟩, ⟨⟨2, 4, 7⟩, 0, 30⟩], .sendBatch true [⟨⟨3, 5, 0⟩, 0, 20⟩],
        .command ⟨5, 0, false, 0, .never⟩, .command ⟨5, 0, false, 0, .never⟩,
        .receive ⟨wireSeq 2, 5⟩]).map (fun s => (s.written.map CommandFrame.msg,
          s.sq.sentQueue.length, s.pendingQueues)) = some ([[1, 3, 2]], 0, []) := by
    decide +kernel
  obtain ⟨s, hs, heq⟩ := Option.map_eq_some_iff.1 hrun
  obtain ⟨hwritten, heq⟩ := Prod.mk.inj heq
  obtain ⟨hsent, hpending⟩ := Prod.mk.inj heq
  have hinit : (system Bool ℕ).init twoQueues :=
    ⟨rfl, rfl, fun _ => rfl, rfl, rfl, rfl, rfl, rfl, fun _ => rfl, rfl, rfl⟩
  have hreach : (system Bool ℕ).ReachableBy Allowed s :=
    System.ReachableBy.run (.init hinit) (by decide +kernel) hs
  obtain ⟨⟨-, -, hacks⟩, ⟨-, hmem⟩, ⟨-, horder⟩, -⟩ := transmission_of_reachable hreach
  have hnone : ¬ ((s.queues false).readyQueue ≠ [] ∨ (s.queues false).upcomingQueue ≠ []) := by
    rw [← hmem, hpending]
    exact List.not_mem_nil
  push Not at hnone
  refine ⟨s, hreach, ?_, hwritten, hpending, ?_⟩
  · rw [hacks, List.eq_nil_of_length_eq_zero hsent]
    rfl
  · rw [horder false, hnone.1, hnone.2]
    exact List.append_nil _

end TransmitQueue

end Thinker
