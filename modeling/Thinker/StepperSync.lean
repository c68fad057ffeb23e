import Thinker.Heap
import Thinker.Numerals
import Thinker.Transition

/-!
# The move queue of a micro-controller

`steppersync_flush` of `stepcompress.c` batches the messages of all steppers of a
micro-controller. `move_clocks` is a heap of the clocks at which the slots of the move queue
are released. A message that needs a slot gets the least of them as its `min_clock`, and its
own release clock takes its place (`Slots`).

The clocks bound the use of the queue if the messages are received in the order of the
batch : while a message waits for its `min_clock`, so do those behind it. Then every slot
taken up to a clock was released by then, and the slots in use are entries of the heap
(`Slots.occupied_le`). Without the order the bound fails (`not_occupied_le_unordered`).
-/

namespace Thinker

/-- `uint64_t`; its greatest value is `UINT64_MAX`. -/
abbrev Clock := Fin (2 ^ 64)

/-- `MAX_CLOCK`. -/
def maxClock : Clock := 0x7fffffffffffffff

namespace StepperSync

/-- A message of a stepper. While it waits in `msg_queue`, a `min_clock` other than zero is
the clock at which the slot it uses is released. -/
structure QueueMessage (κ : Type*) where
  msg : κ
  minClock : Clock
  reqClock : Clock
  deriving DecidableEq, Repr

/-- A message in a batch, from which stepper, and the `min_clock` it is sent with. -/
structure Batched (κ : Type*) where
  sc : ℕ
  qm : QueueMessage κ
  minClock : Clock
  deriving DecidableEq, Repr

end StepperSync

/-- The `msg_queue` of each stepper, and the clocks at which slots are released. -/
structure StepperSync (κ : Type*) where
  scList : List (List (StepperSync.QueueMessage κ))
  moveClocks : List Clock
  deriving DecidableEq, Repr

namespace StepperSync

open Heap

variable {κ : Type*}

/-- `heap_replace`. -/
def heapReplace (ss : StepperSync κ) (reqClock : Clock) : StepperSync κ :=
  { ss with moveClocks := siftDown reqClock ss.moveClocks 0 }

/-- The loop of `steppersync_flush` that finds the message with lowest `req_clock`, from
stepper `i` on. -/
def lowest : List (List (QueueMessage κ)) → ℕ → Clock → Option (ℕ × QueueMessage κ) →
    Option (ℕ × QueueMessage κ)
  | [], _, _, found => found
  | [] :: rest, i, reqClock, found => lowest rest (i + 1) reqClock found
  | (m :: _) :: rest, i, reqClock, found =>
    if m.reqClock < reqClock then lowest rest (i + 1) m.reqClock (some (i, m))
    else lowest rest (i + 1) reqClock found

/-- One round of the batch loop of `steppersync_flush`, `none` if it breaks. -/
def batchMessage (ss : StepperSync κ) (moveClock : Clock) :
    Option (StepperSync κ × Batched κ) :=
  match lowest ss.scList 0 maxClock none with
  | none => none
  | some (i, qm) =>
    if qm.minClock ≠ 0 ∧ qm.reqClock > moveClock then none
    else
      let nextAvail := entry ss.moveClocks 0
      let ss := if qm.minClock ≠ 0 then ss.heapReplace qm.minClock else ss
      some ({ ss with scList := ss.scList.modify i List.tail }, ⟨i, qm, nextAvail⟩)

/-- At most `n` rounds of the batch loop : the new state and the batch. -/
def batchLoop (moveClock : Clock) : ℕ → StepperSync κ → StepperSync κ × List (Batched κ)
  | 0, ss => (ss, [])
  | n + 1, ss =>
    match ss.batchMessage moveClock with
    | none => (ss, [])
    | some (ss', b) =>
      let (ss'', bs) := batchLoop moveClock n ss'
      (ss'', b :: bs)

/-- The number of messages that wait. -/
def pending (ss : StepperSync κ) : ℕ := (ss.scList.map List.length).sum

/-- `steppersync_flush` once every stepper has flushed its steps. -/
def steppersyncFlush (ss : StepperSync κ) (moveClock : Clock) :
    StepperSync κ × List (Batched κ) :=
  batchLoop moveClock ss.pending ss

/-! ## One round -/

/-- The message found is the first of its queue. -/
theorem lowest_spec {scs : List (List (QueueMessage κ))} {i : ℕ} {reqClock : Clock}
    {found : Option (ℕ × QueueMessage κ)} {j : ℕ} {qm : QueueMessage κ}
    (h : lowest scs i reqClock found = some (j, qm)) :
    found = some (j, qm) ∨ ∃ k q, j = i + k ∧ scs[k]? = some (qm :: q) := by
  induction scs generalizing i reqClock found with
  | nil => exact Or.inl h
  | cons q scs ih =>
    have hrest : ∀ {r f}, lowest scs (i + 1) r f = some (j, qm) → f = some (j, qm) ∨
        ∃ k q', j = i + k ∧ (q :: scs)[k]? = some (qm :: q') := fun h => by
      rcases ih h with h | ⟨k, q', rfl, hk⟩
      · exact Or.inl h
      · exact Or.inr ⟨k + 1, q', by omega, by simpa using hk⟩
    cases q with
    | nil => exact hrest h
    | cons m q =>
      rw [lowest] at h
      split_ifs at h with hlt
      · rcases hrest h with heq | h
        · simp only [Option.some.injEq, Prod.mk.injEq] at heq
          obtain ⟨rfl, rfl⟩ := heq
          exact Or.inr ⟨0, q, rfl, rfl⟩
        · exact Or.inr h
      · exact hrest h

/-- A round takes the first message of a queue. If the message needs a slot, its release
clock goes into the heap. -/
theorem batchMessage_spec {ss ss' : StepperSync κ} {moveClock : Clock} {b : Batched κ}
    (h : ss.batchMessage moveClock = some (ss', b)) :
    (∃ q, ss.scList[b.sc]? = some (b.qm :: q) ∧
      ss'.scList = ss.scList.set b.sc q) ∧
      b.minClock = entry ss.moveClocks 0 ∧
      ss'.moveClocks = if b.qm.minClock ≠ 0 then siftDown b.qm.minClock ss.moveClocks 0
        else ss.moveClocks := by
  rcases hlow : lowest ss.scList 0 maxClock none with _ | ⟨i, qm⟩
  · simp [batchMessage, hlow] at h
  rw [batchMessage, hlow] at h
  simp only [Option.ite_none_left_eq_some, Option.some.injEq, Prod.mk.injEq] at h
  obtain ⟨_, rfl, rfl⟩ := h
  obtain ⟨k, q, rfl, hk⟩ := (lowest_spec hlow).resolve_left (by simp)
  rw [Nat.zero_add]
  refine ⟨⟨q, hk, ?_⟩, rfl, ?_⟩
  · split_ifs <;> simp [heapReplace, List.modify_eq_set, hk]
  · split_ifs <;> rfl

/-! ## Slots -/

/-- The release clocks after some messages, when each message that uses a slot takes the
least of them as its `min_clock` and leaves its own release clock. -/
inductive Slots (moveNum : ℕ) : List (Batched κ) → Multiset Clock → Prop
  | init : Slots moveNum [] (Multiset.replicate moveNum 0)
  | other {bs : List (Batched κ)} {mc : Multiset Clock} {b : Batched κ} (h : Slots moveNum bs mc)
      (hb : b.qm.minClock = 0) : Slots moveNum (bs ++ [b]) mc
  | replace {bs : List (Batched κ)} {mc : Multiset Clock} {b : Batched κ}
      (h : Slots moveNum bs mc) (hb : b.qm.minClock ≠ 0) (hmem : b.minClock ∈ mc)
      (hle : ∀ c ∈ mc, b.minClock ≤ c) :
      Slots moveNum (bs ++ [b]) (b.qm.minClock ::ₘ mc.erase b.minClock)

/-- The messages that use a slot. -/
def consuming (bs : List (Batched κ)) : List (Batched κ) :=
  bs.filter fun b => b.qm.minClock ≠ 0

/-- The slots in use at clock `c`, when each message comes with the clock at which the
micro-controller receives it. -/
def occupied (c : Clock) (uses : List (Batched κ × Clock)) : ℕ :=
  uses.countP fun u => u.2 ≤ c ∧ c < u.1.qm.minClock

namespace Slots

variable {moveNum : ℕ} {bs : List (Batched κ)} {mc : Multiset Clock}

theorem card (h : Slots moveNum bs mc) : Multiset.card mc = moveNum := by
  induction h with
  | init => exact Multiset.card_replicate _ _
  | other _ _ ih => exact ih
  | replace h _ hmem _ ih =>
    rw [Multiset.card_cons, Multiset.card_erase_add_one hmem, ih]

/-- If every slot taken was free at `c`, the slots in use at `c` are those released later. -/
theorem countP_release (h : Slots moveNum bs mc) {c : Clock}
    (hfree : ∀ b ∈ consuming bs, b.minClock ≤ c) :
    (consuming bs).countP (fun b => c < b.qm.minClock) = mc.countP (c < ·) := by
  induction h with
  | init =>
    have hnone : ∀ a ∈ Multiset.replicate moveNum (0 : Clock), ¬c < a := fun a ha => by
      rw [Multiset.eq_of_mem_replicate ha]
      exact not_lt.2 (Fin.zero_le c)
    exact (Multiset.countP_eq_zero.2 hnone).symm
  | @other bs mc b _ hb ih =>
    have hsame : consuming (bs ++ [b]) = consuming bs := by simp [consuming, hb]
    rw [hsame] at hfree ⊢
    exact ih hfree
  | @replace bs mc b _ hb hmem _ ih =>
    have hlast : consuming (bs ++ [b]) = consuming bs ++ [b] := by simp [consuming, hb]
    rw [hlast] at hfree ⊢
    have hle : b.minClock ≤ c := hfree b (by simp)
    have hsplit : mc.countP (c < ·) = (mc.erase b.minClock).countP (c < ·) := by
      conv_lhs => rw [← Multiset.cons_erase hmem]
      exact Multiset.countP_cons_of_neg _ (not_lt.2 hle)
    rw [List.countP_append, ih fun b hb => hfree b (by simp [hb]), Multiset.countP_cons, hsplit]
    simp [List.countP_singleton]

/-- If every message was received by `c`, no more than `move_num` slots are in use at `c`. -/
theorem occupied_le_of_received (h : Slots moveNum bs mc) {c : Clock}
    {uses : List (Batched κ × Clock)} (huses : uses.map Prod.fst = consuming bs)
    (hmin : ∀ u ∈ uses, u.1.minClock ≤ u.2) (hall : ∀ u ∈ uses, u.2 ≤ c) :
    occupied c uses ≤ moveNum := by
  have hfree : ∀ b ∈ consuming bs, b.minClock ≤ c := fun b hb => by
    rw [← huses] at hb
    obtain ⟨u, hu, rfl⟩ := List.mem_map.1 hb
    exact (hmin u hu).trans (hall u hu)
  calc occupied c uses ≤ (consuming bs).countP (fun b => c < b.qm.minClock) := by
        rw [← huses, List.countP_map]
        exact List.countP_mono_left fun u _ hu => by simp_all
    _ = mc.countP (c < ·) := h.countP_release hfree
    _ ≤ moveNum := h.card ▸ Multiset.countP_le_card _ _

/-- If the messages are received in order, and each no earlier than its `min_clock`, then no
more than `move_num` slots are in use at any clock. -/
theorem occupied_le (h : Slots moveNum bs mc) (c : Clock) {uses : List (Batched κ × Clock)}
    (huses : uses.map Prod.fst = consuming bs) (hmin : ∀ u ∈ uses, u.1.minClock ≤ u.2)
    (hord : (uses.map Prod.snd).Pairwise (· ≤ ·)) : occupied c uses ≤ moveNum := by
  induction h generalizing uses with
  | init =>
    obtain rfl := List.map_eq_nil_iff.1 huses
    exact Nat.zero_le _
  | @other bs mc b _ hb ih =>
    have hsame : consuming (bs ++ [b]) = consuming bs := by simp [consuming, hb]
    exact ih (huses.trans hsame) hmin hord
  | @replace bs mc b h hb hmem hle ih =>
    have hlast : consuming (bs ++ [b]) = consuming bs ++ [b] := by simp [consuming, hb]
    rw [hlast] at huses
    obtain ⟨us, last, rfl, hus, hl⟩ := List.map_eq_append_iff.1 huses
    obtain ⟨⟨b', t⟩, rfl, rfl⟩ := List.map_eq_singleton_iff.1 hl
    rw [List.map_append, List.pairwise_append] at hord
    by_cases ht : t ≤ c
    · -- the last message was received, and so were those before it
      refine (h.replace hb hmem hle).occupied_le_of_received (by rw [huses, hlast]) hmin ?_
      intro u hu
      rcases List.mem_append.1 hu with hu | hu
      · exact (hord.2.2 u.2 (List.mem_map_of_mem hu) t (by simp)).trans ht
      · rwa [List.mem_singleton.1 hu]
    · have hzero : occupied c [(b', t)] = 0 := by simp [occupied, ht]
      have hsum : occupied c (us ++ [(b', t)]) = occupied c us + occupied c [(b', t)] :=
        List.countP_append
      rw [hsum, hzero]
      exact ih hus (fun u hu => hmin u (by simp [hu])) hord.1

end Slots

/-! ## Runs -/

/-- A stepper sync with the history of messages : those queued by each stepper, and those
batched. -/
structure Run (κ : Type*) where
  ss : StepperSync κ
  queued : List (List (QueueMessage κ))
  batched : List (Batched κ)
  deriving DecidableEq

/-- What can happen to a stepper sync. -/
inductive Event (κ : Type*)
  /-- Stepper `sc` puts a message into its `msg_queue`. -/
  | queue (sc : ℕ) (qm : QueueMessage κ)
  /-- `steppersync_flush`. -/
  | flush (moveClock : Clock)

namespace Run

/-- `steppersync_alloc` for `scNum` steppers. -/
def alloc (moveNum scNum : ℕ) : Run κ where
  ss := ⟨List.replicate scNum [], List.replicate moveNum 0⟩
  queued := List.replicate scNum []
  batched := []

/-- The state after an event. -/
def next (r : Run κ) : Event κ → Option (Run κ)
  | .queue sc qm =>
    if sc < r.ss.scList.length then
      some { r with
        ss := { r.ss with scList := r.ss.scList.modify sc (· ++ [qm]) }
        queued := r.queued.modify sc (· ++ [qm]) }
    else none
  | .flush moveClock =>
    let (ss, bs) := r.ss.steppersyncFlush moveClock
    some { r with ss := ss, batched := r.batched ++ bs }

/-- Runs with `moveNum` slots and `scNum` steppers. -/
def system (κ : Type*) (moveNum scNum : ℕ) : System (Run κ) (Event κ) :=
  ⟨(· = alloc moveNum scNum), next⟩

/-- The heap is in order and holds the release clocks of the slots, and the batch with the
messages that wait makes the messages queued. -/
structure Inv (moveNum scNum : ℕ) (r : Run κ) : Prop where
  isHeap : IsHeap r.ss.moveClocks
  slots : Slots moveNum r.batched r.ss.moveClocks
  scList_length : r.ss.scList.length = scNum
  queued_length : r.queued.length = scNum
  sc_lt : ∀ b ∈ r.batched, b.sc < scNum
  merge : ∀ sc q, r.ss.scList[sc]? = some q →
    r.queued[sc]? = some ((r.batched.filter fun b => b.sc = sc).map Batched.qm ++ q)

variable {moveNum scNum : ℕ} {r r' : Run κ}

theorem inv_alloc : Inv moveNum scNum (alloc moveNum scNum : Run κ) where
  isHeap := isHeap_replicate moveNum 0
  slots := .init
  scList_length := List.length_replicate
  queued_length := List.length_replicate
  sc_lt := by simp [alloc]
  merge sc q h := by
    simp only [alloc, List.filter_nil, List.map_nil, List.nil_append]
    exact h

/-- A round of the batch loop keeps the invariant. -/
theorem Inv.batch (h : Inv moveNum scNum r) (hpos : 1 ≤ moveNum) {moveClock : Clock}
    {ss' : StepperSync κ} {b : Batched κ} (hb : r.ss.batchMessage moveClock = some (ss', b)) :
    Inv moveNum scNum { r with ss := ss', batched := r.batched ++ [b] } := by
  obtain ⟨⟨q, hq, hset⟩, hmin, hmc⟩ := batchMessage_spec hb
  have hlen : 0 < r.ss.moveClocks.length := by
    have := h.slots.card
    rw [Multiset.coe_card] at this
    omega
  have hfirst := entry_eq_getElem hlen
  obtain ⟨hheap, hperm⟩ := h.isHeap.siftDown_zero hlen b.qm.minClock
  refine ⟨?_, ?_, ?_, h.queued_length, fun b' hb' => ?_, ?_⟩
  · rw [hmc]
    split_ifs
    · exact hheap
    · exact h.isHeap
  · show Slots moveNum (r.batched ++ [b]) (ss'.moveClocks : Multiset Clock)
    by_cases hzero : b.qm.minClock = 0
    · rw [hmc, if_neg (not_not.2 hzero)]
      exact h.slots.other hzero
    · have hmem : b.minClock ∈ r.ss.moveClocks := by
        rw [hmin, hfirst]
        exact List.getElem_mem hlen
      have hcoe : (ss'.moveClocks : Multiset Clock) =
          b.qm.minClock ::ₘ (r.ss.moveClocks : Multiset Clock).erase b.minClock := by
        rw [hmc, if_pos hzero, hmin]
        exact Multiset.coe_eq_coe.2 hperm
      rw [hcoe]
      exact h.slots.replace hzero hmem fun c hc => hmin ▸ h.isHeap.entry_zero_le_of_mem hc
  · rw [hset, List.length_set]
    exact h.scList_length
  · rcases List.mem_append.1 hb' with hb' | hb'
    · exact h.sc_lt b' hb'
    · rw [List.mem_singleton.1 hb', ← h.scList_length]
      exact (List.getElem?_eq_some_iff.1 hq).1
  · intro sc q' hq'
    rw [hset] at hq'
    rcases eq_or_ne sc b.sc with rfl | hne
    · obtain rfl : q = q' := by
        rw [List.getElem?_set_self', hq] at hq'
        simpa using hq'
      rw [h.merge b.sc _ hq]
      simp
    · rw [List.getElem?_set_ne hne.symm] at hq'
      rw [h.merge sc q' hq']
      simp [hne.symm]

theorem Inv.batchLoop (hpos : 1 ≤ moveNum) (moveClock : Clock) (n : ℕ) {r : Run κ}
    (h : Inv moveNum scNum r) :
    Inv moveNum scNum { r with
      ss := (batchLoop moveClock n r.ss).1
      batched := r.batched ++ (batchLoop moveClock n r.ss).2 } := by
  induction n generalizing r with
  | zero => simpa [StepperSync.batchLoop] using h
  | succ n ih =>
    rcases hb : r.ss.batchMessage moveClock with _ | ⟨ss', b⟩
    · simpa [StepperSync.batchLoop, hb] using h
    · simpa [StepperSync.batchLoop, hb] using ih (h.batch hpos hb)

theorem Inv.queue (h : Inv moveNum scNum r) {sc : ℕ} {qm : QueueMessage κ}
    (hn : r.next (.queue sc qm) = some r') : Inv moveNum scNum r' := by
  rw [next, Option.ite_none_right_eq_some] at hn
  obtain ⟨hlt, hn⟩ := hn
  obtain rfl := Option.some_inj.1 hn
  refine ⟨h.isHeap, h.slots, ?_, ?_, h.sc_lt, fun i q hq => ?_⟩
  · rw [List.length_modify]
    exact h.scList_length
  · rw [List.length_modify]
    exact h.queued_length
  · rw [List.getElem?_modify] at hq ⊢
    rcases hs : r.ss.scList[i]? with _ | q'
    · simp [hs] at hq
    · obtain rfl : (if sc = i then q' ++ [qm] else q') = q := by simpa [hs] using hq
      rw [h.merge i q' hs]
      split_ifs <;> simp

/-- Every event keeps the invariant. -/
theorem inv_of_reachable (hpos : 1 ≤ moveNum) (h : (system κ moveNum scNum).Reachable r) :
    Inv moveNum scNum r := by
  refine h.invariant (I := Inv moveNum scNum) (fun r hr => ?_) fun r e r' hi _ hn => ?_
  · obtain rfl : r = alloc moveNum scNum := hr
    exact inv_alloc
  · cases e with
    | queue sc qm => exact hi.queue hn
    | flush moveClock =>
      obtain rfl := Option.some_inj.1 hn
      exact hi.batchLoop hpos moveClock _

/-- In every state the clocks are a heap that only changed by replacing its least entry; the
batch and the messages that wait are, for each stepper, the messages it queued, in order; and
if the messages that use slots are received in the order of the batch, each no earlier than
its `min_clock`, no more than `move_num` slots are ever in use. -/
theorem moveQueue (hpos : 1 ≤ moveNum) (h : (system κ moveNum scNum).Reachable r) :
    IsHeap r.ss.moveClocks ∧ Slots moveNum r.batched r.ss.moveClocks ∧
      (∀ b ∈ r.batched, b.sc < scNum) ∧
      (∀ sc < scNum, ∃ q, r.ss.scList[sc]? = some q ∧
        r.queued[sc]? = some ((r.batched.filter fun b => b.sc = sc).map Batched.qm ++ q)) ∧
      ∀ (uses : List (Batched κ × Clock)), uses.map Prod.fst = consuming r.batched →
        (∀ u ∈ uses, u.1.minClock ≤ u.2) → (uses.map Prod.snd).Pairwise (· ≤ ·) →
        ∀ c, occupied c uses ≤ moveNum := by
  have hi := inv_of_reachable hpos h
  refine ⟨hi.isHeap, hi.slots, hi.sc_lt, fun sc hsc => ?_, fun uses huses hmin hord c => ?_⟩
  · have hlt : sc < r.ss.scList.length := hi.scList_length.symm ▸ hsc
    exact ⟨_, List.getElem?_eq_getElem hlt, hi.merge sc _ (List.getElem?_eq_getElem hlt)⟩
  · exact hi.slots.occupied_le c huses hmin hord

/-- Stepper 0 moves at clock 100, stepper 1 has been still since clock 10 and steps far in
the future, then stepper 0 moves again : with one slot the `min_clock` goes back to 10. -/
def farStep : List (Event ℕ) :=
  [.queue 0 ⟨1, 100, 100⟩, .queue 0 ⟨3, 900000000, 900000000⟩, .queue 1 ⟨2, 10, 805306378⟩,
    .flush 1000000000]

/-- The batch of `farStep`. -/
def farBatch : List (Batched ℕ) :=
  [⟨0, ⟨1, 100, 100⟩, 0⟩, ⟨1, ⟨2, 10, 805306378⟩, 100⟩, ⟨0, ⟨3, 900000000, 900000000⟩, 10⟩]

theorem reachable_farStep :
    ∃ r : Run ℕ, (system ℕ 1 2).Reachable r ∧ r.batched = farBatch := by
  have hrun : ((system ℕ 1 2).run (alloc 1 2) farStep).map Run.batched = some farBatch := by
    decide +kernel
  obtain ⟨r, hr, hb⟩ := Option.map_eq_some_iff.1 hrun
  exact ⟨r, System.Reachable.run (.init rfl) hr, hb⟩

/-- Received in order, they use it one after the other. -/
theorem moveQueue_farStep : ∃ r : Run ℕ, r.batched = farBatch ∧ IsHeap r.ss.moveClocks ∧
    ∀ c, occupied c (r.batched.zip [0, 100, 100]) ≤ 1 := by
  obtain ⟨r, hr, hb⟩ := reachable_farStep
  obtain ⟨hheap, -, -, -, hocc⟩ := moveQueue le_rfl hr
  refine ⟨r, hb, hheap, fun c => hocc _ ?_ ?_ ?_ c⟩
  · rw [hb]
    decide +kernel
  · rw [hb]
    decide +kernel
  · rw [hb]
    decide +kernel

/-- Received without the order of the batch, two of them use the slot at clock 50. -/
theorem not_occupied_le_unordered : ¬∀ r : Run ℕ, (system ℕ 1 2).Reachable r →
    ∀ uses : List (Batched ℕ × Clock), uses.map Prod.fst = consuming r.batched →
      (∀ u ∈ uses, u.1.minClock ≤ u.2) → ∀ c, occupied c uses ≤ 1 := by
  intro h
  obtain ⟨r, hr, hb⟩ := reachable_farStep
  have hocc := h r hr (farBatch.zip [0, 100, 10]) (by rw [hb]; decide +kernel) (by decide +kernel)
  exact absurd (hocc 50) (by decide +kernel)

end Run

end StepperSync

end Thinker
