import Thinker.Transition
import Thinker.SlidingWindow
import Thinker.SerialQueue

/-!
# Delivery of command blocks

The serial queue of the host and the command dispatch of a micro-controller, joined by two
first-in first-out lines. A line may lose any block in it, or damage it so that the crc
shows it. The host may send everything it keeps again at any moment, and the
micro-controller may send a message at any moment.

The sequence numbers on the wire have four bits. Counted without wrapping they are the
numbers of a window of `MAX_PENDING_BLOCKS` blocks (`Link.Refines`), and the invariant of
the window says which block a number on the wire belongs to. So the blocks dispatched are
those built first, each once and in order, and the host drops a block only once it was
dispatched (`Link.delivery`). Whatever is lost, one retransmission is enough to dispatch the rest
(`Link.recovers`).
-/

namespace Thinker

/-- Both ends, both lines, and the history of blocks. -/
structure Link (κ : Type*) where
  host : SerialQueue κ
  mcu : Mcu
  toMcu : List (Item (CommandFrame κ))
  toHost : List (Item ResponseFrame)
  /-- The blocks the host has built. -/
  built : List (List κ)
  /-- The blocks that went to `command_dispatch`. -/
  dispatched : List (List κ)

/-- What can happen next. -/
inductive LinkEvent (κ : Type*)
  /-- The host builds a block of these messages and sends it. -/
  | build (qms : List (QueueMessage κ))
  /-- The host sends every unacknowledged block again. -/
  | retransmit
  /-- The host reads from its line. -/
  | hostReceive
  /-- The micro-controller reads from its line and runs what it finds. -/
  | mcuReceive (o : Mcu.DispatchOutcome)
  /-- The micro-controller sends a message of some length. -/
  | mcuSend (len : ℕ)
  /-- Item `i` becomes `n` items of garbage; it is lost if `n = 0`. -/
  | damageToMcu (i n : ℕ)
  | damageToHost (i n : ℕ)

/-- Item `i` of a line replaced by `n` items of garbage. -/
def damage {φ : Type*} (line : List (Item φ)) (i n : ℕ) : List (Item φ) :=
  line.take i ++ List.replicate n .garbage ++ line.drop (i + 1)

namespace Link

variable {κ : Type*}

/-- The state after connection init, with both ends at block number `start`. -/
structure Init (start : ℕ) (l : Link κ) : Prop where
  serialFdType : l.host.serialFdType ≠ .debugfile
  sendSeq : l.host.sendSeq = start
  receiveSeq : l.host.receiveSeq = start
  sentQueue : l.host.sentQueue = []
  nextSequence : l.mcu.nextSequence = wireSeq start
  toMcu : l.toMcu = []
  toHost : l.toHost = []
  built : l.built = []
  dispatched : l.dispatched = []

/-- The state after an event. -/
def next (l : Link κ) : LinkEvent κ → Option (Link κ)
  | .build qms =>
    if l.host.checkSendCommand then
      let (host, out) := l.host.buildAndSendCommand qms
      some { l with
        host := host
        toMcu := l.toMcu ++ [.frame out]
        built := l.built ++ [out.msg] }
    else none
  | .retransmit =>
    let (host, out) := l.host.retransmitEvent
    some { l with host := host, toMcu := l.toMcu ++ out.map .frame }
  | .hostReceive =>
    match l.toHost with
    | [] => none
    | .garbage :: rest => some { l with toHost := rest }
    | .frame f :: rest => some { l with host := l.host.handleMessage f, toHost := rest }
  | .mcuReceive o =>
    match l.toMcu with
    | [] => none
    | it :: rest =>
      let (mcu, block, out) := l.mcu.findAndDispatch it o
      some { l with
        mcu := mcu
        toMcu := rest
        toHost := l.toHost ++ out.map .frame
        dispatched := l.dispatched ++ block.toList }
  | .mcuSend len => some { l with toHost := l.toHost ++ [.frame (l.mcu.addFrame len)] }
  | .damageToMcu i n => some { l with toMcu := damage l.toMcu i n }
  | .damageToHost i n => some { l with toHost := damage l.toHost i n }

/-- Runs from connection init at block number `start`. -/
def system (κ : Type*) (start : ℕ) : System (Link κ) (LinkEvent κ) := ⟨Init start, next⟩

/-! ## The window behind the wire numbers -/

/-- A block on the line is number `j` of the blocks built. -/
def Carries (start : ℕ) (built : List (List κ)) (f : CommandFrame κ) (j : ℕ) : Prop :=
  f.seq = wireSeq j ∧ built[j - start]? = some f.msg

theorem Carries.append {start : ℕ} {built : List (List κ)} {f : CommandFrame κ} {j : ℕ}
    (h : Carries start built f j) (more : List (List κ)) : Carries start (built ++ more) f j :=
  ⟨h.1, by rw [List.getElem?_append_left (List.getElem?_eq_some_iff.1 h.2).1, h.2]⟩

/-- The wire numbers of a link are the remainders of the numbers of a window. -/
structure Refines (start : ℕ) (l : Link κ) (w : Window) : Prop where
  serialFdType : l.host.serialFdType ≠ .debugfile
  receiveSeq : l.host.receiveSeq = w.acked
  sendSeq : l.host.sendSeq = w.sent
  nextSequence : l.mcu.nextSequence = wireSeq w.delivered
  start_le : start ≤ w.acked
  built : w.sent = start + l.built.length
  dispatched : w.delivered = start + l.dispatched.length
  isPrefix : l.dispatched <+: l.built
  sentQueue : List.Forall₂ (Carries start l.built) l.host.sentQueue
    (List.range' w.acked (w.sent - w.acked))
  toMcu : List.Forall₂ (Carries start l.built) (l.toMcu.filterMap Item.frame?) w.fwd
  toHost : List.Forall₂ (fun f v => f.seq = wireSeq v) (l.toHost.filterMap Item.frame?) w.bwd

/-- A link that is a window of `MAX_PENDING_BLOCKS` blocks in transit. -/
def Inv (start : ℕ) (l : Link κ) : Prop :=
  ∃ w : Window, Refines start l w ∧ w.Inv maxPendingBlocks

/-! ## Lists related element by element -/

theorem forall₂_exists_sublist {α β : Type*} {R : α → β → Prop} {as as' : List α} {bs : List β}
    (h : List.Forall₂ R as bs) (hs : as'.Sublist as) :
    ∃ bs' : List β, bs'.Sublist bs ∧ List.Forall₂ R as' bs' := by
  induction h generalizing as' with
  | nil => exact ⟨[], List.Sublist.refl _, by rw [List.sublist_nil.1 hs]; exact .nil⟩
  | @cons a b as bs hab _ ih =>
    rcases List.sublist_cons_iff.1 hs with hskip | ⟨r, rfl, hkeep⟩
    · obtain ⟨bs', hbs, h⟩ := ih hskip
      exact ⟨bs', hbs.cons b, h⟩
    · obtain ⟨bs', hbs, h⟩ := ih hkeep
      exact ⟨b :: bs', hbs.cons_cons b, h.cons hab⟩

theorem prefix_concat {α : Type*} {as bs : List α} {b : α} (h : as <+: bs)
    (hb : bs[as.length]? = some b) : as ++ [b] <+: bs := by
  obtain ⟨rest, rfl⟩ := h
  rw [List.getElem?_append_right le_rfl, Nat.sub_self] at hb
  obtain ⟨rest, rfl⟩ : ∃ rest', rest = b :: rest' := by
    cases rest with
    | nil => simp at hb
    | cons c rest => exact ⟨rest, by simpa using hb⟩
  exact ⟨rest, by simp⟩

theorem filterMap_frame?_map {φ : Type*} (fs : List φ) :
    (fs.map Item.frame).filterMap Item.frame? = fs := by
  rw [List.filterMap_map]
  exact List.filterMap_some

/-- The blocks left on a damaged line. -/
theorem filterMap_damage {φ : Type*} (line : List (Item φ)) (i n : ℕ) :
    ((damage line i n).filterMap Item.frame?).Sublist (line.filterMap Item.frame?) := by
  have hg : (List.replicate n (Item.garbage : Item φ)).filterMap Item.frame? = [] := by
    simp [List.filterMap_eq_nil_iff, List.mem_replicate, Item.frame?]
  rw [damage, List.filterMap_append, List.filterMap_append, hg, List.append_nil,
    ← List.filterMap_append]
  refine List.Sublist.filterMap _ ?_
  calc (line.take i ++ line.drop (i + 1)).Sublist (line.take i ++ line.drop i) :=
        (List.Sublist.refl _).append (List.drop_sublist_drop_left _ (Nat.le_succ i))
    _ = line := List.take_append_drop i line

/-! ## One event -/

variable {start : ℕ} {l l' : Link κ} {w : Window}

theorem Init.inv (h : Init start l) : Inv start l := by
  refine ⟨⟨start, start, start, [], []⟩, ?_, .start start⟩
  exact {
    serialFdType := h.serialFdType
    receiveSeq := h.receiveSeq
    sendSeq := h.sendSeq
    nextSequence := h.nextSequence
    start_le := le_rfl
    built := by simp [h.built]
    dispatched := by simp [h.dispatched]
    isPrefix := by rw [h.dispatched]; exact List.nil_prefix
    sentQueue := by simp [h.sentQueue]
    toMcu := by simp [h.toMcu]
    toHost := by simp [h.toHost] }

theorem Inv.build (h : Inv start l) {qms : List (QueueMessage κ)}
    (hn : l.next (.build qms) = some l') : Inv start l' := by
  obtain ⟨w, hr, hw⟩ := h
  rw [next, Option.ite_none_right_eq_some] at hn
  obtain ⟨hcheck, hn⟩ := hn
  obtain rfl := Option.some_inj.1 hn
  have hroom : w.sent < w.acked + maxPendingBlocks := by
    rw [← hr.sendSeq, ← hr.receiveSeq]
    refine SerialQueue.room_of_checkSendCommand hcheck hr.serialFdType ?_
    rw [hr.sendSeq, hr.receiveSeq]
    exact hw.sent_le
  have hle : w.acked ≤ w.sent := hw.acked_le.trans hw.delivered_le
  -- the new block is the last of the blocks built
  have hnew : Carries start (l.built ++ [(l.host.buildAndSendCommand qms).2.msg])
      (l.host.buildAndSendCommand qms).2 w.sent := by
    refine ⟨?_, ?_⟩
    · rw [SerialQueue.buildAndSendCommand_snd, hr.sendSeq]
    · rw [hr.built, Nat.add_sub_cancel_left, List.getElem?_concat_length]
  refine ⟨_, ?_, hw.send hroom⟩
  exact {
    serialFdType := hr.serialFdType
    receiveSeq := hr.receiveSeq
    sendSeq := congrArg (· + 1) hr.sendSeq
    nextSequence := hr.nextSequence
    start_le := hr.start_le
    built := by simp [hr.built, Nat.add_assoc]
    dispatched := hr.dispatched
    isPrefix := hr.isPrefix.trans (List.prefix_append _ _)
    sentQueue := by
      rw [Nat.succ_sub hle, List.range'_concat, one_mul, Nat.add_sub_of_le hle]
      exact List.rel_append (hr.sentQueue.imp fun _ _ h => h.append _) (.cons hnew .nil)
    toMcu := by
      rw [List.filterMap_append]
      exact List.rel_append (hr.toMcu.imp fun _ _ h => h.append _) (.cons hnew .nil)
    toHost := hr.toHost }

theorem Inv.retransmit (h : Inv start l) (hn : l.next .retransmit = some l') :
    Inv start l' := by
  obtain ⟨w, hr, hw⟩ := h
  obtain rfl := Option.some_inj.1 hn
  refine ⟨_, ?_, hw.resend⟩
  exact { hr with
    toMcu := by
      rw [List.filterMap_append]
      refine List.rel_append hr.toMcu ?_
      rw [filterMap_frame?_map]
      exact hr.sentQueue }

theorem Inv.hostReceive (h : Inv start l) (hn : l.next .hostReceive = some l') :
    Inv start l' := by
  obtain ⟨w, hr, hw⟩ := h
  have hhost := hr.toHost
  rcases hline : l.toHost with _ | ⟨f | _, rest⟩
  · simp [next, hline] at hn
  · have hl : l' = { l with host := l.host.handleMessage f, toHost := rest } := by
      simpa [next, hline] using hn.symm
    subst hl
    rw [hline, List.filterMap_cons_some (show Item.frame? (.frame f) = some f from rfl)] at hhost
    obtain ⟨v, bs, hseq, hrest, hbwd⟩ := List.forall₂_cons_left_iff.1 hhost
    have hmem : v ∈ w.bwd := by simp [hbwd]
    have hge := hw.bwd_ge v hmem
    have hle : v ≤ w.sent := (hw.bwd_le v hmem).trans hw.delivered_le
    -- the number on the wire and the host's own give back the number that was sent
    have hcalc : l.host.calcReceiveSeq f.seq = v := by
      rw [hseq, SerialQueue.calcReceiveSeq_wireSeq _ (hr.receiveSeq.trans_le hge), hr.receiveSeq]
      exact hw.add_mod_sub (by decide) hmem
    have hlen : l.host.sendSeq = l.host.receiveSeq + l.host.sentQueue.length := by
      have := hr.sentQueue.length_eq
      rw [List.length_range'] at this
      rw [hr.sendSeq, hr.receiveSeq, this]
      omega
    have hsent : l.host.calcReceiveSeq f.seq ≤ l.host.sendSeq := by rwa [hcalc, hr.sendSeq]
    obtain ⟨h1, h2, h3, h4⟩ := l.host.handleMessage_spec f hlen hsent
    refine ⟨_, ?_, hw.ack hbwd⟩
    exact { hr with
      serialFdType := h3 ▸ hr.serialFdType
      receiveSeq := h2.trans hcalc
      sendSeq := h1.trans hr.sendSeq
      start_le := hr.start_le.trans hge
      sentQueue := by
        rw [h4, hcalc, hr.receiveSeq]
        have hdrop := List.forall₂_drop (v - w.acked) hr.sentQueue
        rw [List.drop_range'] at hdrop
        have h5 : w.acked + (v - w.acked) * 1 = v := by omega
        have h6 : w.sent - w.acked - (v - w.acked) = w.sent - v := by omega
        rw [h5, h6] at hdrop
        exact hdrop
      toHost := hrest }
  · have hl : l' = { l with toHost := rest } := by simpa [next, hline] using hn.symm
    subst hl
    rw [hline, List.filterMap_cons_none (show Item.frame? Item.garbage = none from rfl)] at hhost
    exact ⟨w, { hr with toHost := hhost }, hw⟩

/-- The micro-controller takes the first item of its line and answers with the number of
the block it then waits for. -/
theorem Refines.receive (hr : Refines start l w) {mcu : Mcu} {rest : List (Item (CommandFrame κ))}
    {block : Option (List κ)} {out : List ResponseFrame} {d : ℕ} {fs : List ℕ}
    (hrest : List.Forall₂ (Carries start l.built) (rest.filterMap Item.frame?) fs)
    (hnext : mcu.nextSequence = wireSeq d) (hout : ∀ f ∈ out, f.seq = wireSeq d)
    (hd : d = start + (l.dispatched ++ block.toList).length)
    (hpre : l.dispatched ++ block.toList <+: l.built) :
    Refines start
      { l with mcu := mcu, toMcu := rest, toHost := l.toHost ++ out.map .frame,
               dispatched := l.dispatched ++ block.toList }
      { w with delivered := d, fwd := fs, bwd := w.bwd ++ List.replicate out.length d } :=
  { hr with
    nextSequence := hnext
    dispatched := hd
    isPrefix := hpre
    toMcu := hrest
    toHost := by
      rw [List.filterMap_append, filterMap_frame?_map]
      refine List.rel_append hr.toHost ?_
      clear hd hnext
      induction out with
      | nil => exact .nil
      | cons f out ih => exact .cons (hout f (by simp)) (ih fun g hg => hout g (by simp [hg])) }

theorem Inv.mcuReceive (h : Inv start l) {o : Mcu.DispatchOutcome}
    (hn : l.next (.mcuReceive o) = some l') : Inv start l' := by
  obtain ⟨w, hr, hw⟩ := h
  have hmcu := hr.toMcu
  rcases hline : l.toMcu with _ | ⟨⟨seq, msg, len⟩ | _, rest⟩
  · simp [next, hline] at hn
  · rw [hline, List.filterMap_cons_some (show Item.frame? (.frame _) = some _ from rfl)] at hmcu
    obtain ⟨j, fs, ⟨hseq, hmsg⟩, hrest, hfwd⟩ := List.forall₂_cons_left_iff.1 hmcu
    obtain rfl : seq = wireSeq j := hseq
    simp only [next, hline, Mcu.findAndDispatch_frame, hr.nextSequence] at hn
    by_cases hj : wireSeq j = wireSeq w.delivered
    · -- only the block waited for has its number
      obtain rfl : j = w.delivered :=
        hw.eq_of_mod_eq (by decide) (by simp [hfwd]) (wireSeq_inj.1 hj)
      rw [if_pos rfl] at hn
      obtain rfl := Option.some_inj.1 hn
      have hlen : w.delivered - start = l.dispatched.length := by have := hr.dispatched; omega
      refine ⟨_, hr.receive hrest rfl ?_ ?_ ?_, (hw.deliver hfwd).answers _⟩
      · intro f hf
        rcases List.mem_append.1 hf with hf | hf
        · obtain ⟨n, _, rfl⟩ := List.mem_map.1 hf
          rfl
        · split_ifs at hf
          · rw [List.mem_singleton.1 hf]
          · exact absurd hf List.not_mem_nil
      · simp [hr.dispatched, Nat.add_assoc]
      · rw [hlen] at hmsg
        exact prefix_concat hr.isPrefix hmsg
    · rw [if_neg hj] at hn
      obtain rfl := Option.some_inj.1 hn
      have hlose : Window.Inv maxPendingBlocks { w with fwd := fs } :=
        hw.lose (hfwd ▸ List.sublist_cons_self j fs) (List.Sublist.refl _)
      refine ⟨_, hr.receive hrest rfl ?_ ?_ ?_, hlose.answers _⟩
      · exact fun f hf => by rw [List.mem_singleton.1 hf]
      · simp [hr.dispatched]
      · simpa using hr.isPrefix
  · rw [hline, List.filterMap_cons_none (show Item.frame? Item.garbage = none from rfl)] at hmcu
    obtain ⟨v, n, hg⟩ := l.mcu.findAndDispatch_garbage (κ := κ) o
    simp only [next, hline, hg] at hn
    obtain rfl := Option.some_inj.1 hn
    refine ⟨_, hr.receive hmcu hr.nextSequence ?_ ?_ ?_, hw.answers _⟩
    · intro f hf
      rw [(List.mem_replicate.1 hf).2]
      exact hr.nextSequence
    · simp [hr.dispatched]
    · simpa using hr.isPrefix

theorem Inv.damaged (h : Inv start l) {toMcu : List (Item (CommandFrame κ))}
    {toHost : List (Item ResponseFrame)}
    (hm : (toMcu.filterMap Item.frame?).Sublist (l.toMcu.filterMap Item.frame?))
    (hh : (toHost.filterMap Item.frame?).Sublist (l.toHost.filterMap Item.frame?)) :
    Inv start { l with toMcu := toMcu, toHost := toHost } := by
  obtain ⟨w, hr, hw⟩ := h
  obtain ⟨fwd, hf, hmcu⟩ := forall₂_exists_sublist hr.toMcu hm
  obtain ⟨bwd, hb, hhost⟩ := forall₂_exists_sublist hr.toHost hh
  refine ⟨{ w with fwd := fwd, bwd := bwd }, ?_, hw.lose hf hb⟩
  exact { hr with toMcu := hmcu, toHost := hhost }

/-- Every event keeps the invariant. -/
theorem Inv.next (h : Inv start l) {e : LinkEvent κ} (hn : l.next e = some l') :
    Inv start l' := by
  cases e with
  | build qms => exact h.build hn
  | retransmit => exact h.retransmit hn
  | hostReceive => exact h.hostReceive hn
  | mcuReceive o => exact h.mcuReceive hn
  | mcuSend len =>
    obtain rfl := Option.some_inj.1 hn
    obtain ⟨w, hr, hw⟩ := h
    refine ⟨_, ?_, hw.answer⟩
    exact { hr with
      toHost := by
        rw [List.filterMap_append]
        exact List.rel_append hr.toHost (.cons hr.nextSequence .nil) }
  | damageToMcu i n =>
    obtain rfl := Option.some_inj.1 hn
    exact h.damaged (filterMap_damage _ i n) (List.Sublist.refl _)
  | damageToHost i n =>
    obtain rfl := Option.some_inj.1 hn
    exact h.damaged (List.Sublist.refl _) (filterMap_damage _ i n)

/-- The invariant holds in every reachable state. -/
theorem inv_of_reachable (h : (system κ start).Reachable l) : Inv start l :=
  h.invariant (I := Inv start) (fun _ hi => Init.inv hi) fun _ _ _ hi _ hn => Inv.next hi hn

/-! ## The result -/

/-- Blocks numbered from `a` on are the blocks built from there on. -/
theorem map_msg_of_carries {built : List (List κ)} {q : List (CommandFrame κ)} {a n : ℕ}
    (ha : start ≤ a) (h : List.Forall₂ (Carries start built) q (List.range' a n)) :
    q.map CommandFrame.msg = (built.drop (a - start)).take n := by
  induction n generalizing q a with
  | zero =>
    rw [List.range'_zero, List.forall₂_nil_right_iff] at h
    simp [h]
  | succ n ih =>
    rw [List.range'_succ] at h
    obtain ⟨f, q', ⟨_, hmsg⟩, hq, rfl⟩ := List.forall₂_cons_right_iff.1 h
    obtain ⟨hlt, hget⟩ := List.getElem?_eq_some_iff.1 hmsg
    have hsub : a + 1 - start = a - start + 1 := by omega
    rw [List.map_cons, ih (by omega) hq, List.drop_eq_getElem_cons hlt, hget, List.take_succ_cons,
      hsub]

/-- Exactly once and in order : the blocks dispatched are the first of those built. The sent
queue holds the blocks `receive_seq` to `send_seq - 1`, at most `MAX_PENDING_BLOCKS` of
them, and every block below `receive_seq` was dispatched. -/
theorem delivery (h : (system κ start).Reachable l) :
    l.dispatched <+: l.built ∧
      l.host.sentQueue.length ≤ maxPendingBlocks ∧
      l.host.sendSeq = start + l.built.length ∧
      l.host.sendSeq = l.host.receiveSeq + l.host.sentQueue.length ∧
      l.host.sentQueue.map CommandFrame.msg = l.built.drop (l.host.receiveSeq - start) ∧
      (∀ i f, l.host.sentQueue[i]? = some f → f.seq = wireSeq (l.host.receiveSeq + i)) ∧
      start ≤ l.host.receiveSeq ∧
      l.host.receiveSeq ≤ start + l.dispatched.length := by
  obtain ⟨w, hr, hw⟩ := inv_of_reachable h
  have h1 := hw.acked_le
  have h2 := hw.delivered_le
  have h3 := hw.sent_le
  have hlen := hr.sentQueue.length_eq
  rw [List.length_range'] at hlen
  rw [hr.receiveSeq, hr.sendSeq, ← hr.dispatched]
  refine ⟨hr.isPrefix, by omega, hr.built, by omega, ?_, ?_, hr.start_le, h1⟩
  · rw [map_msg_of_carries hr.start_le hr.sentQueue, List.take_of_length_le]
    have := hr.built
    rw [List.length_drop]
    omega
  · intro i f hf
    obtain ⟨hi, rfl⟩ := List.getElem?_eq_some_iff.1 hf
    have := (List.forall₂_iff_get.1 hr.sentQueue).2 i hi (by rw [List.length_range']; omega)
    simpa using this.1

/-- A link right after connection init. -/
def fresh (start : ℕ) : Link κ where
  host := {
    serialFdType := .uart, receiveWindow := 0, sendSeq := start, receiveSeq := start
    ignoreNakSeq := 0, lastAckSeq := 0, retransmitSeq := 0, sentQueue := [], needAckBytes := 0
    lastAckBytes := 0, retransmitTimer := .never, notifyQueue := [], receiveQueue := [] }
  mcu := ⟨wireSeq start, false⟩
  toMcu := []
  toHost := []
  built := []
  dispatched := []

/-- Two blocks are sent, the first is lost, the second is answered with a nak, and both are
sent again. -/
def resend : List (LinkEvent ℕ) :=
  [.build [⟨1, 1, 0⟩], .build [⟨2, 1, 0⟩], .damageToMcu 0 0, .mcuReceive ⟨[], true⟩,
    .retransmit, .mcuReceive ⟨[], true⟩, .hostReceive, .hostReceive]

theorem delivery_resend : ∃ l : Link ℕ, (system ℕ 15).run (fresh 15) resend = some l ∧
    l.dispatched = [[1]] ∧ l.built = [[1], [2]] ∧ l.host.receiveSeq = 16 ∧
    l.dispatched <+: l.built ∧ l.host.receiveSeq ≤ 15 + l.dispatched.length := by
  have hrun : ((system ℕ 15).run (fresh 15) resend).map
      (fun l => (l.dispatched, l.built, l.host.receiveSeq)) = some ([[1]], [[1], [2]], 16) := by
    decide
  obtain ⟨l, hl, heq⟩ := Option.map_eq_some_iff.1 hrun
  simp only [Prod.mk.injEq] at heq
  have hinit : (system ℕ 15).Reachable (fresh 15) :=
    .init ⟨by decide, rfl, rfl, rfl, rfl, rfl, rfl, rfl, rfl⟩
  obtain ⟨hpre, _, _, _, _, _, _, hrecv⟩ := delivery (System.Reachable.run hinit hl)
  exact ⟨l, hl, heq.1, heq.2.1, heq.2.2, hpre, hrecv⟩

/-! ## Recovery -/

/-- The micro-controller reads from its line for a while, and its handlers return. -/
def Reads (l : Link κ) : Link κ → Prop :=
  System.ReachableBy ⟨(· = l), Link.next⟩ fun _ e => e = .mcuReceive ⟨[], true⟩

/-- It reads its line to the end. A row of blocks that begins with one it knows or waits for is
dispatched to its end. -/
theorem Inv.reads (h : Inv start l') (hl : Reads l l') : ∃ t, Reads l t ∧ Inv start t ∧
    t.toMcu = [] ∧ t.built = l'.built ∧
    ∀ a n, List.Forall₂ (Carries start l'.built) (l'.toMcu.filterMap Item.frame?) (List.range' a n) →
      a ≤ start + l'.dispatched.length → a + n ≤ start + t.dispatched.length := by
  induction hline : l'.toMcu generalizing l' with
  | nil =>
    refine ⟨l', hl, h, hline, rfl, fun a n hc ha => ?_⟩
    have := hc.length_eq
    simp at this
    omega
  | cons it rest ih =>
    set r := l'.mcu.findAndDispatch it ⟨[], true⟩ with hr
    have hn : l'.next (.mcuReceive ⟨[], true⟩) = some { l' with
        mcu := r.1, toMcu := rest, toHost := l'.toHost ++ r.2.2.map .frame
        dispatched := l'.dispatched ++ r.2.1.toList } := by simp only [Link.next, hline, hr]
    obtain ⟨t, ht, hi, hmcu, hb, hread⟩ := ih (h.next hn) (hl.step rfl hn) rfl
    refine ⟨t, ht, hi, hmcu, hb, fun a n hc ha => ?_⟩
    rw [List.length_append] at hread
    cases it with
    | garbage => exact hread a n hc (by omega)
    | frame f =>
      cases n with
      | zero => cases hc
      | succ n =>
        rw [List.range'_succ] at hc
        cases hc with
        | cons hf hc =>
        refine (Nat.succ_add a n).symm.trans_le (hread (a + 1) n hc ?_)
        obtain hlt | rfl := Nat.lt_or_eq_of_le ha
        · omega
        · -- the block that it waits for
          obtain ⟨w, hw, -⟩ := h
          obtain ⟨seq, msg, len⟩ := f
          obtain rfl : seq = _ := hf.1
          rw [hr, Mcu.findAndDispatch_frame, if_pos (by rw [hw.nextSequence, hw.dispatched])]
          simp [add_assoc]

/-- Whatever was lost or damaged, one retransmission is enough : when the micro-controller has read
its line before and after it, all blocks built were dispatched, each once and in order. -/
theorem recovers (h : (system κ start).Reachable l) : ∃ t₁ t₂ t, Reads l t₁ ∧
    t₁.next .retransmit = some t₂ ∧ Reads t₂ t ∧ t.dispatched = l.built := by
  obtain ⟨t₁, hl₁, h₁, hline, hb₁, -⟩ := (inv_of_reachable h).reads (.init rfl)
  have h₂ := h₁.retransmit rfl
  obtain ⟨t, hl, ⟨w', hw', -⟩, -, hb, hread⟩ := h₂.reads (.init rfl)
  obtain ⟨w, hw, hwi⟩ := h₁
  refine ⟨t₁, _, t, hl₁, rfl, hl, ?_⟩
  rw [← hb₁, ← show t.built = t₁.built from hb]
  refine hw'.isPrefix.eq_of_length_le ?_
  -- the blocks that the host keeps are all that is on the line
  have hend := hread w.acked (w.sent - w.acked)
    (by rw [hline, List.nil_append, filterMap_frame?_map]; exact hw.sentQueue)
    (hwi.acked_le.trans hw.dispatched.le)
  have hbuilt := hw.built
  rw [hb]
  show t₁.built.length ≤ _
  omega

/-- The first of two blocks is lost. -/
theorem recovers_resend : ∃ l t₁ t₂ t : Link ℕ, (system ℕ 15).run (fresh 15) (resend.take 3) = some l ∧
    Reads l t₁ ∧ t₁.next .retransmit = some t₂ ∧ Reads t₂ t ∧ t.dispatched = [[1], [2]] := by
  have hinit : (system ℕ 15).Reachable (fresh 15) :=
    .init ⟨by decide, rfl, rfl, rfl, rfl, rfl, rfl, rfl, rfl⟩
  obtain ⟨l, hl, hb⟩ : ∃ l, (system ℕ 15).run (fresh 15) (resend.take 3) = some l ∧
      l.built = [[1], [2]] := ⟨_, rfl, rfl⟩
  obtain ⟨t₁, t₂, t, h₁, h₂, h₃, hd⟩ := recovers (System.Reachable.run hinit hl)
  exact ⟨l, t₁, t₂, t, hl, h₁, h₂, h₃, hd.trans hb⟩

end Link

end Thinker
