import Thinker.Session

/-!
# What a completion means

The micro-controller takes the next sequence number before it runs the commands of a block, so a
message with content may have been sent while the block before its number was still being
dispatched. An ack or a nak is sent between two blocks. So `handle_message` completes a message only
when the dispatch of its block has ended, and behind every message that was sent meanwhile
(`completion_of_reachable`).
-/

namespace Thinker

/-! ## The queues of the host -/

namespace SerialQueue

variable {κ : Type*}

theorem popSent_queues (rseq : ℕ) : ∀ (q : List (CommandFrame κ)) (sentSeq : ℕ)
    (sq : SerialQueue κ), (popSent rseq sentSeq q sq).notifyQueue = sq.notifyQueue ∧
      (popSent rseq sentSeq q sq).receiveQueue = sq.receiveQueue
  | [], _, _ => ⟨rfl, rfl⟩
  | sent :: rest, sentSeq, sq => by
    rw [popSent]
    split_ifs
    · exact ⟨rfl, rfl⟩
    · exact popSent_queues rseq rest (sentSeq + 1) _

/-- The first messages of `notify_queue` are completed, up to the one that was sent too late. -/
theorem wakeNotify_spec (rseq len : ℕ) (q : List Notify) : ∃ done,
    q = done ++ (wakeNotify rseq len q).1 ∧
    (wakeNotify rseq len q).2 = done.map (fun qm => .notify qm.notifyId) ∧
    ∀ qm ∈ done,
      (qm.reqClock : ℤ) ≤ ((rseq : ℤ) - 1 - if len > messageMin then 1 else 0) % 2 ^ 64 := by
  generalize hwake : ((rseq : ℤ) - 1 - if len > messageMin then 1 else 0) % 2 ^ 64 = wakeSeq
  induction q with
  | nil => exact ⟨[], rfl, rfl, nofun⟩
  | cons qm q ih =>
    rw [wakeNotify]
    dsimp only
    rw [hwake]
    by_cases hlate : (qm.reqClock : ℤ) > wakeSeq
    · rw [if_pos hlate]
      exact ⟨[], rfl, rfl, nofun⟩
    · rw [if_neg hlate]
      obtain ⟨done, hq, hwoken, hle⟩ := ih
      refine ⟨qm :: done, ?_, ?_, List.forall_mem_cons.2 ⟨not_lt.1 hlate, hle⟩⟩
      · rw [List.cons_append, ← hq]
      · rw [List.map_cons, ← hwoken]

/-- `handle_message` on a message that is not rejected. -/
theorem handleMessage_queues (sq : SerialQueue κ) (f : ResponseFrame)
    (hin : ¬ (sq.calcReceiveSeq f.seq ≠ sq.receiveSeq ∧ sq.calcReceiveSeq f.seq > sq.sendSeq ∧
      sq.receiveSeq ≠ 1)) :
    (sq.handleMessage f).notifyQueue =
        (wakeNotify (sq.calcReceiveSeq f.seq) f.len sq.notifyQueue).1 ∧
      (sq.handleMessage f).receiveQueue = sq.receiveQueue ++
        (wakeNotify (sq.calcReceiveSeq f.seq) f.len sq.notifyQueue).2 ++
        if f.len = messageMin then [] else [.data f.len] := by
  have hpop := popSent_queues (sq.calcReceiveSeq f.seq) sq.sentQueue sq.receiveSeq sq
  have hupd : ∃ sq' : SerialQueue κ, (if sq.calcReceiveSeq f.seq ≠ sq.receiveSeq then
      sq.updateReceiveSeq (sq.calcReceiveSeq f.seq) else sq) = sq' ∧
      sq'.notifyQueue = sq.notifyQueue ∧ sq'.receiveQueue = sq.receiveQueue := by
    refine ⟨_, rfl, ?_⟩
    split_ifs
    · exact hpop
    · exact ⟨rfl, rfl⟩
  obtain ⟨sq', hsq, hnotify, hreceive⟩ := hupd
  simp only [handleMessage, if_neg hin]
  rw [hsq, hnotify, hreceive]
  by_cases hlen : f.len = messageMin
  · rw [if_pos hlen, if_pos hlen, List.append_nil]
    split_ifs <;> exact ⟨rfl, rfl⟩
  · rw [if_neg hlen, if_neg hlen]
    exact ⟨rfl, rfl⟩

end SerialQueue

namespace Link.Inv

variable {κ : Type*} {start : ℕ} {l : Link κ}

/-- The numbers of both ends. -/
theorem numbers (h : Link.Inv start l) :
    l.mcu.nextSequence = wireSeq (start + l.dispatched.length) ∧ start ≤ l.host.receiveSeq ∧
      l.host.receiveSeq ≤ start + l.dispatched.length ∧
      start + l.dispatched.length ≤ l.host.sendSeq ∧
      l.host.sendSeq ≤ l.host.receiveSeq + maxPendingBlocks ∧
      l.host.sendSeq = l.host.receiveSeq + l.host.sentQueue.length := by
  obtain ⟨w, hr, hw⟩ := h
  have hlen := hr.sentQueue.length_eq
  rw [List.length_range'] at hlen
  have hacked := hw.acked_le
  have hdelivered := hw.delivered_le
  have hsent := hw.sent_le
  rw [hr.receiveSeq, hr.sendSeq, ← hr.dispatched]
  exact ⟨hr.nextSequence, hr.start_le, hacked, hdelivered, hsent, by omega⟩

/-- The number of a message is found from its low bits. -/
theorem calcReceiveSeq_eq (h : Link.Inv start l) {v : ℕ} (hge : l.host.receiveSeq ≤ v)
    (hle : v ≤ start + l.dispatched.length) : l.host.calcReceiveSeq (wireSeq v) = v := by
  obtain ⟨-, -, -, hsend, hroom, -⟩ := h.numbers
  have hmax : maxPendingBlocks = 12 := rfl
  rw [SerialQueue.calcReceiveSeq_wireSeq _ hge]
  omega

/-- The blocks that went to `command_dispatch` are the first of those that were built. -/
theorem isPrefix (h : Link.Inv start l) : l.dispatched <+: l.built := by
  obtain ⟨w, hr, -⟩ := h
  exact hr.isPrefix

/-- The number of the next block that is built. -/
theorem sendSeq (h : Link.Inv start l) : l.host.sendSeq = start + l.built.length := by
  obtain ⟨w, hr, -⟩ := h
  rw [hr.sendSeq, hr.built]

end Link.Inv

/-- A block is found only under the next sequence number. -/
theorem Mcu.findBlock_block {κ : Type*} {m m' : Mcu} {it : Item (CommandFrame κ)} {msg : List κ}
    (h : m.findBlock it = (m', .block msg)) : ∃ f, it = .frame f ∧ f.msg = msg ∧
      f.seq = m.nextSequence := by
  have herror : ∀ m : Mcu, m.findError ≠ (m', .block msg) := by
    intro m h
    rw [findError] at h
    split_ifs at h <;> cases h
  cases it with
  | garbage => exact absurd h (herror m)
  | frame f =>
    rw [findBlock] at h
    by_cases hdest : f.seq &&& 0xf0 ≠ messageDest
    · rw [if_pos hdest] at h
      exact absurd h (herror m)
    · rw [if_neg hdest] at h
      dsimp only at h
      by_cases hseq : f.seq ≠ m.nextSequence
      · rw [if_pos hseq] at h
        cases h
      · rw [if_neg hseq] at h
        exact ⟨f, rfl, FindResult.block.inj (Prod.mk.inj h).2, not_not.1 hseq⟩

/-! ## Messages in flight -/

/-- The blocks whose messages `handle_message` completes on a message. -/
def Emitted.Completes (f : Emitted) (n : ℕ) : Prop :=
  n + 1 + (if f.frame.len = messageMin then 0 else 1) ≤ f.number

/-- A message in flight, where the host waits for an ack of block `acked`, block `ended` is the
first whose dispatch has not ended and block `taken` is the next that is dispatched. -/
structure Emitted.Sound (acked ended taken : ℕ) (f : Emitted) : Prop where
  seq : f.frame.seq = wireSeq f.number
  acked_le : acked ≤ f.number
  le_taken : f.number ≤ taken
  messageMin_le : messageMin ≤ f.frame.len
  le_ended : f.frame.len = messageMin → f.number ≤ ended
  during : ∀ m, f.during = some m → f.number = m + 1

/-- A message completes only blocks whose dispatch has ended. -/
theorem Emitted.Sound.lt_ended {acked ended taken n : ℕ} {f : Emitted}
    (h : f.Sound acked ended taken) (htaken : taken ≤ ended + 1) (hn : f.Completes n) :
    n < ended := by
  rw [Completes] at hn
  have hle := h.le_taken
  by_cases hlen : f.frame.len = messageMin
  · have := h.le_ended hlen
    rw [if_pos hlen] at hn
    omega
  · rw [if_neg hlen] at hn
    omega

/-- The messages in flight and the log of the host. What was sent while a block was being dispatched
is behind nothing that completes a message of this block or of a later one. -/
structure Flight (acked ended taken : ℕ) (line : List Emitted) (log : List Logged) : Prop where
  taken_le : taken ≤ ended + 1
  sound : ∀ f ∈ line, f.Sound acked ended taken
  order : line.Pairwise fun f g => f.number ≤ g.number ∧
    ∀ m, g.during = some m → ∀ n, f.Completes n → n < m
  ended : ∀ qm, Logged.complete qm ∈ log → qm.reqClock < ended
  behind : ∀ qm, Logged.complete qm ∈ log → ∀ f ∈ line, ∀ m, f.during = some m → qm.reqClock < m
  logged : log.Pairwise fun a b =>
    ∀ qm len m, a = .complete qm → b = .data len (some m) → qm.reqClock < m

namespace Flight

variable {acked ended taken : ℕ} {line : List Emitted} {log : List Logged}

/-- A dispatch ends or begins. -/
theorem mono (h : Flight acked ended taken line log) {ended' taken' : ℕ} (hended : ended ≤ ended')
    (htaken : taken ≤ taken') (hle : taken' ≤ ended' + 1) :
    Flight acked ended' taken' line log where
  taken_le := hle
  sound f hf := { h.sound f hf with
    le_taken := (h.sound f hf).le_taken.trans htaken
    le_ended := fun hlen => ((h.sound f hf).le_ended hlen).trans hended }
  order := h.order
  ended qm hqm := (h.ended qm hqm).trans_le hended
  behind := h.behind
  logged := h.logged

/-- Messages are lost. -/
theorem lose (h : Flight acked ended taken line log) {line' : List Emitted}
    (hsub : line'.Sublist line) : Flight acked ended taken line' log where
  taken_le := h.taken_le
  sound f hf := h.sound f (hsub.subset hf)
  order := h.order.sublist hsub
  ended := h.ended
  behind qm hqm f hf := h.behind qm hqm f (hsub.subset hf)
  logged := h.logged

/-- A message is sent. -/
theorem emit (h : Flight acked ended taken line log) {f : Emitted}
    (hf : f.Sound acked ended taken) (hnum : f.number = taken)
    (hduring : ∀ m, f.during = some m → m = ended) :
    Flight acked ended taken (line ++ [f]) log where
  taken_le := h.taken_le
  sound g hg := by
    rcases List.mem_append.1 hg with hg | hg
    · exact h.sound g hg
    · exact List.mem_singleton.1 hg ▸ hf
  order := by
    refine List.pairwise_append.2 ⟨h.order, List.pairwise_singleton _ _, fun g hg f' hf' => ?_⟩
    obtain rfl := List.mem_singleton.1 hf'
    refine ⟨hnum ▸ (h.sound g hg).le_taken, fun m hm n hn => ?_⟩
    rw [hduring m hm]
    exact (h.sound g hg).lt_ended h.taken_le hn
  ended := h.ended
  behind qm hqm g hg m hm := by
    rcases List.mem_append.1 hg with hg | hg
    · exact h.behind qm hqm g hg m hm
    · obtain rfl := List.mem_singleton.1 hg
      rw [hduring m hm]
      exact h.ended qm hqm
  logged := h.logged

/-- The first message is received, and completes the messages `done`. -/
theorem receive {f : Emitted} (h : Flight acked ended taken (f :: line) log) {done : List Notify}
    (hdone : ∀ qm ∈ done, f.Completes qm.reqClock) :
    Flight f.number ended taken line (log ++ (done.map .complete ++
      if f.frame.len = messageMin then [] else [.data f.frame.len f.during])) := by
  have hf := h.sound f (List.mem_cons_self ..)
  obtain ⟨hfirst, horder⟩ := List.pairwise_cons.1 h.order
  -- an entry that completes a message is an old one or one of `done`
  have hcomplete : ∀ qm, Logged.complete qm ∈ log ++ (done.map .complete ++
      if f.frame.len = messageMin then [] else [.data f.frame.len f.during]) →
      Logged.complete qm ∈ log ∨ f.Completes qm.reqClock := by
    intro qm hqm
    rcases List.mem_append.1 hqm with hqm | hqm
    · exact .inl hqm
    · rcases List.mem_append.1 hqm with hqm | hqm
      · obtain ⟨qm', hqm', heq⟩ := List.mem_map.1 hqm
        exact .inr (Logged.complete.inj heq ▸ hdone qm' hqm')
      · split_ifs at hqm
        · exact absurd hqm List.not_mem_nil
        · exact nomatch List.mem_singleton.1 hqm
  -- and one with content is an old one or the message itself
  have hdata : ∀ len m, Logged.data len (some m) ∈ done.map Logged.complete ++
      (if f.frame.len = messageMin then [] else [.data f.frame.len f.during]) →
      f.frame.len ≠ messageMin ∧ f.during = some m := by
    intro len m hmem
    rcases List.mem_append.1 hmem with hmem | hmem
    · obtain ⟨qm, -, heq⟩ := List.mem_map.1 hmem
      exact nomatch heq
    · split_ifs at hmem with hlen
      · exact absurd hmem List.not_mem_nil
      · exact ⟨hlen, (Logged.data.inj (List.mem_singleton.1 hmem)).2.symm⟩
  exact {
    taken_le := h.taken_le
    sound := fun g hg => { h.sound g (List.mem_cons_of_mem f hg) with
      acked_le := (hfirst g hg).1 }
    order := horder
    ended := fun qm hqm => (hcomplete qm hqm).elim (h.ended qm) fun hn => hf.lt_ended h.taken_le hn
    behind := fun qm hqm g hg m hm => (hcomplete qm hqm).elim
      (fun hqm => h.behind qm hqm g (List.mem_cons_of_mem f hg) m hm)
      fun hn => (hfirst g hg).2 m hm _ hn
    logged := by
      refine List.pairwise_append.2 ⟨h.logged, List.pairwise_append.2 ⟨?_, ?_, ?_⟩, ?_⟩
      · refine List.pairwise_map.2 (List.pairwise_of_forall fun a b qm len m _ hb => nomatch hb)
      · split_ifs
        · exact .nil
        · exact List.pairwise_singleton _ _
      · rintro a ha b hb qm len m rfl rfl
        obtain ⟨hlen, hm⟩ := hdata len m (List.mem_append_right _ hb)
        obtain ⟨qm', hqm', heq⟩ := List.mem_map.1 ha
        have hn := Logged.complete.inj heq ▸ hdone qm' hqm'
        rw [Emitted.Completes, if_neg hlen, hf.during m hm] at hn
        omega
      · rintro a ha b hb qm len m rfl rfl
        exact h.behind qm ha f (List.mem_cons_self ..) m (hdata len m hb).2 }

end Flight

namespace Session

variable {κ : Type*} {start : ℕ} {s t : Session κ}

/-! ## The link of a session -/

/-- The next sequence number of the micro-controller. -/
theorem dispatched_length (s : Session κ) (start : ℕ) :
    start + s.link.dispatched.length = s.current start + s.dispatching.toList.length := by
  rw [link, current, List.length_append, List.length_map, Nat.add_assoc]

/-- The session is a link, and a block that is being dispatched is the first of the line. -/
structure Linked (start : ℕ) (s : Session κ) : Prop where
  inv : Link.Inv start s.link
  head : ∀ msg, s.dispatching = some msg → ∃ f rest, s.toMcu = .frame f :: rest ∧
    Link.Carries start s.built f (s.current start)

namespace Linked

theorem init (h : Init start s) : Linked start s where
  inv := Link.Init.inv {
    serialFdType := h.serialFdType
    sendSeq := h.sendSeq
    receiveSeq := h.receiveSeq
    sentQueue := h.sentQueue
    nextSequence := h.nextSequence
    toMcu := by rw [link, h.dispatching, h.toMcu]; rfl
    toHost := by rw [link, h.toHost]; rfl
    built := h.built
    dispatched := by rw [link, h.dispatching, h.ended]; rfl }
  head msg hmsg := by
    rw [h.dispatching] at hmsg
    cases hmsg

/-- What is put on the line goes behind the block that is being dispatched. -/
theorem link_toMcu_append (h : Linked start s) (its : List (Item (CommandFrame κ))) :
    (if s.dispatching.isSome then (s.toMcu ++ its).tail else s.toMcu ++ its) =
      s.link.toMcu ++ its := by
  unfold link
  dsimp only
  cases hd : s.dispatching with
  | none => rfl
  | some msg =>
    obtain ⟨f, rest, hline, -⟩ := h.head msg hd
    rw [hline]
    rfl

theorem head_append (h : Linked start s) (its : List (Item (CommandFrame κ)))
    (more : List (List κ)) (msg : List κ) (hmsg : s.dispatching = some msg) : ∃ f rest,
      s.toMcu ++ its = .frame f :: rest ∧
        Link.Carries start (s.built ++ more) f (s.current start) := by
  obtain ⟨f, rest, hline, hf⟩ := h.head msg hmsg
  exact ⟨f, rest ++ its, by rw [hline]; rfl, hf.append more⟩

theorem build (h : Linked start s) {qms : List (QueueMessage κ)}
    (ht : next start s (.build qms) = some t) : Linked start t := by
  rw [next, Option.ite_none_right_eq_some] at ht
  obtain ⟨hcheck, ht⟩ := ht
  obtain rfl := Option.some_inj.1 ht
  refine ⟨h.inv.next (e := .build qms) ?_, h.head_append _ _⟩
  have hline := h.link_toMcu_append [.frame (s.host.buildAndSendCommand qms).2]
  rw [Link.next, if_pos (show s.link.host.checkSendCommand = true from hcheck)]
  exact congrArg some (congrArg (fun toMcu => { s.link with
    host := (s.host.buildAndSendCommand qms).1, toMcu := toMcu,
    built := s.built ++ [(s.host.buildAndSendCommand qms).2.msg] }) hline.symm)

theorem retransmit (h : Linked start s) (ht : next start s .retransmit = some t) :
    Linked start t := by
  obtain rfl := Option.some_inj.1 ht
  refine ⟨h.inv.next (e := .retransmit) ?_, ?_⟩
  · have hline := h.link_toMcu_append (s.host.retransmitEvent.2.map .frame)
    exact congrArg some (congrArg (fun toMcu => { s.link with
      host := s.host.retransmitEvent.1, toMcu := toMcu }) hline.symm)
  · have hhead := h.head_append (s.host.retransmitEvent.2.map .frame) []
    rw [List.append_nil] at hhead
    exact hhead

theorem hostReceive (h : Linked start s) (ht : next start s .hostReceive = some t) :
    Linked start t := by
  cases hline : s.toHost with
  | nil =>
    simp [next, hline] at ht
  | cons it rest =>
    cases it with
    | garbage =>
      have ht : t = { s with toHost := rest } := by simpa [next, hline] using ht.symm
      subst ht
      refine ⟨h.inv.next (e := .hostReceive) ?_, h.head⟩
      simp [Link.next, link, hline, erase]
    | frame f =>
      have ht : t = { s with
          host := s.host.handleMessage f.frame
          toHost := rest
          log := s.log ++ logOf s.host f } := by simpa [next, hline] using ht.symm
      subst ht
      refine ⟨h.inv.next (e := .hostReceive) ?_, h.head⟩
      simp [Link.next, link, hline, erase]

/-- A message is put on the line to the host. -/
theorem send (h : Linked start s) (len : ℕ) : Linked start { s with
    toHost := s.toHost ++ [.frame (s.emit start (s.mcu.addFrame len))] } := by
  refine ⟨h.inv.next (e := .mcuSend len) ?_, h.head⟩
  simp [Link.next, link, erase, emit]

theorem mcuReceive (h : Linked start s) (ht : next start s .mcuReceive = some t) :
    Linked start t := by
  cases hd : s.dispatching with
  | some msg => simp [next, hd] at ht
  | none =>
    cases hline : s.toMcu with
    | nil => simp [next, hd, hline] at ht
    | cons it rest =>
      -- without a handler that sends or completes, this is a step of the link
      have hlink : s.link.next (.mcuReceive ⟨[], false⟩) = some t.link ∧
          ∀ msg, t.dispatching = some msg → s.toMcu = t.toMcu ∧ s.ended = t.ended ∧
            ∃ f, it = .frame f ∧ f.msg = msg ∧ f.seq = s.mcu.nextSequence := by
        cases hf : s.mcu.findBlock it with
        | mk mcu r =>
          cases r with
          | block msg =>
            have ht : t = { s with mcu := mcu, dispatching := some msg } := by
              simpa [next, hd, hline, hf] using ht.symm
            subst ht
            refine ⟨?_, fun msg' hmsg => ⟨rfl, rfl, ?_⟩⟩
            · simp [Link.next, link, hd, hline, Mcu.findAndDispatch, hf]
            · obtain rfl := Option.some_inj.1 hmsg
              exact Mcu.findBlock_block hf
          | nak =>
            have ht : t = { s with
                mcu := mcu
                toMcu := rest
                toHost := s.toHost ++ [.frame (s.emit start (mcu.addFrame messageMin))] } := by
              simpa [next, hd, hline, hf] using ht.symm
            subst ht
            refine ⟨?_, fun msg' hmsg => (Option.some_ne_none msg' (hmsg.symm.trans hd)).elim⟩
            simp [Link.next, link, hd, hline, Mcu.findAndDispatch, hf, erase, emit]
          | skip =>
            have ht : t = { s with mcu := mcu, toMcu := rest } := by
              simpa [next, hd, hline, hf] using ht.symm
            subst ht
            refine ⟨?_, fun msg' hmsg => (Option.some_ne_none msg' (hmsg.symm.trans hd)).elim⟩
            simp [Link.next, link, hd, hline, Mcu.findAndDispatch, hf]
      have hinv := h.inv.next hlink.1
      refine ⟨hinv, fun msg hmsg => ?_⟩
      obtain ⟨hmcu, hended, f, rfl, rfl, hseq⟩ := hlink.2 msg hmsg
      refine ⟨f, rest, hmcu ▸ hline, ?_, ?_⟩
      · have hnum := h.inv.numbers.1
        rw [dispatched_length, hd, current, hended] at hnum
        exact hseq.trans hnum
      · -- the blocks that went to `command_dispatch` are the first of those built
        obtain ⟨more, hmore⟩ := hinv.isPrefix
        have hmore : t.ended.map Prod.fst ++ [f.msg] ++ more = t.built := by
          rw [link, hmsg] at hmore
          exact hmore
        have hlen : current start t - start = t.ended.length := Nat.add_sub_cancel_left _ _
        rw [hlen, ← hmore]
        simp

/-- All commands of the block were run, and the ack goes out. -/
theorem mcuAck (h : Linked start s) (ht : next start s .mcuAck = some t) : Linked start t := by
  cases hd : s.dispatching with
  | none => simp [next, hd] at ht
  | some msg =>
    have ht : t = { s with
        dispatching := none
        toMcu := s.toMcu.tail
        ended := s.ended ++ [(msg, true)]
        toHost := s.toHost ++ [.frame ⟨s.mcu.addFrame messageMin,
          start + (s.ended.length + 1), none⟩] } := by
      simpa [next, hd, emit, current] using ht.symm
    subst ht
    refine ⟨h.inv.next (e := .mcuSend messageMin) ?_, nofun⟩
    simp [Link.next, link, erase, hd]

/-- A handler calls `shutdown` : the block is still in the buffer and is found again. -/
theorem mcuShutdown (h : Linked start s) (ht : next start s .mcuShutdown = some t) :
    Linked start t := by
  cases hd : s.dispatching with
  | none => simp [next, hd] at ht
  | some msg =>
    have ht : t = { s with dispatching := none, ended := s.ended ++ [(msg, false)] } := by
      simpa [next, hd] using ht.symm
    subst ht
    refine ⟨?_, nofun⟩
    obtain ⟨f, rest, hline, hf⟩ := h.head msg hd
    have hj : start + s.link.dispatched.length = s.current start + 1 := by
      rw [dispatched_length, hd]
      rfl
    have hinv := h.inv.refind hj hf
    have hlink : (⟨s.host, s.mcu, none, s.toMcu, s.toHost, s.built, s.ended ++ [(msg, false)],
        s.notified, s.log⟩ : Session κ).link =
          { s.link with toMcu := .frame f :: s.link.toMcu } := by
      simp [link, hd, hline]
    rw [hlink]
    exact hinv

theorem damageToMcu (h : Linked start s) {i n : ℕ}
    (ht : next start s (.damageToMcu i n) = some t) : Linked start t := by
  rw [next, Option.ite_none_left_eq_some] at ht
  obtain ⟨hi, ht⟩ := ht
  obtain rfl := Option.some_inj.1 ht
  cases hd : s.dispatching with
  | none =>
    refine ⟨h.inv.next (e := .damageToMcu i n) ?_, nofun⟩
    simp [Link.next, link, hd]
  | some msg =>
    obtain ⟨i, rfl⟩ : ∃ i', i = i' + 1 :=
      Nat.exists_eq_succ_of_ne_zero fun h0 => hi ⟨by simp [hd], h0⟩
    obtain ⟨f, rest, hline, hf⟩ := h.head msg hd
    refine ⟨h.inv.next (e := .damageToMcu i n) ?_, fun msg' _ => ⟨f, damage rest i n, ?_, hf⟩⟩
    · simp [Link.next, link, hd, hline, damage]
    · simp [hline, damage]

theorem damageToHost (h : Linked start s) {i n : ℕ}
    (ht : next start s (.damageToHost i n) = some t) : Linked start t := by
  obtain rfl := Option.some_inj.1 ht
  refine ⟨h.inv.next (e := .damageToHost i n) ?_, h.head⟩
  simp [Link.next, link, damage, erase]

/-- Every event keeps the invariant. -/
theorem next (h : Linked start s) {e : SessionEvent κ} (ht : next start s e = some t) :
    Linked start t := by
  cases e with
  | build qms => exact h.build ht
  | retransmit => exact h.retransmit ht
  | hostReceive => exact h.hostReceive ht
  | mcuReceive => exact h.mcuReceive ht
  | mcuSend len =>
    rw [Session.next, Option.ite_none_right_eq_some] at ht
    obtain ⟨-, ht⟩ := ht
    obtain rfl := Option.some_inj.1 ht
    exact h.send len
  | mcuAck => exact h.mcuAck ht
  | mcuShutdown => exact h.mcuShutdown ht
  | damageToMcu i n => exact h.damageToMcu ht
  | damageToHost i n => exact h.damageToHost ht

end Linked

/-! ## What the host completes -/

/-- The blocks in flight to the host. -/
def inFlight (s : Session κ) : List Emitted :=
  s.toHost.filterMap Item.frame?

/-- The entry of `notify_queue` of a message. -/
def entry (p : QueueMessage κ × ℕ) : Notify :=
  ⟨p.1.notifyId, p.2⟩

/-- The 64-bit `wake_seq` of `handle_message` does not wrap. -/
def NoWrap (s : Session κ) : SessionEvent κ → Prop
  | .hostReceive => ∀ f ∈ s.inFlight.head?,
      1 + (if f.frame.len = messageMin then 0 else 1) ≤ s.host.calcReceiveSeq f.frame.seq
  | _ => True

instance (s : Session κ) : ∀ e, Decidable (NoWrap s e)
  | .hostReceive => inferInstanceAs (Decidable (∀ f ∈ s.inFlight.head?,
      1 + (if f.frame.len = messageMin then 0 else 1) ≤ s.host.calcReceiveSeq f.frame.seq))
  | .build _ | .retransmit | .mcuReceive | .mcuSend _ | .mcuAck | .mcuShutdown | .damageToMcu _ _
  | .damageToHost _ _ => .isTrue trivial

/-- The link, what is in flight on it, and the queues of the host. -/
structure Inv (start : ℕ) (s : Session κ) : Prop where
  linked : Linked start s
  flight : Flight s.host.receiveSeq (s.current start)
    (s.current start + s.dispatching.toList.length) s.inFlight s.log
  notified : s.notified.map entry = s.log.filterMap Logged.completed ++ s.host.notifyQueue
  received : s.host.receiveQueue = s.log.map Logged.received
  sent : ∀ p ∈ s.notified, start ≤ p.2 ∧ ∃ msg, s.built[p.2 - start]? = some msg ∧ p.1.msg ∈ msg

/-- A message that the micro-controller sends now. -/
theorem Linked.emit_sound (h : Linked start s) {len : ℕ} (hlen : messageMin ≤ len)
    (hack : len = messageMin → s.dispatching = none) :
    (s.emit start (s.mcu.addFrame len)).Sound s.host.receiveSeq (s.current start)
      (s.current start + s.dispatching.toList.length) where
  seq := by
    have := h.inv.numbers.1
    rw [dispatched_length] at this
    exact this
  acked_le := by
    have := h.inv.numbers.2.2.1
    rw [dispatched_length] at this
    exact this
  le_taken := le_rfl
  messageMin_le := hlen
  le_ended heq := by
    show s.current start + s.dispatching.toList.length ≤ _
    rw [hack heq]
    exact le_rfl
  during m hm := by
    obtain ⟨msg, hd, rfl⟩ := Option.map_eq_some_iff.1 hm
    show s.current start + s.dispatching.toList.length = _
    rw [hd]
    rfl

/-- Such a message is put in flight. -/
theorem Linked.emit (h : Linked start t) {line : List (Item Emitted)} {len : ℕ}
    (hline : t.toHost = line ++ [.frame (t.emit start (t.mcu.addFrame len))])
    (hlen : messageMin ≤ len) (hack : len = messageMin → t.dispatching = none)
    (hf : Flight t.host.receiveSeq (t.current start)
      (t.current start + t.dispatching.toList.length) (line.filterMap Item.frame?) t.log) :
    Flight t.host.receiveSeq (t.current start)
      (t.current start + t.dispatching.toList.length) t.inFlight t.log := by
  have hemit := hf.emit (h.emit_sound hlen hack) rfl ?_
  · rw [inFlight, hline, List.filterMap_append]
    exact hemit
  · intro m hm
    obtain ⟨msg, -, rfl⟩ := Option.map_eq_some_iff.1 hm
    rfl

/-- What `handle_message` does with the first message in flight. -/
theorem Inv.handleMessage (h : Inv start s) {f : Emitted} {line : List Emitted}
    (hline : s.inFlight = f :: line) (hwrap : NoWrap s .hostReceive) :
    (s.host.handleMessage f.frame).receiveSeq = f.number ∧ ∃ done : List Notify,
      s.host.notifyQueue = done ++ (s.host.handleMessage f.frame).notifyQueue ∧
      (s.host.handleMessage f.frame).receiveQueue =
        s.host.receiveQueue ++ (logOf s.host f).map Logged.received ∧
      (logOf s.host f) = done.map .complete ++
        (if f.frame.len = messageMin then [] else [.data f.frame.len f.during]) ∧
      ∀ qm ∈ done, f.Completes qm.reqClock := by
  have hf := h.flight.sound f (hline ▸ List.mem_cons_self ..)
  obtain ⟨-, -, -, htaken, -, hsent⟩ := h.linked.inv.numbers
  rw [dispatched_length] at htaken
  -- the number on the wire and the host's own give back the number that was sent
  have hcalc : s.host.calcReceiveSeq f.frame.seq = f.number := by
    rw [hf.seq]
    exact h.linked.inv.calcReceiveSeq_eq hf.acked_le (by rw [dispatched_length]; exact hf.le_taken)
  have hle : s.host.calcReceiveSeq f.frame.seq ≤ s.host.sendSeq :=
    hcalc.trans_le (hf.le_taken.trans htaken)
  have hin : ¬ Rejected s.host f.frame := fun hrej => absurd hle (not_le.2 hrej.2.1)
  have hwrap : 1 + (if f.frame.len = messageMin then 0 else 1) ≤ f.number := by
    rw [← hcalc]
    exact hwrap f (by rw [hline]; rfl)
  obtain ⟨hnotify, hreceive⟩ := s.host.handleMessage_queues f.frame hin
  obtain ⟨done, hq, hwoken, hdone⟩ :=
    SerialQueue.wakeNotify_spec (s.host.calcReceiveSeq f.frame.seq) f.frame.len s.host.notifyQueue
  rw [← hnotify] at hq
  have hlog : logOf s.host f = done.map .complete ++
      (if f.frame.len = messageMin then [] else [.data f.frame.len f.during]) := by
    rw [logOf, if_neg hin]
    dsimp only
    have htake : s.host.notifyQueue.take (s.host.notifyQueue.length -
        (s.host.handleMessage f.frame).notifyQueue.length) = done := by
      conv_lhs => rw [hq]
      rw [List.length_append, Nat.add_sub_cancel, List.take_left]
    rw [htake]
  refine ⟨(s.host.handleMessage_spec f.frame hsent hle).2.1.trans hcalc, done, hq, ?_, hlog, ?_⟩
  · rw [hreceive, hwoken, hlog, List.map_append, List.map_map, List.append_assoc]
    congr 2
    split_ifs <;> rfl
  · intro qm hqm
    have hlt := hdone qm hqm
    rw [hcalc] at hlt
    have hmin := hf.messageMin_le
    rw [Emitted.Completes]
    by_cases hlen : f.frame.len = messageMin
    · rw [if_neg (by omega)] at hlt
      rw [if_pos hlen] at hwrap ⊢
      omega
    · rw [if_pos (by omega)] at hlt
      rw [if_neg hlen] at hwrap ⊢
      omega

namespace Inv

theorem init (h : Init start s) : Inv start s where
  linked := .init h
  flight := {
    taken_le := by
      rw [h.dispatching]
      exact Nat.le_succ _
    sound := by simp [inFlight, h.toHost]
    order := by simp [inFlight, h.toHost]
    ended := by simp [h.log]
    behind := by simp [h.log]
    logged := by simp [h.log] }
  notified := by rw [h.notified, h.log, h.notifyQueue]; rfl
  received := by rw [h.receiveQueue, h.log]; rfl
  sent := by simp [h.notified]

/-- The messages of a new block are behind those of the earlier blocks. -/
theorem build (h : Inv start s) {qms : List (QueueMessage κ)}
    (ht : Session.next start s (.build qms) = some t) : Inv start t := by
  have hlinked := h.linked.next ht
  rw [Session.next, Option.ite_none_right_eq_some] at ht
  obtain ⟨-, ht⟩ := ht
  obtain rfl := Option.some_inj.1 ht
  have hsend : s.host.sendSeq = start + s.built.length := h.linked.inv.sendSeq
  refine { h with linked := hlinked, notified := ?_, sent := ?_ }
  · show (s.notified ++ _).map entry = _ ++ (s.host.notifyQueue ++ _)
    rw [List.map_append, h.notified, List.append_assoc, List.map_map]
    rfl
  · intro p hp
    rcases List.mem_append.1 hp with hp | hp
    · obtain ⟨hle, msg, hmsg, hmem⟩ := h.sent p hp
      refine ⟨hle, msg, ?_, hmem⟩
      rw [List.getElem?_append_left (List.getElem?_eq_some_iff.1 hmsg).1, hmsg]
    · obtain ⟨qm, hqm, rfl⟩ := List.mem_map.1 hp
      refine ⟨hsend ▸ Nat.le_add_right .., _, ?_,
        List.mem_map_of_mem (List.mem_of_mem_filter hqm)⟩
      rw [hsend, Nat.add_sub_cancel_left, List.getElem?_concat_length]

theorem hostReceive (h : Inv start s) (hwrap : NoWrap s .hostReceive)
    (ht : Session.next start s .hostReceive = some t) : Inv start t := by
  have hlinked := h.linked.next ht
  cases hline : s.toHost with
  | nil => simp [Session.next, hline] at ht
  | cons it rest =>
    cases it with
    | garbage =>
      have ht : t = { s with toHost := rest } := by simpa [Session.next, hline] using ht.symm
      subst ht
      have hflight := h.flight
      rw [inFlight, hline] at hflight
      exact { h with linked := hlinked, flight := hflight }
    | frame f =>
      have ht : t = { s with
          host := s.host.handleMessage f.frame
          toHost := rest
          log := s.log ++ logOf s.host f } := by simpa [Session.next, hline] using ht.symm
      subst ht
      have hflight : s.inFlight = f :: rest.filterMap Item.frame? := by rw [inFlight, hline]; rfl
      obtain ⟨hseq, done, hnotify, hreceive, hlog, hdone⟩ := h.handleMessage hflight hwrap
      refine { linked := hlinked, flight := ?_, notified := ?_, received := ?_, sent := h.sent }
      · have hf := h.flight
        rw [hflight] at hf
        have hf := hf.receive hdone
        rw [← hlog, ← hseq] at hf
        exact hf
      · -- the entries that are completed are the first of `notify_queue`
        have hcompleted : (logOf s.host f).filterMap Logged.completed = done := by
          rw [hlog, List.filterMap_append, List.filterMap_map]
          split_ifs <;> simp [Function.comp_def, Logged.completed]
        show s.notified.map entry = (s.log ++ logOf s.host f).filterMap _ ++ _
        rw [List.filterMap_append, hcompleted, List.append_assoc, ← hnotify]
        exact h.notified
      · show (s.host.handleMessage f.frame).receiveQueue = _
        rw [hreceive, h.received, List.map_append]

theorem mcuReceive (h : Inv start s) (ht : Session.next start s .mcuReceive = some t) :
    Inv start t := by
  have hlinked := h.linked.next ht
  cases hd : s.dispatching with
  | some msg => simp [Session.next, hd] at ht
  | none =>
    cases hline : s.toMcu with
    | nil => simp [Session.next, hd, hline] at ht
    | cons it rest =>
      cases hf : s.mcu.findBlock it with
      | mk mcu r =>
        cases r with
        | block msg =>
          have ht : t = { s with mcu := mcu, dispatching := some msg } := by
            simpa [Session.next, hd, hline, hf] using ht.symm
          subst ht
          have hflight := h.flight
          rw [hd] at hflight
          exact { h with
            linked := hlinked
            flight := hflight.mono le_rfl (Nat.le_succ _) le_rfl }
        | nak =>
          have ht : t = { s with
              mcu := mcu
              toMcu := rest
              toHost := s.toHost ++ [.frame (s.emit start (mcu.addFrame messageMin))] } := by
            simpa [Session.next, hd, hline, hf] using ht.symm
          subst ht
          exact { h with
            linked := hlinked
            flight := hlinked.emit rfl le_rfl (fun _ => hd) h.flight }
        | skip =>
          have ht : t = { s with mcu := mcu, toMcu := rest } := by
            simpa [Session.next, hd, hline, hf] using ht.symm
          subst ht
          exact { h with linked := hlinked, flight := h.flight }

theorem mcuSend (h : Inv start s) {len : ℕ}
    (ht : Session.next start s (.mcuSend len) = some t) : Inv start t := by
  have hlinked := h.linked.next ht
  rw [Session.next, Option.ite_none_right_eq_some] at ht
  obtain ⟨hlen, ht⟩ := ht
  obtain rfl := Option.some_inj.1 ht
  exact { h with
    linked := hlinked
    flight := hlinked.emit rfl hlen.le (fun heq => absurd heq hlen.ne') h.flight }

theorem mcuAck (h : Inv start s) (ht : Session.next start s .mcuAck = some t) :
    Inv start t := by
  have hlinked := h.linked.next ht
  cases hd : s.dispatching with
  | none => simp [Session.next, hd] at ht
  | some msg =>
    have hflight := h.flight
    rw [hd] at hflight
    rw [Session.next, hd] at ht
    obtain rfl := Option.some_inj.1 ht
    have hmono := hflight.mono (Nat.le_succ (s.current start)) le_rfl (Nat.le_succ _)
    refine { h with linked := hlinked, flight := hlinked.emit rfl le_rfl (fun _ => rfl) ?_ }
    show Flight s.host.receiveSeq (start + (s.ended ++ [(msg, true)]).length)
      (start + (s.ended ++ [(msg, true)]).length) s.inFlight s.log
    rw [List.length_append]
    exact hmono

theorem mcuShutdown (h : Inv start s) (ht : Session.next start s .mcuShutdown = some t) :
    Inv start t := by
  have hlinked := h.linked.next ht
  cases hd : s.dispatching with
  | none => simp [Session.next, hd] at ht
  | some msg =>
    have hflight := h.flight
    rw [hd] at hflight
    rw [Session.next, hd] at ht
    obtain rfl := Option.some_inj.1 ht
    have hmono := hflight.mono (Nat.le_succ (s.current start)) le_rfl (Nat.le_succ _)
    refine { h with linked := hlinked, flight := ?_ }
    show Flight s.host.receiveSeq (start + (s.ended ++ [(msg, false)]).length)
      (start + (s.ended ++ [(msg, false)]).length) s.inFlight s.log
    rw [List.length_append]
    exact hmono

/-- Every event that meets `NoWrap` keeps the invariant. -/
theorem next (h : Inv start s) {e : SessionEvent κ} (hwrap : NoWrap s e)
    (ht : Session.next start s e = some t) : Inv start t := by
  cases e with
  | build qms => exact h.build ht
  | retransmit =>
    have hlinked := h.linked.next ht
    obtain rfl := Option.some_inj.1 ht
    exact { h with linked := hlinked }
  | hostReceive => exact h.hostReceive hwrap ht
  | mcuReceive => exact h.mcuReceive ht
  | mcuSend len => exact h.mcuSend ht
  | mcuAck => exact h.mcuAck ht
  | mcuShutdown => exact h.mcuShutdown ht
  | damageToMcu i n =>
    have hlinked := h.linked.next ht
    rw [Session.next, Option.ite_none_left_eq_some] at ht
    obtain ⟨-, ht⟩ := ht
    obtain rfl := Option.some_inj.1 ht
    exact { h with linked := hlinked }
  | damageToHost i n =>
    have hlinked := h.linked.next ht
    obtain rfl := Option.some_inj.1 ht
    exact { h with
      linked := hlinked
      flight := h.flight.lose (Link.filterMap_damage s.toHost i n) }

end Inv

/-! ## The result -/

theorem inv_of_reachable (h : (system κ start).ReachableBy NoWrap s) : Inv start s :=
  h.invariant (I := Inv start) (fun _ hi => .init hi) fun _ _ _ hi hwrap ht => hi.next hwrap ht

/-- Messages are completed in the order in which they were sent, and a message only when the
dispatch of its block has ended. What the micro-controller sent while it dispatched this block is
neither in flight then nor behind the completion in `receive_queue`. -/
theorem completion_of_reachable (h : (system κ start).ReachableBy NoWrap s) :
    s.host.receiveQueue = s.log.map Logged.received ∧
      s.log.filterMap Logged.completed <+: s.notified.map entry ∧
      (∀ p ∈ s.notified, Logged.complete (entry p) ∈ s.log →
        ∃ msg all, s.ended[p.2 - start]? = some (msg, all) ∧ p.1.msg ∈ msg) ∧
      ∀ before qm behind, s.log = before ++ .complete qm :: behind →
        (∀ len, Logged.data len (some qm.reqClock) ∉ behind) ∧
        (∀ f ∈ s.inFlight, f.during ≠ some qm.reqClock) ∧ qm.reqClock < s.current start := by
  have hinv := inv_of_reachable h
  refine ⟨hinv.received, ⟨s.host.notifyQueue, hinv.notified.symm⟩, fun p hp hcomplete => ?_,
    fun before qm behind hlog => ?_⟩
  · obtain ⟨hle, msg, hmsg, hmem⟩ := hinv.sent p hp
    -- the blocks whose dispatch has ended are the first of those built
    have hlt : p.2 < start + s.ended.length := hinv.flight.ended (entry p) hcomplete
    obtain ⟨more, hmore⟩ := hinv.linked.inv.isPrefix
    have hmore : s.ended.map Prod.fst ++ s.dispatching.toList ++ more = s.built := hmore
    have hi : p.2 - start < s.ended.length := by omega
    have hget : (s.ended.map Prod.fst)[p.2 - start]? = some msg := by
      rw [← hmsg, ← hmore, List.append_assoc, List.getElem?_append_left (by rwa [List.length_map])]
    rw [List.getElem?_map, Option.map_eq_some_iff] at hget
    obtain ⟨⟨msg', all⟩, hended, rfl⟩ := hget
    exact ⟨msg', all, hended, hmem⟩
  · have hqm : Logged.complete qm ∈ s.log := by simp [hlog]
    have horder := hinv.flight.logged
    rw [hlog] at horder
    obtain ⟨hbehind, -⟩ := List.pairwise_cons.1 (List.pairwise_append.1 horder).2.1
    refine ⟨fun len hmem => ?_, fun f hf hduring => ?_, hinv.flight.ended qm hqm⟩
    · exact lt_irrefl _ (hbehind _ hmem qm len qm.reqClock rfl rfl)
    · exact lt_irrefl _ (hinv.flight.behind qm hqm f hf qm.reqClock hduring)

/-- A session whose micro-controller waits for block number `n`. -/
def fresh (start n : ℕ) : Session ℕ where
  host := (Link.fresh start : Link ℕ).host
  mcu := ⟨wireSeq n, false⟩
  dispatching := none
  toMcu := []
  toHost := []
  built := []
  ended := []
  notified := []
  log := []

/-- A block whose command answers. The answer is put into `receive_queue` before the completion. -/
theorem completion_of_reachable_one : ∃ s, (system ℕ 1).ReachableBy NoWrap s ∧
    s.log = [.data 9 (some 1), .complete ⟨42, 1⟩] ∧
    s.host.receiveQueue = [.data 9, .notify 42] ∧
    ∃ msg all, s.ended[0]? = some (msg, all) ∧ 7 ∈ msg := by
  have hrun : ((system ℕ 1).run (fresh 1 1) [.build [⟨7, 3, 42⟩], .mcuReceive, .mcuSend 9, .mcuAck,
      .hostReceive, .hostReceive]).map (fun s => (s.log, s.notified)) =
      some ([.data 9 (some 1), .complete ⟨42, 1⟩], [(⟨7, 3, 42⟩, 1)]) := by
    decide +kernel
  obtain ⟨s, hs, heq⟩ := Option.map_eq_some_iff.1 hrun
  obtain ⟨hlog, hnotified⟩ := Prod.mk.inj heq
  have hinit : (system ℕ 1).init (fresh 1 1) :=
    ⟨by decide, rfl, rfl, rfl, rfl, rfl, rfl, rfl, rfl, rfl, rfl, rfl, rfl, rfl⟩
  have hreach : (system ℕ 1).ReachableBy NoWrap s :=
    System.ReachableBy.run (.init hinit) (by decide +kernel) hs
  obtain ⟨hreceive, -, hblock, -⟩ := completion_of_reachable hreach
  refine ⟨s, hreach, hlog, by rw [hreceive, hlog]; rfl, ?_⟩
  exact hblock (⟨7, 3, 42⟩, 1) (by rw [hnotified]; exact List.mem_cons_self ..)
    (by rw [hlog]; exact List.mem_cons_of_mem _ (List.mem_cons_self ..))

/-- A handler of the block calls `shutdown`, and the block that is found again is answered with a
nak that completes its message. Before connection init, a nak to the number 0 completes a message
whose block is never dispatched. -/
theorem completion_without_execution :
    (((system ℕ 1).run (fresh 1 1) [.build [⟨7, 3, 42⟩], .mcuReceive, .mcuShutdown, .mcuReceive,
        .hostReceive]).map fun s => (s.host.receiveQueue, s.ended)) =
      some ([.notify 42], [([7], false)]) ∧
    (((system ℕ 1).run (fresh 1 0) [.build [⟨7, 3, 42⟩], .mcuReceive, .hostReceive]).map
        fun s => (s.host.receiveQueue, s.ended)) = some ([.notify 42], []) := by
  decide +kernel

end Session

end Thinker
