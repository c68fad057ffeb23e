import Thinker.CanSerial
import Thinker.Resync

/-!
# The streams over CAN

What is received over CAN is popped in order : the bytes that were popped and those that remain are
the data of the messages that were not dropped, at every step, also while bytes are moved and
others arrive. What is handed to `canbus_send` and what is still to be sent are the frames that were
encoded, as long as the transmit buffer is not discarded.

`canserial_tx_task` discards the buffer when no identifier is assigned, also where a frame was sent
in part. Between two such times the stream is one of complete frames
(`CanState.streams_of_reachable`).
-/

namespace Thinker

/-! ## Buffers -/

/-- What a buffer is after bytes were written. -/
structure Written (buf : List UInt8) (pos : ℕ) (data : List UInt8) (buf' : List UInt8) : Prop where
  length : buf'.length = buf.length
  take : buf'.take (pos + data.length) = buf.take pos ++ data
  before : ∀ k ≤ pos, buf'.take k = buf.take k
  behind : ∀ k, pos + data.length ≤ k → buf'.drop k = buf.drop k

theorem writeBytes_spec (buf : List UInt8) (pos : ℕ) (data : List UInt8)
    (h : pos + data.length ≤ buf.length) :
    ∃ buf', writeBytes buf pos data = some buf' ∧ Written buf pos data buf' := by
  have hlen : (buf.take pos).length = pos := by
    rw [List.length_take]
    omega
  refine ⟨_, if_pos h, ?_, ?_, fun k hk => ?_, fun k hk => ?_⟩
  · simp only [List.length_append, List.length_drop, hlen]
    omega
  · rw [List.take_append_of_le_length (by rw [List.length_append, hlen]), List.take_of_length_le]
    rw [List.length_append, hlen]
  · rw [List.append_assoc, List.take_append_of_le_length (by omega), List.take_take,
      min_eq_left hk]
  · obtain ⟨j, rfl⟩ := Nat.exists_eq_add_of_le hk
    have hlen' : (buf.take pos ++ data).length = pos + data.length := by
      rw [List.length_append, hlen]
    rw [← List.drop_drop, List.drop_left' hlen', List.drop_drop]

theorem readBytes_spec (buf : List UInt8) {pos len : ℕ} (h : pos + len ≤ buf.length) :
    readBytes buf pos len = some ((buf.drop pos).take len) :=
  if_pos h

/-- Of a range that is read a part was read when more is left. -/
theorem take_drop_append (buf : List UInt8) {pos k n : ℕ} (hpos : pos + k ≤ n) :
    (buf.drop pos).take k ++ (buf.take n).drop (pos + k) = (buf.take n).drop pos := by
  have hsplit : (buf.take n).drop pos = ((buf.drop pos).take (n - pos)) := List.drop_take
  have htake : (buf.drop pos).take k = ((buf.take n).drop pos).take k := by
    rw [hsplit, List.take_take, min_eq_left (by omega)]
  rw [htake, ← List.drop_drop, List.take_append_drop]

namespace CanMsg

theorem length_bytes (msg : CanMsg) : msg.bytes.length = msg.dataLen := by
  unfold bytes
  rw [List.length_take, Vector.length_toList]
  unfold dataLen
  split_ifs <;> omega

end CanMsg

/-! ## Transmission -/

namespace CanData

variable {s : CanData} {maxSize : ℕ} {frame : List UInt8}

/-- The positions of the transmit buffer. -/
structure TxValid (s : CanData) : Prop where
  length : s.transmitBuf.length = 96
  pos_le : s.transmitPos ≤ s.transmitMax
  max_le : s.transmitMax ≤ 96

/-- Only the transmit buffer differs. -/
structure TxStep (s s' : CanData) (added : List UInt8) : Prop where
  eq : s' = { s with
    transmitBuf := s'.transmitBuf
    transmitPos := s'.transmitPos
    transmitMax := s'.transmitMax }
  valid : s'.TxValid
  pending : s'.pending = s.pending ++ added

theorem length_pending (h : s.TxValid) : s.pending.length = s.transmitMax - s.transmitPos := by
  have hlen := h.length
  have hmax := h.max_le
  unfold pending
  rw [List.length_drop, List.length_take]
  omega

theorem moveTransmit_spec (h : s.TxValid) :
    ∃ s', s.moveTransmit = some s' ∧ TxStep s s' [] ∧
      s'.transmitMax = s.transmitMax - s.transmitPos := by
  obtain ⟨hlen, hpos, hmax⟩ := h
  have hread : readBytes s.transmitBuf s.transmitPos (s.transmitMax - s.transmitPos) =
      some s.pending := by
    rw [readBytes_spec _ (by omega), pending, List.drop_take]
  have hpending : s.pending.length = s.transmitMax - s.transmitPos :=
    length_pending ⟨hlen, hpos, hmax⟩
  obtain ⟨buf, hwrite, hwritten⟩ :=
    writeBytes_spec s.transmitBuf 0 s.pending (by omega)
  refine ⟨{ s with
    transmitBuf := buf
    transmitPos := 0
    transmitMax := s.transmitMax - s.transmitPos }, ?_, ⟨rfl, ⟨?_, Nat.zero_le _, ?_⟩, ?_⟩, rfl⟩
  · unfold moveTransmit
    simp only
    rw [hread, Option.bind_some, hwrite]
    rfl
  · exact hwritten.length.trans hlen
  · exact (Nat.sub_le _ _).trans hmax
  · have htake := hwritten.take
    rw [Nat.zero_add, hpending] at htake
    simpa [pending] using htake

theorem putFrame_spec (h : s.TxValid) (frame : List UInt8)
    (hframe : s.transmitMax + frame.length ≤ 96) :
    ∃ s', s.putFrame frame = some s' ∧ TxStep s s' frame := by
  obtain ⟨hlen, hpos, hmax⟩ := h
  obtain ⟨buf, hwrite, hwritten⟩ :=
    writeBytes_spec s.transmitBuf s.transmitMax frame (by omega)
  refine ⟨{ s with transmitBuf := buf, transmitMax := s.transmitMax + frame.length }, ?_,
    ⟨rfl, ⟨hwritten.length.trans hlen, hpos.trans (Nat.le_add_right _ _), hframe⟩, ?_⟩⟩
  · unfold putFrame
    rw [hwrite]
    rfl
  · change (buf.take (s.transmitMax + frame.length)).drop s.transmitPos = _
    rw [hwritten.take, List.drop_append_of_le_length]
    · rfl
    · rw [List.length_take]
      omega

theorem TxStep.trans {s' s'' : CanData} {a b : List UInt8} (h : TxStep s s' a)
    (h' : TxStep s' s'' b) : TxStep s s'' (a ++ b) := by
  refine ⟨?_, h'.valid, ?_⟩
  · have heq := h'.eq
    rw [h.eq] at heq
    exact heq
  · rw [h'.pending, h.pending, List.append_assoc]

/-- A frame is put behind what is to be sent, or is not sent at all. -/
theorem consoleSendf_spec (h : s.TxValid) (hframe : frame.length ≤ maxSize) :
    ∃ s' ok, s.consoleSendf maxSize frame = some (s', ok) ∧
      TxStep s s' (if ok then frame else []) := by
  set s₀ := if s.transmitPos ≥ s.transmitMax then { s with transmitPos := 0, transmitMax := 0 }
    else s with hs₀
  have hstep₀ : TxStep s s₀ [] := by
    rw [hs₀]
    split_ifs with hempty
    · refine ⟨rfl, ⟨h.length, le_rfl, Nat.zero_le _⟩, ?_⟩
      have hnil : s.pending = [] := List.eq_nil_of_length_eq_zero (by
        rw [length_pending h]
        omega)
      rw [hnil]
      rfl
    · exact ⟨rfl, h, (List.append_nil _).symm⟩
  unfold consoleSendf
  simp only [← hs₀]
  have hpos := hstep₀.valid.pos_le
  by_cases hspace : s₀.transmitMax + maxSize > 96
  · rw [if_pos hspace]
    by_cases hdrop : s₀.transmitMax + maxSize - s₀.transmitPos > 96
    · rw [if_pos hdrop]
      exact ⟨s₀, false, rfl, hstep₀⟩
    · obtain ⟨s₁, hmove, hstep₁, hmax₁⟩ := moveTransmit_spec hstep₀.valid
      obtain ⟨s₂, hput, hstep₂⟩ := putFrame_spec hstep₁.valid frame (by omega)
      refine ⟨s₂, true, ?_, ?_⟩
      · rw [if_neg hdrop, hmove, Option.bind_some, hput]
        rfl
      · exact (hstep₀.trans hstep₁).trans hstep₂
  · obtain ⟨s₂, hput, hstep₂⟩ := putFrame_spec hstep₀.valid frame (by omega)
    refine ⟨s₂, true, ?_, ?_⟩
    · rw [if_neg hspace, hput]
      rfl
    · exact hstep₀.trans hstep₂

/-! ## Reception -/

/-- The position of the receive buffer. -/
structure RxValid (s : CanData) : Prop where
  length : s.receiveBuf.length = 192
  pos_le : s.receivePos ≤ 192

/-- An interrupt changes the receive buffer behind the position only. -/
structure RxStep (s s' : CanData) (added : List UInt8) : Prop where
  eq : s' = { s with
    receiveBuf := s'.receiveBuf
    receivePos := s'.receivePos
    adminQueue := s'.adminQueue }
  valid : s'.RxValid
  pos_le : s.receivePos ≤ s'.receivePos
  before : ∀ k ≤ s.receivePos, s'.receiveBuf.take k = s.receiveBuf.take k
  received : s'.received = s.received ++ added

theorem length_received (h : s.RxValid) : s.received.length = s.receivePos := by
  have hlen := h.length
  have hpos := h.pos_le
  unfold received
  rw [List.length_take]
  omega

theorem RxStep.refl (h : s.RxValid) (queue : List CanMsg) :
    RxStep s { s with adminQueue := queue } [] :=
  ⟨rfl, ⟨h.length, h.pos_le⟩, le_rfl, fun _ _ => rfl, (List.append_nil _).symm⟩

/-- A message is added to the buffer or is dropped. -/
theorem processData_spec (h : s.RxValid) (msg : CanMsg) :
    ∃ s', s.processData msg = some s' ∧ RxStep s s' (if s.Accepts msg then msg.bytes else []) := by
  have hpos := h.pos_le
  unfold processData
  by_cases hid : s.assignedId ≠ 0 ∧ msg.id = s.assignedId
  · rw [if_pos hid]
    by_cases hspace : msg.dataLen > 192 - s.receivePos
    · rw [if_pos hspace, if_neg fun haccepts => absurd haccepts.2.2 (not_le.2 hspace)]
      exact ⟨s, rfl, RxStep.refl h s.adminQueue⟩
    · have hbytes := msg.length_bytes
      have hlen := h.length
      obtain ⟨buf, hwrite, hwritten⟩ :=
        writeBytes_spec s.receiveBuf s.receivePos msg.bytes (by omega)
      rw [if_neg hspace, if_pos ⟨hid.1, hid.2, not_lt.1 hspace⟩, hwrite]
      refine ⟨_, rfl, rfl, ⟨hwritten.length.trans hlen, ?_⟩, Nat.le_add_right _ _, hwritten.before,
        ?_⟩
      · simp only
        omega
      · have htake := hwritten.take
        rwa [hbytes] at htake
  · have hnot : ¬s.Accepts msg := fun haccepts => hid ⟨haccepts.1, haccepts.2.1⟩
    rw [if_neg hid, if_neg hnot]
    split_ifs
    · exact ⟨s, rfl, RxStep.refl h s.adminQueue⟩
    · exact ⟨_, rfl, RxStep.refl h (s.adminQueue ++ [msg])⟩
    · exact ⟨s, rfl, RxStep.refl h s.adminQueue⟩

/-- A message of the queue changes the identifier at most. -/
theorem processMsg_spec (s : CanData) (msg : CanMsg) :
    ∃ id, (s.processMsg msg).1 = { s with assignedId := id } := by
  unfold processMsg
  split_ifs
  · exact ⟨0, rfl⟩
  · unfold canProcessAdmin
    split_ifs
    · exact ⟨_, rfl⟩
    · unfold canProcessSetKlipperNodeid
      simp only
      split_ifs
      all_goals exact ⟨_, rfl⟩
    · exact ⟨_, rfl⟩
  · exact ⟨_, rfl⟩

end CanData

namespace CanState

variable {s s' : CanState}

/-! ## What holds in every state -/

/-- What holds of what is sent. -/
structure TxInv (s : CanState) : Prop where
  valid : s.data.TxValid
  task : ∀ tpos tmax, s.task = .tx tpos tmax → tmax = s.data.transmitMax ∧ tpos ≤ tmax
  stream : s.period.handed ++ s.pending = s.period.frames.flatten
  past : ∀ p ∈ s.past, p.handed <+: p.frames.flatten

/-- What holds of the variables of `canserial_rx_task`. -/
def RxTask (s : CanState) : Prop :=
  match s.task with
  | .dispatch popCount => popCount ≤ s.data.receivePos
  | .popRead len copied => copied + len ≤ s.data.receivePos
  | .popMove len rpos i => i + len ≤ rpos ∧ rpos ≤ s.data.receivePos
  | .popCommit len rpos copied => copied + len = rpos ∧ rpos ≤ s.data.receivePos
  | _ => True

/-- What holds of what is received. -/
structure RxInv (s : CanState) : Prop where
  valid : s.data.RxValid
  task : s.RxTask
  stream : s.popped ++ s.remaining = s.accepted.flatten

/-- What holds in every state. -/
structure Inv (s : CanState) : Prop where
  tx : s.TxInv
  rx : s.RxInv

/-- Nothing that is sent differs, and the task does not send. -/
structure TxSame (s s' : CanState) : Prop where
  buf : s'.data.transmitBuf = s.data.transmitBuf
  pos : s'.data.transmitPos = s.data.transmitPos
  max : s'.data.transmitMax = s.data.transmitMax
  period : s'.period = s.period
  past : s'.past = s.past
  task : ∀ tpos tmax, s.task ≠ .tx tpos tmax
  task' : ∀ tpos tmax, s'.task ≠ .tx tpos tmax

/-- Nothing that is received differs. -/
structure RxSame (s s' : CanState) : Prop where
  buf : s'.data.receiveBuf = s.data.receiveBuf
  pos : s'.data.receivePos = s.data.receivePos
  accepted : s'.accepted = s.accepted
  popped : s'.popped = s.popped
  moved : s'.moved = s.moved
  task : s'.RxTask

theorem pending_of_task {s : CanState} (h : ∀ tpos tmax, s.task ≠ .tx tpos tmax) :
    s.pending = s.data.pending := by
  unfold pending
  split
  · exact absurd ‹_› (h _ _)
  · rfl

theorem TxInv.same (h : s.TxInv) (hs : TxSame s s') : s'.TxInv := by
  obtain ⟨hvalid, -, hstream, hpast⟩ := h
  obtain ⟨hbuf, hpos, hmax, hperiod, hpast', htask, htask'⟩ := hs
  refine ⟨⟨?_, ?_, ?_⟩, fun tpos tmax heq => absurd heq (htask' _ _), ?_, ?_⟩
  · rw [hbuf]
    exact hvalid.length
  · rw [hpos, hmax]
    exact hvalid.pos_le
  · rw [hmax]
    exact hvalid.max_le
  · have hpending : s'.data.pending = s.data.pending := by
      unfold CanData.pending
      rw [hbuf, hpos, hmax]
    rw [pending_of_task htask']
    rw [pending_of_task htask] at hstream
    rw [hpending, hperiod]
    exact hstream
  · rw [hpast']
    exact hpast

theorem RxInv.same (h : s.RxInv) (hs : RxSame s s') : s'.RxInv := by
  obtain ⟨hbuf, hpos, haccepted, hpopped, hmoved, htask⟩ := hs
  refine ⟨⟨?_, ?_⟩, htask, ?_⟩
  · rw [hbuf]
    exact h.valid.length
  · rw [hpos]
    exact h.valid.pos_le
  · have hremaining : s'.remaining = s.remaining := by
      unfold remaining CanData.received
      rw [hbuf, hpos, hmoved]
    rw [hpopped, hremaining, haccepted]
    exact h.stream

/-- What was moved and what is removed was received. -/
theorem RxTask.moved_le (h : s.RxTask) : s.moved.1 + s.moved.2 ≤ s.data.receivePos := by
  unfold RxTask at h
  unfold moved
  cases htask : s.task <;> simp only [htask] at h ⊢ <;> omega

/-! ## Steps -/

/-- Bytes that are added behind the position remain. -/
theorem remaining_append {added : List UInt8} (h : s.RxInv)
    (hs : CanData.RxStep s.data s'.data added) (hmoved : s'.moved = s.moved) :
    s'.remaining = s.remaining ++ added := by
  have hle := h.task.moved_le
  unfold remaining
  rw [hmoved, hs.before _ (by omega), hs.received, List.drop_append_of_le_length,
    List.append_assoc]
  rw [CanData.length_received h.valid]
  exact hle

/-- The interrupt may run at any time. -/
theorem perform_processData (h : s.Inv) (msg : CanMsg) :
    ∃ s', s.perform (.processData msg) = some s' ∧ s'.Inv := by
  obtain ⟨data, hdata, hstep⟩ := CanData.processData_spec h.rx.valid msg
  obtain ⟨s', hs'⟩ : ∃ s', s' = { s with
    data := data
    accepted := if s.data.Accepts msg then s.accepted ++ [msg.bytes] else s.accepted } := ⟨_, rfl⟩
  have heq := hstep.eq
  refine ⟨s', ?_, ⟨?_, ?_, ?_, ?_⟩, ⟨?_, ?_, ?_⟩⟩
  · rw [perform, hdata, hs']
    rfl
  · have hvalid := h.tx.valid
    rw [hs', heq]
    exact ⟨hvalid.length, hvalid.pos_le, hvalid.max_le⟩
  · rw [hs', heq]
    exact h.tx.task
  · rw [hs', heq]
    exact h.tx.stream
  · rw [hs']
    exact h.tx.past
  · rw [hs']
    exact hstep.valid
  · have hle := hstep.pos_le
    have htask := h.rx.task
    rw [hs']
    unfold RxTask at htask ⊢
    cases htask' : s.task <;> simp only [htask'] at htask ⊢ <;> omega
  · have hremaining : s'.remaining = s.remaining ++ if s.data.Accepts msg then msg.bytes else [] :=
      remaining_append h.rx (by rwa [hs']) (by rw [hs']; rfl)
    rw [hremaining, hs', ← List.append_assoc, h.rx.stream]
    simp only
    split_ifs <;> simp

/-- A call of `console_sendf` sends a frame or drops it. -/
theorem perform_sendf (h : s.Inv) (htask : ∀ tpos tmax, s.task ≠ .tx tpos tmax) {maxSize : ℕ}
    {frame : List UInt8} (hframe : frame.length ≤ maxSize) :
    ∃ s', s.perform (.sendf maxSize frame) = some s' ∧ s'.Inv := by
  obtain ⟨data, ok, hdata, hstep⟩ := CanData.consoleSendf_spec h.tx.valid hframe
  obtain ⟨s', hs'⟩ : ∃ s', s' = { s with
    data := data
    period := if ok then { s.period with frames := s.period.frames ++ [frame] } else s.period } :=
    ⟨_, rfl⟩
  have htask' : ∀ tpos tmax, s'.task ≠ .tx tpos tmax := by
    rw [hs']
    exact htask
  refine ⟨s', ?_, ⟨?_, fun tpos tmax heq => absurd heq (htask' _ _), ?_, ?_⟩, h.rx.same ?_⟩
  · rw [perform, hdata, hs']
    rfl
  · rw [hs']
    exact hstep.valid
  · have hstream := h.tx.stream
    rw [pending_of_task htask] at hstream
    rw [pending_of_task htask', hs', hstep.pending]
    cases ok
    · simpa using hstream
    · simp only [if_true, List.flatten_append, List.flatten_singleton, ← hstream,
        List.append_assoc]
  · rw [hs']
    exact h.tx.past
  · have hrx := h.rx.task
    rw [hs', hstep.eq]
    exact ⟨rfl, rfl, rfl, rfl, rfl, hrx⟩

/-- The task that sends starts, or discards the buffer. -/
theorem perform_txTask (h : s.Inv) (htask : s.task = .idle) :
    ∃ s', s.perform .txTask = some s' ∧ s'.Inv := by
  have hnot : ∀ tpos tmax, s.task ≠ .tx tpos tmax := fun _ _ heq => by
    rw [htask] at heq
    cases heq
  have hstream := h.tx.stream
  rw [pending_of_task hnot] at hstream
  have hmoved : s.moved = (0, 0) := by
    unfold moved
    rw [htask]
  rw [perform]
  by_cases hid : s.data.assignedId = 0
  · rw [if_pos hid]
    refine ⟨_, rfl, ⟨⟨h.tx.valid.length, le_rfl, Nat.zero_le _⟩,
      fun tpos tmax heq => absurd heq (hnot _ _), ?_, ?_⟩, h.rx.same ⟨rfl, rfl, rfl, rfl, rfl, ?_⟩⟩
    · simp [pending, htask, CanData.pending]
    · intro p hp
      rcases List.mem_append.1 hp with hp | hp
      · exact h.tx.past p hp
      · rw [List.mem_singleton.1 hp]
        exact ⟨_, hstream⟩
    · unfold RxTask
      simp only [htask]
  · rw [if_neg hid]
    refine ⟨_, rfl, ⟨h.tx.valid, ?_, hstream, h.tx.past⟩,
      h.rx.same ⟨rfl, rfl, rfl, rfl, hmoved.symm, trivial⟩⟩
    intro tpos tmax heq
    obtain ⟨rfl, rfl⟩ := CanTask.tx.inj heq
    exact ⟨rfl, h.tx.valid.pos_le⟩

/-- A piece is handed on, or is kept for the next time. -/
theorem perform_canbusSend (h : s.Inv) {tpos tmax : ℕ} (htask : s.task = .tx tpos tmax)
    (ok : Bool) : ∃ s', s.perform (.canbusSend ok) = some s' ∧ s'.Inv := by
  obtain ⟨rfl, hle⟩ := h.tx.task tpos tmax htask
  have hvalid := h.tx.valid
  have hlen := hvalid.length
  have hmax := hvalid.max_le
  have hstream := h.tx.stream
  have hpending : s.pending = (s.data.transmitBuf.take s.data.transmitMax).drop tpos := by
    unfold pending
    rw [htask]
  rw [hpending] at hstream
  have hmoved : s.moved = (0, 0) := by
    unfold moved
    rw [htask]
  have hstop : Inv { s with data := { s.data with transmitPos := tpos }, task := .idle } :=
    ⟨⟨⟨hlen, hle, hmax⟩, nofun, hstream, h.tx.past⟩,
      h.rx.same ⟨rfl, rfl, rfl, rfl, hmoved.symm, trivial⟩⟩
  rw [perform, htask]
  simp only
  unfold txStep
  simp only
  by_cases hdone : s.data.transmitMax - tpos = 0
  · rw [if_pos hdone]
    exact ⟨_, rfl, hstop⟩
  · set now := if s.data.transmitMax - tpos > 8 then 8 else s.data.transmitMax - tpos with hnow
    have hnow_le : tpos + now ≤ s.data.transmitMax := by
      rw [hnow]
      split_ifs <;> omega
    rw [if_neg hdone, readBytes_spec _ (by omega)]
    cases ok
    · exact ⟨_, rfl, hstop⟩
    · refine ⟨_, rfl, ⟨hvalid, ?_, ?_, h.tx.past⟩,
        h.rx.same ⟨rfl, rfl, rfl, rfl, hmoved.symm, trivial⟩⟩
      · intro tpos' tmax' heq
        obtain ⟨rfl, rfl⟩ := CanTask.tx.inj heq
        exact ⟨rfl, hnow_le⟩
      · change s.period.handed ++ (s.data.transmitBuf.drop tpos).take now ++
          (s.data.transmitBuf.take s.data.transmitMax).drop (tpos + now) = _
        rw [List.append_assoc, take_drop_append _ hnow_le]
        exact hstream

/-- What `command_find_block` removes was received. -/
theorem popCount_le (m : SyncState) (buf : List UInt8) :
    (m.commandFindBlock buf).popCount ≤ buf.length := by
  have hsearch : ∀ m : SyncState, (m.search buf).popCount ≤ buf.length := by
    intro m
    unfold SyncState.search
    cases hsync : memchrSync buf with
    | none =>
      simp only
      split_ifs
      all_goals exact le_rfl
    | some i =>
      simp only
      split_ifs
      all_goals exact memchrSync_lt hsync
  unfold SyncState.commandFindBlock
  by_cases hneed : buf.length ≠ 0 ∧ m.needSync = true
  · rw [if_pos hneed]
    exact hsearch m
  · rw [if_neg hneed]
    cases hcheck : checkBlock buf with
    | more => exact Nat.zero_le _
    | error =>
      have hmin : 5 ≤ buf.length := messageMin_le_length (by rw [hcheck]; nofun)
      simp only
      split_ifs
      · simp only
        omega
      · exact hsearch _
    | valid msglen =>
      simp only
      split_ifs
      all_goals exact (valid_le_length hcheck).2

/-- A task that goes on without a change of the data. -/
theorem TxInv.task_eq (h : s.TxInv) (htask : ∀ tpos tmax, s.task ≠ .tx tpos tmax) {task : CanTask}
    (htask' : ∀ tpos tmax, task ≠ .tx tpos tmax) : TxInv { s with task := task } :=
  h.same ⟨rfl, rfl, rfl, rfl, rfl, htask, htask'⟩

/-- A byte is moved to the front. -/
theorem perform_move (h : s.Inv) {len rpos i : ℕ} (htask : s.task = .popMove len rpos i)
    (hlt : i < rpos - len) : ∃ s', s.rxStep = some s' ∧ s'.Inv := by
  have hrx := h.rx.task
  unfold RxTask at hrx
  rw [htask] at hrx
  obtain ⟨hle, hpos⟩ := hrx
  have hvalid := h.rx.valid
  have hlen := hvalid.length
  have hmax := hvalid.pos_le
  have hnot : ∀ tpos tmax, s.task ≠ .tx tpos tmax := fun _ _ heq => by
    rw [htask] at heq
    cases heq
  have hread : readBytes s.data.receiveBuf (i + len) 1 =
      some ((s.data.receiveBuf.drop (i + len)).take 1) := readBytes_spec _ (by omega)
  set byte := (s.data.receiveBuf.drop (i + len)).take 1 with hbyte
  have hone : byte.length = 1 := by
    rw [hbyte, List.length_take, List.length_drop]
    omega
  obtain ⟨buf, hwrite, hwritten⟩ :=
    writeBytes_spec s.data.receiveBuf i byte (by omega)
  refine ⟨{ s with
    data := { s.data with receiveBuf := buf }, task := .popMove len rpos (i + 1) }, ?_, ?_, ?_⟩
  · unfold rxStep
    rw [htask]
    simp only
    rw [if_pos hlt, hread, Option.bind_some, hwrite]
    rfl
  · exact h.tx.same ⟨rfl, rfl, rfl, rfl, rfl, hnot, nofun⟩
  · refine ⟨⟨hwritten.length.trans hlen, hmax⟩, ⟨by omega, hpos⟩, ?_⟩
    rw [← h.rx.stream]
    refine congrArg (s.popped ++ ·) ?_
    have hremaining : s.remaining = s.data.receiveBuf.take i ++
        (s.data.receiveBuf.take s.data.receivePos).drop (i + len) := by
      unfold remaining moved CanData.received
      rw [htask]
    rw [hremaining]
    change buf.take (i + 1) ++ (buf.take s.data.receivePos).drop (i + 1 + len) = _
    have htake := hwritten.take
    have hbehind := hwritten.behind (i + 1 + len) (by omega)
    rw [hone] at htake
    have hindex : i + 1 + len = i + len + 1 := by omega
    rw [htake, List.append_assoc, List.drop_take, hbehind, ← List.drop_take, hindex, hbyte,
      take_drop_append _ (by omega)]

/-- The number of bytes is stored, unless others arrived. -/
theorem perform_commit (h : s.Inv) {len rpos copied : ℕ}
    (htask : s.task = .popCommit len rpos copied) (hnot : ∀ tpos tmax, s.task ≠ .tx tpos tmax) :
    ∃ s', s.rxStep = some s' ∧ s'.Inv := by
  have hrx := h.rx.task
  unfold RxTask at hrx
  rw [htask] at hrx
  obtain ⟨heq, hpos⟩ := hrx
  have hmoved : s.moved = (copied, len) := by
    unfold moved
    rw [htask]
  unfold rxStep
  rw [htask]
  simp only
  by_cases hrace : rpos ≠ s.data.receivePos
  · rw [if_pos hrace]
    exact ⟨_, rfl, h.tx.task_eq hnot nofun,
      h.rx.same ⟨rfl, rfl, rfl, rfl, hmoved.symm, heq.trans_le hpos⟩⟩
  · rw [if_neg hrace]
    have hpos_eq : s.data.receivePos = copied + len := by
      rw [← not_not.1 hrace, heq]
    have hmax := h.rx.valid.pos_le
    refine ⟨_, rfl, h.tx.same ⟨rfl, rfl, rfl, rfl, rfl, hnot, nofun⟩,
      ⟨h.rx.valid.length, ?_⟩, trivial, ?_⟩
    · simp only
      omega
    · rw [← h.rx.stream]
      refine congrArg (s.popped ++ ·) ?_
      have hremaining : s.remaining = s.data.receiveBuf.take copied := by
        unfold remaining CanData.received
        rw [hmoved, hpos_eq, List.drop_eq_nil_of_le, List.append_nil]
        rw [List.length_take]
        exact min_le_left _ _
      rw [hremaining]
      change s.data.receiveBuf.take 0 ++ (s.data.receiveBuf.take (rpos - len)).drop (0 + 0) = _
      rw [← heq, Nat.add_sub_cancel]
      rfl

/-- `canserial_rx_task` goes on. -/
theorem perform_step (h : s.Inv) (he : s.enabled .step = true) :
    ∃ s', s.rxStep = some s' ∧ s'.Inv := by
  have hnot : ∀ tpos tmax, s.task ≠ .tx tpos tmax := fun tpos tmax heq => by
    unfold enabled at he
    rw [heq] at he
    cases he
  have hrx := h.rx.task
  unfold RxTask at hrx
  have hreceived := CanData.length_received h.rx.valid
  cases htask : s.task with
  | idle =>
    unfold enabled at he
    rw [htask] at he
    cases he
  | tx tpos tmax => exact absurd htask (hnot _ _)
  | admin =>
    have hmoved : s.moved = (0, 0) := by
      unfold moved
      rw [htask]
    unfold rxStep
    rw [htask]
    simp only
    cases hqueue : s.data.adminQueue with
    | nil =>
      simp only
      split_ifs
      · exact ⟨_, rfl, h.tx.same ⟨rfl, rfl, rfl, rfl, rfl, hnot, nofun⟩,
          h.rx.same ⟨rfl, rfl, rfl, rfl, hmoved.symm, trivial⟩⟩
      · exact ⟨_, rfl, h.tx.same ⟨rfl, rfl, rfl, rfl, rfl, hnot, nofun⟩,
          h.rx.same ⟨rfl, rfl, rfl, rfl, hmoved.symm, (popCount_le _ _).trans hreceived.le⟩⟩
    | cons msg queue =>
      obtain ⟨id, hid⟩ := CanData.processMsg_spec s.data msg
      simp only [hid]
      split_ifs
      all_goals exact ⟨_, rfl, h.tx.same ⟨rfl, rfl, rfl, rfl, rfl, hnot, nofun⟩,
        h.rx.same ⟨rfl, rfl, rfl, rfl, hmoved.symm, trivial⟩⟩
  | dispatch popCount =>
    rw [htask] at hrx
    unfold rxStep
    rw [htask]
    refine ⟨_, rfl, h.tx.same ⟨rfl, rfl, rfl, rfl, rfl, hnot, nofun⟩, h.rx.valid, ?_, ?_⟩
    · change 0 + popCount ≤ s.data.receivePos
      rw [Nat.zero_add]
      exact hrx
    · have hremaining : s.remaining = s.data.received := by
        unfold remaining moved
        rw [htask]
        rfl
      rw [← h.rx.stream, hremaining]
      change s.popped ++ s.data.received.take popCount ++
        (s.data.receiveBuf.take 0 ++ s.data.received.drop (0 + popCount)) = _
      rw [List.take_zero, List.nil_append, Nat.zero_add, List.append_assoc,
        List.take_append_drop]
  | popRead len copied =>
    rw [htask] at hrx
    have hmoved : s.moved = (copied, len) := by
      unfold moved
      rw [htask]
    unfold rxStep
    rw [htask]
    simp only
    by_cases hnone : s.data.receivePos = len
    · rw [if_pos hnone]
      refine ⟨_, rfl, h.tx.task_eq hnot nofun, h.rx.same ⟨rfl, rfl, rfl, rfl, hmoved.symm, ?_⟩⟩
      exact ⟨by simp only at hrx; omega, le_rfl⟩
    · rw [if_neg hnone, if_neg (not_lt.2 hrx)]
      exact ⟨_, rfl, h.tx.task_eq hnot nofun,
        h.rx.same ⟨rfl, rfl, rfl, rfl, hmoved.symm, hrx, le_rfl⟩⟩
  | popMove len rpos i =>
    rw [htask] at hrx
    by_cases hlt : i < rpos - len
    · exact perform_move h htask hlt
    · have hmoved : s.moved = (i, len) := by
        unfold moved
        rw [htask]
      unfold rxStep
      rw [htask]
      simp only
      rw [if_neg hlt]
      refine ⟨_, rfl, h.tx.task_eq hnot nofun,
        h.rx.same ⟨rfl, rfl, rfl, rfl, hmoved.symm, ?_, hrx.2⟩⟩
      have := hrx.1
      omega
  | popCommit len rpos copied => exact perform_commit h htask hnot

/-! ## Every run -/

/-- A frame is at most as long as its encoder says. -/
def Framed : CanEvent → Prop
  | .sendf maxSize frame => frame.length ≤ maxSize
  | _ => True

theorem perform_spec (h : s.Inv) {e : CanEvent} (he : s.enabled e = true) (hframed : Framed e) :
    ∃ s', s.perform e = some s' ∧ s'.Inv := by
  cases e with
  | processData msg => exact perform_processData h msg
  | sendf maxSize frame =>
    refine perform_sendf h (fun tpos tmax heq => ?_) hframed
    unfold enabled at he
    rw [heq] at he
    cases he
  | txTask =>
    cases htask : s.task with
    | idle => exact perform_txTask h htask
    | _ =>
      unfold enabled at he
      rw [htask] at he
      cases he
  | canbusSend ok =>
    cases htask : s.task with
    | tx tpos tmax => exact perform_canbusSend h htask ok
    | _ =>
      unfold enabled at he
      rw [htask] at he
      cases he
  | rxTask =>
    cases htask : s.task with
    | idle =>
      refine ⟨_, rfl, h.tx.task_eq ?_ nofun, h.rx.same ⟨rfl, rfl, rfl, rfl, ?_, trivial⟩⟩
      · rw [htask]
        exact nofun
      · unfold moved
        rw [htask]
    | _ =>
      unfold enabled at he
      rw [htask] at he
      cases he
  | step => exact perform_step h he
  | shutdown =>
    cases htask : s.task with
    | dispatch popCount =>
      refine ⟨_, rfl, h.tx.task_eq ?_ nofun, h.rx.same ⟨rfl, rfl, rfl, rfl, ?_, trivial⟩⟩
      · rw [htask]
        exact nofun
      · unfold moved
        rw [htask]
    | _ =>
      unfold enabled at he
      rw [htask] at he
      cases he

theorem inv_initial (uuid : List UInt8) (sync : SyncState) :
    Inv ⟨.initial uuid, sync, .idle, [], [], ⟨[], []⟩, []⟩ := by
  refine ⟨⟨⟨?_, le_rfl, Nat.zero_le _⟩, nofun, ?_, nofun⟩, ⟨?_, Nat.zero_le _⟩, trivial, ?_⟩
  · exact List.length_replicate
  · simp [pending, CanData.pending, CanData.initial]
  · exact List.length_replicate
  · simp [remaining, moved, CanData.received, CanData.initial]

theorem inv_of_reachable (h : canSerial.ReachableBy (fun _ e => Framed e) s) : s.Inv := by
  refine h.invariant ?_ ?_
  · rintro s ⟨uuid, sync, rfl⟩
    exact inv_initial uuid sync
  · intro s e t hs he ht
    change (if s.enabled e then s.perform e else none) = some t at ht
    split_ifs at ht with henabled
    obtain ⟨s', hrun, hinv⟩ := perform_spec hs henabled he
    obtain rfl := Option.some_inj.1 (hrun.symm.trans ht)
    exact hinv

/-- What is popped and what is sent, in order and without loss, and no access outside of a
buffer. -/
structure Streams (s : CanState) : Prop where
  receive : s.popped ++ s.remaining = s.accepted.flatten
  transmit : s.period.handed ++ s.pending = s.period.frames.flatten
  past : ∀ p ∈ s.past, p.handed <+: p.frames.flatten
  safe : ∀ e, s.enabled e = true → Framed e → (canSerial.next s e).isSome

/-- In every run what was popped and what remains is what was accepted, and what was handed on and
what is pending are the frames since the transmit buffer was discarded last. -/
theorem streams_of_reachable (h : canSerial.ReachableBy (fun _ e => Framed e) s) : s.Streams := by
  have hinv := inv_of_reachable h
  refine ⟨hinv.rx.stream, hinv.tx.stream, hinv.tx.past, fun e he hframed => ?_⟩
  obtain ⟨s', hrun, -⟩ := perform_spec hinv he hframed
  exact Option.isSome_of_eq_some ((if_pos he).trans hrun)

instance : DecidablePred Framed
  | .sendf maxSize frame => inferInstanceAs (Decidable (frame.length ≤ maxSize))
  | .processData _ | .txTask | .canbusSend _ | .rxTask | .step | .shutdown => isTrue trivial

/-- All frames that were not dropped for lack of space. -/
def sentFrames (s : CanState) : List (List UInt8) :=
  (s.past.map TxPeriod.frames).flatten ++ s.period.frames

/-- All bytes that were handed to `canbus_send`. -/
def handedBytes (s : CanState) : List UInt8 :=
  (s.past.map TxPeriod.handed).flatten ++ s.period.handed

/-- Another chip gets the identifier while a frame is sent, and this one gets it again later. -/
def lostId : List CanEvent :=
  let assign : CanMsg := ⟨canbusIdAdmin, 8, #v[1, 1, 2, 3, 4, 5, 6, 5]⟩
  let conflict : CanMsg := ⟨canbusIdAdmin, 8, #v[1, 6, 5, 4, 3, 2, 1, 5]⟩
  [.processData assign, .rxTask, .step, .step,
    .sendf 10 [10, 11, 12, 13, 14, 15, 16, 17, 18, 19], .txTask, .canbusSend true,
    .canbusSend false, .processData conflict, .rxTask, .step, .txTask, .processData assign,
    .rxTask, .step, .step, .step, .sendf 4 [20, 21, 22, 23], .txTask, .canbusSend true,
    .canbusSend true]

/-- The firmware at its start. -/
def startState : CanState :=
  ⟨.initial [1, 2, 3, 4, 5, 6], ⟨false, false, 0x10⟩, .idle, [], [], ⟨[], []⟩, []⟩

/-- The firmware after that. -/
def lostState : CanState :=
  (canSerial.run startState lostId).getD startState

theorem reachable_lostState : canSerial.ReachableBy (fun _ e => Framed e) lostState := by
  obtain ⟨s, hs⟩ := Option.isSome_iff_exists.1
    (by decide +kernel : (canSerial.run startState lostId).isSome = true)
  have hlost : canSerial.run startState lostId = some lostState := by
    rw [lostState, hs, Option.getD_some]
  exact System.ReachableBy.run (.init ⟨_, _, rfl⟩) (by decide +kernel) hlost

/-- A run in which the buffer was discarded. -/
theorem streams_lostState : lostState.past.length = 1 ∧ lostState.Streams :=
  ⟨by decide +kernel, streams_of_reachable reachable_lostState⟩

/-- What is handed on is no sequence of complete frames where the identifier is lost while a frame
is sent. -/
theorem not_frames_lostId : ∃ s, canSerial.ReachableBy (fun _ e => Framed e) s ∧
    ∀ frames : List (List UInt8), frames.Sublist s.sentFrames →
      ¬s.handedBytes <+: frames.flatten := by
  refine ⟨lostState, reachable_lostState, fun frames hframes => ?_⟩
  have hall : ∀ frames ∈ lostState.sentFrames.sublists,
      ¬lostState.handedBytes <+: frames.flatten := by
    decide +kernel
  exact hall frames (List.mem_sublists.2 hframes)

end CanState

end Thinker
