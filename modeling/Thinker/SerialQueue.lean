import Thinker.CommandBlock

/-!
# The host's serial queue

The sequence numbers, retransmissions and acknowledgements of `serialqueue.c`. The 64-bit
counters are natural numbers. Times are left out : when a timer fires, and which pending
messages make the next block, is the environment's choice, so a run may retransmit at any
moment. `serialqueue_alloc` marks a debug file, from which nothing is ever read, by
`receive_seq = (uint64_t)-1`; here the type of the file says so.
-/

namespace Thinker

/-- `MAX_PENDING_BLOCKS`. -/
def maxPendingBlocks : ℕ := 12

/-- `serial_fd_type`. -/
inductive SerialFdType
  | uart | can | debugfile
  deriving DecidableEq, Repr

/-- The waketime of the timer `SQPT_RETRANSMIT` : `PR_NEVER`, `PR_NOW` or some time. -/
inductive Waketime
  | never | now | later
  deriving DecidableEq, Repr

/-- A pending message of a command queue. -/
structure QueueMessage (κ : Type*) where
  msg : κ
  len : ℕ
  notifyId : ℕ
  deriving DecidableEq, Repr

/-- An entry of `notify_queue`; `req_clock` holds the number of the block it was sent in. -/
structure Notify where
  notifyId : ℕ
  reqClock : ℕ
  deriving DecidableEq, Repr

/-- An entry of `receive_queue` : a completed notification, or a message of some length. -/
inductive Received
  | notify (notifyId : ℕ)
  | data (len : ℕ)
  deriving DecidableEq, Repr

/-- The part of `struct serialqueue` that does not depend on time. -/
structure SerialQueue (κ : Type*) where
  serialFdType : SerialFdType
  receiveWindow : ℕ
  sendSeq : ℕ
  receiveSeq : ℕ
  ignoreNakSeq : ℕ
  lastAckSeq : ℕ
  retransmitSeq : ℕ
  sentQueue : List (CommandFrame κ)
  needAckBytes : ℤ
  lastAckBytes : ℤ
  retransmitTimer : Waketime
  notifyQueue : List Notify
  receiveQueue : List Received
  deriving DecidableEq, Repr

namespace SerialQueue

variable {κ : Type*}

/-! ## Transmission -/

/-- The tests of `check_send_command` that wait for an acknowledgement. -/
def checkSendCommand (sq : SerialQueue κ) : Bool :=
  if ((sq.sendSeq : ℤ) - sq.receiveSeq) % 2 ^ 64 ≥ maxPendingBlocks ∧
      sq.serialFdType ≠ .debugfile then false
  else if sq.sendSeq > sq.receiveSeq ∧ sq.receiveWindow ≠ 0 then
    let needAckBytes := sq.needAckBytes + messageMax +
      if sq.lastAckSeq < sq.receiveSeq then sq.lastAckBytes else 0
    decide (needAckBytes ≤ sq.receiveWindow)
  else true

/-- `build_and_send_command` with the messages it takes from the ready queues : the block
and the new state. -/
def buildAndSendCommand (sq : SerialQueue κ) (qms : List (QueueMessage κ)) :
    SerialQueue κ × CommandFrame κ :=
  let out : CommandFrame κ :=
    ⟨messageDest ||| (sq.sendSeq &&& messageSeqMask), qms.map QueueMessage.msg,
      messageMin + (qms.map QueueMessage.len).sum⟩
  let notify := (qms.filter fun qm => qm.notifyId ≠ 0).map fun qm =>
    (⟨qm.notifyId, sq.sendSeq⟩ : Notify)
  ({ sq with
      notifyQueue := sq.notifyQueue ++ notify
      retransmitTimer := if sq.sentQueue = [] then .later else sq.retransmitTimer
      sendSeq := sq.sendSeq + 1
      needAckBytes := sq.needAckBytes + out.len
      sentQueue := sq.sentQueue ++ [out] }, out)

/-- `retransmit_event` : the new state; every block of `sent_queue` is written again. -/
def retransmitEvent (sq : SerialQueue κ) : SerialQueue κ × List (CommandFrame κ) :=
  let ignoreNakSeq :=
    if sq.retransmitTimer = .now then
      if sq.receiveSeq < sq.retransmitSeq then sq.retransmitSeq else sq.receiveSeq
    else sq.sendSeq
  ({ sq with
      ignoreNakSeq := ignoreNakSeq
      retransmitSeq := sq.sendSeq
      retransmitTimer := .later }, sq.sentQueue)

/-! ## Reception -/

/-- The loop of `update_receive_seq` that removes blocks from `sent_queue` until
`sent_seq` is `rseq`. A queue that runs empty before makes `rseq` the next number to send. -/
def popSent (rseq : ℕ) : ℕ → List (CommandFrame κ) → SerialQueue κ → SerialQueue κ
  | _, [], sq => { sq with sentQueue := [], sendSeq := rseq }
  | sentSeq, sent :: rest, sq =>
    let sq := { sq with needAckBytes := sq.needAckBytes - sent.len, sentQueue := rest }
    if rseq = sentSeq + 1 then { sq with lastAckBytes := sent.len }
    else popSent rseq (sentSeq + 1) rest sq

/-- `update_receive_seq`. -/
def updateReceiveSeq (sq : SerialQueue κ) (rseq : ℕ) : SerialQueue κ :=
  let sq := popSent rseq sq.receiveSeq sq.sentQueue sq
  { sq with
    receiveSeq := rseq
    retransmitTimer := if sq.sentQueue = [] then .never else .later }

/-- The loop of `handle_message` over `notify_queue`, with its 64-bit `wake_seq`. -/
def wakeNotify (rseq len : ℕ) : List Notify → List Notify × List Received
  | [] => ([], [])
  | qm :: rest =>
    let wakeSeq := ((rseq : ℤ) - 1 - if len > messageMin then 1 else 0) % 2 ^ 64
    if (qm.reqClock : ℤ) > wakeSeq then (qm :: rest, [])
    else
      let (left, woken) := wakeNotify rseq len rest
      (left, .notify qm.notifyId :: woken)

/-- `rseq` of `handle_message` : `receive_seq` plus the difference of the low bits. -/
def calcReceiveSeq (sq : SerialQueue κ) (seq : ℕ) : ℕ :=
  sq.receiveSeq + (Int.land ((seq : ℤ) - sq.receiveSeq) messageSeqMask).toNat

/-- `handle_message` on a well formed block. -/
def handleMessage (sq : SerialQueue κ) (f : ResponseFrame) : SerialQueue κ :=
  let rseq := sq.calcReceiveSeq f.seq
  if rseq ≠ sq.receiveSeq ∧ rseq > sq.sendSeq ∧ sq.receiveSeq ≠ 1 then sq
  else
    let sq := if rseq ≠ sq.receiveSeq then sq.updateReceiveSeq rseq else sq
    let (left, woken) := wakeNotify rseq f.len sq.notifyQueue
    let sq := { sq with notifyQueue := left, receiveQueue := sq.receiveQueue ++ woken }
    if f.len = messageMin then
      if sq.lastAckSeq < rseq then { sq with lastAckSeq := rseq }
      else if rseq > sq.ignoreNakSeq ∧ sq.sentQueue ≠ [] then { sq with retransmitTimer := .now }
      else sq
    else { sq with receiveQueue := sq.receiveQueue ++ [.data f.len] }

/-! ## What the operations change -/

@[simp] theorem buildAndSendCommand_fst_sentQueue (sq : SerialQueue κ)
    (qms : List (QueueMessage κ)) : (sq.buildAndSendCommand qms).1.sentQueue =
      sq.sentQueue ++ [(sq.buildAndSendCommand qms).2] := rfl

/-- The block gets the number `send_seq`. -/
theorem buildAndSendCommand_snd (sq : SerialQueue κ) (qms : List (QueueMessage κ)) :
    (sq.buildAndSendCommand qms).2 = ⟨wireSeq sq.sendSeq, qms.map QueueMessage.msg,
      messageMin + (qms.map QueueMessage.len).sum⟩ := rfl

/-- A block is built only while fewer than `MAX_PENDING_BLOCKS` blocks are pending. -/
theorem room_of_checkSendCommand {sq : SerialQueue κ} (h : sq.checkSendCommand = true)
    (hfd : sq.serialFdType ≠ .debugfile) (hle : sq.sendSeq ≤ sq.receiveSeq + maxPendingBlocks) :
    sq.sendSeq < sq.receiveSeq + maxPendingBlocks := by
  have hmax : maxPendingBlocks = 12 := rfl
  by_contra hge
  have hfull : ((sq.sendSeq : ℤ) - sq.receiveSeq) % 2 ^ 64 ≥ maxPendingBlocks := by omega
  rw [checkSendCommand, if_pos ⟨hfull, hfd⟩] at h
  exact Bool.false_ne_true h

/-- The number of a block that is not before `receive_seq` is found from its low bits. -/
theorem calcReceiveSeq_wireSeq (sq : SerialQueue κ) {v : ℕ} (h : sq.receiveSeq ≤ v) :
    sq.calcReceiveSeq (wireSeq v) = sq.receiveSeq + (v - sq.receiveSeq) % 16 := by
  have hmask : Int.land ((wireSeq v : ℤ) - sq.receiveSeq) messageSeqMask =
      ((wireSeq v : ℤ) - sq.receiveSeq) % 16 := land_mask _ 4
  rw [calcReceiveSeq, hmask, wireSeq_eq]
  omega

/-- With enough blocks in the queue the loop of `update_receive_seq` removes those below
`rseq` and changes nothing else that the protocol depends on. -/
theorem popSent_spec (rseq : ℕ) : ∀ (q : List (CommandFrame κ)) (sentSeq : ℕ)
    (sq : SerialQueue κ), sentSeq < rseq → rseq ≤ sentSeq + q.length →
    ∃ needAckBytes lastAckBytes, popSent rseq sentSeq q sq =
      { sq with needAckBytes := needAckBytes, lastAckBytes := lastAckBytes,
                sentQueue := q.drop (rseq - sentSeq) }
  | [], sentSeq, sq, hlt, hle => by simp at hle; omega
  | sent :: rest, sentSeq, sq, hlt, hle => by
    by_cases heq : rseq = sentSeq + 1
    · refine ⟨sq.needAckBytes - sent.len, sent.len, ?_⟩
      simp [popSent, heq]
    · obtain ⟨n, l, h⟩ := popSent_spec rseq rest (sentSeq + 1)
        { sq with needAckBytes := sq.needAckBytes - sent.len, sentQueue := rest }
        (by omega) (by simp at hle; omega)
      refine ⟨n, l, ?_⟩
      rw [popSent, if_neg heq, h, show rseq - sentSeq = rseq - (sentSeq + 1) + 1 by omega,
        List.drop_succ_cons]

/-- The part of `handle_message` that the sequence numbers depend on : an acknowledgement
of blocks in `sent_queue` removes them. -/
theorem handleMessage_spec (sq : SerialQueue κ) (f : ResponseFrame)
    (hsent : sq.sendSeq = sq.receiveSeq + sq.sentQueue.length)
    (hle : sq.calcReceiveSeq f.seq ≤ sq.sendSeq) :
    (sq.handleMessage f).sendSeq = sq.sendSeq ∧
      (sq.handleMessage f).receiveSeq = sq.calcReceiveSeq f.seq ∧
      (sq.handleMessage f).serialFdType = sq.serialFdType ∧
      (sq.handleMessage f).sentQueue =
        sq.sentQueue.drop (sq.calcReceiveSeq f.seq - sq.receiveSeq) := by
  have hge : sq.receiveSeq ≤ sq.calcReceiveSeq f.seq := Nat.le_add_right _ _
  -- the test for an ack of a block not sent fails
  have hin : ¬(sq.calcReceiveSeq f.seq ≠ sq.receiveSeq ∧ sq.calcReceiveSeq f.seq > sq.sendSeq ∧
      sq.receiveSeq ≠ 1) := by omega
  simp only [handleMessage, if_neg hin]
  generalize sq.calcReceiveSeq f.seq = rseq at hle hge hin ⊢
  have hupd : ∃ sq' : SerialQueue κ,
      (if rseq ≠ sq.receiveSeq then sq.updateReceiveSeq rseq else sq) = sq' ∧
      sq'.sendSeq = sq.sendSeq ∧ sq'.receiveSeq = rseq ∧ sq'.serialFdType = sq.serialFdType ∧
      sq'.sentQueue = sq.sentQueue.drop (rseq - sq.receiveSeq) := by
    refine ⟨_, rfl, ?_⟩
    split_ifs with hne
    · obtain ⟨n, l, h⟩ := popSent_spec rseq sq.sentQueue sq.receiveSeq sq (by omega) (by omega)
      rw [updateReceiveSeq, h]
      exact ⟨rfl, rfl, rfl, rfl⟩
    · have heq : rseq = sq.receiveSeq := by omega
      subst heq
      simp
  obtain ⟨sq', hsq, h1, h2, h3, h4⟩ := hupd
  rw [hsq]
  split_ifs <;> exact ⟨h1, h2, h3, h4⟩

end SerialQueue

end Thinker
