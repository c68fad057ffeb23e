import Thinker.SerialQueue
import Thinker.Transition

/-!
# The host's command queues

The messages of `serialqueue.c` from `serialqueue_send_batch` to a block. Every command queue has
the messages that are not to be sent yet, and those that are ready. `check_send_command` makes
messages ready, and `build_and_send_command` takes the ready message with the lowest `req_clock` of
all queues until a block is full.

What is computed with times is the environment's choice (`Estimate`). The counters of type `int` are
integers.
-/

namespace Thinker

/-- `MAX_CLOCK`. -/
def TransmitQueue.maxClock : ℕ := 0x7fffffffffffffff

/-- `BACKGROUND_PRIORITY_CLOCK`. -/
def TransmitQueue.backgroundPriorityClock : ℕ := 0x7fffffff00000000

/-- A message on a command queue. -/
structure PendingMessage (κ : Type*) extends QueueMessage κ where
  minClock : ℕ
  reqClock : ℕ
  deriving DecidableEq

/-- `struct command_queue`. Beside a ready message is the `ack_clock` of the check that released
it, which is not in the code. -/
structure CommandQueue (κ : Type*) where
  upcomingQueue : List (PendingMessage κ)
  readyQueue : List (PendingMessage κ × ℕ)

/-- A message that was taken from a queue, with the clock that released it. -/
structure Taken (ι κ : Type*) where
  queue : ι
  qm : PendingMessage κ
  ackClock : ℕ

/-- `struct serialqueue` with its command queues. `buf` is what `command_event` has not written yet,
and `locked` says that it has the lock. The last three are not in the code : the messages that were
queued, those of each block, and the blocks that were written. -/
structure TransmitQueue (ι κ : Type*) where
  sq : SerialQueue κ
  queues : ι → CommandQueue κ
  pendingQueues : List ι
  readyBytes : ℤ
  upcomingBytes : ℤ
  needKickClock : ℕ
  locked : Bool
  buf : List (CommandFrame κ)
  queued : ι → List (PendingMessage κ)
  blocks : List (List (Taken ι κ))
  written : List (CommandFrame κ)

/-- What `check_send_command` computes with times : `ack_clock`, the clock of a background message,
whether there is a clock estimate, `reqclock_delta`, and what the time it ends with is. -/
structure Estimate where
  ackClock : ℕ
  backgroundClock : ℕ
  estFreq : Bool
  reqclockDelta : ℕ
  waketime : Waketime

/-- The bytes of these messages. -/
def totalLen {κ : Type*} (qms : List (PendingMessage κ)) : ℤ :=
  (qms.map fun qm => (qm.len : ℤ)).sum

/-- The `min_clock` that `serialqueue_send_batch` makes sure of. -/
def PendingMessage.setMinClock {κ : Type*} (qm : PendingMessage κ) : PendingMessage κ :=
  if (qm.minClock + 2 ^ 31) % 2 ^ 64 < qm.reqClock ∧
      qm.reqClock ≠ TransmitQueue.backgroundPriorityClock then
    { qm with minClock := (qm.reqClock + 2 ^ 64 - 2 ^ 31) % 2 ^ 64 }
  else qm

namespace CommandQueue

variable {κ : Type*} (cq : CommandQueue κ)

/-- Neither of the lists has a message. -/
def Empty : Prop :=
  cq.readyQueue = [] ∧ cq.upcomingQueue = []

instance : Decidable cq.Empty :=
  decidable_of_iff (cq.readyQueue.isEmpty = true ∧ cq.upcomingQueue.isEmpty = true)
    (and_congr List.isEmpty_iff List.isEmpty_iff)

/-- The messages that the clock makes ready. -/
def released (ackClock : ℕ) : List (PendingMessage κ) :=
  cq.upcomingQueue.takeWhile fun qm => decide (¬ ackClock < qm.minClock)

/-- The queue with these messages moved. -/
def release (ackClock : ℕ) : CommandQueue κ where
  upcomingQueue := cq.upcomingQueue.dropWhile fun qm => decide (¬ ackClock < qm.minClock)
  readyQueue := cq.readyQueue ++ (cq.released ackClock).map fun qm => (qm, ackClock)

/-- The messages of the queue in their order. -/
def messages : List (PendingMessage κ) :=
  cq.readyQueue.map Prod.fst ++ cq.upcomingQueue

end CommandQueue

namespace TransmitQueue

variable {ι κ : Type*} [DecidableEq ι]

/-- `serialqueue_send_batch`. -/
def sendBatch (s : TransmitQueue ι κ) (cq : ι) (msgs : List (PendingMessage κ)) :
    TransmitQueue ι κ :=
  let msgs := msgs.map PendingMessage.setMinClock
  match msgs with
  | [] => s
  | qm :: _ =>
    if totalLen msgs = 0 then s
    else
      let q := s.queues cq
      { s with
        pendingQueues := if q.Empty then s.pendingQueues ++ [cq] else s.pendingQueues
        queues := Function.update s.queues cq
          { q with upcomingQueue := q.upcomingQueue ++ msgs }
        upcomingBytes := s.upcomingBytes + totalLen msgs
        needKickClock := if qm.minClock < s.needKickClock then 0 else s.needKickClock
        queued := Function.update s.queued cq (s.queued cq ++ msgs) }

/-- The loop of `check_send_command` over these queues. -/
def releaseReady (ackClock : ℕ) : List ι → TransmitQueue ι κ → TransmitQueue ι κ
  | [], s => s
  | cq :: rest, s =>
    let q := s.queues cq
    releaseReady ackClock rest { s with
      queues := Function.update s.queues cq (q.release ackClock)
      upcomingBytes := s.upcomingBytes - totalLen (q.released ackClock)
      readyBytes := s.readyBytes + totalLen (q.released ackClock) }

/-- `min_stalled_clock`, behind that loop. -/
def minStalledClock (s : TransmitQueue ι κ) : ℕ :=
  (s.pendingQueues.filterMap fun cq =>
    (s.queues cq).upcomingQueue.head?.map PendingMessage.minClock).foldl min maxClock

/-- `min_ready_clock`, behind that loop. -/
def minReadyClock (s : TransmitQueue ι κ) (e : Estimate) : ℕ :=
  (s.pendingQueues.filterMap fun cq => (s.queues cq).readyQueue.head?.map fun m =>
    if m.1.reqClock = backgroundPriorityClock then e.backgroundClock
    else m.1.reqClock).foldl min maxClock

/-- `check_send_command`. -/
def checkSendCommand (s : TransmitQueue ι κ) (e : Estimate) : TransmitQueue ι κ × Waketime :=
  if s.sq.checkSendCommand then
    let s := releaseReady e.ackClock s.pendingQueues s
    if s.readyBytes ≥ (messageMax - messageMin : ℕ) then (s, .now)
    else if e.estFreq = false then
      if s.readyBytes ≠ 0 then (s, .now) else ({ s with needKickClock := maxClock }, .never)
    else if s.minReadyClock e ≤ (e.ackClock + e.reqclockDelta) % 2 ^ 64 then (s, .now)
    else
      let wantclock := (s.minReadyClock e + 2 ^ 64 - e.reqclockDelta) % 2 ^ 64
      let wantclock := if s.minStalledClock < wantclock then s.minStalledClock else wantclock
      ({ s with needKickClock := wantclock }, e.waketime)
  else (s, .never)

/-- The ready message with the lowest `req_clock`. `none` stands for the null pointer. -/
def selectReady (s : TransmitQueue ι κ) : Option (Taken ι κ) :=
  (s.pendingQueues.foldl (fun (best : ℕ × Option (Taken ι κ)) cq =>
    match (s.queues cq).readyQueue with
    | [] => best
    | m :: _ =>
      if m.1.reqClock < best.1 then (m.1.reqClock, some ⟨cq, m.1, m.2⟩) else best)
    (maxClock, none)).2

/-- The message is removed from its queue. -/
def takeReady (s : TransmitQueue ι κ) (m : Taken ι κ) : TransmitQueue ι κ :=
  let q := { s.queues m.queue with readyQueue := (s.queues m.queue).readyQueue.tail }
  { s with
    queues := Function.update s.queues m.queue q
    pendingQueues := if q.Empty then s.pendingQueues.erase m.queue else s.pendingQueues
    readyBytes := s.readyBytes - m.qm.len }

/-- The loop of `build_and_send_command`, with a block of length `len`, for at most so many turns.
`none` stands for a loop that goes on, or reads from the null pointer. -/
def fillBlock : ℕ → ℕ → TransmitQueue ι κ → Option (TransmitQueue ι κ × List (Taken ι κ))
  | 0, _, _ => none
  | turns + 1, len, s =>
    if s.readyBytes = 0 then some (s, [])
    else
      match s.selectReady with
      | none => none
      | some m =>
        -- `MESSAGE_MAX - MESSAGE_TRAILER_SIZE`
        if len + m.qm.len > messageMax - 3 then some (s, [])
        else (fillBlock turns (len + m.qm.len) (s.takeReady m)).map fun r => (r.1, m :: r.2)

/-- `build_and_send_command`, with the block behind those in the buffer. -/
def buildAndSendCommand (s : TransmitQueue ι κ) : Option (TransmitQueue ι κ) :=
  -- `MESSAGE_HEADER_SIZE`
  (fillBlock messageMax 2 s).map fun (s, ms) =>
    let (sq, out) := s.sq.buildAndSendCommand (ms.map fun m => m.qm.toQueueMessage)
    { s with sq := sq, buf := s.buf ++ [out], blocks := s.blocks ++ [ms] }

/-- `buflen`. -/
def buflen (s : TransmitQueue ι κ) : ℕ :=
  (s.buf.map CommandFrame.len).sum

/-- The buffer is written. -/
def flush (s : TransmitQueue ι κ) : TransmitQueue ι κ :=
  { s with written := s.written ++ s.buf, buf := [] }

/-- The size of the buffer. -/
def bufSize : ℕ :=
  messageMax * maxPendingBlocks

/-- A turn of the loop of `command_event`, up to `build_and_send_command` : whether there is one. -/
def beforeBuild (s : TransmitQueue ι κ) (e : Estimate) : TransmitQueue ι κ × Bool :=
  let (s, waketime) := s.checkSendCommand e
  let s := if waketime ≠ .now ∨ s.buflen + messageMax > bufSize then s.flush else s
  (s, decide (waketime = .now))

/-- A turn of the loop of `command_event`. -/
def commandEvent (s : TransmitQueue ι κ) (e : Estimate) : Option (TransmitQueue ι κ) :=
  let (s, again) := s.beforeBuild e
  if again then s.buildAndSendCommand.map fun s => { s with locked := true }
  else some { s with locked := false }

end TransmitQueue

/-- What can happen to the queues. -/
inductive TransmitEvent (ι κ : Type*) where
  | sendBatch (cq : ι) (msgs : List (PendingMessage κ))
  /-- A turn of the loop of `command_event`. -/
  | command (e : Estimate)
  /-- `handle_message` on a block. -/
  | receive (f : ResponseFrame)
  | retransmit

namespace TransmitQueue

variable {ι κ : Type*} [DecidableEq ι]

/-- Before anything is queued. -/
structure Init (s : TransmitQueue ι κ) : Prop where
  sentQueue : s.sq.sentQueue = []
  needAckBytes : s.sq.needAckBytes = 0
  queues : ∀ cq, s.queues cq = ⟨[], []⟩
  pendingQueues : s.pendingQueues = []
  readyBytes : s.readyBytes = 0
  upcomingBytes : s.upcomingBytes = 0
  locked : s.locked = false
  buf : s.buf = []
  queued : ∀ cq, s.queued cq = []
  blocks : s.blocks = []
  written : s.written = []

/-- While `command_event` has the lock, nothing else happens. Nothing is read from a debug file. -/
def system (ι κ : Type*) [DecidableEq ι] : System (TransmitQueue ι κ) (TransmitEvent ι κ) where
  init := Init
  next s
    | .sendBatch cq msgs => if s.locked then none else some (s.sendBatch cq msgs)
    | .command e => s.commandEvent e
    | .receive f =>
      if s.locked ∨ s.sq.serialFdType = .debugfile then none
      else some { s with sq := s.sq.handleMessage f }
    | .retransmit => if s.locked then none else some { s with sq := s.sq.retransmitEvent.1 }

/-- A message as `serialqueue_send_batch` gets it. -/
def WellFormed (qm : PendingMessage κ) : Prop :=
  1 ≤ qm.len ∧ qm.len ≤ messageMax - messageMin ∧ qm.reqClock < maxClock

/-- The batches have such messages. -/
def Allowed (_ : TransmitQueue ι κ) : TransmitEvent ι κ → Prop
  | .sendBatch _ msgs => ∀ qm ∈ msgs, WellFormed qm
  | _ => True

end TransmitQueue

end Thinker
