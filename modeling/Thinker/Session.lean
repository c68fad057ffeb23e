import Thinker.Delivery

/-!
# Notifications of a link

The two ends of a link, where the dispatch of a block takes time : a block that is found stays in
the buffer of the micro-controller while its commands are run, and messages go out meanwhile. A
handler that shuts the micro-controller down leaves the block in the buffer.

To each message from the micro-controller belongs the number of the block that was being dispatched
when it was sent, and the host keeps a log of what it put into `receive_queue`. For the sequence
numbers a session is a link (`Session.link`).
-/

namespace Thinker

/-- A block from the micro-controller. Its number without wrapping, and the block that was being
dispatched, are not on the line. -/
structure Emitted where
  frame : ResponseFrame
  number : ℕ
  during : Option ℕ
  deriving DecidableEq

/-- What `handle_message` puts into `receive_queue`. -/
inductive Logged
  /-- A message of `notify_queue` is completed. -/
  | complete (qm : Notify)
  /-- A message with content, and the block that was being dispatched when it was sent. -/
  | data (len : ℕ) (during : Option ℕ)
  deriving DecidableEq

/-- The entry of `receive_queue`. -/
def Logged.received : Logged → Received
  | complete qm => .notify qm.notifyId
  | data len _ => .data len

/-- The message of a completion. -/
def Logged.completed : Logged → Option Notify
  | complete qm => some qm
  | data _ _ => none

/-- Both ends. The last five are not in the code : the blocks that were built, those whose dispatch
has ended and whether all of their commands were run, the messages with a notify id in the order in
which they were sent and with the numbers of their blocks, and the log of the host. -/
structure Session (κ : Type*) where
  host : SerialQueue κ
  mcu : Mcu
  /-- The block that is being dispatched, which is the first of the line. -/
  dispatching : Option (List κ)
  toMcu : List (Item (CommandFrame κ))
  toHost : List (Item Emitted)
  built : List (List κ)
  ended : List (List κ × Bool)
  notified : List (QueueMessage κ × ℕ)
  log : List Logged

/-- What can happen next. -/
inductive SessionEvent (κ : Type*)
  | build (qms : List (QueueMessage κ))
  | retransmit
  | hostReceive
  /-- `command_find_block`. -/
  | mcuReceive
  /-- A message with content is sent by a command or by a task. -/
  | mcuSend (len : ℕ)
  /-- All commands of the block were run. -/
  | mcuAck
  /-- A handler calls `shutdown`. -/
  | mcuShutdown
  | damageToMcu (i n : ℕ)
  | damageToHost (i n : ℕ)

namespace Session

variable {κ : Type*}

/-- The number of the first block whose dispatch has not ended. -/
def current (start : ℕ) (s : Session κ) : ℕ :=
  start + s.ended.length

/-- The block of these bytes, as it is sent now. -/
def emit (start : ℕ) (s : Session κ) (f : ResponseFrame) : Emitted where
  frame := f
  number := s.current start + s.dispatching.toList.length
  during := s.dispatching.map fun _ => s.current start

/-- The test of `handle_message` for an ack of a message that was not sent. -/
def Rejected (sq : SerialQueue κ) (f : ResponseFrame) : Prop :=
  sq.calcReceiveSeq f.seq ≠ sq.receiveSeq ∧ sq.calcReceiveSeq f.seq > sq.sendSeq ∧ sq.receiveSeq ≠ 1

instance (sq : SerialQueue κ) (f : ResponseFrame) : Decidable (Rejected sq f) :=
  inferInstanceAs (Decidable (_ ∧ _))

/-- What `handle_message` adds to the log. -/
def logOf (sq : SerialQueue κ) (f : Emitted) : List Logged :=
  if Rejected sq f.frame then []
  else
    let left := (sq.handleMessage f.frame).notifyQueue
    (sq.notifyQueue.take (sq.notifyQueue.length - left.length)).map .complete ++
      if f.frame.len = messageMin then [] else [.data f.frame.len f.during]

/-- The state after an event. -/
def next (start : ℕ) (s : Session κ) : SessionEvent κ → Option (Session κ)
  | .build qms =>
    if s.host.checkSendCommand then
      let (host, out) := s.host.buildAndSendCommand qms
      some { s with
        host := host
        toMcu := s.toMcu ++ [.frame out]
        built := s.built ++ [out.msg]
        notified := s.notified ++ (qms.filter fun qm => qm.notifyId ≠ 0).map fun qm =>
          (qm, s.host.sendSeq) }
    else none
  | .retransmit =>
    let (host, out) := s.host.retransmitEvent
    some { s with host := host, toMcu := s.toMcu ++ out.map .frame }
  | .hostReceive =>
    match s.toHost with
    | [] => none
    | .garbage :: rest => some { s with toHost := rest }
    | .frame f :: rest =>
      some { s with
        host := s.host.handleMessage f.frame
        toHost := rest
        log := s.log ++ logOf s.host f }
  | .mcuReceive =>
    match s.dispatching, s.toMcu with
    | none, it :: rest =>
      match s.mcu.findBlock it with
      | (mcu, .block msg) => some { s with mcu := mcu, dispatching := some msg }
      | (mcu, .nak) =>
        some { s with
          mcu := mcu
          toMcu := rest
          toHost := s.toHost ++ [.frame (s.emit start (mcu.addFrame messageMin))] }
      | (mcu, .skip) => some { s with mcu := mcu, toMcu := rest }
    | _, _ => none
  | .mcuSend len =>
    if messageMin < len then
      some { s with toHost := s.toHost ++ [.frame (s.emit start (s.mcu.addFrame len))] }
    else none
  | .mcuAck =>
    match s.dispatching with
    | none => none
    | some msg =>
      let s := { s with
        dispatching := none
        toMcu := s.toMcu.tail
        ended := s.ended ++ [(msg, true)] }
      some { s with
        toHost := s.toHost ++ [.frame (s.emit start (s.mcu.addFrame messageMin))] }
  | .mcuShutdown =>
    match s.dispatching with
    | none => none
    | some msg => some { s with dispatching := none, ended := s.ended ++ [(msg, false)] }
  | .damageToMcu i n =>
    -- the block that is being dispatched is no longer on the line
    if s.dispatching.isSome ∧ i = 0 then none else some { s with toMcu := damage s.toMcu i n }
  | .damageToHost i n => some { s with toHost := damage s.toHost i n }

/-- The state after connection init, with both ends at block number `start`. -/
structure Init (start : ℕ) (s : Session κ) : Prop where
  serialFdType : s.host.serialFdType ≠ .debugfile
  sendSeq : s.host.sendSeq = start
  receiveSeq : s.host.receiveSeq = start
  sentQueue : s.host.sentQueue = []
  notifyQueue : s.host.notifyQueue = []
  receiveQueue : s.host.receiveQueue = []
  nextSequence : s.mcu.nextSequence = wireSeq start
  dispatching : s.dispatching = none
  toMcu : s.toMcu = []
  toHost : s.toHost = []
  built : s.built = []
  ended : s.ended = []
  notified : s.notified = []
  log : s.log = []

/-- Runs from connection init at block number `start`. -/
def system (κ : Type*) (start : ℕ) : System (Session κ) (SessionEvent κ) := ⟨Init start, next start⟩

/-! ## A session is a link -/

/-- An item without what is not on the line. -/
def erase : Item Emitted → Item ResponseFrame
  | .frame f => .frame f.frame
  | .garbage => .garbage

/-- The link of a session, on which a block is gone once its dispatch begins. -/
def link (s : Session κ) : Link κ where
  host := s.host
  mcu := s.mcu
  toMcu := if s.dispatching.isSome then s.toMcu.tail else s.toMcu
  toHost := s.toHost.map erase
  built := s.built
  dispatched := s.ended.map Prod.fst ++ s.dispatching.toList

end Session

/-! ## A block that is found again -/

/-- A block in flight that was taken last is in flight again, in front of the others. -/
theorem Window.Inv.refind {W : ℕ} {w : Window} (h : w.Inv W) {j : ℕ} (hj : w.delivered = j + 1)
    (hW : 1 ≤ W) : Window.Inv W { w with fwd := j :: w.fwd } where
  acked_le := h.acked_le
  delivered_le := h.delivered_le
  sent_le := h.sent_le
  fwd_lt i hi := by
    rcases List.mem_cons.1 hi with rfl | hi
    · have := h.delivered_le
      show i < w.sent
      omega
    · exact h.fwd_lt i hi
  fwd_near i hi := by
    rcases List.mem_cons.1 hi with rfl | hi
    · show w.delivered ≤ i + W
      omega
    · exact h.fwd_near i hi
  fwd_order := List.pairwise_cons.2 ⟨fun i hi => by have := h.fwd_near i hi; omega, h.fwd_order⟩
  bwd_ge := h.bwd_ge
  bwd_le := h.bwd_le
  bwd_order := h.bwd_order

theorem Link.Inv.refind {κ : Type*} {start : ℕ} {l : Link κ} (h : Link.Inv start l)
    {f : CommandFrame κ} {j : ℕ} (hj : start + l.dispatched.length = j + 1)
    (hf : Link.Carries start l.built f j) :
    Link.Inv start { l with toMcu := .frame f :: l.toMcu } := by
  obtain ⟨w, hr, hw⟩ := h
  refine ⟨_, ?_, hw.refind (hr.dispatched.trans hj) (by decide)⟩
  exact { hr with
    toMcu := by
      rw [List.filterMap_cons_some (show Item.frame? (.frame f) = some f from rfl)]
      exact .cons hf hr.toMcu }

end Thinker
