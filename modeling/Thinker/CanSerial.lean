import Thinker.MessageBlock

/-!
# Serial over CAN

`canserial.c` receives the bytes of CAN messages into a buffer from an interrupt, and takes message
blocks from it in a task. `console_pop_input` moves the bytes behind a block to the front while
further bytes may arrive, and does it again for those. Responses are encoded into a second buffer,
which another task sends in pieces of eight bytes.

Tasks do not preempt each other. The interrupt may run between any two steps of a task, and in
between the bytes that `memmove` moves. A task may be run at any time, so the flags that wake it are
left out. An access outside of a buffer is `none`.
-/

namespace Thinker

/-- `CANBUS_ID_ADMIN`. -/
def canbusIdAdmin : ℕ := 0x3f0

/-- `struct canbus_msg`. -/
structure CanMsg where
  id : ℕ
  dlc : ℕ
  data : Vector UInt8 8

namespace CanMsg

/-- `CANMSG_DATA_LEN`. -/
def dataLen (msg : CanMsg) : ℕ :=
  if msg.dlc > 8 then 8 else msg.dlc

/-- The bytes of the message. -/
def bytes (msg : CanMsg) : List UInt8 :=
  msg.data.toList.take msg.dataLen

end CanMsg

/-! ## Accesses to a buffer -/

/-- Bytes are read. -/
def readBytes (buf : List UInt8) (pos len : ℕ) : Option (List UInt8) :=
  if pos + len ≤ buf.length then some ((buf.drop pos).take len) else none

/-- Bytes are written. -/
def writeBytes (buf : List UInt8) (pos : ℕ) (data : List UInt8) : Option (List UInt8) :=
  if pos + data.length ≤ buf.length then
    some (buf.take pos ++ data ++ buf.drop (pos + data.length))
  else none

/-- `struct canbus_data`. The queue of admin messages is what lies between its positions. -/
structure CanData where
  assignedId : ℕ
  uuid : List UInt8
  transmitPos : ℕ
  transmitMax : ℕ
  receivePos : ℕ
  adminQueue : List CanMsg
  transmitBuf : List UInt8
  receiveBuf : List UInt8

namespace CanData

variable (s : CanData)

/-! ## Transmission -/

/-- What is still to be sent is moved to the front of the buffer. -/
def moveTransmit : Option CanData :=
  let tmax := s.transmitMax - s.transmitPos
  (readBytes s.transmitBuf s.transmitPos tmax).bind fun data =>
    (writeBytes s.transmitBuf 0 data).map fun buf =>
      { s with transmitBuf := buf, transmitPos := 0, transmitMax := tmax }

/-- A frame is encoded behind what is to be sent. -/
def putFrame (frame : List UInt8) : Option CanData :=
  (writeBytes s.transmitBuf s.transmitMax frame).map fun buf =>
    { s with transmitBuf := buf, transmitMax := s.transmitMax + frame.length }

/-- `console_sendf`, with whether the frame is sent. -/
def consoleSendf (maxSize : ℕ) (frame : List UInt8) : Option (CanData × Bool) :=
  -- Verify space for message
  let s :=
    if s.transmitPos ≥ s.transmitMax then { s with transmitPos := 0, transmitMax := 0 } else s
  if s.transmitMax + maxSize > 96 then
    -- Not enough space for message
    if s.transmitMax + maxSize - s.transmitPos > 96 then some (s, false)
    else (s.moveTransmit.bind (·.putFrame frame)).map (·, true)
  else (s.putFrame frame).map (·, true)

/-! ## Admin messages -/

/-- `can_check_uuid`. -/
def canCheckUuid (msg : CanMsg) : Bool :=
  decide (msg.dlc ≥ 7) && (msg.data.toList.drop 1).take 6 == s.uuid

/-- `can_decode_nodeid`. -/
def canDecodeNodeid (nodeid : ℕ) : ℕ :=
  (nodeid <<< 1) + 0x100

/-- `can_id_conflict`, with whether the firmware goes on without a shutdown. -/
def canIdConflict : CanData × Bool :=
  ({ s with assignedId := 0 }, false)

/-- `can_process_set_klipper_nodeid`. -/
def canProcessSetKlipperNodeid (msg : CanMsg) : CanData × Bool :=
  if msg.dlc < 8 then (s, true)
  else
    let newid := canDecodeNodeid msg.data[7].toNat
    if s.canCheckUuid msg then ({ s with assignedId := newid }, true)
    else if newid = s.assignedId then s.canIdConflict
    else (s, true)

/-- `can_process_admin`. A query and a request for the bootloader leave the data as it is. -/
def canProcessAdmin (msg : CanMsg) : CanData × Bool :=
  if msg.dlc = 0 then (s, true)
  else if msg.data[0] = 0x01 then s.canProcessSetKlipperNodeid msg
  else (s, true)

/-- The first message of the queue is processed by `canserial_rx_task`. -/
def processMsg (msg : CanMsg) : CanData × Bool :=
  if s.assignedId ≠ 0 ∧ msg.id = s.assignedId + 1 then s.canIdConflict
  else if msg.id = canbusIdAdmin then s.canProcessAdmin msg
  else (s, true)

/-! ## Reception -/

/-- A message is added to the receive buffer. -/
def Accepts (msg : CanMsg) : Prop :=
  s.assignedId ≠ 0 ∧ msg.id = s.assignedId ∧ msg.dataLen ≤ 192 - s.receivePos

instance (msg : CanMsg) : Decidable (s.Accepts msg) :=
  inferInstanceAs (Decidable (_ ∧ _ ∧ _))

/-- `canserial_process_data`. -/
def processData (msg : CanMsg) : Option CanData :=
  if s.assignedId ≠ 0 ∧ msg.id = s.assignedId then
    -- Add to incoming data buffer
    if msg.dataLen > 192 - s.receivePos then some s
    else
      (writeBytes s.receiveBuf s.receivePos msg.bytes).map fun buf =>
        { s with receiveBuf := buf, receivePos := s.receivePos + msg.dataLen }
  else if msg.id = canbusIdAdmin ∨ s.assignedId ≠ 0 ∧ msg.id = s.assignedId + 1 then
    -- Add to admin command queue
    if s.adminQueue.length ≥ 8 then some s
    else some { s with adminQueue := s.adminQueue ++ [msg] }
  else some s

/-- What `command_find_block` is called with. -/
def received : List UInt8 :=
  s.receiveBuf.take s.receivePos

end CanData

/-! ## Tasks -/

/-- What the main thread is in. -/
inductive CanTask where
  /-- between two tasks -/
  | idle
  /-- the loop of `canserial_tx_task` -/
  | tx (tpos tmax : ℕ)
  /-- the loop of `canserial_rx_task` over the admin messages -/
  | admin
  /-- `command_dispatch`, or a `nak` of `command_find_block` -/
  | dispatch (popCount : ℕ)
  /-- the start of the loop of `console_pop_input` -/
  | popRead (len copied : ℕ)
  /-- its `memmove`, with the next byte that is moved -/
  | popMove (len rpos i : ℕ)
  /-- its end, where interrupts are disabled -/
  | popCommit (len rpos copied : ℕ)

/-- What was sent while the transmit buffer was not discarded : the frames that were encoded into
it, and the bytes that `canbus_send` took. -/
structure TxPeriod where
  frames : List (List UInt8)
  handed : List UInt8

/-- The firmware, with the data of all messages that were not dropped, all bytes that were popped,
and what was sent : now, and before the buffer was discarded. -/
structure CanState where
  data : CanData
  sync : SyncState
  task : CanTask
  accepted : List (List UInt8)
  popped : List UInt8
  period : TxPeriod
  past : List TxPeriod

/-- What may happen. -/
inductive CanEvent where
  /-- `canserial_process_data` is called by an interrupt -/
  | processData (msg : CanMsg)
  /-- `console_sendf` is called, with the size for which there must be space, and the frame -/
  | sendf (maxSize : ℕ) (frame : List UInt8)
  /-- `canserial_tx_task` is run -/
  | txTask
  /-- its loop goes on, with what `canbus_send` returns -/
  | canbusSend (ok : Bool)
  /-- `canserial_rx_task` is run -/
  | rxTask
  /-- it goes on -/
  | step
  /-- a command that it dispatches causes a shutdown -/
  | shutdown

namespace CanState

variable (s : CanState)

/-- A turn of the loop of `canserial_tx_task`. -/
def txStep (tpos tmax : ℕ) (ok : Bool) : Option CanState :=
  let now := if tmax - tpos > 8 then 8 else tmax - tpos
  if tmax - tpos = 0 then
    some { s with data := { s.data with transmitPos := tpos }, task := .idle }
  else
    (readBytes s.data.transmitBuf tpos now).map fun bytes =>
      if ok then
        { s with
          task := .tx (tpos + now) tmax
          period := { s.period with handed := s.period.handed ++ bytes } }
      else { s with data := { s.data with transmitPos := tpos }, task := .idle }

/-- A step of `canserial_rx_task`. -/
def rxStep : Option CanState :=
  match s.task with
  | .admin =>
    match s.data.adminQueue with
    | msg :: queue =>
      let (data, goesOn) := s.data.processMsg msg
      if goesOn then some { s with data := { data with adminQueue := queue } }
      else some { s with data := data, task := .idle }
    | [] =>
      -- Check for a complete message block and process it
      let r := s.sync.commandFindBlock s.data.received
      let s := { s with sync := r.state }
      if r.ret = 0 then some { s with task := .idle }
      else some { s with task := .dispatch r.popCount }
  | .dispatch popCount =>
    some { s with
      task := .popRead popCount 0
      popped := s.popped ++ s.data.received.take popCount }
  | .popRead len copied =>
    let rpos := s.data.receivePos
    if rpos = len then some { s with task := .popCommit len rpos copied }
    -- no bytes could be moved if there were less than those that were
    else if rpos < copied + len then none
    else some { s with task := .popMove len rpos copied }
  | .popMove len rpos i =>
    if i < rpos - len then
      (readBytes s.data.receiveBuf (i + len) 1).bind fun byte =>
        (writeBytes s.data.receiveBuf i byte).map fun buf =>
          { s with data := { s.data with receiveBuf := buf }, task := .popMove len rpos (i + 1) }
    else some { s with task := .popCommit len rpos i }
  | .popCommit len rpos copied =>
    -- Raced with irq handler - retry
    if rpos ≠ s.data.receivePos then some { s with task := .popRead len copied }
    else some { s with data := { s.data with receivePos := rpos - len }, task := .idle }
  | _ => none

/-- An event can happen in a task. -/
def enabled : CanEvent → Bool
  | .processData _ => true
  | .sendf _ _ => match s.task with
    | .idle | .dispatch _ => true
    | _ => false
  | .txTask | .rxTask => match s.task with
    | .idle => true
    | _ => false
  | .canbusSend _ => match s.task with
    | .tx _ _ => true
    | _ => false
  | .step => match s.task with
    | .idle | .tx _ _ => false
    | _ => true
  | .shutdown => match s.task with
    | .dispatch _ => true
    | _ => false

/-- What an event does. -/
def perform : CanEvent → Option CanState
  | .processData msg =>
    (s.data.processData msg).map fun data =>
      { s with
        data := data
        accepted := if s.data.Accepts msg then s.accepted ++ [msg.bytes] else s.accepted }
  | .sendf maxSize frame =>
    (s.data.consoleSendf maxSize frame).map fun (data, ok) =>
      { s with
        data := data
        period :=
          if ok then { s.period with frames := s.period.frames ++ [frame] } else s.period }
  | .txTask =>
    if s.data.assignedId = 0 then
      some { s with
        data := { s.data with transmitPos := 0, transmitMax := 0 }
        past := s.past ++ [s.period]
        period := ⟨[], []⟩ }
    else some { s with task := .tx s.data.transmitPos s.data.transmitMax }
  | .canbusSend ok => match s.task with
    | .tx tpos tmax => s.txStep tpos tmax ok
    | _ => none
  | .rxTask => some { s with task := .admin }
  | .step => s.rxStep
  | .shutdown => some { s with task := .idle }

end CanState

/-- The data at the start, with the identifier of the chip. -/
def CanData.initial (uuid : List UInt8) : CanData :=
  ⟨0, uuid, 0, 0, 0, [], List.replicate 96 0, List.replicate 192 0⟩

/-- The firmware from its start on. A step that leaves a buffer is no step. -/
def canSerial : System CanState CanEvent where
  init s := ∃ uuid sync, s = ⟨.initial uuid, sync, .idle, [], [], ⟨[], []⟩, []⟩
  next s e := if s.enabled e then s.perform e else none

/-! ## The streams -/

namespace CanData

variable (s : CanData)

/-- What is still to be sent. -/
def pending : List UInt8 :=
  (s.transmitBuf.take s.transmitMax).drop s.transmitPos

end CanData

namespace CanState

variable (s : CanState)

/-- What is still to be sent, also while the task sends. -/
def pending : List UInt8 :=
  match s.task with
  | .tx tpos _ => (s.data.transmitBuf.take s.data.transmitMax).drop tpos
  | _ => s.data.pending

/-- How many bytes `console_pop_input` has moved to the front, and how many it removes. -/
def moved : ℕ × ℕ :=
  match s.task with
  | .popRead len copied => (copied, len)
  | .popMove len _ i => (i, len)
  | .popCommit len _ copied => (copied, len)
  | _ => (0, 0)

/-- What was received and not popped, also while bytes are moved. -/
def remaining : List UInt8 :=
  s.data.receiveBuf.take s.moved.1 ++ s.data.received.drop (s.moved.1 + s.moved.2)

end CanState

end Thinker
