import Thinker.CommandBlock
import Thinker.Transition

/-!
# Finding message blocks in a stream of bytes

The host (`msgblock_check` in the loop of `input_event`) and the firmware (`command_find_block`)
look for a message block at the start of their input buffer. Where there is none, they discard
bytes up to the next SYNC byte, and remember that they still search for it if it has not
arrived.

A system takes two kinds of steps : bytes arrive, and the parser is called on the buffer. What
arrived and what was found is kept beside the state.
-/

namespace Thinker

/-- `MESSAGE_SYNC`. -/
def messageSync : UInt8 := 0x7E

/-- One byte of `crc16_ccitt`. -/
def crc16Byte (crc : UInt16) (data : UInt8) : UInt16 :=
  let data := data ^^^ crc.toUInt8
  let data := data ^^^ (data <<< 4)
  ((data.toUInt16 <<< 8) ||| (crc >>> 8)) ^^^ (data >>> 4).toUInt16 ^^^ (data.toUInt16 <<< 3)

/-- The text that `crc16_ccitt` has in the firmware and in `msgblock.c`. -/
def crc16Ccitt (buf : List UInt8) : UInt16 :=
  buf.foldl crc16Byte 0xffff

/-- What the start of a buffer looks like. -/
inductive BlockCheck where
  | more
  | error
  | valid (msglen : ℕ)
  deriving DecidableEq, Repr

/-- The tests that `msgblock_check` and `command_find_block` have in common. -/
def checkBlock (buf : List UInt8) : BlockCheck :=
  if buf.length < messageMin then .more
  else
    let msglen := (buf.getD 0 0).toNat
    let msgseq := buf.getD 1 0
    if msglen < messageMin ∨ msglen > messageMax then .error
    else if msgseq &&& 0xf0 ≠ 0x10 then .error
    else if buf.length < msglen then .more
    else if buf.getD (msglen - 1) 0 ≠ messageSync then .error
    else
      let msgcrc := ((buf.getD (msglen - 3) 0).toUInt16 <<< 8) ||| (buf.getD (msglen - 2) 0).toUInt16
      if crc16Ccitt (buf.take (msglen - 3)) ≠ msgcrc then .error else .valid msglen

/-- `memchr(buf, MESSAGE_SYNC, buf_len)`. -/
def memchrSync (buf : List UInt8) : Option ℕ :=
  buf.findIdx? (· == messageSync)

/-! ## The host -/

/-- The label `error` of `msgblock_check` : the return value and `need_sync`. -/
def msgblockError (buf : List UInt8) : ℤ × Bool :=
  match memchrSync buf with
  | some i => (-(i + 1), false)
  | none => (-buf.length, true)

/-- `msgblock_check`. -/
def msgblockCheck (needSync : Bool) (buf : List UInt8) : ℤ × Bool :=
  if buf.length < messageMin then (0, needSync)
  else if needSync then msgblockError buf
  else
    match checkBlock buf with
    | .more => (0, needSync)
    | .error => msgblockError buf
    | .valid msglen => (msglen, needSync)

/-- The input of `struct serialqueue`, with what has arrived and the blocks for
`handle_message`. -/
structure HostInput where
  needSync : Bool
  inputBuf : List UInt8
  arrived : List UInt8
  messages : List (List UInt8)
  deriving DecidableEq, Repr

namespace HostInput

/-- One turn of the loop of `input_event`, unless it needs more data. -/
def inputEvent (s : HostInput) : Option HostInput :=
  let (len, needSync) := msgblockCheck s.needSync s.inputBuf
  if len = 0 then none
  else if len > 0 then
    some { s with
      needSync := needSync
      messages := s.messages ++ [s.inputBuf.take len.toNat]
      inputBuf := s.inputBuf.drop len.toNat }
  else some { s with needSync := needSync, inputBuf := s.inputBuf.drop (-len).toNat }

end HostInput

/-! ## The firmware -/

/-- `sync_state` and `next_sequence` of `command.c`. -/
structure SyncState where
  needSync : Bool
  needValid : Bool
  nextSequence : UInt8
  deriving DecidableEq, Repr

/-- What `command_find_block` returns, its `pop_count`, whether it sends `encode_acknak`, and
the new state. -/
structure FindBlock where
  ret : ℤ
  popCount : ℕ
  acknak : Bool
  state : SyncState
  deriving DecidableEq, Repr

namespace SyncState

/-- The label `need_sync`. -/
def search (m : SyncState) (buf : List UInt8) : FindBlock :=
  let (m, popCount) : SyncState × ℕ :=
    match memchrSync buf with
    | some i => ({ m with needSync := false }, i + 1)
    | none => (m, buf.length)
  if m.needValid then ⟨-1, popCount, false, m⟩
  else ⟨-1, popCount, true, { m with needValid := true }⟩

/-- `command_find_block`. -/
def commandFindBlock (m : SyncState) (buf : List UInt8) : FindBlock :=
  if buf.length ≠ 0 ∧ m.needSync then m.search buf
  else
    match checkBlock buf with
    | .more => ⟨0, 0, false, m⟩
    | .error =>
      -- do not nak leading SYNC bytes
      if buf.getD 0 0 = messageSync then ⟨-1, 1, false, m⟩
      else { m with needSync := true }.search buf
    | .valid msglen =>
      let m := { m with needValid := false }
      let msgseq := buf.getD 1 0
      if msgseq ≠ m.nextSequence then ⟨-1, msglen, true, m⟩
      else ⟨1, msglen, false, { m with nextSequence := ((msgseq + 1) &&& 0x0f) ||| 0x10 }⟩

end SyncState

/-- What `command_find_block` hands on or sends. A nak carries `next_sequence`. -/
inductive Found where
  | block (bytes : List UInt8)
  | nak (nextSequence : UInt8)
  deriving DecidableEq, Repr

/-- The receive buffer of the firmware, with what has arrived and what was found. -/
structure Console where
  state : SyncState
  receiveBuf : List UInt8
  arrived : List UInt8
  found : List Found
  deriving DecidableEq, Repr

namespace Console

/-- `console_task`, unless more data is needed. -/
def consoleTask (s : Console) : Option Console :=
  let r := s.state.commandFindBlock s.receiveBuf
  if r.ret = 0 then none
  else
    let found :=
      if r.ret > 0 then [Found.block (s.receiveBuf.take r.popCount)]
      else if r.acknak then [Found.nak r.state.nextSequence]
      else []
    some { s with
      state := r.state
      receiveBuf := s.receiveBuf.drop r.popCount
      found := s.found ++ found }

end Console

/-! ## Bytes arrive in any pieces -/

/-- What happens at a receiver. -/
inductive ReceiveEvent where
  | arrive (data : List UInt8)
  | parse

/-- The input of the host. -/
def hostInput (needSync : Bool) : System HostInput ReceiveEvent where
  init s := s = ⟨needSync, [], [], []⟩
  next s
    | .arrive data => some { s with inputBuf := s.inputBuf ++ data, arrived := s.arrived ++ data }
    | .parse => s.inputEvent

/-- The input of the firmware. -/
def console (nextSequence : UInt8) : System Console ReceiveEvent where
  init s := s = ⟨⟨false, false, nextSequence⟩, [], [], []⟩
  next s
    | .arrive data =>
      some { s with receiveBuf := s.receiveBuf ++ data, arrived := s.arrived ++ data }
    | .parse => s.consoleTask

end Thinker
