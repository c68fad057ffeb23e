import Thinker.Bits

/-!
# Message blocks at the micro-controller

A line delivers whole message blocks, or stretches of bytes in which no block with a
correct crc is found. `command_find_block` and `command_find_and_dispatch` (`command.c`)
are modelled on these : the search for the next SYNC byte that ends a damaged stretch is
part of the one step that reads the stretch.
-/

namespace Thinker

/-- `MESSAGE_MIN` : the length of a block without content. -/
def messageMin : ℕ := 5

/-- `MESSAGE_MAX`. -/
def messageMax : ℕ := 64

/-- `MESSAGE_SEQ_MASK`. -/
def messageSeqMask : ℕ := 0x0f

/-- `MESSAGE_DEST`. -/
def messageDest : ℕ := 0x10

/-- The sequence byte of block number `n`. -/
def wireSeq (n : ℕ) : ℕ := messageDest ||| (n &&& messageSeqMask)

theorem wireSeq_eq (n : ℕ) : wireSeq n = 16 + n % 16 := by
  have h : n &&& messageSeqMask = n % 16 := Nat.and_two_pow_sub_one_eq_mod n 4
  rw [wireSeq, h]
  exact (Nat.two_pow_add_eq_or_of_lt (i := 4) (Nat.mod_lt n (by decide)) 1).symm

theorem wireSeq_inj {m n : ℕ} : wireSeq m = wireSeq n ↔ m % 16 = n % 16 := by
  rw [wireSeq_eq, wireSeq_eq, Nat.add_left_cancel_iff]

/-- The sequence byte after that of block `n`. -/
theorem wireSeq_succ (n : ℕ) : ((wireSeq n + 1) &&& messageSeqMask) ||| messageDest =
    wireSeq (n + 1) := by
  have h : (wireSeq n + 1) &&& messageSeqMask = (n + 1) &&& messageSeqMask := by
    have hm : ∀ k, k &&& messageSeqMask = k % 16 := fun k => Nat.and_two_pow_sub_one_eq_mod k 4
    rw [hm, hm, wireSeq_eq]
    omega
  rw [h, Nat.or_comm]
  rfl

theorem wireSeq_dest (n : ℕ) : wireSeq n &&& 0xf0 = messageDest := by
  have h : ∀ k < 16, (16 + k) &&& 0xf0 = 16 := by decide
  rw [wireSeq_eq]
  exact h _ (Nat.mod_lt n (by decide))

/-- What the reader of a line finds next. -/
inductive Item (φ : Type*)
  /-- A block whose length, trailer and crc are correct. -/
  | frame (f : φ)
  /-- Bytes with no such block, up to the next SYNC byte. -/
  | garbage
  deriving DecidableEq, Repr

/-- The block of an item, if it is one. -/
def Item.frame? {φ : Type*} : Item φ → Option φ
  | frame f => some f
  | garbage => none

/-- A block of commands from the host. -/
structure CommandFrame (κ : Type*) where
  /-- The byte at `MESSAGE_POS_SEQ`. -/
  seq : ℕ
  /-- The commands of the block. -/
  msg : List κ
  /-- The byte at `MESSAGE_POS_LEN`. -/
  len : ℕ
  deriving DecidableEq, Repr

/-- A block from the micro-controller : an ack or nak if its length is `MESSAGE_MIN`. -/
structure ResponseFrame where
  seq : ℕ
  len : ℕ
  deriving DecidableEq, Repr

/-- The static variables of `command.c`. -/
structure Mcu where
  /-- `next_sequence`. -/
  nextSequence : ℕ
  /-- The bit `CF_NEED_VALID` of `sync_state`. -/
  needValid : Bool
  deriving DecidableEq, Repr

namespace Mcu

/-- `command_add_frame` around an encoded message of length `len`. -/
def addFrame (m : Mcu) (len : ℕ) : ResponseFrame := ⟨m.nextSequence, len⟩

/-- What `command_find_block` does with the bytes it read. -/
inductive FindResult (κ : Type*)
  /-- Return value 1 : the block goes to `command_dispatch`. -/
  | block (msg : List κ)
  /-- Return value -1 after `command_sendf(&encode_acknak)`. -/
  | nak
  /-- Return value -1. -/
  | skip

/-- The label `error` of `command_find_block` : the first damage after a valid block is
answered with a nak. -/
def findError {κ : Type*} (m : Mcu) : Mcu × FindResult κ :=
  if m.needValid then (m, .skip) else ({ m with needValid := true }, .nak)

/-- `command_find_block`. -/
def findBlock {κ : Type*} (m : Mcu) : Item (CommandFrame κ) → Mcu × FindResult κ
  | .garbage => m.findError
  | .frame f =>
    if f.seq &&& 0xf0 ≠ messageDest then m.findError
    else
      let m := { m with needValid := false }
      if f.seq ≠ m.nextSequence then (m, .nak)
      else ({ m with nextSequence := ((f.seq + 1) &&& messageSeqMask) ||| messageDest },
        .block f.msg)

/-- What running the handlers of a block does to the line. -/
structure DispatchOutcome where
  /-- Lengths of the messages that handlers send, in order. -/
  responses : List ℕ
  /-- False if a handler calls `shutdown`, which leaves `command_dispatch` for good. -/
  completes : Bool
  deriving DecidableEq, Repr

/-- `command_find_and_dispatch` : the new state, the block that went to `command_dispatch`
and what was sent. -/
def findAndDispatch {κ : Type*} (m : Mcu) (it : Item (CommandFrame κ)) (o : DispatchOutcome) :
    Mcu × Option (List κ) × List ResponseFrame :=
  match m.findBlock it with
  | (m', .block msg) =>
    (m', some msg, o.responses.map m'.addFrame ++
      if o.completes then [m'.addFrame messageMin] else [])
  | (m', .nak) => (m', none, [m'.addFrame messageMin])
  | (m', .skip) => (m', none, [])

variable {κ : Type*}

/-- Damage changes no sequence number, and every answer to it carries this number. -/
theorem findAndDispatch_garbage (m : Mcu) (o : DispatchOutcome) :
    ∃ v n, m.findAndDispatch (.garbage : Item (CommandFrame κ)) o =
      (⟨m.nextSequence, v⟩, none, List.replicate n (m.addFrame messageMin)) := by
  cases h : m.needValid with
  | true => exact ⟨true, 0, by cases m; simp_all [findAndDispatch, findBlock, findError]⟩
  | false => exact ⟨true, 1, by simp [findAndDispatch, findBlock, findError, h, addFrame]⟩

/-- A block from the host is dispatched if it carries the expected number, and then the
answers carry the next one; else it is answered with a nak. -/
theorem findAndDispatch_frame (m : Mcu) (n : ℕ) (msg : List κ) (len : ℕ) (o : DispatchOutcome) :
    m.findAndDispatch (.frame ⟨wireSeq n, msg, len⟩) o =
      if wireSeq n = m.nextSequence then
        (⟨wireSeq (n + 1), false⟩, some msg,
          o.responses.map (ResponseFrame.mk (wireSeq (n + 1))) ++
            if o.completes then [⟨wireSeq (n + 1), messageMin⟩] else [])
      else (⟨m.nextSequence, false⟩, none, [⟨m.nextSequence, messageMin⟩]) := by
  obtain ⟨s, v⟩ := m
  have hd := wireSeq_dest n
  by_cases h : wireSeq n = s
  · subst h
    simp only [findAndDispatch, findBlock, hd, wireSeq_succ, ne_eq, not_true_eq_false, if_false,
      if_true]
    rfl
  · simp only [findAndDispatch, findBlock, hd, h, ne_eq, not_true_eq_false, not_false_eq_true,
      if_false, if_true]
    rfl

end Mcu

end Thinker
