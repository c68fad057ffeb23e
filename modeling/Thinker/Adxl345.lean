import Mathlib.Data.List.ReduceOption
import Mathlib.Tactic
import Thinker.AngleSensor
import Thinker.SensorBulk
import Thinker.Transition

/-!
# The accelerometer

A timer of the micro-controller starts the readings of the chip, and a task reads until the fifo of
the chip is empty. A reading of three values of 13 bits is packed into 5 bytes. The host asks for
the next sequence number before it decodes the blocks that arrived, and takes their sequence numbers
as signed differences from it.

As long as fewer than `2 ^ 15` blocks are sent between the queries, the host finds the values of
each reading and the number of readings before it (`Session`).
-/

namespace Thinker

namespace Adxl345

open SensorBulk

/-! ## The micro-controller -/

/-- What a transfer leaves in the buffer `msg`. -/
abbrev Msg := Fin 9 → Byte

/-- `SET_FIFO_CTL`. -/
def setFifoCtl : Byte := 0x90

/-- The upper bits of a value are its sign. -/
def upperBits (high : Byte) : Bool :=
  high &&& 0xf0 = 0 ∨ high &&& 0xf0 = 0xf0

/-- Whether a transfer was read right. -/
def good (msg : Msg) : Bool :=
  upperBits (msg 2) && upperBits (msg 4) && upperBits (msg 6) && msg 7 = setFifoCtl &&
    msg 8 &&& 0x7f ≤ 32

/-- The entries in the fifo of the chip, or none after an error. -/
def fifoStatus (msg : Msg) : Byte :=
  if good msg then msg 8 &&& 0x7f else 0

/-- The upper bits of `x` and the lowest of the upper bits of `z`. -/
def xzHigh (xhigh zhigh : Byte) : Byte := (xhigh &&& 0x1f) ||| (zhigh <<< 5)

/-- The upper bits of `y` and the others of `z`. -/
def yzHigh (yhigh zhigh : Byte) : Byte := (yhigh &&& 0x1f) ||| ((zhigh <<< 2) &&& 0x60)

/-- The bytes of an entry. -/
def entry (msg : Msg) : List Byte :=
  if good msg then
    [msg 1, msg 3, msg 5, xzHigh (msg 2) (msg 6), yzHigh (msg 4) (msg 6)]
  else [0xff, 0xff, 0xff, 0xff, 0xff]

/-- `struct adxl345`. -/
structure Adxl where
  /-- The timer is scheduled. -/
  timer : Bool
  restTicks : BitVec 32
  /-- `AX_PENDING`. -/
  pending : Bool
  sb : Bulk
deriving DecidableEq, Repr

namespace Adxl

variable (ax : Adxl)

/-- `command_config_adxl345`. -/
def config : Adxl := ⟨false, 0, false, .reset⟩

/-- `adxl345_event`. -/
def event : Adxl := { ax with timer := false, pending := true }

/-- `command_query_adxl345`. -/
def query (restTicks : BitVec 32) : Adxl :=
  if restTicks = 0 then { ax with timer := false, pending := false }
  else ⟨true, restTicks, false, .reset⟩

/-- `adxl_query`. -/
def adxlQuery (msg : Msg) : Adxl × List Block :=
  let r := ax.sb.add 5 (entry msg)
  let sb := if fifoStatus msg ≥ 31 then
    { r.1 with possibleOverflows := r.1.possibleOverflows + 1 } else r.1
  if fifoStatus msg > 1 then ({ ax with sb := sb }, r.2)
  else ({ ax with sb := sb, pending := false, timer := true }, r.2)

/-- A session goes on. -/
def measuring : Bool := ax.timer || ax.pending

end Adxl

/-! ## The host -/

/-- A decoded reading : its index and the values. -/
structure Sample where
  index : ℤ
  rx : ℤ
  ry : ℤ
  rz : ℤ
deriving DecidableEq, Repr

/-- One entry of `_extract_samples`. -/
def decodeEntry (d : List Byte) (index : ℤ) : Option Sample :=
  let xlow := (d.getD 0 0).toNat
  let ylow := (d.getD 1 0).toNat
  let zlow := (d.getD 2 0).toNat
  let xzhigh := (d.getD 3 0).toNat
  let yzhigh := (d.getD 4 0).toNat
  if yzhigh &&& 0x80 ≠ 0 then none
  else some {
    index := index
    rx := ((xlow ||| (xzhigh &&& 0x1f) <<< 8 : ℕ) : ℤ) - ((xzhigh &&& 0x10) <<< 9 : ℕ)
    ry := ((ylow ||| (yzhigh &&& 0x1f) <<< 8 : ℕ) : ℤ) - ((yzhigh &&& 0x10) <<< 9 : ℕ)
    rz := ((zlow ||| (xzhigh &&& 0xe0) <<< 3 ||| (yzhigh &&& 0xe0) <<< 6 : ℕ) : ℤ) -
      ((yzhigh &&& 0x40) <<< 7 : ℕ) }

/-- The sequence number of a block, near the last that was asked for. -/
def extend (lastSequence : ℕ) (sequence : BitVec 16) : ℤ :=
  let seqDiff := ((sequence.toNat : ℤ) - lastSequence) % 0x10000
  lastSequence + (if 0x8000 ≤ seqDiff then seqDiff - 0x10000 else seqDiff)

/-- The entries of a block, decoded. -/
def decodeBlock (lastSequence : ℕ) (params : Block) : List (Option Sample) :=
  let seq := extend lastSequence params.sequence
  (chunks 5 params.data).zipIdx.map fun e =>
    decodeEntry e.1 (seq * samplesPerBlock 5 + e.2)

/-- `ADXL345` with its `ChipClockUpdater`. -/
structure Host where
  lastSequence : ℕ
  lastOverflows : ℕ
  lastErrorCount : ℕ
deriving DecidableEq, Repr

namespace Host

/-- `update_clock`, for the numbers in the answer. -/
def updateClock (h : Host) (nextSequence possibleOverflows : BitVec 16) : Host :=
  let seqDiff := (((nextSequence.toNat : ℤ) - h.lastSequence) % 0x10000).toNat
  let poDiff := (((possibleOverflows.toNat : ℤ) - h.lastOverflows) % 0x10000).toNat
  { h with lastSequence := h.lastSequence + seqDiff, lastOverflows := h.lastOverflows + poDiff }

/-- `_extract_samples`. -/
def extractSamples (h : Host) (rawSamples : List Block) : Host × List Sample :=
  let entries := rawSamples.flatMap (decodeBlock h.lastSequence)
  ({ h with lastErrorCount := h.lastErrorCount + entries.countP Option.isNone },
    entries.reduceOption)

end Host

/-! ## Runs -/

/-- Both sides, the messages between them, and what happened in the session. -/
structure World where
  ax : Adxl
  host : Host
  /-- The blocks that were sent and did not arrive. -/
  wire : List Block
  /-- The blocks that arrived. -/
  queue : List Block
  /-- A status query was answered since the last batch. -/
  asked : Bool
  /-- The transfers of the session. -/
  made : List Msg
  /-- The number of blocks that were sent. -/
  sent : ℕ
  /-- The number of blocks that were sent before the status query of the last batch. -/
  base : ℕ
  /-- The number of blocks that were decoded. -/
  taken : ℕ
  /-- The samples of these. -/
  samples : List Sample

/-- What may happen. -/
inductive Event
  /-- `_start_measurements`. -/
  | start (restTicks : BitVec 32)
  /-- `_finish_measurements`. -/
  | stop
  /-- The timer fires. -/
  | timer
  /-- The task reads the chip. -/
  | task (msg : Msg)
  /-- A block arrives. -/
  | deliver
  /-- `query_adxl345_status` is answered. -/
  | status
  /-- The rest of `_process_batch`. -/
  | batch

namespace World

/-- Before any session. -/
def init : World :=
  ⟨.config, ⟨0, 0, 0⟩, [], [], false, [], 0, 0, 0, []⟩

variable (w : World)

/-- A session starts. -/
def start (restTicks : BitVec 32) : World :=
  ⟨w.ax.query restTicks, ⟨0, 0, 0⟩, w.wire, [], false, [], 0, 0, 0, []⟩

/-- A session ends. Blocks that were sent arrive before the command is acknowledged, and are
cleared. -/
def stop : World :=
  { w with ax := w.ax.query 0, wire := [], queue := [] }

/-- The task reads the chip. -/
def task (msg : Msg) : World :=
  { w with
    ax := (w.ax.adxlQuery msg).1
    wire := w.wire ++ (w.ax.adxlQuery msg).2
    made := w.made ++ [msg]
    sent := w.sent + (w.ax.adxlQuery msg).2.length }

/-- An answer arrives after the blocks that were sent before it. -/
def status : World :=
  { w with
    host := w.host.updateClock w.ax.sb.sequence w.ax.sb.possibleOverflows
    wire := []
    queue := w.queue ++ w.wire
    asked := true }

/-- The host decodes the blocks that arrived. -/
def batch : World :=
  { w with
    host := (w.host.extractSamples w.queue).1
    queue := []
    asked := false
    base := w.host.lastSequence
    taken := w.taken + w.queue.length
    samples := w.samples ++ (w.host.extractSamples w.queue).2 }

end World

/-- Sessions do not overlap. -/
def next (w : World) : Event → Option World
  | .start restTicks => if w.ax.measuring then none else some (w.start restTicks)
  | .stop => some w.stop
  | .timer => if w.ax.timer then some { w with ax := w.ax.event } else none
  | .task msg => if w.ax.pending then some (w.task msg) else none
  | .deliver =>
    match w.wire with
    | [] => none
    | b :: bs => some { w with wire := bs, queue := w.queue ++ [b] }
  | .status => if w.ax.measuring then some w.status else none
  | .batch => if w.asked then some w.batch else none

/-- An accelerometer with its host. -/
def system : System World Event :=
  ⟨(· = .init), next⟩

/-- Fewer than `2 ^ 15` blocks are sent between the status queries of batches, the start of the
session being the first, and until the batch is decoded. -/
def Batched (w : World) : Event → Prop
  | .status => w.sent < w.base + 2 ^ 15
  | .batch => w.sent < w.host.lastSequence + 2 ^ 15
  | _ => True

/-! ## Entries -/

/-- The 13 bits of a value. -/
def axis (low high : Byte) : BitVec 13 := (high ++ low).setWidth 13

/-- The sample of a transfer : its values with their signs, unless it was not read right. -/
def reading (index : ℕ) (msg : Msg) : Option Sample :=
  if good msg then
    some ⟨index, (axis (msg 1) (msg 2)).toInt, (axis (msg 3) (msg 4)).toInt,
      (axis (msg 5) (msg 6)).toInt⟩
  else none

theorem length_entry (msg : Msg) : (entry msg).length = 5 := by
  unfold entry
  split <;> rfl

theorem length_of_mem_entries {ms : List Msg} : ∀ e ∈ ms.map entry, e.length = 5 := by
  intro e he
  obtain ⟨m, -, rfl⟩ := List.mem_map.1 he
  exact length_entry m

/-- The upper 5 bits of a value, and among them its sign. -/
theorem high_bits (high : Byte) :
    (high &&& 0x1f).toNat = high.toNat % 32 ∧
      (high &&& 0x10).toNat = if 16 ≤ high.toNat % 32 then 16 else 0 := by
  revert high
  decide

theorem axis_toInt (low high : Byte) :
    (axis low high).toInt = ((low.toNat ||| (high &&& 0x1f).toNat <<< 8 : ℕ) : ℤ) -
      ((high &&& 0x10).toNat <<< 9 : ℕ) := by
  obtain ⟨hhigh, hsign⟩ := high_bits high
  have hlow := low.isLt
  have hor : ∀ n, low.toNat ||| n <<< 8 = n * 256 + low.toNat := fun n => by
    rw [Nat.or_comm, ← Nat.shiftLeft_add_eq_or_of_lt (by omega), Nat.shiftLeft_eq]
  have haxis : (axis low high).toNat = high.toNat % 32 * 256 + low.toNat := by
    rw [axis, BitVec.toNat_setWidth, BitVec.toNat_append, Nat.or_comm, hor]
    omega
  rw [BitVec.toInt_eq_toNat_cond, haxis, hor, hhigh, hsign, Nat.shiftLeft_eq]
  split_ifs <;> push_cast <;> omega

section Packing

variable (a b : Byte)

theorem xzHigh_low : xzHigh a b &&& 0x1f = a &&& 0x1f := by
  ext i hi
  interval_cases i <;> simp [xzHigh]

theorem xzHigh_sign : xzHigh a b &&& 0x10 = a &&& 0x10 := by
  ext i hi
  interval_cases i <;> simp [xzHigh]

theorem xzHigh_high : xzHigh a b &&& 0xe0 = b <<< 5 := by
  ext i hi
  interval_cases i <;> simp [xzHigh]

theorem yzHigh_low : yzHigh a b &&& 0x1f = a &&& 0x1f := by
  ext i hi
  interval_cases i <;> simp [yzHigh]

theorem yzHigh_sign : yzHigh a b &&& 0x10 = a &&& 0x10 := by
  ext i hi
  interval_cases i <;> simp [yzHigh]

theorem yzHigh_high : yzHigh a b &&& 0xe0 = (b &&& 0x18) <<< 2 := by
  ext i hi
  interval_cases i <;> simp [yzHigh]

theorem yzHigh_high_sign : yzHigh a b &&& 0x40 = (b &&& 0x10) <<< 2 := by
  ext i hi
  interval_cases i <;> simp [yzHigh]

theorem yzHigh_error : yzHigh a b &&& 0x80 = 0 := by
  ext i hi
  interval_cases i <;> simp [yzHigh]

/-- The upper bits of `z` are in both bytes. -/
theorem z_high : (b <<< 5).toNat <<< 3 ||| ((b &&& 0x18) <<< 2).toNat <<< 6 =
      (b &&& 0x1f).toNat <<< 8 ∧
    ((b &&& 0x10) <<< 2).toNat <<< 7 = (b &&& 0x10).toNat <<< 9 := by
  revert b
  decide

end Packing

/-- The host finds the values in an entry, and the errors. -/
theorem decodeEntry_entry (msg : Msg) (index : ℕ) :
    decodeEntry (entry msg) index = reading index msg := by
  cases hgood : good msg with
  | false =>
    have herror : (0xff : Byte).toNat &&& 0x80 ≠ 0 := by decide
    rw [entry, reading, hgood, if_neg Bool.false_ne_true, if_neg Bool.false_ne_true, decodeEntry]
    exact if_pos herror
  | true =>
    rw [entry, reading, hgood, if_pos rfl, if_pos rfl]
    have hmask : ∀ {d m c : Byte}, d &&& m = c → d.toNat &&& m.toNat = c.toNat := fun h =>
      (BitVec.toNat_and _ _).symm.trans (congrArg BitVec.toNat h)
    have herror := hmask (yzHigh_error (msg 4) (msg 6))
    rw [axis_toInt, axis_toInt, axis_toInt, ← hmask (xzHigh_low (msg 2) (msg 6)),
      ← hmask (xzHigh_sign (msg 2) (msg 6)), ← hmask (yzHigh_low (msg 4) (msg 6)),
      ← hmask (yzHigh_sign (msg 4) (msg 6)), ← (z_high (msg 6)).1, ← (z_high (msg 6)).2,
      ← hmask (xzHigh_high (msg 2) (msg 6)), ← hmask (yzHigh_high (msg 4) (msg 6)),
      ← hmask (yzHigh_high_sign (msg 4) (msg 6)), ← Nat.or_assoc]
    exact if_neg (not_not.2 herror)

/-! ## Decoding -/

/-- A sequence number near the last that was asked for is found. -/
theorem extend_ofNat {lastSequence j : ℕ} (hlt : j < lastSequence + 2 ^ 15)
    (hle : lastSequence ≤ j + 2 ^ 15) : extend lastSequence (BitVec.ofNat 16 j) = j := by
  rw [extend, BitVec.toNat_ofNat]
  split <;> omega

/-- The entries of a block are decoded with their numbers. -/
theorem decodeBlock_eq {lastSequence j : ℕ} {es : List (List Byte)} (hes : ∀ e ∈ es, e.length = 5)
    (hlt : j < lastSequence + 2 ^ 15) (hle : lastSequence ≤ j + 2 ^ 15) :
    decodeBlock lastSequence ⟨BitVec.ofNat 16 j, es.flatten⟩ =
      (es.zipIdx (j * samplesPerBlock 5)).map fun e => decodeEntry e.1 e.2 := by
  rw [decodeBlock]
  rw [extend_ofNat hlt hle, chunks_flatten (by norm_num) hes]
  rw [List.zipIdx_eq_map_add (i := j * samplesPerBlock 5), List.map_map]
  refine List.map_congr_left fun e _ => ?_
  show _ = decodeEntry e.1 ((j * samplesPerBlock 5 + e.2 : ℕ) : ℤ)
  push_cast
  rfl

/-! ## Sessions -/

/-- The bytes of the entries of a session. -/
def World.entries (w : World) : List (List Byte) := w.made.map entry

/-- What holds in a session. -/
structure Session (w : World) : Prop where
  packed : Packed 5 w.entries w.ax.sb
  sent : w.sent = full 5 w.entries
  taken : w.taken ≤ full 5 w.entries
  flow : (blocks 5 w.entries).drop w.taken = w.queue ++ w.wire
  /-- The blocks before the status query of the last batch have been decoded. -/
  base : w.base ≤ w.taken
  /-- The blocks before the last status query have arrived. -/
  arrived : w.host.lastSequence ≤ w.taken + w.queue.length
  lastSequence : w.base ≤ w.host.lastSequence ∧ w.host.lastSequence < w.base + 2 ^ 15
  /-- The samples are those of the entries in the blocks that were decoded. -/
  samples : w.samples = ((w.entries.take (w.taken * samplesPerBlock 5)).zipIdx.map fun e =>
    decodeEntry e.1 e.2).reduceOption
  errors : w.host.lastErrorCount = ((w.entries.take (w.taken * samplesPerBlock 5)).zipIdx.map
    fun e => decodeEntry e.1 e.2).countP Option.isNone

/-- Between sessions no block is on its way. -/
structure Inv (w : World) : Prop where
  session : w.ax.measuring = true → Session w
  off : w.ax.measuring = false → w.wire = [] ∧ w.queue = []

variable {w : World}

theorem Session.start {restTicks : BitVec 32} (hrest : restTicks ≠ 0) (hwire : w.wire = []) :
    Session (w.start restTicks) := by
  have hquery : w.ax.query restTicks = ⟨true, restTicks, false, .reset⟩ := if_neg hrest
  unfold World.start
  rw [hquery, hwire]
  exact {
    packed := .reset 5
    sent := by simp [World.entries, full]
    taken := Nat.zero_le _
    flow := by simp [World.entries]
    base := le_rfl
    arrived := le_rfl
    lastSequence := ⟨le_rfl, by norm_num⟩
    samples := by simp [World.entries]
    errors := by simp [World.entries] }

/-- What `adxl_query` does to the buffer, whatever becomes of the timer. -/
theorem adxlQuery_eq (ax : Adxl) (msg : Msg) :
    (ax.adxlQuery msg).2 = (ax.sb.add 5 (entry msg)).2 ∧
      (ax.adxlQuery msg).1.sb.sequence = (ax.sb.add 5 (entry msg)).1.sequence ∧
      (ax.adxlQuery msg).1.sb.data = (ax.sb.add 5 (entry msg)).1.data := by
  unfold Adxl.adxlQuery
  simp only
  split <;> split <;> exact ⟨rfl, rfl, rfl⟩

/-- The task appends an entry. -/
theorem Session.task (h : Session w) (msg : Msg) : Session (w.task msg) := by
  obtain ⟨hsent, hsequence, hdata⟩ := adxlQuery_eq w.ax msg
  have hentries : (w.task msg).entries = w.entries ++ [entry msg] := List.map_append
  have hlen : ∀ e ∈ w.entries ++ [entry msg], e.length = 5 := hentries ▸ length_of_mem_entries
  obtain ⟨hpacked, hblocks⟩ := h.packed.add (by norm_num) (by norm_num [maxBulkMsgSize]) hlen
  have hcount := congrArg List.length hblocks
  rw [List.length_append, length_blocks, length_blocks] at hcount
  have hle : w.taken ≤ full 5 (w.entries ++ [entry msg]) := by
    rw [hcount]
    exact h.taken.trans (Nat.le_add_right _ _)
  have htake : (w.entries ++ [entry msg]).take (w.taken * samplesPerBlock 5) =
      w.entries.take (w.taken * samplesPerBlock 5) :=
    List.take_append_of_le_length ((Nat.mul_le_mul_right _ h.taken).trans (full_mul_le _))
  exact {
    packed := by
      rw [hentries]
      exact ⟨hsequence.trans hpacked.sequence, hdata.trans hpacked.data⟩
    sent := by
      rw [hentries, hcount, ← hsent, ← h.sent]
      rfl
    taken := by
      rw [hentries]
      exact hle
    flow := by
      rw [hentries, hblocks, ← hsent]
      show List.drop w.taken _ = w.queue ++ (w.wire ++ (w.ax.adxlQuery msg).2)
      rw [List.drop_append_of_le_length (by rw [length_blocks]; exact h.taken), h.flow,
        List.append_assoc]
    base := h.base
    arrived := h.arrived
    lastSequence := h.lastSequence
    samples := by
      rw [hentries]
      exact h.samples.trans (by rw [← htake]; rfl)
    errors := by
      rw [hentries]
      exact h.errors.trans (by rw [← htake]; rfl) }

/-- The answer to a status query gives the number of blocks that were sent. -/
theorem Session.status (h : Session w) (hsent : w.sent < w.base + 2 ^ 15) :
    Session w.status := by
  have hlen := congrArg List.length h.flow
  rw [List.length_drop, length_blocks, List.length_append] at hlen
  have htaken := h.taken
  have hbase := h.base
  have harrived := h.arrived
  have hlast := h.lastSequence
  rw [h.sent] at hsent
  have hsequence : w.status.host.lastSequence = full 5 w.entries := by
    show w.host.lastSequence +
      (((w.ax.sb.sequence.toNat : ℤ) - w.host.lastSequence) % 0x10000).toNat = _
    rw [h.packed.sequence, BitVec.toNat_ofNat]
    omega
  exact {
    packed := h.packed
    sent := h.sent
    taken := h.taken
    flow := h.flow.trans (List.append_nil _).symm
    base := h.base
    arrived := by
      rw [hsequence]
      show full 5 w.entries ≤ w.taken + (w.queue ++ w.wire).length
      rw [List.length_append]
      omega
    lastSequence := by
      rw [hsequence]
      show w.base ≤ _ ∧ _ < w.base + 2 ^ 15
      omega
    samples := h.samples
    errors := h.errors }

/-- A batch is decoded. -/
theorem Session.batch (h : Session w) (hsent : w.sent < w.host.lastSequence + 2 ^ 15) :
    Session w.batch := by
  have hlen := congrArg List.length h.flow
  rw [List.length_drop, length_blocks, List.length_append] at hlen
  have htaken := h.taken
  have hbase := h.base
  have hlast := h.lastSequence
  rw [h.sent] at hsent
  have hdecoded : (w.entries.take ((w.taken + w.queue.length) * samplesPerBlock 5)).zipIdx.map
        (fun e => decodeEntry e.1 e.2) =
      (w.entries.take (w.taken * samplesPerBlock 5)).zipIdx.map (fun e => decodeEntry e.1 e.2) ++
        w.queue.flatMap (decodeBlock w.host.lastSequence) :=
    map_zipIdx_take h.flow fun j hj hj' =>
      decodeBlock_eq (length_of_mem_group length_of_mem_entries j) (by omega) (by omega)
  exact {
    packed := h.packed
    sent := h.sent
    taken := by
      show w.taken + w.queue.length ≤ full 5 w.entries
      omega
    flow := by
      show (blocks 5 w.entries).drop (w.taken + w.queue.length) = [] ++ w.wire
      rw [← List.drop_drop, h.flow, List.drop_left, List.nil_append]
    base := h.arrived
    arrived := h.arrived
    lastSequence := ⟨le_rfl, Nat.lt_add_of_pos_right (by norm_num)⟩
    samples := by
      show w.samples ++ (w.queue.flatMap (decodeBlock w.host.lastSequence)).reduceOption =
        (((w.entries.take ((w.taken + w.queue.length) * samplesPerBlock 5)).zipIdx.map
          fun e => decodeEntry e.1 e.2)).reduceOption
      rw [hdecoded, List.reduceOption_append, ← h.samples]
    errors := by
      show w.host.lastErrorCount +
          (w.queue.flatMap (decodeBlock w.host.lastSequence)).countP Option.isNone =
        (((w.entries.take ((w.taken + w.queue.length) * samplesPerBlock 5)).zipIdx.map
          fun e => decodeEntry e.1 e.2)).countP Option.isNone
      rw [hdecoded, List.countP_append, ← h.errors] }

theorem measuring_query (ax : Adxl) {restTicks : BitVec 32} (h : restTicks ≠ 0) :
    (ax.query restTicks).measuring = true := by
  rw [Adxl.query, if_neg h]
  rfl

theorem Inv.next {w' : World} {e : Event} (h : Inv w) (he : Batched w e)
    (hw : next w e = some w') : Inv w' := by
  cases e with
  | start restTicks =>
    obtain ⟨hmeasuring, hw⟩ := Option.ite_none_left_eq_some.1 hw
    obtain rfl := Option.some_inj.1 hw
    obtain ⟨hwire, hqueue⟩ := h.off (by simpa using hmeasuring)
    by_cases hrest : restTicks = 0
    · refine ⟨fun hn => ?_, fun _ => ⟨hwire, rfl⟩⟩
      have hquery : (w.start restTicks).ax.measuring = false := by
        show (w.ax.query restTicks).measuring = false
        rw [Adxl.query, if_pos hrest]
        rfl
      exact absurd (hn.symm.trans hquery) (by simp)
    · exact ⟨fun _ => .start hrest hwire, fun hn =>
        absurd ((measuring_query w.ax hrest).symm.trans hn) (by simp)⟩
  | stop =>
    obtain rfl := Option.some_inj.1 hw
    exact ⟨fun hn => absurd hn Bool.false_ne_true, fun _ => ⟨rfl, rfl⟩⟩
  | timer =>
    obtain ⟨htimer, hw⟩ := Option.ite_none_right_eq_some.1 hw
    obtain rfl := Option.some_inj.1 hw
    have hs := h.session (by rw [Adxl.measuring, htimer, Bool.true_or])
    exact ⟨fun _ => ⟨⟨hs.packed.sequence, hs.packed.data⟩, hs.sent, hs.taken, hs.flow, hs.base,
      hs.arrived, hs.lastSequence, hs.samples, hs.errors⟩, fun hn => absurd hn (by
        simp [Adxl.measuring, Adxl.event])⟩
  | task msg =>
    obtain ⟨hpending, hw⟩ := Option.ite_none_right_eq_some.1 hw
    obtain rfl := Option.some_inj.1 hw
    refine ⟨fun _ => (h.session (by rw [Adxl.measuring, hpending, Bool.or_true])).task msg,
      fun hn => absurd hn ?_⟩
    show ¬ (w.ax.adxlQuery msg).1.measuring = false
    unfold Adxl.adxlQuery
    simp only
    split <;> simp [Adxl.measuring, hpending]
  | deliver =>
    cases hwire : w.wire with
    | nil => simp [Adxl345.next, hwire] at hw
    | cons b bs =>
      simp only [Adxl345.next, hwire] at hw
      obtain rfl := Option.some_inj.1 hw
      refine ⟨fun hn => ?_, fun hn => absurd (h.off hn).1 (by simp [hwire])⟩
      have hs := h.session hn
      refine ⟨hs.packed, hs.sent, hs.taken, ?_, hs.base, ?_, hs.lastSequence, hs.samples,
        hs.errors⟩
      · have hflow := hs.flow
        rw [hwire] at hflow
        rw [List.append_assoc, List.singleton_append]
        exact hflow
      · rw [List.length_append, ← Nat.add_assoc]
        exact hs.arrived.trans (Nat.le_add_right _ _)
  | status =>
    obtain ⟨hmeasuring, hw⟩ := Option.ite_none_right_eq_some.1 hw
    obtain rfl := Option.some_inj.1 hw
    exact ⟨fun _ => (h.session hmeasuring).status he,
      fun hn => absurd (hmeasuring.symm.trans hn) (by simp)⟩
  | batch =>
    obtain ⟨-, hw⟩ := Option.ite_none_right_eq_some.1 hw
    obtain rfl := Option.some_inj.1 hw
    exact ⟨fun hn => (h.session hn).batch he, fun hn => ⟨(h.off hn).1, rfl⟩⟩

theorem Inv.of_reachable (h : system.ReachableBy Batched w) : Inv w := by
  refine System.ReachableBy.invariant ?_ ?_ h
  · rintro s rfl
    exact ⟨fun hn => absurd hn Bool.false_ne_true, fun _ => ⟨rfl, rfl⟩⟩
  · intro s e t hs he ht
    exact hs.next he ht

/-! ## Samples -/

/-- The samples of a session are its readings. -/
structure Correct (w : World) : Prop where
  /-- No block is lost. -/
  flow : (blocks 5 (w.made.map entry)).drop w.taken = w.queue ++ w.wire
  /-- A sample has the values of its transfer and the number of transfers before it. -/
  samples : w.samples =
    (w.made.take (w.taken * samplesPerBlock 5)).zipIdx.filterMap fun m => reading m.2 m.1
  /-- The transfers that were not read right are dropped, and counted. -/
  errors : w.host.lastErrorCount =
    (w.made.take (w.taken * samplesPerBlock 5)).countP fun msg => !good msg

/-- The entries of transfers are decoded to their readings. -/
theorem map_decodeEntry (ms : List Msg) :
    (ms.map entry).zipIdx.map (fun e => decodeEntry e.1 e.2) =
      ms.zipIdx.map fun m => reading m.2 m.1 := by
  rw [List.zipIdx_map, List.map_map]
  exact List.map_congr_left fun m _ => decodeEntry_entry m.1 m.2

theorem isNone_reading (index : ℕ) (msg : Msg) : (reading index msg).isNone = !good msg := by
  cases hgood : good msg <;> simp [reading, hgood]

theorem Session.correct (h : Session w) : Correct w := by
  have htake : (w.entries.take (w.taken * samplesPerBlock 5)).zipIdx.map
      (fun e => decodeEntry e.1 e.2) =
      (w.made.take (w.taken * samplesPerBlock 5)).zipIdx.map fun m => reading m.2 m.1 := by
    rw [World.entries, ← List.map_take, map_decodeEntry]
  refine ⟨h.flow, ?_, ?_⟩
  · rw [h.samples, htake, List.reduceOption, List.filterMap_map]
    rfl
  · rw [h.errors, htake, List.countP_map]
    have hcount : ∀ (ms : List Msg) (k : ℕ), (ms.zipIdx k).countP
        (Option.isNone ∘ fun m => reading m.2 m.1) = ms.countP fun msg => !good msg := by
      intro ms
      induction ms with
      | nil => exact fun _ => rfl
      | cons m ms ih =>
        intro k
        rw [List.zipIdx_cons, List.countP_cons, List.countP_cons, ih, Function.comp_apply,
          isNone_reading]
    exact hcount _ 0

instance (w : World) (e : Event) : Decidable (Batched w e) := by
  cases e <;> unfold Batched <;> infer_instance

/-! ## Both sensors -/

/-- The samples of both sensors keep their indices. -/
theorem keeps_index {board : AngleSensor.Board} {chip : AngleSensor.ChipType}
    {angle : AngleSensor.World}
    (hangle : (AngleSensor.system board chip).ReachableBy AngleSensor.Counted angle)
    (harmed : angle.sa.armed = true) (hw : system.ReachableBy Batched w)
    (hmeasuring : w.ax.measuring = true) : AngleSensor.Correct angle ∧ Correct w :=
  ⟨AngleSensor.correct_of_reachable hangle harmed,
    ((Inv.of_reachable hw).session hmeasuring).correct⟩

/-- A session of the angle sensor, one missed event in it. -/
def angleRun : List AngleSensor.Event :=
  [.start 1000 100 0, .timer, .timer, .task AngleSensor.quarter, .batch]

/-- A transfer of the accelerometer, with more in the fifo. -/
def transfer : Msg := ![0, 1, 0, 0xff, 0xff, 2, 0x0f, 0x90, 2]

/-- Ten transfers are sent and decoded. -/
def tenRun : List Event :=
  [.start 100, .status, .timer] ++ List.replicate 10 (.task transfer) ++ [.status, .batch]

theorem keeps_index_runs :
    ∃ angle w, AngleSensor.Correct angle ∧ Correct w ∧ angle.made.length = 2 ∧
      w.samples.length = 10 := by
  obtain ⟨angle, hangle⟩ : ∃ angle, (AngleSensor.system AngleSensor.anyBoard .a1333).run .init
      angleRun = some angle := Option.isSome_iff_exists.1 (by decide +kernel)
  obtain ⟨w, hw⟩ : ∃ w, system.run .init tenRun = some w :=
    Option.isSome_iff_exists.1 (by decide +kernel)
  have harmed : ((AngleSensor.system AngleSensor.anyBoard .a1333).run .init angleRun).map
      (fun w => (w.sa.armed, w.made.length)) = some (true, 2) := by decide +kernel
  have hmeasuring : (system.run .init tenRun).map
      (fun w => (w.ax.measuring, w.samples.length)) = some (true, 10) := by decide +kernel
  rw [hangle, Option.map_some, Option.some_inj, Prod.mk.injEq] at harmed
  rw [hw, Option.map_some, Option.some_inj, Prod.mk.injEq] at hmeasuring
  obtain ⟨hcorrect, hcorrect'⟩ := keeps_index
    (.run (.init rfl) (by decide +kernel) hangle) harmed.1
    (.run (.init rfl) (by decide +kernel) hw) hmeasuring.1
  exact ⟨angle, w, hcorrect, hcorrect', harmed.2, hmeasuring.2⟩

/-- After a session that was stopped late, an event has two entries. -/
theorem not_keeps_index : ¬∀ (board : AngleSensor.Board) (chip : AngleSensor.ChipType)
    (angle : AngleSensor.World), (AngleSensor.system board chip).Reachable angle →
      angle.sa.armed = true → AngleSensor.Correct angle := by
  intro hall
  obtain ⟨w, hw, hstale⟩ := Option.map_eq_some_iff.1 AngleSensor.stale_entry
  simp only [Prod.mk.injEq] at hstale
  obtain ⟨harmed, hpending, hmade, hevents⟩ := hstale
  have hcount := (hall _ _ w (.run (.init rfl) hw) harmed).count
  rw [hpending, if_neg Bool.false_ne_true, hmade, hevents] at hcount
  exact absurd hcount (by decide)

end Adxl345

end Thinker
