import Thinker.Numerals
import Thinker.SensorBulk
import Thinker.Transition
import Mathlib.Tactic

/-!
# The angle sensor

A timer of the micro-controller asks for a measurement at regular times. A task reads the sensor and
writes an entry for the reading, or for what went wrong, after one error entry for each event that
came while another was pending. The host extends the sequence numbers of the blocks, computes from
the index of an entry when its event was, and adds up the angles over the turns.

`World` puts beside the state of both sides what was made of the events of a session (`Made`). Each
event is one entry, in order, as long as no missed event of an earlier session is left when a
session starts, and fewer than 256 events in a row are missed.
-/

namespace Thinker

namespace AngleSensor

open SensorBulk

/-! ## The micro-controller -/

/-- `TCODE_ERROR`. -/
def tcodeError : Byte := 0xff

/-- `SE_OVERFLOW`, `SE_SCHEDULE`, `SE_SPI_TIME`, `SE_CRC`, `SE_DUP`, `SE_NO_ANGLE`. -/
inductive SensorError
  | overflow | schedule | spiTime | crc | dup | noAngle
deriving DecidableEq, Repr

/-- The number of an error. -/
def SensorError.code : SensorError → BitVec 16
  | overflow => 0
  | schedule => 1
  | spiTime => 2
  | crc => 3
  | dup => 4
  | noAngle => 5

/-- The bytes of an entry of `angle_add`. -/
def entry (tcode : Byte) (data : BitVec 16) : List Byte :=
  [tcode, data.setWidth 8, (data >>> 8).setWidth 8]

/-- The chips. -/
inductive ChipType
  | a1333 | as5047d | tle5012b
deriving DecidableEq, Repr

/-- A transfer with the chip : the times around it, or when the angle was latched, and the bytes of
the answer. -/
structure Transfer where
  mtime1 : BitVec 32
  mtime2 : BitVec 32
  msg : Fin 10 → Byte

/-- Times of the board in clock ticks : `MAX_SPI_READ_TIME` and the length of a frame counter. -/
structure Board where
  maxSpiReadTime : BitVec 32
  frameTime : BitVec 32

/-- What becomes of an event. -/
inductive Made
  /-- Another event was pending. -/
  | missed
  /-- The chip was not read right. -/
  | failed (stime : BitVec 32) (error : SensorError)
  /-- An angle. -/
  | reading (stime : BitVec 32) (tcode : Byte) (angle : BitVec 16)
deriving DecidableEq, Repr

/-- The entry for it. -/
def Made.bytes : Made → List Byte
  | missed => entry tcodeError SensorError.overflow.code
  | failed _ error => entry tcodeError error.code
  | reading _ tcode angle => entry tcode angle

/-- `angle_add_data`. -/
def angleAddData (timeShift : Byte) (stime mtime : BitVec 32) (angle : BitVec 16) : Made :=
  let tdiff := mtime - stime
  let tdiff := if timeShift ≠ 0 then
    (tdiff + (1 <<< (timeShift.toNat - 1))) >>> timeShift.toNat else tdiff
  if tdiff ≥ 0xff then .failed stime .schedule else .reading stime (tdiff.setWidth 8) angle

/-- `a1333_query`. -/
def a1333Query (board : Board) (timeShift : Byte) (stime : BitVec 32) (x : Transfer) : Made :=
  if x.mtime2 - x.mtime1 > board.maxSpiReadTime then .failed stime .spiTime
  else if x.msg 0 &&& 0x80 ≠ 0 then .failed stime .crc
  else angleAddData timeShift stime x.mtime1
    ((x.msg 0).setWidth 16 <<< 9 ||| (x.msg 1).setWidth 16 <<< 1)

/-- `as5047d_query`. -/
def as5047dQuery (board : Board) (timeShift : Byte) (stime : BitVec 32) (x : Transfer) : Made :=
  if x.mtime2 - x.mtime1 > board.maxSpiReadTime then .failed stime .spiTime
  else
    let parity := x.msg 0 ^^^ x.msg 1
    let parity := parity ^^^ parity >>> 4
    let parity := parity ^^^ parity >>> 2
    let parity := parity ^^^ parity >>> 1
    if parity &&& 1 ≠ 0 then .failed stime .crc
    else if x.msg 0 &&& 0x40 ≠ 0 then .failed stime .noAngle
    else angleAddData timeShift stime x.mtime2
      ((x.msg 0).setWidth 16 <<< 10 ||| (x.msg 1).setWidth 16 <<< 2)

/-- One bit of `crc8`. -/
def crcBit (crc : Byte) : Byte :=
  if crc &&& 0x80 ≠ 0 then crc <<< 1 ^^^ 0x1d else crc <<< 1

/-- `crc8`. -/
def crc8 (crc data : Byte) : Byte :=
  crcBit^[8] (crc ^^^ data)

/-- `tle5012b_query`. -/
def tle5012bQuery (board : Board) (stime : BitVec 32) (x : Transfer) : Made :=
  let crc := [x.msg 2, x.msg 3, x.msg 4, x.msg 5, x.msg 6, x.msg 7].foldl crc8 0x05
  if ~~~crc ≠ x.msg 9 then .failed stime .crc
  else if x.msg 8 &&& (1 <<< 4) = 0 then .failed stime .noAngle
  else if x.msg 2 &&& 0x80 = 0 then .failed stime .dup
  else if x.mtime1 - stime > board.frameTime then .failed stime .schedule
  else .reading stime (x.msg 6 >>> 1 &&& 0x3f)
    ((x.msg 2).setWidth 16 <<< 9 ||| (x.msg 3).setWidth 16 <<< 1)

/-- The query of a chip. -/
def chipQuery (board : Board) (chip : ChipType) (timeShift : Byte) (stime : BitVec 32)
    (x : Transfer) : Made :=
  match chip with
  | .a1333 => a1333Query board timeShift stime x
  | .as5047d => as5047dQuery board timeShift stime x
  | .tle5012b => tle5012bQuery board stime x

/-- `struct spi_angle`. -/
structure SpiAngle where
  waketime : BitVec 32
  restTicks : BitVec 32
  /-- `SA_PENDING`. -/
  pending : Bool
  timeShift : Byte
  overflow : Byte
  sb : Bulk
  /-- The timer is scheduled. -/
  armed : Bool
deriving DecidableEq, Repr

namespace SpiAngle

variable (sa : SpiAngle)

/-- `command_config_spi_angle`. -/
def config : SpiAngle := ⟨0, 0, false, 0, 0, .reset, false⟩

/-- `angle_event`. -/
def event : SpiAngle :=
  { sa with
    overflow := if sa.pending then sa.overflow + 1 else sa.overflow
    pending := true
    waketime := sa.waketime + sa.restTicks }

/-- `command_query_spi_angle`. -/
def query (clock restTicks : BitVec 32) (timeShift : Byte) : SpiAngle :=
  if restTicks = 0 then { sa with armed := false, pending := false }
  else
    { sa with
      pending := false
      waketime := clock
      restTicks := restTicks
      sb := .reset
      timeShift := timeShift
      armed := true }

/-- Writes entries, and sends the buffer each time it is full. -/
def addAll (sb : Bulk) : List Made → Bulk × List Block
  | [] => (sb, [])
  | m :: ms =>
    let r := sb.add 3 m.bytes
    let rest := addAll r.1 ms
    (rest.1, r.2 ++ rest.2)

/-- What the task makes of the events that are pending. -/
def pendingMade (result : BitVec 32 → Made) : List Made :=
  List.replicate sa.overflow.toNat .missed ++ [result (sa.waketime - sa.restTicks)]

/-- `spi_angle_task`, with the result of the query of the chip. -/
def task (result : BitVec 32 → Made) : SpiAngle × List Block :=
  if sa.pending then
    let r := addAll sa.sb (sa.pendingMade result)
    ({ sa with pending := false, overflow := 0, sb := r.1 }, r.2)
  else (sa, [])

end SpiAngle

/-! ## The host -/

/-- A decoded angle : the clock of its event, its time code and the angle over all turns. -/
structure Sample where
  mclock : ℕ
  tcode : Byte
  angle : ℤ
deriving DecidableEq, Repr

/-- The last angle plus the least turn to a reading. -/
def turnTo (lastAngle : ℤ) (rawAngle : BitVec 16) : ℤ :=
  let angleDiff := (rawAngle.toNat - lastAngle) % 0x10000
  lastAngle + (if 0x8000 ≤ angleDiff then angleDiff - 0x10000 else angleDiff)

/-- Numbered entries : the angle of the last, the samples and the number of errors. -/
def decode (clockOf : ℕ → ℕ) : ℤ → List (List Byte × ℕ) → ℤ × List Sample × ℕ
  | lastAngle, [] => (lastAngle, [], 0)
  | lastAngle, (d, i) :: rest =>
    if d.getD 0 0 = tcodeError then
      let r := decode clockOf lastAngle rest
      (r.1, r.2.1, r.2.2 + 1)
    else
      let rawAngle := (d.getD 1 0).setWidth 16 ||| (d.getD 2 0).setWidth 16 <<< 8
      let angle := turnTo lastAngle rawAngle
      let r := decode clockOf angle rest
      (r.1, ⟨clockOf i, d.getD 0 0, angle⟩ :: r.2.1, r.2.2)

/-- `Angle`. -/
structure Host where
  startClock : ℕ
  sampleTicks : ℕ
  lastSequence : ℕ
  lastAngle : ℤ
deriving DecidableEq, Repr

namespace Host

/-- `_extract_samples` for one message. -/
def extractBlock (h : Host) (params : Block) : Host × List Sample × ℕ :=
  let seqDiff := (((params.sequence.toNat : ℤ) - h.lastSequence) % 0x10000).toNat
  let lastSequence := h.lastSequence + seqDiff
  let msgMclock := h.startClock + lastSequence * samplesPerBlock 3 * h.sampleTicks
  let r := decode (fun i => msgMclock + i * h.sampleTicks) h.lastAngle
    (chunks 3 params.data).zipIdx
  ({ h with lastSequence := lastSequence, lastAngle := r.1 }, r.2)

/-- `_extract_samples`. -/
def extractSamples : Host → List Block → Host × List Sample × ℕ
  | h, [] => (h, [], 0)
  | h, params :: rest =>
    let r := h.extractBlock params
    let rs := extractSamples r.1 rest
    (rs.1, r.2.1 ++ rs.2.1, r.2.2 + rs.2.2)

end Host

/-! ## Runs -/

/-- Both sides, the messages between them, and what happened in the session. -/
structure World where
  sa : SpiAngle
  host : Host
  /-- The blocks that were sent and did not arrive. -/
  wire : List Block
  /-- The blocks that arrived, `raw_samples`. -/
  queue : List Block
  /-- The number of timer events. -/
  events : ℕ
  /-- What was made of them. -/
  made : List Made
  /-- The number of blocks that were decoded. -/
  taken : ℕ
  /-- The samples of these. -/
  samples : List Sample
  /-- The number of errors in them. -/
  errors : ℕ
  /-- The last angle before the session. -/
  firstAngle : ℤ

/-- What may happen. -/
inductive Event
  /-- `_start_measurements`. -/
  | start (clock : ℕ) (restTicks : BitVec 32) (timeShift : Byte)
  /-- `_finish_measurements`. -/
  | stop
  /-- The timer fires. -/
  | timer
  /-- The task runs. -/
  | task (x : Transfer)
  /-- A block arrives. -/
  | deliver
  /-- `_process_batch`. -/
  | batch

namespace World

/-- Before any session. -/
def init : World :=
  ⟨.config, ⟨0, 0, 0, 0⟩, [], [], 0, [], 0, [], 0, 0⟩

variable (w : World)

/-- A session starts. -/
def start (clock : ℕ) (restTicks : BitVec 32) (timeShift : Byte) : World :=
  ⟨w.sa.query (BitVec.ofNat 32 clock) restTicks timeShift,
    ⟨clock, restTicks.toNat, 0, w.host.lastAngle⟩, w.wire, [], 0, [], 0, [], 0, w.host.lastAngle⟩

/-- A session ends. Blocks that were sent arrive before the command is acknowledged, and are
cleared. -/
def stop : World :=
  { w with sa := w.sa.query 0 0 0, wire := [], queue := [] }

/-- The task runs. -/
def task (result : BitVec 32 → Made) : World :=
  { w with
    sa := (w.sa.task result).1
    wire := w.wire ++ (w.sa.task result).2
    made := if w.sa.pending then w.made ++ w.sa.pendingMade result else w.made }

/-- The host decodes the blocks that arrived. -/
def batch : World :=
  let r := w.host.extractSamples w.queue
  { w with
    host := r.1
    queue := []
    taken := w.taken + w.queue.length
    samples := w.samples ++ r.2.1
    errors := w.errors + r.2.2 }

end World

/-- Sessions do not overlap. -/
def next (board : Board) (chip : ChipType) (w : World) : Event → Option World
  | .start clock restTicks timeShift =>
    if w.sa.armed then none else some (w.start clock restTicks timeShift)
  | .stop => some w.stop
  | .timer => if w.sa.armed then some { w with sa := w.sa.event, events := w.events + 1 } else none
  | .task x => some (w.task fun stime => chipQuery board chip w.sa.timeShift stime x)
  | .deliver =>
    match w.wire with
    | [] => none
    | b :: bs => some { w with wire := bs, queue := w.queue ++ [b] }
  | .batch => some w.batch

/-- A sensor with its host. -/
def system (board : Board) (chip : ChipType) : System World Event :=
  ⟨(· = .init), next board chip⟩

/-! ## Entries -/

/-- What was made of an event at some time. -/
def Made.At (stime : BitVec 32) : Made → Prop
  | missed => True
  | failed s _ => s = stime
  | reading s tcode _ => s = stime ∧ tcode ≠ tcodeError

theorem angleAddData_at (timeShift : Byte) (stime mtime : BitVec 32) (angle : BitVec 16) :
    (angleAddData timeShift stime mtime angle).At stime := by
  obtain ⟨tdiff, htdiff⟩ : ∃ tdiff, (if timeShift ≠ 0 then (mtime - stime +
      (1 <<< (timeShift.toNat - 1))) >>> timeShift.toNat else mtime - stime) = tdiff := ⟨_, rfl⟩
  unfold angleAddData
  simp only [htdiff]
  split
  next => rfl
  next hlt =>
    refine ⟨rfl, fun heq => hlt ?_⟩
    have heq := congrArg BitVec.toNat heq
    have hlt : tdiff.toNat < 255 := by
      simpa [BitVec.lt_def] using hlt
    rw [BitVec.toNat_setWidth, Nat.mod_eq_of_lt (by omega)] at heq
    exact absurd heq hlt.ne

/-- A chip is read at the time of its event, and no angle has the code of an error. -/
theorem chipQuery_at (board : Board) (chip : ChipType) (timeShift : Byte) (stime : BitVec 32)
    (x : Transfer) : (chipQuery board chip timeShift stime x).At stime := by
  cases chip with
  | a1333 =>
    show (a1333Query board timeShift stime x).At stime
    unfold a1333Query
    split
    · rfl
    · split
      · rfl
      · exact angleAddData_at _ _ _ _
  | as5047d =>
    show (as5047dQuery board timeShift stime x).At stime
    unfold as5047dQuery
    split
    · rfl
    · simp only
      split
      · rfl
      · split
        · rfl
        · exact angleAddData_at _ _ _ _
  | tle5012b =>
    show (tle5012bQuery board stime x).At stime
    unfold tle5012bQuery
    simp only
    split
    · rfl
    · split
      · rfl
      · split
        · rfl
        · split
          · rfl
          · refine ⟨rfl, fun heq => ?_⟩
            have heq := congrArg BitVec.toNat heq
            have hle : (x.msg 6 >>> 1 &&& 0x3f).toNat ≤ 0x3f := by
              rw [BitVec.toNat_and]
              exact Nat.and_le_right
            rw [heq] at hle
            exact absurd hle (by decide)

@[simp] theorem length_bytes (m : Made) : m.bytes.length = 3 := by
  cases m <;> rfl

theorem length_of_mem_bytes {ms : List Made} : ∀ e ∈ ms.map Made.bytes, e.length = 3 := by
  intro e he
  obtain ⟨m, -, rfl⟩ := List.mem_map.1 he
  exact length_bytes m

/-- Entries are written one after another. -/
theorem addAll_packed {made : List Made} {sb : Bulk} (h : Packed 3 (made.map Made.bytes) sb)
    (ms : List Made) :
    Packed 3 ((made ++ ms).map Made.bytes) (SpiAngle.addAll sb ms).1 ∧
      blocks 3 ((made ++ ms).map Made.bytes) =
        blocks 3 (made.map Made.bytes) ++ (SpiAngle.addAll sb ms).2 := by
  induction ms generalizing made sb with
  | nil => simpa [SpiAngle.addAll] using h
  | cons m ms ih =>
    have hmap : (made ++ [m]).map Made.bytes = made.map Made.bytes ++ [m.bytes] := by simp
    have hlen : ∀ e ∈ made.map Made.bytes ++ [m.bytes], e.length = 3 :=
      hmap ▸ length_of_mem_bytes
    obtain ⟨hpacked, hblocks⟩ := h.add (by norm_num) (by norm_num [maxBulkMsgSize]) hlen
    rw [← hmap] at hpacked hblocks
    obtain ⟨hpacked', hblocks'⟩ := ih hpacked
    rw [List.append_assoc, List.singleton_append] at hpacked' hblocks'
    refine ⟨hpacked', hblocks'.trans ?_⟩
    rw [hblocks, List.append_assoc]
    rfl

/-! ## Decoding -/

theorem decode_append (clockOf : ℕ → ℕ) (lastAngle : ℤ) (xs ys : List (List Byte × ℕ)) :
    decode clockOf lastAngle (xs ++ ys) =
      let r := decode clockOf lastAngle xs
      let rs := decode clockOf r.1 ys
      (rs.1, r.2.1 ++ rs.2.1, r.2.2 + rs.2.2) := by
  induction xs generalizing lastAngle with
  | nil => simp [decode]
  | cons x xs ih =>
    obtain ⟨d, i⟩ := x
    rw [List.cons_append, decode, decode]
    split
    · simp only [ih]
      refine Prod.ext rfl (Prod.ext rfl ?_)
      simp only
      omega
    · simp only [ih, List.cons_append]

/-- Clocks may be computed from positions or from indices. -/
theorem decode_shift (clockOf : ℕ → ℕ) (n m : ℕ) (lastAngle : ℤ) (l : List (List Byte)) :
    decode (fun i => clockOf (n + i)) lastAngle (l.zipIdx m) =
      decode clockOf lastAngle (l.zipIdx (n + m)) := by
  induction l generalizing lastAngle m with
  | nil => rfl
  | cons d l ih =>
    rw [List.zipIdx_cons, List.zipIdx_cons, decode, decode]
    simp only [ih, Nat.add_assoc]

namespace Host

/-- The clock of an index. -/
def clockOf (h : Host) (i : ℕ) : ℕ := h.startClock + i * h.sampleTicks

/-- The sequence number of the block after the last that was decoded. -/
theorem extractBlock_eq {h : Host} {p : ℕ} {es : List (List Byte)} (hes : ∀ e ∈ es, e.length = 3)
    (hlast : h.lastSequence = p - 1) :
    h.extractBlock ⟨BitVec.ofNat 16 p, es.flatten⟩ =
      let r := decode h.clockOf h.lastAngle (es.zipIdx (p * samplesPerBlock 3))
      ({ h with lastSequence := p, lastAngle := r.1 }, r.2) := by
  have hdiff : ((((BitVec.ofNat 16 p).toNat : ℤ) - h.lastSequence) % 0x10000).toNat =
      p - h.lastSequence := by
    rw [BitVec.toNat_ofNat, hlast]
    push_cast
    omega
  have hseq : h.lastSequence + (p - h.lastSequence) = p := by omega
  have hclock : (fun i => h.startClock + p * samplesPerBlock 3 * h.sampleTicks +
      i * h.sampleTicks) = fun i => h.clockOf (p * samplesPerBlock 3 + i) := by
    funext i
    rw [clockOf, Nat.add_mul, Nat.add_assoc]
  unfold extractBlock
  simp only [hdiff, hseq, chunks_flatten (by norm_num) hes, hclock]
  rw [decode_shift, Nat.add_zero]

/-- The blocks that follow those already decoded give the entries that follow. -/
theorem extractSamples_eq {entries : List (List Byte)} (hentries : ∀ e ∈ entries, e.length = 3)
    {h : Host} {p : ℕ} {bs rest : List Block} (hp : p ≤ full 3 entries)
    (hbs : (blocks 3 entries).drop p = bs ++ rest) (hlast : h.lastSequence = p - 1) :
    h.extractSamples bs =
      let r := decode h.clockOf h.lastAngle
        (((entries.drop (p * samplesPerBlock 3)).take (bs.length * samplesPerBlock 3)).zipIdx
          (p * samplesPerBlock 3))
      ({ h with lastSequence := p + bs.length - 1, lastAngle := r.1 }, r.2) := by
  induction bs generalizing h p with
  | nil =>
    simp only [extractSamples, List.length_nil, Nat.zero_mul, List.take_zero, List.zipIdx_nil,
      decode, Nat.add_zero, ← hlast]
  | cons b bs ih =>
    obtain ⟨hlt, rfl, hrest⟩ := drop_blocks_eq_cons hbs
    have hsplit : ((entries.drop (p * samplesPerBlock 3)).take
        ((bs.length + 1) * samplesPerBlock 3)).zipIdx (p * samplesPerBlock 3) =
        (group 3 entries p).zipIdx (p * samplesPerBlock 3) ++
          ((entries.drop ((p + 1) * samplesPerBlock 3)).take
            (bs.length * samplesPerBlock 3)).zipIdx ((p + 1) * samplesPerBlock 3) := by
      rw [Nat.succ_mul bs.length, Nat.add_comm (bs.length * _), List.take_add, List.zipIdx_append,
        ← group, length_group hlt, List.drop_drop, Nat.succ_mul p]
    rw [extractSamples, extractBlock_eq (length_of_mem_group hentries p) hlast, List.length_cons,
      hsplit, decode_append]
    simp only
    rw [ih hlt hrest (by simp)]
    refine Prod.ext ?_ rfl
    simp only [Host.mk.injEq, true_and]
    exact ⟨by omega, rfl⟩

end Host

/-! ## Sessions -/

/-- The bytes of the entries of a session. -/
def World.entries (w : World) : List (List Byte) := w.made.map Made.bytes

/-- No missed event is left from an earlier session when a session starts, and fewer than 256 events
in a row are missed. -/
def Counted (w : World) : Event → Prop
  | .start _ _ _ => w.sa.overflow = 0
  | .timer => w.sa.pending = true → w.sa.overflow.toNat < 255
  | _ => True

/-- What holds in a session. -/
structure Session (w : World) : Prop where
  packed : Packed 3 w.entries w.sa.sb
  taken : w.taken ≤ full 3 w.entries
  flow : (blocks 3 w.entries).drop w.taken = w.queue ++ w.wire
  lastSequence : w.host.lastSequence = w.taken - 1
  /-- The samples are those of the entries in the blocks that were decoded. -/
  decoded : (w.host.lastAngle, w.samples, w.errors) = decode w.host.clockOf w.firstAngle
    (w.entries.take (w.taken * samplesPerBlock 3)).zipIdx
  /-- Every event but those that are pending has its entry. -/
  count : w.made.length + (if w.sa.pending then w.sa.overflow.toNat + 1 else 0) = w.events
  /-- An entry was made of the event with its index. -/
  made : ∀ k (m : Made), w.made[k]? = some m → m.At (BitVec.ofNat 32 (w.host.clockOf k))
  waketime : w.sa.waketime = BitVec.ofNat 32 (w.host.clockOf w.events)
  ticks : w.host.sampleTicks = w.sa.restTicks.toNat
  idle : w.sa.pending = false → w.sa.overflow = 0

/-- Between sessions nothing is pending and no block is on its way. -/
structure Inv (w : World) : Prop where
  session : w.sa.armed = true → Session w
  off : w.sa.armed = false → w.sa.pending = false ∧ w.wire = [] ∧ w.queue = []

theorem clockOf_succ (h : Host) (i : ℕ) : h.clockOf (i + 1) = h.clockOf i + h.sampleTicks := by
  rw [Host.clockOf, Host.clockOf, Nat.succ_mul, Nat.add_assoc]

theorem ofNat_clockOf_succ {h : Host} {restTicks : BitVec 32} (hticks : h.sampleTicks =
    restTicks.toNat) (i : ℕ) :
    BitVec.ofNat 32 (h.clockOf (i + 1)) = BitVec.ofNat 32 (h.clockOf i) + restTicks := by
  rw [clockOf_succ, hticks, BitVec.ofNat_add, BitVec.ofNat_toNat, BitVec.setWidth_eq]

variable {w : World}

/-- A session starts without missed events. -/
theorem Session.start {clock : ℕ} {restTicks : BitVec 32} {timeShift : Byte}
    (hrest : restTicks ≠ 0) (hoverflow : w.sa.overflow = 0) (hwire : w.wire = []) :
    Session (w.start clock restTicks timeShift) := by
  have hquery : w.sa.query (BitVec.ofNat 32 clock) restTicks timeShift =
      { w.sa with
        pending := false
        waketime := BitVec.ofNat 32 clock
        restTicks := restTicks
        sb := .reset
        timeShift := timeShift
        armed := true } := if_neg hrest
  unfold World.start
  rw [hquery, hwire]
  exact {
    packed := .reset 3
    taken := Nat.zero_le _
    flow := by simp [World.entries]
    lastSequence := rfl
    decoded := by simp [World.entries, decode]
    count := rfl
    made := by simp
    waketime := by simp [Host.clockOf]
    ticks := rfl
    idle := fun _ => hoverflow }

theorem Session.timer (h : Session w) (hc : w.sa.pending = true → w.sa.overflow.toNat < 255) :
    Session { w with sa := w.sa.event, events := w.events + 1 } := by
  refine ⟨h.packed, h.taken, h.flow, h.lastSequence, h.decoded, ?_, h.made, ?_, h.ticks,
    fun hn => absurd hn (by simp [SpiAngle.event])⟩
  · have hcount := h.count
    show w.made.length + (if true = true then w.sa.event.overflow.toNat + 1 else 0) = w.events + 1
    rw [if_pos rfl]
    cases hp : w.sa.pending with
    | true =>
      have hlt := hc hp
      have hsucc : (w.sa.overflow + 1).toNat = w.sa.overflow.toNat + 1 := by
        rw [BitVec.toNat_add]
        exact Nat.mod_eq_of_lt (show w.sa.overflow.toNat + 1 < 256 by omega)
      rw [hp, if_pos rfl] at hcount
      rw [SpiAngle.event, hp]
      simp only [if_true, hsucc]
      omega
    | false =>
      rw [hp, if_neg Bool.false_ne_true] at hcount
      rw [SpiAngle.event, hp]
      simp only [Bool.false_eq_true, if_false, h.idle hp]
      exact congrArg (· + 1) hcount
  · show w.sa.waketime + w.sa.restTicks = BitVec.ofNat 32 (w.host.clockOf (w.events + 1))
    rw [ofNat_clockOf_succ h.ticks, h.waketime]

/-- The task makes an entry of each event that is pending. -/
theorem Session.task (h : Session w) {result : BitVec 32 → Made}
    (hresult : ∀ stime, (result stime).At stime) : Session (w.task result) := by
  cases hp : w.sa.pending with
  | false =>
    have htask : w.task result = w := by
      simp only [World.task, SpiAngle.task, hp, Bool.false_eq_true, if_false, List.append_nil]
    rwa [htask]
  | true =>
    obtain ⟨hpacked, hblocks⟩ := addAll_packed h.packed (w.sa.pendingMade result)
    have hcount := h.count
    rw [hp, if_pos rfl] at hcount
    have hlen : (w.sa.pendingMade result).length = w.sa.overflow.toNat + 1 := by
      simp [SpiAngle.pendingMade]
    have htask : w.task result = { w with
        sa := { w.sa with
          pending := false
          overflow := 0
          sb := (SpiAngle.addAll w.sa.sb (w.sa.pendingMade result)).1 }
        wire := w.wire ++ (SpiAngle.addAll w.sa.sb (w.sa.pendingMade result)).2
        made := w.made ++ w.sa.pendingMade result } := by
      simp only [World.task, SpiAngle.task, hp, if_true]
    have hfull :
        full 3 w.entries ≤ full 3 ((w.made ++ w.sa.pendingMade result).map Made.bytes) := by
      refine Nat.div_le_div_right ?_
      simp [World.entries]
    have htake : ((w.made ++ w.sa.pendingMade result).map Made.bytes).take
        (w.taken * samplesPerBlock 3) = w.entries.take (w.taken * samplesPerBlock 3) := by
      rw [List.map_append]
      exact List.take_append_of_le_length
        ((Nat.mul_le_mul_right _ h.taken).trans (full_mul_le _))
    rw [htask]
    exact {
      packed := hpacked
      taken := h.taken.trans hfull
      flow := by
        show (blocks 3 ((w.made ++ w.sa.pendingMade result).map Made.bytes)).drop w.taken = _
        have hle : w.taken ≤ (blocks 3 (w.made.map Made.bytes)).length := by
          rw [length_blocks]
          exact h.taken
        have hflow : (blocks 3 (w.made.map Made.bytes)).drop w.taken = w.queue ++ w.wire := h.flow
        rw [hblocks, List.drop_append_of_le_length hle, hflow, List.append_assoc]
      lastSequence := h.lastSequence
      decoded := by
        show _ = decode w.host.clockOf w.firstAngle
          (((w.made ++ w.sa.pendingMade result).map Made.bytes).take
            (w.taken * samplesPerBlock 3)).zipIdx
        rw [htake]
        exact h.decoded
      count := by
        show (w.made ++ w.sa.pendingMade result).length + 0 = w.events
        rw [List.length_append, hlen]
        exact hcount
      made := fun k m hm => by
        rcases lt_or_ge k w.made.length with hk | hk
        · exact h.made k m (by rwa [List.getElem?_append_left hk] at hm)
        · rw [List.getElem?_append_right hk, SpiAngle.pendingMade] at hm
          rcases lt_or_ge (k - w.made.length) w.sa.overflow.toNat with hk' | hk'
          · rw [List.getElem?_append_left (by simpa using hk'), List.getElem?_replicate,
              if_pos hk'] at hm
            obtain rfl := Option.some_inj.1 hm
            trivial
          · rw [List.getElem?_append_right (by simpa using hk'), List.length_replicate,
              List.getElem?_singleton] at hm
            obtain ⟨hz, hm⟩ := Option.ite_none_right_eq_some.1 hm
            obtain rfl := Option.some_inj.1 hm
            -- the reading is of the last event
            have hlast : w.events = k + 1 := by omega
            have hstime : w.sa.waketime - w.sa.restTicks = BitVec.ofNat 32 (w.host.clockOf k) := by
              rw [h.waketime, hlast, ofNat_clockOf_succ h.ticks, BitVec.add_sub_cancel]
            rw [← hstime]
            exact hresult _
      waketime := h.waketime
      ticks := h.ticks
      idle := fun _ => rfl }

theorem Session.batch (h : Session w) : Session w.batch := by
  have hentries : ∀ e ∈ w.entries, e.length = 3 := length_of_mem_bytes
  have hextract := Host.extractSamples_eq hentries h.taken h.flow h.lastSequence
  have hlen := congrArg List.length h.flow
  rw [List.length_drop, length_blocks, List.length_append] at hlen
  have hle := full_mul_le (B := 3) w.entries
  have htaken := h.taken
  have hsplit : (w.entries.take ((w.taken + w.queue.length) * samplesPerBlock 3)).zipIdx =
      (w.entries.take (w.taken * samplesPerBlock 3)).zipIdx ++
        ((w.entries.drop (w.taken * samplesPerBlock 3)).take
          (w.queue.length * samplesPerBlock 3)).zipIdx (w.taken * samplesPerBlock 3) := by
    have hmin : (w.entries.take (w.taken * samplesPerBlock 3)).length =
        w.taken * samplesPerBlock 3 :=
      List.length_take_of_le ((Nat.mul_le_mul_right _ htaken).trans hle)
    rw [Nat.add_mul, List.take_add, List.zipIdx_append, hmin, Nat.zero_add]
  have hdecoded := decode_append w.host.clockOf w.firstAngle
    (w.entries.take (w.taken * samplesPerBlock 3)).zipIdx
    (((w.entries.drop (w.taken * samplesPerBlock 3)).take
      (w.queue.length * samplesPerBlock 3)).zipIdx (w.taken * samplesPerBlock 3))
  rw [← hsplit, ← h.decoded] at hdecoded
  have hbatch : w.batch = { w with
      host := (w.host.extractSamples w.queue).1
      queue := []
      taken := w.taken + w.queue.length
      samples := w.samples ++ (w.host.extractSamples w.queue).2.1
      errors := w.errors + (w.host.extractSamples w.queue).2.2 } := rfl
  rw [hbatch, hextract]
  exact {
    packed := h.packed
    taken := by
      show w.taken + w.queue.length ≤ full 3 w.entries
      omega
    flow := by
      show (blocks 3 w.entries).drop (w.taken + w.queue.length) = [] ++ w.wire
      rw [← List.drop_drop, h.flow, List.drop_left, List.nil_append]
    lastSequence := rfl
    decoded := hdecoded.symm
    count := h.count
    made := h.made
    waketime := h.waketime
    ticks := h.ticks
    idle := h.idle }

theorem Inv.start {clock : ℕ} {restTicks : BitVec 32} {timeShift : Byte} (h : Inv w)
    (harmed : w.sa.armed = false) (hoverflow : w.sa.overflow = 0) :
    Inv (w.start clock restTicks timeShift) := by
  obtain ⟨hpending, hwire, hqueue⟩ := h.off harmed
  by_cases hrest : restTicks = 0
  · have hquery : w.sa.query (BitVec.ofNat 32 clock) restTicks timeShift =
        { w.sa with armed := false, pending := false } := if_pos hrest
    unfold World.start
    rw [hquery]
    exact ⟨fun hn => absurd hn Bool.false_ne_true, fun _ => ⟨rfl, hwire, rfl⟩⟩
  · have hsession : Session (w.start clock restTicks timeShift) := .start hrest hoverflow hwire
    refine ⟨fun _ => hsession, fun hn => ?_⟩
    have hquery : (w.sa.query (BitVec.ofNat 32 clock) restTicks timeShift).armed = true := by
      rw [SpiAngle.query, if_neg hrest]
    exact absurd (hquery.symm.trans hn) (by simp)

theorem Inv.next {board : Board} {chip : ChipType} {w' : World} {e : Event} (h : Inv w)
    (he : Counted w e) (hw : next board chip w e = some w') : Inv w' := by
  cases e with
  | start clock restTicks timeShift =>
    obtain ⟨harmed, hw⟩ := Option.ite_none_left_eq_some.1 hw
    obtain rfl := Option.some_inj.1 hw
    exact h.start (by simpa using harmed) he
  | stop =>
    obtain rfl := Option.some_inj.1 hw
    exact ⟨fun hn => absurd hn Bool.false_ne_true, fun _ => ⟨rfl, rfl, rfl⟩⟩
  | timer =>
    obtain ⟨harmed, hw⟩ := Option.ite_none_right_eq_some.1 hw
    obtain rfl := Option.some_inj.1 hw
    exact ⟨fun _ => (h.session harmed).timer he, fun hn => absurd (harmed.symm.trans hn) (by simp)⟩
  | task x =>
    obtain rfl := Option.some_inj.1 hw
    have hresult : ∀ stime, (chipQuery board chip w.sa.timeShift stime x).At stime := fun stime =>
      chipQuery_at _ _ _ _ _
    cases harmed : w.sa.armed with
    | true =>
      refine ⟨fun _ => (h.session harmed).task hresult, fun hn => ?_⟩
      have hsame : (w.sa.task fun stime => chipQuery board chip w.sa.timeShift stime x).1.armed =
          true := by
        rw [SpiAngle.task]
        split <;> exact harmed
      exact absurd (hsame.symm.trans hn) (by simp)
    | false =>
      have htask : w.task (fun stime => chipQuery board chip w.sa.timeShift stime x) = w := by
        simp only [World.task, SpiAngle.task, (h.off harmed).1, Bool.false_eq_true, if_false,
          List.append_nil]
      rwa [htask]
  | deliver =>
    cases hwire : w.wire with
    | nil => simp [AngleSensor.next, hwire] at hw
    | cons b bs =>
      simp only [AngleSensor.next, hwire] at hw
      obtain rfl := Option.some_inj.1 hw
      refine ⟨fun harmed => ?_, fun harmed => ?_⟩
      · have hs := h.session harmed
        refine ⟨hs.packed, hs.taken, ?_, hs.lastSequence, hs.decoded, hs.count, hs.made,
          hs.waketime, hs.ticks, hs.idle⟩
        have hflow := hs.flow
        rw [hwire] at hflow
        rw [List.append_assoc, List.singleton_append]
        exact hflow
      · exact absurd (h.off harmed).2.1 (by simp [hwire])
  | batch =>
    obtain rfl := Option.some_inj.1 hw
    refine ⟨fun harmed => (h.session harmed).batch, fun harmed => ?_⟩
    obtain ⟨hpending, hwire, -⟩ := h.off harmed
    exact ⟨hpending, hwire, rfl⟩

theorem Inv.of_reachable {board : Board} {chip : ChipType}
    (h : (system board chip).ReachableBy Counted w) : Inv w := by
  refine System.ReachableBy.invariant ?_ ?_ h
  · rintro s rfl
    exact ⟨fun hn => absurd hn Bool.false_ne_true, fun _ => ⟨rfl, rfl, rfl⟩⟩
  · intro s e t hs he ht
    exact hs.next he ht

/-! ## Angles -/

/-- The readings with their indices. -/
def readings : ℕ → List Made → List (ℕ × Byte × BitVec 16)
  | _, [] => []
  | k, .missed :: ms => readings (k + 1) ms
  | k, .failed _ _ :: ms => readings (k + 1) ms
  | k, .reading _ tcode angle :: ms => (k, tcode, angle) :: readings (k + 1) ms

/-- The angles over all turns. -/
def turns : ℤ → List (BitVec 16) → List ℤ
  | _, [] => []
  | lastAngle, r :: rs => turnTo lastAngle r :: turns (turnTo lastAngle r) rs

/-- The samples of readings. -/
def samplesOf (clockOf : ℕ → ℕ) (lastAngle : ℤ) (rs : List (ℕ × Byte × BitVec 16)) :
    List Sample :=
  List.zipWith (fun r angle => ⟨clockOf r.1, r.2.1, angle⟩) rs
    (turns lastAngle (rs.map fun r => r.2.2))

theorem join_bytes (angle : BitVec 16) :
    (angle.setWidth 8).setWidth 16 ||| ((angle >>> 8).setWidth 8).setWidth 16 <<< 8 = angle := by
  ext i hi
  by_cases hlow : i < 8
  · simp [hlow, BitVec.getLsbD_eq_getElem hi]
  · have hup : i - 8 < 8 := by omega
    have hsub : 8 + (i - 8) = i := by omega
    simp [hlow, hup, hsub, BitVec.getLsbD_eq_getElem hi]

/-- The host finds the readings among the entries, with their indices. -/
theorem decode_made (clockOf : ℕ → ℕ) (lastAngle : ℤ) (k : ℕ) {ms : List Made}
    (hms : ∀ m ∈ ms, ∃ stime, m.At stime) :
    (decode clockOf lastAngle ((ms.map Made.bytes).zipIdx k)).2.1 =
        samplesOf clockOf lastAngle (readings k ms) ∧
      (decode clockOf lastAngle ((ms.map Made.bytes).zipIdx k)).2.2 + (readings k ms).length =
        ms.length := by
  induction ms generalizing lastAngle k with
  | nil => exact ⟨rfl, rfl⟩
  | cons m ms ih =>
    have ih := fun la => ih la (k + 1) fun m hm => hms m (List.mem_cons_of_mem _ hm)
    rw [List.map_cons, List.zipIdx_cons, decode]
    cases m with
    | missed =>
      rw [if_pos (show Made.missed.bytes.getD 0 0 = tcodeError from rfl)]
      refine ⟨(ih lastAngle).1, ?_⟩
      have := (ih lastAngle).2
      simp only [readings, List.length_cons]
      omega
    | failed stime error =>
      rw [if_pos (show (Made.failed stime error).bytes.getD 0 0 = tcodeError from rfl)]
      refine ⟨(ih lastAngle).1, ?_⟩
      have := (ih lastAngle).2
      simp only [readings, List.length_cons]
      omega
    | reading stime tcode angle =>
      obtain ⟨s, -, htcode⟩ := hms _ List.mem_cons_self
      have hcode : (Made.bytes (.reading stime tcode angle)).getD 0 0 = tcode := rfl
      have hraw : ((Made.bytes (.reading stime tcode angle)).getD 1 0).setWidth 16 |||
          ((Made.bytes (.reading stime tcode angle)).getD 2 0).setWidth 16 <<< 8 = angle :=
        join_bytes angle
      rw [hcode, if_neg htcode, hraw]
      obtain ⟨hsamples, hcount⟩ := ih (turnTo lastAngle angle)
      refine ⟨?_, ?_⟩
      · simp only [hsamples, readings, samplesOf, List.map_cons, turns, List.zipWith_cons_cons]
      · simp only [readings, List.length_cons]
        omega

/-- A turn to a reading ends at the reading. -/
theorem turnTo_emod (lastAngle : ℤ) (r : BitVec 16) :
    turnTo lastAngle r % 65536 = r.toNat % 65536 := by
  unfold turnTo
  simp only
  split <;> omega

/-- A turn of less than a half is found, whatever the number of turns before. -/
theorem turnTo_eq {lastAngle T T' : ℤ} {r : BitVec 16} (hlast : (65536 : ℤ) ∣ lastAngle - T)
    (hr : (T' - r.toNat) % 65536 = 0) (hhalf : |T' - T| < 32768) :
    turnTo lastAngle r = T' + (lastAngle - T) := by
  obtain ⟨c, hc⟩ := hlast
  rw [abs_lt] at hhalf
  unfold turnTo
  simp only
  split <;> omega

/-- The true angle of a sequence of readings : each is the reading up to full turns, and it changes
by less than half a turn. -/
structure TrueAngle (rs : List (BitVec 16)) (T : ℕ → ℤ) : Prop where
  reading : ∀ i r, rs[i]? = some r → (T i - r.toNat) % 65536 = 0
  half : ∀ i, i + 1 < rs.length → |T (i + 1) - T i| < 32768

theorem TrueAngle.tail {r : BitVec 16} {rs : List (BitVec 16)} {T : ℕ → ℤ}
    (h : TrueAngle (r :: rs) T) : TrueAngle rs fun i => T (i + 1) where
  reading i r' hr := h.reading (i + 1) r' hr
  half i hi := h.half (i + 1) (Nat.succ_lt_succ hi)

/-- The angles are the true ones, up to a number of turns at the start. -/
theorem turns_eq {rs : List (BitVec 16)} {T : ℕ → ℤ} (h : TrueAngle rs T) (lastAngle : ℤ) :
    ∃ c, 65536 ∣ c ∧ ∀ i a, (turns lastAngle rs)[i]? = some a → a = T i + c := by
  cases rs with
  | nil => exact ⟨0, dvd_zero _, by simp [turns]⟩
  | cons r rs =>
    have hfirst := h.reading 0 r rfl
    refine ⟨turnTo lastAngle r - T 0, ?_, ?_⟩
    · have := turnTo_emod lastAngle r
      omega
    · have hc : (65536 : ℤ) ∣ turnTo lastAngle r - T 0 := by
        have := turnTo_emod lastAngle r
        omega
      -- from here on each angle is found from the last
      generalize hla : turnTo lastAngle r = la at hc
      intro i a ha
      rw [turns, hla] at ha
      clear hla hfirst
      induction rs generalizing i T r la with
      | nil =>
        cases i with
        | zero =>
          obtain rfl : la = a := by simpa using ha
          omega
        | succ i => simp [turns] at ha
      | cons r' rs ih =>
        cases i with
        | zero =>
          obtain rfl : la = a := by simpa using ha
          omega
        | succ i =>
          have hnext : turnTo la r' = T 1 + (la - T 0) :=
            turnTo_eq hc (h.reading 1 r' rfl) (h.half 0 (by simp))
          have hc' : (65536 : ℤ) ∣ turnTo la r' - T 1 := by
            rw [hnext]
            simpa using hc
          have := ih r' h.tail (turnTo la r') hc' i (by simpa [turns] using ha)
          rw [this, hnext]
          ring

/-! ## Samples -/

/-- Each event of a session is an entry, and the samples are the readings. -/
structure Correct (w : World) : Prop where
  /-- Every event but those that are pending has its entry. -/
  count : w.made.length + (if w.sa.pending then w.sa.overflow.toNat + 1 else 0) = w.events
  /-- The entry with an index was made of the event at the clock that the host computes. -/
  made : ∀ k (m : Made), w.made[k]? = some m →
    m.At (BitVec.ofNat 32 (w.host.startClock + k * w.host.sampleTicks))
  /-- No block is lost. -/
  flow : (blocks 3 (w.made.map Made.bytes)).drop w.taken = w.queue ++ w.wire
  /-- A sample has the clock of its index. -/
  samples : w.samples = samplesOf w.host.clockOf w.firstAngle
    (readings 0 (w.made.take (w.taken * samplesPerBlock 3)))
  /-- The other entries are errors. -/
  errors : w.errors + (readings 0 (w.made.take (w.taken * samplesPerBlock 3))).length =
    w.taken * samplesPerBlock 3
  /-- The angles are the true ones, up to a number of turns at the start. -/
  angles : ∀ T, TrueAngle
      ((readings 0 (w.made.take (w.taken * samplesPerBlock 3))).map fun r => r.2.2) T →
    ∃ c, 65536 ∣ c ∧ ∀ i (s : Sample), w.samples[i]? = some s → s.angle = T i + c

/-- The angles of the samples are those over all turns. -/
theorem map_angle_samplesOf (clockOf : ℕ → ℕ) (lastAngle : ℤ) (rs : List (ℕ × Byte × BitVec 16)) :
    (samplesOf clockOf lastAngle rs).map Sample.angle =
      turns lastAngle (rs.map fun r => r.2.2) := by
  induction rs generalizing lastAngle with
  | nil => rfl
  | cons r rs ih => exact congrArg (turnTo lastAngle r.2.2 :: ·) (ih _)

theorem Session.correct (h : Session w) : Correct w := by
  have hms : ∀ m ∈ w.made.take (w.taken * samplesPerBlock 3), ∃ stime, m.At stime := by
    intro m hm
    obtain ⟨k, hk⟩ := List.mem_iff_getElem?.1 (List.mem_of_mem_take hm)
    exact ⟨_, h.made k m hk⟩
  have hdecoded := decode_made w.host.clockOf w.firstAngle 0 hms
  have htake : w.entries.take (w.taken * samplesPerBlock 3) =
      (w.made.take (w.taken * samplesPerBlock 3)).map Made.bytes := List.map_take.symm
  rw [← htake, ← h.decoded] at hdecoded
  obtain ⟨hsamples, herrors⟩ := hdecoded
  have hle : w.taken * samplesPerBlock 3 ≤ w.made.length :=
    (Nat.mul_le_mul_right _ h.taken).trans
      ((full_mul_le _).trans_eq (List.length_map Made.bytes))
  rw [List.length_take_of_le hle] at herrors
  refine ⟨h.count, h.made, h.flow, hsamples, herrors, fun T hT => ?_⟩
  obtain ⟨c, hc, hangles⟩ := turns_eq hT w.firstAngle
  refine ⟨c, hc, fun i s hs => hangles i s.angle ?_⟩
  rw [← map_angle_samplesOf w.host.clockOf, ← hsamples, List.getElem?_map, hs]
  rfl

/-- Whatever happens in sessions whose events are counted, the samples are right. -/
theorem correct_of_reachable {board : Board} {chip : ChipType}
    (h : (system board chip).ReachableBy Counted w) (harmed : w.sa.armed = true) : Correct w :=
  ((Inv.of_reachable h).session harmed).correct

instance (w : World) (e : Event) : Decidable (Counted w e) := by
  cases e <;> unfold Counted <;> infer_instance

/-- A board on which no time is too long. -/
def anyBoard : Board := ⟨0xffffffff, 0xffffffff⟩

/-- A transfer that takes no time, of an angle of 90 degrees. -/
def quarter : Transfer := ⟨0, 0, ![0x20, 0, 0, 0, 0, 0, 0, 0, 0, 0]⟩

/-- A session stopped while two events were pending, and one event of the next. -/
def staleRun : List Event :=
  [.start 0 100 0, .timer, .timer, .stop, .start 1000 100 0, .timer, .task quarter]

/-- The missed event of the first session is an entry of the second. -/
theorem stale_entry : ((system anyBoard .a1333).run .init staleRun).map
    (fun w => (w.sa.armed, w.sa.pending, w.made.length, w.events)) = some (true, false, 2, 1) := by
  decide +kernel

end AngleSensor

end Thinker
