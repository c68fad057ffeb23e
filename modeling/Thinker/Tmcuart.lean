import Mathlib.Data.BitVec
import Mathlib.Tactic

/-!
# The UART of the stepper drivers

`tmcuart.c` sends and receives bits with a timer. While it sends, the timer is only run where the
level of the line changes : `tmcuart_send_event` toggles the line, and waits for as many bits as are
the same. A buffer that starts with a sync nibble has five bits sent one by one, so that the time of
a bit can be measured. Then the line is sampled until a start bit is seen, and from there on once a
bit.

With exact timers the line carries the bits of the buffer (`Tmcuart.sends`), and what is stored are
the bits of a line that stays high until a start bit (`Tmcuart.receives`).
-/

namespace Thinker

/-! ## Bits of a buffer -/

/-- A bit of a buffer, with the lowest bit of each byte first. -/
def dataBit (data : List (BitVec 8)) (pos : ℕ) : Bool :=
  (data.getD (pos / 8) 0).getLsbD (pos % 8)

/-- A bit of a buffer is stored. -/
def writeBit (data : List (BitVec 8)) (pos : ℕ) (v : Bool) : List (BitVec 8) :=
  let mask := 1#8 <<< (pos % 8)
  let d := data.getD (pos / 8) 0
  data.set (pos / 8) (if v then d ||| mask else d &&& ~~~mask)

/-- The functions of the timer. -/
inductive TmcuartFunc where
  | sendEvent
  | sendSyncEvent
  | sendFinishEvent
  | readSyncEvent
  | readEvent
  deriving DecidableEq

/-- The bits of `flags`. -/
structure TmcuartFlags where
  lineHigh : Bool
  active : Bool
  readSync : Bool
  report : Bool
  pullup : Bool
  singleWire : Bool

/-- `struct tmcuart_s`, with the level of its pin for sending. -/
structure Tmcuart where
  func : TmcuartFunc
  waketime : BitVec 32
  txPin : Bool
  flags : TmcuartFlags
  pos : ℕ
  readCount : ℕ
  writeCount : ℕ
  cfgBitTime : BitVec 32
  bitTime : BitVec 32
  data : List (BitVec 8)

/-- `DIV_ROUND_CLOSEST`. -/
def divRoundClosest (x divisor : ℤ) : ℤ :=
  (x + divisor.tdiv 2).tdiv divisor

namespace Tmcuart

variable (t : Tmcuart)

/-- `tmcuart_reset_line`. -/
def resetLine : Tmcuart :=
  { t with
    txPin := true
    flags := ⟨true, false, false, false, t.flags.pullup, t.flags.singleWire⟩ }

/-- `tmcuart_finalize`. -/
def finalize : Tmcuart :=
  { t.resetLine with flags := { t.resetLine.flags with report := true } }

/-- `tmcuart_read_event`, with whether the timer is run again. -/
def readEvent (v : Bool) : Tmcuart × Bool :=
  let t := { t with data := writeBit t.data t.pos v }
  let pos := t.pos + 1
  if pos ≥ t.readCount then (t.finalize, false)
  else ({ t with pos := pos, waketime := t.waketime + t.bitTime }, true)

/-- `tmcuart_read_sync_event`. -/
def readSyncEvent (v : Bool) : Tmcuart × Bool :=
  if v = false ∧ t.flags.readSync = true then
    -- Now synchronized - begin reading
    { t with pos := 0, func := .readEvent }.readEvent v
  else
    let t := if v then { t with flags := { t.flags with readSync := true } } else t
    let pos := t.pos
    let t := { t with pos := pos + 1 }
    if pos ≥ 64 then
      -- Timeout
      ({ t with readCount := 0 }.finalize, false)
    else ({ t with waketime := t.waketime + t.bitTime }, true)

/-- `tmcuart_send_finish_event`. -/
def sendFinishEvent : Tmcuart × Bool :=
  -- This is a tx only operation - success
  if t.readCount = 0 then (t.finalize, false)
  else
    ({ t with pos := 0, func := .readSyncEvent, waketime := t.waketime + t.bitTime * 4 }, true)

/-- `gpio_out_toggle_noirq`, with the flag for the level. -/
def toggle : Tmcuart :=
  { t with txPin := !t.txPin, flags := { t.flags with lineHigh := !t.flags.lineHigh } }

/-- The loop of `tmcuart_send_event` : the next bit that differs from the level of the line, and the
time until then. -/
def nextToggle (pos : ℕ) (next : BitVec 32) : Option ℕ × BitVec 32 :=
  let pos := pos + 1
  if pos ≥ t.writeCount then (none, next)
  else if dataBit t.data pos ≠ t.flags.lineHigh then (some pos, next)
  else nextToggle pos (next + t.bitTime)
termination_by t.writeCount - pos

/-- `tmcuart_send_event`. -/
def sendEvent : Tmcuart :=
  let t := t.toggle
  match t.nextToggle t.pos t.bitTime with
  -- No more toggles necessary - schedule finish event
  | (none, next) => { t with func := .sendFinishEvent, waketime := t.waketime + next }
  | (some pos, next) => { t with pos := pos, waketime := t.waketime + next }

/-- `tmcuart_send_sync_event`, at the time `cur`. -/
def sendSyncEvent (cur : BitVec 32) : Tmcuart :=
  let t := t.toggle
  let t := { t with pos := t.pos + 1 }
  if t.pos = 1 then
    -- First bit just sent - record scheduling offset for later use
    { t with bitTime := cur - t.waketime, waketime := t.waketime + t.cfgBitTime }
  else if t.pos ≥ 5 then
    -- Last bit of sync nibble just sent - calculate actual baud rate used
    let offset := cur - t.waketime
    let diff := (offset - t.bitTime).toInt
    let bitTime := t.cfgBitTime + BitVec.ofInt 32 (divRoundClosest diff 4)
    { t with
      bitTime := bitTime
      func := .sendEvent
      waketime := t.waketime + (BitVec.ofInt 32 diff + bitTime) }
  else { t with waketime := t.waketime + t.cfgBitTime }

/-- `command_tmcuart_send`, with the time at which the timer is to run. `none` is a shutdown. -/
def send (write : List (BitVec 8)) (readLen : ℕ) (waketime : BitVec 32) : Option Tmcuart :=
  -- Uart is busy - silently drop this request (host should retransmit)
  if t.flags.active then some t
  else if write.length > 10 ∨ readLen > 10 then none
  else
    let t := { t with
      data := write ++ t.data.drop write.length
      pos := 0
      flags := ⟨t.flags.lineHigh, true, false, false, t.flags.pullup, t.flags.singleWire⟩
      writeCount := write.length * 8
      readCount := readLen * 8
      waketime := waketime }
    if write.length ≥ 1 ∧ t.data.getD 0 0 &&& 0x3f = 0x2a then
      some { t with func := .sendSyncEvent }
    else some { t with bitTime := t.cfgBitTime, func := .sendEvent }

/-- What `tmcuart_task` reports. -/
def report : List (BitVec 8) :=
  t.data.take (t.readCount / 8)

/-- The function of the timer, at the time `cur` and with the level `v` of the pin for receiving. -/
def event (cur : BitVec 32) (v : Bool) : Tmcuart × Bool :=
  match t.func with
  | .sendEvent => (t.sendEvent, true)
  | .sendSyncEvent => (t.sendSyncEvent cur, true)
  | .sendFinishEvent => t.sendFinishEvent
  | .readSyncEvent => t.readSyncEvent v
  | .readEvent => t.readEvent v

theorem event_of_readEvent {t : Tmcuart} (h : t.func = .readEvent) (cur : BitVec 32) (v : Bool) :
    t.event cur v = t.readEvent v := by
  unfold event
  rw [h]

theorem event_of_readSyncEvent {t : Tmcuart} (h : t.func = .readSyncEvent) (cur : BitVec 32)
    (v : Bool) : t.event cur v = t.readSyncEvent v := by
  unfold event
  rw [h]

end Tmcuart

/-- A UART with its timer : when the timer runs next and when it ran last, on a clock that does not
wrap, and whether it is scheduled. -/
structure TmcuartRun where
  time : ℕ
  last : ℕ
  uart : Tmcuart
  again : Bool

/-- The timer runs exactly at its time. -/
def TmcuartRun.fire (line : ℕ → Bool) (r : TmcuartRun) : TmcuartRun :=
  if r.again then
    let (t, again) := r.uart.event r.uart.waketime (line r.time)
    ⟨r.time + (t.waketime - r.uart.waketime).toNat, r.time, t, again⟩
  else r

/-! ## Stored bits -/

@[simp] theorem length_writeBit (data : List (BitVec 8)) (pos : ℕ) (v : Bool) :
    (writeBit data pos v).length = data.length := by
  simp [writeBit]

theorem getLsbD_set (d : BitVec 8) (v : Bool) {i j : ℕ} (hj : j < 8) :
    (if v then d ||| 1#8 <<< i else d &&& ~~~(1#8 <<< i)).getLsbD j =
      if j = i then v else d.getLsbD j := by
  cases v <;> by_cases h : j = i <;> simp [h, hj] <;> omega

theorem dataBit_writeBit {data : List (BitVec 8)} {pos : ℕ} (h : pos / 8 < data.length) (v : Bool)
    (i : ℕ) : dataBit (writeBit data pos v) i = if i = pos then v else dataBit data i := by
  unfold dataBit writeBit
  simp only
  by_cases hbyte : i / 8 = pos / 8
  · rw [hbyte, List.getD_eq_getElem?_getD, List.getElem?_set_self h, Option.getD_some,
      getLsbD_set _ _ (Nat.mod_lt _ (by decide))]
    have hiff : i % 8 = pos % 8 ↔ i = pos := by omega
    simp only [hiff]
  · have hne : i ≠ pos := fun heq => hbyte (by rw [heq])
    rw [if_neg hne, List.getD_eq_getElem?_getD, List.getElem?_set_ne (Ne.symm hbyte),
      ← List.getD_eq_getElem?_getD]

/-- Buffers of one length that have the same bits are the same. -/
theorem eq_of_dataBit {data data' : List (BitVec 8)} (hlen : data.length = data'.length)
    (h : ∀ i < 8 * data.length, dataBit data i = dataBit data' i) : data = data' := by
  refine List.ext_getElem hlen fun i hi hi' => BitVec.eq_of_getLsbD_eq fun j hj => ?_
  have hbit := h (8 * i + j) (by omega)
  have hdiv : (8 * i + j) / 8 = i := by omega
  have hmod : (8 * i + j) % 8 = j := by omega
  unfold dataBit at hbit
  rwa [hdiv, hmod, List.getD_eq_getElem?_getD, List.getD_eq_getElem?_getD,
    List.getElem?_eq_getElem hi, List.getElem?_eq_getElem hi', Option.getD_some,
    Option.getD_some] at hbit

/-! ## The bits that are sent -/

namespace Tmcuart

/-- The time of some bits. -/
def bits (n : ℕ) (bitTime : BitVec 32) : BitVec 32 :=
  BitVec.ofNat 32 n * bitTime

theorem bits_add (m n : ℕ) (b : BitVec 32) : bits (m + n) b = bits m b + bits n b := by
  unfold bits
  rw [BitVec.ofNat_add, add_mul]

@[simp] theorem bits_zero (b : BitVec 32) : bits 0 b = 0 := by
  simp [bits]

@[simp] theorem bits_one (b : BitVec 32) : bits 1 b = b := by
  simp [bits]

theorem toNat_bits {n : ℕ} {b : BitVec 32} (h : n * b.toNat < 2 ^ 32) :
    (bits n b).toNat = n * b.toNat := by
  unfold bits
  rw [BitVec.toNat_mul, BitVec.toNat_ofNat, Nat.mod_mul_mod, Nat.mod_eq_of_lt h]

variable {t : Tmcuart}

/-- The line is left alone for as many bits as have its level. -/
theorem nextToggle_spec (pos : ℕ) (next : BitVec 32) (hpos : pos < t.writeCount) :
    ∃ k, pos < k ∧ k ≤ t.writeCount ∧
      (∀ j, pos < j → j < k → dataBit t.data j = t.flags.lineHigh) ∧
      (k < t.writeCount → dataBit t.data k ≠ t.flags.lineHigh) ∧
      t.nextToggle pos next = (if k < t.writeCount then some k else none,
        next + bits (k - (pos + 1)) t.bitTime) := by
  induction hleft : t.writeCount - pos generalizing pos next with
  | zero => omega
  | succ left ih =>
    rw [nextToggle]
    by_cases hend : pos + 1 ≥ t.writeCount
    · refine ⟨pos + 1, by omega, hpos, fun j hj hj' => by omega, fun hlt => by omega, ?_⟩
      simp only [if_pos hend]
      rw [if_neg (not_lt.2 hend), Nat.sub_self, bits_zero, add_zero]
    · simp only [if_neg hend]
      have hlt : pos + 1 < t.writeCount := not_le.1 hend
      by_cases hbit : dataBit t.data (pos + 1) ≠ t.flags.lineHigh
      · refine ⟨pos + 1, by omega, hpos, fun j hj hj' => by omega, fun _ => hbit, ?_⟩
        rw [if_pos hbit, if_pos hlt, Nat.sub_self, bits_zero, add_zero]
      · obtain ⟨k, hk, hle, hsame, hdiff, hnext⟩ :=
          ih (pos + 1) (next + t.bitTime) hlt (by omega)
        refine ⟨k, by omega, hle, fun j hj hj' => ?_, hdiff, ?_⟩
        · by_cases hj1 : j = pos + 1
          · rw [hj1]
            exact not_not.1 hbit
          · exact hsame j (by omega) hj'
        · have hsub : k - (pos + 1) = 1 + (k - (pos + 1 + 1)) := by omega
          rw [if_neg hbit, hnext, hsub, bits_add, bits_one, add_assoc]

/-- The state before the line is toggled for a bit. -/
def sending (t : Tmcuart) (start : BitVec 32) (k : ℕ) : Tmcuart :=
  { t with
    func := .sendEvent
    pos := k
    txPin := !dataBit t.data k
    flags := { t.flags with lineHigh := !dataBit t.data k }
    waketime := start + bits k t.bitTime }

/-- The state when all bits were sent, the last toggle at a bit. -/
def sent (t : Tmcuart) (start : BitVec 32) (k : ℕ) : Tmcuart :=
  { t with
    func := .sendFinishEvent
    pos := k
    txPin := dataBit t.data (t.writeCount - 1)
    flags := { t.flags with lineHigh := dataBit t.data (t.writeCount - 1) }
    waketime := start + bits t.writeCount t.bitTime }

/-- The line is toggled for a bit, and is left alone until the next one that differs. -/
theorem sendEvent_sending (start : BitVec 32) {k : ℕ} (hk : k < t.writeCount) :
    ∃ k', k < k' ∧ k' ≤ t.writeCount ∧
      (∀ j, k ≤ j → j < k' → dataBit t.data j = dataBit t.data k) ∧
      (k' < t.writeCount → dataBit t.data k = !dataBit t.data k') ∧
      (t.sending start k).sendEvent =
        if k' < t.writeCount then t.sending start k' else t.sent start k := by
  have hpin : (t.sending start k).toggle.flags.lineHigh = dataBit t.data k :=
    Bool.not_not _
  obtain ⟨k', hlt, hle, hsame, hdiff, hnext⟩ :=
    nextToggle_spec (t := (t.sending start k).toggle) k t.bitTime hk
  rw [hpin] at hsame hdiff
  have hsame' : ∀ j, k ≤ j → j < k' → dataBit t.data j = dataBit t.data k := fun j hj hj' => by
    rcases eq_or_lt_of_le hj with rfl | hj
    · rfl
    · exact hsame j hj hj'
  have htime : start + bits k t.bitTime + (t.bitTime + bits (k' - (k + 1)) t.bitTime) =
      start + bits k' t.bitTime := by
    have hsplit : k' = k + (1 + (k' - (k + 1))) := by omega
    conv_rhs => rw [hsplit, bits_add, bits_add, bits_one]
    rw [add_assoc]
  refine ⟨k', hlt, hle, hsame', fun hend => Bool.eq_not.2 (hdiff hend).symm, ?_⟩
  unfold sendEvent
  simp only
  rw [show (t.sending start k).toggle.pos = k from rfl,
    show (t.sending start k).toggle.bitTime = t.bitTime from rfl, hnext]
  by_cases hend : k' < t.writeCount
  · have hif : (if k' < (t.sending start k).toggle.writeCount then some k' else none) = some k' :=
      if_pos hend
    have hbit : dataBit t.data k = !dataBit t.data k' := Bool.eq_not.2 (hdiff hend).symm
    rw [hif, if_pos hend]
    simp only [sending, toggle, Bool.not_not, hbit]
    rw [← htime]
  · have hif : (if k' < (t.sending start k).toggle.writeCount then some k' else none) = none :=
      if_neg hend
    have hbit : dataBit t.data (t.writeCount - 1) = dataBit t.data k :=
      hsame' _ (by omega) (by omega)
    have heq : k' = t.writeCount := le_antisymm hle (not_lt.1 hend)
    rw [hif, if_neg hend]
    simp only [sending, sent, toggle, Bool.not_not, hbit]
    rw [← heq, ← htime]

/-- The state before a bit of the sync nibble. -/
def syncing (t : Tmcuart) (start : BitVec 32) (k : ℕ) : Tmcuart :=
  { t with
    func := .sendSyncEvent
    pos := k
    txPin := !dataBit t.data k
    flags := { t.flags with lineHigh := !dataBit t.data k }
    bitTime := if k = 0 then t.bitTime else 0
    waketime := start + bits k t.cfgBitTime }

/-- Each bit of the sync nibble differs from the one before it. -/
theorem sendSyncEvent_syncing (hsync : ∀ j < 6, dataBit t.data j = decide (j % 2 = 1))
    (start : BitVec 32) {k : ℕ} (hk : k < 5) :
    (t.syncing start k).sendSyncEvent (t.syncing start k).waketime =
      if k + 1 < 5 then t.syncing start (k + 1)
      else { t with bitTime := t.cfgBitTime }.sending start 5 := by
  have hbit : dataBit t.data (k + 1) = !dataBit t.data k := by
    rw [hsync k (by omega), hsync (k + 1) (by omega), ← decide_not, decide_eq_decide]
    omega
  have htime : start + bits k t.cfgBitTime + t.cfgBitTime = start + bits (k + 1) t.cfgBitTime := by
    rw [bits_add, bits_one, add_assoc]
  have hround : BitVec.ofInt 32 (divRoundClosest 0 4) = 0 := by decide
  by_cases hlast : k + 1 < 5
  · rw [if_pos hlast]
    unfold sendSyncEvent syncing
    by_cases hfirst : k = 0
    · subst hfirst
      simp [toggle, hbit]
    · simp [toggle, hbit, hfirst, htime, show ¬4 ≤ k by omega]
  · obtain rfl : k = 4 := by omega
    rw [if_neg hlast]
    unfold sendSyncEvent syncing sending
    simp [toggle, hbit, htime, hround]

/-- The timer is run next for a bit. -/
structure AtBit (start n : ℕ) (bitTime : BitVec 32) (r : TmcuartRun) (k : ℕ) : Prop where
  again : r.again = true
  clock : BitVec.ofNat 32 r.time = BitVec.ofNat 32 start + bits k bitTime
  waketime : r.uart.waketime = BitVec.ofNat 32 start + bits k bitTime
  time : n * bitTime.toNat < 2 ^ 32 → r.time = start + k * bitTime.toNat

/-- A bit is on the line from when the timer ran last to when it runs next. -/
structure SendsBit (start n : ℕ) (bitTime : BitVec 32) (r : TmcuartRun) (k : ℕ) (level : Bool) :
    Prop where
  again : r.again = true
  level : r.uart.txPin = level
  span : ∃ a b, a ≤ k ∧ k < b ∧ b ≤ n ∧
    BitVec.ofNat 32 r.last = BitVec.ofNat 32 start + bits a bitTime ∧
    r.uart.waketime = BitVec.ofNat 32 start + bits b bitTime
  time : n * bitTime.toNat < 2 ^ 32 →
    r.last ≤ start + k * bitTime.toNat ∧ start + (k + 1) * bitTime.toNat ≤ r.time

variable {start n : ℕ} {bitTime : BitVec 32} {r : TmcuartRun} {line : ℕ → Bool} {t' : Tmcuart}

theorem AtBit.fire {k k' : ℕ} (h : AtBit start n bitTime r k) (hlt : k < k') (hle : k' ≤ n)
    (hevent : r.uart.event r.uart.waketime (line r.time) = (t', true))
    (hwake : t'.waketime = BitVec.ofNat 32 start + bits k' bitTime) :
    (r.fire line).uart = t' ∧ AtBit start n bitTime (r.fire line) k' ∧
      ∀ j, k ≤ j → j < k' → SendsBit start n bitTime (r.fire line) j t'.txPin := by
  obtain ⟨m, rfl⟩ := Nat.exists_eq_add_of_le hlt.le
  have hfire : r.fire line =
      ⟨r.time + (t'.waketime - r.uart.waketime).toNat, r.time, t', true⟩ := by
    unfold TmcuartRun.fire
    rw [if_pos h.again, hevent]
  have hdiff : t'.waketime - r.uart.waketime = bits m bitTime := by
    rw [hwake, h.waketime, bits_add, ← add_assoc, add_sub_cancel_left]
  rw [hdiff] at hfire
  have htime : n * bitTime.toNat < 2 ^ 32 →
      r.time + (bits m bitTime).toNat = start + (k + m) * bitTime.toNat := fun hn => by
    have hm : m * bitTime.toNat < 2 ^ 32 :=
      (Nat.mul_le_mul_right _ (by omega)).trans_lt hn
    rw [h.time hn, toNat_bits hm]
    ring
  rw [hfire]
  refine ⟨rfl, ⟨rfl, ?_, hwake, htime⟩, fun j hj hj' => ⟨rfl, rfl, ?_, fun hn => ⟨?_, ?_⟩⟩⟩
  · rw [BitVec.ofNat_add, h.clock, BitVec.ofNat_toNat, BitVec.setWidth_eq, bits_add,
      add_assoc]
  · exact ⟨k, k + m, hj, hj', hle, h.clock, hwake⟩
  · rw [h.time hn]
    exact Nat.add_le_add_left (Nat.mul_le_mul_right _ hj) _
  · rw [htime hn]
    exact Nat.add_le_add_left (Nat.mul_le_mul_right _ hj') _

/-- A run comes to a state with a property. -/
def Reaches (line : ℕ → Bool) (r : TmcuartRun) (P : TmcuartRun → Prop) : Prop :=
  ∃ i, P ((TmcuartRun.fire line)^[i] r)

theorem Reaches.refl {P : TmcuartRun → Prop} (h : P r) : Reaches line r P :=
  ⟨0, h⟩

theorem Reaches.fire {P : TmcuartRun → Prop} (h : Reaches line (r.fire line) P) :
    Reaches line r P := by
  obtain ⟨i, hi⟩ := h
  exact ⟨i + 1, hi⟩

theorem Reaches.trans {P Q : TmcuartRun → Prop} (h : Reaches line r P)
    (hPQ : ∀ r, P r → Reaches line r Q) : Reaches line r Q := by
  obtain ⟨i, hi⟩ := h
  obtain ⟨j, hj⟩ := hPQ _ hi
  exact ⟨j + i, by rwa [Function.iterate_add_apply]⟩

/-- All bits were sent, and the finish event is run when the last one ends. -/
structure Finishes (t : Tmcuart) (start : ℕ) (r : TmcuartRun) : Prop where
  atBit : AtBit start t.writeCount t.bitTime r t.writeCount
  uart : ∃ k, r.uart = t.sent (BitVec.ofNat 32 start) k

/-- Bits are sent from one on to the end of the buffer. -/
structure Sends (line : ℕ → Bool) (t : Tmcuart) (start : ℕ) (r : TmcuartRun) (k : ℕ) : Prop where
  bits : ∀ j, k ≤ j → j < t.writeCount → Reaches line r fun r =>
    SendsBit start t.writeCount t.bitTime r j (dataBit t.data j)
  finish : Reaches line r (Finishes t start)

theorem sends_sending {k : ℕ} (hk : k < t.writeCount)
    (h : AtBit start t.writeCount t.bitTime r k)
    (huart : r.uart = t.sending (BitVec.ofNat 32 start) k) : Sends line t start r k := by
  induction hleft : t.writeCount - k using Nat.strong_induction_on generalizing r k with
  | _ left ih =>
    obtain ⟨k', hlt, hle, hsame, hdiff, hsend⟩ :=
      sendEvent_sending (t := t) (BitVec.ofNat 32 start) hk
    have hevent : r.uart.event r.uart.waketime (line r.time) =
        ((t.sending (BitVec.ofNat 32 start) k).sendEvent, true) := by
      rw [huart]
      rfl
    rw [hsend] at hevent
    by_cases hend : k' < t.writeCount
    · rw [if_pos hend] at hevent
      obtain ⟨huart', hat, hbits⟩ := h.fire hlt hle hevent rfl
      have hpin : (t.sending (BitVec.ofNat 32 start) k').txPin = dataBit t.data k :=
        (hdiff hend).symm
      obtain ⟨hbits', hfinish⟩ := ih _ (by omega) hend hat huart' rfl
      refine ⟨fun j hj hj' => Reaches.fire ?_, hfinish.fire⟩
      rcases lt_or_ge j k' with hjk | hjk
      · rw [hsame j hj hjk, ← hpin]
        exact .refl (hbits j hj hjk)
      · exact hbits' j hjk hj'
    · rw [if_neg hend] at hevent
      obtain rfl : k' = t.writeCount := le_antisymm hle (not_lt.1 hend)
      obtain ⟨huart', hat, hbits⟩ := h.fire hlt hle hevent rfl
      refine ⟨fun j hj hj' => Reaches.fire (.refl ?_), Reaches.fire (.refl ⟨hat, k, huart'⟩)⟩
      rw [hsame j hj hj', ← hsame (t.writeCount - 1) (by omega) (by omega)]
      exact hbits j hj hj'

theorem sends_syncing (hsync : ∀ j < 6, dataBit t.data j = decide (j % 2 = 1))
    (hcount : 6 ≤ t.writeCount) {k : ℕ} (hk : k < 5)
    (h : AtBit start t.writeCount t.cfgBitTime r k)
    (huart : r.uart = t.syncing (BitVec.ofNat 32 start) k) :
    Sends line { t with bitTime := t.cfgBitTime } start r k := by
  induction hleft : 5 - k generalizing r k with
  | zero => omega
  | succ left ih =>
    have hsend := sendSyncEvent_syncing hsync (BitVec.ofNat 32 start) hk
    have hevent : r.uart.event r.uart.waketime (line r.time) =
        ((t.syncing (BitVec.ofNat 32 start) k).sendSyncEvent
          (t.syncing (BitVec.ofNat 32 start) k).waketime, true) := by
      rw [huart]
      rfl
    have hbit : dataBit t.data k = !dataBit t.data (k + 1) := by
      rw [hsync k (by omega), hsync (k + 1) (by omega), ← decide_not, decide_eq_decide]
      omega
    have hrest : ∀ r' : TmcuartRun, r' = r.fire line → (∀ j, k ≤ j → j < k + 1 →
        SendsBit start t.writeCount t.cfgBitTime r' j (dataBit t.data k)) →
        Sends line { t with bitTime := t.cfgBitTime } start r' (k + 1) →
        Sends line { t with bitTime := t.cfgBitTime } start r k := by
      rintro _ rfl hbits hsends
      refine ⟨fun j hj hj' => Reaches.fire ?_, hsends.finish.fire⟩
      rcases eq_or_lt_of_le hj with rfl | hj
      · exact .refl (hbits k le_rfl (Nat.lt_succ_self k))
      · exact hsends.bits j hj hj'
    rw [hsend] at hevent
    by_cases hlast : k + 1 < 5
    · rw [if_pos hlast] at hevent
      obtain ⟨huart', hat, hbits⟩ :=
        h.fire (Nat.lt_succ_self k) (by omega) hevent rfl
      refine hrest _ rfl ?_ (ih hlast hat huart' (by omega))
      rw [hbit]
      exact hbits
    · rw [if_neg hlast] at hevent
      obtain rfl : k = 4 := by omega
      obtain ⟨huart', hat, hbits⟩ :=
        h.fire (Nat.lt_succ_self 4) (by omega) hevent rfl
      refine hrest _ rfl ?_ (sends_sending (t := { t with bitTime := t.cfgBitTime })
        (show 5 < t.writeCount by omega) hat huart')
      rw [hbit]
      exact hbits

/-- A UART that is not in use, with a line that is high. -/
structure Idle (t : Tmcuart) : Prop where
  active : t.flags.active = false
  lineHigh : t.flags.lineHigh = true
  txPin : t.txPin = true
  length : t.data.length = 10

/-- The state that is sent from. -/
def loaded (t : Tmcuart) (write : List (BitVec 8)) (readLen : ℕ) : Tmcuart :=
  { t with
    data := write ++ t.data.drop write.length
    flags := ⟨true, true, false, false, t.flags.pullup, t.flags.singleWire⟩
    writeCount := write.length * 8
    readCount := readLen * 8
    bitTime := t.cfgBitTime }

theorem dataBit_append {write rest : List (BitVec 8)} {k : ℕ} (hk : k < 8 * write.length) :
    dataBit (write ++ rest) k = dataBit write k := by
  unfold dataBit
  rw [List.getD_eq_getElem?_getD, List.getD_eq_getElem?_getD,
    List.getElem?_append_left (by omega)]

/-- A buffer whose first bit is low is sent with all its bits. -/
theorem sends_send (h : Idle t) {write : List (BitVec 8)} (hwrite : write ≠ [])
    (hlen : write.length ≤ 10) (hstart : dataBit write 0 = false) {readLen : ℕ}
    (hread : readLen ≤ 10) (start : ℕ) :
    ∃ t', t.send write readLen (BitVec.ofNat 32 start) = some t' ∧
      ∀ line, Sends line (loaded t write readLen) start ⟨start, start, t', true⟩ 0 := by
  have hpos : 0 < write.length := List.length_pos_iff.2 hwrite
  have hstart' : dataBit (write ++ t.data.drop write.length) 0 = false := by
    rwa [dataBit_append (by omega)]
  have hat : ∀ t' : Tmcuart, t'.waketime = BitVec.ofNat 32 start →
      AtBit start (write.length * 8) t.cfgBitTime ⟨start, start, t', true⟩ 0 := fun t' hwake =>
    ⟨rfl, by simp, by simpa using hwake, fun _ => by simp⟩
  unfold send
  rw [if_neg (by rw [h.active]; exact Bool.false_ne_true), if_neg (by omega)]
  simp only
  by_cases hnibble : write.length ≥ 1 ∧
      (write ++ t.data.drop write.length).getD 0 0 &&& 0x3f = 0x2a
  · rw [if_pos hnibble]
    refine ⟨_, rfl, fun line => ?_⟩
    have hsync : ∀ j < 6, dataBit (write ++ t.data.drop write.length) j = decide (j % 2 = 1) := by
      have hbyte : ∀ d : BitVec 8, d &&& 0x3f#8 = 0x2a#8 → ∀ j < 6,
          d.getLsbD j = decide (j % 2 = 1) := by
        decide +kernel
      intro j hj
      unfold dataBit
      rw [Nat.div_eq_of_lt (by omega), Nat.mod_eq_of_lt (by omega)]
      exact hbyte _ hnibble.2 j hj
    refine sends_syncing (t := { loaded t write readLen with bitTime := t.bitTime }) hsync
      (by change 6 ≤ write.length * 8; omega) (by decide) (hat _ rfl) ?_
    simp [syncing, loaded, hstart', h.lineHigh, h.txPin]
  · rw [if_neg hnibble]
    refine ⟨_, rfl, fun line => sends_sending (by change 0 < write.length * 8; omega)
      (hat _ rfl) ?_⟩
    simp [sending, loaded, hstart', h.lineHigh, h.txPin]

/-! ## The bits that are received -/

/-- A buffer in which the first bits were stored. -/
def writeBits (data : List (BitVec 8)) (bit : ℕ → Bool) : ℕ → List (BitVec 8)
  | 0 => data
  | j + 1 => writeBit (writeBits data bit j) j (bit j)

@[simp] theorem length_writeBits (data : List (BitVec 8)) (bit : ℕ → Bool) (n : ℕ) :
    (writeBits data bit n).length = data.length := by
  induction n with
  | zero => rfl
  | succ n ih => rw [writeBits, length_writeBit, ih]

theorem dataBit_writeBits {data : List (BitVec 8)} (bit : ℕ → Bool) {n : ℕ}
    (hn : n ≤ 8 * data.length) (i : ℕ) :
    dataBit (writeBits data bit n) i = if i < n then bit i else dataBit data i := by
  induction n with
  | zero => rfl
  | succ n ih =>
    rw [writeBits, dataBit_writeBit (by rw [length_writeBits]; omega), ih (by omega)]
    by_cases heq : i = n
    · rw [if_pos heq, if_pos (by omega), heq]
    · have hiff : i < n + 1 ↔ i < n := by omega
      simp only [if_neg heq, hiff]

/-- A UART that stores a bit next, with those before it stored. -/
structure Storing (t u : Tmcuart) (bit : ℕ → Bool) (j : ℕ) : Prop where
  func : u.func = .readEvent
  pos : u.pos = j
  readCount : u.readCount = t.readCount
  bitTime : u.bitTime = t.bitTime
  data : u.data = writeBits t.data bit j

/-- All bits were stored, and are reported. -/
structure Received (t : Tmcuart) (bit : ℕ → Bool) (r : TmcuartRun) : Prop where
  again : r.again = false
  flag : r.uart.flags.report = true
  readCount : r.uart.readCount = t.readCount
  data : r.uart.data = writeBits t.data bit t.readCount

/-- From one bit on, each is sampled and stored. -/
theorem receives_storing {u : Tmcuart} {bit : ℕ → Bool} {first j : ℕ} (hj : j < t.readCount)
    (hline : ∀ k < t.readCount, line (first + k * t.bitTime.toNat) = bit k)
    (hagain : r.again = true) (htime : r.time = first + j * t.bitTime.toNat)
    (hevent : r.uart.event r.uart.waketime (line r.time) = u.readEvent (line r.time))
    (hwake : u.waketime = r.uart.waketime) (h : Storing t u bit j) :
    Reaches line r (Received t bit) := by
  induction hleft : t.readCount - j generalizing r u j with
  | zero => omega
  | succ left ih =>
    have hbit : line r.time = bit j := by
      rw [htime]
      exact hline j hj
    have hdata : writeBit u.data u.pos (bit j) = writeBits t.data bit (j + 1) := by
      rw [writeBits, h.data, h.pos]
    refine Reaches.fire ?_
    unfold TmcuartRun.fire
    rw [if_pos hagain, hevent, hbit]
    unfold readEvent
    simp only
    rw [hdata, h.pos, h.readCount]
    by_cases hlast : j + 1 ≥ t.readCount
    · have heq : j + 1 = t.readCount := by omega
      rw [if_pos hlast]
      exact .refl ⟨rfl, rfl, rfl, by rw [← heq]; rfl⟩
    · rw [if_neg hlast]
      have hdelay : (u.waketime + u.bitTime - r.uart.waketime).toNat = t.bitTime.toNat := by
        rw [hwake, add_sub_cancel_left, h.bitTime]
      refine ih (not_le.1 hlast) rfl ?_ ?_ rfl ⟨h.func, rfl, rfl, h.bitTime, rfl⟩ (by omega)
      · simp only
        rw [hdelay, htime]
        ring
      · apply event_of_readEvent
        exact h.func

/-- What a line carries that is sampled from a time on : it is high until a bit starts, and then has
the bits of a buffer. -/
structure Carries (line : ℕ → Bool) (first start bitTime : ℕ) (buf : List (BitVec 8)) : Prop where
  pos : first < start
  le : start ≤ first + 64 * bitTime
  high : ∀ x, first ≤ x → x < start → line x = true
  bit : ∀ k < 8 * buf.length, ∀ x, start + k * bitTime ≤ x → x < start + (k + 1) * bitTime →
    line x = dataBit buf k

/-- A UART that looks for a start bit, before a sample. -/
structure Searching (t u : Tmcuart) (k : ℕ) : Prop where
  func : u.func = .readSyncEvent
  pos : u.pos = k
  readSync : u.flags.readSync = decide (0 < k)
  readCount : u.readCount = t.readCount
  bitTime : u.bitTime = t.bitTime
  data : u.data = t.data

/-- The start bit is found, and all bits are stored from it on. -/
theorem receives_searching {buf : List (BitVec 8)} (hbuf : buf ≠ [])
    (hstart : dataBit buf 0 = false) (hcount : t.readCount = 8 * buf.length) {first s : ℕ}
    (hline : Carries line first s t.bitTime.toNat buf) {k : ℕ}
    (hbefore : k = 0 ∨ first + (k - 1) * t.bitTime.toNat < s) (hagain : r.again = true)
    (htime : r.time = first + k * t.bitTime.toNat) (h : Searching t r.uart k) :
    Reaches line r (Received t (dataBit buf)) := by
  have hpos : 0 < buf.length := List.length_pos_iff.2 hbuf
  induction hleft : 65 - k generalizing r k with
  | zero =>
    have hk : 64 ≤ k - 1 := by omega
    have hle : first + 64 * t.bitTime.toNat ≤ first + (k - 1) * t.bitTime.toNat :=
      Nat.add_le_add_left (Nat.mul_le_mul_right _ hk) _
    have := hline.le
    omega
  | succ left ih =>
    rcases lt_or_ge (first + k * t.bitTime.toNat) s with hlt | hge
    · have hk : k < 64 := by
        have hmul : k * t.bitTime.toNat < 64 * t.bitTime.toNat := by
          have := hline.le
          omega
        exact Nat.lt_of_mul_lt_mul_right hmul
      have hhigh : line r.time = true := hline.high _ (by omega) (by omega)
      have hdelay : (r.uart.waketime + r.uart.bitTime - r.uart.waketime).toNat =
          t.bitTime.toNat := by
        rw [add_sub_cancel_left, h.bitTime]
      refine Reaches.fire ?_
      unfold TmcuartRun.fire
      rw [if_pos hagain, event_of_readSyncEvent h.func, hhigh]
      unfold readSyncEvent
      rw [if_neg (by simp), if_pos rfl]
      simp only
      rw [if_neg (by rw [h.pos]; omega)]
      refine ih (k := k + 1) (.inr (by simpa using hlt)) rfl ?_
        ⟨h.func, congrArg (· + 1) h.pos, by simp, h.readCount, h.bitTime, h.data⟩ (by omega)
      simp only
      rw [hdelay, htime]
      ring
    · have hk : 0 < k := Nat.pos_of_ne_zero fun hzero => by
        rw [hzero, zero_mul] at hge
        have := hline.pos
        omega
      have hnext : first + k * t.bitTime.toNat < s + t.bitTime.toNat := by
        have hlt := hbefore.resolve_left (by omega)
        have hsplit : k * t.bitTime.toNat = (k - 1) * t.bitTime.toNat + t.bitTime.toNat := by
          obtain ⟨k', rfl⟩ := Nat.exists_eq_succ_of_ne_zero hk.ne'
          exact Nat.succ_mul _ _
        omega
      have hbits : ∀ j < t.readCount,
          line (r.time + j * t.bitTime.toNat) = dataBit buf j := fun j hj => by
        refine hline.bit j (by omega) _ ?_ ?_
        · omega
        · rw [Nat.add_mul, one_mul]
          omega
      have hlow : line r.time = false := by
        have hzero := hbits 0 (by omega)
        rwa [zero_mul, add_zero, hstart] at hzero
      refine receives_storing (u := { r.uart with pos := 0, func := .readEvent }) (j := 0)
        (by omega) hbits hagain (by simp) ?_ rfl ⟨rfl, rfl, h.readCount, h.bitTime, h.data⟩
      rw [event_of_readSyncEvent h.func, hlow]
      unfold readSyncEvent
      rw [if_pos ⟨rfl, by rw [h.readSync, decide_eq_true hk]⟩]

/-- What is reported is the buffer that the line carried. -/
theorem Received.report {buf : List (BitVec 8)} (h : Received t (dataBit buf) r)
    (hcount : t.readCount = 8 * buf.length) (hlen : buf.length ≤ t.data.length) :
    r.uart.report = buf := by
  unfold Tmcuart.report
  rw [h.readCount, h.data, hcount, Nat.mul_div_cancel_left _ (by decide)]
  refine eq_of_dataBit (by simpa using hlen) fun i hi => ?_
  have hi' : i < 8 * buf.length := by
    rw [List.length_take] at hi
    omega
  have hbit : dataBit ((writeBits t.data (dataBit buf) (8 * buf.length)).take buf.length) i =
      dataBit (writeBits t.data (dataBit buf) (8 * buf.length)) i := by
    unfold dataBit
    rw [List.getD_eq_getElem?_getD, List.getElem?_take_of_lt (by omega),
      ← List.getD_eq_getElem?_getD]
  rw [hbit, dataBit_writeBits _ (by omega), if_pos hi']

/-- After a buffer was sent, an answer is received that starts while it is looked for. -/
theorem receives {buf : List (BitVec 8)} (hbuf : buf ≠ []) (hlen : buf.length ≤ 10)
    (hstart : dataBit buf 0 = false) {start' s : ℕ} (hsent : Finishes t start' r)
    (hsync : t.flags.readSync = false) (hcount : t.readCount = buf.length * 8)
    (hdata : t.data.length = 10)
    (hline : Carries line (r.time + (t.bitTime * 4).toNat) s t.bitTime.toNat buf) :
    Reaches line r fun r => r.again = false ∧ r.uart.flags.report = true ∧ r.uart.report = buf := by
  obtain ⟨k, huart⟩ := hsent.uart
  have hpos : 0 < buf.length := List.length_pos_iff.2 hbuf
  have hcount' : t.readCount = 8 * buf.length := by omega
  refine Reaches.fire ?_
  have hfire : r.fire line = ⟨r.time + (t.bitTime * 4).toNat, r.time,
      { t.sent (BitVec.ofNat 32 start') k with
        pos := 0
        func := .readSyncEvent
        waketime := r.uart.waketime + t.bitTime * 4 }, true⟩ := by
    have hevent : r.uart.event r.uart.waketime (line r.time) =
        ({ t.sent (BitVec.ofNat 32 start') k with
          pos := 0
          func := .readSyncEvent
          waketime := r.uart.waketime + t.bitTime * 4 }, true) := by
      rw [huart]
      exact if_neg (show t.readCount ≠ 0 by omega)
    unfold TmcuartRun.fire
    rw [if_pos hsent.atBit.again, hevent]
    simp only [add_sub_cancel_left]
  rw [hfire]
  refine Reaches.trans (receives_searching hbuf hstart hcount' hline (.inl rfl) rfl (by simp)
    ⟨rfl, rfl, hsync, rfl, rfl, rfl⟩) fun r hr => .refl ⟨hr.again, hr.flag, ?_⟩
  exact hr.report hcount' (by omega)

end Tmcuart

end Thinker
