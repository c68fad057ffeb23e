import Thinker.Tmcuart

/-!
# The messages of the UART of the stepper drivers

`MCU_TMC_uart_bitbang` makes the bytes of a message, with a CRC, into the bits of serial frames : a
start bit, the byte, and a stop bit. It reads a register out of the frames of an answer, and encodes
what it read to compare it with the answer, so that no other answer is taken for it
(`decodeRead_iff`).
-/

namespace Thinker

/-- What `_calc_crc8` does with a bit, with the CRC and what is left of the byte. -/
def crc8Bit (p : ℕ × ℕ) : ℕ × ℕ :=
  let crc := if (p.1 >>> 7) ^^^ (p.2 &&& 0x01) ≠ 0 then (p.1 <<< 1) ^^^ 0x07 else p.1 <<< 1
  (crc &&& 0xff, p.2 >>> 1)

/-- `_calc_crc8`. -/
def calcCrc8 (data : List (BitVec 8)) : ℕ :=
  data.foldl (fun crc b => (crc8Bit^[8] (crc, b.toNat)).1) 0

/-- `_add_serial_bits`. -/
def addSerialBits (data : List (BitVec 8)) : List (BitVec 8) :=
  let (out, pos) := data.foldl
    (fun (out, pos) d => (out ||| (((d.toNat <<< 1) ||| 0x200) <<< pos), pos + 10)) (0, 0)
  (List.range ((pos + 7) / 8)).map fun i => BitVec.ofNat 8 ((out >>> (i * 8)) &&& 0xff)

/-- `_encode_read`. -/
def encodeRead (sync addr reg : BitVec 8) : List (BitVec 8) :=
  let msg := [sync, addr, reg]
  addSerialBits (msg ++ [BitVec.ofNat 8 (calcCrc8 msg)])

/-- The bytes of `_encode_write` before the CRC. -/
def writeMsg (sync addr reg : BitVec 8) (val : ℕ) : List (BitVec 8) :=
  [sync, addr, reg, BitVec.ofNat 8 ((val >>> 24) &&& 0xff), BitVec.ofNat 8 ((val >>> 16) &&& 0xff),
    BitVec.ofNat 8 ((val >>> 8) &&& 0xff), BitVec.ofNat 8 (val &&& 0xff)]

/-- `_encode_write`. -/
def encodeWrite (sync addr reg : BitVec 8) (val : ℕ) : List (BitVec 8) :=
  let msg := writeMsg sync addr reg val
  addSerialBits (msg ++ [BitVec.ofNat 8 (calcCrc8 msg)])

/-- `_decode_read`. -/
def decodeRead (reg : BitVec 8) (data : List (BitVec 8)) : Option ℕ :=
  if data.length ≠ 10 then none
  else
    -- Convert data into a long integer for easy manipulation
    let mval := (data.foldl (fun (mval, pos) d => (mval ||| (d.toNat <<< pos), pos + 8)) (0, 0)).1
    -- Extract register value
    let val := (((mval >>> 31) &&& 0xff) <<< 24) ||| (((mval >>> 41) &&& 0xff) <<< 16) |||
      (((mval >>> 51) &&& 0xff) <<< 8) ||| ((mval >>> 61) &&& 0xff)
    -- Verify start/stop bits and crc
    let encodedData := encodeWrite 0x05 0xff reg val
    if data ≠ encodedData then none else some val

/-! ## Numbers that are put together -/

/-- A bit of numbers of some bits each, one behind the other. -/
def chunkBit (w : ℕ) (f : BitVec 8 → ℕ) (data : List (BitVec 8)) (i : ℕ) : Bool :=
  data[i / w]?.any fun d => (f d).testBit (i % w)

theorem chunkBit_cons {w : ℕ} (hw : 0 < w) (f : BitVec 8 → ℕ) (d : BitVec 8)
    (data : List (BitVec 8)) (i : ℕ) : chunkBit w f (d :: data) i =
      if i < w then (f d).testBit i else chunkBit w f data (i - w) := by
  unfold chunkBit
  split_ifs with h
  · rw [Nat.div_eq_of_lt h, Nat.mod_eq_of_lt h]
    rfl
  · have hle : w ≤ i := not_lt.1 h
    rw [Nat.div_eq_sub_div hw hle, Nat.mod_eq_sub_mod hle, List.getElem?_cons_succ]

/-- A loop that puts numbers of some bits each one behind the other. -/
def packChunks (w : ℕ) (f : BitVec 8 → ℕ) (p : ℕ × ℕ) (data : List (BitVec 8)) : ℕ × ℕ :=
  data.foldl (fun (out, pos) d => (out ||| (f d <<< pos), pos + w)) p

theorem packChunks_snd (w : ℕ) (f : BitVec 8 → ℕ) (p : ℕ × ℕ) (data : List (BitVec 8)) :
    (packChunks w f p data).2 = p.2 + w * data.length := by
  induction data generalizing p with
  | nil => rfl
  | cons d data ih =>
    change (packChunks w f (p.1 ||| (f d <<< p.2), p.2 + w) data).2 = _
    rw [ih, List.length_cons]
    ring

theorem testBit_packChunks {w : ℕ} (hw : 0 < w) {f : BitVec 8 → ℕ} (hf : ∀ d, f d < 2 ^ w)
    (p : ℕ × ℕ) (data : List (BitVec 8)) (i : ℕ) : (packChunks w f p data).1.testBit i =
      (p.1.testBit i || (decide (p.2 ≤ i) && chunkBit w f data (i - p.2))) := by
  induction data generalizing p with
  | nil => simp [packChunks, chunkBit]
  | cons d data ih =>
    change (packChunks w f (p.1 ||| (f d <<< p.2), p.2 + w) data).1.testBit i = _
    rw [ih, Nat.testBit_or, Nat.testBit_shiftLeft, chunkBit_cons hw, Bool.or_assoc]
    congr 1
    by_cases hle : p.2 ≤ i
    · by_cases hlt : i - p.2 < w
      · have hnot : ¬p.2 + w ≤ i := by omega
        simp [hle, hlt, hnot]
      · have hle' : p.2 + w ≤ i := by omega
        have hhigh : (f d).testBit (i - p.2) = false :=
          Nat.testBit_lt_two_pow ((hf d).trans_le (Nat.pow_le_pow_right (by decide) (by omega)))
        have hsub : i - (p.2 + w) = i - p.2 - w := by omega
        simp [hle, hlt, hle', hhigh, hsub]
    · have hnot : ¬p.2 + w ≤ i := by omega
      simp [hle, hnot]

/-! ## Serial frames -/

/-- A frame : a start bit that is low, the bits of a byte, and a stop bit that is high. -/
def frameBit (d : BitVec 8) (i : ℕ) : Bool :=
  if i = 0 then false else if i = 9 then true else d.getLsbD (i - 1)

/-- A bit of the frames of some bytes. -/
def serialBit (data : List (BitVec 8)) (i : ℕ) : Bool :=
  data[i / 10]?.any fun d => frameBit d (i % 10)

theorem testBit_frame (d : BitVec 8) (i : ℕ) :
    ((d.toNat <<< 1) ||| 0x200).testBit i = frameBit d i := by
  rw [Nat.testBit_or, Nat.testBit_shiftLeft, show 0x200 = 2 ^ 9 from rfl, Nat.testBit_two_pow]
  unfold frameBit
  rw [BitVec.testBit_toNat]
  by_cases hzero : i = 0
  · simp [hzero]
  · by_cases hnine : i = 9
    · simp [hnine]
    · simp [hzero, hnine, Nat.one_le_iff_ne_zero, Ne.symm hnine]

theorem frame_lt (d : BitVec 8) : (d.toNat <<< 1) ||| 0x200 < 2 ^ 10 := by
  have hd := d.isLt
  refine Nat.or_lt_two_pow ?_ (by decide)
  rw [Nat.shiftLeft_eq]
  omega

@[simp] theorem length_addSerialBits (data : List (BitVec 8)) :
    (addSerialBits data).length = (10 * data.length + 7) / 8 := by
  have hpos := packChunks_snd 10 (fun d => (d.toNat <<< 1) ||| 0x200) (0, 0) data
  unfold packChunks at hpos
  unfold addSerialBits
  simp only
  rw [List.length_map, List.length_range, hpos, Nat.zero_add]

/-- The buffer has the bits of the frames. -/
theorem dataBit_addSerialBits (data : List (BitVec 8)) (i : ℕ) :
    dataBit (addSerialBits data) i = serialBit data i := by
  set p := packChunks 10 (fun d => (d.toNat <<< 1) ||| 0x200) (0, 0) data with hp
  have hbit : p.1.testBit i = serialBit data i := by
    have hchunk : chunkBit 10 (fun d => (d.toNat <<< 1) ||| 0x200) data i = serialBit data i := by
      unfold chunkBit serialBit
      simp only [testBit_frame]
    rw [hp, testBit_packChunks (by decide) frame_lt]
    simpa using hchunk
  have hlen : p.2 = 10 * data.length := by
    rw [hp, packChunks_snd, Nat.zero_add]
  have hbuf : addSerialBits data = (List.range ((p.2 + 7) / 8)).map fun i =>
      BitVec.ofNat 8 ((p.1 >>> (i * 8)) &&& 0xff) := rfl
  rw [← hbit]
  unfold dataBit
  rw [hbuf, List.getD_eq_getElem?_getD, List.getElem?_map]
  by_cases hlt : i / 8 < (p.2 + 7) / 8
  · have hi : i / 8 * 8 + i % 8 = i := by omega
    rw [List.getElem?_range hlt, Option.map_some, Option.getD_some, BitVec.getLsbD_ofNat,
      Nat.testBit_and, Nat.testBit_shiftRight, hi]
    have hmod : i % 8 < 8 := Nat.mod_lt _ (by decide)
    rw [show 0xff = 2 ^ 8 - 1 from rfl, Nat.testBit_two_pow_sub_one]
    simp [hmod]
  · have hnone : (List.range ((p.2 + 7) / 8))[i / 8]? = none := by
      rw [List.getElem?_eq_none_iff, List.length_range]
      omega
    have hout : data[i / 10]? = none := by
      rw [List.getElem?_eq_none_iff]
      omega
    rw [hnone, hbit, serialBit, hout]
    simp

theorem dataBit_addSerialBits_zero (data : List (BitVec 8)) :
    dataBit (addSerialBits data) 0 = false := by
  rw [dataBit_addSerialBits]
  cases data <;> rfl

/-! ## Answers -/

/-- The bits of the number that a buffer is. -/
theorem testBit_mval (data : List (BitVec 8)) (i : ℕ) :
    (packChunks 8 BitVec.toNat (0, 0) data).1.testBit i = dataBit data i := by
  have hchunk : chunkBit 8 BitVec.toNat data i = dataBit data i := by
    unfold chunkBit dataBit
    rw [List.getD_eq_getElem?_getD]
    cases data[i / 8]? with
    | none => simp
    | some d => simp [BitVec.testBit_toNat]
  rw [testBit_packChunks (by decide) fun d => d.isLt]
  simpa using hchunk

/-- A byte is read out of the frames. -/
theorem frame_byte {mval : ℕ} {data : List (BitVec 8)} (h : ∀ i, mval.testBit i = serialBit data i)
    {k : ℕ} (hk : k < data.length) : (mval >>> (10 * k + 1)) &&& 0xff = data[k].toNat := by
  refine Nat.eq_of_testBit_eq fun i => ?_
  rw [Nat.testBit_and, Nat.testBit_shiftRight, h, show 0xff = 2 ^ 8 - 1 from rfl,
    Nat.testBit_two_pow_sub_one, BitVec.testBit_toNat]
  by_cases hi : i < 8
  · have hdiv : (10 * k + 1 + i) / 10 = k := by omega
    have hmod : (10 * k + 1 + i) % 10 = i + 1 := by omega
    unfold serialBit
    rw [hdiv, hmod, List.getElem?_eq_getElem hk]
    simp [frameBit, hi]
    omega
  · simp [hi, BitVec.getLsbD_of_ge _ _ (not_lt.1 hi)]

/-- A number of 32 bits is put together from its bytes. -/
theorem bytes_or {v : ℕ} (hv : v < 2 ^ 32) :
    (((v >>> 24) &&& 0xff) <<< 24) ||| (((v >>> 16) &&& 0xff) <<< 16) |||
      (((v >>> 8) &&& 0xff) <<< 8) ||| (v &&& 0xff) = v := by
  refine Nat.eq_of_testBit_eq fun i => ?_
  rw [show 0xff = 2 ^ 8 - 1 from rfl]
  simp only [Nat.testBit_or, Nat.testBit_shiftLeft, Nat.testBit_and, Nat.testBit_shiftRight,
    Nat.testBit_two_pow_sub_one]
  have hbyte : i < 8 ∨ (8 ≤ i ∧ i < 16) ∨ (16 ≤ i ∧ i < 24) ∨ (24 ≤ i ∧ i < 32) ∨ 32 ≤ i := by
    omega
  rcases hbyte with hi | ⟨hi, hi'⟩ | ⟨hi, hi'⟩ | ⟨hi, hi'⟩ | hi
  · simp [hi, show ¬8 ≤ i by omega, show ¬16 ≤ i by omega, show ¬24 ≤ i by omega]
  · simp [hi, show ¬i < 8 by omega, show ¬16 ≤ i by omega, show ¬24 ≤ i by omega,
      show i - 8 < 8 by omega]
  · simp [hi, show ¬i < 8 by omega, show 8 ≤ i by omega, show ¬24 ≤ i by omega,
      show ¬i - 8 < 8 by omega, show i - 16 < 8 by omega]
  · simp [hi, show ¬i < 8 by omega, show 8 ≤ i by omega, show 16 ≤ i by omega,
      show ¬i - 8 < 8 by omega, show ¬i - 16 < 8 by omega, show i - 24 < 8 by omega]
  · have hzero : v.testBit i = false :=
      Nat.testBit_lt_two_pow (hv.trans_le (Nat.pow_le_pow_right (by decide) hi))
    simp [hzero, show ¬i < 8 by omega, show ¬i - 8 < 8 by omega, show ¬i - 16 < 8 by omega,
      show ¬i - 24 < 8 by omega]

theorem length_encodeWrite (sync addr reg : BitVec 8) (val : ℕ) :
    (encodeWrite sync addr reg val).length = 10 := by
  simp [encodeWrite, writeMsg]

/-- The value is read out of a message that writes it. -/
theorem decodeRead_encodeWrite (reg : BitVec 8) {v : ℕ} (hv : v < 2 ^ 32) :
    decodeRead reg (encodeWrite 0x05 0xff reg v) = some v := by
  set msg := writeMsg 0x05 0xff reg v with hmsg
  set data := msg ++ [BitVec.ofNat 8 (calcCrc8 msg)] with hdata
  set mval := (packChunks 8 BitVec.toNat (0, 0) (encodeWrite 0x05 0xff reg v)).1 with hmval
  have hbit : ∀ i, mval.testBit i = serialBit data i := fun i => by
    rw [hmval, testBit_mval]
    exact dataBit_addSerialBits data i
  have hlen : data.length = 8 := rfl
  have hval : (((mval >>> 31) &&& 0xff) <<< 24) ||| (((mval >>> 41) &&& 0xff) <<< 16) |||
      (((mval >>> 51) &&& 0xff) <<< 8) ||| ((mval >>> 61) &&& 0xff) = v := by
    have hbyte : ∀ x, (BitVec.ofNat 8 (x &&& 0xff)).toNat = x &&& 0xff := fun x => by
      rw [BitVec.toNat_ofNat, Nat.mod_eq_of_lt (Nat.and_lt_two_pow x (by decide))]
    rw [frame_byte (k := 3) hbit (by omega), frame_byte (k := 4) hbit (by omega),
      frame_byte (k := 5) hbit (by omega), frame_byte (k := 6) hbit (by omega)]
    change (BitVec.ofNat 8 ((v >>> 24) &&& 0xff)).toNat <<< 24 |||
      (BitVec.ofNat 8 ((v >>> 16) &&& 0xff)).toNat <<< 16 |||
      (BitVec.ofNat 8 ((v >>> 8) &&& 0xff)).toNat <<< 8 |||
      (BitVec.ofNat 8 (v &&& 0xff)).toNat = v
    rw [hbyte, hbyte, hbyte, hbyte]
    exact bytes_or hv
  unfold decodeRead
  rw [if_neg (by rw [length_encodeWrite]; decide)]
  change (if encodeWrite 0x05 0xff reg v ≠ encodeWrite 0x05 0xff reg ((((mval >>> 31) &&& 0xff) <<<
    24) ||| (((mval >>> 41) &&& 0xff) <<< 16) ||| (((mval >>> 51) &&& 0xff) <<< 8) |||
      ((mval >>> 61) &&& 0xff)) then none else some _) = _
  rw [hval, if_neg (not_not.2 rfl)]
  exact congrArg some hval

/-- An answer is taken for a value if it is the message that writes the value, and for no other. -/
theorem decodeRead_iff (reg : BitVec 8) (buf : List (BitVec 8)) {v : ℕ} (hv : v < 2 ^ 32) :
    decodeRead reg buf = some v ↔ buf = encodeWrite 0x05 0xff reg v := by
  constructor
  · intro h
    unfold decodeRead at h
    simp only at h
    split_ifs at h with hlen hdata
    rw [← Option.some_inj.1 h]
    exact not_not.1 hdata
  · rintro rfl
    exact decodeRead_encodeWrite reg hv

/-! ## A request and its answer -/

namespace Tmcuart

/-- A request is sent with all its bits, and the answer of the driver is received and decoded. -/
theorem transfers {t : Tmcuart} (h : Idle t) {write : List (BitVec 8)} (hwrite : write ≠ [])
    (hlen : write.length ≤ 10) (hstart : dataBit write 0 = false) {readLen : ℕ}
    (hread : readLen ≤ 10) (start : ℕ) :
    ∃ t', t.send write readLen (BitVec.ofNat 32 start) = some t' ∧ ∀ line,
      (∀ k < 8 * write.length, Reaches line ⟨start, start, t', true⟩ fun r =>
        SendsBit start (8 * write.length) t.cfgBitTime r k (dataBit write k)) ∧
      (Reaches line ⟨start, start, t', true⟩ fun r =>
        r.uart.func = .sendFinishEvent ∧
        AtBit start (8 * write.length) t.cfgBitTime r (8 * write.length) ∧
        ∀ (bytes : List (BitVec 8)) (s : ℕ), bytes ≠ [] →
          (addSerialBits bytes).length = readLen →
          Carries line (r.time + (t.cfgBitTime * 4).toNat) s t.cfgBitTime.toNat
            (addSerialBits bytes) →
          Reaches line r fun r => r.again = false ∧ r.uart.flags.report = true ∧
            r.uart.report = addSerialBits bytes) ∧
      ∀ (reg : BitVec 8) (buf : List (BitVec 8)) (v : ℕ), v < 2 ^ 32 →
        (decodeRead reg buf = some v ↔ buf = encodeWrite 0x05 0xff reg v) := by
  obtain ⟨t', hsend, hsends⟩ := sends_send h hwrite hlen hstart hread start
  refine ⟨t', hsend, fun line => ⟨fun k hk => ?_, ?_, fun reg buf v => decodeRead_iff reg buf⟩⟩
  · have hbit := (hsends line).bits k (Nat.zero_le k)
      (by change k < write.length * 8; omega)
    change Reaches line _ fun r => SendsBit start (write.length * 8) t.cfgBitTime r k
      (dataBit (write ++ t.data.drop write.length) k) at hbit
    rwa [dataBit_append hk, Nat.mul_comm] at hbit
  · refine (hsends line).finish.trans fun r hr => .refl ?_
    obtain ⟨k, huart⟩ := hr.uart
    have hat := hr.atBit
    change AtBit start (write.length * 8) t.cfgBitTime r (write.length * 8) at hat
    refine ⟨by rw [huart]; rfl, by rwa [Nat.mul_comm], fun bytes s hbytes hcount hline => ?_⟩
    have hne : addSerialBits bytes ≠ [] := List.ne_nil_of_length_pos (by
      have := List.length_pos_iff.2 hbytes
      rw [length_addSerialBits]
      omega)
    refine receives hne (hcount.trans_le hread) (dataBit_addSerialBits_zero bytes) hr rfl ?_ ?_
      hline
    · rw [hcount]
      rfl
    · have hdata := h.length
      simp only [loaded, List.length_append, List.length_drop]
      omega

/-- A UART that is not in use, as it is configured. -/
def idleUart : Tmcuart :=
  ⟨.sendEvent, 0, true, ⟨true, false, false, false, true, true⟩, 0, 0, 0, 400, 400,
    List.replicate 10 0⟩

/-- A request to read a register. -/
theorem transfers_encodeRead : ∃ t', idleUart.send (encodeRead 0xf5 0 0x6f) 10 1000 = some t' ∧
    ∀ line, ∀ k < 40, Reaches line ⟨1000, 1000, t', true⟩ fun r =>
      SendsBit 1000 40 400 r k (dataBit (encodeRead 0xf5 0 0x6f) k) := by
  have hidle : Idle idleUart := ⟨rfl, rfl, rfl, rfl⟩
  have hne : encodeRead 0xf5 0 0x6f ≠ [] := by decide +kernel
  have hread : 10 ≤ 10 := le_rfl
  obtain ⟨t', hsend, hbits⟩ :=
    transfers hidle hne (by decide +kernel) (by decide +kernel) hread 1000
  exact ⟨t', hsend, fun line k hk => (hbits line).1 k hk⟩

end Tmcuart

end Thinker
