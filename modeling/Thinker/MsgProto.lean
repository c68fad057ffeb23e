import Thinker.MessageBlock
import Mathlib.Data.Nat.Bitwise

/-!
# Message blocks in Python

`MessageParser` of `msgproto.py` checks message blocks and makes them, as `msgblock.c` and
`serialqueue.c` do. A list of Python holds numbers, and can hold other lists.

`check_packet` accepts the same blocks as `msgblock_check` (`agrees`). `encode` appends the list of
the two bytes of the crc as one element, and not the bytes. So no list that it returns is a block,
and none is accepted, whatever follows ; with the bytes in place of the list it would be
(`not_framed_encode`).
-/

namespace Thinker

/-- An element of a list. -/
inductive PyItem where
  | int (n : ℕ)
  | list (l : List ℕ)
  deriving DecidableEq, Repr

namespace PyItem

/-- The number of an element, where a list would be a `TypeError`. -/
def int? : PyItem → Option ℕ
  | int n => some n
  | list _ => none

/-- The numbers that an element consists of. -/
def flat : PyItem → List ℕ
  | int n => [n]
  | list l => l

end PyItem

/-- Bytes as a list of Python. -/
def pyBytes (buf : List UInt8) : List PyItem :=
  buf.map fun b => .int b.toNat

namespace MessageParser

/-- One turn of the loop of `crc16_ccitt` in `msgproto.py`. -/
def crcTurn (crc data : ℕ) : ℕ :=
  let data := data ^^^ (crc &&& 0xff)
  let data := data ^^^ ((data &&& 0x0f) <<< 4)
  ((data <<< 8) ||| (crc >>> 8)) ^^^ (data >>> 4) ^^^ (data <<< 3)

/-- `crc16_ccitt` of `msgproto.py`. -/
def crc16Ccitt (buf : List ℕ) : List ℕ :=
  let crc := buf.foldl crcTurn 0xffff
  [crc >>> 8, crc &&& 0xff]

/-- `MessageParser.check_packet`. `none` is a `TypeError`. -/
def checkPacket (s : List PyItem) : Option ℤ :=
  if s.length < messageMin then some 0
  else do
    let msglen ← (s.getD 0 (.list [])).int?
    if msglen < messageMin ∨ msglen > messageMax then some (-1)
    else
      let msgseq ← (s.getD 1 (.list [])).int?
      if Nat.ldiff msgseq messageSeqMask ≠ messageDest then some (-1)
      -- Need more data
      else if s.length < msglen then some 0
      else if s.getD (msglen - 1) (.list []) ≠ .int messageSync.toNat then some (-1)
      else
        let msgcrc := (s.drop (msglen - 3)).take 2
        let data ← (s.take (msglen - 3)).mapM PyItem.int?
        if (crc16Ccitt data).map .int ≠ msgcrc then some (-1) else some msglen

/-- `MessageParser.encode`. -/
def encode (seq : ℤ) (cmd : List UInt8) : List PyItem :=
  let msglen := messageMin + cmd.length
  let seq := (Int.land seq messageSeqMask).toNat ||| messageDest
  let out := [msglen, seq] ++ cmd.map UInt8.toNat
  out.map .int ++ [.list (crc16Ccitt out)] ++ [.int messageSync.toNat]

end MessageParser

/-- The header and the trailer that `build_and_send_command` puts around commands. -/
def fillHeaderTrailer (sendSeq : ℕ) (cmd : List UInt8) : List UInt8 :=
  let len := cmd.length + messageMin
  let buf := [UInt8.ofNat len, UInt8.ofNat (messageDest ||| (sendSeq &&& messageSeqMask))] ++ cmd
  let crc := crc16Ccitt buf
  buf ++ [(crc >>> 8).toUInt8, (crc &&& 0xff).toUInt8, messageSync]

/-! ## The two checks -/

namespace MessageParser

theorem crcTurn_eq (crc : UInt16) (data : UInt8) :
    crcTurn crc.toNat data.toNat = (crc16Byte crc data).toNat := by
  have hmask : ∀ n, n &&& 0xff = n % 2 ^ 8 := fun n => Nat.and_two_pow_sub_one_eq_mod n 8
  have hnibble : ∀ n, n < 2 ^ 8 → (n &&& 0x0f) <<< 4 = n <<< 4 % 2 ^ 8 := by
    intro n hn
    rw [show (0x0f : ℕ) = 2 ^ 4 - 1 from rfl, Nat.and_two_pow_sub_one_eq_mod, Nat.shiftLeft_eq,
      Nat.shiftLeft_eq]
    omega
  have hcrc := crc.toNat_lt
  unfold crcTurn crc16Byte
  simp only [UInt16.toNat_xor, UInt16.toNat_or, UInt16.toNat_shiftLeft, UInt16.toNat_shiftRight,
    UInt8.toNat_xor, UInt8.toNat_shiftLeft, UInt8.toNat_shiftRight, UInt8.toNat_toUInt16,
    UInt16.toNat_toUInt8, hmask, show (4 : UInt8).toNat % 8 = 4 from rfl,
    show (8 : UInt16).toNat % 16 = 8 from rfl, show (3 : UInt16).toNat % 16 = 3 from rfl]
  generalize hd : data.toNat ^^^ crc.toNat % 2 ^ 8 = d
  have hd8 : d < 2 ^ 8 := by
    rw [← hd]
    exact Nat.xor_lt_two_pow data.toNat_lt (Nat.mod_lt _ (by decide))
  rw [hnibble d hd8]
  generalize he : d ^^^ d <<< 4 % 2 ^ 8 = e
  have he8 : e < 2 ^ 8 := by
    rw [← he]
    exact Nat.xor_lt_two_pow hd8 (Nat.mod_lt _ (by decide))
  have h8 : e <<< 8 % 2 ^ 16 = e <<< 8 := by
    rw [Nat.shiftLeft_eq]
    omega
  have h3 : e <<< 3 % 2 ^ 16 = e <<< 3 := by
    rw [Nat.shiftLeft_eq]
    omega
  rw [h8, h3]

theorem foldl_crcTurn (buf : List UInt8) (crc : UInt16) :
    (buf.map UInt8.toNat).foldl crcTurn crc.toNat = (buf.foldl crc16Byte crc).toNat := by
  induction buf generalizing crc with
  | nil => rfl
  | cons b buf ih =>
    rw [List.map_cons, List.foldl_cons, List.foldl_cons, crcTurn_eq]
    exact ih (crc16Byte crc b)

/-- The crc of Python is that of C, as two bytes. -/
theorem crc16Ccitt_eq (buf : List UInt8) : crc16Ccitt (buf.map UInt8.toNat) =
    [(Thinker.crc16Ccitt buf >>> 8).toUInt8.toNat,
      (Thinker.crc16Ccitt buf &&& 0xff).toUInt8.toNat] := by
  have hfold : (buf.map UInt8.toNat).foldl crcTurn 0xffff = (Thinker.crc16Ccitt buf).toNat :=
    foldl_crcTurn buf 0xffff
  unfold crc16Ccitt
  rw [hfold]
  generalize Thinker.crc16Ccitt buf = crc
  have hcrc := crc.toNat_lt
  have hmask : crc.toNat &&& 0xff = crc.toNat % 2 ^ 8 := Nat.and_two_pow_sub_one_eq_mod _ 8
  have hhigh : crc.toNat >>> 8 < 2 ^ 8 := by
    rw [Nat.shiftRight_eq_div_pow]
    omega
  simp only [UInt16.toNat_toUInt8, UInt16.toNat_shiftRight, UInt16.toNat_and,
    show (8 : UInt16).toNat % 16 = 8 from rfl, show (0xff : UInt16).toNat = 0xff from rfl,
    Nat.mod_eq_of_lt hhigh, hmask, Nat.mod_mod]

/-- Two bytes are those of a crc just if it is put together from them. -/
theorem crc_eq_iff (crc : UInt16) (high low : UInt8) :
    (high.toUInt16 <<< 8 ||| low.toUInt16) = crc ↔
      (crc >>> 8).toUInt8 = high ∧ (crc &&& 0xff).toUInt8 = low := by
  have hlow := low.toNat_lt
  have hhigh := high.toNat_lt
  have hcrc := crc.toNat_lt
  have hput : (high.toUInt16 <<< 8 ||| low.toUInt16).toNat = 2 ^ 8 * high.toNat + low.toNat := by
    rw [UInt16.toNat_or, UInt16.toNat_shiftLeft, UInt8.toNat_toUInt16, UInt8.toNat_toUInt16,
      show (8 : UInt16).toNat % 16 = 8 from rfl, Nat.shiftLeft_eq, Nat.mod_eq_of_lt (by omega),
      mul_comm, ← Nat.two_pow_add_eq_or_of_lt hlow]
  have hmask : crc.toNat &&& 0xff = crc.toNat % 2 ^ 8 := Nat.and_two_pow_sub_one_eq_mod _ 8
  rw [← UInt16.toNat_inj, ← UInt8.toNat_inj, ← UInt8.toNat_inj, hput, UInt16.toNat_toUInt8,
    UInt16.toNat_toUInt8, UInt16.toNat_shiftRight, UInt16.toNat_and,
    show (8 : UInt16).toNat % 16 = 8 from rfl, show (0xff : UInt16).toNat = 0xff from rfl, hmask,
    Nat.shiftRight_eq_div_pow]
  omega

@[simp] theorem length_pyBytes (buf : List UInt8) : (pyBytes buf).length = buf.length :=
  List.length_map _

theorem pyBytes_append (s t : List UInt8) : pyBytes (s ++ t) = pyBytes s ++ pyBytes t :=
  List.map_append

theorem getD_pyBytes {buf : List UInt8} {i : ℕ} (hi : i < buf.length) (d : PyItem) :
    (pyBytes buf).getD i d = .int (buf.getD i 0).toNat := by
  unfold pyBytes
  rw [List.getD_eq_getElem _ _ (by rwa [List.length_map]), List.getElem_map,
    List.getD_eq_getElem _ _ hi]

theorem take_two_drop {α : Type*} {l : List α} {k : ℕ} (hk : k + 1 < l.length) (d : α) :
    (l.drop k).take 2 = [l.getD k d, l.getD (k + 1) d] := by
  rw [List.drop_eq_getElem_cons (by omega), List.drop_eq_getElem_cons hk,
    List.getD_eq_getElem _ _ (by omega), List.getD_eq_getElem _ _ hk]
  rfl

theorem mapM_pyBytes (buf : List UInt8) :
    (pyBytes buf).mapM PyItem.int? = some (buf.map UInt8.toNat) := by
  induction buf with
  | nil => rfl
  | cons b buf ih =>
    unfold pyBytes at ih ⊢
    rw [List.map_cons, List.mapM_cons, ih]
    rfl

/-- The sequence byte has the destination bits just if they are left by the mask. -/
theorem ldiff_seqMask (b : UInt8) :
    Nat.ldiff b.toNat messageSeqMask = messageDest ↔ b &&& 0xf0 = 0x10 := by
  have hall : ∀ n < 2 ^ 8, Nat.ldiff n messageSeqMask = n &&& 0xf0 := by decide +kernel
  rw [hall _ b.toNat_lt, ← UInt8.toNat_inj]
  rfl

/-- `check_packet` goes by the tests that the C code has. -/
theorem checkPacket_pyBytes (s : List UInt8) :
    checkPacket (pyBytes s) = some (match checkBlock s with
      | .more => 0
      | .error => -1
      | .valid msglen => msglen) := by
  unfold checkPacket checkBlock
  rw [length_pyBytes]
  by_cases hmin : s.length < messageMin
  · rw [if_pos hmin, if_pos hmin]
  have hlen : 5 ≤ s.length := not_lt.1 hmin
  rw [if_neg hmin, if_neg hmin, getD_pyBytes (by omega), getD_pyBytes (by omega)]
  simp only [PyItem.int?, Option.bind_eq_bind, Option.bind_some, ne_eq, ldiff_seqMask]
  by_cases hsize : (s.getD 0 0).toNat < messageMin ∨ (s.getD 0 0).toNat > messageMax
  · rw [if_pos hsize, if_pos hsize]
  by_cases hseq : s.getD 1 0 &&& 0xf0 = 0x10
  swap
  · rw [if_neg hsize, if_neg hsize, if_pos hseq, if_pos hseq]
  rw [if_neg hsize, if_neg hsize, if_neg (not_not.2 hseq), if_neg (not_not.2 hseq)]
  by_cases hfull : s.length < (s.getD 0 0).toNat
  · rw [if_pos hfull, if_pos hfull]
  rw [if_neg hfull, if_neg hfull]
  generalize (s.getD 0 0).toNat = msglen at hsize hfull ⊢
  have hmsglen : 5 ≤ msglen := by
    unfold messageMin at hsize
    omega
  rw [getD_pyBytes (by omega)]
  simp only [PyItem.int.injEq, UInt8.toNat_inj]
  by_cases hsync : s.getD (msglen - 1) 0 = messageSync
  swap
  · rw [if_pos hsync, if_pos hsync]
  rw [if_neg (not_not.2 hsync), if_neg (not_not.2 hsync)]
  have hcrc : (crc16Ccitt ((s.take (msglen - 3)).map UInt8.toNat)).map PyItem.int =
      ((pyBytes s).drop (msglen - 3)).take 2 ↔ Thinker.crc16Ccitt (s.take (msglen - 3)) =
        (s.getD (msglen - 3) 0).toUInt16 <<< 8 ||| (s.getD (msglen - 2) 0).toUInt16 := by
    rw [take_two_drop (by rw [length_pyBytes]; omega) (.list []), getD_pyBytes (by omega),
      getD_pyBytes (by omega), show msglen - 3 + 1 = msglen - 2 by omega, crc16Ccitt_eq,
      eq_comm (b := _ ||| _), crc_eq_iff]
    simp only [List.map_cons, List.map_nil, List.cons.injEq, PyItem.int.injEq, UInt8.toNat_inj,
      and_true]
  have htake : (pyBytes s).take (msglen - 3) = pyBytes (s.take (msglen - 3)) := List.map_take.symm
  rw [htake, mapM_pyBytes, Option.bind_some]
  by_cases heq : Thinker.crc16Ccitt (s.take (msglen - 3)) =
      (s.getD (msglen - 3) 0).toUInt16 <<< 8 ||| (s.getD (msglen - 2) 0).toUInt16
  · rw [if_neg (not_not.2 (hcrc.2 heq)), if_neg (not_not.2 heq)]
  · rw [if_pos (mt hcrc.1 heq), if_pos heq]

/-- The two checks accept the same blocks, and ask for more where the other one does. -/
structure Agrees (s : List UInt8) : Prop where
  accepts : ∀ n : ℤ, 0 < n → (checkPacket (pyBytes s) = some n ↔ (msgblockCheck false s).1 = n)
  more : checkPacket (pyBytes s) = some 0 ↔ (msgblockCheck false s).1 = 0

/-- The label `error` discards a byte at least. -/
theorem msgblockError_neg {s : List UInt8} (h : s ≠ []) : (msgblockError s).1 < 0 := by
  have hlen := List.length_pos_iff.2 h
  unfold msgblockError
  cases memchrSync s with
  | some i =>
    show -((i : ℤ) + 1) < 0
    omega
  | none =>
    show -(s.length : ℤ) < 0
    omega

theorem msgblockCheck_eq (s : List UInt8) : (msgblockCheck false s).1 =
    match checkBlock s with
    | .more => 0
    | .error => (msgblockError s).1
    | .valid msglen => msglen := by
  unfold msgblockCheck
  by_cases hmin : s.length < messageMin
  · rw [if_pos hmin, checkBlock, if_pos hmin]
  · rw [if_neg hmin, if_neg Bool.false_ne_true]
    cases checkBlock s <;> rfl

theorem agrees (s : List UInt8) : Agrees s := by
  have hneg : checkBlock s = .error → (msgblockError s).1 < 0 := fun h =>
    msgblockError_neg fun hnil => by
      rw [hnil] at h
      exact absurd h (by decide)
  refine ⟨fun n hn => ?_, ?_⟩
  all_goals rw [checkPacket_pyBytes, msgblockCheck_eq]
  · cases hblock : checkBlock s with
    | more => simp [hn.ne]
    | error =>
      have := hneg hblock
      simp only [Option.some_inj]
      omega
    | valid msglen => simp
  · cases hblock : checkBlock s with
    | more => simp
    | error => simpa using (hneg hblock).ne
    | valid msglen => simp

/-! ## The blocks that are made -/

/-- `encode` gives the block that is sent, and `check_packet` accepts it whatever follows. -/
structure Framed (seq : ℕ) (cmd : List UInt8) (out : List PyItem) : Prop where
  eq_frame : out = pyBytes (fillHeaderTrailer seq cmd)
  accepts : ∀ rest : List UInt8,
    checkPacket (out ++ pyBytes rest) = some ((fillHeaderTrailer seq cmd).length : ℤ)

theorem length_fillHeaderTrailer (seq : ℕ) (cmd : List UInt8) :
    (fillHeaderTrailer seq cmd).length = cmd.length + 5 := by
  simp [fillHeaderTrailer]

/-- The header and the commands of a block. -/
def blockHead (seq : ℕ) (cmd : List UInt8) : List UInt8 :=
  [UInt8.ofNat (cmd.length + messageMin), UInt8.ofNat (wireSeq seq)] ++ cmd

theorem fillHeaderTrailer_eq (seq : ℕ) (cmd rest : List UInt8) :
    fillHeaderTrailer seq cmd ++ rest = blockHead seq cmd ++
      (Thinker.crc16Ccitt (blockHead seq cmd) >>> 8).toUInt8 ::
        (Thinker.crc16Ccitt (blockHead seq cmd) &&& 0xff).toUInt8 :: messageSync :: rest := by
  unfold fillHeaderTrailer blockHead wireSeq
  dsimp only
  rw [List.append_assoc]
  rfl

theorem length_blockHead (seq : ℕ) (cmd : List UInt8) :
    (blockHead seq cmd).length = cmd.length + 2 := by
  simp [blockHead]

theorem toNat_blockHead {cmd : List UInt8} (hcmd : cmd.length ≤ 59) :
    (UInt8.ofNat (cmd.length + messageMin)).toNat = cmd.length + 5 :=
  UInt8.toNat_ofNat_of_lt' (by
    unfold messageMin
    have : UInt8.size = 256 := rfl
    omega)

theorem toNat_wireSeq (seq : ℕ) : (UInt8.ofNat (wireSeq seq)).toNat = 16 + seq % 16 := by
  rw [wireSeq_eq]
  refine UInt8.toNat_ofNat_of_lt' ?_
  have := Nat.mod_lt seq (by decide : 0 < 16)
  have : UInt8.size = 256 := rfl
  omega

theorem ldiff_wireSeq (seq : ℕ) :
    Nat.ldiff (16 + seq % 16) messageSeqMask = messageDest := by
  have hall : ∀ n < 16, Nat.ldiff (16 + n) messageSeqMask = messageDest := by decide +kernel
  exact hall _ (Nat.mod_lt _ (by decide))

/-- A block that is sent is found at the start of a buffer. -/
theorem checkBlock_fillHeaderTrailer (seq : ℕ) {cmd : List UInt8} (hcmd : cmd.length ≤ 59)
    (rest : List UInt8) :
    checkBlock (fillHeaderTrailer seq cmd ++ rest) = .valid (cmd.length + 5) := by
  have hlen := length_blockHead seq cmd
  have hbehind : ∀ (j : ℕ) (t : List UInt8),
      (blockHead seq cmd ++ t).getD (cmd.length + 2 + j) 0 = t.getD j 0 := by
    intro j t
    rw [List.getD_append_right _ _ _ _ (by omega), hlen, Nat.add_sub_cancel_left]
  have hfirst : ∀ t : List UInt8, (blockHead seq cmd ++ t).getD 0 0 =
      UInt8.ofNat (cmd.length + messageMin) := fun _ => rfl
  have hsecond : ∀ t : List UInt8, (blockHead seq cmd ++ t).getD 1 0 =
      UInt8.ofNat (wireSeq seq) := fun _ => rfl
  have hseq : UInt8.ofNat (wireSeq seq) &&& 0xf0 = 0x10 := by
    rw [← ldiff_seqMask, toNat_wireSeq]
    exact ldiff_wireSeq seq
  rw [fillHeaderTrailer_eq]
  generalize ht : (Thinker.crc16Ccitt (blockHead seq cmd) >>> 8).toUInt8 ::
    (Thinker.crc16Ccitt (blockHead seq cmd) &&& 0xff).toUInt8 :: messageSync :: rest = t
  have htlen : 3 ≤ t.length := by
    rw [← ht]
    simp
  have htotal : (blockHead seq cmd ++ t).length = cmd.length + 2 + t.length := by
    rw [List.length_append, hlen]
  unfold checkBlock
  rw [htotal, hfirst, hsecond, if_neg (by unfold messageMin; omega)]
  dsimp only
  rw [toNat_blockHead hcmd, if_neg (by unfold messageMin messageMax; omega),
    if_neg (not_not.2 hseq), if_neg (by omega),
    show cmd.length + 5 - 1 = cmd.length + 2 + 2 by omega,
    show cmd.length + 5 - 3 = cmd.length + 2 + 0 by omega,
    show cmd.length + 5 - 2 = cmd.length + 2 + 1 by omega, hbehind, hbehind, hbehind,
    Nat.add_zero, ← hlen, List.take_left, ← ht]
  have hcrc := (crc_eq_iff (Thinker.crc16Ccitt (blockHead seq cmd)) _ _).2 ⟨rfl, rfl⟩
  exact (if_neg (not_not.2 rfl)).trans (if_neg (not_not.2 hcrc.symm))

theorem encode_eq (seq : ℕ) {cmd : List UInt8} (hcmd : cmd.length ≤ 59) :
    encode seq cmd = pyBytes (blockHead seq cmd) ++
      [.list (crc16Ccitt ((blockHead seq cmd).map UInt8.toNat)), .int messageSync.toNat] := by
  have hout : [messageMin + cmd.length, (Int.land seq messageSeqMask).toNat ||| messageDest] ++
      cmd.map UInt8.toNat = (blockHead seq cmd).map UInt8.toNat := by
    have hseq : (Int.land seq messageSeqMask).toNat ||| messageDest = 16 + seq % 16 := by
      rw [← wireSeq_eq, wireSeq, Nat.or_comm]
      rfl
    unfold blockHead
    rw [hseq, List.map_append, List.map_cons, List.map_cons, toNat_blockHead hcmd, toNat_wireSeq,
      Nat.add_comm]
    rfl
  unfold encode
  dsimp only
  rw [hout, List.map_map, List.append_assoc]
  rfl

/-- A list in the place of the crc is not equal to its bytes. -/
theorem checkPacket_encode (seq : ℕ) {cmd : List UInt8} (hcmd : cmd.length ≤ 59)
    (rest : List UInt8) :
    checkPacket (encode seq cmd ++ pyBytes rest) = some 0 ∨
      checkPacket (encode seq cmd ++ pyBytes rest) = some (-1) := by
  have hlen := length_blockHead seq cmd
  have hsplit : encode seq cmd ++ pyBytes rest = pyBytes (blockHead seq cmd) ++
      .list (crc16Ccitt ((blockHead seq cmd).map UInt8.toNat)) ::
        .int messageSync.toNat :: pyBytes rest := by
    rw [encode_eq seq hcmd, List.append_assoc]
    rfl
  have hhead : ∀ (i : ℕ) (t : List PyItem), i < cmd.length + 2 →
      (pyBytes (blockHead seq cmd) ++ t).getD i (.list []) =
        .int ((blockHead seq cmd).getD i 0).toNat := by
    intro i t hi
    rw [List.getD_append _ _ _ _ (by rw [length_pyBytes]; omega), getD_pyBytes (by omega)]
  have hfirst : ((blockHead seq cmd).getD 0 0).toNat = cmd.length + 5 := toNat_blockHead hcmd
  have hsecond : ((blockHead seq cmd).getD 1 0).toNat = 16 + seq % 16 := toNat_wireSeq seq
  rw [hsplit]
  generalize ht : PyItem.list (crc16Ccitt ((blockHead seq cmd).map UInt8.toNat)) ::
    .int messageSync.toNat :: pyBytes rest = t
  unfold checkPacket
  rw [hhead 0 t (by omega), hhead 1 t (by omega), hfirst, hsecond]
  simp only [PyItem.int?, Option.bind_eq_bind, Option.bind_some]
  by_cases hmin : (pyBytes (blockHead seq cmd) ++ t).length < messageMin
  · exact .inl (if_pos hmin)
  rw [if_neg hmin, if_neg (by unfold messageMin messageMax; omega),
    if_neg (not_not.2 (ldiff_wireSeq seq))]
  by_cases hmore : (pyBytes (blockHead seq cmd) ++ t).length < cmd.length + 5
  · exact .inl (if_pos hmore)
  rw [if_neg hmore]
  right
  split_ifs with hsync
  · rfl
  -- the list stands where the first byte of the crc is looked for
  have hhere : cmd.length + 5 - 3 = (pyBytes (blockHead seq cmd)).length := by
    rw [length_pyBytes]
    omega
  rw [hhere, List.take_left, List.drop_left, mapM_pyBytes, Option.bind_some, ← ht]
  exact if_pos fun heq => PyItem.noConfusion (List.cons.inj heq).1

/-- With the bytes of the crc in place of their list, the list is the block that is sent. -/
theorem flat_encode (seq : ℕ) {cmd : List UInt8} (hcmd : cmd.length ≤ 59) :
    ((encode seq cmd).flatMap PyItem.flat).map PyItem.int =
      pyBytes (fillHeaderTrailer seq cmd) := by
  have hflat : ∀ buf : List UInt8, (pyBytes buf).flatMap PyItem.flat = buf.map UInt8.toNat := by
    intro buf
    unfold pyBytes
    rw [List.flatMap_map]
    exact List.map_eq_flatMap.symm
  have hframe := fillHeaderTrailer_eq seq cmd []
  rw [List.append_nil] at hframe
  rw [encode_eq seq hcmd, List.flatMap_append, hflat, hframe, pyBytes_append, List.map_append,
    List.map_map, crc16Ccitt_eq]
  rfl

/-- No command is framed as it is sent, but the bytes are right, and the two checks agree. -/
theorem not_framed_encode (seq : ℕ) (cmd : List UInt8) (hcmd : cmd.length ≤ 59) :
    ¬ Framed seq cmd (encode seq cmd) ∧
      Framed seq cmd (((encode seq cmd).flatMap PyItem.flat).map PyItem.int) ∧
      ∀ s : List UInt8, Agrees s := by
  refine ⟨fun h => ?_, ⟨flat_encode seq hcmd, fun rest => ?_⟩, agrees⟩
  · have hlen := length_fillHeaderTrailer seq cmd
    rcases checkPacket_encode seq hcmd [] with hzero | hneg
    · rw [h.accepts []] at hzero
      simp only [hlen, Option.some_inj] at hzero
      omega
    · rw [h.accepts []] at hneg
      simp at hneg
  · rw [flat_encode seq hcmd, ← pyBytes_append, checkPacket_pyBytes,
      checkBlock_fillHeaderTrailer seq hcmd, length_fillHeaderTrailer]

/-- A command of one byte. -/
theorem not_framed_encode_one :
    ¬ Framed 1 [7] (encode 1 [7]) ∧
      Framed 1 [7] (((encode 1 [7]).flatMap PyItem.flat).map PyItem.int) ∧
      ∀ s : List UInt8, Agrees s :=
  not_framed_encode 1 [7] (by decide)

/-- What is made of it, and what is sent. -/
theorem encode_one :
    encode 1 [7] = [.int 6, .int 0x11, .int 7, .list [0x17, 0x1c], .int 0x7e] ∧
      fillHeaderTrailer 1 [7] = [6, 0x11, 7, 0x17, 0x1c, 0x7e] ∧
      ¬ Framed 1 [7] (encode 1 [7]) := by
  refine ⟨by decide +kernel, by decide +kernel, fun h => ?_⟩
  exact absurd h.eq_frame (by decide +kernel)

end MessageParser

end Thinker
