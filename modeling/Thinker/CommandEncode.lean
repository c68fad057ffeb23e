import Thinker.CommandBlock
import Thinker.Vlq

/-!
# Encoding responses

`command_encodef` (`command.c`) writes the parameters of a response into a buffer whose size
`buildcommands.py` computes. Before a parameter is written it is only checked that the parameters
before it have not run over the end, so the last parameter may run over it unnoticed, and a buffer
that is cut to what is left has one byte more, its length (`outcome_iff`). A response stays within
its size except where a parameter runs over the end and none is left to find that (`Noticed`).
-/

namespace Thinker

/-! ## Parameters -/

/-- A parameter of a response : its type in `enum { PT_uint32, .. }` with its argument. A string
is the bytes before its zero, a buffer its length and the memory that its pointer points to. -/
inductive Param where
  | int (t : IntType) (v : UInt32)
  | string (s : List {b : UInt8 // b ≠ 0})
  | progmemBuffer (len : UInt32) (data : ℕ → UInt8)
  | buffer (len : UInt32) (data : ℕ → UInt8)

/-- The class attribute `max_length` of the integer types of `msgproto.py`. -/
def IntType.maxLength : IntType → ℕ
  | .uint32 | .int32 => 5
  | .uint16 | .int16 => 3
  | .byte => 2

namespace Param

/-- The class attribute `max_length` of `msgproto.py`. -/
def maxLength : Param → ℕ
  | int t _ => t.maxLength
  | string _ | progmemBuffer _ _ | buffer _ _ => 64

/-- The word that `va_arg` reads, where an `int` is shorter than a word or not. -/
def word (shortInt : Bool) (t : IntType) (v : UInt32) : UInt32 :=
  match shortInt, t with
  | true, .int16 => v.toUInt16.toInt16.toInt32.toUInt32
  | true, .uint16 | true, .byte => v.toUInt16.toUInt32
  | _, _ => v

/-- A length byte and the bytes of a buffer, up to the end of the block. -/
def encodeBuffer (maxend : ℕ) (out : List UInt8) (len : UInt32) (data : ℕ → UInt8) : List UInt8 :=
  let v := if maxend - out.length < len.toNat then maxend - out.length else len.toNat
  out ++ UInt8.ofNat v :: (List.range v).map data

/-- The parameter is written after `out`, which starts behind the header as `maxend` does. -/
def encode (shortInt : Bool) (maxend : ℕ) (out : List UInt8) : Param → List UInt8
  | int t v => out ++ Command.encodeInt (word shortInt t v)
  | string s =>
    let data := (s.map Subtype.val).take (maxend - (out.length + 1))
    out ++ UInt8.ofNat data.length :: data
  | progmemBuffer len data => encodeBuffer maxend out len data
  | buffer len data => encodeBuffer maxend out len data

end Param

/-! ## Messages -/

/-- `MESSAGE_HEADER_SIZE`. -/
def messageHeaderSize : ℕ := 2

/-- `MESSAGE_TRAILER_SIZE`. -/
def messageTrailerSize : ℕ := 3

/-- The bytes that were written behind the header, and the length of the message unless the
encoder shuts down. -/
structure Encoded where
  written : List UInt8
  length : Option ℕ
  deriving DecidableEq, Repr

/-- The loop over the parameters. -/
def encodeParams (shortInt : Bool) (maxend : ℕ) : List UInt8 → List Param → Encoded
  | out, [] => ⟨out, some (messageHeaderSize + out.length + messageTrailerSize)⟩
  | out, a :: args =>
    if maxend < out.length then ⟨out, none⟩
    else encodeParams shortInt maxend (a.encode shortInt maxend out) args

/-- `command_encodef`. -/
def commandEncodef (shortInt : Bool) (maxSize : ℕ) (msgId : UInt8) (args : List Param) : Encoded :=
  if maxSize ≤ messageMin then ⟨[], some maxSize⟩
  else encodeParams shortInt (maxSize - messageMin) [msgId] args

/-- `max_size` of an encoder, as `build_parser` computes it. -/
def buildMaxSize (args : List Param) : ℕ :=
  min messageMax (messageMin + 1 + (args.map Param.maxLength).sum)

/-- The message of `sendf` for an encoder that `buildcommands.py` has built. -/
def encodeResponse (shortInt : Bool) (msgId : UInt8) (args : List Param) : Encoded :=
  commandEncodef shortInt (buildMaxSize args) msgId args

/-- The number of bytes that `command_identify` sends. -/
def identifyCount (identifySize offset : UInt32) (count : UInt8) : UInt32 :=
  if offset ≥ identifySize then 0
  else if offset + count.toUInt32 > identifySize then (identifySize - offset).toUInt8.toUInt32
  else count.toUInt32

/-- `command_identify` : the parameters of `identify_response`. -/
def identifyResponse (identifySize : UInt32) (identifyData : ℕ → UInt8) (offset : UInt32)
    (count : UInt8) : List Param :=
  [.int .uint32 offset, .progmemBuffer (identifyCount identifySize offset count)
    fun i => identifyData (offset.toNat + i)]

/-! ## Sizes -/

/-- The length of an encoded integer. -/
def intSize (v : UInt32) : ℕ :=
  let sv := v.toInt32.toInt
  if sv < 96 ∧ sv ≥ -32 then 1
  else if sv < 12288 ∧ sv ≥ -4096 then 2
  else if sv < 1572864 ∧ sv ≥ -524288 then 3
  else if sv < 201326592 ∧ sv ≥ -67108864 then 4
  else 5

theorem length_encodeInt (v : UInt32) : (Command.encodeInt v).length = intSize v := by
  unfold Command.encodeInt vlqEncode intSize
  dsimp only
  rw [show (3 : ℤ) <<< 5 = 96 from rfl, show (3 : ℤ) <<< 12 = 12288 from rfl,
    show (3 : ℤ) <<< 19 = 1572864 from rfl, show (3 : ℤ) <<< 26 = 201326592 from rfl,
    show (1 : ℤ) <<< 5 = 32 from rfl, show (1 : ℤ) <<< 12 = 4096 from rfl,
    show (1 : ℤ) <<< 19 = 524288 from rfl, show (1 : ℤ) <<< 26 = 67108864 from rfl]
  split_ifs <;> rfl

theorem intSize_pos (v : UInt32) : 1 ≤ intSize v := by
  unfold intSize
  dsimp only
  split_ifs <;> norm_num

namespace Param

/-- The bytes of a parameter where nothing is cut off. -/
def size (shortInt : Bool) : Param → ℕ
  | int t v => intSize (word shortInt t v)
  | string s => 1 + s.length
  | progmemBuffer len _ | buffer len _ => 1 + len.toNat

/-- The bytes of a parameter where `room` bytes are left. -/
def sizeIn (shortInt : Bool) (room : ℕ) : Param → ℕ
  | int t v => intSize (word shortInt t v)
  | string s => 1 + min s.length (room - 1)
  | progmemBuffer len _ | buffer len _ => 1 + min len.toNat room

/-- The bytes of several parameters where nothing is cut off. -/
def totalSize (shortInt : Bool) (args : List Param) : ℕ :=
  (args.map (size shortInt)).sum

/-- A string is cut to what is left. -/
def isString : Param → Bool
  | string _ => true
  | _ => false

variable {shortInt : Bool} {maxend room : ℕ} {out : List UInt8} {a : Param} {args : List Param}

theorem sizeIn_pos (shortInt : Bool) (room : ℕ) (a : Param) : 1 ≤ a.sizeIn shortInt room := by
  cases a with
  | int t v => exact intSize_pos _
  | string s => exact Nat.le_add_right 1 _
  | progmemBuffer len data => exact Nat.le_add_right 1 _
  | buffer len data => exact Nat.le_add_right 1 _

/-- A parameter that fits is not cut. -/
theorem sizeIn_of_le (h : a.size shortInt ≤ room) : a.sizeIn shortInt room = a.size shortInt := by
  cases a with
  | int t v => rfl
  | string s =>
    have h : 1 + s.length ≤ room := h
    show 1 + min s.length (room - 1) = 1 + s.length
    omega
  | progmemBuffer len data =>
    have h : 1 + len.toNat ≤ room := h
    show 1 + min len.toNat room = 1 + len.toNat
    omega
  | buffer len data =>
    have h : 1 + len.toNat ≤ room := h
    show 1 + min len.toNat room = 1 + len.toNat
    omega

/-- A string that does not fit fills the block. -/
theorem sizeIn_string (hstring : a.isString = true) (hroom : 0 < room)
    (h : room < a.size shortInt) : a.sizeIn shortInt room = room := by
  cases a with
  | string s =>
    have h : room < 1 + s.length := h
    show 1 + min s.length (room - 1) = room
    omega
  | int t v => exact absurd hstring Bool.false_ne_true
  | progmemBuffer len data => exact absurd hstring Bool.false_ne_true
  | buffer len data => exact absurd hstring Bool.false_ne_true

/-- Any other parameter that does not fit runs over the end. -/
theorem lt_sizeIn (h : room < a.size shortInt) (hcut : ¬ (a.isString = true ∧ 0 < room)) :
    room < a.sizeIn shortInt room := by
  cases a with
  | int t v => exact h
  | string s =>
    have hroom : room = 0 := Nat.eq_zero_of_not_pos fun hpos => hcut ⟨rfl, hpos⟩
    show room < 1 + min s.length (room - 1)
    omega
  | progmemBuffer len data =>
    have h : room < 1 + len.toNat := h
    show room < 1 + min len.toNat room
    omega
  | buffer len data =>
    have h : room < 1 + len.toNat := h
    show room < 1 + min len.toNat room
    omega

theorem length_encodeBuffer (len : UInt32) (data : ℕ → UInt8) :
    (encodeBuffer maxend out len data).length =
      out.length + (1 + min len.toNat (maxend - out.length)) := by
  unfold encodeBuffer
  dsimp only
  rw [List.length_append, List.length_cons, List.length_map, List.length_range]
  split_ifs <;> omega

/-- The bytes that a parameter takes. -/
theorem length_encode (shortInt : Bool) (maxend : ℕ) (out : List UInt8) (a : Param) :
    (a.encode shortInt maxend out).length =
    out.length + a.sizeIn shortInt (maxend - out.length) := by
  cases a with
  | int t v =>
    unfold encode sizeIn
    rw [List.length_append, length_encodeInt]
  | string s =>
    unfold encode sizeIn
    dsimp only
    rw [List.length_append, List.length_cons, List.length_take, List.length_map]
    omega
  | progmemBuffer len data => exact length_encodeBuffer len data
  | buffer len data => exact length_encodeBuffer len data

end Param

/-! ## Where a parameter runs over the end -/

section Outcome

open Param

variable {shortInt : Bool} {maxend room : ℕ} {out : List UInt8} {a : Param}
  {args pre post : List Param} {Q : ℕ → Bool → Prop}

/-- The parameter `a` is the first that does not fit into the `room` for `args`. -/
structure FirstOver (shortInt : Bool) (room : ℕ) (args pre : List Param) (a : Param)
    (post : List Param) : Prop where
  split : args = pre ++ a :: post
  fits : totalSize shortInt pre ≤ room
  lt_size : room < totalSize shortInt pre + a.size shortInt

/-- What `Q` says of the bytes written, and of whether a length is returned, where `a` is written
behind `n` bytes and does not fit : a string is cut at the end of the block and the next parameter
runs over it, and any other parameter runs over it at once. -/
def AfterOver (shortInt : Bool) (room n : ℕ) (Q : ℕ → Bool → Prop) (a : Param)
    (post : List Param) : Prop :=
  if a.isString = true ∧ 0 < room then
    match post with
    | [] => Q (n + room) true
    | b :: post => Q (n + room + b.sizeIn shortInt 0) post.isEmpty
  else Q (n + a.sizeIn shortInt room) post.isEmpty

@[simp] theorem totalSize_nil : totalSize shortInt [] = 0 :=
  rfl

theorem totalSize_cons : totalSize shortInt (a :: args) =
    a.size shortInt + totalSize shortInt args := by
  unfold totalSize
  rw [List.map_cons, List.sum_cons]

theorem firstOver_cons_of_le (h : a.size shortInt ≤ room) {b : Param} :
    FirstOver shortInt room (a :: args) pre b post ↔
      ∃ pre', pre = a :: pre' ∧ FirstOver shortInt (room - a.size shortInt) args pre' b post := by
  constructor
  · rintro ⟨hsplit, hfits, hlt⟩
    cases pre with
    | nil =>
      obtain ⟨rfl, rfl⟩ := List.cons.inj hsplit
      rw [totalSize_nil, Nat.zero_add] at hlt
      exact absurd hlt (Nat.not_lt.2 h)
    | cons c pre =>
      obtain ⟨rfl, rfl⟩ := List.cons.inj hsplit
      rw [totalSize_cons] at hfits hlt
      exact ⟨pre, rfl, rfl, by omega, by omega⟩
  · rintro ⟨pre', rfl, hsplit, hfits, hlt⟩
    refine ⟨by rw [hsplit, List.cons_append], ?_, ?_⟩
    · rw [totalSize_cons]
      omega
    · rw [totalSize_cons]
      omega

theorem firstOver_cons_of_lt (h : room < a.size shortInt) {b : Param} :
    FirstOver shortInt room (a :: args) pre b post ↔ pre = [] ∧ b = a ∧ post = args := by
  constructor
  · rintro ⟨hsplit, hfits, hlt⟩
    cases pre with
    | nil =>
      obtain ⟨rfl, rfl⟩ := List.cons.inj hsplit
      exact ⟨rfl, rfl, rfl⟩
    | cons c pre =>
      obtain ⟨rfl, rfl⟩ := List.cons.inj hsplit
      rw [totalSize_cons] at hfits
      omega
  · rintro ⟨rfl, rfl, rfl⟩
    refine ⟨rfl, Nat.zero_le _, ?_⟩
    rw [totalSize_nil, Nat.zero_add]
    exact h

/-- Once a parameter has run over the end, only the last one is not noticed. -/
theorem encodeParams_of_lt (h : maxend < out.length) :
    encodeParams shortInt maxend out args =
      ⟨out, if args.isEmpty then some (messageHeaderSize + out.length + messageTrailerSize)
        else none⟩ := by
  cases args with
  | nil => rfl
  | cons a args =>
    unfold encodeParams
    rw [if_pos h]
    rfl

theorem isSome_encodeParams_of_lt (h : maxend < out.length) :
    (encodeParams shortInt maxend out args).length.isSome = args.isEmpty := by
  rw [encodeParams_of_lt h]
  cases args with
  | nil => rfl
  | cons a args => rfl

/-- How many bytes are written, and whether a length is returned. -/
theorem outcome_iff (shortInt : Bool) (args : List Param) (hout : out.length ≤ maxend)
    (hroom : room = maxend - out.length) :
    Q (encodeParams shortInt maxend out args).written.length
        (encodeParams shortInt maxend out args).length.isSome ↔
      (totalSize shortInt args ≤ room → Q (out.length + totalSize shortInt args) true) ∧
        ∀ pre a post, FirstOver shortInt room args pre a post →
          AfterOver shortInt (room - totalSize shortInt pre) (out.length + totalSize shortInt pre)
            Q a post := by
  induction args generalizing out room with
  | nil =>
    refine ⟨fun h => ⟨fun _ => h, fun pre a post hover => ?_⟩, fun h => h.1 (Nat.zero_le _)⟩
    exact absurd hover.split (List.append_ne_nil_of_right_ne_nil _ (List.cons_ne_nil _ _)).symm
  | cons a args ih =>
    have hstep : encodeParams shortInt maxend out (a :: args) =
        encodeParams shortInt maxend (a.encode shortInt maxend out) args := by
      conv_lhs => unfold encodeParams
      rw [if_neg (Nat.not_lt.2 hout)]
    have hlength := length_encode shortInt maxend out a
    rw [← hroom] at hlength
    rw [hstep]
    by_cases hfit : a.size shortInt ≤ room
    · rw [sizeIn_of_le hfit] at hlength
      have hrest : room - a.size shortInt = maxend - (a.encode shortInt maxend out).length := by omega
      rw [ih (by omega) hrest, hlength, totalSize_cons]
      simp only [firstOver_cons_of_le hfit]
      refine and_congr ?_ ⟨fun h => ?_, fun h => ?_⟩
      · rw [Nat.add_assoc]
        exact imp_congr_left (by omega)
      · rintro _ b post ⟨pre, rfl, hover⟩
        rw [totalSize_cons, ← Nat.sub_sub, ← Nat.add_assoc]
        exact h pre b post hover
      · intro pre b post hover
        have := h (a :: pre) b post ⟨pre, rfl, hover⟩
        rwa [totalSize_cons, ← Nat.sub_sub, ← Nat.add_assoc] at this
    · have hlt : room < a.size shortInt := Nat.lt_of_not_le hfit
      have hrhs : ((totalSize shortInt (a :: args) ≤ room →
          Q (out.length + totalSize shortInt (a :: args)) true) ∧
          ∀ pre b post, FirstOver shortInt room (a :: args) pre b post →
            AfterOver shortInt (room - totalSize shortInt pre)
              (out.length + totalSize shortInt pre) Q b post) ↔
          AfterOver shortInt room out.length Q a args := by
        simp only [firstOver_cons_of_lt hlt]
        refine ⟨fun h => h.2 [] a args ⟨rfl, rfl, rfl⟩, fun h => ⟨fun hle => ?_, ?_⟩⟩
        · rw [totalSize_cons] at hle
          omega
        · rintro pre b post ⟨rfl, rfl, rfl⟩
          exact h
      rw [hrhs]
      unfold AfterOver
      by_cases hcut : a.isString = true ∧ 0 < room
      · rw [if_pos hcut]
        rw [sizeIn_string hcut.1 hcut.2 hlt] at hlength
        cases args with
        | nil =>
          show Q (a.encode shortInt maxend out).length true ↔ Q (out.length + room) true
          rw [hlength]
        | cons b args =>
          -- the string ends at the end of the block, and the next parameter starts there
          have hnext := length_encode shortInt maxend (a.encode shortInt maxend out) b
          rw [show maxend - (a.encode shortInt maxend out).length = 0 by omega] at hnext
          have hpos := sizeIn_pos shortInt 0 b
          have hover : maxend < (b.encode shortInt maxend (a.encode shortInt maxend out)).length := by
            omega
          have hstep : encodeParams shortInt maxend (a.encode shortInt maxend out) (b :: args) =
              encodeParams shortInt maxend
                (b.encode shortInt maxend (a.encode shortInt maxend out)) args := by
            conv_lhs => unfold encodeParams
            rw [if_neg (by omega)]
          rw [hstep, isSome_encodeParams_of_lt hover, encodeParams_of_lt hover]
          show Q (b.encode shortInt maxend (a.encode shortInt maxend out)).length args.isEmpty ↔
            Q (out.length + room + b.sizeIn shortInt 0) args.isEmpty
          rw [hnext, hlength]
      · rw [if_neg hcut]
        have hsize := lt_sizeIn hlt hcut
        have hover : maxend < (a.encode shortInt maxend out).length := by omega
        rw [isSome_encodeParams_of_lt hover, encodeParams_of_lt hover]
        show Q (a.encode shortInt maxend out).length args.isEmpty ↔
          Q (out.length + a.sizeIn shortInt room) args.isEmpty
        rw [hlength]

/-- The length that is returned counts the bytes written. -/
theorem length_encodeParams {n : ℕ} (h : (encodeParams shortInt maxend out args).length = some n) :
    n = messageHeaderSize + (encodeParams shortInt maxend out args).written.length +
      messageTrailerSize := by
  induction args generalizing out with
  | nil => exact (Option.some_inj.1 h).symm
  | cons a args ih =>
    unfold encodeParams at h ⊢
    split_ifs at h ⊢
    exact ih h

end Outcome

/-! ## The bound -/

section Bound

variable {shortInt : Bool} {maxSize : ℕ} {msgId : UInt8} {args : List Param}

/-- The encoder shuts down or returns a length within the size, with all bytes before it. -/
def Encoded.Returns (maxSize : ℕ) (e : Encoded) : Prop :=
  ∀ n, e.length = some n → n ≤ maxSize ∧ messageHeaderSize + e.written.length ≤ maxSize

/-- Nor is a byte written behind the size before the encoder shuts down. -/
def Encoded.Stays (maxSize : ℕ) (e : Encoded) : Prop :=
  e.Returns maxSize ∧ messageHeaderSize + e.written.length ≤ maxSize

/-- What is left in a response for its parameters. -/
def paramRoom (args : List Param) : ℕ :=
  buildMaxSize args - messageMin - 1

/-- A parameter that does not fit is followed by one that finds it : the next one, or the second
where a string is cut at the end of the block. -/
def Noticed (room : ℕ) (a : Param) (post : List Param) : Prop :=
  if a.isString = true ∧ 0 < room then post.length ≠ 1 else post ≠ []

/-- What is written too much fits into the place of the trailer. -/
def InTrailer (shortInt : Bool) (room : ℕ) (a : Param) (post : List Param) : Prop :=
  if a.isString = true ∧ 0 < room then
    ∀ b ∈ post.head?, b.sizeIn shortInt 0 ≤ messageTrailerSize
  else a.sizeIn shortInt room ≤ room + messageTrailerSize

theorem buildMaxSize_le (args : List Param) : messageMin + 1 ≤ buildMaxSize args := by
  unfold buildMaxSize messageMax messageMin
  omega

theorem encodeResponse_eq : encodeResponse shortInt msgId args =
    encodeParams shortInt (buildMaxSize args - messageMin) [msgId] args := by
  unfold encodeResponse commandEncodef
  rw [if_neg]
  have := buildMaxSize_le args
  omega

theorem isEmpty_imp_iff {Q : Prop} {post : List Param} (h : ¬ Q) :
    (post.isEmpty = true → Q) ↔ post ≠ [] := by
  rw [List.isEmpty_iff]
  exact ⟨fun himp hnil => h (himp hnil), fun hne hnil => absurd hnil hne⟩

/-- A length is returned within the size exactly where what runs over the end is found. -/
theorem afterOver_returns {room n : ℕ} {a : Param} {post : List Param}
    (h : room < a.size shortInt) :
    AfterOver shortInt room n (fun k r => r = true → k ≤ n + room) a post ↔ Noticed room a post := by
  unfold AfterOver Noticed
  by_cases hcut : a.isString = true ∧ 0 < room
  · rw [if_pos hcut, if_pos hcut]
    cases post with
    | nil => exact iff_of_true (fun _ => le_rfl) Nat.zero_ne_one
    | cons b post =>
      have hpos := Param.sizeIn_pos shortInt 0 b
      dsimp only
      rw [isEmpty_imp_iff (by omega), List.length_cons, Ne, Ne, Nat.add_eq_right,
        List.length_eq_zero_iff]
  · rw [if_neg hcut, if_neg hcut]
    have hsize := Param.lt_sizeIn h hcut
    exact isEmpty_imp_iff (by omega)

/-- And no byte is written behind the size where the trailer has room for what is too much. -/
theorem afterOver_stays {room n : ℕ} {a : Param} {post : List Param} :
    AfterOver shortInt room n (fun k _ => k ≤ n + room + messageTrailerSize) a post ↔
      InTrailer shortInt room a post := by
  unfold AfterOver InTrailer
  by_cases hcut : a.isString = true ∧ 0 < room
  · rw [if_pos hcut, if_pos hcut]
    cases post with
    | nil => exact iff_of_true (Nat.le_add_right _ _) fun b hb => absurd hb (by simp)
    | cons b post =>
      simp only [List.head?_cons, Option.mem_def, Option.some_inj, forall_eq']
      exact Nat.add_le_add_iff_left
  · rw [if_neg hcut, if_neg hcut, Nat.add_assoc]
    exact Nat.add_le_add_iff_left

/-- Whether a response stays within its size is decided by the first parameter that does not fit
and what follows it. -/
theorem returns_iff_stays_iff (shortInt : Bool) (msgId : UInt8) (args : List Param) :
    ((encodeResponse shortInt msgId args).Returns (buildMaxSize args) ↔
      ∀ pre a post, FirstOver shortInt (paramRoom args) args pre a post →
        Noticed (paramRoom args - Param.totalSize shortInt pre) a post) ∧
    ((encodeResponse shortInt msgId args).Stays (buildMaxSize args) ↔
      ∀ pre a post, FirstOver shortInt (paramRoom args) args pre a post →
        Noticed (paramRoom args - Param.totalSize shortInt pre) a post ∧
          InTrailer shortInt (paramRoom args - Param.totalSize shortInt pre) a post) := by
  have hmax := buildMaxSize_le args
  have hmin : messageMin = 5 := rfl
  have hheader : messageHeaderSize = 2 := rfl
  have htrailer : messageTrailerSize = 3 := rfl
  have hlength : ([msgId] : List UInt8).length = 1 := rfl
  have hroom : paramRoom args = buildMaxSize args - messageMin - [msgId].length := rfl
  have hout : ([msgId] : List UInt8).length ≤ buildMaxSize args - messageMin := by omega
  have hend : ∀ {pre a post}, FirstOver shortInt (paramRoom args) args pre a post →
      [msgId].length + Param.totalSize shortInt pre +
        (paramRoom args - Param.totalSize shortInt pre) = buildMaxSize args - messageMin := by
    intro pre a post hover
    have := hover.fits
    omega
  have hreturns : (encodeResponse shortInt msgId args).Returns (buildMaxSize args) ↔
      ∀ pre a post, FirstOver shortInt (paramRoom args) args pre a post →
        Noticed (paramRoom args - Param.totalSize shortInt pre) a post := by
    have hiff := outcome_iff shortInt args
      (Q := fun n r => r = true → n ≤ buildMaxSize args - messageMin) hout hroom
    rw [← encodeResponse_eq] at hiff
    have hdef : (encodeResponse shortInt msgId args).Returns (buildMaxSize args) ↔
        ((encodeResponse shortInt msgId args).length.isSome = true →
          (encodeResponse shortInt msgId args).written.length ≤ buildMaxSize args - messageMin) := by
      refine ⟨fun h hsome => ?_, fun h n hn => ?_⟩
      · obtain ⟨n, hn⟩ := Option.isSome_iff_exists.1 hsome
        have := h n hn
        rw [encodeResponse_eq] at hn this ⊢
        have := length_encodeParams hn
        omega
      · have := h (by rw [hn]; rfl)
        rw [encodeResponse_eq] at hn this ⊢
        have := length_encodeParams hn
        omega
    rw [hdef, hiff, and_iff_right (fun hle _ => by omega)]
    refine forall₃_congr fun pre a post => forall_congr' fun hover => ?_
    rw [← hend hover]
    exact afterOver_returns (by have := hover.lt_size; have := hover.fits; omega)
  refine ⟨hreturns, ?_⟩
  have hiff := outcome_iff shortInt args
    (Q := fun n _ => n ≤ buildMaxSize args - messageMin + messageTrailerSize) hout hroom
  rw [← encodeResponse_eq] at hiff
  have hwritten : messageHeaderSize + (encodeResponse shortInt msgId args).written.length ≤
      buildMaxSize args ↔ (encodeResponse shortInt msgId args).written.length ≤
        buildMaxSize args - messageMin + messageTrailerSize := by
    omega
  have hfit : Param.totalSize shortInt args ≤ paramRoom args →
      [msgId].length + Param.totalSize shortInt args ≤
        buildMaxSize args - messageMin + messageTrailerSize := fun hle => by omega
  unfold Encoded.Stays
  rw [hreturns, hwritten, hiff, and_iff_right hfit]
  have htrail : ∀ {pre a post}, FirstOver shortInt (paramRoom args) args pre a post →
      (AfterOver shortInt (paramRoom args - Param.totalSize shortInt pre)
        ([msgId].length + Param.totalSize shortInt pre)
        (fun n _ => n ≤ buildMaxSize args - messageMin + messageTrailerSize) a post ↔
        InTrailer shortInt (paramRoom args - Param.totalSize shortInt pre) a post) := by
    intro pre a post hover
    rw [← hend hover]
    exact afterOver_stays
  constructor
  · rintro ⟨hfound, hafter⟩ pre a post hover
    exact ⟨hfound pre a post hover, (htrail hover).1 (hafter pre a post hover)⟩
  · intro h
    exact ⟨fun pre a post hover => (h pre a post hover).1,
      fun pre a post hover => (htrail hover).2 (h pre a post hover).2⟩

/-- A request for 255 bytes of a dictionary of 4096 bytes. -/
def longIdentify : List Param :=
  identifyResponse 4096 (fun _ => 0) 0 255

/-- Its response is one byte longer than a block. -/
theorem not_returns_longIdentify :
    (encodeResponse false 0 longIdentify).length = some (messageMax + 1) ∧
      ¬ (encodeResponse false 0 longIdentify).Returns (buildMaxSize longIdentify) := by
  have hlength : (encodeResponse false 0 longIdentify).length = some (messageMax + 1) := by
    decide +kernel
  refine ⟨hlength, fun h => ?_⟩
  exact absurd (h _ hlength).1 (by decide)

end Bound

end Thinker
