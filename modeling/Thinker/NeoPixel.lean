import Mathlib
import Thinker.Numerals
import Thinker.Patch

/-!
# Partial updates of LED colours

The host keeps the colour bytes of a chain of LEDs and what it last sent of them. `send_data` finds
the bytes that differ, batches differences that are close to each other, and sends one message for
each batch. The micro-controller copies the data of a message into its own buffer and shuts down if
a message does not fit.

The batches of one call are in order, disjoint and short, and cover every difference
(`batch_diffs`, `covers_batches`). So the buffer of the micro-controller is that of the host after
each call.
-/

namespace Thinker

namespace NeoPixel

open Patch

/-- The longest buffer the host accepts. -/
def maxMcuSize : ℕ := 500

section

variable (K : Type*) [Field K] [LinearOrder K]

/-- A colour component, read with `minval=0.` and `maxval=1.`. -/
structure Level where
  /-- The value. -/
  val : K
  /-- It is at least 0. -/
  nonneg : 0 ≤ val
  /-- It is at most 1. -/
  le_one : val ≤ 1

/-- Red, green, blue and white of each LED of a chain. -/
abbrev LedState (chainCount : ℕ) := Fin chainCount → Fin 4 → Level K

end

/-! ## The host -/

/-- The colour data of a chain. A byte of the buffer is a channel of an LED. -/
structure PrinterNeoPixel (chainCount : ℕ) where
  /-- The LED and the channel of each byte. -/
  colorMap : List (Fin chainCount × Fin 4)
  /-- The colours to show. -/
  colorData : List UInt8
  /-- The colours last sent. -/
  oldColorData : List UInt8
  /-- A byte for each entry of the map. -/
  length_colorData : colorData.length = colorMap.length
  /-- As many bytes have been sent. -/
  length_oldColorData : oldColorData.length = colorMap.length
  /-- The chain is not too long. -/
  length_colorMap : colorMap.length ≤ maxMcuSize

/-- A message `neopixel_update`. -/
structure Message where
  /-- Where the data goes. -/
  pos : ℕ
  /-- The bytes. -/
  data : List UInt8
deriving DecidableEq, Repr

/-- The range of the buffer that a message writes. -/
def Message.range (msg : Message) : ℕ × ℕ :=
  (msg.pos, msg.data.length)

/-- `[[i, 1] for i, (n, o) in enumerate(zip(new_data, old_data)) if n != o]`. -/
def diffs (newData oldData : List UInt8) : List (ℕ × ℕ) :=
  (newData.zip oldData).zipIdx.filterMap fun e => if e.1.1 ≠ e.1.2 then some (e.2, 1) else none

/-- One turn of the loop that batches changes : the entry joins the batch after it. -/
def joinNext (d : ℕ × ℕ) : List (ℕ × ℕ) → List (ℕ × ℕ)
  | [] => [d]
  | next :: rest =>
    if d.1 + 5 ≥ next.1 ∧ next.2 < 16 then (d.1, next.2 + (next.1 - d.1)) :: rest
    else d :: next :: rest

/-- Batches changes that are close to each other, from the back. -/
def batches (ds : List (ℕ × ℕ)) : List (ℕ × ℕ) :=
  ds.foldr joinNext []

section

variable {K : Type*} [Field K] [LinearOrder K] {chainCount : ℕ}

/-- `int(x * 255. + .5)`. -/
def Level.toByte [FloorSemiring K] (x : Level K) : UInt8 :=
  UInt8.ofNat ⌊x.val * 255 + 1 / 2⌋₊

/-- The index of a letter in `"RGBW"`. -/
def channel : Char → Fin 4
  | 'R' => 0
  | 'G' => 1
  | 'B' => 2
  | _ => 3

/-- The colour order of each LED : a single one is that of the whole chain. -/
def chainOrder (chainCount : ℕ) (colorOrder : List (List Char)) : List (List Char) :=
  if colorOrder.length = 1 then List.replicate chainCount (colorOrder.headD []) else colorOrder

/-- The entries of the colour map for one LED. -/
def colorIndexes (order : List (List Char)) (h : order.length = chainCount)
    (lidx : Fin chainCount) : List (Fin chainCount × Fin 4) :=
  (order.get (lidx.cast h.symm)).map fun c => (lidx, channel c)

/-- A colour order names each of three or four channels once. -/
def validOrder (co : List Char) : Bool :=
  co.isPerm ['R', 'G', 'B'] || co.isPerm ['R', 'G', 'B', 'W']

/-- The bytes of an LED state. -/
def ledBytes [FloorSemiring K] (colorMap : List (Fin chainCount × Fin 4))
    (ledState : LedState K chainCount) : List UInt8 :=
  colorMap.map fun e => Level.toByte (ledState e.1 e.2)

/-- A component gives a byte : the assignment to the buffer does not raise. -/
theorem Level.toNat_toByte [FloorSemiring K] [IsStrictOrderedRing K] (x : Level K) :
    (Level.toByte x).toNat = ⌊x.val * 255 + 1 / 2⌋₊ := by
  have hlt : x.val * 255 + 1 / 2 < (256 : ℕ) := by
    have := x.le_one
    push_cast
    linarith
  have hnonneg : 0 ≤ x.val * 255 + 1 / 2 := by
    have := x.nonneg
    linarith
  exact UInt8.toNat_ofNat_of_lt' ((Nat.floor_lt hnonneg).2 hlt)

end

namespace PrinterNeoPixel

section

variable {K : Type*} [Field K] [LinearOrder K] [FloorSemiring K] {chainCount : ℕ}

/-- `update_color_data`. -/
def updateColorData (p : PrinterNeoPixel chainCount) (ledState : LedState K chainCount) :
    PrinterNeoPixel chainCount :=
  { p with
    colorData := ledBytes p.colorMap ledState
    length_colorData := List.length_map _ }

/-- The first colours of a chain. What was last sent differs from them in every byte. -/
def start (colorMap : List (Fin chainCount × Fin 4)) (h : colorMap.length ≤ maxMcuSize)
    (ledState : LedState K chainCount) : PrinterNeoPixel chainCount where
  colorMap := colorMap
  colorData := ledBytes colorMap ledState
  oldColorData := (ledBytes colorMap ledState).map (· ^^^ 1)
  length_colorData := List.length_map _
  length_oldColorData := (List.length_map _).trans (List.length_map _)
  length_colorMap := h

/-- `__init__` : the colour map of a chain and its first colours. -/
def init (colorOrder : List (List Char)) (ledState : LedState K chainCount) :
    Except String (PrinterNeoPixel chainCount) :=
  if h : (chainOrder chainCount colorOrder).length = chainCount then
    match (chainOrder chainCount colorOrder).find? fun co => !validOrder co with
    | some co => .error ("Invalid color_order '" ++ String.ofList co ++ "'")
    | none =>
      if hlen : ((List.finRange chainCount).flatMap (colorIndexes _ h)).length ≤ maxMcuSize then
        .ok (start _ hlen ledState)
      else .error "neopixel chain too long"
  else .error "color_order does not match chain_count"

end

variable {chainCount : ℕ}

/-- `send_data` : the messages for what changed. The data sent is kept. -/
def sendData (p : PrinterNeoPixel chainCount) : List Message × PrinterNeoPixel chainCount :=
  if p.colorData = p.oldColorData then ([], p)
  else
    ((batches (diffs p.colorData p.oldColorData)).map fun r =>
        ⟨r.1, read p.colorData r.1 r.2⟩,
      { p with
        oldColorData := p.colorData
        length_oldColorData := p.length_colorData })

end PrinterNeoPixel

/-! ## The micro-controller -/

/-- The buffer of the micro-controller. -/
structure Neopixel where
  /-- The bytes to send to the LEDs. -/
  data : List UInt8
deriving DecidableEq, Repr

namespace Neopixel

/-- `data_size`. -/
def dataSize (n : Neopixel) : ℕ := n.data.length

/-- `command_config_neopixel`. -/
def commandConfigNeopixel (dataSize : ℕ) : Except String Neopixel :=
  if dataSize &&& 0x8000 ≠ 0 then .error "Invalid neopixel dataSize"
  else .ok ⟨List.replicate dataSize 0⟩

/-- `command_neopixel_update`. -/
def commandNeopixelUpdate (n : Neopixel) (msg : Message) : Except String Neopixel :=
  if msg.pos &&& 0x8000 ≠ 0 ∨ msg.pos + msg.data.length > n.dataSize then
    .error "Invalid neopixel update command"
  else .ok ⟨write n.data msg.pos msg.data⟩

end Neopixel

/-! ## Batches -/

/-- What is needed of ranges so that messages for them can be sent : they are in order, disjoint,
short, and inside of the buffer. -/
structure Sendable (size : ℕ) (rs : List (ℕ × ℕ)) : Prop where
  /-- A range ends before the next. -/
  ascending : rs.Pairwise fun r s => r.1 + r.2 ≤ s.1
  /-- A range is of 1 to 20 bytes. -/
  count : ∀ r ∈ rs, 1 ≤ r.2 ∧ r.2 ≤ 20
  /-- A range is inside of the buffer. -/
  inside : ∀ r ∈ rs, r.1 + r.2 ≤ size

theorem Sendable.nil (size : ℕ) : Sendable size [] :=
  ⟨.nil, by simp, by simp⟩

theorem Sendable.tail {size : ℕ} {r : ℕ × ℕ} {rs : List (ℕ × ℕ)} (h : Sendable size (r :: rs)) :
    Sendable size rs :=
  ⟨(List.pairwise_cons.1 h.ascending).2, fun s hs => h.count s (List.mem_cons_of_mem _ hs),
    fun s hs => h.inside s (List.mem_cons_of_mem _ hs)⟩

theorem Sendable.cons {size : ℕ} {r : ℕ × ℕ} {rs : List (ℕ × ℕ)} (h : Sendable size rs)
    (hcount : 1 ≤ r.2 ∧ r.2 ≤ 20) (hin : r.1 + r.2 ≤ size)
    (hbefore : ∀ s ∈ rs, r.1 + r.2 ≤ s.1) : Sendable size (r :: rs) where
  ascending := List.pairwise_cons.2 ⟨hbefore, h.ascending⟩
  count := List.forall_mem_cons.2 ⟨hcount, h.count⟩
  inside := List.forall_mem_cons.2 ⟨hin, h.inside⟩

/-- One change before the batches joins the first or becomes a batch of its own. -/
theorem Sendable.joinNext {size pos : ℕ} {rs : List (ℕ × ℕ)} (h : Sendable size rs)
    (hpos : pos < size) (hbefore : ∀ r ∈ rs, pos < r.1) :
    Sendable size (joinNext (pos, 1) rs) := by
  cases rs with
  | nil => exact h.cons ⟨le_rfl, by norm_num⟩ hpos (by simp)
  | cons next rest =>
    have hnext : pos < next.1 := hbefore next List.mem_cons_self
    have hfirst := List.pairwise_cons.1 h.ascending
    by_cases hjoin : pos + 5 ≥ next.1 ∧ next.2 < 16
    · -- the joined range ends where the batch after it ended
      have hend : pos + (next.2 + (next.1 - pos)) = next.1 + next.2 := by omega
      have hin := h.inside next List.mem_cons_self
      have hone := (h.count next List.mem_cons_self).1
      rw [NeoPixel.joinNext, if_pos hjoin]
      refine h.tail.cons ⟨?_, ?_⟩ ?_ fun s hs => ?_
      · simp only
        omega
      · simp only
        omega
      · simpa only [hend] using hin
      · simpa only [hend] using hfirst.1 s hs
    · rw [NeoPixel.joinNext, if_neg hjoin]
      exact h.cons ⟨le_rfl, by norm_num⟩ hpos fun s hs => hbefore s hs

/-- Batches start where a change is. -/
theorem start_joinNext {d : ℕ × ℕ} {rs : List (ℕ × ℕ)} {s : ℕ × ℕ} (hs : s ∈ joinNext d rs) :
    s.1 = d.1 ∨ s ∈ rs := by
  cases rs with
  | nil => exact .inl (congrArg Prod.fst (List.mem_singleton.1 hs))
  | cons next rest =>
    rw [joinNext] at hs
    split at hs
    · rcases List.mem_cons.1 hs with rfl | hs
      · exact .inl rfl
      · exact .inr (List.mem_cons_of_mem _ hs)
    · rcases List.mem_cons.1 hs with rfl | hs
      · exact .inl rfl
      · exact .inr hs

theorem covers_joinNext {pos i : ℕ} {rs : List (ℕ × ℕ)} (hbefore : ∀ r ∈ rs, pos < r.1)
    (h : i = pos ∨ ∃ r ∈ rs, Covers r i)
    (hcount : ∀ r ∈ rs, 1 ≤ r.2) : ∃ r ∈ joinNext (pos, 1) rs, Covers r i := by
  cases rs with
  | nil =>
    obtain rfl : i = pos := h.resolve_right (by simp)
    exact ⟨_, List.mem_singleton_self _, le_rfl, Nat.lt_succ_self _⟩
  | cons next rest =>
    have hnext : pos < next.1 := hbefore next List.mem_cons_self
    have hone := hcount next List.mem_cons_self
    rw [joinNext]
    split
    · rcases h with rfl | ⟨r, hr, hi⟩
      · exact ⟨_, List.mem_cons_self, le_rfl, by simp only; omega⟩
      · rcases List.mem_cons.1 hr with rfl | hr
        · exact ⟨_, List.mem_cons_self, hnext.le.trans hi.1, by have := hi.2; simp only; omega⟩
        · exact ⟨r, List.mem_cons_of_mem _ hr, hi⟩
    · rcases h with rfl | ⟨r, hr, hi⟩
      · exact ⟨_, List.mem_cons_self, le_rfl, Nat.lt_succ_self _⟩
      · exact ⟨r, List.mem_cons_of_mem _ hr, hi⟩

/-- Single bytes of a buffer, in order. -/
structure Changes (size : ℕ) (ds : List (ℕ × ℕ)) : Prop where
  /-- In order. -/
  ascending : ds.Pairwise fun d e => d.1 < e.1
  /-- A single byte inside of the buffer. -/
  byte : ∀ d ∈ ds, d.1 < size ∧ d.2 = 1

theorem Changes.tail {size : ℕ} {d : ℕ × ℕ} {ds : List (ℕ × ℕ)} (h : Changes size (d :: ds)) :
    Changes size ds :=
  ⟨(List.pairwise_cons.1 h.ascending).2, fun e he => h.byte e (List.mem_cons_of_mem _ he)⟩

theorem start_batches {ds : List (ℕ × ℕ)} {s : ℕ × ℕ} (hs : s ∈ batches ds) :
    ∃ d ∈ ds, s.1 = d.1 := by
  induction ds with
  | nil => exact absurd hs List.not_mem_nil
  | cons d ds ih =>
    have hjoin : s ∈ joinNext d (batches ds) := hs
    rcases start_joinNext hjoin with hd | hs
    · exact ⟨d, List.mem_cons_self, hd⟩
    · obtain ⟨e, he, hse⟩ := ih hs
      exact ⟨e, List.mem_cons_of_mem _ he, hse⟩

theorem Changes.before {size : ℕ} {d : ℕ × ℕ} {ds : List (ℕ × ℕ)} (h : Changes size (d :: ds)) :
    ∀ s ∈ batches ds, d.1 < s.1 := by
  intro s hs
  obtain ⟨e, he, hse⟩ := start_batches hs
  rw [hse]
  exact (List.pairwise_cons.1 h.ascending).1 e he

/-- Batches of changes can be sent. -/
theorem Changes.sendable {size : ℕ} {ds : List (ℕ × ℕ)} (h : Changes size ds) :
    Sendable size (batches ds) := by
  induction ds with
  | nil => exact .nil size
  | cons d ds ih =>
    obtain ⟨hlt, hone⟩ := h.byte d List.mem_cons_self
    obtain ⟨pos, count⟩ := d
    obtain rfl : count = 1 := hone
    exact (ih h.tail).joinNext hlt h.before

/-- Batches cover what they are made of. -/
theorem Changes.covers {size : ℕ} {ds : List (ℕ × ℕ)} (h : Changes size ds) {d : ℕ × ℕ}
    (hd : d ∈ ds) : ∃ r ∈ batches ds, Covers r d.1 := by
  induction ds with
  | nil => exact absurd hd List.not_mem_nil
  | cons e ds ih =>
    have hone := (h.byte e List.mem_cons_self).2
    obtain ⟨pos, count⟩ := e
    obtain rfl : count = 1 := hone
    refine covers_joinNext h.before ?_ fun r hr => (h.tail.sendable.count r hr).1
    rcases List.mem_cons.1 hd with rfl | hd
    · exact .inl rfl
    · exact .inr (ih h.tail hd)

theorem mem_diffs {newData oldData : List UInt8} {d : ℕ × ℕ} :
    d ∈ diffs newData oldData ↔
      d.2 = 1 ∧ ∃ n o, newData[d.1]? = some n ∧ oldData[d.1]? = some o ∧ n ≠ o := by
  simp only [diffs, List.mem_filterMap, Option.ite_none_right_eq_some, Prod.exists,
    List.mem_zipIdx_iff_getElem?, List.getElem?_zip_eq_some]
  constructor
  · rintro ⟨n, o, i, ⟨hn, ho⟩, hne, hd⟩
    obtain rfl := Option.some_inj.1 hd
    exact ⟨rfl, n, o, hn, ho, hne⟩
  · rintro ⟨hone, n, o, hn, ho, hne⟩
    exact ⟨n, o, d.1, ⟨hn, ho⟩, hne, Option.some_inj.2 (Prod.ext rfl hone.symm)⟩

/-- The bytes that differ are changes. -/
theorem changes_diffs (newData oldData : List UInt8) :
    Changes newData.length (diffs newData oldData) where
  ascending := by
    have hidx : (newData.zip oldData).zipIdx.Pairwise fun e f => e.2 < f.2 := by
      rw [← List.pairwise_map (f := Prod.snd), List.zipIdx_map_snd]
      exact List.pairwise_lt_range'
    refine List.Pairwise.filterMap _ (fun e f hlt d hd d' hd' => ?_) hidx
    obtain rfl := Option.some_inj.1 (Option.ite_none_right_eq_some.1 hd).2
    obtain rfl := Option.some_inj.1 (Option.ite_none_right_eq_some.1 hd').2
    exact hlt
  byte := by
    intro d hd
    obtain ⟨hone, n, o, hn, -, -⟩ := mem_diffs.1 hd
    exact ⟨(List.getElem?_eq_some_iff.1 hn).1, hone⟩

theorem diffs_self (l : List UInt8) : diffs l l = [] := by
  refine List.eq_nil_iff_forall_not_mem.2 fun d hd => ?_
  obtain ⟨-, n, o, hn, ho, hne⟩ := mem_diffs.1 hd
  exact hne (Option.some_inj.1 (hn.symm.trans ho))

theorem xor_one_ne (b : UInt8) : b ^^^ 1 ≠ b := by
  intro h
  have hz := congrArg (b ^^^ ·) h
  simp at hz

namespace PrinterNeoPixel

variable {chainCount : ℕ} (p : PrinterNeoPixel chainCount)

/-- The messages of a call are one for each batch, also if there is nothing to send. -/
theorem sendData_messages : p.sendData.1 =
    (batches (diffs p.colorData p.oldColorData)).map fun r =>
      ⟨r.1, read p.colorData r.1 r.2⟩ := by
  unfold sendData
  split
  next heq =>
    rw [heq, diffs_self]
    rfl
  next => rfl

@[simp] theorem sendData_colorData : p.sendData.2.colorData = p.colorData := by
  unfold sendData
  split <;> rfl

@[simp] theorem sendData_oldColorData : p.sendData.2.oldColorData = p.colorData := by
  unfold sendData
  split
  next heq => exact heq.symm
  next => rfl

/-- What `__init__` accepts is a map that is not too long, with its first colours. -/
theorem exists_start_of_init {K : Type*} [Field K] [LinearOrder K] [FloorSemiring K]
    {colorOrder : List (List Char)} {ledState : LedState K chainCount}
    {p : PrinterNeoPixel chainCount} (hp : init colorOrder ledState = .ok p) :
    ∃ colorMap h, p = start colorMap h ledState := by
  unfold init at hp
  split at hp
  next =>
    split at hp
    next => cases hp
    next =>
      split at hp
      next hlen => exact ⟨_, hlen, (Except.ok.inj hp).symm⟩
      next => cases hp
  next => cases hp

/-- The ranges of the messages are the batches. -/
theorem range_messages :
    p.sendData.1.map Message.range = batches (diffs p.colorData p.oldColorData) := by
  rw [sendData_messages, List.map_map]
  refine (List.map_congr_left fun r hr => ?_).trans (List.map_id _)
  have hin := (changes_diffs p.colorData p.oldColorData).sendable.inside r hr
  exact Prod.ext rfl (length_read hin)

/-- A byte that differs from what was last sent is in a batch. -/
theorem covers_of_ne {i : ℕ} (h : p.colorData[i]? ≠ p.oldColorData[i]?) :
    ∃ r ∈ batches (diffs p.colorData p.oldColorData), Covers r i := by
  have hlen : p.colorData.length = p.oldColorData.length :=
    p.length_colorData.trans p.length_oldColorData.symm
  rcases lt_or_ge i p.colorData.length with hi | hi
  · refine (changes_diffs _ _).covers (d := (i, 1)) (mem_diffs.2 ⟨rfl, ?_⟩)
    refine ⟨p.colorData[i], p.oldColorData[i], List.getElem?_eq_getElem hi,
      List.getElem?_eq_getElem (hlen ▸ hi), fun heq => h ?_⟩
    rw [List.getElem?_eq_getElem hi, List.getElem?_eq_getElem (hlen ▸ hi), heq]
  · exact absurd (by rw [List.getElem?_eq_none hi, List.getElem?_eq_none (hlen ▸ hi)]) h

end PrinterNeoPixel

/-! ## Calls -/

namespace Neopixel

/-- Runs messages in order, until one shuts the micro-controller down. -/
def execute : Neopixel → List Message → Except String Neopixel
  | n, [] => .ok n
  | n, msg :: msgs => n.commandNeopixelUpdate msg >>= fun n => execute n msgs

theorem and_sign_eq_zero {k : ℕ} (h : k ≤ maxMcuSize) : k &&& 0x8000 = 0 := by
  have hk : k < 2 ^ 15 := lt_of_le_of_lt h (by norm_num [maxMcuSize])
  rw [show 0x8000 = 2 ^ 15 by norm_num, Nat.and_two_pow, Nat.testBit_lt_two_pow hk]
  simp

/-- The configuration of a chain is accepted. -/
theorem commandConfigNeopixel_eq {size : ℕ} (h : size ≤ maxMcuSize) :
    commandConfigNeopixel size = .ok ⟨List.replicate size 0⟩ :=
  if_neg (not_not.2 (and_sign_eq_zero h))

/-- A message whose range is inside of the buffer is executed. -/
theorem commandNeopixelUpdate_eq {n : Neopixel} {msg : Message}
    (hsize : n.dataSize ≤ maxMcuSize) (h : msg.pos + msg.data.length ≤ n.dataSize) :
    n.commandNeopixelUpdate msg = .ok ⟨write n.data msg.pos msg.data⟩ := by
  have hpos : msg.pos &&& 0x8000 = 0 := and_sign_eq_zero (by omega)
  exact if_neg (not_or.2 ⟨not_not.2 hpos, not_lt.2 h⟩)

/-- Messages for ranges of a list copy these ranges. -/
theorem execute_eq {t : List UInt8} (ht : t.length ≤ maxMcuSize) {rs : List (ℕ × ℕ)}
    (hrs : ∀ r ∈ rs, r.1 + r.2 ≤ t.length) {n : Neopixel} (hn : n.dataSize = t.length) :
    n.execute (rs.map fun r => ⟨r.1, read t r.1 r.2⟩) = .ok ⟨copy t n.data rs⟩ := by
  induction rs generalizing n with
  | nil => rfl
  | cons r rs ih =>
    have hr : r.1 + r.2 ≤ t.length := hrs r List.mem_cons_self
    have hfit : r.1 + (read t r.1 r.2).length ≤ n.dataSize := by rw [length_read hr, hn]; exact hr
    rw [List.map_cons, execute, commandNeopixelUpdate_eq (by omega) hfit]
    exact ih (fun s hs => hrs s (List.mem_cons_of_mem _ hs)) (length_write_read hr hn)

end Neopixel

section

variable {K : Type*} [Field K] [LinearOrder K] [FloorSemiring K] {chainCount : ℕ}

/-- The host and the micro-controller, or the reason of its shutdown. -/
structure Link (chainCount : ℕ) where
  /-- The host. -/
  host : PrinterNeoPixel chainCount
  /-- The micro-controller. -/
  mcu : Except String Neopixel

namespace Link

/-- One call of `send_data`, after new colours if there are any. The micro-controller executes the
messages. -/
def call (s : Link chainCount) (ledState : Option (LedState K chainCount)) :
    List Message × Link chainCount :=
  let sent := (ledState.elim s.host s.host.updateColorData).sendData
  (sent.1, ⟨sent.2, s.mcu >>= fun n => n.execute sent.1⟩)

/-- What follows `klippy:connect`, where the first colours are sent. -/
def after (s : Link chainCount) (ledStates : List (LedState K chainCount)) :
    Link chainCount :=
  ledStates.foldl (fun s ledState => (s.call (some ledState)).2)
    (s.call (none : Option (LedState K chainCount))).2

/-- What a call has to do : its messages can be executed and cover every byte that changed, and
when they are executed the micro-controller has the colours of the host. -/
structure Updates (s : Link chainCount) (ledState : Option (LedState K chainCount)) : Prop where
  /-- The ranges are disjoint, in order, short, and inside of the buffer. -/
  sendable : Sendable s.host.colorData.length ((s.call ledState).1.map Message.range)
  /-- Every changed byte is covered. -/
  changed : ∀ i, (s.call ledState).2.host.colorData[i]? ≠ s.host.oldColorData[i]? →
    ∃ msg ∈ (s.call ledState).1, Covers msg.range i
  /-- The buffers are equal after the messages. -/
  mcu : (s.call ledState).2.mcu = .ok ⟨(s.call ledState).2.host.colorData⟩

/-- The micro-controller has what was last sent wherever that is to be shown now. -/
def InStep (p : PrinterNeoPixel chainCount) (n : Neopixel) : Prop :=
  n.dataSize = p.colorData.length ∧
    ∀ i : ℕ, p.oldColorData[i]? = p.colorData[i]? → n.data[i]? = p.colorData[i]?

/-- The messages of the host leave a buffer that is in step equal to that of the host. -/
theorem execute_sendData {p : PrinterNeoPixel chainCount} {n : Neopixel} (h : InStep p n) :
    n.execute p.sendData.1 = .ok ⟨p.colorData⟩ := by
  have hlen : p.colorData.length ≤ maxMcuSize := p.length_colorData ▸ p.length_colorMap
  have hin := (changes_diffs p.colorData p.oldColorData).sendable.inside
  rw [p.sendData_messages, Neopixel.execute_eq hlen hin h.1, copy_eq hin h.1]
  intro i hi
  exact p.covers_of_ne fun heq => hi (h.2 i heq.symm)

/-- A call to a micro-controller that is in step does what it has to. -/
theorem updates_of_inStep {s : Link chainCount} {ledState : Option (LedState K chainCount)}
    {n : Neopixel} (hmcu : s.mcu = .ok n)
    (h : InStep (ledState.elim s.host s.host.updateColorData) n) : Updates s ledState := by
  obtain ⟨p, hp⟩ : ∃ p, ledState.elim s.host s.host.updateColorData = p := ⟨_, rfl⟩
  have hold : p.oldColorData = s.host.oldColorData := by
    subst hp
    cases ledState <;> rfl
  have hsize : p.colorData.length = s.host.colorData.length := by
    subst hp
    cases ledState with
    | none => rfl
    | some ledState => exact (List.length_map _).trans s.host.length_colorData.symm
  have hcall : s.call ledState =
      (p.sendData.1, ⟨p.sendData.2, s.mcu >>= fun n => n.execute p.sendData.1⟩) := by
    rw [call, hp]
  rw [hp] at h
  constructor
  · rw [hcall, p.range_messages, ← hsize]
    exact (changes_diffs _ _).sendable
  · intro i hi
    rw [hcall, p.sendData_colorData, ← hold] at hi
    obtain ⟨r, hr, hi⟩ := p.covers_of_ne hi
    rw [← p.range_messages] at hr
    obtain ⟨msg, hmsg, rfl⟩ := List.mem_map.1 hr
    exact ⟨msg, by rwa [hcall], hi⟩
  · rw [hcall, hmcu, p.sendData_colorData]
    exact execute_sendData h

/-- After a call the micro-controller has what was last sent. -/
structure Synced (s : Link chainCount) : Prop where
  /-- The colours shown are what was last sent. -/
  sent : s.host.oldColorData = s.host.colorData
  /-- The micro-controller has them. -/
  mcu : s.mcu = .ok ⟨s.host.colorData⟩

theorem Updates.synced {s : Link chainCount} {ledState : Option (LedState K chainCount)}
    (h : Updates s ledState) : Synced (s.call ledState).2 where
  sent := by
    show (PrinterNeoPixel.sendData _).2.oldColorData = (PrinterNeoPixel.sendData _).2.colorData
    rw [PrinterNeoPixel.sendData_oldColorData, PrinterNeoPixel.sendData_colorData]
  mcu := h.mcu

/-- New colours are updated if those before were. -/
theorem Synced.updates {s : Link chainCount} (h : Synced s)
    (ledState : LedState K chainCount) : Updates s (some ledState) := by
  refine updates_of_inStep h.mcu ⟨?_, fun i hi => ?_⟩
  · exact s.host.length_colorData.trans (List.length_map _).symm
  · exact (congrArg (·[i]?) h.sent).symm.trans hi

theorem synced_foldl {s : Link chainCount} (h : Synced s)
    (ledStates : List (LedState K chainCount)) :
    Synced (ledStates.foldl (fun s ledState => (s.call (some ledState)).2) s) := by
  induction ledStates generalizing s with
  | nil => exact h
  | cons ledState ledStates ih => exact ih (h.updates ledState).synced

/-- The first call sends every byte : nothing that was in the micro-controller is kept. -/
theorem updates_start (colorMap : List (Fin chainCount × Fin 4))
    (h : colorMap.length ≤ maxMcuSize) (ledState : LedState K chainCount) {n : Neopixel}
    (hn : n.dataSize = colorMap.length) :
    Updates ⟨.start colorMap h ledState, .ok n⟩ (none : Option (LedState K chainCount)) := by
  have hlen : (ledBytes colorMap ledState).length = colorMap.length := List.length_map _
  refine updates_of_inStep rfl ⟨hn.trans hlen.symm, fun i hi => ?_⟩
  change ((ledBytes colorMap ledState).map (· ^^^ 1))[i]? =
    (ledBytes colorMap ledState)[i]? at hi
  change n.data[i]? = (ledBytes colorMap ledState)[i]?
  rcases lt_or_ge i (ledBytes colorMap ledState).length with hlt | hge
  · rw [List.getElem?_map, List.getElem?_eq_getElem hlt, Option.map_some] at hi
    exact absurd (Option.some_inj.1 hi) (xor_one_ne _)
  · rw [List.getElem?_eq_none hge, List.getElem?_eq_none (hn.trans_le (hlen ▸ hge))]

/-- **Partial updates equal a full update** : the first call and every call after it sends messages
that can be executed and cover every change, and leaves the colours of the host in the
micro-controller, whatever was in its buffer at first. -/
theorem partial_updates (colorMap : List (Fin chainCount × Fin 4))
    (h : colorMap.length ≤ maxMcuSize) (ledState : LedState K chainCount) {n : Neopixel}
    (hn : n.dataSize = colorMap.length) (ledStates : List (LedState K chainCount))
    (next : LedState K chainCount) :
    Updates ⟨.start colorMap h ledState, .ok n⟩ (none : Option (LedState K chainCount)) ∧
      Updates (after ⟨.start colorMap h ledState, .ok n⟩ ledStates) (some next) := by
  have hfirst := updates_start colorMap h ledState hn
  exact ⟨hfirst, (synced_foldl hfirst.synced ledStates).updates next⟩

/-- A white LED at full brightness is switched off. -/
theorem partial_updates_white :
    Updates ⟨.start [((0 : Fin 1), (3 : Fin 4))] (by decide)
        fun _ _ => ⟨(1 : ℚ), by norm_num, le_rfl⟩, .ok ⟨[7]⟩⟩ (none : Option (LedState ℚ 1)) ∧
      Updates (after ⟨.start [((0 : Fin 1), (3 : Fin 4))] (by decide)
        fun _ _ => ⟨(1 : ℚ), by norm_num, le_rfl⟩, .ok ⟨[7]⟩⟩ ([] : List (LedState ℚ 1)))
        (some fun _ _ => ⟨(0 : ℚ), le_rfl, by norm_num⟩) :=
  partial_updates [((0 : Fin 1), (3 : Fin 4))] (by decide)
    (fun _ _ => ⟨(1 : ℚ), by norm_num, le_rfl⟩) (n := ⟨[7]⟩) rfl [] _

end Link

end

end NeoPixel

end Thinker
