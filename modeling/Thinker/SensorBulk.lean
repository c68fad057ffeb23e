import Mathlib.Tactic

/-!
# Bulk sensor data

A sensor's entries, each of the same number of bytes, are collected in a buffer. A full buffer is
sent as a block with a sequence number of 16 bits. The host numbers the entries again from the
sequence numbers and the positions in the blocks.

Everything is a function of the entries made since the counters were reset : the buffer (`Packed`),
the blocks that were sent (`blocks`), and what the host takes from the first blocks
(`map_zipIdx_take`).
-/

namespace Thinker

namespace SensorBulk

/-- A byte. -/
abbrev Byte := BitVec 8

/-- `ARRAY_SIZE(sb.data)` and `MAX_BULK_MSG_SIZE`. -/
def maxBulkMsgSize : ℕ := 52

/-- How many entries fill a block. -/
def samplesPerBlock (bytesPerSample : ℕ) : ℕ := maxBulkMsgSize / bytesPerSample

/-- A message `sensor_bulk_data`. -/
structure Block where
  sequence : BitVec 16
  data : List Byte
deriving DecidableEq, Repr

/-- `struct sensor_bulk`. -/
structure Bulk where
  sequence : BitVec 16
  possibleOverflows : BitVec 16
  data : List Byte
deriving DecidableEq, Repr

/-- `sensor_bulk_reset`. -/
def Bulk.reset : Bulk := ⟨0, 0, []⟩

/-- `sensor_bulk_report`. -/
def Bulk.report (sb : Bulk) : Bulk × Block :=
  ({ sb with data := [], sequence := sb.sequence + 1 }, ⟨sb.sequence, sb.data⟩)

/-- Appends an entry, and reports the buffer if no other entry fits. -/
def Bulk.add (bytesPerSample : ℕ) (sb : Bulk) (entry : List Byte) : Bulk × List Block :=
  let sb := { sb with data := sb.data ++ entry }
  if sb.data.length + bytesPerSample > maxBulkMsgSize then (sb.report.1, [sb.report.2])
  else (sb, [])

/-- `d[i*BYTES_PER_SAMPLE:(i+1)*BYTES_PER_SAMPLE]` for each `i`. -/
def chunks (bytesPerSample : ℕ) (data : List Byte) : List (List Byte) :=
  (List.range (data.length / bytesPerSample)).map fun i =>
    (data.drop (i * bytesPerSample)).take bytesPerSample

/-! ## Blocks -/

variable {B : ℕ}

/-- The entries of a block. -/
def group (B : ℕ) (entries : List (List Byte)) (j : ℕ) : List (List Byte) :=
  (entries.drop (j * samplesPerBlock B)).take (samplesPerBlock B)

/-- How many blocks the entries fill. -/
def full (B : ℕ) (entries : List (List Byte)) : ℕ :=
  entries.length / samplesPerBlock B

/-- The blocks that the entries fill. -/
def blocks (B : ℕ) (entries : List (List Byte)) : List Block :=
  (List.range (full B entries)).map fun j => ⟨BitVec.ofNat 16 j, (group B entries j).flatten⟩

/-- The buffer holds the entries that do not fill a block. -/
structure Packed (B : ℕ) (entries : List (List Byte)) (sb : Bulk) : Prop where
  sequence : sb.sequence = BitVec.ofNat 16 (full B entries)
  data : sb.data = (entries.drop (full B entries * samplesPerBlock B)).flatten

theorem length_flatten_of {es : List (List Byte)} (h : ∀ e ∈ es, e.length = B) :
    es.flatten.length = es.length * B := by
  rw [List.length_flatten, List.sum_eq_card_nsmul _ B, List.length_map, smul_eq_mul]
  intro k hk
  obtain ⟨e, he, rfl⟩ := List.mem_map.1 hk
  exact h e he

theorem Packed.reset (B : ℕ) : Packed B [] .reset where
  sequence := by rw [full, List.length_nil, Nat.zero_div]; rfl
  data := by simp [Bulk.reset]

@[simp] theorem blocks_nil : blocks B [] = [] := by
  simp [blocks, full]

@[simp] theorem length_blocks (entries : List (List Byte)) :
    (blocks B entries).length = full B entries := by
  rw [blocks, List.length_map, List.length_range]

theorem samplesPerBlock_pos (hB : 0 < B) (hB' : B ≤ maxBulkMsgSize) : 0 < samplesPerBlock B :=
  Nat.div_pos hB' hB

theorem full_mul_le (entries : List (List Byte)) :
    full B entries * samplesPerBlock B ≤ entries.length := Nat.div_mul_le_self _ _

/-- An entry more does not change a block that is full. -/
theorem group_append {entries : List (List Byte)} {e : List Byte} {j : ℕ}
    (hj : j < full B entries) : group B (entries ++ [e]) j = group B entries j := by
  have hle : (j + 1) * samplesPerBlock B ≤ entries.length :=
    (Nat.mul_le_mul_right _ hj).trans (full_mul_le entries)
  rw [Nat.succ_mul] at hle
  rw [group, group, List.drop_append_of_le_length (by omega), List.take_append_of_le_length]
  rw [List.length_drop]
  omega

/-- An entry is appended to the buffer, which is reported if it is full then. -/
theorem Packed.add {entries : List (List Byte)} {sb : Bulk} (h : Packed B entries sb)
    (hB : 0 < B) (hB' : B ≤ maxBulkMsgSize) {e : List Byte}
    (hlen : ∀ e' ∈ entries ++ [e], e'.length = B) :
    Packed B (entries ++ [e]) (sb.add B e).1 ∧
      blocks B (entries ++ [e]) = blocks B entries ++ (sb.add B e).2 := by
  have hN := samplesPerBlock_pos hB hB'
  have hle := full_mul_le (B := B) entries
  obtain ⟨r, hr⟩ : ∃ r, entries.length = full B entries * samplesPerBlock B + r :=
    ⟨_, (Nat.add_sub_of_le hle).symm⟩
  have hrlt : r < samplesPerBlock B := by
    have := Nat.lt_div_mul_add hN (a := entries.length)
    rw [full] at hr
    omega
  -- the buffer before and after the entry is appended
  have hdata : sb.data ++ e =
      ((entries ++ [e]).drop (full B entries * samplesPerBlock B)).flatten := by
    rw [List.drop_append_of_le_length hle, List.flatten_append, h.data]
    simp
  have hcount : (sb.data ++ e).length = (r + 1) * B := by
    rw [hdata, length_flatten_of fun e' he' => hlen e' (List.mem_of_mem_drop he'), List.length_drop,
      List.length_append, List.length_singleton, hr]
    congr 1
    omega
  have hfull : (sb.data ++ e).length + B > maxBulkMsgSize ↔ r + 1 = samplesPerBlock B := by
    rw [hcount, ← Nat.succ_mul, gt_iff_lt, ← Nat.div_lt_iff_lt_mul hB]
    show samplesPerBlock B < r + 2 ↔ _
    omega
  have hlength : (entries ++ [e]).length = full B entries * samplesPerBlock B + (r + 1) := by
    rw [List.length_append, List.length_singleton, hr]
    omega
  have hblocks : (List.range (full B entries)).map (fun j =>
      (⟨BitVec.ofNat 16 j, (group B (entries ++ [e]) j).flatten⟩ : Block)) = blocks B entries := by
    refine List.map_congr_left fun j hj => ?_
    rw [group_append (List.mem_range.1 hj)]
  by_cases hlast : r + 1 = samplesPerBlock B
  · have hnext : full B (entries ++ [e]) = full B entries + 1 := by
      rw [full, hlength, hlast, ← Nat.succ_mul, Nat.mul_div_cancel _ hN]
    have hgroup : (group B (entries ++ [e]) (full B entries)).flatten = sb.data ++ e := by
      rw [group, hdata, List.take_of_length_le]
      rw [List.length_drop, hlength]
      omega
    have hadd : sb.add B e =
        ({ sb with data := [], sequence := sb.sequence + 1 }, [⟨sb.sequence, sb.data ++ e⟩]) := by
      rw [Bulk.add, if_pos (hfull.2 hlast)]
      rfl
    rw [hadd]
    refine ⟨⟨?_, ?_⟩, ?_⟩
    · rw [hnext, h.sequence]
      exact (BitVec.ofNat_add _ _).symm
    · rw [hnext, List.drop_of_length_le, List.flatten_nil]
      rw [hlength, hlast, Nat.succ_mul]
    · rw [blocks, hnext, List.range_succ, List.map_append, hblocks, List.map_singleton, hgroup,
        h.sequence]
  · have hsame : full B (entries ++ [e]) = full B entries := by
      rw [full, hlength, Nat.mul_comm, Nat.mul_add_div hN, Nat.div_eq_of_lt (by omega),
        Nat.add_zero]
    have hadd : sb.add B e = ({ sb with data := sb.data ++ e }, []) := by
      rw [Bulk.add, if_neg (mt hfull.1 hlast)]
    rw [hadd]
    refine ⟨⟨?_, ?_⟩, ?_⟩
    · rw [hsame]
      exact h.sequence
    · rw [hsame]
      exact hdata
    · rw [blocks, hsame, hblocks, List.append_nil]

/-! ## The host -/

theorem chunks_flatten (hB : 0 < B) {es : List (List Byte)} (h : ∀ e ∈ es, e.length = B) :
    chunks B es.flatten = es := by
  induction es with
  | nil => simp [chunks]
  | cons e es ih =>
    have he := h e List.mem_cons_self
    have hes := fun e' he' => h e' (List.mem_cons_of_mem e he')
    have htail : (List.range es.length).map (fun i => (es.flatten.drop (i * B)).take B) = es := by
      have ih := ih hes
      rwa [chunks, length_flatten_of hes, Nat.mul_div_cancel _ hB] at ih
    rw [chunks, length_flatten_of h, List.length_cons, Nat.mul_div_cancel _ hB,
      List.range_succ_eq_map, List.map_cons, List.map_map, Nat.zero_mul, List.drop_zero,
      List.flatten_cons, List.take_left' he]
    refine congrArg _ (Eq.trans (List.map_congr_left fun i _ => ?_) htail)
    show ((e ++ es.flatten).drop ((i + 1) * B)).take B = _
    rw [Nat.succ_mul, Nat.add_comm, ← List.drop_drop, List.drop_left' he]

/-- A full block has its number of entries. -/
theorem length_group {entries : List (List Byte)} {j : ℕ} (hj : j < full B entries) :
    (group B entries j).length = samplesPerBlock B := by
  have hle : (j + 1) * samplesPerBlock B ≤ entries.length :=
    (Nat.mul_le_mul_right _ hj).trans (full_mul_le entries)
  rw [Nat.succ_mul] at hle
  rw [group, List.length_take, List.length_drop]
  omega

theorem length_of_mem_group {entries : List (List Byte)} (h : ∀ e ∈ entries, e.length = B) (j : ℕ) :
    ∀ e ∈ group B entries j, e.length = B := fun e he =>
  h e (List.mem_of_mem_drop (List.mem_of_mem_take he))

/-- The first of the blocks from a position on. -/
theorem drop_blocks_eq_cons {entries : List (List Byte)} {p : ℕ} {b : Block} {bs : List Block}
    (h : (blocks B entries).drop p = b :: bs) :
    p < full B entries ∧ b = ⟨BitVec.ofNat 16 p, (group B entries p).flatten⟩ ∧
      (blocks B entries).drop (p + 1) = bs := by
  have hlt : p < full B entries := by
    have hlen := congrArg List.length h
    rw [List.length_drop, length_blocks, List.length_cons] at hlen
    omega
  have hget : (blocks B entries).drop p =
      ⟨BitVec.ofNat 16 p, (group B entries p).flatten⟩ :: (blocks B entries).drop (p + 1) := by
    rw [List.drop_eq_getElem_cons (by rwa [length_blocks])]
    simp [blocks]
  obtain ⟨hb, hbs⟩ := List.cons.inj (hget.symm.trans h)
  exact ⟨hlt, hb.symm, hbs⟩

/-- The entries of a block have the numbers that follow those of the blocks before. -/
theorem zipIdx_take_succ {entries : List (List Byte)} {p : ℕ} (hp : p < full B entries) :
    (entries.take ((p + 1) * samplesPerBlock B)).zipIdx =
      (entries.take (p * samplesPerBlock B)).zipIdx ++
        (group B entries p).zipIdx (p * samplesPerBlock B) := by
  have hlen : (entries.take (p * samplesPerBlock B)).length = p * samplesPerBlock B :=
    List.length_take_of_le ((Nat.mul_le_mul_right _ hp.le).trans (full_mul_le entries))
  rw [Nat.succ_mul, List.take_add, List.zipIdx_append, hlen, Nat.zero_add, group]

/-- A host that decodes the entries of each block with their numbers decodes the entries in
order. -/
theorem map_zipIdx_take {α : Type*} {entries : List (List Byte)} {p : ℕ} {bs rest : List Block}
    {decode : Block → List α} {one : List Byte × ℕ → α}
    (hbs : (blocks B entries).drop p = bs ++ rest)
    (hdecode : ∀ j, p ≤ j → j < p + bs.length →
      decode ⟨BitVec.ofNat 16 j, (group B entries j).flatten⟩ =
        ((group B entries j).zipIdx (j * samplesPerBlock B)).map one) :
    (entries.take ((p + bs.length) * samplesPerBlock B)).zipIdx.map one =
      (entries.take (p * samplesPerBlock B)).zipIdx.map one ++ bs.flatMap decode := by
  induction bs generalizing p with
  | nil => simp
  | cons b bs ih =>
    obtain ⟨hlt, rfl, hrest⟩ := drop_blocks_eq_cons hbs
    have hnext : p + (bs.length + 1) = p + 1 + bs.length := by omega
    have ih := ih hrest fun j hj hj' => hdecode j (by omega) (by simpa [hnext] using hj')
    rw [List.length_cons, hnext, ih, zipIdx_take_succ hlt, List.map_append, List.append_assoc,
      List.flatMap_cons, hdecode p le_rfl (by simp)]

end SensorBulk

end Thinker
