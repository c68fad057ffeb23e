import Thinker.MessageBlock
import Mathlib.Data.List.GetD

/-!
# Resynchronisation does not depend on how bytes arrive

`scan` reads a whole stream at once : the blocks in it, and the stretches that are no block.
What a buffer looks like does not change when more bytes arrive behind it (`checkBlock_append`),
so a call of a parser on the bytes at hand is one step of `scan` on the whole stream
(`HostInput.Reads`, `Console.Reads`).

The host looks for the SYNC byte only once `MESSAGE_MIN` bytes are there. So its `need_sync` may
still be set for bytes that it has not searched yet (`HostInput.searched`).
-/

namespace Thinker

/-! ## More bytes behind a buffer -/

theorem messageMin_le_length {buf : List UInt8} (h : checkBlock buf ≠ .more) : 5 ≤ buf.length := by
  by_contra hlt
  unfold checkBlock at h
  rw [if_pos (by unfold messageMin; omega)] at h
  exact h rfl

theorem checkBlock_append {buf : List UInt8} (h : checkBlock buf ≠ .more) (rest : List UInt8) :
    checkBlock (buf ++ rest) = checkBlock buf := by
  have hmin := messageMin_le_length h
  have hlen : ¬buf.length < messageMin := by
    unfold messageMin
    omega
  have hlen' : ¬(buf ++ rest).length < messageMin := by
    rw [List.length_append]
    omega
  unfold checkBlock at h ⊢
  rw [if_neg hlen] at h ⊢
  rw [if_neg hlen', List.getD_append _ _ _ _ (by omega), List.getD_append _ _ _ _ (by omega)]
  dsimp only at h ⊢
  by_cases hsize : (buf.getD 0 0).toNat < messageMin ∨ messageMax < (buf.getD 0 0).toNat
  · rw [if_pos hsize, if_pos hsize]
  by_cases hseq : buf.getD 1 0 &&& 0xf0 ≠ 0x10
  · rw [if_neg hsize, if_neg hsize, if_pos hseq, if_pos hseq]
  rw [if_neg hsize, if_neg hseq] at h ⊢
  have hfull : ¬buf.length < (buf.getD 0 0).toNat := fun hlt => h (if_pos hlt)
  have hfull' : ¬(buf ++ rest).length < (buf.getD 0 0).toNat := by
    rw [List.length_append]
    omega
  have hpos : 0 < (buf.getD 0 0).toNat := by
    unfold messageMin at hsize
    omega
  rw [if_neg hsize, if_neg hseq, if_neg hfull, if_neg hfull',
    List.getD_append _ _ _ _ (by omega), List.getD_append _ _ _ _ (by omega),
    List.getD_append _ _ _ _ (by omega), List.take_append_of_le_length (by omega)]
/-- A valid block is complete. -/
theorem valid_le_length {buf : List UInt8} {msglen : ℕ} (h : checkBlock buf = .valid msglen) :
    5 ≤ msglen ∧ msglen ≤ buf.length := by
  unfold checkBlock at h
  dsimp only at h
  split_ifs at h with hlen hsize hseq hfull hsync hcrc
  obtain rfl := BlockCheck.valid.inj h
  unfold messageMin at hsize
  omega

theorem memchrSync_lt {buf : List UInt8} {i : ℕ} (h : memchrSync buf = some i) :
    i < buf.length := by
  obtain ⟨hi, -⟩ := List.findIdx?_eq_some_iff_getElem.1 h
  exact hi

theorem memchrSync_append_some {buf : List UInt8} {i : ℕ} (h : memchrSync buf = some i)
    (rest : List UInt8) : memchrSync (buf ++ rest) = some i := by
  unfold memchrSync at h ⊢
  rw [List.findIdx?_append, h]
  rfl

theorem memchrSync_append_none {buf : List UInt8} (h : memchrSync buf = none)
    (rest : List UInt8) : memchrSync (buf ++ rest) = (memchrSync rest).map (· + buf.length) := by
  unfold memchrSync at h ⊢
  rw [List.findIdx?_append, h]
  rfl

/-! ## Reading a whole stream -/

/-- What is in a stream, whether its end is searched for a SYNC byte, and the bytes at its end
that are no block yet. -/
structure Reading where
  items : List (Item (List UInt8))
  needSync : Bool
  rest : List UInt8

/-- One more item in front. -/
def Reading.cons (item : Item (List UInt8)) (r : Reading) : Reading :=
  { r with items := item :: r.items }

/-- Read a stream, at first up to a SYNC byte if it is needed. -/
def scan (needSync : Bool) (l : List UInt8) : Reading :=
  match needSync with
  | true =>
    match hsync : memchrSync l with
    | none => ⟨[], true, []⟩
    | some i => scan false (l.drop (i + 1))
  | false =>
    match _hcheck : checkBlock l with
    | .more => ⟨[], false, l⟩
    | .error =>
      if l.getD 0 0 = messageSync then scan false (l.drop 1) else (scan true l).cons .garbage
    | .valid msglen => (scan false (l.drop msglen)).cons (.frame (l.take msglen))
termination_by (l.length, if needSync then 0 else 1)
decreasing_by
  · have := memchrSync_lt hsync
    apply Prod.Lex.left
    rw [List.length_drop]
    omega
  · have hne : checkBlock l ≠ .more := by
      rw [_hcheck]
      decide
    have := messageMin_le_length hne
    apply Prod.Lex.left
    rw [List.length_drop]
    omega
  · apply Prod.Lex.right
    decide
  · obtain ⟨h5, hle⟩ := valid_le_length _hcheck
    apply Prod.Lex.left
    rw [List.length_drop]
    omega

section

variable {l buf : List UInt8}

theorem scan_search (h : memchrSync l = none) : scan true l = ⟨[], true, []⟩ := by
  rw [scan]
  split
  · rfl
  · rename_i heq
    rw [h] at heq
    cases heq

theorem scan_found {i : ℕ} (h : memchrSync l = some i) :
    scan true l = scan false (l.drop (i + 1)) := by
  rw [scan]
  split
  · rename_i heq
    rw [h] at heq
    cases heq
  · rename_i heq
    rw [h] at heq
    rw [Option.some_inj.1 heq]

theorem scan_more (h : checkBlock l = .more) : scan false l = ⟨[], false, l⟩ := by
  rw [scan]
  split
  · rfl
  all_goals
    rename_i heq
    rw [h] at heq
    cases heq

theorem scan_error (h : checkBlock l = .error) : scan false l =
    if l.getD 0 0 = messageSync then scan false (l.drop 1)
    else (scan true l).cons .garbage := by
  conv_lhs => rw [scan]
  split
  · rename_i heq
    rw [h] at heq
    cases heq
  · rfl
  · rename_i heq
    rw [h] at heq
    cases heq

theorem scan_valid {msglen : ℕ} (h : checkBlock l = .valid msglen) :
    scan false l = (scan false (l.drop msglen)).cons (.frame (l.take msglen)) := by
  rw [scan]
  split
  · rename_i heq
    rw [h] at heq
    cases heq
  · rename_i heq
    rw [h] at heq
    cases heq
  · rename_i heq
    rw [h] at heq
    rw [BlockCheck.valid.inj heq]

/-- Bytes without a SYNC byte are discarded. -/
theorem scan_append_search (h : memchrSync buf = none) (rest : List UInt8) :
    scan true (buf ++ rest) = scan true rest := by
  have happ := memchrSync_append_none h rest
  cases hrest : memchrSync rest with
  | none =>
    rw [hrest] at happ
    rw [scan_search happ, scan_search hrest]
  | some i =>
    rw [hrest] at happ
    rw [scan_found happ, scan_found hrest, Nat.add_right_comm, List.drop_append,
      List.drop_eq_nil_of_le (by omega), List.nil_append, Nat.add_sub_cancel]

theorem scan_append_found {i : ℕ} (h : memchrSync buf = some i) (rest : List UInt8) :
    scan true (buf ++ rest) = scan false (buf.drop (i + 1) ++ rest) := by
  rw [scan_found (memchrSync_append_some h rest),
    List.drop_append_of_le_length (by have := memchrSync_lt h; omega)]

theorem scan_append_error (h : checkBlock buf = .error) (rest : List UInt8) :
    scan false (buf ++ rest) =
      if buf.getD 0 0 = messageSync then scan false (buf.drop 1 ++ rest)
      else (scan true (buf ++ rest)).cons .garbage := by
  have hne : checkBlock buf ≠ .more := by
    rw [h]
    decide
  have hmin := messageMin_le_length hne
  rw [scan_error ((checkBlock_append hne rest).trans h), List.getD_append _ _ _ _ (by omega),
    List.drop_append_of_le_length (by omega)]

theorem scan_append_valid {msglen : ℕ} (h : checkBlock buf = .valid msglen) (rest : List UInt8) :
    scan false (buf ++ rest) =
      (scan false (buf.drop msglen ++ rest)).cons (.frame (buf.take msglen)) := by
  have hne : checkBlock buf ≠ .more := by
    rw [h]
    simp
  obtain ⟨-, hle⟩ := valid_le_length h
  rw [scan_valid ((checkBlock_append hne rest).trans h), List.drop_append_of_le_length hle,
    List.take_append_of_le_length hle]

end

/-! ## The host reads the stream -/

/-- The blocks of a stream. -/
def Reading.frames (r : Reading) : List (List UInt8) :=
  r.items.filterMap Item.frame?

namespace HostInput

/-- What was found, and what the buffer still holds, is what is in the stream. -/
def Reads (needSync : Bool) (s : HostInput) : Prop :=
  ∀ rest,
    s.messages ++ (scan s.needSync (s.inputBuf ++ rest)).frames =
      (scan needSync (s.arrived ++ rest)).frames ∧
    (scan s.needSync (s.inputBuf ++ rest)).needSync =
      (scan needSync (s.arrived ++ rest)).needSync ∧
    (scan s.needSync (s.inputBuf ++ rest)).rest = (scan needSync (s.arrived ++ rest)).rest

/-- Once the buffer has been searched for a SYNC byte, if it is needed. -/
def searched (s : HostInput) : Bool × List UInt8 :=
  match s.needSync, memchrSync s.inputBuf with
  | false, _ => (false, s.inputBuf)
  | true, none => (true, [])
  | true, some i => (false, s.inputBuf.drop (i + 1))

/-- What discarding bytes does. -/
theorem msgblockError_spec (buf rest : List UInt8) (hbuf : buf ≠ []) :
    ∃ len : ℕ, 0 < len ∧ (msgblockError buf).1 = -len ∧
      scan (msgblockError buf).2 (buf.drop len ++ rest) = scan true (buf ++ rest) := by
  unfold msgblockError
  cases h : memchrSync buf with
  | none =>
    refine ⟨buf.length, List.length_pos_of_ne_nil hbuf, rfl, ?_⟩
    rw [scan_append_search h, List.drop_length, List.nil_append]
  | some i => exact ⟨i + 1, Nat.succ_pos i, by push_cast; rfl, (scan_append_found h rest).symm⟩

variable {needSync : Bool} {s t : HostInput}

theorem Reads.start (needSync : Bool) : Reads needSync ⟨needSync, [], [], []⟩ :=
  fun _ => ⟨List.nil_append _, rfl, rfl⟩

/-- A step of the parser reads the same from the rest of the stream. -/
theorem Reads.of_scan (h : Reads needSync s) (harrived : t.arrived = s.arrived)
    (hscan : ∀ rest,
      t.messages ++ (scan t.needSync (t.inputBuf ++ rest)).frames =
        s.messages ++ (scan s.needSync (s.inputBuf ++ rest)).frames ∧
      (scan t.needSync (t.inputBuf ++ rest)).needSync =
        (scan s.needSync (s.inputBuf ++ rest)).needSync ∧
      (scan t.needSync (t.inputBuf ++ rest)).rest =
        (scan s.needSync (s.inputBuf ++ rest)).rest) : Reads needSync t := by
  intro rest
  obtain ⟨hframes, hneed, hrest⟩ := hscan rest
  rw [hframes, hneed, hrest, harrived]
  exact h rest

/-- Discarding bytes where no block starts. -/
theorem Reads.error (h : Reads needSync s) (hbuf : s.inputBuf ≠ [])
    (hscan : ∀ rest, (scan s.needSync (s.inputBuf ++ rest)).frames =
        (scan true (s.inputBuf ++ rest)).frames ∧
      (scan s.needSync (s.inputBuf ++ rest)).needSync =
        (scan true (s.inputBuf ++ rest)).needSync ∧
      (scan s.needSync (s.inputBuf ++ rest)).rest = (scan true (s.inputBuf ++ rest)).rest)
    (hcheck : msgblockCheck s.needSync s.inputBuf = msgblockError s.inputBuf)
    (ht : s.inputEvent = some t) : Reads needSync t := by
  obtain ⟨len, hlen, hret, -⟩ := msgblockError_spec s.inputBuf [] hbuf
  unfold inputEvent at ht
  rw [hcheck] at ht
  dsimp only at ht
  rw [hret, if_neg (by omega), if_neg (by omega)] at ht
  obtain rfl := Option.some_inj.1 ht
  refine h.of_scan rfl fun rest => ?_
  obtain ⟨len', -, hret', heq⟩ := msgblockError_spec s.inputBuf rest hbuf
  obtain rfl : len' = len := by omega
  obtain ⟨hframes, hneed, hrest⟩ := hscan rest
  have hdrop : (-(-(len' : ℤ))).toNat = len' := by omega
  dsimp only
  rw [hdrop, heq, hframes, hneed, hrest]
  exact ⟨rfl, rfl, rfl⟩

theorem Reads.inputEvent (h : Reads needSync s) (ht : s.inputEvent = some t) :
    Reads needSync t := by
  by_cases hmin : s.inputBuf.length < messageMin
  · unfold HostInput.inputEvent msgblockCheck at ht
    rw [if_pos hmin] at ht
    cases ht
  have hbuf : s.inputBuf ≠ [] := by
    intro hnil
    rw [hnil] at hmin
    exact hmin (by decide)
  cases hneed : s.needSync with
  | true =>
    refine h.error hbuf (fun rest => ?_) ?_ ht
    · rw [hneed]
      exact ⟨rfl, rfl, rfl⟩
    · unfold msgblockCheck
      rw [if_neg hmin, hneed, if_pos rfl]
  | false =>
    cases hcheck : checkBlock s.inputBuf with
    | more =>
      unfold HostInput.inputEvent msgblockCheck at ht
      rw [if_neg hmin, hneed, if_neg Bool.false_ne_true, hcheck] at ht
      cases ht
    | error =>
      refine h.error hbuf (fun rest => ?_) ?_ ht
      · rw [hneed, scan_append_error hcheck]
        split_ifs with hsync
        · -- a SYNC byte in front is the next SYNC byte
          have hmem : memchrSync s.inputBuf = some 0 := by
            obtain ⟨b, l, hcons⟩ := List.exists_cons_of_ne_nil hbuf
            rw [hcons] at hsync ⊢
            have hb : b = messageSync := hsync
            simp [memchrSync, List.findIdx?_cons, hb]
          rw [scan_append_found hmem]
          exact ⟨rfl, rfl, rfl⟩
        · exact ⟨rfl, rfl, rfl⟩
      · unfold msgblockCheck
        rw [if_neg hmin, hneed, if_neg Bool.false_ne_true, hcheck]
    | valid msglen =>
      obtain ⟨h5, -⟩ := valid_le_length hcheck
      unfold HostInput.inputEvent msgblockCheck at ht
      rw [if_neg hmin, hneed, if_neg Bool.false_ne_true, hcheck] at ht
      dsimp only at ht
      rw [if_neg (by omega), if_pos (by omega), Int.toNat_natCast] at ht
      obtain rfl := Option.some_inj.1 ht
      refine h.of_scan rfl fun rest => ?_
      rw [hneed, scan_append_valid hcheck]
      refine ⟨?_, rfl, rfl⟩
      rw [List.append_assoc]
      rfl

theorem reads_of_reachable (h : (hostInput needSync).Reachable s) : Reads needSync s := by
  refine h.invariant ?_ ?_
  · rintro s rfl
    exact Reads.start needSync
  · rintro s a t hs - ht
    cases a with
    | arrive data =>
      obtain rfl := Option.some_inj.1 ht
      intro rest
      have := hs (data ++ rest)
      rwa [← List.append_assoc, ← List.append_assoc] at this
    | parse => exact hs.inputEvent ht

/-- The parser makes a step where it discards bytes or has found a block. -/
theorem inputEvent_ne_none (h : (msgblockCheck s.needSync s.inputBuf).1 ≠ 0) :
    s.inputEvent ≠ none := by
  unfold inputEvent
  dsimp only
  rw [if_neg h]
  split_ifs <;> simp

/-- Where the parser needs more data, the buffer is short, or holds the start of a block. -/
theorem short_or_more (h : s.inputEvent = none) :
    s.inputBuf.length < messageMin ∨ s.needSync = false ∧ checkBlock s.inputBuf = .more := by
  by_contra hno
  obtain ⟨hmin, hno⟩ := not_or.1 hno
  have hbuf : s.inputBuf ≠ [] := by
    intro hnil
    rw [hnil] at hmin
    exact hmin (by decide)
  obtain ⟨len, hlen, hret, -⟩ := msgblockError_spec s.inputBuf [] hbuf
  refine inputEvent_ne_none ?_ h
  unfold msgblockCheck
  rw [if_neg hmin]
  cases hneed : s.needSync with
  | true =>
    rw [if_pos rfl, hret]
    omega
  | false =>
    rw [if_neg Bool.false_ne_true]
    cases hcheck : checkBlock s.inputBuf with
    | more => exact absurd ⟨hneed, hcheck⟩ hno
    | error =>
      dsimp only
      rw [hret]
      omega
    | valid msglen =>
      obtain ⟨h5, -⟩ := valid_le_length hcheck
      dsimp only
      omega

/-- There no block is left in the buffer. -/
theorem scan_of_rest (h : s.inputEvent = none) :
    (scan s.needSync s.inputBuf).frames = [] ∧
    ((scan s.needSync s.inputBuf).needSync, (scan s.needSync s.inputBuf).rest) = s.searched := by
  unfold searched
  cases hneed : s.needSync with
  | false =>
    have hmore : checkBlock s.inputBuf = .more := by
      rcases short_or_more h with hmin | ⟨-, hmore⟩
      · exact if_pos hmin
      · exact hmore
    rw [scan_more hmore]
    exact ⟨rfl, rfl⟩
  | true =>
    have hmin : s.inputBuf.length < messageMin := by
      rcases short_or_more h with hmin | ⟨hfalse, -⟩
      · exact hmin
      · rw [hneed] at hfalse
        cases hfalse
    cases hsync : memchrSync s.inputBuf with
    | none =>
      rw [scan_search hsync]
      exact ⟨rfl, rfl⟩
    | some i =>
      have hmore : checkBlock (s.inputBuf.drop (i + 1)) = .more := by
        refine if_pos ?_
        rw [List.length_drop]
        omega
      rw [scan_found hsync, scan_more hmore]
      exact ⟨rfl, rfl⟩

/-- What the host has found once it needs more data. -/
theorem messages_eq (h : (hostInput needSync).Reachable s) (hrest : s.inputEvent = none) :
    s.messages = (scan needSync s.arrived).frames ∧
    s.searched = ((scan needSync s.arrived).needSync, (scan needSync s.arrived).rest) := by
  obtain ⟨hframes, hneed, hrest'⟩ := reads_of_reachable h []
  obtain ⟨hnil, hsearched⟩ := scan_of_rest hrest
  simp only [List.append_nil] at hframes hneed hrest'
  rw [hnil, List.append_nil] at hframes
  exact ⟨hframes, by rw [← hsearched, hneed, hrest']⟩

end HostInput

/-! ## The firmware reads the stream -/

/-- What the firmware does with the items of a stream : the blocks that it accepts and the naks,
and the rest of its state behind them. -/
def respond (needValid : Bool) (nextSequence : UInt8) :
    List (Item (List UInt8)) → List Found × Bool × UInt8
  | [] => ([], needValid, nextSequence)
  | .garbage :: items =>
    let r := respond true nextSequence items
    (if needValid then r.1 else .nak nextSequence :: r.1, r.2)
  | .frame f :: items =>
    let msgseq := f.getD 1 0
    if msgseq = nextSequence then
      let r := respond false (((msgseq + 1) &&& 0x0f) ||| 0x10) items
      (.block f :: r.1, r.2)
    else
      let r := respond false nextSequence items
      (.nak nextSequence :: r.1, r.2)

namespace Console

/-- What was found, and what the buffer still holds, is what is in the stream. -/
structure Reads (nextSequence : UInt8) (s : Console) : Prop where
  /-- A stretch that is searched has been answered. -/
  needValid : s.state.needSync = true → s.state.needValid = true
  found : ∀ rest, (s.found ++
      (respond s.state.needValid s.state.nextSequence
        (scan s.state.needSync (s.receiveBuf ++ rest)).items).1,
      (respond s.state.needValid s.state.nextSequence
        (scan s.state.needSync (s.receiveBuf ++ rest)).items).2) =
    respond false nextSequence (scan false (s.arrived ++ rest)).items
  end_eq : ∀ rest, (scan s.state.needSync (s.receiveBuf ++ rest)).needSync =
      (scan false (s.arrived ++ rest)).needSync ∧
    (scan s.state.needSync (s.receiveBuf ++ rest)).rest = (scan false (s.arrived ++ rest)).rest

variable {nextSequence : UInt8} {s t : Console}

theorem Reads.start (nextSequence : UInt8) :
    Reads nextSequence ⟨⟨false, false, nextSequence⟩, [], [], []⟩ :=
  ⟨fun h => absurd h Bool.false_ne_true, fun _ => rfl, fun _ => ⟨rfl, rfl⟩⟩

/-- What searching for a SYNC byte does. -/
theorem search_spec (m : SyncState) (hm : m.needSync = true) (buf rest : List UInt8) :
    (m.search buf).ret = -1 ∧ (m.search buf).state.nextSequence = m.nextSequence ∧
    (m.search buf).state.needValid = true ∧ (m.search buf).acknak = !m.needValid ∧
    scan (m.search buf).state.needSync (buf.drop (m.search buf).popCount ++ rest) =
      scan true (buf ++ rest) := by
  unfold SyncState.search
  cases h : memchrSync buf with
  | none =>
    rw [scan_append_search h]
    cases hv : m.needValid <;> simp [hv, hm]
  | some i =>
    rw [scan_append_found h]
    cases m.needValid <;> simp

/-- A step of the parser reads the same from the rest of the stream. -/
theorem Reads.of_scan (h : Reads nextSequence s) (harrived : t.arrived = s.arrived)
    (hvalid : t.state.needSync = true → t.state.needValid = true) (out : List Found)
    (hfound : t.found = s.found ++ out)
    (hscan : ∀ rest, respond s.state.needValid s.state.nextSequence
          (scan s.state.needSync (s.receiveBuf ++ rest)).items =
        (out ++ (respond t.state.needValid t.state.nextSequence
            (scan t.state.needSync (t.receiveBuf ++ rest)).items).1,
          (respond t.state.needValid t.state.nextSequence
            (scan t.state.needSync (t.receiveBuf ++ rest)).items).2) ∧
      (scan t.state.needSync (t.receiveBuf ++ rest)).needSync =
        (scan s.state.needSync (s.receiveBuf ++ rest)).needSync ∧
      (scan t.state.needSync (t.receiveBuf ++ rest)).rest =
        (scan s.state.needSync (s.receiveBuf ++ rest)).rest) : Reads nextSequence t := by
  refine ⟨hvalid, fun rest => ?_, fun rest => ?_⟩
  · obtain ⟨hrespond, -, -⟩ := hscan rest
    have := h.found rest
    rw [hrespond] at this
    rw [hfound, harrived, ← this, List.append_assoc]
  · obtain ⟨-, hneed, hrest⟩ := hscan rest
    rw [hneed, hrest, harrived]
    exact h.end_eq rest

/-- Searching for a SYNC byte in a stretch that may have been answered. -/
theorem Reads.search (h : Reads nextSequence s) {m : SyncState} (hm : m.needSync = true)
    (hcheck : s.state.commandFindBlock s.receiveBuf = m.search s.receiveBuf)
    (hnext : m.nextSequence = s.state.nextSequence)
    (hscan : ∀ rest, respond s.state.needValid s.state.nextSequence
          (scan s.state.needSync (s.receiveBuf ++ rest)).items =
        ((if m.needValid then [] else [Found.nak s.state.nextSequence]) ++
          (respond true s.state.nextSequence (scan true (s.receiveBuf ++ rest)).items).1,
          (respond true s.state.nextSequence (scan true (s.receiveBuf ++ rest)).items).2) ∧
      (scan s.state.needSync (s.receiveBuf ++ rest)).needSync =
        (scan true (s.receiveBuf ++ rest)).needSync ∧
      (scan s.state.needSync (s.receiveBuf ++ rest)).rest =
        (scan true (s.receiveBuf ++ rest)).rest) (ht : s.consoleTask = some t) : Reads nextSequence t := by
  obtain ⟨hret, hseq, hvalid, hnak, -⟩ := search_spec m hm s.receiveBuf []
  unfold Console.consoleTask at ht
  rw [hcheck] at ht
  dsimp only at ht
  rw [hret, if_neg (by decide), if_neg (by decide), hnak, hseq, hnext] at ht
  obtain rfl := Option.some_inj.1 ht
  refine h.of_scan rfl (fun _ => hvalid) _ rfl fun rest => ?_
  obtain ⟨-, hseq, hvalid, -, heq⟩ := search_spec m hm s.receiveBuf rest
  obtain ⟨hrespond, hneed, hrest⟩ := hscan rest
  dsimp only
  rw [heq, hvalid, hseq, hnext, hrespond, hneed, hrest]
  cases m.needValid <;> exact ⟨rfl, rfl, rfl⟩

theorem Reads.consoleTask (h : Reads nextSequence s) (ht : s.consoleTask = some t) :
    Reads nextSequence t := by
  by_cases hsearch : s.receiveBuf.length ≠ 0 ∧ s.state.needSync = true
  · have hvalid := h.needValid hsearch.2
    refine h.search hsearch.2 (if_pos hsearch) rfl (fun rest => ?_) ht
    rw [hsearch.2, hvalid]
    exact ⟨rfl, rfl, rfl⟩
  cases hcheck : checkBlock s.receiveBuf with
  | more =>
    unfold Console.consoleTask SyncState.commandFindBlock at ht
    rw [if_neg hsearch, hcheck] at ht
    cases ht
  | error =>
    have hne : checkBlock s.receiveBuf ≠ .more := by
      rw [hcheck]
      decide
    have hmin := messageMin_le_length hne
    have hneed : s.state.needSync = false := by
      rw [← Bool.not_eq_true]
      exact fun h' => hsearch ⟨by omega, h'⟩
    by_cases hsync : s.receiveBuf.getD 0 0 = messageSync
    · unfold Console.consoleTask SyncState.commandFindBlock at ht
      rw [if_neg hsearch, hcheck] at ht
      dsimp only at ht
      rw [if_pos hsync] at ht
      obtain rfl := Option.some_inj.1 ht
      refine h.of_scan rfl h.needValid _ rfl fun rest => ?_
      rw [hneed, scan_append_error hcheck, if_pos hsync]
      exact ⟨rfl, rfl, rfl⟩
    · refine h.search (m := { s.state with needSync := true }) rfl ?_ rfl (fun rest => ?_) ht
      · unfold SyncState.commandFindBlock
        rw [if_neg hsearch, hcheck]
        exact if_neg hsync
      · rw [hneed, scan_append_error hcheck, if_neg hsync]
        refine ⟨?_, rfl, rfl⟩
        show respond _ _ (.garbage :: _) = _
        rw [respond]
        cases s.state.needValid <;> rfl
  | valid msglen =>
    obtain ⟨h5, hle⟩ := valid_le_length hcheck
    have hneed : s.state.needSync = false := by
      rw [← Bool.not_eq_true]
      exact fun h' => hsearch ⟨by omega, h'⟩
    have hseq : (s.receiveBuf.take msglen).getD 1 0 = s.receiveBuf.getD 1 0 := by
      rw [List.getD_eq_getElem?_getD, List.getD_eq_getElem?_getD, List.getElem?_take,
        if_pos (by omega)]
    unfold Console.consoleTask SyncState.commandFindBlock at ht
    rw [if_neg hsearch, hcheck] at ht
    dsimp only at ht
    by_cases hnext : s.receiveBuf.getD 1 0 = s.state.nextSequence
    · rw [if_neg (not_not.2 hnext)] at ht
      obtain rfl := Option.some_inj.1 ht
      refine h.of_scan rfl (fun h' => absurd (hneed.symm.trans h') Bool.false_ne_true) _ rfl
        fun rest => ?_
      rw [hneed, scan_append_valid hcheck]
      refine ⟨?_, rfl, rfl⟩
      show respond _ _ (.frame _ :: _) = _
      rw [respond]
      simp only [hseq, hnext, if_true]
      rfl
    · rw [if_pos hnext] at ht
      obtain rfl := Option.some_inj.1 ht
      refine h.of_scan rfl (fun h' => absurd (hneed.symm.trans h') Bool.false_ne_true) _ rfl
        fun rest => ?_
      rw [hneed, scan_append_valid hcheck]
      refine ⟨?_, rfl, rfl⟩
      show respond _ _ (.frame _ :: _) = _
      rw [respond]
      simp only [hseq, hnext, if_false]
      rfl

theorem reads_of_reachable (h : (console nextSequence).Reachable s) : Reads nextSequence s := by
  refine h.invariant ?_ ?_
  · rintro s rfl
    exact Reads.start nextSequence
  · rintro s a t hs - ht
    cases a with
    | arrive data =>
      obtain rfl := Option.some_inj.1 ht
      refine ⟨hs.needValid, fun rest => ?_, fun rest => ?_⟩
      · have := hs.found (data ++ rest)
        rwa [← List.append_assoc, ← List.append_assoc] at this
      · have := hs.end_eq (data ++ rest)
        rwa [← List.append_assoc, ← List.append_assoc] at this
    | parse => exact hs.consoleTask ht

/-- Where the parser needs more data, the buffer holds the start of a block. -/
theorem scan_of_rest (h : s.consoleTask = none) :
    scan s.state.needSync s.receiveBuf = ⟨[], s.state.needSync, s.receiveBuf⟩ := by
  have hret : (s.state.commandFindBlock s.receiveBuf).ret = 0 := by
    by_contra hne
    unfold Console.consoleTask at h
    dsimp only at h
    rw [if_neg hne] at h
    cases h
  unfold SyncState.commandFindBlock at hret
  by_cases hsearch : s.receiveBuf.length ≠ 0 ∧ s.state.needSync = true
  · rw [if_pos hsearch, (search_spec s.state hsearch.2 s.receiveBuf []).1] at hret
    exact absurd hret (by simp)
  rw [if_neg hsearch] at hret
  have hmore : checkBlock s.receiveBuf = .more := by
    cases hcheck : checkBlock s.receiveBuf with
    | more => rfl
    | error =>
      rw [hcheck] at hret
      dsimp only at hret
      split_ifs at hret
      · exact absurd hret (by simp)
      · rw [(search_spec _ rfl s.receiveBuf []).1] at hret
        exact absurd hret (by simp)
    | valid msglen =>
      rw [hcheck] at hret
      dsimp only at hret
      split_ifs at hret
      · exact absurd hret (by simp)
      · exact absurd hret (by simp)
  cases hneed : s.state.needSync with
  | false => exact scan_more hmore
  | true =>
    have hnil : s.receiveBuf = [] := by
      by_contra hne
      exact hsearch ⟨fun h0 => hne (List.eq_nil_of_length_eq_zero h0), hneed⟩
    rw [hnil]
    exact scan_search rfl

/-- What the firmware has found once it needs more data. -/
theorem found_eq (h : (console nextSequence).Reachable s) (hrest : s.consoleTask = none) :
    (s.found, s.state.needValid, s.state.nextSequence) =
      respond false nextSequence (scan false s.arrived).items ∧
    s.state.needSync = (scan false s.arrived).needSync ∧
    s.receiveBuf = (scan false s.arrived).rest := by
  have hs := reads_of_reachable h
  have hfound := hs.found []
  obtain ⟨hneed, hend⟩ := hs.end_eq []
  simp only [List.append_nil, scan_of_rest hrest] at hfound hneed hend
  rw [respond, List.append_nil] at hfound
  exact ⟨hfound, hneed, hend⟩

end Console

/-! ## Host and firmware -/

/-- The blocks carry consecutive sequence numbers from this one on. -/
def Consecutive : UInt8 → List (List UInt8) → Prop
  | _, [] => True
  | nextSequence, f :: fs =>
    f.getD 1 0 = nextSequence ∧ Consecutive (((nextSequence + 1) &&& 0x0f) ||| 0x10) fs

/-- The blocks that the firmware accepts. -/
def Found.block? : Found → Option (List UInt8)
  | block bytes => some bytes
  | nak _ => none

/-- The firmware accepts all blocks of a stream in which they are consecutive. -/
theorem blocks_respond (needValid : Bool) {nextSequence : UInt8}
    {items : List (Item (List UInt8))}
    (h : Consecutive nextSequence (items.filterMap Item.frame?)) :
    (respond needValid nextSequence items).1.filterMap Found.block? =
      items.filterMap Item.frame? := by
  induction items generalizing needValid nextSequence with
  | nil => rfl
  | cons item items ih =>
    cases item with
    | garbage =>
      rw [respond]
      cases needValid <;> exact ih true h
    | frame f =>
      obtain ⟨hseq, h⟩ := h
      rw [respond]
      simp only [hseq, if_true]
      exact congrArg (f :: ·) (ih false h)

/-- However a stream arrives : the host finds the same blocks, and once it has searched what it
holds, it needs a SYNC byte or not and holds the same bytes ; the firmware is in the same state
with the same blocks and naks ; and if the blocks carry consecutive numbers, it accepts those
that the host does. -/
theorem resync_of_reachable {needSync : Bool} {nextSequence : UInt8} :
    (∀ s t, (hostInput needSync).Reachable s → (hostInput needSync).Reachable t →
      s.inputEvent = none → t.inputEvent = none → s.arrived = t.arrived →
      s.messages = t.messages ∧ s.searched = t.searched) ∧
    (∀ s t, (console nextSequence).Reachable s → (console nextSequence).Reachable t →
      s.consoleTask = none → t.consoleTask = none → s.arrived = t.arrived → s = t) ∧
    (∀ s t, (hostInput false).Reachable s → (console nextSequence).Reachable t →
      s.inputEvent = none → t.consoleTask = none → s.arrived = t.arrived →
      Consecutive nextSequence s.messages →
      t.found.filterMap Found.block? = s.messages) := by
  refine ⟨fun s t hs ht hsrest htrest harrived => ?_, fun s t hs ht hsrest htrest harrived => ?_,
    fun s t hs ht hsrest htrest harrived hseq => ?_⟩
  · obtain ⟨hs1, hs2⟩ := HostInput.messages_eq hs hsrest
    obtain ⟨ht1, ht2⟩ := HostInput.messages_eq ht htrest
    rw [hs1, hs2, ht1, ht2, harrived]
    exact ⟨rfl, rfl⟩
  · obtain ⟨hs1, hs2, hs3⟩ := Console.found_eq hs hsrest
    obtain ⟨ht1, ht2, ht3⟩ := Console.found_eq ht htrest
    rw [harrived, ← ht1] at hs1
    rw [harrived] at hs2 hs3
    obtain ⟨hfound, hstate⟩ := Prod.mk.inj hs1
    obtain ⟨hvalid, hnext⟩ := Prod.mk.inj hstate
    obtain ⟨⟨_, _, _⟩, _, _, _⟩ := s
    obtain ⟨⟨_, _, _⟩, _, _, _⟩ := t
    simp_all
  · obtain ⟨hs1, -⟩ := HostInput.messages_eq hs hsrest
    obtain ⟨ht1, -⟩ := Console.found_eq ht htrest
    have hfound := congrArg Prod.fst ht1
    dsimp only at hfound
    rw [hs1, harrived] at hseq ⊢
    rw [hfound]
    exact blocks_respond false hseq

/-- A block behind some noise, which arrives at once and in two pieces. -/
theorem resync_of_reachable_noise :
    ∃ s t, (hostInput false).run ⟨false, [], [], []⟩
        [.arrive [0, 0, 0, 0, 0, 0x7E, 5, 0x10, 0x9E, 0x81, 0x7E], .parse, .parse] = some s ∧
      (console 0x10).run ⟨⟨false, false, 0x10⟩, [], [], []⟩
        [.arrive [0, 0, 0, 0, 0, 0x7E, 5], .parse, .arrive [0x10, 0x9E, 0x81, 0x7E],
          .parse] = some t ∧
      s.messages = [[5, 0x10, 0x9E, 0x81, 0x7E]] ∧
      t.found.filterMap Found.block? = s.messages := by
  have hhost : ((hostInput false).run ⟨false, [], [], []⟩
      [.arrive [0, 0, 0, 0, 0, 0x7E, 5, 0x10, 0x9E, 0x81, 0x7E], .parse, .parse]).map
      (fun s => (s.inputEvent, s.arrived, s.messages)) =
      some (none, [0, 0, 0, 0, 0, 0x7E, 5, 0x10, 0x9E, 0x81, 0x7E],
        [[5, 0x10, 0x9E, 0x81, 0x7E]]) := by decide +kernel
  have hconsole : ((console 0x10).run ⟨⟨false, false, 0x10⟩, [], [], []⟩
      [.arrive [0, 0, 0, 0, 0, 0x7E, 5], .parse, .arrive [0x10, 0x9E, 0x81, 0x7E], .parse]).map
      (fun t => (t.consoleTask, t.arrived)) =
      some (none, [0, 0, 0, 0, 0, 0x7E, 5, 0x10, 0x9E, 0x81, 0x7E]) := by decide +kernel
  obtain ⟨s, hs, hseq⟩ := Option.map_eq_some_iff.1 hhost
  obtain ⟨hsrest, hseq⟩ := Prod.mk.inj hseq
  obtain ⟨hsarrived, hmessages⟩ := Prod.mk.inj hseq
  obtain ⟨t, ht, hteq⟩ := Option.map_eq_some_iff.1 hconsole
  obtain ⟨htrest, htarrived⟩ := Prod.mk.inj hteq
  have hconsecutive : Consecutive 0x10 s.messages := by
    rw [hmessages]
    exact ⟨rfl, trivial⟩
  exact ⟨s, t, hs, ht, hmessages,
    (@resync_of_reachable false 0x10).2.2 s t (System.Reachable.run (.init rfl) hs)
      (System.Reachable.run (.init rfl) ht) hsrest htrest (hsarrived.trans htarrived.symm)
      hconsecutive⟩

/-- The host may not have searched its last bytes yet, so `need_sync` depends on the pieces. -/
theorem not_needSync_eq :
    ∃ s t, (hostInput false).Reachable s ∧ (hostInput false).Reachable t ∧
      s.inputEvent = none ∧ t.inputEvent = none ∧ s.arrived = t.arrived ∧
      s.needSync = true ∧ t.needSync = false := by
  have hs : ((hostInput false).run ⟨false, [], [], []⟩
      [.arrive [0, 0, 0, 0, 0, 0, 0], .parse, .arrive [0x7E, 1, 1]]).map
      (fun s => (s.inputEvent, s.arrived, s.needSync)) =
      some (none, [0, 0, 0, 0, 0, 0, 0, 0x7E, 1, 1], true) := by decide +kernel
  have ht : ((hostInput false).run ⟨false, [], [], []⟩
      [.arrive [0, 0, 0, 0, 0], .parse, .arrive [0, 0], .arrive [0x7E, 1, 1], .parse]).map
      (fun s => (s.inputEvent, s.arrived, s.needSync)) =
      some (none, [0, 0, 0, 0, 0, 0, 0, 0x7E, 1, 1], false) := by decide +kernel
  obtain ⟨s, hs, hseq⟩ := Option.map_eq_some_iff.1 hs
  obtain ⟨hsrest, hseq⟩ := Prod.mk.inj hseq
  obtain ⟨t, ht, hteq⟩ := Option.map_eq_some_iff.1 ht
  obtain ⟨htrest, hteq⟩ := Prod.mk.inj hteq
  obtain ⟨hsarrived, hsneed⟩ := Prod.mk.inj hseq
  obtain ⟨htarrived, htneed⟩ := Prod.mk.inj hteq
  exact ⟨s, t, System.Reachable.run (.init rfl) hs, System.Reachable.run (.init rfl) ht, hsrest,
    htrest, hsarrived.trans htarrived.symm, hsneed, htneed⟩

end Thinker
