import Thinker.Lines

/-!
# Files read with universal newlines

A file that is opened as a text is decoded, and each of its line ends is read as a newline : `\n`,
`\r` and `\r\n`. So a character that is read is one byte of the file or several, and a position in
the text is not one in the file (`Text.offset`).

What is read from a prefix or from a suffix of a file is a prefix or a suffix of what is read from
all of it, also where it begins or ends between the two bytes of a line end
(`Text.prefix_translate`, `Text.suffix_translate`).
-/

namespace Thinker

/-- `bytes.decode`. -/
def decode (data : ByteArray) : Option Text :=
  data.utf8Decode?.map Array.toList

namespace Text

/-- The characters that are read from a file, each with the bytes that it is read from. -/
def units : Text → List (Char × ℕ)
  | [] => []
  | '\r' :: '\n' :: t => ('\n', 2) :: units t
  | '\r' :: t => ('\n', 1) :: units t
  | c :: t => (c, c.utf8Size) :: units t

/-- What is read from a file. -/
def translate (t : Text) : Text :=
  t.units.map Prod.fst

/-- The bytes that each character is read from. -/
def widths (t : Text) : List ℕ :=
  t.units.map Prod.snd

/-- The bytes in front of a position of the text that is read. -/
def offset (t : Text) (i : ℕ) : ℕ :=
  (t.widths.take i).sum

theorem units_crlf (t : Text) : units ('\r' :: '\n' :: t) = ('\n', 2) :: units t := rfl

theorem units_cr {t : Text} (h : ∀ t', t ≠ '\n' :: t') :
    units ('\r' :: t) = ('\n', 1) :: units t := by
  rw [units]
  exact h

theorem units_cons {c : Char} (h : c ≠ '\r') (t : Text) :
    units (c :: t) = (c, c.utf8Size) :: units t := by
  rw [units]
  · exact fun _ hc _ => h hc
  · exact h

/-- What is read from two parts of a file that divide no line end. -/
theorem units_append {p s : Text} (h : ['\r'] <:+ p → ∀ s', s ≠ '\n' :: s') :
    units (p ++ s) = units p ++ units s := by
  induction p using units.induct with
  | case1 => rfl
  | case2 p ih =>
    have ih := ih fun hp => h (hp.trans ⟨['\r', '\n'], rfl⟩)
    rw [List.cons_append, List.cons_append, units_crlf, units_crlf, ih, List.cons_append]
  | case3 p hp ih =>
    have ih := ih fun hp => h (hp.trans (List.suffix_cons '\r' p))
    have hcr : ∀ t', p ++ s ≠ '\n' :: t' := by
      rintro t' ht
      rcases List.append_eq_cons_iff.1 ht with ⟨rfl, hs⟩ | ⟨p', rfl, -⟩
      · exact h List.suffix_rfl t' hs
      · exact hp p' rfl
    rw [List.cons_append, units_cr hcr, units_cr fun t' ht => hp t' ht, ih, List.cons_append]
  | case4 c p _ hc ih =>
    have ih := ih fun hp => h (hp.trans (List.suffix_cons c p))
    rw [List.cons_append, units_cons hc, units_cons hc, ih, List.cons_append]

/-- What is read from two parts of a file that divide a line end. -/
theorem units_append_crlf (p s : Text) :
    units (p ++ '\r' :: '\n' :: s) = units p ++ ('\n', 2) :: units s := by
  rw [units_append (by simp), units_crlf]

theorem divides (p s : Text) : (['\r'] <:+ p → ∀ s', s ≠ '\n' :: s') ∨
    ∃ q s', p = q ++ ['\r'] ∧ s = '\n' :: s' := by
  by_cases h : ['\r'] <:+ p ∧ ∃ s', s = '\n' :: s'
  · obtain ⟨⟨q, rfl⟩, s', rfl⟩ := h
    exact .inr ⟨q, s', rfl, rfl⟩
  · exact .inl fun hp s' hs => h ⟨hp, s', hs⟩

theorem prefix_translate {p t : Text} (h : p <+: t) : translate p <+: translate t := by
  obtain ⟨s, rfl⟩ := h
  rcases divides p s with h | ⟨q, s, rfl, rfl⟩
  · rw [translate, translate, units_append h, List.map_append]
    exact List.prefix_append _ _
  · have hp : units (q ++ ['\r']) = units q ++ [('\n', 1)] := units_append (by simp)
    rw [translate, translate, hp, List.append_assoc, List.singleton_append, units_append_crlf]
    exact ⟨translate s, by simp [translate]⟩

theorem suffix_translate {s t : Text} (h : s <:+ t) : translate s <:+ translate t := by
  obtain ⟨p, rfl⟩ := h
  rcases divides p s with h | ⟨q, s, rfl, rfl⟩
  · rw [translate, translate, units_append h, List.map_append]
    exact List.suffix_append _ _
  · have hs : units ('\n' :: s) = ('\n', 1) :: units s := units_cons (by decide) s
    rw [translate, translate, hs, List.append_assoc, List.singleton_append, units_append_crlf]
    exact ⟨translate q, by simp [translate]⟩

/-! ## Bytes -/

@[simp] theorem length_widths (t : Text) : t.widths.length = t.translate.length := by
  simp [widths, translate]

theorem bytes_cons (c : Char) (t : Text) : bytes (c :: t) = c.utf8Size + bytes t := by
  simp [bytes]

theorem sum_widths (t : Text) : t.widths.sum = bytes t := by
  unfold widths
  induction t using units.induct with
  | case1 => rfl
  | case2 t ih =>
    have hcr : '\r'.utf8Size = 1 := by decide
    have hlf : '\n'.utf8Size = 1 := by decide
    rw [units_crlf, List.map_cons, List.sum_cons, ih, bytes_cons, bytes_cons, hcr, hlf]
    omega
  | case3 t h ih =>
    have hcr : '\r'.utf8Size = 1 := by decide
    rw [units_cr fun t' ht => h t' ht, List.map_cons, List.sum_cons, ih, bytes_cons, hcr]
  | case4 c t _ hc ih => rw [units_cons hc, List.map_cons, List.sum_cons, ih, bytes_cons]

theorem one_le_of_mem_widths {t : Text} {n : ℕ} (h : n ∈ t.widths) : 1 ≤ n := by
  unfold widths at h
  induction t using units.induct with
  | case1 => simp [units] at h
  | case2 t ih =>
    rw [units_crlf, List.map_cons, List.mem_cons] at h
    exact h.elim (fun h => by omega) ih
  | case3 t ht ih =>
    rw [units_cr fun t' h => ht t' h, List.map_cons, List.mem_cons] at h
    exact h.elim (fun h => by omega) ih
  | case4 c t _ hc ih =>
    rw [units_cons hc, List.map_cons, List.mem_cons] at h
    exact h.elim (fun h => h ▸ c.utf8Size_pos) ih

/-- Numbers that are all at least one, and are as many as their sum, are all one. -/
theorem sum_eq_length_iff {l : List ℕ} (h : ∀ n ∈ l, 1 ≤ n) :
    l.length ≤ l.sum ∧ (l.sum = l.length ↔ ∀ n ∈ l, n = 1) := by
  induction l with
  | nil => simp
  | cons n l ih =>
    obtain ⟨hn, h⟩ := List.forall_mem_cons.1 h
    obtain ⟨hle, hiff⟩ := ih h
    rw [List.sum_cons, List.length_cons, List.forall_mem_cons, ← hiff]
    omega

theorem length_translate_le (t : Text) : t.translate.length ≤ bytes t := by
  rw [← length_widths, ← sum_widths]
  exact (sum_eq_length_iff fun _ => one_le_of_mem_widths).1

/-- A position is its offset in the file where all characters in front of it are single bytes. -/
theorem offset_eq_iff {t : Text} {i : ℕ} (hi : i ≤ t.translate.length) :
    t.offset i = i ↔ ∀ n ∈ t.widths.take i, n = 1 := by
  have h := (sum_eq_length_iff fun n (h : n ∈ t.widths.take i) =>
    one_le_of_mem_widths (List.mem_of_mem_take h)).2
  rwa [List.length_take, length_widths, min_eq_left hi] at h

/-- The bytes behind a position. -/
theorem offset_add (t : Text) (i : ℕ) : t.offset i + (t.widths.drop i).sum = bytes t := by
  rw [offset, ← List.sum_append, List.take_append_drop, sum_widths]

theorem length_le_sum_drop (t : Text) (i : ℕ) :
    t.translate.length - i ≤ (t.widths.drop i).sum ∧
      ((t.widths.drop i).sum = t.translate.length - i ↔ ∀ n ∈ t.widths.drop i, n = 1) := by
  have h := sum_eq_length_iff fun n (h : n ∈ t.widths.drop i) =>
    one_le_of_mem_widths (List.mem_of_mem_drop h)
  rwa [List.length_drop, length_widths] at h

theorem offset_lt {t : Text} {i j : ℕ} (hij : i < j) (hj : j ≤ t.translate.length) :
    t.offset i < t.offset j := by
  have hwidths : i < t.widths.length := by rw [length_widths]; omega
  have hsum : t.offset (i + 1) = t.offset i + t.widths[i] := by
    rw [offset, offset, List.take_succ_eq_append_getElem hwidths, List.sum_append,
      List.sum_singleton]
  have hpos := one_le_of_mem_widths (List.getElem_mem hwidths)
  have hle : t.offset (i + 1) ≤ t.offset j :=
    ((List.take_prefix_take_left hij).sublist).sum_le_sum fun _ _ => Nat.zero_le _
  omega

/-- What `seek` finds inside a file. -/
theorem seek_eq_some_iff {t : Text} {pos : ℕ} (h : pos ≤ bytes t) {s : Text} :
    t.seek pos = some s ↔ ∃ p, t = p ++ s ∧ bytes p = pos := by
  constructor
  · intro hs
    induction t, pos using seek.induct with
    | case1 t => exact ⟨[], by simpa [seek] using hs, rfl⟩
    | case2 pos hpos => exact absurd (Nat.pos_of_ne_zero hpos) (Nat.not_lt.2 h)
    | case3 c t pos hc ih =>
      rw [bytes_cons] at h
      rw [seek, if_pos hc] at hs
      obtain ⟨p, rfl, hp⟩ := ih (by omega) hs
      exact ⟨c :: p, rfl, by rw [bytes_cons, hp]; omega⟩
    | case4 c t pos hc => rw [seek, if_neg hc] at hs; cases hs
  · rintro ⟨p, rfl, rfl⟩
    exact seek_append p s

end Text

end Thinker
