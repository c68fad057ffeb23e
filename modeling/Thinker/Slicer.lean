import Thinker.Pattern
import Thinker.TextFile

/-!
# The header and the footer of a file, and where its commands begin and end

`get_slicer` of `metadata.py` reads a header and a footer of a G-code file, and finds out which
slicer wrote it. `parse_gcode_start_byte` and `parse_gcode_end_byte` look in them for the first and
the last G-code command.

`f.read` counts characters with the newlines translated, `f.seek` and the size of the file count
bytes. So the header is longer than `READ_SIZE` bytes where it has characters of several bytes, the
positions of commands are off by the bytes that are not counted, and a footer that begins inside a
character is not read at all. The pattern of a command takes the newline of a command without
parameters for the white space behind it, and goes on to the end of the next line.
`BaseSlicer.locates_iff` says for which files the result is right all the same.
-/

namespace Thinker

/-! ## The slicers -/

namespace CheckIdentity

/-- `\s`. -/
def space : Piece :=
  .one isSpace

/-- `.*`. -/
def anything : Piece :=
  .star (· != '\n')

/-- A text that stands for itself. -/
def lit (s : String) : Pattern :=
  s.toList.map fun c => .one (· == c)

/-- A pattern with a group. -/
structure Signature where
  before : Pattern
  group : Pattern
  after : Pattern

/-- `match.group(1)` of a search. -/
def Signature.find (g : Signature) (data : Text) : Option Text :=
  (Pattern.search (g.before ++ g.group ++ g.after) data).map fun m =>
    ((m.2.drop g.before.length).take g.group.length).flatten

/-- `name\s(.*)\son`. -/
def named (name : String) : Signature :=
  ⟨lit name ++ [space], [anything], space :: lit "on"⟩

/-- The classes of slicers. -/
inductive Impl where
  | prusaSlicer | slic3rPE | slic3r | cura | simplify3D | kisSlicer | ideaMaker | iceSL | kiriMoto
  | unknownSlicer
  deriving DecidableEq

/-- `SUPPORTED_SLICERS`. -/
def supportedSlicers : List Impl :=
  [.prusaSlicer, .slic3rPE, .slic3r, .cura, .simplify3D, .kisSlicer, .ideaMaker, .iceSL, .kiriMoto]

/-- What `check_identity` returns. -/
structure Ident where
  slicer : Text
  slicerVersion : Option Text
  deriving DecidableEq

/-- The first of several signatures that is found. -/
def firstOf (data : Text) (signatures : List (String × Signature)) : Option Ident :=
  signatures.findSome? fun g => (g.2.find data).map fun v => ⟨g.1.toList, some v⟩

variable (decimal digit : Char → Bool)

/-- The signatures in `check_identity` of `PrusaSlicer`. -/
def prusaAliases : List (String × Signature) :=
  [("PrusaSlicer", named "PrusaSlicer"), ("SuperSlicer", named "SuperSlicer"),
    ("OrcaSlicer", named "OrcaSlicer"), ("MomentSlicer", named "MomentSlicer"),
    ("SliCR-3D", named "SliCR-3D"),
    ("BambuStudio",
      ⟨lit "BambuStudio" ++ [.star (· != ' '), space], [anything], [.one (· == '\n')]⟩),
    ("A3dp-Slicer", named "A3dp-Slicer")]

/-- The signatures in `check_identity` of `KiriMoto`. -/
def kiriMotoVariants : List (String × Signature) :=
  [("Kiri:Moto",
      ⟨lit "; Generated by Kiri:Moto ", [.one decimal, .plus (· != '\n')], []⟩),
    ("SimplyPrint",
      ⟨lit "; Generated by Kiri:Moto (SimplyPrint) ", [.plus (· != '\n')], []⟩)]

/-- `check_identity`, where `decimal` is `str.isdecimal` and `digit` is `str.isdigit`. It raises an
`IndexError` where the version of IceSL is empty. -/
def checkIdentity (impl : Impl) (data : Text) : Option (Option Ident) :=
  match impl with
  | .prusaSlicer => some (firstOf data prusaAliases)
  | .slic3rPE =>
    some (firstOf data [("Slic3r PE",
      ⟨lit "Slic3r" ++ space :: lit "Prusa" ++ space :: lit "Edition" ++ [space], [anything],
        space :: lit "on"⟩)])
  | .slic3r =>
    some (firstOf data [("Slic3r",
      ⟨lit "Slic3r" ++ [space], [.one decimal, anything], space :: lit "on"⟩)])
  | .cura =>
    some (firstOf data [("Cura", ⟨lit "Cura_SteamEngine" ++ [space], [anything], []⟩)])
  | .simplify3D =>
    some (firstOf data [("Simplify3D",
      ⟨lit "Simplify3D(R)" ++ space :: lit "Version" ++ [space], [anything], []⟩)])
  | .kisSlicer =>
    some ((Pattern.search (lit ";" ++ space :: lit "KISSlicer") data).map fun _ =>
      ⟨"KISSlicer".toList,
        ((⟨lit ";" ++ space :: lit "version" ++ [space], [anything], []⟩ : Signature).find data).map
          (List.map fun c => if c = ' ' then '-' else c)⟩)
  | .ideaMaker =>
    some (firstOf data [("IdeaMaker",
      ⟨space :: lit "ideaMaker" ++ [space], [anything], lit ","⟩)])
  | .iceSL =>
    match (⟨lit "<IceSL" ++ [space], [anything], lit ">"⟩ : Signature).find data with
    | none => some none
    | some [] => none
    | some (c :: version) =>
      some (some ⟨"IceSL".toList, some (if digit c then c :: version else "-".toList)⟩)
  | .kiriMoto => some (firstOf data (kiriMotoVariants decimal))
  | .unknownSlicer => some (some ⟨"Unknown".toList, none⟩)

/-- The loop over `SUPPORTED_SLICERS`. -/
def identify (data : Text) : List Impl → Option (Impl × Ident)
  | [] => (checkIdentity decimal digit .unknownSlicer data).join.map (.unknownSlicer, ·)
  | impl :: impls =>
    match checkIdentity decimal digit impl data with
    | none => none
    | some none => identify data impls
    | some (some ident) => some (impl, ident)

end CheckIdentity

/-! ## The header and the footer -/

/-- `READ_SIZE`. -/
def readSizeBytes : ℕ :=
  1024 * 1024

/-- A slicer after `set_data`. -/
structure BaseSlicer where
  impl : CheckIdentity.Impl
  headerData : Text
  footerData : Text
  size : ℕ
  deriving DecidableEq

namespace BaseSlicer

open CheckIdentity

/-- `t[i:]`. -/
def sliceFrom (t : Text) (i : ℤ) : Text :=
  t.drop (if i < 0 then t.length - i.natAbs else i.toNat)

variable (decimal digit : Char → Bool) (readSize : ℕ) (file : Text)

/-- The footer that `get_slicer` reads behind the header, unless it cannot be decoded. -/
def readFooter (headerData : Text) : Option Text :=
  let size := file.bytes
  if size > readSize * 2 then (file.seek (size - readSize)).map Text.translate
  else if size > readSize then
    let remaining := (size : ℤ) - readSize
    some (sliceFrom headerData (remaining - readSize) ++ file.translate.drop readSize)
  else some headerData

/-- `get_slicer` for a file with the text. -/
def getSlicer : Option (BaseSlicer × Ident) :=
  let headerData := file.translate.take readSize
  match identify decimal digit headerData supportedSlicers with
  | none => none
  | some (impl, ident) =>
    (readFooter readSize file headerData).map fun footerData =>
      (⟨impl, headerData, footerData, file.bytes⟩, ident)

/-! ## The first and the last command -/

/-- `\n[MG]\d+\s.*\n`. -/
def startPattern : Pattern :=
  [.one (· == '\n'), .one (fun c => c == 'M' || c == 'G'), .plus decimal, space, anything,
    .one (· == '\n')]

/-- `\n.*\s\d+[MG]\n`. -/
def endPattern : Pattern :=
  [.one (· == '\n'), anything, space, .plus decimal, .one (fun c => c == 'M' || c == 'G'),
    .one (· == '\n')]

variable (s : BaseSlicer)

/-- `parse_gcode_start_byte`. -/
def parseGcodeStartByte : Option ℕ :=
  Pattern.start (startPattern decimal) s.headerData

/-- `parse_gcode_end_byte`. -/
def parseGcodeEndByte : Option ℤ :=
  (Pattern.start (endPattern decimal) s.footerData.reverse).map fun start : ℕ =>
    (s.size : ℤ) - start

/-! ## What they should find -/

/-- A command with the line end before it, white space behind its number, and the rest of a
line. -/
def IsCommand (w : Text) : Prop :=
  ∃ c digits sp args, (c = 'M' ∨ c = 'G') ∧ (digits ≠ [] ∧ ∀ d ∈ digits, decimal d = true) ∧
    isSpace sp = true ∧ '\n' ∉ args ∧ w = '\n' :: c :: digits ++ sp :: args ++ ['\n']

/-- A command begins behind the line end at a position. -/
def CommandAt (t : Text) (i : ℕ) : Prop :=
  ∃ w, IsCommand decimal w ∧ w <+: t.drop i

/-- The first command of a text is behind the line end at the position. -/
def First (t : Text) (i : ℕ) : Prop :=
  CommandAt decimal t i ∧ ∀ i' < i, ¬ CommandAt decimal t i'

/-- The last command of a text is behind the line end at the position. -/
def Last (t : Text) (i : ℕ) : Prop :=
  CommandAt decimal t i ∧ ∀ i' > i, ¬ CommandAt decimal t i'

/-- The end of the line that begins behind a position. -/
def lineEnd (t : Text) (i : ℕ) : ℕ :=
  i + ((t.drop (i + 1)).takeWhile (· != '\n')).length + 2

variable {decimal digit} {t w : Text} {i : ℕ}

theorem mem_lang_startPattern :
    w ∈ Pattern.lang (startPattern decimal) ↔ IsCommand decimal w := by
  simp only [startPattern, space, anything, Pattern.lang_cons, Pattern.lang_nil, Language.mem_mul,
    Piece.mem_lang_one, Piece.mem_lang_plus, Piece.mem_lang_star, mul_one]
  constructor
  · rintro ⟨_, ⟨nl, hnl, rfl⟩, _, ⟨_, ⟨c, hc, rfl⟩, _, ⟨digits, hdigits, _, ⟨_, ⟨sp, hsp, rfl⟩, _,
      ⟨args, hargs, _, ⟨nl', hnl', rfl⟩, rfl⟩, rfl⟩, rfl⟩, rfl⟩, rfl⟩
    obtain rfl : nl = '\n' := by simpa using hnl
    obtain rfl : nl' = '\n' := by simpa using hnl'
    refine ⟨c, digits, sp, args, by simpa using hc, hdigits, hsp, fun h => ?_, by simp⟩
    simpa using hargs _ h
  · rintro ⟨c, digits, sp, args, hc, hdigits, hsp, hargs, rfl⟩
    refine ⟨['\n'], ⟨_, rfl, rfl⟩, _, ⟨[c], ⟨c, by simpa using hc, rfl⟩, _, ⟨digits, hdigits, _,
      ⟨[sp], ⟨sp, hsp, rfl⟩, _, ⟨args, fun d hd => ?_, ['\n'], ⟨_, rfl, rfl⟩, rfl⟩, rfl⟩, rfl⟩,
      rfl⟩, by simp⟩
    simp only [bne_iff_ne, ne_eq]
    rintro rfl
    exact hargs hd

theorem starts_startPattern :
    Pattern.Starts (startPattern decimal) (t.drop i) ↔ CommandAt decimal t i :=
  exists_congr fun _ => and_congr_left fun _ => mem_lang_startPattern

/-- The start that is found is that of the first command of the header. -/
theorem parseGcodeStartByte_eq_some_iff {s : BaseSlicer} {pos : ℕ} :
    s.parseGcodeStartByte decimal = some pos ↔ First decimal s.headerData pos := by
  rw [parseGcodeStartByte, Pattern.start_eq_some_iff, starts_startPattern]
  exact and_congr_right fun _ => forall₂_congr fun _ _ => not_congr starts_startPattern

/-! ## The end of a command -/

theorem lineEnd_of_drop {line rest : Text} (h : t.drop (i + 1) = line ++ '\n' :: rest)
    (hline : '\n' ∉ line) : lineEnd t i = i + line.length + 2 := by
  have htake : (line ++ '\n' :: rest).takeWhile (· != '\n') = line := by
    rw [List.takeWhile_append_of_pos]
    · simp
    · intro c hc
      simp only [bne_iff_ne, ne_eq]
      rintro rfl
      exact hline hc
  rw [lineEnd, h, htake]

/-- A line ends at the next newline. -/
theorem lineEnd_le {i' : ℕ} (hi : i < i') (h : t[i']? = some '\n') : lineEnd t i ≤ i' + 1 := by
  have hnewline : (t.drop (i + 1))[i' - (i + 1)]? = some '\n' := by
    rwa [List.getElem?_drop, Nat.add_sub_cancel' hi]
  have hle : ((t.drop (i + 1)).takeWhile (· != '\n')).length ≤ i' - (i + 1) := by
    by_contra hlt
    have hlt := Nat.lt_of_not_le hlt
    have hget := (List.takeWhile_prefix (· != '\n')).getElem hlt
    have hmem := List.mem_takeWhile_imp (List.getElem_mem hlt)
    rw [hget, (List.getElem?_eq_some_iff.1 hnewline).2] at hmem
    simp at hmem
  unfold lineEnd
  omega

/-- A command ends with its line, or with the next one where the newline of its line is the white
space behind it. -/
theorem IsCommand.lineEnd_or (hdec : decimal '\n' = false) (hw : IsCommand decimal w)
    (h : w <+: t.drop i) : lineEnd t i = i + w.length ∨
      lineEnd t i < i + w.length ∧ lineEnd t (lineEnd t i - 1) = i + w.length := by
  obtain ⟨c, digits, sp, args, hc, ⟨-, hdigits⟩, -, hargs, rfl⟩ := hw
  obtain ⟨rest, hrest⟩ := h
  have hcommand : '\n' ∉ c :: digits := by
    rintro (_ | ⟨_, hmem⟩)
    · rcases hc with hc | hc <;> cases hc
    · rw [hdigits _ hmem] at hdec
      cases hdec
  have hdrop : t.drop (i + 1) = (c :: digits) ++ sp :: (args ++ '\n' :: rest) := by
    rw [← List.drop_drop, ← hrest]
    simp
  by_cases hsp : sp = '\n'
  · subst hsp
    have hend : lineEnd t i = i + (c :: digits).length + 2 :=
      lineEnd_of_drop hdrop hcommand
    have hnext : t.drop (lineEnd t i - 1 + 1) = args ++ '\n' :: rest := by
      have hsum : lineEnd t i - 1 + 1 = i + 1 + ((c :: digits).length + 1) := by omega
      rw [hsum, ← List.drop_drop, hdrop, ← List.drop_drop, List.drop_left]
      rfl
    have hlength := lineEnd_of_drop hnext hargs
    simp only [List.length_append, List.length_cons, List.length_nil] at hend ⊢
    omega
  · refine .inl ?_
    have hline : '\n' ∉ (c :: digits) ++ sp :: args := by
      rw [List.mem_append, List.mem_cons (a := '\n') (b := sp)]
      rintro (h | h | h)
      · exact hcommand h
      · exact hsp h.symm
      · exact hargs h
    have hdrop' : t.drop (i + 1) = ((c :: digits) ++ sp :: args) ++ '\n' :: rest := by
      rw [hdrop, List.append_assoc ((c :: digits)), List.cons_append (a := sp)]
    rw [lineEnd_of_drop hdrop' hline]
    simp only [List.length_append, List.length_cons, List.length_nil]
    omega

theorem IsCommand.le_length (hw : IsCommand decimal w) (h : w <+: t.drop i) :
    i + w.length ≤ t.length := by
  have hle := h.length_le
  rw [List.length_drop] at hle
  obtain ⟨c, digits, sp, args, -, -, -, -, rfl⟩ := hw
  simp only [List.length_append, List.length_cons] at hle ⊢
  omega

theorem CommandAt.getElem? (h : CommandAt decimal t i) : t[i]? = some '\n' := by
  obtain ⟨_, ⟨c, digits, sp, args, -, -, -, -, rfl⟩, rest, hrest⟩ := h
  have := congrArg List.head? hrest
  rw [List.head?_drop] at this
  simpa using this.symm

theorem CommandAt.exists_last (h : CommandAt decimal t i) : ∃ l, Last decimal t l := by
  have hbound : BddAbove {l | CommandAt decimal t l} :=
    ⟨t.length, fun l ⟨_, hw, hprefix⟩ => (Nat.le_add_right l _).trans (hw.le_length hprefix)⟩
  refine ⟨sSup {l | CommandAt decimal t l}, Nat.sSup_mem ⟨i, h⟩ hbound, fun l hl hat => ?_⟩
  exact Nat.not_le.2 hl (le_csSup hbound hat)

theorem CommandAt.exists_longest (h : CommandAt decimal t i) :
    ∃ w, IsCommand decimal w ∧ w <+: t.drop i ∧
      ∀ w', IsCommand decimal w' → w' <+: t.drop i → w'.length ≤ w.length := by
  let lengths := {n | ∃ w, IsCommand decimal w ∧ w <+: t.drop i ∧ w.length = n}
  have hbound : BddAbove lengths := by
    refine ⟨t.length, ?_⟩
    rintro n ⟨w, hw, hprefix, rfl⟩
    exact (Nat.le_add_left _ i).trans (hw.le_length hprefix)
  obtain ⟨w, hw, hprefix⟩ := h
  have hne : lengths.Nonempty := ⟨_, w, hw, hprefix, rfl⟩
  obtain ⟨v, hv, hvprefix, hlength⟩ := Nat.sSup_mem hne hbound
  exact ⟨v, hv, hvprefix, fun w' hw' h' => hlength ▸ le_csSup hbound ⟨w', hw', h', rfl⟩⟩

theorem First.unique {i' : ℕ} (h : First decimal t i) (h' : First decimal t i') : i = i' := by
  rcases Nat.lt_trichotomy i i' with hlt | heq | hlt
  · exact absurd h.1 (h'.2 i hlt)
  · exact heq
  · exact absurd h'.1 (h.2 i' hlt)

theorem Last.unique {i' : ℕ} (h : Last decimal t i) (h' : Last decimal t i') : i = i' := by
  rcases Nat.lt_trichotomy i i' with hlt | heq | hlt
  · exact absurd h'.1 (h.2 i' hlt)
  · exact heq
  · exact absurd h.1 (h'.2 i hlt)

/-- Among the commands of a text the last one ends last. -/
theorem le_of_last (hdec : decimal '\n' = false) {i' : ℕ} {w' : Text} (hlast : Last decimal t i)
    (hw : IsCommand decimal w) (h : w <+: t.drop i) (hw' : IsCommand decimal w')
    (h' : w' <+: t.drop i') (hi' : i' ≠ i) : i' + w'.length ≤ i + w.length := by
  have hlt : i' < i := by
    by_contra hlt
    exact hlast.2 i' (by omega) ⟨w', hw', h'⟩
  have hle := lineEnd_le hlt hlast.1.getElem?
  have hlength := hw.lineEnd_or hdec h
  have hpos : i + 2 ≤ lineEnd t i := by
    unfold lineEnd
    omega
  rcases hw'.lineEnd_or hdec h' with hend | ⟨hend, hnext⟩
  · omega
  · rcases Nat.lt_or_ge (lineEnd t i' - 1) i with hlt' | hge
    · have := lineEnd_le hlt' hlast.1.getElem?
      omega
    · obtain rfl : lineEnd t i' - 1 = i := by omega
      omega

theorem between_startPattern {j : ℕ} : Pattern.Between (startPattern decimal) t i j ↔
    ∃ w, IsCommand decimal w ∧ w <+: t.drop i ∧ i + w.length = j := by
  constructor
  · rintro ⟨a, w, b, rfl, hw, rfl, rfl⟩
    refine ⟨w, mem_lang_startPattern.1 hw, ?_, by simp⟩
    rw [List.append_assoc, List.drop_left]
    exact List.prefix_append w b
  · rintro ⟨w, hw, ⟨b, hb⟩, rfl⟩
    have hi := (Nat.le_add_right i _).trans (hw.le_length ⟨b, hb⟩)
    refine ⟨t.take i, w, b, ?_, mem_lang_startPattern.2 hw, by simp [hi], by simp [hi]⟩
    rw [List.append_assoc, hb, List.take_append_drop]

/-- The end that is found is that of the last command of the footer, or of the line behind it. -/
theorem parseGcodeEndByte_eq_some_iff (hdec : decimal '\n' = false) {s : BaseSlicer} {pos : ℤ} :
    s.parseGcodeEndByte decimal = some pos ↔
      ∃ i w, Last decimal s.footerData i ∧ IsCommand decimal w ∧ w <+: s.footerData.drop i ∧
        (∀ w', IsCommand decimal w' → w' <+: s.footerData.drop i → w'.length ≤ w.length) ∧
        pos = s.size - ((s.footerData.length - (i + w.length) : ℕ) : ℤ) := by
  have hreverse : endPattern decimal = (startPattern decimal).reverse := rfl
  rw [parseGcodeEndByte, Option.map_eq_some_iff, hreverse]
  simp only [Pattern.start_reverse_eq_some_iff, between_startPattern]
  constructor
  · rintro ⟨m, ⟨hm, ⟨i, w, hw, h, hend⟩, hmax⟩, rfl⟩
    have hat : CommandAt decimal s.footerData i := ⟨w, hw, h⟩
    obtain ⟨l, hlast⟩ := hat.exists_last
    obtain ⟨v, hv, hprefix, hlength⟩ : ∃ v, IsCommand decimal v ∧ v <+: s.footerData.drop l ∧
        l + v.length = s.footerData.length - m := by
      by_cases hi : i = l
      · subst hi
        exact ⟨w, hw, h, hend⟩
      · obtain ⟨v, hv, hprefix⟩ := hlast.1
        have hle := hmax l _ ⟨v, hv, hprefix, rfl⟩
        have hge := le_of_last hdec hlast hv hprefix hw h hi
        exact ⟨v, hv, hprefix, by omega⟩
    refine ⟨l, v, hlast, hv, hprefix, fun w' hw' h' => ?_, ?_⟩
    · have := hmax l _ ⟨w', hw', h', rfl⟩
      omega
    · rw [hlength, Nat.sub_sub_self hm]
  · rintro ⟨i, w, hlast, hw, h, hmax, rfl⟩
    have hle := hw.le_length h
    refine ⟨_, ⟨Nat.sub_le _ _, ⟨i, w, hw, h, (Nat.sub_sub_self hle).symm⟩, ?_⟩, rfl⟩
    rintro i' j ⟨w', hw', h', rfl⟩
    rw [Nat.sub_sub_self hle]
    by_cases hi : i' = i
    · subst hi
      exact Nat.add_le_add_left (hmax w' hw' h') i'
    · exact le_of_last hdec hlast hw h hw' h' hi

/-! ## Where the header and the footer are -/

/-- Where the footer begins in the text that is read from the file. -/
def footerStart : ℕ :=
  if file.bytes > readSize * 2 then
    file.translate.length - ((file.seek (file.bytes - readSize)).getD []).translate.length
  else if file.bytes > readSize then
    if file.bytes = readSize * 2 then 0
    else min readSize file.translate.length - (readSize * 2 - file.bytes)
  else 0

variable {readSize file}

variable (readSize file) in
theorem footerStart_le : footerStart readSize file ≤ file.translate.length := by
  unfold footerStart
  split_ifs <;> omega

/-- The footer is read unless it begins inside a character. -/
theorem readFooter_eq_some_iff {f : Text} :
    readFooter readSize file (file.translate.take readSize) = some f ↔
      (file.bytes > readSize * 2 → ∃ p : Text, p <:+ file ∧ p.bytes = readSize) ∧
        f = file.translate.drop (footerStart readSize file) := by
  have hlength := file.length_translate_le
  rcases Nat.lt_or_ge (readSize * 2) file.bytes with hlarge | hlarge
  · have hread : readFooter readSize file (file.translate.take readSize) =
        (file.seek (file.bytes - readSize)).map Text.translate := if_pos hlarge
    have hstart : footerStart readSize file = file.translate.length -
        ((file.seek (file.bytes - readSize)).getD []).translate.length := if_pos hlarge
    have hseek := fun s => Text.seek_eq_some_iff (Nat.sub_le file.bytes readSize) (s := s)
    have hfooter : ∀ s, file.seek (file.bytes - readSize) = some s → s <:+ file ∧
        s.bytes = readSize ∧ s.translate = file.translate.drop (footerStart readSize file) := by
      intro s hs
      obtain ⟨p, hp, hbytes⟩ := (hseek s).1 hs
      have hsuffix : s <:+ file := ⟨p, hp.symm⟩
      have hsum := congrArg Text.bytes hp
      rw [Text.bytes_append] at hsum
      refine ⟨hsuffix, by omega, ?_⟩
      rw [hstart, hs]
      exact List.suffix_iff_eq_drop.1 (Text.suffix_translate hsuffix)
    rw [hread, Option.map_eq_some_iff]
    constructor
    · rintro ⟨s, hs, rfl⟩
      obtain ⟨hsuffix, hbytes, htranslate⟩ := hfooter s hs
      exact ⟨fun _ => ⟨s, hsuffix, hbytes⟩, htranslate⟩
    · rintro ⟨hseekable, rfl⟩
      obtain ⟨s, ⟨p, rfl⟩, hbytes⟩ := hseekable hlarge
      have hs := (hseek s).2 ⟨p, rfl, by rw [Text.bytes_append]; omega⟩
      exact ⟨s, hs, (hfooter s hs).2.2⟩
  · have hnot : ¬ file.bytes > readSize * 2 := Nat.not_lt.2 hlarge
    have hread : readFooter readSize file (file.translate.take readSize) =
        some (file.translate.drop (footerStart readSize file)) := by
      unfold readFooter footerStart sliceFrom
      by_cases hsmall : file.bytes > readSize
      · rw [if_neg hnot, if_neg hnot, if_pos hsmall, if_pos hsmall, List.length_take]
        dsimp only
        have hdrop : ∀ k ≤ min readSize file.translate.length,
            (file.translate.take readSize).drop k ++ file.translate.drop readSize =
              file.translate.drop k := by
          intro k hk
          rw [← List.drop_append_of_le_length (by rwa [List.length_take]), List.take_append_drop]
        by_cases htwice : file.bytes = readSize * 2
        · rw [if_pos htwice, if_neg (by omega), hdrop _ (by omega)]
          congr 2
          omega
        · rw [if_neg htwice, if_pos (by omega), hdrop _ (by omega)]
          congr 2
          omega
      · rw [if_neg hnot, if_neg hnot, if_neg hsmall, if_neg hsmall,
          List.take_of_length_le (by omega), List.drop_zero]
    rw [hread, Option.some.injEq, eq_comm (b := f)]
    exact (and_iff_right fun h => absurd h hnot).symm

variable (readSize file) in
/-- The text from where the footer begins. -/
def footerText : Text :=
  file.translate.drop (footerStart readSize file)

theorem getSlicer_eq_some_iff {r : BaseSlicer × Ident} :
    getSlicer decimal digit readSize file = some r ↔
      identify decimal digit (file.translate.take readSize) supportedSlicers =
        some (r.1.impl, r.2) ∧
      (file.bytes > readSize * 2 → ∃ p : Text, p <:+ file ∧ p.bytes = readSize) ∧
      r.1.headerData = file.translate.take readSize ∧
      r.1.footerData = footerText readSize file ∧ r.1.size = file.bytes := by
  obtain ⟨⟨impl, headerData, footerData, size⟩, ident⟩ := r
  unfold getSlicer
  dsimp only
  cases identify decimal digit (file.translate.take readSize) supportedSlicers with
  | none => simp
  | some found =>
    obtain ⟨impl', ident'⟩ := found
    simp only [Option.map_eq_some_iff, readFooter_eq_some_iff, Option.some.injEq, Prod.mk.injEq,
      BaseSlicer.mk.injEq, footerText]
    constructor
    · rintro ⟨f, ⟨hseek, rfl⟩, ⟨rfl, rfl, rfl, rfl⟩, rfl⟩
      exact ⟨⟨rfl, rfl⟩, hseek, rfl, rfl, rfl⟩
    · rintro ⟨⟨rfl, rfl⟩, hseek, rfl, rfl, rfl⟩
      exact ⟨_, ⟨hseek, rfl⟩, ⟨rfl, rfl, rfl, rfl⟩, rfl⟩

variable (decimal readSize file)

/-- The text of a header and of a footer of the file, and the positions of the first and the last
command in bytes. -/
structure Locates (s : BaseSlicer) : Prop where
  header : ∃ p : Text, p <+: file ∧ (p = file ∨ p.bytes = readSize) ∧ s.headerData = p.translate
  footer : ∃ p : Text, p <:+ file ∧ (p = file ∨ p.bytes = readSize) ∧ s.footerData = p.translate
  startByte : ∀ pos, s.parseGcodeStartByte decimal = some pos →
    ∃ i, First decimal s.headerData i ∧ pos = file.offset i
  endByte : ∀ pos, s.parseGcodeEndByte decimal = some pos →
    ∃ i, Last decimal s.footerData i ∧
      pos = file.offset (file.translate.length - s.footerData.length + lineEnd s.footerData i)
  ordered : ∀ first last, s.parseGcodeStartByte decimal = some first →
    s.parseGcodeEndByte decimal = some last → (first : ℤ) < last ∧ last ≤ file.bytes

/-- A file for which a slicer is found, whose header and footer are as many characters as bytes,
whose characters in front of the first command and behind the last one are single bytes, and whose
last command has its white space in its own line. -/
structure Plain (digit : Char → Bool) : Prop where
  identified : identify decimal digit (file.translate.take readSize) supportedSlicers ≠ none
  seekable : file.bytes > readSize * 2 → ∃ p : Text, p <:+ file ∧ p.bytes = readSize
  header : file.translate.length ≤ readSize ∨
    ∃ p : Text, p <+: file ∧ p.bytes = readSize ∧ p.translate.length = readSize
  footer : footerStart readSize file = 0 ∨
    ∃ p : Text, p <:+ file ∧ p.bytes = readSize ∧
      p.translate.length = (footerText readSize file).length
  front : ∀ i, First decimal (file.translate.take readSize) i → ∀ n ∈ file.widths.take i, n = 1
  inLine : ∀ i, Last decimal (footerText readSize file) i →
    ∀ w, IsCommand decimal w → w <+: (footerText readSize file).drop i →
      i + w.length = lineEnd (footerText readSize file) i
  back : ∀ i, Last decimal (footerText readSize file) i →
    ∀ n ∈ file.widths.drop (footerStart readSize file + lineEnd (footerText readSize file) i), n = 1

variable {decimal readSize file}

theorem length_footerText : (footerText readSize file).length =
    file.translate.length - footerStart readSize file := by
  rw [footerText, List.length_drop]

/-- The header is that of a prefix of the right length. -/
theorem header_iff :
    (∃ p : Text, p <+: file ∧ (p = file ∨ p.bytes = readSize) ∧
      file.translate.take readSize = p.translate) ↔ file.translate.length ≤ readSize ∨
        ∃ p : Text, p <+: file ∧ p.bytes = readSize ∧ p.translate.length = readSize := by
  constructor
  · rintro ⟨p, hp, hlength, htranslate⟩
    rcases Nat.lt_or_ge readSize file.translate.length with hlt | hle
    · have htake := congrArg List.length htranslate
      rw [List.length_take, min_eq_left hlt.le] at htake
      rcases hlength with rfl | hbytes
      · omega
      · exact .inr ⟨p, hp, hbytes, htake.symm⟩
    · exact .inl hle
  · rintro (hle | ⟨p, hp, hbytes, hlength⟩)
    · exact ⟨file, List.prefix_rfl, .inl rfl, List.take_of_length_le hle⟩
    · refine ⟨p, hp, .inr hbytes, ?_⟩
      rw [List.prefix_iff_eq_take.1 (Text.prefix_translate hp), hlength]

/-- The footer is that of a suffix of the right length. -/
theorem footer_iff :
    (∃ p : Text, p <:+ file ∧ (p = file ∨ p.bytes = readSize) ∧
      footerText readSize file = p.translate) ↔ footerStart readSize file = 0 ∨
        ∃ p : Text, p <:+ file ∧ p.bytes = readSize ∧
          p.translate.length = (footerText readSize file).length := by
  have hle := footerStart_le readSize file
  constructor
  · rintro ⟨p, hp, rfl | hbytes, htranslate⟩
    · have hlength := congrArg List.length htranslate
      rw [length_footerText] at hlength
      exact .inl (by omega)
    · exact .inr ⟨p, hp, hbytes, by rw [htranslate]⟩
  · rintro (hzero | ⟨p, hp, hbytes, hlength⟩)
    · exact ⟨file, List.suffix_rfl, .inl rfl, by rw [footerText, hzero, List.drop_zero]⟩
    · refine ⟨p, hp, .inr hbytes, ?_⟩
      rw [List.suffix_iff_eq_drop.1 (Text.suffix_translate hp), hlength, length_footerText,
        Nat.sub_sub_self hle, footerText]

section Slicer

variable {s : BaseSlicer} (hheader : s.headerData = file.translate.take readSize)
  (hfooter : s.footerData = footerText readSize file) (hsize : s.size = file.bytes)

include hheader in
/-- The start is right where what is in front of it are single bytes. -/
theorem startByte_iff :
    (∀ pos, s.parseGcodeStartByte decimal = some pos →
      ∃ i, First decimal s.headerData i ∧ pos = file.offset i) ↔
    ∀ i, First decimal (file.translate.take readSize) i → ∀ n ∈ file.widths.take i, n = 1 := by
  rw [← hheader]
  have hle : ∀ i, First decimal s.headerData i → i ≤ file.translate.length := by
    rintro i ⟨⟨w, hw, hprefix⟩, -⟩
    have := hw.le_length hprefix
    rw [hheader, List.length_take] at this
    omega
  constructor
  · intro h i hi
    obtain ⟨i', hi', hpos⟩ := h i (parseGcodeStartByte_eq_some_iff.2 hi)
    obtain rfl : i = i' := hi.unique hi'
    exact (Text.offset_eq_iff (hle i hi)).1 hpos.symm
  · intro h pos hpos
    have hi := parseGcodeStartByte_eq_some_iff.1 hpos
    exact ⟨pos, hi, ((Text.offset_eq_iff (hle pos hi)).2 (h pos hi)).symm⟩

/-- Counting the characters behind the match gives the end of the line if they are the bytes
behind it. -/
theorem sub_eq_offset_iff {k l e : ℕ} (hk : k ≤ file.translate.length) (hle : l ≤ e)
    (he : e ≤ file.translate.length - k) :
    ((file.bytes : ℤ) - ((file.translate.length - k - e : ℕ) : ℤ) = (file.offset (k + l) : ℕ)) ↔
      e = l ∧ ∀ n ∈ file.widths.drop (k + l), n = 1 := by
  have hsum := file.offset_add (k + l)
  obtain ⟨hge, hone⟩ := file.length_le_sum_drop (k + l)
  rw [← hone]
  omega

include hfooter hsize in
/-- The end is right where what is behind it are single bytes, and the last command ends with its
line. -/
theorem endByte_iff (hdec : decimal '\n' = false) :
    (∀ pos, s.parseGcodeEndByte decimal = some pos →
      ∃ i, Last decimal s.footerData i ∧ pos =
        file.offset (file.translate.length - s.footerData.length + lineEnd s.footerData i)) ↔
    (∀ i, Last decimal (footerText readSize file) i →
      ∀ w, IsCommand decimal w → w <+: (footerText readSize file).drop i →
        i + w.length = lineEnd (footerText readSize file) i) ∧
    ∀ i, Last decimal (footerText readSize file) i → ∀ n ∈ file.widths.drop
      (footerStart readSize file + lineEnd (footerText readSize file) i), n = 1 := by
  have hstart := footerStart_le readSize file
  have hlength : s.footerData.length = file.translate.length - footerStart readSize file := by
    rw [hfooter, length_footerText]
  have hsub : file.translate.length - s.footerData.length = footerStart readSize file := by
    rw [hlength, Nat.sub_sub_self hstart]
  rw [← hfooter, hsub, ← forall₂_and]
  have hiff : ∀ i w, IsCommand decimal w → w <+: s.footerData.drop i →
      ((s.size : ℤ) - ((s.footerData.length - (i + w.length) : ℕ) : ℤ) =
        (file.offset (footerStart readSize file + lineEnd s.footerData i) : ℕ) ↔
      i + w.length = lineEnd s.footerData i ∧
        ∀ n ∈ file.widths.drop (footerStart readSize file + lineEnd s.footerData i), n = 1) := by
    intro i w hw hprefix
    rw [hsize, hlength]
    refine sub_eq_offset_iff hstart ?_ (hlength ▸ hw.le_length hprefix)
    rcases hw.lineEnd_or hdec hprefix with h | ⟨h, -⟩
    · exact h.le
    · exact h.le
  constructor
  · intro h i hi
    obtain ⟨w, hw, hprefix, hmax⟩ := hi.1.exists_longest
    obtain ⟨i', hi', hpos⟩ := h _
      ((parseGcodeEndByte_eq_some_iff hdec).2 ⟨i, w, hi, hw, hprefix, hmax, rfl⟩)
    obtain rfl : i = i' := hi.unique hi'
    obtain ⟨hend, hone⟩ := (hiff i w hw hprefix).1 hpos
    refine ⟨fun w' hw' hprefix' => ?_, hone⟩
    have hle := hmax w' hw' hprefix'
    rcases hw'.lineEnd_or hdec hprefix' with h | ⟨h, -⟩ <;> omega
  · intro h pos hpos
    obtain ⟨i, w, hi, hw, hprefix, -, rfl⟩ := (parseGcodeEndByte_eq_some_iff hdec).1 hpos
    exact ⟨i, hi, (hiff i w hw hprefix).2 ⟨(h i hi).1 w hw hprefix, (h i hi).2⟩⟩

include hheader hfooter in
/-- The first command begins before the last one ends. -/
theorem first_lt_last (hdec : decimal '\n' = false) {i l : ℕ} (hi : First decimal s.headerData i)
    (hl : Last decimal s.footerData l) :
    i < file.translate.length - s.footerData.length + lineEnd s.footerData l ∧
      file.translate.length - s.footerData.length + lineEnd s.footerData l ≤
        file.translate.length := by
  have hstart := footerStart_le readSize file
  have hlength : s.footerData.length = file.translate.length - footerStart readSize file := by
    rw [hfooter, length_footerText]
  obtain ⟨v, hv, hvprefix⟩ := hl.1
  have hle := hv.le_length hvprefix
  have hend : lineEnd s.footerData l ≤ l + v.length := by
    rcases hv.lineEnd_or hdec hvprefix with h | ⟨h, -⟩ <;> omega
  have hpos : l + 2 ≤ lineEnd s.footerData l := by
    unfold lineEnd
    omega
  have hil : i ≤ footerStart readSize file + l := by
    by_contra hlt
    -- a first command that is behind the last one would be in the footer
    obtain ⟨w, hw, hprefix⟩ := hi.1
    refine hl.2 (i - footerStart readSize file) (by omega) ⟨w, hw, ?_⟩
    rw [hfooter, footerText, List.drop_drop, Nat.add_sub_cancel' (by omega)]
    refine hprefix.trans ?_
    rw [hheader, List.drop_take]
    exact List.take_prefix _ _
  omega

end Slicer

/-- `get_slicer` succeeds with the right header and footer, and the positions of the first and the
last command are right, for the files that are plain. -/
theorem locates_iff (hdec : decimal '\n' = false) :
    (∃ r, getSlicer decimal digit readSize file = some r ∧ Locates decimal readSize file r.1) ↔
      Plain decimal readSize file digit := by
  constructor
  · rintro ⟨r, hr, h⟩
    obtain ⟨hidentify, hseek, hheader, hfooter, hsize⟩ := getSlicer_eq_some_iff.1 hr
    have hend := (endByte_iff hfooter hsize hdec).1 h.endByte
    exact {
      identified := by rw [hidentify]; exact Option.some_ne_none _
      seekable := hseek
      header := header_iff.1 (hheader ▸ h.header)
      footer := footer_iff.1 (hfooter ▸ h.footer)
      front := (startByte_iff hheader).1 h.startByte
      inLine := hend.1
      back := hend.2 }
  · intro h
    obtain ⟨⟨impl, ident⟩, hidentify⟩ := Option.ne_none_iff_exists'.1 h.identified
    let s : BaseSlicer := ⟨impl, file.translate.take readSize, footerText readSize file, file.bytes⟩
    have hstart := (startByte_iff (s := s) rfl).2 h.front
    have hend := (endByte_iff (s := s) rfl rfl hdec).2 ⟨h.inLine, h.back⟩
    refine ⟨(s, ident), getSlicer_eq_some_iff.2 ⟨hidentify, h.seekable, rfl, rfl, rfl⟩, ?_⟩
    exact {
      header := header_iff.2 h.header
      footer := footer_iff.2 h.footer
      startByte := hstart
      endByte := hend
      ordered := by
        intro first last hfirst hlast
        obtain ⟨i, hi, rfl⟩ := hstart first hfirst
        obtain ⟨l, hl, rfl⟩ := hend last hlast
        obtain ⟨hlt, hle⟩ := first_lt_last (s := s) rfl rfl hdec hi hl
        have hoffset := file.offset_add
          (file.translate.length - s.footerData.length + lineEnd s.footerData l)
        have := Text.offset_lt hlt hle
        omega }

/-- A comment and a move. -/
def shortPrint : Text :=
  "; t\nG1 X1\n".toList

theorem locates_shortPrint :
    ∃ r, getSlicer Char.isDigit Char.isDigit readSizeBytes shortPrint = some r ∧
      Locates Char.isDigit readSizeBytes shortPrint r.1 := by
  have hfooter : footerText readSizeBytes shortPrint = shortPrint := by decide +kernel
  have hstart : footerStart readSizeBytes shortPrint = 0 := by decide +kernel
  have hwidths : ∀ n ∈ Text.widths shortPrint, n = 1 := by decide +kernel
  refine (locates_iff (by decide)).2 ?_
  exact {
    identified := by decide +kernel
    seekable := fun h => absurd h (by decide +kernel)
    header := .inl (by decide +kernel)
    footer := .inl hstart
    front := fun i _ n hn => hwidths n (List.mem_of_mem_take hn)
    inLine := by
      rw [hfooter]
      intro i hi w hw hprefix
      have hle : i + w.length ≤ 10 := hw.le_length hprefix
      have hnewline := hi.1.getElem?
      have hpos : ∀ i < 10, shortPrint[i]? = some '\n' → i = 3 ∨ i = 9 := by decide +kernel
      have hfirst : lineEnd shortPrint 3 = 10 := by decide +kernel
      have hsecond : lineEnd shortPrint 9 = 11 := by decide +kernel
      have hend := hw.lineEnd_or (by decide) hprefix
      have hlt : i + 2 ≤ lineEnd shortPrint i := by
        unfold lineEnd
        omega
      obtain rfl | rfl := hpos i (by omega) hnewline <;> omega
    back := fun i _ n hn => hwidths n (List.mem_of_mem_drop hn) }

/-- A comment with a character of two bytes, and a move. -/
def accentedPrint : Text :=
  "; é\nG1 X1\n".toList

/-- The position is one byte short for each byte that is not counted. -/
theorem not_locates_accentedPrint :
    ¬ ∃ r, getSlicer Char.isDigit Char.isDigit readSizeBytes accentedPrint = some r ∧
      Locates Char.isDigit readSizeBytes accentedPrint r.1 := by
  rintro ⟨r, hr, h⟩
  have hslicer : getSlicer Char.isDigit Char.isDigit readSizeBytes accentedPrint =
      some (⟨.unknownSlicer, accentedPrint, accentedPrint, 11⟩, ⟨"Unknown".toList, none⟩) := by
    decide +kernel
  obtain rfl := Option.some.inj (hslicer.symm.trans hr)
  have hpos : (⟨.unknownSlicer, accentedPrint, accentedPrint, 11⟩ :
      BaseSlicer).parseGcodeStartByte Char.isDigit = some 3 := by decide +kernel
  obtain ⟨i, hi, hoffset⟩ := h.startByte 3 hpos
  obtain rfl : 3 = i := (parseGcodeStartByte_eq_some_iff.1 hpos).unique hi
  have hfour : Text.offset accentedPrint 3 = 4 := by decide +kernel
  rw [hfour] at hoffset
  cases hoffset

end BaseSlicer

end Thinker
