import Mathlib.Tactic
import Thinker.GCodeScript

/-!
# The resume after a power loss

`plr.sh` looks for the layer at a height in the file of an interrupted print. It copies the heater
commands up to a first pattern to `/tmp/plr.gcode`, and writes the offset of the first line with a
second pattern to `/tmp/pose`. A virtual SD card that is loaded with a `Z` starts there.
-/

namespace Thinker

namespace PowerLoss

/-! ## Heights -/

/-- The number that some digits stand for. -/
def digits (t : Text) : ℕ :=
  t.foldl (fun n c => 10 * n + (c.toNat - '0'.toNat)) 0

/-- The number that a text without a sign stands for. -/
def unsigned (t : Text) : Option ℚ :=
  match t.splitOn '.' with
  | [whole] => if whole ≠ [] ∧ whole.all Char.isDigit then some (digits whole) else none
  | [whole, fraction] =>
    if whole ++ fraction ≠ [] ∧ (whole ++ fraction).all Char.isDigit then
      some (digits whole + digits fraction / 10 ^ fraction.length)
    else none
  | _ => none

/-- The number that a text stands for, with or without a leading zero. -/
def decimal : Text → Option ℚ
  | '-' :: t => (unsigned t).map Neg.neg
  | t => unsigned t

/-- The height of a layer, as it is given to the script. -/
structure Height where
  text : Text
  value : ℚ
  decimal_eq : decimal text = some value
  chars : ∀ c ∈ text, c.isDigit = true ∨ c = '.'

/-- The last `Z` in names and values that alternate. -/
def lastZ : List Text → Option Text
  | name :: value :: parts => (lastZ parts).or (if name = ['Z'] then some value.strip else none)
  | _ => none

/-- The `Z` in the parameters of a line in `_process_commands`. -/
def paramZ (upper : Text → Text) (line : Text) : Option Text :=
  lastZ (argsSplit (upper (line.strip.takeWhile (· ≠ ';')))).tail

/-- The `G1` command of a line sets Z to a height. -/
def setsZ (upper : Text → Text) (z : Height) (line : Text) : Bool :=
  command upper line = "G1".toList && ((paramZ upper line).bind decimal == some z.value)

/-! ## Patterns -/

/-- A character of a pattern, or the dot that is any character. -/
inductive Atom where
  | lit (c : Char)
  | any

/-- A character matches. -/
def Atom.matches : Atom → Char → Bool
  | .lit c, d => c == d
  | .any, _ => true

/-- A text begins with a pattern. -/
def matchHere : List Atom → Text → Bool
  | [], _ => true
  | _ :: _, [] => false
  | a :: p, c :: t => a.matches c && matchHere p t

/-- A line contains a pattern. -/
def occurs (p : List Atom) (line : Text) : Bool :=
  line.tails.any (matchHere p)

/-- A character in a pattern that is not escaped. -/
def atom (c : Char) : Atom :=
  if c = '.' then .any else .lit c

/-- `sed 's/0\./\\./g'`. -/
def dropZeros : Text → List Atom
  | '0' :: '.' :: t => .lit '.' :: dropZeros t
  | c :: t => atom c :: dropZeros t
  | [] => []

/-- `G1 Z`. -/
def moveZ : List Atom :=
  "G1 Z".toList.map .lit

/-- The pattern at which the copied part ends. -/
def stopPattern (z : Height) : List Atom :=
  moveZ ++ z.text.map atom

/-- The pattern that is looked for. -/
def searchPattern (z : Height) : List Atom :=
  moveZ ++ if z.text.head? = some '0' then dropZeros z.text else z.text.map .lit

/-! ## The script -/

/-- `sed '/…/q'`: the lines up to the first for which `p` holds, with it. -/
def takeThrough (p : Text → Bool) : List Text → List Text
  | [] => []
  | l :: ls => if p l then [l] else l :: takeThrough p ls

/-- A line with a heater command. -/
def isHeater (line : Text) : Bool :=
  ["M104".toList, "M140".toList, "M109".toList, "M190".toList].any line.has

/-- The heater commands that are copied to `/tmp/plr.gcode`. -/
def preamble (z : Height) (lines : List Text) : List Text :=
  (takeThrough (occurs (stopPattern z)) lines).filter isHeater

/-- `grep -b`: the lines for which `p` holds, with their offsets. -/
def grep (p : Text → Bool) (offset : ℕ) : List Text → List (ℕ × Text)
  | [] => []
  | l :: ls =>
    let found := grep p (offset + (l.bytes + 1)) ls
    if p l then (offset, l) :: found else found

/-- The position that is written to `/tmp/pose`, if it is a number. -/
def position (z : Height) (lines : List Text) : Option ℕ :=
  (grep (occurs (searchPattern z)) 0 lines).head?.map Prod.fst

/-! ## The first line with a pattern -/

section First

variable {p : Text → Bool} {front back : List Text} {l : Text}

theorem bytes_terminated_cons (l : Text) (ls : List Text) :
    Text.bytes (terminated (l :: ls)) = l.bytes + 1 + Text.bytes (terminated ls) := by
  have hcons : terminated (l :: ls) = (l ++ ['\n']) ++ terminated ls := rfl
  rw [hcons, Text.bytes_append, Text.bytes_append, Text.bytes_newline]

theorem grep_append (h : ∀ x ∈ front, p x = false) (ls : List Text) (offset : ℕ) :
    grep p offset (front ++ ls) = grep p (offset + Text.bytes (terminated front)) ls := by
  induction front generalizing offset with
  | nil => rfl
  | cons x front ih =>
    rw [List.cons_append, grep, h x List.mem_cons_self]
    simp only [Bool.false_eq_true, if_false]
    rw [ih fun y hy => h y (List.mem_cons_of_mem _ hy)]
    rw [bytes_terminated_cons, Nat.add_assoc offset]

theorem head?_grep (hl : p l = true) (h : ∀ x ∈ front, p x = false) (offset : ℕ) :
    (grep p offset (front ++ l :: back)).head? =
      some (offset + Text.bytes (terminated front), l) := by
  rw [grep_append h, grep, hl]
  rfl

theorem grep_eq_nil {ls : List Text} (h : ∀ x ∈ ls, p x = false) (offset : ℕ) :
    grep p offset ls = [] := by
  have happend := grep_append h [] offset
  rwa [List.append_nil] at happend

/-- Lines that are followed by others have the fewer bytes the fewer they are. -/
theorem front_unique {front' back' : List Text} {l' : Text}
    (hls : front ++ l :: back = front' ++ l' :: back')
    (hbytes : Text.bytes (terminated front) = Text.bytes (terminated front')) :
    front = front' ∧ l = l' ∧ back = back' := by
  induction front generalizing front' with
  | nil =>
    cases front' with
    | nil => exact ⟨rfl, List.cons.inj hls⟩
    | cons x front' =>
      rw [bytes_terminated_cons, terminated_nil, Text.bytes_nil] at hbytes
      omega
  | cons x front ih =>
    cases front' with
    | nil =>
      rw [bytes_terminated_cons, terminated_nil, Text.bytes_nil] at hbytes
      omega
    | cons x' front' =>
      obtain ⟨rfl, hrest⟩ := List.cons.inj hls
      rw [bytes_terminated_cons, bytes_terminated_cons] at hbytes
      obtain ⟨rfl, hl, hback⟩ := ih hrest (by omega)
      exact ⟨rfl, hl, hback⟩

theorem takeThrough_eq_take (p : Text → Bool) (ls : List Text) :
    takeThrough p ls = ls.take (takeThrough p ls).length := by
  induction ls with
  | nil => rfl
  | cons x ls ih =>
    unfold takeThrough
    split_ifs
    · rfl
    · rw [List.length_cons, List.take_succ_cons, ← ih]

/-- Two fronts of some lines have the same selection if nothing is selected between them. -/
theorem filter_take_eq_iff (q : Text → Bool) (ls : List Text) (a b : ℕ) :
    (ls.take a).filter q = (ls.take b).filter q ↔
      ∀ l ∈ (ls.take (max a b)).drop (min a b), q l = false := by
  have hle : ∀ {a b : ℕ}, a ≤ b → ((ls.take a).filter q = (ls.take b).filter q ↔
      ∀ l ∈ (ls.take b).drop a, q l = false) := by
    intro a b hab
    have hsplit : ls.take b = ls.take a ++ (ls.take b).drop a := by
      conv_lhs => rw [← List.take_append_drop a (ls.take b), List.take_take, min_eq_left hab]
    have hfilter : (ls.take b).filter q = (ls.take a).filter q ++
        ((ls.take b).drop a).filter q := by
      conv_lhs => rw [hsplit, List.filter_append]
    rw [hfilter, List.self_eq_append_right, List.filter_eq_nil_iff]
    simp only [Bool.not_eq_true]
  rcases le_total a b with hab | hba
  · rw [max_eq_right hab, min_eq_left hab]
    exact hle hab
  · rw [max_eq_left hba, min_eq_right hba, eq_comm]
    exact hle hba

end First

/-- A file from one of its lines on. -/
theorem seek_lines {content : Text} {front back : List Text} {l : Text}
    (h : content.lines = front ++ l :: back) :
    ∃ rest, content.seek (Text.bytes (terminated front)) = some rest ∧ rest.lines = l :: back := by
  obtain ⟨hcontent, hmem⟩ := terminated_splitOn content
  obtain ⟨ls, last, hsplit⟩ := List.eq_nil_or_concat (content.splitOn '\n') |>.resolve_left
    (List.splitOn_ne_nil '\n' content)
  rw [hsplit, List.concat_eq_append, List.dropLast_concat, List.getLast?_concat,
    Option.getD_some] at hcontent
  have hlast : '\n' ∉ last := hmem last (by rw [hsplit]; simp)
  have hlines : content.lines = ls ++ Text.lines last := by
    rw [← hcontent, lines_terminated fun x hx => hmem x (by rw [hsplit]; simp [hx])]
  have hmid : ∃ mid, ls = front ++ mid ∧ mid ++ Text.lines last = l :: back := by
    rcases List.append_eq_append_iff.1 (hlines.symm.trans h) with
      ⟨extra, hfront, hextra⟩ | ⟨mid, hls, hmid⟩
    · rw [lines_of_not_mem hlast] at hextra
      have hnil : extra = [] := by
        split_ifs at hextra
        · cases extra <;> cases hextra
        · cases extra with
          | nil => rfl
          | cons x extra => simp at hextra
      subst hnil
      exact ⟨[], by rw [hfront, List.append_nil, List.append_nil],
        by rw [lines_of_not_mem hlast]; exact hextra⟩
    · exact ⟨mid, hls, hmid.symm⟩
  obtain ⟨mid, rfl, hback⟩ := hmid
  have hrest : content = terminated front ++ (terminated mid ++ last) := by
    rw [← hcontent, terminated, List.flatMap_append, List.append_assoc]
    rfl
  refine ⟨terminated mid ++ last, ?_, ?_⟩
  · conv_lhs => rw [hrest]
    exact Text.seek_append _ _
  · rw [lines_terminated fun x hx => hmem x (by rw [hsplit]; simp [hx]), hback]

/-! ## When the resume is right -/

variable (upper : Text → Text) (z : Height) (content : Text)

/-- A print that resumes at a position starts at the first line that sets Z to the height, after the
heater commands of the lines before it. -/
def Resumes (p : ℕ) : Prop :=
  ∃ front line back, content.lines = front ++ line :: back ∧
    p = Text.bytes (terminated front) ∧ setsZ upper z line = true ∧
    (∀ l ∈ front, setsZ upper z l = false) ∧
    preamble z content.lines = front.filter isHeater ∧ 0 < p ∧
    ∀ s v : VirtualSd, s.loadFile content true (some p) = some v →
      ∃ f rest, v.workHandler.currentFile = some f ∧ f.rest = some rest ∧
        rest.lines = line :: back

/-- A position that is found is right, and without such a line no resume is started. -/
def Correct : Prop :=
  (∀ p, position z content.lines = some p → Resumes upper z content p) ∧
    ((∀ l ∈ content.lines, setsZ upper z l = false) →
      ∀ s : VirtualSd, s.loadFile content true (position z content.lines) = none)

/-- Of some lines the first that contains the pattern that is looked for or sets Z to the height
does both and is not the first of all, and no heater command is between it and the end of the part
that is copied. -/
structure Clear (lines : List Text) : Prop where
  both : ∀ l, lines.find? (fun l => occurs (searchPattern z) l || setsZ upper z l) = some l →
    occurs (searchPattern z) l = true ∧ setsZ upper z l = true
  later : ∀ l, lines.head? = some l → occurs (searchPattern z) l = false
  heaters : ∀ l ∈ (lines.take (max (takeThrough (occurs (stopPattern z)) lines).length
      (lines.takeWhile fun l => !occurs (searchPattern z) l).length)).drop
        (min (takeThrough (occurs (stopPattern z)) lines).length
          (lines.takeWhile fun l => !occurs (searchPattern z) l).length), isHeater l = false

variable {upper z content}

section Found

variable {front back : List Text} {line : Text}
  (hlines : content.lines = front ++ line :: back)
  (hline : occurs (searchPattern z) line = true)
  (hfront : ∀ l ∈ front, occurs (searchPattern z) l = false)
include hlines hline hfront

theorem position_eq : position z content.lines = some (Text.bytes (terminated front)) := by
  unfold position
  rw [hlines, head?_grep hline hfront, Option.map_some, Nat.zero_add]

theorem takeWhile_eq : (content.lines.takeWhile fun l => !occurs (searchPattern z) l) = front := by
  rw [hlines, List.takeWhile_append_of_pos fun l hl => by rw [hfront l hl]; rfl]
  simp [hline]

omit hline hfront in
theorem preamble_eq_iff : preamble z content.lines = front.filter isHeater ↔
    ∀ l ∈ (content.lines.take (max (takeThrough (occurs (stopPattern z)) content.lines).length
      front.length)).drop (min (takeThrough (occurs (stopPattern z)) content.lines).length
        front.length), isHeater l = false := by
  rw [← filter_take_eq_iff, ← takeThrough_eq_take]
  unfold preamble
  have htake : content.lines.take front.length = front := by
    rw [hlines, List.take_left]
  rw [htake]

theorem resumes_iff {p : ℕ} (hp : position z content.lines = some p) :
    Resumes upper z content p ↔ Clear upper z content.lines := by
  have hposition := (position_eq hlines hline hfront).symm.trans hp
  rw [Option.some.injEq] at hposition
  subst hposition
  have hpositive : 0 < Text.bytes (terminated front) ↔ front ≠ [] := by
    cases front with
    | nil => simp
    | cons x front =>
      rw [bytes_terminated_cons]
      simp
  constructor
  · rintro ⟨front', line', back', hlines', hp, hsets, hnone, hpreamble, hpos, -⟩
    obtain ⟨rfl, rfl, rfl⟩ := front_unique (hlines.symm.trans hlines') hp
    refine ⟨fun l hl => ?_, fun l hl => ?_, ?_⟩
    · have hfind : content.lines.find?
          (fun l => occurs (searchPattern z) l || setsZ upper z l) = some line := by
        refine List.find?_eq_some_iff_append.2 ⟨by rw [hline, Bool.true_or], front, back, hlines,
          fun x hx => ?_⟩
        rw [hfront x hx, hnone x hx]
        rfl
      rw [hfind, Option.some.injEq] at hl
      exact hl ▸ ⟨hline, hsets⟩
    · obtain ⟨x, front, rfl⟩ := List.exists_cons_of_ne_nil (hpositive.1 hpos)
      rw [hlines, List.cons_append, List.head?_cons, Option.some.injEq] at hl
      exact hl ▸ hfront x List.mem_cons_self
    · rw [takeWhile_eq hlines hline hfront]
      exact (preamble_eq_iff hlines).1 hpreamble
  · rintro ⟨hboth, hlater, hheaters⟩
    rw [takeWhile_eq hlines hline hfront] at hheaters
    have hsome : (content.lines.find?
        fun l => occurs (searchPattern z) l || setsZ upper z l).isSome = true := by
      rw [List.find?_isSome]
      exact ⟨line, by rw [hlines]; simp, by rw [hline, Bool.true_or]⟩
    obtain ⟨l, hl⟩ := Option.isSome_iff_exists.1 hsome
    obtain ⟨hsearch, hsets⟩ := hboth l hl
    obtain ⟨-, as, bs, hls, has⟩ := List.find?_eq_some_iff_append.1 hl
    have hnot : ∀ x ∈ as, occurs (searchPattern z) x = false ∧ setsZ upper z x = false :=
      fun x hx => by simpa using has x hx
    -- both are the lines before the first that contains the pattern
    have hsame := (takeWhile_eq hls hsearch fun x hx => (hnot x hx).1).symm.trans
      (takeWhile_eq hlines hline hfront)
    subst hsame
    obtain ⟨rfl, rfl⟩ := List.cons.inj (List.append_cancel_left (hls.symm.trans hlines))
    have hne : as ≠ [] := by
      rintro rfl
      have hhead := hlater l (by rw [hlines]; rfl)
      exact Bool.false_ne_true (hhead.symm.trans hsearch)
    refine ⟨as, l, bs, hlines, rfl, hsets, fun x hx => (hnot x hx).2,
      (preamble_eq_iff hlines).2 hheaters, hpositive.2 hne, fun s v hv => ?_⟩
    obtain ⟨rest, hseek, hrest⟩ := seek_lines hlines
    have hload := Option.some.inj hv
    subst hload
    exact ⟨_, rest, rfl, hseek, hrest⟩

end Found

/-- The resume is right exactly if no line contains the pattern that is looked for, or the lines are
clear. -/
theorem correct_iff (upper : Text → Text) (z : Height) (content : Text) :
    Correct upper z content ↔
      ((∃ l ∈ content.lines, occurs (searchPattern z) l = true) →
        Clear upper z content.lines) := by
  by_cases hfound : ∃ l ∈ content.lines, occurs (searchPattern z) l = true
  · have hsome : (content.lines.find? (occurs (searchPattern z))).isSome = true :=
      List.find?_isSome.2 hfound
    obtain ⟨line, hfind⟩ := Option.isSome_iff_exists.1 hsome
    obtain ⟨hline, front, back, hlines, hfront⟩ := List.find?_eq_some_iff_append.1 hfind
    have hnone : ∀ l ∈ front, occurs (searchPattern z) l = false :=
      fun l hl => by simpa using hfront l hl
    have hposition := position_eq hlines hline hnone
    have hiff : Resumes upper z content _ ↔ Clear upper z content.lines :=
      resumes_iff hlines hline hnone hposition
    rw [forall_prop_of_true hfound, ← hiff]
    constructor
    · exact fun h => h.1 _ hposition
    · intro hresumes
      refine ⟨fun p hp => ?_, fun hnot => ?_⟩
      · rw [hposition, Option.some.injEq] at hp
        exact hp ▸ hresumes
      · obtain ⟨front', line', back', hlines', -, hsets, -⟩ := hresumes
        have hmem : line' ∈ content.lines := by
          rw [hlines']
          simp
        exact absurd ((hnot line' hmem).symm.trans hsets) Bool.false_ne_true
  · refine iff_of_true ?_ fun h => absurd h hfound
    have hnot : ∀ l ∈ content.lines, occurs (searchPattern z) l = false :=
      fun l hl => eq_false_of_ne_true fun h => hfound ⟨l, hl, h⟩
    have hposition : position z content.lines = none := by
      unfold position
      rw [grep_eq_nil hnot]
      rfl
    refine ⟨fun p hp => ?_, fun _ s => ?_⟩
    · rw [hposition] at hp
      cases hp
    · rw [hposition]
      rfl

/-- The height 0.6. -/
def height : Height where
  text := "0.6".toList
  value := 3 / 5
  decimal_eq := by decide +kernel
  chars := by
    have htext : "0.6".toList = ['0', '.', '6'] := rfl
    rw [htext]
    rintro c hc
    simp only [List.mem_cons, List.not_mem_nil, or_false] at hc
    obtain rfl | rfl | rfl := hc
    · exact Or.inl rfl
    · exact Or.inr rfl
    · exact Or.inl rfl

/-- A file whose layers are written without a leading zero. -/
def pointFile : Text :=
  "M104 S200\nG1 Z.6 F600\nM104 S0\n".toList

/-- A file with a height that begins with the same digits. -/
def longerFile : Text :=
  "M104 S200\nG1 Z.65\nG1 Z.6\n".toList

/-- The heater is switched off as at the end of the file, and a wrong layer is found. -/
theorem not_correct : ¬ Correct (List.map Char.toUpper) height pointFile ∧
    ¬ Correct (List.map Char.toUpper) height longerFile := by
  refine ⟨fun h => ?_, fun h => ?_⟩
  · have hclear := (correct_iff _ _ _).1 h ⟨"G1 Z.6 F600".toList, by decide +kernel,
      by decide +kernel⟩
    have hheater := hclear.heaters "M104 S0".toList (by decide +kernel)
    exact absurd hheater (by decide +kernel)
  · have hclear := (correct_iff _ _ _).1 h ⟨"G1 Z.65".toList, by decide +kernel,
      by decide +kernel⟩
    have hsets := (hclear.both "G1 Z.65".toList (by decide +kernel)).2
    exact absurd hsets (by decide +kernel)

end PowerLoss

end Thinker
