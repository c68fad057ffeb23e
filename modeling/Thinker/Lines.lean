import Mathlib.Data.List.DropRight
import Mathlib.Tactic

/-!
# Texts and their lines

A text is a list of characters. It is read from an offset in bytes, and it is split into lines,
each of which ends with a newline (`terminated`) or is joined to the next one by it.
-/

namespace Thinker

/-- A text. -/
abbrev Text := List Char

/-- The bytes of a text in UTF-8. -/
def Text.bytes (t : Text) : ℕ :=
  (t.map Char.utf8Size).sum

/-- The text from a byte offset on, as `seek` and `read` find it. Behind the end it is empty,
and in the middle of a character it cannot be decoded. -/
def Text.seek : Text → ℕ → Option Text
  | t, 0 => some t
  | [], _ => some []
  | c :: t, pos + 1 => if c.utf8Size ≤ pos + 1 then Text.seek t (pos + 1 - c.utf8Size) else none

/-- `sub in t`. -/
def Text.has (t sub : Text) : Bool :=
  decide (sub <:+: t)

/-- `str.isspace`. -/
def isSpace (c : Char) : Bool :=
  let n := c.toNat
  (9 ≤ n && n ≤ 13) || (28 ≤ n && n ≤ 32) || n == 0x85 || n == 0xa0 || n == 0x1680 ||
    (0x2000 ≤ n && n ≤ 0x200a) || n == 0x2028 || n == 0x2029 || n == 0x202f || n == 0x205f ||
    n == 0x3000

/-- `str.strip`. -/
def Text.strip (t : Text) : Text :=
  ((t.dropWhile isSpace).reverse.dropWhile isSpace).reverse

namespace Text

@[simp] theorem bytes_nil : bytes [] = 0 := rfl

@[simp] theorem bytes_newline : bytes ['\n'] = 1 := rfl

theorem bytes_append (t u : Text) : bytes (t ++ u) = bytes t + bytes u := by
  simp [bytes]

/-- Seeking over a text finds what is behind it. -/
theorem seek_append (t u : Text) : seek (t ++ u) (bytes t) = some u := by
  induction t with
  | nil => cases u <;> rfl
  | cons c t ih =>
    have hc := Char.utf8Size_pos c
    obtain ⟨k, hk⟩ : ∃ k, bytes (c :: t) = k + 1 := ⟨bytes (c :: t) - 1, by simp [bytes]; omega⟩
    have hsum : bytes (c :: t) = c.utf8Size + bytes t := by simp [bytes]
    rw [List.cons_append, hk, seek, if_pos (by omega), ← hk, hsum, Nat.add_sub_cancel_left]
    exact ih

end Text

/-! ## Lines that are terminated -/

/-- The lines, each with its newline. -/
def terminated (ls : List Text) : Text :=
  ls.flatMap (· ++ ['\n'])

/-- The lines of a text. The last one may have no newline. -/
def Text.lines (t : Text) : List Text :=
  let ls := t.splitOn '\n'
  if ls.getLast? = some [] then ls.dropLast else ls

@[simp] theorem terminated_nil : terminated [] = [] := rfl

theorem terminated_concat (ls : List Text) (l : Text) :
    terminated (ls ++ [l]) = terminated ls ++ (l ++ ['\n']) := by
  simp [terminated]

/-- Lines that are complete are the first lines. -/
theorem splitOn_terminated {ls : List Text} (h : ∀ l ∈ ls, '\n' ∉ l) (t : Text) :
    (terminated ls ++ t).splitOn '\n' = ls ++ t.splitOn '\n' := by
  induction ls with
  | nil => rfl
  | cons l ls ih =>
    have hl := h l List.mem_cons_self
    have := List.splitOn_append_cons_self_of_not_mem hl (terminated ls ++ t)
    rw [ih fun l' hl' => h l' (List.mem_cons_of_mem l hl')] at this
    simpa [terminated] using this

/-- Every text is such lines with an incomplete line behind them. -/
theorem terminated_splitOn (t : Text) :
    terminated (t.splitOn '\n').dropLast ++ (t.splitOn '\n').getLast?.getD [] = t ∧
      ∀ l ∈ t.splitOn '\n', '\n' ∉ l := by
  induction t with
  | nil => simp [terminated]
  | cons c t ih =>
    obtain ⟨ihsplit, ihmem⟩ := ih
    rw [List.splitOn_cons_eq_if_modifyHead]
    obtain ⟨l, ls, hsplit⟩ := List.exists_cons_of_ne_nil (List.splitOn_ne_nil '\n' t)
    rw [hsplit] at ihsplit ihmem ⊢
    by_cases hc : c = '\n'
    · subst hc
      refine ⟨?_, by simpa using ihmem⟩
      simpa [terminated] using ihsplit
    · have hne : (c == '\n') = false := by simpa using hc
      rw [hne]
      refine ⟨?_, ?_⟩
      · cases ls with
        | nil => simpa [terminated] using ihsplit
        | cons l' ls => simpa [terminated] using ihsplit
      · rintro l' hl'
        rcases List.mem_cons.1 hl' with rfl | hl'
        · simpa [Ne.symm hc] using ihmem l List.mem_cons_self
        · exact ihmem l' (List.mem_cons_of_mem l hl')

/-- A text in front of the first newline belongs to the first line. -/
theorem splitOn_append {p : Text} (hp : '\n' ∉ p) (t : Text) :
    (t.splitOn '\n').modifyHead (p ++ ·) = (p ++ t).splitOn '\n' := by
  induction p with
  | nil =>
    have hid : (([] : Text) ++ ·) = id := rfl
    rw [hid, List.modifyHead_id, List.nil_append, id]
  | cons c p ih =>
    obtain ⟨hc, hp⟩ := not_or.1 (mt List.mem_cons.2 hp)
    have hne : (c == '\n') = false := by simpa using Ne.symm hc
    rw [List.cons_append, List.splitOn_cons_eq_if_modifyHead, hne, ← ih hp]
    cases t.splitOn '\n' <;> rfl

theorem lines_terminated {ls : List Text} (h : ∀ l ∈ ls, '\n' ∉ l) (t : Text) :
    (terminated ls ++ t).lines = ls ++ t.lines := by
  have hne := List.splitOn_ne_nil '\n' t
  simp only [Text.lines]
  rw [splitOn_terminated h, List.getLast?_append_of_ne_nil _ hne,
    List.dropLast_append_of_ne_nil hne]
  split_ifs <;> rfl

theorem lines_of_not_mem {t : Text} (ht : '\n' ∉ t) : t.lines = if t = [] then [] else [t] := by
  unfold Text.lines
  rw [List.splitOn_eq_singleton ht]
  by_cases hnil : t = []
  · simp [hnil]
  · simp [hnil]

/-- No line is incomplete where the text is empty or ends with a newline. -/
theorem terminated_append_ends_iff {ls : List Text} {t : Text} (ht : '\n' ∉ t) :
    terminated ls ++ t = [] ∨ (terminated ls ++ t).getLast? = some '\n' ↔ t = [] := by
  constructor
  · rintro (h | h)
    · exact (List.append_eq_nil_iff.1 h).2
    · by_contra hne
      rw [List.getLast?_append_of_ne_nil _ hne] at h
      exact ht (List.mem_of_getLast? h)
  · rintro rfl
    rcases List.eq_nil_or_concat ls with rfl | ⟨ls, l, rfl⟩
    · exact Or.inl rfl
    · right
      rw [List.append_nil, List.concat_eq_append, terminated_concat, ← List.append_assoc]
      simp

/-! ## Finding a text in a text -/

namespace Text

/-- The first position of `sub`, as `find` gives it. -/
def find (sub : Text) : Text → Option ℕ
  | [] => if sub = [] then some 0 else none
  | c :: t => if sub <+: c :: t then some 0 else (find sub t).map (· + 1)

theorem find_cons (sub : Text) (c : Char) (t : Text) : find sub (c :: t) =
    if sub <+: c :: t then some 0 else (find sub t).map (· + 1) := rfl

theorem find_of_prefix {sub t : Text} (h : sub <+: t) : find sub t = some 0 := by
  cases t with
  | nil => rw [find, if_pos (List.prefix_nil.1 h)]
  | cons c t => rw [find, if_pos h]

theorem prefix_of_find_eq_some {sub t : Text} {pos : ℕ} (h : find sub t = some pos) :
    sub <+: t.drop pos := by
  induction t generalizing pos with
  | nil =>
    rw [find] at h
    split_ifs at h with hsub
    rw [hsub]
    exact List.nil_prefix
  | cons c t ih =>
    rw [find] at h
    split_ifs at h with hsub
    · obtain rfl := Option.some_inj.1 h
      exact hsub
    · obtain ⟨n, hn, rfl⟩ := Option.map_eq_some_iff.1 h
      exact ih hn

theorem prefix_append_cons {c : Char} {m t u : Text} (hc : c ∉ m) (h : m <+: t ++ c :: u) :
    m <+: t := by
  rcases List.prefix_or_prefix_of_prefix h (List.prefix_append t (c :: u)) with ht | ⟨n, rfl⟩
  · exact ht
  · cases n with
    | nil => rw [List.append_nil]
    | cons d n =>
      obtain ⟨rfl, -⟩ := List.cons_prefix_cons.1 ((List.prefix_append_right_inj t).1 h)
      exact absurd (List.mem_append_right t List.mem_cons_self) hc

/-- A text whose first character it does not have again is found in front of such a character, or
from there on. -/
theorem infix_append_cons {c : Char} {m t u : Text} (hc : c ∉ m)
    (h : c :: m <:+: t ++ c :: u) : c :: m <:+: t ∨ c :: m <:+: c :: u := by
  induction t with
  | nil => exact .inr h
  | cons d t ih =>
    rw [List.cons_append, List.infix_cons_iff] at h
    rcases h with hpre | hin
    · obtain ⟨rfl, hm⟩ := List.cons_prefix_cons.1 hpre
      exact .inl (List.cons_prefix_cons.2 ⟨rfl, prefix_append_cons hc hm⟩).isInfix
    · rcases ih hin with h | h
      · exact .inl (List.infix_cons h)
      · exact .inr h

/-- It is found where it stands, if it begins with what is not in front of it. -/
theorem find_append {c : Char} {m sub t u : Text} (hc : c ∉ m) (hsub : c :: m <+: sub)
    (ht : ¬ c :: m <:+: t) : find sub (t ++ (sub ++ u)) = some t.length := by
  induction t with
  | nil => exact find_of_prefix (List.prefix_append sub u)
  | cons d t ih =>
    have hnot : ¬ sub <+: d :: (t ++ (sub ++ u)) := by
      obtain ⟨sub', rfl⟩ := hsub
      intro h
      obtain ⟨rfl, hm⟩ := List.cons_prefix_cons.1 ((List.prefix_append (c :: m) sub').trans h)
      exact ht (List.cons_prefix_cons.2 ⟨rfl, prefix_append_cons hc hm⟩).isInfix
    rw [List.cons_append, find_cons, if_neg hnot, ih fun h => ht (List.infix_cons h)]
    rfl

/-! ## Whitespace at the ends -/

/-- `str.rstrip`. -/
def rstrip (t : Text) : Text :=
  t.rdropWhile isSpace

/-- There is something that is not whitespace. -/
def Visible (t : Text) : Prop :=
  ∃ c ∈ t, isSpace c = false

theorem rstrip_eq_nil_iff {t : Text} : t.rstrip = [] ↔ ¬ t.Visible := by
  rw [rstrip, List.rdropWhile_eq_nil_iff]
  simp [Visible]

theorem rstrip_append (t : Text) {u : Text} (hu : u.Visible) :
    rstrip (t ++ u) = t ++ rstrip u := by
  obtain ⟨c, hc, hspace⟩ := hu
  have hne : (u.reverse.dropWhile isSpace).isEmpty = false := by
    rw [List.isEmpty_eq_false_iff]
    intro hnil
    have := List.dropWhile_eq_nil_iff.1 hnil c (List.mem_reverse.2 hc)
    rw [hspace] at this
    cases this
  rw [rstrip, rstrip, List.rdropWhile, List.rdropWhile, List.reverse_append,
    List.dropWhile_append, hne]
  simp

theorem rstrip_append_of_not_visible {t u : Text} (hu : ¬ u.Visible) :
    rstrip (t ++ u) = rstrip t := by
  rw [rstrip, rstrip, List.rdropWhile, List.rdropWhile, List.reverse_append,
    List.dropWhile_append_of_pos]
  intro c hc
  by_contra h
  exact hu ⟨c, List.mem_reverse.1 hc, by simpa using h⟩

theorem isPrefix_rstrip (t : Text) : t.rstrip <+: t :=
  List.rdropWhile_prefix _ _

@[simp] theorem rstrip_rstrip (t : Text) : t.rstrip.rstrip = t.rstrip :=
  List.rdropWhile_idempotent _ _

theorem strip_eq (t : Text) : strip t = rstrip (t.dropWhile isSpace) := rfl

theorem isInfix_strip (t : Text) : strip t <:+: t :=
  (isPrefix_rstrip _).isInfix.trans (List.dropWhile_suffix _).isInfix

@[simp] theorem rstrip_strip (t : Text) : rstrip (strip t) = strip t := by
  rw [strip_eq, rstrip_rstrip]

theorem strip_eq_rstrip {t : Text} {c : Char} (hc : isSpace c = false) (h : [c] <+: t) :
    strip t = rstrip t := by
  obtain ⟨t, rfl⟩ := h
  rw [strip_eq, List.singleton_append, List.dropWhile_cons_of_neg (by simp [hc])]

theorem prefix_rstrip {t : Text} {c : Char} (hc : isSpace c = false) (h : [c] <+: t) :
    [c] <+: rstrip t := by
  obtain ⟨u, rfl⟩ := h
  by_cases hu : Visible u
  · rw [rstrip_append _ hu]
    exact List.prefix_append _ _
  · rw [rstrip_append_of_not_visible hu, rstrip, List.rdropWhile_singleton, if_neg (by simp [hc])]

/-- A text that ends with whitespace is found in front of trailing whitespace if it is found with
something visible behind it. -/
theorem infix_rstrip_iff {m t : Text} {c : Char} (hc : isSpace c = true) :
    m ++ [c] <:+: t.rstrip ↔ ∃ a b, t = a ++ (m ++ [c]) ++ b ∧ Visible b := by
  constructor
  · rintro ⟨a, b, hab⟩
    obtain ⟨u, hu⟩ := isPrefix_rstrip t
    have hb : Visible b := by
      by_contra hb
      have hself := rstrip_rstrip t
      rw [← hab, rstrip_append_of_not_visible hb, ← List.append_assoc,
        rstrip_append_of_not_visible (by simp [Visible, hc])] at hself
      have hlength := (isPrefix_rstrip (a ++ m)).length_le
      rw [hself] at hlength
      simp at hlength
    obtain ⟨d, hd, hspace⟩ := hb
    refine ⟨a, b ++ u, ?_, d, List.mem_append_left u hd, hspace⟩
    rw [← List.append_assoc, hab, hu]
  · rintro ⟨a, b, rfl, hb⟩
    rw [rstrip_append _ hb]
    exact ⟨a, b.rstrip, rfl⟩

/-! ## Lines that are joined -/

/-- The lines with a newline between two of them. -/
def joinLines (ls : List Text) : Text :=
  ['\n'].intercalate ls

theorem joinLines_cons_cons (l l' : Text) (ls : List Text) :
    joinLines (l :: l' :: ls) = l ++ '\n' :: joinLines (l' :: ls) := by
  rw [joinLines, List.intercalate_cons_cons, List.append_assoc]
  rfl

theorem joinLines_append_cons (u l : Text) (ls : List Text) :
    joinLines ((u ++ l) :: ls) = u ++ joinLines (l :: ls) := by
  cases ls with
  | nil => rw [joinLines, joinLines, List.intercalate_singleton, List.intercalate_singleton]
  | cons l' ls => rw [joinLines_cons_cons, joinLines_cons_cons, List.append_assoc]

theorem visible_append {t u : Text} : Visible (t ++ u) ↔ Visible t ∨ Visible u := by
  simp only [Visible, List.mem_append, or_and_right, exists_or]

theorem visible_joinLines {ls : List Text} : Visible (joinLines ls) ↔ ∃ l ∈ ls, Visible l := by
  induction ls with
  | nil => simp [joinLines, Visible]
  | cons l ls ih =>
    cases ls with
    | nil => simp [joinLines]
    | cons l' ls =>
      have hnewline : Visible ('\n' :: joinLines (l' :: ls)) ↔ Visible (joinLines (l' :: ls)) := by
        have hspace : ¬ Visible ['\n'] := by simp [Visible]; rfl
        rw [← List.singleton_append, visible_append, or_iff_right hspace]
      rw [joinLines_cons_cons, visible_append, hnewline, ih, List.exists_mem_cons_iff _ l]

theorem joinLines_concat {ls : List Text} (h : ls ≠ []) (l : Text) :
    joinLines (ls ++ [l]) = joinLines ls ++ '\n' :: l := by
  induction ls with
  | nil => exact absurd rfl h
  | cons l' ls ih =>
    cases ls with
    | nil => rw [List.singleton_append, joinLines_cons_cons]; simp [joinLines]
    | cons l'' ls =>
      rw [List.cons_append, List.cons_append, joinLines_cons_cons, ← List.cons_append,
        ih (List.cons_ne_nil l'' ls), joinLines_cons_cons, List.append_assoc, List.cons_append]

theorem rstrip_joinLines_concat (ls : List Text) {l : Text} (hl : Visible l) :
    rstrip (joinLines (ls ++ [l])) = joinLines (ls ++ [rstrip l]) := by
  cases ls with
  | nil => simp [joinLines]
  | cons l' ls =>
    rw [joinLines_concat (List.cons_ne_nil l' ls), joinLines_concat (List.cons_ne_nil l' ls),
      List.append_cons, rstrip_append _ hl, ← List.append_cons]

theorem mem_joinLines {ls : List Text} {c : Char} (h : c ∈ joinLines ls) :
    c = '\n' ∨ ∃ l ∈ ls, c ∈ l := by
  induction ls with
  | nil => cases h
  | cons l ls ih =>
    cases ls with
    | nil => exact .inr ⟨l, List.mem_cons_self, by simpa [joinLines] using h⟩
    | cons l' ls =>
      rw [joinLines_cons_cons, List.mem_append, List.mem_cons] at h
      rcases h with h | rfl | h
      · exact .inr ⟨l, List.mem_cons_self, h⟩
      · exact .inl rfl
      · exact (ih h).imp_right fun ⟨l'', hl'', hc⟩ => ⟨l'', List.mem_cons_of_mem l hl'', hc⟩

theorem mem_of_mem_joinLines {ls : List Text} {l : Text} {c : Char} (hl : l ∈ ls) (hc : c ∈ l) :
    c ∈ joinLines ls := by
  induction ls with
  | nil => cases hl
  | cons l' ls ih =>
    cases ls with
    | nil =>
      rw [List.mem_singleton.1 hl] at hc
      simpa [joinLines] using hc
    | cons l'' ls =>
      rw [joinLines_cons_cons]
      rcases List.mem_cons.1 hl with rfl | hl
      · exact List.mem_append_left _ hc
      · exact List.mem_append_right _ (List.mem_cons_of_mem _ (ih hl))

theorem mem_of_mem_splitOn {t l : Text} {c : Char} (hl : l ∈ t.splitOn '\n') (hc : c ∈ l) :
    c ∈ t := by
  have hjoin : joinLines (t.splitOn '\n') = t := List.intercalate_splitOn '\n'
  exact hjoin ▸ mem_of_mem_joinLines hl hc

/-- Trailing whitespace of the lines can be dropped where the text has none at its ends. -/
theorem rstrip_joinLines_map {t : Text} {c : Char} (hc : isSpace c = false) (hfirst : [c] <+: t)
    (hlast : rstrip t = t) : [c] <+: joinLines ((t.splitOn '\n').map rstrip) ∧
      rstrip (joinLines ((t.splitOn '\n').map rstrip)) =
        joinLines ((t.splitOn '\n').map rstrip) := by
  have hjoin : joinLines (t.splitOn '\n') = t := List.intercalate_splitOn '\n'
  constructor
  · obtain ⟨l, ls, hls⟩ := List.exists_cons_of_ne_nil (List.splitOn_ne_nil '\n' t)
    rw [hls] at hjoin ⊢
    have hl : [c] <+: l := by
      cases l with
      | nil =>
        rw [← hjoin] at hfirst
        cases ls with
        | nil => exact absurd hfirst.length_le (by simp [joinLines])
        | cons l' ls =>
          rw [joinLines_cons_cons] at hfirst
          obtain ⟨rfl, -⟩ := List.cons_prefix_cons.1 hfirst
          cases hc
      | cons d l =>
        have hd := joinLines_append_cons [d] l ls
        rw [List.singleton_append, hjoin] at hd
        rw [hd] at hfirst
        obtain ⟨rfl, -⟩ := List.cons_prefix_cons.1 hfirst
        exact List.prefix_append [c] l
    obtain ⟨l', hl'⟩ := prefix_rstrip hc hl
    rw [List.map_cons, ← hl', joinLines_append_cons]
    exact List.prefix_append _ _
  · rcases List.eq_nil_or_concat (t.splitOn '\n') with hnil | ⟨ls, l, hls⟩
    · exact absurd hnil (List.splitOn_ne_nil '\n' t)
    rw [hls, List.concat_eq_append] at hjoin ⊢
    have hl : Visible l := by
      by_contra hl
      cases ls with
      | nil =>
        have hself : l = t := by simpa [joinLines] using hjoin
        obtain ⟨u, rfl⟩ := hfirst
        exact hl ⟨c, hself ▸ List.mem_cons_self, hc⟩
      | cons l' ls =>
        have hnewline : ¬ Visible ('\n' :: l) := by
          rw [← List.singleton_append, visible_append, not_or]
          exact ⟨by simp [Visible]; rfl, hl⟩
        rw [joinLines_concat (List.cons_ne_nil l' ls)] at hjoin
        rw [← hjoin, rstrip_append_of_not_visible hnewline] at hlast
        have hlength := (isPrefix_rstrip (joinLines (l' :: ls))).length_le
        rw [hlast] at hlength
        simp at hlength
    have hstrip : Visible (rstrip l) := by
      by_contra hnot
      have hnil := rstrip_eq_nil_iff.2 hnot
      rw [rstrip_rstrip] at hnil
      exact rstrip_eq_nil_iff.1 hnil hl
    rw [List.map_append, List.map_singleton, rstrip_joinLines_concat _ hstrip, rstrip_rstrip]

/-- One of the lines begins with `m`, and from there on something is visible. -/
def Marked (m : Text) : List Text → Prop
  | [] => False
  | l :: ls => (∃ u, l = m ++ u ∧ (Visible u ∨ ∃ l' ∈ ls, Visible l')) ∨ Marked m ls

theorem Marked.append_left {m : Text} {ls : List Text} (h : Marked m ls) (ls' : List Text) :
    Marked m (ls' ++ ls) := by
  induction ls' with
  | nil => exact h
  | cons l ls' ih => exact .inr ih

/-- Behind the first of these lines there is one that begins with `m`. -/
theorem exists_of_marked {m l : Text} {ls : List Text} (h : Marked m ls) :
    ∃ a b, joinLines (l :: ls) = a ++ '\n' :: m ++ b ∧ Visible b := by
  induction ls generalizing l with
  | nil => exact h.elim
  | cons l' ls ih =>
    rw [joinLines_cons_cons]
    rcases h with ⟨u, rfl, hu⟩ | h
    · refine ⟨l, joinLines (u :: ls), ?_, visible_joinLines.2 ((List.exists_mem_cons_iff ..).2 hu)⟩
      rw [joinLines_append_cons, List.append_assoc]
      rfl
    · obtain ⟨a, b, hab, hb⟩ := ih (l := l') h
      refine ⟨l ++ '\n' :: a, b, ?_, hb⟩
      rw [hab]
      simp

/-- A line that begins with `m`, behind the first line and in front of trailing whitespace. -/
theorem infix_rstrip_iff_marked {m t : Text} {c : Char} (hc : isSpace c = true)
    (hm : '\n' ∉ m ++ [c]) :
    '\n' :: (m ++ [c]) <:+: rstrip t ↔ Marked (m ++ [c]) (t.splitOn '\n').tail := by
  have hiff := infix_rstrip_iff (m := '\n' :: m) (t := t) hc
  rw [List.cons_append] at hiff
  rw [hiff]
  constructor
  · rintro ⟨a, b, rfl, hb⟩
    have hjoin : joinLines (b.splitOn '\n') = b := List.intercalate_splitOn '\n'
    obtain ⟨l, ls, hls⟩ := List.exists_cons_of_ne_nil (List.splitOn_ne_nil '\n' b)
    rw [hls] at hjoin
    rw [← hjoin, visible_joinLines, List.exists_mem_cons_iff] at hb
    have hsplit : (a ++ '\n' :: (m ++ [c]) ++ b).splitOn '\n' =
        a.splitOn '\n' ++ ((m ++ [c] ++ l) :: ls) := by
      rw [List.append_assoc, List.cons_append, List.splitOn_append_cons_self,
        ← splitOn_append hm, hls]
      rfl
    rw [hsplit, List.tail_append_of_ne_nil (List.splitOn_ne_nil '\n' a)]
    have hmarked : Marked (m ++ [c]) ((m ++ [c] ++ l) :: ls) := Or.inl ⟨l, rfl, hb⟩
    exact hmarked.append_left _
  · intro h
    have hjoin : joinLines (t.splitOn '\n') = t := List.intercalate_splitOn '\n'
    obtain ⟨l, ls, hls⟩ := List.exists_cons_of_ne_nil (List.splitOn_ne_nil '\n' t)
    rw [hls] at h hjoin
    obtain ⟨a, b, hab, hb⟩ := exists_of_marked (l := l) h
    exact ⟨a, b, hjoin.symm.trans hab, hb⟩

/-- Lines that are replaced one by one, where those that are visible stay so and those that begin
with `m` stay as they are. -/
theorem marked_iff_of_forall₂ {m : Text} {ls ls' : List Text} {R : Text → Text → Prop}
    (hvisible : ∀ l l', R l l' → (Visible l ↔ Visible l'))
    (hmarked : ∀ l l', R l l' → m <+: l ∨ m <+: l' → l' = l) (h : List.Forall₂ R ls ls') :
    Marked m ls ↔ Marked m ls' := by
  have hany : ∀ {ls ls' : List Text}, List.Forall₂ R ls ls' →
      ((∃ l ∈ ls, Visible l) ↔ ∃ l ∈ ls', Visible l) := by
    intro ls ls' h
    induction h with
    | nil => exact Iff.rfl
    | cons hl _ ih => rw [List.exists_mem_cons_iff, List.exists_mem_cons_iff, hvisible _ _ hl, ih]
  induction h with
  | nil => exact Iff.rfl
  | cons hl hls ih =>
    rename_i l l' ls ls'
    refine or_congr ⟨?_, ?_⟩ ih
    · rintro ⟨u, hu, h⟩
      obtain rfl := hmarked _ _ hl (.inl ⟨u, hu.symm⟩)
      exact ⟨u, hu, h.imp_right (hany hls).1⟩
    · rintro ⟨u, hu, h⟩
      obtain rfl := hmarked _ _ hl (.inr ⟨u, hu.symm⟩)
      exact ⟨u, hu, h.imp_right (hany hls).2⟩

end Text

end Thinker
