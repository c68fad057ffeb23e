import Thinker.Lines
import Mathlib.Computability.Language

/-!
# Search for a pattern

A pattern is a list of pieces : one character of a class, as many as there are, or as many as
there are and one at least. Each takes as much as it can such that those behind it match too, and a
search finds the leftmost match.

`Pattern.start_eq_some_iff` says where a search finds the words of the pattern's language, and
`Pattern.start_reverse_eq_some_iff` the same of a search from the end.
-/

namespace Thinker

/-- A piece of a pattern. -/
inductive Piece where
  | one (p : Char → Bool)
  /-- `*`. -/
  | star (p : Char → Bool)
  /-- `+`. -/
  | plus (p : Char → Bool)

/-- A pattern. -/
abbrev Pattern := List Piece

namespace Pattern

/-- What `*` and what is behind it take, where it takes as much as it can. -/
def matchStar (p : Char → Bool) (behind : Text → Option (List Text)) : Text → Option (List Text)
  | [] => (behind []).map ([] :: ·)
  | c :: t =>
    if p c then
      ((matchStar p behind t).map (List.modifyHead (c :: ·))).or ((behind (c :: t)).map ([] :: ·))
    else (behind (c :: t)).map ([] :: ·)

/-- What `+` and what is behind it take. -/
def matchPlus (p : Char → Bool) (behind : Text → Option (List Text)) : Text → Option (List Text)
  | [] => none
  | c :: t => if p c then (matchStar p behind t).map (List.modifyHead (c :: ·)) else none

/-- What one character and what is behind it take. -/
def matchOne (p : Char → Bool) (behind : Text → Option (List Text)) : Text → Option (List Text)
  | [] => none
  | c :: t => if p c then (behind t).map ([c] :: ·) else none

/-- `re.match` : what the pieces take from the front of a text. -/
def matchAt : Pattern → Text → Option (List Text)
  | [], _ => some []
  | .one p :: r, t => matchOne p (matchAt r) t
  | .star p :: r, t => matchStar p (matchAt r) t
  | .plus p :: r, t => matchPlus p (matchAt r) t

/-- `re.search` : where the leftmost match is, and what its pieces take. -/
def search (r : Pattern) : Text → Option (ℕ × List Text)
  | [] => (matchAt r []).map (0, ·)
  | c :: t =>
    ((matchAt r (c :: t)).map (0, ·)).or ((search r t).map fun m => (m.1 + 1, m.2))

end Pattern

/-! ## The language of a pattern -/

/-- The words that a piece takes. -/
def Piece.lang : Piece → Language Char
  | .one p => {w | ∃ c, p c = true ∧ w = [c]}
  | .star p => {w | ∀ c ∈ w, p c = true}
  | .plus p => {w | w ≠ [] ∧ ∀ c ∈ w, p c = true}

namespace Piece

variable {p : Char → Bool} {w : Text}

@[simp] theorem mem_lang_one : w ∈ (one p).lang ↔ ∃ c, p c = true ∧ w = [c] := Iff.rfl

@[simp] theorem mem_lang_star : w ∈ (star p).lang ↔ ∀ c ∈ w, p c = true := Iff.rfl

@[simp] theorem mem_lang_plus : w ∈ (plus p).lang ↔ w ≠ [] ∧ ∀ c ∈ w, p c = true := Iff.rfl

/-- A piece takes the same words backwards. -/
theorem reverse_lang (a : Piece) : a.lang.reverse = a.lang := by
  ext w
  rw [Language.mem_reverse]
  cases a with
  | one p =>
    refine exists_congr fun c => and_congr_right fun _ => ?_
    rw [List.reverse_eq_iff]
    rfl
  | star p => simp
  | plus p => simp

end Piece

namespace Pattern

variable {r : Pattern} {t w : Text}

/-- The words that match a pattern. -/
def lang (r : Pattern) : Language Char :=
  (r.map Piece.lang).prod

@[simp] theorem lang_nil : lang [] = 1 := rfl

@[simp] theorem lang_cons (a : Piece) (r : Pattern) : lang (a :: r) = a.lang * lang r := by
  simp [lang]

theorem lang_reverse (r : Pattern) : lang r.reverse = (lang r).reverse := by
  induction r with
  | nil => simp
  | cons a r ih =>
    have hconcat : lang (r.reverse ++ [a]) = lang r.reverse * a.lang := by simp [lang]
    rw [List.reverse_cons, hconcat, ih, lang_cons, Language.reverse_mul, Piece.reverse_lang]

/-- A word of the pattern is in front of the text. -/
def Starts (r : Pattern) (t : Text) : Prop :=
  ∃ w, w ∈ lang r ∧ w <+: t

theorem starts_cons {a : Piece} :
    Starts (a :: r) t ↔ ∃ u v, t = u ++ v ∧ u ∈ a.lang ∧ Starts r v := by
  constructor
  · rintro ⟨w, hw, s, rfl⟩
    obtain ⟨u, hu, v, hv, rfl⟩ := Language.mem_mul.1 (lang_cons a r ▸ hw)
    exact ⟨u, v ++ s, by simp, hu, v, hv, List.prefix_append v s⟩
  · rintro ⟨u, v, rfl, hu, w, hw, hprefix⟩
    refine ⟨u ++ w, ?_, (List.prefix_append_right_inj u).2 hprefix⟩
    rw [lang_cons]
    exact Language.append_mem_mul hu hw

theorem isSome_matchStar {p : Char → Bool} {behind : Text → Option (List Text)} (t : Text) :
    (matchStar p behind t).isSome ↔
      ∃ u v, t = u ++ v ∧ (∀ c ∈ u, p c = true) ∧ (behind v).isSome := by
  induction t with
  | nil => simp [matchStar]
  | cons c t ih =>
    have hsplit : (∃ u v, c :: t = u ++ v ∧ (∀ d ∈ u, p d = true) ∧ (behind v).isSome) ↔
        (behind (c :: t)).isSome ∨
          (p c = true ∧ ∃ u v, t = u ++ v ∧ (∀ d ∈ u, p d = true) ∧ (behind v).isSome) := by
      constructor
      · rintro ⟨u, v, ht, hu, hv⟩
        cases u with
        | nil => exact .inl (ht ▸ hv)
        | cons d u =>
          obtain ⟨rfl, rfl⟩ := List.cons.inj ht
          exact .inr ⟨hu c List.mem_cons_self, u, v, rfl,
            fun e he => hu e (List.mem_cons_of_mem c he), hv⟩
      · rintro (h | ⟨hc, u, v, rfl, hu, hv⟩)
        · exact ⟨[], c :: t, rfl, by simp, h⟩
        · exact ⟨c :: u, v, rfl, List.forall_mem_cons.2 ⟨hc, hu⟩, hv⟩
    rw [hsplit, ← ih, matchStar]
    by_cases hc : p c = true
    · simp [hc, or_comm]
    · simp [hc]

theorem isSome_matchOne {p : Char → Bool} {behind : Text → Option (List Text)} (t : Text) :
    (matchOne p behind t).isSome ↔ ∃ c v, t = c :: v ∧ p c = true ∧ (behind v).isSome := by
  cases t with
  | nil => simp [matchOne]
  | cons c t => by_cases hc : p c = true <;> simp [matchOne, hc]

theorem isSome_matchPlus {p : Char → Bool} {behind : Text → Option (List Text)} (t : Text) :
    (matchPlus p behind t).isSome ↔
      ∃ u v, t = u ++ v ∧ (u ≠ [] ∧ ∀ c ∈ u, p c = true) ∧ (behind v).isSome := by
  cases t with
  | nil => simp [matchPlus]
  | cons c t =>
    have hsplit : (matchPlus p behind (c :: t)).isSome ↔
        p c = true ∧ (matchStar p behind t).isSome := by
      by_cases hc : p c = true <;> simp [matchPlus, hc]
    rw [hsplit, isSome_matchStar]
    constructor
    · rintro ⟨hc, u, v, rfl, hu, hv⟩
      exact ⟨c :: u, v, rfl, ⟨by simp, List.forall_mem_cons.2 ⟨hc, hu⟩⟩, hv⟩
    · rintro ⟨u, v, ht, ⟨hne, hu⟩, hv⟩
      obtain ⟨d, u, rfl⟩ := List.exists_cons_of_ne_nil hne
      obtain ⟨rfl, rfl⟩ := List.cons.inj ht
      obtain ⟨hc, hu⟩ := List.forall_mem_cons.1 hu
      exact ⟨hc, u, v, rfl, hu, hv⟩

theorem isSome_matchAt (r : Pattern) (t : Text) : (matchAt r t).isSome ↔ Starts r t := by
  induction r generalizing t with
  | nil => simp [matchAt, Starts]
  | cons a r ih =>
    rw [starts_cons]
    cases a with
    | one p =>
      simp only [matchAt, isSome_matchOne, ih, Piece.mem_lang_one]
      constructor
      · rintro ⟨c, v, rfl, hc, hv⟩
        exact ⟨[c], v, rfl, ⟨c, hc, rfl⟩, hv⟩
      · rintro ⟨_, v, rfl, ⟨c, hc, rfl⟩, hv⟩
        exact ⟨c, v, rfl, hc, hv⟩
    | star p => simp only [matchAt, isSome_matchStar, ih, Piece.mem_lang_star]
    | plus p => simp only [matchAt, isSome_matchPlus, ih, Piece.mem_lang_plus]

/-! ## Where a search finds it -/

/-- The position of the leftmost match. -/
def start (r : Pattern) (t : Text) : Option ℕ :=
  (search r t).map Prod.fst

theorem start_cons (c : Char) : start r (c :: t) =
    if (matchAt r (c :: t)).isSome then some 0 else (start r t).map (· + 1) := by
  unfold start
  rw [search]
  cases matchAt r (c :: t) with
  | some ws => rfl
  | none =>
    cases search r t with
    | some m => rfl
    | none => rfl

/-- A search finds the leftmost match. -/
theorem start_eq_some_iff {i : ℕ} :
    start r t = some i ↔ Starts r (t.drop i) ∧ ∀ i' < i, ¬ Starts r (t.drop i') := by
  induction t generalizing i with
  | nil =>
    have hstart : start r [] = some i ↔ i = 0 ∧ Starts r [] := by
      rw [← isSome_matchAt, start, search]
      cases matchAt r [] with
      | some ws => simpa using eq_comm
      | none => simp
    rw [hstart]
    simp only [List.drop_nil]
    constructor
    · rintro ⟨rfl, h⟩
      exact ⟨h, by simp⟩
    · rintro ⟨h, hfirst⟩
      exact ⟨Nat.eq_zero_of_not_pos fun hi => hfirst 0 hi h, h⟩
  | cons c t ih =>
    rw [start_cons]
    by_cases hmatch : Starts r (c :: t)
    · rw [if_pos ((isSome_matchAt r _).2 hmatch), Option.some.injEq]
      constructor
      · rintro rfl
        exact ⟨hmatch, by simp⟩
      · rintro ⟨-, hfirst⟩
        exact (Nat.eq_zero_of_not_pos fun hi => hfirst 0 hi hmatch).symm
    · rw [if_neg (mt (isSome_matchAt r _).1 hmatch), Option.map_eq_some_iff]
      cases i with
      | zero => simp [hmatch]
      | succ i =>
        simp only [Nat.add_right_cancel_iff, exists_eq_right, ih, List.drop_succ_cons]
        refine and_congr_right fun _ => ⟨fun h i' hi' => ?_, fun h i' hi' => ?_⟩
        · cases i' with
          | zero => exact hmatch
          | succ i' => exact h i' (Nat.lt_of_succ_lt_succ hi')
        · exact h (i' + 1) (Nat.succ_lt_succ hi')

/-- A word of the pattern is between two positions of the text. -/
def Between (r : Pattern) (t : Text) (i j : ℕ) : Prop :=
  ∃ a w b, t = a ++ w ++ b ∧ w ∈ lang r ∧ i = a.length ∧ j = (a ++ w).length

theorem Between.le_length {i j : ℕ} (h : Between r t i j) : j ≤ t.length := by
  obtain ⟨a, w, b, rfl, -, -, rfl⟩ := h
  simp

theorem starts_drop_reverse_iff {m : ℕ} :
    Starts r.reverse (t.reverse.drop m) ↔ ∃ i, Between r t i (t.length - m) := by
  rw [List.drop_reverse]
  constructor
  · rintro ⟨w, hw, hprefix⟩
    rw [lang_reverse, Language.mem_reverse] at hw
    obtain ⟨a, ha⟩ : w.reverse <:+ t.take (t.length - m) := by
      rw [← List.reverse_prefix, List.reverse_reverse]
      exact hprefix
    refine ⟨_, a, w.reverse, t.drop (t.length - m), ?_, hw, rfl, ?_⟩
    · rw [ha, List.take_append_drop]
    · rw [ha, List.length_take, min_eq_left (Nat.sub_le _ _)]
  · rintro ⟨i, a, w, b, ht, hw, -, hlength⟩
    refine ⟨w.reverse, ?_, ?_⟩
    · rw [lang_reverse, Language.mem_reverse, List.reverse_reverse]
      exact hw
    · have htake : t.take (t.length - m) = a ++ w := by
        rw [hlength, ht, List.take_left]
      rw [htake, List.reverse_append]
      exact List.prefix_append _ _

/-- A search from the end finds the match that ends last. -/
theorem start_reverse_eq_some_iff {m : ℕ} : start r.reverse t.reverse = some m ↔
    m ≤ t.length ∧ (∃ i, Between r t i (t.length - m)) ∧
      ∀ i j, Between r t i j → j ≤ t.length - m := by
  rw [start_eq_some_iff]
  constructor
  · rintro ⟨hstarts, hfirst⟩
    have hm : m ≤ t.length := by
      by_contra hm
      refine hfirst t.length (by omega) (starts_drop_reverse_iff.2 ?_)
      obtain ⟨i, hi⟩ := starts_drop_reverse_iff.1 hstarts
      exact ⟨i, by rwa [Nat.sub_self, ← Nat.sub_eq_zero_of_le (Nat.le_of_not_le hm)]⟩
    refine ⟨hm, starts_drop_reverse_iff.1 hstarts, fun i j hij => ?_⟩
    by_contra hj
    have hle := hij.le_length
    refine hfirst (t.length - j) (by omega) (starts_drop_reverse_iff.2 ⟨i, ?_⟩)
    rwa [Nat.sub_sub_self hle]
  · rintro ⟨hm, hmatch, hlast⟩
    refine ⟨starts_drop_reverse_iff.2 hmatch, fun m' hm' hstarts => ?_⟩
    obtain ⟨i, hi⟩ := starts_drop_reverse_iff.1 hstarts
    have := hlast i _ hi
    omega

end Pattern

end Thinker
