import Mathlib.Tactic
import Thinker.Lines

/-!
# Posix paths

The functions of `posixpath` on texts, and what they compute of absolute paths: a normal absolute
path (`AbsPath`) is one or two slashes and its entries, a text is walked from such a path one
component at a time, and of two normal paths one spells the other at its front if it lies beneath it
or is, or lies beneath, a neighbour whose name is longer (`prefix_text_iff`).
-/

namespace Thinker

namespace PosixPath

/-! ## The functions -/

/-- The slashes that a normal path keeps at its front. -/
def initialSlashes : Text → ℕ
  | '/' :: '/' :: '/' :: _ => 1
  | '/' :: '/' :: _ => 2
  | '/' :: _ => 1
  | _ => 0

/-- A component is added to those that are kept, or it takes the last of them away. -/
def pushComp (absolute : Bool) (comps : List Text) (c : Text) : List Text :=
  if c = [] ∨ c = ['.'] then comps
  else if c ≠ ['.', '.'] ∨ (absolute = false ∧ comps = []) ∨ comps.getLast? = some ['.', '.'] then
    comps ++ [c]
  else comps.dropLast

/-- `normpath`. -/
def normpath (path : Text) : Text :=
  let comps := (path.splitOn '/').foldl (pushComp (initialSlashes path ≠ 0)) []
  let path := List.replicate (initialSlashes path) '/' ++ ['/'].intercalate comps
  if path = [] then ['.'] else path

/-- `join`. -/
def join (a b : Text) : Text :=
  if b.head? = some '/' then b
  else if a = [] ∨ a.getLast? = some '/' then a ++ b
  else a ++ '/' :: b

/-- `abspath` in a working directory. -/
def abspath (cwd path : Text) : Text :=
  normpath (if path.head? = some '/' then path else join cwd path)

/-- The common front of two lists. -/
def commonPrefix : List Text → List Text → List Text
  | a :: as, b :: bs => if a = b then a :: commonPrefix as bs else []
  | _, _ => []

/-- `relpath` from `start` to a path that is not empty. -/
def relpath (cwd path start : Text) : Text :=
  let startList := ((abspath cwd start).splitOn '/').filter (· ≠ [])
  let pathList := ((abspath cwd path).splitOn '/').filter (· ≠ [])
  let i := (commonPrefix startList pathList).length
  match List.replicate (startList.length - i) ['.', '.'] ++ pathList.drop i with
  | [] => ['.']
  | c :: comps => comps.foldl join c

/-- `basename`. -/
def basename (p : Text) : Text :=
  (p.reverse.takeWhile (· ≠ '/')).reverse

/-- `splitext`: the last dot of the last component splits it, unless only dots are before it. -/
def splitext (p : Text) : Text × Text :=
  let dir := (p.reverse.dropWhile (· ≠ '/')).reverse
  let name := (basename p).reverse
  match name.dropWhile (· ≠ '.') with
  | [] => (p, [])
  | _ :: stem =>
    if stem.any (· ≠ '.') then
      (dir ++ stem.reverse, '.' :: (name.takeWhile (· ≠ '.')).reverse)
    else (p, [])

/-! ## Normal absolute paths -/

/-- A component that names an entry of a directory. -/
def IsEntry (c : Text) : Prop :=
  c ≠ [] ∧ '/' ∉ c ∧ c ≠ ['.'] ∧ c ≠ ['.', '.']

/-- The second list leaves the first at its last entry for one that begins with it and is longer. -/
def Longer (cs ds : List Text) : Prop :=
  ∃ dir name more rest, more ≠ [] ∧ cs = dir ++ [name] ∧ ds = dir ++ (name ++ more) :: rest

end PosixPath

open PosixPath in
/-- An absolute path in normal form. -/
structure AbsPath where
  /-- It begins with two slashes. -/
  double : Bool
  /-- The names that are walked. -/
  comps : List Text
  entries : ∀ c ∈ comps, IsEntry c

namespace AbsPath

open PosixPath

/-- The path as it is written. -/
def text (p : AbsPath) : Text :=
  List.replicate (if p.double then 2 else 1) '/' ++ ['/'].intercalate p.comps

theorem ext' {p q : AbsPath} (hdouble : p.double = q.double) (hcomps : p.comps = q.comps) :
    p = q := by
  cases p
  cases q
  cases hdouble
  cases hcomps
  rfl

/-- `p` is `r` or lies beneath it. -/
def Beneath (r p : AbsPath) : Prop :=
  p.double = r.double ∧ r.comps <+: p.comps

/-- `p` is a neighbour of `r` whose name begins with the name of `r` and is longer, or it lies
beneath such a neighbour. -/
def NextTo (r p : AbsPath) : Prop :=
  p.double = r.double ∧ Longer r.comps p.comps

end AbsPath

namespace PosixPath

variable {p r : AbsPath} {c t : Text}

theorem slash_not_mem_of_mem_splitOn (hc : c ∈ t.splitOn '/') : '/' ∉ c := by
  induction t generalizing c with
  | nil => simp_all
  | cons x t ih =>
    rw [List.splitOn_cons_eq_if_modifyHead] at hc
    obtain ⟨d, ds, hsplit⟩ := List.exists_cons_of_ne_nil (List.splitOn_ne_nil '/' t)
    rw [hsplit] at hc ih
    split_ifs at hc with hx
    · rcases List.mem_cons.1 hc with rfl | hc
      · exact List.not_mem_nil
      · exact ih hc
    · rw [List.modifyHead_cons] at hc
      rcases List.mem_cons.1 hc with rfl | hc
      · rw [List.mem_cons, not_or]
        exact ⟨fun h => hx (by rw [h, beq_self_eq_true]), ih List.mem_cons_self⟩
      · exact ih (List.mem_cons_of_mem _ hc)

/-- A component of a text is dropped, climbs, or names an entry. -/
theorem entry_of_mem_splitOn (hc : c ∈ t.splitOn '/') :
    (c = [] ∨ c = ['.']) ∨ c = ['.', '.'] ∨ IsEntry c := by
  by_cases h : c = [] ∨ c = ['.']
  · exact .inl h
  by_cases hup : c = ['.', '.']
  · exact .inr (.inl hup)
  · rw [not_or] at h
    exact .inr (.inr ⟨h.1, slash_not_mem_of_mem_splitOn hc, h.2, hup⟩)

theorem pushComp_entry {absolute : Bool} {comps : List Text} (hc : IsEntry c) :
    pushComp absolute comps c = comps ++ [c] := by
  rw [pushComp, if_neg (not_or.2 ⟨hc.1, hc.2.2.1⟩), if_pos (.inl hc.2.2.2)]

theorem pushComp_up {comps : List Text} (hcomps : ∀ d ∈ comps, IsEntry d) :
    pushComp true comps ['.', '.'] = comps.dropLast := by
  have hlast : comps.getLast? ≠ some ['.', '.'] := fun h =>
    (hcomps _ (List.mem_of_getLast? h)).2.2.2 rfl
  rw [pushComp, if_neg (by simp), if_neg (by simp [hlast])]

theorem pushComp_drop {absolute : Bool} {comps : List Text} (hc : c = [] ∨ c = ['.']) :
    pushComp absolute comps c = comps := by
  rw [pushComp, if_pos hc]

/-- Entries are only added. -/
theorem foldl_entries {absolute : Bool} {comps cs : List Text} (hcs : ∀ c ∈ cs, IsEntry c) :
    cs.foldl (pushComp absolute) comps = comps ++ cs := by
  induction cs generalizing comps with
  | nil => rw [List.foldl_nil, List.append_nil]
  | cons c cs ih =>
    rw [List.foldl_cons, pushComp_entry (hcs c List.mem_cons_self),
      ih fun d hd => hcs d (List.mem_cons_of_mem _ hd), List.append_assoc, List.singleton_append]

/-- Walking a text from entries leads to entries. -/
theorem entries_foldl {comps cs : List Text} (hcomps : ∀ d ∈ comps, IsEntry d)
    (hcs : ∀ c ∈ cs, (c = [] ∨ c = ['.']) ∨ c = ['.', '.'] ∨ IsEntry c) :
    ∀ d ∈ cs.foldl (pushComp true) comps, IsEntry d := by
  induction cs generalizing comps with
  | nil => exact hcomps
  | cons c cs ih =>
    rw [List.foldl_cons]
    refine ih ?_ fun d hd => hcs d (List.mem_cons_of_mem _ hd)
    rcases hcs c List.mem_cons_self with hc | rfl | hc
    · rwa [pushComp_drop hc]
    · rw [pushComp_up hcomps]
      exact fun d hd => hcomps d (List.mem_of_mem_dropLast hd)
    · rw [pushComp_entry hc]
      exact List.forall_mem_append.2 ⟨hcomps, by simpa using hc⟩

end PosixPath

namespace AbsPath

open PosixPath

variable {p q r : AbsPath} {c t u : Text}

/-- The path that is reached from `p` by walking the components of a text. -/
def walk (p : AbsPath) (t : Text) : AbsPath where
  double := p.double
  comps := (t.splitOn '/').foldl (pushComp true) p.comps
  entries := entries_foldl p.entries fun _ => entry_of_mem_splitOn

/-- The path that an absolute text names. -/
def ofText (t : Text) : AbsPath where
  double := initialSlashes t = 2
  comps := (t.splitOn '/').foldl (pushComp true) []
  entries := entries_foldl (fun _ h => nomatch h) fun _ => entry_of_mem_splitOn

/-! ## Their texts -/

/-- The number of slashes at the front of a normal path. -/
def slashes (p : AbsPath) : ℕ :=
  if p.double then 2 else 1

theorem text_eq (p : AbsPath) :
    p.text = List.replicate p.slashes '/' ++ ['/'].intercalate p.comps := rfl

/-- Joined entries neither begin nor end with a slash. -/
theorem ends_intercalate {cs : List Text} (hcs : ∀ c ∈ cs, IsEntry c) :
    (['/'].intercalate cs).head? ≠ some '/' ∧ (['/'].intercalate cs).getLast? ≠ some '/' ∧
      (cs ≠ [] → ['/'].intercalate cs ≠ []) := by
  induction cs with
  | nil => simp
  | cons c cs ih =>
    obtain ⟨hne, hmem, -, -⟩ := hcs c List.mem_cons_self
    obtain ⟨-, hlast, hne'⟩ := ih fun d hd => hcs d (List.mem_cons_of_mem _ hd)
    cases cs with
    | nil =>
      rw [List.intercalate_singleton]
      exact ⟨fun h => hmem (List.mem_of_mem_head? h), fun h => hmem (List.mem_of_mem_getLast? h),
        fun _ => hne⟩
    | cons d cs =>
      rw [List.intercalate_cons_cons]
      refine ⟨?_, ?_, fun _ => by simp [hne]⟩
      · rw [List.append_assoc, List.head?_append_of_ne_nil _ hne]
        exact fun h => hmem (List.mem_of_mem_head? h)
      · rwa [List.getLast?_append_of_ne_nil _ (hne' (List.cons_ne_nil _ _))]

theorem initialSlashes_replicate (p : AbsPath) {t : Text} (ht : t.head? ≠ some '/') :
    initialSlashes (List.replicate p.slashes '/' ++ t) = p.slashes := by
  unfold slashes
  cases p.double <;> cases t with
  | nil => rfl
  | cons c t =>
    have hc : c ≠ '/' := fun h => ht (by rw [h]; rfl)
    simp [List.replicate, initialSlashes, hc]

theorem splitOn_replicate (n : ℕ) (t : Text) :
    (List.replicate n '/' ++ t).splitOn '/' = List.replicate n [] ++ t.splitOn '/' := by
  induction n with
  | zero => rfl
  | succ n ih =>
    rw [List.replicate_succ, List.replicate_succ, List.cons_append, List.cons_append, ← ih]
    exact List.splitOn_append_cons_self_of_not_mem List.not_mem_nil _

theorem foldl_replicate (n : ℕ) (comps : List Text) :
    (List.replicate n ([] : Text)).foldl (pushComp true) comps = comps := by
  induction n with
  | zero => rfl
  | succ n ih => rw [List.replicate_succ, List.foldl_cons, pushComp_drop (.inl rfl), ih]

/-- Walking joined entries adds them. -/
theorem foldl_intercalate {cs comps : List Text} (hcs : ∀ c ∈ cs, IsEntry c) :
    ((['/'].intercalate cs).splitOn '/').foldl (pushComp true) comps = comps ++ cs := by
  by_cases hnil : cs = []
  · subst hnil
    simpa using pushComp_drop (.inl rfl)
  · rw [List.splitOn_intercalate '/' (fun c hc => (hcs c hc).2.1) hnil, foldl_entries hcs]

theorem walk_comps (p : AbsPath) (t : Text) :
    (p.walk t).comps = (t.splitOn '/').foldl (pushComp true) p.comps := rfl

theorem ofText_comps (t : Text) :
    (ofText t).comps = (t.splitOn '/').foldl (pushComp true) [] := rfl

/-- A text behind a normal path is walked from it. -/
theorem ofText_append (hp : p.comps ≠ []) (t : Text) : ofText (p.text ++ '/' :: t) = p.walk t := by
  obtain ⟨hhead, -, hne⟩ := ends_intercalate p.entries
  refine ext' ?_ ?_
  · have hslashes : initialSlashes (p.text ++ '/' :: t) = p.slashes := by
      rw [text_eq, List.append_assoc]
      refine p.initialSlashes_replicate ?_
      rwa [List.head?_append_of_ne_nil _ (hne hp)]
    show decide (initialSlashes (p.text ++ '/' :: t) = 2) = p.double
    rw [hslashes]
    cases hdouble : p.double <;> simp [slashes, hdouble]
  · rw [ofText_comps, walk_comps, List.splitOn_append_cons_self, List.foldl_append, text_eq,
      splitOn_replicate, List.foldl_append, foldl_replicate, foldl_intercalate p.entries,
      List.nil_append]

/-- A normal path is the path that its text names. -/
theorem ofText_text (p : AbsPath) : ofText p.text = p := by
  obtain ⟨hhead, -, -⟩ := ends_intercalate p.entries
  refine ext' ?_ ?_
  · show decide (initialSlashes p.text = 2) = p.double
    rw [text_eq, p.initialSlashes_replicate hhead]
    cases hdouble : p.double <;> simp [slashes, hdouble]
  · rw [ofText_comps, text_eq, splitOn_replicate, List.foldl_append, foldl_replicate,
      foldl_intercalate p.entries, List.nil_append]

theorem head?_text (p : AbsPath) : p.text.head? = some '/' := by
  rw [text_eq, slashes]
  cases p.double <;> rfl

/-- `normpath` of an absolute text is the path that it names. -/
theorem normpath_eq (ht : t.head? = some '/') : normpath t = (ofText t).text := by
  have hslashes : initialSlashes t = (ofText t).slashes := by
    show _ = if (decide (initialSlashes t = 2)) = true then 2 else 1
    obtain ⟨t, rfl⟩ : ∃ u, t = '/' :: u := by
      cases t with
      | nil => cases ht
      | cons c u => exact ⟨u, by rw [Option.some.inj ht]⟩
    unfold initialSlashes
    split <;> simp_all
  have hpos : initialSlashes t ≠ 0 := by
    rw [hslashes, slashes]
    split <;> simp
  have hne : (ofText t).text ≠ [] := fun h => by
    have := head?_text (ofText t)
    rw [h] at this
    cases this
  unfold normpath
  rw [show decide (initialSlashes t ≠ 0) = true from decide_eq_true hpos, hslashes]
  exact if_neg hne

theorem abspath_eq {cwd : Text} (ht : t.head? = some '/') : abspath cwd t = (ofText t).text := by
  rw [abspath, if_pos ht, normpath_eq ht]

theorem join_eq (hp : p.comps ≠ []) (ht : t.head? ≠ some '/') : join p.text t = p.text ++ '/' :: t := by
  obtain ⟨-, hlast, hne⟩ := ends_intercalate p.entries
  have hlast' : p.text.getLast? ≠ some '/' := by
    rwa [text_eq, List.getLast?_append_of_ne_nil _ (hne hp)]
  have hnil : p.text ≠ [] := by
    rw [text_eq]
    simp [hne hp]
  rw [join, if_neg ht, if_neg (by simp [hnil, hlast'])]

/-! ## Prefixes -/

theorem append_slash_prefix_iff {c d x y : Text} (hc : '/' ∉ c) (hd : '/' ∉ d) :
    c ++ '/' :: x <+: d ++ '/' :: y ↔ c = d ∧ x <+: y := by
  induction c generalizing d with
  | nil =>
    cases d with
    | nil => simp
    | cons b d => simpa [List.cons_prefix_cons] using fun h => absurd h.symm (by simp_all)
  | cons a c ih =>
    rw [List.mem_cons, not_or] at hc
    cases d with
    | nil => simpa [List.cons_prefix_cons] using fun h => absurd h.symm hc.1
    | cons b d =>
      rw [List.mem_cons, not_or] at hd
      simp [List.cons_prefix_cons, ih hc.2 hd.2, and_assoc]

theorem prefix_append_slash_iff {c d : Text} (hc : '/' ∉ c) (y : Text) :
    c <+: d ++ '/' :: y ↔ c <+: d := by
  induction c generalizing d with
  | nil => simp
  | cons a c ih =>
    rw [List.mem_cons, not_or] at hc
    cases d with
    | nil => simpa [List.cons_prefix_cons] using fun h => absurd h.symm hc.1
    | cons b d => simp [List.cons_prefix_cons, ih hc.2]

theorem longer_singleton_iff {c d : Text} {ds : List Text} :
    Longer [c] (d :: ds) ↔ ∃ more, more ≠ [] ∧ d = c ++ more := by
  constructor
  · rintro ⟨dir, name, more, rest, hmore, hcs, hds⟩
    obtain ⟨rfl, rfl⟩ : dir = [] ∧ c = name := by
      cases dir <;> simp_all
    exact ⟨more, hmore, (List.cons.inj hds).1⟩
  · rintro ⟨more, hmore, rfl⟩
    exact ⟨[], c, more, ds, hmore, rfl, rfl⟩

theorem longer_cons_iff {c d : Text} {cs ds : List Text} (hne : cs ≠ []) :
    Longer (c :: cs) (d :: ds) ↔ c = d ∧ Longer cs ds := by
  constructor
  · rintro ⟨dir, name, more, rest, hmore, hcs, hds⟩
    cases dir with
    | nil => simp_all
    | cons e dir =>
      obtain ⟨hc, htail⟩ := List.cons.inj hcs
      obtain ⟨hd, htail'⟩ := List.cons.inj hds
      exact ⟨hc.trans hd.symm, dir, name, more, rest, hmore, htail, htail'⟩
  · rintro ⟨rfl, dir, name, more, rest, hmore, rfl, rfl⟩
    exact ⟨c :: dir, name, more, rest, hmore, rfl, rfl⟩

/-- Joined entries are spelled at the front of others that extend them, or that leave them at the
last one for a longer one. -/
theorem prefix_intercalate_iff {cs ds : List Text} (hcs : ∀ c ∈ cs, IsEntry c)
    (hds : ∀ d ∈ ds, IsEntry d) (hne : cs ≠ []) :
    ['/'].intercalate cs <+: ['/'].intercalate ds ↔ cs <+: ds ∨ Longer cs ds := by
  induction cs generalizing ds with
  | nil => exact absurd rfl hne
  | cons c cs ih =>
    have hc := hcs c List.mem_cons_self
    have hcs' : ∀ c ∈ cs, IsEntry c := fun e he => hcs e (List.mem_cons_of_mem _ he)
    cases ds with
    | nil =>
      have hnil : ['/'].intercalate (c :: cs) ≠ [] := (ends_intercalate hcs).2.2 hne
      refine iff_of_false (fun h => hnil (List.prefix_nil.1 h)) ?_
      rintro (h | ⟨dir, name, more, rest, -, -, h⟩)
      · exact List.cons_ne_nil _ _ (List.prefix_nil.1 h)
      · simp at h
    | cons d ds =>
    have hd := hds d List.mem_cons_self
    have hds' : ∀ d ∈ ds, IsEntry d := fun e he => hds e (List.mem_cons_of_mem _ he)
    cases cs with
    | nil =>
      have hfront : ['/'].intercalate [c] <+: ['/'].intercalate (d :: ds) ↔ c <+: d := by
        cases ds with
        | nil => simp
        | cons e ds =>
          rw [List.intercalate_singleton, List.intercalate_cons_cons, List.append_assoc]
          exact prefix_append_slash_iff hc.2.1 _
      rw [hfront, longer_singleton_iff, List.cons_prefix_cons]
      constructor
      · rintro ⟨more, rfl⟩
        by_cases hmore : more = []
        · exact .inl ⟨by rw [hmore, List.append_nil], List.nil_prefix⟩
        · exact .inr ⟨more, hmore, rfl⟩
      · rintro (⟨rfl, -⟩ | ⟨more, -, rfl⟩)
        · exact List.prefix_refl _
        · exact List.prefix_append _ _
    | cons c' cs =>
    cases ds with
    | nil =>
      have hmem : '/' ∈ ['/'].intercalate (c :: c' :: cs) := by
        rw [List.intercalate_cons_cons]
        simp
      refine iff_of_false (fun h => hd.2.1 ?_) ?_
      · rw [List.intercalate_singleton] at h
        exact h.subset hmem
      · rintro (h | h)
        · simpa using h.length_le
        · obtain ⟨-, dir, name, more, rest, -, -, h⟩ := (longer_cons_iff (List.cons_ne_nil _ _)).1 h
          simp at h
    | cons d' ds =>
      rw [longer_cons_iff (List.cons_ne_nil _ _), List.cons_prefix_cons, ← and_or_left,
        ← ih hcs' hds' (List.cons_ne_nil _ _), List.intercalate_cons_cons,
        List.intercalate_cons_cons, List.append_assoc, List.append_assoc]
      exact append_slash_prefix_iff hc.2.1 hd.2.1

theorem slashes_eq_iff : p.slashes = r.slashes ↔ p.double = r.double := by
  unfold slashes
  cases p.double <;> cases r.double <;> simp

/-- A normal path is spelled at the front of another if that lies beneath it or next to it. -/
theorem prefix_text_iff (hr : r.comps ≠ []) :
    r.text <+: p.text ↔ r.Beneath p ∨ r.NextTo p := by
  obtain ⟨hhead, -, hne⟩ := ends_intercalate r.entries
  obtain ⟨hhead', -, -⟩ := ends_intercalate p.entries
  have hfront : r.text <+: p.text ↔
      p.slashes = r.slashes ∧ ['/'].intercalate r.comps <+: ['/'].intercalate p.comps := by
    constructor
    · intro h
      have hslashes : p.slashes = r.slashes := by
        rw [text_eq, text_eq] at h
        unfold slashes at h ⊢
        cases hp : p.double <;> cases hq : r.double <;> rw [hp, hq] at h
        · obtain ⟨u, hu⟩ := (List.cons_prefix_cons.1 h).2
          refine absurd ?_ hhead'
          rw [show ['/'].intercalate p.comps = _ from hu.symm]
          rfl
        · obtain ⟨u, hu⟩ := (List.cons_prefix_cons.1 h).2
          refine absurd ?_ hhead
          rw [← List.head?_append_of_ne_nil _ (hne hr)]
          exact congrArg List.head? hu
      refine ⟨hslashes, ?_⟩
      rw [text_eq, text_eq, hslashes] at h
      exact (List.prefix_append_right_inj _).1 h
    · rintro ⟨hslashes, h⟩
      rw [text_eq, text_eq, hslashes]
      exact (List.prefix_append_right_inj _).2 h
  rw [hfront, slashes_eq_iff, prefix_intercalate_iff r.entries p.entries hr, and_or_left]
  rfl

/-! ## Relative paths -/

theorem filter_splitOn_text (p : AbsPath) : (p.text.splitOn '/').filter (· ≠ []) = p.comps := by
  rw [text_eq, splitOn_replicate, List.filter_append]
  have hslashes : (List.replicate p.slashes ([] : Text)).filter (· ≠ []) = [] := by
    simp
  rw [hslashes, List.nil_append]
  by_cases hnil : p.comps = []
  · simp [hnil]
  · rw [List.splitOn_intercalate '/' (fun c hc => (p.entries c hc).2.1) hnil]
    exact List.filter_eq_self.2 fun c hc => decide_eq_true (p.entries c hc).1

theorem commonPrefix_of_prefix {as bs : List Text} (h : as <+: bs) : commonPrefix as bs = as := by
  induction as generalizing bs with
  | nil => rfl
  | cons a as ih =>
    cases bs with
    | nil => exact absurd (List.prefix_nil.1 h) (List.cons_ne_nil _ _)
    | cons b bs =>
      obtain ⟨rfl, htail⟩ := List.cons_prefix_cons.1 h
      rw [commonPrefix, if_pos rfl, ih htail]

/-- Components are joined by slashes. -/
theorem foldl_join {cs : List Text} (hcs : ∀ c ∈ cs, c ≠ [] ∧ '/' ∉ c) (hc : c ≠ [] ∧ '/' ∉ c) :
    cs.foldl join c = ['/'].intercalate (c :: cs) := by
  have hacc (a : Text) (ha : a ≠ []) (hlast : a.getLast? ≠ some '/') :
      cs.foldl join a = a ++ cs.flatMap ('/' :: ·) := by
    induction cs generalizing a with
    | nil => rw [List.foldl_nil, List.flatMap_nil, List.append_nil]
    | cons d cs ih =>
      obtain ⟨hd, hmem⟩ := hcs d List.mem_cons_self
      have hjoin : join a d = a ++ '/' :: d := by
        have hhead : d.head? ≠ some '/' := fun h => hmem (List.mem_of_mem_head? h)
        rw [join, if_neg hhead, if_neg (by simp [ha, hlast])]
      have hlast' : (a ++ '/' :: d).getLast? ≠ some '/' := by
        rw [List.getLast?_append_of_ne_nil _ (List.cons_ne_nil _ _), List.getLast?_cons_of_ne_nil hd]
        exact fun h => hmem (List.mem_of_mem_getLast? h)
      rw [List.foldl_cons, hjoin, ih (fun e he => hcs e (List.mem_cons_of_mem _ he)) _ (by simp)
        hlast', List.flatMap_cons, List.append_assoc]
  have hintercalate (c : Text) : ['/'].intercalate (c :: cs) = c ++ cs.flatMap ('/' :: ·) := by
    clear hcs hacc
    induction cs generalizing c with
    | nil => simp
    | cons d cs ih =>
      rw [List.intercalate_cons_cons, ih, List.flatMap_cons, List.append_assoc]
      rfl
  rw [hacc c hc.1 fun h => hc.2 (List.mem_of_mem_getLast? h), hintercalate]

/-- The components of the relative path from `r` to `p`. -/
def relComps (r p : AbsPath) : List Text :=
  List.replicate (r.comps.length - (commonPrefix r.comps p.comps).length) ['.', '.'] ++
    p.comps.drop (commonPrefix r.comps p.comps).length

theorem relComps_plain (r p : AbsPath) : ∀ c ∈ relComps r p, c ≠ [] ∧ '/' ∉ c := by
  rw [relComps, List.forall_mem_append]
  refine ⟨fun c hc => ?_, fun c hc => ?_⟩
  · rw [List.eq_of_mem_replicate hc]
    decide
  · obtain ⟨hne, hmem, -⟩ := p.entries c (List.mem_of_mem_drop hc)
    exact ⟨hne, hmem⟩

theorem relpath_text (cwd : Text) (p r : AbsPath) : relpath cwd p.text r.text =
    if relComps r p = [] then ['.'] else ['/'].intercalate (relComps r p) := by
  have hplain := relComps_plain r p
  unfold relpath
  rw [abspath_eq (head?_text p), abspath_eq (head?_text r), ofText_text, ofText_text,
    filter_splitOn_text, filter_splitOn_text]
  dsimp only
  rw [← relComps]
  cases hl : relComps r p with
  | nil => rfl
  | cons c cs =>
    rw [hl] at hplain
    rw [if_neg (List.cons_ne_nil _ _)]
    exact foldl_join (fun d hd => hplain d (List.mem_cons_of_mem _ hd))
      (hplain c List.mem_cons_self)

theorem relpath_ne_nil (cwd : Text) (p r : AbsPath) : relpath cwd p.text r.text ≠ [] := by
  have hplain := relComps_plain r p
  rw [relpath_text]
  cases hl : relComps r p with
  | nil => exact List.cons_ne_nil _ _
  | cons c cs =>
    rw [hl] at hplain
    obtain ⟨hne, -⟩ := hplain c List.mem_cons_self
    rw [if_neg (List.cons_ne_nil _ _)]
    cases cs <;> simp [hne]

/-- The relative path of what lies beneath a directory leads there. -/
theorem ofText_join_relpath (hr : r.comps ≠ []) (cwd : Text) (h : r.Beneath p) :
    ofText (join r.text (relpath cwd p.text r.text)) = p := by
  obtain ⟨hdouble, rest, hrest⟩ := h
  have hentries : ∀ c ∈ rest, IsEntry c := fun c hc =>
    p.entries c (hrest ▸ List.mem_append_right _ hc)
  have hcomps : relComps r p = rest := by
    rw [relComps, commonPrefix_of_prefix ⟨rest, hrest⟩, Nat.sub_self, ← hrest, List.drop_left]
    rfl
  rw [relpath_text, hcomps]
  split_ifs with hnil
  · subst hnil
    rw [join_eq hr (by decide), ofText_append hr]
    refine ext' hdouble.symm ?_
    rw [walk_comps, ← hrest, List.append_nil]
    show pushComp true r.comps ['.'] = r.comps
    exact pushComp_drop (.inr rfl)
  · rw [join_eq hr (ends_intercalate hentries).1, ofText_append hr]
    refine ext' hdouble.symm ?_
    rw [walk_comps, foldl_intercalate hentries, hrest]

/-! ## Extensions -/

/-- What is before the last component of a normal path. -/
theorem exists_front (dir : List Text) {n : ℕ} (hn : n ≠ 0) : ∃ front : Text,
    front.getLast? = some '/' ∧ ∀ c, List.replicate n '/' ++ ['/'].intercalate (dir ++ [c]) =
      front ++ c := by
  obtain ⟨k, rfl⟩ := Nat.exists_eq_succ_of_ne_zero hn
  by_cases hdir : dir = []
  · subst hdir
    refine ⟨List.replicate (k + 1) '/', ?_, fun c => by simp⟩
    rw [List.replicate_succ', List.getLast?_concat]
  · have hconcat (c : Text) : ['/'].intercalate (dir ++ [c]) =
        ['/'].intercalate dir ++ ['/'] ++ c := by
      clear hn
      induction dir with
      | nil => exact absurd rfl hdir
      | cons d dir ih =>
        cases dir with
        | nil => simp
        | cons e dir =>
          rw [List.cons_append, List.cons_append, List.intercalate_cons_cons,
            List.intercalate_cons_cons, ← List.cons_append, ih (List.cons_ne_nil _ _)]
          simp
    refine ⟨List.replicate (k + 1) '/' ++ (['/'].intercalate dir ++ ['/']), ?_, fun c => ?_⟩
    · rw [← List.append_assoc, List.getLast?_concat]
    · simp only [hconcat, List.append_assoc]

/-- A text is split at the last dot of its last component. -/
theorem splitext_of_ne_nil {front c : Text} (hfront : front.getLast? = some '/') (hc : '/' ∉ c)
    (hext : (splitext (front ++ c)).2 ≠ []) : ∃ stem ext, stem ≠ [] ∧ c = stem ++ '.' :: ext ∧
      splitext (front ++ c) = (front ++ stem, '.' :: ext) := by
  obtain ⟨front, rfl⟩ : ∃ f, front = f ++ ['/'] := by
    obtain ⟨f, hf⟩ := List.getLast?_eq_some_iff.1 hfront
    exact ⟨f, hf⟩
  have hreverse : (front ++ ['/'] ++ c).reverse = c.reverse ++ '/' :: front.reverse := by simp
  have hc' : ∀ x ∈ c.reverse, (decide (x ≠ '/')) = true := fun x hx =>
    decide_eq_true fun h => hc (List.mem_reverse.1 (h ▸ hx))
  have hdrop : (front ++ ['/'] ++ c).reverse.dropWhile (· ≠ '/') = '/' :: front.reverse := by
    rw [hreverse, List.dropWhile_append_of_pos hc']
    simp
  have htake : (front ++ ['/'] ++ c).reverse.takeWhile (· ≠ '/') = c.reverse := by
    rw [hreverse, List.takeWhile_append_of_pos hc']
    simp
  unfold splitext basename at hext ⊢
  rw [hdrop, htake, List.reverse_reverse] at hext ⊢
  dsimp only at hext ⊢
  cases hstem : c.reverse.dropWhile (· ≠ '.') with
  | nil =>
    rw [hstem] at hext
    exact absurd rfl hext
  | cons x stem =>
    rw [hstem] at hext
    dsimp only at hext
    split_ifs at hext with hany
    · have hx : x = '.' := by
        have := List.head?_dropWhile_not (· ≠ '.') c.reverse
        rw [hstem] at this
        simpa using this
      have hsplit : c.reverse = c.reverse.takeWhile (· ≠ '.') ++ '.' :: stem := by
        have := (List.takeWhile_append_dropWhile (p := (· ≠ '.')) (l := c.reverse)).symm
        rwa [hstem, hx] at this
      refine ⟨stem.reverse, (c.reverse.takeWhile (· ≠ '.')).reverse, ?_, ?_, ?_⟩
      · rw [Ne, List.reverse_eq_nil_iff]
        rintro rfl
        simp at hany
      · have := congrArg List.reverse hsplit
        rw [List.reverse_reverse] at this
        exact this.trans (by simp)
      · dsimp only
        rw [if_pos hany]
        simp
    · exact absurd rfl hext

end AbsPath

end Thinker
