import Mathlib.Data.List.Lex
import Mathlib.Data.Prod.Lex
import Mathlib.Order.Hom.Basic
import Thinker.Lines

/-!
# Versions

`PyVersion` and `GitVersion` of `versions.py` take a version apart by a regular expression, whose
groups are given here, and compare the parts with six operators that are written out.

`<`, `==` and `>` compare a `key`, so they are those of a linear order. `<=` and `>=` go on to the
next part where the first ones differ the right way. They agree with `<` just where no later part
is ordered the other way, which is `Aligned` (`consistent_iff`).
-/

namespace Thinker

/-! ## Taking a version apart -/

/-- `groupdict` of a match. -/
structure VersionInfo where
  release : Option Text
  pre : Option Text
  preL : Option Text
  preN : Option Text
  post : Option Text
  postN1 : Option Text
  postN2 : Option Text
  dev : Option Text
  devN : Option Text

/-- The classes of versions. -/
inductive VersionClass where
  | pyVersion
  | gitVersion
  deriving DecidableEq

/-- `type(self).__name__`. -/
def VersionClass.name : VersionClass → Text
  | pyVersion => "PyVersion".toList
  | gitVersion => "GitVersion".toList

/-- The attributes of `BaseVersion` that are compared. -/
structure BaseVersion where
  cls : VersionClass
  orig : Text
  releaseTup : List ℕ
  extraTup : List ℕ
  hasDevPart : Bool
  devCount : ℕ
  validVersion : Bool
  deriving DecidableEq

/-- `int(text)` of digits. -/
def intOfDigits (t : Text) : ℕ :=
  t.foldl (fun n c => 10 * n + (c.toNat - '0'.toNat)) 0

/-- `int(text or 0)`. -/
def intOrZero (t : Option Text) : ℕ :=
  (t.map intOfDigits).getD 0

/-- `tuple(int(part) for part in release.split("."))`. -/
def releaseParts (release : Text) : List ℕ :=
  (release.splitOn '.').map intOfDigits

/-- `pre_conv.get(lbl, 0)`. -/
def preConv : Char → ℕ
  | 'a' => 1
  | 'b' => 2
  | 'c' => 3
  | 'r' => 3
  | 'p' => 3
  | _ => 0

/-- The first of a pre-release tuple, the number of its label, and its own number. -/
def preTup (info : VersionInfo) : List ℕ :=
  [0, ((info.preL.bind List.head?).map fun c => preConv c.toLower).getD 0, intOrZero info.preN]

/-- `BaseVersion.__init__`. -/
def BaseVersion.init (cls : VersionClass) (version : Text) : BaseVersion :=
  ⟨cls, version.strip, [], [], false, 0, false⟩

/-- `PyVersion.__init__`, with what the regular expression finds. -/
def PyVersion.init (version : Text) (info : Option VersionInfo) : BaseVersion :=
  let v := BaseVersion.init .pyVersion version
  match info with
  | none => v
  | some info =>
    match info.release with
    | none => v
    | some release =>
      let num := intOrZero (info.postN1.or info.postN2)
      { v with
        validVersion := true
        releaseTup := releaseParts release
        extraTup :=
          if info.pre.isSome then
            -- strange combination of a "post" pre-release
            if info.post.isSome then preTup info ++ [num] else preTup info
          else if info.post.isSome then [2, num, 0]
          else [1, 0, 0]
        hasDevPart := info.dev.isSome
        devCount := intOrZero info.devN }

/-- `GitVersion.__init__`, with what the regular expression finds. -/
def GitVersion.init (version : Text) (info : Option VersionInfo) : BaseVersion :=
  let v := BaseVersion.init .gitVersion version
  match info with
  | none => v
  | some info =>
    match info.release with
    | none => v
    | some release =>
      { v with
        validVersion := true
        releaseTup := releaseParts release
        extraTup := if info.pre.isSome then preTup info else [1, 0, 0]
        -- All git versions are considered to have a dev part
        hasDevPart := true
        devCount := intOrZero info.devN }

/-! ## The operators -/

namespace BaseVersion

/-- The first error of `_validate`, or of the check of the types before it. -/
def validate (a b : BaseVersion) : Except Text Unit :=
  let invalid (v : BaseVersion) : Text :=
    "Version ".toList ++ v.orig ++ " is not a valid version string for type ".toList ++ a.cls.name
  if a.cls ≠ b.cls then .error "Invalid type for comparison".toList
  else if !a.validVersion then .error (invalid a)
  else if !b.validVersion then .error (invalid b)
  else .ok ()

/-- `__eq__`. -/
def eq (a b : BaseVersion) : Except Text Bool :=
  (a.validate b).map fun _ =>
    if a.releaseTup ≠ b.releaseTup then false
    else if a.extraTup ≠ b.extraTup then false
    else if a.hasDevPart ≠ b.hasDevPart then false
    else if a.devCount ≠ b.devCount then false
    else true

/-- `__lt__`. -/
def lt (a b : BaseVersion) : Except Text Bool :=
  (a.validate b).map fun _ =>
    if a.releaseTup ≠ b.releaseTup then decide (a.releaseTup < b.releaseTup)
    else if a.extraTup ≠ b.extraTup then decide (a.extraTup < b.extraTup)
    else if a.hasDevPart ≠ b.hasDevPart then a.hasDevPart
    else decide (a.devCount < b.devCount)

/-- `__le__`. -/
def le (a b : BaseVersion) : Except Text Bool :=
  (a.validate b).map fun _ =>
    if a.releaseTup > b.releaseTup then false
    else if a.extraTup > b.extraTup then false
    else if a.hasDevPart ≠ b.hasDevPart then a.hasDevPart
    else decide (a.devCount ≤ b.devCount)

/-- `__ne__`. -/
def ne (a b : BaseVersion) : Except Text Bool :=
  (a.validate b).map fun _ =>
    if a.releaseTup ≠ b.releaseTup then true
    else if a.extraTup ≠ b.extraTup then true
    else if a.hasDevPart ≠ b.hasDevPart then true
    else if a.devCount ≠ b.devCount then true
    else false

/-- `__gt__`. -/
def gt (a b : BaseVersion) : Except Text Bool :=
  (a.validate b).map fun _ =>
    if a.releaseTup ≠ b.releaseTup then decide (a.releaseTup > b.releaseTup)
    else if a.extraTup ≠ b.extraTup then decide (a.extraTup > b.extraTup)
    else if a.hasDevPart ≠ b.hasDevPart then b.hasDevPart
    else decide (a.devCount > b.devCount)

/-- `__ge__`. -/
def ge (a b : BaseVersion) : Except Text Bool :=
  (a.validate b).map fun _ =>
    if a.releaseTup < b.releaseTup then false
    else if a.extraTup < b.extraTup then false
    else if a.hasDevPart ≠ b.hasDevPart then b.hasDevPart
    else decide (a.devCount ≥ b.devCount)

/-! ## The order of the keys -/

/-- What a version is compared by. A version without a dev part is behind one with it. -/
def key (v : BaseVersion) : List ℕ ×ₗ List ℕ ×ₗ Bool ×ₗ ℕ :=
  toLex (v.releaseTup, toLex (v.extraTup, toLex (!v.hasDevPart, v.devCount)))

/-- Two valid versions of one class. -/
structure Comparable (a b : BaseVersion) : Prop where
  cls_eq : a.cls = b.cls
  left : a.validVersion = true
  right : b.validVersion = true

/-- The operators agree on two versions, and `<` is transitive from them on. -/
structure Consistent (a b : BaseVersion) : Prop where
  one : (a.lt b = .ok true ∧ a.eq b = .ok false ∧ a.gt b = .ok false) ∨
    (a.lt b = .ok false ∧ a.eq b = .ok true ∧ a.gt b = .ok false) ∨
    (a.lt b = .ok false ∧ a.eq b = .ok false ∧ a.gt b = .ok true)
  le_iff : a.le b = .ok true ↔ a.lt b = .ok true ∨ a.eq b = .ok true
  ge_iff : a.ge b = .ok true ↔ b.le a = .ok true
  ne_iff : a.ne b = .ok true ↔ ¬ a.eq b = .ok true
  trans : ∀ c, Comparable b c → a.lt b = .ok true → b.lt c = .ok true → a.lt c = .ok true

/-- The last parts are in order. -/
def DevLe (a b : BaseVersion) : Prop :=
  if a.hasDevPart ≠ b.hasDevPart then a.hasDevPart = true else a.devCount ≤ b.devCount

/-- No part behind the first one that is smaller is larger. -/
def Aligned (a b : BaseVersion) : Prop :=
  (a.releaseTup < b.releaseTup → a.extraTup ≤ b.extraTup ∧ DevLe a b) ∧
    (a.releaseTup = b.releaseTup → a.extraTup < b.extraTup → DevLe a b)

variable {a b c : BaseVersion}

theorem Comparable.symm (h : Comparable a b) : Comparable b a :=
  ⟨h.cls_eq.symm, h.right, h.left⟩

theorem Comparable.trans (h : Comparable a b) (h' : Comparable b c) : Comparable a c :=
  ⟨h.cls_eq.trans h'.cls_eq, h.left, h'.right⟩

theorem Comparable.validate (h : Comparable a b) : a.validate b = .ok () := by
  unfold BaseVersion.validate
  simp [h.cls_eq, h.left, h.right]

theorem key_inj : a.key = b.key ↔ a.releaseTup = b.releaseTup ∧ a.extraTup = b.extraTup ∧
    a.hasDevPart = b.hasDevPart ∧ a.devCount = b.devCount := by
  unfold key
  simp only [EmbeddingLike.apply_eq_iff_eq, Prod.mk.injEq, Bool.not_inj_iff]

theorem key_lt : a.key < b.key ↔ a.releaseTup < b.releaseTup ∨ a.releaseTup = b.releaseTup ∧
    (a.extraTup < b.extraTup ∨ a.extraTup = b.extraTup ∧
      ((a.hasDevPart = true ∧ b.hasDevPart = false) ∨
        a.hasDevPart = b.hasDevPart ∧ a.devCount < b.devCount)) := by
  unfold key
  simp only [Prod.Lex.toLex_lt_toLex, Bool.not_inj_iff]
  cases a.hasDevPart <;> cases b.hasDevPart <;> simp [Bool.lt_iff]

theorem eq_iff (h : Comparable a b) : a.eq b = .ok (decide (a.key = b.key)) := by
  unfold eq
  rw [h.validate]
  refine congrArg Except.ok ?_
  rw [Bool.eq_iff_iff, decide_eq_true_iff, key_inj]
  split_ifs <;> simp_all

theorem lt_iff (h : Comparable a b) : a.lt b = .ok (decide (a.key < b.key)) := by
  unfold lt
  rw [h.validate]
  refine congrArg Except.ok ?_
  rw [Bool.eq_iff_iff, decide_eq_true_iff, key_lt]
  split_ifs with hrelease hextra hdev
  · simp [hrelease]
  · simp [not_not.1 hrelease, hextra]
  · simp only [not_not.1 hrelease, not_not.1 hextra, lt_irrefl, false_or, true_and, hdev,
      false_and, or_false]
    cases ha : a.hasDevPart <;> cases hb : b.hasDevPart <;> simp_all
  · simp [not_not.1 hrelease, not_not.1 hextra, not_not.1 hdev]

/-- `>` is `<` the other way round. -/
theorem gt_eq_lt (h : Comparable a b) : a.gt b = b.lt a := by
  unfold gt lt
  rw [h.validate, h.symm.validate]
  simp only [ne_comm (a := b.releaseTup), ne_comm (a := b.extraTup), ne_comm (a := b.hasDevPart)]

/-- `>=` is `<=` the other way round. -/
theorem ge_eq_le (h : Comparable a b) : a.ge b = b.le a := by
  unfold ge le
  rw [h.validate, h.symm.validate]
  simp only [ne_comm (a := b.hasDevPart)]

/-- `!=` is the negation of `==`. -/
theorem ne_eq_not (h : Comparable a b) : a.ne b = (a.eq b).map not := by
  unfold ne eq
  rw [h.validate]
  refine congrArg Except.ok ?_
  split_ifs <;> rfl

/-- `<=` asks for every part to be in order. -/
theorem le_iff_parts (h : Comparable a b) : a.le b = .ok true ↔
    a.releaseTup ≤ b.releaseTup ∧ a.extraTup ≤ b.extraTup ∧ DevLe a b := by
  have hok : ∀ x : Bool, (Except.ok x : Except Text Bool) = .ok true ↔ x = true := fun x =>
    ⟨Except.ok.inj, congrArg Except.ok⟩
  unfold le DevLe
  rw [h.validate]
  refine (hok _).trans ?_
  by_cases hrelease : a.releaseTup > b.releaseTup
  · simp [hrelease, not_le.2 hrelease]
  by_cases hextra : a.extraTup > b.extraTup
  · simp [hextra, not_le.2 hextra]
  rw [if_neg hrelease, if_neg hextra, and_iff_right (not_lt.1 hrelease),
    and_iff_right (not_lt.1 hextra)]
  split_ifs
  · rfl
  · exact decide_eq_true_iff

theorem le_key_iff : a.key ≤ b.key ↔ a.releaseTup < b.releaseTup ∨ a.releaseTup = b.releaseTup ∧
    (a.extraTup < b.extraTup ∨ a.extraTup = b.extraTup ∧ DevLe a b) := by
  rw [le_iff_lt_or_eq, key_lt, key_inj]
  unfold DevLe
  cases a.hasDevPart <;> cases b.hasDevPart <;> simp [le_iff_lt_or_eq] <;> tauto

/-- The parts are in order where the keys are, just if the versions are aligned. -/
theorem parts_iff : (a.releaseTup ≤ b.releaseTup ∧ a.extraTup ≤ b.extraTup ∧ DevLe a b ↔
    a.key ≤ b.key) ↔ Aligned a b := by
  rw [le_key_iff]
  unfold Aligned
  rcases lt_trichotomy a.releaseTup b.releaseTup with hlt | heq | hgt
  · simp [hlt, hlt.le, hlt.ne]
  · rcases lt_trichotomy a.extraTup b.extraTup with hlt' | heq' | hgt'
    · simp [heq, hlt', hlt'.le]
    · simp [heq, heq']
    · simp [heq, hgt'.not_ge, hgt'.not_gt, hgt'.ne']
  · simp [hgt.not_ge, hgt.not_gt, hgt.ne']

/-- The operators are those of one total order just where the parts are aligned. -/
theorem consistent_iff (h : Comparable a b) : Consistent a b ↔ Aligned a b := by
  have hle : (a.le b = .ok true ↔ a.lt b = .ok true ∨ a.eq b = .ok true) ↔ Aligned a b := by
    rw [← parts_iff, le_iff_parts h, lt_iff h, eq_iff h, le_iff_lt_or_eq (a := a.key)]
    simp only [Except.ok.injEq, decide_eq_true_iff]
  refine ⟨fun hc => hle.1 hc.le_iff, fun ha => ⟨?_, hle.2 ha, ?_, ?_, ?_⟩⟩
  · rw [gt_eq_lt h, lt_iff h, eq_iff h, lt_iff h.symm]
    rcases lt_trichotomy a.key b.key with hlt | heq | hgt
    · simp [hlt, hlt.ne, hlt.not_gt]
    · simp [heq]
    · simp [hgt, hgt.ne', hgt.not_gt]
  · rw [ge_eq_le h]
  · rw [ne_eq_not h, eq_iff h]
    simp [Except.map]
  · intro c hbc hab hbc'
    rw [lt_iff h, Except.ok.injEq, decide_eq_true_iff] at hab
    rw [lt_iff hbc, Except.ok.injEq, decide_eq_true_iff] at hbc'
    rw [lt_iff (h.trans hbc), decide_eq_true (hab.trans hbc')]

/-! ## Versions that are not aligned -/

/-- The groups of a release with a pre-release or a dev count. -/
def infoOf (release : String) (pre preL preN dev devN : Option String) : VersionInfo where
  release := some release.toList
  pre := pre.map String.toList
  preL := preL.map String.toList
  preN := preN.map String.toList
  post := none
  postN1 := none
  postN2 := none
  dev := dev.map String.toList
  devN := devN.map String.toList

/-- `1.0.0`. -/
def release100 : BaseVersion :=
  PyVersion.init "1.0.0".toList (some (infoOf "1.0.0" none none none none none))

/-- `1.0.1`. -/
def release101 : BaseVersion :=
  PyVersion.init "1.0.1".toList (some (infoOf "1.0.1" none none none none none))

/-- `1.0.1rc1`. -/
def candidate101 : BaseVersion :=
  PyVersion.init "1.0.1rc1".toList
    (some (infoOf "1.0.1" (some "rc1") (some "rc") (some "1") none none))

/-- `v0.8.0-100`. -/
def git080 : BaseVersion :=
  GitVersion.init "v0.8.0-100".toList (some (infoOf "0.8.0" none none none none (some "100")))

/-- `v0.9.0-5`. -/
def git090 : BaseVersion :=
  GitVersion.init "v0.9.0-5".toList (some (infoOf "0.9.0" none none none none (some "5")))

theorem comparable_releases : Comparable release100 release101 :=
  ⟨by decide +kernel, by decide +kernel, by decide +kernel⟩

/-- Two releases are ordered. -/
theorem consistent_releases : Consistent release100 release101 := by
  refine (consistent_iff comparable_releases).2 ⟨fun _ => ⟨by decide +kernel, ?_⟩, fun _ h => ?_⟩
  · unfold DevLe
    decide +kernel
  · exact absurd h (by decide +kernel)

/-- A release is behind the candidate for the next one, and a commit behind the next tag, but
`<=` denies both. -/
theorem not_consistent_versions :
    (Comparable release100 candidate101 ∧ ¬ Consistent release100 candidate101) ∧
      Comparable git080 git090 ∧ ¬ Consistent git080 git090 := by
  refine ⟨⟨⟨by decide +kernel, by decide +kernel, by decide +kernel⟩, fun h => ?_⟩,
    ⟨by decide +kernel, by decide +kernel, by decide +kernel⟩, fun h => ?_⟩
  · exact absurd (h.le_iff.2 (.inl (by decide +kernel))) (by decide +kernel)
  · exact absurd (h.le_iff.2 (.inl (by decide +kernel))) (by decide +kernel)

end BaseVersion

end Thinker
