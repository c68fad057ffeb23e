import Thinker.PosixPath

/-!
# A file system

Paths name directories and files. A file is known by a number : it keeps what it holds when its name
is moved or removed, and a descriptor goes on writing to it.
-/

namespace Thinker

namespace AbsPath

instance : DecidableEq AbsPath := fun p q =>
  decidable_of_iff (p.double = q.double ∧ p.comps = q.comps)
    ⟨fun h => ext' h.1 h.2, fun h => h ▸ ⟨rfl, rfl⟩⟩

/-- `dirname`. -/
def parent (p : AbsPath) : AbsPath :=
  ⟨p.double, p.comps.dropLast, fun c hc => p.entries c (List.mem_of_mem_dropLast hc)⟩

end AbsPath

/-- The names of a file system, and what its files hold. -/
structure FileSystem where
  named : AbsPath → Option ℕ
  isdir : AbsPath → Bool
  holds : ℕ → List UInt8
  /-- The number of the next file. -/
  next : ℕ

/-- A file that is open for writing. -/
structure Descriptor where
  file : ℕ
  pos : ℕ
  /-- What is not written to the file yet. -/
  buffer : List UInt8

namespace FileSystem

variable (fs : FileSystem)

/-- What the file of a name holds. -/
def content (p : AbsPath) : Option (List UInt8) :=
  (fs.named p).map fs.holds

/-- `os.path.exists`. -/
def has (p : AbsPath) : Bool :=
  (fs.named p).isSome || fs.isdir p

/-- `open` for writing : the file is emptied, or made. -/
def openWrite (p : AbsPath) : Option (FileSystem × ℕ) :=
  if fs.isdir p then none
  else
    match fs.named p with
    | some i => some ({ fs with holds := Function.update fs.holds i [] }, i)
    | none =>
      if fs.isdir p.parent then
        some ({ fs with
          named := Function.update fs.named p (some fs.next)
          holds := Function.update fs.holds fs.next []
          next := fs.next + 1 }, fs.next)
      else none

/-- What a file holds after a write at a position. -/
def overwrite (old : List UInt8) (pos : ℕ) (data : List UInt8) : List UInt8 :=
  old.take pos ++ List.replicate (pos - old.length) 0 ++ data ++ old.drop (pos + data.length)

/-- The first `n` bytes of a buffer are written. -/
def flush (d : Descriptor) (n : ℕ) : FileSystem × Descriptor :=
  ({ fs with
      holds := Function.update fs.holds d.file
        (overwrite (fs.holds d.file) d.pos (d.buffer.take n)) },
    ⟨d.file, d.pos + (d.buffer.take n).length, d.buffer.drop n⟩)

/-- `close` of a descriptor, if it is open. -/
def close : Option Descriptor → FileSystem
  | none => fs
  | some d => (fs.flush d d.buffer.length).1

/-- `os.remove`, where an error is ignored. -/
def remove (p : AbsPath) : FileSystem :=
  { fs with named := Function.update fs.named p none }

/-- `os.mkdir`. -/
def mkdir (p : AbsPath) : Option FileSystem :=
  if fs.has p || !fs.isdir p.parent then none
  else some { fs with isdir := Function.update fs.isdir p true }

/-- Where `shutil.move` moves a file to : into a directory if the destination is one. -/
def moveTarget (src dst : AbsPath) : AbsPath :=
  if fs.isdir dst then dst.walk (PosixPath.basename src.text) else dst

/-- `shutil.move` of a file. -/
def move (src dst : AbsPath) : Option FileSystem :=
  let real := fs.moveTarget src dst
  if (fs.isdir dst && fs.has real) || fs.isdir real || !fs.isdir real.parent then none
  else
    (fs.named src).map fun i =>
      { fs with named := Function.update (Function.update fs.named src none) real (some i) }

/-! ## What they change -/

/-- No file has two names, and the numbers of all files are below the next. -/
structure Separate : Prop where
  inj : ∀ p q i, fs.named p = some i → fs.named q = some i → p = q
  lt_next : ∀ p i, fs.named p = some i → i < fs.next

/-- A path names the same file as before, and the file is not written to. -/
def SameAt (fs fs' : FileSystem) (p : AbsPath) : Prop :=
  fs'.named p = fs.named p ∧ ∀ i, fs.named p = some i → fs'.holds i = fs.holds i

variable {fs} {fs' : FileSystem} {p src dst : AbsPath} {i : ℕ} {d : Descriptor}

theorem SameAt.refl (fs : FileSystem) (p : AbsPath) : SameAt fs fs p :=
  ⟨rfl, fun _ _ => rfl⟩

theorem SameAt.trans {fs'' : FileSystem} (h : SameAt fs fs' p) (h' : SameAt fs' fs'' p) :
    SameAt fs fs'' p :=
  ⟨h'.1.trans h.1, fun i hi => (h'.2 i (h.1.trans hi)).trans (h.2 i hi)⟩

theorem SameAt.content_eq (h : SameAt fs fs' p) : fs'.content p = fs.content p := by
  unfold content
  rw [h.1]
  cases hp : fs.named p with
  | none => rfl
  | some i => rw [Option.map_some, Option.map_some, h.2 i hp]

/-- A file of a new name is opened : it is empty, and no other one changes. -/
theorem openWrite_spec (hs : fs.Separate) (hnone : fs.named p = none)
    (h : fs.openWrite p = some (fs', i)) : fs'.Separate ∧ fs'.named p = some i ∧
      fs'.holds i = [] ∧ fs'.isdir = fs.isdir ∧ ∀ q ≠ p, SameAt fs fs' q := by
  unfold openWrite at h
  obtain ⟨-, h⟩ := Option.ite_none_left_eq_some.1 h
  rw [hnone] at h
  obtain ⟨-, h⟩ := Option.ite_none_right_eq_some.1 h
  obtain ⟨rfl, rfl⟩ := Prod.mk.inj (Option.some.inj h)
  have hother : ∀ q ≠ p, Function.update fs.named p (some fs.next) q = fs.named q :=
    fun q hq => Function.update_of_ne hq _ _
  refine ⟨⟨fun q r j hq hr => ?_, fun q j hq => ?_⟩, Function.update_self _ _ _,
    Function.update_self _ _ _, rfl, fun q hq => ⟨hother q hq, fun j hj => ?_⟩⟩
  · dsimp only at hq hr
    by_cases hqp : q = p <;> by_cases hrp : r = p
    · exact hqp.trans hrp.symm
    · subst hqp
      rw [Function.update_self] at hq
      rw [hother r hrp] at hr
      have := hs.lt_next r j hr
      exact absurd (Option.some.inj hq) this.ne'
    · subst hrp
      rw [Function.update_self] at hr
      rw [hother q hqp] at hq
      have := hs.lt_next q j hq
      exact absurd (Option.some.inj hr) this.ne'
    · rw [hother q hqp] at hq
      rw [hother r hrp] at hr
      exact hs.inj q r j hq hr
  · dsimp only at hq ⊢
    by_cases hqp : q = p
    · subst hqp
      rw [Function.update_self] at hq
      rw [← Option.some.inj hq]
      exact Nat.lt_succ_self _
    · rw [hother q hqp] at hq
      exact Nat.lt_succ_of_lt (hs.lt_next q j hq)
  · exact Function.update_of_ne (hs.lt_next q j hj).ne _ _

/-- A write at the end of a file moves the front of the buffer there, and no other file changes. -/
theorem flush_spec (hs : fs.Separate) (hp : fs.named p = some d.file)
    (hpos : d.pos = (fs.holds d.file).length) (n : ℕ) :
    (fs.flush d n).1.Separate ∧ (fs.flush d n).1.named = fs.named ∧
      (fs.flush d n).1.isdir = fs.isdir ∧
      (fs.flush d n).1.holds d.file ++ (fs.flush d n).2.buffer =
        fs.holds d.file ++ d.buffer ∧
      (fs.flush d n).2.pos = ((fs.flush d n).1.holds d.file).length ∧
      ∀ q ≠ p, SameAt fs (fs.flush d n).1 q := by
  have hwrite : (fs.flush d n).1.holds d.file = fs.holds d.file ++ d.buffer.take n := by
    show Function.update fs.holds d.file _ d.file = _
    rw [Function.update_self, overwrite, hpos, List.take_length, Nat.sub_self,
      List.drop_of_length_le (by omega), List.replicate_zero, List.append_nil, List.append_nil]
  refine ⟨⟨hs.inj, hs.lt_next⟩, rfl, rfl, ?_, ?_, fun q hq => ⟨rfl, fun j hj => ?_⟩⟩
  · rw [hwrite, List.append_assoc]
    congr 1
    exact List.take_append_drop n d.buffer
  · rw [hwrite, List.length_append, ← hpos]
    rfl
  · refine Function.update_of_ne ?_ _ _
    rintro rfl
    exact hq (hs.inj q p _ hj hp)

/-- A closed file holds what was in the buffer too. -/
theorem close_spec (hs : fs.Separate) (hp : fs.named p = some d.file)
    (hpos : d.pos = (fs.holds d.file).length) :
    (fs.close (some d)).Separate ∧ (fs.close (some d)).named = fs.named ∧
      (fs.close (some d)).isdir = fs.isdir ∧
      (fs.close (some d)).holds d.file = fs.holds d.file ++ d.buffer ∧
      ∀ q ≠ p, SameAt fs (fs.close (some d)) q := by
  obtain ⟨hs', hnamed, hisdir, hholds, -, hsame⟩ := flush_spec hs hp hpos d.buffer.length
  refine ⟨hs', hnamed, hisdir, ?_, hsame⟩
  rw [← hholds, show (fs.flush d d.buffer.length).2.buffer = [] from List.drop_length,
    List.append_nil]
  rfl

theorem named_remove (q : AbsPath) :
    (fs.remove p).named q = Function.update fs.named p none q := rfl

theorem remove_spec (hs : fs.Separate) (p : AbsPath) :
    (fs.remove p).Separate ∧ (fs.remove p).named p = none ∧ ∀ q ≠ p, SameAt fs (fs.remove p) q := by
  have hother : ∀ q j, (fs.remove p).named q = some j → fs.named q = some j := by
    intro q j hq
    by_cases hqp : q = p
    · subst hqp
      rw [named_remove, Function.update_self] at hq
      cases hq
    · rwa [named_remove, Function.update_of_ne hqp] at hq
  exact ⟨⟨fun q r j hq hr => hs.inj q r j (hother q j hq) (hother r j hr),
    fun q j hq => hs.lt_next q j (hother q j hq)⟩, Function.update_self _ _ _,
    fun q hq => ⟨Function.update_of_ne hq _ _, fun _ _ => rfl⟩⟩

theorem mkdir_spec (h : fs.mkdir p = some fs') :
    fs.has p = false ∧ fs' = { fs with isdir := Function.update fs.isdir p true } := by
  unfold mkdir at h
  obtain ⟨hnot, h⟩ := Option.ite_none_left_eq_some.1 h
  rw [Bool.or_eq_true, not_or, Bool.not_eq_true] at hnot
  exact ⟨hnot.1, (Option.some.inj h).symm⟩

/-- A file that is moved to a path that is no directory is there, and no other one changes. -/
theorem move_spec (hs : fs.Separate) (hdir : fs.isdir dst = false) (hne : src ≠ dst)
    (h : fs.move src dst = some fs') : fs'.Separate ∧ fs'.named src = none ∧
      fs'.isdir = fs.isdir ∧ fs'.content dst = fs.content src ∧ (fs.named src).isSome ∧
      ∀ q, q ≠ src → q ≠ dst → SameAt fs fs' q := by
  have htarget : fs.moveTarget src dst = dst := if_neg (by rw [hdir]; exact Bool.false_ne_true)
  unfold move at h
  rw [htarget] at h
  obtain ⟨-, h⟩ := Option.ite_none_left_eq_some.1 h
  obtain ⟨i, hi, rfl⟩ := Option.map_eq_some_iff.1 h
  have hdst : Function.update (Function.update fs.named src none) dst (some i) dst = some i :=
    Function.update_self _ _ _
  have hsrc : Function.update (Function.update fs.named src none) dst (some i) src = none := by
    rw [Function.update_of_ne hne, Function.update_self]
  have hother : ∀ q, q ≠ src → q ≠ dst →
      Function.update (Function.update fs.named src none) dst (some i) q = fs.named q := by
    intro q hqs hqd
    rw [Function.update_of_ne hqd, Function.update_of_ne hqs]
  -- each name of a file is the old name of that file, or the new one of the one that is moved
  have hold : ∀ q j, Function.update (Function.update fs.named src none) dst (some i) q = some j →
      (q = dst ∧ j = i) ∨ (q ≠ dst ∧ q ≠ src ∧ fs.named q = some j) := by
    intro q j hq
    by_cases hqd : q = dst
    · subst hqd
      rw [hdst] at hq
      exact .inl ⟨rfl, (Option.some.inj hq).symm⟩
    · by_cases hqs : q = src
      · subst hqs
        rw [hsrc] at hq
        cases hq
      · exact .inr ⟨hqd, hqs, hother q hqs hqd ▸ hq⟩
  refine ⟨⟨fun q r j hq hr => ?_, fun q j hq => ?_⟩, hsrc, rfl, ?_, by rw [hi]; rfl,
    fun q hqs hqd => ⟨hother q hqs hqd, fun _ _ => rfl⟩⟩
  · rcases hold q j hq with ⟨rfl, rfl⟩ | ⟨hqd, hqs, hq'⟩
    · rcases hold r j hr with ⟨rfl, -⟩ | ⟨hrd, hrs, hr'⟩
      · rfl
      · exact absurd (hs.inj r src j hr' hi) hrs
    · rcases hold r j hr with ⟨rfl, rfl⟩ | ⟨hrd, hrs, hr'⟩
      · exact absurd (hs.inj q src j hq' hi) hqs
      · exact hs.inj q r j hq' hr'
  · rcases hold q j hq with ⟨rfl, rfl⟩ | ⟨-, -, hq⟩
    · exact hs.lt_next src _ hi
    · exact hs.lt_next q j hq
  · rw [content, content, hi]
    exact congrArg (Option.map fs.holds) hdst

end FileSystem

end Thinker
