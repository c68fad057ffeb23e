import Thinker.FileSystem

/-!
# Trees of names

The names of a file system, each of a directory or of a file. Of a file is known which operation has
put it there, so a name that is removed, renamed or overwritten can be told from one that is not.
The operations are those of `os` and `shutil` on one file system without links; an operation that
raises leaves no tree.
-/

namespace Thinker

namespace AbsPath

instance (r p : AbsPath) : Decidable (r.Beneath p) :=
  inferInstanceAs (Decidable (_ ∧ _))

/-- A path of the first entries. -/
def front (p : AbsPath) (n : ℕ) : AbsPath :=
  ⟨p.double, p.comps.take n, fun c hc => p.entries c (List.mem_of_mem_take hc)⟩

/-- The paths that `p` lies beneath. -/
def ancestors (p : AbsPath) : List AbsPath :=
  (List.range p.comps.length).map p.front

/-- Where a path beneath `src` is when `src` has become `dst`. -/
def rebase (src dst p : AbsPath) : AbsPath where
  double := dst.double
  comps := dst.comps ++ p.comps.drop src.comps.length
  entries c hc := by
    rcases List.mem_append.1 hc with h | h
    · exact dst.entries c h
    · exact p.entries c (List.mem_of_mem_drop h)

variable {p q r : AbsPath}

theorem Beneath.refl (p : AbsPath) : p.Beneath p :=
  ⟨rfl, List.prefix_refl _⟩

theorem Beneath.trans (h : p.Beneath q) (h' : q.Beneath r) : p.Beneath r :=
  ⟨h'.1.trans h.1, h.2.trans h'.2⟩

theorem beneath_rebase (src dst p : AbsPath) : dst.Beneath (src.rebase dst p) :=
  ⟨rfl, List.prefix_append _ _⟩

/-- The ancestors of a path are all other paths that it lies beneath. -/
theorem mem_ancestors_of_beneath (h : q.Beneath p) (hne : q ≠ p) : q ∈ p.ancestors := by
  have hlt : q.comps.length < p.comps.length := by
    refine lt_of_le_of_ne h.2.length_le fun heq => hne ?_
    exact ext' h.1.symm (h.2.eq_of_length heq)
  refine List.mem_map.2 ⟨q.comps.length, List.mem_range.2 hlt, ext' h.1 ?_⟩
  exact (List.prefix_iff_eq_take.1 h.2).symm

open PosixPath in
/-- The last component of a normal path. -/
theorem basename_text (p : AbsPath) : basename p.text = p.comps.getLast?.getD [] := by
  rcases List.eq_nil_or_concat p.comps with hnil | ⟨dir, c, hcomps⟩
  · rw [text_eq, hnil, slashes]
    cases p.double <;> rfl
  · rw [List.concat_eq_append] at hcomps
    have hc : IsEntry c := p.entries c (hcomps ▸ List.mem_append_right _ List.mem_cons_self)
    have hn : p.slashes ≠ 0 := by
      unfold slashes
      split <;> decide
    obtain ⟨front, hfront, htext⟩ := exists_front dir hn
    have hnot : ∀ x ∈ c.reverse, decide (x ≠ '/') = true := fun x hx =>
      decide_eq_true fun h => hc.2.1 (List.mem_reverse.1 (h ▸ hx))
    have hback : front.reverse.takeWhile (fun x => decide (x ≠ '/')) = [] := by
      rw [List.getLast?_eq_head?_reverse] at hfront
      obtain ⟨rest, hrest⟩ := List.head?_eq_some_iff.1 hfront
      rw [hrest, List.takeWhile_cons_of_neg (by decide)]
    rw [text_eq, hcomps, htext, basename, List.reverse_append, List.takeWhile_append_of_pos hnot,
      hback, List.append_nil, List.reverse_reverse, List.getLast?_concat]
    rfl

open PosixPath in
/-- A path goes into a directory under its own name. -/
theorem walk_basename_comps (src dst : AbsPath) :
    (dst.walk (basename src.text)).comps = dst.comps ++ src.comps.getLast?.toList := by
  rw [walk_comps, basename_text]
  cases hlast : src.comps.getLast? with
  | none => simpa using pushComp_drop (.inl rfl)
  | some c =>
    have hc : IsEntry c := src.entries c (List.mem_of_getLast? hlast)
    rw [Option.getD_some, List.splitOn_eq_singleton hc.2.1, List.foldl_cons, List.foldl_nil,
      pushComp_entry hc]
    rfl

end AbsPath

/-- What a name is of. -/
inductive FileNode where
  | dir
  /-- A file, with the number of the operation that has put it there. -/
  | file (stamp : ℕ)
  deriving DecidableEq, Repr

/-- The file as the operation with the next number leaves it. -/
def FileNode.restamp (next : ℕ) : FileNode → FileNode
  | .dir => .dir
  | .file _ => .file next

/-- The names of a file system. Of a name that is listed twice the first entry counts. -/
structure FileTree where
  entries : List (AbsPath × FileNode)
  next : ℕ
  lt_next : ∀ e ∈ entries, ∀ n, e.2 = .file n → n < next

namespace FileTree

open PosixPath

variable (t : FileTree) (p src dst : AbsPath)

/-- What a name is of. -/
def node : Option FileNode :=
  t.entries.lookup p

/-- `os.path.exists`. -/
def has : Bool :=
  (t.node p).isSome

/-- `os.path.isdir`. -/
def isdir : Bool :=
  t.node p = some .dir

/-- `os.path.isfile`. -/
def isfile : Bool :=
  t.has p && !t.isdir p

/-- The tree after an operation that keeps some of the names and puts others in front of them. -/
def change (keep : AbsPath → Bool) (new : List (AbsPath × FileNode))
    (hnew : ∀ e ∈ new, ∀ n, e.2 = .file n → n = t.next) : FileTree where
  entries := new ++ t.entries.filter fun e => keep e.1
  next := t.next + 1
  lt_next e he n hn := by
    rcases List.mem_append.1 he with he | he
    · rw [hnew e he n hn]
      exact Nat.lt_succ_self _
    · exact Nat.lt_succ_of_lt (t.lt_next e (List.mem_filter.1 he).1 n hn)

/-- What is beneath a directory or file, as it is put elsewhere. -/
def below : List (AbsPath × FileNode) :=
  (t.entries.filter fun e => src.Beneath e.1).map fun e => (src.rebase dst e.1, e.2.restamp t.next)

theorem below_stamp {e : AbsPath × FileNode} (he : e ∈ t.below src dst) (n : ℕ)
    (hn : e.2 = .file n) : n = t.next := by
  obtain ⟨d, -, rfl⟩ := List.mem_map.1 he
  cases hd : d.2 with
  | dir => simp [hd, FileNode.restamp] at hn
  | file m =>
    simp only [hd, FileNode.restamp, FileNode.file.injEq] at hn
    exact hn.symm

/-- A file is opened for writing, and written. -/
def write : Option FileTree :=
  if t.isdir p ∨ (t.has p = false ∧ t.isdir p.parent = false) then none
  else
    some (t.change (fun _ => true) [(p, .file t.next)] fun _ he n hn => by
      rw [List.mem_singleton.1 he] at hn
      exact (FileNode.file.inj hn).symm)

/-- `os.mkdir`. -/
def mkdir : Option FileTree :=
  if t.has p ∨ t.isdir p.parent = false then none
  else
    some (t.change (fun _ => true) [(p, .dir)] fun _ he _ hn => by
      rw [List.mem_singleton.1 he] at hn
      cases hn)

/-- `os.remove`. -/
def remove : Option FileTree :=
  if t.isfile p then some (t.change (· ≠ p) [] (by simp)) else none

/-- `os.rmdir` of a directory. -/
def rmdir : Option FileTree :=
  if t.entries.any fun e => p.Beneath e.1 ∧ e.1 ≠ p then none
  else some (t.change (· ≠ p) [] (by simp))

/-- `shutil.rmtree`. -/
def rmtree : FileTree :=
  t.change (fun q => ¬p.Beneath q) [] (by simp)

/-- `os.rename`, where it is possible. -/
def rename : FileTree :=
  t.change (fun q => ¬src.Beneath q ∧ ¬dst.Beneath q) (t.below src dst)
    fun _ => t.below_stamp src dst

/-- Where `shutil.move` and `shutil.copy2` put a source: into the destination, if it is a
directory. -/
def into : AbsPath :=
  if t.isdir dst then dst.walk (basename src.text) else dst

/-- `shutil.move` can move the source. Nothing is moved into a directory that has the name, nor into
itself, and a directory not over a file. -/
def Movable : Prop :=
  if t.isdir dst then src ≠ dst ∧ t.has (t.into src dst) = false ∧ ¬src.Beneath (t.into src dst)
  else (src = dst ∨ ¬src.Beneath dst) ∧
    if t.has dst then t.isfile src = true else t.isdir dst.parent = true

instance : Decidable (t.Movable src dst) := by
  unfold Movable
  infer_instance

/-- `shutil.move` of what exists. A file that is moved to itself stays. -/
def move : Option FileTree :=
  if t.Movable src dst then
    some (if src = t.into src dst then t else t.rename src (t.into src dst))
  else none

/-- `shutil.copy2` of a file. -/
def copy2 : Option FileTree :=
  if src = t.into src dst then none else t.write (t.into src dst)

/-- `shutil.copytree` of a directory. The directories above the destination are made. -/
def copytree : Option FileTree :=
  if t.has dst ∨ ∃ a ∈ dst.ancestors, t.isfile a = true then none
  else
    some (t.change (fun _ => true)
      (t.below src dst ++ (dst.ancestors.filter fun a => !t.has a).map fun a => (a, .dir))
      fun e he n hn => by
        rcases List.mem_append.1 he with he | he
        · exact t.below_stamp src dst he n hn
        · obtain ⟨a, -, rfl⟩ := List.mem_map.1 he
          cases hn)

/-! ## What they change -/

variable {t} {t' : FileTree} {p src dst}

/-- What is put into a directory is beneath it. -/
theorem beneath_into (t : FileTree) (src dst : AbsPath) : dst.Beneath (t.into src dst) := by
  unfold into
  split_ifs
  · exact ⟨rfl, by rw [AbsPath.walk_basename_comps]; exact List.prefix_append _ _⟩
  · exact .refl dst

/-- A directory that the place of a source lies strictly beneath holds the destination. -/
theorem beneath_dst_of_into {r : AbsPath} (hr : r.Beneath (t.into src dst))
    (hne : r ≠ t.into src dst) : r.Beneath dst := by
  unfold into at hr hne
  split_ifs at hr hne with hdir
  · obtain ⟨hdouble, hcomps⟩ := hr
    refine ⟨hdouble, ?_⟩
    rw [AbsPath.walk_basename_comps] at hcomps
    cases hlast : src.comps.getLast? with
    | none => simpa [hlast] using hcomps
    | some c =>
      rw [hlast, Option.toList_some] at hcomps
      refine (List.prefix_concat_iff.1 hcomps).resolve_left fun heq => hne ?_
      refine AbsPath.ext' hdouble.symm ?_
      rw [AbsPath.walk_basename_comps, hlast, Option.toList_some, heq]
  · exact hr

/-- The file of a name is there, beneath directories. -/
structure HasFile (t : FileTree) (p : AbsPath) : Prop where
  isfile : t.isfile p = true
  isdir : ∀ r : AbsPath, r.Beneath p → r ≠ p → t.isdir r = true

/-- The directories of a file are its ancestors. -/
theorem HasFile.of_ancestors (hfile : t.isfile p = true)
    (hdir : ∀ a ∈ p.ancestors, t.isdir a = true) : t.HasFile p :=
  ⟨hfile, fun _ hr hne => hdir _ (AbsPath.mem_ancestors_of_beneath hr hne)⟩

/-- Nothing has happened to a name, nor to a directory that it lies beneath. -/
def Untouched (t t' : FileTree) (p : AbsPath) : Prop :=
  ∀ r : AbsPath, r.Beneath p → t'.node r = t.node r

theorem Untouched.refl (t : FileTree) (p : AbsPath) : Untouched t t p :=
  fun _ _ => rfl

theorem Untouched.trans {t'' : FileTree} (h : Untouched t t' p) (h' : Untouched t' t'' p) :
    Untouched t t'' p :=
  fun r hr => (h' r hr).trans (h r hr)

theorem untouched_of_ancestors (hfile : t'.node p = t.node p)
    (hdir : ∀ a ∈ p.ancestors, t'.node a = t.node a) : Untouched t t' p := by
  intro r hr
  by_cases hne : r = p
  · rw [hne, hfile]
  · exact hdir r (AbsPath.mem_ancestors_of_beneath hr hne)

theorem isdir_congr (h : t'.node p = t.node p) : t'.isdir p = t.isdir p := by
  unfold isdir
  rw [h]

theorem isfile_congr (h : t'.node p = t.node p) : t'.isfile p = t.isfile p := by
  unfold isfile has
  rw [h, isdir_congr h]

theorem HasFile.of_untouched (h : t.HasFile p) (hsame : Untouched t t' p) : t'.HasFile p where
  isfile := (isfile_congr (hsame p (.refl p))).trans h.isfile
  isdir r hr hne := (isdir_congr (hsame r hr)).trans (h.isdir r hr hne)

/-- A file is no directory. -/
theorem isdir_eq_false_of_isfile (h : t.isfile p = true) : t.isdir p = false := by
  unfold isfile at h
  rw [Bool.and_eq_true, Bool.not_eq_true'] at h
  exact h.2

theorem has_of_isfile (h : t.isfile p = true) : t.has p = true := by
  unfold isfile at h
  rw [Bool.and_eq_true] at h
  exact h.1

theorem has_of_isdir (h : t.isdir p = true) : t.has p = true := by
  unfold isdir at h
  unfold has
  rw [of_decide_eq_true h]
  rfl

/-- What is on the way to a file is there. -/
theorem HasFile.has (h : t.HasFile p) {r : AbsPath} (hr : r.Beneath p) : t.has r = true := by
  by_cases hne : r = p
  · subst hne
    exact has_of_isfile h.isfile
  · exact has_of_isdir (h.isdir r hr hne)

/-- The operation that has put a file there has a number below the next. -/
theorem HasFile.node (h : t.HasFile p) : ∃ n < t.next, t.node p = some (.file n) := by
  have hhas := has_of_isfile h.isfile
  have hdir := isdir_eq_false_of_isfile h.isfile
  unfold FileTree.has at hhas
  obtain ⟨node, hnode⟩ := Option.isSome_iff_exists.1 hhas
  cases node with
  | dir => simp [FileTree.isdir, hnode] at hdir
  | file n =>
    obtain ⟨front, back, hentries, -⟩ := List.lookup_eq_some_iff.1 hnode
    refine ⟨n, t.lt_next (p, .file n) ?_ n rfl, hnode⟩
    rw [hentries]
    exact List.mem_append_right _ List.mem_cons_self

theorem lookup_filter {α β : Type} [BEq α] [LawfulBEq α] (l : List (α × β)) (keep : α → Bool)
    (a : α) : (l.filter fun e => keep e.1).lookup a = if keep a then l.lookup a else none := by
  induction l with
  | nil => simp
  | cons e l ih =>
    obtain ⟨k, b⟩ := e
    by_cases hk : a = k
    · subst hk
      cases hkeep : keep a with
      | true => simp [hkeep]
      | false => simpa [hkeep] using ih
    · have hne : (a == k) = false := beq_eq_false_iff_ne.2 hk
      rw [List.lookup_cons, hne, ← ih]
      cases hkeep : keep k with
      | true => simp [hkeep, List.lookup_cons, hne]
      | false => simp [hkeep]

/-- A name after a change is one of the new names, or one that is kept. -/
theorem node_change (t : FileTree) (keep : AbsPath → Bool) (new : List (AbsPath × FileNode))
    (hnew : ∀ e ∈ new, ∀ n, e.2 = .file n → n = t.next) (p : AbsPath) :
    (t.change keep new hnew).node p =
      (new.lookup p).or (if keep p then t.node p else none) := by
  unfold node change
  rw [List.lookup_append, lookup_filter]

/-- A name that is kept and is not among the new ones. -/
theorem node_change_of_keep {keep : AbsPath → Bool} {new : List (AbsPath × FileNode)}
    {hnew : ∀ e ∈ new, ∀ n, e.2 = .file n → n = t.next} (hkeep : keep p = true)
    (hp : ∀ e ∈ new, e.1 ≠ p) : (t.change keep new hnew).node p = t.node p := by
  rw [node_change, if_pos hkeep, List.lookup_eq_none_iff.2, Option.none_or]
  intro e he
  exact bne_iff_ne.2 (Ne.symm (hp e he))

/-- A file that is not kept, or put there anew, is not the one it was. -/
theorem node_change_ne {keep : AbsPath → Bool} {new : List (AbsPath × FileNode)}
    {hnew : ∀ e ∈ new, ∀ n, e.2 = .file n → n = t.next} (h : t.HasFile p)
    (hp : keep p = false ∨ ∃ node, new.lookup p = some node) :
    (t.change keep new hnew).node p ≠ t.node p := by
  obtain ⟨n, hn, hnode⟩ := h.node
  rw [node_change, hnode]
  cases hlook : new.lookup p with
  | none =>
    obtain hkeep | ⟨node, hnode'⟩ := hp
    · rw [hkeep]
      exact nofun
    · rw [hlook] at hnode'
      cases hnode'
  | some node =>
    obtain ⟨front, back, hentries, -⟩ := List.lookup_eq_some_iff.1 hlook
    rw [Option.some_or]
    intro heq
    refine hn.ne (hnew (p, node) ?_ n (Option.some.inj heq))
    rw [hentries]
    exact List.mem_append_right _ List.mem_cons_self

variable {q : AbsPath}

/-- Writing to a name that a file does not have. -/
theorem untouched_write (h : t.HasFile p) (hne : q ≠ p) (hw : t.write q = some t') :
    Untouched t t' p := by
  obtain ⟨hnot, hw⟩ := Option.ite_none_left_eq_some.1 hw
  obtain rfl := Option.some.inj hw
  intro r hr
  refine node_change_of_keep rfl fun e he hqr => ?_
  obtain rfl : q = r := by rw [← hqr, List.mem_singleton.1 he]
  exact hnot (.inl (h.isdir q hr hne))

/-- What is written is not on the way to another file. -/
theorem not_beneath_of_write (h : t.HasFile p) (hne : q ≠ p) (hw : t.write q = some t') :
    ¬q.Beneath p :=
  fun hq => (Option.ite_none_left_eq_some.1 hw).1 (.inl (h.isdir q hq hne))

/-- Writing to a file. -/
theorem node_write_ne (h : t.HasFile p) (hw : t.write p = some t') : t'.node p ≠ t.node p := by
  obtain ⟨-, hw⟩ := Option.ite_none_left_eq_some.1 hw
  obtain rfl := Option.some.inj hw
  exact node_change_ne h (.inr ⟨.file t.next, by simp⟩)

/-- A file can be written. -/
theorem isSome_write (h : t.HasFile p) : (t.write p).isSome = true := by
  unfold write
  rw [if_neg, Option.isSome_some]
  rintro (hdir | ⟨hhas, -⟩)
  · rw [isdir_eq_false_of_isfile h.isfile] at hdir
    cases hdir
  · rw [h.has (.refl p)] at hhas
    cases hhas

/-- A directory is made where nothing is. -/
theorem node_mkdir (h : t.has p = true) (hm : t.mkdir q = some t') : t'.node p = t.node p := by
  obtain ⟨hnot, hm⟩ := Option.ite_none_left_eq_some.1 hm
  obtain rfl := Option.some.inj hm
  refine node_change_of_keep rfl fun e he hqp => ?_
  obtain rfl : q = p := by rw [← hqp, List.mem_singleton.1 he]
  exact hnot (.inl h)

theorem untouched_remove (h : t.HasFile p) (hne : q ≠ p) (hremove : t.remove q = some t') :
    Untouched t t' p := by
  obtain ⟨hfile, hremove⟩ := Option.ite_none_right_eq_some.1 hremove
  obtain rfl := Option.some.inj hremove
  intro r hr
  refine node_change_of_keep ?_ nofun
  rw [decide_eq_true_eq]
  rintro rfl
  have hdir := h.isdir r hr hne
  rw [isdir_eq_false_of_isfile hfile] at hdir
  cases hdir

/-- A file that is removed. -/
theorem node_remove_ne (h : t.HasFile p) (hremove : t.remove p = some t') :
    t'.node p ≠ t.node p := by
  obtain ⟨-, hremove⟩ := Option.ite_none_right_eq_some.1 hremove
  obtain rfl := Option.some.inj hremove
  exact node_change_ne h (.inl (by simp))

/-- An empty directory is removed. -/
theorem untouched_rmdir (h : t.HasFile p) (hd : t.isdir q = true) (hrmdir : t.rmdir q = some t') :
    Untouched t t' p := by
  obtain ⟨hempty, hrmdir⟩ := Option.ite_none_left_eq_some.1 hrmdir
  obtain rfl := Option.some.inj hrmdir
  intro r hr
  refine node_change_of_keep ?_ nofun
  rw [decide_eq_true_eq]
  rintro rfl
  have hne : p ≠ r := by
    rintro rfl
    rw [isdir_eq_false_of_isfile h.isfile] at hd
    cases hd
  obtain ⟨n, -, hnode⟩ := h.node
  obtain ⟨front, back, hentries, -⟩ := List.lookup_eq_some_iff.1 hnode
  refine hempty (List.any_eq_true.2 ⟨(p, .file n), ?_, decide_eq_true ⟨hr, hne⟩⟩)
  rw [hentries]
  exact List.mem_append_right _ List.mem_cons_self

theorem untouched_rmtree (hq : ¬q.Beneath p) : Untouched t (t.rmtree q) p := by
  intro r hr
  refine node_change_of_keep ?_ nofun
  rw [decide_eq_true_eq]
  exact fun hqr => hq (hqr.trans hr)

theorem node_rmtree_ne (h : t.HasFile p) (hq : q.Beneath p) : (t.rmtree q).node p ≠ t.node p :=
  node_change_ne h (.inl (decide_eq_false (not_not.2 hq)))

/-- The names beneath a source, put elsewhere, are beneath the destination. -/
theorem beneath_of_mem_below {e : AbsPath × FileNode} (he : e ∈ t.below src dst) :
    dst.Beneath e.1 := by
  obtain ⟨d, -, rfl⟩ := List.mem_map.1 he
  exact src.beneath_rebase dst d.1

theorem untouched_rename (hsrc : ¬src.Beneath p) (hdst : ¬dst.Beneath p) :
    Untouched t (t.rename src dst) p := by
  intro r hr
  refine node_change_of_keep ?_ fun e he her => ?_
  · rw [decide_eq_true_eq]
    exact ⟨fun h => hsrc (h.trans hr), fun h => hdst (h.trans hr)⟩
  · exact hdst ((beneath_of_mem_below he).trans (her ▸ hr))

/-- A name on the way to a file, to which a movable source can go, is the file itself, and so is the
destination. -/
theorem eq_of_movable (h : t.HasFile p) (hm : t.Movable src dst)
    (hreal : (t.into src dst).Beneath p) : dst = p ∧ t.into src dst = p ∧ t.isfile src = true := by
  unfold Movable at hm
  split_ifs at hm with hdir hhas
  · obtain ⟨-, hhas, -⟩ := hm
    rw [h.has hreal] at hhas
    cases hhas
  · have hinto : t.into src dst = dst := if_neg hdir
    rw [hinto] at hreal ⊢
    by_cases hne : dst = p
    · exact ⟨hne, hne, hm.2⟩
    · exact absurd (h.isdir dst hreal hne) hdir
  · have hinto : t.into src dst = dst := if_neg hdir
    rw [hinto] at hreal
    exact absurd (h.has hreal) hhas

/-- A move of something else to somewhere else. -/
theorem untouched_move (h : t.HasFile p) (hsrc : ¬src.Beneath p) (hdst : dst ≠ p)
    (hm : t.move src dst = some t') : Untouched t t' p := by
  obtain ⟨hmovable, hm⟩ := Option.ite_none_right_eq_some.1 hm
  obtain rfl := Option.some.inj hm
  split_ifs
  · exact .refl t p
  · exact untouched_rename hsrc fun hreal => hdst (eq_of_movable h hmovable hreal).1

/-- A move of a file or of a directory that it lies beneath, or over the file. -/
theorem node_move_ne (h : t.HasFile p) (hne : src ≠ t.into src dst)
    (htouch : src.Beneath p ∨ dst = p) (hm : t.move src dst = some t') :
    t'.node p ≠ t.node p := by
  obtain ⟨hmovable, hm⟩ := Option.ite_none_right_eq_some.1 hm
  rw [if_neg hne] at hm
  obtain rfl := Option.some.inj hm
  refine node_change_ne h (.inl (decide_eq_false ?_))
  rintro ⟨hsrc, hdst⟩
  obtain hbeneath | rfl := htouch
  · exact hsrc hbeneath
  · refine hdst ?_
    unfold into
    rw [isdir_eq_false_of_isfile h.isfile]
    exact .refl dst

theorem untouched_copy2 (h : t.HasFile p) (hne : t.into src dst ≠ p)
    (hc : t.copy2 src dst = some t') : Untouched t t' p :=
  untouched_write h hne (Option.ite_none_left_eq_some.1 hc).2

/-- A copy over a file. -/
theorem node_copy2_ne (h : t.HasFile p) (hreal : t.into src dst = p)
    (hc : t.copy2 src dst = some t') : t'.node p ≠ t.node p := by
  have hw := (Option.ite_none_left_eq_some.1 hc).2
  rw [hreal] at hw
  exact node_write_ne h hw

/-- A directory is copied to where nothing is. -/
theorem untouched_copytree (h : t.HasFile p) (hc : t.copytree src dst = some t') :
    Untouched t t' p := by
  obtain ⟨hnot, hc⟩ := Option.ite_none_left_eq_some.1 hc
  obtain rfl := Option.some.inj hc
  intro r hr
  refine node_change_of_keep rfl fun e he her => ?_
  rcases List.mem_append.1 he with he | he
  · exact hnot (.inl (h.has ((beneath_of_mem_below he).trans (her ▸ hr))))
  · obtain ⟨a, ha, rfl⟩ := List.mem_map.1 he
    have hhas : t.has a = false := by simpa using (List.mem_filter.1 ha).2
    rw [show a = r from her, h.has hr] at hhas
    cases hhas

end FileTree

end Thinker
