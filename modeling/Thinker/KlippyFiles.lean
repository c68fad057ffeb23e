import Mathlib.Tactic
import Thinker.Transition

/-!
# The file list of KlipperScreen and the files of the server

`KlippyFiles` keeps a list of files and a dictionary of what is known of each. The server
announces every change in the order of the changes, and answers a request for the list with
the files it has then. Each message does to the list what it says (`seen`), so the messages
on their way lead from the list to the files of the server, or a list is still to come
(`Inv.led`).

What the client does not follow are directories that are moved or deleted with files in
them, moves across the border of the root `gcodes` (only the root of the target is looked
at, so that a file moved in from another root is taken out again if its old path is one of
`gcodes`), and files there that are no gcode files. Metadata of a file that is gone by then
raises. In runs without these the list is that of the server whenever nothing is on its way
(`mirrors_of_careful`). A created directory is no exception : `get_file_dir` asks for the
whole list.
-/

namespace Thinker

variable {P I : Type} [DecidableEq P]

inductive FileRoot
  | gcodes
  | other
deriving DecidableEq

inductive FilesRequest (P : Type)
  | list
  | metadata (filename : P)
deriving DecidableEq

inductive FilesError
  | keyError
  | valueError

/-- A change on the server. A directory stands for the files it contains. -/
inductive FileChange (P I : Type)
  | createFile (root : FileRoot) (path : P) (item : I)
  | modifyFile (root : FileRoot) (path : P)
  | deleteFile (root : FileRoot) (path : P)
  | moveFile (root : FileRoot) (path : P) (item : I) (sourceRoot : FileRoot) (source : P)
  | createDir (root : FileRoot) (content : Finset P)
  | deleteDir (root : FileRoot) (content : Finset P)
  | moveDir (root : FileRoot) (content : Finset P) (sourceRoot : FileRoot) (source : Finset P)

/-- What the client receives. A metadata response without an error changes what is known
of the file. -/
inductive FileMessage (P I : Type)
  | changed (c : FileChange P I)
  | list (items : List (P × I))
  | metadata (filename : P) (result : Option (I → I))

structure KlippyFiles (P I : Type) where
  files : P → Option I := fun _ => none
  filelist : List P := []
  /-- Requests not yet answered. The screen asks for the list when it connects. -/
  requests : List (FilesRequest P) := [.list]

namespace KlippyFiles

def requestMetadata (k : KlippyFiles P I) (filename : P) : KlippyFiles P I :=
  if filename ∉ k.filelist then k
  else { k with requests := k.requests ++ [.metadata filename] }

def addFile (k : KlippyFiles P I) (filename : P) (item : I) : KlippyFiles P I :=
  if filename ∈ k.filelist then k.requestMetadata filename
  else
    { k with
      filelist := k.filelist ++ [filename]
      files := Function.update k.files filename (some item) }.requestMetadata filename

def removeFile (k : KlippyFiles P I) (filename : P) : KlippyFiles P I :=
  if filename ∉ k.filelist then k
  else
    { k with
      filelist := k.filelist.erase filename
      files := Function.update k.files filename none }

/-- `get_file_dir` sends the request for the list. -/
def refreshFiles (k : KlippyFiles P I) : KlippyFiles P I :=
  { k with requests := k.requests ++ [.list] }

def processUpdate (k : KlippyFiles P I) : FileChange P I → KlippyFiles P I
  | .createDir .gcodes _ => k.refreshFiles
  | .createFile .gcodes path item => k.addFile path item
  | .deleteFile .gcodes path => k.removeFile path
  | .modifyFile .gcodes path => k.requestMetadata path
  | .moveFile .gcodes path item _ source => (k.addFile path item).removeFile source
  | _ => k

/-- The loop over the items of a list response, with the files not met yet. -/
def listLoop : List (P × I) → KlippyFiles P I → List P →
    Except FilesError (KlippyFiles P I × List P)
  | [], k, deletedfiles => .ok (k, deletedfiles)
  | (file, item) :: items, k, deletedfiles =>
    if (k.files file).isSome then
      if file ∈ deletedfiles then listLoop items k (deletedfiles.erase file)
      else .error .valueError
    else listLoop items (k.addFile file item) deletedfiles

def receive (k : KlippyFiles P I) : FileMessage P I → Except FilesError (KlippyFiles P I)
  | .changed c => .ok (k.processUpdate c)
  | .list items =>
    (listLoop items k k.filelist).map fun r => r.2.foldl removeFile r.1
  | .metadata _ none => .ok k
  | .metadata filename (some result) =>
    match k.files filename with
    | none => .error .keyError
    | some info => .ok { k with files := Function.update k.files filename (some (result info)) }

/-- The list has no duplicates and contains the keys of the dictionary. -/
structure Tidy (k : KlippyFiles P I) : Prop where
  nodup : k.filelist.Nodup
  keys : ∀ f, (k.files f).isSome ↔ f ∈ k.filelist

end KlippyFiles

/-! ## The server and the messages on their way -/

structure FileMirror (P I : Type) where
  /-- The files in the root `gcodes`. -/
  server : Finset P := ∅
  queue : List (FileMessage P I) := []
  client : KlippyFiles P I := {}
  /-- A callback has raised. -/
  raised : Bool := false

inductive MirrorEvent (P I : Type)
  | change (c : FileChange P I)
  | refreshFiles
  | requestMetadata (filename : P)
  | answerList (items : List (P × I))
  | answerMetadata (filename : P) (result : Option (I → I))
  | deliver

/-- The files in `gcodes` after a change. -/
def FileChange.apply (S : Finset P) : FileChange P I → Finset P
  | .createFile .gcodes path _ => insert path S
  | .deleteFile .gcodes path => S.erase path
  | .moveFile root path _ sourceRoot source =>
    let S := if sourceRoot = .gcodes then S.erase source else S
    if root = .gcodes then insert path S else S
  | .createDir .gcodes content => S ∪ content
  | .deleteDir .gcodes content => S \ content
  | .moveDir root content sourceRoot source =>
    let S := if sourceRoot = .gcodes then S \ source else S
    if root = .gcodes then S ∪ content else S
  | _ => S

namespace FileMirror

/-- The gcode files of the server. -/
def gcodeFiles (isGcode : P → Bool) (w : FileMirror P I) : Finset P :=
  w.server.filter fun f => isGcode f

/-- The requests after one of them is answered. -/
def answer (w : FileMirror P I) (r : FilesRequest P) (m : FileMessage P I) : FileMirror P I :=
  { w with
    client := { w.client with requests := w.client.requests.erase r }
    queue := w.queue ++ [m] }

def next (isGcode : P → Bool) (w : FileMirror P I) : MirrorEvent P I → Option (FileMirror P I)
  | .change c => some { w with server := c.apply w.server, queue := w.queue ++ [.changed c] }
  | .refreshFiles => some { w with client := w.client.refreshFiles }
  | .requestMetadata f => some { w with client := w.client.requestMetadata f }
  | .answerList items =>
    if .list ∈ w.client.requests ∧ (items.map Prod.fst).Nodup ∧
        (items.map Prod.fst).toFinset = w.gcodeFiles isGcode then
      some (w.answer .list (.list items))
    else none
  | .answerMetadata f result =>
    if .metadata f ∈ w.client.requests then some (w.answer (.metadata f) (.metadata f result))
    else none
  | .deliver =>
    match w.queue with
    | [] => none
    | m :: queue =>
      match w.client.receive m with
      | .ok client => some { w with client, queue }
      | .error _ => some { w with queue, raised := true }

def system (isGcode : P → Bool) : System (FileMirror P I) (MirrorEvent P I) where
  init w := ∃ S, w = { server := S }
  next := next isGcode

variable (isGcode : P → Bool)

/-- The changes that the client follows, and metadata only of files it still has. -/
def Careful (w : FileMirror P I) : MirrorEvent P I → Prop
  | .change (.createFile .gcodes path _) => isGcode path
  | .change (.moveFile .gcodes path _ sourceRoot source) =>
    isGcode path ∧ source ≠ path ∧ (sourceRoot = .other → source ∉ w.gcodeFiles isGcode)
  | .change (.moveFile .other _ _ .gcodes source) => isGcode source = false
  | .change (.deleteDir .gcodes content) => ∀ f ∈ content, isGcode f = false
  | .change (.moveDir root content sourceRoot source) =>
    (root = .gcodes → ∀ f ∈ content, isGcode f = false) ∧
      (sourceRoot = .gcodes → ∀ f ∈ source, isGcode f = false)
  | .deliver =>
    match w.queue with
    | .metadata f (some _) :: _ => f ∈ w.client.filelist
    | _ => True
  | _ => True

/-- What the claim asks of the two structures of the client. -/
structure Mirrors (w : FileMirror P I) : Prop where
  quiet : w.raised = false
  nodup : w.client.filelist.Nodup
  keys : ∀ f, (w.client.files f).isSome ↔ f ∈ w.client.filelist
  equal : w.queue = [] → w.client.requests = [] →
    w.client.filelist.toFinset = w.gcodeFiles isGcode

end FileMirror

/-! ## What a message does to the list -/

/-- The list after a change is announced. -/
def FileChange.seen (F : Finset P) : FileChange P I → Finset P
  | .createFile .gcodes path _ => insert path F
  | .deleteFile .gcodes path => F.erase path
  | .moveFile .gcodes path _ _ source => (insert path F).erase source
  | _ => F

/-- The list after a message. -/
def FileMessage.seen (F : Finset P) : FileMessage P I → Finset P
  | .changed c => c.seen F
  | .list items => (items.map Prod.fst).toFinset
  | .metadata _ _ => F

namespace KlippyFiles

variable {k : KlippyFiles P I}

@[simp] theorem requestMetadata_filelist (k : KlippyFiles P I) (f : P) :
    (k.requestMetadata f).filelist = k.filelist := by
  rw [requestMetadata]
  split <;> rfl

@[simp] theorem requestMetadata_files (k : KlippyFiles P I) (f : P) :
    (k.requestMetadata f).files = k.files := by
  rw [requestMetadata]
  split <;> rfl

theorem requests_requestMetadata (k : KlippyFiles P I) (f : P) :
    k.requests ⊆ (k.requestMetadata f).requests := by
  rw [requestMetadata]
  split
  · exact List.Subset.refl _
  · exact List.subset_append_left _ _

theorem Tidy.requestMetadata (h : Tidy k) (f : P) : Tidy (k.requestMetadata f) :=
  ⟨by simpa using h.nodup, by simpa using h.keys⟩

theorem Tidy.addFile (h : Tidy k) (f : P) (item : I) : Tidy (k.addFile f item) := by
  rw [KlippyFiles.addFile]
  split
  · exact h.requestMetadata f
  · next hf =>
    refine Tidy.requestMetadata ⟨List.nodup_append.mpr ⟨h.nodup, by simp, ?_⟩, fun g => ?_⟩ f
    · rintro a ha b hb rfl
      exact hf (List.mem_singleton.mp hb ▸ ha)
    · by_cases hg : g = f
      · simp [hg]
      · simp [h.keys g, hg]

theorem mem_addFile {f g : P} {item : I} :
    g ∈ (k.addFile f item).filelist ↔ g ∈ k.filelist ∨ g = f := by
  rw [addFile]
  split
  · next hf => simp only [requestMetadata_filelist, iff_self_or]; rintro rfl; exact hf
  · simp

theorem requests_addFile (k : KlippyFiles P I) (f : P) (item : I) :
    k.requests ⊆ (k.addFile f item).requests := by
  rw [addFile]
  split
  · exact requests_requestMetadata k f
  · exact requests_requestMetadata { k with
      filelist := k.filelist ++ [f], files := Function.update k.files f (some item) } f

theorem Tidy.removeFile (h : Tidy k) (f : P) : Tidy (k.removeFile f) := by
  rw [KlippyFiles.removeFile]
  split
  · exact h
  · refine ⟨h.nodup.erase f, fun g => ?_⟩
    by_cases hg : g = f
    · simp [hg, h.nodup.mem_erase_iff]
    · simp [Function.update_of_ne hg, h.keys g, List.mem_erase_of_ne hg]

theorem mem_removeFile (h : Tidy k) {f g : P} :
    g ∈ (k.removeFile f).filelist ↔ g ∈ k.filelist ∧ g ≠ f := by
  rw [removeFile]
  split
  · next hf => exact ⟨fun hg => ⟨hg, fun e => hf (e ▸ hg)⟩, And.left⟩
  · rw [h.nodup.mem_erase_iff, and_comm]

@[simp] theorem removeFile_requests (k : KlippyFiles P I) (f : P) :
    (k.removeFile f).requests = k.requests := by
  rw [removeFile]
  split <;> rfl

theorem foldl_removeFile (deleted : List P) (h : Tidy k) :
    Tidy (deleted.foldl removeFile k) ∧ (deleted.foldl removeFile k).requests = k.requests ∧
      ∀ g, g ∈ (deleted.foldl removeFile k).filelist ↔ g ∈ k.filelist ∧ g ∉ deleted := by
  induction deleted generalizing k with
  | nil => exact ⟨h, rfl, by simp⟩
  | cons f deleted ih =>
    obtain ⟨h1, h2, h3⟩ := ih (h.removeFile f)
    refine ⟨h1, h2.trans (removeFile_requests k f), fun g => (h3 g).trans ?_⟩
    rw [mem_removeFile h, List.mem_cons, not_or, and_assoc]

/-- The loop adds the items that are new and leaves of the others those it does not meet. -/
theorem listLoop_spec (items : List (P × I)) (hn : (items.map Prod.fst).Nodup) (h : Tidy k)
    {deleted : List P} (hd : deleted.Nodup) (hsub : deleted ⊆ k.filelist)
    (hmem : ∀ f ∈ items.map Prod.fst, f ∈ k.filelist → f ∈ deleted) :
    ∃ k' deleted', listLoop items k deleted = .ok (k', deleted') ∧ Tidy k' ∧
      k.requests ⊆ k'.requests ∧
      (∀ f, f ∈ k'.filelist ↔ f ∈ k.filelist ∨ f ∈ items.map Prod.fst) ∧
      ∀ f, f ∈ deleted' ↔ f ∈ deleted ∧ f ∉ items.map Prod.fst := by
  induction items generalizing k deleted with
  | nil => exact ⟨k, deleted, rfl, h, List.Subset.refl _, by simp, by simp⟩
  | cons p items ih =>
    obtain ⟨f, item⟩ := p
    rw [List.map_cons, List.nodup_cons] at hn
    rw [List.map_cons, List.forall_mem_cons] at hmem
    by_cases hf : f ∈ k.filelist
    · rw [listLoop, if_pos ((h.keys f).mpr hf), if_pos (hmem.1 hf)]
      obtain ⟨k', deleted', h1, h2, h3, h4, h5⟩ := ih hn.2 h (hd.erase f)
        (fun g hg => hsub (List.mem_of_mem_erase hg)) fun g hg hgk =>
          hd.mem_erase_iff.mpr ⟨fun e => hn.1 (e ▸ hg), hmem.2 g hg hgk⟩
      refine ⟨k', deleted', h1, h2, h3, fun g => (h4 g).trans ?_, fun g => (h5 g).trans ?_⟩
      · rw [List.map_cons, List.mem_cons, or_left_comm]
        exact ⟨.inr, fun hg => hg.elim (fun e => .inl (e ▸ hf)) id⟩
      · rw [hd.mem_erase_iff, List.map_cons, List.mem_cons, not_or]
        tauto
    · rw [listLoop, if_neg fun hs => hf ((h.keys f).mp hs)]
      obtain ⟨k', deleted', h1, h2, h3, h4, h5⟩ := ih hn.2 (h.addFile f item) hd
        (fun g hg => mem_addFile.mpr (.inl (hsub hg))) fun g hg hgk =>
          (mem_addFile.mp hgk).elim (hmem.2 g hg) fun e => absurd (e ▸ hg) hn.1
      refine ⟨k', deleted', h1, h2, List.Subset.trans (requests_addFile k f item) h3,
        fun g => (h4 g).trans ?_, fun g => (h5 g).trans ?_⟩
      · rw [mem_addFile, List.map_cons, List.mem_cons, or_assoc]
      · rw [List.map_cons, List.mem_cons, not_or]
        exact ⟨fun hg => ⟨hg.1, fun e => hf ((show g = f from e) ▸ hsub hg.1), hg.2⟩, fun hg => ⟨hg.1, hg.2.2⟩⟩

/-- A message is received without an exception, unless it is metadata of a file that is
gone, and does to the list what it says. -/
theorem Tidy.receive_spec (h : Tidy k) {m : FileMessage P I}
    (hlist : ∀ items, m = .list items → (items.map Prod.fst).Nodup)
    (hmeta : ∀ f result, m = .metadata f (some result) → f ∈ k.filelist) :
    ∃ k', k.receive m = .ok k' ∧ Tidy k' ∧ k.requests ⊆ k'.requests ∧
      k'.filelist.toFinset = m.seen k.filelist.toFinset := by
  cases m with
  | changed c =>
    refine ⟨_, rfl, ?_⟩
    have hrefl := List.Subset.refl k.requests
    cases c with
    | createFile root f item =>
      cases root with
      | gcodes =>
        refine ⟨h.addFile f item, requests_addFile k f item, ?_⟩
        ext g
        simp [processUpdate, mem_addFile, FileMessage.seen, FileChange.seen, or_comm]
      | other => exact ⟨h, hrefl, rfl⟩
    | modifyFile root f =>
      cases root with
      | gcodes =>
        exact ⟨h.requestMetadata f, requests_requestMetadata k f, by
          simp [processUpdate, FileMessage.seen, FileChange.seen]⟩
      | other => exact ⟨h, hrefl, rfl⟩
    | deleteFile root f =>
      cases root with
      | gcodes =>
        refine ⟨h.removeFile f, by simp [processUpdate], ?_⟩
        ext g
        simp [processUpdate, mem_removeFile h, FileMessage.seen, FileChange.seen, and_comm]
      | other => exact ⟨h, hrefl, rfl⟩
    | moveFile root f item sourceRoot source =>
      cases root with
      | gcodes =>
        have h1 := h.addFile f item
        refine ⟨h1.removeFile source, by simpa [processUpdate] using requests_addFile k f item, ?_⟩
        ext g
        simp [processUpdate, mem_removeFile h1, mem_addFile, FileMessage.seen, FileChange.seen,
          and_comm, or_comm]
      | other => exact ⟨h, hrefl, rfl⟩
    | createDir root content =>
      cases root with
      | gcodes => exact ⟨⟨h.nodup, h.keys⟩, List.subset_append_left _ _, rfl⟩
      | other => exact ⟨h, hrefl, rfl⟩
    | deleteDir root content => exact ⟨h, hrefl, rfl⟩
    | moveDir root content sourceRoot source => exact ⟨h, hrefl, rfl⟩
  | list items =>
    obtain ⟨k', deleted', h1, h2, h3, h4, h5⟩ := listLoop_spec items (hlist items rfl) h h.nodup
      (List.Subset.refl _) fun _ _ hf => hf
    obtain ⟨h6, h7, h8⟩ := foldl_removeFile deleted' h2
    refine ⟨_, by rw [receive, h1]; rfl, h6, by rwa [h7], ?_⟩
    ext g
    rw [List.mem_toFinset, h8, h4, h5, FileMessage.seen, List.mem_toFinset]
    tauto
  | metadata f result =>
    cases result with
    | none => exact ⟨k, rfl, h, List.Subset.refl _, rfl⟩
    | some result =>
      have hf := hmeta f result rfl
      obtain ⟨info, hi⟩ := Option.isSome_iff_exists.mp ((h.keys f).mpr hf)
      refine ⟨{ k with files := Function.update k.files f (some (result info)) },
        by rw [receive, hi], ⟨h.nodup, fun g => ?_⟩, List.Subset.refl _, rfl⟩
      by_cases hg : g = f
      · simp [hg, hf]
      · simp [Function.update_of_ne hg, h.keys g]

end KlippyFiles

/-! ## Runs -/

namespace FileMirror

variable {isGcode : P → Bool} {w : FileMirror P I}

/-- The list of the server is asked for, or will be. -/
def Awaits (w : FileMirror P I) : Prop :=
  .list ∈ w.client.requests ∨ ∃ content, .changed (.createDir .gcodes content) ∈ w.queue

/-- The messages on their way lead to the files of the server, or its list is to come. -/
structure Inv (isGcode : P → Bool) (w : FileMirror P I) : Prop where
  quiet : w.raised = false
  tidy : w.client.Tidy
  lists : ∀ items, .list items ∈ w.queue → (items.map Prod.fst).Nodup
  led : Awaits w ∨
    w.queue.foldl FileMessage.seen w.client.filelist.toFinset = w.gcodeFiles isGcode

theorem filter_sdiff_of_forall {S C : Finset P} (hC : ∀ f ∈ C, isGcode f = false) :
    (S \ C).filter (isGcode ·) = S.filter (isGcode ·) := by
  ext g
  simp only [Finset.mem_filter, Finset.mem_sdiff]
  exact ⟨fun h => ⟨h.1.1, h.2⟩, fun h => ⟨⟨h.1, fun hg => by simp [hC g hg] at h⟩, h.2⟩⟩

theorem filter_union_of_forall {S C : Finset P} (hC : ∀ f ∈ C, isGcode f = false) :
    (S ∪ C).filter (isGcode ·) = S.filter (isGcode ·) := by
  have hempty : C.filter (isGcode ·) = ∅ :=
    Finset.filter_eq_empty_iff.mpr fun f hf => by simp [hC f hf]
  rw [Finset.filter_union, hempty, Finset.union_empty]

/-- The client sees what a change does to the gcode files. -/
theorem seen_of_careful {c : FileChange P I} (hc : Careful isGcode w (.change c))
    (hdir : ∀ content, c ≠ .createDir .gcodes content) :
    c.seen (w.gcodeFiles isGcode) = (c.apply w.server).filter (isGcode ·) := by
  cases c with
  | createFile root f item =>
    cases root with
    | gcodes =>
      have hf : isGcode f = true := hc
      rw [FileChange.apply, Finset.filter_insert, if_pos hf]
      rfl
    | other => rfl
  | modifyFile root f => rfl
  | deleteFile root f =>
    cases root with
    | gcodes =>
      rw [FileChange.apply, Finset.filter_erase]
      rfl
    | other => rfl
  | moveFile root f item sourceRoot source =>
    cases root with
    | gcodes =>
      obtain ⟨hf, hne, hsource⟩ := hc
      cases sourceRoot with
      | gcodes =>
        rw [FileChange.apply, if_pos rfl, if_pos rfl, Finset.filter_insert, if_pos hf,
          Finset.filter_erase, ← Finset.erase_insert_of_ne (Ne.symm hne)]
        rfl
      | other =>
        rw [FileChange.apply, if_pos rfl, if_neg (by decide), Finset.filter_insert, if_pos hf]
        exact Finset.erase_eq_of_notMem fun hs =>
          (Finset.mem_insert.mp hs).elim hne (hsource rfl)
    | other =>
      cases sourceRoot with
      | gcodes =>
        rw [FileChange.apply, if_neg (by decide), if_pos rfl, Finset.filter_erase,
          Finset.erase_eq_of_notMem fun hs => ?_]
        · rfl
        · exact Bool.false_ne_true (hc.symm.trans (Finset.mem_filter.mp hs).2)
      | other => rfl
  | createDir root content =>
    cases root with
    | gcodes => exact absurd rfl (hdir content)
    | other => rfl
  | deleteDir root content =>
    cases root with
    | gcodes => exact (filter_sdiff_of_forall hc).symm
    | other => rfl
  | moveDir root content sourceRoot source =>
    obtain ⟨h1, h2⟩ := hc
    have hsource : (if sourceRoot = .gcodes then w.server \ source else w.server).filter
        (isGcode ·) = w.gcodeFiles isGcode := by
      split
      · next h => exact filter_sdiff_of_forall (h2 h)
      · rfl
    rw [FileChange.apply]
    split
    · next h => rw [filter_union_of_forall (h1 h), hsource]; rfl
    · rw [hsource]; rfl

theorem Inv.change (h : Inv isGcode w) {c : FileChange P I}
    (hc : Careful isGcode w (.change c)) :
    Inv isGcode { w with server := c.apply w.server, queue := w.queue ++ [.changed c] } := by
  refine ⟨h.quiet, h.tidy, fun items hi => h.lists items (by simpa using hi), ?_⟩
  by_cases hdir : ∃ content, c = .createDir .gcodes content
  · obtain ⟨content, rfl⟩ := hdir
    exact .inl (.inr ⟨content, by simp⟩)
  · rcases h.led with (hl | ⟨content, hl⟩) | hl
    · exact .inl (.inl hl)
    · exact .inl (.inr ⟨content, List.mem_append_left _ hl⟩)
    · refine .inr ?_
      rw [List.foldl_append, hl]
      exact seen_of_careful hc fun content e => hdir ⟨content, e⟩

theorem Inv.answer (h : Inv isGcode w) {r : FilesRequest P} {m : FileMessage P I}
    (hitems : ∀ items, m = .list items → (items.map Prod.fst).Nodup)
    (hm : (r ≠ .list ∧ ∀ F, m.seen F = F) ∨ ∀ F, m.seen F = w.gcodeFiles isGcode) :
    Inv isGcode (w.answer r m) := by
  refine ⟨h.quiet, ⟨h.tidy.nodup, h.tidy.keys⟩, fun items hi => ?_, ?_⟩
  · rcases List.mem_append.mp hi with hi | hi
    · exact h.lists items hi
    · exact hitems items (List.mem_singleton.mp hi).symm
  · have hfold : ∀ F, (w.answer r m).queue.foldl FileMessage.seen F =
        m.seen (w.queue.foldl FileMessage.seen F) := fun F => by
      rw [FileMirror.answer, List.foldl_append]
      rfl
    rcases hm with ⟨hr, hm⟩ | hm
    · rcases h.led with (hl | ⟨content, hl⟩) | hl
      · exact .inl (.inl ((List.mem_erase_of_ne (Ne.symm hr)).mpr hl))
      · exact .inl (.inr ⟨content, List.mem_append_left _ hl⟩)
      · exact .inr ((hfold _).trans ((hm _).trans hl))
    · exact .inr ((hfold _).trans (hm _))

/-- A step of the client that keeps its list and makes more requests. -/
theorem Inv.client (h : Inv isGcode w) {k : KlippyFiles P I} (hk : k.Tidy)
    (hlist : k.filelist = w.client.filelist) (hr : w.client.requests ⊆ k.requests) :
    Inv isGcode { w with client := k } := by
  refine ⟨h.quiet, hk, h.lists, ?_⟩
  rcases h.led with (hl | hl) | hl
  · exact .inl (.inl (hr hl))
  · exact .inl (.inr hl)
  · exact .inr (by rw [hlist]; exact hl)

theorem Inv.deliver (h : Inv isGcode w) (hc : Careful isGcode w .deliver) {m : FileMessage P I}
    {queue : List (FileMessage P I)} (hq : w.queue = m :: queue) :
    ∃ k, w.client.receive m = .ok k ∧ Inv isGcode { w with client := k, queue } := by
  have hm : m ∈ w.queue := hq ▸ List.mem_cons_self
  obtain ⟨k, h1, h2, h3, h4⟩ := h.tidy.receive_spec (m := m)
    (fun items e => h.lists items (e ▸ hm)) fun f result e => by
      simpa only [Careful, hq, e] using hc
  refine ⟨k, h1, h.quiet, h2, fun items hi => h.lists items (hq ▸ List.mem_cons_of_mem m hi), ?_⟩
  rcases h.led with (hl | ⟨content, hl⟩) | hl
  · exact .inl (.inl (h3 hl))
  · rw [hq, List.mem_cons] at hl
    rcases hl with rfl | hl
    · cases h1
      exact .inl (.inl (by simp [KlippyFiles.processUpdate, KlippyFiles.refreshFiles]))
    · exact .inl (.inr ⟨content, hl⟩)
  · rw [hq, List.foldl_cons, ← h4] at hl
    exact .inr hl

theorem Inv.next (h : Inv isGcode w) {a : MirrorEvent P I} {t : FileMirror P I}
    (hc : Careful isGcode w a) (hn : w.next isGcode a = some t) : Inv isGcode t := by
  cases a with
  | change c =>
    cases hn
    exact h.change hc
  | refreshFiles =>
    cases hn
    exact h.client ⟨h.tidy.nodup, h.tidy.keys⟩ rfl (List.subset_append_left _ _)
  | requestMetadata f =>
    cases hn
    exact h.client (h.tidy.requestMetadata f) (by simp) (KlippyFiles.requests_requestMetadata _ f)
  | answerList items =>
    rw [FileMirror.next, Option.ite_none_right_eq_some] at hn
    obtain ⟨⟨-, h1, h2⟩, ⟨⟩⟩ := hn
    exact h.answer (by rintro _ ⟨⟩; exact h1) (.inr fun _ => h2)
  | answerMetadata f result =>
    rw [FileMirror.next, Option.ite_none_right_eq_some] at hn
    obtain ⟨-, ⟨⟩⟩ := hn
    exact h.answer nofun (.inl ⟨nofun, fun _ => rfl⟩)
  | deliver =>
    rw [FileMirror.next] at hn
    cases hq : w.queue with
    | nil => simp [hq] at hn
    | cons m queue =>
      obtain ⟨k, h1, h2⟩ := h.deliver hc hq
      simp only [hq, h1, Option.some.injEq] at hn
      exact hn ▸ h2

/-- In careful runs the list mirrors the server. -/
theorem mirrors_of_careful (h : (system isGcode).ReachableBy (Careful isGcode) w) :
    Mirrors isGcode w := by
  have hinv : Inv isGcode w := by
    refine h.invariant (I := Inv isGcode) ?_ fun _ _ _ hs hc hn => hs.next hc hn
    rintro _ ⟨S, rfl⟩
    exact ⟨rfl, ⟨by simp, by simp⟩, by simp, .inl (.inl (by simp))⟩
  refine ⟨hinv.quiet, hinv.tidy.nodup, hinv.tidy.keys, fun hq hr => ?_⟩
  rcases hinv.led with (hl | ⟨content, hl⟩) | hl
  · rw [hr] at hl
    cases hl
  · rw [hq] at hl
    cases hl
  · rwa [hq] at hl

/-! ## Single runs -/

instance (w : FileMirror P I) (a : MirrorEvent P I) : Decidable (Careful isGcode w a) := by
  unfold Careful
  split <;> try infer_instance
  split <;> infer_instance

/-- Files with the extension `.gcode`. -/
def hasGcodeExt (f : String) : Bool :=
  ".gcode".toList.isSuffixOf f.toList

abbrev Run := List (MirrorEvent String Unit)

/-- The mirror after a run from a server with these files. -/
def afterRun (S : Finset String) (run : Run) : FileMirror String Unit :=
  ((system hasGcodeExt).run { server := S } run).getD {}

theorem run_afterRun {S : Finset String} {run : Run}
    (h : ((system hasGcodeExt).run { server := S } run).isSome = true) :
    (system hasGcodeExt).run { server := S } run = some (afterRun S run) := by
  obtain ⟨w, hw⟩ := Option.isSome_iff_exists.1 h
  rw [afterRun, hw, Option.getD_some]

/-- The list and the metadata of one file arrive. -/
def listed (f : String) : Run :=
  [.answerList [(f, ())], .deliver, .answerMetadata f (some id), .deliver]

/-- A directory is created with a file in it. -/
theorem mirrors_of_careful_createDir :
    Mirrors hasGcodeExt (afterRun {"x.gcode"} (listed "x.gcode" ++
      [.change (.createDir .gcodes {"d/y.gcode"}), .deliver,
        .answerList [("d/y.gcode", ()), ("x.gcode", ())], .deliver])) :=
  mirrors_of_careful (System.ReachableBy.run (.init ⟨_, rfl⟩) (by decide +kernel)
    (run_afterRun (by decide +kernel)))

/-- A directory is moved with a file in it. -/
def movedDir : FileMirror String Unit :=
  afterRun {"a/x.gcode"} (listed "a/x.gcode" ++
    [.change (.moveDir .gcodes {"b/x.gcode"} .gcodes {"a/x.gcode"}), .deliver])

/-- A file is moved in from another root, where it had the same path. -/
def movedIn : FileMirror String Unit :=
  afterRun ∅ [.answerList [], .deliver,
    .change (.moveFile .gcodes "x.gcode" () .other "x.gcode"), .deliver,
    .answerMetadata "x.gcode" (some id)]

/-- A file is deleted while its metadata is on its way. -/
def deletedFile : FileMirror String Unit :=
  afterRun {"x.gcode"} [.answerList [("x.gcode", ())], .deliver,
    .change (.deleteFile .gcodes "x.gcode"), .answerMetadata "x.gcode" (some id),
    .deliver, .deliver]

/-- The list keeps the old path, loses the file, and the callback raises. -/
theorem not_mirrors :
    (movedDir.queue.isEmpty ∧ movedDir.client.requests = [] ∧
      movedDir.client.filelist = ["a/x.gcode"] ∧
      movedDir.gcodeFiles hasGcodeExt = {"b/x.gcode"}) ∧
    (movedIn.client.requests = [] ∧ movedIn.client.filelist = [] ∧
      movedIn.gcodeFiles hasGcodeExt = {"x.gcode"}) ∧
    deletedFile.raised = true ∧
    (system hasGcodeExt).Reachable movedDir ∧ ¬Mirrors hasGcodeExt movedDir := by
  have h : movedDir.queue.isEmpty ∧ movedDir.client.requests = [] ∧
      movedDir.client.filelist = ["a/x.gcode"] ∧
      movedDir.gcodeFiles hasGcodeExt = {"b/x.gcode"} := by decide +kernel
  refine ⟨h, by decide +kernel, by decide +kernel,
    System.Reachable.run (.init ⟨_, rfl⟩) (run_afterRun (by decide +kernel)), fun hm => ?_⟩
  have := hm.equal (List.isEmpty_iff.mp h.1) h.2.1
  rw [h.2.2.1, h.2.2.2] at this
  revert this
  decide +kernel

end FileMirror

end Thinker
