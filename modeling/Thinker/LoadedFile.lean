import Thinker.FileManager
import Thinker.FileTree
import Thinker.Raises
import Thinker.Transition

/-!
# The file that is printed

The requests of `file_manager.py` that change files, while Klippy prints from one of them. Each
handler decides for itself on which paths it runs `_handle_operation_check`. The check finds the
file, and the directories that it lies beneath, as far as these are in the directory of gcodes; it
takes a directory for one that holds the file if its path begins the path of the file.

Not checked are the destination and the temporary file of an archive, the temporary file of an
upload, and an upload whose extension is not one of gcode files; and a check refuses what would not
touch the file. In a run without such requests the file stays, and what is refused would have
touched it (`PrintSession.protected_of_reachable`).

Paths are lexical, links are not followed. The files of an archive and the thumbnails that are
extracted of an upload are not modelled.
-/

set_option linter.unusedSectionVars false

namespace Thinker

open FileManager PosixPath AbsPath

/-- The last job stats, and whether Klippy is ready. -/
structure JobStats where
  filename : Text
  state : Text
  isReady : Bool

/-- Why a request is not done. -/
inductive RequestError where
  | path (e : PathError)
  | readOnly
  | reserved
  /-- Something is not there, or not what it has to be. -/
  | invalid
  /-- `File currently in use`. -/
  | inUse
  /-- `File is loaded, upload not permitted`. -/
  | loaded
  /-- An operation of the file system raises. -/
  | failed

/-- What the handlers read and requests do not change. -/
structure FileServer where
  filePaths : Text → Option RootDir
  cwd : Text
  fullAccessRoots : Text → Bool
  /-- Whether a path is in a folder of git, or in a reserved one that does not permit to write to
  it, or to read it. -/
  reserved : AbsPath → (needWrite : Bool) → Bool
  /-- `tempfile.gettempdir()`. -/
  tempDir : AbsPath
  stats : JobStats

/-- Requests. -/
inductive FileRequest where
  /-- The form of an upload, whose file is written to the temporary file. -/
  | upload (args : UploadArgs)
  | move (source dest : Text)
  | copy (source dest : Text)
  | zip (dest : Text) (items : List Text)
  | deleteFile (path : Text)
  | deleteDirectory (path : Text) (force : Bool)

/-- A check of a path. -/
abbrev OperationCheck := FileTree → AbsPath → Except RequestError Bool

namespace FileServer

variable (c : FileServer) (check : OperationCheck) (t : FileTree)

/-- What the file manager asks the file system. -/
def disk : Disk where
  filePaths := c.filePaths
  cwd := c.cwd
  isfile path := t.isfile (.ofText path)
  isdir path := t.isdir (.ofText path)
  listDirectory _ _ := .error .notListed

/-- `_handle_operation_check` : whether nothing is printed. -/
def handleOperationCheck : OperationCheck := fun t requestedPath =>
  if getRelativePath (c.disk t) "gcodes".toList requestedPath.text = [] then .ok true
  else
    let gcPath := (c.filePaths "gcodes".toList).elim [] fun dir => dir.text
    let fullPath := join gcPath c.stats.filename
    let isPrinting := c.stats.isReady &&
      (c.stats.state = "printing".toList || c.stats.state = "paused".toList)
    if c.stats.filename ≠ [] ∧ isPrinting = true ∧
        (if t.isdir requestedPath then requestedPath.text <+: fullPath
        else fullPath = requestedPath.text) then .error .inUse
    else .ok !isPrinting

/-- `_convert_request_path`. -/
def requestPath (path : Text) : Except RequestError (Text × AbsPath) :=
  match convertRequestPath (c.disk t) path with
  | .error e => .error (.path e)
  | .ok (root, diskPath) => .ok (root, .ofText diskPath)

/-- The source and the destination of a move or a copy, and whether the root of the source can be
written to. -/
def moveArgs (source dest : Text) : Except RequestError (Bool × AbsPath × AbsPath) := do
  let (sourceRoot, sourcePath) ← c.requestPath t source
  let (destRoot, destPath) ← c.requestPath t dest
  if c.fullAccessRoots destRoot = false then .error .readOnly
  else if c.reserved sourcePath false || c.reserved destPath true then .error .reserved
  else if t.has sourcePath = false then .error .invalid
  else .ok (c.fullAccessRoots sourceRoot, sourcePath, destPath)

/-- The end of `_handle_file_move_copy` for a move. -/
def moveFile (writable : Bool) (source dest : AbsPath) : Except RequestError FileTree := do
  let _ ← (if t.has dest then check t dest else .ok true)
  let _ ← (if writable then .ok () else .error .readOnly)
  let _ ← check t source
  (t.move source dest).elim (.error .failed) .ok

/-- The end of `_handle_file_move_copy` for a copy. -/
def copyFile (source dest : AbsPath) : Except RequestError FileTree := do
  let _ ← (if t.has dest then check t dest else .ok true)
  (if t.isdir source then t.copytree source dest else t.copy2 source dest).elim (.error .failed) .ok

/-- The path of `delete_file`. -/
def deleteFileArgs (path : Text) : Except RequestError AbsPath := do
  let (root, fullPath) ← c.requestPath t path
  if c.reserved fullPath true then .error .reserved
  else if c.fullAccessRoots root = false then .error .readOnly
  else if t.isfile fullPath = false then .error .invalid
  else .ok fullPath

/-- The end of `delete_file`. -/
def deleteFile (fullPath : AbsPath) : Except RequestError FileTree := do
  let _ ← check t fullPath
  (t.remove fullPath).elim (.error .failed) .ok

/-- The path of `_handle_directory_request` with the method `DELETE`. -/
def deleteDirectoryArgs (directory : Text) : Except RequestError AbsPath := do
  let (root, dirPath) ← c.requestPath t directory
  if c.reserved dirPath true then .error .reserved
  else if c.fullAccessRoots root = false then .error .readOnly
  else if stripSlash directory = root then .error .invalid
  else if t.isdir dirPath = false then .error .invalid
  else .ok dirPath

/-- The end of `_handle_directory_request` with the method `DELETE`. -/
def deleteDirectory (dirPath : AbsPath) (force : Bool) : Except RequestError FileTree :=
  if force then do
    let _ ← check t dirPath
    .ok (t.rmtree dirPath)
  else (t.rmdir dirPath).elim (.error .failed) .ok

/-- The destination of `_handle_zip_files`. -/
def zipArgs (dest : Text) (items : List Text) : Except RequestError AbsPath := do
  let (destRoot, destPath) ← c.requestPath t dest
  if c.fullAccessRoots destRoot = false then .error .readOnly
  else if c.reserved destPath true then .error .reserved
  else if t.isdir destPath || !t.has destPath.parent then .error .invalid
  else if items = [] then .error .invalid
  else .ok destPath

/-- The archive of `_zip_files`, before it is moved. -/
def tempDest (destPath : AbsPath) : AbsPath :=
  c.tempDir.walk (basename destPath.text)

/-- Whether an item of `_zip_files` can be read. -/
def zipItem (item : Text) : Except RequestError Unit := do
  let (_, itemPath) ← c.requestPath t item
  if c.reserved itemPath false then .error .reserved
  else if t.has itemPath = false then .error .invalid
  else .ok ()

/-- `_zip_files` : the archive is made in the directory of temporary files, and moved. An item that
cannot be read leaves it there. -/
def zipFiles (destPath : AbsPath) (items : List Text) : FileTree × Option RequestError :=
  match t.write (c.tempDest destPath) with
  | none => (t, some .failed)
  | some t' =>
    match items.forM (c.zipItem t') with
    | .error e => (t', some e)
    | .ok _ =>
      match t'.move (c.tempDest destPath) destPath with
      | none => (t', some .failed)
      | some t'' => (t'', none)

/-- `finalize_upload` up to the finish. -/
def uploadArgs (args : UploadArgs) : Except RequestError UploadInfo :=
  match parseUploadArgs (c.disk t) args with
  | .error e => .error (.path e)
  | .ok info =>
    if c.reserved (.ofText info.destPath) true then .error .reserved
    else if c.fullAccessRoots info.root = false then .error .readOnly
    else .ok info

/-- Whether an upload is one of gcodes. -/
def isGcode (info : UploadInfo) : Bool :=
  info.root = "gcodes".toList && info.ext ∈ validGcodeExts

/-- The directories that `_process_uploaded_file` makes sure of. -/
def uploadDirs (info : UploadInfo) : List AbsPath :=
  if info.dirPath = [] then []
  else
    let curPath := (c.filePaths info.root).elim [] fun dir => dir.text
    (((stripSlash info.dirPath).splitOn '/').scanl join curPath).tail.map .ofText

/-- The loop over the directories. -/
def makeDirs : FileTree → List AbsPath → FileTree × Bool
  | t, [] => (t, true)
  | t, dir :: dirs =>
    if t.has dir then makeDirs t dirs
    else
      match t.mkdir dir with
      | none => (t, false)
      | some t' => makeDirs t' dirs

/-- `_process_uploaded_file` and the metadata script, which unpacks an archive and removes it. -/
def processUploadedFile (info : UploadInfo) : FileTree × Option RequestError :=
  let tmpPath := AbsPath.ofText info.tmpFilePath
  let destPath := AbsPath.ofText info.destPath
  match makeDirs t (c.uploadDirs info) with
  | (t, false) => (t, some .failed)
  | (t, true) =>
    if info.unzipUfp then
      (((t.write destPath).bind fun t => t.remove tmpPath).getD t, none)
    else
      match t.move tmpPath destPath with
      | none => (t, some .failed)
      | some t => (t, none)

/-- `_finish_gcode_upload` and `_finish_standard_upload`. -/
def finishUpload (info : UploadInfo) : FileTree × Option RequestError :=
  if isGcode info then
    match check t (.ofText info.destPath) with
    | .error .inUse => (t, some .loaded)
    | _ => c.processUploadedFile t info
  else c.processUploadedFile t info

/-- `finalize_upload`. The temporary file of an upload that is not accepted is removed. -/
def finalizeUpload (args : UploadArgs) : FileTree × Option RequestError :=
  let out :=
    match c.uploadArgs t args with
    | .error e => (t, some e)
    | .ok info => c.finishUpload check t info
  match out with
  | (t, none) => (t, none)
  | (t, some e) => ((t.remove (.ofText args.tmpFilePath)).getD t, some e)

/-- An upload: its file is written, and finalized. -/
def upload (args : UploadArgs) : FileTree × Option RequestError :=
  match t.write (.ofText args.tmpFilePath) with
  | none => (t, some .failed)
  | some t => c.finalizeUpload check t args

/-- The tree after a request that may raise. -/
def settle : Except RequestError FileTree → FileTree × Option RequestError
  | .error e => (t, some e)
  | .ok t' => (t', none)

/-- A request: the names after it, and its error. -/
def handle : FileRequest → FileTree × Option RequestError
  | .upload args => c.upload check t args
  | .move source dest => settle t do
      let (writable, sourcePath, destPath) ← c.moveArgs t source dest
      moveFile check t writable sourcePath destPath
  | .copy source dest => settle t do
      let (_, sourcePath, destPath) ← c.moveArgs t source dest
      copyFile check t sourcePath destPath
  | .zip dest items =>
    match c.zipArgs t dest items with
    | .error e => (t, some e)
    | .ok destPath => c.zipFiles t destPath items
  | .deleteFile path => settle t do
      let fullPath ← c.deleteFileArgs t path
      deleteFile check t fullPath
  | .deleteDirectory directory force => settle t do
      let dirPath ← c.deleteDirectoryArgs t directory
      deleteDirectory check t dirPath force

end FileServer

/-- A file server while Klippy prints from a file in the directory of gcodes, or has paused. -/
structure Printing extends FileServer where
  gcodes : RootDir
  filePaths_gcodes : filePaths "gcodes".toList = some gcodes
  /-- The file. -/
  file : AbsPath
  text_file : file.text = join gcodes.text stats.filename
  beneath : gcodes.Beneath file
  ne : file ≠ gcodes.toAbsPath
  filename_ne : stats.filename ≠ []
  isReady : stats.isReady = true
  state : stats.state = "printing".toList ∨ stats.state = "paused".toList
  /-- The names before the first request. -/
  tree : FileTree
  hasFile : tree.HasFile file

namespace Printing

variable (c : Printing) (t : FileTree)

/-- The check refuses a path. -/
def Hits (p : AbsPath) : Prop :=
  c.gcodes.text <+: p.text ∧
    if t.isdir p = true then p.text <+: c.file.text else p = c.file

/-- A request is refused by the check, and without the check it succeeds and removes, renames or
overwrites the file or a directory that the file lies beneath. -/
def Refusable (r : FileRequest) : Prop :=
  (c.handle (fun _ _ => .ok false) t r).2 = none ∧
    ¬t.Untouched (c.handle (fun _ _ => .ok false) t r).1 c.file

/-- A move that touches the file. -/
def MoveTouches (source dest : AbsPath) : Prop :=
  t.Movable source dest ∧ source ≠ t.into source dest ∧ (source.Beneath c.file ∨ dest = c.file)

/-- A copy that touches the file. -/
def CopyTouches (source dest : AbsPath) : Prop :=
  t.isdir source = false ∧ source ≠ c.file ∧ t.into source dest = c.file

/-- A request is none of those for which the check is missing or wrong:
* a move that a check refuses would succeed and touch the file, and the source of a move that
  succeeds is no directory above the one of gcodes;
* a copy that the check refuses would touch the file;
* an archive does not go to the file, nor is its temporary file the file;
* the temporary file of an upload is not the file, and an upload to the file is one of gcodes;
* a directory that is deleted with what is in it is not above the one of gcodes, and if it is in
  that one, it is not next to the file. -/
def Clear : FileRequest → Prop
  | .move source dest => ∀ writable sourcePath destPath,
      c.moveArgs t source dest = .ok (writable, sourcePath, destPath) →
        ((t.has destPath = true ∧ c.Hits t destPath ∨ writable = true ∧ c.Hits t sourcePath) →
          writable = true ∧ c.MoveTouches t sourcePath destPath) ∧
        (writable = true → t.Movable sourcePath destPath → sourcePath.Beneath c.file →
          c.gcodes.Beneath sourcePath)
  | .copy source dest => ∀ writable sourcePath destPath,
      c.moveArgs t source dest = .ok (writable, sourcePath, destPath) →
        t.has destPath = true → c.Hits t destPath → c.CopyTouches t sourcePath destPath
  | .zip dest items => ∀ destPath, c.zipArgs t dest items = .ok destPath →
      c.tempDest destPath ≠ c.file ∧
        ∀ t', t.write (c.tempDest destPath) = some t' → items.forM (c.zipItem t') = .ok () →
          destPath ≠ c.file
  | .upload args => .ofText args.tmpFilePath ≠ c.file ∧
      ∀ t' info, t.write (.ofText args.tmpFilePath) = some t' → c.uploadArgs t' args = .ok info →
        (FileServer.makeDirs t' (c.uploadDirs info)).2 = true →
          .ofText info.destPath = c.file → FileServer.isGcode info = true
  | .deleteDirectory directory true => ∀ dirPath, c.deleteDirectoryArgs t directory = .ok dirPath →
      (dirPath.Beneath c.file → c.gcodes.Beneath dirPath) ∧
        (c.gcodes.text <+: dirPath.text → ¬dirPath.NextTo c.file)
  | .deleteDirectory _ false => True
  | .deleteFile _ => True

end Printing

/-- The names, and the requests that were refused with `File currently in use`, with the names at
that time. -/
structure PrintSession where
  tree : FileTree
  refused : List (FileTree × FileRequest)

namespace PrintSession

variable (c : Printing) (s : PrintSession)

/-- The session after a request. -/
def next (r : FileRequest) : PrintSession :=
  let out := c.handle c.handleOperationCheck s.tree r
  match out.2 with
  | some .inUse => ⟨out.1, (s.tree, r) :: s.refused⟩
  | _ => ⟨out.1, s.refused⟩

/-- Requests one after the other. -/
def system : System PrintSession FileRequest where
  init s := s = ⟨c.tree, []⟩
  next s r := some (s.next c r)

/-- The file is as it was, and each request that was refused would have removed, renamed or
overwritten it or a directory that it lies beneath. -/
structure Protected : Prop where
  untouched : c.tree.Untouched s.tree c.file
  refused : ∀ x ∈ s.refused, c.Refusable x.1 x.2

end PrintSession

/-! ## The check -/

namespace Printing

variable {c : Printing} {t t' : FileTree} {p : AbsPath}

/-- What the check refuses. -/
theorem check_cases (c : Printing) (t : FileTree) (p : AbsPath) :
    (c.Hits t p ∧ c.handleOperationCheck t p = .error .inUse) ∨
      (¬c.Hits t p ∧ ∃ idle, c.handleOperationCheck t p = .ok idle) := by
  have hrel : getRelativePath (c.disk t) "gcodes".toList p.text = [] ↔
      ¬c.gcodes.text <+: p.text := by
    unfold getRelativePath FileServer.disk
    simp only [c.filePaths_gcodes, ite_eq_right_iff, relpath_ne_nil, imp_false]
  have hprinting : (c.stats.isReady &&
      (c.stats.state = "printing".toList || c.stats.state = "paused".toList)) = true := by
    rw [c.isReady, Bool.true_and, Bool.or_eq_true, decide_eq_true_eq, decide_eq_true_eq]
    exact c.state
  unfold FileServer.handleOperationCheck Hits
  simp only [hrel, c.filePaths_gcodes, Option.elim_some, ← c.text_file, hprinting, ne_eq,
    c.filename_ne, not_false_eq_true, true_and]
  by_cases hgcodes : c.gcodes.text <+: p.text
  · simp only [hgcodes, not_true_eq_false, if_false, true_and]
    by_cases hdir : t.isdir p = true
    · by_cases hpre : p.text <+: c.file.text <;> simp [hdir, hpre]
    · have heq : c.file.text = p.text ↔ p = c.file := by
        constructor
        · intro h
          rw [← AbsPath.ofText_text p, ← AbsPath.ofText_text c.file, h]
        · rintro rfl
          rfl
      by_cases hp : p = c.file <;> simp [hdir, heq, hp]
  · simp [hgcodes]

/-- The check refuses the file, and a directory in the one of gcodes that the file lies beneath. -/
theorem hits_of_beneath (h : t.HasFile c.file) (hp : p.Beneath c.file)
    (hgcodes : c.gcodes.Beneath p) : c.Hits t p := by
  have hne : p.comps ≠ [] := by
    intro hnil
    have := hgcodes.2
    rw [hnil, List.prefix_nil] at this
    exact c.gcodes.comps_ne_nil this
  refine ⟨(prefix_text_iff c.gcodes.comps_ne_nil).2 (.inl hgcodes), ?_⟩
  by_cases hfile : p = c.file
  · subst hfile
    rw [if_neg (by rw [FileTree.isdir_eq_false_of_isfile h.isfile]; exact Bool.false_ne_true)]
  · rw [if_pos (h.isdir p hp hfile)]
    exact (prefix_text_iff hne).2 (.inl hp)

/-- The check refuses a destination at which a source takes the place of the file. -/
theorem hits_of_into (h : t.HasFile c.file) {source dest : AbsPath}
    (hinto : t.into source dest = c.file) : t.has dest = true ∧ c.Hits t dest := by
  have hdest : dest.Beneath c.file := hinto ▸ FileTree.beneath_into t source dest
  have hin : c.gcodes.Beneath (t.into source dest) := by
    rw [hinto]
    exact c.beneath
  have hne : c.gcodes.toAbsPath ≠ t.into source dest := by
    rw [hinto]
    exact c.ne.symm
  exact ⟨h.has hdest, hits_of_beneath h hdest (FileTree.beneath_dst_of_into hin hne)⟩

/-- A handler refuses with the check, or it does what it does without. -/
theorem moveFile_cases (c : Printing) (t : FileTree) (writable : Bool) (source dest : AbsPath) :
    ((t.has dest = true ∧ c.Hits t dest ∨ writable = true ∧ c.Hits t source) ∧
      FileServer.moveFile c.handleOperationCheck t writable source dest = .error .inUse) ∨
    (¬(t.has dest = true ∧ c.Hits t dest ∨ writable = true ∧ c.Hits t source) ∧
      FileServer.moveFile c.handleOperationCheck t writable source dest =
        FileServer.moveFile (fun _ _ => .ok false) t writable source dest) := by
  unfold FileServer.moveFile
  cases t.has dest <;> cases writable <;>
    rcases c.check_cases t dest with ⟨hdest, hcdest⟩ | ⟨hdest, idle, hcdest⟩ <;>
    rcases c.check_cases t source with ⟨hsource, hcsource⟩ | ⟨hsource, idle', hcsource⟩ <;>
    simp [hdest, hcdest, hsource, hcsource, bind, Except.bind]

/-- A move without the check. -/
theorem moveFile_unchecked (t : FileTree) (writable : Bool) (source dest : AbsPath) :
    FileServer.moveFile (fun _ _ => .ok false) t writable source dest =
      if writable then (t.move source dest).elim (.error .failed) .ok else .error .readOnly := by
  unfold FileServer.moveFile
  cases t.has dest <;> cases writable <;> rfl

theorem copyFile_cases (c : Printing) (t : FileTree) (source dest : AbsPath) :
    ((t.has dest = true ∧ c.Hits t dest) ∧
      FileServer.copyFile c.handleOperationCheck t source dest = .error .inUse) ∨
    (¬(t.has dest = true ∧ c.Hits t dest) ∧
      FileServer.copyFile c.handleOperationCheck t source dest =
        FileServer.copyFile (fun _ _ => .ok false) t source dest) := by
  unfold FileServer.copyFile
  cases t.has dest <;>
    rcases c.check_cases t dest with ⟨hdest, hcdest⟩ | ⟨hdest, idle, hcdest⟩ <;>
    simp [hdest, hcdest, bind, Except.bind]

/-- A copy without the check. -/
theorem copyFile_unchecked (t : FileTree) (source dest : AbsPath) :
    FileServer.copyFile (fun _ _ => .ok false) t source dest =
      (if t.isdir source then t.copytree source dest else t.copy2 source dest).elim
        (.error .failed) .ok := by
  unfold FileServer.copyFile
  cases t.has dest <;> rfl

/-! ## Requests -/

/-- A request leaves the file alone, and if the check refuses it, it would not without. -/
structure Spares (c : Printing) (t : FileTree) (r : FileRequest) : Prop where
  untouched : t.Untouched (c.handle c.handleOperationCheck t r).1 c.file
  refused : (c.handle c.handleOperationCheck t r).2 = some .inUse → c.Refusable t r

/-- A request that is not refused by the check. -/
theorem Spares.of_ne {r : FileRequest} {u : FileTree} {o : Option RequestError}
    (h : c.handle c.handleOperationCheck t r = (u, o)) (hsame : t.Untouched u c.file)
    (ho : o ≠ some .inUse) : c.Spares t r := by
  refine ⟨?_, fun hin => ?_⟩
  · rw [h]
    exact hsame
  · rw [h] at hin
    exact absurd hin ho

/-- A request that the check refuses, and would have touched the file. -/
theorem Spares.of_touch {r : FileRequest}
    (h : c.handle c.handleOperationCheck t r = (t, some .inUse))
    (htouch : c.handle (fun _ _ => .ok false) t r = (t', none))
    (hne : t'.node c.file ≠ t.node c.file) : c.Spares t r := by
  refine ⟨?_, fun _ => ?_⟩
  · rw [h]
    exact .refl t c.file
  · unfold Refusable
    rw [htouch]
    exact ⟨rfl, fun hsame => hne (hsame c.file (.refl c.file))⟩

/-- The paths of a request are not refused by the check. -/
theorem requestPath_ne_inUse (c : Printing) (t : FileTree) (path : Text) :
    Ensures (c.requestPath t path) (fun _ => True) (· ≠ .inUse) := by
  unfold FileServer.requestPath
  split <;> simp [Ensures]

theorem moveArgs_ne_inUse (c : Printing) (t : FileTree) (source dest : Text) :
    Ensures (c.moveArgs t source dest) (fun _ => True) (· ≠ .inUse) := by
  refine .bind (c.requestPath_ne_inUse t source) fun _ _ =>
    .bind (c.requestPath_ne_inUse t dest) fun _ _ => ?_
  dsimp only
  split_ifs <;> simp [Ensures]

theorem deleteFileArgs_ne_inUse (c : Printing) (t : FileTree) (path : Text) :
    Ensures (c.deleteFileArgs t path) (fun _ => True) (· ≠ .inUse) := by
  refine .bind (c.requestPath_ne_inUse t path) fun _ _ => ?_
  dsimp only
  split_ifs <;> simp [Ensures]

theorem deleteDirectoryArgs_ne_inUse (c : Printing) (t : FileTree) (directory : Text) :
    Ensures (c.deleteDirectoryArgs t directory) (fun _ => True) (· ≠ .inUse) := by
  refine .bind (c.requestPath_ne_inUse t directory) fun _ _ => ?_
  dsimp only
  split_ifs <;> simp [Ensures]

theorem zipArgs_ne_inUse (c : Printing) (t : FileTree) (dest : Text) (items : List Text) :
    Ensures (c.zipArgs t dest items) (fun _ => True) (· ≠ .inUse) := by
  refine .bind (c.requestPath_ne_inUse t dest) fun _ _ => ?_
  dsimp only
  split_ifs <;> simp [Ensures]

theorem zipItem_ne_inUse (c : Printing) (t : FileTree) (item : Text) :
    Ensures (c.zipItem t item) (fun _ => True) (· ≠ .inUse) := by
  refine .bind (c.requestPath_ne_inUse t item) fun _ _ => ?_
  dsimp only
  split_ifs <;> simp [Ensures]

/-- The path of a request is beneath a registered directory, or next to it. -/
theorem requestPath_spec {path root : Text} (h : c.requestPath t path = .ok (root, p)) :
    ∃ dir, c.filePaths root = some dir ∧ (dir.Beneath p ∨ dir.NextTo p) := by
  unfold FileServer.requestPath convertRequestPath at h
  dsimp only [FileServer.disk] at h
  cases hdir : c.filePaths (requestParts path).1 with
  | none => simp [hdir] at h
  | some dir =>
    rw [hdir] at h
    cases hrest : (requestParts path).2 with
    | none =>
      simp only [hrest, Except.ok.injEq, Prod.mk.injEq] at h
      obtain ⟨rfl, rfl⟩ := h
      exact ⟨dir, hdir, .inl (by rw [ofText_text]; exact .refl dir.toAbsPath)⟩
    | some rest =>
      simp only [hrest, abspath_join_text] at h
      by_cases hunder : dir.text <+: (target dir.toAbsPath rest).text
      · simp only [hunder, if_true, Except.ok.injEq, Prod.mk.injEq, ofText_text] at h
        obtain ⟨rfl, rfl⟩ := h
        exact ⟨dir, hdir, (prefix_text_iff dir.comps_ne_nil).1 hunder⟩
      · simp [hunder] at h

/-- The path of a request is not the root of the file system. -/
theorem comps_ne_nil_of_requestPath {path root : Text} (h : c.requestPath t path = .ok (root, p)) :
    p.comps ≠ [] := by
  obtain ⟨dir, -, ⟨-, hprefix⟩ | ⟨-, front, name, more, rest, -, -, hcomps⟩⟩ := requestPath_spec h
  · intro hnil
    rw [hnil, List.prefix_nil] at hprefix
    exact dir.comps_ne_nil hprefix
  · rw [hcomps]
    exact List.append_ne_nil_of_right_ne_nil _ (List.cons_ne_nil _ _)

/-- A file that is deleted is one. -/
theorem isfile_of_deleteFileArgs {path : Text} {fullPath : AbsPath}
    (h : c.deleteFileArgs t path = .ok fullPath) : t.isfile fullPath = true := by
  obtain ⟨⟨root, p⟩, -, h⟩ := bind_eq_ok.1 h
  dsimp only at h
  split_ifs at h with h1 h2 h3
  cases h
  simpa using h3

/-- A directory that is deleted is one. -/
theorem deleteDirectoryArgs_spec {directory : Text} {dirPath : AbsPath}
    (h : c.deleteDirectoryArgs t directory = .ok dirPath) :
    t.isdir dirPath = true ∧ dirPath.comps ≠ [] := by
  obtain ⟨⟨root, p⟩, hpath, h⟩ := bind_eq_ok.1 h
  dsimp only at h
  split_ifs at h with h1 h2 h3 h4
  cases h
  exact ⟨by simpa using h4, comps_ne_nil_of_requestPath hpath⟩

/-- An error that is not one of the check. -/
theorem ne_inUse_of_ensures {α : Type} {Q : α → Prop} {x : Except RequestError α}
    {e : RequestError} (h : Ensures x Q (· ≠ .inUse)) (hx : x = .error e) :
    some e ≠ some .inUse := by
  rw [hx] at h
  exact fun heq => h (Option.some.inj heq)

/-- The handler of a move, behind the checks of its paths. -/
theorem handle_move {source dest : Text} {writable : Bool} {sourcePath destPath : AbsPath}
    (hargs : c.moveArgs t source dest = .ok (writable, sourcePath, destPath))
    (check : OperationCheck) : c.handle check t (.move source dest) =
      FileServer.settle t (FileServer.moveFile check t writable sourcePath destPath) := by
  simp only [FileServer.handle, hargs]
  rfl

theorem handle_copy {source dest : Text} {writable : Bool} {sourcePath destPath : AbsPath}
    (hargs : c.moveArgs t source dest = .ok (writable, sourcePath, destPath))
    (check : OperationCheck) : c.handle check t (.copy source dest) =
      FileServer.settle t (FileServer.copyFile check t sourcePath destPath) := by
  simp only [FileServer.handle, hargs]
  rfl

theorem handle_deleteFile {path : Text} {fullPath : AbsPath}
    (hargs : c.deleteFileArgs t path = .ok fullPath) (check : OperationCheck) :
    c.handle check t (.deleteFile path) =
      FileServer.settle t (FileServer.deleteFile check t fullPath) := by
  simp only [FileServer.handle, hargs]
  rfl

theorem handle_deleteDirectory {directory : Text} {dirPath : AbsPath}
    (hargs : c.deleteDirectoryArgs t directory = .ok dirPath) (check : OperationCheck)
    (force : Bool) : c.handle check t (.deleteDirectory directory force) =
      FileServer.settle t (FileServer.deleteDirectory check t dirPath force) := by
  simp only [FileServer.handle, hargs]
  rfl

theorem spares_move (h : t.HasFile c.file) {source dest : Text}
    (hclear : c.Clear t (.move source dest)) : c.Spares t (.move source dest) := by
  cases hargs : c.moveArgs t source dest with
  | error e =>
    refine .of_ne (u := t) (o := some e) ?_ (.refl t c.file)
      (ne_inUse_of_ensures (c.moveArgs_ne_inUse t source dest) hargs)
    simp only [FileServer.handle, hargs]
    rfl
  | ok args =>
    obtain ⟨writable, sourcePath, destPath⟩ := args
    obtain ⟨hrefuse, habove⟩ := hclear writable sourcePath destPath hargs
    have hhandle := handle_move hargs
    rcases c.moveFile_cases t writable sourcePath destPath with ⟨hhits, hmove⟩ | ⟨hnot, hmove⟩
    · obtain ⟨rfl, hmovable, hne, htouch⟩ := hrefuse hhits
      obtain ⟨t', ht'⟩ : ∃ t', t.move sourcePath destPath = some t' := by
        unfold FileTree.move
        rw [if_pos hmovable]
        exact ⟨_, rfl⟩
      refine .of_touch ?_ ?_ (FileTree.node_move_ne h hne htouch ht')
      · rw [hhandle, hmove]
        rfl
      · rw [hhandle, moveFile_unchecked, if_pos rfl, ht']
        rfl
    · rw [not_or, not_and, not_and] at hnot
      cases writable with
      | false =>
        refine .of_ne (u := t) (o := some .readOnly) ?_ (.refl t c.file) nofun
        rw [hhandle, hmove, moveFile_unchecked]
        rfl
      | true =>
        cases hresult : t.move sourcePath destPath with
        | none =>
          refine .of_ne (u := t) (o := some .failed) ?_ (.refl t c.file) nofun
          rw [hhandle, hmove, moveFile_unchecked, if_pos rfl, hresult]
          rfl
        | some t' =>
          have hmovable : t.Movable sourcePath destPath :=
            (Option.ite_none_right_eq_some.1 hresult).1
          have hsource : ¬sourcePath.Beneath c.file := fun hbeneath =>
            hnot.2 rfl (hits_of_beneath h hbeneath (habove rfl hmovable hbeneath))
          have hdest : destPath ≠ c.file := by
            rintro rfl
            exact hnot.1 (h.has (.refl c.file)) (hits_of_beneath h (.refl c.file) c.beneath)
          refine .of_ne (o := none) ?_ (FileTree.untouched_move h hsource hdest hresult) nofun
          rw [hhandle, hmove, moveFile_unchecked, if_pos rfl, hresult]
          rfl

theorem spares_copy (h : t.HasFile c.file) {source dest : Text}
    (hclear : c.Clear t (.copy source dest)) : c.Spares t (.copy source dest) := by
  cases hargs : c.moveArgs t source dest with
  | error e =>
    refine .of_ne (u := t) (o := some e) ?_ (.refl t c.file)
      (ne_inUse_of_ensures (c.moveArgs_ne_inUse t source dest) hargs)
    simp only [FileServer.handle, hargs]
    rfl
  | ok args =>
    obtain ⟨writable, sourcePath, destPath⟩ := args
    have hrefuse := hclear writable sourcePath destPath hargs
    have hhandle := handle_copy hargs
    rcases c.copyFile_cases t sourcePath destPath with ⟨⟨hhas, hhits⟩, hcopy⟩ | ⟨hnot, hcopy⟩
    · obtain ⟨hfile, hne, hinto⟩ := hrefuse hhas hhits
      obtain ⟨t', ht'⟩ : ∃ t', t.copy2 sourcePath destPath = some t' := by
        unfold FileTree.copy2
        rw [if_neg (by rwa [hinto]), hinto]
        exact Option.isSome_iff_exists.1 (FileTree.isSome_write h)
      refine .of_touch ?_ ?_ (FileTree.node_copy2_ne h hinto ht')
      · rw [hhandle, hcopy]
        rfl
      · rw [hhandle, copyFile_unchecked, hfile, if_neg Bool.false_ne_true, ht']
        rfl
    · cases hresult : (if t.isdir sourcePath then t.copytree sourcePath destPath
          else t.copy2 sourcePath destPath) with
      | none =>
        refine .of_ne (u := t) (o := some .failed) ?_ (.refl t c.file) nofun
        rw [hhandle, hcopy, copyFile_unchecked, hresult]
        rfl
      | some t' =>
        refine .of_ne (o := none) (u := t') ?_ ?_ nofun
        · rw [hhandle, hcopy, copyFile_unchecked, hresult]
          rfl
        · split_ifs at hresult with hdir
          · exact FileTree.untouched_copytree h hresult
          · exact FileTree.untouched_copy2 h (fun hinto => hnot (hits_of_into h hinto)) hresult

theorem spares_deleteFile (h : t.HasFile c.file) (path : Text) :
    c.Spares t (.deleteFile path) := by
  cases hargs : c.deleteFileArgs t path with
  | error e =>
    refine .of_ne (u := t) (o := some e) ?_ (.refl t c.file)
      (ne_inUse_of_ensures (c.deleteFileArgs_ne_inUse t path) hargs)
    simp only [FileServer.handle, hargs]
    rfl
  | ok fullPath =>
    have hhandle := handle_deleteFile hargs
    have hfile : t.isfile fullPath = true := isfile_of_deleteFileArgs hargs
    have hremove : t.remove fullPath = some (t.change (· ≠ fullPath) [] (by simp)) :=
      if_pos hfile
    rcases c.check_cases t fullPath with ⟨⟨-, hhits⟩, hcheck⟩ | ⟨hnot, idle, hcheck⟩
    · have hdir : ¬t.isdir fullPath = true := by
        rw [FileTree.isdir_eq_false_of_isfile hfile]
        exact Bool.false_ne_true
      rw [if_neg hdir] at hhits
      subst hhits
      refine .of_touch ?_ ?_ (FileTree.node_remove_ne h hremove)
      · rw [hhandle, FileServer.deleteFile, hcheck]
        rfl
      · rw [hhandle, FileServer.deleteFile, hremove]
        rfl
    · have hne : fullPath ≠ c.file := by
        rintro rfl
        exact hnot (hits_of_beneath h (.refl c.file) c.beneath)
      refine .of_ne (o := none) ?_ (FileTree.untouched_remove h hne hremove) nofun
      rw [hhandle, FileServer.deleteFile, hcheck, hremove]
      rfl

theorem spares_deleteDirectory (h : t.HasFile c.file) {directory : Text} {force : Bool}
    (hclear : c.Clear t (.deleteDirectory directory force)) :
    c.Spares t (.deleteDirectory directory force) := by
  cases hargs : c.deleteDirectoryArgs t directory with
  | error e =>
    refine .of_ne (u := t) (o := some e) ?_ (.refl t c.file)
      (ne_inUse_of_ensures (c.deleteDirectoryArgs_ne_inUse t directory) hargs)
    simp only [FileServer.handle, hargs]
    rfl
  | ok dirPath =>
    have hhandle := fun check => handle_deleteDirectory hargs check force
    obtain ⟨hdir, hne⟩ := deleteDirectoryArgs_spec hargs
    cases force with
    | true =>
      obtain ⟨habove, hnext⟩ := hclear dirPath hargs
      rcases c.check_cases t dirPath with ⟨⟨hgcodes, hhits⟩, hcheck⟩ | ⟨hnot, idle, hcheck⟩
      · rw [if_pos hdir, prefix_text_iff hne] at hhits
        refine .of_touch ?_ ?_ (FileTree.node_rmtree_ne h (hhits.resolve_right (hnext hgcodes)))
        · rw [hhandle, FileServer.deleteDirectory, if_pos rfl, hcheck]
          rfl
        · rw [hhandle]
          rfl
      · refine .of_ne (o := none) ?_ (FileTree.untouched_rmtree fun hbeneath =>
          hnot (hits_of_beneath h hbeneath (habove hbeneath))) nofun
        rw [hhandle, FileServer.deleteDirectory, if_pos rfl, hcheck]
        rfl
    | false =>
      cases hrmdir : t.rmdir dirPath with
      | none =>
        refine .of_ne (u := t) (o := some .failed) ?_ (.refl t c.file) nofun
        rw [hhandle, FileServer.deleteDirectory, hrmdir]
        rfl
      | some t' =>
        refine .of_ne (o := none) ?_ (FileTree.untouched_rmdir h hdir hrmdir) nofun
        rw [hhandle, FileServer.deleteDirectory, hrmdir]
        rfl

/-- The items of an archive are not refused by the check. -/
theorem forM_zipItem_ne_inUse (c : Printing) (t : FileTree) (items : List Text) :
    Ensures (items.forM (c.zipItem t)) (fun _ => True) (· ≠ .inUse) := by
  induction items with
  | nil => exact .ok trivial
  | cons item items ih => exact .bind (c.zipItem_ne_inUse t item) fun _ _ => ih

theorem spares_zip (h : t.HasFile c.file) {dest : Text} {items : List Text}
    (hclear : c.Clear t (.zip dest items)) : c.Spares t (.zip dest items) := by
  cases hargs : c.zipArgs t dest items with
  | error e =>
    refine .of_ne (u := t) (o := some e) ?_ (.refl t c.file)
      (ne_inUse_of_ensures (c.zipArgs_ne_inUse t dest items) hargs)
    simp only [FileServer.handle, hargs]
  | ok destPath =>
    obtain ⟨htemp, hdest⟩ := hclear destPath hargs
    cases hwrite : t.write (c.tempDest destPath) with
    | none =>
      refine .of_ne (u := t) (o := some .failed) ?_ (.refl t c.file) nofun
      simp only [FileServer.handle, hargs, FileServer.zipFiles, hwrite]
    | some t' =>
      have hsame : t.Untouched t' c.file := FileTree.untouched_write h htemp hwrite
      cases hitems : items.forM (c.zipItem t') with
      | error e =>
        refine .of_ne (o := some e) ?_ hsame
          (ne_inUse_of_ensures (c.forM_zipItem_ne_inUse t' items) hitems)
        simp only [FileServer.handle, hargs, FileServer.zipFiles, hwrite, hitems]
      | ok _ =>
        cases hmove : t'.move (c.tempDest destPath) destPath with
        | none =>
          refine .of_ne (o := some .failed) ?_ hsame nofun
          simp only [FileServer.handle, hargs, FileServer.zipFiles, hwrite, hitems, hmove]
        | some t'' =>
          have hmoved : t'.Untouched t'' c.file :=
            FileTree.untouched_move (h.of_untouched hsame)
              (FileTree.not_beneath_of_write h htemp hwrite) (hdest t' hwrite hitems) hmove
          refine .of_ne (o := none) ?_ (hsame.trans hmoved) nofun
          simp only [FileServer.handle, hargs, FileServer.zipFiles, hwrite, hitems, hmove]

/-- Directories are made where nothing is. -/
theorem node_makeDirs (h : t.has p = true) (dirs : List AbsPath) :
    (FileServer.makeDirs t dirs).1.node p = t.node p := by
  induction dirs generalizing t with
  | nil => rfl
  | cons dir dirs ih =>
    unfold FileServer.makeDirs
    by_cases hhas : t.has dir = true
    · rw [if_pos hhas]
      exact ih h
    · rw [if_neg hhas]
      cases hmkdir : t.mkdir dir with
      | none => rfl
      | some t' =>
        have hnode := FileTree.node_mkdir h hmkdir
        refine (ih ?_).trans hnode
        rwa [FileTree.has, hnode]

/-- An upload that does not go to the file. -/
theorem processUploadedFile_spec (h : t.HasFile c.file) {info : UploadInfo}
    (htmp : ofText info.tmpFilePath ≠ c.file) (hbeneath : ¬(ofText info.tmpFilePath).Beneath c.file)
    (hdest : (FileServer.makeDirs t (c.uploadDirs info)).2 = true →
      ofText info.destPath ≠ c.file) :
    t.Untouched (c.processUploadedFile t info).1 c.file ∧
      (c.processUploadedFile t info).2 ≠ some .inUse := by
  have hdirs : t.Untouched (FileServer.makeDirs t (c.uploadDirs info)).1 c.file :=
    fun r hr => node_makeDirs (h.has hr) (c.uploadDirs info)
  unfold FileServer.processUploadedFile
  obtain ⟨⟨t', made⟩, hmake⟩ : ∃ out, FileServer.makeDirs t (c.uploadDirs info) = out := ⟨_, rfl⟩
  rw [hmake] at hdirs hdest ⊢
  have h' : t'.HasFile c.file := h.of_untouched hdirs
  dsimp only at hdirs hdest ⊢
  cases made with
  | false => exact ⟨hdirs, nofun⟩
  | true =>
    have hdest := hdest rfl
    dsimp only
    split_ifs
    · refine ⟨hdirs.trans ?_, nofun⟩
      cases hwrite : t'.write (ofText info.destPath) with
      | none => exact .refl t' c.file
      | some t'' =>
        have hsame := FileTree.untouched_write h' hdest hwrite
        rw [Option.bind_some]
        cases hremove : t''.remove (ofText info.tmpFilePath) with
        | none => exact .refl t' c.file
        | some t₃ =>
          exact hsame.trans (FileTree.untouched_remove (h'.of_untouched hsame) htmp hremove)
    · cases hmove : t'.move (ofText info.tmpFilePath) (ofText info.destPath) with
      | none => exact ⟨hdirs, nofun⟩
      | some t'' => exact ⟨hdirs.trans (FileTree.untouched_move h' hbeneath hdest hmove), nofun⟩

/-- An upload that is accepted, and the check of those that are gcodes. -/
theorem finishUpload_spec (h : t.HasFile c.file) {info : UploadInfo}
    (htmp : ofText info.tmpFilePath ≠ c.file) (hbeneath : ¬(ofText info.tmpFilePath).Beneath c.file)
    (hdest : (FileServer.makeDirs t (c.uploadDirs info)).2 = true →
      ofText info.destPath = c.file → FileServer.isGcode info = true) :
    t.Untouched (c.finishUpload c.handleOperationCheck t info).1 c.file ∧
      (c.finishUpload c.handleOperationCheck t info).2 ≠ some .inUse := by
  unfold FileServer.finishUpload
  by_cases hgcode : FileServer.isGcode info = true
  · rw [if_pos hgcode]
    rcases c.check_cases t (ofText info.destPath) with ⟨-, hcheck⟩ | ⟨hnot, idle, hcheck⟩
    · rw [hcheck]
      exact ⟨.refl t c.file, nofun⟩
    · rw [hcheck]
      refine processUploadedFile_spec h htmp hbeneath fun _ heq => ?_
      exact hnot (heq ▸ hits_of_beneath h (.refl c.file) c.beneath)
  · rw [if_neg hgcode]
    exact processUploadedFile_spec h htmp hbeneath fun hmade heq => hgcode (hdest hmade heq)

/-- What is kept of a form that is accepted. -/
theorem eq_of_parseUploadArgs {disk : Disk} {args : UploadArgs} {info : UploadInfo}
    (h : parseUploadArgs disk args = .ok info) :
    ∃ root filename dirPath destPath, info = uploadInfo args root filename dirPath destPath := by
  unfold parseUploadArgs at h
  split at h
  · cases h
  · dsimp only at h
    split at h
    · cases h
    · split at h
      · exact ⟨_, _, _, _, (Except.ok.inj h).symm⟩
      · cases h

/-- An archive of gcodes is one of the uploads that are checked. -/
theorem isGcode_of_unzipUfp {args : UploadArgs} {root filename dirPath destPath : Text}
    (h : (uploadInfo args root filename dirPath destPath).unzipUfp = true) :
    FileServer.isGcode (uploadInfo args root filename dirPath destPath) = true := by
  have hufp : isUfp root destPath = true := h
  rw [isUfp, Bool.and_eq_true, decide_eq_true_eq, decide_eq_true_eq] at hufp
  refine Bool.and_eq_true_iff.2 ⟨decide_eq_true hufp.2, decide_eq_true ?_⟩
  change lower (splitext destPath).2 ∈ validGcodeExts
  rw [hufp.1]
  exact List.mem_of_getElem? (i := 3) rfl

/-- The form of an upload is kept, and is not refused by the check. -/
theorem uploadArgs_spec (c : Printing) (t : FileTree) (args : UploadArgs) :
    Ensures (c.uploadArgs t args)
      (fun info => info.tmpFilePath = args.tmpFilePath ∧
        (info.unzipUfp = true → FileServer.isGcode info = true))
      (· ≠ .inUse) := by
  unfold FileServer.uploadArgs
  cases hparse : parseUploadArgs (c.disk t) args with
  | error e => exact .error nofun
  | ok info =>
    dsimp only
    split_ifs
    · exact .error nofun
    · exact .error nofun
    · obtain ⟨root, filename, dirPath, destPath, rfl⟩ := eq_of_parseUploadArgs hparse
      exact .ok ⟨rfl, isGcode_of_unzipUfp⟩

/-- Where an upload ends. -/
theorem finalizeUpload_spec (h : t.HasFile c.file) {args : UploadArgs}
    (htmp : ofText args.tmpFilePath ≠ c.file) (hbeneath : ¬(ofText args.tmpFilePath).Beneath c.file)
    (hdest : ∀ info, c.uploadArgs t args = .ok info →
      (FileServer.makeDirs t (c.uploadDirs info)).2 = true → ofText info.destPath = c.file →
        FileServer.isGcode info = true) :
    t.Untouched (c.finalizeUpload c.handleOperationCheck t args).1 c.file ∧
      (c.finalizeUpload c.handleOperationCheck t args).2 ≠ some .inUse := by
  -- an upload that is not accepted removes its temporary file
  have hremove : ∀ {t' : FileTree} {e : RequestError}, t.Untouched t' c.file →
      some e ≠ some .inUse →
        t.Untouched ((t'.remove (ofText args.tmpFilePath)).getD t') c.file ∧
          some e ≠ some .inUse := by
    intro t' e hsame he
    refine ⟨?_, he⟩
    cases hremove : t'.remove (ofText args.tmpFilePath) with
    | none => exact hsame
    | some t'' =>
      exact hsame.trans (FileTree.untouched_remove (h.of_untouched hsame) htmp hremove)
  have hspec := c.uploadArgs_spec t args
  unfold FileServer.finalizeUpload
  cases hargs : c.uploadArgs t args with
  | error e => exact hremove (.refl t c.file) (ne_inUse_of_ensures hspec hargs)
  | ok info =>
    rw [hargs] at hspec
    have htmp' : info.tmpFilePath = args.tmpFilePath := hspec.1
    obtain ⟨hsame, hne⟩ := finishUpload_spec h (by rwa [htmp']) (by rwa [htmp']) (hdest info hargs)
    obtain ⟨⟨t', o⟩, hout⟩ : ∃ out, c.finishUpload c.handleOperationCheck t info = out := ⟨_, rfl⟩
    rw [hout] at hsame hne
    dsimp only
    rw [hout]
    cases o with
    | none => exact ⟨hsame, nofun⟩
    | some e => exact hremove hsame hne

theorem spares_upload (h : t.HasFile c.file) {args : UploadArgs}
    (hclear : c.Clear t (.upload args)) : c.Spares t (.upload args) := by
  obtain ⟨htmp, hdest⟩ := hclear
  cases hwrite : t.write (ofText args.tmpFilePath) with
  | none =>
    refine .of_ne (u := t) (o := some .failed) ?_ (.refl t c.file) nofun
    simp only [FileServer.handle, FileServer.upload, hwrite]
  | some t' =>
    have hsame : t.Untouched t' c.file := FileTree.untouched_write h htmp hwrite
    have h' := h.of_untouched hsame
    have hhandle : c.handle c.handleOperationCheck t (.upload args) =
        c.finalizeUpload c.handleOperationCheck t' args := by
      simp only [FileServer.handle, FileServer.upload, hwrite]
    obtain ⟨hsame', hne⟩ := finalizeUpload_spec h' htmp
      (FileTree.not_beneath_of_write h htmp hwrite) (hdest t' · hwrite)
    exact .of_ne hhandle (hsame.trans hsame') hne

/-- A request that is clear leaves the file alone. -/
theorem spares (h : t.HasFile c.file) {r : FileRequest} (hclear : c.Clear t r) : c.Spares t r := by
  cases r with
  | upload args => exact spares_upload h hclear
  | move source dest => exact spares_move h hclear
  | copy source dest => exact spares_copy h hclear
  | zip dest items => exact spares_zip h hclear
  | deleteFile path => exact spares_deleteFile h path
  | deleteDirectory directory force => exact spares_deleteDirectory h hclear

end Printing

namespace PrintSession

variable {c : Printing} {s : PrintSession}

/-- A clear request keeps the file protected. -/
theorem protected_next (hs : s.Protected c) {r : FileRequest} (hclear : c.Clear s.tree r) :
    (s.next c r).Protected c := by
  obtain ⟨hsame, hrefused⟩ := Printing.spares (c.hasFile.of_untouched hs.untouched) hclear
  unfold next
  dsimp only
  split
  · rename_i hin
    refine ⟨hs.untouched.trans hsame, fun x hx => ?_⟩
    rcases List.mem_cons.1 hx with rfl | hx
    · exact hrefused hin
    · exact hs.refused x hx
  · exact ⟨hs.untouched.trans hsame, hs.refused⟩

/-- In a run of clear requests the file that is printed is never removed, renamed or overwritten,
and what is refused would have touched it. -/
theorem protected_of_reachable (h : (system c).ReachableBy (fun s r => c.Clear s.tree r) s) :
    s.Protected c := by
  refine h.invariant ?_ ?_
  · rintro s rfl
    exact ⟨.refl c.tree c.file, nofun⟩
  · intro s r s' hs hclear hnext
    obtain rfl := Option.some.inj hnext
    exact protected_next hs hclear

/-- The path `/d/gcodes/a.gcode` is printed from. There is another file next to it, and one in the
directory of configs. -/
def printing : Printing where
  filePaths root :=
    if root = "gcodes".toList then
      some ⟨⟨false, ["d".toList, "gcodes".toList], isEntry_gcodes⟩, gcodes_ne_nil⟩
    else if root = "config".toList then
      some ⟨⟨false, ["d".toList, "config".toList], by simp [IsEntry]⟩, List.cons_ne_nil _ _⟩
    else none
  cwd := "/".toList
  fullAccessRoots _ := true
  reserved _ _ := false
  tempDir := ⟨false, ["tmp".toList], by simp [IsEntry]⟩
  stats := ⟨"a.gcode".toList, "printing".toList, true⟩
  gcodes := ⟨⟨false, ["d".toList, "gcodes".toList], isEntry_gcodes⟩, gcodes_ne_nil⟩
  filePaths_gcodes := rfl
  file := ⟨false, ["d".toList, "gcodes".toList, "a.gcode".toList], by simp [IsEntry]⟩
  text_file := by decide +kernel
  beneath := by decide +kernel
  ne := by decide +kernel
  filename_ne := by decide +kernel
  isReady := rfl
  state := .inl rfl
  tree :=
    { entries := [(.ofText "/".toList, .dir), (.ofText "/tmp".toList, .dir),
        (.ofText "/d".toList, .dir), (.ofText "/d/config".toList, .dir),
        (.ofText "/d/config/b.cfg".toList, .file 0), (.ofText "/d/gcodes".toList, .dir),
        (.ofText "/d/gcodes/a.gcode".toList, .file 1)]
      next := 2
      lt_next := by simp }
  hasFile := .of_ancestors (by decide +kernel) (by decide +kernel)

/-- An archive of configs goes to the file that is printed. -/
def zipOver : FileRequest :=
  .zip "gcodes/a.gcode".toList ["config/b.cfg".toList]

/-- A config is copied to the directory of gcodes. -/
def copyNear : FileRequest :=
  .copy "config/b.cfg".toList "gcodes".toList

/-- A request that is refused by the check. -/
def isInUse : Option RequestError → Bool
  | some .inUse => true
  | _ => false

theorem refused_next {r : FileRequest}
    (h : isInUse (c.handle c.handleOperationCheck s.tree r).2 = true) :
    (s.tree, r) ∈ (s.next c r).refused := by
  unfold next
  dsimp only
  split
  · exact List.mem_cons_self
  · rename_i hne
    unfold isInUse at h
    split at h
    · rename_i hin
      exact absurd hin hne
    · cases h

/-- The archive overwrites the file. The copy is refused, though it would go next to the file. -/
theorem not_protected :
    (∃ s : PrintSession, (system printing).Reachable s ∧
        (printing.handle printing.handleOperationCheck printing.tree zipOver).2 = none ∧
          s.tree.node printing.file ≠ printing.tree.node printing.file) ∧
      ∃ s : PrintSession, (system printing).Reachable s ∧
        ∃ x ∈ s.refused, ¬printing.Refusable x.1 x.2 := by
  have hstart : (system printing).Reachable ⟨printing.tree, []⟩ := .init rfl
  refine ⟨⟨_, hstart.step (a := zipOver) trivial rfl, ?_, ?_⟩,
    _, hstart.step (a := copyNear) trivial rfl, (printing.tree, copyNear), ?_, ?_⟩
  · rw [← Option.isNone_iff_eq_none]
    decide +kernel
  · decide +kernel
  · exact refused_next (by decide +kernel)
  · rintro ⟨-, htouch⟩
    exact htouch (FileTree.untouched_of_ancestors (by decide +kernel) (by decide +kernel))

/-- A file that is printed is deleted, which is refused, and a config is copied to a new file. -/
theorem protected_deleteFile : ∃ s : PrintSession,
    s.refused.length = 1 ∧ (s.tree.node (.ofText "/d/gcodes/c.gcode".toList)).isSome = true ∧
      s.Protected printing := by
  let delete : FileRequest := .deleteFile "gcodes/a.gcode".toList
  let copy : FileRequest := .copy "config/b.cfg".toList "gcodes/c.gcode".toList
  have hstart : (system printing).ReachableBy (fun s r => printing.Clear s.tree r)
      ⟨printing.tree, []⟩ := .init rfl
  have hdelete := hstart.step (a := delete) trivial rfl
  have hclear : printing.Clear (next printing ⟨printing.tree, []⟩ delete).tree copy := by
    intro writable sourcePath destPath hargs hhas
    have hdest : ((printing.moveArgs (next printing ⟨printing.tree, []⟩ delete).tree
        "config/b.cfg".toList "gcodes/c.gcode".toList).toOption.map fun args => args.2.2) =
          some (.ofText "/d/gcodes/c.gcode".toList) := by decide +kernel
    rw [hargs] at hdest
    obtain rfl := Option.some.inj hdest
    exact absurd hhas (by decide +kernel)
  have hcopy := hdelete.step (a := copy) hclear rfl
  exact ⟨_, by decide +kernel, by decide +kernel, protected_of_reachable hcopy⟩

end PrintSession

end Thinker
