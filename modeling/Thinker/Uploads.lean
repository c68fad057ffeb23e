import Thinker.FileManager
import Thinker.FileSystem
import Thinker.TextFile
import Thinker.Transition

/-!
# Uploads

`FileUploadHandler` of `app.py` writes the file of an upload form to a temporary file while its
chunks arrive, and `finalize_upload` of `file_manager.py` moves it to its destination. Each call
that the parser makes in its thread, each part of a request between two awaits, and each time a
buffer is written to the disk is one step.

The name of a temporary file is the second in which its request arrives. Two requests that arrive in
the same second write to the same file (`UploadRun.not_independent_second`). A form with a field
that is not UTF-8 leaves its temporary file behind, a form that ends inside its file is moved before
all of it is written, and a directory may be made where an upload goes. In a run without these each
upload has its own bytes (`UploadRun.independent_of_reachable`).
-/

set_option linter.unusedSectionVars false

namespace Thinker

open FileManager

/-! ## Forms -/

/-- What the parser does with the file of a form. -/
inductive ParserCall where
  | onStart
  | onDataReceived (chunk : List UInt8)
  | onFinish
  | parseFailed
  deriving DecidableEq

/-- The body of a request : what the parser does with the file, its name, and the values of the
other fields. -/
structure UploadForm where
  calls : List ParserCall
  multipartFilename : Option Text
  root : ByteArray
  print : ByteArray
  path : ByteArray
  checksum : ByteArray

/-- The bytes of the file. -/
def ParserCall.data : ParserCall → List UInt8
  | onDataReceived chunk => chunk
  | _ => []

/-- What the calls leave in a file of its own : nothing, an open file, or one that is closed. -/
inductive FormWritten where
  | unopened
  | opened (data : List UInt8)
  | closed (data : List UInt8)
  deriving DecidableEq

namespace FormWritten

/-- What a call leaves. -/
def call : FormWritten → ParserCall → FormWritten
  | _, .onStart => opened []
  | opened data, .onDataReceived chunk => opened (data ++ chunk)
  | opened data, .onFinish => closed data
  | w, _ => w

end FormWritten

namespace UploadForm

variable (f : UploadForm)

/-- The bytes of the file of a form. -/
def body : List UInt8 :=
  f.calls.flatMap ParserCall.data

/-- The value of a field, if it is UTF-8. One that is empty is left out. -/
def fieldValue (value : ByteArray) : Option (Option Text) :=
  if value.isEmpty then some none else (decode value).map some

/-- `form_args`, unless a field cannot be decoded. -/
def formArgs (tmpFilePath : Text) : Option UploadArgs :=
  match fieldValue f.root, fieldValue f.print, fieldValue f.path with
  | some root, some print, some path => some ⟨f.multipartFilename, root, path, print, tmpFilePath⟩
  | _, _, _ => none

/-- The form has one file, which is complete, or none, or it is not parsed to its end. -/
def Complete : Prop :=
  .onStart ∉ f.calls.tail ∧ (.parseFailed ∈ f.calls ∨ f.calls = [] ∨
    f.calls.foldl FormWritten.call .unopened = .closed f.body)

/-- All fields of the form are UTF-8. -/
def Decodable : Prop :=
  (fieldValue f.checksum).isSome ∧ (f.formArgs []).isSome

end UploadForm

/-! ## The handler of a request -/

/-- How far a request is. -/
inductive UploadStage where
  | receiving
  /-- It waits for `sync_lock`. -/
  | waiting (args : UploadArgs)
  /-- It makes the directories in front of its destination. -/
  | making (info : UploadInfo) (dirs : List AbsPath)
  | moved
  | done (success : Bool)

/-- A `FileUploadHandler` after `prepare`. -/
structure UploadHandler where
  tmpFilePath : AbsPath
  fd : Option Descriptor
  calls : List ParserCall
  parseFailed : Bool
  stage : UploadStage

/-- The directory of temporary files. -/
def tempDir : AbsPath :=
  .ofText "/home/mks/printer_data/gcodes/".toList

/-- The name of a temporary file. -/
def tempName (loopTime : ℕ) : Text :=
  "moonraker.upload-".toList ++ Nat.toDigits 10 loopTime ++ ".mru".toList

/-- `gen_temp_upload_path` in a second. -/
def genTempUploadPath (loopTime : ℕ) : AbsPath :=
  tempDir.walk (tempName loopTime)

/-- A temporary file is in its directory. -/
theorem comps_genTempUploadPath (loopTime : ℕ) :
    (genTempUploadPath loopTime).comps = tempDir.comps ++ [tempName loopTime] := by
  have hslash : '/' ∉ tempName loopTime := by
    unfold tempName
    rw [List.mem_append, List.mem_append]
    rintro ((h | h) | h)
    · exact absurd h (by decide +kernel)
    · exact absurd (Nat.isDigit_of_mem_toDigits (by decide) (by decide) h) (by decide)
    · exact absurd h (by decide +kernel)
  have hlength : 4 < (tempName loopTime).length := by
    have hprefix : "moonraker.upload-".toList.length = 17 := by decide +kernel
    unfold tempName
    simp only [List.length_append, hprefix]
    omega
  have hentry : PosixPath.IsEntry (tempName loopTime) := by
    refine ⟨?_, hslash, ?_, ?_⟩ <;>
    · intro h
      rw [h] at hlength
      exact absurd hlength (by decide)
  have hsplit : (tempName loopTime).splitOn '/' = [tempName loopTime] :=
    List.splitOn_eq_singleton hslash
  show ((tempName loopTime).splitOn '/').foldl (PosixPath.pushComp true) tempDir.comps = _
  rw [hsplit, PosixPath.foldl_entries (by simpa using hentry)]

namespace UploadForm

/-- Where the file of a form goes, if it is accepted. -/
def destination (disk : Disk) (f : UploadForm) : Option AbsPath :=
  (f.formArgs []).bind fun args =>
    match parseUploadArgs disk args with
    | .error _ => none
    | .ok info => some (.ofText info.destPath)

end UploadForm

/-- The uploads of a run : what the file manager knows, the hash of a file, the form of each
request, and the file system at the begin. Their destinations are distinct plain files, and none of
them is unpacked. -/
structure Uploads (ι : Type) where
  disk : Disk
  sha256 : List UInt8 → Text
  form : ι → UploadForm
  files : FileSystem
  distinct : ∀ r r' p, (form r).destination disk = some p → (form r').destination disk = some p →
    r = r'
  plain : ∀ r args info, (form r).formArgs [] = some args → parseUploadArgs disk args = .ok info →
    files.isdir (.ofText info.destPath) = false ∧ info.unzipUfp = false
  separate : files.Separate
  noTemp : ∀ loopTime, files.named (genTempUploadPath loopTime) = none ∧
    files.isdir (genTempUploadPath loopTime) = false

namespace Uploads

variable {ι : Type} (c : Uploads ι)

/-- Where the file of a request goes. -/
def destination (r : ι) : Option AbsPath :=
  (c.form r).destination c.disk

/-- The directories that `_process_uploaded_file` makes sure of. -/
def uploadDirs (info : UploadInfo) : List AbsPath :=
  if info.dirPath = [] then []
  else
    let curPath := (c.disk.filePaths info.root).elim [] fun dir => dir.text
    ((((stripSlash info.dirPath).splitOn '/').scanl PosixPath.join curPath).tail).map .ofText

/-- The form of a request is complete, its fields are UTF-8, and it does not go to a temporary
file. -/
structure Fit (r : ι) : Prop where
  complete : (c.form r).Complete
  decodable : (c.form r).Decodable
  notTemp : ∀ loopTime, c.destination r ≠ some (genTempUploadPath loopTime)

end Uploads

/-- The file system, the handlers of the requests, and the request that holds `sync_lock`. -/
structure UploadRun (ι : Type) where
  files : FileSystem
  handler : ι → Option UploadHandler
  syncLock : Option ι

/-- What happens. -/
inductive UploadEvent (ι : Type) where
  /-- A request arrives in a second. -/
  | prepare (r : ι) (loopTime : ℕ)
  /-- The next call of the parser. -/
  | call (r : ι)
  /-- Bytes of a buffer are written. -/
  | flush (r : ι) (n : ℕ)
  | post (r : ι)
  /-- `sync_lock` is acquired, and the checks of other components permit the upload or not. -/
  | acquire (r : ι) (permitted : Bool)
  | makeDir (r : ι)
  | move (r : ι)
  /-- What comes behind the move has returned. -/
  | finish (r : ι)

namespace UploadRun

variable {ι : Type} [DecidableEq ι] (c : Uploads ι) (s : UploadRun ι) (r : ι) (x : UploadHandler)

/-- The handler of a request and the file system after a step. -/
def set (files : FileSystem) (x : UploadHandler) : UploadRun ι :=
  { s with files := files, handler := Function.update s.handler r (some x) }

/-- The next call of the parser. -/
def call : Option (UploadRun ι) :=
  match x.calls with
  | [] => none
  | .onStart :: calls =>
    match s.files.openWrite x.tmpFilePath with
    | none => some (s.set r s.files { x with stage := .done false })
    | some (files, i) =>
      some (s.set r (files.close x.fd) { x with fd := some ⟨i, 0, []⟩, calls := calls })
  | .onDataReceived chunk :: calls =>
    some (s.set r s.files { x with
      fd := x.fd.map fun d => { d with buffer := d.buffer ++ chunk }
      calls := calls })
  | .onFinish :: calls =>
    some (s.set r (s.files.close x.fd) { x with fd := none, calls := calls })
  | .parseFailed :: _ => some (s.set r s.files { x with parseFailed := true, calls := [] })

/-- `post` up to `finalize_upload`. -/
def post : UploadRun ι :=
  let f := c.form r
  if x.parseFailed then
    s.set r ((s.files.close x.fd).remove x.tmpFilePath)
      { x with fd := none, stage := .done false }
  else
    match UploadForm.fieldValue f.checksum with
    | none => s.set r s.files { x with stage := .done false }
    | some checksum =>
      if checksum.all fun recd => lower (c.sha256 f.body) = lower recd then
        match f.formArgs x.tmpFilePath.text with
        | none => s.set r s.files { x with stage := .done false }
        | some args => s.set r s.files { x with stage := .waiting args }
      else s.set r (s.files.remove x.tmpFilePath) { x with stage := .done false }

/-- `sync_lock` is acquired or released. -/
def lock (owner : Option ι) : UploadRun ι :=
  { s with syncLock := owner }

/-- An upload that is not accepted, or whose file cannot be saved : the temporary file is removed
and the lock is released. -/
def refuse : UploadRun ι :=
  (s.set r (s.files.remove x.tmpFilePath) { x with stage := .done false }).lock none

/-- `finalize_upload` up to the directories of the destination. -/
def acquire (args : UploadArgs) (permitted : Bool) : UploadRun ι :=
  match parseUploadArgs c.disk args with
  | .error _ => s.refuse r x
  | .ok info =>
    if permitted then
      (s.set r s.files { x with stage := .making info (c.uploadDirs info) }).lock (some r)
    else s.refuse r x

/-- A turn of the loop over the directories. -/
def makeDir (info : UploadInfo) (dir : AbsPath) (dirs : List AbsPath) : UploadRun ι :=
  if s.files.has dir then s.set r s.files { x with stage := .making info dirs }
  else
    match s.files.mkdir dir with
    | none => s.refuse r x
    | some files => s.set r files { x with stage := .making info dirs }

/-- The file is moved to its destination. An archive is moved when it is unpacked. -/
def move (info : UploadInfo) : UploadRun ι :=
  if info.unzipUfp then s.set r s.files { x with stage := .moved }
  else
    match s.files.move x.tmpFilePath (.ofText info.destPath) with
    | none => s.refuse r x
    | some files => s.set r files { x with stage := .moved }

/-- One event. -/
def next : UploadEvent ι → Option (UploadRun ι)
  | .prepare r loopTime =>
    if (s.handler r).isSome then none
    else
      some (s.set r s.files
        ⟨genTempUploadPath loopTime, none, (c.form r).calls, false, .receiving⟩)
  | .call r => (s.handler r).bind fun x =>
    match x.stage with
    | .receiving => s.call r x
    | _ => none
  | .flush r n => (s.handler r).bind fun x => x.fd.map fun d =>
    s.set r (s.files.flush d n).1 { x with fd := some (s.files.flush d n).2 }
  | .post r => (s.handler r).bind fun x =>
    match x.stage, x.calls with
    | .receiving, [] => some (s.post c r x)
    | _, _ => none
  | .acquire r permitted => (s.handler r).bind fun x =>
    match x.stage, s.syncLock with
    | .waiting args, none => some (s.acquire c r x args permitted)
    | _, _ => none
  | .makeDir r => (s.handler r).bind fun x =>
    match x.stage with
    | .making info (dir :: dirs) => some (s.makeDir r x info dir dirs)
    | _ => none
  | .move r => (s.handler r).bind fun x =>
    match x.stage with
    | .making info [] => some (s.move r x info)
    | _ => none
  | .finish r => (s.handler r).bind fun x =>
    match x.stage with
    | .moved => some ((s.set r s.files { x with stage := .done true }).lock none)
    | _ => none

/-- Before the first request. -/
def start : UploadRun ι :=
  ⟨c.files, fun _ => none, none⟩

/-- The runs. -/
def system : System (UploadRun ι) (UploadEvent ι) where
  init s := s = start c
  next s e := s.next c e

/-! ## Independence -/

end UploadRun

namespace UploadStage

/-- The temporary file is in use. -/
def Active : UploadStage → Prop
  | receiving | waiting _ | making _ _ => True
  | moved | done _ => False

/-- The file is at its destination. -/
def Moved : UploadStage → Prop
  | moved => True
  | done success => success = true
  | _ => False

theorem not_moved_of_active {a : UploadStage} (h : a.Active) : ¬a.Moved := by
  cases a with
  | moved => exact fun _ => h
  | done => exact fun _ => h
  | receiving => exact id
  | waiting => exact id
  | making => exact id

end UploadStage

/-- The temporary file of a handler is what was written to it, together with its buffer. -/
def UploadHandler.Holds (x : UploadHandler) (files : FileSystem) : FormWritten → Prop
  | .unopened => x.fd = none ∧ files.named x.tmpFilePath = none
  | .opened data => ∃ d, x.fd = some d ∧ files.named x.tmpFilePath = some d.file ∧
      d.pos = (files.holds d.file).length ∧ files.holds d.file ++ d.buffer = data
  | .closed data => x.fd = none ∧ files.content x.tmpFilePath = some data

namespace UploadRun

variable {ι : Type} [DecidableEq ι] (c : Uploads ι) (s : UploadRun ι)

/-- Uploads do not disturb each other. -/
structure Independent : Prop where
  /-- A request that reports success has left its own bytes at its destination. -/
  delivered : ∀ r x, s.handler r = some x → x.stage = .done true →
    ∃ p, c.destination r = some p ∧ s.files.content p = some (c.form r).body
  /-- Every other file is as it was, unless it is a temporary one. -/
  kept : ∀ p, (∀ loopTime, p ≠ genTempUploadPath loopTime) →
    (∀ r x, s.handler r = some x → x.stage.Moved → c.destination r ≠ some p) →
      s.files.content p = c.files.content p
  /-- The temporary file of a request is what it has received. -/
  received : ∀ r x, s.handler r = some x → x.stage = .receiving → x.parseFailed = false →
    ∃ front, (c.form r).calls = front ++ x.calls ∧
      x.Holds s.files (front.foldl FormWritten.call .unopened)
  /-- When all requests are finished no temporary file is left. -/
  removed : (∀ r x, s.handler r = some x → ∃ success, x.stage = .done success) →
    ∀ loopTime, s.files.named (genTempUploadPath loopTime) = none

/-- No unfinished request has arrived in the same second, the form is fit, and no directory is made
where an upload or a temporary file goes. -/
def Clear : UploadEvent ι → Prop
  | .prepare r loopTime => c.Fit r ∧ ∀ r' x, s.handler r' = some x → x.stage.Active →
      x.tmpFilePath ≠ genTempUploadPath loopTime
  | .makeDir r => ∀ x info dir dirs, s.handler r = some x → x.stage = .making info (dir :: dirs) →
      s.files.has dir = false →
        (∀ loopTime, dir ≠ genTempUploadPath loopTime) ∧ ∀ r', c.destination r' ≠ some dir
  | _ => True

/-! ## What a step keeps -/

/-- What is known of a handler at its stage. -/
def Progress (files : FileSystem) (r : ι) (x : UploadHandler) : Prop :=
  match x.stage with
  | .receiving =>
    (∃ w, x.Holds files w ∧ (x.parseFailed = false → ∃ front, (c.form r).calls = front ++ x.calls ∧
      .parseFailed ∉ front ∧ w = front.foldl FormWritten.call .unopened)) ∧
    (x.parseFailed = true → x.calls = [])
  | .waiting args =>
    (x.Holds files .unopened ∨ x.Holds files (.closed (c.form r).body)) ∧
      (c.form r).formArgs x.tmpFilePath.text = some args
  | .making info _ =>
    (x.Holds files .unopened ∨ x.Holds files (.closed (c.form r).body)) ∧
      c.destination r = some (.ofText info.destPath) ∧ info.unzipUfp = false
  | .moved | .done _ => x.fd = none

/-- What holds in every run of fit uploads. -/
structure Inv : Prop where
  separate : s.files.Separate
  temp_isdir : ∀ loopTime, s.files.isdir (genTempUploadPath loopTime) = false
  destination_isdir : ∀ r p, c.destination r = some p → s.files.isdir p = false
  temp : ∀ r x, s.handler r = some x → ∃ loopTime, x.tmpFilePath = genTempUploadPath loopTime
  fit : ∀ r x, s.handler r = some x → c.Fit r
  apart : ∀ r r' x x', s.handler r = some x → s.handler r' = some x' → x.stage.Active →
    x'.stage.Active → x.tmpFilePath = x'.tmpFilePath → r = r'
  owned : ∀ loopTime i, s.files.named (genTempUploadPath loopTime) = some i →
    ∃ r x, s.handler r = some x ∧ x.stage.Active ∧ x.tmpFilePath = genTempUploadPath loopTime
  progress : ∀ r x, s.handler r = some x → Progress c s.files r x
  delivered : ∀ r x, s.handler r = some x → x.stage.Moved →
    ∃ p, c.destination r = some p ∧ s.files.content p = some (c.form r).body
  kept : ∀ p, (∀ loopTime, p ≠ genTempUploadPath loopTime) →
    (∀ r x, s.handler r = some x → x.stage.Moved → c.destination r ≠ some p) →
      s.files.content p = c.files.content p

variable {c s} {r : ι} {x x' : UploadHandler} {files : FileSystem} {w : FormWritten}

theorem holds_congr (hfd : x'.fd = x.fd) (htmp : x'.tmpFilePath = x.tmpFilePath)
    (h : FileSystem.SameAt s.files files x.tmpFilePath) (hw : x.Holds s.files w) :
    x'.Holds files w := by
  cases w with
  | unopened => exact ⟨hfd.trans hw.1, by rw [htmp, h.1]; exact hw.2⟩
  | opened data =>
    obtain ⟨d, hd, hnamed, hpos, hdata⟩ := hw
    have hholds := h.2 d.file hnamed
    exact ⟨d, hfd.trans hd, by rw [htmp, h.1, hnamed], by rw [hholds, hpos], by rw [hholds, hdata]⟩
  | closed data => exact ⟨hfd.trans hw.1, by rw [htmp, h.content_eq]; exact hw.2⟩

theorem settled_congr {body : List UInt8} (hfd : x'.fd = x.fd)
    (htmp : x'.tmpFilePath = x.tmpFilePath)
    (h : FileSystem.SameAt s.files files x.tmpFilePath)
    (hw : x.Holds s.files .unopened ∨ x.Holds s.files (.closed body)) :
    x'.Holds files .unopened ∨ x'.Holds files (.closed body) :=
  hw.imp (holds_congr hfd htmp h) (holds_congr hfd htmp h)

/-- Only the temporary file matters to a handler. -/
theorem Progress.congr (h : Progress c s.files r x)
    (hsame : x.stage.Active → FileSystem.SameAt s.files files x.tmpFilePath) :
    Progress c files r x := by
  unfold Progress at h ⊢
  cases hstage : x.stage with
  | receiving =>
    rw [hstage] at h hsame
    obtain ⟨⟨w, hw, hfront⟩, hcalls⟩ := h
    exact ⟨⟨w, holds_congr rfl rfl (hsame trivial) hw, hfront⟩, hcalls⟩
  | waiting args =>
    rw [hstage] at h hsame
    exact ⟨settled_congr rfl rfl (hsame trivial) h.1, h.2⟩
  | making info dirs =>
    rw [hstage] at h hsame
    exact ⟨settled_congr rfl rfl (hsame trivial) h.1, h.2⟩
  | moved =>
    rw [hstage] at h
    exact h
  | done success =>
    rw [hstage] at h
    exact h

theorem Inv.lock (h : Inv c s) (owner : Option ι) : Inv c (s.lock owner) :=
  ⟨h.separate, h.temp_isdir, h.destination_isdir, h.temp, h.fit, h.apart, h.owned, h.progress,
    h.delivered, h.kept⟩

theorem handler_set (r' : ι) : (s.set r files x).handler r' =
    if r' = r then some x else s.handler r' :=
  Function.update_apply _ _ _ _

theorem handler_set_self : (s.set r files x).handler r = some x := by
  rw [handler_set, if_pos rfl]

theorem handler_set_of_ne {r' : ι} (hne : r' ≠ r) :
    (s.set r files x).handler r' = s.handler r' := by
  rw [handler_set, if_neg hne]

/-- A handler after one is set is this one, or another one as it was. -/
theorem handler_set_cases {r' : ι} {y : UploadHandler}
    (hy : (s.set r files x).handler r' = some y) :
    (r' = r ∧ y = x) ∨ (r' ≠ r ∧ s.handler r' = some y) := by
  by_cases hr' : r' = r
  · subst hr'
    rw [handler_set_self] at hy
    exact .inl ⟨rfl, (Option.some.inj hy).symm⟩
  · rw [handler_set_of_ne hr'] at hy
    exact .inr ⟨hr', hy⟩

/-- What holds of the handler that is set, and of the others as they were. -/
theorem handler_set_forall {P : ι → UploadHandler → Prop} (hnew : P r x)
    (hold : ∀ r' y, r' ≠ r → s.handler r' = some y → P r' y) (r' : ι) (y : UploadHandler)
    (hy : (s.set r files x).handler r' = some y) : P r' y := by
  rcases handler_set_cases hy with ⟨rfl, rfl⟩ | ⟨hne, hy⟩
  · exact hnew
  · exact hold r' y hne hy

/-- The handler that is set has a temporary file of its own. -/
theorem Inv.apart_set (h : Inv c s)
    (hapart : x.stage.Active → ∀ r' y, r' ≠ r → s.handler r' = some y → y.stage.Active →
      y.tmpFilePath ≠ x.tmpFilePath) (r₁ r₂ : ι) (y₁ y₂ : UploadHandler)
    (h₁ : (s.set r files x).handler r₁ = some y₁) (h₂ : (s.set r files x).handler r₂ = some y₂)
    (ha₁ : y₁.stage.Active) (ha₂ : y₂.stage.Active) (heq : y₁.tmpFilePath = y₂.tmpFilePath) :
    r₁ = r₂ := by
  rcases handler_set_cases h₁ with ⟨rfl, rfl⟩ | ⟨hne₁, hold₁⟩
  · rcases handler_set_cases h₂ with ⟨rfl, -⟩ | ⟨hne₂, hold₂⟩
    · rfl
    · exact absurd heq.symm (hapart ha₁ r₂ y₂ hne₂ hold₂ ha₂)
  · rcases handler_set_cases h₂ with ⟨rfl, rfl⟩ | ⟨-, hold₂⟩
    · exact absurd heq (hapart ha₂ r₁ y₁ hne₁ hold₁ ha₁)
    · exact h.apart r₁ r₂ y₁ y₂ hold₁ hold₂ ha₁ ha₂ heq

/-- A step of a request that has a temporary file changes nothing but this file, and its destination
if it moves it there. -/
theorem Inv.set (h : Inv c s) (hr : s.handler r = some x) (hactive : x.stage.Active)
    (htmp : x'.tmpFilePath = x.tmpFilePath) (hseparate : files.Separate)
    (hisdir : ∀ p, files.isdir p = true → s.files.isdir p = true ∨
      (∀ loopTime, p ≠ genTempUploadPath loopTime) ∧ ∀ r', c.destination r' ≠ some p)
    (hsame : ∀ q ≠ x.tmpFilePath, (x'.stage.Moved → c.destination r ≠ some q) →
      FileSystem.SameAt s.files files q)
    (hprogress : Progress c files r x')
    (hended : ¬x'.stage.Active → files.named x.tmpFilePath = none)
    (hmoved : x'.stage.Moved → ∃ p, c.destination r = some p ∧
      files.content p = some (c.form r).body) : Inv c (s.set r files x') := by
  obtain ⟨own, hown⟩ := h.temp r x hr
  have hfit := h.fit r x hr
  have hnotTemp : ∀ r' y, s.handler r' = some y → ∀ p, c.destination r' = some p →
      p ≠ x.tmpFilePath := by
    rintro r' y hy p hp rfl
    exact (h.fit r' y hy).notTemp own (hown ▸ hp)
  have htempSame : ∀ loopTime, genTempUploadPath loopTime ≠ x.tmpFilePath →
      FileSystem.SameAt s.files files (genTempUploadPath loopTime) :=
    fun loopTime hne => hsame _ hne fun _ => hfit.notTemp loopTime
  exact {
    separate := hseparate
    temp_isdir := fun loopTime => by
      by_contra hdir
      rcases hisdir _ (eq_true_of_ne_false hdir) with hold | ⟨hnot, -⟩
      · exact Bool.false_ne_true ((h.temp_isdir loopTime).symm.trans hold)
      · exact hnot loopTime rfl
    destination_isdir := fun r' p hp => by
      by_contra hdir
      rcases hisdir _ (eq_true_of_ne_false hdir) with hold | ⟨-, hnot⟩
      · exact Bool.false_ne_true ((h.destination_isdir r' p hp).symm.trans hold)
      · exact hnot r' hp
    temp := handler_set_forall ⟨own, htmp.trans hown⟩ fun r' y _ => h.temp r' y
    fit := handler_set_forall hfit fun r' y _ => h.fit r' y
    apart := h.apart_set fun _ r' y hne hy ha heq =>
      hne (h.apart r' r y x hy hr ha hactive (heq.trans htmp))
    owned := fun loopTime i hi => by
      by_cases heq : genTempUploadPath loopTime = x.tmpFilePath
      · refine ⟨r, x', handler_set_self, ?_, htmp.trans heq.symm⟩
        by_contra hnot
        have := hended hnot
        rw [← heq] at this
        exact Option.some_ne_none i (hi.symm.trans this)
      · rw [show (s.set r files x').files = files from rfl, (htempSame loopTime heq).1] at hi
        obtain ⟨r', y, hy, ha, hpath⟩ := h.owned loopTime i hi
        have hne : r' ≠ r := by
          rintro rfl
          obtain rfl := Option.some.inj (hr.symm.trans hy)
          exact heq hpath.symm
        exact ⟨r', y, (handler_set_of_ne hne).trans hy, ha, hpath⟩
    progress := handler_set_forall hprogress fun r' y hne hy => by
      refine (h.progress r' y hy).congr fun ha => ?_
      obtain ⟨loopTime, hpath⟩ := h.temp r' y hy
      rw [hpath]
      refine htempSame loopTime fun heq => hne ?_
      exact h.apart r' r y x hy hr ha hactive (hpath.trans heq)
    delivered := handler_set_forall hmoved fun r' y hne hy hm => by
      obtain ⟨p, hp, hcontent⟩ := h.delivered r' y hy hm
      refine ⟨p, hp, Eq.trans ?_ hcontent⟩
      exact (hsame p (hnotTemp r' y hy p hp) fun _ hp' =>
        hne (c.distinct r' r p hp hp')).content_eq
    kept := fun p hp hmoved => by
      have hsame := hsame p (hown ▸ hp own) fun hm => hmoved r x' handler_set_self hm
      refine hsame.content_eq.trans (h.kept p hp fun r' y hy hm => ?_)
      have hne : r' ≠ r := by
        rintro rfl
        obtain rfl := Option.some.inj (hr.symm.trans hy)
        exact UploadStage.not_moved_of_active hactive hm
      exact hmoved r' y ((handler_set_of_ne hne).trans hy) hm }

/-- A step that changes only what is behind the name of the temporary file. -/
theorem Inv.set_own (h : Inv c s) (hr : s.handler r = some x) (hactive : x.stage.Active)
    (htmp : x'.tmpFilePath = x.tmpFilePath) (hseparate : files.Separate)
    (hisdir : files.isdir = s.files.isdir)
    (hsame : ∀ q ≠ x.tmpFilePath, FileSystem.SameAt s.files files q)
    (hprogress : Progress c files r x')
    (hended : ¬x'.stage.Active → files.named x.tmpFilePath = none)
    (hmoved : ¬x'.stage.Moved) : Inv c (s.set r files x') :=
  h.set hr hactive htmp hseparate (fun _ hp => .inl (hisdir ▸ hp)) (fun q hq _ => hsame q hq)
    hprogress hended fun hm => absurd hm hmoved

/-- A request that fails has no temporary file. -/
theorem Inv.remove (h : Inv c s) (hr : s.handler r = some x) (hactive : x.stage.Active)
    (hfd : x.fd = none) :
    Inv c (s.set r (s.files.remove x.tmpFilePath) { x with stage := .done false }) := by
  obtain ⟨hseparate, hnone, hsame⟩ := FileSystem.remove_spec h.separate x.tmpFilePath
  exact h.set_own hr hactive rfl hseparate rfl hsame hfd (fun _ => hnone)
    (by simp [UploadStage.Moved])

/-- A step of the handler alone. -/
theorem Inv.handler (h : Inv c s) (hr : s.handler r = some x) (hactive : x.stage.Active)
    (htmp : x'.tmpFilePath = x.tmpFilePath) (hprogress : Progress c s.files r x')
    (hactive' : x'.stage.Active) : Inv c (s.set r s.files x') :=
  h.set_own hr hactive htmp h.separate rfl (fun q _ => .refl _ q) hprogress
    (fun hnot => absurd hactive' hnot) (UploadStage.not_moved_of_active hactive')

/-- What a receiving handler holds, before its next call. -/
theorem Inv.receiving (h : Inv c s) (hr : s.handler r = some x) (hstage : x.stage = .receiving) :
    (∃ w, x.Holds s.files w ∧ (x.parseFailed = false → ∃ front,
      (c.form r).calls = front ++ x.calls ∧ .parseFailed ∉ front ∧
        w = front.foldl FormWritten.call .unopened)) ∧
    (x.parseFailed = true → x.calls = []) := by
  have hprogress := h.progress r x hr
  unfold Progress at hprogress
  rwa [hstage] at hprogress

/-- A call that does not fail is added to those that have been made. -/
theorem progress_call {call : ParserCall} {calls : List ParserCall} (hstage : x.stage = .receiving)
    (hcalls : x.calls = call :: calls) (hstage' : x'.stage = .receiving)
    (hcalls' : x'.calls = calls) (hfailed : x'.parseFailed = x.parseFailed)
    (hcall : call ≠ .parseFailed) (h : Inv c s) (hr : s.handler r = some x)
    (hholds : ∀ front, (c.form r).calls = front ++ x.calls →
      x.Holds s.files (front.foldl FormWritten.call .unopened) →
        x'.Holds files ((front.foldl FormWritten.call .unopened).call call)) :
    Progress c files r x' := by
  obtain ⟨⟨w, hw, hfront⟩, hend⟩ := h.receiving hr hstage
  have hparse : x.parseFailed = false := by
    refine eq_false_of_ne_true fun hparse => ?_
    rw [hend hparse] at hcalls
    cases hcalls
  obtain ⟨front, hform, hnot, rfl⟩ := hfront hparse
  unfold Progress
  rw [hstage']
  refine ⟨⟨_, hholds front hform hw, fun _ => ⟨front ++ [call], ?_, ?_, ?_⟩⟩, fun hparse' => ?_⟩
  · rw [hform, hcalls, hcalls', List.append_assoc, List.singleton_append]
  · rw [List.mem_append, List.mem_singleton]
    exact fun hmem => hmem.elim hnot fun heq => hcall heq.symm
  · rw [List.foldl_append, List.foldl_cons, List.foldl_nil]
  · rw [hfailed, hparse] at hparse'
    cases hparse'

/-- A file that is closed holds all that was written to it. -/
theorem holds_close (hseparate : s.files.Separate) (hw : x.Holds s.files w) :
    (s.files.close x.fd).Separate ∧ (s.files.close x.fd).named = s.files.named ∧
      (s.files.close x.fd).isdir = s.files.isdir ∧
      (∀ q ≠ x.tmpFilePath, FileSystem.SameAt s.files (s.files.close x.fd) q) ∧
      { x with fd := none }.Holds (s.files.close x.fd) (w.call .onFinish) := by
  have hclosed : x.fd = none → s.files.close x.fd = s.files := fun hfd => by rw [hfd]; rfl
  cases w with
  | unopened =>
    rw [hclosed hw.1]
    exact ⟨hseparate, rfl, rfl, fun q _ => .refl _ q, rfl, hw.2⟩
  | opened data =>
    obtain ⟨d, hd, hnamed, hpos, hdata⟩ := hw
    rw [hd]
    obtain ⟨hseparate', hnamed', hisdir, hholds, hsame⟩ :=
      FileSystem.close_spec hseparate hnamed hpos
    refine ⟨hseparate', hnamed', hisdir, hsame, rfl, ?_⟩
    show FileSystem.content _ x.tmpFilePath = some data
    rw [FileSystem.content, hnamed', hnamed, Option.map_some, hholds, hdata]
  | closed data =>
    rw [hclosed hw.1]
    exact ⟨hseparate, rfl, rfl, fun q _ => .refl _ q, rfl, hw.2⟩

theorem inv_call (h : Inv c s) (hr : s.handler r = some x) (hstage : x.stage = .receiving)
    {t : UploadRun ι} (ht : s.call r x = some t) : Inv c t := by
  have hactive : x.stage.Active := by rw [hstage]; trivial
  obtain ⟨⟨w, hw, hfront⟩, hend⟩ := h.receiving hr hstage
  have hparse : x.calls ≠ [] → x.parseFailed = false := fun hne =>
    eq_false_of_ne_true fun hparse => hne (hend hparse)
  unfold call at ht
  split at ht
  · cases ht
  · rename_i calls hcalls
    obtain ⟨front, hform, -, rfl⟩ := hfront (hparse (by rw [hcalls]; exact List.cons_ne_nil _ _))
    -- there is one file, so this is the first call
    obtain rfl : front = [] := by
      by_contra hne
      obtain ⟨a, front, rfl⟩ := List.exists_cons_of_ne_nil hne
      refine (h.fit r x hr).complete.1 ?_
      rw [hform, hcalls]
      simp
    obtain ⟨hfd, hnone⟩ := hw
    have hclose : ∀ files : FileSystem, files.close x.fd = files := fun files => by rw [hfd]; rfl
    cases hopen : s.files.openWrite x.tmpFilePath with
    | none =>
      rw [hopen] at ht
      obtain rfl := Option.some.inj ht
      exact h.set_own hr hactive rfl h.separate rfl (fun q _ => .refl _ q) hfd (fun _ => hnone)
        (by simp [UploadStage.Moved])
    | some opened =>
      obtain ⟨files, i⟩ := opened
      rw [hopen] at ht
      obtain rfl := Option.some.inj ht
      rw [hclose]
      obtain ⟨hseparate, hnamed, hempty, hisdir, hsame⟩ :=
        FileSystem.openWrite_spec h.separate hnone hopen
      refine h.set_own hr hactive rfl hseparate hisdir hsame ?_ (fun hnot => absurd hactive hnot)
        (UploadStage.not_moved_of_active hactive)
      refine progress_call hstage hcalls hstage rfl rfl (by simp) h hr fun front _ _ => ?_
      exact ⟨⟨i, 0, []⟩, rfl, hnamed, by rw [hempty]; rfl, by rw [hempty]; rfl⟩
  · rename_i chunk calls hcalls
    obtain rfl := Option.some.inj ht
    refine h.handler hr hactive rfl ?_ hactive
    refine progress_call hstage hcalls hstage rfl rfl (by simp) h hr fun front _ hw => ?_
    cases hwritten : front.foldl FormWritten.call .unopened with
    | unopened =>
      rw [hwritten] at hw
      exact ⟨by rw [hw.1]; rfl, hw.2⟩
    | opened data =>
      rw [hwritten] at hw
      obtain ⟨d, hd, hnamed, hpos, hdata⟩ := hw
      exact ⟨{ d with buffer := d.buffer ++ chunk }, by rw [hd]; rfl, hnamed, hpos,
        by rw [← hdata, List.append_assoc]⟩
    | closed data =>
      rw [hwritten] at hw
      exact ⟨by rw [hw.1]; rfl, hw.2⟩
  · rename_i calls hcalls
    obtain rfl := Option.some.inj ht
    obtain ⟨hseparate, -, hisdir, hsame, -⟩ := holds_close h.separate hw
    refine h.set_own hr hactive rfl hseparate hisdir hsame ?_ (fun hnot => absurd hactive hnot)
      (UploadStage.not_moved_of_active hactive)
    refine progress_call hstage hcalls hstage rfl rfl (by simp) h hr fun front _ hw => ?_
    obtain ⟨-, -, -, -, hclosed⟩ := holds_close h.separate hw
    exact hclosed
  · obtain rfl := Option.some.inj ht
    refine h.handler hr hactive rfl ?_ hactive
    unfold Progress
    rw [hstage]
    exact ⟨⟨w, holds_congr rfl rfl (.refl _ _) hw, fun hfalse => nomatch hfalse⟩, fun _ => rfl⟩

theorem fd_eq_none {body : List UInt8}
    (h : x.Holds files .unopened ∨ x.Holds files (.closed body)) : x.fd = none :=
  h.elim And.left And.left

theorem inv_flush (h : Inv c s) (hr : s.handler r = some x) {d : Descriptor} (hd : x.fd = some d)
    (n : ℕ) :
    Inv c (s.set r (s.files.flush d n).1 { x with fd := some (s.files.flush d n).2 }) := by
  have hprogress := h.progress r x hr
  have hstage : x.stage = .receiving := by
    unfold Progress at hprogress
    cases hstage : x.stage with
    | receiving => rfl
    | waiting args =>
      rw [hstage] at hprogress
      exact nomatch hd.symm.trans (fd_eq_none hprogress.1)
    | making info dirs =>
      rw [hstage] at hprogress
      exact nomatch hd.symm.trans (fd_eq_none hprogress.1)
    | moved =>
      rw [hstage] at hprogress
      exact nomatch hd.symm.trans hprogress
    | done success =>
      rw [hstage] at hprogress
      exact nomatch hd.symm.trans hprogress
  have hactive : x.stage.Active := by rw [hstage]; trivial
  obtain ⟨⟨w, hw, hfront⟩, hend⟩ := h.receiving hr hstage
  cases w with
  | unopened => exact nomatch hd.symm.trans hw.1
  | closed data => exact nomatch hd.symm.trans hw.1
  | opened data =>
    obtain ⟨d', hd', hnamed, hpos, hdata⟩ := hw
    obtain rfl := Option.some.inj (hd.symm.trans hd')
    obtain ⟨hseparate, -, hisdir, hholds, hpos', hsame⟩ :=
      FileSystem.flush_spec h.separate hnamed hpos n
    refine h.set_own hr hactive rfl hseparate hisdir hsame ?_ (fun hnot => absurd hactive hnot)
      (UploadStage.not_moved_of_active hactive)
    unfold Progress
    rw [hstage]
    exact ⟨⟨.opened data, ⟨_, rfl, hnamed, hpos', hholds.trans hdata⟩, hfront⟩, hend⟩

/-- A form is complete when it has been parsed. -/
theorem holds_parsed (h : Inv c s) (hr : s.handler r = some x) (hstage : x.stage = .receiving)
    (hcalls : x.calls = []) (hparse : x.parseFailed = false) :
    x.Holds s.files .unopened ∨ x.Holds s.files (.closed (c.form r).body) := by
  obtain ⟨⟨w, hw, hfront⟩, -⟩ := h.receiving hr hstage
  obtain ⟨front, hform, hnot, rfl⟩ := hfront hparse
  rw [hcalls, List.append_nil] at hform
  subst hform
  rcases (h.fit r x hr).complete.2 with hmem | hnil | hclosed
  · exact absurd hmem hnot
  · rw [hnil] at hw
    exact .inl hw
  · exact .inr (hclosed ▸ hw)

theorem formArgs_eq (f : UploadForm) (tmpFilePath : Text) : f.formArgs tmpFilePath =
    (f.formArgs []).map fun args => { args with tmpFilePath := tmpFilePath } := by
  unfold UploadForm.formArgs
  cases UploadForm.fieldValue f.root with
  | none => rfl
  | some root =>
    cases UploadForm.fieldValue f.print with
    | none => rfl
    | some print => cases UploadForm.fieldValue f.path <;> rfl

theorem inv_post (h : Inv c s) (hr : s.handler r = some x) (hstage : x.stage = .receiving)
    (hcalls : x.calls = []) : Inv c (s.post c r x) := by
  have hactive : x.stage.Active := by rw [hstage]; trivial
  have hfit := h.fit r x hr
  unfold post
  by_cases hparse : x.parseFailed = true
  · rw [if_pos hparse]
    obtain ⟨⟨w, hw, -⟩, -⟩ := h.receiving hr hstage
    obtain ⟨hseparate, -, hisdir, hsame, -⟩ := holds_close h.separate hw
    obtain ⟨hseparate', hnone, hsame'⟩ := FileSystem.remove_spec hseparate x.tmpFilePath
    exact h.set_own hr hactive rfl hseparate' hisdir
      (fun q hq => (hsame q hq).trans (hsame' q hq)) rfl (fun _ => hnone)
      (by simp [UploadStage.Moved])
  · rw [if_neg hparse]
    have hholds := holds_parsed h hr hstage hcalls (eq_false_of_ne_true hparse)
    obtain ⟨checksum, hchecksum⟩ := Option.isSome_iff_exists.1 hfit.decodable.1
    obtain ⟨args, hargs⟩ := Option.isSome_iff_exists.1 hfit.decodable.2
    have hargs' := formArgs_eq (c.form r) x.tmpFilePath.text
    rw [hargs, Option.map_some] at hargs'
    rw [hchecksum, hargs']
    dsimp only
    split
    · refine h.handler hr hactive rfl ?_ trivial
      exact ⟨settled_congr rfl rfl (.refl _ _) hholds, hargs'⟩
    · exact h.remove hr hactive (fd_eq_none hholds)

/-- What is kept of a form does not depend on the temporary file, which is kept too. -/
theorem parseUploadArgs_tmp (disk : Disk) (args : UploadArgs) (tmpFilePath : Text) :
    parseUploadArgs disk { args with tmpFilePath := tmpFilePath } =
      (parseUploadArgs disk args).map fun info => { info with tmpFilePath := tmpFilePath } := by
  cases hfile : args.filename with
  | none =>
    simp only [parseUploadArgs, hfile]
    rfl
  | some filename =>
    simp only [parseUploadArgs, hfile, UploadArgs.rootName]
    cases disk.filePaths (lower (args.root.getD "gcodes".toList)) with
    | none => rfl
    | some dir =>
      show (if dir.text <+: uploadPath disk dir (args.destName filename) then _ else _) =
        Except.map _ (if dir.text <+: uploadPath disk dir (args.destName filename) then _ else _)
      by_cases hunder : dir.text <+: uploadPath disk dir (args.destName filename)
      · rw [if_pos hunder, if_pos hunder]
        rfl
      · rw [if_neg hunder, if_neg hunder]
        rfl

theorem destination_eq {args : UploadArgs} {info : UploadInfo} {tmpFilePath : Text}
    (hargs : (c.form r).formArgs tmpFilePath = some args)
    (hinfo : parseUploadArgs c.disk args = .ok info) :
    c.destination r = some (.ofText info.destPath) ∧ info.unzipUfp = false := by
  rw [formArgs_eq, Option.map_eq_some_iff] at hargs
  obtain ⟨args, hargs, rfl⟩ := hargs
  rw [parseUploadArgs_tmp] at hinfo
  cases hinfo' : parseUploadArgs c.disk args with
  | error e =>
    rw [hinfo'] at hinfo
    cases hinfo
  | ok info' =>
    rw [hinfo'] at hinfo
    obtain rfl := Except.ok.inj hinfo
    refine ⟨?_, (c.plain r args info' hargs hinfo').2⟩
    unfold Uploads.destination UploadForm.destination
    rw [hargs, Option.bind_some, hinfo']

theorem inv_refuse (h : Inv c s) (hr : s.handler r = some x) (hactive : x.stage.Active)
    (hfd : x.fd = none) : Inv c (s.refuse r x) :=
  (h.remove hr hactive hfd).lock none

theorem inv_acquire (h : Inv c s) (hr : s.handler r = some x) {args : UploadArgs}
    (hstage : x.stage = .waiting args) (permitted : Bool) :
    Inv c (s.acquire c r x args permitted) := by
  have hactive : x.stage.Active := by rw [hstage]; trivial
  have hprogress := h.progress r x hr
  unfold Progress at hprogress
  rw [hstage] at hprogress
  obtain ⟨hholds, hargs⟩ := hprogress
  have hrefuse := inv_refuse h hr hactive (fd_eq_none hholds)
  unfold acquire
  split
  · exact hrefuse
  · rename_i info hinfo
    split
    · have hset : Inv c (s.set r s.files { x with stage := .making info (c.uploadDirs info) }) := by
        refine h.handler hr hactive rfl ?_ trivial
        exact ⟨settled_congr rfl rfl (.refl _ _) hholds, destination_eq hargs hinfo⟩
      exact hset.lock (some r)
    · exact hrefuse

theorem inv_makeDir (h : Inv c s) (hr : s.handler r = some x) {info : UploadInfo} {dir : AbsPath}
    {dirs : List AbsPath} (hstage : x.stage = .making info (dir :: dirs))
    (hclear : s.files.has dir = false →
      (∀ loopTime, dir ≠ genTempUploadPath loopTime) ∧ ∀ r', c.destination r' ≠ some dir) :
    Inv c (s.makeDir r x info dir dirs) := by
  have hactive : x.stage.Active := by rw [hstage]; trivial
  have hprogress := h.progress r x hr
  unfold Progress at hprogress
  rw [hstage] at hprogress
  obtain ⟨hholds, hinfo⟩ := hprogress
  unfold makeDir
  split
  · refine h.handler hr hactive rfl ?_ trivial
    exact ⟨settled_congr rfl rfl (.refl _ _) hholds, hinfo⟩
  · cases hmkdir : s.files.mkdir dir with
    | none => exact inv_refuse h hr hactive (fd_eq_none hholds)
    | some files =>
      obtain ⟨hnew, rfl⟩ := FileSystem.mkdir_spec hmkdir
      refine h.set hr hactive rfl ⟨h.separate.inj, h.separate.lt_next⟩ (fun p hp => ?_)
        (fun q _ _ => ⟨rfl, fun _ _ => rfl⟩) ?_ (fun hnot => absurd trivial hnot)
        (fun hm => absurd hm (UploadStage.not_moved_of_active trivial))
      · by_cases hpdir : p = dir
        · exact .inr (hpdir ▸ hclear hnew)
        · exact .inl (by simpa [Function.update_of_ne hpdir] using hp)
      · exact ⟨settled_congr rfl rfl ⟨rfl, fun _ _ => rfl⟩ hholds, hinfo⟩

theorem inv_move (h : Inv c s) (hr : s.handler r = some x) {info : UploadInfo}
    (hstage : x.stage = .making info []) : Inv c (s.move r x info) := by
  have hactive : x.stage.Active := by rw [hstage]; trivial
  have hprogress := h.progress r x hr
  unfold Progress at hprogress
  rw [hstage] at hprogress
  obtain ⟨hholds, hdestination, hufp⟩ := hprogress
  obtain ⟨own, hown⟩ := h.temp r x hr
  unfold move
  rw [hufp, if_neg Bool.false_ne_true]
  cases hmove : s.files.move x.tmpFilePath (.ofText info.destPath) with
  | none => exact inv_refuse h hr hactive (fd_eq_none hholds)
  | some files =>
    have hne : x.tmpFilePath ≠ .ofText info.destPath := fun heq =>
      (h.fit r x hr).notTemp own (by rw [hdestination, ← heq, hown])
    obtain ⟨hseparate, hnone, hisdir, hcontent, hsome, hsame⟩ := FileSystem.move_spec h.separate
      (h.destination_isdir r _ hdestination) hne hmove
    have hclosed : x.Holds s.files (.closed (c.form r).body) := by
      refine hholds.resolve_left fun hw => ?_
      rw [hw.2] at hsome
      cases hsome
    refine h.set hr hactive rfl hseparate (fun p hp => .inl (hisdir ▸ hp)) (fun q hq hq' => ?_)
      (fd_eq_none hholds) (fun _ => hnone) (fun _ => ⟨_, hdestination, hcontent.trans hclosed.2⟩)
    exact hsame q hq fun heq => hq' trivial (heq ▸ hdestination)

/-- The handler of a request that has no temporary file is replaced. -/
theorem Inv.replace (h : Inv c s) (hinactive : ∀ x, s.handler r = some x → ¬x.stage.Active)
    (htemp : ∃ loopTime, x'.tmpFilePath = genTempUploadPath loopTime) (hfit : c.Fit r)
    (hprogress : Progress c s.files r x')
    (hapart : x'.stage.Active → ∀ r' y, s.handler r' = some y → y.stage.Active →
      y.tmpFilePath ≠ x'.tmpFilePath)
    (hmoved : x'.stage.Moved ↔ ∃ x, s.handler r = some x ∧ x.stage.Moved) :
    Inv c (s.set r s.files x') := by
  exact {
    separate := h.separate
    temp_isdir := h.temp_isdir
    destination_isdir := h.destination_isdir
    temp := handler_set_forall htemp fun r' y _ => h.temp r' y
    fit := handler_set_forall hfit fun r' y _ => h.fit r' y
    apart := h.apart_set fun ha r' y _ => hapart ha r' y
    owned := fun loopTime i hi => by
      obtain ⟨r', y, hy, ha, hpath⟩ := h.owned loopTime i hi
      have hne : r' ≠ r := by
        rintro rfl
        exact hinactive y hy ha
      exact ⟨r', y, (handler_set_of_ne hne).trans hy, ha, hpath⟩
    progress := handler_set_forall hprogress fun r' y _ => h.progress r' y
    delivered := handler_set_forall (fun hm => by
      obtain ⟨x, hx, hxm⟩ := hmoved.1 hm
      exact h.delivered r x hx hxm) fun r' y _ => h.delivered r' y
    kept := fun p hp hnot => h.kept p hp fun r' y hy hm => by
      by_cases hne : r' = r
      · subst hne
        exact hnot r' x' handler_set_self (hmoved.2 ⟨y, hy, hm⟩)
      · exact hnot r' y ((handler_set_of_ne hne).trans hy) hm }

theorem inv_finish (h : Inv c s) (hr : s.handler r = some x) (hstage : x.stage = .moved) :
    Inv c ((s.set r s.files { x with stage := .done true }).lock none) := by
  have hprogress := h.progress r x hr
  unfold Progress at hprogress
  rw [hstage] at hprogress
  have hset : Inv c (s.set r s.files { x with stage := .done true }) := by
    refine h.replace (fun y hy hactive => ?_) (h.temp r x hr) (h.fit r x hr) hprogress
      (fun hactive => absurd hactive id) (iff_of_true rfl ⟨x, hr, by rw [hstage]; trivial⟩)
    obtain rfl := Option.some.inj (hr.symm.trans hy)
    rw [hstage] at hactive
    exact hactive
  exact hset.lock none

theorem inv_prepare (h : Inv c s) (hr : s.handler r = none) (loopTime : ℕ) (hfit : c.Fit r)
    (hclear : ∀ r' x, s.handler r' = some x → x.stage.Active →
      x.tmpFilePath ≠ genTempUploadPath loopTime) :
    Inv c (s.set r s.files ⟨genTempUploadPath loopTime, none, (c.form r).calls, false,
      .receiving⟩) := by
  refine h.replace (fun y hy => nomatch hr.symm.trans hy) ⟨loopTime, rfl⟩ hfit ?_
    (fun _ => hclear) (iff_of_false id fun ⟨y, hy, _⟩ => nomatch hr.symm.trans hy)
  refine ⟨⟨.unopened, ⟨rfl, ?_⟩, fun _ => ⟨[], rfl, List.not_mem_nil, rfl⟩⟩,
    fun hfalse => nomatch hfalse⟩
  -- a file of this name would belong to a request that is not finished
  by_contra hne
  obtain ⟨i, hi⟩ := Option.ne_none_iff_exists'.1 hne
  obtain ⟨r', y, hy, hactive, hpath⟩ := h.owned loopTime i hi
  exact hclear r' y hy hactive hpath

theorem inv_next {e : UploadEvent ι} {t : UploadRun ι} (h : Inv c s) (hclear : Clear c s e)
    (ht : s.next c e = some t) : Inv c t := by
  cases e with
  | prepare r loopTime =>
    obtain ⟨hr, ht⟩ := Option.ite_none_left_eq_some.1 ht
    obtain rfl := Option.some.inj ht
    exact inv_prepare h (by simpa using hr) loopTime hclear.1 hclear.2
  | call r =>
    obtain ⟨x, hr, ht⟩ := Option.bind_eq_some_iff.1 ht
    split at ht
    · rename_i hstage
      exact inv_call h hr hstage ht
    · cases ht
  | flush r n =>
    obtain ⟨x, hr, ht⟩ := Option.bind_eq_some_iff.1 ht
    obtain ⟨d, hd, rfl⟩ := Option.map_eq_some_iff.1 ht
    exact inv_flush h hr hd n
  | post r =>
    obtain ⟨x, hr, ht⟩ := Option.bind_eq_some_iff.1 ht
    split at ht
    · rename_i hstage hcalls
      obtain rfl := Option.some.inj ht
      exact inv_post h hr hstage hcalls
    · cases ht
  | acquire r permitted =>
    obtain ⟨x, hr, ht⟩ := Option.bind_eq_some_iff.1 ht
    split at ht
    · rename_i args hstage hlock
      obtain rfl := Option.some.inj ht
      exact inv_acquire h hr hstage permitted
    · cases ht
  | makeDir r =>
    obtain ⟨x, hr, ht⟩ := Option.bind_eq_some_iff.1 ht
    split at ht
    · rename_i info dir dirs hstage
      obtain rfl := Option.some.inj ht
      exact inv_makeDir h hr hstage (hclear x info dir dirs hr hstage)
    · cases ht
  | move r =>
    obtain ⟨x, hr, ht⟩ := Option.bind_eq_some_iff.1 ht
    split at ht
    · rename_i info hstage
      obtain rfl := Option.some.inj ht
      exact inv_move h hr hstage
    · cases ht
  | finish r =>
    obtain ⟨x, hr, ht⟩ := Option.bind_eq_some_iff.1 ht
    split at ht
    · rename_i hstage
      obtain rfl := Option.some.inj ht
      exact inv_finish h hr hstage
    · cases ht

theorem inv_start (c : Uploads ι) : Inv c (start c) where
  separate := c.separate
  temp_isdir loopTime := (c.noTemp loopTime).2
  destination_isdir r p hp := by
    unfold Uploads.destination UploadForm.destination at hp
    obtain ⟨args, hargs, hp⟩ := Option.bind_eq_some_iff.1 hp
    cases hinfo : parseUploadArgs c.disk args with
    | error e =>
      rw [hinfo] at hp
      cases hp
    | ok info =>
      rw [hinfo] at hp
      obtain rfl := Option.some.inj hp
      exact (c.plain r args info hargs hinfo).1
  temp r x hx := nomatch hx
  fit r x hx := nomatch hx
  apart r r' x x' hx := nomatch hx
  owned loopTime i hi := nomatch (c.noTemp loopTime).1.symm.trans hi
  progress r x hx := nomatch hx
  delivered r x hx := nomatch hx
  kept _ _ _ := rfl

/-- In every run that is clear, uploads do not disturb each other. -/
theorem independent_of_reachable (h : (system c).ReachableBy (Clear c) s) : Independent c s := by
  have hinv : Inv c s := by
    refine h.invariant ?_ fun t e u ht hclear hnext => inv_next ht hclear hnext
    rintro t rfl
    exact inv_start c
  refine ⟨fun r x hx hdone => hinv.delivered r x hx (by rw [hdone]; rfl), hinv.kept,
    fun r x hx hstage hparse => ?_, fun hfinished loopTime => ?_⟩
  · obtain ⟨⟨w, hw, hfront⟩, -⟩ := hinv.receiving hx hstage
    obtain ⟨front, hform, -, rfl⟩ := hfront hparse
    exact ⟨front, hform, hw⟩
  · by_contra hne
    obtain ⟨i, hi⟩ := Option.ne_none_iff_exists'.1 hne
    obtain ⟨r, x, hx, hactive, -⟩ := hinv.owned loopTime i hi
    obtain ⟨success, hdone⟩ := hfinished r x hx
    rw [hdone] at hactive
    exact hactive

/-! ## Two uploads -/

/-- A path whose name does not end like that of a temporary file. -/
theorem ne_genTempUploadPath {p : AbsPath} (h : (p.comps.getLast?.bind List.getLast?) ≠ some 'u')
    (loopTime : ℕ) : p ≠ genTempUploadPath loopTime := by
  have hlast : (tempName loopTime).getLast? = some 'u' := by
    have hmru : ".mru".toList = ['.', 'm', 'r', 'u'] := by decide +kernel
    unfold tempName
    rw [hmru, List.getLast?_append_of_ne_nil _ (List.cons_ne_nil _ _)]
    rfl
  intro hp
  have hcomps := comps_genTempUploadPath loopTime
  rw [← hp] at hcomps
  rw [hcomps, List.getLast?_concat, Option.bind_some] at h
  exact h hlast

/-- The file manager knows the directory of the G-code files. -/
def uploadDisk : Disk where
  filePaths root := if root = "gcodes".toList then some ⟨tempDir, by decide +kernel⟩ else none
  cwd := "/".toList
  isfile _ := false
  isdir p := decide (p = tempDir.text)
  listDirectory _ _ := .ok ⟨[], []⟩

/-- A form with a file of one byte. -/
def smallForm (name : String) (byte : UInt8) : UploadForm :=
  ⟨[.onStart, .onDataReceived [byte], .onFinish], some name.toList, .empty, .empty, .empty, .empty⟩

/-- Two uploads to an empty directory. -/
def twoUploads : Uploads Bool where
  disk := uploadDisk
  sha256 _ := []
  form r := if r then smallForm "a.gcode" 1 else smallForm "b.gcode" 2
  files := ⟨fun _ => none, fun p => decide (p = tempDir), fun _ => [], 0⟩
  distinct r r' p h h' := by
    have hne : (smallForm "a.gcode" 1).destination uploadDisk ≠
        (smallForm "b.gcode" 2).destination uploadDisk := by decide +kernel
    cases r <;> cases r'
    · rfl
    · exact absurd (h'.trans h.symm) hne
    · exact absurd (h.trans h'.symm) hne
    · rfl
  plain r args info hargs hinfo := by
    have hcheck : ∀ r : Bool, ((if r then smallForm "a.gcode" 1 else smallForm "b.gcode" 2).formArgs
        []).all (fun args => match parseUploadArgs uploadDisk args with
          | .error _ => true
          | .ok info => !decide (AbsPath.ofText info.destPath = tempDir) && !info.unzipUfp) =
        true := by decide +kernel
    have h := hcheck r
    rw [hargs, Option.all_some, hinfo] at h
    simpa using h
  separate := by
    refine ⟨?_, ?_⟩
    · intro p q i h
      cases h
    · intro p i h
      cases h
  noTemp loopTime := ⟨rfl, decide_eq_false (ne_genTempUploadPath (by decide +kernel) loopTime).symm⟩

/-- One arrives a second after the other, and they overlap. -/
def overlapping : List (UploadEvent Bool) :=
  [.prepare true 5, .call true, .prepare false 6, .call false, .call true, .call false,
    .flush true 1, .call false, .post false, .acquire false true, .call true, .post true,
    .move false, .finish false, .acquire true true, .move true, .finish true]

/-- Whether an event is clear in a run of two requests that make no directories. -/
def clearHere (s : UploadRun Bool) : UploadEvent Bool → Bool
  | .prepare _ loopTime => [true, false].all fun r' =>
      (s.handler r').all fun x => x.tmpFilePath ≠ genTempUploadPath loopTime
  | .makeDir _ => false
  | _ => true

theorem fit_twoUploads (r : Bool) : twoUploads.Fit r where
  complete := by
    cases r
    · exact ⟨by decide +kernel, .inr (.inr (by decide +kernel))⟩
    · exact ⟨by decide +kernel, .inr (.inr (by decide +kernel))⟩
  decodable := by
    cases r
    · exact ⟨by decide +kernel, by decide +kernel⟩
    · exact ⟨by decide +kernel, by decide +kernel⟩
  notTemp loopTime h := by
    have hcheck : ∀ r, (twoUploads.destination r).all
        (fun p => p.comps.getLast?.bind List.getLast? ≠ some 'u') = true := by decide +kernel
    have hname := hcheck r
    rw [h, Option.all_some, decide_eq_true_eq] at hname
    exact ne_genTempUploadPath hname loopTime rfl

theorem clear_of_clearHere {s : UploadRun Bool} {e : UploadEvent Bool} (h : clearHere s e = true) :
    Clear twoUploads s e := by
  cases e with
  | prepare r loopTime =>
    refine ⟨fit_twoUploads r, fun r' x hx _ => ?_⟩
    have hother := List.all_eq_true.1 h r' (by cases r' <;> decide)
    rw [hx, Option.all_some, decide_eq_true_eq] at hother
    exact hother
  | makeDir r => cases h
  | call r => trivial
  | flush r n => trivial
  | post r => trivial
  | acquire r permitted => trivial
  | move r => trivial
  | finish r => trivial

/-- Each has its own byte. -/
theorem independent_overlapping :
    ∃ s, (system twoUploads).run (start twoUploads) overlapping = some s ∧
      [true, false].map (fun r => (twoUploads.destination r).bind s.files.content) =
        [some [1], some [2]] ∧ Independent twoUploads s := by
  have hinit : (system twoUploads).ReachableBy (fun s e => clearHere s e = true)
      (start twoUploads) := .init rfl
  have hreach : (system twoUploads).ReachableBy (fun s e => clearHere s e = true)
      (((system twoUploads).run (start twoUploads) overlapping).get (by decide +kernel)) :=
    hinit.run (by decide +kernel) (Option.some_get _).symm
  exact ⟨_, (Option.some_get _).symm, by decide +kernel,
    independent_of_reachable (hreach.mono fun s e h => clear_of_clearHere h)⟩

/-- Both arrive in one second. -/
def sameSecond : List (UploadEvent Bool) :=
  [.prepare true 5, .prepare false 5, .call true, .call false, .call true, .call false, .call true,
    .call false, .post true, .acquire true true, .move true, .finish true]

/-- Whether a request has reported success. -/
def succeeded (s : UploadRun Bool) (r : Bool) : Bool :=
  (s.handler r).any fun x => match x.stage with
    | .done success => success
    | _ => false

theorem exists_done {s : UploadRun Bool} {r : Bool} (h : s.succeeded r = true) :
    ∃ x, s.handler r = some x ∧ x.stage = .done true := by
  obtain ⟨x, hx, h⟩ := (Option.any_eq_true _ _).1 h
  refine ⟨x, hx, ?_⟩
  split at h
  · rename_i success hstage
    rw [hstage, h]
  · cases h

/-- The request whose file was overwritten reports success. -/
theorem not_independent_second :
    ¬∀ s, (system twoUploads).Reachable s → Independent twoUploads s := by
  intro h
  have hinit : (system twoUploads).Reachable (start twoUploads) := .init rfl
  have hreach : (system twoUploads).Reachable
      (((system twoUploads).run (start twoUploads) sameSecond).get (by decide +kernel)) :=
    hinit.run (Option.some_get _).symm
  have hsucceeded : (((system twoUploads).run (start twoUploads) sameSecond).get
      (by decide +kernel)).succeeded true = true := by decide +kernel
  have hcontent : (twoUploads.destination true).bind (((system twoUploads).run (start twoUploads)
      sameSecond).get (by decide +kernel)).files.content = some [2] := by decide +kernel
  obtain ⟨x, hx, hdone⟩ := exists_done hsucceeded
  obtain ⟨p, hp, hbody⟩ := (h _ hreach).delivered true x hx hdone
  rw [hp, Option.bind_some, hbody] at hcontent
  exact absurd hcontent (by decide)

end UploadRun

end Thinker
