import Thinker.Numerals
import Thinker.PosixPath

/-!
# Paths of the file manager

A request names a file by a registered root and the way from there. `convertRequestPath`,
`parseUploadArgs` and `listDir` make a path on the disk of it, and `getRelativePath` is what a
client is told of such a path. A path is contained in a root directory if its normal form is that
directory or lies beneath it.
-/

namespace Thinker

namespace FileManager

open PosixPath AbsPath

/-- A registered directory. It is never the root of the file system. -/
structure RootDir extends AbsPath where
  comps_ne_nil : comps ≠ []

/-- Why a request is not accepted. -/
inductive PathError where
  | invalidRoot (root : Text)
  | outside (requestPath root : Text)
  | noFileName
  | rootNotAvailable (root : Text)
  | cannotWrite (destPath : Text)
  | indexError
  | invalidDirectory (directory : Text)
  | noDirectory (dirPath : Text)
  | notListed

/-- The names in a directory. -/
structure DirInfo where
  dirs : List Text
  files : List Text

/-- The registered directories, and what the file manager asks the file system. `listDirectory`
also refuses the reserved paths. -/
structure Disk where
  filePaths : Text → Option RootDir
  cwd : Text
  isfile : Text → Bool
  isdir : Text → Bool
  listDirectory : Text → Text → Except PathError DirInfo

/-- `str.lower`, of the names that are compared with it. -/
def lower (t : Text) : Text :=
  t.map Char.toLower

/-- `str.lstrip("/")`. -/
def lstripSlash (t : Text) : Text :=
  t.dropWhile (· = '/')

/-- `str.strip("/")`. -/
def stripSlash (t : Text) : Text :=
  (lstripSlash (lstripSlash t).reverse).reverse

/-- `str.split("/", 1)`. -/
def split1 (t : Text) : Text × Option Text :=
  (t.takeWhile (· ≠ '/'),
    match t.dropWhile (· ≠ '/') with
    | [] => none
    | _ :: rest => some rest)

/-- The root that a request names, and the rest of it. -/
def requestParts (requestPath : Text) : Text × Option Text :=
  split1 (stripSlash (normpath requestPath))

variable (disk : Disk)

/-- `_convert_request_path`: the root and the path on the disk. -/
def convertRequestPath (requestPath : Text) : Except PathError (Text × Text) :=
  let root := (requestParts requestPath).1
  match disk.filePaths root with
  | none => .error (.invalidRoot root)
  | some rootPath =>
    match (requestParts requestPath).2 with
    | none => .ok (root, rootPath.text)
    | some rest =>
      let destPath := abspath disk.cwd (join rootPath.text rest)
      if rootPath.text <+: destPath then .ok (root, destPath)
      else .error (.outside requestPath root)

/-- The fields of an upload form. -/
structure UploadArgs where
  filename : Option Text
  root : Option Text
  path : Option Text
  print : Option Text
  tmpFilePath : Text

/-- What is kept of an upload form. -/
structure UploadInfo where
  root : Text
  filename : Text
  dirPath : Text
  destPath : Text
  tmpFilePath : Text
  startPrint : Bool
  unzipUfp : Bool
  ext : Text

/-- The root of an upload. -/
def UploadArgs.rootName (args : UploadArgs) : Text :=
  lower (args.root.getD "gcodes".toList)

/-- The name of an upload behind its root. -/
def UploadArgs.destName (args : UploadArgs) (filename : Text) : Text :=
  let dirPath := lstripSlash (args.path.getD [])
  let filename := lstripSlash filename.strip
  if dirPath = [] then filename else join dirPath filename

/-- An archive for the virtual sdcard is unpacked. -/
def isUfp (root destPath : Text) : Bool :=
  lower (splitext destPath).2 = ".ufp".toList && root = "gcodes".toList

/-- What is kept of a form whose path is accepted. -/
def uploadInfo (args : UploadArgs) (root filename dirPath destPath : Text) : UploadInfo where
  root := root
  filename :=
    if isUfp root destPath then (splitext filename).1 ++ ".gcode".toList else filename
  dirPath := dirPath
  destPath :=
    if isUfp root destPath then (splitext destPath).1 ++ ".gcode".toList else destPath
  tmpFilePath := args.tmpFilePath
  startPrint := args.print = some "true".toList
  unzipUfp := isUfp root destPath
  ext := lower (splitext destPath).2

/-- The path of an upload, before an archive is unpacked. A root that is a file is overwritten. -/
def uploadPath (rootPath : RootDir) (filename : Text) : Text :=
  if disk.isfile rootPath.text then rootPath.text
  else abspath disk.cwd (join rootPath.text filename)

/-- `_parse_upload_args`. -/
def parseUploadArgs (args : UploadArgs) : Except PathError UploadInfo :=
  match args.filename with
  | none => .error .noFileName
  | some filename =>
    let root := args.rootName
    match disk.filePaths root with
    | none => .error (.rootNotAvailable root)
    | some rootPath =>
      let isFile := disk.isfile rootPath.text
      let dirPath := if isFile then [] else lstripSlash (args.path.getD [])
      let filename := args.destName filename
      let destPath := uploadPath disk rootPath filename
      if rootPath.text <+: destPath then
        .ok (uploadInfo args root (if isFile then basename rootPath.text else filename) dirPath
          destPath)
      else .error (.cannotWrite destPath)

/-- `VALID_GCODE_EXTS`. -/
def validGcodeExts : List Text :=
  [".gcode".toList, ".g".toList, ".gco".toList, ".ufp".toList, ".nc".toList]

/-- The list of a directory, with a star before the names of its directories in the simple format. -/
def listNames (root : Text) (simpleFormat : Bool) (flist : DirInfo) : DirInfo ⊕ List Text :=
  if simpleFormat then
    .inr (flist.dirs.map ('*' :: ·) ++ flist.files.filter fun name =>
      root = "gcodes".toList && lower (splitext name).2 ∈ validGcodeExts)
  else .inl flist

/-- A directory without the slash at its front. -/
def relDirectory : Text → Text
  | '/' :: directory => directory
  | directory => directory

/-- The directory of a root that is listed. -/
def listPath (path : RootDir) : Option Text → Text
  | none => path.text
  | some rest => join path.text rest

/-- `list_dir`: the root, the directory that is listed, and its list. -/
def listDir (directory : Text) (simpleFormat : Bool) :
    Except PathError (Text × Text × (DirInfo ⊕ List Text)) :=
  if directory = [] then .error .indexError
  else
    let root := (split1 (relDirectory directory)).1
    match disk.filePaths root with
    | none => .error (.invalidDirectory (relDirectory directory))
    | some path =>
      let dirPath := listPath path (split1 (relDirectory directory)).2
      if disk.isdir dirPath then
        match disk.listDirectory dirPath root with
        | .error e => .error e
        | .ok flist => .ok (root, dirPath, listNames root simpleFormat flist)
      else .error (.noDirectory dirPath)

/-- `get_relative_path`. -/
def getRelativePath (root fullPath : Text) : Text :=
  match disk.filePaths root with
  | none => []
  | some rootDir => if rootDir.text <+: fullPath then relpath disk.cwd fullPath rootDir.text else []

/-! ## Containment -/

/-- The path is the directory or lies beneath it. -/
def Contained (dir : RootDir) (path : Text) : Prop :=
  dir.Beneath (ofText path)

/-- A request to one of the four functions. The path whose relative path is asked for is one on the
disk, in normal form. -/
inductive Request where
  | convert (requestPath : Text)
  | upload (args : UploadArgs)
  | list (directory : Text) (simpleFormat : Bool)
  | relative (root : Text) (fullPath : AbsPath)

/-- If the request is accepted, its path is contained in the registered directory; the relative
path of what is contained, and of nothing else, is not empty and leads there from the directory. -/
def Contains : Request → Prop
  | .convert requestPath => ∀ root destPath dir,
      convertRequestPath disk requestPath = .ok (root, destPath) →
        disk.filePaths root = some dir → Contained dir destPath
  | .upload args => ∀ info dir, parseUploadArgs disk args = .ok info →
      disk.filePaths info.root = some dir → Contained dir info.destPath
  | .list directory simpleFormat => ∀ root dirPath flist dir,
      listDir disk directory simpleFormat = .ok (root, dirPath, flist) →
        disk.filePaths root = some dir → Contained dir dirPath
  | .relative root fullPath =>
      (getRelativePath disk root fullPath.text ≠ [] ↔
          ∃ dir, disk.filePaths root = some dir ∧ Contained dir fullPath.text) ∧
        ∀ dir, disk.filePaths root = some dir → Contained dir fullPath.text →
          ofText (join dir.text (getRelativePath disk root fullPath.text)) = fullPath

/-- The path to which a text leads from a directory. -/
def target (dir : AbsPath) (t : Text) : AbsPath :=
  if t.head? = some '/' then ofText t else dir.walk t

/-- Where a request has to lead: not next to the root directory, and an archive that is unpacked not
to the directory itself; a directory that is listed has to be the root directory or beneath it. -/
def Stays : Request → Prop
  | .convert requestPath => ∀ dir rest,
      disk.filePaths (requestParts requestPath).1 = some dir →
        (requestParts requestPath).2 = some rest → ¬ dir.NextTo (target dir.toAbsPath rest)
  | .upload args => ∀ dir filename, disk.filePaths args.rootName = some dir →
      args.filename = some filename →
        if disk.isfile dir.text then isUfp args.rootName dir.text = false
        else ¬ dir.NextTo (target dir.toAbsPath (args.destName filename)) ∧
          (target dir.toAbsPath (args.destName filename) = dir.toAbsPath →
            isUfp args.rootName dir.text = false)
  | .list directory _ => ∀ dir rest,
      disk.filePaths (split1 (relDirectory directory)).1 = some dir →
        (split1 (relDirectory directory)).2 = some rest →
          disk.isdir (join dir.text rest) = true →
            (∃ flist, disk.listDirectory (join dir.text rest)
              (split1 (relDirectory directory)).1 = .ok flist) →
              dir.Beneath (target dir.toAbsPath rest)
  | .relative root fullPath => ∀ dir, disk.filePaths root = some dir → ¬ dir.NextTo fullPath

/-! ## What is accepted -/

variable {disk} {dir : RootDir} {p q : AbsPath} {t : Text}

theorem beneath_refl (p : AbsPath) : p.Beneath p := ⟨rfl, List.prefix_refl _⟩

/-- What lies beneath a directory does not lie next to it. -/
theorem not_nextTo_of_beneath {r : AbsPath} (h : r.Beneath p) : ¬ r.NextTo p := by
  rintro ⟨-, front, name, more, rest, hmore, hr, hp⟩
  obtain ⟨-, hunder⟩ := h
  rw [hr, hp, List.prefix_append_right_inj, List.cons_prefix_cons] at hunder
  exact hmore (List.self_eq_append_right.1 hunder.1)

theorem contained_text_iff : Contained dir p.text ↔ dir.Beneath p := by
  rw [Contained, ofText_text]

theorem text_ne_nil (p : AbsPath) : p.text ≠ [] := fun h => by
  have := head?_text p
  rw [h] at this
  cases this

/-- A text joined to a root directory leads to its target. -/
theorem ofText_join (dir : RootDir) (t : Text) : ofText (join dir.text t) = target dir.toAbsPath t := by
  unfold target
  split_ifs with ht
  · rw [join, if_pos ht]
  · rw [join_eq dir.comps_ne_nil ht, ofText_append dir.comps_ne_nil]

theorem abspath_join_text (dir : RootDir) (cwd t : Text) :
    abspath cwd (join dir.text t) = (target dir.toAbsPath t).text := by
  have hhead : (join dir.text t).head? = some '/' := by
    by_cases ht : t.head? = some '/'
    · rwa [join, if_pos ht]
    · rw [join_eq dir.comps_ne_nil ht, List.head?_append_of_ne_nil _ (text_ne_nil _), head?_text]
  rw [abspath_eq hhead, ofText_join]

/-- The check of the code lets through what lies beneath a directory and what lies next to it. -/
theorem prefix_target_iff (dir : RootDir) (p : AbsPath) :
    (dir.text <+: p.text → dir.Beneath p) ↔ ¬ dir.NextTo p := by
  rw [prefix_text_iff dir.comps_ne_nil]
  exact ⟨fun h hnext => not_nextTo_of_beneath (h (.inr hnext)) hnext,
    fun h hor => hor.resolve_right h⟩

theorem contains_convert_iff (requestPath : Text) :
    Contains disk (.convert requestPath) ↔ Stays disk (.convert requestPath) := by
  unfold Contains Stays convertRequestPath
  dsimp only
  cases hdir : disk.filePaths (requestParts requestPath).1 with
  | none => simp
  | some dir =>
  cases hrest : (requestParts requestPath).2 with
  | none =>
    refine iff_of_true ?_ (by simp)
    rintro root destPath dir' heq hdir'
    obtain ⟨rfl, rfl⟩ := Prod.mk.inj (Except.ok.inj heq)
    obtain rfl := Option.some.inj (hdir.symm.trans hdir')
    exact contained_text_iff.2 (beneath_refl _)
  | some rest =>
    simp only [abspath_join_text, Option.some.injEq]
    constructor
    · rintro h _ _ rfl rfl
      rw [← prefix_target_iff]
      exact fun hunder => contained_text_iff.1 (h _ _ dir (if_pos hunder) hdir)
    · intro h root destPath dir' heq hdir'
      split_ifs at heq with hunder
      obtain ⟨rfl, rfl⟩ := Prod.mk.inj (Except.ok.inj heq)
      obtain rfl := Option.some.inj (hdir.symm.trans hdir')
      exact contained_text_iff.2 ((prefix_target_iff dir _).2 (h dir rest rfl rfl) hunder)

/-! ## Uploads -/

/-- An archive is unpacked to its neighbour with the extension `.gcode`. -/
theorem isUfp_spec {root : Text} (hp : p.comps ≠ []) (hufp : isUfp root p.text = true) :
    ∃ (q : AbsPath) (dir : List Text) (c c' : Text),
      (splitext p.text).1 ++ ".gcode".toList = q.text ∧ q.double = p.double ∧
        p.comps = dir ++ [c] ∧ q.comps = dir ++ [c'] ∧ c.length < c'.length := by
  obtain ⟨dir, c, hcomps⟩ := (List.eq_nil_or_concat p.comps).resolve_left hp
  rw [List.concat_eq_append] at hcomps
  have hn : p.slashes ≠ 0 := by
    unfold slashes
    split <;> decide
  obtain ⟨front, hfront, htext⟩ := exists_front dir hn
  have hp' : p.text = front ++ c := by rw [text_eq, hcomps, htext]
  have hc : IsEntry c := p.entries c (hcomps ▸ List.mem_append_right _ (List.mem_singleton_self c))
  rw [isUfp, Bool.and_eq_true] at hufp
  have hlower : lower (splitext p.text).2 = ".ufp".toList := of_decide_eq_true hufp.1
  rw [hp'] at hlower ⊢
  have hext : (splitext (front ++ c)).2 ≠ [] := fun h => by
    rw [h] at hlower
    cases hlower
  obtain ⟨stem, ext, hstem, rfl, hsplit⟩ := splitext_of_ne_nil hfront hc.2.1 hext
  rw [hsplit] at hlower ⊢
  have hlength : ext.length = 3 := by
    have := congrArg List.length hlower
    simpa [lower] using this
  have hentry : IsEntry (stem ++ ".gcode".toList) := by
    refine ⟨by simp [hstem], ?_, fun h => ?_, fun h => ?_⟩
    · rw [List.mem_append, not_or]
      exact ⟨fun h => hc.2.1 (List.mem_append_left _ h), by decide⟩
    · have := congrArg List.length h
      simp at this
    · have := congrArg List.length h
      simp at this
  have hlt : (stem ++ '.' :: ext).length < (stem ++ ".gcode".toList).length := by
    simp [hlength]
  refine ⟨⟨p.double, dir ++ [stem ++ ".gcode".toList], ?_⟩, dir, _, _, ?_, rfl, hcomps, rfl, hlt⟩
  · rw [List.forall_mem_append]
    exact ⟨fun d hd => p.entries d (hcomps ▸ List.mem_append_left _ hd), by simpa using hentry⟩
  · rw [text_eq, List.append_assoc]
    exact (htext _).symm

/-- What is unpacked is beneath a directory if the archive is beneath it and not the directory
itself. -/
theorem beneath_unpacked_iff {r : AbsPath} {front : List Text} {c c' : Text}
    (hdouble : q.double = p.double) (hp : p.comps = front ++ [c]) (hq : q.comps = front ++ [c'])
    (hlength : c.length < c'.length) (haccepted : r.Beneath p ∨ r.NextTo p) :
    r.Beneath q ↔ ¬ r.NextTo p ∧ p ≠ r := by
  constructor
  · rintro ⟨hr, hunder⟩
    rw [hq, List.prefix_concat_iff] at hunder
    have hbeneath : r.comps <+: front := by
      refine hunder.resolve_left fun hr' => ?_
      rcases haccepted with ⟨-, hunder'⟩ | ⟨-, front', name, more, rest, -, hr'', hp'⟩
      · rw [hr', hp, List.prefix_append_right_inj, List.cons_prefix_cons] at hunder'
        rw [hunder'.1] at hlength
        exact lt_irrefl _ hlength
      · obtain ⟨rfl, hname⟩ := List.append_inj' (hr'.symm.trans hr'') rfl
        obtain rfl := (List.cons.inj hname).1
        have hc := (List.cons.inj (List.append_cancel_left (hp.symm.trans hp'))).1
        rw [hc, List.length_append] at hlength
        omega
    have hp' : r.Beneath p := ⟨hdouble.symm.trans hr, hp ▸ hbeneath.trans (List.prefix_append _ _)⟩
    refine ⟨not_nextTo_of_beneath hp', ?_⟩
    rintro rfl
    have := hbeneath.length_le
    rw [hp, List.length_append, List.length_singleton] at this
    omega
  · rintro ⟨hnext, hne⟩
    obtain ⟨hr, hunder⟩ := haccepted.resolve_right hnext
    refine ⟨hdouble.trans hr, ?_⟩
    rw [hp, List.prefix_concat_iff] at hunder
    rw [hq]
    refine (hunder.resolve_left fun h => hne (ext' hr (hp.trans h.symm))).trans
      (List.prefix_append _ _)

/-- The path of an upload that is accepted is contained unless it leads next to the directory, or is
the directory itself and is unpacked. -/
theorem contained_unpacked_iff (root : Text) (haccepted : dir.Beneath p ∨ dir.NextTo p) :
    Contained dir (if isUfp root p.text then (splitext p.text).1 ++ ".gcode".toList else p.text) ↔
      ¬ dir.NextTo p ∧ (p = dir.toAbsPath → isUfp root dir.text = false) := by
  have hp : p.comps ≠ [] := by
    rcases haccepted with ⟨-, hunder⟩ | ⟨-, front, name, more, rest, -, -, hp⟩
    · exact fun h => dir.comps_ne_nil (List.prefix_nil.1 (h ▸ hunder))
    · rw [hp]
      simp
  split_ifs with hufp
  · obtain ⟨q, front, c, c', htext, hdouble, hcomps, hcomps', hlength⟩ := isUfp_spec hp hufp
    rw [htext, contained_text_iff, beneath_unpacked_iff hdouble hcomps hcomps' hlength haccepted]
    refine and_congr_right fun _ => ⟨fun hne h => absurd h hne, ?_⟩
    rintro h rfl
    exact Bool.false_ne_true ((h rfl).symm.trans hufp)
  · rw [contained_text_iff]
    constructor
    · refine fun hbeneath => ⟨not_nextTo_of_beneath hbeneath, ?_⟩
      rintro rfl
      exact eq_false_of_ne_true hufp
    · exact fun h => haccepted.resolve_right h.1

theorem uploadPath_eq (dir : RootDir) (filename : Text) : uploadPath disk dir filename =
    (if disk.isfile dir.text then dir.toAbsPath else target dir.toAbsPath filename).text := by
  unfold uploadPath
  split_ifs
  · rfl
  · exact abspath_join_text dir disk.cwd filename

/-- An upload is accepted if the path of the root is spelled at the front of its path. -/
theorem parseUploadArgs_eq_ok_iff {args : UploadArgs} {filename : Text} {info : UploadInfo}
    (hname : args.filename = some filename) (hdir : disk.filePaths args.rootName = some dir) :
    parseUploadArgs disk args = .ok info ↔
      dir.text <+: uploadPath disk dir (args.destName filename) ∧
        info = uploadInfo args args.rootName
          (if disk.isfile dir.text then basename dir.text else args.destName filename)
          (if disk.isfile dir.text then [] else lstripSlash (args.path.getD []))
          (uploadPath disk dir (args.destName filename)) := by
  unfold parseUploadArgs
  simp only [hname, hdir]
  split_ifs with hunder <;> simp [hunder, eq_comm]

/-- An upload that is accepted is contained unless it leads next to the directory, or is the
directory itself and is unpacked. -/
theorem contained_uploadInfo_iff (args : UploadArgs) (root filename dirPath : Text) :
    (dir.text <+: p.text → Contained dir (uploadInfo args root filename dirPath p.text).destPath) ↔
      ¬ dir.NextTo p ∧ (p = dir.toAbsPath → isUfp root dir.text = false) := by
  by_cases hunder : dir.text <+: p.text
  · rw [← contained_unpacked_iff root ((prefix_text_iff dir.comps_ne_nil).1 hunder)]
    exact true_imp_iff.symm.trans (imp_congr (iff_true_intro hunder).symm Iff.rfl) |>.symm
  · have hrejected := (prefix_text_iff dir.comps_ne_nil).not.1 hunder
    rw [not_or] at hrejected
    refine iff_of_true (fun h => absurd h hunder) ⟨hrejected.2, ?_⟩
    rintro rfl
    exact absurd (beneath_refl _) hrejected.1

theorem contains_upload_iff (args : UploadArgs) :
    Contains disk (.upload args) ↔ Stays disk (.upload args) := by
  unfold Contains Stays
  dsimp only
  cases hname : args.filename with
  | none =>
    refine iff_of_true (fun info dir heq => ?_) fun dir filename _ h => nomatch h
    unfold parseUploadArgs at heq
    simp only [hname] at heq
    cases heq
  | some filename =>
  cases hdir : disk.filePaths args.rootName with
  | none =>
    refine iff_of_true (fun info dir heq => ?_) fun dir filename h => nomatch h
    unfold parseUploadArgs at heq
    simp only [hname, hdir] at heq
    cases heq
  | some dir =>
  simp only [parseUploadArgs_eq_ok_iff hname hdir, uploadPath_eq]
  have hcontained : ∀ (filename dirPath : Text) (p : AbsPath), (dir.text <+: p.text →
      Contained dir (uploadInfo args args.rootName filename dirPath p.text).destPath) ↔
        ¬ dir.NextTo p ∧ (p = dir.toAbsPath → isUfp args.rootName dir.text = false) :=
    fun filename dirPath _ => contained_uploadInfo_iff args args.rootName filename dirPath
  constructor
  · rintro h _ _ hsome hsome'
    obtain rfl := Option.some.inj hsome
    obtain rfl := Option.some.inj hsome'
    have hstays := (hcontained _ _ _).1 fun hunder => h _ dir ⟨hunder, rfl⟩ hdir
    split_ifs with hfile
    · rw [if_pos hfile] at hstays
      exact hstays.2 rfl
    · rwa [if_neg hfile] at hstays
  · rintro h _ dir' ⟨hunder, rfl⟩ hdir'
    obtain rfl := Option.some.inj (hdir.symm.trans hdir')
    refine (hcontained _ _ _).2 ?_ hunder
    have hstays := h dir filename rfl rfl
    split_ifs at hstays ⊢ with hfile
    · exact ⟨not_nextTo_of_beneath (beneath_refl _), fun _ => hstays⟩
    · exact hstays

/-! ## Lists and relative paths -/

/-- What is listed is the directory of the root, if the file system has it. -/
theorem listDir_eq_ok_iff {directory root dirPath : Text} {simpleFormat : Bool}
    {list : DirInfo ⊕ List Text} (hnil : directory ≠ [])
    (hdir : disk.filePaths (split1 (relDirectory directory)).1 = some dir) :
    listDir disk directory simpleFormat = .ok (root, dirPath, list) ↔
      root = (split1 (relDirectory directory)).1 ∧
        dirPath = listPath dir (split1 (relDirectory directory)).2 ∧ disk.isdir dirPath = true ∧
          ∃ flist, disk.listDirectory dirPath root = .ok flist ∧
            list = listNames root simpleFormat flist := by
  unfold listDir
  rw [if_neg hnil]
  simp only [hdir]
  by_cases hisdir : disk.isdir (listPath dir (split1 (relDirectory directory)).2) = true
  · rw [if_pos hisdir]
    cases hflist : disk.listDirectory (listPath dir (split1 (relDirectory directory)).2)
        (split1 (relDirectory directory)).1 with
    | error e =>
      refine iff_of_false (fun h => nomatch h) ?_
      rintro ⟨rfl, rfl, -, flist, h, -⟩
      exact nomatch hflist.symm.trans h
    | ok flist =>
      constructor
      · intro h
        obtain ⟨rfl, hpair⟩ := Prod.mk.inj (Except.ok.inj h)
        obtain ⟨rfl, rfl⟩ := Prod.mk.inj hpair
        exact ⟨rfl, rfl, hisdir, flist, hflist, rfl⟩
      · rintro ⟨rfl, rfl, -, flist', h, rfl⟩
        rw [Except.ok.inj (hflist.symm.trans h)]
  · rw [if_neg hisdir]
    refine iff_of_false (fun h => nomatch h) ?_
    rintro ⟨-, rfl, h, -⟩
    exact hisdir h

theorem contains_list_iff (directory : Text) (simpleFormat : Bool) :
    Contains disk (.list directory simpleFormat) ↔ Stays disk (.list directory simpleFormat) := by
  unfold Contains Stays
  dsimp only
  by_cases hnil : directory = []
  · subst hnil
    refine iff_of_true (fun root dirPath list dir' heq => ?_) fun dir' rest _ hrest => ?_
    · cases heq
    · cases hrest
  cases hdir : disk.filePaths (split1 (relDirectory directory)).1 with
  | none =>
    refine iff_of_true (fun root dirPath list dir' heq => ?_) fun dir' rest h => nomatch h
    unfold listDir at heq
    simp only [if_neg hnil, hdir] at heq
    cases heq
  | some dir =>
  simp only [listDir_eq_ok_iff hnil hdir, Option.some.injEq]
  cases hrest : (split1 (relDirectory directory)).2 with
  | none =>
    refine iff_of_true ?_ fun dir' rest _ h => nomatch h
    rintro _ _ list dir' ⟨rfl, rfl, -⟩ hdir'
    obtain rfl := Option.some.inj (hdir.symm.trans hdir')
    exact contained_text_iff.2 (beneath_refl _)
  | some rest =>
    constructor
    · rintro h _ _ rfl hsome hisdir ⟨flist, hflist⟩
      obtain rfl := Option.some.inj hsome
      rw [← ofText_join]
      exact h _ _ _ dir ⟨rfl, rfl, hisdir, flist, hflist, rfl⟩ hdir
    · rintro h _ _ list dir' ⟨rfl, rfl, hisdir, flist, hflist, -⟩ hdir'
      obtain rfl := Option.some.inj (hdir.symm.trans hdir')
      rw [Contained, listPath, ofText_join]
      exact h dir rest rfl rfl hisdir ⟨flist, hflist⟩

theorem contains_relative_iff (root : Text) (fullPath : AbsPath) :
    Contains disk (.relative root fullPath) ↔ Stays disk (.relative root fullPath) := by
  unfold Contains Stays getRelativePath
  dsimp only
  cases hdir : disk.filePaths root with
  | none => simp
  | some dir =>
  have hshown : (if dir.text <+: fullPath.text then relpath disk.cwd fullPath.text dir.text
      else []) ≠ [] ↔ dir.Beneath fullPath ∨ dir.NextTo fullPath := by
    rw [← prefix_text_iff dir.comps_ne_nil]
    split_ifs with h <;> simp [h, relpath_ne_nil]
  simp only [Option.some.injEq, exists_eq_left', forall_eq', hshown, contained_text_iff]
  constructor
  · rintro ⟨hiff, -⟩ hnext
    exact not_nextTo_of_beneath (hiff.1 (.inr hnext)) hnext
  · intro hnext
    refine ⟨or_iff_left hnext, fun hbeneath => ?_⟩
    rw [if_pos ((prefix_text_iff dir.comps_ne_nil).2 (.inl hbeneath))]
    exact ofText_join_relpath dir.comps_ne_nil _ hbeneath

/-- The path of an accepted request is contained, and the relative path is shown for what is
contained, exactly if the request stays. -/
theorem contains_iff (disk : Disk) (request : Request) :
    Contains disk request ↔ Stays disk request := by
  cases request with
  | convert requestPath => exact contains_convert_iff requestPath
  | upload args => exact contains_upload_iff args
  | list directory simpleFormat => exact contains_list_iff directory simpleFormat
  | relative root fullPath => exact contains_relative_iff root fullPath

theorem isEntry_gcodes : ∀ c ∈ ["d".toList, "gcodes".toList], IsEntry c := by simp [IsEntry]

theorem gcodes_ne_nil : ["d".toList, "gcodes".toList] ≠ [] := List.cons_ne_nil _ _

/-- `/d/gcodes` is registered, and every directory can be listed. -/
def gcodesDisk : Disk where
  filePaths root := if root = "gcodes".toList then
      some ⟨⟨false, ["d".toList, "gcodes".toList], isEntry_gcodes⟩, gcodes_ne_nil⟩ else none
  cwd := "/".toList
  isfile _ := false
  isdir _ := true
  listDirectory _ _ := .ok ⟨[], []⟩

/-- An upload goes to the directory `/d/gcodes_old`, the directory `/d` is listed, and a file in
`/d/gcodes_old` has a relative path. -/
theorem not_contains_neighbour :
    ¬ Contains gcodesDisk
        (.upload ⟨some "a.gcode".toList, none, some "../gcodes_old".toList, none, []⟩) ∧
      ¬ Contains gcodesDisk (.list "gcodes/..".toList false) ∧
      ¬ Contains gcodesDisk (.relative "gcodes".toList
        ⟨false, ["d".toList, "gcodes_old".toList, "a.gcode".toList], by simp [IsEntry]⟩) := by
  rw [contains_upload_iff, contains_list_iff, contains_relative_iff]
  refine ⟨fun h => ?_, fun h => ?_, fun h => ?_⟩
  · have hnext := (h _ _ rfl rfl).1
    refine hnext ⟨rfl, ["d".toList], "gcodes".toList, "_old".toList, ["a.gcode".toList], ?_, rfl, ?_⟩
    · decide
    · decide +kernel
  · obtain ⟨-, hunder⟩ := h _ _ rfl rfl rfl ⟨_, rfl⟩
    exact absurd hunder (by decide +kernel)
  · refine h _ rfl ⟨rfl, ["d".toList], "gcodes".toList, "_old".toList, ["a.gcode".toList], ?_, rfl,
      rfl⟩
    decide

end FileManager

end Thinker
