import Thinker.Transition
import Mathlib.Tactic

/-!
# Downloads from the cloud

A message with an address starts a thread that fetches the object into the folder of the g-code
files and then asks for a print of it. The size of the object, the bytes fetched so far and the
name of the file are globals : the thread writes the first two, and a message is refused while the
second is below the first.

A step of the model is one access to a global or to the disk, of the message handler or of a thread.
As long as a message passes the test only when no thread needs the globals, and a thread fails only
before it has set the size or opened the file, the globals belong to one thread (`Running`), and
only complete files are queued (`Correct`).
-/

namespace Thinker

namespace CloudDownload

/-- Bytes of a file. -/
abbrev Content := List (BitVec 8)

/-- What the storage answers : the pieces of the object, and whether there is a header
`content-length`. -/
structure Object where
  pieces : List Content
  header : Bool
deriving DecidableEq, Repr

namespace Object

variable (o : Object)

/-- The complete object. -/
def content : Content := o.pieces.flatten

/-- `int(object_data.headers.get('content-length', 0))`. -/
def contentLength : ℕ := if o.header then o.content.length else 0

theorem contentLength_le : o.contentLength ≤ o.content.length := by
  rw [contentLength]
  split
  · exact le_rfl
  · exact Nat.zero_le _

end Object

/-- A message `wget` : the name at the end of its address, and the object there. -/
structure Message where
  name : String
  object : Object
deriving DecidableEq, Repr

/-- A request to `job_queue`, with the file of that name when it was sent, and the object that was
to be in it. -/
structure Post where
  name : String
  file : Option Content
  object : Option Content
deriving DecidableEq, Repr

/-- The globals of the program, the folder, and the requests that were sent. -/
structure Shared where
  downSize : ℕ
  totalSize : ℕ
  nameDownFile : String
  files : String → Option Content
  /-- What is to be in the file of a name : the object of the last download that was started for
  it, or what was there before. -/
  object : String → Option Content
  posts : List Post

namespace Shared

variable (s : Shared)

/-- `requests.post` for a name. -/
def post (name : String) : Shared :=
  { s with posts := s.posts ++ [⟨name, s.files name, s.object name⟩] }

/-- Writes a file. -/
def write (name : String) (content : Content) : Shared :=
  { s with files := Function.update s.files name (some content) }

end Shared

/-- Bytes written at an offset. -/
def writeAt (content : Content) (offset : ℕ) (data : Content) : Content :=
  content.take offset ++ List.replicate (offset - content.length) 0 ++ data ++
    content.drop (offset + data.length)

/-! ## Threads -/

/-- Where a thread of `download` is. -/
inductive Pc
  /-- At `get_object`. -/
  | get
  /-- At the assignment of `total_size`. -/
  | size
  /-- At `open`. -/
  | opening
  /-- At the next piece. -/
  | next (rest : List Content)
  /-- At `down_size += size`, before it is read. -/
  | load (size : ℕ) (rest : List Content)
  /-- Before it is written. -/
  | store (value : ℕ) (rest : List Content)
  /-- Before `name_down_file` is read. -/
  | name
  /-- At `requests.post`. -/
  | post (name : String)
  | done
  | failed
deriving DecidableEq, Repr

/-- A thread has ended. -/
def Pc.ended : Pc → Bool
  | done | failed => true
  | _ => false

/-- A thread needs the globals no more. -/
def Pc.named : Pc → Bool
  | post _ | done | failed => true
  | _ => false

/-- A thread, with the requests that it sent. -/
structure Download where
  name : String
  object : Object
  /-- The position in the file. -/
  offset : ℕ
  pc : Pc
  posted : List String
deriving DecidableEq, Repr

namespace Download

/-- The thread that a message starts. -/
def start (m : Message) : Download := ⟨m.name, m.object, 0, .get, []⟩

variable (d : Download)

/-- One step of a thread. -/
def step (s : Shared) : Option (Download × Shared) :=
  match d.pc with
  | .get => some ({ d with pc := .size }, s)
  | .size => some ({ d with pc := .opening }, { s with totalSize := d.object.contentLength })
  | .opening => some ({ d with pc := .next d.object.pieces }, s.write d.name [])
  | .next [] => some ({ d with pc := .name }, s)
  | .next (data :: rest) =>
    some ({ d with offset := d.offset + data.length, pc := .load data.length rest },
      s.write d.name (writeAt ((s.files d.name).getD []) d.offset data))
  | .load size rest => some ({ d with pc := .store (s.downSize + size) rest }, s)
  | .store value rest => some ({ d with pc := .next rest }, { s with downSize := value })
  | .name => some ({ d with pc := .post s.nameDownFile }, s)
  | .post name => some ({ d with pc := .done, posted := d.posted ++ [name] }, s.post name)
  | .done => none
  | .failed => none

/-- A thread can fail when it asks for the object or a piece of it, and when it opens the file. -/
def canFail : Bool :=
  match d.pc with
  | .get | .opening | .next _ => true
  | _ => false

end Download

/-! ## Messages -/

/-- Where `on_message` is. -/
inductive Handler
  | idle
  /-- Before `down_size` is read. -/
  | readDown (m : Message)
  /-- Before `total_size` is read. -/
  | readTotal (m : Message) (downSize : ℕ)
  /-- Before `down_size` is cleared. -/
  | clearDown (m : Message)
  /-- Before `total_size` is cleared. -/
  | clearTotal (m : Message)
  /-- Before `name_down_file` is written. -/
  | setName (m : Message)
  /-- At `is_file_download`. -/
  | look (m : Message)
  /-- At `requests.post`. -/
  | post (m : Message)
  /-- At `start_new_thread`. -/
  | spawn (m : Message)
deriving DecidableEq, Repr

/-- Everything. -/
structure World where
  shared : Shared
  handler : Handler
  downloads : List Download
  /-- The last download of a name failed. -/
  lost : String → Bool

namespace World

/-- Before any message, with the files that are in the folder. -/
def init (files : String → Option Content) : World :=
  ⟨⟨0, 0, "", files, files, []⟩, .idle, [], fun _ => false⟩

variable (w : World)

/-- A thread is started. -/
def spawn (m : Message) : World :=
  { w with
    shared := { w.shared with
      object := Function.update w.shared.object m.name (some m.object.content) }
    handler := .idle
    downloads := w.downloads ++ [.start m]
    lost := Function.update w.lost m.name false }

/-- One step of `on_message`. -/
def handle : Option World :=
  match w.handler with
  | .idle => none
  | .readDown m => some { w with handler := .readTotal m w.shared.downSize }
  | .readTotal m downSize =>
    some { w with handler := if downSize < w.shared.totalSize then .idle else .clearDown m }
  | .clearDown m =>
    some { w with shared := { w.shared with downSize := 0 }, handler := .clearTotal m }
  | .clearTotal m =>
    some { w with shared := { w.shared with totalSize := 0 }, handler := .setName m }
  | .setName m =>
    some { w with shared := { w.shared with nameDownFile := m.name }, handler := .look m }
  | .look m =>
    some { w with handler :=
      if (w.shared.files w.shared.nameDownFile).isSome then .post m else .spawn m }
  | .post _ => some { w with shared := w.shared.post w.shared.nameDownFile, handler := .idle }
  | .spawn m => some (w.spawn m)

/-- No thread needs the globals. -/
def Free : Prop := ∀ d ∈ w.downloads, d.pc.named = true

instance : Decidable w.Free := inferInstanceAs (Decidable (∀ _ ∈ _, _))

end World

/-- What may happen. -/
inductive Event
  | message (m : Message)
  | handler
  /-- A thread goes on. -/
  | thread (i : ℕ)
  /-- A thread raises. -/
  | fail (i : ℕ)
deriving DecidableEq, Repr

/-- The handler takes one message after another. -/
def next (w : World) : Event → Option World
  | .message m => if w.handler = .idle then some { w with handler := .readDown m } else none
  | .handler => w.handle
  | .thread i => do
    let d ← w.downloads[i]?
    let (d, s) ← d.step w.shared
    some { w with shared := s, downloads := w.downloads.set i d }
  | .fail i => do
    let d ← w.downloads[i]?
    if d.canFail then
      some { w with
        downloads := w.downloads.set i { d with pc := .failed }
        lost := Function.update w.lost d.name true }
    else none

/-- The message handler and the threads. -/
def system : System World Event :=
  ⟨fun w => ∃ files, w = .init files, next⟩

/-- A message passes the test only if no thread needs the globals, and a thread fails only before
the file is opened, with the globals such that the next message passes. -/
def Safe (w : World) : Event → Prop
  | .handler =>
    match w.handler with
    | .readTotal _ downSize => ¬downSize < w.shared.totalSize → w.Free
    | _ => True
  | .fail i =>
    ∀ d, w.downloads[i]? = some d →
      d.pc = .get ∨ d.pc = .opening ∧ w.shared.totalSize ≤ w.shared.downSize
  | _ => True

/-! ## One thread -/

/-- What a thread has fetched is in the file. -/
structure Fetched (s : Shared) (d : Download) (rest : List Content) : Prop where
  file : ∃ written : Content, s.files d.name = some written ∧ written.length = d.offset ∧
    written ++ rest.flatten = d.object.content
  totalSize : s.totalSize = d.object.contentLength

/-- The globals belong to a thread. -/
def Running (s : Shared) (d : Download) : Prop :=
  s.nameDownFile = d.name ∧ s.object d.name = some d.object.content ∧ d.posted = [] ∧
    match d.pc with
    | .get | .size => s.downSize = 0 ∧ s.totalSize = 0 ∧ s.files d.name = none ∧ d.offset = 0
    | .opening => s.downSize = 0 ∧ s.totalSize = d.object.contentLength ∧
        s.files d.name = none ∧ d.offset = 0
    | .next rest => Fetched s d rest ∧ s.downSize = d.offset
    | .load size rest => Fetched s d rest ∧ s.downSize + size = d.offset
    | .store value rest => Fetched s d rest ∧ value = d.offset
    | .name => Fetched s d [] ∧ s.downSize = d.offset
    | .post _ | .done | .failed => False

/-- A thread that needs the globals no more, where another downloads the file `busy`. -/
def Settled (s : Shared) (busy : Option String) (d : Download) : Prop :=
  match d.pc with
  | .post name => name = d.name ∧ (s.files name).isSome ∧ some name ≠ busy ∧ d.posted = []
  | .done => d.posted = [d.name]
  | _ => d.posted = []

/-- What a step of a thread leaves of the other files, and of what the handler reads. -/
structure Frame (s s' : Shared) (name : String) : Prop where
  nameDownFile : s'.nameDownFile = s.nameDownFile
  object : s'.object = s.object
  posts : s'.posts = s.posts
  files : ∀ n, n ≠ name → s'.files n = s.files n

theorem writeAt_length (written data : Content) : writeAt written written.length data =
    written ++ data := by
  simp [writeAt]

theorem Shared.write_files (s : Shared) (name : String) (content : Content) :
    (s.write name content).files name = some content := Function.update_self ..

theorem Frame.write (s : Shared) (name : String) (content : Content) :
    Frame s (s.write name content) name :=
  ⟨rfl, rfl, rfl, fun _ hn => Function.update_of_ne hn _ _⟩

/-- A step of the thread that has the globals : it keeps them, or has read the name, its file being
complete. -/
theorem Running.step {s s' : Shared} {d d' : Download} (h : Running s d)
    (hstep : d.step s = some (d', s')) : Frame s s' d.name ∧ d'.name = d.name ∧
      (Running s' d' ∨ d'.pc = .post d.name ∧ d'.posted = [] ∧ s'.totalSize ≤ s'.downSize ∧
        s'.files d.name = s'.object d.name ∧ (s'.files d.name).isSome) := by
  obtain ⟨name, object, offset, pc, posted⟩ := d
  obtain ⟨hname, hobject, hposted, hpc⟩ := h
  cases pc with
  | get =>
    obtain ⟨rfl, rfl⟩ := Prod.mk.inj (Option.some_inj.1 hstep)
    exact ⟨⟨rfl, rfl, rfl, fun _ _ => rfl⟩, rfl, .inl ⟨hname, hobject, hposted, hpc⟩⟩
  | size =>
    obtain ⟨rfl, rfl⟩ := Prod.mk.inj (Option.some_inj.1 hstep)
    obtain ⟨hdown, -, hfile, hoffset⟩ := hpc
    exact ⟨⟨rfl, rfl, rfl, fun _ _ => rfl⟩, rfl,
      .inl ⟨hname, hobject, hposted, hdown, rfl, hfile, hoffset⟩⟩
  | opening =>
    obtain ⟨rfl, rfl⟩ := Prod.mk.inj (Option.some_inj.1 hstep)
    obtain ⟨hdown, htotal, -, hoffset⟩ := hpc
    refine ⟨.write .., rfl,
      .inl ⟨hname, hobject, hposted, ⟨⟨[], ?_, hoffset.symm, rfl⟩, htotal⟩, ?_⟩⟩
    · exact s.write_files ..
    · exact hdown.trans hoffset.symm
  | next rest =>
    obtain ⟨⟨⟨written, hfile, hlength, hcontent⟩, htotal⟩, hdown⟩ := hpc
    cases rest with
    | nil =>
      obtain ⟨rfl, rfl⟩ := Prod.mk.inj (Option.some_inj.1 hstep)
      exact ⟨⟨rfl, rfl, rfl, fun _ _ => rfl⟩, rfl, .inl
        ⟨hname, hobject, hposted, ⟨⟨written, hfile, hlength, hcontent⟩, htotal⟩, hdown⟩⟩
    | cons data rest =>
      obtain ⟨rfl, rfl⟩ := Prod.mk.inj (Option.some_inj.1 hstep)
      refine ⟨.write .., rfl, .inl ⟨hname, hobject, hposted,
        ⟨⟨written ++ data, ?_, ?_, ?_⟩, htotal⟩, ?_⟩⟩
      · rw [Shared.write_files, hfile, Option.getD_some]
        show some (writeAt written offset data) = _
        rw [← show written.length = offset from hlength, writeAt_length]
      · rw [List.length_append, hlength]
      · rw [List.append_assoc, ← List.flatten_cons, hcontent]
      · show s.downSize + data.length = offset + data.length
        rw [hdown]
  | load size rest =>
    obtain ⟨rfl, rfl⟩ := Prod.mk.inj (Option.some_inj.1 hstep)
    obtain ⟨⟨hfile, htotal⟩, hdown⟩ := hpc
    exact ⟨⟨rfl, rfl, rfl, fun _ _ => rfl⟩, rfl, .inl
      ⟨hname, hobject, hposted, ⟨hfile, htotal⟩, hdown⟩⟩
  | store value rest =>
    obtain ⟨rfl, rfl⟩ := Prod.mk.inj (Option.some_inj.1 hstep)
    obtain ⟨⟨hfile, htotal⟩, hdown⟩ := hpc
    exact ⟨⟨rfl, rfl, rfl, fun _ _ => rfl⟩, rfl, .inl
      ⟨hname, hobject, hposted, ⟨hfile, htotal⟩, hdown⟩⟩
  | name =>
    obtain ⟨rfl, rfl⟩ := Prod.mk.inj (Option.some_inj.1 hstep)
    obtain ⟨⟨⟨written, hfile, hlength, hcontent⟩, htotal⟩, hdown⟩ := hpc
    rw [List.flatten_nil, List.append_nil] at hcontent
    refine ⟨⟨rfl, rfl, rfl, fun _ _ => rfl⟩, rfl,
      .inr ⟨congrArg Pc.post hname, hposted, ?_, ?_, ?_⟩⟩
    · rw [htotal, hdown, ← hlength, hcontent]
      exact object.contentLength_le
    · exact hfile.trans ((congrArg some hcontent).trans hobject.symm)
    · exact Option.isSome_iff_exists.2 ⟨_, hfile⟩
  | post | done | failed => exact hpc.elim

/-! ## All threads -/

/-- The file was complete when the request was sent. -/
def Post.Complete (p : Post) : Prop := ∃ content, p.file = some content ∧ p.object = some content

/-- What holds of everything but the file `busy` that is being downloaded. -/
structure Kept (w : World) (busy : Option String) : Prop where
  files : ∀ n content, w.shared.files n = some content → some n ≠ busy →
    w.shared.object n = some content
  posts : ∀ p ∈ w.shared.posts, p.Complete
  settled : ∀ d ∈ w.downloads, d.pc.named = true → Settled w.shared busy d
  lost : ∀ n, w.lost n = true → w.shared.files n = none ∧ some n ≠ busy

/-- The handler has not passed the test. -/
def Handler.waiting : Handler → Bool
  | idle | readDown _ | readTotal _ _ => true
  | _ => false

/-- What the handler has done with the globals, when they belong to no thread. -/
def Ready (s : Shared) : Handler → Prop
  | .idle | .readDown _ | .readTotal _ _ | .clearDown _ => s.totalSize ≤ s.downSize
  | .clearTotal _ => s.downSize = 0
  | .setName _ => s.downSize = 0 ∧ s.totalSize = 0
  | .look m => s.downSize = 0 ∧ s.totalSize = 0 ∧ s.nameDownFile = m.name
  | .post m => s.downSize = 0 ∧ s.totalSize = 0 ∧ s.nameDownFile = m.name ∧
      (s.files m.name).isSome = true
  | .spawn m => s.downSize = 0 ∧ s.totalSize = 0 ∧ s.nameDownFile = m.name ∧
      s.files m.name = none

/-- The globals belong to the handler, or to one thread. -/
inductive Inv (w : World) : Prop
  | free (hkept : Kept w none) (hfree : w.Free) (hready : Ready w.shared w.handler)
  | running (i : ℕ) (d : Download) (hd : w.downloads[i]? = some d) (hrun : Running w.shared d)
      (hkept : Kept w (some d.name))
      (hothers : ∀ j d', j ≠ i → w.downloads[j]? = some d' → d'.pc.named = true)
      (hwaiting : w.handler.waiting = true)

variable {w w' : World}

theorem Running.not_named {s : Shared} {d : Download} (h : Running s d) : d.pc.named = false := by
  obtain ⟨-, -, -, hpc⟩ := h
  cases hp : d.pc <;> rw [hp] at hpc
  case post | done | failed => exact hpc.elim
  all_goals rfl

/-- A request changes nothing for the thread that has the globals. -/
theorem Running.post {s : Shared} {d : Download} (h : Running s d) (name : String) :
    Running (s.post name) d := by
  have hfetched : ∀ rest, Fetched s d rest → Fetched (s.post name) d rest := fun _ h =>
    ⟨h.file, h.totalSize⟩
  obtain ⟨hname, hobject, hposted, hpc⟩ := h
  refine ⟨hname, hobject, hposted, ?_⟩
  cases hp : d.pc <;> rw [hp] at hpc
  case next | load | store | name => exact ⟨hfetched _ hpc.1, hpc.2⟩
  all_goals exact hpc

/-- A thread that needs the globals no more can only send its request. -/
theorem step_named {s s' : Shared} {d d' : Download} (hnamed : d.pc.named = true)
    (hstep : d.step s = some (d', s')) : ∃ name, d.pc = .post name ∧ s' = s.post name ∧
      d' = { d with pc := .done, posted := d.posted ++ [name] } := by
  unfold Download.step at hstep
  cases hp : d.pc with
  | post name =>
    rw [hp] at hstep
    obtain ⟨rfl, rfl⟩ := Prod.mk.inj (Option.some_inj.1 hstep)
    exact ⟨name, rfl, rfl, rfl⟩
  | done | failed =>
    rw [hp] at hstep
    exact absurd hstep (by simp)
  | _ =>
    rw [hp] at hnamed
    exact absurd hnamed Bool.false_ne_true

theorem not_canFail_of_named {d : Download} (h : d.pc.named = true) : d.canFail = false := by
  unfold Download.canFail
  cases hp : d.pc with
  | get | opening | next =>
    rw [hp] at h
    exact absurd h Bool.false_ne_true
  | _ => rfl

theorem Settled.mono {s : Shared} {busy : Option String} {d : Download}
    (h : Settled s busy d) : Settled s none d := by
  unfold Settled at h ⊢
  cases hp : d.pc with
  | post name =>
    rw [hp] at h
    exact ⟨h.1, h.2.1, by simp, h.2.2.2⟩
  | _ =>
    rw [hp] at h
    exact h

/-- A complete file is asked for. -/
theorem Kept.complete {busy : Option String} (h : Kept w busy) {name : String}
    (hfile : (w.shared.files name).isSome = true) (hbusy : some name ≠ busy) :
    ∀ p ∈ (w.shared.post name).posts, p.Complete := by
  intro p hp
  rcases List.mem_append.1 hp with hp | hp
  · exact h.posts p hp
  · obtain rfl := List.mem_singleton.1 hp
    obtain ⟨content, hcontent⟩ := Option.isSome_iff_exists.1 hfile
    exact ⟨content, hcontent, h.files name content hcontent hbusy⟩

/-- A thread sends its request. -/
theorem Kept.post {busy : Option String} (h : Kept w busy) {j : ℕ} {d : Download} {name : String}
    (hd : w.downloads[j]? = some d) (hpc : d.pc = .post name) :
    Kept { w with
      shared := w.shared.post name
      downloads := w.downloads.set j { d with pc := .done, posted := d.posted ++ [name] } }
      busy := by
  have hsettled := h.settled d (List.mem_of_getElem? hd) (by rw [hpc]; rfl)
  unfold Settled at hsettled
  rw [hpc] at hsettled
  obtain ⟨rfl, hfile, hbusy, hposted⟩ := hsettled
  refine ⟨h.files, h.complete hfile hbusy, fun d' hd' hnamed => ?_, h.lost⟩
  rcases List.mem_or_eq_of_mem_set hd' with hd' | rfl
  · exact h.settled d' hd' hnamed
  · show d.posted ++ [d.name] = [d.name]
    rw [hposted, List.nil_append]

/-- The thread that has the globals takes a step. -/
theorem Inv.thread {i : ℕ} {d d' : Download} {s : Shared} (hd : w.downloads[i]? = some d)
    (hrun : Running w.shared d) (hkept : Kept w (some d.name))
    (hothers : ∀ j d', j ≠ i → w.downloads[j]? = some d' → d'.pc.named = true)
    (hwaiting : w.handler.waiting = true) (hstep : d.step w.shared = some (d', s)) :
    Inv { w with shared := s, downloads := w.downloads.set i d' } := by
  obtain ⟨hframe, hname, hnext⟩ := hrun.step hstep
  have hlt : i < w.downloads.length := (List.getElem?_eq_some_iff.1 hd).1
  have hset : (w.downloads.set i d')[i]? = some d' := List.getElem?_set_self hlt
  have hothers' : ∀ j e, j ≠ i → (w.downloads.set i d')[j]? = some e → e.pc.named = true := by
    intro j e hj he
    rw [List.getElem?_set_ne (Ne.symm hj)] at he
    exact hothers j e hj he
  have hfiles : ∀ n, some n ≠ some d.name → s.files n = w.shared.files n := fun n hn =>
    hframe.files n fun heq => hn (congrArg some heq)
  have hsettled : ∀ e ∈ w.downloads, e.pc.named = true → Settled s (some d.name) e := by
    intro e he hnamed
    have hold := hkept.settled e he hnamed
    unfold Settled at hold ⊢
    cases hp : e.pc with
    | post name =>
      rw [hp] at hold
      exact ⟨hold.1, by rw [hfiles name hold.2.2.1]; exact hold.2.1, hold.2.2⟩
    | _ =>
      rw [hp] at hold
      exact hold
  have hlost : ∀ n, w.lost n = true → s.files n = none ∧ some n ≠ some d.name := fun n hn =>
    ⟨(hfiles n (hkept.lost n hn).2).trans (hkept.lost n hn).1, (hkept.lost n hn).2⟩
  have hposts : ∀ p ∈ s.posts, p.Complete := by
    rw [hframe.posts]
    exact hkept.posts
  have hobject : ∀ n content, s.files n = some content → some n ≠ some d.name →
      s.object n = some content := fun n content hn hbusy => by
    rw [hframe.object]
    exact hkept.files n content ((hfiles n hbusy).symm.trans hn) hbusy
  rcases hnext with hrun' | ⟨hpc, hposted, hle, hfile, hsome⟩
  · refine .running i d' hset hrun' ⟨?_, hposts, ?_, ?_⟩ hothers' hwaiting
    · rw [hname]
      exact hobject
    · intro e he hnamed
      rw [hname]
      rcases List.mem_or_eq_of_mem_set he with he | rfl
      · exact hsettled e he hnamed
      · exact absurd (hnamed.symm.trans hrun'.not_named) (by simp)
    · rw [hname]
      exact hlost
  · refine .free ⟨?_, hposts, ?_, fun n hn => ⟨(hlost n hn).1, by simp⟩⟩ ?_ ?_
    · intro n content hn _
      by_cases hbusy : n = d.name
      · rw [hbusy] at hn ⊢
        exact hfile.symm.trans hn
      · exact hobject n content hn fun heq => hbusy (Option.some_inj.1 heq)
    · intro e he hnamed
      rcases List.mem_or_eq_of_mem_set he with he | rfl
      · exact (hsettled e he hnamed).mono
      · unfold Settled
        rw [hpc]
        exact ⟨hname.symm, hsome, by simp, hposted⟩
    · intro e he
      obtain ⟨j, hj⟩ := List.mem_iff_getElem?.1 he
      by_cases hji : j = i
      · rw [hji, hset] at hj
        rw [← Option.some_inj.1 hj, hpc]
        rfl
      · exact hothers' j e hji hj
    · show Ready s w.handler
      cases hh : w.handler with
      | idle | readDown | readTotal => exact hle
      | _ =>
        rw [hh] at hwaiting
        exact absurd hwaiting Bool.false_ne_true

/-- A thread is started for a name without a file. -/
theorem Inv.spawn {m : Message} (hkept : Kept w none) (hfree : w.Free)
    (hready : Ready w.shared (.spawn m)) : Inv (w.spawn m) := by
  obtain ⟨hdown, htotal, hname, hfile⟩ := hready
  refine .running w.downloads.length (.start m) (List.getElem?_concat_length ..)
    ⟨hname, Function.update_self .., rfl, hdown, htotal, hfile, rfl⟩
    ⟨?_, hkept.posts, ?_, ?_⟩ ?_ rfl
  · intro n content hn hbusy
    refine (Function.update_of_ne (fun heq => hbusy (congrArg some heq)) _ _).trans ?_
    exact hkept.files n content hn (by simp)
  · intro d hd hnamed
    rcases List.mem_append.1 hd with hd | hd
    · have hold := hkept.settled d hd hnamed
      unfold Settled at hold ⊢
      cases hp : d.pc with
      | post name =>
        rw [hp] at hold
        refine ⟨hold.1, hold.2.1, fun heq => ?_, hold.2.2.2⟩
        have hsome := hold.2.1
        rw [Option.some_inj.1 heq] at hsome
        exact absurd (hsome.symm.trans (congrArg Option.isSome hfile)) (by simp)
      | _ =>
        rw [hp] at hold
        exact hold
    · obtain rfl := List.mem_singleton.1 hd
      exact absurd hnamed Bool.false_ne_true
  · intro n hn
    by_cases heq : n = m.name
    · rw [heq] at hn
      exact absurd ((Function.update_self ..).symm.trans hn) Bool.false_ne_true
    · exact ⟨(hkept.lost n ((Function.update_of_ne heq _ _).symm.trans hn)).1,
        fun h => heq (Option.some_inj.1 h)⟩
  · intro j d hj hd
    obtain ⟨hlt, -⟩ := List.getElem?_eq_some_iff.1 hd
    have hlt' : j < w.downloads.length := by
      have hlen : (w.spawn m).downloads.length = w.downloads.length + 1 := by
        simp [World.spawn]
      omega
    have hd' : w.downloads[j]? = some d := (List.getElem?_append_left hlt').symm.trans hd
    exact hfree d (List.mem_of_getElem? hd')

/-- The handler takes a step. -/
theorem Inv.handle (h : Inv w) (hsafe : Safe w .handler) (hw : w.handle = some w') : Inv w' := by
  cases h with
  | free hkept hfree hready =>
    unfold World.handle at hw
    unfold Ready at hready
    cases hh : w.handler <;> rw [hh] at hw hready <;> try obtain rfl := Option.some_inj.1 hw
    case idle => exact absurd hw (by simp)
    case readDown => exact .free ⟨hkept.files, hkept.posts, hkept.settled, hkept.lost⟩ hfree hready
    case readTotal m downSize =>
      refine .free ⟨hkept.files, hkept.posts, hkept.settled, hkept.lost⟩ hfree ?_
      show Ready w.shared (if downSize < w.shared.totalSize then _ else _)
      split <;> exact hready
    case clearDown => exact .free ⟨hkept.files, hkept.posts, hkept.settled, hkept.lost⟩ hfree rfl
    case clearTotal =>
      exact .free ⟨hkept.files, hkept.posts, hkept.settled, hkept.lost⟩ hfree ⟨hready, rfl⟩
    case setName =>
      exact .free ⟨hkept.files, hkept.posts, hkept.settled, hkept.lost⟩ hfree
        ⟨hready.1, hready.2, rfl⟩
    case look m =>
      obtain ⟨hdown, htotal, hname⟩ := hready
      refine .free ⟨hkept.files, hkept.posts, hkept.settled, hkept.lost⟩ hfree ?_
      show Ready w.shared (if (w.shared.files w.shared.nameDownFile).isSome then _ else _)
      rw [hname]
      split
      next hsome => exact ⟨hdown, htotal, hname, hsome⟩
      next hnone => exact ⟨hdown, htotal, hname, by simpa using hnone⟩
    case post m =>
      obtain ⟨hdown, htotal, hname, hsome⟩ := hready
      refine .free ⟨hkept.files, ?_, hkept.settled, hkept.lost⟩ hfree
        (htotal.trans_le (Nat.zero_le _))
      exact hkept.complete (by rwa [hname]) (by simp)
    case spawn m => exact .spawn hkept hfree hready
  | running i d hd hrun hkept hothers hwaiting =>
    have hgo : ∀ handler : Handler, handler.waiting = true → Inv { w with handler := handler } :=
      fun handler hwait => .running i d hd hrun
        ⟨hkept.files, hkept.posts, hkept.settled, hkept.lost⟩ hothers hwait
    unfold World.handle at hw
    unfold Safe at hsafe
    cases hh : w.handler with
    | idle =>
      rw [hh] at hw
      exact absurd hw (by simp)
    | readDown =>
      rw [hh] at hw
      obtain rfl := Option.some_inj.1 hw
      exact hgo _ rfl
    | readTotal m downSize =>
      rw [hh] at hw hsafe
      obtain rfl := Option.some_inj.1 hw
      -- the thread needs the globals, so the message is refused
      have hlt : downSize < w.shared.totalSize := by
        by_contra hlt
        have hnamed := hsafe hlt d (List.mem_of_getElem? hd)
        exact absurd (hnamed.symm.trans hrun.not_named) (by simp)
      rw [if_pos hlt]
      exact hgo _ rfl
    | _ =>
      rw [hh] at hwaiting
      exact absurd hwaiting Bool.false_ne_true

/-- A thread raises before it has opened its file. -/
theorem Inv.fail {i : ℕ} (h : Inv w) (hsafe : Safe w (.fail i)) (hw : next w (.fail i) = some w') :
    Inv w' := by
  obtain ⟨d, hd, hw⟩ := Option.bind_eq_some_iff.1 hw
  obtain ⟨hcan, hw⟩ := Option.ite_none_right_eq_some.1 hw
  obtain rfl := Option.some_inj.1 hw
  have hnot : ¬d.pc.named = true := fun hnamed =>
    absurd (hcan.symm.trans (not_canFail_of_named hnamed)) (by simp)
  cases h with
  | free hkept hfree hready => exact absurd (hfree d (List.mem_of_getElem? hd)) hnot
  | running k e he hrun hkept hothers hwaiting =>
    have hki : i = k := by
      by_contra hne
      exact hnot (hothers i d hne hd)
    subst hki
    obtain rfl := Option.some_inj.1 (hd.symm.trans he)
    obtain ⟨-, -, hposted, hpc⟩ := hrun
    have hstart : w.shared.files d.name = none ∧ w.shared.totalSize ≤ w.shared.downSize := by
      rcases hsafe d hd with hget | ⟨hopening, hle⟩
      · rw [hget] at hpc
        exact ⟨hpc.2.2.1, hpc.2.1.trans_le (Nat.zero_le _)⟩
      · rw [hopening] at hpc
        exact ⟨hpc.2.2.1, hle⟩
    have hset : ∀ e ∈ w.downloads.set i { d with pc := .failed },
        (∃ j, j ≠ i ∧ w.downloads[j]? = some e) ∨ e = { d with pc := .failed } := by
      intro e he
      obtain ⟨j, hj⟩ := List.mem_iff_getElem?.1 he
      by_cases hji : j = i
      · rw [hji, List.getElem?_set_self (List.getElem?_eq_some_iff.1 hd).1] at hj
        exact .inr (Option.some_inj.1 hj).symm
      · rw [List.getElem?_set_ne (Ne.symm hji)] at hj
        exact .inl ⟨j, hji, hj⟩
    refine .free ⟨?_, hkept.posts, ?_, ?_⟩ ?_ ?_
    · intro n content hn _
      refine hkept.files n content hn fun heq => ?_
      rw [Option.some_inj.1 heq] at hn
      exact absurd (hstart.1.symm.trans hn) (by simp)
    · intro e he hnamed
      rcases hset e he with ⟨j, hj, hej⟩ | rfl
      · exact (hkept.settled e (List.mem_of_getElem? hej) hnamed).mono
      · exact hposted
    · intro n hn
      refine ⟨?_, by simp⟩
      by_cases heq : n = d.name
      · rw [heq]
        exact hstart.1
      · exact (hkept.lost n ((Function.update_of_ne heq _ _).symm.trans hn)).1
    · intro e he
      rcases hset e he with ⟨j, hj, hej⟩ | rfl
      · exact hothers j e hj hej
      · rfl
    · show Ready w.shared w.handler
      cases hh : w.handler with
      | idle | readDown | readTotal => exact hstart.2
      | _ =>
        rw [hh] at hwaiting
        exact absurd hwaiting Bool.false_ne_true

theorem Inv.next {e : Event} (h : Inv w) (hsafe : Safe w e) (hw : next w e = some w') : Inv w' := by
  cases e with
  | message m =>
    obtain ⟨hidle, hw⟩ := Option.ite_none_right_eq_some.1 hw
    obtain rfl := Option.some_inj.1 hw
    cases h with
    | free hkept hfree hready =>
      rw [hidle] at hready
      exact .free ⟨hkept.files, hkept.posts, hkept.settled, hkept.lost⟩ hfree hready
    | running i d hd hrun hkept hothers hwaiting =>
      exact .running i d hd hrun ⟨hkept.files, hkept.posts, hkept.settled, hkept.lost⟩ hothers rfl
  | handler => exact h.handle hsafe hw
  | fail i => exact h.fail hsafe hw
  | thread j =>
    obtain ⟨d, hd, hw⟩ := Option.bind_eq_some_iff.1 hw
    obtain ⟨⟨d', s⟩, hstep, hw⟩ := Option.bind_eq_some_iff.1 hw
    obtain rfl := Option.some_inj.1 hw
    cases h with
    | free hkept hfree hready =>
      obtain ⟨name, hpc, rfl, rfl⟩ := step_named (hfree d (List.mem_of_getElem? hd)) hstep
      refine .free (hkept.post hd hpc) (fun e he => ?_) hready
      rcases List.mem_or_eq_of_mem_set he with he | rfl
      · exact hfree e he
      · rfl
    | running i e he hrun hkept hothers hwaiting =>
      by_cases hji : j = i
      · subst hji
        obtain rfl := Option.some_inj.1 (hd.symm.trans he)
        exact .thread hd hrun hkept hothers hwaiting hstep
      · obtain ⟨name, hpc, rfl, rfl⟩ := step_named (hothers j d hji hd) hstep
        refine .running i e ?_ (hrun.post name) (hkept.post hd hpc) (fun k d' hk hd' => ?_) hwaiting
        · exact (List.getElem?_set_ne hji).trans he
        · by_cases hkj : k = j
          · rw [hkj] at hd'
            rw [List.getElem?_set_self (List.getElem?_eq_some_iff.1 hd).1] at hd'
            rw [← Option.some_inj.1 hd']
            rfl
          · exact hothers k d' hk ((List.getElem?_set_ne (Ne.symm hkj)).symm.trans hd')

theorem Inv.of_reachable (h : system.ReachableBy Safe w) : Inv w := by
  refine System.ReachableBy.invariant ?_ ?_ h
  · rintro s ⟨files, rfl⟩
    exact .free ⟨fun n content hn _ => hn, by simp [World.init], by simp [World.init],
      by simp [World.init]⟩ (by simp [World.init, World.Free]) le_rfl
  · intro s e t hs he ht
    exact hs.next he ht

/-! ## Requests -/

/-- The steps of the handler for a message. -/
def handling (m : Message) : List Event := .message m :: List.replicate 7 .handler

/-- Only complete files are queued. -/
structure Correct (w : World) : Prop where
  /-- A request is for a file that holds its object. -/
  posts : ∀ p ∈ w.shared.posts, p.Complete
  /-- A download that completes sends one request, for its own name, and the others none. -/
  own : ∀ d ∈ w.downloads, d.posted = if d.pc = .done then [d.name] else []
  /-- After the downloads have ended a message is accepted : what it names is queued if it is in
  the folder, and fetched otherwise. -/
  accepted : w.handler = .idle → (∀ d ∈ w.downloads, d.pc.ended = true) → ∀ m,
    ∃ w', system.run w (handling m) = some w' ∧
      if (w.shared.files m.name).isSome then
        w'.downloads = w.downloads ∧ w'.shared.posts = (w.shared.post m.name).posts
      else w'.downloads = w.downloads ++ [.start m]
  /-- It is fetched again if it failed. -/
  fetched : ∀ n, w.lost n = true → w.shared.files n = none

/-- The handler accepts a message when the sizes are such. -/
theorem run_handling {m : Message} (hidle : w.handler = .idle)
    (hle : w.shared.totalSize ≤ w.shared.downSize) :
    ∃ w', system.run w (handling m) = some w' ∧
      if (w.shared.files m.name).isSome then
        w'.downloads = w.downloads ∧ w'.shared.posts = (w.shared.post m.name).posts
      else w'.downloads = w.downloads ++ [.start m] := by
  have hnot : ¬w.shared.downSize < w.shared.totalSize := not_lt.2 hle
  cases hfile : (w.shared.files m.name).isSome with
  | true =>
    refine ⟨{ w with shared := { w.shared with
        downSize := 0
        totalSize := 0
        nameDownFile := m.name
        posts := (w.shared.post m.name).posts } }, ?_, ?_⟩
    · simp [handling, List.replicate, System.run, system, CloudDownload.next, World.handle, hidle,
        hnot, hfile, Shared.post]
    · exact ⟨rfl, rfl⟩
  | false =>
    refine ⟨World.spawn { w with shared := { w.shared with
        downSize := 0
        totalSize := 0
        nameDownFile := m.name } } m, ?_, ?_⟩
    · simp [handling, List.replicate, System.run, system, CloudDownload.next, World.handle, hidle,
        hnot, hfile, World.spawn]
    · rfl

theorem Inv.kept (h : Inv w) : ∃ busy, Kept w busy := by
  cases h with
  | free hkept => exact ⟨_, hkept⟩
  | running _ _ _ _ hkept => exact ⟨_, hkept⟩

/-- What a thread has sent. -/
theorem Settled.posted {s : Shared} {busy : Option String} {d : Download} (h : Settled s busy d) :
    d.posted = if d.pc = .done then [d.name] else [] := by
  unfold Settled at h
  cases hp : d.pc <;> rw [hp] at h
  case done => exact h
  case post => exact h.2.2.2
  all_goals exact h

theorem Inv.correct (h : Inv w) : Correct w := by
  obtain ⟨busy, hkept⟩ := h.kept
  refine ⟨hkept.posts, fun d hd => ?_, fun hidle hended m => ?_, fun n hn => (hkept.lost n hn).1⟩
  · cases hnamed : d.pc.named with
    | true => exact (hkept.settled d hd hnamed).posted
    | false =>
      have hpc : d.pc ≠ .done := fun heq => by
        rw [heq] at hnamed
        exact absurd hnamed.symm Bool.false_ne_true
      rw [if_neg hpc]
      cases h with
      | free _ hfree => exact absurd ((hfree d hd).symm.trans hnamed) (by simp)
      | running i e he hrun _ hothers =>
        obtain ⟨j, hj⟩ := List.mem_iff_getElem?.1 hd
        by_cases hji : j = i
        · rw [hji] at hj
          obtain rfl := Option.some_inj.1 (hj.symm.trans he)
          exact hrun.2.2.1
        · exact absurd ((hothers j d hji hj).symm.trans hnamed) (by simp)
  · cases h with
    | free _ _ hready =>
      rw [hidle] at hready
      exact run_handling hidle hready
    | running i e he hrun =>
      have hend := hended e (List.mem_of_getElem? he)
      have hnamed := hrun.not_named
      cases hp : e.pc <;> rw [hp] at hend hnamed <;>
        first | exact absurd hend Bool.false_ne_true | exact absurd hnamed (by simp [Pc.named])

/-- As long as a message passes the test only when no thread needs the globals, and threads fail
only before they open their files, only complete files are queued. -/
theorem queues_complete (h : system.ReachableBy Safe w) : Correct w :=
  (Inv.of_reachable h).correct

/-- The condition on a thread that fails, for a thread that there is. -/
theorem safe_fail_iff {i : ℕ} {d : Download} (hd : w.downloads[i]? = some d) :
    (d.pc = .get ∨ d.pc = .opening ∧ w.shared.totalSize ≤ w.shared.downSize) ↔
      Safe w (.fail i) :=
  ⟨fun h _ hd' => Option.some_inj.1 (hd.symm.trans hd') ▸ h, fun h => h d hd⟩

instance (w : World) (e : Event) : Decidable (Safe w e) :=
  match e with
  | .message _ => isTrue trivial
  | .thread _ => isTrue trivial
  | .handler => by
    unfold Safe
    cases w.handler <;> infer_instance
  | .fail i =>
    match hd : w.downloads[i]? with
    | none => isTrue fun _ hd' => absurd (hd.symm.trans hd') (by simp)
    | some _ => decidable_of_iff _ (safe_fail_iff hd)

/-- Two messages. -/
def first : Message := ⟨"cube.gcode", ⟨[[71, 50], [56]], true⟩⟩

def second : Message := ⟨"boat.gcode", ⟨[[71]], true⟩⟩

/-- A download of two pieces, after one that failed. -/
def safeRun : List Event :=
  handling first ++ [.fail 0] ++ handling first ++ List.replicate 12 (.thread 1)

/-- The file is queued. -/
theorem queues_complete_again :
    ∃ w, system.run (.init fun _ => none) safeRun = some w ∧ Correct w ∧
      w.shared.posts.map Post.name = ["cube.gcode"] := by
  obtain ⟨w, hw⟩ : ∃ w, system.run (.init fun _ => none) safeRun = some w :=
    Option.isSome_iff_exists.1 (by decide +kernel)
  have hposts : (system.run (.init fun _ => none) safeRun).map
      (fun w => w.shared.posts.map Post.name) = some ["cube.gcode"] := by decide +kernel
  rw [hw, Option.map_some, Option.some_inj] at hposts
  exact ⟨w, hw, queues_complete (.run (.init ⟨_, rfl⟩) (by decide +kernel) hw), hposts⟩

/-- A second message comes before the first thread has its answer, and passes the test. -/
def earlyRun : List Event :=
  handling first ++ handling second ++ List.replicate 12 (.thread 0)

/-- The first download asks for a print of the second. -/
theorem not_queues_complete : ¬∀ w, system.Reachable w → Correct w := by
  intro hall
  obtain ⟨w, hw⟩ : ∃ w, system.run (.init fun _ => none) earlyRun = some w :=
    Option.isSome_iff_exists.1 (by decide +kernel)
  have hposts : (system.run (.init fun _ => none) earlyRun).map
      (fun w => w.shared.posts) = some [⟨"boat.gcode", none, some [71]⟩] := by decide +kernel
  rw [hw, Option.map_some, Option.some_inj] at hposts
  obtain ⟨content, hfile, -⟩ :=
    (hall w (.run (.init ⟨_, rfl⟩) hw)).posts _ (hposts ▸ List.mem_singleton_self _)
  exact absurd hfile (by simp)

end CloudDownload

end Thinker
