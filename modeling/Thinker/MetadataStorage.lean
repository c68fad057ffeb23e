import Mathlib.Tactic
import Thinker.Json
import Thinker.Numerals
import Thinker.OrderedDict
import Thinker.PosixPath

/-!
# The workers for metadata and notifications

`MetadataStorage` of `file_manager.py` keeps a cache of the metadata of each file, writes every
change of it to a namespace of the database, and lets one worker extract the metadata of the files
that are requested. `InotifyObserver` lets one task await the notifications of files. Each call and
each part of a coroutine between two awaits is one step.
-/

namespace Thinker

namespace MetadataStorage

/-- The metadata of a file. -/
abbrev Record := OrderedDict Text Json

/-- What is known about the file of a request. -/
structure PathInfo where
  size : Option ℚ
  modified : Option ℚ
  ufpPath : Option Text
  deriving DecidableEq

/-- `mdata[field] == path_info.get(field, None)`. -/
def equals : Json → Option ℚ → Bool
  | .null, none => true
  | .num q, some q' => q == q'
  | .bool b, some q => q == b.toNat
  | _, _ => false

/-- `VALID_GCODE_EXTS`. -/
def validGcodeExts : List Text :=
  [".gcode".toList, ".g".toList, ".gco".toList, ".ufp".toList, ".nc".toList]

/-- The record of a file without metadata. -/
def unknown : Record :=
  (OrderedDict.empty.put "size".toList (.str [])).put "modified".toList (.num 0)

/-- `_has_valid_data`, or nothing if a field is missing. -/
def hasValidData (metadata : OrderedDict Text Record) (fname : Text) (pathInfo : PathInfo) :
    Option Bool :=
  if pathInfo.ufpPath.isSome then some false
  else
    let mdata := (metadata.get fname).getD unknown
    match mdata.get "size".toList with
    | none => none
    | some size =>
      if !equals size pathInfo.size then some false
      else (mdata.get "modified".toList).map (equals · pathInfo.modified)

/-! ## The namespace of the database -/

/-- The operations that are run on the namespace. -/
inductive DbOp where
  | insert (key : Text) (value : Record)
  | delete (key : Text)
  | deleteBatch (keys : List Text)
  | moveBatch (moves : List (Text × Text))

variable (fits : Text → Bool)

/-- The keys that the database stores. The empty key is refused, and so is one that is too long. -/
def Storable (key : Text) : Prop :=
  key ≠ [] ∧ fits key = true

instance (key : Text) : Decidable (Storable fits key) :=
  inferInstanceAs (Decidable (_ ∧ _))

/-- The moves of `_move_batch_impl` in a transaction, unless one of them is refused. -/
def moveAll : OrderedDict Text Record → List (Text × Text) → Option (OrderedDict Text Record)
  | ns, [] => some ns
  | ns, (source, dest) :: moves =>
    if Storable fits source then
      match ns.get source with
      | none => moveAll ns moves
      | some value =>
        if Storable fits dest then moveAll ((ns.del source).put dest value) moves else none
    else none

/-- The namespace after an operation. One that is refused does not change it. -/
def DbOp.run (ns : OrderedDict Text Record) : DbOp → OrderedDict Text Record
  | .insert key value => if Storable fits key then ns.put key value else ns
  | .delete key => if Storable fits key then ns.del key else ns
  | .deleteBatch keys =>
    if ∀ key ∈ keys, Storable fits key then ns.filterKeys (· ∉ keys) else ns
  | .moveBatch moves => (moveAll fits ns moves).getD ns

/-! ## The storage -/

/-- The worker `_process_metadata_update`. -/
inductive Worker where
  /-- There is none. -/
  | none
  /-- It was handed to the event loop. -/
  | scheduled
  /-- It turns to the first request, and nothing else runs meanwhile. -/
  | turning
  /-- It awaits the extraction for a request. -/
  | extracting (fname : Text) (pathInfo : PathInfo) (mevt : ℕ) (retries : ℕ)
  /-- It loops without an end. -/
  | looping
  /-- An exception has ended it. -/
  | failed
  deriving DecidableEq

/-- The worker has work to do. -/
def Worker.Runs : Worker → Prop
  | .scheduled => True
  | .turning => True
  | .extracting _ _ _ _ => True
  | _ => False

/-- The variables of a storage, the events that are set, the operations that were run on the
namespace, and the keys of the tasks of `pop` that have not started. -/
structure Storage where
  metadata : OrderedDict Text Record
  pendingRequests : OrderedDict Text (PathInfo × ℕ)
  busy : Bool
  worker : Worker
  events : ℕ
  set : List ℕ
  ops : List DbOp
  pops : List Text

/-- A storage whose cache was read from the namespace. -/
def Storage.init (ns : OrderedDict Text Record) : Storage where
  metadata := ns
  pendingRequests := .empty
  busy := false
  worker := .none
  events := 0
  set := []
  ops := []
  pops := []

namespace Storage

variable (s : Storage)

/-- The namespace after all operations. -/
def namespaceFrom (ns : OrderedDict Text Record) : OrderedDict Text Record :=
  s.ops.foldl (DbOp.run fits) ns

/-- `insert`, and every other `self.metadata[key] = val` with `self.mddb[key] = val`. -/
def insert (key : Text) (val : Record) : Storage :=
  { s with metadata := s.metadata.put key val, ops := s.ops ++ [.insert key val] }

/-- `self.mddb.pop(fname, None)` after `self.metadata.pop(fname, None)`. -/
def pop (fname : Text) : Storage :=
  { s with metadata := s.metadata.del fname, pops := s.pops ++ [fname] }

/-- `remove_file_metadata`. -/
def removeFileMetadata (fname : Text) : Storage :=
  if (s.metadata.get fname).isSome then s.pop fname else s

/-- A directory with a slash at its end; `dir_name[-1]` raises if it is empty. -/
def slashed (dirName : Text) : Option Text :=
  dirName.getLast?.map fun c => if c = '/' then dirName else dirName ++ ['/']

/-- `remove_directory_metadata`. -/
def removeDirectoryMetadata (dirName : Text) : Storage :=
  match slashed dirName with
  | none => s
  | some dir =>
    let delItems := s.metadata.keys.filter fun fname =>
      dir.isPrefixOf fname && ((s.metadata.get fname).any fun md => !md.entries.isEmpty)
    let s := { s with metadata := s.metadata.filterKeys fun fname => !dir.isPrefixOf fname }
    if delItems.isEmpty then s else { s with ops := s.ops ++ [.deleteBatch delItems] }

/-- One file of `move_directory_metadata`. -/
def moveOne (acc : OrderedDict Text Record × List (Text × Text)) (move : Text × Text) :
    OrderedDict Text Record × List (Text × Text) :=
  match acc.1.get move.1 with
  | none => acc
  | some md => ((acc.1.del move.1).put move.2 md, acc.2 ++ [move])

/-- The files of a directory and their new names. -/
def moves (prevDir newDir : Text) : List (Text × Text) :=
  (s.metadata.keys.filter prevDir.isPrefixOf).map fun fname =>
    (fname, PosixPath.join newDir (fname.drop prevDir.length))

/-- `move_directory_metadata`. -/
def moveDirectoryMetadata (prevDir newDir : Text) : Storage :=
  match slashed prevDir with
  | none => s
  | some dir =>
    let (metadata, moved) := (s.moves dir newDir).foldl moveOne (s.metadata, [])
    let s := { s with metadata := metadata }
    if moved.isEmpty then s else { s with ops := s.ops ++ [.moveBatch moved] }

/-- `move_file_metadata`. -/
def moveFileMetadata (prevFname newFname : Text) : Storage :=
  match s.metadata.get prevFname with
  | none => s.removeFileMetadata newFname
  | some md =>
    { s with
      metadata := (s.metadata.del prevFname).put newFname md
      ops := s.ops ++ [.moveBatch [(prevFname, newFname)]] }

/-- `parse_metadata` with the event that it returns, or nothing if it raises. -/
def parseMetadata (fname : Text) (pathInfo : PathInfo) : Option (Storage × ℕ) :=
  match s.pendingRequests.get fname with
  | some (_, mevt) => some (s, mevt)
  | none =>
    let mevt := s.events
    let s := { s with events := s.events + 1 }
    if (PosixPath.splitext fname).2 ∉ validGcodeExts then
      some ({ s with set := mevt :: s.set }, mevt)
    else
      match hasValidData s.metadata fname pathInfo with
      | none => none
      | some true => some ({ s with set := mevt :: s.set }, mevt)
      | some false =>
        let s := { s with pendingRequests := s.pendingRequests.put fname (pathInfo, mevt) }
        some (if s.busy then s else { s with busy := true, worker := .scheduled }, mevt)

/-- The worker looks at the first request, if there is one. -/
def take : Storage :=
  match s.pendingRequests.entries with
  | [] => { s with busy := false, worker := .none }
  | (fname, pathInfo, mevt) :: _ =>
    match hasValidData s.metadata fname pathInfo with
    | none => { s with worker := .failed }
    | some true => { s with set := mevt :: s.set, worker := .looping }
    | some false => { s with worker := .extracting fname pathInfo mevt 3 }

/-- The request of the worker is done. -/
def finish (fname : Text) (mevt : ℕ) : Storage :=
  { s with
    pendingRequests := s.pendingRequests.del fname
    set := mevt :: s.set
    worker := .turning }

/-- The record of a file whose metadata was not extracted. -/
def plain (pathInfo : PathInfo) : Record :=
  (((OrderedDict.empty.put "size".toList (.num (pathInfo.size.getD 0))).put
    "modified".toList (.num (pathInfo.modified.getD 0))).put
    "print_start_time".toList .null).put "job_id".toList .null

/-- What a run of the extraction gives: a file and its metadata, or an exception. -/
inductive Outcome where
  | error
  | result (path : Text) (metadata : Record)

/-- `_run_extract_metadata` after its await: it raises also if there is no metadata. -/
def Outcome.record : Outcome → Option (Text × Record)
  | .error => none
  | .result path metadata =>
    if metadata.entries.isEmpty then none
    else some (path, (metadata.put "print_start_time".toList .null).put "job_id".toList .null)

/-- The worker after its await. -/
def extracted (fname : Text) (pathInfo : PathInfo) (mevt retries : ℕ) (o : Outcome) : Storage :=
  match o.record with
  | some (path, metadata) => (s.insert path metadata).finish fname mevt
  | none =>
    if 1 < retries then
      { s with worker := .extracting fname pathInfo mevt (retries - 1) }
    else if pathInfo.ufpPath.isNone then (s.insert fname (plain pathInfo)).finish fname mevt
    else s.finish fname mevt

/-- The calls of a storage, and the parts of its coroutines. -/
inductive Event where
  | parseMetadata (fname : Text) (pathInfo : PathInfo)
  | insert (key : Text) (val : Record)
  | removeFileMetadata (fname : Text)
  | removeDirectoryMetadata (dirName : Text)
  | moveFileMetadata (prevFname newFname : Text)
  | moveDirectoryMetadata (prevDir newDir : Text)
  | start
  | look
  | extracted (o : Outcome)
  | popTask

/-- The storage after an event that happens while the worker awaits, if it can happen. -/
def awaiting : Event → Option Storage
  | .parseMetadata fname pathInfo => some ((s.parseMetadata fname pathInfo).elim s Prod.fst)
  | .insert key val => some (s.insert key val)
  | .removeFileMetadata fname => some (s.removeFileMetadata fname)
  | .removeDirectoryMetadata dirName => some (s.removeDirectoryMetadata dirName)
  | .moveFileMetadata prevFname newFname => some (s.moveFileMetadata prevFname newFname)
  | .moveDirectoryMetadata prevDir newDir => some (s.moveDirectoryMetadata prevDir newDir)
  | .start => if s.worker = .scheduled then some { s with worker := .turning } else none
  | .look => none
  | .extracted o =>
    match s.worker with
    | .extracting fname pathInfo mevt retries => some (s.extracted fname pathInfo mevt retries o)
    | _ => none
  | .popTask =>
    match s.pops with
    | [] => none
    | key :: pops => some { s with ops := s.ops ++ [.delete key], pops := pops }

/-- The event is that the worker looks at the first request. -/
def Event.isLook : Event → Bool
  | .look => true
  | _ => false

/-- The storage after an event, if it can happen. -/
def step (e : Event) : Option Storage :=
  if s.worker = .turning then if e.isLook then some s.take else none
  else if s.worker = .looping then none
  else s.awaiting e

end Storage

/-! ## The notifications -/

/-- The task `_gc_notify_task`. -/
inductive NotifyTask where
  | none
  /-- It was created. -/
  | created
  /-- It awaits a coroutine. -/
  | awaiting (coro : ℕ)
  /-- An exception has ended it. -/
  | failed
  deriving DecidableEq

/-- The task has work to do. -/
def NotifyTask.Live : NotifyTask → Prop
  | .created => True
  | .awaiting _ => True
  | _ => False

/-- The coroutines that are pending, and their task. -/
structure Notifier where
  pendingCoroutines : List ℕ
  gcNotifyTask : NotifyTask

namespace Notifier

/-- What happens to the notifications. -/
inductive Event where
  | queue (coro : ℕ)
  | start
  /-- The coroutine that is awaited returns or raises. -/
  | done (raises : Bool)

variable (n : Notifier)

/-- `queue_gcode_notification`. -/
def queueGcodeNotification (coro : ℕ) : Notifier :=
  let n := { n with pendingCoroutines := n.pendingCoroutines ++ [coro] }
  if n.gcNotifyTask = .none then { n with gcNotifyTask := .created } else n

/-- `_process_gcode_notifications` up to its next await. -/
def processGcodeNotifications : Notifier :=
  match n.pendingCoroutines with
  | [] => { n with gcNotifyTask := .none }
  | coro :: rest => ⟨rest, .awaiting coro⟩

/-- The notifications after an event, if it can happen. -/
def step : Event → Option Notifier
  | .queue coro => some (n.queueGcodeNotification coro)
  | .start => if n.gcNotifyTask = .created then some n.processGcodeNotifications else none
  | .done raises =>
    match n.gcNotifyTask with
    | .awaiting _ =>
      some (if raises then { n with gcNotifyTask := .failed } else n.processGcodeNotifications)
    | _ => none

end Notifier

/-! ## Runs -/

/-- The storage and the notifications. -/
structure System where
  storage : Storage
  notifier : Notifier

/-- The system at the start, with the records of the namespace. -/
def System.init (ns : OrderedDict Text Record) : System :=
  ⟨.init ns, ⟨[], .none⟩⟩

/-- What happens to the storage or to the notifications. -/
inductive Event where
  | storage (e : Storage.Event)
  | notify (e : Notifier.Event)

namespace System

/-- The system after an event, if it can happen. -/
def step (s : System) : Event → Option System
  | .storage e => (s.storage.step e).map fun storage => { s with storage := storage }
  | .notify e =>
    -- nothing else runs while the worker does not await
    if s.storage.worker = .turning ∨ s.storage.worker = .looping then none
    else (s.notifier.step e).map fun notifier => { s with notifier := notifier }

/-- The system after some events. -/
def run (s : System) : List Event → Option System
  | [] => some s
  | e :: es => (s.step e).bind fun s => s.run es

end System

/-! ## The namespace and the cache -/

section Agreement

variable {fits : Text → Bool} {ns metadata : OrderedDict Text Record} {pops : List Text}
  {key : Text}

/-- The namespace equals the cache, but for the keys that are still popped. -/
structure Agrees (fits : Text → Bool) (ns metadata : OrderedDict Text Record)
    (pops : List Text) : Prop where
  get_eq : ∀ key, key ∉ pops → ns.get key = metadata.get key
  get_popped : ∀ key ∈ pops, metadata.get key = none
  storable : ∀ key, (metadata.get key).isSome = true → Storable fits key
  storable_pops : ∀ key ∈ pops, Storable fits key

namespace Agrees

theorem insert (h : Agrees fits ns metadata pops) (hkey : Storable fits key) (hpops : key ∉ pops)
    (val : Record) :
    Agrees fits ((DbOp.insert key val).run fits ns) (metadata.put key val) pops := by
  have hrun : (DbOp.insert key val).run fits ns = ns.put key val := if_pos hkey
  rw [hrun]
  refine ⟨fun x hx => ?_, fun x hx => ?_, fun x hx => ?_, h.storable_pops⟩
  · rw [OrderedDict.get_put, OrderedDict.get_put, h.get_eq x hx]
  · have hne : key ≠ x := fun heq => hpops (heq ▸ hx)
    rw [OrderedDict.get_put, if_neg hne, h.get_popped x hx]
  · rw [OrderedDict.get_put] at hx
    by_cases heq : key = x
    · exact heq ▸ hkey
    · rw [if_neg heq] at hx
      exact h.storable x hx

theorem pop (h : Agrees fits ns metadata pops) (hkey : (metadata.get key).isSome = true) :
    Agrees fits ns (metadata.del key) (pops ++ [key]) := by
  refine ⟨fun x hx => ?_, fun x hx => ?_, fun x hx => ?_, fun x hx => ?_⟩
  · rw [List.mem_append, List.mem_singleton, not_or] at hx
    rw [OrderedDict.get_del, if_neg (Ne.symm hx.2), h.get_eq x hx.1]
  · rw [OrderedDict.get_del]
    rcases List.mem_append.1 hx with hx | hx
    · rw [h.get_popped x hx, ite_self]
    · rw [if_pos (List.mem_singleton.1 hx).symm]
  · rw [OrderedDict.get_del] at hx
    by_cases heq : key = x
    · exact heq ▸ h.storable key hkey
    · rw [if_neg heq] at hx
      exact h.storable x hx
  · rcases List.mem_append.1 hx with hx | hx
    · exact h.storable_pops x hx
    · exact List.mem_singleton.1 hx ▸ h.storable key hkey

theorem delete (h : Agrees fits ns metadata (key :: pops)) :
    Agrees fits ((DbOp.delete key).run fits ns) metadata pops := by
  have hrun : (DbOp.delete key).run fits ns = ns.del key :=
    if_pos (h.storable_pops key List.mem_cons_self)
  rw [hrun]
  refine ⟨fun x hx => ?_, fun x hx => h.get_popped x (List.mem_cons_of_mem _ hx), h.storable,
    fun x hx => h.storable_pops x (List.mem_cons_of_mem _ hx)⟩
  rw [OrderedDict.get_del]
  by_cases heq : key = x
  · rw [if_pos heq, ← heq, h.get_popped key List.mem_cons_self]
  · rw [if_neg heq, h.get_eq x fun hmem => (List.mem_cons.1 hmem).elim (Ne.symm heq) hx]

/-- Records whose keys satisfy `p` are removed from both. -/
theorem remove (h : Agrees fits ns metadata pops) {ns' : OrderedDict Text Record}
    {p : Text → Bool} {keys : List Text}
    (hns : ∀ x, ns'.get x = if x ∈ keys then none else ns.get x)
    (hkeys : ∀ key ∈ keys, p key = true)
    (hall : ∀ key, p key = true → (metadata.get key).isSome = true → key ∈ keys) :
    Agrees fits ns' (metadata.filterKeys fun key => !p key) pops := by
  refine ⟨fun x hx => ?_, fun x hx => ?_, fun x hx => ?_, h.storable_pops⟩
  · rw [hns, OrderedDict.get_filterKeys, h.get_eq x hx]
    by_cases hmem : x ∈ keys
    · simp [hmem, hkeys x hmem]
    · cases hp : p x with
      | false => simp [hmem]
      | true =>
        have hnone : metadata.get x = none := by
          rw [← Option.not_isSome_iff_eq_none]
          exact fun hsome => hmem (hall x hp hsome)
        simp [hnone]
  · rw [OrderedDict.get_filterKeys, h.get_popped x hx, ite_self]
  · rw [OrderedDict.get_filterKeys] at hx
    split_ifs at hx
    · exact h.storable x hx
    · exact absurd hx Bool.false_ne_true

/-- One record is moved in both. -/
theorem move (h : Agrees fits ns metadata pops) {source dest : Text} {md : Record}
    (hsource : metadata.get source = some md) (hdest : Storable fits dest) (hpops : dest ∉ pops) :
    ns.get source = some md ∧
      Agrees fits ((ns.del source).put dest md) ((metadata.del source).put dest md) pops := by
  have hnot : source ∉ pops := fun hmem => by
    rw [h.get_popped source hmem] at hsource
    cases hsource
  refine ⟨(h.get_eq source hnot).trans hsource, fun x hx => ?_, fun x hx => ?_, fun x hx => ?_,
    h.storable_pops⟩
  · rw [OrderedDict.get_put, OrderedDict.get_put, OrderedDict.get_del, OrderedDict.get_del,
      h.get_eq x hx]
  · have hne : dest ≠ x := fun heq => hpops (heq ▸ hx)
    rw [OrderedDict.get_put, if_neg hne, OrderedDict.get_del, h.get_popped x hx, ite_self]
  · rw [OrderedDict.get_put] at hx
    by_cases heq : dest = x
    · exact heq ▸ hdest
    · rw [if_neg heq, OrderedDict.get_del] at hx
      split_ifs at hx
      · exact absurd hx Bool.false_ne_true
      · exact h.storable x hx

theorem moveAll_append (ns : OrderedDict Text Record) (ms ms' : List (Text × Text)) :
    moveAll fits ns (ms ++ ms') = (moveAll fits ns ms).bind fun ns => moveAll fits ns ms' := by
  induction ms generalizing ns with
  | nil => rfl
  | cons m ms ih =>
    obtain ⟨source, dest⟩ := m
    rw [List.cons_append, moveAll, moveAll]
    by_cases hsource : Storable fits source
    · rw [if_pos hsource, if_pos hsource]
      cases hget : ns.get source with
      | none => exact ih ns
      | some md =>
        by_cases hdest : Storable fits dest
        · simp only [if_pos hdest]
          exact ih _
        · simp only [if_neg hdest]
          rfl
    · rw [if_neg hsource, if_neg hsource]
      rfl

/-- The moves that change the cache change the namespace alike. -/
theorem moveBatch {ns₀ : OrderedDict Text Record} {ms moved : List (Text × Text)}
    (hmoved : moveAll fits ns₀ moved = some ns) (h : Agrees fits ns metadata pops)
    (hdest : ∀ m ∈ ms, Storable fits m.2 ∧ m.2 ∉ pops) :
    ∃ ns', moveAll fits ns₀ (ms.foldl Storage.moveOne (metadata, moved)).2 = some ns' ∧
      Agrees fits ns' (ms.foldl Storage.moveOne (metadata, moved)).1 pops := by
  induction ms generalizing ns metadata moved with
  | nil => exact ⟨ns, hmoved, h⟩
  | cons m ms ih =>
    obtain ⟨source, dest⟩ := m
    rw [List.foldl_cons]
    have hlater : ∀ m ∈ ms, Storable fits m.2 ∧ m.2 ∉ pops := fun m hm =>
      hdest m (List.mem_cons_of_mem _ hm)
    cases hget : metadata.get source with
    | none =>
      have hone : Storage.moveOne (metadata, moved) (source, dest) = (metadata, moved) := by
        simp only [Storage.moveOne, hget]
      rw [hone]
      exact ih hmoved h hlater
    | some md =>
      have hone : Storage.moveOne (metadata, moved) (source, dest) =
          ((metadata.del source).put dest md, moved ++ [(source, dest)]) := by
        simp only [Storage.moveOne, hget]
      rw [hone]
      obtain ⟨hstorable, hpops⟩ := hdest (source, dest) List.mem_cons_self
      obtain ⟨hns, hagrees⟩ := h.move hget hstorable hpops
      refine ih ?_ hagrees hlater
      have hsource : Storable fits source := h.storable source (by rw [hget]; rfl)
      rw [moveAll_append, hmoved, Option.bind_some, moveAll, if_pos hsource, hns]
      exact if_pos hstorable

end Agrees

end Agreement

/-! ## The requests and the worker -/

namespace Storage

variable {fits : Text → Bool} {ns : OrderedDict Text Record} {s s' : Storage}

/-- The worker turns to a request whose file has other data, of which no field is missing. -/
def CanTake (s : Storage) : Prop :=
  ∀ x, s.pendingRequests.entries.head? = some x → hasValidData s.metadata x.1 x.2.1 = some false

/-- The worker runs exactly while the storage is busy, and it runs for every request. -/
structure Working (s : Storage) : Prop where
  busy_iff : s.busy = true ↔ s.worker.Runs
  not_failed : s.worker ≠ .failed
  not_looping : s.worker ≠ .looping
  runs : s.pendingRequests.entries ≠ [] → s.worker.Runs
  head : ∀ fname pathInfo mevt retries, s.worker = .extracting fname pathInfo mevt retries →
    s.pendingRequests.entries.head? = some (fname, pathInfo, mevt)

/-- Every request that is pending has an event of its own, which is not set. -/
structure Owing (s : Storage) : Prop where
  lt : ∀ x ∈ s.pendingRequests.entries, x.2.2 < s.events
  not_set : ∀ x ∈ s.pendingRequests.entries, x.2.2 ∉ s.set
  set_lt : ∀ mevt ∈ s.set, mevt < s.events
  nodup : (s.pendingRequests.entries.map (·.2.2)).Nodup

/-- A request that is no longer pending leaves its event set. -/
def Leaves (s s' : Storage) : Prop :=
  ∀ x ∈ s.pendingRequests.entries, x ∉ s'.pendingRequests.entries → x.2.2 ∉ s.set ∧ x.2.2 ∈ s'.set

/-- Requests and worker stay as they are. -/
structure SameWork (s s' : Storage) : Prop where
  pending_eq : s'.pendingRequests = s.pendingRequests
  busy_eq : s'.busy = s.busy
  worker_eq : s'.worker = s.worker
  events_eq : s'.events = s.events
  set_eq : s'.set = s.set

namespace SameWork

theorem working (h : SameWork s s') (hs : s.Working) : s'.Working := by
  obtain ⟨hpending, hbusy, hworker, -, -⟩ := h
  refine ⟨?_, ?_, ?_, ?_, ?_⟩ <;> rw [hworker]
  · exact hbusy ▸ hs.busy_iff
  · exact hs.not_failed
  · exact hs.not_looping
  · exact hpending ▸ hs.runs
  · exact hpending ▸ hs.head

theorem owing (h : SameWork s s') (hs : s.Owing) : s'.Owing := by
  obtain ⟨hpending, -, -, hevents, hset⟩ := h
  refine ⟨?_, ?_, ?_, ?_⟩
  · exact hpending ▸ hevents ▸ hs.lt
  · exact hpending ▸ hset ▸ hs.not_set
  · exact hset ▸ hevents ▸ hs.set_lt
  · exact hpending ▸ hs.nodup

theorem leaves (h : SameWork s s') : s.Leaves s' :=
  fun _ hx hnot => absurd (h.pending_eq ▸ hx) hnot

end SameWork

theorem sameWork_removeDirectory (dirName : Text) :
    SameWork s (s.removeDirectoryMetadata dirName) := by
  unfold removeDirectoryMetadata
  cases slashed dirName with
  | none => exact ⟨rfl, rfl, rfl, rfl, rfl⟩
  | some dir =>
    dsimp only
    split_ifs <;> exact ⟨rfl, rfl, rfl, rfl, rfl⟩

theorem sameWork_moveDirectory (prevDir newDir : Text) :
    SameWork s (s.moveDirectoryMetadata prevDir newDir) := by
  unfold moveDirectoryMetadata
  cases slashed prevDir with
  | none => exact ⟨rfl, rfl, rfl, rfl, rfl⟩
  | some dir =>
    dsimp only
    split_ifs <;> exact ⟨rfl, rfl, rfl, rfl, rfl⟩

theorem sameWork_removeFile (fname : Text) : SameWork s (s.removeFileMetadata fname) := by
  unfold removeFileMetadata
  split_ifs <;> exact ⟨rfl, rfl, rfl, rfl, rfl⟩

theorem sameWork_moveFile (prevFname newFname : Text) :
    SameWork s (s.moveFileMetadata prevFname newFname) := by
  unfold moveFileMetadata
  cases s.metadata.get prevFname with
  | none => exact sameWork_removeFile newFname
  | some md => exact ⟨rfl, rfl, rfl, rfl, rfl⟩

/-- A request is added, for which the worker is started if there is none. -/
theorem parseMetadata_cases {fname : Text} {pathInfo : PathInfo} {mevt : ℕ}
    (h : s.parseMetadata fname pathInfo = some (s', mevt)) :
    (s' = s ∧ ∃ pathInfo', s.pendingRequests.get fname = some (pathInfo', mevt)) ∨
      (mevt = s.events ∧ s' = { s with events := s.events + 1, set := s.events :: s.set }) ∨
      (mevt = s.events ∧ s.pendingRequests.get fname = none ∧ s' = { s with
        events := s.events + 1
        pendingRequests := s.pendingRequests.put fname (pathInfo, s.events)
        busy := true
        worker := if s.busy then s.worker else .scheduled }) := by
  unfold parseMetadata at h
  cases hget : s.pendingRequests.get fname with
  | some request =>
    simp only [hget, Option.some.injEq, Prod.mk.injEq] at h
    obtain ⟨rfl, rfl⟩ := h
    exact .inl ⟨rfl, request.1, rfl⟩
  | none =>
    simp only [hget] at h
    refine .inr ?_
    by_cases hext : (PosixPath.splitext fname).2 ∉ validGcodeExts
    · simp only [if_pos hext, Option.some.injEq, Prod.mk.injEq] at h
      exact .inl ⟨h.2.symm, h.1.symm⟩
    · simp only [if_neg hext] at h
      cases hvalid : hasValidData s.metadata fname pathInfo with
      | none => simp only [hvalid, reduceCtorEq] at h
      | some valid =>
        cases valid with
        | true =>
          simp only [hvalid, Option.some.injEq, Prod.mk.injEq] at h
          exact .inl ⟨h.2.symm, h.1.symm⟩
        | false =>
          simp only [hvalid, Option.some.injEq, Prod.mk.injEq] at h
          obtain ⟨rfl, rfl⟩ := h
          refine .inr ⟨rfl, rfl, ?_⟩
          cases hbusy : s.busy with
          | true => simp only [if_true]
          | false => simp only [Bool.false_eq_true, if_false]

theorem working_parseMetadata {fname : Text} {pathInfo : PathInfo} {mevt : ℕ} (hs : s.Working)
    (h : s.parseMetadata fname pathInfo = some (s', mevt)) : s'.Working := by
  rcases parseMetadata_cases h with ⟨rfl, -⟩ | ⟨-, rfl⟩ | ⟨-, hget, rfl⟩
  · exact hs
  · exact ⟨hs.busy_iff, hs.not_failed, hs.not_looping, hs.runs, hs.head⟩
  have hentries := OrderedDict.entries_put_of_get_eq_none hget (pathInfo, s.events)
  by_cases hbusy : s.busy = true
  · simp only [if_pos hbusy]
    have hruns := hs.busy_iff.1 hbusy
    refine ⟨iff_of_true rfl hruns, hs.not_failed, hs.not_looping, fun _ => hruns, ?_⟩
    intro fname' pathInfo' mevt' retries hworker
    have hhead := hs.head fname' pathInfo' mevt' retries hworker
    change (s.pendingRequests.put fname (pathInfo, s.events)).entries.head? = _
    rw [hentries, List.head?_append, hhead, Option.some_or]
  · simp only [if_neg hbusy]
    exact ⟨iff_of_true rfl trivial, Worker.noConfusion, Worker.noConfusion, fun _ => trivial,
      fun _ _ _ _ hworker => Worker.noConfusion hworker⟩

theorem owing_parseMetadata {fname : Text} {pathInfo : PathInfo} {mevt : ℕ} (hs : s.Owing)
    (h : s.parseMetadata fname pathInfo = some (s', mevt)) : s'.Owing := by
  have hfresh : s.events ∉ s.set := fun hmem => absurd (hs.set_lt _ hmem) (lt_irrefl _)
  rcases parseMetadata_cases h with ⟨rfl, -⟩ | ⟨-, rfl⟩ | ⟨-, hget, rfl⟩
  · exact hs
  · refine ⟨fun x hx => (hs.lt x hx).trans (Nat.lt_succ_self _), fun x hx hmem => ?_,
      fun e he => ?_, hs.nodup⟩
    · rcases List.mem_cons.1 hmem with heq | hmem
      · exact absurd (hs.lt x hx) (not_lt.2 heq.ge)
      · exact hs.not_set x hx hmem
    · rcases List.mem_cons.1 he with rfl | he
      · exact Nat.lt_succ_self _
      · exact (hs.set_lt e he).trans (Nat.lt_succ_self _)
  have hentries := OrderedDict.entries_put_of_get_eq_none hget (pathInfo, s.events)
  refine ⟨fun x hx => ?_, fun x hx => ?_, fun e he => (hs.set_lt e he).trans (Nat.lt_succ_self _),
    ?_⟩
  · rw [hentries, List.mem_append, List.mem_singleton] at hx
    rcases hx with hx | rfl
    · exact (hs.lt x hx).trans (Nat.lt_succ_self _)
    · exact Nat.lt_succ_self _
  · rw [hentries, List.mem_append, List.mem_singleton] at hx
    rcases hx with hx | rfl
    · exact hs.not_set x hx
    · exact hfresh
  · change ((s.pendingRequests.put fname (pathInfo, s.events)).entries.map (·.2.2)).Nodup
    rw [hentries, List.map_append, List.map_singleton]
    refine hs.nodup.append (List.nodup_singleton _) (List.disjoint_singleton.2 fun hmem => ?_)
    obtain ⟨x, hx, heq⟩ := List.mem_map.1 hmem
    exact absurd (hs.lt x hx) (not_lt.2 heq.ge)

theorem leaves_parseMetadata {fname : Text} {pathInfo : PathInfo} {mevt : ℕ}
    (h : s.parseMetadata fname pathInfo = some (s', mevt)) : s.Leaves s' := by
  intro x hx hnot
  rcases parseMetadata_cases h with ⟨rfl, -⟩ | ⟨-, rfl⟩ | ⟨-, hget, rfl⟩
  · exact absurd hx hnot
  · exact absurd hx hnot
  · rw [OrderedDict.entries_put_of_get_eq_none hget] at hnot
    exact absurd (List.mem_append_left _ hx) hnot

/-- The event that is returned belongs to the request that is pending, or it is set. -/
theorem event_parseMetadata {fname : Text} {pathInfo : PathInfo} {mevt : ℕ}
    (h : s.parseMetadata fname pathInfo = some (s', mevt)) :
    (∃ pathInfo', s'.pendingRequests.get fname = some (pathInfo', mevt)) ∨ mevt ∈ s'.set := by
  rcases parseMetadata_cases h with ⟨rfl, hpending⟩ | ⟨rfl, rfl⟩ | ⟨rfl, -, rfl⟩
  · exact .inl hpending
  · exact .inr List.mem_cons_self
  · exact .inl ⟨pathInfo, by rw [OrderedDict.get_put, if_pos rfl]⟩

/-! ### The worker -/

theorem working_take (hs : s.Working) (hturning : s.worker = .turning) (htake : s.CanTake) :
    s.take.Working := by
  unfold take
  cases hentries : s.pendingRequests.entries with
  | nil =>
    exact ⟨iff_of_false Bool.false_ne_true id, Worker.noConfusion, Worker.noConfusion,
      fun hne => absurd hentries hne, fun _ _ _ _ hworker => Worker.noConfusion hworker⟩
  | cons x rest =>
    obtain ⟨fname, pathInfo, mevt⟩ := x
    have hvalid := htake (fname, pathInfo, mevt) (by rw [hentries]; rfl)
    simp only [hvalid]
    have hbusy : s.busy = true := hs.busy_iff.2 (hturning ▸ trivial)
    refine ⟨iff_of_true hbusy trivial, Worker.noConfusion, Worker.noConfusion, fun _ => trivial,
      fun _ _ _ _ hworker => ?_⟩
    injection hworker with hfname hinfo hmevt
    subst hfname hinfo hmevt
    exact congrArg List.head? hentries

theorem sameRequests_take (htake : s.CanTake) :
    s.take.pendingRequests = s.pendingRequests ∧ s.take.events = s.events ∧ s.take.set = s.set := by
  unfold take
  cases hentries : s.pendingRequests.entries with
  | nil => exact ⟨rfl, rfl, rfl⟩
  | cons x rest =>
    have hvalid := htake x (by rw [hentries]; rfl)
    simp only [hvalid]
    exact ⟨trivial, trivial, trivial⟩

theorem pending_take : s.take.pendingRequests = s.pendingRequests := by
  unfold take
  split
  · rfl
  · split <;> rfl

section Finish

variable {fname : Text} {pathInfo : PathInfo} {mevt : ℕ}

theorem working_finish (hbusy : s.busy = true) : (s.finish fname mevt).Working :=
  ⟨iff_of_true hbusy trivial, Worker.noConfusion, Worker.noConfusion, fun _ => trivial,
    fun _ _ _ _ hworker => Worker.noConfusion hworker⟩

theorem mem_finish {x : Text × PathInfo × ℕ} :
    x ∈ (s.finish fname mevt).pendingRequests.entries ↔
      x ∈ s.pendingRequests.entries ∧ x.1 ≠ fname := by
  change x ∈ s.pendingRequests.entries.filter _ ↔ _
  rw [List.mem_filter, decide_eq_true_iff]

/-- Only the request of the worker has its event. -/
theorem eq_head {x : Text × PathInfo × ℕ} (hs : s.Owing)
    (hhead : s.pendingRequests.entries.head? = some (fname, pathInfo, mevt))
    (hx : x ∈ s.pendingRequests.entries) : x.1 = fname ↔ x.2.2 = mevt := by
  have hmem : (fname, pathInfo, mevt) ∈ s.pendingRequests.entries := List.mem_of_mem_head? hhead
  constructor
  · intro heq
    have := List.inj_on_of_nodup_map s.pendingRequests.nodup hx hmem heq
    rw [this]
  · intro heq
    have := List.inj_on_of_nodup_map hs.nodup hx hmem heq
    rw [this]

theorem owing_finish (hs : s.Owing)
    (hhead : s.pendingRequests.entries.head? = some (fname, pathInfo, mevt)) :
    (s.finish fname mevt).Owing := by
  refine ⟨fun x hx => hs.lt x (mem_finish.1 hx).1, fun x hx hmem => ?_, fun e he => ?_, ?_⟩
  · obtain ⟨hx, hne⟩ := mem_finish.1 hx
    rcases List.mem_cons.1 hmem with heq | hmem
    · exact hne ((eq_head hs hhead hx).2 heq)
    · exact hs.not_set x hx hmem
  · rcases List.mem_cons.1 he with rfl | he
    · exact hs.lt _ (List.mem_of_mem_head? hhead)
    · exact hs.set_lt e he
  · exact List.Nodup.sublist (List.filter_sublist.map _) hs.nodup

theorem leaves_finish (hs : s.Owing)
    (hhead : s.pendingRequests.entries.head? = some (fname, pathInfo, mevt)) :
    s.Leaves (s.finish fname mevt) := by
  intro x hx hnot
  have hfname : x.1 = fname := by
    by_contra hne
    exact hnot (mem_finish.2 ⟨hx, hne⟩)
  refine ⟨hs.not_set x hx, ?_⟩
  rw [(eq_head hs hhead hx).1 hfname]
  exact List.mem_cons_self

end Finish

/-- After its await the worker tries again, or its request is done. -/
theorem extracted_cases (fname : Text) (pathInfo : PathInfo) (mevt retries : ℕ) (o : Outcome) :
    s.extracted fname pathInfo mevt retries o =
        { s with worker := .extracting fname pathInfo mevt (retries - 1) } ∨
      ∃ s', SameWork s s' ∧
        s.extracted fname pathInfo mevt retries o = s'.finish fname mevt := by
  unfold extracted
  cases o.record with
  | some result => exact .inr ⟨s.insert result.1 result.2, ⟨rfl, rfl, rfl, rfl, rfl⟩, rfl⟩
  | none =>
    dsimp only
    split_ifs
    · exact .inl rfl
    · exact .inr ⟨s.insert fname (plain pathInfo), ⟨rfl, rfl, rfl, rfl, rfl⟩, rfl⟩
    · exact .inr ⟨s, ⟨rfl, rfl, rfl, rfl, rfl⟩, rfl⟩

/-! ### What an event does -/

/-- What an event does that can happen. -/
def Effect (s s' : Storage) : Event → Prop
  | .parseMetadata fname pathInfo =>
    (s.parseMetadata fname pathInfo = none ∧ s' = s) ∨
      ∃ mevt, s.parseMetadata fname pathInfo = some (s', mevt)
  | .insert key val => s' = s.insert key val
  | .removeFileMetadata fname => s' = s.removeFileMetadata fname
  | .removeDirectoryMetadata dirName => s' = s.removeDirectoryMetadata dirName
  | .moveFileMetadata prevFname newFname => s' = s.moveFileMetadata prevFname newFname
  | .moveDirectoryMetadata prevDir newDir => s' = s.moveDirectoryMetadata prevDir newDir
  | .start => s.worker = .scheduled ∧ s' = { s with worker := .turning }
  | .look => s.worker = .turning ∧ s' = s.take
  | .extracted o => ∃ fname pathInfo mevt retries,
      s.worker = .extracting fname pathInfo mevt retries ∧
        s' = s.extracted fname pathInfo mevt retries o
  | .popTask => ∃ key pops, s.pops = key :: pops ∧
      s' = { s with ops := s.ops ++ [.delete key], pops := pops }

theorem effect_of_step {e : Event} (h : s.step e = some s') : s.Effect s' e := by
  unfold step at h
  split_ifs at h with hturning hlook
  · cases e with
    | look => exact ⟨hturning, (Option.some.inj h).symm⟩
    | _ => exact absurd hlook Bool.false_ne_true
  cases e with
  | look => cases h
  | parseMetadata fname pathInfo =>
    have hs := Option.some.inj h
    cases hparse : s.parseMetadata fname pathInfo with
    | none => exact .inl ⟨hparse, by rw [← hs, hparse]; rfl⟩
    | some result => exact .inr ⟨result.2, by rw [hparse, ← hs, hparse]; rfl⟩
  | insert key val => exact (Option.some.inj h).symm
  | removeFileMetadata fname => exact (Option.some.inj h).symm
  | removeDirectoryMetadata dirName => exact (Option.some.inj h).symm
  | moveFileMetadata prevFname newFname => exact (Option.some.inj h).symm
  | moveDirectoryMetadata prevDir newDir => exact (Option.some.inj h).symm
  | start =>
    simp only [awaiting] at h
    split_ifs at h with hscheduled
    exact ⟨hscheduled, (Option.some.inj h).symm⟩
  | extracted o =>
    simp only [awaiting] at h
    cases hworker : s.worker with
    | extracting fname pathInfo mevt retries =>
      rw [hworker] at h
      exact ⟨fname, pathInfo, mevt, retries, hworker, (Option.some.inj h).symm⟩
    | _ => simp only [hworker, reduceCtorEq] at h
  | popTask =>
    simp only [awaiting] at h
    cases hpops : s.pops with
    | nil => simp only [hpops, reduceCtorEq] at h
    | cons key pops =>
      rw [hpops] at h
      exact ⟨key, pops, hpops, (Option.some.inj h).symm⟩

/-- A request leaves only when its event is set. -/
theorem leaves_step {e : Event} (hworking : s.Working) (howing : s.Owing)
    (h : s.step e = some s') : s.Leaves s' := by
  have heffect := effect_of_step h
  have hstay : ∀ {s' : Storage}, s'.pendingRequests = s.pendingRequests → s.Leaves s' :=
    fun heq _ hx hnot => absurd (heq ▸ hx) hnot
  cases e with
  | parseMetadata fname pathInfo =>
    rcases heffect with ⟨-, rfl⟩ | ⟨mevt, hparse⟩
    · exact hstay rfl
    · exact leaves_parseMetadata hparse
  | insert key val => exact heffect ▸ hstay rfl
  | removeFileMetadata fname => exact heffect ▸ (sameWork_removeFile fname).leaves
  | removeDirectoryMetadata dirName => exact heffect ▸ (sameWork_removeDirectory dirName).leaves
  | moveFileMetadata prevFname newFname =>
    exact heffect ▸ (sameWork_moveFile prevFname newFname).leaves
  | moveDirectoryMetadata prevDir newDir =>
    exact heffect ▸ (sameWork_moveDirectory prevDir newDir).leaves
  | start =>
    obtain ⟨-, rfl⟩ := heffect
    exact hstay rfl
  | look =>
    obtain ⟨-, rfl⟩ := heffect
    exact hstay pending_take
  | extracted o =>
    obtain ⟨fname, pathInfo, mevt, retries, hworker, rfl⟩ := heffect
    have hhead := hworking.head fname pathInfo mevt retries hworker
    rcases extracted_cases (s := s) fname pathInfo mevt retries o with heq | ⟨t, hsame, heq⟩
    · exact heq ▸ hstay rfl
    · rw [heq]
      intro x hx hnot
      have hleaves := leaves_finish (hsame.owing howing) (hsame.pending_eq ▸ hhead) x
        (hsame.pending_eq ▸ hx) hnot
      exact ⟨hsame.set_eq ▸ hleaves.1, hleaves.2⟩
  | popTask =>
    obtain ⟨key, pops, -, rfl⟩ := heffect
    exact hstay rfl

/-! ### Events that keep the storage sound -/

variable (fits) in
/-- A key that the database stores and that is not popped any more. -/
def Writable (s : Storage) (key : Text) : Prop :=
  Storable fits key ∧ key ∉ s.pops

/-- The key that is written after the await of the worker. -/
def written (fname : Text) (pathInfo : PathInfo) (retries : ℕ) (o : Outcome) : Option Text :=
  match o.record with
  | some (path, _) => some path
  | none => if 1 < retries then none else if pathInfo.ufpPath.isNone then some fname else none

variable (fits) in
/-- The keys that are written can be written, no record under a directory that is removed is empty,
and the worker turns to a request that is not done. -/
def Fine (s : Storage) : Event → Prop
  | .insert key _ => s.Writable fits key
  | .removeDirectoryMetadata dirName => ∀ dir, slashed dirName = some dir →
      ∀ fname md, s.metadata.get fname = some md → dir.isPrefixOf fname = true → md.entries ≠ []
  | .moveFileMetadata prevFname newFname =>
    (s.metadata.get prevFname).isSome = true → s.Writable fits newFname
  | .moveDirectoryMetadata prevDir newDir => ∀ dir, slashed prevDir = some dir →
      ∀ move ∈ s.moves dir newDir, s.Writable fits move.2
  | .look => s.CanTake
  | .extracted o => ∀ fname pathInfo mevt retries,
      s.worker = .extracting fname pathInfo mevt retries →
        ∀ key, written fname pathInfo retries o = some key → s.Writable fits key
  | _ => True

theorem work_step {e : Event} (hworking : s.Working) (howing : s.Owing) (hfine : s.Fine fits e)
    (h : s.step e = some s') : s'.Working ∧ s'.Owing := by
  have heffect := effect_of_step h
  have hsame : ∀ {s' : Storage}, SameWork s s' → s'.Working ∧ s'.Owing :=
    fun hs => ⟨hs.working hworking, hs.owing howing⟩
  cases e with
  | parseMetadata fname pathInfo =>
    rcases heffect with ⟨-, rfl⟩ | ⟨mevt, hparse⟩
    · exact ⟨hworking, howing⟩
    · exact ⟨working_parseMetadata hworking hparse, owing_parseMetadata howing hparse⟩
  | insert key val => exact heffect ▸ hsame ⟨rfl, rfl, rfl, rfl, rfl⟩
  | removeFileMetadata fname => exact heffect ▸ hsame (sameWork_removeFile fname)
  | removeDirectoryMetadata dirName => exact heffect ▸ hsame (sameWork_removeDirectory dirName)
  | moveFileMetadata prevFname newFname =>
    exact heffect ▸ hsame (sameWork_moveFile prevFname newFname)
  | moveDirectoryMetadata prevDir newDir =>
    exact heffect ▸ hsame (sameWork_moveDirectory prevDir newDir)
  | start =>
    obtain ⟨hscheduled, rfl⟩ := heffect
    have hbusy : s.busy = true := hworking.busy_iff.2 (hscheduled ▸ trivial)
    exact ⟨⟨iff_of_true hbusy trivial, Worker.noConfusion, Worker.noConfusion, fun _ => trivial,
      fun _ _ _ _ hworker => Worker.noConfusion hworker⟩,
      ⟨howing.lt, howing.not_set, howing.set_lt, howing.nodup⟩⟩
  | look =>
    obtain ⟨hturning, rfl⟩ := heffect
    obtain ⟨hpending, hevents, hset⟩ := sameRequests_take hfine
    refine ⟨working_take hworking hturning hfine, ?_, ?_, ?_, ?_⟩
    · exact hpending ▸ hevents ▸ howing.lt
    · exact hpending ▸ hset ▸ howing.not_set
    · exact hset ▸ hevents ▸ howing.set_lt
    · exact hpending ▸ howing.nodup
  | extracted o =>
    obtain ⟨fname, pathInfo, mevt, retries, hworker, rfl⟩ := heffect
    have hhead := hworking.head fname pathInfo mevt retries hworker
    have hbusy : s.busy = true := hworking.busy_iff.2 (hworker ▸ trivial)
    rcases extracted_cases (s := s) fname pathInfo mevt retries o with heq | ⟨t, hsame', heq⟩
    · rw [heq]
      refine ⟨⟨iff_of_true hbusy trivial, Worker.noConfusion, Worker.noConfusion, fun _ => trivial,
        fun _ _ _ _ hagain => ?_⟩, ⟨howing.lt, howing.not_set, howing.set_lt, howing.nodup⟩⟩
      injection hagain with hfname hinfo hmevt
      subst hfname hinfo hmevt
      exact hhead
    · rw [heq]
      exact ⟨working_finish (hsame'.busy_eq.trans hbusy),
        owing_finish (hsame'.owing howing) (hsame'.pending_eq ▸ hhead)⟩
  | popTask =>
    obtain ⟨key, pops, -, rfl⟩ := heffect
    exact hsame ⟨rfl, rfl, rfl, rfl, rfl⟩

end Storage

/-! ## The namespace follows the cache -/

namespace Storage

variable {fits : Text → Bool} {ns : OrderedDict Text Record} {s s' : Storage}

variable (fits ns) in
/-- The namespace after the operations equals the cache, but for the keys that are still popped. -/
def Follows (s : Storage) : Prop :=
  Agrees fits (s.namespaceFrom fits ns) s.metadata s.pops

theorem foldl_run_concat (ops : List DbOp) (op : DbOp) :
    (ops ++ [op]).foldl (DbOp.run fits) ns = op.run fits (ops.foldl (DbOp.run fits) ns) := by
  rw [List.foldl_append, List.foldl_cons, List.foldl_nil]

theorem follows_insert {key : Text} (h : s.Follows fits ns) (hkey : s.Writable fits key)
    (val : Record) : (s.insert key val).Follows fits ns := by
  unfold Follows namespaceFrom insert
  rw [foldl_run_concat]
  exact Agrees.insert h hkey.1 hkey.2 val

theorem follows_removeFile (h : s.Follows fits ns) (fname : Text) :
    (s.removeFileMetadata fname).Follows fits ns := by
  unfold removeFileMetadata
  split_ifs with hsome
  · exact Agrees.pop h hsome
  · exact h

theorem follows_removeDirectory (h : s.Follows fits ns) {dirName : Text}
    (hfine : ∀ dir, slashed dirName = some dir → ∀ fname md,
      s.metadata.get fname = some md → dir.isPrefixOf fname = true → md.entries ≠ []) :
    (s.removeDirectoryMetadata dirName).Follows fits ns := by
  unfold removeDirectoryMetadata
  cases hslashed : slashed dirName with
  | none => exact h
  | some dir =>
    have hkeys : ∀ keys : List Text, keys = s.metadata.keys.filter (fun fname =>
        dir.isPrefixOf fname && (s.metadata.get fname).any fun md => !md.entries.isEmpty) →
        (∀ key ∈ keys, dir.isPrefixOf key = true ∧ (s.metadata.get key).isSome = true) ∧
        ∀ key, dir.isPrefixOf key = true → (s.metadata.get key).isSome = true → key ∈ keys := by
      rintro keys rfl
      refine ⟨fun key hkey => ?_, fun key hunder hsome => ?_⟩
      · obtain ⟨hmem, hkey⟩ := List.mem_filter.1 hkey
        exact ⟨(Bool.and_eq_true_iff.1 hkey).1, (s.metadata.get_isSome_iff key).2 hmem⟩
      · obtain ⟨md, hmd⟩ := Option.isSome_iff_exists.1 hsome
        refine List.mem_filter.2 ⟨(s.metadata.get_isSome_iff key).1 hsome, ?_⟩
        have hne := hfine dir hslashed key md hmd hunder
        rw [hunder, hmd, Bool.true_and, Option.any_some, Bool.not_eq_true',
          List.isEmpty_eq_false_iff]
        exact hne
    dsimp only
    generalize s.metadata.keys.filter (fun fname =>
      dir.isPrefixOf fname && (s.metadata.get fname).any fun md => !md.entries.isEmpty) = keys
      at hkeys ⊢
    obtain ⟨hmem, hall⟩ := hkeys keys rfl
    split_ifs with hempty
    · rw [List.isEmpty_iff] at hempty
      subst hempty
      exact Agrees.remove h (fun x => (if_neg List.not_mem_nil).symm)
        (fun key hkey => (hmem key hkey).1) hall
    · unfold Follows namespaceFrom
      rw [foldl_run_concat]
      refine Agrees.remove h (fun x => ?_) (fun key hkey => (hmem key hkey).1) hall
      have hstorable : ∀ key ∈ keys, Storable fits key := fun key hkey =>
        Agrees.storable h key (hmem key hkey).2
      rw [DbOp.run, if_pos hstorable, OrderedDict.get_filterKeys]
      by_cases hx : x ∈ keys <;> simp [hx, namespaceFrom]

theorem follows_moveDirectory (h : s.Follows fits ns) {prevDir newDir : Text}
    (hfine : ∀ dir, slashed prevDir = some dir →
      ∀ move ∈ s.moves dir newDir, s.Writable fits move.2) :
    (s.moveDirectoryMetadata prevDir newDir).Follows fits ns := by
  unfold moveDirectoryMetadata
  cases hslashed : slashed prevDir with
  | none => exact h
  | some dir =>
    have hnone : moveAll fits (s.namespaceFrom fits ns) [] = some (s.namespaceFrom fits ns) := rfl
    obtain ⟨ns', hmoves, hagrees⟩ := Agrees.moveBatch hnone h (hfine dir hslashed)
    dsimp only
    split_ifs with hempty
    · rw [List.isEmpty_iff] at hempty
      rw [hempty, moveAll, Option.some.injEq] at hmoves
      subst hmoves
      exact hagrees
    · unfold Follows namespaceFrom
      rw [foldl_run_concat, DbOp.run]
      unfold namespaceFrom at hmoves
      rw [hmoves]
      exact hagrees

theorem follows_moveFile (h : s.Follows fits ns) {prevFname newFname : Text}
    (hfine : (s.metadata.get prevFname).isSome = true → s.Writable fits newFname) :
    (s.moveFileMetadata prevFname newFname).Follows fits ns := by
  unfold moveFileMetadata
  cases hget : s.metadata.get prevFname with
  | none => exact follows_removeFile h newFname
  | some md =>
    have hwritable := hfine (hget ▸ rfl)
    obtain ⟨hns, hagrees⟩ := Agrees.move h hget hwritable.1 hwritable.2
    have hsource : Storable fits prevFname := Agrees.storable h prevFname (hget ▸ rfl)
    unfold Follows namespaceFrom
    unfold namespaceFrom at hagrees hns
    rw [foldl_run_concat, DbOp.run, moveAll, if_pos hsource, hns]
    simp only [if_pos hwritable.1, moveAll, Option.getD_some]
    exact hagrees

theorem follows_parseMetadata {fname : Text} {pathInfo : PathInfo} {mevt : ℕ}
    (h : s.Follows fits ns) (hparse : s.parseMetadata fname pathInfo = some (s', mevt)) :
    s'.Follows fits ns := by
  rcases parseMetadata_cases hparse with ⟨rfl, -⟩ | ⟨-, rfl⟩ | ⟨-, -, rfl⟩ <;> exact h

theorem follows_take (h : s.Follows fits ns) : s.take.Follows fits ns := by
  unfold take
  split
  · exact h
  · split <;> exact h

theorem follows_extracted (h : s.Follows fits ns) {fname : Text} {pathInfo : PathInfo}
    {mevt retries : ℕ} {o : Outcome}
    (hfine : ∀ key, written fname pathInfo retries o = some key → s.Writable fits key) :
    (s.extracted fname pathInfo mevt retries o).Follows fits ns := by
  unfold written at hfine
  unfold extracted
  cases hrecord : o.record with
  | some result =>
    rw [hrecord] at hfine
    exact follows_insert h (hfine result.1 rfl) result.2
  | none =>
    rw [hrecord] at hfine
    dsimp only at hfine ⊢
    split_ifs at hfine ⊢
    · exact h
    · exact follows_insert h (hfine fname rfl) (plain pathInfo)
    · exact h

theorem follows_step {e : Event} (h : s.Follows fits ns) (hfine : s.Fine fits e)
    (hstep : s.step e = some s') : s'.Follows fits ns := by
  have heffect := effect_of_step hstep
  cases e with
  | parseMetadata fname pathInfo =>
    rcases heffect with ⟨-, rfl⟩ | ⟨mevt, hparse⟩
    · exact h
    · exact follows_parseMetadata h hparse
  | insert key val => exact heffect ▸ follows_insert h hfine val
  | removeFileMetadata fname => exact heffect ▸ follows_removeFile h fname
  | removeDirectoryMetadata dirName => exact heffect ▸ follows_removeDirectory h hfine
  | moveFileMetadata prevFname newFname => exact heffect ▸ follows_moveFile h hfine
  | moveDirectoryMetadata prevDir newDir => exact heffect ▸ follows_moveDirectory h hfine
  | start =>
    obtain ⟨-, rfl⟩ := heffect
    exact h
  | look =>
    obtain ⟨-, rfl⟩ := heffect
    exact follows_take h
  | extracted o =>
    obtain ⟨fname, pathInfo, mevt, retries, hworker, rfl⟩ := heffect
    exact follows_extracted h (hfine fname pathInfo mevt retries hworker)
  | popTask =>
    obtain ⟨key, pops, hpops, rfl⟩ := heffect
    unfold Follows at h ⊢
    rw [hpops] at h
    unfold namespaceFrom
    rw [foldl_run_concat]
    exact Agrees.delete h

end Storage

/-! ## The task of the notifications -/

namespace Notifier

variable {n n' : Notifier}

/-- The task lives while coroutines are pending. -/
structure Serves (n : Notifier) : Prop where
  not_failed : n.gcNotifyTask ≠ .failed
  live : n.pendingCoroutines ≠ [] → n.gcNotifyTask.Live

/-- The coroutine that is awaited does not raise. -/
def Fine : Event → Prop
  | .done raises => raises = false
  | _ => True

theorem serves_process : n.processGcodeNotifications.Serves := by
  unfold processGcodeNotifications
  cases hpending : n.pendingCoroutines with
  | nil => exact ⟨NotifyTask.noConfusion, fun hne => absurd rfl hne⟩
  | cons coro rest => exact ⟨NotifyTask.noConfusion, fun _ => trivial⟩

theorem serves_step {e : Event} (h : n.Serves) (hfine : Fine e) (hstep : n.step e = some n') :
    n'.Serves := by
  cases e with
  | queue coro =>
    obtain rfl := Option.some.inj hstep
    simp only [queueGcodeNotification]
    split_ifs with hnone
    · exact ⟨NotifyTask.noConfusion, fun _ => trivial⟩
    · refine ⟨h.not_failed, fun _ => ?_⟩
      cases htask : n.gcNotifyTask with
      | none => exact absurd htask hnone
      | failed => exact absurd htask h.not_failed
      | created => trivial
      | awaiting coro => trivial
  | start =>
    simp only [step] at hstep
    split_ifs at hstep
    exact Option.some.inj hstep ▸ serves_process
  | done raises =>
    obtain rfl : raises = false := hfine
    simp only [step] at hstep
    split at hstep
    · rw [if_neg Bool.false_ne_true] at hstep
      exact Option.some.inj hstep ▸ serves_process
    · cases hstep

end Notifier

/-! ## Every run -/

namespace System

variable {fits : Text → Bool} {ns : OrderedDict Text Record} {s s' : System}

variable (fits ns) in
/-- What holds after every event of a run. -/
structure Sound (s : System) : Prop where
  working : s.storage.Working
  owing : s.storage.Owing
  follows : s.storage.Follows fits ns
  serves : s.notifier.Serves

variable (fits) in
/-- No event of those that get a worker stuck or lose a record. -/
def Fine (s : System) : Event → Prop
  | .storage e => s.storage.Fine fits e
  | .notify e => Notifier.Fine e

variable (fits) in
/-- All events of a run are fine where they happen. -/
def FineRun (s : System) : List Event → Prop
  | [] => True
  | e :: es => s.Fine fits e ∧ ∀ s', s.step e = some s' → s'.FineRun es

theorem sound_init (hns : ∀ key, (ns.get key).isSome = true → Storable fits key) :
    (init ns).Sound fits ns := by
  have hnone : ∀ {α : Type} {p : α → Prop}, ∀ x ∈ ([] : List α), p x :=
    fun x hx => absurd hx List.not_mem_nil
  refine ⟨⟨iff_of_false Bool.false_ne_true id, Worker.noConfusion, Worker.noConfusion,
    fun hne => absurd rfl hne, fun _ _ _ _ hworker => Worker.noConfusion hworker⟩,
    ⟨hnone, hnone, hnone, List.nodup_nil⟩, ⟨fun _ _ => rfl, hnone, hns, hnone⟩,
    ⟨NotifyTask.noConfusion, fun hne => absurd rfl hne⟩⟩

theorem sound_step {e : Event} (h : s.Sound fits ns) (hfine : s.Fine fits e)
    (hstep : s.step e = some s') : s'.Sound fits ns := by
  cases e with
  | storage e =>
    obtain ⟨storage, hstorage, rfl⟩ := Option.map_eq_some_iff.1 hstep
    obtain ⟨hworking, howing⟩ := Storage.work_step h.working h.owing hfine hstorage
    exact ⟨hworking, howing, Storage.follows_step h.follows hfine hstorage, h.serves⟩
  | notify e =>
    simp only [step] at hstep
    split_ifs at hstep
    obtain ⟨notifier, hnotifier, rfl⟩ := Option.map_eq_some_iff.1 hstep
    exact ⟨h.working, h.owing, h.follows, Notifier.serves_step h.serves hfine hnotifier⟩

theorem sound_run {es : List Event} (h : s.Sound fits ns) (hfine : s.FineRun fits es)
    (hrun : s.run es = some s') : s'.Sound fits ns := by
  induction es generalizing s with
  | nil => exact Option.some.inj hrun ▸ h
  | cons e es ih =>
    obtain ⟨t, hstep, hrun⟩ := Option.bind_eq_some_iff.1 hrun
    exact ih (sound_step h hfine.1 hstep) (hfine.2 t hstep) hrun

variable (fits ns) in
/-- The workers are not stuck, and the namespace can equal the cache. -/
structure Healthy (s : System) : Prop where
  not_looping : s.storage.worker ≠ .looping
  busy_iff : s.storage.busy = true ↔ s.storage.worker.Runs
  runs : s.storage.pendingRequests.entries ≠ [] → s.storage.worker.Runs
  get_eq : s.storage.pops = [] → ∀ key,
    (s.storage.namespaceFrom fits ns).get key = s.storage.metadata.get key
  live : s.notifier.pendingCoroutines ≠ [] → s.notifier.gcNotifyTask.Live

theorem Sound.healthy (h : s.Sound fits ns) : s.Healthy fits ns where
  not_looping := h.working.not_looping
  busy_iff := h.working.busy_iff
  runs := h.working.runs
  get_eq hpops key := h.follows.get_eq key (hpops ▸ List.not_mem_nil)
  live := h.serves.live

theorem leaves_step {e : Event} (h : s.Sound fits ns) (hstep : s.step e = some s') :
    s.storage.Leaves s'.storage := by
  cases e with
  | storage e =>
    obtain ⟨storage, hstorage, rfl⟩ := Option.map_eq_some_iff.1 hstep
    exact Storage.leaves_step h.working h.owing hstorage
  | notify e =>
    simp only [step] at hstep
    split_ifs at hstep
    obtain ⟨notifier, -, rfl⟩ := Option.map_eq_some_iff.1 hstep
    exact fun x hx hnot => absurd hx hnot

/-- In a run whose events are fine the workers are never stuck, the namespace follows the cache, and
a request leaves only when the event is set that was returned for it. -/
theorem workers_not_stuck (fits : Text → Bool) (ns : OrderedDict Text Record)
    (hns : ∀ key, (ns.get key).isSome = true → Storable fits key) (es : List Event) (s : System)
    (hfine : (init ns).FineRun fits es) (hrun : (init ns).run es = some s) :
    s.Healthy fits ns ∧
      (∀ e s', s.step e = some s' → s.storage.Leaves s'.storage) ∧
      ∀ fname pathInfo storage mevt,
        s.storage.parseMetadata fname pathInfo = some (storage, mevt) →
        (∃ pathInfo', storage.pendingRequests.get fname = some (pathInfo', mevt)) ∨
          mevt ∈ storage.set := by
  have hsound := sound_run (sound_init hns) hfine hrun
  exact ⟨hsound.healthy, fun e s' hstep => leaves_step hsound hstep,
    fun fname pathInfo storage mevt hparse => Storage.event_parseMetadata hparse⟩

theorem FineRun.cons {fits : Text → Bool} {s t : System} {e : Event} {es : List Event}
    (hstep : s.step e = some t) (hfine : s.Fine fits e) (h : t.FineRun fits es) :
    s.FineRun fits (e :: es) :=
  ⟨hfine, fun _ hs => Option.some.inj (hstep.symm.trans hs) ▸ h⟩

/-- The file of the runs below. -/
def gcodeFile : Text :=
  "a.gcode".toList

/-- What is known about the file. -/
def gcodeInfo : PathInfo :=
  ⟨some 1, some 1, none⟩

/-- The metadata of the file. -/
def gcodeRecord : Record :=
  (OrderedDict.empty.put "size".toList (.num 1)).put "modified".toList (.num 1)

/-- A file is requested and its metadata is extracted, and a notification is sent. -/
def soundEvents : List Event :=
  [.storage (.parseMetadata gcodeFile gcodeInfo), .notify (.queue 0), .storage .start,
    .storage .look, .notify .start, .storage (.extracted (.result gcodeFile gcodeRecord)),
    .storage .look, .notify (.done false)]

theorem workers_not_stuck_soundEvents : ∃ s,
    (init .empty).run soundEvents = some s ∧ s.Healthy (fun _ => true) .empty := by
  have hfine : (init .empty).FineRun (fun _ => true) soundEvents := by
    refine .cons rfl trivial <| .cons rfl trivial <| .cons rfl trivial <| .cons rfl ?_ <|
      .cons rfl trivial <| .cons rfl ?_ <| .cons rfl ?_ <| .cons rfl rfl trivial
    · intro x hx
      cases hx
      decide +kernel
    · intro fname pathInfo mevt retries hworker key hkey
      cases hworker
      cases hkey
      exact ⟨⟨List.cons_ne_nil _ _, rfl⟩, List.not_mem_nil⟩
    · intro x hx
      cases hx
  have hrun : ((init .empty).run soundEvents).isSome = true := by decide +kernel
  obtain ⟨s, hs⟩ := Option.isSome_iff_exists.1 hrun
  exact ⟨s, hs, (workers_not_stuck (fun _ => true) .empty (fun _ h => absurd h Bool.false_ne_true)
    soundEvents s hfine hs).1⟩

/-- The metadata of a requested file is inserted before its turn. -/
def loopEvents : List Event :=
  [.storage (.parseMetadata gcodeFile gcodeInfo), .storage (.insert gcodeFile gcodeRecord),
    .storage .start, .storage .look]

/-- A record without a size is inserted for a requested file. -/
def failEvents : List Event :=
  [.storage (.parseMetadata gcodeFile gcodeInfo), .storage (.insert gcodeFile .empty),
    .storage .start, .storage .look]

/-- A record is removed and inserted again before the task of `pop` runs. -/
def lostEvents : List Event :=
  [.storage (.insert gcodeFile gcodeRecord), .storage (.removeFileMetadata gcodeFile),
    .storage (.insert gcodeFile gcodeRecord), .storage .popTask]

/-- The first of two notifications raises. -/
def raiseEvents : List Event :=
  [.notify (.queue 0), .notify (.queue 1), .notify .start, .notify (.done true)]

/-- A worker loops, one dies while a request is pending, the namespace loses a record of the cache,
and the task of the notifications dies while one is pending. -/
theorem stuck_runs :
    (((init .empty).run loopEvents).map fun s => s.storage.worker) = some .looping ∧
    (((init .empty).run failEvents).map fun s => (s.storage.busy, s.storage.worker)) =
      some (true, .failed) ∧
    (((init .empty).run lostEvents).map fun s =>
      (s.storage.pops, (s.storage.metadata.get gcodeFile).isSome,
        ((s.storage.namespaceFrom (fun _ => true) .empty).get gcodeFile).isSome)) =
          some ([], true, false) ∧
    (((init .empty).run raiseEvents).map fun s =>
      (s.notifier.pendingCoroutines, s.notifier.gcNotifyTask)) = some ([1], .failed) := by
  decide +kernel

/-- A run from an empty namespace that ends in a system that is not healthy. -/
def EndsStuck (es : List Event) : Prop :=
  ∃ s, (init .empty).run es = some s ∧ ¬ s.Healthy (fun _ => true) .empty

/-- Each of these runs ends in a system that is not healthy. -/
theorem workers_stuck : EndsStuck loopEvents ∧ EndsStuck failEvents ∧ EndsStuck lostEvents ∧
    EndsStuck raiseEvents := by
  obtain ⟨hloop, hfail, hlost, hraise⟩ := stuck_runs
  refine ⟨?_, ?_, ?_, ?_⟩
  · obtain ⟨s, hs, hworker⟩ := Option.map_eq_some_iff.1 hloop
    exact ⟨s, hs, fun h => h.not_looping hworker⟩
  · obtain ⟨s, hs, hworker⟩ := Option.map_eq_some_iff.1 hfail
    obtain ⟨hbusy, hworker⟩ := Prod.mk.inj hworker
    refine ⟨s, hs, fun h => ?_⟩
    have hruns := h.busy_iff.1 hbusy
    rw [hworker] at hruns
    exact hruns
  · obtain ⟨s, hs, hworker⟩ := Option.map_eq_some_iff.1 hlost
    obtain ⟨hpops, hrecords⟩ := Prod.mk.inj hworker
    obtain ⟨hcache, hns⟩ := Prod.mk.inj hrecords
    refine ⟨s, hs, fun h => ?_⟩
    rw [h.get_eq hpops gcodeFile, hcache] at hns
    exact Bool.false_ne_true hns.symm
  · obtain ⟨s, hs, htask⟩ := Option.map_eq_some_iff.1 hraise
    obtain ⟨hpending, htask⟩ := Prod.mk.inj htask
    refine ⟨s, hs, fun h => ?_⟩
    have hlive := h.live (by rw [hpending]; exact List.cons_ne_nil _ _)
    rw [htask] at hlive
    exact hlive

end System

end MetadataStorage

end Thinker
