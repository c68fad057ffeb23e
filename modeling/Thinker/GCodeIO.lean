import Thinker.GCodeScript
import Thinker.TextFile
import Thinker.Transition

/-!
# G-code from the pseudo-terminal

`GCodeIO` of `gcode.py`. A read adds the lines that it completes to the pending commands; the first
activation of `_process_data` executes them, and those that come meanwhile leave theirs to it.
Between any two steps of it others may run : while it waits for the mutex, and while a command is
suspended.

Each read is decoded on its own. One that ends inside a character is lost, with the next
(`GCodeIO.not_passes_split`). In a run whose reads end between characters every line is executed
once and in order (`GCodeIO.passes_of_reachable`).
-/

namespace Thinker

/-- The end of `m112_r` : `\s*[mM]112(?:\s|$)`. -/
def isM112 (line : Text) : Bool :=
  match line.dropWhile isSpace with
  | 'm' :: '1' :: '1' :: '2' :: rest | 'M' :: '1' :: '1' :: '2' :: rest => rest.head?.all isSpace
  | _ => false

/-- `m112_r.match`, where a line number may come first. -/
def m112Match (line : Text) : Bool :=
  match line with
  | c :: rest =>
    if (c = 'n' ∨ c = 'N') ∧ rest.head?.any Char.isDigit then isM112 (rest.dropWhile Char.isDigit)
    else isM112 line
  | [] => false

/-- An activation of `_process_data` with commands : it waits for the mutex, or executes them. -/
inductive Activation where
  | waiting (commands : List Text)
  | executing (commands : List Text)
  deriving DecidableEq

namespace Activation

/-- The commands that are not passed to `_process_commands` yet. -/
def toPass : Activation → List Text
  | .waiting commands => commands
  | .executing _ => []

/-- The commands that are passed and not executed yet. -/
def toExecute : Activation → List Text
  | .waiting _ => []
  | .executing commands => commands

end Activation

/-- `GCodeIO` with the activations of `_process_data` that have not returned, and what has happened
so far : the bytes that were read, the lists passed to `_process_commands`, the lines that were
executed, those that `cmd_M112` was called for, and whether the descriptor was registered or
unregistered each time. -/
structure GCodeIO where
  /-- Whether `fd_handle` is not `None`. -/
  fdHandle : Bool
  isProcessingData : Bool
  partialInput : Text
  pendingCommands : List Text
  bytesRead : ℕ
  active : List Activation
  input : ByteArray
  passed : List (List Text)
  executed : List Text
  stopped : List Text
  registered : List Bool

namespace GCodeIO

/-- After `__init__`. -/
def start : GCodeIO :=
  ⟨true, false, [], [], 0, [], .empty, [], [], [], [true]⟩

variable (upper : Text → Text) (s : GCodeIO)

/-- `register_fd` where there is no handle. -/
def registerFd : GCodeIO :=
  if s.fdHandle then s else { s with fdHandle := true, registered := s.registered ++ [true] }

/-- `unregister_fd`. -/
def unregisterFd : GCodeIO :=
  { s with fdHandle := false, registered := s.registered ++ [false] }

/-- The end of a turn of the loop of `_process_data` : the next commands, or the return. The other
activations are those that were there before. -/
def loop (others : List Activation) : GCodeIO :=
  if s.pendingCommands = [] then
    { s with isProcessingData := false, active := others }.registerFd
  else { s with pendingCommands := [], active := others ++ [.waiting s.pendingCommands] }

/-- The lines of the data that was read, the first one with the partial line before. -/
def split (data : Text) : List Text :=
  (data.splitOn '\n').modifyHead (s.partialInput ++ ·)

/-- `_process_data` up to its check for `M112`, for the lines that were read. -/
def addLines (lines : List Text) : GCodeIO :=
  { s with
    partialInput := lines.getLast?.getD []
    pendingCommands := s.pendingCommands ++ lines.dropLast }

/-- The check for `M112` out of order. -/
def checkM112 (lines : List Text) : GCodeIO :=
  if (s.isProcessingData || decide (s.pendingCommands.length > 1)) &&
      decide (s.pendingCommands.length < 20) then
    { s with stopped := s.stopped ++ lines.filter m112Match } else s

/-- The rest of `_process_data` : the lines are left to the activation that is there, or this one
goes on to its loop. -/
def dispatch : GCodeIO :=
  if s.isProcessingData then
    if s.pendingCommands.length ≥ 20 then s.unregisterFd else s
  else { s with isProcessingData := true }.loop s.active

/-- `_process_data` for the data that was read. -/
def processData (data : Text) : GCodeIO :=
  let lines := s.split data
  (({ s with bytesRead := s.bytesRead + data.length }.addLines lines).checkM112
    lines.dropLast).dispatch

/-- `_process_data` for a read. -/
def read (chunk : ByteArray) : GCodeIO :=
  let s := { s with input := s.input ++ chunk }
  match decode chunk with
  | none => s
  | some data => s.processData data

/-- A step of an activation : it gets the mutex, executes a command, or is through. -/
def advance (i : ℕ) : Option GCodeIO :=
  match s.active[i]? with
  | none => none
  | some (.waiting commands) =>
    some { s with
      active := s.active.set i (.executing commands)
      passed := s.passed ++ [commands] }
  | some (.executing (line :: commands)) =>
    some { s with
      active := s.active.set i (.executing commands)
      executed := s.executed ++ [line]
      stopped := if command upper line = "M112".toList then s.stopped ++ [line] else s.stopped }
  | some (.executing []) => some (s.loop (s.active.eraseIdx i))

/-- A read of the reactor, or a step of an activation. -/
inductive Event where
  | read (chunk : ByteArray)
  | advance (i : ℕ)

/-- The reactor calls `_process_data` while the descriptor is registered. -/
def next : Event → Option GCodeIO
  | .read chunk => if s.fdHandle && decide (chunk.size ≤ 4096) then some (s.read chunk) else none
  | .advance i => s.advance upper i

/-- The runs of `GCodeIO`. -/
def system : System GCodeIO Event where
  init s := s = start
  next := next upper

/-- A read ends between characters. -/
def EndsBetween (_ : GCodeIO) : Event → Prop
  | .read chunk => chunk.IsValidUTF8
  | .advance _ => True

instance (s : GCodeIO) : ∀ e, Decidable (EndsBetween s e)
  | .read chunk => inferInstanceAs (Decidable chunk.IsValidUTF8)
  | .advance _ => inferInstanceAs (Decidable True)

/-- A read that ends between characters is decoded. -/
theorem exists_decode {chunk : ByteArray} (h : chunk.IsValidUTF8) :
    ∃ data : Text, decode chunk = some data ∧ chunk = data.utf8Encode := by
  have hsome := ByteArray.isSome_utf8Decode?_iff.2 h
  exact ⟨(chunk.utf8Decode?.get hsome).toList,
    congrArg (Option.map Array.toList) (Option.some_get hsome).symm,
    ByteArray.utf8Encode_get_utf8Decode?.symm⟩

/-- What is behind a text in a text is one. -/
theorem exists_append {t u : Text} {rest : ByteArray} (h : u.utf8Encode = t.utf8Encode ++ rest) :
    ∃ r : Text, u = t ++ r ∧ rest = r.utf8Encode := by
  have hvalid : ∀ t : Text, (t.utf8Encode ++ rest).IsValidUTF8 → rest.IsValidUTF8 := by
    intro t
    induction t with
    | nil =>
      intro hrest
      rwa [List.utf8Encode_nil, ByteArray.empty_append] at hrest
    | cons c t ih =>
      intro hrest
      rw [← List.singleton_append, List.utf8Encode_append, ByteArray.append_assoc,
        ByteArray.isValidUTF8_utf8Encode_singleton_append_iff] at hrest
      exact ih hrest
  obtain ⟨r, rfl⟩ := hvalid t (h ▸ ByteArray.isValidUTF8_utf8Encode)
  refine ⟨r, ?_, rfl⟩
  rw [← List.utf8Encode_append] at h
  have hdecode := congrArg ByteArray.utf8Decode? h
  rw [List.utf8Decode?_utf8Encode, List.utf8Decode?_utf8Encode] at hdecode
  exact congrArg Array.toList (Option.some_inj.1 hdecode)

/-! ## What a run keeps -/

/-- Where the lines of the input are, with those that the activation has to pass and to execute;
and what has been done. -/
structure Keeps (toPass toExecute : List Text) : Prop where
  text : ∃ t : Text, s.input = t.utf8Encode ∧
    s.passed.flatten ++ toPass ++ s.pendingCommands = (t.splitOn '\n').dropLast ∧
    s.partialInput = (t.splitOn '\n').getLast?.getD []
  executed : s.executed ++ toExecute = s.passed.flatten
  stopped : ∀ line ∈ s.executed, command upper line = "M112".toList → line ∈ s.stopped
  alternates : s.registered.IsChain (· ≠ ·)
  last : s.registered.getLast? = some s.fdHandle

/-- There is one activation while data is processed, and none else. -/
def Inv : Prop :=
  match s.active with
  | [] => s.Keeps upper [] [] ∧ s.isProcessingData = false ∧ s.fdHandle = true ∧
      s.pendingCommands = []
  | [a] => s.Keeps upper a.toPass a.toExecute ∧ s.isProcessingData = true
  | _ => False

variable {upper s}

theorem Keeps.registerFd {toPass toExecute : List Text} (h : s.Keeps upper toPass toExecute) :
    s.registerFd.Keeps upper toPass toExecute := by
  unfold GCodeIO.registerFd
  split_ifs with hfd
  · exact h
  · refine ⟨h.text, h.executed, h.stopped, ?_, List.getLast?_concat⟩
    refine h.alternates.append (List.isChain_singleton _) fun a ha b hb => ?_
    rw [h.last] at ha
    obtain rfl := Option.some_inj.1 ha
    obtain rfl := Option.some_inj.1 hb
    exact hfd

theorem Keeps.unregisterFd {toPass toExecute : List Text} (h : s.Keeps upper toPass toExecute)
    (hfd : s.fdHandle = true) : s.unregisterFd.Keeps upper toPass toExecute := by
  refine ⟨h.text, h.executed, h.stopped, ?_, List.getLast?_concat⟩
  refine h.alternates.append (List.isChain_singleton _) fun a ha b hb => ?_
  rw [h.last, hfd] at ha
  obtain rfl := Option.some_inj.1 ha
  obtain rfl := Option.some_inj.1 hb
  exact fun h => Bool.false_ne_true h.symm

/-- The loop goes on with what is pending, or the activation is over. -/
theorem inv_loop (h : s.Keeps upper [] []) (hprocessing : s.isProcessingData = true) :
    (s.loop []).Inv upper := by
  unfold loop
  split_ifs with hpending
  · have hkeeps : ({ s with isProcessingData := false, active := [] } : GCodeIO).Keeps upper
        [] [] :=
      ⟨h.text, h.executed, h.stopped, h.alternates, h.last⟩
    have hfd : ({ s with isProcessingData := false, active := [] } : GCodeIO).registerFd.fdHandle =
        true := by
      unfold registerFd
      split_ifs with hfd
      · exact hfd
      · rfl
    have hrest : ∀ u : GCodeIO, u.registerFd.active = u.active ∧
        u.registerFd.isProcessingData = u.isProcessingData ∧
        u.registerFd.pendingCommands = u.pendingCommands := by
      intro u
      unfold registerFd
      split_ifs <;> exact ⟨rfl, rfl, rfl⟩
    obtain ⟨hactive, hreturned, hrest⟩ := hrest { s with isProcessingData := false, active := [] }
    unfold Inv
    rw [hactive]
    exact ⟨hkeeps.registerFd, hreturned, hfd, hrest.trans hpending⟩
  · obtain ⟨t, hinput, hlines, hpart⟩ := h.text
    refine ⟨⟨⟨t, hinput, ?_, hpart⟩, h.executed, h.stopped, h.alternates, h.last⟩, ?_⟩
    · show s.passed.flatten ++ s.pendingCommands ++ [] = _
      rw [List.append_nil, ← hlines, List.append_nil]
    · exact hprocessing

/-- A step of an activation. -/
theorem inv_advance (h : s.Inv upper) {i : ℕ} {t : GCodeIO} (ht : s.advance upper i = some t) :
    t.Inv upper := by
  unfold advance at ht
  unfold Inv at h
  match hactive : s.active, h with
  | [], _ =>
    rw [hactive] at ht
    cases ht
  | [a], ⟨hkeeps, hprocessing⟩ =>
    rw [hactive] at ht
    cases i with
    | succ i => cases ht
    | zero =>
      match a, hkeeps, ht with
      | .waiting commands, hkeeps, ht =>
        obtain rfl := Option.some_inj.1 ht
        obtain ⟨text, hinput, hlines, hpart⟩ := hkeeps.text
        refine ⟨⟨⟨text, hinput, ?_, hpart⟩, ?_, hkeeps.stopped, hkeeps.alternates,
          hkeeps.last⟩, hprocessing⟩
        · rw [← hlines]
          simp [Activation.toPass]
        · have hexecuted := hkeeps.executed
          simp [Activation.toExecute] at hexecuted ⊢
          exact hexecuted
      | .executing (line :: commands), hkeeps, ht =>
        obtain rfl := Option.some_inj.1 ht
        refine ⟨⟨hkeeps.text, ?_, ?_, hkeeps.alternates, hkeeps.last⟩, hprocessing⟩
        · rw [← hkeeps.executed]
          simp [Activation.toExecute]
        · intro l hl hcommand
          dsimp only at hl ⊢
          rcases List.mem_append.1 hl with hl | hl
          · have hstopped := hkeeps.stopped l hl hcommand
            split_ifs
            · exact List.mem_append_left _ hstopped
            · exact hstopped
          · obtain rfl := List.mem_singleton.1 hl
            rw [if_pos hcommand]
            exact List.mem_append_right _ (List.mem_singleton_self _)
      | .executing [], hkeeps, ht =>
        obtain rfl := Option.some_inj.1 ht
        exact inv_loop hkeeps hprocessing

/-- The lines of a read that is decoded are found as if the input was split as a whole. -/
theorem Keeps.addLines {toPass toExecute : List Text} (h : s.Keeps upper toPass toExecute)
    (data : Text) (bytesRead : ℕ) :
    ({ s with input := s.input ++ data.utf8Encode, bytesRead := bytesRead }.addLines
      (s.split data)).Keeps upper toPass toExecute := by
  obtain ⟨t, hinput, hlines, hpart⟩ := h.text
  obtain ⟨hjoined, hmem⟩ := terminated_splitOn t
  have hcomplete : ∀ l ∈ (t.splitOn '\n').dropLast, '\n' ∉ l :=
    fun l hl => hmem l (List.mem_of_mem_dropLast hl)
  have hnewline : '\n' ∉ s.partialInput := by
    rw [hpart]
    cases hlast : (t.splitOn '\n').getLast? with
    | none => exact List.not_mem_nil
    | some l => exact hmem l (List.mem_of_getLast? hlast)
  have hsplit : (t ++ data).splitOn '\n' = (t.splitOn '\n').dropLast ++ s.split data := by
    rw [← hpart] at hjoined
    have hlines' : s.split data = (s.partialInput ++ data).splitOn '\n' :=
      splitOn_append hnewline data
    rw [hlines', ← splitOn_terminated hcomplete, ← List.append_assoc, hjoined]
  have hne : s.split data ≠ [] := by
    intro hnil
    have hlength := congrArg List.length hnil
    rw [split, List.length_modifyHead] at hlength
    exact List.splitOn_ne_nil '\n' data (List.length_eq_zero_iff.1 hlength)
  refine ⟨⟨t ++ data, ?_, ?_, ?_⟩, h.executed, h.stopped, h.alternates, h.last⟩
  · show s.input ++ _ = _
    rw [List.utf8Encode_append, hinput]
  · show s.passed.flatten ++ toPass ++ (s.pendingCommands ++ _) = _
    rw [hsplit, List.dropLast_append_of_ne_nil hne, ← hlines,
      List.append_assoc _ _ (List.dropLast _)]
  · rw [hsplit, List.getLast?_append_of_ne_nil _ hne]
    rfl

theorem Keeps.checkM112 {toPass toExecute : List Text} (h : s.Keeps upper toPass toExecute)
    (lines : List Text) : (s.checkM112 lines).Keeps upper toPass toExecute := by
  unfold GCodeIO.checkM112
  split_ifs
  · exact ⟨h.text, h.executed, fun l hl hcommand => List.mem_append_left _
      (h.stopped l hl hcommand), h.alternates, h.last⟩
  · exact h

/-- A read where the descriptor is registered. -/
def Reading (upper : Text → Text) (s : GCodeIO) : Prop :=
  s.fdHandle = true ∧
    match s.active with
    | [] => s.Keeps upper [] [] ∧ s.isProcessingData = false
    | [a] => s.Keeps upper a.toPass a.toExecute ∧ s.isProcessingData = true
    | _ => False

theorem Inv.reading (h : s.Inv upper) (hfd : s.fdHandle = true) : s.Reading upper := by
  refine ⟨hfd, ?_⟩
  unfold Inv at h
  match s.active, h with
  | [], h => exact ⟨h.1, h.2.1⟩
  | [a], h => exact h

theorem Reading.of_keeps {t : GCodeIO} (h : s.Reading upper) (hfd : t.fdHandle = s.fdHandle)
    (hactive : t.active = s.active) (hprocessing : t.isProcessingData = s.isProcessingData)
    (hkeeps : ∀ toPass toExecute, s.Keeps upper toPass toExecute →
      t.Keeps upper toPass toExecute) : t.Reading upper := by
  obtain ⟨hregistered, h⟩ := h
  refine ⟨hfd.trans hregistered, ?_⟩
  rw [hactive, hprocessing]
  match s.active, h with
  | [], h => exact ⟨hkeeps _ _ h.1, h.2⟩
  | [a], h => exact ⟨hkeeps _ _ h.1, h.2⟩

theorem Reading.dispatch (h : s.Reading upper) : s.dispatch.Inv upper := by
  obtain ⟨hfd, h⟩ := h
  unfold GCodeIO.dispatch
  match hactive : s.active, h with
  | [], h =>
    rw [h.2, if_neg Bool.false_ne_true]
    exact inv_loop ⟨h.1.text, h.1.executed, h.1.stopped, h.1.alternates, h.1.last⟩ rfl
  | [a], h =>
    rw [h.2, if_pos rfl]
    split_ifs
    · show match s.active with | [] => _ | [a] => _ | _ => False
      rw [hactive]
      exact ⟨h.1.unregisterFd hfd, h.2⟩
    · unfold Inv
      rw [hactive]
      exact h

/-- A read that is decoded. -/
theorem inv_processData (h : s.Inv upper) (hfd : s.fdHandle = true) (data : Text) :
    (processData { s with input := s.input ++ data.utf8Encode } data).Inv upper := by
  refine Reading.dispatch ((h.reading hfd).of_keeps ?_ ?_ ?_ fun toPass toExecute hkeeps =>
    (hkeeps.addLines data (s.bytesRead + data.length)).checkM112 _)
  all_goals
    unfold checkM112
    split_ifs <;> rfl

theorem inv_next {e : Event} {t : GCodeIO} (h : s.Inv upper) (he : EndsBetween s e)
    (ht : s.next upper e = some t) : t.Inv upper := by
  cases e with
  | read chunk =>
    obtain ⟨hcond, ht⟩ := Option.ite_none_right_eq_some.1 ht
    obtain rfl := Option.some_inj.1 ht
    obtain ⟨data, hdecode, rfl⟩ := exists_decode he
    unfold read
    dsimp only
    rw [hdecode]
    exact inv_processData h (Bool.and_eq_true_iff.1 hcond).1 data
  | advance i => exact inv_advance h ht

theorem inv_of_reachable (h : (system upper).ReachableBy EndsBetween s) : s.Inv upper := by
  refine h.invariant ?_ fun s e t hs he hnext => inv_next hs he hnext
  rintro s rfl
  refine ⟨⟨⟨[], ?_, rfl, rfl⟩, rfl, fun line hline => ?_, List.isChain_singleton _, rfl⟩, rfl, rfl,
    rfl⟩
  · rfl
  · cases hline

/-- What the clients see. -/
structure Passes (upper : Text → Text) (s : GCodeIO) : Prop where
  /-- The lines of a text are passed in order, and all of them once it is read and none is left. -/
  passed : ∀ (ls : List Text) (rest : ByteArray), (∀ l ∈ ls, '\n' ∉ l) →
    (terminated ls).utf8Encode = s.input ++ rest → s.passed.flatten <+: ls ∧
      (rest = .empty → s.isProcessingData = false → s.passed.flatten = ls)
  /-- They are executed in order. -/
  executed : s.executed <+: s.passed.flatten ∧
    (s.isProcessingData = false → s.executed = s.passed.flatten)
  /-- One activation processes data at a time. -/
  single : s.active.length ≤ 1 ∧ (s.isProcessingData = false ↔ s.active = [])
  /-- `M112` is acted on when it is executed, or before. -/
  stopped : ∀ line ∈ s.executed, command upper line = "M112".toList → line ∈ s.stopped
  /-- While no data is processed, the descriptor is registered. -/
  registered : s.isProcessingData = false → s.fdHandle = true
  alternates : s.registered.IsChain (· ≠ ·)

/-- The complete lines of a text that begins other lines are the first of these, and all of them if
there is no more. -/
theorem dropLast_prefix {ls : List Text} (hls : ∀ l ∈ ls, '\n' ∉ l) {t r : Text}
    (h : terminated ls = t ++ r) :
    (t.splitOn '\n').dropLast <+: ls ∧ (r = [] → (t.splitOn '\n').dropLast = ls) := by
  obtain ⟨hjoined, hmem⟩ := terminated_splitOn t
  have hcomplete : ∀ l ∈ (t.splitOn '\n').dropLast, '\n' ∉ l :=
    fun l hl => hmem l (List.mem_of_mem_dropLast hl)
  have hsplit : ls ++ [[]] = (t.splitOn '\n').dropLast ++
      ((t.splitOn '\n').getLast?.getD [] ++ r).splitOn '\n' := by
    rw [← splitOn_terminated hcomplete, ← List.append_assoc, hjoined, ← h]
    have hls' := splitOn_terminated hls []
    rw [List.append_nil] at hls'
    exact hls'.symm
  constructor
  · have hne := List.splitOn_ne_nil '\n' ((t.splitOn '\n').getLast?.getD [] ++ r)
    rw [← List.dropLast_append_getLast hne, ← List.append_assoc] at hsplit
    exact ⟨_, (List.append_inj' hsplit rfl).1.symm⟩
  · rintro rfl
    have hlast : '\n' ∉ (t.splitOn '\n').getLast?.getD [] := by
      cases hlast : (t.splitOn '\n').getLast? with
      | none => exact List.not_mem_nil
      | some l => exact hmem l (List.mem_of_getLast? hlast)
    rw [List.append_nil, List.splitOn_eq_singleton hlast] at hsplit
    exact (List.append_inj' hsplit rfl).1.symm

theorem Inv.keeps (h : s.Inv upper) : ∃ toPass toExecute, s.Keeps upper toPass toExecute ∧
    s.active.length ≤ 1 ∧ (s.isProcessingData = false ↔ s.active = []) ∧
    (s.isProcessingData = false → toPass = [] ∧ toExecute = [] ∧ s.fdHandle = true ∧
      s.pendingCommands = []) := by
  unfold Inv at h
  match s.active, h with
  | [], h => exact ⟨[], [], h.1, Nat.zero_le _, iff_of_true h.2.1 rfl, fun _ => ⟨rfl, rfl, h.2.2⟩⟩
  | [a], h =>
    have hprocessing : ¬s.isProcessingData = false := by
      rw [h.2]
      exact fun htrue => Bool.false_ne_true htrue.symm
    exact ⟨_, _, h.1, le_rfl, iff_of_false hprocessing (List.cons_ne_nil _ _),
      fun hfalse => absurd hfalse hprocessing⟩

/-- In every run whose reads end between characters, the lines are passed and executed once and in
order. -/
theorem passes_of_reachable (h : (system upper).ReachableBy EndsBetween s) : s.Passes upper := by
  obtain ⟨toPass, toExecute, hkeeps, hlength, hactive, hidle⟩ := (inv_of_reachable h).keeps
  obtain ⟨t, hinput, hlines, -⟩ := hkeeps.text
  refine ⟨fun ls rest hls htext => ?_, ⟨⟨toExecute, hkeeps.executed⟩, fun hprocessing => ?_⟩,
    ⟨hlength, hactive⟩, hkeeps.stopped, fun hprocessing => (hidle hprocessing).2.2.1,
    hkeeps.alternates⟩
  · rw [hinput] at htext
    obtain ⟨r, hr, rfl⟩ := exists_append htext
    obtain ⟨hfront, hall⟩ := dropLast_prefix hls hr
    rw [List.append_assoc] at hlines
    refine ⟨List.IsPrefix.trans ⟨_, hlines⟩ hfront, fun hempty hprocessing => ?_⟩
    obtain ⟨rfl, -, -, hpending⟩ := hidle hprocessing
    rw [hpending, List.append_nil, List.append_nil] at hlines
    exact hlines.trans (hall (List.utf8Encode_eq_empty.1 hempty))
  · have hexecuted := hkeeps.executed
    obtain ⟨-, rfl, -⟩ := hidle hprocessing
    rwa [List.append_nil] at hexecuted

/-- A line with a character of two bytes, in one read. -/
def wholeRead : List Event :=
  [.read ⟨#[0x4d, 0x31, 0x31, 0x37, 0x20, 0xc3, 0xbc, 0x0a]⟩, .advance 0, .advance 0, .advance 0]

theorem passes_wholeRead : ∃ s, (system id).run start wholeRead = some s ∧
    s.passed = [["M117 ü".toList]] ∧ s.Passes id := by
  have hinit : (system id).ReachableBy EndsBetween start := .init rfl
  have hreach : (system id).ReachableBy EndsBetween
      (((system id).run start wholeRead).get (by decide +kernel)) :=
    hinit.run (by decide +kernel) (Option.some_get _).symm
  exact ⟨_, (Option.some_get _).symm, by decide +kernel, passes_of_reachable hreach⟩

/-- The line in two reads, the first of which ends inside the character. -/
def splitRead : List Event :=
  [.read ⟨#[0x4d, 0x31, 0x31, 0x37, 0x20, 0xc3]⟩, .read ⟨#[0xbc, 0x0a]⟩]

/-- Both reads are lost. -/
theorem not_passes_split : ¬∀ s, (system id).Reachable s → s.Passes id := by
  intro h
  have hinit : (system id).Reachable start := .init rfl
  have hreach : (system id).Reachable
      (((system id).run start splitRead).get (by decide +kernel)) :=
    hinit.run (Option.some_get _).symm
  have hpassed := (h _ hreach).passed ["M117 ü".toList] .empty (by decide +kernel)
    (by decide +kernel)
  exact absurd (hpassed.2 rfl (by decide +kernel)) (by decide +kernel)

end GCodeIO

end Thinker
