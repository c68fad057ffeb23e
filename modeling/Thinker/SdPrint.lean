import Thinker.VirtualSd

/-!
# What the virtual sdcard executes

While a file is printed, its text is made up of the lines that were executed, those in hand,
the incomplete line, and what is still to be read (`Printing`). At the end of the file the
incomplete line is dropped, so a last line without a newline is not executed.

A print that is resumed after a power loss starts with `run_plr`, before the first block is
used (`Recovering`). It is run once, whether or not it raises an exception.
-/

namespace Thinker

/-! ## Printing a file -/

/-- No command skips around. -/
def SdEvent.InOrder : SdEvent → Prop
  | .setFilePosition _ => False
  | _ => True

instance (a : SdEvent) : Decidable a.InOrder := by
  cases a <;> unfold SdEvent.InOrder <;> infer_instance

/-- The line that is being executed. -/
def Work.inCommand : Work → List Text
  | .command _ line _ _ _ => [line]
  | _ => []

namespace VirtualSd

/-- The lines that were handed to `run_script`. -/
def executed (s : VirtualSd) : List Text :=
  s.scripts.map Prod.snd

/-- The worker has the text `tail` in hand, if it has any. -/
def InHand (s : VirtualSd) (tail : Text) : Work → Prop
  | .idle => True
  | .registered => True
  | .running _ lines partialInput => ∃ f rest, s.currentFile = some f ∧ f.rest = some rest ∧
      tail = terminated lines ++ partialInput ++ rest ∧ (∀ l ∈ lines, '\n' ∉ l) ∧
      '\n' ∉ partialInput
  | .command _ line lines partialInput next => ∃ f rest, s.currentFile = some f ∧
      f.rest = some rest ∧ tail = line ++ ['\n'] ++ (terminated lines ++ partialInput ++ rest) ∧
      (∀ l ∈ lines, '\n' ∉ l) ∧ '\n' ∉ partialInput ∧ '\n' ∉ line ∧
      next = s.filePosition + line.bytes + 1 ∧ s.nextFilePosition = next

/-- The text behind the lines that were executed starts at the file position, and the worker
has what it read of it in hand. -/
structure Printing (content : Text) (s : VirtualSd) (tail : Text) : Prop where
  text : terminated s.completed ++ tail = content
  plain : ∀ l ∈ s.completed, '\n' ∉ l
  position : s.filePosition = (terminated s.completed).bytes
  file : (∃ f, s.currentFile = some f ∧ f.content = content) ∨
    s.currentFile = none ∧ '\n' ∉ tail
  inHand : s.InHand tail s.workTimer
  executed_eq : s.failures = 0 → s.executed = s.completed ++ s.workTimer.inCommand
  zStr_eq : s.zStr = false

variable {content : Text} {s : VirtualSd} {tail : Text}

namespace Printing

theorem doPause (h : Printing content s tail) : Printing content s.doPause tail := by
  unfold VirtualSd.doPause
  split_ifs
  · obtain ⟨htext, hplain, hpos, hfile, hwork, hexec, hz⟩ := h
    refine ⟨htext, hplain, hpos, hfile, ?_, hexec, hz⟩
    cases hw : s.workTimer <;> rw [hw] at hwork <;> exact hwork
  · exact h

theorem exitWork (h : Printing content s tail) (hcmd : s.workTimer.inCommand = []) :
    Printing content s.exitWork tail := by
  refine ⟨h.text, h.plain, h.position, h.file, trivial, fun hfail => ?_, h.zStr_eq⟩
  have hexec := h.executed_eq hfail
  rw [hcmd] at hexec
  exact hexec

theorem doResume (h : Printing content s tail) {t : VirtualSd} (ht : s.doResume = some t) :
    Printing content t tail := by
  unfold VirtualSd.doResume at ht
  split_ifs at ht with hactive
  obtain rfl := Option.some_inj.1 ht
  have hidle : s.workTimer = .idle := by simpa [isActive] using hactive
  refine ⟨h.text, h.plain, h.position, h.file, trivial, fun hfail => ?_, h.zStr_eq⟩
  have := h.executed_eq hfail
  rwa [hidle] at this

theorem workHandler (h : Printing content s tail) (hreg : s.workTimer = .registered) :
    Printing content s.workHandler tail := by
  have hexec := h.executed_eq
  rw [hreg] at hexec
  unfold VirtualSd.workHandler
  rcases h.file with ⟨f, hf, hcontent⟩ | ⟨hf, hplain⟩
  · rw [hf]
    have hseek : f.content.seek s.filePosition = some tail := by
      rw [hcontent, ← h.text, h.position, Text.seek_append]
    refine ⟨h.text, h.plain, h.position, Or.inl ⟨_, rfl, hcontent⟩, ⟨_, tail, rfl, hseek, ?_⟩,
      hexec, h.zStr_eq⟩
    simp
  · rw [hf]
    exact ⟨h.text, h.plain, h.position, Or.inr ⟨rfl, hplain⟩, trivial, hexec, h.zStr_eq⟩

/-- The file that is being read is the one that is printed. -/
theorem content_eq (h : Printing content s tail) {f : SdFile} (hf : s.currentFile = some f) :
    f.content = content := by
  rcases h.file with ⟨f', hf', hcontent⟩ | ⟨hnone, -⟩
  · obtain rfl := Option.some_inj.1 (hf.symm.trans hf')
    exact hcontent
  · rw [hf] at hnone
    cases hnone

theorem readData (h : Printing content s tail) {file : ℕ} {partialInput : Text}
    (hw : s.workTimer = .running file [] partialInput) {count : ℕ} (hcount : 0 < count)
    (recovery : Option ℕ) : Printing content (s.readData partialInput count recovery) tail := by
  have hwork := h.inHand
  have hexec := h.executed_eq
  rw [hw] at hwork hexec
  obtain ⟨f, rest, hf, hrest, htail, -, hpartial⟩ := hwork
  unfold VirtualSd.readData
  simp only [hf, hrest, h.zStr_eq, Bool.and_false, Bool.false_and, Bool.false_eq_true, if_false]
  split_ifs with hdata
  · -- the end of the file
    have hnil : rest = [] := by
      rcases List.take_eq_nil_iff.1 hdata with h0 | h0
      · omega
      · exact h0
    refine ⟨h.text, h.plain, h.position, Or.inr ⟨rfl, ?_⟩, trivial, hexec, rfl⟩
    rw [htail, hnil]
    simpa using hpartial
  · obtain ⟨hsplit, hmem⟩ := terminated_splitOn (partialInput ++ rest.take count)
    rw [← splitOn_append hpartial] at hsplit hmem
    have hcontent := h.content_eq hf
    refine ⟨h.text, h.plain, h.position, Or.inl ⟨_, rfl, hcontent⟩, ⟨_, rest.drop count, rfl, rfl, ?_,
      ?_, ?_⟩, hexec, rfl⟩
    · rw [hsplit, htail, List.append_assoc _ _ (rest.drop count), List.take_append_drop]
      rfl
    · exact fun l hl => hmem l (List.mem_of_mem_dropLast hl)
    · cases hlast : ((rest.take count).splitOn '\n' |>.modifyHead (partialInput ++ ·)).getLast? with
      | none => simp
      | some l => exact hmem l (List.mem_of_getLast? hlast)

theorem workStep (h : Printing content s tail) {count : ℕ} (hcount : 0 < count)
    (recovery : Option ℕ) : Printing content (s.workStep count recovery) tail := by
  unfold VirtualSd.workStep
  cases hw : s.workTimer with
  | idle => exact h
  | registered => exact h
  | command file line lines partialInput next => exact h
  | running file lines partialInput =>
    have hwork := h.inHand
    have hexec := h.executed_eq
    rw [hw] at hwork hexec
    obtain ⟨f, rest, hf, hrest, htail, hlines, hpartial⟩ := hwork
    dsimp only
    split_ifs
    · exact h.exitWork (by rw [hw]; rfl)
    · cases lines with
      | nil => exact h.readData hw hcount recovery
      | cons line lines =>
        obtain ⟨hline, hlines⟩ := List.forall_mem_cons.1 hlines
        refine ⟨h.text, h.plain, h.position, h.file, ⟨f, rest, hf, hrest, ?_, hlines,
          hpartial, hline, rfl, rfl⟩, fun hfail => ?_, h.zStr_eq⟩
        · rw [htail]
          simp [terminated]
        · show (s.scripts ++ [(file, line)]).map Prod.snd = s.completed ++ [line]
          have hexec : s.scripts.map Prod.snd = s.completed ++ [] := hexec hfail
          rw [List.map_append, hexec, List.append_nil]
          rfl

/-- Once a line has been executed, the text behind it is left. -/
theorem commandDone (h : Printing content s tail) (hcmd : s.cmdFromSd = true) (failed : Bool) :
    ∃ tail', Printing content (s.commandDone failed) tail' := by
  cases hw : s.workTimer with
  | idle => simp [cmdFromSd, hw] at hcmd
  | registered => simp [cmdFromSd, hw] at hcmd
  | running file lines partialInput => simp [cmdFromSd, hw] at hcmd
  | command file line lines partialInput next =>
    have hwork := h.inHand
    have hexec := h.executed_eq
    rw [hw] at hwork hexec
    obtain ⟨f, rest, hf, hrest, htail, hlines, hpartial, hline, hnext, hpos⟩ := hwork
    unfold VirtualSd.commandDone
    cases failed with
    | true =>
      simp only [hw, if_true]
      exact ⟨tail, h.text, h.plain, h.position, h.file, trivial,
        fun hfail => absurd hfail (Nat.succ_ne_zero _), h.zStr_eq⟩
    | false =>
      simp only [hw, hpos, Bool.false_eq_true, if_false, if_true]
      refine ⟨terminated lines ++ partialInput ++ rest, ?_, ?_, ?_,
        Or.inl ⟨f, hf, h.content_eq hf⟩, ⟨f, rest, hf, hrest, rfl, hlines, hpartial⟩,
        fun hfail => (hexec hfail).trans (List.append_nil _).symm, h.zStr_eq⟩
      · rw [terminated_concat, ← h.text, htail]
        simp
      · intro l hl
        rcases List.mem_append.1 hl with hl | hl
        · exact h.plain l hl
        · rwa [List.mem_singleton.1 hl]
      · show next = _
        rw [hnext, terminated_concat, Text.bytes_append, Text.bytes_append, ← h.position,
          Text.bytes_newline, Nat.add_assoc]

/-- The lines that were handed over are the first lines of the file. -/
theorem prefix_lines (h : Printing content s tail) :
    s.completed ++ s.workTimer.inCommand <+: content.lines := by
  rw [← h.text, lines_terminated h.plain]
  refine List.prefix_append_right_inj _ |>.2 ?_
  have hwork := h.inHand
  cases hw : s.workTimer with
  | idle => exact List.nil_prefix
  | registered => exact List.nil_prefix
  | running file lines partialInput => exact List.nil_prefix
  | command file line lines partialInput next =>
    rw [hw] at hwork
    obtain ⟨f, rest, -, -, htail, -, -, hline, -⟩ := hwork
    have hlines : ∀ l ∈ [line], '\n' ∉ l := by simpa using hline
    have := lines_terminated hlines (terminated lines ++ partialInput ++ rest)
    rw [htail]
    simp only [terminated, List.flatMap_cons, List.flatMap_nil, List.append_nil] at this ⊢
    rw [this]
    exact List.prefix_append _ _

/-- A line is executed only while the file is open. -/
theorem inCommand_eq_nil (h : Printing content s tail) (hnone : s.currentFile = none) :
    s.workTimer.inCommand = [] := by
  have hwork := h.inHand
  cases hw : s.workTimer with
  | idle => rfl
  | registered => rfl
  | running file lines partialInput => rfl
  | command file line lines partialInput next =>
    rw [hw] at hwork
    obtain ⟨f, rest, hf, -⟩ := hwork
    rw [hnone] at hf
    cases hf

end Printing

/-! ## A whole print -/

theorem printing_init {content : Text} {s : VirtualSd}
    (h : (sdWorker content false none).init s) : Printing content s content := by
  obtain ⟨s₀, hidle, hscripts, hcompleted, -, -, hload⟩ := h
  have hidle : s₀.workTimer = .idle := by simpa [isActive] using hidle
  unfold closeFile loadFile at hload
  obtain rfl := Option.some_inj.1 hload
  refine ⟨?_, ?_, ?_, Or.inl ⟨_, rfl, rfl⟩, ?_, fun _ => ?_, rfl⟩ <;> dsimp only
  · rw [hcompleted]
    rfl
  · simp [hcompleted]
  · rw [hcompleted]
    rfl
  · rw [hidle]
    trivial
  · rw [hcompleted, hidle]
    exact congrArg (List.map Prod.snd) hscripts

/-- Every state of a print is at some place of the text. -/
theorem exists_printing {content : Text} {s : VirtualSd}
    (h : (sdWorker content false none).ReachableBy (fun _ a => a.InOrder) s) :
    ∃ tail, Printing content s tail := by
  refine h.invariant (I := fun s => ∃ tail, Printing content s tail)
    (fun s hs => ⟨content, printing_init hs⟩) ?_
  rintro s a t ⟨tail, hs⟩ ha ht
  cases a with
  | pause =>
    obtain rfl := Option.some_inj.1 ht
    exact ⟨tail, hs.doPause⟩
  | resume => exact ⟨tail, hs.doResume ht⟩
  | begin =>
    obtain ⟨hreg, ht⟩ := Option.ite_none_right_eq_some.1 ht
    obtain rfl := Option.some_inj.1 ht
    exact ⟨tail, hs.workHandler hreg⟩
  | turn count recovery =>
    obtain ⟨⟨-, -, -, hcount, -⟩, ht⟩ := Option.ite_none_right_eq_some.1 ht
    obtain rfl := Option.some_inj.1 ht
    exact ⟨tail, hs.workStep hcount recovery⟩
  | done failed =>
    obtain ⟨hcmd, ht⟩ := Option.ite_none_right_eq_some.1 ht
    obtain rfl := Option.some_inj.1 ht
    exact hs.commandDone hcmd failed
  | setFilePosition position => exact ha.elim

/-- Between two lines, the file position is behind the lines that were executed. Without an
error, those that were handed over are the first lines of the file, each once, and at the end
of the file they are all of them if and only if the last one has a newline. -/
theorem executed_of_reachable {content : Text} {s : VirtualSd}
    (h : (sdWorker content false none).ReachableBy (fun _ a => a.InOrder) s) :
    (∃ tail, content = terminated s.completed ++ tail ∧
      s.filePosition = (terminated s.completed).bytes) ∧
    s.completed <+: content.lines ∧
    (s.failures = 0 → s.executed = s.completed ++ s.workTimer.inCommand ∧
      s.executed <+: content.lines) ∧
    (s.failures = 0 → s.currentFile = none →
      (s.executed = content.lines ↔ content = [] ∨ content.getLast? = some '\n')) := by
  obtain ⟨tail, hs⟩ := exists_printing h
  refine ⟨⟨tail, hs.text.symm, hs.position⟩,
    (List.prefix_append _ _).trans hs.prefix_lines, ?_, ?_⟩
  · intro hfail
    rw [hs.executed_eq hfail]
    exact ⟨rfl, hs.prefix_lines⟩
  · intro hfail hnone
    have htail : '\n' ∉ tail := by
      rcases hs.file with ⟨f, hf, -⟩ | ⟨-, htail⟩
      · rw [hnone] at hf
        cases hf
      · exact htail
    rw [hs.executed_eq hfail, hs.inCommand_eq_nil hnone, ← hs.text, lines_terminated hs.plain,
      lines_of_not_mem htail, terminated_append_ends_iff htail]
    by_cases hnil : tail = []
    · simp [hnil]
    · simp [hnil]

/-- The state in which a file with this content has just been loaded. -/
def selected (content : Text) : VirtualSd :=
  { start with currentFile := some ⟨0, content, some content⟩, loaded := 1 }

theorem init_selected (content : Text) : (sdWorker content false none).init (selected content) :=
  ⟨start, rfl, rfl, rfl, rfl, rfl, rfl⟩

/-- A print that is paused in its first line. -/
theorem executed_of_reachable_paused :
    ∃ s, (sdWorker "G28\nM84\n".toList false none).run (selected "G28\nM84\n".toList)
      [.resume, .begin, .turn 8192 none, .turn 8192 none, .pause, .done false, .turn 8192 none,
        .resume, .begin, .turn 5 none, .turn 5 none, .done false, .turn 5 none] = some s ∧
      s.currentFile = none ∧ s.executed = Text.lines "G28\nM84\n".toList := by
  have hrun : ((sdWorker "G28\nM84\n".toList false none).run (selected "G28\nM84\n".toList)
      [.resume, .begin, .turn 8192 none, .turn 8192 none, .pause, .done false, .turn 8192 none,
        .resume, .begin, .turn 5 none, .turn 5 none, .done false, .turn 5 none]).map
      (fun s => (s.currentFile.isNone, s.failures)) = some (true, 0) := by decide +kernel
  obtain ⟨s, hs, heq⟩ := Option.map_eq_some_iff.1 hrun
  obtain ⟨hnone, hfail⟩ := Prod.mk.inj heq
  have hnone : s.currentFile = none := Option.isNone_iff_eq_none.1 hnone
  have hreach : (sdWorker "G28\nM84\n".toList false none).ReachableBy
      (fun _ a => a.InOrder) s :=
    System.ReachableBy.run (.init (init_selected _)) (by decide +kernel) hs
  exact ⟨s, hs, hnone, ((executed_of_reachable hreach).2.2.2 hfail hnone).2 (Or.inr (by decide))⟩

/-- The only line of a file is not executed where it has no newline. -/
theorem not_executed_last_line :
    ∃ s, (sdWorker "G28".toList false none).ReachableBy (fun _ a => a.InOrder) s ∧
      s.failures = 0 ∧ s.currentFile = none ∧ s.executed ≠ Text.lines "G28".toList := by
  have hrun : ((sdWorker "G28".toList false none).run (selected "G28".toList)
      [.resume, .begin, .turn 8192 none, .turn 8192 none]).map
      (fun s => (s.failures, s.currentFile.isNone, s.executed)) = some (0, true, []) := by
    decide +kernel
  obtain ⟨s, hs, heq⟩ := Option.map_eq_some_iff.1 hrun
  obtain ⟨hfail, heq⟩ := Prod.mk.inj heq
  obtain ⟨hnone, hexec⟩ := Prod.mk.inj heq
  refine ⟨s, System.ReachableBy.run (.init (init_selected _)) (by decide +kernel) hs, hfail,
    Option.isNone_iff_eq_none.1 hnone, ?_⟩
  rw [hexec]
  decide +kernel

/-! ## The power-loss resume -/

/-- `run_plr` raises no exception where it is still to be run. -/
def Recovers (s : VirtualSd) : SdEvent → Prop
  | .turn _ recovery => s.zStr = true → recovery = none
  | _ => True

instance (s : VirtualSd) (a : SdEvent) : Decidable (Recovers s a) := by
  cases a <;> unfold Recovers <;> infer_instance

/-- No line is in hand. -/
def NoLines : Work → Prop
  | .idle => True
  | .registered => True
  | .running _ lines _ => lines = []
  | .command _ _ _ _ _ => False

/-- `run_plr` has been run, or is run before a line of the file is in hand. -/
def Recovering (s : VirtualSd) : Prop :=
  none ∈ s.recoveries ∨
    s.zStr = true ∧ 0 < s.filePosition ∧ s.scripts = [] ∧ NoLines s.workTimer

namespace Recovering

variable {s : VirtualSd}

theorem mono (h : Recovering s) {t : VirtualSd} (hrec : t.recoveries = s.recoveries)
    (hz : t.zStr = s.zStr) (hpos : t.filePosition = s.filePosition)
    (hscripts : t.scripts = s.scripts) (hwork : NoLines s.workTimer → NoLines t.workTimer) :
    Recovering t := by
  unfold Recovering
  rw [hrec, hz, hpos, hscripts]
  exact h.imp_right fun ⟨hz, hpos, hscripts, hlines⟩ => ⟨hz, hpos, hscripts, hwork hlines⟩

theorem workHandler (h : Recovering s) : Recovering s.workHandler := by
  unfold VirtualSd.workHandler
  cases hf : s.currentFile with
  | none => exact h.mono rfl rfl rfl rfl fun _ => trivial
  | some f => exact h.mono rfl rfl rfl rfl fun _ => rfl

theorem exitWork (h : Recovering s) : Recovering s.exitWork :=
  h.mono rfl rfl rfl rfl fun _ => trivial

/-- The first block that is read is preceded by `run_plr`. -/
theorem readData (h : Recovering s) (partialInput : Text) (count : ℕ) (recovery : Option ℕ)
    (hrec : s.zStr = true → recovery = none) :
    Recovering (s.readData partialInput count recovery) := by
  unfold VirtualSd.readData
  cases hf : s.currentFile with
  | none => exact h.exitWork
  | some f =>
    cases hrest : f.rest with
    | none =>
      simp only [hrest]
      exact h.exitWork
    | some rest =>
      simp only [hrest]
      left
      rcases h with h | ⟨hz, hpos, -, -⟩
      · split_ifs <;> simp [VirtualSd.exitWork, h]
      · obtain rfl := hrec hz
        simp only [hz, hpos, Bool.and_true, decide_true, if_true, Option.isSome_none,
          Bool.and_false, Bool.false_eq_true, if_false]
        split_ifs <;> simp [VirtualSd.exitWork]

theorem workStep (h : Recovering s) (count : ℕ) (recovery : Option ℕ)
    (hrec : s.zStr = true → recovery = none) : Recovering (s.workStep count recovery) := by
  unfold VirtualSd.workStep
  cases hw : s.workTimer with
  | idle => exact h
  | registered => exact h
  | command file line lines partialInput next => exact h
  | running file lines partialInput =>
    dsimp only
    split_ifs
    · exact h.exitWork
    · cases lines with
      | nil => exact h.readData partialInput count recovery hrec
      | cons line lines =>
        left
        rcases h with h | ⟨-, -, -, hlines⟩
        · exact h
        · rw [hw] at hlines
          cases hlines

theorem commandDone (h : Recovering s) (failed : Bool) :
    Recovering (s.commandDone failed) := by
  unfold VirtualSd.commandDone
  cases hw : s.workTimer with
  | idle => exact h
  | registered => exact h
  | running file lines partialInput => exact h
  | command file line lines partialInput next =>
    have hmem : none ∈ s.recoveries := by
      rcases h with h | ⟨-, -, -, hlines⟩
      · exact h
      · rw [hw] at hlines
        exact hlines.elim
    left
    dsimp only
    split_ifs
    · exact hmem
    · exact hmem
    · cases s.currentFile <;> exact hmem

end Recovering

/-- A print that is resumed at a position behind the start of the file executes a line only
after `run_plr` was run to its end, if it raises no exception. -/
theorem recovered_of_reachable {content : Text} {position : ℕ} (hposition : 0 < position)
    {s : VirtualSd}
    (h : (sdWorker content true (some position)).ReachableBy Recovers s) :
    s.scripts ≠ [] → none ∈ s.recoveries := by
  have hs : Recovering s := by
    refine h.invariant (I := Recovering) ?_ ?_
    · rintro s ⟨s₀, hidle, hscripts, -, -, -, hload⟩
      have hidle : s₀.workTimer = .idle := by simpa [isActive] using hidle
      obtain rfl := Option.some_inj.1 hload
      right
      refine ⟨rfl, hposition, hscripts, ?_⟩
      show NoLines s₀.workTimer
      rw [hidle]
      trivial
    · rintro s a t hs ha ht
      cases a with
      | pause =>
        obtain rfl := Option.some_inj.1 ht
        unfold doPause
        split_ifs
        · exact hs.mono rfl rfl rfl rfl id
        · exact hs
      | resume =>
        change s.doResume = some t at ht
        unfold doResume at ht
        split_ifs at ht
        obtain rfl := Option.some_inj.1 ht
        exact hs.mono rfl rfl rfl rfl fun _ => trivial
      | begin =>
        obtain ⟨-, ht⟩ := Option.ite_none_right_eq_some.1 ht
        obtain rfl := Option.some_inj.1 ht
        exact hs.workHandler
      | turn count recovery =>
        obtain ⟨-, ht⟩ := Option.ite_none_right_eq_some.1 ht
        obtain rfl := Option.some_inj.1 ht
        exact hs.workStep count recovery ha
      | done failed =>
        obtain ⟨-, ht⟩ := Option.ite_none_right_eq_some.1 ht
        obtain rfl := Option.some_inj.1 ht
        exact hs.commandDone failed
      | setFilePosition position =>
        obtain ⟨-, ht⟩ := Option.ite_none_right_eq_some.1 ht
        obtain rfl := Option.some_inj.1 ht
        exact hs.mono rfl rfl rfl rfl id
  intro hne
  rcases hs with hs | ⟨-, -, hnil, -⟩
  · exact hs
  · exact absurd hnil hne

/-- A print is resumed at its second line. -/
theorem recovered_of_reachable_second :
    ∃ s, (sdWorker "G28\nM84\n".toList true (some 4)).run
      { selected "G28\nM84\n".toList with filePosition := 4, zStr := true }
      [.resume, .begin, .turn 8192 none, .turn 8192 none] = some s ∧
      s.executed = ["M84".toList] ∧ none ∈ s.recoveries := by
  have hrun : ((sdWorker "G28\nM84\n".toList true (some 4)).run
      { selected "G28\nM84\n".toList with filePosition := 4, zStr := true }
      [.resume, .begin, .turn 8192 none, .turn 8192 none]).map (·.executed) =
      some ["M84".toList] := by decide +kernel
  obtain ⟨s, hs, hexec⟩ := Option.map_eq_some_iff.1 hrun
  have hreach : (sdWorker "G28\nM84\n".toList true (some 4)).ReachableBy Recovers s :=
    System.ReachableBy.run (.init ⟨start, rfl, rfl, rfl, rfl, rfl, rfl⟩) (by decide +kernel) hs
  refine ⟨s, hs, hexec, recovered_of_reachable (by decide) hreach fun hnil => ?_⟩
  rw [executed, hnil] at hexec
  cases hexec

/-- Where `run_plr` raises an exception, the print can be resumed without it. -/
theorem not_recovered_resumed :
    ∃ s, (sdWorker "G28\nM84\n".toList true (some 4)).Reachable s ∧
      s.executed = ["M84".toList] ∧ s.recoveries = [some 1] := by
  have hrun : ((sdWorker "G28\nM84\n".toList true (some 4)).run
      { selected "G28\nM84\n".toList with filePosition := 4, zStr := true }
      [.resume, .begin, .turn 8192 (some 1), .resume, .begin, .turn 8192 none,
        .turn 8192 none]).map (fun s => (s.executed, s.recoveries)) =
      some (["M84".toList], [some 1]) := by decide +kernel
  obtain ⟨s, hs, heq⟩ := Option.map_eq_some_iff.1 hrun
  obtain ⟨hexec, hrec⟩ := Prod.mk.inj heq
  exact ⟨s, System.Reachable.run (.init ⟨start, rfl, rfl, rfl, rfl, rfl, rfl⟩) hs, hexec, hrec⟩

end VirtualSd

end Thinker
