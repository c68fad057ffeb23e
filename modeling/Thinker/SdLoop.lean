import Thinker.LoopProgram
import Thinker.SdPrint

/-!
# Loops in a printed file

`SDCardLoop` of `sdcard_loop.py`. The beginning of a loop remembers the file position behind its
line, and the end of the loop sets the position of the worker back to it. What a line is about is
decided by the g-code parser, which is a parameter.

While a file is printed, the position is at the code that is left of its program, and the stack has
the positions of the bodies of the loops (`Looping`), so that the lines are executed in the order of
the expansion (`expanded_of_reachable`).
-/

namespace Thinker

/-- `SDCardLoop`, with the worker of its file. -/
structure SDCardLoop where
  sd : VirtualSd
  loopStack : List (ℕ × ℕ)

namespace SDCardLoop

/-- `loop_begin`. -/
def loopBegin (s : SDCardLoop) (count : ℕ) : SDCardLoop :=
  { s with loopStack := (count, s.sd.nextFilePosition) :: s.loopStack }

/-- `loop_end`. -/
def loopEnd (s : SDCardLoop) : SDCardLoop :=
  match s.loopStack with
  | [] => s
  | (count, position) :: stack =>
    if count = 0 then
      ⟨{ s.sd with nextFilePosition := position }, (0, position) :: stack⟩
    else if count = 1 then { s with loopStack := stack }
    else ⟨{ s.sd with nextFilePosition := position }, (count - 1, position) :: stack⟩

/-- The line that is being executed. -/
def execute (s : SDCardLoop) : LoopCommand → SDCardLoop
  | .loopBegin count => s.loopBegin count
  | .loopEnd => s.loopEnd
  | .other => s

/-- The rest of a turn of the worker, with what the line does to the loops if it does not fail. -/
def commandDone (parse : Text → LoopCommand) (s : SDCardLoop) (failed : Bool) : SDCardLoop :=
  match s.sd.workTimer with
  | .command _ line _ _ _ =>
    let s := if failed then s else s.execute (parse line)
    { s with sd := s.sd.commandDone failed }
  | _ => s

/-- A print from the start of a file with this content, with no loop on the stack. -/
def system (parse : Text → LoopCommand) (content : Text) : System SDCardLoop SdEvent where
  init s := (sdWorker content false none).init s.sd ∧ s.loopStack = []
  next s
    | .done failed => if s.sd.cmdFromSd then some (s.commandDone parse failed) else none
    | .setFilePosition _ => none
    | e => ((sdWorker content false none).next s.sd e).map fun sd => { s with sd := sd }

end SDCardLoop

/-! ## The place in the file -/

namespace VirtualSd

/-- The worker with other lines in the place of those that were executed. -/
def relabel (s : VirtualSd) (ls : List Text) : VirtualSd :=
  { s with completed := ls, failures := 1 }

variable {s : VirtualSd} {content tail : Text}

theorem relabel_doPause (s : VirtualSd) (ls : List Text) :
    (s.relabel ls).doPause = s.doPause.relabel ls := by
  have hactive : (s.relabel ls).isActive = s.isActive := rfl
  unfold doPause
  rw [hactive]
  cases s.isActive <;> rfl

theorem relabel_doResume (s : VirtualSd) (ls : List Text) :
    (s.relabel ls).doResume = s.doResume.map fun t => t.relabel ls := by
  have hactive : (s.relabel ls).isActive = s.isActive := rfl
  unfold doResume
  rw [hactive]
  cases s.isActive <;> rfl

theorem relabel_workHandler (s : VirtualSd) (ls : List Text) :
    (s.relabel ls).workHandler = s.workHandler.relabel ls := by
  cases hf : s.currentFile with
  | none =>
    have hf' : (s.relabel ls).currentFile = none := hf
    simp only [workHandler, hf, hf']
    rfl
  | some f =>
    have hf' : (s.relabel ls).currentFile = some f := hf
    simp only [workHandler, hf, hf']
    rfl

theorem relabel_readData (s : VirtualSd) (ls : List Text) (partialInput : Text) (count : ℕ)
    (recovery : Option ℕ) : (s.relabel ls).readData partialInput count recovery =
      (s.readData partialInput count recovery).relabel ls := by
  cases hf : s.currentFile with
  | none =>
    have hf' : (s.relabel ls).currentFile = none := hf
    simp only [readData, hf, hf']
    rfl
  | some f =>
    have hf' : (s.relabel ls).currentFile = some f := hf
    cases hrest : f.rest with
    | none =>
      simp only [readData, hf, hf', hrest]
      rfl
    | some rest =>
      have hrecovers : (decide ((s.relabel ls).filePosition > 0) && (s.relabel ls).zStr) =
          (decide (s.filePosition > 0) && s.zStr) := rfl
      simp only [readData, hf, hf', hrest]
      rw [hrecovers]
      split_ifs <;> rfl

theorem relabel_workStep (s : VirtualSd) (ls : List Text) (count : ℕ) (recovery : Option ℕ) :
    (s.relabel ls).workStep count recovery = (s.workStep count recovery).relabel ls := by
  cases hw : s.workTimer with
  | running file lines partialInput =>
    have hw' : (s.relabel ls).workTimer = .running file lines partialInput := hw
    have hpause : (s.relabel ls).mustPauseWork = s.mustPauseWork := rfl
    simp only [workStep, hw, hw', hpause]
    split_ifs
    · rfl
    · cases lines with
      | nil => exact relabel_readData s ls partialInput count recovery
      | cons line lines => rfl
  | _ =>
    have hw' : (s.relabel ls).workTimer = s.workTimer := rfl
    simp only [workStep, hw, hw']

/-- A line that has been executed, after which the worker is to go on at any other line. -/
theorem printing_commandDone {before after : List Text} {line : Text} {file next position : ℕ}
    {lines : List Text} {partialInput : Text} {ls : List Text}
    (h : Printing content (s.relabel before) tail)
    (hw : s.workTimer = .command file line lines partialInput next)
    (hcontent : terminated after ++ terminated ls = content) (hplain : ∀ l ∈ after, '\n' ∉ l)
    (hposition : position = (terminated after).bytes) :
    Printing content
      ((({ s with nextFilePosition := position } : VirtualSd).commandDone false).relabel after)
      (terminated ls) := by
  have hwork := h.inHand
  rw [show (s.relabel before).workTimer = s.workTimer from rfl, hw] at hwork
  obtain ⟨f, rest, hf, hrest, htail, hlines, hpartial, hline, hnext, -⟩ := hwork
  have hf : s.currentFile = some f := hf
  have hfile : f.content = content := h.content_eq hf
  have hseek : f.content.seek position = some (terminated ls) := by
    rw [hfile, ← hcontent, hposition, Text.seek_append]
  unfold commandDone
  simp only [hw, Bool.false_eq_true, if_false]
  split_ifs with hsame
  · have hbehind : f.content.seek next = some (terminated lines ++ partialInput ++ rest) := by
      have hbytes : next = (terminated before ++ (line ++ ['\n'])).bytes := by
        rw [hnext, h.position, Text.bytes_append, Text.bytes_append, Text.bytes_newline]
        rw [Nat.add_assoc]
        rfl
      rw [hfile, ← h.text, htail, hbytes, ← List.append_assoc (terminated _)]
      exact Text.seek_append _ _
    rw [← hsame, hseek] at hbehind
    exact ⟨hcontent, hplain, hposition, .inl ⟨f, hf, hfile⟩,
      ⟨f, rest, hf, hrest, Option.some_inj.1 hbehind, hlines, hpartial⟩,
      fun h => absurd h Nat.one_ne_zero, h.zStr_eq⟩
  · simp only [hf]
    exact ⟨hcontent, hplain, hposition, .inl ⟨_, rfl, hfile⟩,
      ⟨_, terminated ls, rfl, hseek, by simp, by simp, by simp⟩, fun h => absurd h Nat.one_ne_zero,
      h.zStr_eq⟩

/-! ## What was handed over -/

/-- The lines that were handed over are those that were executed, and the one in execution. -/
def Executed (s : VirtualSd) : Prop :=
  s.failures = 0 → s.executed = s.completed ++ s.workTimer.inCommand

namespace Executed

theorem mono (h : s.Executed) {t : VirtualSd} (hscripts : t.scripts = s.scripts)
    (hcompleted : t.completed = s.completed) (hfailures : t.failures = s.failures)
    (hwork : t.workTimer.inCommand = s.workTimer.inCommand) : t.Executed := by
  intro hfail
  unfold VirtualSd.executed
  rw [hscripts, hcompleted, hwork]
  exact h (hfailures ▸ hfail)

theorem doPause (h : s.Executed) : s.doPause.Executed := by
  unfold VirtualSd.doPause
  split
  · exact h.mono rfl rfl rfl rfl
  · exact h

theorem doResume (h : s.Executed) {t : VirtualSd} (ht : s.doResume = some t) : t.Executed := by
  unfold VirtualSd.doResume at ht
  split_ifs at ht with hactive
  obtain rfl := Option.some_inj.1 ht
  have hidle : s.workTimer = .idle := by simpa [isActive] using hactive
  exact h.mono rfl rfl rfl (by rw [hidle]; rfl)

theorem workHandler (h : s.Executed) (hreg : s.workTimer = .registered) :
    s.workHandler.Executed := by
  cases hf : s.currentFile with
  | none =>
    simp only [VirtualSd.workHandler, hf]
    exact h.mono rfl rfl rfl (by rw [hreg]; rfl)
  | some f =>
    simp only [VirtualSd.workHandler, hf]
    exact h.mono rfl rfl rfl (by rw [hreg]; rfl)

theorem readData (h : s.Executed) (hwork : s.workTimer.inCommand = []) (partialInput : Text)
    (count : ℕ) (recovery : Option ℕ) : (s.readData partialInput count recovery).Executed := by
  cases hf : s.currentFile with
  | none =>
    simp only [VirtualSd.readData, hf]
    exact h.mono rfl rfl rfl hwork.symm
  | some f =>
    cases hrest : f.rest with
    | none =>
      simp only [VirtualSd.readData, hf, hrest]
      exact h.mono rfl rfl rfl hwork.symm
    | some rest =>
      simp only [VirtualSd.readData, hf, hrest]
      split_ifs <;> exact h.mono rfl rfl rfl hwork.symm

theorem workStep (h : s.Executed) (count : ℕ) (recovery : Option ℕ) :
    (s.workStep count recovery).Executed := by
  cases hw : s.workTimer with
  | running file lines partialInput =>
    have hnone : s.workTimer.inCommand = [] := by rw [hw]; rfl
    simp only [VirtualSd.workStep, hw]
    split_ifs
    · exact h.mono rfl rfl rfl hnone.symm
    · cases lines with
      | nil => exact h.readData hnone partialInput count recovery
      | cons line lines =>
        intro hfail
        have hexec : s.scripts.map Prod.snd = s.completed ++ s.workTimer.inCommand := h hfail
        show (s.scripts ++ [(file, line)]).map Prod.snd = s.completed ++ [line]
        rw [List.map_append, hexec, hnone, List.append_nil]
        rfl
  | _ =>
    simp only [VirtualSd.workStep, hw]
    exact h

theorem commandDone (h : s.Executed) {file next : ℕ} {line partialInput : Text} {lines : List Text}
    (hw : s.workTimer = .command file line lines partialInput next) (position : ℕ) :
    (({ s with nextFilePosition := position } : VirtualSd).commandDone false).Executed ∧
      (({ s with nextFilePosition := position } : VirtualSd).commandDone false).completed =
        s.completed ++ [line] := by
  have hexec : s.failures = 0 → s.executed = s.completed ++ [line] := by
    intro hfail
    have hexec := h hfail
    rwa [hw] at hexec
  simp only [VirtualSd.commandDone, hw, Bool.false_eq_true, if_false]
  split_ifs
  · exact ⟨fun hfail => (hexec hfail).trans (List.append_nil _).symm, rfl⟩
  · cases s.currentFile <;>
      exact ⟨fun hfail => (hexec hfail).trans (List.append_nil _).symm, rfl⟩

end Executed

theorem failures_le_commandDone (s : VirtualSd) (failed : Bool) :
    s.failures ≤ (s.commandDone failed).failures := by
  unfold commandDone
  split
  · dsimp only
    split_ifs
    · exact Nat.le_succ _
    · exact le_rfl
    · split <;> exact le_rfl
  · exact le_rfl

/-- Neither the lines that were executed nor the failures change. -/
def SameDone (s t : VirtualSd) : Prop :=
  t.completed = s.completed ∧ t.failures = s.failures

theorem sameDone_doPause (s : VirtualSd) : s.SameDone s.doPause := by
  unfold doPause
  split <;> exact ⟨rfl, rfl⟩

theorem sameDone_doResume {t : VirtualSd} (ht : s.doResume = some t) : s.SameDone t := by
  unfold doResume at ht
  split_ifs at ht
  obtain rfl := Option.some_inj.1 ht
  exact ⟨rfl, rfl⟩

theorem sameDone_workHandler (s : VirtualSd) : s.SameDone s.workHandler := by
  unfold workHandler
  split <;> exact ⟨rfl, rfl⟩

theorem sameDone_readData (s : VirtualSd) (partialInput : Text) (count : ℕ)
    (recovery : Option ℕ) : s.SameDone (s.readData partialInput count recovery) := by
  unfold readData
  split
  · exact ⟨rfl, rfl⟩
  · split
    · exact ⟨rfl, rfl⟩
    · dsimp only
      split_ifs <;> exact ⟨rfl, rfl⟩

theorem sameDone_workStep (s : VirtualSd) (count : ℕ) (recovery : Option ℕ) :
    s.SameDone (s.workStep count recovery) := by
  unfold workStep
  split
  · split_ifs
    · exact ⟨rfl, rfl⟩
    · split
      · exact sameDone_readData s _ count recovery
      · exact ⟨rfl, rfl⟩
  · exact ⟨rfl, rfl⟩

theorem failures_commandDone (s : VirtualSd) (hcmd : s.cmdFromSd = true) :
    (s.commandDone true).failures ≠ 0 := by
  cases hw : s.workTimer with
  | command file line lines partialInput next =>
    simp only [VirtualSd.commandDone, hw, if_true]
    exact Nat.succ_ne_zero _
  | _ => simp [cmdFromSd, hw] at hcmd

end VirtualSd

/-! ## The program of a file -/

namespace SDCardLoop

variable {parse : Text → LoopCommand} {p : LoopProgram Text}

/-- An entry of the stack is at the place of this code. -/
def EntryAt (all : List Text) (e : ℕ × ℕ) (e' : ℕ × List Text) : Prop :=
  e.1 = e'.1 ∧ ∃ before, before ++ e'.2 = all ∧ e.2 = (terminated before).bytes

/-- The worker is at the code that is left behind `before`, from which `r` is executed. -/
structure Looping (parse : Text → LoopCommand) (p : LoopProgram Text) (s : SDCardLoop)
    (before code r : List Text) : Prop where
  split : before ++ code = p.lines
  printing : VirtualSd.Printing (terminated p.lines) (s.sd.relabel before) (terminated code)
  rest : ∃ stack, LoopProgram.Rest parse code stack r ∧
    List.Forall₂ (EntryAt p.lines) s.loopStack stack
  completed : s.sd.completed ++ r = p.expand
  executed : s.sd.Executed

/-- The code begins with the line that is being executed. -/
theorem eq_cons_of_terminated {code : List Text} (hcode : ∀ l ∈ code, '\n' ∉ l) {line t : Text}
    (hline : '\n' ∉ line) (h : terminated code = line ++ ['\n'] ++ t) :
    ∃ code', code = line :: code' := by
  have hsplit := splitOn_terminated hcode []
  have hline : (terminated [line] ++ t).splitOn '\n' = [line] ++ t.splitOn '\n' :=
    splitOn_terminated (by simpa using hline) t
  have heq : terminated code ++ [] = terminated [line] ++ t := by
    rw [List.append_nil, h]
    simp [terminated]
  rw [heq, hline] at hsplit
  cases code with
  | nil =>
    have hlength := congrArg List.length hsplit
    have hpos := List.length_pos_iff.2 (List.splitOn_ne_nil '\n' t)
    simp at hlength
  | cons l code =>
    obtain ⟨rfl, -⟩ := List.cons.inj hsplit
    exact ⟨code, rfl⟩

namespace Looping

variable {s : SDCardLoop} {before code r : List Text}

/-- The worker goes on in its place. -/
theorem mono (h : Looping parse p s before code r) {t : VirtualSd} (hsame : s.sd.SameDone t)
    (hprinting : VirtualSd.Printing (terminated p.lines) (t.relabel before) (terminated code))
    (hexecuted : t.Executed) : Looping parse p { s with sd := t } before code r :=
  ⟨h.split, hprinting, h.rest, hsame.1 ▸ h.completed, hexecuted⟩

end Looping

/-- From the start. -/
theorem looping_init (hp : p.WellNested parse) {s : SDCardLoop}
    (h : (system parse (terminated p.lines)).init s) :
    Looping parse p s [] p.lines p.expand := by
  obtain ⟨hsd, hstack⟩ := h
  have hprinting := VirtualSd.printing_init hsd
  obtain ⟨s₀, hidle, hscripts, hcompleted, hfailures, -, hload⟩ := hsd
  have hidle : s₀.workTimer = .idle := by simpa [VirtualSd.isActive] using hidle
  unfold VirtualSd.closeFile VirtualSd.loadFile at hload
  obtain hload := Option.some_inj.1 hload
  have hcompleted : s.sd.completed = [] := by rw [← hload]; exact hcompleted
  have hscripts : s.sd.scripts = [] := by rw [← hload]; exact hscripts
  have hidle : s.sd.workTimer = .idle := by rw [← hload]; exact hidle
  refine ⟨rfl, ?_, ⟨[], LoopProgram.rest_lines hp, hstack ▸ .nil⟩, by rw [hcompleted]; rfl, ?_⟩
  · exact ⟨rfl, by simp [VirtualSd.relabel], by rw [← hload]; rfl, hprinting.file,
      hprinting.inHand, fun h => absurd h Nat.one_ne_zero, hprinting.zStr_eq⟩
  · intro _
    simp [VirtualSd.executed, hscripts, hcompleted, hidle, Work.inCommand]

/-- A line about the loops goes on at the code that is left, and keeps the entries of the stack. -/
theorem execute_entryAt {all before code : List Text} {stack : List (ℕ × List Text)}
    {s : SDCardLoop} (hsplit : before ++ code = all)
    (hnext : s.sd.nextFilePosition = (terminated before).bytes)
    (hstack : List.Forall₂ (EntryAt all) s.loopStack stack) (c : LoopCommand) :
    ∃ after, after ++ (LoopProgram.execute code stack c).1 = all ∧
      (s.execute c).sd = { s.sd with nextFilePosition := (terminated after).bytes } ∧
      List.Forall₂ (EntryAt all) (s.execute c).loopStack (LoopProgram.execute code stack c).2 := by
  have hsame : s.sd = { s.sd with nextFilePosition := (terminated before).bytes } := by
    rw [← hnext]
  cases c with
  | other => exact ⟨before, hsplit, hsame, hstack⟩
  | loopBegin count =>
    exact ⟨before, hsplit, hsame, .cons ⟨rfl, before, hsplit, hnext⟩ hstack⟩
  | loopEnd =>
    obtain ⟨sd, loopStack⟩ := s
    cases hstack with
    | nil => exact ⟨before, hsplit, hsame, .nil⟩
    | cons hentry hstack =>
      rename_i e e' entries entries'
      obtain ⟨n, position⟩ := e
      obtain ⟨n', start⟩ := e'
      obtain ⟨hcount, front, hfront, hposition⟩ := hentry
      obtain rfl : n = n' := hcount
      obtain rfl : position = (terminated front).bytes := hposition
      simp only [execute, loopEnd, LoopProgram.execute]
      split_ifs
      · exact ⟨front, hfront, rfl, .cons ⟨rfl, front, hfront, rfl⟩ hstack⟩
      · exact ⟨before, hsplit, hsame, hstack⟩
      · exact ⟨front, hfront, rfl, .cons ⟨rfl, front, hfront, rfl⟩ hstack⟩

/-- The line in execution is the next one of the expansion, and behind it the place is kept. -/
theorem Looping.done (hplain : ∀ l ∈ p.lines, '\n' ∉ l) {s : SDCardLoop}
    {before code r : List Text} (h : Looping parse p s before code r)
    (hcmd : s.sd.cmdFromSd = true) :
    ∃ after code' r', Looping parse p (s.commandDone parse false) after code' r' := by
  cases hw : s.sd.workTimer with
  | command file line lines partialInput next =>
    have hwork := h.printing.inHand
    rw [show (s.sd.relabel before).workTimer = s.sd.workTimer from rfl, hw] at hwork
    obtain ⟨f, rest, -, -, htail, -, -, hline, hnext, hposition⟩ := hwork
    have hcode : ∀ l ∈ code, '\n' ∉ l := fun l hl =>
      hplain l (h.split ▸ List.mem_append_right before hl)
    obtain ⟨code', rfl⟩ := eq_cons_of_terminated hcode hline htail
    obtain ⟨stack, hrest, hstack⟩ := h.rest
    obtain ⟨r', rfl, hnext'⟩ := hrest.execute
    have hsplit : (before ++ [line]) ++ code' = p.lines := by
      rw [List.append_assoc]
      exact h.split
    have hbytes : s.sd.nextFilePosition = (terminated (before ++ [line])).bytes := by
      have hposition : s.sd.nextFilePosition = next := hposition
      rw [hposition, hnext, h.printing.position, terminated_concat, Text.bytes_append,
        Text.bytes_append, Text.bytes_newline, Nat.add_assoc]
      rfl
    obtain ⟨after, hafter, hsd, hstack⟩ := execute_entryAt hsplit hbytes hstack (parse line)
    obtain ⟨hexecuted, hcompleted⟩ := h.executed.commandDone hw (terminated after).bytes
    have hnewline : ∀ l ∈ after, '\n' ∉ l := fun l hl =>
      hplain l (hafter ▸ List.mem_append_left _ hl)
    have hdone : s.commandDone parse false = { s.execute (parse line) with
        sd := ({ s.sd with nextFilePosition := (terminated after).bytes } :
          VirtualSd).commandDone false } := by
      simp only [commandDone, hw, Bool.false_eq_true, if_false, hsd]
    rw [hdone]
    refine ⟨after, _, r', hafter, ?_, ⟨_, hnext', hstack⟩, ?_, hexecuted⟩
    · exact VirtualSd.printing_commandDone h.printing hw
        (by rw [← hafter]; simp [terminated]) hnewline rfl
    · show VirtualSd.completed _ ++ r' = p.expand
      rw [hcompleted, ← h.completed]
      simp
  | _ => simp [VirtualSd.cmdFromSd, hw] at hcmd

theorem commandDone_failed {s : SDCardLoop} (hcmd : s.sd.cmdFromSd = true) :
    (s.commandDone parse true).sd = s.sd.commandDone true := by
  cases hw : s.sd.workTimer with
  | command file line lines partialInput next => simp only [commandDone, hw, if_true]
  | _ => simp [VirtualSd.cmdFromSd, hw] at hcmd

theorem sd_failures_execute (s : SDCardLoop) (c : LoopCommand) :
    (s.execute c).sd.failures = s.sd.failures := by
  cases c with
  | loopBegin count => rfl
  | loopEnd =>
    simp only [execute, loopEnd]
    split
    · rfl
    · split_ifs <;> rfl
  | other => rfl

theorem failures_of_commandDone {s : SDCardLoop} (hcmd : s.sd.cmdFromSd = true)
    (h : (s.commandDone parse false).sd.failures = 0) : s.sd.failures = 0 := by
  cases hw : s.sd.workTimer with
  | command file line lines partialInput next =>
    have hle := (s.execute (parse line)).sd.failures_le_commandDone false
    simp only [commandDone, hw, Bool.false_eq_true, if_false] at h
    rw [h, sd_failures_execute] at hle
    exact Nat.le_zero.1 hle
  | _ => simp [VirtualSd.cmdFromSd, hw] at hcmd

/-- While no line fails, every state of the print is at some place of the program. -/
theorem exists_looping (hp : p.WellNested parse) (hplain : ∀ l ∈ p.lines, '\n' ∉ l)
    {s : SDCardLoop} (h : (system parse (terminated p.lines)).Reachable s)
    (hfail : s.sd.failures = 0) : ∃ before code r, Looping parse p s before code r := by
  refine h.invariant
    (I := fun s => s.sd.failures = 0 → ∃ before code r, Looping parse p s before code r)
    (fun s hs _ => ⟨[], p.lines, p.expand, looping_init hp hs⟩) ?_ hfail
  clear h hfail s
  rintro s a t ih - ht hfail
  cases a with
  | pause =>
    obtain rfl := Option.some_inj.1 ht
    have hsame := s.sd.sameDone_doPause
    obtain ⟨before, code, r, hs⟩ := ih (hsame.2 ▸ hfail)
    refine ⟨before, code, r, hs.mono hsame ?_ hs.executed.doPause⟩
    rw [← VirtualSd.relabel_doPause]
    exact hs.printing.doPause
  | resume =>
    obtain ⟨sd, hsd, rfl⟩ := Option.map_eq_some_iff.1 ht
    have hsame := VirtualSd.sameDone_doResume hsd
    obtain ⟨before, code, r, hs⟩ := ih (hsame.2 ▸ hfail)
    refine ⟨before, code, r, hs.mono hsame (hs.printing.doResume ?_) (hs.executed.doResume hsd)⟩
    rw [VirtualSd.relabel_doResume, show s.sd.doResume = some sd from hsd]
    rfl
  | begin =>
    obtain ⟨sd, hsd, rfl⟩ := Option.map_eq_some_iff.1 ht
    obtain ⟨hreg, hsd⟩ := Option.ite_none_right_eq_some.1 hsd
    obtain rfl := Option.some_inj.1 hsd
    have hsame := s.sd.sameDone_workHandler
    obtain ⟨before, code, r, hs⟩ := ih (hsame.2 ▸ hfail)
    refine ⟨before, code, r, hs.mono hsame ?_ (hs.executed.workHandler hreg)⟩
    rw [← VirtualSd.relabel_workHandler]
    exact hs.printing.workHandler hreg
  | turn count recovery =>
    obtain ⟨sd, hsd, rfl⟩ := Option.map_eq_some_iff.1 ht
    obtain ⟨⟨-, -, -, hcount, -⟩, hsd⟩ := Option.ite_none_right_eq_some.1 hsd
    obtain rfl := Option.some_inj.1 hsd
    have hsame := s.sd.sameDone_workStep count recovery
    obtain ⟨before, code, r, hs⟩ := ih (hsame.2 ▸ hfail)
    refine ⟨before, code, r, hs.mono hsame ?_ (hs.executed.workStep count recovery)⟩
    rw [← VirtualSd.relabel_workStep]
    exact hs.printing.workStep hcount recovery
  | done failed =>
    obtain ⟨hcmd, ht⟩ := Option.ite_none_right_eq_some.1 ht
    obtain rfl := Option.some_inj.1 ht
    cases failed with
    | true =>
      rw [commandDone_failed hcmd] at hfail
      exact absurd hfail (s.sd.failures_commandDone hcmd)
    | false =>
      obtain ⟨before, code, r, hs⟩ := ih (failures_of_commandDone hcmd hfail)
      exact hs.done hplain hcmd
  | setFilePosition position => exact absurd ht nofun

namespace Looping

variable {s : SDCardLoop} {before code r : List Text}

/-- The code without newlines in its lines. -/
theorem plain_code (h : Looping parse p s before code r) (hplain : ∀ l ∈ p.lines, '\n' ∉ l) :
    ∀ l ∈ code, '\n' ∉ l :=
  fun l hl => hplain l (h.split ▸ List.mem_append_right before hl)

/-- The line in execution is where the expansion goes on. -/
theorem inCommand_prefix (h : Looping parse p s before code r)
    (hplain : ∀ l ∈ p.lines, '\n' ∉ l) : s.sd.workTimer.inCommand <+: r := by
  cases hw : s.sd.workTimer with
  | command file line lines partialInput next =>
    have hwork := h.printing.inHand
    rw [show (s.sd.relabel before).workTimer = s.sd.workTimer from rfl, hw] at hwork
    obtain ⟨f, rest, -, -, htail, -, -, hline, -⟩ := hwork
    obtain ⟨code', rfl⟩ := eq_cons_of_terminated (h.plain_code hplain) hline htail
    obtain ⟨stack, hrest, -⟩ := h.rest
    obtain ⟨r', rfl, -⟩ := hrest.execute
    exact ⟨r', rfl⟩
  | _ => exact List.nil_prefix

/-- At the end of the file, nothing is left. -/
theorem of_finished (h : Looping parse p s before code r)
    (hnone : s.sd.currentFile = none) : s.loopStack = [] ∧ r = [] := by
  have hcode : code = [] := by
    rcases h.printing.file with ⟨f, hf, -⟩ | ⟨-, htail⟩
    · exact absurd (hf.symm.trans hnone) nofun
    · cases code with
      | nil => rfl
      | cons l code => simp [terminated] at htail
  obtain ⟨stack, hrest, hstack⟩ := h.rest
  rw [hcode] at hrest
  obtain ⟨rfl, rfl⟩ := hrest.of_nil
  exact ⟨List.forall₂_nil_right_iff.1 hstack, rfl⟩

end Looping

/-- While a well nested file is printed and no line fails, the lines are executed in the order of
the expansion, and between two lines the file position is where the next of them starts in the
file. At the end of the file all of them have been executed and no loop is left. -/
theorem expanded_of_reachable (hp : p.WellNested parse) (hplain : ∀ l ∈ p.lines, '\n' ∉ l)
    {s : SDCardLoop} (h : (system parse (terminated p.lines)).Reachable s)
    (hfail : s.sd.failures = 0) :
    (∃ before code, before ++ code = p.lines ∧
      s.sd.filePosition = (terminated before).bytes ∧
      code.head? = (p.expand.drop s.sd.completed.length).head?) ∧
    s.sd.executed = s.sd.completed ++ s.sd.workTimer.inCommand ∧ s.sd.executed <+: p.expand ∧
    (s.sd.currentFile = none → s.sd.executed = p.expand ∧ s.loopStack = [] ∧
      s.sd.executed.filter (fun l => parse l = .other) = p.unroll) := by
  obtain ⟨before, code, r, hs⟩ := exists_looping hp hplain h hfail
  obtain ⟨stack, hrest, -⟩ := hs.rest
  have hexecuted := hs.executed hfail
  have hdrop : p.expand.drop s.sd.completed.length = r := by
    rw [← hs.completed, List.drop_left]
  refine ⟨⟨before, code, hs.split, hs.printing.position, ?_⟩, hexecuted, ?_, fun hnone => ?_⟩
  · rw [hdrop, hrest.head_eq]
  · rw [hexecuted, ← hs.completed]
    exact (List.prefix_append_right_inj _).2 (hs.inCommand_prefix hplain)
  · obtain ⟨hstack, rfl⟩ := hs.of_finished hnone
    have hall : s.sd.executed = p.expand := by
      rw [hexecuted, ← hs.completed, List.prefix_nil.1 (hs.inCommand_prefix hplain)]
    exact ⟨hall, hstack, hall ▸ LoopProgram.filter_expand hp⟩

/-- The commands of a file in which a line `[` begins a loop that is run twice. -/
def brackets : Text → LoopCommand
  | ['['] => .loopBegin 2
  | [']'] => .loopEnd
  | _ => .other

/-- A loop in a loop. -/
def nested : LoopProgram Text :=
  .loop ['['] 2 (.line ['a'] (.loop ['['] 2 (.line ['b'] .nil) [']'] .nil)) [']'] .nil

/-- A block is read, and so many lines are executed. -/
def block (lines : ℕ) : List SdEvent :=
  .turn 8192 none :: (List.replicate lines [.turn 8192 none, .done false]).flatten

/-- A print of nested loops that is paused in its first line. -/
theorem expanded_of_reachable_nested :
    ∃ s, (system brackets (terminated nested.lines)).Reachable s ∧ s.sd.currentFile = none ∧
      s.sd.executed.filter (fun l => brackets l = .other) =
        [['a'], ['b'], ['b'], ['a'], ['b'], ['b']] ∧ s.loopStack = [] := by
  have hrun : ((system brackets (terminated nested.lines)).run
      ⟨VirtualSd.selected (terminated nested.lines), []⟩
      ([.resume, .begin, .turn 8192 none, .turn 8192 none, .pause, .done false, .turn 8192 none,
        .resume, .begin] ++ (block 4 ++ (block 3 ++ (block 4 ++ (block 3 ++ block 0)))))).map
      (fun s => (s.sd.currentFile.isNone, s.sd.failures)) = some (true, 0) := by decide +kernel
  obtain ⟨s, hs, heq⟩ := Option.map_eq_some_iff.1 hrun
  obtain ⟨hnone, hfail⟩ := Prod.mk.inj heq
  have hnone : s.sd.currentFile = none := Option.isNone_iff_eq_none.1 hnone
  have hreach : (system brackets (terminated nested.lines)).Reachable s :=
    System.Reachable.run (.init ⟨VirtualSd.init_selected _, rfl⟩) hs
  have hp : nested.WellNested brackets := by decide +kernel
  obtain ⟨-, -, -, hend⟩ := expanded_of_reachable hp (by decide +kernel) hreach hfail
  obtain ⟨-, hstack, hunroll⟩ := hend hnone
  exact ⟨s, hreach, hnone, hunroll.trans (by decide +kernel), hstack⟩

end SDCardLoop

end Thinker
