import Thinker.StopHeating

/-!
# A cancel affects only the print it cancels

A file that was closed by a cancel is not read again, and no line of it is handed over. The flags
are 0 in every line of a print that was not cancelled, if they are 0 when the line is handed over
or x is not homed then.
-/

namespace Thinker

/-! ## The sdcard -/

namespace VirtualSd

variable {v v' : VirtualSd}

/-- The number of the file whose lines the worker has in hand. -/
def activeFile (v : VirtualSd) : Option ℕ :=
  match v.workTimer with
  | .running file _ _ | .command file _ _ _ _ => some file
  | _ => none

/-- The number of the file that is open. -/
def fileNumber (v : VirtualSd) : Option ℕ :=
  v.currentFile.map SdFile.number

theorem isActive_of_activeFile {n : ℕ} (h : v.activeFile = some n) : v.isActive = true := by
  unfold activeFile at h
  split at h <;> simp_all [isActive]

/-- A change of the sdcard that the worker and its file do not see. -/
structure Quiet (v v' : VirtualSd) : Prop where
  fileNumber : v'.fileNumber = v.fileNumber
  loaded : v'.loaded = v.loaded
  scripts : v'.scripts = v.scripts
  workTimer : v'.workTimer = v.workTimer
  mustPauseWork : v.mustPauseWork = true → v'.mustPauseWork = true

theorem Quiet.refl (v : VirtualSd) : Quiet v v :=
  ⟨rfl, rfl, rfl, rfl, id⟩

theorem Quiet.trans {v'' : VirtualSd} (h : Quiet v v') (h' : Quiet v' v'') : Quiet v v'' :=
  ⟨h'.fileNumber.trans h.fileNumber, h'.loaded.trans h.loaded, h'.scripts.trans h.scripts,
    h'.workTimer.trans h.workTimer, h'.mustPauseWork ∘ h.mustPauseWork⟩

theorem Quiet.isActive (h : Quiet v v') : v'.isActive = v.isActive := by
  simp [VirtualSd.isActive, h.workTimer]

theorem Quiet.activeFile (h : Quiet v v') : v'.activeFile = v.activeFile := by
  simp [VirtualSd.activeFile, h.workTimer]

theorem quiet_doPause (v : VirtualSd) : Quiet v v.doPause := by
  unfold doPause
  split_ifs
  · exact ⟨rfl, rfl, rfl, rfl, fun _ => rfl⟩
  · exact Quiet.refl v

theorem mustPauseWork_doPause (h : v.isActive = true) : v.doPause.mustPauseWork = true := by
  rw [doPause, if_pos h]

/-- A change from a sdcard whose worker is off : it may be started, and the file may be closed or
a new one loaded. -/
structure FromIdle (v v' : VirtualSd) : Prop where
  isActive : v.isActive = false
  activeFile : v'.activeFile = none
  scripts : v'.scripts = v.scripts
  loaded : v.loaded ≤ v'.loaded
  fileNumber : ∀ n, v'.fileNumber = some n →
    v.fileNumber = some n ∨ (v.loaded ≤ n ∧ n < v'.loaded)

theorem FromIdle.trans_quiet {v'' : VirtualSd} (h : FromIdle v v') (h' : Quiet v' v'') :
    FromIdle v v'' where
  isActive := h.isActive
  activeFile := h'.activeFile.trans h.activeFile
  scripts := h'.scripts.trans h.scripts
  loaded := h'.loaded ▸ h.loaded
  fileNumber n hn := h'.loaded ▸ h.fileNumber n (h'.fileNumber ▸ hn)

theorem FromIdle.trans {v'' : VirtualSd} (h : FromIdle v v') (h' : FromIdle v' v'') :
    FromIdle v v'' where
  isActive := h.isActive
  activeFile := h'.activeFile
  scripts := h'.scripts.trans h.scripts
  loaded := h.loaded.trans h'.loaded
  fileNumber n hn := by
    rcases h'.fileNumber n hn with hn | ⟨hle, hlt⟩
    · exact (h.fileNumber n hn).imp_right fun hn => ⟨hn.1, hn.2.trans_le h'.loaded⟩
    · exact Or.inr ⟨h.loaded.trans hle, hlt⟩

theorem activeFile_eq_none (h : v.isActive = false) : v.activeFile = none := by
  by_contra hne
  obtain ⟨n, hn⟩ := Option.ne_none_iff_exists'.1 hne
  rw [isActive_of_activeFile hn] at h
  cases h

theorem cmdFromSd_eq_false (h : v.activeFile = none) : v.cmdFromSd = false := by
  unfold activeFile at h
  unfold cmdFromSd
  split at h <;> simp_all

theorem Quiet.fromIdle (h : Quiet v v') (hidle : v.isActive = false) : FromIdle v v' where
  isActive := hidle
  activeFile := h.activeFile.trans (activeFile_eq_none hidle)
  scripts := h.scripts
  loaded := h.loaded.ge
  fileNumber _ hn := Or.inl (h.fileNumber ▸ hn)

theorem fromIdle_closeFile (hidle : v.isActive = false) : FromIdle v v.closeFile where
  isActive := hidle
  activeFile := activeFile_eq_none (v := v) hidle
  scripts := rfl
  loaded := le_rfl
  fileNumber _ hn := by cases hn

theorem fromIdle_doResume (h : v.doResume = some v') : FromIdle v v' := by
  unfold doResume at h
  split_ifs at h with hactive
  obtain rfl := Option.some_inj.1 h
  exact ⟨by simpa using hactive, rfl, rfl, le_rfl, fun n hn => Or.inl hn⟩

theorem fromIdle_loadFile (hidle : v.isActive = false) {content : Text} {z : Bool}
    {pose : Option ℕ} (h : v.loadFile content z pose = some v') :
    FromIdle v v' ∧ v'.isActive = false := by
  have hnone := activeFile_eq_none hidle
  unfold loadFile at h
  dsimp only at h
  split_ifs at h
  · obtain ⟨position, -, rfl⟩ := Option.map_eq_some_iff.1 h
    refine ⟨⟨hidle, hnone, rfl, Nat.le_succ _, fun n hn => Or.inr ?_⟩, hidle⟩
    obtain rfl : v.loaded = n := Option.some_inj.1 hn
    exact ⟨le_rfl, Nat.lt_succ_self _⟩
  · obtain rfl := Option.some_inj.1 h
    refine ⟨⟨hidle, hnone, rfl, Nat.le_succ _, fun n hn => Or.inr ?_⟩, hidle⟩
    obtain rfl : v.loaded = n := Option.some_inj.1 hn
    exact ⟨le_rfl, Nat.lt_succ_self _⟩

/-- The worker goes on with a file that is open, or that was closed by a cancel, and then it has
to stop. -/
structure FileInv (v : VirtualSd) (cancelled : List (ℕ × ℕ)) : Prop where
  number : ∀ n, v.fileNumber = some n → n < v.loaded
  closed : ∀ n len, (n, len) ∈ cancelled → n < v.loaded ∧ v.fileNumber ≠ some n ∧
    len ≤ v.scripts.length ∧ ∀ entry ∈ v.scripts.drop len, entry.1 ≠ n
  onFile : ∀ n, v.activeFile = some n → v.fileNumber = some n ∨
    (v.fileNumber = none ∧ n ∈ cancelled.map Prod.fst ∧ v.mustPauseWork = true)

variable {cancelled : List (ℕ × ℕ)}

theorem FileInv.quiet (hv : FileInv v cancelled) (h : Quiet v v') : FileInv v' cancelled where
  number n hn := h.loaded ▸ hv.number n (h.fileNumber ▸ hn)
  closed n len hn := by
    rw [h.loaded, h.fileNumber, h.scripts]
    exact hv.closed n len hn
  onFile n hn := by
    rw [h.fileNumber]
    refine (hv.onFile n (h.activeFile ▸ hn)).imp_right fun hclosed => ?_
    exact ⟨hclosed.1, hclosed.2.1, h.mustPauseWork hclosed.2.2⟩

theorem FileInv.fromIdle (hv : FileInv v cancelled) (h : FromIdle v v') :
    FileInv v' cancelled where
  number n hn := by
    rcases h.fileNumber n hn with hn | hn
    · exact (hv.number n hn).trans_le h.loaded
    · exact hn.2
  closed n len hn := by
    obtain ⟨hloaded, hfile, hlen, hdrop⟩ := hv.closed n len hn
    refine ⟨hloaded.trans_le h.loaded, fun hopen => ?_, h.scripts ▸ hlen, h.scripts ▸ hdrop⟩
    rcases h.fileNumber n hopen with hn | hn
    · exact hfile hn
    · omega
  onFile n hn := by
    rw [h.activeFile] at hn
    cases hn

/-- The file is closed, and that is noted, while the worker is off or has to stop. -/
theorem FileInv.close (hv : FileInv v cancelled)
    (hpause : v.isActive = true → v.mustPauseWork = true) :
    FileInv v.closeFile (cancelled ++ v.fileNumber.toList.map fun n => (n, v.scripts.length)) where
  number n hn := by simp [fileNumber, closeFile] at hn
  closed n len hn := by
    refine ⟨?_, by simp [fileNumber, closeFile], ?_⟩
    · rcases List.mem_append.1 hn with hn | hn
      · exact (hv.closed n len hn).1
      · obtain ⟨m, hm, heq⟩ := List.mem_map.1 hn
        obtain ⟨rfl, -⟩ := Prod.mk.inj heq
        exact hv.number m (Option.mem_toList.1 hm)
    · rcases List.mem_append.1 hn with hn | hn
      · exact (hv.closed n len hn).2.2
      · obtain ⟨m, -, heq⟩ := List.mem_map.1 hn
        obtain ⟨-, rfl⟩ := Prod.mk.inj heq
        simp [closeFile]
  onFile n hn := by
    have hactive : v.activeFile = some n := hn
    refine Or.inr ⟨rfl, ?_, hpause (isActive_of_activeFile hactive)⟩
    rw [List.map_append, List.mem_append]
    rcases hv.onFile n hactive with hfile | ⟨-, hn, -⟩
    · exact Or.inr (by simp [hfile])
    · exact Or.inl hn

/-- The worker goes on with the file that is open, or stops. -/
theorem FileInv.work (hv : FileInv v cancelled)
    (hfile : v'.fileNumber = v.fileNumber ∨ v'.fileNumber = none) (hloaded : v'.loaded = v.loaded)
    (hscripts : v'.scripts = v.scripts)
    (hactive : ∀ n, v'.activeFile = some n → v'.fileNumber = some n) : FileInv v' cancelled where
  number n hn := by
    rcases hfile with hfile | hfile
    · exact hloaded ▸ hv.number n (hfile ▸ hn)
    · rw [hfile] at hn
      cases hn
  closed n len hn := by
    obtain ⟨hlt, hne, hrest⟩ := hv.closed n len hn
    refine ⟨hloaded ▸ hlt, ?_, hscripts ▸ hrest⟩
    rcases hfile with hfile | hfile <;> rw [hfile]
    · exact hne
    · nofun
  onFile n hn := Or.inl (hactive n hn)

theorem FileInv.workHandler (hv : FileInv v cancelled) : FileInv v.workHandler cancelled := by
  unfold VirtualSd.workHandler
  split
  · rename_i hnone
    exact hv.work (Or.inl rfl) rfl rfl nofun
  · rename_i f hf
    have hnumber : v.fileNumber = some f.number := by rw [fileNumber, hf, Option.map_some]
    exact hv.work (Or.inl hnumber.symm) rfl rfl fun n hn => hn

theorem FileInv.readData (hv : FileInv v cancelled) (partialInput : Text) (count : ℕ)
    (recovery : Option ℕ) : FileInv (v.readData partialInput count recovery) cancelled := by
  unfold VirtualSd.readData
  split
  · exact hv.work (Or.inl rfl) rfl rfl nofun
  · rename_i f hf
    have hnumber : v.fileNumber = some f.number := by rw [fileNumber, hf, Option.map_some]
    split
    · exact hv.work (Or.inl rfl) rfl rfl nofun
    · dsimp only
      split_ifs
      all_goals first
        | exact hv.work (Or.inl hnumber.symm) rfl rfl fun _ hn => hn
        | exact hv.work (Or.inl hnumber.symm) rfl rfl fun _ hn => by cases hn
        | exact hv.work (Or.inr rfl) rfl rfl fun _ hn => by cases hn

/-- A turn of the worker. A line is handed over only if nothing has asked the worker to stop. -/
theorem FileInv.workStep (hv : FileInv v cancelled) (count : ℕ) (recovery : Option ℕ) :
    FileInv (v.workStep count recovery) cancelled := by
  unfold VirtualSd.workStep
  split
  · rename_i n lines partialInput hwork
    have hactive : v.activeFile = some n := by rw [activeFile, hwork]
    split_ifs with hpause
    · exact hv.work (Or.inl rfl) rfl rfl nofun
    · split
      · exact hv.readData _ _ _
      · rename_i line lines
        have hnumber : v.fileNumber = some n :=
          (hv.onFile n hactive).resolve_right fun h => hpause h.2.2
        refine ⟨hv.number, fun m len hm => ?_, fun m hm => Or.inl ?_⟩
        · obtain ⟨hlt, hne, hlen, hdrop⟩ := hv.closed m len hm
          refine ⟨hlt, hne, by simp; omega, fun entry hentry => ?_⟩
          rw [List.drop_append_of_le_length hlen, List.mem_append, List.mem_singleton] at hentry
          rcases hentry with hentry | rfl
          · exact hdrop entry hentry
          · exact fun h => hne (h ▸ hnumber)
        · obtain rfl := Option.some_inj.1 (show some n = some m from hm)
          exact hnumber
  · exact hv

theorem mustPauseWork_workStep (v : VirtualSd) (count : ℕ) (recovery : Option ℕ) :
    (v.workStep count recovery).mustPauseWork = v.mustPauseWork := by
  unfold VirtualSd.workStep VirtualSd.readData
  dsimp only
  split
  · split_ifs
    · rfl
    · split
      · split
        · rfl
        · split
          · rfl
          · split_ifs <;> rfl
      · rfl
  · rfl

theorem isActive_of_cmdFromSd (h : v.cmdFromSd = true) : v.isActive = true := by
  by_contra hidle
  rw [cmdFromSd_eq_false (activeFile_eq_none (by simpa using hidle))] at h
  cases h

theorem cmdFromSd_workHandler (v : VirtualSd) : v.workHandler.cmdFromSd = false := by
  unfold VirtualSd.workHandler
  split <;> rfl

theorem mustPauseWork_workHandler (v : VirtualSd) :
    v.workHandler.mustPauseWork = v.mustPauseWork := by
  unfold VirtualSd.workHandler
  split <;> rfl

theorem cmdFromSd_commandDone (failed : Bool) (h : v.cmdFromSd = true) :
    (v.commandDone failed).cmdFromSd = false := by
  unfold VirtualSd.commandDone
  split
  · dsimp only
    split_ifs
    · rfl
    · rfl
    · split <;> rfl
  · rename_i hne
    unfold cmdFromSd at h
    split at h
    · rename_i hwork
      exact absurd hwork (hne _ _ _ _ _)
    · cases h

theorem mustPauseWork_commandDone (v : VirtualSd) (failed : Bool) :
    (v.commandDone failed).mustPauseWork = v.mustPauseWork := by
  unfold VirtualSd.commandDone
  dsimp only
  split
  · split_ifs
    · rfl
    · rfl
    · split <;> rfl
  · rfl

theorem FileInv.commandDone (hv : FileInv v cancelled) (failed : Bool) :
    FileInv (v.commandDone failed) cancelled := by
  unfold VirtualSd.commandDone
  split
  · rename_i n line lines partialInput nextFilePosition hwork
    have hactive : v.activeFile = some n := by rw [activeFile, hwork]
    split_ifs with hfailed
    · exact hv.work (Or.inl rfl) rfl rfl nofun
    · dsimp only
      split_ifs
      · exact ⟨hv.number, hv.closed, fun m hm => hv.onFile m (hactive.trans hm)⟩
      · split
        · exact hv.work (Or.inl rfl) rfl rfl nofun
        · rename_i f hf
          have hnumber : v.fileNumber = some f.number := by
            rw [fileNumber, show v.currentFile = some f from hf, Option.map_some]
          exact hv.work (Or.inl hnumber.symm) rfl rfl fun n hn => hn
  · exact hv

end VirtualSd

/-! ## The commands about the print -/

/-- The state that a command leaves, for now. -/
def SdResult.state : SdResult → PauseResume
  | .returned p | .raised p | .waits p _ => p

theorem SdResult.returned_ne_waits (p p' : PauseResume) (w : SdWait) :
    SdResult.returned p ≠ .waits p' w := by
  intro h
  cases h

theorem SdResult.raised_ne_waits (p p' : PauseResume) (w : SdWait) :
    SdResult.raised p ≠ .waits p' w := by
  intro h
  cases h

/-- The waits behind which the file is closed. -/
def SdWait.Closes (w : SdWait) : Prop :=
  w = .cancelPrint ∨ w = .resetFile

namespace PauseResume

open VirtualSd

variable {p : PauseResume}

/-- What a command does to the sdcard before it closes the file : nothing that the worker and its
file see, or something that the worker is off for. -/
structure Step (p : PauseResume) (r : SdResult) : Prop where
  vSd : Quiet p.vSd r.state.vSd ∨ FromIdle p.vSd r.state.vSd
  /-- A command that waits to close the file has asked the worker to stop. -/
  waits : ∀ p' w, r = .waits p' w → w.Closes → p'.isSdActive = true →
    p'.vSd.mustPauseWork = true

theorem Step.returned {p' : PauseResume} (h : Quiet p.vSd p'.vSd ∨ FromIdle p.vSd p'.vSd) :
    Step p (.returned p') :=
  ⟨h, fun _ _ hw => absurd hw (SdResult.returned_ne_waits _ _ _)⟩

theorem Step.quiet {p' : PauseResume} (h : Quiet p.vSd p'.vSd) : Step p (.returned p') :=
  Step.returned (Or.inl h)

theorem Step.raised {p' : PauseResume} (h : Quiet p.vSd p'.vSd ∨ FromIdle p.vSd p'.vSd) :
    Step p (.raised p') :=
  ⟨h, fun _ _ hw => absurd hw (SdResult.raised_ne_waits _ _ _)⟩

theorem step_raised (p : PauseResume) : Step p (.raised p) :=
  Step.raised (Or.inl (Quiet.refl _))

theorem step_doPause (p : PauseResume) (w : SdWait) :
    Step p (.waits { p with vSd := p.vSd.doPause } w) := by
  refine ⟨Or.inl (quiet_doPause _), fun p' w' h _ hactive => ?_⟩
  obtain ⟨rfl, -⟩ := SdResult.waits.inj h
  refine mustPauseWork_doPause ?_
  rwa [isSdActive, (quiet_doPause p.vSd).isActive] at hactive

theorem step_doResume (p : PauseResume) : Step p p.doResume := by
  unfold doResume
  split
  · exact step_raised p
  · rename_i v hv
    exact Step.returned (Or.inr (fromIdle_doResume hv))

theorem step_sendResumeCommand (p : PauseResume) : Step p p.sendResumeCommand := by
  unfold sendResumeCommand
  split_ifs
  · split
    · exact step_raised p
    · rename_i v hv
      exact Step.returned (Or.inr (fromIdle_doResume hv))
  · exact Step.quiet (Quiet.refl _)

/-- Two steps without a wait. -/
theorem Step.trans {p' : PauseResume} {r : SdResult} (h : Step p (.returned p'))
    (h' : Step p' r) : Step p r := by
  refine ⟨?_, h'.waits⟩
  rcases h.vSd with h | h <;> rcases h'.vSd with h' | h'
  · exact Or.inl (h.trans h')
  · refine Or.inr ((h.fromIdle ?_).trans h')
    rw [← h.isActive]
    exact h'.isActive
  · exact Or.inr (h.trans_quiet h')
  · exact Or.inr (h.trans h')

theorem step_restored (p : PauseResume) (caller : SdCaller) : Step p (p.restored caller) := by
  have hsend := p.step_sendResumeCommand
  unfold restored
  split
  · rename_i hresult
    rw [hresult] at hsend
    exact hsend.trans (step_doResume _)
  · exact hsend

theorem step_loadFile (hidle : p.vSd.isActive = false) (caller : SdCaller) (load : SdLoad) :
    Step p (p.loadFile caller load) := by
  unfold loadFile
  split
  · exact step_raised p
  · split
    · rename_i content z pose _ _
      dsimp only
      have hload : p.vSd.loadFile content false pose ≠ none := by simp [VirtualSd.loadFile]
      obtain ⟨v, hv⟩ := Option.ne_none_iff_exists'.1 hload
      obtain ⟨hfrom, -⟩ := fromIdle_loadFile hidle hv
      rw [hv, Option.getD_some]
      exact Step.raised (Or.inr ⟨hfrom.isActive, hfrom.activeFile, hfrom.scripts, hfrom.loaded,
        hfrom.fileNumber⟩)
    · rename_i content z pose _ v hv
      obtain ⟨hfrom, hoff⟩ := fromIdle_loadFile hidle hv
      have hloaded : Step p (.returned { p with vSd := v }) := Step.returned (Or.inr hfrom)
      dsimp only
      split_ifs
      · refine ⟨Or.inr hfrom, fun p' w h hw => ?_⟩
        obtain ⟨-, rfl⟩ := SdResult.waits.inj h
        rcases hw with hw | hw <;> cases hw
      · exact hloaded.trans (step_doResume _)
      · exact hloaded

theorem step_cmdLoad (p : PauseResume) (caller : SdCaller) (load : SdLoad) :
    Step p (p.cmdLoad caller load) := by
  unfold cmdLoad
  split_ifs with hactive
  · exact step_raised p
  · have hidle : p.vSd.isActive = false := by simpa [isSdActive] using hactive
    have hclose : Step p (.returned { p with vSd := p.vSd.closeFile }) :=
      Step.returned (Or.inr (fromIdle_closeFile hidle))
    exact hclose.trans (step_loadFile (p := { p with vSd := p.vSd.closeFile }) hidle caller load)

theorem quiet_sendPauseCommand (p : PauseResume) : Quiet p.vSd p.sendPauseCommand.vSd := by
  unfold sendPauseCommand
  split_ifs
  · exact Quiet.refl _
  · exact quiet_doPause _
  · exact Quiet.refl _

theorem step_start (p : PauseResume) (cmd : SdCommand) : Step p (cmd.start p) := by
  cases cmd with
  | pause =>
    simp only [SdCommand.start, cmdPause]
    split_ifs
    · exact Step.quiet (Quiet.refl _)
    · exact Step.quiet (quiet_sendPauseCommand p)
    · refine ⟨Or.inl (quiet_sendPauseCommand p), fun p' w h hw => ?_⟩
      obtain ⟨-, rfl⟩ := SdResult.waits.inj h
      rcases hw with hw | hw <;> cases hw
  | resume =>
    simp only [SdCommand.start, cmdResume]
    split_ifs
    · refine ⟨Or.inl (Quiet.refl _), fun p' w h hw => ?_⟩
      obtain ⟨-, rfl⟩ := SdResult.waits.inj h
      rcases hw with hw | hw <;> cases hw
    · exact Step.quiet (Quiet.refl _)
  | clearPause => exact Step.quiet (Quiet.refl _)
  | cancelPrint =>
    simp only [SdCommand.start, cmdCancelPrint]
    split_ifs
    · exact step_doPause p .cancelPrint
    · exact Step.quiet ⟨rfl, rfl, rfl, rfl, id⟩
    · exact Step.quiet (Quiet.refl _)
  | m23 load => exact step_cmdLoad p .m23 load
  | m24 => exact step_doResume p
  | m25 =>
    simp only [SdCommand.start]
    split_ifs
    · exact step_doPause p .m25
    · exact Step.quiet (Quiet.refl _)
  | m26 position =>
    simp only [SdCommand.start, cmdM26]
    split_ifs
    · exact step_raised p
    · exact Step.quiet ⟨rfl, rfl, rfl, rfl, id⟩
  | sdcardResetFile =>
    simp only [SdCommand.start, cmdSdcardResetFile]
    split_ifs
    · exact step_raised p
    · exact step_doPause p .resetFile
    · exact Step.quiet ⟨rfl, rfl, rfl, rfl, id⟩
  | sdcardPrintFile load => exact step_cmdLoad p .sdcardPrintFile load

/-- A wait that is over, behind which no file is closed. -/
theorem step_proceed {w : SdWait} (hw : ¬w.Closes) {raises : Bool} {r : SdResult}
    (h : p.proceed w raises = some r) : Step p r := by
  unfold proceed at h
  split at h
  · obtain rfl := Option.some_inj.1 h
    split_ifs
    · exact step_raised p
    · exact step_restored p _
  · split_ifs at h
    obtain rfl := Option.some_inj.1 h
    exact Step.quiet (Quiet.refl _)
  · split_ifs at h
    obtain rfl := Option.some_inj.1 h
    exact Step.quiet (Quiet.refl _)
  · exact absurd (Or.inl rfl) hw
  · exact absurd (Or.inr rfl) hw

/-- A wait that is over, behind which the file is closed, if it is open. -/
theorem closes_of_proceed {w : SdWait} (hw : w.Closes) {raises : Bool} {r : SdResult}
    (h : p.proceed w raises = some r) : (∀ p' w', r ≠ .waits p' w') ∧
      (r.state.vSd = p.vSd.closeFile ∨ (p.vSd.currentFile = none ∧ r.state.vSd = p.vSd)) := by
  have hclose : p.closeFile = none ∧ p.vSd.currentFile = none ∨
      p.closeFile = some { p with vSd := p.vSd.closeFile } := by
    unfold closeFile
    cases p.vSd.currentFile <;> simp
  rcases hw with rfl | rfl
  all_goals
    unfold proceed at h
    dsimp only at h
    split_ifs at h
    obtain rfl := Option.some_inj.1 h
    rcases hclose with ⟨hclose, hnone⟩ | hclose <;> rw [hclose]
    · exact ⟨SdResult.raised_ne_waits p, Or.inr ⟨hnone, rfl⟩⟩
    · exact ⟨SdResult.returned_ne_waits _, Or.inl rfl⟩

end PauseResume

/-! ## The host -/

namespace ScriptHost

open VirtualSd

variable {s t : ScriptHost} {upper : Text → Text}

/-- The text that cancels is in the first line of a script only where it is the command. -/
def CancelsByCommand (upper : Text → Text) (script : Text) : Prop :=
  cancels script = true → command upper (firstLine script) = "CANCEL_PRINT".toList

/-- A cancel waits for the worker to stop. -/
def AwaitsStop (s : ScriptHost) : Prop :=
  .cancelling ∈ s.clients ∨ ∃ holder w, s.mutex = some (holder, some (.sd w)) ∧ w.Closes

/-- What holds at all times, but for the flags. -/
structure Inv (upper : Text → Text) (s : ScriptHost) : Prop where
  file : FileInv s.vSd s.cancelled
  waits : s.AwaitsStop → s.vSd.isActive = true → s.vSd.mustPauseWork = true
  worker : s.vSd.cmdFromSd = true ↔ ∃ wait, s.mutex = some (.worker, wait)
  byCommand : ∀ script ∈ s.cancelScripts,
    command upper (firstLine script) = "CANCEL_PRINT".toList
  dropped : s.dropped = []

/-- The flags are 0 in the lines of a print that was not cancelled. -/
def FlagsInv (s : ScriptHost) : Prop :=
  ∀ n, s.workFile = some n → s.Cancelled n ∨ s.stopHeating = .cleared

theorem Starts.inv (h : s.Starts) : Inv upper s where
  file := by
    rw [h.vSd, h.cancelled]
    exact ⟨nofun, nofun, nofun⟩
  waits hs := by
    rcases hs with hs | ⟨holder, w, hs, -⟩
    · simp [h.clients] at hs
    · simp [h.mutex] at hs
  worker := by simp [h.vSd, h.mutex, cmdFromSd, start]
  byCommand := by simp [h.cancelScripts]
  dropped := h.dropped

theorem Starts.flagsInv (h : s.Starts) : FlagsInv s :=
  fun _ _ => Or.inr h.stopHeating

theorem activeFile_of_workFile {n : ℕ} (h : s.workFile = some n) :
    s.vSd.activeFile = some n ∧ s.vSd.cmdFromSd = true := by
  unfold workFile at h
  unfold activeFile cmdFromSd
  split at h
  · rename_i hwork
    rw [hwork]
    exact ⟨h, rfl⟩
  · cases h

theorem closes_eq (s : ScriptHost) :
    s.closes = s.vSd.fileNumber.toList.map fun n => (n, s.vSd.scripts.length) := by
  unfold closes fileNumber
  cases s.vSd.currentFile <;> rfl

/-- Another sdcard that the worker and its file see no difference to. -/
theorem Inv.quiet (hs : Inv upper s) (hsd : Quiet s.vSd t.vSd)
    (hawaits : t.AwaitsStop → s.AwaitsStop ∨
      (t.vSd.isActive = true → t.vSd.mustPauseWork = true))
    (hworker : (∃ wait, t.mutex = some (.worker, wait)) ↔ ∃ wait, s.mutex = some (.worker, wait))
    (hcancelled : t.cancelled = s.cancelled) (hdropped : t.dropped = s.dropped)
    (hscripts : ∀ script ∈ t.cancelScripts, script ∈ s.cancelScripts ∨
      command upper (firstLine script) = "CANCEL_PRINT".toList) : Inv upper t where
  file := hcancelled ▸ hs.file.quiet hsd
  waits h hactive := by
    rcases hawaits h with h | h
    · exact hsd.mustPauseWork (hs.waits h (hsd.isActive ▸ hactive))
    · exact h hactive
  worker := by
    rw [hworker, ← hs.worker]
    simp [cmdFromSd, hsd.workTimer]
  byCommand script hscript := (hscripts script hscript).elim (hs.byCommand script) id
  dropped := hdropped.trans hs.dropped

theorem beginCancel_of_not (script : Text) (h : cancels script = false) :
    s.beginCancel script = s := by
  rw [beginCancel, if_neg (by simp [h])]

theorem quiet_beginCancel (s : ScriptHost) (script : Text) :
    Quiet s.vSd (s.beginCancel script).vSd := by
  unfold beginCancel
  dsimp only
  split_ifs
  · exact quiet_doPause _
  · exact ⟨rfl, rfl, rfl, rfl, id⟩
  · exact Quiet.refl _

/-- What a cancel leaves alone. -/
theorem beginCancel_frame (s : ScriptHost) (script : Text) :
    (s.beginCancel script).mutex = s.mutex ∧ (s.beginCancel script).clients = s.clients ∧
      (s.beginCancel script).cancelled = s.cancelled ∧
      (s.beginCancel script).dropped = s.dropped := by
  unfold beginCancel
  dsimp only
  split_ifs <;> exact ⟨rfl, rfl, rfl, rfl⟩

theorem mem_cancelScripts_beginCancel {script script' : Text}
    (h : script' ∈ (s.beginCancel script).cancelScripts) :
    script' ∈ s.cancelScripts ∨ (script' = script ∧ cancels script = true) := by
  unfold beginCancel at h
  dsimp only at h
  have hmem (hc : cancels script = true) (h : script' ∈ s.cancelScripts ++ [script]) :
      script' ∈ s.cancelScripts ∨ (script' = script ∧ cancels script = true) := by
    simpa [hc] using h
  split_ifs at h with hc
  · exact hmem hc h
  · exact hmem hc h
  · exact Or.inl h

theorem Inv.beginCancel (hs : Inv upper s) {script : Text}
    (hscript : CancelsByCommand upper script) : Inv upper (s.beginCancel script) := by
  obtain ⟨hmutex, hclients, hcancelled, hdropped⟩ := s.beginCancel_frame script
  refine hs.quiet (s.quiet_beginCancel script) (fun h => Or.inl ?_) (by rw [hmutex]) hcancelled
    hdropped fun script' h => ?_
  · simpa [AwaitsStop, hmutex, hclients] using h
  · refine (mem_cancelScripts_beginCancel h).imp_right ?_
    rintro ⟨rfl, hc⟩
    exact hscript hc

/-- A script that cancels an open file asks the worker to stop. -/
theorem mustPauseWork_beginCancel {script : Text} (hc : cancels script = true)
    (hfile : s.vSd.currentFile.isSome = true) (hactive : s.vSd.isActive = true) :
    (s.beginCancel script).vSd.mustPauseWork = true := by
  have hbegin : (s.beginCancel script).vSd = s.vSd.doPause := by
    unfold ScriptHost.beginCancel
    dsimp only
    rw [if_pos hc, if_pos (by simpa [ScriptHost.vSd] using hfile)]
    rfl
  rw [hbegin]
  exact mustPauseWork_doPause hactive

theorem Inv.endCancel (hs : Inv upper s)
    (hpause : s.vSd.isActive = true → s.vSd.mustPauseWork = true) : Inv upper s.endCancel where
  file := by
    have hclose := hs.file.close hpause
    rw [← s.closes_eq] at hclose
    exact hclose
  waits _ hactive := hpause hactive
  worker := hs.worker
  byCommand := hs.byCommand
  dropped := hs.dropped

theorem cancelled_endCancel (hs : Inv upper s) {n : ℕ} (h : s.vSd.activeFile = some n) :
    s.endCancel.Cancelled n := by
  unfold Cancelled endCancel
  rw [List.map_append, List.mem_append]
  rcases hs.file.onFile n h with hfile | ⟨-, hn, -⟩
  · exact Or.inr (by rw [closes_eq, hfile]; simp)
  · exact Or.inl hn

theorem Inv.clearFlags (hs : Inv upper s) : Inv upper s.clearFlags := by
  unfold ScriptHost.clearFlags
  split_ifs
  · exact hs
  · exact ⟨hs.file, hs.waits, hs.worker, hs.byCommand, hs.dropped⟩

theorem FlagsInv.clearFlags (hs : FlagsInv s) : FlagsInv s.clearFlags := by
  unfold ScriptHost.clearFlags
  split_ifs
  · exact hs
  · exact fun n _ => Or.inr rfl

/-- Without an open file, the file of the line is closed. -/
theorem Inv.flagsInv_beginCancel (hs : Inv upper s) (script : Text)
    (hnone : s.vSd.fileNumber = none) : FlagsInv (s.beginCancel script) := by
  intro n hn
  have hactive := (activeFile_of_workFile hn).1
  rw [(s.quiet_beginCancel script).activeFile] at hactive
  rcases hs.file.onFile n hactive with hfile | ⟨-, hn, -⟩
  · rw [hnone] at hfile
    cases hfile
  · exact Or.inl (by rw [Cancelled, (s.beginCancel_frame script).2.2.1]; exact hn)

/-- A script of a client is somewhere else. -/
theorem Inv.clients (hs : Inv upper s) {clients : List ScriptPhase}
    (h : .cancelling ∈ clients → .cancelling ∈ s.clients) :
    Inv upper { s with clients := clients } :=
  ⟨hs.file, fun hawaits => hs.waits (hawaits.imp_left h), hs.worker, hs.byCommand, hs.dropped⟩

theorem Inv.clientScript (hs : Inv upper s) {script : Text}
    (hscript : CancelsByCommand upper script) : Inv upper (s.clientScript script) := by
  have hbegin := hs.beginCancel hscript
  unfold ScriptHost.clientScript
  dsimp only
  split_ifs with hc hpaused
  · obtain ⟨hc, hfile⟩ := Bool.and_eq_true_iff.1 hc
    have hpause : (s.beginCancel script).vSd.isActive = true →
        (s.beginCancel script).vSd.mustPauseWork = true := fun hactive =>
      mustPauseWork_beginCancel hc hfile ((s.quiet_beginCancel script).isActive ▸ hactive)
    exact (hbegin.endCancel hpause).clearFlags.clients (by simp)
  · obtain ⟨hc, hfile⟩ := Bool.and_eq_true_iff.1 hc
    refine ⟨hbegin.file, fun _ hactive => ?_, hbegin.worker, hbegin.byCommand, hbegin.dropped⟩
    exact mustPauseWork_beginCancel hc hfile ((s.quiet_beginCancel script).isActive ▸ hactive)
  · exact hbegin.clearFlags.clients (by simp)

theorem Inv.flagsInv_clientScript (hs : Inv upper s) (hflags : FlagsInv s) {script : Text}
    (hscript : CancelsByCommand upper script) : FlagsInv (s.clientScript script) := by
  have hbegin := hs.beginCancel hscript
  unfold ScriptHost.clientScript
  dsimp only
  split_ifs with hc hpaused
  · have hend : FlagsInv (s.beginCancel script).endCancel := fun n hn =>
      Or.inl (cancelled_endCancel hbegin (activeFile_of_workFile hn).1)
    exact hend.clearFlags
  · intro n hn
    refine absurd (Or.inr ?_) hpaused
    exact (activeFile_of_workFile (s := s.beginCancel script) hn).2
  · have hflags' : FlagsInv (s.beginCancel script) := by
      by_cases hcancels : cancels script = true
      · exact hs.flagsInv_beginCancel script (by simpa [hcancels, fileNumber] using hc)
      · rw [beginCancel_of_not script (by simpa using hcancels)]
        exact hflags
    exact hflags'.clearFlags

theorem Inv.workerScript (hs : Inv upper s) {script : Text}
    (hscript : CancelsByCommand upper script) : Inv upper (s.workerScript script) := by
  have hbegin := hs.beginCancel hscript
  unfold ScriptHost.workerScript
  dsimp only
  split_ifs with hc
  · obtain ⟨hc, hfile⟩ := Bool.and_eq_true_iff.1 hc
    exact (hbegin.endCancel fun hactive => mustPauseWork_beginCancel hc hfile
      ((s.quiet_beginCancel script).isActive ▸ hactive)).clearFlags
  · exact hbegin.clearFlags

theorem Inv.flagsInv_workerScript (hs : Inv upper s) {script : Text}
    (hscript : CancelsByCommand upper script)
    (hflags : cancels script = false → FlagsInv s.clearFlags) :
    FlagsInv (s.workerScript script) := by
  have hbegin := hs.beginCancel hscript
  unfold ScriptHost.workerScript
  dsimp only
  split_ifs with hc
  · have hend : FlagsInv (s.beginCancel script).endCancel := fun n hn =>
      Or.inl (cancelled_endCancel hbegin (activeFile_of_workFile hn).1)
    exact hend.clearFlags
  · by_cases hcancels : cancels script = true
    · exact (hs.flagsInv_beginCancel script
        (by simpa [hcancels, fileNumber] using hc)).clearFlags
    · have hcancels : cancels script = false := by simpa using hcancels
      rw [beginCancel_of_not script hcancels]
      exact hflags hcancels

/-! ## The steps -/

/-- A command, or what follows its wait, without a file that is closed. -/
theorem Inv.afterCommand (hs : Inv upper s) {r : SdResult} (hstep : s.pauseResume.Step r)
    {holder : ScriptHolder} {wait : Option ScriptWait} (hmutex : s.mutex = some (holder, wait))
    (hstart : .cancelling ∈ s.clients → s.vSd.isActive = false → r.state.isSdActive = false) :
    Inv upper (s.afterCommand holder r) ∧ (FlagsInv s → FlagsInv (s.afterCommand holder r)) := by
  have hsd : (s.afterCommand holder r).vSd = r.state.vSd := by cases r <;> rfl
  have hclients : (s.afterCommand holder r).clients = s.clients := by cases r <;> rfl
  have hcancelled : (s.afterCommand holder r).cancelled = s.cancelled := by cases r <;> rfl
  have hscripts : (s.afterCommand holder r).cancelScripts = s.cancelScripts := by cases r <;> rfl
  have hdropped : (s.afterCommand holder r).dropped = s.dropped := by cases r <;> rfl
  have hheating : (s.afterCommand holder r).stopHeating = s.stopHeating := by cases r <;> rfl
  have hworker : (∃ wait, (s.afterCommand holder r).mutex = some (.worker, wait)) ↔
      ∃ wait, s.mutex = some (.worker, wait) := by
    rw [hmutex]
    cases r <;> simp [ScriptHost.afterCommand]
  have hawaits : (s.afterCommand holder r).AwaitsStop → .cancelling ∈ s.clients ∨
      ((s.afterCommand holder r).vSd.isActive = true →
        (s.afterCommand holder r).vSd.mustPauseWork = true) := by
    rintro (h | ⟨holder', w, h, hw⟩)
    · exact Or.inl (hclients ▸ h)
    · refine Or.inr fun hactive => ?_
      cases r with
      | returned p => cases h
      | raised p => cases h
      | waits p w' =>
        simp only [ScriptHost.afterCommand, Option.some.injEq, Prod.mk.injEq,
          ScriptWait.sd.injEq] at h
        exact hstep.waits p w' rfl (h.2 ▸ hw) hactive
  rcases hstep.vSd with hquiet | hidle
  · have hquiet : Quiet s.vSd (s.afterCommand holder r).vSd := hsd ▸ hquiet
    refine ⟨hs.quiet hquiet (fun h => (hawaits h).imp_left Or.inl) hworker hcancelled hdropped
      fun script h => Or.inl (hscripts ▸ h), fun hflags n hn => ?_⟩
    rw [Cancelled, hcancelled, hheating]
    refine hflags n ?_
    rwa [workFile, hquiet.workTimer] at hn
  · have hidle : FromIdle s.vSd (s.afterCommand holder r).vSd := hsd ▸ hidle
    have hoff := cmdFromSd_eq_false hidle.activeFile
    have hoff' := cmdFromSd_eq_false (activeFile_eq_none hidle.isActive)
    refine ⟨⟨hcancelled ▸ hs.file.fromIdle hidle, fun h hactive => ?_, ?_, ?_, ?_⟩,
      fun _ n hn => ?_⟩
    · rcases hawaits h with h | h
      · have hinactive := hstart h hidle.isActive
        rw [PauseResume.isSdActive, ← hsd, hactive] at hinactive
        cases hinactive
      · exact h hactive
    · rw [hworker, ← hs.worker, hoff, hoff']
    · exact hscripts ▸ hs.byCommand
    · exact hdropped.trans hs.dropped
    · rw [(activeFile_of_workFile hn).2] at hoff
      cases hoff

theorem proceed_cases {holder : ScriptHolder} {w : SdWait} {raises : Bool}
    (h : s.proceed holder w raises = some t) : ∃ r, s.pauseResume.proceed w raises = some r ∧
      (w.Closes → t = { s.afterCommand holder r with cancelled := s.cancelled ++ s.closes }) ∧
      (¬w.Closes → t = s.afterCommand holder r) := by
  obtain ⟨r, hr, rfl⟩ := Option.map_eq_some_iff.1 h
  refine ⟨r, hr, fun hw => ?_, fun hw => ?_⟩
  · dsimp only
    rw [if_pos (show w = .cancelPrint ∨ w = .resetFile from hw)]
  · dsimp only
    rw [if_neg (show ¬(w = .cancelPrint ∨ w = .resetFile) from hw), List.append_nil]
    cases r <;> rfl

/-- A command that closes the file, if it is open. -/
theorem Inv.closed (hs : Inv upper s) {holder : ScriptHolder} {wait : Option ScriptWait}
    (hmutex : s.mutex = some (holder, wait))
    (hpause : s.vSd.isActive = true → s.vSd.mustPauseWork = true) {r : SdResult}
    (hwaits : ∀ p w, r ≠ .waits p w) (hsd : r.state.vSd = s.vSd.closeFile ∨
      (s.vSd.currentFile = none ∧ r.state.vSd = s.vSd)) :
    Inv upper { s.afterCommand holder r with cancelled := s.cancelled ++ s.closes } ∧
      FlagsInv { s.afterCommand holder r with cancelled := s.cancelled ++ s.closes } := by
  have hafter : s.afterCommand holder r =
      { s with pauseResume := r.state, mutex := some (holder, none) } := by
    cases r with
    | waits p w => exact absurd rfl (hwaits p w)
    | returned p => rfl
    | raised p => rfl
  have hend := hs.endCancel hpause
  have hworker : (∃ wait : Option ScriptWait, (some (holder, none) :
      Option (ScriptHolder × Option ScriptWait)) = some (.worker, wait)) ↔
        ∃ wait, s.mutex = some (.worker, wait) := by
    rw [hmutex]
    simp
  have hsame : r.state.vSd.isActive = s.vSd.isActive ∧
      r.state.vSd.mustPauseWork = s.vSd.mustPauseWork ∧
        r.state.vSd.cmdFromSd = s.vSd.cmdFromSd ∧
          r.state.vSd.activeFile = s.vSd.activeFile := by
    rcases hsd with hsd | ⟨-, hsd⟩ <;> rw [hsd] <;> exact ⟨rfl, rfl, rfl, rfl⟩
  obtain ⟨hactive, hmust, hfromSd, hfile⟩ := hsame
  rw [hafter]
  refine ⟨⟨?_, fun _ h => ?_, ?_, hs.byCommand, hs.dropped⟩, fun n hn => Or.inl ?_⟩
  · rcases hsd with hsd | ⟨hnone, hsd⟩
    · exact (show FileInv r.state.vSd _ by rw [hsd]; exact hend.file)
    · have hcloses : s.closes = [] := by simp [closes, hnone]
      exact (show FileInv r.state.vSd _ by rw [hsd, hcloses, List.append_nil]; exact hs.file)
  · exact hmust.trans (hpause (hactive ▸ h))
  · rw [hworker, ← hs.worker]
    exact (show r.state.vSd.cmdFromSd = true ↔ _ by rw [hfromSd])
  · have hopen : s.vSd.activeFile = some n := hfile ▸ (activeFile_of_workFile hn).1
    exact cancelled_endCancel hs hopen

theorem Inv.proceed (hs : Inv upper s) {holder : ScriptHolder} {w : SdWait} {raises : Bool}
    (hmutex : s.mutex = some (holder, some (.sd w))) (h : s.proceed holder w raises = some t)
    (hstart : .cancelling ∈ s.clients → s.vSd.isActive = false → t.vSd.isActive = false) :
    Inv upper t ∧ (FlagsInv s → FlagsInv t) := by
  obtain ⟨r, hr, hclose, hkeep⟩ := proceed_cases h
  by_cases hw : w.Closes
  · obtain rfl := hclose hw
    obtain ⟨hwaits, hsd⟩ := PauseResume.closes_of_proceed hw hr
    have hclosed := hs.closed hmutex (hs.waits (Or.inr ⟨holder, w, hmutex, hw⟩)) hwaits hsd
    exact ⟨hclosed.1, fun _ => hclosed.2⟩
  · obtain rfl := hkeep hw
    refine hs.afterCommand (PauseResume.step_proceed hw hr) hmutex fun hc hidle => ?_
    have hoff := hstart hc hidle
    cases r <;> exact hoff

/-- In a line of a print that was not cancelled, `cmd_G1` reaches `move_with_transform`. -/
theorem FlagsInv.cmdG1 (hflags : FlagsInv s) (holder : ScriptHolder)
    (params : List (Text × Text)) : s.cmdG1 holder params = s := by
  unfold ScriptHost.cmdG1
  split
  · rename_i n hn
    refine if_pos ?_
    refine (hflags n hn).symm.imp_left fun hcleared => ?_
    rw [hcleared]
    rfl
  · rfl

theorem StopHeating.clear_cleared (heater : HeaterName) :
    StopHeating.cleared.clear heater = .cleared := by
  cases heater <;> rfl

theorem Inv.waitTurn (hs : Inv upper s) {holder : ScriptHolder} {heater : HeaterName}
    (hmutex : s.mutex = some (holder, some (.heat heater))) (control : HeaterControl)
    (smoothedTemp targetTemp : ℚ) :
    Inv upper (s.waitTurn holder heater control smoothedTemp targetTemp) ∧
      (FlagsInv s → FlagsInv (s.waitTurn holder heater control smoothedTemp targetTemp)) := by
  have hwait (f : StopHeating) :
      Inv upper { s with stopHeating := f, mutex := some (holder, none) } := by
    refine ⟨hs.file, fun h => hs.waits (h.imp_right ?_), ?_, hs.byCommand, hs.dropped⟩
    · rintro ⟨holder', w, h, -⟩
      cases h
    · refine hs.worker.trans ?_
      rw [hmutex]
      simp
  unfold ScriptHost.waitTurn ScriptHost.checkBusy
  split_ifs
  · exact ⟨hwait _, fun hflags => hflags⟩
  · refine ⟨hwait _, fun hflags n hn => (hflags n hn).imp_right fun h => ?_⟩
    rw [← StopHeating.clear_cleared heater, ← h]
  · split
    · rename_i heq
      obtain ⟨rfl, -⟩ := Prod.mk.inj heq
      exact ⟨hs, id⟩
    · rename_i heq
      obtain ⟨rfl, -⟩ := Prod.mk.inj heq
      exact ⟨hwait _, fun hflags => hflags⟩

/-- The event starts the worker. -/
def StartsPrint (s : ScriptHost) (a : Event) : Prop :=
  s.vSd.isActive = false ∧ ∃ t ∈ s.next a, t.vSd.isActive = true

instance (s : ScriptHost) (a : Event) : Decidable (s.StartsPrint a) :=
  inferInstanceAs (Decidable (_ ∧ _))

/-- The script that an event passes to `run_script`. -/
def script (s : ScriptHost) : Event → Option Text
  | .runScript script | .onError script => some script
  | .turn count recovery => s.nextLine count recovery
  | _ => none

/-- The line of the file that an event hands over. -/
def handsOver (s : ScriptHost) : Event → Option Text
  | .turn count recovery => s.nextLine count recovery
  | _ => none

/-- The text that cancels is only used as the command, no print is started or resumed while a
script that cancels waits for the worker, and no line is handed over while a flag is raised and x
is homed, unless the line cancels. -/
def Careful (upper : Text → Text) (s : ScriptHost) (a : Event) : Prop :=
  (.cancelling ∈ s.clients → ¬s.StartsPrint a) ∧
    (∀ script ∈ s.script a, CancelsByCommand upper script) ∧
    ∀ line ∈ s.handsOver a,
      cancels line = true ∨ s.stopHeating = .cleared ∨ s.xHomed = false

instance (script : Text) : Decidable (CancelsByCommand upper script) :=
  inferInstanceAs (Decidable (_ → _))

instance (s : ScriptHost) (a : Event) : Decidable (s.Careful upper a) :=
  inferInstanceAs (Decidable (_ ∧ _ ∧ _))

theorem command_of_nextLine {count : ℕ} {recovery : Option ℕ} {line : Text}
    (h : s.nextLine count recovery = some line) : ∃ n lines partialInput nextFilePosition,
      (s.vSd.workStep count recovery).workTimer =
        .command n line lines partialInput nextFilePosition := by
  unfold nextLine at h
  split at h
  · rename_i n line' lines partialInput nextFilePosition hwork
    obtain rfl := Option.some_inj.1 h
    exact ⟨n, lines, partialInput, nextFilePosition, hwork⟩
  · cases h

theorem cmdFromSd_of_nextLine {count : ℕ} {recovery : Option ℕ}
    (h : s.nextLine count recovery = none) :
    (s.vSd.workStep count recovery).cmdFromSd = false := by
  unfold nextLine at h
  unfold cmdFromSd
  cases hwork : (s.vSd.workStep count recovery).workTimer <;>
    first | rfl | (rw [hwork] at h; cases h)

theorem FlagsInv.of_cmdFromSd (h : s.vSd.cmdFromSd = false) : FlagsInv s :=
  fun _ hn => absurd (activeFile_of_workFile hn).2 (Bool.eq_false_iff.1 h)

/-- The worker hands over a line. -/
theorem Inv.handOver (hs : Inv upper s) (hactive : s.vSd.isActive = true) {count : ℕ}
    {recovery : Option ℕ} {line : Text} (hline : s.nextLine count recovery = some line) :
    Inv upper { s.setSd (s.vSd.workStep count recovery) with mutex := some (.worker, none) } := by
  obtain ⟨n, lines, partialInput, nextFilePosition, hwork⟩ := command_of_nextLine hline
  refine ⟨hs.file.workStep count recovery, fun h _ => ?_, ?_, hs.byCommand, hs.dropped⟩
  · refine (mustPauseWork_workStep _ _ _).trans (hs.waits (h.imp_right ?_) hactive)
    rintro ⟨holder, w, h, -⟩
    cases h
  · refine iff_of_true ?_ ⟨none, rfl⟩
    change (s.vSd.workStep count recovery).cmdFromSd = true
    rw [cmdFromSd, hwork]

/-- The worker does something else. -/
theorem Inv.turn (hs : Inv upper s) (hactive : s.vSd.isActive = true)
    (hfromSd : s.vSd.cmdFromSd = false) {count : ℕ} {recovery : Option ℕ}
    (hline : s.nextLine count recovery = none) :
    Inv upper (s.setSd (s.vSd.workStep count recovery)) := by
  refine ⟨hs.file.workStep count recovery, fun h _ => ?_, ?_, hs.byCommand, hs.dropped⟩
  · exact (mustPauseWork_workStep _ _ _).trans (hs.waits h hactive)
  · change (s.vSd.workStep count recovery).cmdFromSd = true ↔ _
    rw [cmdFromSd_of_nextLine hline, ← hfromSd]
    exact hs.worker

theorem AwaitsStop.of_running {mutex : Option (ScriptHolder × Option ScriptWait)}
    (h : ({ s with mutex := mutex } : ScriptHost).AwaitsStop)
    (hmutex : ∀ holder w, mutex ≠ some (holder, some (.sd w))) : s.AwaitsStop := by
  rcases h with h | ⟨holder, w, h, -⟩
  · exact Or.inl h
  · exact absurd h (hmutex holder w)

theorem Inv.next (hs : Inv upper s) (hflags : FlagsInv s) {a : Event} (ha : s.Careful upper a)
    (h : s.next a = some t) : Inv upper t ∧ FlagsInv t := by
  obtain ⟨hstart, hscript, hline⟩ := ha
  have hstart : .cancelling ∈ s.clients → s.vSd.isActive = false → t.vSd.isActive = false := by
    intro hc hidle
    by_contra hactive
    exact hstart hc ⟨hidle, t, h, by simpa using hactive⟩
  cases a with
  | runScript script =>
    obtain rfl := Option.some_inj.1 h
    exact ⟨hs.clientScript (hscript script rfl), hs.flagsInv_clientScript hflags (hscript script rfl)⟩
  | cancelDone k =>
    simp only [ScriptHost.next] at h
    split_ifs at h with hk
    obtain rfl := Option.some_inj.1 h
    have hend := hs.endCancel (hs.waits (Or.inl (List.mem_of_getElem? hk.1)))
    have hset (phase : ScriptPhase) (hphase : .cancelling ≠ phase) (l : List ScriptPhase)
        (hmem : .cancelling ∈ l.set k phase) : .cancelling ∈ l :=
      (List.mem_or_eq_of_mem_set hmem).resolve_right hphase
    unfold ScriptHost.cancelDone
    dsimp only
    split_ifs
    · refine ⟨hend.clearFlags.clients (hset _ (by decide) _), ?_⟩
      have hflags' : FlagsInv s.endCancel := fun n hn =>
        Or.inl (cancelled_endCancel hs (activeFile_of_workFile hn).1)
      exact hflags'.clearFlags
    · exact ⟨hs.clients (hset _ (by decide) _), hflags⟩
  | enter k =>
    simp only [ScriptHost.next] at h
    split_ifs at h with hk
    obtain rfl := Option.some_inj.1 h
    refine ⟨⟨hs.file, fun hawaits => hs.waits ?_, ?_, hs.byCommand, hs.dropped⟩, hflags⟩
    · rcases hawaits with hmem | ⟨holder, w, hw, -⟩
      · exact Or.inl ((List.mem_or_eq_of_mem_set hmem).resolve_right (by decide))
      · cases hw
    · refine hs.worker.trans ?_
      simp [hk.2]
  | exit =>
    simp only [ScriptHost.next] at h
    split at h
    · rename_i k hmutex
      obtain rfl := Option.some_inj.1 h
      refine ⟨⟨hs.file, fun hawaits => hs.waits ?_, ?_, hs.byCommand, hs.dropped⟩, hflags⟩
      · rcases hawaits with hmem | ⟨holder, w, hw, -⟩
        · exact Or.inl ((List.mem_or_eq_of_mem_set hmem).resolve_right (by decide))
        · cases hw
      · refine hs.worker.trans ?_
        simp [hmutex]
    · cases h
  | command cmd =>
    simp only [ScriptHost.next] at h
    split at h
    · rename_i holder hmutex
      obtain rfl := Option.some_inj.1 h
      obtain ⟨hinv, hkeep⟩ := hs.afterCommand (PauseResume.step_start s.pauseResume cmd) hmutex
        fun hc hidle => by
          have hoff := hstart hc hidle
          revert hoff
          generalize cmd.start s.pauseResume = r
          cases r <;> exact id
      exact ⟨hinv, hkeep hflags⟩
    · cases h
  | proceed raises =>
    simp only [ScriptHost.next] at h
    split at h
    · rename_i holder w hmutex
      obtain ⟨hinv, hkeep⟩ := hs.proceed hmutex h ‹_›
      exact ⟨hinv, hkeep hflags⟩
    · cases h
  | g1 params =>
    simp only [ScriptHost.next] at h
    split at h
    · rename_i holder hmutex
      rw [hflags.cmdG1] at h
      obtain rfl := Option.some_inj.1 h
      exact ⟨hs, hflags⟩
    · cases h
  | heat heater =>
    simp only [ScriptHost.next] at h
    split at h
    · rename_i holder hmutex
      obtain rfl := Option.some_inj.1 h
      refine ⟨⟨hs.file, fun hawaits => hs.waits (hawaits.of_running (by simp)), ?_, hs.byCommand,
        hs.dropped⟩, hflags⟩
      refine hs.worker.trans ?_
      simp [hmutex]
    · cases h
  | waitTurn control smoothedTemp targetTemp =>
    simp only [ScriptHost.next] at h
    split at h
    · rename_i holder heater hmutex
      obtain rfl := Option.some_inj.1 h
      obtain ⟨hinv, hkeep⟩ := hs.waitTurn hmutex control smoothedTemp targetTemp
      exact ⟨hinv, hkeep hflags⟩
    · cases h
  | multiProbeEnd =>
    obtain rfl := Option.some_inj.1 h
    refine ⟨⟨hs.file, hs.waits, hs.worker, hs.byCommand, hs.dropped⟩, fun n hn => ?_⟩
    exact (hflags n hn).imp_right fun hcleared => by rw [hcleared]; rfl
  | setHomed xHomed =>
    obtain rfl := Option.some_inj.1 h
    exact ⟨⟨hs.file, hs.waits, hs.worker, hs.byCommand, hs.dropped⟩, hflags⟩
  | shutdown =>
    obtain rfl := Option.some_inj.1 h
    exact ⟨⟨hs.file, hs.waits, hs.worker, hs.byCommand, hs.dropped⟩, hflags⟩
  | begin =>
    simp only [ScriptHost.next] at h
    split_ifs at h with hregistered
    obtain rfl := Option.some_inj.1 h
    have hoff := cmdFromSd_workHandler s.vSd
    refine ⟨⟨hs.file.workHandler, fun hawaits _ => ?_, ?_, hs.byCommand, hs.dropped⟩,
      .of_cmdFromSd hoff⟩
    · refine (mustPauseWork_workHandler _).trans (hs.waits hawaits ?_)
      simp [isActive, hregistered]
    · change s.vSd.workHandler.cmdFromSd = true ↔ _
      rw [hoff, ← show s.vSd.cmdFromSd = false by rw [cmdFromSd, hregistered]]
      exact hs.worker
  | turn count recovery =>
    simp only [ScriptHost.next] at h
    rw [Option.ite_none_right_eq_some] at h
    obtain ⟨⟨hactive, hfromSd, -⟩, h⟩ := h
    split at h
    · rename_i hnone
      obtain rfl := Option.some_inj.1 h
      exact ⟨hs.turn hactive hfromSd hnone, .of_cmdFromSd (cmdFromSd_of_nextLine hnone)⟩
    · rename_i line hsome
      split_ifs at h with hmutex
      obtain rfl := Option.some_inj.1 h
      have hover := hs.handOver hactive hsome
      refine ⟨hover.workerScript (hscript line hsome),
        hover.flagsInv_workerScript (hscript line hsome) fun hcancels => ?_⟩
      intro n _
      refine Or.inr ?_
      unfold ScriptHost.clearFlags
      rcases hline line hsome with hc | hcleared | hx
      · rw [hc] at hcancels
        cases hcancels
      · split_ifs
        · exact hcleared
        · rfl
      · rw [if_neg (by simp [setSd, hx])]
  | onError script =>
    simp only [ScriptHost.next] at h
    split_ifs at h
    obtain rfl := Option.some_inj.1 h
    exact ⟨hs.workerScript (hscript script rfl),
      hs.flagsInv_workerScript (hscript script rfl) fun _ => hflags.clearFlags⟩
  | done failed =>
    simp only [ScriptHost.next] at h
    split_ifs at h with hmutex
    obtain rfl := Option.some_inj.1 h
    have hfromSd : s.vSd.cmdFromSd = true := hs.worker.2 ⟨none, hmutex⟩
    have hoff := cmdFromSd_commandDone failed hfromSd
    refine ⟨⟨hs.file.commandDone failed, fun hawaits _ => ?_, ?_, hs.byCommand, hs.dropped⟩,
      .of_cmdFromSd hoff⟩
    · exact (mustPauseWork_commandDone _ failed).trans
        (hs.waits (hawaits.of_running (by simp)) (isActive_of_cmdFromSd hfromSd))
    · exact iff_of_false (Bool.eq_false_iff.1 hoff) (by rintro ⟨_, h⟩; cases h)

/-! ## Cancelled prints and the others -/

theorem inv_of_reachable (h : system.ReachableBy (Careful upper) s) : Inv upper s ∧ FlagsInv s :=
  h.invariant (I := fun s => Inv upper s ∧ FlagsInv s)
    (fun _ hs => ⟨Starts.inv hs, Starts.flagsInv hs⟩)
    fun _ _ _ hs ha h => hs.1.next hs.2 ha h

/-- A host that has just started, with x homed. -/
def started : ScriptHost where
  pauseResume := ⟨.start, false, false, false⟩
  stopHeating := .cleared
  xHomed := true
  isShutdown := false
  mutex := none
  clients := []
  cancelScripts := []
  cancelled := []
  dropped := []

theorem starts_started : started.Starts :=
  ⟨rfl, rfl, rfl, rfl, rfl, rfl, rfl⟩

/-- Client `k` prints a file of two lines, and the first is handed over. -/
def prints (k : ℕ) : List Event :=
  [.runScript "SDCARD_PRINT_FILE FILENAME=a.g".toList, .enter k,
    .command (.sdcardPrintFile (some ("G1 X1\nG1 X2\n".toList, false, none))), .exit, .begin,
    .turn 8192 none, .turn 8192 none]

/-- A print is cancelled by command, and the motors are off before the next one. -/
def cancelledByCommand : List Event :=
  prints 0 ++ [.runScript "cancel_print".toList, .done false, .turn 8192 none, .enter 1, .exit,
    .setHomed false, .runScript "G28".toList, .enter 2, .setHomed true, .exit] ++ prints 3 ++
    [.g1 [("X".toList, "1".toList)], .heat .extruder]

/-- A message that names the command cancels the print, and the moves of the next one are left
out. -/
def cancelledByMessage : List Event :=
  prints 0 ++ [.runScript "M117 CANCEL_PRINT to stop".toList, .done false, .turn 8192 none,
    .enter 1, .exit] ++ prints 2 ++ [.g1 [("X".toList, "1".toList)]]

end ScriptHost

end Thinker
