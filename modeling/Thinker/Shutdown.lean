import Thinker.Klippy

/-!
# A shutdown reaches everything

A shutdown message of a micro-controller leads to `invoke_shutdown`, unless its reason is one of
those that only pause the print. `invoke_shutdown` calls every handler once, whatever the others
raise, so that every other micro-controller is sent `emergency_stop`, and then no command is
executed but those that do not need a printer that is ready.
-/

namespace Thinker

/-! ## The state of the printer -/

namespace Printer

variable {p : Printer}

/-- The state message is not one that can change. -/
def Fixed (p : Printer) : Prop :=
  p.stateMessage ≠ messageReady ∧ p.stateMessage ≠ messageStartup

theorem append_messageShutdown_ne (msg : Text) :
    msg ++ messageShutdown ≠ messageReady ∧ msg ++ messageShutdown ≠ messageStartup := by
  obtain ⟨hready, hstartup⟩ : messageReady.length < messageShutdown.length ∧
      messageStartup.length < messageShutdown.length := by decide +kernel
  constructor <;> intro h <;> have hlength := congrArg List.length h <;>
    rw [List.length_append] at hlength
  · exact (hlength ▸ Nat.le_add_left _ _).not_gt hready
  · exact (hlength ▸ Nat.le_add_left _ _).not_gt hstartup

theorem inShutdownState_setState (p : Printer) (msg : Text) :
    (p.setState msg).inShutdownState = p.inShutdownState := by
  unfold setState requestExit
  dsimp only
  split_ifs <;> rfl

theorem stateMessage_setState (p : Printer) (msg : Text) : (p.setState msg).stateMessage =
    if p.stateMessage = messageReady ∨ p.stateMessage = messageStartup then msg
    else p.stateMessage := by
  unfold setState requestExit
  dsimp only
  split_ifs <;> rfl

theorem Fixed.stateMessage_setState (hp : p.Fixed) (msg : Text) :
    (p.setState msg).stateMessage = p.stateMessage := by
  rw [Printer.stateMessage_setState, if_neg (not_or.2 hp)]

theorem Fixed.setState (hp : p.Fixed) (msg : Text) : (p.setState msg).Fixed := by
  unfold Fixed
  rw [hp.stateMessage_setState]
  exact hp

theorem fixed_invokeShutdown (h : p.inShutdownState = false) (msg : Text) :
    (p.invokeShutdown msg).Fixed := by
  unfold invokeShutdown Fixed
  rw [if_neg (by simp [h]), Printer.stateMessage_setState]
  split_ifs with hopen
  · exact append_messageShutdown_ne msg
  · exact not_or.1 hopen

theorem inShutdownState_invokeShutdown (p : Printer) (msg : Text) :
    (p.invokeShutdown msg).inShutdownState = true := by
  unfold invokeShutdown
  split_ifs with h
  · exact h
  · rw [inShutdownState_setState]

end Printer

/-! ## The micro-controllers -/

namespace HostMcu

variable (m : HostMcu)

@[simp]
theorem connected_shutdown : m.shutdown.connected = m.connected := by
  unfold shutdown
  split_ifs <;> rfl

@[simp]
theorem isShutdown_shutdown : m.shutdown.isShutdown = m.isShutdown := by
  unfold shutdown
  split_ifs <;> rfl

@[simp]
theorem handling_shutdown : m.shutdown.handling = m.handling := by
  unfold shutdown
  split_ifs <;> rfl

@[simp]
theorem shutdownMsg_shutdown : m.shutdown.shutdownMsg = m.shutdownMsg := by
  unfold shutdown
  split_ifs <;> rfl

@[simp]
theorem emergencyStopCmd_shutdown : m.shutdown.emergencyStopCmd = m.emergencyStopCmd := by
  unfold shutdown
  split_ifs <;> rfl

theorem emergencyStops_shutdown_pos (h : 0 < m.emergencyStops) :
    0 < m.shutdown.emergencyStops := by
  unfold shutdown
  split_ifs
  · exact h
  · exact Nat.succ_pos _

/-- A micro-controller that is connected is sent `emergency_stop`, unless it is shut down. -/
theorem shutdown_stops (h : m.emergencyStopCmd = true) :
    m.shutdown.isShutdown = true ∨ 0 < m.shutdown.emergencyStops := by
  by_cases hi : m.isShutdown = true <;> simp [shutdown, h, hi]

end HostMcu

namespace Klippy

variable {n : ℕ} {s t : Klippy n} {upper : Text → Text}

/-! ## What holds at all times -/

/-- The transition to the shutdown state has happened or is scheduled. -/
def Stopping (s : Klippy n) : Prop :=
  s.printer.inShutdownState = true ∨ s.asyncQueue ≠ []

/-- `invoke_shutdown` has run. -/
def Finished (s : Klippy n) : Prop :=
  s.printer.inShutdownState = true ∧ s.nextHandler = s.handlers.length

/-- What holds at all times. -/
structure Inv (s : Klippy n) : Prop where
  /-- A shutdown that has been handled stops the printer, or has a reason that does not. -/
  reported : ∀ i, (s.mcus i).isShutdown = true → (s.mcus i).handling = .idle →
    s.Stopping ∨ PausesPrint (s.mcus i).shutdownMsg
  pausing : ∀ i, (s.mcus i).handling = .pausing → PausesPrint (s.mcus i).shutdownMsg
  fixed : s.printer.inShutdownState = true → s.printer.Fixed
  called : s.called = List.range s.nextHandler
  nextHandler : s.nextHandler ≤ s.handlers.length
  waiting : s.printer.inShutdownState = false → s.nextHandler = 0
  /-- The handlers of the micro-controllers that were called have done their work. -/
  stopped : ∀ i, .mcu i ∈ s.handlers.take s.nextHandler → (s.mcus i).connected = true →
    (s.mcus i).isShutdown = true ∨ 0 < (s.mcus i).emergencyStops
  connected : ∀ i, (s.mcus i).connected = true → (s.mcus i).emergencyStopCmd = true
  notReady : .gcode ∈ s.handlers.take s.nextHandler → s.gcode.isPrinterReady = false
  mcu : ∀ i, .mcu i ∈ s.handlers
  gcode : .gcode ∈ s.handlers

theorem Starts.inv (h : s.Starts) : Inv s where
  reported i hi := by simp [h.isShutdown i] at hi
  pausing i hi := by simp [h.handling i] at hi
  fixed hs := by simp [h.inShutdownState] at hs
  called := by rw [h.called, h.nextHandler, List.range_zero]
  nextHandler := by simp [h.nextHandler]
  waiting _ := h.nextHandler
  stopped i hi := by simp [h.nextHandler] at hi
  connected i hi := by simp [h.connected i] at hi
  notReady _ := h.isPrinterReady
  mcu := h.mcu
  gcode := h.gcode

theorem Inv.setMcu (hs : Inv s) {i : Fin n} {m : HostMcu}
    (hreported : m.isShutdown = true → m.handling = .idle →
      s.Stopping ∨ PausesPrint m.shutdownMsg)
    (hpausing : m.handling = .pausing → PausesPrint m.shutdownMsg)
    (hstopped : (s.mcus i).isShutdown = true ∨ 0 < (s.mcus i).emergencyStops →
      m.isShutdown = true ∨ 0 < m.emergencyStops)
    (hconnected : m.connected = (s.mcus i).connected)
    (hcmd : (s.mcus i).emergencyStopCmd = true → m.emergencyStopCmd = true) :
    Inv (s.setMcu i m) where
  reported := (Function.forall_update_iff s.mcus fun _ (m : HostMcu) => m.isShutdown = true →
    m.handling = .idle → s.Stopping ∨ PausesPrint m.shutdownMsg).2
      ⟨hreported, fun j _ => hs.reported j⟩
  pausing := (Function.forall_update_iff s.mcus fun _ (m : HostMcu) => m.handling = .pausing →
    PausesPrint m.shutdownMsg).2 ⟨hpausing, fun j _ => hs.pausing j⟩
  fixed := hs.fixed
  called := hs.called
  nextHandler := hs.nextHandler
  waiting := hs.waiting
  stopped := (Function.forall_update_iff s.mcus fun j (m : HostMcu) =>
    .mcu j ∈ s.handlers.take s.nextHandler → m.connected = true →
      m.isShutdown = true ∨ 0 < m.emergencyStops).2
      ⟨fun hi hc => hstopped (hs.stopped i hi (hconnected ▸ hc)), fun j _ => hs.stopped j⟩
  connected := (Function.forall_update_iff s.mcus fun _ (m : HostMcu) => m.connected = true →
    m.emergencyStopCmd = true).2
      ⟨fun hc => hcmd (hs.connected i (hconnected ▸ hc)), fun j _ => hs.connected j⟩
  notReady := hs.notReady
  mcu := hs.mcu
  gcode := hs.gcode

/-- Only the print has changed. -/
theorem Inv.print (hs : Inv s) (p : PauseResume) (waits : List SdWait) (executed : List Text) :
    Inv { s with pauseResume := p, waits := waits, executed := executed } :=
  { hs with }

theorem Inv.afterCommand (hs : Inv s) (result : SdResult) : Inv (s.afterCommand result) := by
  cases result <;> exact { hs with }

theorem Inv.schedule (hs : Inv s) (msg : Text) :
    Inv { s with asyncQueue := s.asyncQueue ++ [msg] } :=
  { hs with reported := fun _ _ _ => Or.inl (Or.inr (by simp)) }

/-- In the shutdown state, what is scheduled matters no more. -/
theorem Inv.unschedule (hs : Inv s) (hshutdown : s.printer.inShutdownState = true)
    (queue : List Text) : Inv { s with asyncQueue := queue } :=
  { hs with reported := fun _ _ _ => Or.inl (Or.inl hshutdown) }

theorem Inv.setState (hs : Inv s) (msg : Text) :
    Inv { s with printer := s.printer.setState msg } := by
  have hshutdown := s.printer.inShutdownState_setState msg
  exact { hs with
    reported := fun i hi hidle => (hs.reported i hi hidle).imp_left fun h =>
      h.imp_left fun h => hshutdown.trans h
    fixed := fun h => (hs.fixed (hshutdown.symm.trans h)).setState msg
    waiting := fun h => hs.waiting (hshutdown.symm.trans h) }

/-- A transition to the shutdown state, whatever was scheduled. -/
theorem Inv.invokeShutdown (hs : Inv s) (queue : List Text) (msg : Text) :
    Inv (({ s with asyncQueue := queue } : Klippy n).invokeShutdown msg) := by
  unfold Klippy.invokeShutdown
  split_ifs with h
  · exact hs.unschedule h queue
  · have hfalse : s.printer.inShutdownState = false := by simpa using h
    have hzero : s.nextHandler = 0 := hs.waiting hfalse
    have hshutdown := s.printer.inShutdownState_invokeShutdown msg
    exact { hs with
      reported := fun i _ _ => Or.inl (Or.inl hshutdown)
      fixed := fun _ => Printer.fixed_invokeShutdown hfalse msg
      waiting := fun _ => hzero
      stopped := fun i hi => by simp [hzero] at hi
      connected := fun i hi => hi }

theorem Inv.ready (hs : Inv s) : Inv s.ready := by
  unfold Klippy.ready
  dsimp only
  split_ifs with h
  · refine { hs.setState messageReady with notReady := fun hi => ?_ }
    -- A state that has become ready is not the shutdown state.
    have hopen : s.printer.inShutdownState = false := by
      by_contra hshutdown
      exact ((hs.setState messageReady).fixed ((s.printer.inShutdownState_setState _).trans
        (by simpa using hshutdown))).1 h
    rw [hs.waiting hopen, List.take_zero] at hi
    simp at hi
  · exact hs.setState messageReady

/-- What a handler raises is caught. -/
theorem callHandler_eq (s : Klippy n) (handler : ShutdownHandler n) (raises : Bool) :
    s.callHandler handler raises = s.callHandler handler false := by
  cases raises <;> rfl

theorem Inv.callHandler (hs : Inv s) {handler : ShutdownHandler n}
    (hshutdown : s.printer.inShutdownState = true)
    (hhandler : s.handlers[s.nextHandler]? = some handler) (raises : Bool) :
    Inv (s.callHandler handler raises) := by
  have hlt : s.nextHandler < s.handlers.length := (List.getElem?_eq_some_iff.1 hhandler).1
  have hmem (x : ShutdownHandler n) : x ∈ s.handlers.take (s.nextHandler + 1) →
      x ∈ s.handlers.take s.nextHandler ∨ x = handler := by
    intro hx
    simpa [List.take_add_one, hhandler] using hx
  have hcalled : s.called ++ [s.nextHandler] = List.range (s.nextHandler + 1) := by
    rw [hs.called, List.range_succ]
  rw [callHandler_eq]
  cases handler with
  | mcu i =>
    have hset : Inv (s.setMcu i (s.mcus i).shutdown) := by
      refine hs.setMcu ?_ ?_ (fun h => ?_) (s.mcus i).connected_shutdown ?_
      · simpa using hs.reported i
      · simpa using hs.pausing i
      · simpa using h.imp_right fun h => (s.mcus i).emergencyStops_shutdown_pos h
      · simp
    refine { hset with
      called := hcalled
      nextHandler := hlt
      waiting := fun h => by simp [hshutdown, Klippy.callHandler, runHandler, Klippy.setMcu] at h
      stopped := fun j hj hc => ?_
      notReady := fun hj => hs.notReady ((hmem _ hj).resolve_right (by simp)) }
    rcases hmem _ hj with hj | hj
    · exact hset.stopped j hj hc
    · obtain rfl := ShutdownHandler.mcu.inj hj
      change (Function.update s.mcus j (s.mcus j).shutdown j).isShutdown = true ∨
        0 < (Function.update s.mcus j (s.mcus j).shutdown j).emergencyStops
      rw [Function.update_self]
      exact (s.mcus j).shutdown_stops (by simpa [Klippy.setMcu] using hset.connected j hc)
  | gcode =>
    exact { hs with
      called := hcalled
      nextHandler := hlt
      waiting := fun h => by simp [hshutdown, Klippy.callHandler, runHandler] at h
      stopped := fun j hj => hs.stopped j ((hmem _ hj).resolve_right (by simp))
      notReady := fun _ => rfl }
  | virtualSd | other =>
    exact { hs with
      called := hcalled
      nextHandler := hlt
      waiting := fun h => by simp [hshutdown, Klippy.callHandler, runHandler] at h
      stopped := fun j hj => hs.stopped j ((hmem _ hj).resolve_right (by simp))
      notReady := fun hj => hs.notReady ((hmem _ hj).resolve_right (by simp)) }

theorem Inv.dispatch (hs : Inv s) (cmd : Text) : Inv (s.dispatch cmd).2 := by
  unfold Klippy.dispatch
  dsimp only
  split
  · rename_i key _
    have hexecuted := hs.print s.pauseResume s.waits (s.executed ++ [key])
    split_ifs
    · exact hexecuted.invokeShutdown s.asyncQueue _
    · exact hexecuted
  · exact hs

theorem Inv.workLine (hs : Inv s) (count : ℕ) (recovery : Option ℕ) :
    Inv (s.workLine upper count recovery) := by
  unfold Klippy.workLine
  dsimp only
  split
  · rename_i line _ _ _ _
    have hd := (hs.print { s.pauseResume with vSd := s.pauseResume.vSd.workStep count recovery }
      s.waits s.executed).dispatch (command upper line)
    split
    · rename_i hsnd
      rw [hsnd] at hd
      exact hd.print _ _ _
    · rename_i hsnd
      rw [hsnd] at hd
      exact hd
  · exact hs.print _ _ _

theorem Inv.handleShutdown (hs : Inv s) (i : Fin n) (name : Text) :
    Inv (s.handleShutdown i name) := by
  unfold Klippy.handleShutdown
  dsimp only
  have hidle (hstops : s.Stopping ∨ PausesPrint (s.mcus i).shutdownMsg) :
      Inv (s.setMcu i { s.mcus i with handling := .idle }) :=
    hs.setMcu (fun _ _ => hstops) nofun id rfl id
  split_ifs with hpause hresume hsent
  · exact hidle (Or.inr hpause)
  · exact (hidle (Or.inr hpause)).print _ _ _
  · exact (hs.setMcu (m := { s.mcus i with handling := .pausing }) (fun _ h => nomatch h)
      (fun _ => hpause) id rfl id).print _ _ _
  · have hqueue := hs.schedule ((s.mcus i).shutdownText name)
    exact hqueue.setMcu (fun _ _ => Or.inl (Or.inr (by simp))) nofun id rfl id

theorem Inv.endPause (hs : Inv s) {i : Fin n} (hpausing : (s.mcus i).handling = .pausing)
    (raises : Bool) : Inv (s.endPause i raises) := by
  have hidle : Inv (s.setMcu i { s.mcus i with handling := .idle }) :=
    hs.setMcu (fun _ _ => Or.inr (hs.pausing i hpausing)) nofun id rfl id
  cases raises with
  | true => exact hidle
  | false => exact hidle.print _ _ _

theorem Inv.message (hs : Inv s) {i : Fin n} (params : ShutdownParams) :
    Inv (s.setMcu i ((s.mcus i).handleShutdown params)) := by
  unfold HostMcu.handleShutdown
  split_ifs with hi
  · exact hs.setMcu (hs.reported i) (hs.pausing i) id rfl id
  · exact hs.setMcu (fun _ h => nomatch h) nofun (fun _ => Or.inl rfl) rfl id

theorem Inv.next (hs : Inv s) {a : Event n} (h : Klippy.next upper s a = some t) : Inv t := by
  cases a with
  | identify i =>
    obtain rfl := Option.some_inj.1 h
    exact hs.setMcu (hs.reported i) (hs.pausing i) id rfl fun _ => rfl
  | error msg =>
    obtain rfl := Option.some_inj.1 h
    exact hs.setState msg
  | ready =>
    obtain rfl := Option.some_inj.1 h
    exact hs.ready
  | shutdown i params =>
    simp only [Klippy.next] at h
    split_ifs at h
    obtain rfl := Option.some_inj.1 h
    exact hs.message params
  | handle i =>
    simp only [Klippy.next] at h
    split at h
    · obtain rfl := Option.some_inj.1 h
      exact hs.handleShutdown i _
    · cases h
  | endPause i raises =>
    simp only [Klippy.next] at h
    split_ifs at h with hpausing
    obtain rfl := Option.some_inj.1 h
    exact hs.endPause hpausing.1 raises
  | starting i =>
    simp only [Klippy.next] at h
    split_ifs at h
    obtain rfl := Option.some_inj.1 h
    unfold handleStarting
    dsimp only
    split_ifs
    · exact hs
    · exact hs.schedule _
  | invokeShutdown msg =>
    obtain rfl := Option.some_inj.1 h
    exact hs.invokeShutdown s.asyncQueue msg
  | invokeAsyncShutdown msg =>
    obtain rfl := Option.some_inj.1 h
    exact hs.schedule msg
  | runAsync index =>
    obtain ⟨msg, -, rfl⟩ := Option.map_eq_some_iff.1 h
    exact hs.invokeShutdown _ msg
  | callHandler raises =>
    simp only [Klippy.next] at h
    split_ifs at h with hshutdown
    obtain ⟨handler, hhandler, rfl⟩ := Option.map_eq_some_iff.1 h
    exact hs.callHandler hshutdown hhandler raises
  | command cmd =>
    obtain rfl := Option.some_inj.1 h
    exact hs.dispatch cmd
  | sdCommand cmd =>
    simp only [Klippy.next] at h
    have hd := hs.dispatch cmd.key
    split at h <;> rename_i hsnd <;> rw [hsnd] at hd <;> obtain rfl := Option.some_inj.1 h
    · exact hd.afterCommand _
    · exact hd
  | proceed index raises =>
    obtain ⟨w, -, h⟩ := Option.bind_eq_some_iff.1 h
    obtain ⟨result, -, rfl⟩ := Option.map_eq_some_iff.1 h
    exact (hs.print _ _ _).afterCommand result
  | begin =>
    simp only [Klippy.next] at h
    split_ifs at h
    obtain rfl := Option.some_inj.1 h
    exact hs.print _ _ _
  | turn count recovery =>
    simp only [Klippy.next] at h
    split_ifs at h
    obtain rfl := Option.some_inj.1 h
    exact hs.workLine count recovery
  | done failed =>
    simp only [Klippy.next] at h
    split_ifs at h
    obtain rfl := Option.some_inj.1 h
    exact hs.print _ _ _

theorem inv_of_reachable (h : (system n upper).Reachable s) : Inv s :=
  h.invariant (I := Inv) (fun _ hs => Starts.inv hs) fun _ _ _ hs _ h => Inv.next hs h

/-! ## After a shutdown -/

/-- No command has been executed but those of the base table. -/
def Refuses (s t : Klippy n) : Prop :=
  t.gcode.baseGcodeHandlers = s.gcode.baseGcodeHandlers ∧
    ∃ l, t.executed = s.executed ++ l ∧ ∀ key ∈ l, key ∈ s.gcode.baseGcodeHandlers

theorem Refuses.refl (s : Klippy n) : Refuses s s :=
  ⟨rfl, [], by simp, nofun⟩

theorem Refuses.trans {u : Klippy n} (h : Refuses s t) (h' : Refuses t u) : Refuses s u := by
  obtain ⟨hbase, l, hl, hmem⟩ := h
  obtain ⟨hbase', l', hl', hmem'⟩ := h'
  refine ⟨hbase'.trans hbase, l ++ l', by rw [hl', hl, List.append_assoc], fun key hkey => ?_⟩
  rcases List.mem_append.1 hkey with hkey | hkey
  · exact hmem key hkey
  · exact hbase ▸ hmem' key hkey

/-- A change that the dispatch of commands and the loop of `invoke_shutdown` do not see. -/
theorem Finished.of_eq (hs : s.Finished)
    (hprinter : t.printer.inShutdownState = s.printer.inShutdownState)
    (hhandlers : t.handlers = s.handlers) (hnext : t.nextHandler = s.nextHandler)
    (hgcode : t.gcode = s.gcode) (hexecuted : t.executed = s.executed) :
    t.Finished ∧ Refuses s t := by
  refine ⟨⟨hprinter.trans hs.1, ?_⟩, by rw [hgcode], [], by simp [hexecuted], nofun⟩
  rw [hnext, hhandlers]
  exact hs.2

theorem Finished.invokeShutdown (hs : s.Finished) (msg : Text) : s.invokeShutdown msg = s :=
  if_pos hs.1

/-- A printer that is not ready executes only commands of the base table. -/
theorem Finished.dispatch (hs : s.Finished) (hready : s.gcode.isPrinterReady = false)
    (cmd : Text) : (s.dispatch cmd).2.Finished ∧ Refuses s (s.dispatch cmd).2 := by
  unfold Klippy.dispatch
  dsimp only
  split
  · rename_i key hkey
    have hexecuted : ({ s with executed := s.executed ++ [key] } : Klippy n).Finished := hs
    rw [hexecuted.invokeShutdown, ite_self]
    refine ⟨hexecuted, rfl, [key], rfl, fun key' hkey' => ?_⟩
    obtain rfl := List.mem_singleton.1 hkey'
    exact GCodeDispatch.mem_base_of_lookup hready hkey
  · exact ⟨hs, Refuses.refl s⟩

theorem Finished.workLine (hs : s.Finished) (hready : s.gcode.isPrinterReady = false) (count : ℕ)
    (recovery : Option ℕ) :
    (s.workLine upper count recovery).Finished ∧ Refuses s (s.workLine upper count recovery) := by
  unfold Klippy.workLine
  dsimp only
  have hturn : ({ s with pauseResume := { s.pauseResume with
      vSd := s.pauseResume.vSd.workStep count recovery } } : Klippy n).Finished := hs
  split
  · rename_i line _ _ _ _
    have hd := hturn.dispatch hready (command upper line)
    split <;> rename_i hsnd <;> rw [hsnd] at hd
    · exact hd
    · exact hd
  · exact ⟨hs, Refuses.refl s⟩

/-- Once `invoke_shutdown` has run, a step executes only commands of the base table. -/
theorem Finished.next (hs : s.Finished) (hinv : Inv s) {a : Event n}
    (h : Klippy.next upper s a = some t) : t.Finished ∧ Refuses s t := by
  have hready : s.gcode.isPrinterReady = false :=
    hinv.notReady (by rw [hs.2, List.take_length]; exact hinv.gcode)
  cases a with
  | identify i =>
    obtain rfl := Option.some_inj.1 h
    exact hs.of_eq rfl rfl rfl rfl rfl
  | error msg =>
    obtain rfl := Option.some_inj.1 h
    exact hs.of_eq (s.printer.inShutdownState_setState msg) rfl rfl rfl rfl
  | ready =>
    obtain rfl := Option.some_inj.1 h
    have hfixed := (hinv.fixed hs.1).setState messageReady
    unfold Klippy.ready
    dsimp only
    rw [if_neg hfixed.1]
    exact hs.of_eq (s.printer.inShutdownState_setState _) rfl rfl rfl rfl
  | shutdown i params =>
    simp only [Klippy.next] at h
    split_ifs at h
    obtain rfl := Option.some_inj.1 h
    exact hs.of_eq rfl rfl rfl rfl rfl
  | handle i =>
    simp only [Klippy.next] at h
    split at h
    · obtain rfl := Option.some_inj.1 h
      unfold handleShutdown
      dsimp only
      split_ifs <;> exact hs.of_eq rfl rfl rfl rfl rfl
    · cases h
  | endPause i raises =>
    simp only [Klippy.next] at h
    split_ifs at h
    obtain rfl := Option.some_inj.1 h
    cases raises <;> exact hs.of_eq rfl rfl rfl rfl rfl
  | starting i =>
    simp only [Klippy.next] at h
    split_ifs at h
    obtain rfl := Option.some_inj.1 h
    unfold handleStarting
    dsimp only
    split_ifs <;> exact hs.of_eq rfl rfl rfl rfl rfl
  | invokeShutdown msg =>
    obtain rfl := Option.some_inj.1 h
    rw [hs.invokeShutdown]
    exact ⟨hs, Refuses.refl s⟩
  | invokeAsyncShutdown msg =>
    obtain rfl := Option.some_inj.1 h
    exact hs.of_eq rfl rfl rfl rfl rfl
  | runAsync index =>
    obtain ⟨msg, -, rfl⟩ := Option.map_eq_some_iff.1 h
    have hqueue : ({ s with asyncQueue := s.asyncQueue.eraseIdx index } : Klippy n).Finished := hs
    rw [hqueue.invokeShutdown]
    exact hs.of_eq rfl rfl rfl rfl rfl
  | callHandler raises =>
    simp only [Klippy.next] at h
    split_ifs at h
    -- The loop is at its end.
    rw [hs.2, List.getElem?_eq_none le_rfl] at h
    cases h
  | command cmd =>
    obtain rfl := Option.some_inj.1 h
    exact hs.dispatch hready cmd
  | sdCommand cmd =>
    simp only [Klippy.next] at h
    have hd := hs.dispatch hready cmd.key
    split at h <;> rename_i hsnd <;> rw [hsnd] at hd <;> obtain rfl := Option.some_inj.1 h
    · generalize cmd.start _ = result
      cases result <;> exact hd
    · exact hd
  | proceed index raises =>
    obtain ⟨w, -, h⟩ := Option.bind_eq_some_iff.1 h
    obtain ⟨result, -, rfl⟩ := Option.map_eq_some_iff.1 h
    cases result <;> exact hs.of_eq rfl rfl rfl rfl rfl
  | begin =>
    simp only [Klippy.next] at h
    split_ifs at h
    obtain rfl := Option.some_inj.1 h
    exact hs.of_eq rfl rfl rfl rfl rfl
  | turn count recovery =>
    simp only [Klippy.next] at h
    split_ifs at h
    obtain rfl := Option.some_inj.1 h
    exact hs.workLine hready count recovery
  | done failed =>
    simp only [Klippy.next] at h
    split_ifs at h
    obtain rfl := Option.some_inj.1 h
    exact hs.of_eq rfl rfl rfl rfl rfl

theorem inShutdownState_invokeShutdown (hs : s.printer.inShutdownState = true) (msg : Text) :
    (s.invokeShutdown msg).printer.inShutdownState = true := by
  rw [Klippy.invokeShutdown, if_pos hs]
  exact hs

theorem inShutdownState_dispatch (hs : s.printer.inShutdownState = true) (cmd : Text) :
    (s.dispatch cmd).2.printer.inShutdownState = true := by
  unfold dispatch
  dsimp only
  split
  · split_ifs
    · refine inShutdownState_invokeShutdown ?_ _
      exact hs
    · exact hs
  · exact hs

theorem inShutdownState_afterCommand (s : Klippy n) (result : SdResult) :
    (s.afterCommand result).printer.inShutdownState = s.printer.inShutdownState := by
  cases result <;> rfl

theorem inShutdownState_workLine (hs : s.printer.inShutdownState = true) (count : ℕ)
    (recovery : Option ℕ) :
    (s.workLine upper count recovery).printer.inShutdownState = true := by
  unfold workLine
  dsimp only
  split
  · rename_i line _ _ _ _
    have hturn : ({ s with pauseResume := { s.pauseResume with
        vSd := s.pauseResume.vSd.workStep count recovery } } : Klippy n).printer.inShutdownState =
          true := hs
    have hd := inShutdownState_dispatch hturn (command upper line)
    split <;> rename_i hsnd <;> rw [hsnd] at hd <;> exact hd
  · exact hs

/-- The shutdown state is never left. -/
theorem inShutdownState_next (hs : s.printer.inShutdownState = true) {a : Event n}
    (h : Klippy.next upper s a = some t) : t.printer.inShutdownState = true := by
  cases a with
  | error msg =>
    obtain rfl := Option.some_inj.1 h
    exact (s.printer.inShutdownState_setState msg).trans hs
  | ready =>
    obtain rfl := Option.some_inj.1 h
    have hready := (s.printer.inShutdownState_setState messageReady).trans hs
    unfold Klippy.ready
    dsimp only
    split_ifs <;> exact hready
  | handle i =>
    simp only [Klippy.next] at h
    split at h
    · obtain rfl := Option.some_inj.1 h
      unfold handleShutdown
      dsimp only
      split_ifs <;> exact hs
    · cases h
  | endPause i raises =>
    simp only [Klippy.next] at h
    split_ifs at h
    obtain rfl := Option.some_inj.1 h
    cases raises <;> exact hs
  | starting i =>
    simp only [Klippy.next] at h
    split_ifs at h
    obtain rfl := Option.some_inj.1 h
    unfold handleStarting
    dsimp only
    split_ifs <;> exact hs
  | invokeShutdown msg =>
    obtain rfl := Option.some_inj.1 h
    exact inShutdownState_invokeShutdown hs msg
  | runAsync index =>
    obtain ⟨msg, -, rfl⟩ := Option.map_eq_some_iff.1 h
    refine inShutdownState_invokeShutdown ?_ msg
    exact hs
  | callHandler raises =>
    simp only [Klippy.next] at h
    split_ifs at h
    obtain ⟨handler, -, rfl⟩ := Option.map_eq_some_iff.1 h
    rw [callHandler_eq]
    cases handler <;> exact hs
  | command cmd =>
    obtain rfl := Option.some_inj.1 h
    exact inShutdownState_dispatch hs cmd
  | sdCommand cmd =>
    simp only [Klippy.next] at h
    have hd := inShutdownState_dispatch hs cmd.key
    split at h <;> rename_i hsnd <;> rw [hsnd] at hd <;> obtain rfl := Option.some_inj.1 h
    · exact (inShutdownState_afterCommand _ _).trans hd
    · exact hd
  | proceed index raises =>
    obtain ⟨w, -, h⟩ := Option.bind_eq_some_iff.1 h
    obtain ⟨result, -, rfl⟩ := Option.map_eq_some_iff.1 h
    exact (inShutdownState_afterCommand _ result).trans hs
  | turn count recovery =>
    simp only [Klippy.next] at h
    split_ifs at h
    obtain rfl := Option.some_inj.1 h
    exact inShutdownState_workLine hs count recovery
  | identify | invokeAsyncShutdown =>
    obtain rfl := Option.some_inj.1 h
    exact hs
  | shutdown | begin | done =>
    simp only [Klippy.next] at h
    split_ifs at h
    obtain rfl := Option.some_inj.1 h
    exact hs

/-- A reason that only pauses the print does so : the worker is off, or will stop. -/
theorem mustPauseWork_of_handle {i : Fin n} (hpause : PausesPrint (s.mcus i).shutdownMsg)
    (hresume : s.hasPauseResume = true) (h : Klippy.next upper s (.handle i) = some t) :
    s.pauseResume.pauseCommandSent = true ∨ t.pauseResume.isSdActive = false ∨
      t.pauseResume.vSd.mustPauseWork = true := by
  simp only [Klippy.next] at h
  split at h
  · obtain rfl := Option.some_inj.1 h
    simp only [handleShutdown, hpause, hresume, if_true, Bool.true_eq_false, if_false]
    unfold PauseResume.sendPauseCommand
    split_ifs with hsent hactive
    · exact Or.inl hsent
    · refine Or.inr (Or.inr ?_)
      simp only [VirtualSd.doPause]
      rw [if_pos (show s.pauseResume.vSd.isActive = true from hactive)]
    · exact Or.inr (Or.inl (by simpa [PauseResume.isSdActive] using hactive))
  · cases h

/-! ## What a shutdown reaches -/

/-- A shutdown that was handled has stopped the printer, or is about to, or has one of the
reasons that only pause the print. Once `invoke_shutdown` has run, every micro-controller that
was connected then and has not reported a shutdown was sent `emergency_stop`, every handler was
called once, the printer is never ready again, and only commands that need no printer that is
ready are executed. -/
theorem shutdown_of_reachable (h : (system n upper).Reachable s) :
    (∀ i, (s.mcus i).isShutdown = true → (s.mcus i).handling = .idle →
      s.Stopping ∨ PausesPrint (s.mcus i).shutdownMsg) ∧
    (∀ i t, PausesPrint (s.mcus i).shutdownMsg → s.hasPauseResume = true →
      Klippy.next upper s (.handle i) = some t → s.pauseResume.pauseCommandSent = true ∨
        t.pauseResume.isSdActive = false ∨ t.pauseResume.vSd.mustPauseWork = true) ∧
    (s.Finished → (∀ i, (s.mcus i).connected = true → (s.mcus i).isShutdown = true ∨
      0 < (s.mcus i).emergencyStops) ∧ ∀ k < s.handlers.length, s.called.count k = 1) ∧
    ∀ events t, (system n upper).run s events = some t →
      (s.printer.inShutdownState = true → t.printer.stateMessage ≠ messageReady) ∧
      (s.Finished → t.Finished ∧ Refuses s t) := by
  have hinv := inv_of_reachable h
  refine ⟨hinv.reported, ?_, fun hfinished => ⟨fun i hi => ?_, fun k hk => ?_⟩,
    fun events t ht => ⟨fun hs => ?_, fun hs => ?_⟩⟩
  · exact fun i t hpause hresume ht => mustPauseWork_of_handle hpause hresume ht
  · refine hinv.stopped i ?_ hi
    rw [hfinished.2, List.take_length]
    exact hinv.mcu i
  · rw [hinv.called, hfinished.2]
    exact List.count_eq_one_of_mem List.nodup_range (List.mem_range.2 hk)
  · have hrun := System.run_rel (M := system n upper) (I := Inv)
      (R := fun s t => s.printer.inShutdownState = true → t.printer.inShutdownState = true)
      (fun _ => id) (fun _ _ _ h h' => h' ∘ h)
      (fun _ _ _ hs h => ⟨Inv.next hs h, fun hs => inShutdownState_next hs h⟩) hinv ht
    exact (hrun.1.fixed (hrun.2 hs)).1
  · have hrun := System.run_rel (M := system n upper) (I := fun s => Inv s ∧ s.Finished)
      (R := Refuses) Refuses.refl (fun _ _ _ => Refuses.trans)
      (fun _ _ _ hs h => ⟨⟨Inv.next hs.1 h, (hs.2.next hs.1 h).1⟩, (hs.2.next hs.1 h).2⟩)
      ⟨hinv, hs⟩ ht
    exact ⟨hrun.1.2, hrun.2⟩

/-- A micro-controller that is not connected. -/
def unconnected (name : Text) : HostMcu where
  name := name
  isShutdown := false
  shutdownClock := 0
  shutdownMsg := []
  lastClock := 0
  emergencyStopCmd := false
  emergencyStops := 0
  handling := .idle
  connected := false

/-- A printer with two micro-controllers. -/
def twoMcus : Klippy 2 where
  printer := ⟨messageStartup, false, false, none⟩
  mcus := ![unconnected "mcu".toList, unconnected "tool".toList]
  asyncQueue := []
  handlers := [.mcu 0, .mcu 1, .gcode, .virtualSd]
  nextHandler := 0
  gcode := ⟨false, ["M112".toList], ["M112", "G1", "M24", "SDCARD_PRINT_FILE"].map String.toList⟩
  hasPauseResume := true
  pauseResume := ⟨.start, false, false, false⟩
  waits := []
  called := []
  executed := []

theorem starts_twoMcus : twoMcus.Starts := by
  refine ⟨rfl, rfl, ?_, ?_, ?_, ?_, ?_, rfl, rfl, rfl, rfl, rfl, rfl, rfl, ?_, by decide⟩ <;>
    intro i <;> fin_cases i <;> first | rfl | decide

/-- The first line of a file has been executed. -/
def printing : List (Event 2) :=
  [.identify 0, .identify 1, .ready,
    .sdCommand (.sdcardPrintFile (some ("G1 X1\nG1 X2\n".toList, false, none))), .begin,
    .turn 8192 none, .turn 8192 none, .done false]

/-- The second micro-controller stops for a reason that shuts the printer down. -/
def stopped : List (Event 2) :=
  printing ++ [.shutdown 1 ⟨"shutdown".toList, some 7, "ADC out of range".toList⟩, .handle 1,
    .runAsync 0, .callHandler true, .callHandler false, .callHandler true, .callHandler false,
    .turn 8192 none, .command "G1".toList]

/-- The first micro-controller is sent `emergency_stop` although handlers raise exceptions. -/
theorem shutdown_of_reachable_stopped :
    ∃ s, (system 2 (·.map Char.toUpper)).run twoMcus stopped = some s ∧ s.Finished ∧
      0 < (s.mcus 0).emergencyStops ∧ ∀ k < 4, s.called.count k = 1 := by
  have hrun : ((system 2 (·.map Char.toUpper)).run twoMcus stopped).map (fun s =>
      (s.printer.inShutdownState, s.nextHandler, s.handlers, (s.mcus 0).connected,
        (s.mcus 0).isShutdown)) =
      some (true, 4, [.mcu 0, .mcu 1, .gcode, .virtualSd], true, false) := by decide +kernel
  obtain ⟨s, hs, heq⟩ := Option.map_eq_some_iff.1 hrun
  simp only [Prod.mk.injEq] at heq
  obtain ⟨hshutdown, hnext, hhandlers, hconnected, hisShutdown⟩ := heq
  have hfinished : s.Finished := ⟨hshutdown, by rw [hnext, hhandlers]; rfl⟩
  obtain ⟨hstops, hcalled⟩ :=
    (shutdown_of_reachable (System.Reachable.run (.init starts_twoMcus) hs)).2.2.1 hfinished
  rw [hhandlers] at hcalled
  exact ⟨s, hs, hfinished, (hstops 0 hconnected).resolve_left (by simp [hisShutdown]), hcalled⟩

/-- The second micro-controller stops for a reason that only pauses the print, which is then
resumed. -/
def pausedAndResumed : List (Event 2) :=
  printing ++ [.shutdown 1 ⟨"shutdown".toList, some 7, "Timer too close".toList⟩, .handle 1,
    .turn 8192 none, .endPause 1 false, .sdCommand .m24, .begin, .turn 8192 none,
    .turn 8192 none]

/-- A print goes on while a micro-controller is shut down, and nothing is scheduled that would
stop it. -/
theorem not_stopping_paused :
    ∃ s, (system 2 (·.map Char.toUpper)).Reachable s ∧ (s.mcus 1).isShutdown = true ∧
      (s.mcus 1).handling = .idle ∧ ¬s.Stopping ∧
      s.executed = ["SDCARD_PRINT_FILE", "G1", "M24", "G1"].map String.toList := by
  have hrun : ((system 2 (·.map Char.toUpper)).run twoMcus pausedAndResumed).map (fun s =>
      decide ((s.mcus 1).isShutdown = true ∧ (s.mcus 1).handling = .idle ∧
        s.printer.inShutdownState = false ∧ s.asyncQueue = [] ∧
        s.executed = ["SDCARD_PRINT_FILE", "G1", "M24", "G1"].map String.toList)) = some true := by
    decide +kernel
  obtain ⟨s, hs, heq⟩ := Option.map_eq_some_iff.1 hrun
  obtain ⟨hisShutdown, hhandling, hshutdown, hqueue, hexecuted⟩ := of_decide_eq_true heq
  exact ⟨s, System.Reachable.run (.init starts_twoMcus) hs, hisShutdown, hhandling,
    by simp [Stopping, hshutdown, hqueue], hexecuted⟩

end Klippy

end Thinker
