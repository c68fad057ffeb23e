import Thinker.PauseResume
import Thinker.Transition

/-!
# Filament sensors

`filament_switch_sensor.py` and `filament_motion_sensor.py` with `pause_on_runout` : a change of the
presence of filament schedules a handler, which pauses the print and runs a script, or only runs a
script. `min_event_systime` is never while a handler is scheduled or running, and some time ahead
afterwards; a change before that time is kept but not acted on, and is not looked at again.

A handler is cut where it waits, so that the rest of the host may run in between. Beside the state
of the sensor a run keeps the absences of filament by their number, those that a pause was sent
for, and those that began while the sensor was listening (`Listening`).
-/

namespace Thinker

/-- The options of a sensor. A sensor with a detection length is an `EncoderSensor`. -/
structure RunoutConfig where
  /-- Whether there is an `insert_gcode`. -/
  insertGcode : Bool
  pauseDelay : ℚ
  eventDelay : ℚ
  detectionLength : Option ℚ
  pauseDelay_pos : 0 < pauseDelay
  eventDelay_pos : 0 < eventDelay
  detectionLength_pos : ∀ l ∈ detectionLength, 0 < l

/-- The states of `idle_timeout`. -/
inductive IdleState where
  | printing
  | ready
  | idle
  deriving DecidableEq, Repr

/-- How far an event handler of the sensor is. -/
inductive RunoutHandler where
  | none
  | insertScheduled
  /-- `_runout_event_handler` for an absence is registered. -/
  | runoutScheduled (absence : ℕ)
  /-- In `send_pause_command`, called at a time. -/
  | sending (eventtime : ℚ)
  /-- In `reactor.pause` up to a time. -/
  | pausing (waketime : ℚ)
  /-- In `run_script`. -/
  | script
  deriving DecidableEq, Repr

/-- What happens to a sensor. -/
inductive RunoutEvent where
  /-- Time passes. -/
  | wait (dt : ℚ)
  /-- `klippy:ready`, at a position of the extruder. -/
  | ready (extruderPos : ℚ)
  /-- The state of `idle_timeout` changes, with its event or without. -/
  | idleState (state : IdleState) (announced : Bool)
  /-- The pin changes, at a position of the extruder. -/
  | button (state : Bool) (extruderPos : ℚ)
  /-- `_extruder_pos_update_event`, at a position of the extruder. -/
  | extruderTimer (extruderPos : ℚ)
  | setFilamentSensor (enable : ℤ)
  /-- Other commands change the state of `pause_resume`. -/
  | host (pauseResume : PauseResume)
  /-- The scheduled handler starts. -/
  | start
  /-- `send_pause_command` returns. -/
  | sent
  /-- `reactor.pause` returns. -/
  | woken
  /-- `run_script` returns or raises. -/
  | finish (ok : Bool)

/-- A `RunoutHelper` with the sensor that it belongs to. -/
structure RunoutHelper where
  now : ℚ
  /-- When the printer became ready. -/
  readyTime : Option ℚ
  /-- `none` is `NEVER`. -/
  minEventSystime : Option ℚ
  filamentPresent : Bool
  sensorEnabled : ℤ
  idleState : IdleState
  pauseResume : PauseResume
  filamentRunoutPos : Option ℚ
  /-- Whether the timer of the extruder position is scheduled. -/
  timerArmed : Bool
  handler : RunoutHandler
  /-- When the last handler ended. -/
  lastEnd : Option ℚ
  /-- The number of the last absence of filament. -/
  absence : ℕ
  /-- The absences that a pause was sent for. -/
  paused : List ℕ
  /-- The absences that began while the sensor was listening. -/
  heard : List ℕ
  /-- Since when filament is absent in a print, with the sensor enabled and without a handler. -/
  absentSince : Option ℚ

namespace RunoutHelper

variable (c : RunoutConfig) (s : RunoutHelper)

/-- `RunoutHelper.__init__`. -/
def init (now : ℚ) (pauseResume : PauseResume) : RunoutHelper where
  now := now
  readyTime := none
  minEventSystime := none
  filamentPresent := false
  sensorEnabled := 1
  idleState := .idle
  pauseResume := pauseResume
  filamentRunoutPos := none
  timerArmed := false
  handler := .none
  lastEnd := none
  absence := 0
  paused := []
  heard := []
  absentSince := none

/-- The test of the time and of `sensor_enabled` in `note_filament_present`. -/
def isIgnored : Bool :=
  s.minEventSystime.all (s.now < ·) || s.sensorEnabled == 0

/-- The sensor is enabled and no handler is scheduled or running, `event_delay` has passed since the
last one ended and two seconds since the printer became ready. -/
def Listening : Prop :=
  s.sensorEnabled ≠ 0 ∧ s.handler = .none ∧ (∀ t ∈ s.lastEnd, t + c.eventDelay ≤ s.now) ∧
    ∃ t ∈ s.readyTime, t + 2 ≤ s.now

instance : Decidable (s.Listening c) :=
  inferInstanceAs (Decidable (_ ∧ _ ∧ _ ∧ ∃ t ∈ s.readyTime, t + 2 ≤ s.now))

/-- The filament runs out. The absence is numbered, whatever is done about it. -/
def runOut : RunoutHelper :=
  { s with
    filamentPresent := false
    absence := s.absence + 1
    heard := if s.Listening c ∧ s.idleState = .printing then s.heard ++ [s.absence + 1] else s.heard }

/-- `note_filament_present`. -/
def noteFilamentPresent (isFilamentPresent : Bool) : RunoutHelper :=
  if isFilamentPresent = s.filamentPresent then s
  else
    let t := if isFilamentPresent then { s with filamentPresent := true } else s.runOut c
    if s.isIgnored then t
    else if isFilamentPresent then
      if s.idleState ≠ .printing ∧ c.insertGcode then
        { t with minEventSystime := none, handler := .insertScheduled }
      else t
    else if s.idleState = .printing then
      { t with minEventSystime := none, handler := .runoutScheduled t.absence }
    else t

/-- `_update_filament_runout_pos`, with the detection length of the sensor. -/
def updateFilamentRunoutPos (extruderPos detectionLength : ℚ) : RunoutHelper :=
  { s with filamentRunoutPos := some (extruderPos + detectionLength) }

/-- `_handle_ready` of the helper and of the encoder. -/
def handleReady (extruderPos : ℚ) : RunoutHelper :=
  let t := { s with readyTime := some s.now, minEventSystime := some (s.now + 2) }
  c.detectionLength.elim t (t.updateFilamentRunoutPos extruderPos)

/-- `_handle_printing` and `_handle_not_printing` of the encoder. -/
def setIdleState (state : IdleState) (announced : Bool) : RunoutHelper :=
  { s with
    idleState := state
    timerArmed :=
      if announced && c.detectionLength.isSome then decide (state = .printing) else s.timerArmed }

/-- `_button_handler` of the switch and `encoder_event` of the encoder. -/
def buttonHandler (state : Bool) (extruderPos : ℚ) : RunoutHelper :=
  match c.detectionLength with
  | none => s.noteFilamentPresent c state
  | some l =>
    if s.readyTime.isSome then (s.updateFilamentRunoutPos extruderPos l).noteFilamentPresent c true
    else s

/-- `_runout_event_handler`, up to the wait of `send_pause_command` or of `reactor.pause`. -/
def runoutEventHandler (absence : ℕ) : RunoutHelper :=
  { s with
    pauseResume := s.pauseResume.sendPauseCommand
    paused := s.paused ++ [absence]
    handler :=
      if s.pauseResume.sendPauseCommand.pauseCommandSent then .pausing (s.now + c.pauseDelay)
      else .sending s.now }

/-- The end of `_exec_gcode`, which catches what the script raises. -/
def execGcodeDone : RunoutHelper :=
  { s with
    minEventSystime := some (s.now + c.eventDelay)
    handler := .none
    lastEnd := some s.now }

/-- What an event does, if it can happen. -/
def handle : RunoutEvent → Option RunoutHelper
  | .wait dt => if 0 ≤ dt then some { s with now := s.now + dt } else none
  | .ready extruderPos => if s.readyTime.isNone then some (s.handleReady c extruderPos) else none
  | .idleState state announced =>
    if s.readyTime.isSome then some (s.setIdleState c state announced) else none
  | .button state extruderPos => some (s.buttonHandler c state extruderPos)
  | .extruderTimer extruderPos =>
    if s.timerArmed then
      s.filamentRunoutPos.map fun pos => s.noteFilamentPresent c (extruderPos < pos)
    else none
  | .setFilamentSensor enable => some { s with sensorEnabled := enable }
  | .host pauseResume => some { s with pauseResume := pauseResume }
  | .start =>
    match s.handler with
    | .insertScheduled => some { s with handler := .script }
    | .runoutScheduled absence => some (s.runoutEventHandler c absence)
    | _ => none
  | .sent =>
    match s.handler with
    | .sending eventtime =>
      if s.pauseResume.vSd.Paused then
        some { s with
          pauseResume := { s.pauseResume with pauseCommandSent := true }
          handler := .pausing (eventtime + c.pauseDelay) }
      else none
    | _ => none
  | .woken =>
    match s.handler with
    | .pausing waketime => if waketime ≤ s.now then some { s with handler := .script } else none
    | _ => none
  | .finish _ => if s.handler = .script then some (s.execGcodeDone c) else none

/-- The sensor is enabled and filament absent in a print, without a handler. -/
def Absent : Prop :=
  s.sensorEnabled ≠ 0 ∧ s.filamentPresent = false ∧ s.idleState = .printing ∧ s.handler = .none

instance : Decidable s.Absent :=
  inferInstanceAs (Decidable (_ ∧ _ ∧ _ ∧ _))

/-- `absentSince` goes on or starts anew. -/
def mark : RunoutHelper :=
  { s with absentSince := if s.Absent then s.absentSince.getD s.now else none }

/-- The sensor with its print. -/
def system : System RunoutHelper RunoutEvent where
  init s := ∃ now pauseResume, s = init now pauseResume
  next s e := (s.handle c e).map mark

/-! ## The invariant -/

/-- The test of `note_filament_present` is about the last handler, and the absences that began while
the sensor was listening are those that a pause was sent for or that have their handler scheduled. -/
structure Good : Prop where
  deadline : s.handler = .none →
    s.minEventSystime = (s.lastEnd.map (· + c.eventDelay)).or (s.readyTime.map (· + 2))
  never : s.handler ≠ .none → s.minEventSystime = none
  started : s.handler ≠ .none ∨ s.lastEnd ≠ none → ∃ t ∈ s.readyTime, t + 2 ≤ s.now
  heard_iff : ∀ a, a ∈ s.heard ↔ a ∈ s.paused ∨ s.handler = .runoutScheduled a
  heard_le : ∀ a ∈ s.heard, a ≤ s.absence
  nodup : s.paused.Nodup
  fresh : ∀ a, s.handler = .runoutScheduled a → a ∉ s.paused

variable {c s}

theorem good_init (now : ℚ) (pauseResume : PauseResume) : (init now pauseResume).Good c := by
  constructor <;> simp [init]

/-- A change is looked at if the sensor is listening. -/
theorem Good.isIgnored_eq_false (h : s.Good c) : s.isIgnored = false ↔ s.Listening c := by
  unfold isIgnored Listening
  by_cases hn : s.handler = .none
  · rw [h.deadline hn]
    cases hl : s.lastEnd with
    | none =>
      cases s.readyTime with
      | none => simp
      | some t => simp [hn, and_comm]
    | some t =>
      have hr : ∃ r, r + 2 ≤ s.now ∧ s.readyTime = some r := by
        simpa [and_comm] using h.started (.inr (by simp [hl]))
      simp [hn, hr, and_comm]
  · simp [h.never hn, hn]

theorem Good.mark (h : s.Good c) : s.mark.Good c :=
  { h with }

theorem Good.wait (h : s.Good c) {dt : ℚ} (hdt : 0 ≤ dt) : Good c { s with now := s.now + dt } where
  __ := h
  started hs := by
    obtain ⟨t, ht, hle⟩ := h.started hs
    exact ⟨t, ht, by dsimp only; linarith⟩

theorem Good.handleReady (h : s.Good c) (hr : s.readyTime = none) (extruderPos : ℚ) :
    (s.handleReady c extruderPos).Good c := by
  have hnot : ¬(s.handler ≠ .none ∨ s.lastEnd ≠ none) := fun hs => by
    obtain ⟨t, ht, _⟩ := h.started hs
    simp [hr] at ht
  push Not at hnot
  have hgood : Good c { s with readyTime := some s.now, minEventSystime := some (s.now + 2) } :=
    { h with
      deadline := fun _ => by simp [hnot.2]
      never := fun hs => absurd hnot.1 hs
      started := fun hs => absurd hs (by simp [hnot.1, hnot.2]) }
  unfold RunoutHelper.handleReady
  cases c.detectionLength with
  | none => exact hgood
  | some l => exact { hgood with }

theorem Good.runOut (h : s.Good c) (hl : ¬(s.Listening c ∧ s.idleState = .printing)) :
    (s.runOut c).Good c where
  __ := h
  heard_iff a := by simpa [RunoutHelper.runOut, hl] using h.heard_iff a
  heard_le a ha := by
    have := h.heard_le a (by simpa [RunoutHelper.runOut, hl] using ha)
    simp [RunoutHelper.runOut]; omega

theorem Good.runOut_scheduled (h : s.Good c) (hl : s.Listening c) (hp : s.idleState = .printing) :
    Good c { s.runOut c with
      minEventSystime := none
      handler := .runoutScheduled (s.absence + 1) } := by
  have hpaused (a) (ha : a ∈ s.paused) : a ≤ s.absence := h.heard_le a ((h.heard_iff a).2 (.inl ha))
  have hiff (a) : a ∈ s.heard ↔ a ∈ s.paused := by simpa [hl.2.1] using h.heard_iff a
  refine
    { deadline := fun hn => by simp at hn
      never := fun _ => rfl
      started := fun _ => hl.2.2.2
      heard_iff := fun a => ?_
      heard_le := fun a ha => ?_
      nodup := h.nodup
      fresh := fun a ha hmem => ?_ }
  · simp [RunoutHelper.runOut, hl, hp, hiff, eq_comm]
  · simp only [RunoutHelper.runOut, hl, hp, and_self, if_true, List.mem_append,
      List.mem_singleton] at ha ⊢
    rcases ha with ha | rfl
    · exact Nat.le_succ_of_le (h.heard_le a ha)
    · exact le_rfl
  · obtain rfl := RunoutHandler.runoutScheduled.inj ha
    exact Nat.not_succ_le_self _ (hpaused _ hmem)

theorem Good.noteFilamentPresent (h : s.Good c) (b : Bool) : (s.noteFilamentPresent c b).Good c := by
  have hlisten := h.isIgnored_eq_false
  unfold RunoutHelper.noteFilamentPresent
  by_cases hb : b = s.filamentPresent
  · simpa [hb] using h
  · cases b with
    | true =>
      simp only [hb, if_false, if_true]
      have hset : Good c { s with filamentPresent := true } := { h with }
      split_ifs with hi hp
      · exact hset
      · have hl := hlisten.1 (by simpa using hi)
        exact
          { hset with
            deadline := fun hn => by simp at hn
            never := fun _ => rfl
            started := fun _ => hl.2.2.2
            heard_iff := fun a => by simpa [hl.2.1] using h.heard_iff a
            fresh := fun a ha => by simp at ha }
      · exact hset
    | false =>
      simp only [hb, if_false, Bool.false_eq_true]
      split_ifs with hi hp
      · exact h.runOut fun hl => by simp [hlisten.2 hl.1] at hi
      · exact h.runOut_scheduled (hlisten.1 (by simpa using hi)) hp
      · exact h.runOut fun hl => hp hl.2

theorem Good.setIdleState (h : s.Good c) (state : IdleState) (announced : Bool) :
    (s.setIdleState c state announced).Good c :=
  { h with }

theorem Good.updateFilamentRunoutPos (h : s.Good c) (extruderPos l : ℚ) :
    (s.updateFilamentRunoutPos extruderPos l).Good c :=
  { h with }

theorem Good.buttonHandler (h : s.Good c) (state : Bool) (extruderPos : ℚ) :
    (s.buttonHandler c state extruderPos).Good c := by
  unfold RunoutHelper.buttonHandler
  cases c.detectionLength with
  | none => exact h.noteFilamentPresent state
  | some l =>
    dsimp only
    split_ifs
    · exact (h.updateFilamentRunoutPos extruderPos l).noteFilamentPresent true
    · exact h

/-- A handler that goes on, and is not about to start one for an absence. -/
theorem Good.setHandler (h : s.Good c) (hn : s.handler ≠ .none)
    (ha : ∀ a, s.handler ≠ .runoutScheduled a) {r : RunoutHandler} (hn' : r ≠ .none)
    (ha' : ∀ a, r ≠ .runoutScheduled a) : Good c { s with handler := r } where
  __ := h
  deadline hs := absurd hs hn'
  never _ := h.never hn
  started _ := h.started (.inl hn)
  heard_iff a := by simpa [ha, ha'] using h.heard_iff a
  fresh a hs := absurd hs (ha' a)

theorem Good.runoutEventHandler (h : s.Good c) {a : ℕ} (ha : s.handler = .runoutScheduled a) :
    (s.runoutEventHandler c a).Good c := by
  have hgood : Good c { s with paused := s.paused ++ [a], handler := .script } :=
    { h with
      deadline := fun hs => by simp at hs
      never := fun _ => h.never (by simp [ha])
      started := fun _ => h.started (.inl (by simp [ha]))
      heard_iff := fun b => by simp [h.heard_iff, ha, eq_comm]
      nodup := by simpa [List.nodup_append, List.forall_mem_ne'] using ⟨h.nodup, h.fresh a ha⟩
      fresh := fun b hb => by simp at hb }
  have hset := hgood.setHandler (by simp) (by simp)
    (r := (s.runoutEventHandler c a).handler)
    (by unfold RunoutHelper.runoutEventHandler; split_ifs <;> simp)
    (by unfold RunoutHelper.runoutEventHandler; split_ifs <;> simp)
  exact { hset with }

theorem Good.execGcodeDone (h : s.Good c) (hs : s.handler = .script) :
    (s.execGcodeDone c).Good c where
  __ := h
  deadline _ := rfl
  never hn := absurd rfl hn
  started _ := h.started (.inl (by simp [hs]))
  heard_iff a := by simpa [RunoutHelper.execGcodeDone, hs] using h.heard_iff a
  fresh a ha := by simp [RunoutHelper.execGcodeDone] at ha

/-- What one event keeps. -/
theorem Good.handle {t : RunoutHelper} {e : RunoutEvent} (h : s.Good c) (he : s.handle c e = some t) :
    t.Good c := by
  cases e with
  | wait dt =>
    simp only [RunoutHelper.handle, Option.ite_none_right_eq_some, Option.some_inj] at he
    exact he.2 ▸ h.wait he.1
  | ready extruderPos =>
    simp only [RunoutHelper.handle, Option.ite_none_right_eq_some, Option.some_inj,
      Option.isNone_iff_eq_none] at he
    exact he.2 ▸ h.handleReady he.1 extruderPos
  | idleState state announced =>
    simp only [RunoutHelper.handle, Option.ite_none_right_eq_some, Option.some_inj] at he
    exact he.2 ▸ h.setIdleState state announced
  | button state extruderPos => exact Option.some_inj.1 he ▸ h.buttonHandler state extruderPos
  | extruderTimer extruderPos =>
    simp only [RunoutHelper.handle, Option.ite_none_right_eq_some, Option.map_eq_some_iff] at he
    obtain ⟨_, pos, _, rfl⟩ := he
    exact h.noteFilamentPresent _
  | setFilamentSensor enable => exact Option.some_inj.1 he ▸ { h with }
  | host pauseResume => exact Option.some_inj.1 he ▸ { h with }
  | start =>
    simp only [RunoutHelper.handle] at he
    split at he
    · rename_i hs
      exact Option.some_inj.1 he ▸ h.setHandler (by simp [hs]) (by simp [hs]) (by simp) (by simp)
    · rename_i a hs
      exact Option.some_inj.1 he ▸ h.runoutEventHandler hs
    · cases he
  | sent =>
    simp only [RunoutHelper.handle] at he
    split at he
    · rename_i eventtime hs
      simp only [Option.ite_none_right_eq_some, Option.some_inj] at he
      have hset := h.setHandler (r := .pausing (eventtime + c.pauseDelay)) (by simp [hs])
        (by simp [hs]) (by simp) (by simp)
      exact he.2 ▸ { hset with }
    · cases he
  | woken =>
    simp only [RunoutHelper.handle] at he
    split at he
    · rename_i waketime hs
      simp only [Option.ite_none_right_eq_some, Option.some_inj] at he
      exact he.2 ▸ h.setHandler (by simp [hs]) (by simp [hs]) (by simp) (by simp)
    · cases he
  | finish ok =>
    simp only [RunoutHelper.handle, Option.ite_none_right_eq_some, Option.some_inj] at he
    exact he.2 ▸ h.execGcodeDone he.1

/-- What every run keeps. -/
theorem Reachable.good {s : RunoutHelper} (h : (system c).Reachable s) : s.Good c := by
  refine h.invariant ?_ ?_
  · rintro s ⟨now, pauseResume, rfl⟩
    exact good_init now pauseResume
  · intro s e t hs _ hst
    obtain ⟨u, hu, rfl⟩ := Option.map_eq_some_iff.1 hst
    exact (hs.handle hu).mark

/-! ## Runouts -/

/-- A switch sensor with the defaults of its options. -/
def switchSensor : RunoutConfig where
  insertGcode := false
  pauseDelay := 1 / 2
  eventDelay := 3
  detectionLength := none
  pauseDelay_pos := by norm_num
  eventDelay_pos := by norm_num
  detectionLength_pos := by simp

/-- Filament runs out in a print and is replaced, and runs out again during `event_delay`. -/
def runOutTwice : List RunoutEvent :=
  [.ready 0, .button true 0, .idleState .printing true, .wait 3, .button false 0, .start, .wait 1,
    .woken, .finish true, .button true 0, .wait 1, .button false 0, .wait 10]

theorem run_runOutTwice :
    ((system switchSensor).run (init 0 ⟨.start, false, false, false⟩) runOutTwice).map
      (fun s => (s.absence, s.paused, s.absentSince, s.now, s.readyTime)) =
    some (2, [1], some 5, 15, some 0) := by
  decide +kernel

theorem reachable_runOutTwice : ∃ s, (system switchSensor).Reachable s ∧ s.absence = 2 ∧
    s.paused = [1] ∧ s.absentSince = some 5 ∧ s.now = 15 ∧ s.readyTime = some 0 := by
  obtain ⟨s, hs, heq⟩ := Option.map_eq_some_iff.1 run_runOutTwice
  simp only [Prod.mk.injEq] at heq
  exact ⟨s, System.Reachable.run (.init ⟨_, _, rfl⟩) hs, heq⟩

/-- The runout is noticed once filament has been absent for longer than `event_delay`, more than two
seconds after the printer became ready. -/
def PauseSent (c : RunoutConfig) (s : RunoutHelper) : Prop :=
  ∀ since ∈ s.absentSince, since + c.eventDelay < s.now →
    (∃ t ∈ s.readyTime, t + 2 < s.now) → s.absence ∈ s.paused

end RunoutHelper

end Thinker
