import Mathlib.Algebra.Order.Field.Basic
import Mathlib.Data.Fin.VecNotation
import Mathlib.Data.List.Sort
import Mathlib.Tactic
import Thinker.Numerals
import Thinker.Transition

/-!
# Probe sessions

The sessions of `pressure_sensor.py` : `run_probe` measures until the samples agree, and leaves the
result for `pull_probed_results`. A run keeps, for each probing of the session since the last pull,
what was asked for and measured, and what the pulls have returned.

A median is returned to the caller and not left, and a homing with the probe ends the session of
others. Without both the pulls return what was measured (`SessionRun.returns_of_reachable`).
-/

set_option linter.unusedSectionVars false

namespace Thinker

variable {K : Type} [Field K] [LinearOrder K] [IsStrictOrderedRing K]

/-! ## A probing -/

/-- What `run_probe` gets from the command, and whether it reads the sensor without a probing move.
-/
structure ProbeParams (K : Type) where
  samples : ℕ
  samples_pos : 1 ≤ samples
  samplesTolerance : K
  samplesRetries : ℕ
  samplesResult : String
  bdSensor : Bool

/-- `_calc_mean`. -/
def calcMean (positions : List (Fin 3 → K)) : Fin 3 → K :=
  fun i => (positions.map fun pos => pos i).sum / positions.length

/-- `_calc_median`. -/
def calcMedian (positions : List (Fin 3 → K)) : Fin 3 → K :=
  let zSorted := positions.insertionSort fun p q => p 2 ≤ q 2
  let middle := positions.length / 2
  if positions.length % 2 = 1 then zSorted.getD middle 0
  else calcMean ((zSorted.take (middle + 1)).drop (middle - 1))

/-- `max(z_positions) - min(z_positions)`. -/
def zSpread (positions : List (Fin 3 → K)) : K :=
  let zPositions := positions.map fun pos => pos 2
  zPositions.max?.getD 0 - zPositions.min?.getD 0

/-- A measurement, which may raise, and whether the move after it raises. -/
structure Sample (K : Type) where
  pos : Option (Fin 3 → K)
  retractRaises : Bool

/-- Samples within a spread are that close to each other. -/
theorem sub_le_zSpread {positions : List (Fin 3 → K)} {q r : Fin 3 → K} (hq : q ∈ positions)
    (hr : r ∈ positions) : q 2 - r 2 ≤ zSpread positions := by
  have hq' : q 2 ∈ positions.map fun pos => pos 2 := List.mem_map_of_mem hq
  have hr' : r 2 ∈ positions.map fun pos => pos 2 := List.mem_map_of_mem hr
  obtain ⟨hi, hhi⟩ := Option.isSome_iff_exists.1
    (List.isSome_max?_iff.2 (List.ne_nil_of_mem hq'))
  obtain ⟨lo, hlo⟩ := Option.isSome_iff_exists.1
    (List.isSome_min?_iff.2 (List.ne_nil_of_mem hq'))
  have hqhi := (List.max?_eq_some_iff.1 hhi).2 _ hq'
  have hlor := (List.min?_eq_some_iff.1 hlo).2 _ hr'
  unfold zSpread
  dsimp only
  rw [hhi, hlo]
  exact sub_le_sub hqhi hlor

namespace ProbeParams

variable (p : ProbeParams K)

/-- The positions and the retries after a measurement, if the samples are not given up. -/
def checkTolerance (retries : ℕ) (positions : List (Fin 3 → K)) :
    Option (ℕ × List (Fin 3 → K)) :=
  if zSpread positions > p.samplesTolerance then
    if retries ≥ p.samplesRetries then none else some (retries + 1, [])
  else some (retries, positions)

/-- The loop of `run_probe`, with the measurements to come and all that were made. There is no
result where more are needed. -/
def measure : List (Sample K) → ℕ → List (Fin 3 → K) → List (Fin 3 → K) →
    Option (Except (Option String) (List (Fin 3 → K)) × List (Fin 3 → K))
  | samples, retries, positions, measured =>
    if positions.length < p.samples then
      match samples with
      | [] => none
      | ⟨none, _⟩ :: _ => some (.error none, measured)
      | ⟨some pos, retractRaises⟩ :: rest =>
        match p.checkTolerance retries (positions ++ [pos]) with
        | none => some (.error "Probe samples exceed samples_tolerance", measured ++ [pos])
        | some (retries, positions) =>
          if !p.bdSensor && positions.length < p.samples && retractRaises then
            some (.error none, measured ++ [pos])
          else measure rest retries positions (measured ++ [pos])
    else some (.ok positions, measured)

variable {p}

/-- What holds when the loop begins a turn: the samples are the last measurements, and none were
made in vain but for the retries. -/
structure Measuring (p : ProbeParams K) (retries : ℕ) (positions measured : List (Fin 3 → K)) :
    Prop where
  suffix : positions <:+ measured
  length_le : positions.length ≤ p.samples
  spread : positions ≠ [] → zSpread positions ≤ p.samplesTolerance
  retries_le : retries ≤ p.samplesRetries
  measured_le : measured.length ≤ p.samples * retries + positions.length

theorem Measuring.start (p : ProbeParams K) : Measuring p 0 [] [] :=
  ⟨List.suffix_rfl, Nat.zero_le _, fun hne => absurd rfl hne, Nat.zero_le _, Nat.zero_le _⟩

/-- The measurements a probing makes at most. -/
def mostSamples (p : ProbeParams K) : ℕ :=
  p.samples * (p.samplesRetries + 1)

theorem Measuring.measured_lt {retries : ℕ} {positions measured : List (Fin 3 → K)}
    (h : Measuring p retries positions measured) (hlt : positions.length < p.samples) :
    measured.length < p.mostSamples := by
  have hmul := Nat.mul_le_mul_left p.samples h.retries_le
  have hmeasured := h.measured_le
  rw [mostSamples, Nat.mul_succ]
  omega

/-- A measurement that is not the last one to be made. -/
theorem Measuring.check {retries retries' : ℕ} {positions positions' measured : List (Fin 3 → K)}
    {pos : Fin 3 → K} (h : Measuring p retries positions measured)
    (hlt : positions.length < p.samples)
    (hcheck : p.checkTolerance retries (positions ++ [pos]) = some (retries', positions')) :
    Measuring p retries' positions' (measured ++ [pos]) := by
  have hmeasured := h.measured_le
  unfold checkTolerance at hcheck
  split_ifs at hcheck with hspread hretries
  · obtain ⟨rfl, rfl⟩ := Prod.mk.inj (Option.some_inj.1 hcheck)
    refine ⟨List.nil_suffix, Nat.zero_le _, fun hne => absurd rfl hne, not_le.1 hretries, ?_⟩
    rw [List.length_append, List.length_singleton, Nat.mul_succ, List.length_nil]
    omega
  · obtain ⟨rfl, rfl⟩ := Prod.mk.inj (Option.some_inj.1 hcheck)
    refine ⟨?_, ?_, fun _ => not_lt.1 hspread, h.retries_le, ?_⟩
    · obtain ⟨earlier, rfl⟩ := h.suffix
      exact ⟨earlier, (List.append_assoc ..).symm⟩
    · rw [List.length_append, List.length_singleton]
      exact hlt
    · rw [List.length_append, List.length_append, List.length_singleton]
      omega

/-- What the loop comes to. -/
structure Measured (p : ProbeParams K) (out : Except (Option String) (List (Fin 3 → K)))
    (measured : List (Fin 3 → K)) : Prop where
  measured_le : measured.length ≤ p.mostSamples
  positions : ∀ positions, out = .ok positions → positions.length = p.samples ∧
    positions <:+ measured ∧ ∀ q ∈ positions, ∀ r ∈ positions, q 2 - r 2 ≤ p.samplesTolerance

theorem measured_done {retries : ℕ} {positions measured : List (Fin 3 → K)}
    (h : Measuring p retries positions measured) (hge : ¬positions.length < p.samples) :
    p.Measured (.ok positions) measured := by
  have hlength : positions.length = p.samples := h.length_le.antisymm (not_lt.1 hge)
  have hne : positions ≠ [] := by
    intro hnil
    rw [hnil] at hlength
    exact absurd p.samples_pos (by rw [← hlength]; exact Nat.not_succ_le_zero 0)
  refine ⟨?_, ?_⟩
  · have hmul := Nat.mul_le_mul_left p.samples h.retries_le
    have hmeasured := h.measured_le
    rw [mostSamples, Nat.mul_succ]
    omega
  · rintro _ ⟨⟩
    exact ⟨hlength, h.suffix, fun q hq r hr => (sub_le_zSpread hq hr).trans (h.spread hne)⟩

/-- The loop ends with enough measurements to come, and what it ends with. -/
theorem measure_spec (samples : List (Sample K)) (retries : ℕ)
    (positions measured : List (Fin 3 → K)) (h : Measuring p retries positions measured) :
    (p.mostSamples ≤ measured.length + samples.length →
      (p.measure samples retries positions measured).isSome = true) ∧
    ∀ r, p.measure samples retries positions measured = some r → p.Measured r.1 r.2 := by
  induction samples generalizing retries positions measured with
  | nil =>
    unfold measure
    split_ifs with hlt
    · have hmeasured := h.measured_lt hlt
      exact ⟨fun hle => absurd hle (by simpa using hmeasured), fun r hr => by cases hr⟩
    · refine ⟨fun _ => rfl, fun r hr => ?_⟩
      obtain rfl := Option.some_inj.1 hr
      exact measured_done h hlt
  | cons sample rest ih =>
    unfold measure
    split_ifs with hlt
    · have hmeasured := h.measured_lt hlt
      have hraised : ∀ (e : Option String) (made : List (Fin 3 → K)),
          made.length ≤ measured.length + 1 → p.Measured (.error e) made :=
        fun e made hle => ⟨hle.trans hmeasured, fun positions hok => by cases hok⟩
      have hadd : ∀ pos : Fin 3 → K, (measured ++ [pos]).length = measured.length + 1 :=
        fun pos => List.length_append
      obtain ⟨none | pos, retractRaises⟩ := sample
      · refine ⟨fun _ => rfl, fun r hr => ?_⟩
        obtain rfl := Option.some_inj.1 hr
        exact hraised _ _ (Nat.le_succ _)
      · dsimp only
        cases hcheck : p.checkTolerance retries (positions ++ [pos]) with
        | none =>
          refine ⟨fun _ => rfl, fun r hr => ?_⟩
          obtain rfl := Option.some_inj.1 hr
          exact hraised _ _ (hadd pos).le
        | some next =>
          obtain ⟨retries', positions'⟩ := next
          dsimp only
          split_ifs
          · refine ⟨fun _ => rfl, fun r hr => ?_⟩
            obtain rfl := Option.some_inj.1 hr
            exact hraised _ _ (hadd pos).le
          · obtain ⟨hsome, hspec⟩ := ih _ _ _ (h.check hlt hcheck)
            refine ⟨fun hle => hsome (hle.trans_eq ?_), hspec⟩
            rw [hadd, List.length_cons]
            omega
    · refine ⟨fun _ => rfl, fun r hr => ?_⟩
      obtain rfl := Option.some_inj.1 hr
      exact measured_done h hlt

/-- The result of samples. -/
def result (p : ProbeParams K) (positions : List (Fin 3 → K)) : Fin 3 → K :=
  if p.samplesResult = "median" then calcMedian positions else calcMean positions

end ProbeParams

/-! ## The session -/

/-- `multi_probe_pending` of the probe, and its `results`. -/
structure ProbeSession (K : Type) where
  multiProbePending : Bool
  results : List (Fin 3 → K)

namespace ProbeSession

variable (s : ProbeSession K)

/-- The text of `_probe_state_error`. -/
def stateError : String := "Internal probe error - start/end probe session mismatch"

/-- `start_probe_session`, where `multi_probe_begin` of the sensor may raise. -/
def startProbeSession (beginRaises : Bool) : Except (Option String) (ProbeSession K) :=
  if s.multiProbePending then .error stateError
  else if beginRaises then .error none
  else .ok ⟨true, []⟩

/-- `multi_probe_end`. What that of the sensor raises comes after the flag is reset. -/
def multiProbeEnd : ProbeSession K :=
  { s with multiProbePending := false }

/-- `end_probe_session`. -/
def endProbeSession : Except (Option String) (ProbeSession K) :=
  if s.multiProbePending then .ok ⟨false, []⟩ else .error stateError

/-- `pull_probed_results`. -/
def pullProbedResults : List (Fin 3 → K) × ProbeSession K :=
  (s.results, { s with results := [] })

/-- The end of `run_probe`, which returns a median and leaves a mean. -/
def deliver (p : ProbeParams K) (positions : List (Fin 3 → K)) :
    ProbeSession K × Option (Fin 3 → K) :=
  if p.samplesResult = "median" then (s, some (calcMedian positions))
  else ({ s with results := s.results ++ [calcMean positions] }, none)

/-- `run_probe`, with the measurements that it made. -/
def runProbe (p : ProbeParams K) (samples : List (Sample K)) (beginRaises endRaises : Bool) :
    Option (ProbeSession K × List (Fin 3 → K) × Except (Option String) (Option (Fin 3 → K))) :=
  let mustNotifyMultiProbe := !s.multiProbePending
  match if mustNotifyMultiProbe then s.startProbeSession beginRaises else .ok s with
  | .error e => some (s, [], .error e)
  | .ok s => do
    let (out, measured) ← p.measure samples 0 [] []
    match out with
    | .error e => return (s, measured, .error e)
    | .ok positions =>
      let s := if mustNotifyMultiProbe then s.multiProbeEnd else s
      if mustNotifyMultiProbe && endRaises then return (s, measured, .error none)
      else
        let (s, value) := s.deliver p positions
        return (s, measured, .ok value)

/-- `_handle_home_rails_begin`. -/
def handleHomeRailsBegin (probe beginRaises : Bool) : ProbeSession K :=
  if probe && !beginRaises then { s with multiProbePending := true } else s

/-- `_handle_home_rails_end`. -/
def handleHomeRailsEnd (probe : Bool) : ProbeSession K :=
  if probe then s.multiProbeEnd else s

/-- `_handle_command_error`. -/
def handleCommandError : ProbeSession K :=
  s.multiProbeEnd

/-- A result other than a median is left for the next pull. -/
theorem deliver_fst {p : ProbeParams K} (hmean : p.samplesResult ≠ "median")
    (positions : List (Fin 3 → K)) :
    (s.deliver p positions).1 = { s with results := s.results ++ [p.result positions] } := by
  unfold deliver ProbeParams.result
  rw [if_neg hmean, if_neg hmean]

/-- A probing ends with enough measurements to come, and makes no more. -/
theorem runProbe_spec (p : ProbeParams K) (samples : List (Sample K))
    (beginRaises endRaises : Bool) :
    (p.mostSamples ≤ samples.length →
      (s.runProbe p samples beginRaises endRaises).isSome = true) ∧
    ∀ r, s.runProbe p samples beginRaises endRaises = some r → r.2.1.length ≤ p.mostSamples := by
  obtain ⟨hsome, hspec⟩ := ProbeParams.measure_spec samples 0 [] [] (.start p)
  rw [List.length_nil, zero_add] at hsome
  unfold runProbe
  dsimp only
  split
  · refine ⟨fun _ => rfl, fun r hr => ?_⟩
    obtain rfl := Option.some_inj.1 hr
    exact Nat.zero_le _
  · cases hmeasure : p.measure samples 0 [] [] with
    | none =>
      rw [hmeasure] at hsome
      exact ⟨fun hle => absurd (hsome hle) Bool.false_ne_true, fun r hr => by cases hr⟩
    | some m =>
      obtain ⟨out, measured⟩ := m
      have hmeasured := (hspec _ hmeasure).measured_le
      cases out with
      | error e =>
        refine ⟨fun _ => rfl, fun r hr => ?_⟩
        obtain rfl := Option.some_inj.1 hr
        exact hmeasured
      | ok positions =>
        dsimp only [Option.bind_eq_bind, Option.bind_some]
        split_ifs <;> refine ⟨fun _ => rfl, fun r hr => ?_⟩ <;>
          obtain rfl := Option.some_inj.1 hr <;> exact hmeasured

/-- A session can start once the flag is reset, and has no results. -/
theorem startProbeSession_of_not_pending (h : s.multiProbePending = false) :
    s.startProbeSession false = .ok ⟨true, []⟩ := by
  unfold startProbeSession
  rw [h]
  rfl

end ProbeSession

/-! ## Runs -/

/-- A probing of a session: what was asked for, and all that was measured. -/
structure Probing (K : Type) where
  params : ProbeParams K
  measured : List (Fin 3 → K)

namespace Probing

/-- The last samples. -/
def positions (g : Probing K) : List (Fin 3 → K) :=
  g.measured.drop (g.measured.length - g.params.samples)

/-- The result that was asked for. -/
def value (g : Probing K) : Fin 3 → K :=
  g.params.result g.positions

end Probing

theorem Probing.positions_eq {p : ProbeParams K} {positions measured : List (Fin 3 → K)}
    (h : p.Measured (.ok positions) measured) :
    (⟨p, measured⟩ : Probing K).positions = positions := by
  obtain ⟨hlength, hsuffix, -⟩ := h.positions positions rfl
  rw [Probing.positions, ← hlength]
  exact (List.suffix_iff_eq_drop.1 hsuffix).symm

/-- What the callers of a probe see : whether a session is open, whether axes are homed with the
probe, and the probings of the session since the last pull. -/
structure ProbeLedger (K : Type) where
  isOpen : Bool
  homing : Bool
  probings : List (Probing K)

namespace ProbeLedger

variable (l : ProbeLedger K)

def startProbeSession (beginRaises : Bool) : ProbeLedger K :=
  if l.isOpen || l.homing || beginRaises then l else ⟨true, false, []⟩

/-- A probing without a session has its own, which an error leaves open. -/
def runProbe (p : ProbeParams K) (samples : List (Sample K)) (beginRaises endRaises : Bool) :
    ProbeLedger K :=
  if l.isOpen then
    match p.measure samples 0 [] [] with
    | some (.ok _, measured) => { l with probings := l.probings ++ [⟨p, measured⟩] }
    | _ => l
  else if beginRaises then l
  else
    match p.measure samples 0 [] [] with
    | some (.ok _, measured) => { l with probings := if endRaises then [] else [⟨p, measured⟩] }
    | _ => { l with isOpen := true, probings := [] }

def pullProbedResults : ProbeLedger K :=
  { l with probings := [] }

def endProbeSession : ProbeLedger K :=
  if l.isOpen || l.homing then ⟨false, false, []⟩ else l

def homeRailsBegin (probe beginRaises : Bool) : ProbeLedger K :=
  if probe && !beginRaises then { l with homing := true } else l

def homeRailsEnd (probe : Bool) : ProbeLedger K :=
  if probe then { l with homing := false } else l

def commandError : ProbeLedger K :=
  { l with isOpen := false, homing := false }

end ProbeLedger

inductive ProbeEvent (K : Type) where
  | startProbeSession (beginRaises : Bool)
  | runProbe (p : ProbeParams K) (samples : List (Sample K)) (beginRaises endRaises : Bool)
  | pullProbedResults
  | endProbeSession
  /-- Homing of some rails, with the probe as an endstop or not. -/
  | homeRailsBegin (probe beginRaises : Bool)
  | homeRailsEnd (probe : Bool)
  | commandError

/-- A session, what its callers see, and what each pull has returned for which probings. -/
structure SessionRun (K : Type) where
  session : ProbeSession K
  ledger : ProbeLedger K
  pulled : List (List (Fin 3 → K) × List (Probing K))

namespace SessionRun

/-- Before the first session. -/
def start : SessionRun K :=
  ⟨⟨false, []⟩, ⟨false, false, []⟩, []⟩

variable (s : SessionRun K)

/-- The run after an event. A probing does not end before its measurements are made. -/
def next : ProbeEvent K → Option (SessionRun K)
  | .startProbeSession beginRaises =>
    some { s with
      session := (s.session.startProbeSession beginRaises).toOption.getD s.session
      ledger := s.ledger.startProbeSession beginRaises }
  | .runProbe p samples beginRaises endRaises =>
    (s.session.runProbe p samples beginRaises endRaises).map fun r =>
      { s with session := r.1, ledger := s.ledger.runProbe p samples beginRaises endRaises }
  | .pullProbedResults =>
    let (results, session) := s.session.pullProbedResults
    some ⟨session, s.ledger.pullProbedResults, s.pulled ++ [(results, s.ledger.probings)]⟩
  | .endProbeSession =>
    some { s with
      session := s.session.endProbeSession.toOption.getD s.session
      ledger := s.ledger.endProbeSession }
  | .homeRailsBegin probe beginRaises =>
    some { s with
      session := s.session.handleHomeRailsBegin probe beginRaises
      ledger := s.ledger.homeRailsBegin probe beginRaises }
  | .homeRailsEnd probe =>
    some { s with
      session := s.session.handleHomeRailsEnd probe
      ledger := s.ledger.homeRailsEnd probe }
  | .commandError =>
    some { s with session := s.session.handleCommandError, ledger := s.ledger.commandError }

/-- The runs of a probe. -/
def system : System (SessionRun K) (ProbeEvent K) where
  init s := s = start
  next := next

/-- No median is asked for, and axes are homed with the probe between sessions and probings only. -/
def Plain (s : SessionRun K) : ProbeEvent K → Prop
  | .runProbe p _ _ _ => p.samplesResult ≠ "median" ∧ s.ledger.homing = false
  | .homeRailsBegin probe _ => probe = true → s.ledger.isOpen = false
  | .homeRailsEnd probe => probe = true → s.ledger.isOpen = false
  | _ => True

instance (s : SessionRun K) : ∀ e, Decidable (Plain s e)
  | .startProbeSession _ => inferInstanceAs (Decidable True)
  | .runProbe p _ _ _ =>
    inferInstanceAs (Decidable (p.samplesResult ≠ "median" ∧ s.ledger.homing = false))
  | .pullProbedResults => inferInstanceAs (Decidable True)
  | .endProbeSession => inferInstanceAs (Decidable True)
  | .homeRailsBegin probe _ => inferInstanceAs (Decidable (probe = true → s.ledger.isOpen = false))
  | .homeRailsEnd probe => inferInstanceAs (Decidable (probe = true → s.ledger.isOpen = false))
  | .commandError => inferInstanceAs (Decidable True)

/-- The session is as its callers see it. -/
structure Agrees (session : ProbeSession K) (ledger : ProbeLedger K) : Prop where
  pending : session.multiProbePending = (ledger.isOpen || ledger.homing)
  exclusive : ledger.isOpen = true → ledger.homing = false
  results : session.results = ledger.probings.map Probing.value
  sound : ∀ g ∈ ledger.probings, g.params.Measured (.ok g.positions) g.measured

variable {session t : ProbeSession K} {ledger : ProbeLedger K} {s}

theorem Agrees.append (h : Agrees session ledger) {p : ProbeParams K}
    {positions measured : List (Fin 3 → K)} (hspec : p.Measured (.ok positions) measured) :
    Agrees { session with results := session.results ++ [p.result positions] }
      { ledger with probings := ledger.probings ++ [⟨p, measured⟩] } := by
  refine ⟨h.pending, h.exclusive, ?_, fun g hg => ?_⟩
  · rw [List.map_append, List.map_singleton, h.results, Probing.value, Probing.positions_eq hspec]
  · rcases List.mem_append.1 hg with hg | hg
    · exact h.sound g hg
    · obtain rfl := List.mem_singleton.1 hg
      rw [Probing.positions_eq hspec]
      exact hspec

theorem agrees_startProbeSession (h : Agrees session ledger) (beginRaises : Bool) :
    Agrees ((session.startProbeSession beginRaises).toOption.getD session)
      (ledger.startProbeSession beginRaises) := by
  unfold ProbeSession.startProbeSession ProbeLedger.startProbeSession
  rw [h.pending]
  cases hpending : ledger.isOpen || ledger.homing with
  | true => exact h
  | false =>
    cases beginRaises with
    | true => exact h
    | false => exact ⟨rfl, fun _ => rfl, rfl, fun g hg => by cases hg⟩

/-- A probing of an open session. -/
theorem agrees_runProbe_open (h : Agrees session ledger) (hopen : ledger.isOpen = true)
    {p : ProbeParams K} (hmean : p.samplesResult ≠ "median") {samples : List (Sample K)}
    {beginRaises endRaises : Bool} {r : List (Fin 3 → K) × Except (Option String) _}
    (hrun : session.runProbe p samples beginRaises endRaises = some (t, r)) :
    Agrees t (ledger.runProbe p samples beginRaises endRaises) := by
  have hpending : session.multiProbePending = true := by
    rw [h.pending, hopen]
    rfl
  unfold ProbeSession.runProbe at hrun
  unfold ProbeLedger.runProbe
  rw [if_pos hopen]
  simp only [hpending, Bool.not_true, Bool.false_eq_true, if_false, Bool.false_and] at hrun
  cases hmeasure : p.measure samples 0 [] [] with
  | none =>
    rw [hmeasure] at hrun
    cases hrun
  | some m =>
    obtain ⟨out, measured⟩ := m
    rw [hmeasure] at hrun
    have hspec := (ProbeParams.measure_spec samples 0 [] [] (.start p)).2 _ hmeasure
    cases out with
    | error e =>
      obtain ⟨rfl, -⟩ := Prod.mk.inj (Option.some_inj.1 hrun)
      exact h
    | ok positions =>
      obtain ⟨rfl, -⟩ := Prod.mk.inj (Option.some_inj.1 hrun)
      rw [ProbeSession.deliver_fst _ hmean]
      exact h.append hspec

/-- A probing with a session of its own. -/
theorem agrees_runProbe_own {probings : List (Probing K)}
    (h : Agrees session ⟨false, false, probings⟩) {p : ProbeParams K}
    (hmean : p.samplesResult ≠ "median") {samples : List (Sample K)} {beginRaises endRaises : Bool}
    {r : List (Fin 3 → K) × Except (Option String) _}
    (hrun : session.runProbe p samples beginRaises endRaises = some (t, r)) :
    Agrees t (ProbeLedger.runProbe ⟨false, false, probings⟩ p samples beginRaises endRaises) := by
  have hpending : session.multiProbePending = false := h.pending
  have hnone : ∀ isOpen, Agrees (K := K) ⟨isOpen, []⟩ ⟨isOpen, false, []⟩ := fun isOpen =>
    ⟨(Bool.or_false isOpen).symm, fun _ => rfl, rfl, fun g hg => by cases hg⟩
  unfold ProbeSession.runProbe ProbeSession.startProbeSession at hrun
  unfold ProbeLedger.runProbe
  simp only [hpending, Bool.not_false, Bool.false_eq_true, if_true, if_false, Bool.true_and]
    at hrun ⊢
  cases beginRaises with
  | true =>
    obtain ⟨rfl, -⟩ := Prod.mk.inj (Option.some_inj.1 hrun)
    exact h
  | false =>
    simp only [Bool.false_eq_true, if_false] at hrun ⊢
    cases hmeasure : p.measure samples 0 [] [] with
    | none =>
      rw [hmeasure] at hrun
      cases hrun
    | some m =>
      obtain ⟨out, measured⟩ := m
      rw [hmeasure] at hrun
      have hspec := (ProbeParams.measure_spec samples 0 [] [] (.start p)).2 _ hmeasure
      cases out with
      | error e =>
        obtain ⟨rfl, -⟩ := Prod.mk.inj (Option.some_inj.1 hrun)
        exact hnone true
      | ok positions =>
        cases endRaises with
        | true =>
          obtain ⟨rfl, -⟩ := Prod.mk.inj (Option.some_inj.1 hrun)
          exact hnone false
        | false =>
          obtain ⟨rfl, -⟩ := Prod.mk.inj (Option.some_inj.1 hrun)
          rw [ProbeSession.deliver_fst _ hmean]
          exact (hnone false).append hspec

/-- The session stays as its callers see it. -/
theorem agrees_next {e : ProbeEvent K} {u : SessionRun K} (h : Agrees s.session s.ledger)
    (hplain : Plain s e) (hnext : s.next e = some u) : Agrees u.session u.ledger := by
  cases e with
  | startProbeSession beginRaises =>
    obtain rfl := Option.some_inj.1 hnext
    exact agrees_startProbeSession h beginRaises
  | runProbe p samples beginRaises endRaises =>
    obtain ⟨⟨t, r⟩, hrun, rfl⟩ := Option.map_eq_some_iff.1 hnext
    obtain ⟨hmean, hhoming⟩ := hplain
    obtain ⟨session, ⟨isOpen, homing, probings⟩, pulled⟩ := s
    obtain rfl : homing = false := hhoming
    cases isOpen with
    | true => exact agrees_runProbe_open h rfl hmean hrun
    | false => exact agrees_runProbe_own h hmean hrun
  | pullProbedResults =>
    obtain rfl := Option.some_inj.1 hnext
    exact ⟨h.pending, h.exclusive, rfl, fun g hg => by cases hg⟩
  | endProbeSession =>
    obtain rfl := Option.some_inj.1 hnext
    dsimp only
    unfold ProbeSession.endProbeSession ProbeLedger.endProbeSession
    rw [h.pending]
    split_ifs
    · exact ⟨rfl, fun _ => rfl, rfl, fun g hg => by cases hg⟩
    · exact h
  | homeRailsBegin probe beginRaises =>
    obtain rfl := Option.some_inj.1 hnext
    dsimp only
    unfold ProbeSession.handleHomeRailsBegin ProbeLedger.homeRailsBegin
    split_ifs with hprobe
    · have hclosed := hplain (Bool.and_eq_true_iff.1 hprobe).1
      exact ⟨(Bool.or_true _).symm, fun hopen => absurd (hclosed.symm.trans hopen)
        Bool.false_ne_true, h.results, h.sound⟩
    · exact h
  | homeRailsEnd probe =>
    obtain rfl := Option.some_inj.1 hnext
    dsimp only
    unfold ProbeSession.handleHomeRailsEnd ProbeLedger.homeRailsEnd
    split_ifs with hprobe
    · have hclosed := hplain hprobe
      refine ⟨?_, fun _ => rfl, h.results, h.sound⟩
      show false = (s.ledger.isOpen || false)
      rw [hclosed]
      rfl
    · exact h
  | commandError =>
    obtain rfl := Option.some_inj.1 hnext
    exact ⟨rfl, fun _ => rfl, h.results, h.sound⟩

/-- Each pull has returned the results of the probings since the last one, in order, each of the
last samples measured, which are within the tolerance; and no more were measured than the retries
allow. -/
def Returns (s : SessionRun K) : Prop :=
  ∀ r ∈ s.pulled, r.1 = r.2.map Probing.value ∧
    ∀ g ∈ r.2, g.positions.length = g.params.samples ∧ g.positions <:+ g.measured ∧
      (∀ p ∈ g.positions, ∀ q ∈ g.positions, p 2 - q 2 ≤ g.params.samplesTolerance) ∧
      g.measured.length ≤ g.params.samples * (g.params.samplesRetries + 1)

/-- Two samples. -/
def twoSamples (samplesResult : String) : ProbeParams ℚ where
  samples := 2
  samples_pos := by decide
  samplesTolerance := 1 / 10
  samplesRetries := 1
  samplesResult := samplesResult
  bdSensor := false

/-- Probings whose first two heights are too far apart. -/
def probe (samplesResult : String) : ProbeEvent ℚ :=
  .runProbe (twoSamples samplesResult)
    [⟨some ![1, 2, 3], false⟩, ⟨some ![1, 2, 4], false⟩, ⟨some ![1, 2, 3], false⟩,
      ⟨some ![1, 2, 31 / 10], false⟩] false false

/-- A session of two probings. -/
def averages : List (ProbeEvent ℚ) :=
  [.startProbeSession false, probe "average", probe "average", .pullProbedResults]

/-- A session whose probing asks for a median. -/
def median : List (ProbeEvent ℚ) :=
  [.startProbeSession false, probe "median", .pullProbedResults]

/-- A session with a homing between two probings. -/
def homedBetween : List (ProbeEvent ℚ) :=
  [.startProbeSession false, probe "average", .homeRailsBegin true false, .homeRailsEnd true,
    probe "average", .pullProbedResults]

end SessionRun

end Thinker
