import Thinker.Numerals
import Thinker.Transition
import Mathlib.Tactic

/-!
# The temperature range guard

The micro-controller sums `sample_count` readings of an analog pin for each measurement, checks
each sum against a range and shuts down after `range_check_count` sums in a row that are out of it.
A task reports the measurements. One byte of state is all that tells whether a measurement has not
begun, is in progress, is complete, or was reported.

`World` puts beside the state of the code what happened to the pin : the readings of each
measurement and the clock at which it began. `Inv` says what the state of the code means. It is kept
as long as `sample_count + 1` fits the state byte.

The range that the host sends is made from a range of normalised values (`limits`).
-/

namespace Thinker

namespace Adc

/-- `struct analog_in`. -/
structure AnalogIn where
  /-- When the timer fires. -/
  waketime : BitVec 32
  restTime : BitVec 32
  sampleTime : BitVec 32
  nextBeginTime : BitVec 32
  value : BitVec 16
  minValue : BitVec 16
  maxValue : BitVec 16
  invalidCount : BitVec 8
  rangeCheckCount : BitVec 8
  state : BitVec 8
  sampleCount : BitVec 8
  /-- The timer is scheduled. -/
  armed : Bool
deriving DecidableEq, Repr

/-- What a timer event comes to. -/
inductive Outcome
  /-- The timer is scheduled again for the same measurement. -/
  | waiting
  /-- A measurement is complete, and may have shut the micro-controller down. -/
  | measured (tripped : Bool)
deriving DecidableEq, Repr

/-- The arguments of `query_analog_in`. -/
structure Query where
  clock : BitVec 32
  sampleTicks : BitVec 32
  sampleCount : BitVec 32
  restTicks : BitVec 32
  minValue : BitVec 32
  maxValue : BitVec 32
  rangeCheckCount : BitVec 32
deriving DecidableEq, Repr

/-- A message `analog_in_state`. -/
structure Message where
  nextClock : BitVec 32
  value : BitVec 16
deriving DecidableEq, Repr

namespace AnalogIn

/-- `command_config_analog_in`. -/
def config : AnalogIn :=
  ⟨0, 0, 0, 0, 0, 0, 0, 0, 0, 1, 0, false⟩

variable (a : AnalogIn)

/-- A reading starts the sum of a new measurement or is added to that of the last readings. -/
def sample (raw : BitVec 16) : AnalogIn :=
  if a.sampleCount ≤ a.state then { a with value := raw, state := 0 + 1 }
  else { a with value := raw + a.value, state := a.state + 1 }

/-- The sum is in the range. -/
def inRange : Bool :=
  decide (a.minValue ≤ a.value ∧ a.value ≤ a.maxValue)

/-- One more invalid sum is one too many. -/
def overCount : Bool :=
  decide (a.rangeCheckCount ≤ a.invalidCount + 1)

/-- The timer waits for the next measurement. -/
def rest : AnalogIn :=
  { a with
    nextBeginTime := a.nextBeginTime + a.restTime
    waketime := a.nextBeginTime + a.restTime }

/-- `analog_in_shutdown`. -/
def shutdown : AnalogIn :=
  if a.sampleCount ≠ 0 then { a.rest with state := a.sampleCount + 1, armed := true } else a

/-- The end of a measurement. `try_shutdown` does not return unless the micro-controller has been
shut down before. -/
def checkRange (shut : Bool) : AnalogIn × Outcome :=
  if a.inRange then (rest { a with invalidCount := 0 }, .measured false)
  else if a.overCount then
    if shut then (rest { a with invalidCount := 0 }, .measured false)
    else (shutdown { a with invalidCount := a.invalidCount + 1 }, .measured true)
  else (rest { a with invalidCount := a.invalidCount + 1 }, .measured false)

/-- `analog_in_event`, where the converter asks for a delay or gives a reading. -/
def event (shut : Bool) (sampleDelay : BitVec 32) (raw : BitVec 16) : AnalogIn × Outcome :=
  if sampleDelay ≠ 0 then ({ a with waketime := a.waketime + sampleDelay }, .waiting)
  else if (a.sample raw).state < a.sampleCount then
    ({ a.sample raw with waketime := a.waketime + a.sampleTime }, .waiting)
  else (a.sample raw).checkRange shut

/-- `command_query_analog_in`. -/
def query (q : Query) : AnalogIn where
  nextBeginTime := q.clock
  waketime := q.clock
  sampleTime := q.sampleTicks
  sampleCount := q.sampleCount.setWidth 8
  state := q.sampleCount.setWidth 8 + 1
  restTime := q.restTicks
  minValue := q.minValue.setWidth 16
  maxValue := q.maxValue.setWidth 16
  rangeCheckCount := q.rangeCheckCount.setWidth 8
  value := a.value
  invalidCount := a.invalidCount
  armed := decide (q.sampleCount.setWidth 8 ≠ 0)

/-- `analog_in_task` for one pin. -/
def task : AnalogIn × Option Message :=
  if a.state = a.sampleCount then
    ({ a with state := a.state + 1 }, some ⟨a.nextBeginTime, a.value⟩)
  else (a, none)

end AnalogIn

/-! ## What happens to the pin -/

/-- A measurement, as seen from outside. -/
structure Measurement where
  /-- The readings, the last one first. -/
  readings : List (BitVec 16)
  /-- The clock at which it was to begin. -/
  beginTime : BitVec 32
  /-- The settings in force, and the sum that was checked. -/
  setting : AnalogIn
  /-- The micro-controller was not shut down before. -/
  running : Bool
  /-- It shut the micro-controller down. -/
  tripped : Bool
deriving DecidableEq, Repr

namespace Measurement

/-- The sum is not in the range. -/
def invalid (m : Measurement) : Bool := !m.setting.inRange

/-- The message for a measurement. -/
def message (m : Measurement) : Message :=
  ⟨m.beginTime + m.setting.restTime, m.setting.value⟩

/-- How many of the last measurements are invalid, with none between that is not. -/
def streak (ms : List Measurement) : ℕ :=
  (ms.takeWhile invalid).length

end Measurement

/-- The state of the code, and what happened. -/
structure World where
  /-- The state of the code. -/
  a : AnalogIn
  /-- The micro-controller is shut down. -/
  shut : Bool
  /-- The clock at which the measurement in progress was to begin. -/
  beginTime : Option (BitVec 32)
  /-- Its readings, the last one first. -/
  readings : List (BitVec 16)
  /-- The complete measurements, the last one first. -/
  completed : List Measurement
  /-- The messages, the last one first. -/
  sent : List Message
deriving DecidableEq, Repr

/-- What may happen. -/
inductive Event
  /-- The timer fires. -/
  | timer (sampleDelay : BitVec 32) (raw : BitVec 16)
  /-- A command arrives. -/
  | query (q : Query)
  /-- The task runs. -/
  | task
  /-- Something else shuts the micro-controller down. -/
  | shutdown
deriving DecidableEq, Repr

namespace World

/-- The code and the pin before any command. -/
def start : World :=
  ⟨.config, false, none, [], [], []⟩

variable (w : World)

/-- The timer fires. -/
def timer (sampleDelay : BitVec 32) (raw : BitVec 16) : World :=
  let begun := w.beginTime.getD w.a.waketime
  match w.a.event w.shut sampleDelay raw with
  | (a, .waiting) =>
    { w with
      a := a
      beginTime := some begun
      readings := if sampleDelay ≠ 0 then w.readings else raw :: w.readings }
  | (a, .measured tripped) =>
    { w with
      a := a
      shut := w.shut || tripped
      beginTime := none
      readings := []
      completed :=
        ⟨raw :: w.readings, begun, w.a.sample raw, !w.shut, tripped⟩ :: w.completed }

/-- The task runs. -/
def task : World :=
  { w with a := w.a.task.1, sent := w.a.task.2.toList ++ w.sent }

end World

/-- The timer fires while it is scheduled. Commands are refused after a shutdown. -/
def next (w : World) : Event → Option World
  | .timer sampleDelay raw => if w.a.armed then some (w.timer sampleDelay raw) else none
  | .query q =>
    if w.shut then none else some { w with a := w.a.query q, beginTime := none, readings := [] }
  | .task => some w.task
  | .shutdown =>
    if w.shut then none
    else some { w with a := w.a.shutdown, shut := true, beginTime := none, readings := [] }

/-- The code with its pin. -/
def system : System World Event :=
  ⟨(· = .start), next⟩

/-! ## One step -/

namespace AnalogIn

variable {a : AnalogIn}

/-- A measurement that ends shuts the micro-controller down. -/
def trips (a : AnalogIn) (shut : Bool) : Bool :=
  !a.inRange && a.overCount && !shut

theorem checkRange_snd (shut : Bool) : (a.checkRange shut).2 = .measured (a.trips shut) := by
  unfold checkRange trips
  split
  next h => simp [h]
  next h =>
    split
    next h' => cases shut <;> simp [h, h']
    next h' => simp [h, h']

/-- What the end of a measurement leaves as it is, and what it schedules. -/
theorem checkRange_fst (shut : Bool) (hcount : a.sampleCount ≠ 0) (harmed : a.armed = true) :
    ∃ invalidCount state, (a.checkRange shut).1 =
        { a.rest with invalidCount := invalidCount, state := state, armed := true } ∧
      (state = a.state ∨ state = a.sampleCount + 1) := by
  unfold checkRange
  split
  · exact ⟨0, a.state, by rw [← harmed]; rfl, .inl rfl⟩
  · split
    · split
      · exact ⟨0, a.state, by rw [← harmed]; rfl, .inl rfl⟩
      · exact ⟨a.invalidCount + 1, a.sampleCount + 1, if_pos hcount, .inr rfl⟩
    · exact ⟨a.invalidCount + 1, a.state, by rw [← harmed]; rfl, .inl rfl⟩

/-- The count of invalid sums after a measurement that does not shut down. -/
theorem checkRange_invalidCount (h : a.trips false = false) :
    (a.checkRange false).1.invalidCount = if a.inRange then 0 else a.invalidCount + 1 := by
  unfold trips at h
  unfold checkRange
  split
  next => rfl
  next hr =>
    split
    next hc => simp [hr, hc] at h
    next => rfl

theorem sample_frame (a : AnalogIn) (raw : BitVec 16) :
    ∃ value state, a.sample raw = { a with value := value, state := state } := by
  unfold sample
  split
  · exact ⟨_, _, rfl⟩
  · exact ⟨_, _, rfl⟩

end AnalogIn

namespace World

variable {w : World}

/-- The clock at which the measurement that is in progress, or is next, was to begin. -/
def begun (w : World) : BitVec 32 :=
  w.beginTime.getD w.a.waketime

/-- What a timer event does : it waits for the converter, takes a reading, or takes the last
reading of a measurement. -/
theorem timer_cases (w : World) (sampleDelay : BitVec 32) (raw : BitVec 16) :
    (w.timer sampleDelay raw = { w with
        a := { w.a with waketime := w.a.waketime + sampleDelay }
        beginTime := some w.begun }) ∨
    ((w.a.sample raw).state < w.a.sampleCount ∧ w.timer sampleDelay raw = { w with
        a := { w.a.sample raw with waketime := w.a.waketime + w.a.sampleTime }
        beginTime := some w.begun
        readings := raw :: w.readings }) ∨
    (¬(w.a.sample raw).state < w.a.sampleCount ∧ w.timer sampleDelay raw = { w with
        a := ((w.a.sample raw).checkRange w.shut).1
        shut := w.shut || (w.a.sample raw).trips w.shut
        beginTime := none
        readings := []
        completed := ⟨raw :: w.readings, w.begun, w.a.sample raw, !w.shut,
          (w.a.sample raw).trips w.shut⟩ :: w.completed }) := by
  by_cases hdelay : sampleDelay ≠ 0
  · left
    simp only [timer, AnalogIn.event, if_pos hdelay, begun]
  · by_cases hlast : (w.a.sample raw).state < w.a.sampleCount
    · right; left
      refine ⟨hlast, ?_⟩
      simp only [timer, AnalogIn.event, if_neg hdelay, if_pos hlast, begun]
    · right; right
      refine ⟨hlast, ?_⟩
      have hout : w.a.event w.shut sampleDelay raw =
          (((w.a.sample raw).checkRange w.shut).1, .measured ((w.a.sample raw).trips w.shut)) := by
        rw [AnalogIn.event, if_neg hdelay, if_neg hlast, ← AnalogIn.checkRange_snd]
      simp only [timer, hout, begun]

/-! ## Sums -/

/-- The sum of some readings. -/
def total (readings : List (BitVec 16)) : ℕ :=
  (readings.map BitVec.toNat).sum

@[simp] theorem total_nil : total [] = 0 := rfl

@[simp] theorem total_cons (raw : BitVec 16) (readings : List (BitVec 16)) :
    total (raw :: readings) = raw.toNat + total readings := List.sum_cons

theorem total_le {adcMax : ℕ} {readings : List (BitVec 16)}
    (h : ∀ r ∈ readings, r.toNat ≤ adcMax) : total readings ≤ readings.length * adcMax := by
  have hsum := List.sum_le_card_nsmul (readings.map BitVec.toNat) adcMax fun k hk => by
    obtain ⟨r, hr, rfl⟩ := List.mem_map.1 hk
    exact h r hr
  rwa [List.length_map, smul_eq_mul] at hsum

/-- Readings are at most `adcMax`, and the settings fit their fields, the state byte included. -/
def Fits (adcMax : ℕ) (_ : World) : Event → Prop
  | .timer _ raw => raw.toNat ≤ adcMax
  | .query q => 1 ≤ q.sampleCount.toNat ∧ q.sampleCount.toNat ≤ 254 ∧
      q.sampleCount.toNat * adcMax ≤ 65535 ∧
      1 ≤ q.rangeCheckCount.toNat ∧ q.rangeCheckCount.toNat ≤ 255
  | .task => True
  | .shutdown => True

instance (adcMax : ℕ) (w : World) (e : Event) : Decidable (Fits adcMax w e) := by
  cases e <;> unfold Fits <;> infer_instance

/-- What the state of the code means. -/
structure Sums (adcMax : ℕ) (w : World) : Prop where
  /-- The timer is not scheduled before the first command. -/
  config : w.a.armed = false → w.a.sampleCount = 0 ∧ w.a.state = 1
  /-- The settings fit. -/
  count : w.a.armed = true → 1 ≤ w.a.sampleCount.toNat ∧ w.a.sampleCount.toNat ≤ 254 ∧
    w.a.sampleCount.toNat * adcMax ≤ 65535
  /-- An invalid sum can be one too many. -/
  check : w.a.armed = true → 1 ≤ w.a.rangeCheckCount.toNat
  /-- A measurement in progress is not complete. -/
  few : w.a.armed = true → w.readings.length < w.a.sampleCount.toNat
  /-- Before the first reading the state tells that the last measurement is complete. -/
  fresh : w.a.armed = true → w.readings = [] → w.a.sampleCount.toNat ≤ w.a.state.toNat
  /-- After it the state is the number of readings and the value is their sum. -/
  progress : w.readings ≠ [] →
    w.a.state.toNat = w.readings.length ∧ w.a.value.toNat = total w.readings
  /-- Readings are in the range of the converter. -/
  bound : ∀ r ∈ w.readings, r.toNat ≤ adcMax
  /-- The code knows when the measurement was to begin. -/
  begun : w.a.armed = true → w.begun = w.a.nextBeginTime

theorem Sums.start (adcMax : ℕ) : Sums adcMax .start where
  config _ := ⟨rfl, rfl⟩
  count h := absurd h (by decide)
  check h := absurd h (by decide)
  few h := absurd h (by decide)
  fresh h := absurd h (by decide)
  progress h := absurd rfl h
  bound := by simp [World.start]
  begun h := absurd h (by decide)

theorem toNat_succ {n : BitVec 8} (h : n.toNat ≤ 254) : (n + 1).toNat = n.toNat + 1 := by
  rw [BitVec.toNat_add]
  exact Nat.mod_eq_of_lt (show n.toNat + 1 < 256 by omega)

/-- A reading adds to the sum of the readings so far. -/
theorem Sums.sample {adcMax : ℕ} (h : Sums adcMax w) (harmed : w.a.armed = true)
    {raw : BitVec 16} (hraw : raw.toNat ≤ adcMax) :
    (w.a.sample raw).state.toNat = w.readings.length + 1 ∧
      (w.a.sample raw).value.toNat = total (raw :: w.readings) := by
  obtain ⟨-, hmax, hsum⟩ := h.count harmed
  have hfew := h.few harmed
  by_cases hnil : w.readings = []
  · have hfresh : w.a.sampleCount ≤ w.a.state := h.fresh harmed hnil
    rw [AnalogIn.sample, if_pos hfresh, hnil]
    exact ⟨rfl, by simp⟩
  · obtain ⟨hstate, hvalue⟩ := h.progress hnil
    have hlt : ¬w.a.sampleCount ≤ w.a.state := fun hle => by
      have hle : w.a.sampleCount.toNat ≤ w.a.state.toNat := hle
      omega
    have hbound : total (raw :: w.readings) ≤ 65535 := by
      have hall : ∀ r ∈ raw :: w.readings, r.toNat ≤ adcMax :=
        List.forall_mem_cons.2 ⟨hraw, h.bound⟩
      calc total (raw :: w.readings) ≤ (w.readings.length + 1) * adcMax := total_le hall
        _ ≤ w.a.sampleCount.toNat * adcMax := Nat.mul_le_mul_right _ hfew
        _ ≤ 65535 := hsum
    rw [AnalogIn.sample, if_neg hlt]
    refine ⟨?_, ?_⟩
    · show (w.a.state + 1).toNat = _
      rw [toNat_succ (by omega), hstate]
    · show (raw + w.a.value).toNat = _
      rw [total_cons] at hbound ⊢
      rw [BitVec.toNat_add, hvalue]
      exact Nat.mod_eq_of_lt (by omega)

theorem Sums.length_of_last {adcMax : ℕ} (h : Sums adcMax w) (harmed : w.a.armed = true)
    {raw : BitVec 16} (hraw : raw.toNat ≤ adcMax)
    (hlast : ¬(w.a.sample raw).state < w.a.sampleCount) :
    w.readings.length + 1 = w.a.sampleCount.toNat := by
  have hstate := (h.sample harmed hraw).1
  have hfew := h.few harmed
  have hge : w.a.sampleCount.toNat ≤ (w.a.sample raw).state.toNat := not_lt.1 hlast
  omega

theorem Sums.timer {adcMax : ℕ} (h : Sums adcMax w) (harmed : w.a.armed = true)
    (sampleDelay : BitVec 32) {raw : BitVec 16} (hraw : raw.toNat ≤ adcMax) :
    Sums adcMax (w.timer sampleDelay raw) := by
  rcases w.timer_cases sampleDelay raw with hw | ⟨hmore, hw⟩ | ⟨hlast, hw⟩
  · rw [hw]
    exact ⟨h.config, h.count, h.check, h.few, h.fresh, h.progress, h.bound, h.begun⟩
  · obtain ⟨hstate, hvalue⟩ := h.sample harmed hraw
    obtain ⟨value, state, hsample⟩ := w.a.sample_frame raw
    rw [hsample] at hstate hvalue hmore
    have hlt : state.toNat < w.a.sampleCount.toNat := hmore
    rw [hw, hsample]
    exact {
      config := fun hn => absurd harmed (by simpa using hn)
      count := h.count
      check := h.check
      few := fun _ => lt_of_eq_of_lt hstate.symm hlt
      fresh := fun _ hn => absurd hn (List.cons_ne_nil _ _)
      progress := fun _ => ⟨hstate, hvalue⟩
      bound := List.forall_mem_cons.2 ⟨hraw, h.bound⟩
      begun := h.begun }
  · have hlen := h.length_of_last harmed hraw hlast
    obtain ⟨value, state, hsample⟩ := w.a.sample_frame raw
    rw [hsample] at hlast
    have hge : w.a.sampleCount.toNat ≤ state.toNat := not_lt.1 hlast
    have hone := h.count harmed
    have hcount : (w.a.sample raw).sampleCount ≠ 0 := by
      rw [hsample]
      intro hz
      have hz : w.a.sampleCount.toNat = 0 := congrArg BitVec.toNat hz
      omega
    have harm : (w.a.sample raw).armed = true := by rw [hsample]; exact harmed
    obtain ⟨invalidCount, state', hcheck, hstate'⟩ :=
      AnalogIn.checkRange_fst w.shut hcount harm
    rw [hsample] at hstate' hcheck
    rw [hw, hsample, hcheck]
    exact {
      config := fun hn => absurd hn (by simp)
      count := fun _ => h.count harmed
      check := fun _ => h.check harmed
      few := fun _ => hone.1
      fresh := fun _ _ => by
        rcases hstate' with rfl | rfl
        · exact hge
        · show w.a.sampleCount.toNat ≤ (w.a.sampleCount + 1).toNat
          rw [toNat_succ hone.2.1]
          exact Nat.le_succ _
      progress := fun hn => absurd rfl hn
      bound := by simp
      begun := fun _ => rfl }

theorem setWidth_toNat {v k : ℕ} {x : BitVec v} (h : x.toNat < 2 ^ k) :
    (x.setWidth k).toNat = x.toNat := by
  rw [BitVec.toNat_setWidth]
  exact Nat.mod_eq_of_lt h

theorem Sums.query {adcMax : ℕ} {q : Query} (hq : Fits adcMax w (.query q)) :
    Sums adcMax { w with a := w.a.query q, beginTime := none, readings := [] } := by
  obtain ⟨hone, hmax, hsum, hcheck, hcheck'⟩ := hq
  have hcount : (q.sampleCount.setWidth 8).toNat = q.sampleCount.toNat := setWidth_toNat (by omega)
  have hrange : (q.rangeCheckCount.setWidth 8).toNat = q.rangeCheckCount.toNat :=
    setWidth_toNat (by omega)
  have harmed : (w.a.query q).armed = true := by
    refine decide_eq_true fun hz => ?_
    have hz : (q.sampleCount.setWidth 8).toNat = 0 := congrArg BitVec.toNat hz
    omega
  have hstate : (w.a.query q).state.toNat = q.sampleCount.toNat + 1 := by
    show (q.sampleCount.setWidth 8 + 1).toNat = _
    rw [toNat_succ (by omega), hcount]
  exact {
    config := fun hn => absurd harmed (by simpa using hn)
    count := fun _ => by rw [AnalogIn.query, hcount]; exact ⟨hone, hmax, hsum⟩
    check := fun _ => by rw [AnalogIn.query, hrange]; exact hcheck
    few := fun _ => by rw [AnalogIn.query, hcount]; exact hone
    fresh := fun _ _ => by
      rw [hstate, AnalogIn.query, hcount]
      exact Nat.le_succ _
    progress := fun hn => absurd rfl hn
    bound := by simp
    begun := fun _ => rfl }

theorem Sums.task {adcMax : ℕ} (h : Sums adcMax w) : Sums adcMax w.task := by
  by_cases heq : w.a.state = w.a.sampleCount
  · have htask : w.task = { w with
        a := { w.a with state := w.a.state + 1 }
        sent := ⟨w.a.nextBeginTime, w.a.value⟩ :: w.sent } := by
      rw [World.task, AnalogIn.task, if_pos heq]
      rfl
    have harmed : w.a.armed = true := by
      by_contra hn
      obtain ⟨hzero, hone⟩ := h.config (by simpa using hn)
      rw [hzero, hone] at heq
      exact absurd heq (by decide)
    obtain ⟨-, hmax, -⟩ := h.count harmed
    have hnil : w.readings = [] := by
      by_contra hn
      have hlen := (h.progress hn).1
      have hfew := h.few harmed
      rw [heq] at hlen
      omega
    rw [htask]
    exact {
      config := fun hn => absurd harmed (by simpa using hn)
      count := h.count
      check := h.check
      few := h.few
      fresh := fun _ _ => by
        show w.a.sampleCount.toNat ≤ (w.a.state + 1).toNat
        rw [heq, toNat_succ hmax]
        exact Nat.le_succ _
      progress := fun hn => absurd hnil hn
      bound := h.bound
      begun := h.begun }
  · have htask : w.task = w := by
      rw [World.task, AnalogIn.task, if_neg heq]
      rfl
    rwa [htask]

theorem Sums.shutdown {adcMax : ℕ} (h : Sums adcMax w) :
    Sums adcMax { w with a := w.a.shutdown, shut := true, beginTime := none, readings := [] } := by
  by_cases harmed : w.a.armed = true
  · have hone := h.count harmed
    have hcount : w.a.sampleCount ≠ 0 := by
      intro hz
      have hz : w.a.sampleCount.toNat = 0 := congrArg BitVec.toNat hz
      omega
    rw [AnalogIn.shutdown, if_pos hcount]
    exact {
      config := fun hn => absurd hn (by simp)
      count := fun _ => hone
      check := fun _ => h.check harmed
      few := fun _ => hone.1
      fresh := fun _ _ => by
        show w.a.sampleCount.toNat ≤ (w.a.sampleCount + 1).toNat
        rw [toNat_succ hone.2.1]
        exact Nat.le_succ _
      progress := fun hn => absurd rfl hn
      bound := by simp
      begun := fun _ => rfl }
  · have hconfig := h.config (by simpa using harmed)
    rw [AnalogIn.shutdown, if_neg (not_not.2 hconfig.1)]
    exact {
      config := h.config
      count := h.count
      check := h.check
      few := fun hn => absurd hn harmed
      fresh := fun hn => absurd hn harmed
      progress := fun hn => absurd rfl hn
      bound := by simp
      begun := fun hn => absurd hn harmed }

/-- What the state of the code means stays true. -/
theorem Sums.next {adcMax : ℕ} {w w' : World} {e : Event} (h : Sums adcMax w)
    (he : Fits adcMax w e) (hw : next w e = some w') : Sums adcMax w' := by
  cases e with
  | timer sampleDelay raw =>
    obtain ⟨harmed, hw⟩ := Option.ite_none_right_eq_some.1 hw
    obtain rfl := Option.some_inj.1 hw
    exact h.timer harmed sampleDelay he
  | query q =>
    obtain rfl := Option.some_inj.1 (Option.ite_none_left_eq_some.1 hw).2
    exact .query he
  | task =>
    obtain rfl := Option.some_inj.1 hw
    exact h.task
  | shutdown =>
    obtain rfl := Option.some_inj.1 (Option.ite_none_left_eq_some.1 hw).2
    exact h.shutdown

/-! ## Reports -/

/-- The messages are those of some of the complete measurements, each at most once and in order. A
measurement that the state tells is complete is the last one and was not reported. -/
def Reports (w : World) : Prop :=
  ∃ ms : List Measurement, ms.Sublist w.completed ∧ w.sent = ms.map Measurement.message ∧
    (w.a.armed = true → w.a.state = w.a.sampleCount → ∃ m rest, w.completed = m :: rest ∧
      ms.Sublist rest ∧ m.message = ⟨w.a.nextBeginTime, w.a.value⟩)

theorem ne_succ {n : BitVec 8} : n + 1 ≠ n := by
  intro h
  bv_omega

/-- A state that does not tell that a measurement is complete reports nothing new. -/
theorem Reports.of_ne {w' : World} (h : Reports w) (hcompleted : w'.completed = w.completed)
    (hsent : w'.sent = w.sent) (hne : w'.a.armed = true → w'.a.state ≠ w'.a.sampleCount) :
    Reports w' := by
  obtain ⟨ms, hms, hmap, -⟩ := h
  exact ⟨ms, hcompleted ▸ hms, hsent ▸ hmap, fun harmed heq => absurd heq (hne harmed)⟩

theorem Reports.timer {adcMax : ℕ} (h : Reports w) (hs : Sums adcMax w)
    (harmed : w.a.armed = true) (sampleDelay : BitVec 32) (raw : BitVec 16) :
    Reports (w.timer sampleDelay raw) := by
  rcases w.timer_cases sampleDelay raw with hw | ⟨hmore, hw⟩ | ⟨hlast, hw⟩
  · rw [hw]
    exact h
  · obtain ⟨value, state, hsample⟩ := w.a.sample_frame raw
    rw [hw]
    rw [hsample] at hmore ⊢
    have hlt : state.toNat < w.a.sampleCount.toNat := hmore
    refine h.of_ne rfl rfl fun _ heq => absurd (congrArg BitVec.toNat heq) hlt.ne
  · obtain ⟨ms, hms, hmap, -⟩ := h
    have hcount := hs.count harmed
    have hne : (w.a.sample raw).sampleCount ≠ 0 := by
      obtain ⟨value, state, hsample⟩ := w.a.sample_frame raw
      rw [hsample]
      intro hz
      have hz : w.a.sampleCount.toNat = 0 := congrArg BitVec.toNat hz
      omega
    have harm : (w.a.sample raw).armed = true := by
      obtain ⟨value, state, hsample⟩ := w.a.sample_frame raw
      rw [hsample]
      exact harmed
    obtain ⟨invalidCount, state, hcheck, -⟩ := AnalogIn.checkRange_fst w.shut hne harm
    rw [hw]
    refine ⟨ms, hms.cons _, hmap, fun _ _ => ⟨_, w.completed, rfl, hms, ?_⟩⟩
    rw [hcheck, Measurement.message, hs.begun harmed]
    obtain ⟨value, state, hsample⟩ := w.a.sample_frame raw
    rw [hsample]
    rfl

theorem Reports.task {adcMax : ℕ} (h : Reports w) (hs : Sums adcMax w) : Reports w.task := by
  by_cases heq : w.a.state = w.a.sampleCount
  · obtain ⟨ms, hms, hmap, hlast⟩ := h
    have harmed : w.a.armed = true := by
      by_contra hn
      obtain ⟨hzero, hone⟩ := hs.config (by simpa using hn)
      rw [hzero, hone] at heq
      exact absurd heq (by decide)
    obtain ⟨m, rest, hcompleted, hrest, hm⟩ := hlast harmed heq
    rw [World.task, AnalogIn.task, if_pos heq]
    refine ⟨m :: ms, ?_, ?_, fun _ hc => absurd (hc.trans heq.symm) ne_succ⟩
    · rw [hcompleted]
      exact hrest.cons_cons m
    · rw [List.map_cons, hm, ← hmap]
      rfl
  · rw [World.task, AnalogIn.task, if_neg heq]
    exact h

theorem Reports.next {adcMax : ℕ} {w w' : World} {e : Event} (h : Reports w) (hs : Sums adcMax w)
    (hw : next w e = some w') : Reports w' := by
  cases e with
  | timer sampleDelay raw =>
    obtain ⟨harmed, hw⟩ := Option.ite_none_right_eq_some.1 hw
    obtain rfl := Option.some_inj.1 hw
    exact h.timer hs harmed sampleDelay raw
  | query q =>
    obtain rfl := Option.some_inj.1 (Option.ite_none_left_eq_some.1 hw).2
    exact h.of_ne rfl rfl fun _ => ne_succ
  | task =>
    obtain rfl := Option.some_inj.1 hw
    exact h.task hs
  | shutdown =>
    obtain rfl := Option.some_inj.1 (Option.ite_none_left_eq_some.1 hw).2
    refine h.of_ne rfl rfl fun _ => ?_
    show w.a.shutdown.state ≠ w.a.shutdown.sampleCount
    by_cases hcount : w.a.sampleCount ≠ 0
    · rw [AnalogIn.shutdown, if_pos hcount]
      exact ne_succ
    · rw [AnalogIn.shutdown, if_neg hcount]
      by_cases harmed : w.a.armed = true
      · have hone := (hs.count harmed).1
        rw [not_not.1 hcount] at hone
        exact absurd hone (by decide)
      · obtain ⟨hzero, hone⟩ := hs.config (by simpa using harmed)
        rw [hzero, hone]
        decide

/-! ## The guard -/

/-- A measurement is the last of a row of invalid ones that is long enough. -/
def Exceeds (m : Measurement) (before : List Measurement) : Prop :=
  m.setting.rangeCheckCount.toNat ≤ Measurement.streak (m :: before)

/-- What the count of invalid sums means, and when the micro-controller was shut down. -/
structure Guard (w : World) : Prop where
  /-- The count is that of the last measurements in a row. -/
  count : w.shut = false → w.a.invalidCount.toNat = Measurement.streak w.completed ∧
    Measurement.streak w.completed ≤ 254
  /-- No measurement has shut the micro-controller down yet. -/
  running : w.shut = false → ∀ m ∈ w.completed, m.running = true ∧ m.tripped = false
  /-- A measurement shuts down exactly if it is the last of a row that is long enough. -/
  trips : ∀ m before, (m :: before) <:+ w.completed →
    (m.tripped = true ↔ m.running = true ∧ Exceeds m before)
  /-- None before it did. -/
  first : ∀ m before, (m :: before) <:+ w.completed → m.running = true →
    ∀ m' ∈ before, m'.running = true ∧ m'.tripped = false
  /-- A row is of at least one measurement. -/
  check : ∀ m ∈ w.completed, 1 ≤ m.setting.rangeCheckCount.toNat

theorem streak_cons (m : Measurement) (ms : List Measurement) :
    Measurement.streak (m :: ms) =
      if m.setting.inRange then 0 else Measurement.streak ms + 1 := by
  unfold Measurement.streak
  rw [List.takeWhile_cons]
  cases h : m.setting.inRange with
  | true => simp [Measurement.invalid, h]
  | false => simp [Measurement.invalid, h]

/-- What happens to other parts of the state does not matter. -/
theorem Guard.of_eq {w' : World} (h : Guard w) (hcompleted : w'.completed = w.completed)
    (hshut : w'.shut = false → w.shut = false ∧ w'.a.invalidCount = w.a.invalidCount) :
    Guard w' where
  count hs := by
    obtain ⟨hs, hcount⟩ := hshut hs
    rw [hcompleted, hcount]
    exact h.count hs
  running hs := by
    rw [hcompleted]
    exact h.running (hshut hs).1
  trips := by
    rw [hcompleted]
    exact h.trips
  first := by
    rw [hcompleted]
    exact h.first
  check := by
    rw [hcompleted]
    exact h.check

/-- A sum shuts down exactly if the row that it ends is long enough. -/
theorem Guard.trips_iff (h : Guard w) (hshut : w.shut = false) {s : AnalogIn}
    (hs : s.invalidCount = w.a.invalidCount) (hcheck : 1 ≤ s.rangeCheckCount.toNat)
    {m : Measurement} (hm : m.setting = s) :
    s.trips false = true ↔ Exceeds m w.completed := by
  obtain ⟨hcount, hmax⟩ := h.count hshut
  have hsucc : (s.invalidCount + 1).toNat = Measurement.streak w.completed + 1 := by
    rw [hs, toNat_succ (hcount ▸ hmax), hcount]
  rw [Exceeds, streak_cons, hm, AnalogIn.trips, AnalogIn.overCount]
  cases hr : s.inRange with
  | true =>
    simp only [Bool.not_true, Bool.false_and, Bool.false_eq_true, if_true, false_iff]
    omega
  | false =>
    simp only [Bool.not_false, Bool.true_and, Bool.and_true, decide_eq_true_eq,
      Bool.false_eq_true, if_false, ← hsucc]
    exact Iff.rfl

theorem Guard.measured {s : AnalogIn} (h : Guard w) (hs : s.invalidCount = w.a.invalidCount)
    (hcheck : 1 ≤ s.rangeCheckCount.toNat) (readings : List (BitVec 16)) (begun : BitVec 32) :
    Guard { w with
      a := (s.checkRange w.shut).1
      shut := w.shut || s.trips w.shut
      beginTime := none
      readings := []
      completed := ⟨readings, begun, s, !w.shut, s.trips w.shut⟩ :: w.completed } := by
  cases hshut : w.shut with
  | true =>
    have htrip : s.trips true = false := by simp [AnalogIn.trips]
    rw [htrip]
    exact {
      count := fun hn => absurd hn (by simp)
      running := fun hn => absurd hn (by simp)
      trips := fun m before hm => by
        rcases List.suffix_cons_iff.1 hm with heq | hm
        · obtain ⟨rfl, rfl⟩ := List.cons.inj heq
          simp
        · exact h.trips m before hm
      first := fun m before hm hrun => by
        rcases List.suffix_cons_iff.1 hm with heq | hm
        · obtain ⟨rfl, rfl⟩ := List.cons.inj heq
          simp at hrun
        · exact h.first m before hm hrun
      check := List.forall_mem_cons.2 ⟨hcheck, h.check⟩ }
  | false =>
    obtain ⟨m, hm⟩ : ∃ m : Measurement, m = ⟨readings, begun, s, !false, s.trips false⟩ := ⟨_, rfl⟩
    have hset : m.setting = s := by rw [hm]
    have hiff := h.trips_iff hshut hs hcheck hset
    rw [← hm]
    exact {
      count := fun hn => by
        have htrip : s.trips false = false := by simpa using hn
        have hnot : ¬Exceeds m w.completed := fun he => by simp [hiff.2 he] at htrip
        obtain ⟨hcount, hmax⟩ := h.count hshut
        have hsmall : Measurement.streak (m :: w.completed) ≤ 254 := by
          have := s.rangeCheckCount.isLt
          rw [Exceeds, hset] at hnot
          omega
        refine ⟨?_, hsmall⟩
        show ((s.checkRange false).1).invalidCount.toNat = _
        rw [AnalogIn.checkRange_invalidCount htrip, streak_cons, hset]
        split
        · rfl
        · rw [hs, toNat_succ (hcount ▸ hmax), hcount]
      running := fun hn => by
        have htrip : s.trips false = false := by simpa using hn
        refine List.forall_mem_cons.2 ⟨?_, h.running hshut⟩
        rw [hm]
        exact ⟨rfl, htrip⟩
      trips := fun m' before hm' => by
        rcases List.suffix_cons_iff.1 hm' with heq | hm'
        · obtain ⟨rfl, rfl⟩ := List.cons.inj heq
          rw [← hiff, hm]
          simp
        · exact h.trips m' before hm'
      first := fun m' before hm' hrun => by
        rcases List.suffix_cons_iff.1 hm' with heq | hm'
        · obtain ⟨rfl, rfl⟩ := List.cons.inj heq
          exact h.running hshut
        · exact h.first m' before hm' hrun
      check := List.forall_mem_cons.2 ⟨by rw [hset]; exact hcheck, h.check⟩ }

theorem Guard.next {adcMax : ℕ} {w w' : World} {e : Event} (h : Guard w) (hs : Sums adcMax w)
    (hw : next w e = some w') : Guard w' := by
  cases e with
  | timer sampleDelay raw =>
    obtain ⟨harmed, hw⟩ := Option.ite_none_right_eq_some.1 hw
    obtain rfl := Option.some_inj.1 hw
    obtain ⟨value, state, hsample⟩ := w.a.sample_frame raw
    rcases w.timer_cases sampleDelay raw with hw | ⟨-, hw⟩ | ⟨-, hw⟩
    · rw [hw]
      exact h.of_eq rfl fun hshut => ⟨hshut, rfl⟩
    · rw [hw, hsample]
      exact h.of_eq rfl fun hshut => ⟨hshut, rfl⟩
    · rw [hw]
      refine h.measured ?_ ?_ _ _
      · rw [hsample]
      · rw [hsample]
        exact hs.check harmed
  | query q =>
    obtain rfl := Option.some_inj.1 (Option.ite_none_left_eq_some.1 hw).2
    exact h.of_eq rfl fun hshut => ⟨hshut, rfl⟩
  | task =>
    obtain rfl := Option.some_inj.1 hw
    refine h.of_eq rfl fun hshut => ⟨hshut, ?_⟩
    rw [World.task, AnalogIn.task]
    split <;> rfl
  | shutdown =>
    obtain rfl := Option.some_inj.1 (Option.ite_none_left_eq_some.1 hw).2
    exact h.of_eq rfl fun hshut => absurd hshut (by simp)

/-- With one range check count for all, a row that shuts down is exactly that long. -/
theorem Guard.streak_eq (h : Guard w) {m : Measurement} {before : List Measurement}
    (hm : (m :: before) <:+ w.completed) (htrip : m.tripped = true)
    (hsame : ∀ m' ∈ before, m'.setting.rangeCheckCount = m.setting.rangeCheckCount) :
    Measurement.streak (m :: before) = m.setting.rangeCheckCount.toNat := by
  obtain ⟨hrun, hexceeds⟩ := (h.trips m before hm).1 htrip
  refine le_antisymm ?_ hexceeds
  have hone := h.check m (hm.subset List.mem_cons_self)
  rw [streak_cons]
  split
  · exact Nat.zero_le _
  · cases before with
    | nil => exact hone
    | cons m' before =>
      obtain ⟨hrun', htrip'⟩ := h.first m _ hm hrun m' List.mem_cons_self
      have hm' := (List.suffix_cons m (m' :: before)).trans hm
      have hnot : ¬Exceeds m' before := fun he => by
        simp [(h.trips m' before hm').2 ⟨hrun', he⟩] at htrip'
      rw [Exceeds, hsame m' List.mem_cons_self] at hnot
      omega

/-- Every complete measurement is the sum of as many readings as were asked for. -/
def Measured (w : World) : Prop :=
  ∀ m ∈ w.completed, m.readings.length = m.setting.sampleCount.toNat ∧
    m.setting.value.toNat = total m.readings

theorem Measured.next {adcMax : ℕ} {w w' : World} {e : Event} (h : Measured w)
    (hs : Sums adcMax w) (he : Fits adcMax w e) (hw : next w e = some w') : Measured w' := by
  cases e with
  | timer sampleDelay raw =>
    obtain ⟨harmed, hw⟩ := Option.ite_none_right_eq_some.1 hw
    obtain rfl := Option.some_inj.1 hw
    rcases w.timer_cases sampleDelay raw with hw | ⟨-, hw⟩ | ⟨hlast, hw⟩
    · rw [hw]
      exact h
    · rw [hw]
      exact h
    · have hlen := hs.length_of_last harmed he hlast
      have hvalue := (hs.sample harmed he).2
      rw [hw]
      refine List.forall_mem_cons.2 ⟨⟨?_, hvalue⟩, h⟩
      obtain ⟨value, state, hsample⟩ := w.a.sample_frame raw
      rw [hsample]
      exact hlen
  | query q =>
    obtain rfl := Option.some_inj.1 (Option.ite_none_left_eq_some.1 hw).2
    exact h
  | task =>
    obtain rfl := Option.some_inj.1 hw
    exact h
  | shutdown =>
    obtain rfl := Option.some_inj.1 (Option.ite_none_left_eq_some.1 hw).2
    exact h

/-- What the range guard has to do. -/
structure Correct (w : World) : Prop where
  /-- A measurement is the sum of as many readings as were asked for. -/
  measured : Measured w
  /-- A measurement shuts the micro-controller down exactly if it is running and the measurement is
  the last of a row of invalid ones that is long enough. -/
  shutdown : ∀ m before, (m :: before) <:+ w.completed →
    (m.tripped = true ↔ m.running = true ∧ Exceeds m before)
  /-- With one range check count for all, the row is exactly that long. -/
  exactly : ∀ m before, (m :: before) <:+ w.completed → m.tripped = true →
    (∀ m' ∈ before, m'.setting.rangeCheckCount = m.setting.rangeCheckCount) →
    Measurement.streak (m :: before) = m.setting.rangeCheckCount.toNat
  /-- The messages are those of some measurements, in order and each at most once. -/
  messages : ∃ ms : List Measurement, ms.Sublist w.completed ∧ w.sent = ms.map Measurement.message

/-- The guard is correct in every run whose settings fit. -/
theorem correct_of_reachable {adcMax : ℕ} {w : World}
    (hw : system.ReachableBy (Fits adcMax) w) : Correct w := by
  have hinv : Sums adcMax w ∧ Measured w ∧ Reports w ∧ Guard w := by
    refine System.ReachableBy.invariant
      (I := fun w => Sums adcMax w ∧ Measured w ∧ Reports w ∧ Guard w) ?_ ?_ hw
    · rintro s rfl
      refine ⟨.start adcMax, by simp [Measured, World.start],
        ⟨[], .slnil, rfl, fun h => absurd h (by decide)⟩, ?_⟩
      exact {
        count := fun _ => ⟨rfl, by decide⟩
        running := fun _ => by simp [World.start]
        trips := fun m before h => absurd (List.eq_nil_of_suffix_nil h) (List.cons_ne_nil _ _)
        first := fun m before h => absurd (List.eq_nil_of_suffix_nil h) (List.cons_ne_nil _ _)
        check := by simp [World.start] }
    · rintro s e t ⟨hs, hm, hr, hg⟩ he ht
      exact ⟨hs.next he ht, hm.next hs he ht, hr.next hs ht, hg.next hs ht⟩
  obtain ⟨-, hm, ⟨ms, hms, hsent, -⟩, hg⟩ := hinv
  exact ⟨hm, hg.trips, fun m before h htrip hsame => hg.streak_eq h htrip hsame, ms, hms, hsent⟩

end World

/-! ## The range -/

section

variable {K : Type*} [Field K] [LinearOrder K] [IsStrictOrderedRing K] [FloorRing K]

/-- `int(x)`. -/
def toInt (x : K) : ℤ :=
  if 0 ≤ x then ⌊x⌋ else ⌈x⌉

/-- `max(0, min(0xffff, z))`. -/
def clamp (z : ℤ) : ℤ :=
  max 0 (min 0xffff z)

/-- The host's side of a pin. -/
structure McuAdc (K : Type*) where
  sampleCount : ℕ
  rangeCheckCount : ℕ
  /-- `ADC_MAX` of the micro-controller. -/
  mcuAdcMax : ℕ
  minSample : K
  maxSample : K

namespace McuAdc

variable (h : McuAdc K)

/-- The largest sum of readings. -/
def maxAdc : ℕ := h.sampleCount * h.mcuAdcMax

/-- The smallest sum that is sent as valid. -/
def minValue : ℤ := clamp (toInt (h.minSample * h.maxAdc))

/-- The largest sum that is sent as valid. -/
def maxValue : ℤ := clamp ⌈h.maxSample * h.maxAdc⌉

/-- The command that `_build_config` sends. -/
def buildConfig (clock sampleTicks reportClock : BitVec 32) : Query where
  clock := clock
  sampleTicks := sampleTicks
  sampleCount := BitVec.ofNat 32 h.sampleCount
  restTicks := reportClock
  minValue := BitVec.ofInt 32 h.minValue
  maxValue := BitVec.ofInt 32 h.maxValue
  rangeCheckCount := BitVec.ofNat 32 h.rangeCheckCount

/-- The normalised value of a sum. -/
def lastValue (value : ℕ) : K := value * (1 / h.maxAdc)

/-- Sums are judged by their normalised values, to within one count. -/
def Judges : Prop :=
  ∀ (a : AnalogIn) (clock sampleTicks reportClock : BitVec 32) (value : BitVec 16),
    value.toNat ≤ h.maxAdc →
      (h.minSample ≤ h.lastValue value.toNat → h.lastValue value.toNat ≤ h.maxSample →
        { a.query (h.buildConfig clock sampleTicks reportClock) with value := value }.inRange =
          true) ∧
      (h.lastValue value.toNat + 1 / h.maxAdc < h.minSample ∨
          h.maxSample + 1 / h.maxAdc < h.lastValue value.toNat →
        { a.query (h.buildConfig clock sampleTicks reportClock) with value := value }.inRange =
          false)

/-- The range is not cut off : a range that ends below 0 does not begin at 0 for that, nor does one
that begins above the largest sum of all end there. -/
def NotCut : Prop :=
  (h.maxSample * h.maxAdc < -1 → 1 ≤ h.minSample * h.maxAdc) ∧
    (h.maxAdc = 65535 → 65536 < h.minSample * h.maxAdc → h.maxSample * h.maxAdc ≤ 65534)

end McuAdc

theorem clamp_toInt_le {x : K} {v : ℕ} (hv : v ≤ 65535) :
    clamp (toInt x) ≤ v ↔ x < v + 1 ∨ v = 65535 := by
  have hint : toInt x ≤ v ↔ x < v + 1 := by
    unfold toInt
    split
    next hx =>
      rw [← Int.lt_add_one_iff, Int.floor_lt]
      push_cast
      rfl
    next hx =>
      rw [Int.ceil_le]
      push_cast
      refine ⟨fun h => h.trans_lt (lt_add_one _), fun _ => ?_⟩
      exact (not_le.1 hx).le.trans (Nat.cast_nonneg v)
  rw [← hint]
  unfold clamp
  omega

omit [IsStrictOrderedRing K] in
theorem le_clamp_ceil {x : K} {v : ℕ} (hv : v ≤ 65535) :
    (v : ℤ) ≤ clamp ⌈x⌉ ↔ (v : K) - 1 < x ∨ v = 0 := by
  have hint : (v : ℤ) ≤ ⌈x⌉ ↔ (v : K) - 1 < x := by
    rw [← Int.sub_one_lt_iff, Int.lt_ceil]
    push_cast
    rfl
  rw [← hint]
  unfold clamp
  omega

namespace McuAdc

variable (h : McuAdc K)

theorem toNat_setWidth_ofInt {z : ℤ} (hz : 0 ≤ z) (hz' : z ≤ 65535) :
    (((BitVec.ofInt 32 z).setWidth 16).toNat : ℤ) = z := by
  rw [BitVec.toNat_setWidth, BitVec.toNat_ofInt]
  omega

theorem clamp_nonneg (z : ℤ) : 0 ≤ clamp z := le_max_left _ _

theorem clamp_le (z : ℤ) : clamp z ≤ 65535 := by
  unfold clamp
  omega

/-- How a sum is judged. -/
theorem inRange_iff (a : AnalogIn) (clock sampleTicks reportClock : BitVec 32)
    (value : BitVec 16) :
    { a.query (h.buildConfig clock sampleTicks reportClock) with value := value }.inRange = true ↔
      (h.minSample * h.maxAdc < (value.toNat : K) + 1 ∨ value.toNat = 65535) ∧
      ((value.toNat : K) - 1 < h.maxSample * h.maxAdc ∨ value.toNat = 0) := by
  have hv : value.toNat ≤ 65535 := by
    have := value.isLt
    omega
  have hmin := toNat_setWidth_ofInt (clamp_nonneg (toInt (h.minSample * h.maxAdc)))
    (clamp_le _)
  have hmax := toNat_setWidth_ofInt (clamp_nonneg ⌈h.maxSample * h.maxAdc⌉) (clamp_le _)
  rw [← clamp_toInt_le hv, ← le_clamp_ceil hv, ← hmin, ← hmax, Int.ofNat_le, Int.ofNat_le]
  exact decide_eq_true_iff

/-- Sums are judged by their normalised values exactly if the range is not cut off. -/
theorem judges_iff (hpos : 1 ≤ h.maxAdc) (hmax : h.maxAdc ≤ 65535) : h.Judges ↔ h.NotCut := by
  have hM : (0 : K) < h.maxAdc := Nat.cast_pos.2 hpos
  have hle (x : K) (v : ℕ) : x ≤ h.lastValue v ↔ x * h.maxAdc ≤ v := by
    rw [lastValue, mul_one_div, le_div_iff₀ hM]
  have hge (x : K) (v : ℕ) : h.lastValue v ≤ x ↔ v ≤ x * h.maxAdc := by
    rw [lastValue, mul_one_div, div_le_iff₀ hM]
  have hlow (x : K) (v : ℕ) : h.lastValue v + 1 / h.maxAdc < x ↔ v + 1 < x * h.maxAdc := by
    rw [lastValue, mul_one_div, ← add_div, div_lt_iff₀ hM]
  have hhigh (x : K) (v : ℕ) : x + 1 / h.maxAdc < h.lastValue v ↔ x * h.maxAdc + 1 < v := by
    rw [lastValue, mul_one_div, lt_div_iff₀ hM, add_mul, div_mul_cancel₀ _ hM.ne']
  constructor
  · intro hj
    constructor
    · intro hneg
      by_contra hsmall
      have hzero := (hj .config 0 0 0 0 (Nat.zero_le _)).2 (.inr ?_)
      · rw [Bool.eq_false_iff, ne_eq, h.inRange_iff] at hzero
        exact hzero ⟨.inl (by simpa using hsmall), .inr rfl⟩
      · rw [hhigh]
        push_cast [BitVec.toNat_ofNat]
        linarith
    · intro heq hlarge
      by_contra hsmall
      have hv : (65535 : BitVec 16).toNat = 65535 := rfl
      have htop := (hj .config 0 0 0 65535 (by rw [hv, heq])).2 (.inl ?_)
      · rw [Bool.eq_false_iff, ne_eq, h.inRange_iff, hv] at htop
        refine htop ⟨.inr rfl, .inl ?_⟩
        push_cast
        linarith
      · rw [hlow, hv]
        push_cast
        linarith
  · rintro ⟨hneg, hlarge⟩ a clock sampleTicks reportClock value hvalue
    constructor
    · intro hmin hmax'
      rw [hle] at hmin
      rw [hge] at hmax'
      exact (h.inRange_iff a _ _ _ _).2 ⟨.inl (by linarith), .inl (by linarith)⟩
    · intro hout
      rw [hlow, hhigh] at hout
      rw [Bool.eq_false_iff, ne_eq, h.inRange_iff]
      rintro ⟨hmin, hmax'⟩
      rcases hout with hout | hout
      · have htop : value.toNat = 65535 := hmin.resolve_left (by linarith)
        have heq : h.maxAdc = 65535 := by omega
        rw [htop] at hout hmax'
        push_cast at hout hmax'
        have := hlarge heq (by linarith)
        rcases hmax' with hmax' | hmax'
        · linarith
        · exact absurd hmax' (by norm_num)
      · have hzero : value.toNat = 0 := hmax'.resolve_left (by linarith)
        rw [hzero] at hout hmin
        push_cast at hout hmin
        have := hneg (by linarith)
        rcases hmin with hmin | hmin
        · linarith
        · exact absurd hmin (by norm_num)

end McuAdc

end

/-! ## Runs -/

/-- What every command promises : at least one reading, sums that fit 16 bits, a range check count,
and fields of one byte. -/
def Promised (adcMax : ℕ) (_ : World) : Event → Prop
  | .timer _ raw => raw.toNat ≤ adcMax
  | .query q => 1 ≤ q.sampleCount.toNat ∧ q.sampleCount.toNat ≤ 255 ∧
      q.sampleCount.toNat * adcMax ≤ 65535 ∧
      1 ≤ q.rangeCheckCount.toNat ∧ q.rangeCheckCount.toNat ≤ 255
  | .task => True
  | .shutdown => True

instance (adcMax : ℕ) (w : World) (e : Event) : Decidable (Promised adcMax w e) := by
  cases e <;> unfold Promised <;> infer_instance

/-- A heater whose sensor is read twice for a measurement. -/
def heaterRun : List Event :=
  [.query ⟨1000, 10, 2, 500, 100, 900, 4⟩, .timer 3 0, .timer 0 120, .timer 0 150, .task,
    .timer 0 7, .timer 0 8]

/-- 255 readings for a measurement : the command starts with a state of 0. -/
def fullRun : List Event :=
  let query : Event := .query ⟨0, 0, 255, 0, 0, 65535, 4⟩
  [query, .timer 0 5, query] ++ List.replicate 255 (.timer 0 0)

/-- A reading from before the command is in the sum. -/
theorem stale_reading :
    (system.run .start fullRun).map
        (fun w => w.completed.map fun m => (m.setting.value, World.total m.readings)) =
      some [(5, 0)] := by
  decide +kernel

end Adc

end Thinker
