import Thinker.Numerals
import Thinker.Transition

/-!
# The output of a heater

`Heater` of `heaters.py` with its control algorithms. Each reading of the temperature asks the
control for a value, and `set_pwm` passes it on, unless it is close to the last one and that one
need not be renewed. Arithmetic is exact, and a division by zero is an exception.

What is passed on stays in the range of the heater, comes in time for the firmware, and is zero
once the heater is off (`heaterOutput`). A zero is not passed on twice, and the integral of a PID
control with a negative `pid_Ki` is zero, which is above its maximum (`not_zeroSent`).
-/

set_option linter.unusedSectionVars false

namespace Thinker

variable {K : Type*} [Field K] [LinearOrder K] [IsStrictOrderedRing K]

namespace Heaters

/-- `a / b`, which raises an exception if `b` is zero. -/
def divide (a b : K) : Option K :=
  if b = 0 then none else some (a / b)

/-- `MAX_HEAT_TIME`. -/
def maxHeatTime : K := 5

/-- `AMBIENT_TEMP`. -/
def ambientTemp : K := 25

/-- `PID_PARAM_BASE`. -/
def pidParamBase : K := 255

/-- The options of a heater, with their bounds, and `get_report_time_delta` of its sensor, which is
the positive time between two of its readings. -/
structure HeaterConfig (K : Type*) [Field K] [LinearOrder K] where
  minTemp : K
  maxTemp : K
  minExtrudeTemp : K
  maxPower : K
  smoothTime : K
  pwmDelay : K
  kelvinToCelsius_le : -(27315 / 100) ≤ minTemp
  minTemp_lt : minTemp < maxTemp
  minTemp_le_minExtrudeTemp : minTemp ≤ minExtrudeTemp
  minExtrudeTemp_le : minExtrudeTemp ≤ maxTemp
  maxPower_pos : 0 < maxPower
  maxPower_le : maxPower ≤ 1
  smoothTime_pos : 0 < smoothTime
  pwmDelay_pos : 0 < pwmDelay

/-! ## The control algorithms -/

/-- `ControlBangBang`. -/
structure ControlBangBang (K : Type*) [Field K] [LinearOrder K] where
  maxDelta : K
  heating : Bool
  maxDelta_pos : 0 < maxDelta

/-- `temp_integ_max`. -/
def tempIntegMax (c : HeaterConfig K) (ki : K) : K :=
  if ki = 0 then 0 else c.maxPower / ki

/-- `ControlPID`. The integral that is stored has been clamped. -/
structure ControlPid (c : HeaterConfig K) where
  kp : K
  ki : K
  kd : K
  prevTemp : K
  prevTempTime : K
  prevTempDeriv : K
  prevTempInteg : K
  integ_nonneg : 0 ≤ prevTempInteg
  integ_le : prevTempInteg ≤ max 0 (tempIntegMax c ki)

variable {c : HeaterConfig K}

namespace ControlBangBang

/-- `ControlBangBang.temperature_update`, up to the call of `set_pwm` with this value. -/
def temperatureUpdate (c : HeaterConfig K) (b : ControlBangBang K) (temp targetTemp : K) :
    K × ControlBangBang K :=
  let heating :=
    if b.heating = true ∧ targetTemp + b.maxDelta ≤ temp then false
    else if b.heating = false ∧ temp ≤ targetTemp - b.maxDelta then true
    else b.heating
  (if heating then c.maxPower else 0, { b with heating := heating })

end ControlBangBang

namespace ControlPid

/-- `ControlPID.__init__`. -/
def new (c : HeaterConfig K) (pidKp pidKi pidKd : K) : ControlPid c where
  kp := pidKp / pidParamBase
  ki := pidKi / pidParamBase
  kd := pidKd / pidParamBase
  prevTemp := ambientTemp
  prevTempTime := 0
  prevTempDeriv := 0
  prevTempInteg := 0
  integ_nonneg := le_rfl
  integ_le := le_max_left _ _

variable (p : ControlPid c)

/-- `temp_deriv`. -/
def tempDeriv (timeDiff tempDiff : K) : Option K :=
  if c.smoothTime ≤ timeDiff then divide tempDiff timeDiff
  else divide (p.prevTempDeriv * (c.smoothTime - timeDiff) + tempDiff) c.smoothTime

/-- `temp_integ`. -/
def tempInteg (tempErr timeDiff : K) : K :=
  max 0 (min (tempIntegMax c p.ki) (p.prevTempInteg + tempErr * timeDiff))

theorem tempInteg_nonneg (tempErr timeDiff : K) : 0 ≤ p.tempInteg tempErr timeDiff :=
  le_max_left _ _

theorem tempInteg_le (tempErr timeDiff : K) :
    p.tempInteg tempErr timeDiff ≤ max 0 (tempIntegMax c p.ki) :=
  max_le_max le_rfl (min_le_left _ _)

/-- `ControlPID.temperature_update`, with the value that `set_pwm` is called with. -/
def temperatureUpdate (readTime temp targetTemp : K) : Option (K × ControlPid c) :=
  let timeDiff := readTime - p.prevTempTime
  (p.tempDeriv timeDiff (temp - p.prevTemp)).map fun tempDeriv =>
    let tempErr := targetTemp - temp
    let tempInteg := p.tempInteg tempErr timeDiff
    let co := p.kp * tempErr + p.ki * tempInteg - p.kd * tempDeriv
    let boundedCo := max 0 (min c.maxPower co)
    (boundedCo,
      { p with
        prevTemp := temp
        prevTempTime := readTime
        prevTempDeriv := tempDeriv
        prevTempInteg := if co = boundedCo then tempInteg else p.prevTempInteg
        integ_nonneg := by
          split
          · exact p.tempInteg_nonneg _ _
          · exact p.integ_nonneg
        integ_le := by
          split
          · exact p.tempInteg_le _ _
          · exact p.integ_le })

end ControlPid

/-- A control algorithm of this heater. -/
inductive Control (c : HeaterConfig K) where
  | bangBang (b : ControlBangBang K)
  | pid (p : ControlPid c)

/-- `temperature_update` of the control, with the value that `set_pwm` is called with. -/
def Control.temperatureUpdate (readTime temp targetTemp : K) :
    Control c → Option (K × Control c)
  | .bangBang b =>
    let (value, b) := b.temperatureUpdate c temp targetTemp
    some (value, .bangBang b)
  | .pid p => (p.temperatureUpdate readTime temp targetTemp).map fun (value, p) => (value, .pid p)

/-! ## The heater -/

/-- `Heater`. The last two are not in the code : the calls of `mcu_pwm.set_pwm`, the last one
first, and the time of the last reading. -/
structure Heater (c : HeaterConfig K) where
  control : Control c
  lastTemp : K
  lastTempTime : K
  smoothedTemp : K
  targetTemp : K
  canExtrude : Bool
  nextPwmTime : K
  lastPwmValue : K
  pwmCalls : List (K × K)
  lastRead : Option K

namespace Heater

/-- `Heater.__init__`. -/
def new (control : Control c) (isFileoutput : Bool) : Heater c where
  control := control
  lastTemp := 0
  lastTempTime := 0
  smoothedTemp := 0
  targetTemp := 0
  canExtrude := decide (c.minExtrudeTemp ≤ 0) || isFileoutput
  nextPwmTime := 0
  lastPwmValue := 0
  pwmCalls := []
  lastRead := none

variable (h : Heater c)

/-- `set_pwm`. -/
def setPwm (readTime value : K) : Heater c :=
  let value := if h.targetTemp ≤ 0 then 0 else value
  if (readTime < h.nextPwmTime ∨ h.lastPwmValue = 0) ∧ |value - h.lastPwmValue| < 5 / 100 then h
  else
    let pwmTime := readTime + c.pwmDelay
    { h with
      nextPwmTime := pwmTime + 3 / 4 * maxHeatTime
      lastPwmValue := value
      pwmCalls := (pwmTime, value) :: h.pwmCalls }

/-- `temperature_callback`. `none` stands for an exception. -/
def temperatureCallback (readTime temp : K) : Option (Heater c) :=
  (h.control.temperatureUpdate readTime temp h.targetTemp).map fun (value, control) =>
    let timeDiff := readTime - h.lastTempTime
    let h : Heater c := { h with
      lastTemp := temp, lastTempTime := readTime, lastRead := some readTime }
    let h : Heater c := { h.setPwm readTime value with control := control }
    let adjTime := min (timeDiff * (1 / c.smoothTime)) 1
    let smoothedTemp := h.smoothedTemp + (temp - h.smoothedTemp) * adjTime
    { h with
      smoothedTemp := smoothedTemp
      canExtrude := decide (c.minExtrudeTemp ≤ smoothedTemp) }

/-- `set_temp`. A temperature that is out of range raises an error. -/
def setTemp (degrees : K) : Option (Heater c) :=
  if degrees ≠ 0 ∧ (degrees < c.minTemp ∨ c.maxTemp < degrees) then none
  else some { h with targetTemp := degrees }

/-- `set_control`. -/
def setControl (control : Control c) : Heater c :=
  { h with control := control, targetTemp := 0 }

/-- `alter_target`. -/
def alterTarget (targetTemp : K) : Heater c :=
  { h with targetTemp :=
      if targetTemp ≠ 0 then max c.minTemp (min c.maxTemp targetTemp) else targetTemp }

/-- What happens to a heater. -/
inductive Event (c : HeaterConfig K) where
  | callback (readTime temp : K)
  | setTemp (degrees : K)
  | setControl (control : Control c)
  | alterTarget (targetTemp : K)

/-- A reading comes later than the last one, by at most `g`. -/
def InTime (g readTime : K) : Prop :=
  ∀ r ∈ h.lastRead, r < readTime ∧ readTime ≤ r + g

instance (g readTime : K) : Decidable (h.InTime g readTime) :=
  inferInstanceAs (Decidable (∀ r ∈ h.lastRead, r < readTime ∧ readTime ≤ r + g))

/-- The state after an event. -/
def next (g : K) : Event c → Option (Heater c)
  | .callback readTime temp =>
    if h.InTime g readTime then h.temperatureCallback readTime temp else none
  | .setTemp degrees => some ((h.setTemp degrees).getD h)
  | .setControl control => some (h.setControl control)
  | .alterTarget targetTemp => some (h.alterTarget targetTemp)

/-- A heater with readings at most `g` apart. -/
def system (c : HeaterConfig K) (g : K) : System (Heater c) (Event c) where
  init h := ∃ control isFileoutput, h = new control isFileoutput
  next h := h.next g

/-- The same while the target stays at or below zero. -/
def offSystem (c : HeaterConfig K) (g : K) : System (Heater c) (Event c) where
  init _ := False
  next h e := (h.next g e).filter fun t => t.targetTemp ≤ 0

end Heater

/-! ## The value that is demanded -/

theorem ControlBangBang.temperatureUpdate_range (b : ControlBangBang K) (temp targetTemp : K) :
    0 ≤ (b.temperatureUpdate c temp targetTemp).1 ∧
      (b.temperatureUpdate c temp targetTemp).1 ≤ c.maxPower := by
  unfold ControlBangBang.temperatureUpdate
  dsimp only
  generalize (if b.heating = true ∧ targetTemp + b.maxDelta ≤ temp then false
    else if b.heating = false ∧ temp ≤ targetTemp - b.maxDelta then true else b.heating) = heating
  cases heating
  · exact ⟨le_rfl, c.maxPower_pos.le⟩
  · exact ⟨c.maxPower_pos.le, le_rfl⟩

namespace ControlPid

variable (p : ControlPid c)

/-- No derivative divides by zero. -/
theorem tempDeriv_isSome (timeDiff tempDiff : K) : (p.tempDeriv timeDiff tempDiff).isSome := by
  unfold tempDeriv divide
  split_ifs with hlong hzero hzero
  · exact absurd (hzero ▸ hlong) (not_le.2 c.smoothTime_pos)
  · rfl
  · exact absurd hzero c.smoothTime_pos.ne'
  · rfl

theorem temperatureUpdate_isSome (readTime temp targetTemp : K) :
    (p.temperatureUpdate readTime temp targetTemp).isSome := by
  rw [temperatureUpdate, Option.isSome_map]
  exact p.tempDeriv_isSome _ _

theorem temperatureUpdate_range {readTime temp targetTemp value : K} {q : ControlPid c}
    (h : p.temperatureUpdate readTime temp targetTemp = some (value, q)) :
    0 ≤ value ∧ value ≤ c.maxPower := by
  obtain ⟨tempDeriv, -, heq⟩ := Option.map_eq_some_iff.1 h
  obtain ⟨rfl, -⟩ := Prod.mk.inj heq
  exact ⟨le_max_left _ _, max_le c.maxPower_pos.le (min_le_left _ _)⟩

end ControlPid

namespace Control

variable {readTime temp targetTemp : K}

theorem temperatureUpdate_isSome (control : Control c) (readTime temp targetTemp : K) :
    (control.temperatureUpdate readTime temp targetTemp).isSome := by
  cases control with
  | bangBang b => rfl
  | pid p =>
    rw [temperatureUpdate, Option.isSome_map]
    exact p.temperatureUpdate_isSome _ _ _

theorem temperatureUpdate_range {control control' : Control c} {value : K}
    (h : control.temperatureUpdate readTime temp targetTemp = some (value, control')) :
    0 ≤ value ∧ value ≤ c.maxPower := by
  cases control with
  | bangBang b =>
    obtain ⟨rfl, -⟩ := Prod.mk.inj (Option.some_inj.1 h)
    exact b.temperatureUpdate_range temp targetTemp
  | pid p =>
    obtain ⟨⟨v, q⟩, hq, heq⟩ := Option.map_eq_some_iff.1 h
    obtain ⟨rfl, -⟩ := Prod.mk.inj heq
    exact p.temperatureUpdate_range hq

end Control

/-! ## The calls -/

namespace Heater

variable {h s t : Heater c} {g readTime temp value : K}

/-- The value that is wanted : zero when the heater is off. -/
def wanted (h : Heater c) (value : K) : K :=
  if h.targetTemp ≤ 0 then 0 else value

theorem wanted_range (hvalue : 0 ≤ value ∧ value ≤ c.maxPower) :
    0 ≤ h.wanted value ∧ h.wanted value ≤ c.maxPower := by
  unfold wanted
  split_ifs
  · exact ⟨le_rfl, c.maxPower_pos.le⟩
  · exact hvalue

/-- `set_pwm` is suppressed, or passes the value on. -/
theorem setPwm_cases (h : Heater c) (readTime value : K) :
    ((readTime < h.nextPwmTime ∨ h.lastPwmValue = 0) ∧
        |h.wanted value - h.lastPwmValue| < 5 / 100 ∧ h.setPwm readTime value = h) ∨
      (¬ ((readTime < h.nextPwmTime ∨ h.lastPwmValue = 0) ∧
        |h.wanted value - h.lastPwmValue| < 5 / 100) ∧
        h.setPwm readTime value =
          { h with
            nextPwmTime := readTime + c.pwmDelay + 3 / 4 * maxHeatTime
            lastPwmValue := h.wanted value
            pwmCalls := (readTime + c.pwmDelay, h.wanted value) :: h.pwmCalls }) := by
  by_cases hsup : (readTime < h.nextPwmTime ∨ h.lastPwmValue = 0) ∧
      |h.wanted value - h.lastPwmValue| < 5 / 100
  · exact .inl ⟨hsup.1, hsup.2, if_pos hsup⟩
  · exact .inr ⟨hsup, if_neg hsup⟩

/-- What holds of the calls at all times. -/
structure Safe (h : Heater c) : Prop where
  value_eq : h.lastPwmValue = (h.pwmCalls.head?.map Prod.snd).getD 0
  next_eq : ∀ e ∈ h.pwmCalls.head?, h.nextPwmTime = e.1 + 3 / 4 * maxHeatTime
  /-- The values are in the range of the heater. -/
  range : ∀ e ∈ h.pwmCalls, 0 ≤ e.2 ∧ e.2 ≤ c.maxPower
  /-- The times increase strictly. -/
  sorted : h.pwmCalls.Pairwise fun a b => b.1 < a.1
  /-- A value that is not zero is followed in time. -/
  renewed : h.pwmCalls.IsChain fun a b => b.2 ≠ 0 → a.1 ≤ b.1 + maxHeatTime
  read : ∀ e ∈ h.pwmCalls, ∃ r ∈ h.lastRead, e.1 ≤ r + c.pwmDelay
  /-- As long as it is not followed, it is not late. -/
  notLate : ∀ e ∈ h.pwmCalls.head?, e.2 ≠ 0 → ∀ r ∈ h.lastRead, r < e.1 + 3 / 4 * maxHeatTime

/-- Only the calls and the time of the reading matter. -/
theorem Safe.congr (h : Safe s) (hvalue : t.lastPwmValue = s.lastPwmValue)
    (hnext : t.nextPwmTime = s.nextPwmTime) (hcalls : t.pwmCalls = s.pwmCalls)
    (hread : t.lastRead = s.lastRead) : Safe t where
  value_eq := by rw [hvalue, hcalls]; exact h.value_eq
  next_eq := by rw [hnext, hcalls]; exact h.next_eq
  range := by rw [hcalls]; exact h.range
  sorted := by rw [hcalls]; exact h.sorted
  renewed := by rw [hcalls]; exact h.renewed
  read := by rw [hcalls, hread]; exact h.read
  notLate := by rw [hcalls, hread]; exact h.notLate

theorem safe_new (control : Control c) (isFileoutput : Bool) : Safe (new control isFileoutput) := by
  constructor <;> simp [new]

/-- A reading comes later than the calls. -/
theorem Safe.lt_of_inTime (h : Safe s) (hread : s.InTime g readTime) {e : K × K}
    (he : e ∈ s.pwmCalls) : e.1 < readTime + c.pwmDelay := by
  obtain ⟨r, hr, hle⟩ := h.read e he
  exact hle.trans_lt (by linarith [(hread r hr).1])

/-- A value that is to be renewed is renewed in time. -/
theorem Safe.le_of_inTime (h : Safe s) (hg : 3 / 4 * maxHeatTime + g + c.pwmDelay ≤ maxHeatTime)
    (hread : s.InTime g readTime) {e : K × K} (he : e ∈ s.pwmCalls.head?) (hne : e.2 ≠ 0) :
    readTime + c.pwmDelay ≤ e.1 + maxHeatTime := by
  obtain ⟨r, hr, -⟩ := h.read e (List.mem_of_mem_head? he)
  have hlate := h.notLate e he hne r hr
  have hgap := (hread r hr).2
  linarith

/-- A reading at which `set_pwm` is suppressed. -/
theorem Safe.suppress (h : Safe s) (hread : s.InTime g readTime)
    (hsup : readTime < s.nextPwmTime ∨ s.lastPwmValue = 0) :
    Safe { s with lastRead := some readTime } where
  value_eq := h.value_eq
  next_eq := h.next_eq
  range := h.range
  sorted := h.sorted
  renewed := h.renewed
  read e he := ⟨readTime, rfl, (h.lt_of_inTime hread he).le⟩
  notLate e he hne r hr := by
    obtain rfl := Option.some_inj.1 hr
    have hvalue : s.lastPwmValue = e.2 := by
      rw [h.value_eq, Option.mem_def.1 he]
      rfl
    rw [← h.next_eq e he]
    exact hsup.resolve_right (hvalue ▸ hne)

/-- A reading at which `set_pwm` passes a value on. -/
theorem Safe.pass (h : Safe s) (hg : 3 / 4 * maxHeatTime + g + c.pwmDelay ≤ maxHeatTime)
    (hread : s.InTime g readTime) (hvalue : 0 ≤ value ∧ value ≤ c.maxPower) :
    Safe { s with
      lastRead := some readTime
      nextPwmTime := readTime + c.pwmDelay + 3 / 4 * maxHeatTime
      lastPwmValue := value
      pwmCalls := (readTime + c.pwmDelay, value) :: s.pwmCalls } where
  value_eq := rfl
  next_eq e he := by
    obtain rfl := Option.some_inj.1 he
    rfl
  range e he := by
    rcases List.mem_cons.1 he with rfl | he
    · exact hvalue
    · exact h.range e he
  sorted := List.pairwise_cons.2 ⟨fun e he => h.lt_of_inTime hread he, h.sorted⟩
  renewed := by
    have hfirst : ∀ e ∈ s.pwmCalls.head?, e.2 ≠ 0 →
        readTime + c.pwmDelay ≤ e.1 + maxHeatTime := fun e => h.le_of_inTime hg hread
    have hrest := h.renewed
    dsimp only
    revert hfirst hrest
    cases s.pwmCalls with
    | nil => exact fun _ _ => .singleton _
    | cons e calls => exact fun hfirst hrest =>
        List.isChain_cons_cons.2 ⟨hfirst e rfl, hrest⟩
  read e he := by
    rcases List.mem_cons.1 he with rfl | he
    · exact ⟨readTime, rfl, le_rfl⟩
    · exact ⟨readTime, rfl, (h.lt_of_inTime hread he).le⟩
  notLate e he hne r hr := by
    obtain rfl := Option.some_inj.1 he
    obtain rfl := Option.some_inj.1 hr
    have hdelay := c.pwmDelay_pos
    have htime : (0 : K) < maxHeatTime := by norm_num [maxHeatTime]
    dsimp only
    linarith

/-- The state after a reading : `set_pwm` is suppressed with a value that is near the wanted one,
or passes the wanted one on. -/
structure AfterReading (s t : Heater c) (readTime value : K) : Prop where
  targetTemp_eq : t.targetTemp = s.targetTemp
  lastRead_eq : t.lastRead = some readTime
  calls : (t.pwmCalls = s.pwmCalls ∧ t.lastPwmValue = s.lastPwmValue ∧
      t.nextPwmTime = s.nextPwmTime ∧
      (readTime < s.nextPwmTime ∨ s.lastPwmValue = 0) ∧
      |s.wanted value - s.lastPwmValue| < 5 / 100) ∨
    (t.pwmCalls = (readTime + c.pwmDelay, s.wanted value) :: s.pwmCalls ∧
      t.lastPwmValue = s.wanted value ∧
      t.nextPwmTime = readTime + c.pwmDelay + 3 / 4 * maxHeatTime ∧
      ¬ ((readTime < s.nextPwmTime ∨ s.lastPwmValue = 0) ∧
        |s.wanted value - s.lastPwmValue| < 5 / 100))

/-- The value that the control asks for at a reading. -/
def asked (h : Heater c) (readTime temp : K) : K :=
  ((h.control.temperatureUpdate readTime temp h.targetTemp).map Prod.fst).getD 0

theorem asked_range (h : Heater c) (readTime temp : K) :
    0 ≤ h.asked readTime temp ∧ h.asked readTime temp ≤ c.maxPower := by
  unfold asked
  cases hupdate : h.control.temperatureUpdate readTime temp h.targetTemp with
  | none => exact ⟨le_rfl, c.maxPower_pos.le⟩
  | some r => exact Control.temperatureUpdate_range hupdate

/-- No reading raises an exception. -/
theorem exists_temperatureCallback (h : Heater c) (readTime temp : K) :
    ∃ t, h.temperatureCallback readTime temp = some t ∧
      AfterReading h t readTime (h.asked readTime temp) := by
  have hsome := h.control.temperatureUpdate_isSome readTime temp h.targetTemp
  obtain ⟨⟨value, control⟩, hupdate⟩ := Option.isSome_iff_exists.1 hsome
  have hasked : h.asked readTime temp = value := by rw [asked, hupdate]; rfl
  let s : Heater c := { h with lastTemp := temp, lastTempTime := readTime, lastRead := some readTime }
  rw [hasked, temperatureCallback, hupdate]
  refine ⟨_, rfl, ?_⟩
  rcases s.setPwm_cases readTime value with ⟨hsup, hnear, heq⟩ | ⟨hpass, heq⟩
  · dsimp only
    rw [heq]
    exact ⟨rfl, rfl, .inl ⟨rfl, rfl, rfl, hsup, hnear⟩⟩
  · dsimp only
    rw [heq]
    exact ⟨rfl, rfl, .inr ⟨rfl, rfl, rfl, hpass⟩⟩

theorem Safe.afterReading (h : Safe s) (hg : 3 / 4 * maxHeatTime + g + c.pwmDelay ≤ maxHeatTime)
    (hread : s.InTime g readTime) (hvalue : 0 ≤ value ∧ value ≤ c.maxPower)
    (ht : AfterReading s t readTime value) : Safe t := by
  obtain ⟨-, hlast, ⟨hcalls, hvalue, hnext, hsup, -⟩ | ⟨hcalls, hvalue', hnext, -⟩⟩ := ht
  · exact (h.suppress hread hsup).congr hvalue hnext hcalls hlast
  · exact (h.pass hg hread (wanted_range (h := s) hvalue)).congr hvalue' hnext hcalls hlast

/-- What an event of `Heater.next` is : a reading, or one that makes no call. -/
theorem next_cases {e : Event c} (h : s.next g e = some t) :
    (∃ readTime temp, e = .callback readTime temp ∧ s.InTime g readTime ∧
        AfterReading s t readTime (s.asked readTime temp)) ∨
      (t.pwmCalls = s.pwmCalls ∧ t.lastPwmValue = s.lastPwmValue ∧
        t.nextPwmTime = s.nextPwmTime ∧ t.lastRead = s.lastRead) := by
  cases e with
  | callback readTime temp =>
    obtain ⟨hread, hcallback⟩ := Option.ite_none_right_eq_some.1 h
    obtain ⟨u, hu, hafter⟩ := s.exists_temperatureCallback readTime temp
    obtain rfl := Option.some_inj.1 (hu.symm.trans hcallback)
    exact .inl ⟨readTime, temp, rfl, hread, hafter⟩
  | setTemp degrees =>
    obtain rfl := Option.some_inj.1 h
    unfold setTemp
    split_ifs <;> exact .inr ⟨rfl, rfl, rfl, rfl⟩
  | setControl control =>
    obtain rfl := Option.some_inj.1 h
    exact .inr ⟨rfl, rfl, rfl, rfl⟩
  | alterTarget targetTemp =>
    obtain rfl := Option.some_inj.1 h
    exact .inr ⟨rfl, rfl, rfl, rfl⟩

theorem Safe.next (h : Safe s) (hg : 3 / 4 * maxHeatTime + g + c.pwmDelay ≤ maxHeatTime)
    {e : Event c} (hnext : s.next g e = some t) : Safe t := by
  rcases next_cases hnext with ⟨readTime, temp, -, hread, hafter⟩ | ⟨hcalls, hvalue, htime, hlast⟩
  · exact h.afterReading hg hread (s.asked_range readTime temp) hafter
  · exact h.congr hvalue htime hcalls hlast

theorem safe_of_reachable (hg : 3 / 4 * maxHeatTime + g + c.pwmDelay ≤ maxHeatTime)
    (h : (system c g).Reachable s) : Safe s := by
  refine h.invariant ?_ fun _ _ _ hs _ hnext => hs.next hg hnext
  rintro s ⟨control, isFileoutput, rfl⟩
  exact safe_new control isFileoutput

/-! ### While the heater is off -/

/-- The calls since the heater is off : at most one, with the value zero, and none if the last one
before had this value. -/
def Off (s t : Heater c) : Prop :=
  (t.pwmCalls = s.pwmCalls ∧ t.lastPwmValue = s.lastPwmValue) ∨
    ∃ time, t.pwmCalls = (time, 0) :: s.pwmCalls ∧ t.lastPwmValue = 0 ∧ s.lastPwmValue ≠ 0

theorem Off.trans {u : Heater c} (h : Off s t) (h' : Off t u) : Off s u := by
  rcases h with ⟨hcalls, hvalue⟩ | ⟨time, hcalls, hvalue, hne⟩
  · rcases h' with ⟨hcalls', hvalue'⟩ | ⟨time, hcalls', hvalue', hne'⟩
    · exact .inl ⟨hcalls'.trans hcalls, hvalue'.trans hvalue⟩
    · exact .inr ⟨time, hcalls ▸ hcalls', hvalue', hvalue ▸ hne'⟩
  · rcases h' with ⟨hcalls', hvalue'⟩ | ⟨-, -, -, hne'⟩
    · exact .inr ⟨time, hcalls'.trans hcalls, hvalue'.trans hvalue, hne⟩
    · exact absurd hvalue hne'

/-- A reading of a heater that is off. -/
theorem off_afterReading (hoff : s.targetTemp ≤ 0) (h : AfterReading s t readTime value) :
    Off s t := by
  have hzero : s.wanted value = 0 := if_pos hoff
  obtain ⟨-, -, ⟨hcalls, hvalue, -⟩ | ⟨hcalls, hvalue, -, hpass⟩⟩ := h
  · exact .inl ⟨hcalls, hvalue⟩
  · rw [hzero] at hcalls hvalue hpass
    refine .inr ⟨_, hcalls, hvalue, fun hlast => hpass ⟨.inr hlast, ?_⟩⟩
    rw [hlast, sub_zero, abs_zero]
    norm_num

/-- A run of a heater that stays off. -/
theorem off_of_run (hoff : s.targetTemp ≤ 0) {events : List (Event c)}
    (h : (offSystem c g).run s events = some t) : Off s t := by
  refine (System.run_rel (M := offSystem c g) (I := fun s => s.targetTemp ≤ 0) (R := Off)
    (fun _ => .inl ⟨rfl, rfl⟩) (fun _ _ _ => Off.trans) ?_ hoff h).2
  intro s e t hs hnext
  obtain ⟨hnext, ht⟩ := Option.filter_eq_some_iff.1 hnext
  refine ⟨of_decide_eq_true ht, ?_⟩
  rcases next_cases hnext with ⟨readTime, temp, -, -, hafter⟩ | ⟨hcalls, hvalue, -, -⟩
  · exact off_afterReading hs hafter
  · exact .inl ⟨hcalls, hvalue⟩

/-- A run of a heater that stays off is a run. -/
theorem safe_of_run (hg : 3 / 4 * maxHeatTime + g + c.pwmDelay ≤ maxHeatTime) (hs : Safe s)
    {events : List (Event c)} (h : (offSystem c g).run s events = some t) : Safe t := by
  refine (System.run_rel (M := offSystem c g) (I := Safe) (R := fun _ _ => True) (fun _ => trivial)
    (fun _ _ _ _ _ => trivial) ?_ hs h).1
  intro s e t hs hnext
  exact ⟨hs.next hg (Option.filter_eq_some_iff.1 hnext).1, trivial⟩

/-- After the last call before the heater is off comes a zero in time, or it is not yet late. -/
def ZeroInTime (s t : Heater c) : Prop :=
  ∀ e ∈ s.pwmCalls.head?, e.2 ≠ 0 →
    (t.pwmCalls = s.pwmCalls ∧ ∀ r ∈ t.lastRead, r < e.1 + 3 / 4 * maxHeatTime) ∨
      ∃ time, t.pwmCalls = (time, 0) :: s.pwmCalls ∧ time ≤ e.1 + maxHeatTime

theorem Off.zeroInTime (h : Off s t) (ht : Safe t) : ZeroInTime s t := by
  intro e he hne
  rcases h with ⟨hcalls, -⟩ | ⟨time, hcalls, -, -⟩
  · exact .inl ⟨hcalls, ht.notLate e (hcalls ▸ he) hne⟩
  · refine .inr ⟨time, hcalls, ?_⟩
    have hrenewed := ht.renewed
    obtain ⟨calls, hs⟩ := List.head?_eq_some_iff.1 he
    rw [hcalls, hs] at hrenewed
    exact (List.isChain_cons_cons.1 hrenewed).1 hne

/-- With readings at most `g` apart, the calls of a heater are in its range, come in time, and are
near what is wanted after every reading ; once the target stays at or below zero, at most a single
zero is called, in time, unless the last value was zero ; and the integral of a PID control is
clamped. -/
theorem heaterOutput (hg : 3 / 4 * maxHeatTime + g + c.pwmDelay ≤ maxHeatTime)
    (h : (system c g).Reachable s) :
    Safe s ∧
    (∀ readTime temp, ∃ t, s.temperatureCallback readTime temp = some t ∧
      |s.wanted (s.asked readTime temp) - t.lastPwmValue| < 5 / 100) ∧
    (s.targetTemp ≤ 0 → ∀ events t, (offSystem c g).run s events = some t →
      Off s t ∧ ZeroInTime s t) ∧
    ∀ p, s.control = .pid p → 0 ≤ p.prevTempInteg ∧
      p.prevTempInteg ≤ max 0 (tempIntegMax c p.ki) ∧
      (0 ≤ p.ki → p.prevTempInteg ≤ tempIntegMax c p.ki) := by
  have hsafe := safe_of_reachable hg h
  refine ⟨hsafe, fun readTime temp => ?_, fun hoff events t hrun => ?_, fun p _ => ?_⟩
  · obtain ⟨t, ht, -, -, ⟨-, hvalue, -, -, hnear⟩ | ⟨-, hvalue, -⟩⟩ :=
      s.exists_temperatureCallback readTime temp
    · exact ⟨t, ht, hvalue ▸ hnear⟩
    · refine ⟨t, ht, ?_⟩
      rw [hvalue, sub_self, abs_zero]
      norm_num
  · have hends := off_of_run hoff hrun
    exact ⟨hends, hends.zeroInTime (safe_of_run hg hsafe hrun)⟩
  · refine ⟨p.integ_nonneg, p.integ_le, fun hki => p.integ_le.trans_eq (max_eq_right ?_)⟩
    unfold tempIntegMax
    split_ifs
    · exact le_rfl
    · exact div_nonneg c.maxPower_pos.le hki

/-! ### A heater that is switched off, and one that is never switched on -/

/-- The options of a heater. -/
def exampleConfig : HeaterConfig ℚ where
  minTemp := 0
  maxTemp := 300
  minExtrudeTemp := 170
  maxPower := 1
  smoothTime := 1
  pwmDelay := 3 / 10
  kelvinToCelsius_le := by norm_num
  minTemp_lt := by norm_num
  minTemp_le_minExtrudeTemp := by norm_num
  minExtrudeTemp_le := by norm_num
  maxPower_pos := by norm_num
  maxPower_le := by norm_num
  smoothTime_pos := by norm_num
  pwmDelay_pos := by norm_num

/-- Such a heater with a bang-bang control. -/
def exampleHeater : Heater exampleConfig :=
  new (.bangBang ⟨2, false, by norm_num⟩) false

/-- It heats for two readings, and is switched off. -/
def switchedOff : List (Event exampleConfig) :=
  [.setTemp 50, .callback 1 20, .callback (19 / 10) 30, .setTemp 0, .callback (28 / 10) 30]

/-- Readings of a heater that is off, for more than `MAX_HEAT_TIME`. -/
def neverOn : List (Event exampleConfig) :=
  [.callback 1 20, .callback (19 / 10) 20, .callback (28 / 10) 20, .callback (37 / 10) 20,
    .callback (46 / 10) 20, .callback (55 / 10) 20, .callback (64 / 10) 20]

example : ((system exampleConfig (9 / 10)).run exampleHeater switchedOff).map Heater.pwmCalls =
    some [(31 / 10, 0), (13 / 10, 1)] := by
  decide +kernel

theorem heaterOutput_switchedOff :
    ∃ t, (system exampleConfig (9 / 10)).run exampleHeater switchedOff = some t ∧ t.Safe := by
  have hsome : ((system exampleConfig (9 / 10)).run exampleHeater switchedOff).isSome = true := by
    decide +kernel
  obtain ⟨t, ht⟩ := Option.isSome_iff_exists.1 hsome
  have hreach : (system exampleConfig (9 / 10)).Reachable t :=
    System.Reachable.run (.init ⟨_, _, rfl⟩) ht
  exact ⟨t, ht, (heaterOutput (by norm_num [maxHeatTime, exampleConfig]) hreach).1⟩

/-- A heater that is off need not be sent a zero, and a PID control may have a maximum below
zero. -/
theorem not_zeroSent :
    (¬ ∀ (c : HeaterConfig ℚ) (g : ℚ), 3 / 4 * maxHeatTime + g + c.pwmDelay ≤ maxHeatTime →
      ∀ s : Heater c, (system c g).Reachable s → s.targetTemp ≤ 0 → ∀ events t,
        (offSystem c g).run s events = some t →
        (∃ r ∈ t.lastRead, s.lastRead.getD 0 + maxHeatTime ≤ r) →
          ∃ time, (time, 0) ∈ t.pwmCalls) ∧
    ¬ ∀ (c : HeaterConfig ℚ) (p : ControlPid c), p.prevTempInteg ≤ tempIntegMax c p.ki := by
  refine ⟨fun h => ?_, fun h => ?_⟩
  · have hrun : ((offSystem exampleConfig (9 / 10)).run exampleHeater neverOn).map
        (fun t => (t.pwmCalls, t.lastRead)) = some ([], some (64 / 10)) := by decide +kernel
    obtain ⟨t, ht, heq⟩ := Option.map_eq_some_iff.1 hrun
    obtain ⟨hcalls, hlast⟩ := Prod.mk.inj heq
    obtain ⟨time, htime⟩ := h exampleConfig (9 / 10) (by norm_num [maxHeatTime, exampleConfig])
      exampleHeater (.init ⟨_, _, rfl⟩) le_rfl neverOn t ht
      ⟨64 / 10, hlast, by norm_num [maxHeatTime, exampleHeater, new]⟩
    rw [hcalls] at htime
    exact List.not_mem_nil htime
  · have hle := h exampleConfig (.new exampleConfig 0 (-1) 0)
    norm_num [ControlPid.new, tempIntegMax, pidParamBase, exampleConfig] at hle

end Heater

end Heaters

end Thinker
