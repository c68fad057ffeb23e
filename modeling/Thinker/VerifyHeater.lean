import Mathlib.Tactic
import Thinker.Lines

/-!
# The check of a heater

`check_event` of `verify_heater.py`. Each second it adds the deficit of the temperature to an error,
which is reset when the temperature is in range or reaches a goal. While the heater approaches a new
target it has a time to reach each goal; when it does not approach, the error must stay below its
maximum. A chamber heater is closed instead of a shutdown, and goals are renewed for it also when it
does not approach.
-/

namespace Thinker

namespace HeaterCheck

/-- The options of `[verify_heater]`, with their bounds. -/
structure Config where
  heaterName : Text
  hysteresis : ℚ
  maxError : ℚ
  heatingGain : ℚ
  checkGainTime : ℚ
  hysteresis_nonneg : 0 ≤ hysteresis
  maxError_nonneg : 0 ≤ maxError
  heatingGain_pos : 0 < heatingGain
  one_le_checkGainTime : 1 ≤ checkGainTime

/-- The options that are used if none is given. -/
def Config.default (heaterName : Text) : Config where
  heaterName := heaterName
  hysteresis := 5
  maxError := 120
  heatingGain := 2
  checkGainTime := if heaterName = "heater_bed".toList then 60 else 20
  hysteresis_nonneg := by norm_num
  maxError_nonneg := by norm_num
  heatingGain_pos := by norm_num
  one_le_checkGainTime := by split_ifs <;> norm_num

/-- `"chamber_heater" in self.heater_name`. -/
def Config.isChamber (c : Config) : Bool :=
  c.heaterName.has "chamber_heater".toList

/-- `reactor.NEVER`. -/
def never : ℚ := 9999999999999999

/-- The variables of a check. -/
structure State where
  approachingTarget : Bool
  startingApproach : Bool
  lastTarget : ℚ
  goalTemp : ℚ
  error : ℚ
  goalSystime : ℚ

/-- The variables before the first check. -/
def State.init : State where
  approachingTarget := false
  startingApproach := false
  lastTarget := 0
  goalTemp := 0
  error := 0
  goalSystime := never

/-- The scripts that a check runs, and whether it calls `heater_fault`. -/
structure Outcome where
  scripts : List Text
  fault : Bool
  deriving DecidableEq

/-- Nothing is run. -/
def Outcome.quiet : Outcome := ⟨[], false⟩

/-- The script that closes the chamber heater. -/
def closeScript : Text :=
  "SET_HEATER_TEMPERATURE HEATER=chamber_heater TARGET=0".toList

/-- The chamber heater is closed. -/
def Outcome.closing : Outcome :=
  ⟨[closeScript, ("M117 The chamber_heater is not heating at the expected rate and has " ++
    "automatically closed.").toList], false⟩

/-- The chamber heater no longer approaches its target. -/
def Outcome.noLonger : Outcome :=
  ⟨["M117 The chamber_heater no longer approaching target.".toList], false⟩

variable (c : Config)

/-- What a check adds to the error. -/
def deficit (temp target : ℚ) : ℚ :=
  if c.isChamber ∧ 15 < target - c.hysteresis - temp then (target - c.hysteresis - temp) / 4
  else target - c.hysteresis - temp

/-- A goal is set, and the time to reach it. -/
def State.setGoal (s : State) (eventtime temp : ℚ) : State :=
  { s with goalTemp := temp + c.heatingGain, goalSystime := eventtime + c.checkGainTime }

/-- The goal of a chamber heater is renewed when it is reached. -/
def State.renewChamber (s : State) (eventtime temp : ℚ) : State :=
  if c.isChamber ∧ s.goalTemp ≤ temp then ({ s with error := 0 } : State).setGoal c eventtime temp
  else s

/-- `check_event`. -/
def checkEvent (s : State) (eventtime temp target : ℚ) : State × Outcome :=
  if target - c.hysteresis ≤ temp ∨ target ≤ 0 then
    ({ s with
        approachingTarget := false
        startingApproach := false
        error := if temp ≤ target + c.hysteresis then 0 else s.error
        lastTarget := target }, .quiet)
  else
    let s := { s with error := s.error + deficit c temp target }
    if !s.approachingTarget then
      if target ≠ s.lastTarget then
        let s := { s with approachingTarget := true, startingApproach := true }
        ({ (s.setGoal c eventtime temp).renewChamber c eventtime temp with
            lastTarget := target }, .quiet)
      else if c.maxError ≤ s.error then
        if c.isChamber then
          if s.goalSystime ≤ eventtime then
            ({ s with approachingTarget := false, error := 0 }, .closing)
          else ({ s with error := 0 }, .quiet)
        else (s, ⟨[], true⟩)
      else ({ s.renewChamber c eventtime temp with lastTarget := target }, .quiet)
    else if s.goalTemp ≤ temp then
      ({ s.setGoal c eventtime temp with
          startingApproach := false, error := 0, lastTarget := target }, .quiet)
    else if s.goalSystime ≤ eventtime then
      ({ s with
          approachingTarget := false
          error := if c.isChamber then 0 else s.error
          lastTarget := target }, if c.isChamber then .noLonger else .quiet)
    else if s.startingApproach then
      ({ s with goalTemp := min s.goalTemp (temp + c.heatingGain), lastTarget := target }, .quiet)
    else ({ s with lastTarget := target }, .quiet)

/-! ## What one check does -/

variable {c} {s s' : State} {o : Outcome} {eventtime temp target : ℚ}

/-- The temperature is in range of the target, or there is none. -/
def InRange (c : Config) (temp target : ℚ) : Prop :=
  target - c.hysteresis ≤ temp ∨ target ≤ 0

/-- The cases of a check out of range. -/
inductive Below (c : Config) (s : State) (eventtime temp target : ℚ) : State → Outcome → Prop
  | start (hidle : s.approachingTarget = false) (hne : target ≠ s.lastTarget) :
      Below c s eventtime temp target ⟨true, true, target, temp + c.heatingGain,
        s.error + deficit c temp target, eventtime + c.checkGainTime⟩ .quiet
  | fault (hidle : s.approachingTarget = false) (heq : target = s.lastTarget)
      (herror : c.maxError ≤ s.error + deficit c temp target) (hchamber : c.isChamber = false) :
      Below c s eventtime temp target { s with error := s.error + deficit c temp target } ⟨[], true⟩
  | close (hidle : s.approachingTarget = false) (heq : target = s.lastTarget)
      (herror : c.maxError ≤ s.error + deficit c temp target) (hchamber : c.isChamber = true)
      (htime : s.goalSystime ≤ eventtime) :
      Below c s eventtime temp target { s with error := 0 } .closing
  | wait (hidle : s.approachingTarget = false) (heq : target = s.lastTarget)
      (herror : c.maxError ≤ s.error + deficit c temp target) (hchamber : c.isChamber = true)
      (htime : eventtime < s.goalSystime) :
      Below c s eventtime temp target { s with error := 0 } .quiet
  | renew (hidle : s.approachingTarget = false) (heq : target = s.lastTarget)
      (herror : s.error + deficit c temp target < c.maxError) (hchamber : c.isChamber = true)
      (hgoal : s.goalTemp ≤ temp) :
      Below c s eventtime temp target { s with
        error := 0
        goalTemp := temp + c.heatingGain
        goalSystime := eventtime + c.checkGainTime } .quiet
  | add (hidle : s.approachingTarget = false) (heq : target = s.lastTarget)
      (herror : s.error + deficit c temp target < c.maxError)
      (hgoal : c.isChamber = true → temp < s.goalTemp) :
      Below c s eventtime temp target { s with error := s.error + deficit c temp target } .quiet
  | reach (happroach : s.approachingTarget = true) (hgoal : s.goalTemp ≤ temp) :
      Below c s eventtime temp target ⟨true, false, target, temp + c.heatingGain, 0,
        eventtime + c.checkGainTime⟩ .quiet
  | lose (happroach : s.approachingTarget = true) (hgoal : temp < s.goalTemp)
      (htime : s.goalSystime ≤ eventtime) :
      Below c s eventtime temp target { s with
        approachingTarget := false
        lastTarget := target
        error := if c.isChamber then 0 else s.error + deficit c temp target }
        (if c.isChamber then .noLonger else .quiet)
  | go (happroach : s.approachingTarget = true) (hgoal : temp < s.goalTemp)
      (htime : eventtime < s.goalSystime) :
      Below c s eventtime temp target { s with
        lastTarget := target
        error := s.error + deficit c temp target
        goalTemp := if s.startingApproach then min s.goalTemp (temp + c.heatingGain)
          else s.goalTemp } .quiet

theorem checkEvent_inRange (h : InRange c temp target) : checkEvent c s eventtime temp target =
    ({ s with
        approachingTarget := false
        startingApproach := false
        error := if temp ≤ target + c.hysteresis then 0 else s.error
        lastTarget := target }, .quiet) :=
  if_pos h

theorem below_checkEvent (h : ¬ InRange c temp target) :
    Below c s eventtime temp target (checkEvent c s eventtime temp target).1
      (checkEvent c s eventtime temp target).2 := by
  obtain ⟨approaching, starting, lastTarget, goalTemp, error, goalSystime⟩ := s
  have hgain : ¬ temp + c.heatingGain ≤ temp := by
    have := c.heatingGain_pos
    linarith
  have hbelow : ¬ (target - c.hysteresis ≤ temp ∨ target ≤ 0) := h
  simp only [checkEvent, if_neg hbelow]
  cases approaching with
  | false =>
    simp only [Bool.not_false, if_true]
    by_cases hne : target = lastTarget
    · subst hne
      rw [if_neg (not_not.2 rfl)]
      split_ifs with herror hchamber htime
      · exact .close rfl rfl herror hchamber htime
      · exact .wait rfl rfl herror hchamber (not_le.1 htime)
      · exact .fault rfl rfl herror (eq_false_of_ne_true hchamber)
      · simp only [State.renewChamber]
        split_ifs with hrenew
        · exact .renew rfl rfl (not_le.1 herror) hrenew.1 hrenew.2
        · exact .add rfl rfl (not_le.1 herror) fun hchamber =>
            not_le.1 fun hgoal => hrenew ⟨hchamber, hgoal⟩
    · rw [if_pos hne]
      simp only [State.renewChamber, State.setGoal, hgain, and_false, if_false]
      exact .start rfl hne
  | true =>
    simp only [Bool.not_true, Bool.false_eq_true, if_false]
    by_cases hgoal : goalTemp ≤ temp
    · rw [if_pos hgoal]
      exact .reach rfl hgoal
    by_cases htime : goalSystime ≤ eventtime
    · rw [if_neg hgoal, if_pos htime]
      exact .lose rfl (not_le.1 hgoal) htime
    rw [if_neg hgoal, if_neg htime]
    have hgo : Below c ⟨true, starting, lastTarget, goalTemp, error, goalSystime⟩ eventtime temp
        target _ .quiet := .go rfl (not_le.1 hgoal) (not_le.1 htime)
    cases starting with
    | false => exact hgo
    | true => exact hgo

/-! ## Runs -/

variable (c) (t₀ : ℚ) (r : ℕ → ℚ × ℚ)

/-- The state before the check `n`, of the readings `r n`; the checks are one second apart. -/
def stateAt : ℕ → State
  | 0 => .init
  | n + 1 => (checkEvent c (stateAt n) (t₀ + n) (r n).1 (r n).2).1

/-- What the check `n` does. -/
def outcomeAt (n : ℕ) : Outcome :=
  (checkEvent c (stateAt c t₀ r n) (t₀ + n) (r n).1 (r n).2).2

/-- The heater is caught: `heater_fault`, or the target of the chamber heater is set to 0. -/
def Outcome.Caught (o : Outcome) : Prop :=
  (c.isChamber = false → o.fault = true) ∧ (c.isChamber = true → closeScript ∈ o.scripts)

/-- The readings of a heater that does not heat, from check `k` to check `K`: the target stays, and
the temperature stays at least `d` below its range and gains less than the heating gain. -/
structure Unheated (k K : ℕ) (d τ : ℚ) : Prop where
  target_eq : ∀ n, k ≤ n → n ≤ K → (r n).2 = τ
  temp_le : ∀ n, k ≤ n → n ≤ K → (r n).1 ≤ τ - c.hysteresis - d
  temp_lt : ∀ m n, k ≤ m → m ≤ n → n ≤ K → (r n).1 < (r m).1 + c.heatingGain

/-- The checks that a goal lasts. -/
def goalChecks : ℕ := ⌈c.checkGainTime⌉₊

/-- The checks that it takes to reach the maximal error. -/
def errorChecks (d : ℚ) : ℕ := ⌈c.maxError / min d (15 / 4)⌉₊

/-- The checks within which a heater is caught. -/
def catchChecks (d : ℚ) : ℕ :=
  if c.isChamber then 2 * (goalChecks c + errorChecks c d)
  else 2 * goalChecks c + errorChecks c d

variable {c t₀ r} {k K D n j : ℕ} {d τ : ℚ}

theorem goalChecks_pos : 1 ≤ goalChecks c :=
  Nat.ceil_pos.2 (lt_of_lt_of_le one_pos c.one_le_checkGainTime)

theorem checkGainTime_le : c.checkGainTime ≤ goalChecks c :=
  Nat.le_ceil _

theorem maxError_le (hd : 0 < d) : c.maxError ≤ errorChecks c d * min d (15 / 4) :=
  (div_le_iff₀ (lt_min hd (by norm_num))).1 (Nat.le_ceil _)

theorem le_deficit (h : temp ≤ target - c.hysteresis - d) :
    min d (15 / 4) ≤ deficit c temp target := by
  unfold deficit
  split_ifs with hgap
  · refine (min_le_right _ _).trans ?_
    linarith [hgap.2]
  · exact (min_le_left _ _).trans (by linarith)

namespace Unheated

variable (hr : Unheated c r k K d τ)
include hr

theorem not_inRange (hd : 0 < d) (hτ : 0 < τ) (hk : k ≤ n) (hK : n ≤ K) :
    ¬ InRange c (r n).1 (r n).2 := by
  have htemp := hr.temp_le n hk hK
  rw [hr.target_eq n hk hK]
  rintro (h | h) <;> linarith

theorem le_deficit (hk : k ≤ n) (hK : n ≤ K) :
    min d (15 / 4) ≤ deficit c (r n).1 (r n).2 := by
  rw [hr.target_eq n hk hK]
  exact HeaterCheck.le_deficit (hr.temp_le n hk hK)

theorem below (hd : 0 < d) (hτ : 0 < τ) (hk : k ≤ n) (hK : n ≤ K) :
    Below c (stateAt c t₀ r n) (t₀ + n) (r n).1 τ (stateAt c t₀ r (n + 1))
      (outcomeAt c t₀ r n) := by
  have h : Below c (stateAt c t₀ r n) (t₀ + n) (r n).1 (r n).2 _ _ :=
    below_checkEvent (hr.not_inRange hd hτ hk hK)
  rw [hr.target_eq n hk hK] at h
  simpa only [stateAt, outcomeAt, hr.target_eq n hk hK] using h

end Unheated

/-! ## The stages of a heater that does not heat -/

/-- The target is approached, or it is the last one. -/
def State.Known (s : State) (τ : ℚ) : Prop :=
  s.approachingTarget = true ∨ s.lastTarget = τ

section Stages

variable (c t₀ r K τ)

/-- The goal is not reached until check `K`, and its time ends at check `D`. -/
structure Fresh (D n : ℕ) (s : State) : Prop where
  known : s.Known τ
  error_nonneg : 0 ≤ s.error
  lt_goal : ∀ i, n ≤ i → i ≤ K → (r i).1 < s.goalTemp
  systime_le : s.goalSystime ≤ t₀ + D

/-- The goal is from before, and its time ends at check `D`. -/
structure Stale (D : ℕ) (s : State) : Prop where
  error_nonneg : 0 ≤ s.error
  systime_le : s.approachingTarget = true ∨ c.isChamber = true → s.goalSystime ≤ t₀ + D

/-- The last target is not approached, and there is no time left for a goal. -/
structure Rest (n : ℕ) (s : State) : Prop where
  idle : s.approachingTarget = false
  last_eq : s.lastTarget = τ
  error_nonneg : 0 ≤ s.error
  systime_le : c.isChamber = true → s.goalSystime ≤ t₀ + n

variable {c t₀ r K τ}

variable {s s' : State} {o : Outcome}

/-- An approach that goes on after check `n` has time left. -/
def State.HasTime (s : State) (t₀ : ℚ) (n : ℕ) : Prop :=
  s.approachingTarget = true → t₀ + n < s.goalSystime

theorem Outcome.caught_fault (h : c.isChamber = false) : Outcome.Caught c ⟨[], true⟩ :=
  ⟨fun _ => rfl, fun h' => absurd (h.symm.trans h') Bool.false_ne_true⟩

theorem Outcome.caught_closing (h : c.isChamber = true) : Outcome.Caught c .closing :=
  ⟨fun h' => absurd (h'.symm.trans h) Bool.false_ne_true, fun _ => List.mem_cons_self⟩

variable (hr : Unheated c r k K d τ) (hd : 0 < d)
include hr hd

omit hd in
theorem fresh_of_goal (hk : k ≤ n) {s : State} (hknown : s.Known τ) (herror : 0 ≤ s.error)
    (hgoal : s.goalTemp = (r n).1 + c.heatingGain)
    (htime : s.goalSystime = t₀ + n + c.checkGainTime) :
    Fresh t₀ r K τ (n + goalChecks c) (n + 1) s where
  known := hknown
  error_nonneg := herror
  lt_goal i hi hK := hgoal ▸ hr.temp_lt n i hk (by omega) hK
  systime_le := by
    have := checkGainTime_le (c := c)
    rw [htime]
    push_cast
    linarith

variable (hk : k ≤ n) (hK : n ≤ K)
  (hbelow : Below c s (t₀ + n) (r n).1 τ s' o)
include hk hK hbelow

theorem fresh_step (h : Fresh t₀ r K τ D n s) :
    o.Caught c ∨ (Fresh t₀ r K τ D (n + 1) s' ∧ s'.HasTime t₀ n) := by
  have hgoal := h.lt_goal n le_rfl hK
  have hdeficit := hr.le_deficit hk hK
  rw [hr.target_eq n hk hK] at hdeficit
  have hpos : 0 < min d (15 / 4) := lt_min hd (by norm_num)
  have herror := h.error_nonneg
  have hlater : ∀ i, n + 1 ≤ i → i ≤ K → (r i).1 < s.goalTemp :=
    fun i hi => h.lt_goal i (by omega)
  have hidle : s.approachingTarget = false → s.HasTime t₀ n :=
    fun hidle happroach => absurd (hidle.symm.trans happroach) Bool.false_ne_true
  cases hbelow with
  | start hi hne =>
    rcases h.known with happroach | hlast
    · exact absurd (hi.symm.trans happroach) Bool.false_ne_true
    · exact absurd hlast.symm hne
  | fault hi heq _ hchamber => exact .inl (Outcome.caught_fault hchamber)
  | close hi heq _ hchamber _ => exact .inl (Outcome.caught_closing hchamber)
  | wait hi heq _ _ _ => exact .inr ⟨⟨.inr heq.symm, le_rfl, hlater, h.systime_le⟩, hidle hi⟩
  | renew _ _ _ _ hreach => exact absurd hreach (not_le.2 hgoal)
  | add hi heq _ _ =>
    exact .inr ⟨⟨.inr heq.symm, by linarith, hlater, h.systime_le⟩, hidle hi⟩
  | reach _ hreach => exact absurd hreach (not_le.2 hgoal)
  | lose _ _ _ =>
    refine .inr ⟨⟨.inr rfl, ?_, hlater, h.systime_le⟩,
      fun happroach => absurd happroach Bool.false_ne_true⟩
    dsimp only
    split_ifs <;> linarith
  | go happroach _ htime =>
    refine .inr ⟨⟨.inl happroach, by dsimp only; linarith, fun i hi hiK => ?_, h.systime_le⟩,
      fun _ => htime⟩
    have hgain := hr.temp_lt n i hk (by omega) hiK
    dsimp only
    split_ifs
    · exact lt_min (hlater i hi hiK) hgain
    · exact hlater i hi hiK

theorem stale_step (h : Stale c t₀ D s) :
    o.Caught c ∨ Fresh t₀ r K τ (n + goalChecks c) (n + 1) s' ∨
      (Stale c t₀ D s' ∧ s'.lastTarget = τ ∧ s'.HasTime t₀ n) := by
  have hdeficit := hr.le_deficit hk hK
  rw [hr.target_eq n hk hK] at hdeficit
  have hpos : 0 < min d (15 / 4) := lt_min hd (by norm_num)
  have herror := h.error_nonneg
  have hidle : s.approachingTarget = false → s.HasTime t₀ n :=
    fun hidle happroach => absurd (hidle.symm.trans happroach) Bool.false_ne_true
  cases hbelow with
  | start _ _ =>
    exact .inr (.inl (fresh_of_goal hr hk (.inl rfl) (by dsimp only; linarith) rfl rfl))
  | fault _ _ _ hchamber => exact .inl (Outcome.caught_fault hchamber)
  | close _ _ _ hchamber _ => exact .inl (Outcome.caught_closing hchamber)
  | wait hi heq _ _ _ => exact .inr (.inr ⟨⟨le_rfl, h.systime_le⟩, heq.symm, hidle hi⟩)
  | renew _ heq _ _ _ =>
    exact .inr (.inl (fresh_of_goal hr hk (.inr heq.symm) le_rfl rfl rfl))
  | add hi heq _ _ =>
    exact .inr (.inr ⟨⟨by dsimp only; linarith, h.systime_le⟩, heq.symm, hidle hi⟩)
  | reach _ _ => exact .inr (.inl (fresh_of_goal hr hk (.inl rfl) le_rfl rfl rfl))
  | lose happroach _ _ =>
    refine .inr (.inr ⟨⟨?_, fun _ => h.systime_le (.inl happroach)⟩, rfl,
      fun happroach => absurd happroach Bool.false_ne_true⟩)
    dsimp only
    split_ifs <;> linarith
  | go happroach _ htime =>
    exact .inr (.inr ⟨⟨by dsimp only; linarith, h.systime_le⟩, rfl, fun _ => htime⟩)

theorem rest_step (h : Rest c t₀ τ n s) :
    o.Caught c ∨
      (Fresh t₀ r K τ (n + goalChecks c) (n + 1) s' ∧ c.isChamber = true ∧
        s.goalTemp ≤ (r n).1 ∧ s.error + min d (15 / 4) < c.maxError) ∨
      (Rest c t₀ τ (n + 1) s' ∧ s'.goalTemp = s.goalTemp ∧
        s.error + min d (15 / 4) ≤ s'.error ∧ s'.error < c.maxError) := by
  have hdeficit := hr.le_deficit hk hK
  rw [hr.target_eq n hk hK] at hdeficit
  have hpos : 0 < min d (15 / 4) := lt_min hd (by norm_num)
  have herror := h.error_nonneg
  have hidle : ¬ s.approachingTarget = true := by rw [h.idle]; exact Bool.false_ne_true
  cases hbelow with
  | start _ hne => exact absurd h.last_eq.symm hne
  | fault _ _ _ hchamber => exact .inl (Outcome.caught_fault hchamber)
  | close _ _ _ hchamber _ => exact .inl (Outcome.caught_closing hchamber)
  | wait _ _ _ hchamber htime => exact absurd htime (not_lt.2 (h.systime_le hchamber))
  | renew _ heq hlt hchamber hreach =>
    exact .inr (.inl ⟨fresh_of_goal hr hk (.inr heq.symm) le_rfl rfl rfl, hchamber, hreach,
      by linarith⟩)
  | add hi heq hlt _ =>
    refine .inr (.inr ⟨⟨hi, heq.symm, by dsimp only; linarith, fun hchamber => ?_⟩, rfl,
      by dsimp only; linarith, hlt⟩)
    have := h.systime_le hchamber
    dsimp only
    push_cast
    linarith
  | reach happroach _ => exact absurd happroach hidle
  | lose happroach _ _ => exact absurd happroach hidle
  | go happroach _ _ => exact absurd happroach hidle

end Stages

/-! ## The heater is caught -/

section Caught

variable (hr : Unheated c r k K d τ) (hd : 0 < d) (hτ : 0 < τ)
include hr hd hτ

/-- At rest the error grows until the heater is caught, or a new goal is set. -/
theorem rest_run {i : ℕ} (hk : k ≤ j) (hK : j + i ≤ K) (h : Rest c t₀ τ j (stateAt c t₀ r j))
    (herror : c.maxError ≤ (stateAt c t₀ r j).error + (i + 1 : ℕ) * min d (15 / 4)) :
    ∃ n, j ≤ n ∧ n ≤ j + i ∧ ((outcomeAt c t₀ r n).Caught c ∨
      (Fresh t₀ r K τ (n + goalChecks c) (n + 1) (stateAt c t₀ r (n + 1)) ∧
        c.isChamber = true ∧ (stateAt c t₀ r j).goalTemp ≤ (r n).1 ∧
        n + 1 ≤ j + i)) := by
  induction i generalizing j with
  | zero =>
    rw [Nat.cast_one, one_mul] at herror
    rcases rest_step hr hd hk hK (hr.below hd hτ hk hK) h with
      hcaught | ⟨_, _, _, hlt⟩ | ⟨_, _, hle, hlt⟩
    · exact ⟨j, le_rfl, le_rfl, .inl hcaught⟩
    · exact absurd herror (not_le.2 hlt)
    · exact absurd herror (not_le.2 (hle.trans_lt hlt))
  | succ i ih =>
    have hjK : j ≤ K := by omega
    rcases rest_step hr hd hk hjK (hr.below hd hτ hk hjK) h with
      hcaught | ⟨hfresh, hchamber, hgoal, _⟩ | ⟨hrest, hgoal, hle, _⟩
    · exact ⟨j, le_rfl, by omega, .inl hcaught⟩
    · exact ⟨j, le_rfl, by omega, .inr ⟨hfresh, hchamber, hgoal, by omega⟩⟩
    · have hnext : c.maxError ≤
          (stateAt c t₀ r (j + 1)).error + (i + 1 : ℕ) * min d (15 / 4) := by
        push_cast at herror ⊢
        linarith
      obtain ⟨n, hjn, hn, hcase⟩ := ih (by omega) (by omega) hrest hnext
      rw [hgoal] at hcase
      refine ⟨n, by omega, by omega, hcase.imp_right ?_⟩
      rintro ⟨hfresh, hchamber, hreach, hlt⟩
      exact ⟨hfresh, hchamber, hreach, by omega⟩

theorem rest_caught_or_renewed (hk : k ≤ j) (hK : j + (errorChecks c d - 1) ≤ K)
    (h : Rest c t₀ τ j (stateAt c t₀ r j)) :
    ∃ n, j ≤ n ∧ n ≤ j + (errorChecks c d - 1) ∧ ((outcomeAt c t₀ r n).Caught c ∨
      (Fresh t₀ r K τ (n + goalChecks c) (n + 1) (stateAt c t₀ r (n + 1)) ∧
        c.isChamber = true ∧ (stateAt c t₀ r j).goalTemp ≤ (r n).1 ∧
        n + 1 ≤ j + (errorChecks c d - 1))) := by
  refine rest_run hr hd hτ hk hK h ?_
  have hpos : 0 < min d (15 / 4) := lt_min hd (by norm_num)
  have hle : (errorChecks c d : ℚ) ≤ ((errorChecks c d - 1 + 1 : ℕ) : ℚ) := by
    exact_mod_cast (by omega : errorChecks c d ≤ errorChecks c d - 1 + 1)
  calc c.maxError ≤ errorChecks c d * min d (15 / 4) := maxError_le hd
    _ ≤ (errorChecks c d - 1 + 1 : ℕ) * min d (15 / 4) := by gcongr
    _ ≤ _ := le_add_of_nonneg_left h.error_nonneg

theorem fresh_until (hk : k ≤ j) (hjn : j + 1 ≤ n) (hK : n ≤ K)
    (h : Fresh t₀ r K τ D j (stateAt c t₀ r j)) :
    (∃ m, j ≤ m ∧ m < n ∧ (outcomeAt c t₀ r m).Caught c) ∨
      (Fresh t₀ r K τ D n (stateAt c t₀ r n) ∧ (stateAt c t₀ r n).HasTime t₀ (n - 1)) := by
  induction n, hjn using Nat.le_induction with
  | base =>
    have hjK : j ≤ K := by omega
    exact (fresh_step hr hd hk hjK (hr.below hd hτ hk hjK) h).imp_left
      fun hcaught => ⟨j, le_rfl, j.lt_succ_self, hcaught⟩
  | succ n hn ih =>
    have hnK : n ≤ K := by omega
    have hkn : k ≤ n := by omega
    rcases ih hnK with ⟨m, hjm, hmn, hcaught⟩ | ⟨hfresh, -⟩
    · exact .inl ⟨m, hjm, by omega, hcaught⟩
    · exact (fresh_step hr hd hkn hnK (hr.below hd hτ hkn hnK) hfresh).imp_left
        fun hcaught => ⟨n, by omega, n.lt_succ_self, hcaught⟩

/-- After a goal that is not reached, the heater is caught. -/
theorem fresh_caught (hk : k ≤ j) (hjD : j ≤ D) (hK : D + 1 + (errorChecks c d - 1) ≤ K)
    (h : Fresh t₀ r K τ D j (stateAt c t₀ r j)) :
    ∃ n, j ≤ n ∧ n ≤ D + 1 + (errorChecks c d - 1) ∧ (outcomeAt c t₀ r n).Caught c := by
  rcases fresh_until hr hd hτ hk (Nat.succ_le_succ hjD) (by omega) h with
    ⟨m, hjm, hmD, hcaught⟩ | ⟨hfresh, htime⟩
  · exact ⟨m, hjm, by omega, hcaught⟩
  have hidle : (stateAt c t₀ r (D + 1)).approachingTarget = false :=
    eq_false_of_ne_true fun happroach => absurd (htime happroach) (not_lt.2 hfresh.systime_le)
  have hrest : Rest c t₀ τ (D + 1) (stateAt c t₀ r (D + 1)) :=
    ⟨hidle, hfresh.known.resolve_left (by rw [hidle]; exact Bool.false_ne_true),
      hfresh.error_nonneg, fun _ => hfresh.systime_le.trans (by push_cast; linarith)⟩
  obtain ⟨n, hn, hnK, hcaught | ⟨-, -, hgoal, -⟩⟩ :=
    rest_caught_or_renewed hr hd hτ (by omega) hK hrest
  · exact ⟨n, by omega, hnK, hcaught⟩
  · exact absurd hgoal (not_le.2 (hfresh.lt_goal n hn (by omega)))

theorem stale_until (hkn : k + 1 ≤ n) (hK : n ≤ K) (h : Stale c t₀ D (stateAt c t₀ r k)) :
    (∃ m, k ≤ m ∧ m < n ∧ ((outcomeAt c t₀ r m).Caught c ∨
      Fresh t₀ r K τ (m + goalChecks c) (m + 1) (stateAt c t₀ r (m + 1)))) ∨
      (Stale c t₀ D (stateAt c t₀ r n) ∧ (stateAt c t₀ r n).lastTarget = τ ∧
        (stateAt c t₀ r n).HasTime t₀ (n - 1)) := by
  induction n, hkn using Nat.le_induction with
  | base =>
    have hkK : k ≤ K := by omega
    rcases stale_step hr hd le_rfl hkK (hr.below hd hτ le_rfl hkK) h with
      hcaught | hfresh | hstale
    · exact .inl ⟨k, le_rfl, k.lt_succ_self, .inl hcaught⟩
    · exact .inl ⟨k, le_rfl, k.lt_succ_self, .inr hfresh⟩
    · exact .inr hstale
  | succ n hn ih =>
    have hnK : n ≤ K := by omega
    have hkn : k ≤ n := by omega
    rcases ih hnK with ⟨m, hkm, hmn, hcase⟩ | ⟨hstale, -⟩
    · exact .inl ⟨m, hkm, by omega, hcase⟩
    rcases stale_step hr hd hkn hnK (hr.below hd hτ hkn hnK) hstale with
      hcaught | hfresh | hstale
    · exact .inl ⟨n, hkn, n.lt_succ_self, .inl hcaught⟩
    · exact .inl ⟨n, hkn, n.lt_succ_self, .inr hfresh⟩
    · exact .inr hstale

end Caught

/-! ## Every run -/

theorem deficit_pos (h : ¬ InRange c temp target) : 0 < deficit c temp target := by
  obtain ⟨hrange, -⟩ := not_or.1 h
  unfold deficit
  split_ifs <;> linarith

variable (c) in
/-- The error is not negative, and a goal that was set before check `n` ends in time. -/
structure Timed (t₀ : ℚ) (n : ℕ) (s : State) : Prop where
  error_nonneg : 0 ≤ s.error
  systime_le : s.goalSystime = never ∨ s.goalSystime + 1 ≤ t₀ + n + c.checkGainTime
  approach_le : s.approachingTarget = true → s.goalSystime + 1 ≤ t₀ + n + c.checkGainTime

theorem Timed.step (h : Timed c t₀ n s) : Timed c t₀ (n + 1)
    (checkEvent c s (t₀ + n) temp target).1 := by
  have hlater : ∀ {x : ℚ}, x + 1 ≤ t₀ + n + c.checkGainTime →
      x + 1 ≤ t₀ + (n + 1 : ℕ) + c.checkGainTime := fun hx => by push_cast; linarith
  have hset : t₀ + n + c.checkGainTime + 1 ≤ t₀ + (n + 1 : ℕ) + c.checkGainTime := by
    push_cast
    linarith
  have hsystime := h.systime_le.imp_right hlater
  have hnone : false = true → s.goalSystime + 1 ≤ t₀ + (n + 1 : ℕ) + c.checkGainTime :=
    fun hfalse => absurd hfalse Bool.false_ne_true
  have herror := h.error_nonneg
  by_cases hrange : InRange c temp target
  · rw [checkEvent_inRange hrange]
    refine ⟨?_, hsystime, hnone⟩
    dsimp only
    split_ifs
    exacts [le_rfl, herror]
  have hpos := deficit_pos hrange
  have hbelow : Below c s (t₀ + n) temp target _ _ := below_checkEvent hrange
  generalize (checkEvent c s (t₀ + n) temp target).1 = s' at hbelow ⊢
  generalize (checkEvent c s (t₀ + n) temp target).2 = o at hbelow
  cases hbelow with
  | start _ _ => exact ⟨by dsimp only; linarith, .inr hset, fun _ => hset⟩
  | fault _ _ _ _ =>
    exact ⟨by dsimp only; linarith, hsystime, fun happroach => hlater (h.approach_le happroach)⟩
  | close _ _ _ _ _ =>
    exact ⟨le_rfl, hsystime, fun happroach => hlater (h.approach_le happroach)⟩
  | wait _ _ _ _ _ =>
    exact ⟨le_rfl, hsystime, fun happroach => hlater (h.approach_le happroach)⟩
  | renew _ _ _ _ _ => exact ⟨le_rfl, .inr hset, fun _ => hset⟩
  | add _ _ _ _ =>
    exact ⟨by dsimp only; linarith, hsystime, fun happroach => hlater (h.approach_le happroach)⟩
  | reach _ _ => exact ⟨le_rfl, .inr hset, fun _ => hset⟩
  | lose _ _ _ =>
    refine ⟨?_, hsystime, hnone⟩
    dsimp only
    split_ifs <;> linarith
  | go happroach _ _ =>
    exact ⟨by dsimp only; linarith, hsystime, fun _ => hlater (h.approach_le happroach)⟩

theorem timed_stateAt (n : ℕ) : Timed c t₀ n (stateAt c t₀ r n) := by
  induction n with
  | zero => exact ⟨le_rfl, .inl rfl, fun h => absurd h Bool.false_ne_true⟩
  | succ n ih => exact ih.step

section Catch

variable (hr : Unheated c r k K d τ) (hd : 0 < d) (hτ : 0 < τ)

/-- A check that changes the time of the goal sets a goal. -/
theorem fresh_of_ne (hr : Unheated c r k K d τ) (hk : k ≤ n) (herror : 0 ≤ s.error)
    (hpos : 0 ≤ deficit c (r n).1 τ) (hbelow : Below c s (t₀ + n) (r n).1 τ s' o)
    (hne : s'.goalSystime ≠ s.goalSystime) :
    Fresh t₀ r K τ (n + goalChecks c) (n + 1) s' := by
  cases hbelow with
  | start _ _ => exact fresh_of_goal hr hk (.inl rfl) (by dsimp only; linarith) rfl rfl
  | renew _ heq _ _ _ => exact fresh_of_goal hr hk (.inr heq.symm) le_rfl rfl rfl
  | reach _ _ => exact fresh_of_goal hr hk (.inl rfl) le_rfl rfl rfl
  | fault _ _ _ _ => exact absurd rfl hne
  | close _ _ _ _ _ => exact absurd rfl hne
  | wait _ _ _ _ _ => exact absurd rfl hne
  | add _ _ _ _ => exact absurd rfl hne
  | lose _ _ _ => exact absurd rfl hne
  | go _ _ _ => exact absurd rfl hne

/-- A goal that was set ends in time. -/
theorem stale_of_ne_never (hgoal : c.isChamber = true → (stateAt c t₀ r k).goalSystime ≠ never) :
    Stale c t₀ (k + goalChecks c - 1) (stateAt c t₀ r k) := by
  have htimed : Timed c t₀ k (stateAt c t₀ r k) := timed_stateAt k
  have hle := checkGainTime_le (c := c)
  have hpos := goalChecks_pos (c := c)
  have hcast : ((k + goalChecks c - 1 : ℕ) : ℚ) + 1 = k + goalChecks c := by
    exact_mod_cast Nat.sub_add_cancel (by omega : 1 ≤ k + goalChecks c)
  have hbound : (stateAt c t₀ r k).goalSystime + 1 ≤ t₀ + k + c.checkGainTime →
      (stateAt c t₀ r k).goalSystime ≤ t₀ + (k + goalChecks c - 1 : ℕ) := fun h => by linarith
  refine ⟨htimed.error_nonneg, ?_⟩
  rintro (happroach | hchamber)
  · exact hbound (htimed.approach_le happroach)
  · exact hbound (htimed.systime_le.resolve_left (hgoal hchamber))

theorem add_le_catchChecks :
    2 * goalChecks c + errorChecks c d ≤ catchChecks c d := by
  unfold catchChecks
  split_ifs <;> omega

include hr hd hτ

theorem rest_of_stale (hD : D + 1 ≤ K) (hkD : k ≤ D)
    (h : Stale c t₀ D (stateAt c t₀ r k)) :
    (∃ m, k ≤ m ∧ m < D + 1 ∧ ((outcomeAt c t₀ r m).Caught c ∨
      Fresh t₀ r K τ (m + goalChecks c) (m + 1) (stateAt c t₀ r (m + 1)))) ∨
      Rest c t₀ τ (D + 1) (stateAt c t₀ r (D + 1)) := by
  refine (stale_until hr hd hτ (Nat.succ_le_succ hkD) hD h).imp_right ?_
  rintro ⟨hstale, hlast, htime⟩
  refine ⟨eq_false_of_ne_true fun happroach => ?_, hlast, hstale.error_nonneg,
    fun hchamber => (hstale.systime_le (.inr hchamber)).trans (by push_cast; linarith)⟩
  exact absurd (htime happroach) (not_lt.2 (hstale.systime_le (.inl happroach)))

theorem caught_of_stale (hK : K = k + catchChecks c d)
    (h : Stale c t₀ (k + goalChecks c - 1) (stateAt c t₀ r k)) :
    ∃ n, k ≤ n ∧ n ≤ K ∧ (outcomeAt c t₀ r n).Caught c := by
  have hpos := goalChecks_pos (c := c)
  have hbound := add_le_catchChecks (c := c) (d := d)
  rcases rest_of_stale hr hd hτ (by omega) (by omega) h with
    ⟨m, hkm, hm, hcaught | hfresh⟩ | hrest
  · exact ⟨m, hkm, by omega, hcaught⟩
  · obtain ⟨n, hn, hnK, hcaught⟩ :=
      fresh_caught hr hd hτ (by omega) (by omega) (by omega) hfresh
    exact ⟨n, by omega, by omega, hcaught⟩
  · obtain ⟨m, hm, hmK, hcaught | ⟨hfresh, hchamber, -, hlt⟩⟩ :=
      rest_caught_or_renewed hr hd hτ (by omega) (by omega) hrest
    · exact ⟨m, by omega, by omega, hcaught⟩
    have hdouble : catchChecks c d = 2 * (goalChecks c + errorChecks c d) := if_pos hchamber
    obtain ⟨n, hn, hnK, hcaught⟩ :=
      fresh_caught hr hd hτ (by omega) (by omega) (by omega) hfresh
    exact ⟨n, by omega, by omega, hcaught⟩

/-- A heater that does not heat is caught. -/
theorem caught_of_unheated (hK : K = k + catchChecks c d)
    (hset : c.isChamber = true → (stateAt c t₀ r (k + 1)).goalSystime ≠ never) :
    ∃ n, k ≤ n ∧ n ≤ K ∧ (outcomeAt c t₀ r n).Caught c := by
  have hpos := goalChecks_pos (c := c)
  have hbound := add_le_catchChecks (c := c) (d := d)
  have hkK : k ≤ K := by omega
  by_cases hsame : (stateAt c t₀ r (k + 1)).goalSystime = (stateAt c t₀ r k).goalSystime
  · exact caught_of_stale hr hd hτ hK (stale_of_ne_never fun hchamber => hsame ▸ hset hchamber)
  have hdeficit := deficit_pos (hr.not_inRange hd hτ le_rfl hkK)
  rw [hr.target_eq k le_rfl hkK] at hdeficit
  have hfresh := fresh_of_ne hr le_rfl (timed_stateAt k).error_nonneg hdeficit.le
    (hr.below hd hτ le_rfl hkK) hsame
  obtain ⟨n, hn, hnK, hcaught⟩ :=
    fresh_caught hr hd hτ (by omega) (by omega) (by omega) hfresh
  exact ⟨n, by omega, by omega, hcaught⟩

end Catch

/-! ## When `heater_fault` is called -/

variable (c) in
/-- What a check adds to the error, if it is not in range. -/
def added (temp target : ℚ) : ℚ :=
  if target - c.hysteresis ≤ temp ∨ target ≤ 0 then 0 else deficit c temp target

theorem added_of_not_inRange (h : ¬ InRange c temp target) :
    added c temp target = deficit c temp target :=
  if_neg h

/-- A check resets the error, or it adds the deficit. -/
theorem error_checkEvent : (checkEvent c s eventtime temp target).1.error = 0 ∨
    (checkEvent c s eventtime temp target).1.error = s.error + added c temp target := by
  by_cases hrange : InRange c temp target
  · have hnone : added c temp target = 0 := if_pos hrange
    rw [checkEvent_inRange hrange, hnone, add_zero]
    exact (ite_eq_or_eq _ _ _).imp_right id
  rw [added_of_not_inRange hrange]
  have hbelow : Below c s eventtime temp target _ _ := below_checkEvent hrange
  generalize (checkEvent c s eventtime temp target).1 = s' at hbelow ⊢
  generalize (checkEvent c s eventtime temp target).2 = o at hbelow
  cases hbelow with
  | start _ _ => exact .inr rfl
  | fault _ _ _ _ => exact .inr rfl
  | close _ _ _ _ _ => exact .inl rfl
  | wait _ _ _ _ _ => exact .inl rfl
  | renew _ _ _ _ _ => exact .inl rfl
  | add _ _ _ _ => exact .inr rfl
  | reach _ _ => exact .inl rfl
  | lose _ _ _ => exact ite_eq_or_eq _ _ _
  | go _ _ _ => exact .inr rfl

/-- A fault comes from a heater out of range that is not approached, with the maximal error. -/
theorem of_fault (h : (checkEvent c s eventtime temp target).2.fault = true) :
    ¬ InRange c temp target ∧ s.approachingTarget = false ∧
      c.maxError ≤ s.error + added c temp target := by
  by_cases hrange : InRange c temp target
  · rw [checkEvent_inRange hrange] at h
    exact absurd h Bool.false_ne_true
  refine ⟨hrange, ?_⟩
  rw [added_of_not_inRange hrange]
  have hbelow : Below c s eventtime temp target _ _ := below_checkEvent hrange
  generalize (checkEvent c s eventtime temp target).1 = s' at hbelow
  generalize (checkEvent c s eventtime temp target).2 = o at hbelow h
  cases hbelow with
  | fault hidle _ herror _ => exact ⟨hidle, herror⟩
  | lose _ _ _ =>
    split_ifs at h
    all_goals exact absurd h Bool.false_ne_true
  | _ => exact absurd h Bool.false_ne_true

/-- The deficits since the last reset, at check `i`, make up the error. -/
structure Accumulated (c : Config) (t₀ : ℚ) (r : ℕ → ℚ × ℚ) (i n : ℕ) : Prop where
  le : i ≤ n
  error_eq_zero : (stateAt c t₀ r i).error = 0
  error_succ : ∀ j, i ≤ j → j < n →
    (stateAt c t₀ r (j + 1)).error = (stateAt c t₀ r j).error + added c (r j).1 (r j).2

theorem exists_accumulated (n : ℕ) : ∃ i, Accumulated c t₀ r i n := by
  induction n with
  | zero => exact ⟨0, le_rfl, rfl, fun j _ hj => absurd hj (Nat.not_lt_zero j)⟩
  | succ n ih =>
    have herror : (stateAt c t₀ r (n + 1)).error = 0 ∨ (stateAt c t₀ r (n + 1)).error =
        (stateAt c t₀ r n).error + added c (r n).1 (r n).2 := error_checkEvent
    rcases herror with hreset | hadd
    · exact ⟨n + 1, le_rfl, hreset, fun j hj hjn => absurd hj (not_le.2 hjn)⟩
    · obtain ⟨i, hin, hzero, hsucc⟩ := ih
      refine ⟨i, by omega, hzero, fun j hj hjn => ?_⟩
      rcases Nat.lt_succ_iff_lt_or_eq.1 hjn with hlt | rfl
      · exact hsucc j hj hlt
      · exact hadd

theorem Accumulated.error_eq_sum {i : ℕ} (h : Accumulated c t₀ r i n) :
    (stateAt c t₀ r n).error = ∑ j ∈ Finset.Ico i n, added c (r j).1 (r j).2 := by
  obtain ⟨hle, hzero, hsucc⟩ := h
  induction n, hle using Nat.le_induction with
  | base => rw [hzero, Finset.Ico_self, Finset.sum_empty]
  | succ n hin ih =>
    rw [hsucc n hin n.lt_succ_self, Finset.sum_Ico_succ_top hin,
      ih fun j hj hjn => hsucc j hj (by omega)]

/-! ## An approach -/

variable (c r) in
/-- From check `a` to check `n` the temperature rises by the heating gain in every gain time. -/
def Rises (a n : ℕ) : Prop :=
  ∀ i, a ≤ i → (i : ℚ) + c.checkGainTime ≤ n →
    ∃ j, i < j ∧ (j : ℚ) ≤ i + c.checkGainTime ∧ (r i).1 + c.heatingGain ≤ (r j).1

/-- The goal of an approach was set at check `i`, and has not been reached since. -/
structure Approaches (c : Config) (t₀ : ℚ) (r : ℕ → ℚ × ℚ) (i n : ℕ) (s : State) : Prop where
  approaching : s.approachingTarget = true
  systime_eq : s.goalSystime = t₀ + i + c.checkGainTime
  goal_le : s.goalTemp ≤ (r i).1 + c.heatingGain
  not_reached : ∀ j, i < j → j < n → (r j).1 < (r i).1 + c.heatingGain

theorem approaches_step {a i : ℕ} (hrises : Rises c r a n) (hai : a ≤ i) (hin : i < n)
    (hrange : ¬ InRange c (r n).1 (r n).2) (h : Approaches c t₀ r i n s) :
    ∃ i', a ≤ i' ∧ i' < n + 1 ∧
      Approaches c t₀ r i' (n + 1) (checkEvent c s (t₀ + n) (r n).1 (r n).2).1 := by
  have hbelow : Below c s (t₀ + n) (r n).1 (r n).2 _ _ := below_checkEvent hrange
  generalize (checkEvent c s (t₀ + n) (r n).1 (r n).2).1 = s' at hbelow ⊢
  generalize (checkEvent c s (t₀ + n) (r n).1 (r n).2).2 = o at hbelow
  have hbusy : ¬ s.approachingTarget = false := by
    rw [h.approaching]
    exact Bool.true_eq_false_eq_False
  cases hbelow with
  | reach _ _ =>
    exact ⟨n, by omega, n.lt_succ_self, rfl, rfl, le_rfl,
      fun j hj hjn => absurd hjn (by omega)⟩
  | lose _ hgoal htime =>
    -- the goal time is over, so the temperature has risen since the goal was set
    rw [h.systime_eq] at htime
    obtain ⟨j, hij, hle, hrisen⟩ := hrises i hai (by linarith)
    have hjn : j ≤ n := by
      have : (j : ℚ) ≤ n := by linarith
      exact_mod_cast this
    rcases hjn.lt_or_eq with hlt | rfl
    · exact absurd hrisen (not_le.2 (h.not_reached j hij hlt))
    · exact absurd (h.goal_le.trans hrisen) (not_le.2 hgoal)
  | go happroach hgoal _ =>
    refine ⟨i, hai, by omega, happroach, h.systime_eq, ?_, fun j hij hjn => ?_⟩
    · refine le_trans ?_ h.goal_le
      dsimp only
      split_ifs
      exacts [min_le_left _ _, le_rfl]
    · rcases Nat.lt_succ_iff_lt_or_eq.1 hjn with hlt | rfl
      · exact h.not_reached j hij hlt
      · exact hgoal.trans_le h.goal_le
  | start hidle _ => exact absurd hidle hbusy
  | fault hidle _ _ _ => exact absurd hidle hbusy
  | close hidle _ _ _ _ => exact absurd hidle hbusy
  | wait hidle _ _ _ _ => exact absurd hidle hbusy
  | renew hidle _ _ _ _ => exact absurd hidle hbusy
  | add hidle _ _ _ => exact absurd hidle hbusy

theorem approaches_until {a : ℕ} (han : a + 1 ≤ n) (hrises : ∀ m, m ≤ n → Rises c r a m)
    (hidle : (stateAt c t₀ r a).approachingTarget = false)
    (hne : (r a).2 ≠ (stateAt c t₀ r a).lastTarget)
    (hrange : ∀ j, a ≤ j → j < n → ¬ InRange c (r j).1 (r j).2) :
    ∃ i, a ≤ i ∧ i < n ∧ Approaches c t₀ r i n (stateAt c t₀ r n) := by
  induction n, han using Nat.le_induction with
  | base =>
    have hbelow : Below c (stateAt c t₀ r a) (t₀ + a) (r a).1 (r a).2 _ _ :=
      below_checkEvent (hrange a le_rfl a.lt_succ_self)
    refine ⟨a, le_rfl, a.lt_succ_self, ?_⟩
    rw [stateAt]
    generalize (checkEvent c (stateAt c t₀ r a) (t₀ + a) (r a).1 (r a).2).1 = s' at hbelow ⊢
    generalize (checkEvent c (stateAt c t₀ r a) (t₀ + a) (r a).1 (r a).2).2 = o at hbelow
    have hbusy : ¬ (stateAt c t₀ r a).approachingTarget = true := by
      rw [hidle]
      exact Bool.false_ne_true
    cases hbelow with
    | start _ _ => exact ⟨rfl, rfl, le_rfl, fun j hj hja => absurd hja (by omega)⟩
    | fault _ heq _ _ => exact absurd heq hne
    | close _ heq _ _ _ => exact absurd heq hne
    | wait _ heq _ _ _ => exact absurd heq hne
    | renew _ heq _ _ _ => exact absurd heq hne
    | add _ heq _ _ => exact absurd heq hne
    | reach happroach _ => exact absurd happroach hbusy
    | lose happroach _ _ => exact absurd happroach hbusy
    | go happroach _ _ => exact absurd happroach hbusy
  | succ n han ih =>
    obtain ⟨i, hai, hin, happroaches⟩ := ih (fun m hm => hrises m (by omega))
      (fun j haj hjn => hrange j haj (by omega))
    exact approaches_step (hrises n (by omega)) hai hin (hrange n (by omega) n.lt_succ_self)
      happroaches

theorem Rises.mono {a m : ℕ} (h : Rises c r a n) (hmn : m ≤ n) : Rises c r a m :=
  fun i hai hi => h i hai (hi.trans (by exact_mod_cast hmn))

/-! ## What the check of a heater does -/

variable (c)

/-- A heater that does not heat is caught. A goal of the chamber heater must have been set. -/
def Catches : Prop :=
  ∀ (t₀ : ℚ) (r : ℕ → ℚ × ℚ) (k : ℕ) (d τ : ℚ), 0 < d → 0 < τ →
    Unheated c r k (k + catchChecks c d) d τ →
    (c.isChamber = true → (stateAt c t₀ r (k + 1)).goalSystime ≠ never) →
    ∃ n, k ≤ n ∧ n ≤ k + catchChecks c d ∧ (outcomeAt c t₀ r n).Caught c

/-- A fault comes from the deficits since the last reset, and from a heater out of range. -/
def FaultsOnError : Prop :=
  ∀ (t₀ : ℚ) (r : ℕ → ℚ × ℚ) (n : ℕ), (outcomeAt c t₀ r n).fault = true →
    ¬ InRange c (r n).1 (r n).2 ∧ ∃ i, Accumulated c t₀ r i n ∧
      c.maxError ≤ ∑ j ∈ Finset.Ico i (n + 1), added c (r j).1 (r j).2

/-- There is no fault in an approach that rises and was not in range yet. -/
def SparesApproach : Prop :=
  ∀ (t₀ : ℚ) (r : ℕ → ℚ × ℚ) (a n : ℕ), a ≤ n →
    (stateAt c t₀ r a).approachingTarget = false →
    (r a).2 ≠ (stateAt c t₀ r a).lastTarget →
    (∀ j, a ≤ j → j ≤ n → ¬ InRange c (r j).1 (r j).2) → Rises c r a n →
    (outcomeAt c t₀ r n).fault = false

variable {c}

theorem faultsOnError : FaultsOnError c := by
  intro t₀ r n hfault
  obtain ⟨hrange, -, herror⟩ := of_fault hfault
  obtain ⟨i, hacc⟩ : ∃ i, Accumulated c t₀ r i n := exists_accumulated n
  refine ⟨hrange, i, hacc, ?_⟩
  rwa [Finset.sum_Ico_succ_top hacc.le, ← hacc.error_eq_sum]

theorem sparesApproach : SparesApproach c := by
  intro t₀ r a n han hidle hne hrange hrises
  refine eq_false_of_ne_true fun hfault => ?_
  obtain ⟨-, hnot, -⟩ := of_fault hfault
  rcases han.lt_or_eq with hlt | rfl
  · obtain ⟨i, -, -, happroaches⟩ := approaches_until hlt (fun m hm => hrises.mono hm) hidle hne
      fun j haj hjn => hrange j haj hjn.le
    exact absurd (hnot.symm.trans happroaches.approaching) Bool.false_ne_true
  · have hbelow : Below c (stateAt c t₀ r a) (t₀ + a) (r a).1 (r a).2 _ _ :=
      below_checkEvent (hrange a le_rfl le_rfl)
    change (checkEvent c (stateAt c t₀ r a) (t₀ + a) (r a).1 (r a).2).2.fault = true at hfault
    generalize (checkEvent c (stateAt c t₀ r a) (t₀ + a) (r a).1 (r a).2).1 = s' at hbelow
    generalize (checkEvent c (stateAt c t₀ r a) (t₀ + a) (r a).1 (r a).2).2 = o at hbelow hfault
    cases hbelow with
    | fault _ heq _ _ => exact absurd heq hne
    | lose happroach _ _ => exact absurd (hidle.symm.trans happroach) Bool.false_ne_true
    | _ => exact absurd hfault Bool.false_ne_true

/-- What the check of a heater ensures, whatever the readings. -/
theorem catches_and_spares (c : Config) : Catches c ∧ FaultsOnError c ∧ SparesApproach c :=
  ⟨fun _ _ _ _ _ hd hτ hr hset => caught_of_unheated hr hd hτ rfl hset, faultsOnError,
    sparesApproach⟩

/-! ## What it does not ensure -/

/-- A bed that reaches its second goal only at the end of its time, and heats no more. -/
def slowBed (n : ℕ) : ℚ × ℚ :=
  (if n = 0 then 20 else if n = 1 then 22 else if n < 61 then 239 / 10 else 24, 100)

/-- The target is raised when the first goal is not reached. -/
def raised (n : ℕ) : ℚ × ℚ :=
  (if n < 2 then 20 else 22, if n = 0 then 50 else 100)

/-- A gain of two degrees in each second is expected. -/
def quickGain : Config :=
  { Config.default "extruder".toList with checkGainTime := 1, one_le_checkGainTime := le_rfl }

theorem slowBed_not_caught : ∀ n < 98,
    (outcomeAt (.default "heater_bed".toList) 0 slowBed n).fault = false := by
  decide +kernel

theorem slowBed_unheated (k : ℕ) :
    Unheated (.default "heater_bed".toList) slowBed 2 k 71 100 where
  target_eq _ _ _ := rfl
  temp_le n hn _ := by
    have h0 : n ≠ 0 := by omega
    have h1 : n ≠ 1 := by omega
    simp only [slowBed, h0, h1, if_false, Config.default]
    split_ifs <;> norm_num
  temp_lt m n hm hmn _ := by
    have hm0 : m ≠ 0 := by omega
    have hm1 : m ≠ 1 := by omega
    have hn0 : n ≠ 0 := by omega
    have hn1 : n ≠ 1 := by omega
    simp only [slowBed, hm0, hm1, hn0, hn1, if_false, Config.default]
    split_ifs <;> norm_num

theorem raised_rises : Rises quickGain raised 1 2 := by
  intro i hi hle
  have htime : quickGain.checkGainTime = 1 := rfl
  rw [htime] at hle
  have hi1 : i ≤ 1 := by
    have : (i : ℚ) ≤ (1 : ℕ) := by push_cast at hle ⊢; linarith
    exact_mod_cast this
  obtain rfl : i = 1 := by omega
  exact ⟨2, by omega, by norm_num [htime], by norm_num [raised, quickGain, Config.default]⟩

/-- The bed is caught too late, and a rising temperature is a fault. -/
theorem not_caught_and_fault_raised :
    (¬ ∀ (c : Config) (t₀ : ℚ) (r : ℕ → ℚ × ℚ) (k : ℕ) (d τ : ℚ), 0 < d → 0 < τ →
      (∀ K, Unheated c r k K d τ) → ∃ n : ℕ, k ≤ n ∧
        (n : ℚ) ≤ k + (c.checkGainTime + ⌈c.maxError / min d (15 / 4)⌉ + 3) ∧
        (outcomeAt c t₀ r n).Caught c) ∧
    ¬ ∀ (c : Config) (t₀ : ℚ) (r : ℕ → ℚ × ℚ) (a n : ℕ), 0 < a → a ≤ n →
      (r a).2 ≠ (r (a - 1)).2 → (∀ j, a ≤ j → j ≤ n → (r j).2 = (r a).2) → Rises c r a n →
      (outcomeAt c t₀ r n).fault = false := by
  constructor
  · intro h
    obtain ⟨n, -, hn, hcaught, -⟩ := h (.default "heater_bed".toList) 0 slowBed 2 71 100
      (by norm_num) (by norm_num) slowBed_unheated
    have htime : (Config.default "heater_bed".toList).checkGainTime = 60 := by
      simp [Config.default]
    have herror : (Config.default "heater_bed".toList).maxError = 120 := rfl
    have hceil : ⌈(120 : ℚ) / min 71 (15 / 4)⌉ = 32 := by norm_num
    rw [htime, herror, hceil] at hn
    have hn98 : n < 98 := by
      have : (n : ℚ) < (98 : ℕ) := by push_cast at hn ⊢; linarith
      exact_mod_cast this
    have hchamber : (Config.default "heater_bed".toList).isChamber = false := by decide +kernel
    exact Bool.false_ne_true ((slowBed_not_caught n hn98).symm.trans (hcaught hchamber))
  · intro h
    have hspared := h quickGain 0 raised 1 2 one_pos one_le_two
      (by norm_num [raised]) (fun j hj _ => by
        have hj0 : j ≠ 0 := by omega
        simp only [raised, hj0, if_false, one_ne_zero]) raised_rises
    have hfault : (outcomeAt quickGain 0 raised 2).fault = true := by decide +kernel
    exact Bool.false_ne_true (hspared.symm.trans hfault)

end HeaterCheck

end Thinker
