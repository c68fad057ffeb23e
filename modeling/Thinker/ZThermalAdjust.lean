import Thinker.Move
import Thinker.Transition

/-!
# Thermal adjustment of z

`ZThermalAdjuster` of `z_thermal_adjust.py`, over a transform whose position is the target of its
last move. A move goes up by an offset that follows the temperature in steps of more than a step
distance, and the position that is read back is lower by it.

`get_position` computes the offset anew although nothing moves. Where this changes the offset, the
next position that is read is another one (`not_keeps_reread`), and a move of the extruder moves `z`.
The limit of the offset may end a step early. In a run that changes the offset at moves only, and
there by more than a step distance, the g-code position is kept (`keeps_of_reachable`).
-/

set_option linter.unusedSectionVars false

namespace Thinker

variable {K : Type} [Field K] [LinearOrder K] [IsStrictOrderedRing K]

/-- `ZThermalAdjuster`, with the target of the last move of `next_transform`. -/
structure ZThermalAdjuster (K : Type) where
  tempCoeff : K
  offAboveZ : K
  maxZAdjustMm : K
  invSmoothTime : K
  zStepDist : K
  lastTemp : K
  lastTempTime : K
  smoothedTemp : K
  measuredMin : K
  measuredMax : K
  refTemperature : K
  refTempOverride : Bool
  zAdjustMm : K
  lastZAdjustMm : K
  adjustEnable : Bool
  lastPosition : Coord K
  nextTransform : Coord K

/-- A position with its `z` raised. -/
def Coord.raiseZ (pos : Coord K) (dz : K) : Coord K :=
  Function.update pos 2 (pos 2 + dz)

namespace ZThermalAdjuster

variable (s : ZThermalAdjuster K) (pos : Coord K)

/-- `adjust` of `calc_adjust`. -/
def adjust : K :=
  -1 * s.tempCoeff * (s.smoothedTemp - s.refTemperature)

/-- `min([max_z_adjust_mm*sign, adjust], key=abs)`. -/
def limited : K :=
  let sign : K := if s.adjust ≤ 0 then -1 else 1
  if |s.adjust| < |s.maxZAdjustMm * sign| then s.adjust else s.maxZAdjustMm * sign

/-- The `z_adjust_mm` that `calc_adjust` leaves. -/
def nextAdjust : K :=
  if pos 2 < s.offAboveZ ∧ |s.adjust - s.zAdjustMm| > s.zStepDist then s.limited
  else s.zAdjustMm

/-- `calc_adjust`. -/
def calcAdjust : ZThermalAdjuster K × Coord K :=
  let z := s.nextAdjust pos
  ({ s with zAdjustMm := z, lastZAdjustMm := z }, pos.raiseZ z)

/-- `calc_unadjust`. -/
def calcUnadjust : Coord K :=
  pos.raiseZ (-s.zAdjustMm)

/-- `get_position`. -/
def getPosition : ZThermalAdjuster K × Coord K :=
  let position := s.calcUnadjust s.nextTransform
  let (t, adjusted) := s.calcAdjust position
  ({ t with lastPosition := adjusted }, position)

/-- Whether a move is one of the extruder, or adjustments are disabled. -/
def keepsOffset : Prop :=
  (pos 0 = s.lastPosition 0 ∧ pos 1 = s.lastPosition 1) ∨ s.adjustEnable = false

instance : Decidable (s.keepsOffset pos) :=
  inferInstanceAs (Decidable (_ ∨ _))

/-- `move`. -/
def move : ZThermalAdjuster K :=
  if s.keepsOffset pos then
    { s with nextTransform := pos.raiseZ s.lastZAdjustMm, lastPosition := pos }
  else
    let (t, adjusted) := s.calcAdjust pos
    { t with nextTransform := adjusted, lastPosition := pos }

/-- `temperature_callback`. -/
def temperatureCallback (readTime temp : K) : ZThermalAdjuster K :=
  let timeDiff := readTime - s.lastTempTime
  let tempDiff := temp - s.smoothedTemp
  let adjTime := min (timeDiff * s.invSmoothTime) 1
  let smoothedTemp := s.smoothedTemp + tempDiff * adjTime
  { s with
    lastTemp := temp
    lastTempTime := readTime
    smoothedTemp := smoothedTemp
    measuredMin := min s.measuredMin smoothedTemp
    measuredMax := max s.measuredMax smoothedTemp }

/-- Whether the parameters of `cmd_SET_Z_THERMAL_ADJUST` are accepted. -/
def Accepted (enable : Option ℤ) (coeff refTemp : Option K) : Prop :=
  (∀ e ∈ enable, 0 ≤ e ∧ e ≤ 1) ∧ (∀ c ∈ coeff, -1 ≤ c ∧ c ≤ 1) ∧ ∀ t ∈ refTemp, -273.15 ≤ t

instance (enable : Option ℤ) (coeff refTemp : Option K) : Decidable (Accepted enable coeff refTemp) :=
  inferInstanceAs (Decidable (_ ∧ _ ∧ _))

/-- The coefficient and the reference temperature that are set. -/
def withParams (coeff refTemp : Option K) : ZThermalAdjuster K :=
  { s with
    refTemperature := refTemp.getD s.refTemperature
    refTempOverride := s.refTempOverride || refTemp.isSome
    tempCoeff := coeff.getD s.tempCoeff }

/-- Whether the adjustment is switched. -/
def switches (enable : Option ℤ) : Prop :=
  ∃ e ∈ enable, decide (e ≠ 0) ≠ s.adjustEnable

instance (enable : Option ℤ) : Decidable (s.switches enable) :=
  inferInstanceAs (Decidable (∃ e ∈ enable, _))

/-- `cmd_SET_Z_THERMAL_ADJUST`, with the position that it reads. `ready` says whether
`reset_last_position` reads one. `none` is an error. -/
def cmdSetZThermalAdjust (enable : Option ℤ) (coeff refTemp : Option K) (ready : Bool) :
    Option (ZThermalAdjuster K × Option (Coord K)) :=
  if Accepted enable coeff refTemp then
    let s := s.withParams coeff refTemp
    if s.switches enable then
      let s : ZThermalAdjuster K := { s with adjustEnable := !s.adjustEnable }
      if ready then some (s.getPosition.1, some s.getPosition.2) else some (s, none)
    else some (s, none)
  else none

end ZThermalAdjuster

/-! ## Runs -/

/-- A call. -/
inductive ThermalCall (K : Type) where
  | temperature (readTime temp : K)
  | move (newpos : Coord K)
  | getPosition
  | set (enable : Option ℤ) (coeff refTemp : Option K) (ready : Bool)

/-- The adjuster, the g-code position that was last moved to or read, and how far each move was
raised, the last move first. -/
structure ThermalRun (K : Type) where
  adjuster : ZThermalAdjuster K
  position : Option (Coord K)
  offsets : List K

namespace ThermalRun

open ZThermalAdjuster

/-- The state after a call. -/
def next (r : ThermalRun K) : ThermalCall K → Option (ThermalRun K)
  | .temperature readTime temp =>
    some { r with adjuster := r.adjuster.temperatureCallback readTime temp }
  | .move newpos =>
    let s := r.adjuster.move newpos
    some ⟨s, some newpos, (s.nextTransform 2 - newpos 2) :: r.offsets⟩
  | .getPosition =>
    some { r with adjuster := r.adjuster.getPosition.1, position := some r.adjuster.getPosition.2 }
  | .set enable coeff refTemp ready =>
    (r.adjuster.cmdSetZThermalAdjust enable coeff refTemp ready).map fun result =>
      { r with adjuster := result.1, position := result.2.or r.position }

/-- The runs of an adjuster without an offset. -/
def system : System (ThermalRun K) (ThermalCall K) where
  init r := r.adjuster.zAdjustMm = 0 ∧ r.adjuster.lastZAdjustMm = 0 ∧ r.position = none ∧
    r.offsets = []
  next := next

/-- Nothing was read that was not moved to, and the offsets go in steps. -/
structure Keeps (r : ThermalRun K) : Prop where
  /-- The position that is read is the last that was moved to or read. -/
  reads : ∀ p ∈ r.position, r.adjuster.getPosition.2 = p
  /-- A move of the extruder does not move `z`. -/
  extrudes : ∀ p ∈ r.position, ∀ e,
    (r.adjuster.move (Function.update p 3 e)).nextTransform 2 = r.adjuster.nextTransform 2
  steps : r.offsets.IsChain fun new old => new = old ∨ |new - old| > r.adjuster.zStepDist
  limit : ∀ o ∈ r.offsets, |o| ≤ |r.adjuster.maxZAdjustMm|

end ThermalRun

namespace ZThermalAdjuster

variable (s : ZThermalAdjuster K) (pos : Coord K)

/-- At a position, the offset stays as it is. -/
def Settled : Prop :=
  pos 2 < s.offAboveZ → |s.adjust - s.zAdjustMm| ≤ s.zStepDist ∨ s.limited = s.zAdjustMm

/-- At a position, the limit does not cut a change of the offset down to a step distance. -/
def Uncut : Prop :=
  pos 2 < s.offAboveZ → |s.adjust - s.zAdjustMm| ≤ s.zStepDist ∨ s.limited = s.zAdjustMm ∨
    |s.limited - s.zAdjustMm| > s.zStepDist

instance : Decidable (s.Settled pos) :=
  inferInstanceAs (Decidable (_ → _))

instance : Decidable (s.Uncut pos) :=
  inferInstanceAs (Decidable (_ → _))

end ZThermalAdjuster

namespace ThermalRun

open ZThermalAdjuster

/-- A call that changes the offset only for a move, and there by more than a step distance. -/
def Calm (r : ThermalRun K) : ThermalCall K → Prop
  | .temperature _ _ => True
  | .move newpos => ¬r.adjuster.keepsOffset newpos → r.adjuster.Uncut newpos
  | .getPosition => r.adjuster.Settled (r.adjuster.calcUnadjust r.adjuster.nextTransform)
  | .set enable coeff refTemp ready => ready = true → r.adjuster.switches enable →
      (r.adjuster.withParams coeff refTemp).Settled
        (r.adjuster.calcUnadjust r.adjuster.nextTransform)

instance (r : ThermalRun K) (call : ThermalCall K) : Decidable (r.Calm call) := by
  cases call <;> unfold Calm <;> infer_instance

end ThermalRun

/-! ## The offset -/

namespace Coord

variable (pos : Coord K) (dz : K)

@[simp] theorem raiseZ_two : pos.raiseZ dz 2 = pos 2 + dz :=
  Function.update_self ..

theorem raiseZ_ne {i : Fin 4} (hi : i ≠ 2) : pos.raiseZ dz i = pos i :=
  Function.update_of_ne hi ..

@[simp] theorem raiseZ_neg_raiseZ : (pos.raiseZ dz).raiseZ (-dz) = pos := by
  ext i
  by_cases hi : i = 2
  · subst hi
    simp
  · rw [raiseZ_ne _ _ hi, raiseZ_ne _ _ hi]

@[simp] theorem raiseZ_raiseZ_neg : (pos.raiseZ (-dz)).raiseZ dz = pos := by
  simpa using raiseZ_neg_raiseZ pos (-dz)

end Coord

namespace ZThermalAdjuster

variable {s : ZThermalAdjuster K} {pos : Coord K}

theorem nextAdjust_of_settled (h : s.Settled pos) : s.nextAdjust pos = s.zAdjustMm := by
  unfold nextAdjust
  split_ifs with hchange
  · rcases h hchange.1 with hle | hlimited
    · exact absurd hchange.2 (not_lt.2 hle)
    · exact hlimited
  · rfl

theorem nextAdjust_of_uncut (h : s.Uncut pos) :
    s.nextAdjust pos = s.zAdjustMm ∨ |s.nextAdjust pos - s.zAdjustMm| > s.zStepDist := by
  unfold nextAdjust
  split_ifs with hchange
  · rcases h hchange.1 with hle | hlimited
    · exact absurd hchange.2 (not_lt.2 hle)
    · exact hlimited
  · exact Or.inl rfl

/-- The limit holds on both sides. -/
theorem abs_limited_le : |s.limited| ≤ |s.maxZAdjustMm| := by
  have hsign : ∀ sign : K, sign = -1 ∨ sign = 1 → |s.maxZAdjustMm * sign| = |s.maxZAdjustMm| := by
    rintro sign (rfl | rfl) <;> simp
  unfold limited
  dsimp only
  rw [hsign _ (by split_ifs <;> simp)]
  split_ifs with hlt
  · exact hlt.le
  · exact (hsign _ (Or.inl rfl)).le
  · exact (hsign _ (Or.inr rfl)).le

theorem abs_nextAdjust_le (h : |s.zAdjustMm| ≤ |s.maxZAdjustMm|) :
    |s.nextAdjust pos| ≤ |s.maxZAdjustMm| := by
  unfold nextAdjust
  split_ifs
  · exact abs_limited_le
  · exact h

end ZThermalAdjuster

/-! ## What a run keeps -/

namespace ThermalRun

open ZThermalAdjuster

variable {r t : ThermalRun K}

/-- The g-code position is below the target by the offset, and the last move was raised by it. -/
structure Inv (r : ThermalRun K) : Prop where
  last_eq : r.adjuster.lastZAdjustMm = r.adjuster.zAdjustMm
  abs_le : |r.adjuster.zAdjustMm| ≤ |r.adjuster.maxZAdjustMm|
  target : ∀ p ∈ r.position, r.adjuster.nextTransform = p.raiseZ r.adjuster.zAdjustMm
  lastPosition : ∀ p ∈ r.position,
    p 0 = r.adjuster.lastPosition 0 ∧ p 1 = r.adjuster.lastPosition 1
  newest : ∀ o ∈ r.offsets.head?, o = r.adjuster.zAdjustMm
  steps : r.offsets.IsChain fun new old => new = old ∨ |new - old| > r.adjuster.zStepDist
  limit : ∀ o ∈ r.offsets, |o| ≤ |r.adjuster.maxZAdjustMm|

theorem Inv.keeps (h : Inv r) : Keeps r where
  reads p hp := by
    show r.adjuster.calcUnadjust r.adjuster.nextTransform = p
    rw [h.target p hp, calcUnadjust, Coord.raiseZ_neg_raiseZ]
  extrudes p hp e := by
    have hkeeps : r.adjuster.keepsOffset (Function.update p 3 e) := Or.inl (h.lastPosition p hp)
    rw [ZThermalAdjuster.move, if_pos hkeeps, h.target p hp, h.last_eq]
    simp
  steps := h.steps
  limit := h.limit

/-- A move that is raised by some offset, which is in force afterwards. -/
theorem Inv.moved (h : Inv r) {newpos : Coord K} {s : ZThermalAdjuster K} {z : K}
    (hz : s.zAdjustMm = z) (hlast : s.lastZAdjustMm = z)
    (htarget : s.nextTransform = newpos.raiseZ z) (hposition : s.lastPosition = newpos)
    (hmax : s.maxZAdjustMm = r.adjuster.maxZAdjustMm)
    (hdist : s.zStepDist = r.adjuster.zStepDist)
    (hstep : z = r.adjuster.zAdjustMm ∨ |z - r.adjuster.zAdjustMm| > r.adjuster.zStepDist)
    (habs : |z| ≤ |r.adjuster.maxZAdjustMm|) :
    Inv ⟨s, some newpos, (s.nextTransform 2 - newpos 2) :: r.offsets⟩ := by
  have hoffset : s.nextTransform 2 - newpos 2 = z := by rw [htarget]; simp
  rw [hoffset]
  refine ⟨hlast.trans hz.symm, by rw [hz, hmax]; exact habs, ?_, ?_, ?_, ?_, ?_⟩
  · rintro p ⟨⟩
    rw [htarget, hz]
  · rintro p ⟨⟩
    rw [hposition]
    exact ⟨rfl, rfl⟩
  · rintro o ⟨⟩
    exact hz.symm
  · refine List.isChain_cons.2 ⟨fun o ho => ?_, by rw [hdist]; exact h.steps⟩
    rw [h.newest o ho, hdist]
    exact hstep
  · intro o ho
    rw [hmax]
    rcases List.mem_cons.1 ho with rfl | ho
    · exact habs
    · exact h.limit o ho

theorem Inv.move (h : Inv r) {newpos : Coord K} (hcalm : r.Calm (.move newpos))
    (hnext : r.next (.move newpos) = some t) : Inv t := by
  obtain rfl := Option.some_inj.1 hnext
  by_cases hkeeps : r.adjuster.keepsOffset newpos
  · have hmove : r.adjuster.move newpos = { r.adjuster with
        nextTransform := newpos.raiseZ r.adjuster.lastZAdjustMm, lastPosition := newpos } :=
      if_pos hkeeps
    rw [hmove]
    exact h.moved h.last_eq.symm rfl rfl rfl rfl rfl (Or.inl h.last_eq) (h.last_eq ▸ h.abs_le)
  · have hmove : r.adjuster.move newpos = { r.adjuster with
        zAdjustMm := r.adjuster.nextAdjust newpos
        lastZAdjustMm := r.adjuster.nextAdjust newpos
        nextTransform := newpos.raiseZ (r.adjuster.nextAdjust newpos)
        lastPosition := newpos } := if_neg hkeeps
    rw [hmove]
    exact h.moved rfl rfl rfl rfl rfl rfl (nextAdjust_of_uncut (hcalm hkeeps))
      (abs_nextAdjust_le h.abs_le)

/-- A position that is read where the offset stays. -/
theorem Inv.read (h : Inv r)
    (hsettled : r.adjuster.Settled (r.adjuster.calcUnadjust r.adjuster.nextTransform)) :
    Inv { r with adjuster := r.adjuster.getPosition.1, position := some r.adjuster.getPosition.2 } := by
  have hz := nextAdjust_of_settled hsettled
  refine ⟨rfl, ?_, ?_, ?_, fun o ho => (h.newest o ho).trans hz.symm, h.steps, h.limit⟩
  · exact (congrArg abs hz).trans_le h.abs_le
  · rintro p ⟨⟩
    show r.adjuster.nextTransform = (r.adjuster.calcUnadjust r.adjuster.nextTransform).raiseZ _
    rw [show (r.adjuster.getPosition.1).zAdjustMm = r.adjuster.zAdjustMm from hz, calcUnadjust,
      Coord.raiseZ_raiseZ_neg]
  · rintro p ⟨⟩
    obtain ⟨dz, hraised⟩ : ∃ dz, r.adjuster.getPosition.1.lastPosition =
        r.adjuster.getPosition.2.raiseZ dz := ⟨_, rfl⟩
    dsimp only
    rw [hraised, Coord.raiseZ_ne _ _ (by decide), Coord.raiseZ_ne _ _ (by decide)]
    exact ⟨rfl, rfl⟩

/-- Parameters do not change the offset. -/
theorem Inv.params (h : Inv r) {s : ZThermalAdjuster K} (hz : s.zAdjustMm = r.adjuster.zAdjustMm)
    (hlast : s.lastZAdjustMm = r.adjuster.lastZAdjustMm)
    (hmax : s.maxZAdjustMm = r.adjuster.maxZAdjustMm)
    (hdist : s.zStepDist = r.adjuster.zStepDist)
    (htarget : s.nextTransform = r.adjuster.nextTransform)
    (hposition : s.lastPosition = r.adjuster.lastPosition) : Inv { r with adjuster := s } := by
  obtain ⟨h1, h2, h3, h4, h5, h6, h7⟩ := h
  refine ⟨?_, ?_, ?_, ?_, ?_, ?_, ?_⟩ <;> simpa only [hz, hlast, hmax, hdist, htarget, hposition]

theorem inv_step {call : ThermalCall K} (h : Inv r) (hcalm : r.Calm call)
    (hnext : system.next r call = some t) : Inv t := by
  cases call with
  | temperature readTime temp =>
    obtain rfl := Option.some_inj.1 hnext
    exact h.params rfl rfl rfl rfl rfl rfl
  | move newpos => exact h.move hcalm hnext
  | getPosition =>
    obtain rfl := Option.some_inj.1 hnext
    exact h.read hcalm
  | set enable coeff refTemp ready =>
    obtain ⟨result, hresult, rfl⟩ := Option.map_eq_some_iff.1 hnext
    unfold cmdSetZThermalAdjust at hresult
    dsimp only at hresult
    split_ifs at hresult with haccepted hswitches hready
    all_goals obtain rfl := Option.some_inj.1 hresult
    · have hset : Inv { r with adjuster := { r.adjuster.withParams coeff refTemp with
          adjustEnable := !(r.adjuster.withParams coeff refTemp).adjustEnable } } :=
        h.params rfl rfl rfl rfl rfl rfl
      exact hset.read (hcalm hready hswitches)
    · exact h.params rfl rfl rfl rfl rfl rfl
    · exact h.params rfl rfl rfl rfl rfl rfl

/-- In a run that changes the offset at moves only, and there by more than a step distance, the
g-code position is kept. -/
theorem keeps_of_reachable (h : system.ReachableBy Calm r) : Keeps r := by
  refine (h.invariant (I := Inv) ?_ fun r call t hr hcalm hnext => inv_step hr hcalm hnext).keeps
  rintro r ⟨hz, hlast, hposition, hoffsets⟩
  refine ⟨hlast.trans hz.symm, by simp [hz], ?_, ?_, ?_, ?_, ?_⟩
  all_goals simp [hposition, hoffsets]

/-- A frame that grows by a hundredth of a millimetre for a degree. -/
def coldFrame : ThermalRun ℚ where
  adjuster :=
    ⟨-1 / 100, 100, 1 / 4, 1 / 2, 1 / 400, 0, 0, 0, 0, 0, 0, false, 0, 0, true, 0, 0⟩
  position := none
  offsets := []

theorem reachable_run {calls : List (ThermalCall ℚ)} (hcalm : system.meets Calm coldFrame calls = true)
    (hrun : (system.run coldFrame calls).isSome = true) :
    system.ReachableBy Calm ((system.run coldFrame calls).get hrun) := by
  have hinit : system.ReachableBy Calm coldFrame := .init ⟨rfl, rfl, rfl, rfl⟩
  exact hinit.run hcalm (Option.some_get hrun).symm

/-- It is warm when the print head moves. -/
def warmMove : List (ThermalCall ℚ) :=
  [.temperature 2 20, .move ![10, 10, 1, 0], .getPosition, .move ![10, 10, 1, 5]]

theorem keeps_warmMove :
    ((system.run coldFrame warmMove).get (by decide +kernel)).offsets = [1 / 5, 1 / 5] ∧
      Keeps ((system.run coldFrame warmMove).get (by decide +kernel)) :=
  ⟨by decide +kernel, keeps_of_reachable (reachable_run (by decide +kernel) _)⟩

/-- It gets warm between a move and a read. -/
def warmRead : List (ThermalCall ℚ) :=
  [.move ![10, 10, 1, 0], .temperature 2 20, .getPosition]

/-- The limit of a quarter millimetre is near. -/
def cutMoves : List (ThermalCall ℚ) :=
  [.temperature 2 (249 / 10), .move ![10, 10, 1, 0], .temperature 4 50, .move ![20, 10, 1, 0]]

/-- A second read returns another position, and then the extruder moves `z`; and the limit cuts a
change of the offset down. -/
theorem not_keeps_reread :
    (∃ r : ThermalRun ℚ, system.Reachable r ∧ ∃ p ∈ r.position, r.adjuster.getPosition.2 ≠ p ∧
      (r.adjuster.move (Function.update p 3 5)).nextTransform 2 ≠ r.adjuster.nextTransform 2) ∧
    ∃ r : ThermalRun ℚ, system.Reachable r ∧
      ¬r.offsets.IsChain fun new old => new = old ∨ |new - old| > r.adjuster.zStepDist := by
  have hinit : system.Reachable coldFrame := .init ⟨rfl, rfl, rfl, rfl⟩
  refine ⟨⟨(system.run coldFrame warmRead).get (by decide +kernel),
    hinit.run (Option.some_get _).symm, ![10, 10, 1, 0], by decide +kernel, by decide +kernel,
    by decide +kernel⟩, (system.run coldFrame cutMoves).get (by decide +kernel),
    hinit.run (Option.some_get _).symm, by decide +kernel⟩

end ThermalRun

end Thinker
