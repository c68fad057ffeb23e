import Mathlib.Algebra.Order.Field.Basic
import Mathlib.Data.Finset.Basic
import Thinker.Numerals
import Thinker.Transition

/-!
# Dual carriages

`idex_modes.py` with the limits that `cartesian.py` and `hybrid_corexy.py` keep for the axis of the
carriages, in exact arithmetic over any ordered field. A carriage is where `scale * position +
offset` says for the position of the toolhead on the axis, and a change of its mode keeps it there.
`get_kin_range` are the limits at which the carriages stay apart. `home`, and the moves of
`RESTORE_DUAL_CARRIAGE_STATE`, are under the whole range of a rail instead.

Of a move only its end on the axis is modelled, and the distance over the other axes, whose limits
do not depend on the carriages. Beside the state a run keeps where the carriages were after each
accepted move (`visited`) while the axis was homed, moves made for homing apart.
-/

set_option linter.unusedSectionVars false

namespace Thinker

/-- A carriage, by its index. -/
inductive Carriage where
  | dc0
  | dc1
  deriving DecidableEq, Repr

/-- The other carriage. -/
def Carriage.other : Carriage → Carriage
  | .dc0 => .dc1
  | .dc1 => .dc0

/-- The modes of a carriage. -/
inductive CarriageMode where
  | inactive
  | primary
  | copy
  | mirror
  deriving DecidableEq, Repr

/-- The range and the homing info of a rail. -/
structure CarriageRail (K : Type) [LinearOrder K] where
  positionMin : K
  positionMax : K
  positionEndstop : K
  positiveDir : Bool
  min_lt_max : positionMin < positionMax
  min_le_endstop : positionMin ≤ positionEndstop
  endstop_le_max : positionEndstop ≤ positionMax

variable {K : Type} [Field K] [LinearOrder K] [IsStrictOrderedRing K]

/-- A position is inside the range of a rail. -/
def CarriageRail.Contains (r : CarriageRail K) (x : K) : Prop :=
  r.positionMin ≤ x ∧ x ≤ r.positionMax

instance (r : CarriageRail K) (x : K) : Decidable (r.Contains x) :=
  inferInstanceAs (Decidable (_ ∧ _))

/-- `get_range`. -/
def CarriageRail.range (r : CarriageRail K) : K × K :=
  (r.positionMin, r.positionMax)

/-- The rails of the carriages, and the option `safe_distance`. -/
structure DualConfig (K : Type) [Field K] [LinearOrder K] where
  rail : Carriage → CarriageRail K
  safeDistance : Option K
  safeDistance_nonneg : ∀ d ∈ safeDistance, 0 ≤ d

namespace DualConfig

variable (c : DualConfig K)

/-- `safe_dist`. -/
def safeDist : K :=
  c.safeDistance.getD <|
    min |(c.rail .dc0).positionMin - (c.rail .dc1).positionMin|
      |(c.rail .dc0).positionMax - (c.rail .dc1).positionMax|

/-- `get_dc_order`. -/
def getDcOrder (first second : Carriage) : ℤ :=
  if first = second then 0
  else if (c.rail first).positiveDir ≠ (c.rail second).positiveDir then
    -- Carriages home away from each other
    if (c.rail first).positiveDir then 1 else -1
  -- Carriages home in the same direction
  else if (c.rail first).positionEndstop > (c.rail second).positionEndstop then 1
  else -1

/-- Positions of the carriages at least `safe_dist` apart, in their order. -/
def Apart (p : Carriage → K) : Prop :=
  if 0 < c.getDcOrder .dc0 .dc1 then p .dc1 + c.safeDist ≤ p .dc0
  else p .dc0 + c.safeDist ≤ p .dc1

/-- Each carriage inside its range, and the two apart. -/
structure Homes (p : Carriage → K) : Prop where
  contains : ∀ i, (c.rail i).Contains (p i)
  apart : c.Apart p

instance (p : Carriage → K) : Decidable (c.Apart p) := by
  unfold Apart; infer_instance

instance (p : Carriage → K) : Decidable (c.Homes p) :=
  decidable_of_iff ((c.rail .dc0).Contains (p .dc0) ∧ (c.rail .dc1).Contains (p .dc1) ∧ c.Apart p)
    ⟨fun ⟨h₀, h₁, h⟩ => ⟨fun | .dc0 => h₀ | .dc1 => h₁, h⟩,
      fun h => ⟨h.contains .dc0, h.contains .dc1, h.apart⟩⟩

end DualConfig

/-- A `DualCarriagesRail`. -/
structure DualCarriagesRail (K : Type) where
  mode : CarriageMode
  offset : K
  scale : K

namespace DualCarriagesRail

variable (dc : DualCarriagesRail K)

/-- `is_active`. -/
def isActive : Bool :=
  decide (dc.mode ≠ .inactive)

/-- `get_axis_position`. -/
def getAxisPosition (position : K) : K :=
  position * dc.scale + dc.offset

/-- `activate`. -/
def activate (mode : CarriageMode) (position oldPosition : K) : DualCarriagesRail K :=
  let scale : K := if mode = .mirror then -1 else 1
  { mode := mode, scale := scale, offset := dc.getAxisPosition oldPosition - position * scale }

/-- `inactivate`. -/
def inactivate (position : K) : DualCarriagesRail K :=
  { mode := .inactive, scale := 0, offset := dc.getAxisPosition position }

end DualCarriagesRail

/-- An entry of `saved_states`. -/
structure CarriageState (K : Type) where
  carriageModes : Carriage → CarriageMode
  axesPositions : Carriage → K

/-- Where the carriages are after a move. -/
structure CarriageVisit (K : Type) where
  active : Carriage → Bool
  axesPositions : Carriage → K

/-- The active carriages are inside their ranges, and the carriages apart. -/
structure CarriageVisit.Safe (c : DualConfig K) (v : CarriageVisit K) : Prop where
  contains : ∀ i, v.active i = true → (c.rail i).Contains (v.axesPositions i)
  apart : c.Apart v.axesPositions

/-- `DualCarriages`, with what the toolhead and the kinematics keep for the axis. -/
structure DualCarriages (K : Type) where
  /-- The position of the toolhead. -/
  position : K
  dc : Carriage → DualCarriagesRail K
  /-- `limits` of the kinematics. -/
  limits : K × K
  /-- The rails of the kinematics at the index of the axis and at index 3. -/
  axisRail : Carriage
  extraRail : Carriage
  savedStates : String → Option (CarriageState K)
  /-- The limits were last set by `home`, or by a restore whose move was refused. -/
  wholeRange : Bool
  visited : List (CarriageVisit K)

namespace DualCarriages

variable (c : DualConfig K) (s : DualCarriages K)

/-- The positions of the carriages. -/
def axesPositions (i : Carriage) : K :=
  (s.dc i).getAxisPosition s.position

/-- The axis is homed. -/
def Homed : Prop :=
  s.limits.1 ≤ s.limits.2

instance : Decidable s.Homed :=
  inferInstanceAs (Decidable (_ ≤ _))

/-- `update_limits`. -/
def updateLimits (range : K × K) : DualCarriages K :=
  if s.Homed then { s with limits := range } else s

/-- The loop of `toggle_active_dc_rail`, for the other carriage. -/
def inactivateOther (index : Carriage) (overrideRail : Bool) : DualCarriages K :=
  { s with
    dc :=
      if (s.dc index.other).isActive then
        Function.update s.dc index.other ((s.dc index.other).inactivate s.position)
      else s.dc
    extraRail := if overrideRail then index.other else s.extraRail }

/-- `toggle_active_dc_rail` behind its loop, up to `update_limits`. -/
def activateTarget (index : Carriage) (overrideRail : Bool) : DualCarriages K :=
  if (s.dc index).mode ≠ .primary then
    let newpos := (s.dc index).getAxisPosition s.position
    { s with
      position := newpos
      dc := Function.update s.dc index ((s.dc index).activate .primary newpos s.position)
      axisRail := if overrideRail then index else s.axisRail }
  else s

/-- `toggle_active_dc_rail`. -/
def toggleActiveDcRail (index : Carriage) (overrideRail : Bool) : DualCarriages K :=
  { ((s.inactivateOther index overrideRail).activateTarget index overrideRail).updateLimits
      (c.rail index).range with
    wholeRange := true }

/-- The least and the greatest position that `get_kin_range` finds. -/
def kinRange (mode : CarriageMode) : K × K :=
  let p := s.axesPositions
  let dc1Rail := c.rail .dc1
  let range :=
    if mode ≠ .primary ∨ (s.dc .dc0).isActive then (c.rail .dc0).range else dc1Rail.range
  match mode with
  | .copy =>
    (max range.1 (p .dc0 - p .dc1 + dc1Rail.positionMin),
      min range.2 (p .dc0 - p .dc1 + dc1Rail.positionMax))
  | .mirror =>
    if 0 < c.getDcOrder .dc0 .dc1 then
      (max range.1 (1 / 2 * (p .dc0 + p .dc1 + c.safeDist)),
        min range.2 (p .dc0 + p .dc1 - dc1Rail.positionMin))
    else
      (max range.1 (p .dc0 + p .dc1 - dc1Rail.positionMax),
        min range.2 (1 / 2 * (p .dc0 + p .dc1 - c.safeDist)))
  | _ =>
    let active : Carriage := if (s.dc .dc1).isActive then .dc1 else .dc0
    if 0 < c.getDcOrder active active.other then
      (max range.1 (p active.other + c.safeDist), range.2)
    else (range.1, min range.2 (p active.other - c.safeDist))

/-- `get_kin_range`. -/
def getKinRange (mode : CarriageMode) : K × K :=
  if c.safeDist = 0 then
    if mode ≠ .primary ∨ (s.dc .dc0).isActive then (c.rail .dc0).range else (c.rail .dc1).range
  else
    let range := s.kinRange c mode
    if range.2 < range.1 then (range.1, range.1) else range

/-- `activate_dc_mode`, up to `update_limits`. -/
def changeMode (index : Carriage) (mode : CarriageMode) : DualCarriages K :=
  match mode with
  | .inactive => { s with dc := Function.update s.dc index ((s.dc index).inactivate s.position) }
  | .primary => s.toggleActiveDcRail c index false
  | _ =>
    let s := s.toggleActiveDcRail c .dc0 false
    { s with
      dc := Function.update s.dc index ((s.dc index).activate mode s.position s.position) }

/-- `activate_dc_mode`. -/
def activateDcMode (index : Carriage) (mode : CarriageMode) : DualCarriages K :=
  let s := s.changeMode c index mode
  { s.updateLimits (s.getKinRange c mode) with wholeRange := false }

/-- `cmd_SET_DUAL_CARRIAGE`, which raises an error about a mode that is not a `VALID_MODES`, about
carriage 0, and if the axis is not homed. -/
def cmdSetDualCarriage (index : Carriage) (mode : CarriageMode) : DualCarriages K :=
  match mode with
  | .inactive => s
  | .primary => s.activateDcMode c index .primary
  | mode => if index = .dc1 ∧ s.Homed then s.activateDcMode c index mode else s

/-- `cmd_SAVE_DUAL_CARRIAGE_STATE`. -/
def cmdSaveDualCarriageState (name : String) : DualCarriages K :=
  { s with
    savedStates := Function.update s.savedStates name
      (some ⟨fun i => (s.dc i).mode, s.axesPositions⟩) }

/-- The carriages after a move. -/
def visit : DualCarriages K :=
  if s.Homed then
    { s with visited := ⟨fun i => (s.dc i).isActive, s.axesPositions⟩ :: s.visited }
  else s

/-- A move to a position, over a distance in the other axes of which the square is given. It is not
made if it is too short, and `none` if `check_move` raises an error. -/
def move (x others : K) : Option (DualCarriages K) :=
  if (x - s.position) ^ 2 + others < 0.000000001 ^ 2 then some s
  else if x ≠ s.position ∧ (x < s.limits.1 ∨ s.limits.2 < x) then none
  else some { s with position := x }.visit

/-- `toggle_active_dc_rail` and `manual_move` of a carriage. -/
def restorePosition (saved : CarriageState K) (index : Carriage) : DualCarriages K × Bool :=
  let s := s.toggleActiveDcRail c index false
  match s.move (saved.axesPositions index) 0 with
  | none => (s, false)
  | some s => (s, true)

/-- The moves of `cmd_RESTORE_DUAL_CARRIAGE_STATE`. -/
def restorePositions (saved : CarriageState K) : DualCarriages K × Bool :=
  match s.restorePosition c saved .dc0 with
  | (s, false) => (s, false)
  | (s, true) => s.restorePosition c saved .dc1

/-- The modes of `cmd_RESTORE_DUAL_CARRIAGE_STATE`. -/
def restoreModes (saved : CarriageState K) : DualCarriages K :=
  (s.activateDcMode c .dc0 (saved.carriageModes .dc0)).activateDcMode c .dc1
    (saved.carriageModes .dc1)

/-- `cmd_RESTORE_DUAL_CARRIAGE_STATE`, and whether it returns without an error. -/
def cmdRestoreDualCarriageState (name : String) (moving : Bool) : DualCarriages K × Bool :=
  match s.savedStates name with
  | none => (s, false)
  | some saved =>
    if moving then
      match s.restorePositions c saved with
      | (s, false) => (s, false)
      | (s, true) => (s.restoreModes c saved, true)
    else (s.restoreModes c saved, true)

/-- `home_axis` of the kinematics, which leaves a carriage at a position. -/
def homeAxis (x : K) : DualCarriages K :=
  { s with position := x, limits := (c.rail s.axisRail).range }

/-- The carriage that homes first. -/
def homesFirst : Carriage :=
  if decide (0 < c.getDcOrder .dc0 .dc1) ≠ (c.rail .dc0).positiveDir then .dc1 else .dc0

/-- `toggle_active_dc_rail` and `home_axis` of a carriage. -/
def homeCarriage (index : Carriage) (x : K) : DualCarriages K :=
  (s.toggleActiveDcRail c index true).homeAxis c x

/-- `home`, which leaves the carriages at some positions. -/
def home (p : Carriage → K) : DualCarriages K :=
  let i := homesFirst c
  ((s.homeCarriage c i (p i)).homeCarriage c i.other (p i.other)).toggleActiveDcRail c .dc0 true

/-- `_motor_off`. -/
def motorOff : DualCarriages K :=
  { s with limits := (1, -1) }

/-- A `G28` that raises an error while the first or the second carriage homes, with the positions
that the toolhead is left at. -/
def homeFails (first : Option K) (x : K) : DualCarriages K :=
  let i := homesFirst c
  match first with
  | none => (s.homeCarriage c i x).motorOff
  | some p => ((s.homeCarriage c i p).homeCarriage c i.other x).motorOff

end DualCarriages

/-- What happens to the carriages. -/
inductive DualEvent (K : Type) where
  /-- `G28` of the axis, and where it leaves the carriages. -/
  | home (p : Carriage → K)
  | homeFails (first : Option K) (x : K)
  | motorOff
  | setDualCarriage (index : Carriage) (mode : CarriageMode)
  | saveState (name : String)
  | restoreState (name : String) (moving : Bool)
  | move (x others : K)

namespace DualCarriages

variable (c : DualConfig K) (s : DualCarriages K)

/-- The carriages after an event. Carriages home inside their ranges and apart. -/
def next : DualEvent K → Option (DualCarriages K)
  | .home p => if c.Homes p then some (s.home c p) else none
  | .homeFails first x => some (s.homeFails c first x)
  | .motorOff => some s.motorOff
  | .setDualCarriage index mode => some (s.cmdSetDualCarriage c index mode)
  | .saveState name => some (s.cmdSaveDualCarriageState name)
  | .restoreState name moving => some (s.cmdRestoreDualCarriageState c name moving).1
  | .move x others => if 0 ≤ others then some ((s.move x others).getD s) else none

/-- The carriages when the printer starts. -/
def start : DualCarriages K where
  position := 0
  dc
    | .dc0 => ⟨.primary, 0, 1⟩
    | .dc1 => ⟨.inactive, 0, 0⟩
  limits := (1, -1)
  axisRail := .dc0
  extraRail := .dc1
  savedStates _ := none
  wholeRange := false
  visited := []

/-- The carriages from the start of the printer. -/
def system : System (DualCarriages K) (DualEvent K) where
  init s := s = start
  next := next c

/-- While the limits are the whole range of the rail, a move ends within `get_kin_range` ; the copy
that mirrors a move ends inside its range ; a restored position is apart from the other carriage, and
is not too close to the present one for the move to be made. -/
def Guarded : DualEvent K → Prop
  | .move x _ => s.Homed → s.limits.1 ≤ x → x ≤ s.limits.2 →
      (s.wholeRange = true →
        (s.getKinRange c .primary).1 ≤ x ∧ x ≤ (s.getKinRange c .primary).2) ∧
      ((s.dc .dc1).mode = .mirror → (c.rail .dc1).Contains ((s.dc .dc1).getAxisPosition x))
  | .restoreState name moving => moving = true → ∀ saved ∈ s.savedStates name,
      (∀ i, saved.axesPositions i = s.axesPositions i ∨
        0.000000001 ≤ |saved.axesPositions i - s.axesPositions i|) ∧
      (s.Homed → (c.rail .dc0).Contains (saved.axesPositions .dc0) →
        c.Apart (Function.update s.axesPositions .dc0 (saved.axesPositions .dc0)) ∧
        ((c.rail .dc1).Contains (saved.axesPositions .dc1) → c.Apart saved.axesPositions))
  | _ => True

end DualCarriages

/-! ## Carriages stay where they are -/

@[simp] theorem Carriage.other_ne (i : Carriage) : i.other ≠ i := by
  cases i <;> decide

@[simp] theorem Carriage.ne_other (i : Carriage) : i ≠ i.other :=
  i.other_ne.symm

theorem Carriage.eq_or_eq_other (i j : Carriage) : j = i ∨ j = i.other := by
  cases i <;> cases j <;> simp [Carriage.other]

namespace DualCarriagesRail

/-- The scale that goes with the mode. -/
def Scaled (dc : DualCarriagesRail K) : Prop :=
  match dc.mode with
  | .inactive => dc.scale = 0
  | .primary => dc.scale = 1 ∧ dc.offset = 0
  | .copy => dc.scale = 1
  | .mirror => dc.scale = -1

variable (dc : DualCarriagesRail K)

@[simp] theorem inactivate_mode (position : K) : (dc.inactivate position).mode = .inactive := rfl

@[simp] theorem activate_mode (mode : CarriageMode) (position oldPosition : K) :
    (dc.activate mode position oldPosition).mode = mode := rfl

theorem inactivate_scaled (position : K) : (dc.inactivate position).Scaled := rfl

@[simp] theorem inactivate_getAxisPosition (position x : K) :
    (dc.inactivate position).getAxisPosition x = dc.getAxisPosition position := by
  simp [inactivate, getAxisPosition]

@[simp] theorem activate_getAxisPosition (mode : CarriageMode) (position oldPosition : K) :
    (dc.activate mode position oldPosition).getAxisPosition position =
      dc.getAxisPosition oldPosition := by
  simp [activate, getAxisPosition]

theorem activate_primary_scaled (position : K) :
    (dc.activate .primary (dc.getAxisPosition position) position).Scaled := by
  simp [Scaled, activate]

theorem activate_scaled {mode : CarriageMode} (hi : mode ≠ .inactive) (hp : mode ≠ .primary)
    (position oldPosition : K) : (dc.activate mode position oldPosition).Scaled := by
  cases mode <;> simp_all [Scaled, activate]

variable {dc}

theorem Scaled.inactive (h : dc.Scaled) (hm : dc.mode = .inactive) (x y : K) :
    dc.getAxisPosition x = dc.getAxisPosition y := by
  simp only [Scaled, hm] at h
  simp [getAxisPosition, h]

theorem Scaled.primary (h : dc.Scaled) (hm : dc.mode = .primary) (x : K) :
    dc.getAxisPosition x = x := by
  simp only [Scaled, hm] at h
  simp [getAxisPosition, h]

theorem Scaled.copy (h : dc.Scaled) (hm : dc.mode = .copy) (x y : K) :
    dc.getAxisPosition y = y - x + dc.getAxisPosition x := by
  simp only [Scaled, hm] at h
  simp only [getAxisPosition, h]
  ring

theorem Scaled.mirror (h : dc.Scaled) (hm : dc.mode = .mirror) (x y : K) :
    dc.getAxisPosition y = x - y + dc.getAxisPosition x := by
  simp only [Scaled, hm] at h
  simp only [getAxisPosition, h]
  ring

end DualCarriagesRail

namespace DualCarriages

variable {c : DualConfig K} {s t : DualCarriages K}

/-- What a change of the modes leaves as it is. -/
structure Frame (s t : DualCarriages K) : Prop where
  scaled : ∀ i, (t.dc i).Scaled
  axesPositions : t.axesPositions = s.axesPositions
  savedStates : t.savedStates = s.savedStates
  visited : t.visited = s.visited
  homed : t.Homed ↔ s.Homed

/-- One carriage is primary and the other inactive. -/
structure Single (s : DualCarriages K) (i : Carriage) : Prop where
  primary : (s.dc i).mode = .primary
  inactive : (s.dc i.other).mode = .inactive

theorem Frame.trans {u : DualCarriages K} (h : Frame s t) (h' : Frame t u) : Frame s u where
  scaled := h'.scaled
  axesPositions := h'.axesPositions.trans h.axesPositions
  savedStates := h'.savedStates.trans h.savedStates
  visited := h'.visited.trans h.visited
  homed := h'.homed.trans h.homed

/-- The carriages do not depend on the limits. -/
@[simp] theorem updateLimits_dc (range : K × K) : (s.updateLimits range).dc = s.dc := by
  unfold updateLimits; split_ifs <;> rfl

@[simp] theorem updateLimits_position (range : K × K) :
    (s.updateLimits range).position = s.position := by
  unfold updateLimits; split_ifs <;> rfl

@[simp] theorem updateLimits_savedStates (range : K × K) :
    (s.updateLimits range).savedStates = s.savedStates := by
  unfold updateLimits; split_ifs <;> rfl

@[simp] theorem updateLimits_visited (range : K × K) :
    (s.updateLimits range).visited = s.visited := by
  unfold updateLimits; split_ifs <;> rfl

theorem updateLimits_limits {range : K × K} (h : s.Homed) :
    (s.updateLimits range).limits = range := by
  simp [updateLimits, h]

/-- An axis that is homed stays so, and no other becomes so. -/
theorem updateLimits_homed {range : K × K} (h : range.1 ≤ range.2) :
    (s.updateLimits range).Homed ↔ s.Homed := by
  by_cases hs : s.Homed
  · rw [updateLimits, if_pos hs]
    exact iff_of_true h hs
  · rw [updateLimits, if_neg hs]

theorem getKinRange_congr (hdc : t.dc = s.dc) (hp : t.position = s.position)
    (mode : CarriageMode) : t.getKinRange c mode = s.getKinRange c mode := by
  cases s
  cases t
  dsimp only at hdc hp
  subst hdc hp
  rfl

theorem frame_inactivate (h : ∀ i, (s.dc i).Scaled) (i : Carriage) :
    Frame s { s with dc := Function.update s.dc i ((s.dc i).inactivate s.position) } where
  scaled j := by
    by_cases hj : j = i
    · subst hj
      simp [DualCarriagesRail.inactivate_scaled]
    · simpa [hj] using h j
  axesPositions := by
    funext j
    by_cases hj : j = i
    · subst hj
      simp [DualCarriages.axesPositions]
    · simp [DualCarriages.axesPositions, hj]
  savedStates := rfl
  visited := rfl
  homed := Iff.rfl

theorem frame_activate (h : ∀ i, (s.dc i).Scaled) (i : Carriage) {mode : CarriageMode}
    (hi : mode ≠ .inactive) (hp : mode ≠ .primary) :
    Frame s { s with
      dc := Function.update s.dc i ((s.dc i).activate mode s.position s.position) } where
  scaled j := by
    by_cases hj : j = i
    · subst hj
      simpa using DualCarriagesRail.activate_scaled _ hi hp _ _
    · simpa [hj] using h j
  axesPositions := by
    funext j
    by_cases hj : j = i
    · subst hj
      simp [DualCarriages.axesPositions]
    · simp [DualCarriages.axesPositions, hj]
  savedStates := rfl
  visited := rfl
  homed := Iff.rfl

theorem frame_inactivateOther (h : ∀ i, (s.dc i).Scaled) (i : Carriage) (b : Bool) :
    Frame s (s.inactivateOther i b) ∧ ((s.inactivateOther i b).dc i.other).mode = .inactive := by
  unfold inactivateOther
  by_cases ha : (s.dc i.other).isActive = true
  · simp only [ha, if_true]
    exact ⟨{ frame_inactivate h i.other with }, by simp⟩
  · rw [if_neg ha]
    exact ⟨⟨h, rfl, rfl, rfl, Iff.rfl⟩, by simpa [DualCarriagesRail.isActive] using ha⟩

theorem frame_activateTarget (h : ∀ i, (s.dc i).Scaled) {i : Carriage}
    (ho : (s.dc i.other).mode = .inactive) (b : Bool) :
    Frame s (s.activateTarget i b) ∧ Single (s.activateTarget i b) i := by
  unfold activateTarget
  by_cases hp : (s.dc i).mode = .primary
  · simp only [hp, ne_eq, not_true_eq_false, if_false]
    exact ⟨⟨h, rfl, rfl, rfl, Iff.rfl⟩, hp, ho⟩
  · simp only [ne_eq, hp, not_false_eq_true, if_true]
    refine ⟨⟨fun j => ?_, ?_, rfl, rfl, Iff.rfl⟩, by simp, by simpa using ho⟩
    · obtain rfl | rfl := i.eq_or_eq_other j
      · simpa using (s.dc _).activate_primary_scaled s.position
      · simpa using h _
    · funext j
      obtain rfl | rfl := i.eq_or_eq_other j
      · simp [DualCarriages.axesPositions]
      · simpa [DualCarriages.axesPositions] using (h _).inactive ho _ _

/-- What `toggle_active_dc_rail` does. -/
theorem frame_toggleActiveDcRail (c : DualConfig K) (h : ∀ i, (s.dc i).Scaled) (i : Carriage)
    (b : Bool) :
    Frame s (s.toggleActiveDcRail c i b) ∧ Single (s.toggleActiveDcRail c i b) i := by
  obtain ⟨hf, ho⟩ := frame_inactivateOther h i b
  obtain ⟨hf', hs⟩ := frame_activateTarget hf.scaled ho b
  have hft := hf.trans hf'
  unfold toggleActiveDcRail
  refine ⟨⟨?_, ?_, ?_, ?_, ?_⟩, ?_, ?_⟩
  · simpa using hft.scaled
  · simpa [DualCarriages.axesPositions, funext_iff] using congrFun hft.axesPositions
  · simpa using hft.savedStates
  · simpa using hft.visited
  · exact (updateLimits_homed (c.rail i).min_lt_max.le).trans hft.homed
  · simpa using hs.primary
  · simpa using hs.inactive

theorem toggleActiveDcRail_limits (h : ∀ i, (s.dc i).Scaled) {i : Carriage} {b : Bool}
    (hh : (s.toggleActiveDcRail c i b).Homed) :
    (s.toggleActiveDcRail c i b).limits = (c.rail i).range := by
  obtain ⟨hf, ho⟩ := frame_inactivateOther h i b
  obtain ⟨hf', _⟩ := frame_activateTarget hf.scaled ho b
  exact updateLimits_limits ((updateLimits_homed (c.rail i).min_lt_max.le).1 hh)

theorem getKinRange_le (mode : CarriageMode) :
    (s.getKinRange c mode).1 ≤ (s.getKinRange c mode).2 := by
  unfold getKinRange
  by_cases h0 : c.safeDist = 0
  · simp only [h0, if_true]
    split_ifs
    · exact (c.rail .dc0).min_lt_max.le
    · exact (c.rail .dc1).min_lt_max.le
  · simp only [h0, if_false]
    split_ifs with hlt
    · exact le_rfl
    · exact not_lt.1 hlt

/-- What the end of `activate_dc_mode` does. -/
theorem frame_setLimits (h : ∀ i, (s.dc i).Scaled) (mode : CarriageMode) :
    Frame s { s.updateLimits (s.getKinRange c mode) with wholeRange := false } where
  scaled := by simpa using h
  axesPositions := by
    funext i
    simp [DualCarriages.axesPositions]
  savedStates := by simp
  visited := by simp
  homed := updateLimits_homed (getKinRange_le mode)

/-- What `activate_dc_mode` keeps. -/
theorem frame_activateDcMode (c : DualConfig K) (h : ∀ i, (s.dc i).Scaled) (i : Carriage)
    (mode : CarriageMode) : Frame s (s.activateDcMode c i mode) := by
  have hchange : Frame s (s.changeMode c i mode) := by
    cases mode with
    | inactive => exact frame_inactivate h i
    | primary => exact (frame_toggleActiveDcRail c h i false).1
    | copy =>
      have hf := (frame_toggleActiveDcRail c h .dc0 false).1
      exact hf.trans (frame_activate hf.scaled i (by simp) (by simp))
    | mirror =>
      have hf := (frame_toggleActiveDcRail c h .dc0 false).1
      exact hf.trans (frame_activate hf.scaled i (by simp) (by simp))
  exact hchange.trans (frame_setLimits hchange.scaled mode)

@[simp] theorem activateDcMode_dc (i : Carriage) (mode : CarriageMode) :
    (s.activateDcMode c i mode).dc = (s.changeMode c i mode).dc := by
  simp [activateDcMode]

theorem activateDcMode_limits {i : Carriage} {mode : CarriageMode}
    (hh : (s.activateDcMode c i mode).Homed) :
    (s.activateDcMode c i mode).limits = (s.activateDcMode c i mode).getKinRange c mode := by
  have hc : (s.changeMode c i mode).Homed := (updateLimits_homed (getKinRange_le mode)).1 hh
  refine (updateLimits_limits hc).trans (getKinRange_congr ?_ ?_ mode).symm
  · exact updateLimits_dc _
  · exact updateLimits_position _

/-! ## The modes -/

/-- The mode of carriage 0 and that of carriage 1. -/
def Paired (m : Carriage → CarriageMode) : Prop :=
  (m .dc0 = .primary ∧ m .dc1 ≠ .primary) ∨ (m .dc0 = .inactive ∧ m .dc1 = .primary)

/-- The modes of the carriages. -/
def modes (s : DualCarriages K) (i : Carriage) : CarriageMode :=
  (s.dc i).mode

/-- The mode that `get_kin_range` was last called for. -/
def activeMode (s : DualCarriages K) : CarriageMode :=
  match s.modes .dc1 with
  | .copy => .copy
  | .mirror => .mirror
  | _ => .primary

theorem Paired.existsUnique {m : Carriage → CarriageMode} (h : Paired m) :
    ∃! i, m i = .primary := by
  rcases h with ⟨h0, h1⟩ | ⟨h0, h1⟩
  · refine ⟨.dc0, h0, fun i hi => ?_⟩
    cases i with
    | dc0 => rfl
    | dc1 => exact absurd hi h1
  · refine ⟨.dc1, h1, fun i hi => ?_⟩
    cases i with
    | dc0 => simp [h0] at hi
    | dc1 => rfl

theorem Single.paired {i : Carriage} (h : Single s i) : Paired s.modes := by
  cases i with
  | dc0 => exact .inl ⟨h.primary, by simpa [modes, Carriage.other] using h.inactive ▸ (by simp)⟩
  | dc1 => exact .inr ⟨h.inactive, h.primary⟩

theorem Single.activeMode {i : Carriage} (h : Single s i) : s.activeMode = .primary := by
  cases i with
  | dc0 => simp [DualCarriages.activeMode, modes, show (s.dc .dc1).mode = .inactive from h.inactive]
  | dc1 => simp [DualCarriages.activeMode, modes, h.primary]

/-- If the limits are for one carriage, it does not matter that the other was the last to change. -/
theorem Single.getKinRange_inactive (h : Single s .dc0) :
    s.getKinRange c .inactive = s.getKinRange c .primary := by
  simp [getKinRange, kinRange, DualCarriagesRail.isActive, h.primary]

theorem single_activateDcMode (h : ∀ i, (s.dc i).Scaled) (i : Carriage) :
    Single (s.activateDcMode c i .primary) i := by
  have hs := (frame_toggleActiveDcRail c h i false).2
  exact ⟨by simpa [changeMode] using hs.primary, by simpa [changeMode] using hs.inactive⟩

theorem single_activateDcMode_inactive (h : (s.dc .dc0).mode = .primary) :
    Single (s.activateDcMode c .dc1 .inactive) .dc0 :=
  ⟨by simpa [changeMode] using h, by simp [changeMode, Carriage.other]⟩

/-- The carriages after carriage 1 begins to follow carriage 0. -/
theorem modes_activateDcMode (h : ∀ i, (s.dc i).Scaled) {mode : CarriageMode}
    (hm : mode = .copy ∨ mode = .mirror) :
    (s.activateDcMode c .dc1 mode).modes .dc0 = .primary ∧
      (s.activateDcMode c .dc1 mode).modes .dc1 = mode := by
  have hs := (frame_toggleActiveDcRail c h .dc0 false).2
  rcases hm with rfl | rfl <;> exact ⟨by simpa [modes, changeMode] using hs.primary,
    by simp [modes, changeMode]⟩

/-! ## The invariant -/

/-- What every run keeps. -/
structure Kept (c : DualConfig K) (s : DualCarriages K) : Prop where
  scaled : ∀ i, (s.dc i).Scaled
  paired : Paired s.modes
  saved : ∀ name saved, s.savedStates name = some saved → Paired saved.carriageModes
  homes : s.Homed → c.Homes s.axesPositions
  whole : s.wholeRange = true → ∃ i, Single s i
  kin : s.Homed → s.wholeRange = false → s.limits = s.getKinRange c s.activeMode
  visited : ∀ v ∈ s.visited, v.Safe c

theorem kept_start : Kept c (start : DualCarriages K) where
  scaled i := by cases i <;> simp [start, DualCarriagesRail.Scaled]
  paired := .inl ⟨rfl, by simp [modes, start]⟩
  saved name saved h := by simp [start] at h
  homes h := by
    have : ¬(1 : K) ≤ -1 := by linarith [one_pos (α := K)]
    exact absurd h this
  whole h := by simp [start] at h
  kin h _ := by
    have : ¬(1 : K) ≤ -1 := by linarith [one_pos (α := K)]
    exact absurd h this
  visited := by simp [start]

/-- A change of the modes. -/
theorem Kept.frame (h : Kept c s) (hf : Frame s t) (hp : Paired t.modes)
    (hw : t.wholeRange = true → ∃ i, Single t i)
    (hk : t.Homed → t.wholeRange = false → t.limits = t.getKinRange c t.activeMode) : Kept c t where
  scaled := hf.scaled
  paired := hp
  saved := by rw [hf.savedStates]; exact h.saved
  homes ht := by
    rw [hf.axesPositions]
    exact h.homes (hf.homed.1 ht)
  whole := hw
  kin := hk
  visited := by rw [hf.visited]; exact h.visited

theorem Kept.toggleActiveDcRail (h : Kept c s) (i : Carriage) (b : Bool) :
    Kept c (s.toggleActiveDcRail c i b) := by
  obtain ⟨hf, hs⟩ := frame_toggleActiveDcRail c h.scaled i b
  exact h.frame hf hs.paired (fun _ => ⟨i, hs⟩) fun _ hw => by
    simp [DualCarriages.toggleActiveDcRail] at hw

/-- One carriage is primary after a change. -/
theorem Kept.single (h : Kept c s) (hf : Frame s t) {i : Carriage} (hs : Single t i)
    (hw : t.wholeRange = false) (hk : t.Homed → t.limits = t.getKinRange c .primary) : Kept c t :=
  h.frame hf hs.paired (fun hw' => by simp [hw] at hw') fun ht _ => by
    rw [hs.activeMode]
    exact hk ht

theorem Kept.activatePrimary (h : Kept c s) (i : Carriage) :
    Kept c (s.activateDcMode c i .primary) :=
  h.single (frame_activateDcMode c h.scaled i .primary) (single_activateDcMode h.scaled i) rfl
    activateDcMode_limits

/-- Carriage 1 begins to follow carriage 0. -/
theorem Kept.activateFollow (h : Kept c s) (hf : Frame s t) {mode : CarriageMode}
    (hm : mode = .copy ∨ mode = .mirror) : Kept c (t.activateDcMode c .dc1 mode) := by
  obtain ⟨h0, h1⟩ := modes_activateDcMode hf.scaled hm
  refine h.frame (hf.trans (frame_activateDcMode c hf.scaled .dc1 mode)) (.inl ⟨h0, ?_⟩)
    (fun hw => by simp [activateDcMode] at hw) fun ht _ => ?_
  · rw [h1]
    rcases hm with rfl | rfl <;> simp
  · rw [activateDcMode_limits ht]
    unfold DualCarriages.activeMode
    rcases hm with rfl | rfl <;> rw [h1]

theorem Kept.cmdSetDualCarriage (h : Kept c s) (i : Carriage) (mode : CarriageMode) :
    Kept c (s.cmdSetDualCarriage c i mode) := by
  have hrefl : Frame s s := ⟨h.scaled, rfl, rfl, rfl, Iff.rfl⟩
  cases mode with
  | inactive => exact h
  | primary => exact h.activatePrimary i
  | copy =>
    simp only [DualCarriages.cmdSetDualCarriage]
    split_ifs with hi
    · exact hi.1 ▸ h.activateFollow hrefl (.inl rfl)
    · exact h
  | mirror =>
    simp only [DualCarriages.cmdSetDualCarriage]
    split_ifs with hi
    · exact hi.1 ▸ h.activateFollow hrefl (.inr rfl)
    · exact h

theorem modes_ext {m m' : Carriage → CarriageMode} (h0 : m .dc0 = m' .dc0)
    (h1 : m .dc1 = m' .dc1) : m = m' := by
  funext i
  cases i with
  | dc0 => exact h0
  | dc1 => exact h1

/-- The modes that are restored are the saved ones, and the carriages stay where they are. -/
theorem Kept.restoreModes (h : Kept c s) {saved : CarriageState K}
    (hp : Paired saved.carriageModes) :
    Kept c (s.restoreModes c saved) ∧ (s.restoreModes c saved).modes = saved.carriageModes ∧
      Frame s (s.restoreModes c saved) := by
  unfold DualCarriages.restoreModes
  have hf := frame_activateDcMode c h.scaled .dc0 (saved.carriageModes .dc0)
  have hft := hf.trans (frame_activateDcMode c hf.scaled .dc1 (saved.carriageModes .dc1))
  rcases hp with ⟨h0, h1⟩ | ⟨h0, h1⟩
  · rw [h0] at hf hft ⊢
    have hs := single_activateDcMode (c := c) h.scaled .dc0
    cases h1' : saved.carriageModes .dc1 with
    | primary => exact absurd h1' h1
    | inactive =>
      rw [h1'] at hft
      have hs' := single_activateDcMode_inactive (c := c) hs.primary
      refine ⟨h.single hft hs' rfl fun ht => ?_, modes_ext ?_ ?_, hft⟩
      · rw [activateDcMode_limits ht, hs'.getKinRange_inactive]
      · exact hs'.primary.trans h0.symm
      · exact hs'.inactive.trans h1'.symm
    | copy =>
      obtain ⟨hm0, hm1⟩ := modes_activateDcMode (c := c) hf.scaled (.inl rfl)
      rw [h1'] at hft
      exact ⟨h.activateFollow hf (.inl rfl), modes_ext (hm0.trans h0.symm) (hm1.trans h1'.symm),
        hft⟩
    | mirror =>
      obtain ⟨hm0, hm1⟩ := modes_activateDcMode (c := c) hf.scaled (.inr rfl)
      rw [h1'] at hft
      exact ⟨h.activateFollow hf (.inr rfl), modes_ext (hm0.trans h0.symm) (hm1.trans h1'.symm),
        hft⟩
  · rw [h1] at hft ⊢
    have hs := single_activateDcMode (c := c) hf.scaled .dc1
    exact ⟨h.single hft hs rfl activateDcMode_limits,
      modes_ext (hs.inactive.trans h0.symm) (hs.primary.trans h1.symm), hft⟩

end DualCarriages

/-! ## Limits that keep the carriages apart -/

namespace DualConfig

variable {c : DualConfig K}

/-- Carriages that home in the same direction do so at different positions. -/
def Ordered (c : DualConfig K) : Prop :=
  (c.rail .dc0).positiveDir = (c.rail .dc1).positiveDir →
    (c.rail .dc0).positionEndstop ≠ (c.rail .dc1).positionEndstop

/-- The order of the carriages is the same from either side. -/
theorem Ordered.getDcOrder (h : c.Ordered) :
    0 < c.getDcOrder .dc1 .dc0 ↔ ¬0 < c.getDcOrder .dc0 .dc1 := by
  unfold Ordered at h
  unfold DualConfig.getDcOrder
  cases h0 : (c.rail .dc0).positiveDir <;> cases h1 : (c.rail .dc1).positiveDir
  · have hne := h (by rw [h0, h1])
    rcases lt_or_gt_of_ne hne with hlt | hlt <;> simp [hlt, hlt.not_gt]
  · simp
  · simp
  · have hne := h (by rw [h0, h1])
    rcases lt_or_gt_of_ne hne with hlt | hlt <;> simp [hlt, hlt.not_gt]

/-- The carriages are apart, seen from one of them. -/
theorem Ordered.apart_iff (h : c.Ordered) (i : Carriage) (p : Carriage → K) :
    c.Apart p ↔ if 0 < c.getDcOrder i i.other then p i.other + c.safeDist ≤ p i
      else p i + c.safeDist ≤ p i.other := by
  cases i with
  | dc0 => rfl
  | dc1 =>
    have ho := h.getDcOrder
    unfold Apart
    by_cases hlt : 0 < c.getDcOrder .dc0 .dc1
    · simp [hlt, Carriage.other, ho]
    · simp [hlt, Carriage.other, ho]

end DualConfig

namespace DualCarriages

variable {c : DualConfig K} {s t : DualCarriages K}

/-- What `get_kin_range` finds for one primary carriage. -/
theorem Single.kinRange {i : Carriage} (h : Single s i) :
    s.kinRange c .primary =
      if 0 < c.getDcOrder i i.other then
        (max (c.rail i).positionMin (s.axesPositions i.other + c.safeDist), (c.rail i).positionMax)
      else ((c.rail i).positionMin,
        min (c.rail i).positionMax (s.axesPositions i.other - c.safeDist)) := by
  have hinactive := h.inactive
  split_ifs with hlt
  · cases i <;> simp only [Carriage.other] at hlt hinactive ⊢ <;>
      simp [DualCarriages.kinRange, DualCarriagesRail.isActive, h.primary, hinactive,
        Carriage.other, CarriageRail.range, hlt]
  · cases i <;> simp only [Carriage.other] at hlt hinactive ⊢ <;>
      simp [DualCarriages.kinRange, DualCarriagesRail.isActive, h.primary, hinactive,
        Carriage.other, CarriageRail.range, hlt]

/-- The limits for the present modes : they hold the present position, the carriages stay apart
within them, and a move does not change them. -/
structure Limits (c : DualConfig K) (s : DualCarriages K) : Prop where
  nonempty : (s.kinRange c s.activeMode).1 ≤ (s.kinRange c s.activeMode).2
  homes : ∀ x, (s.kinRange c s.activeMode).1 ≤ x → x ≤ (s.kinRange c s.activeMode).2 →
    (s.modes .dc1 = .mirror → (c.rail .dc1).Contains ((s.dc .dc1).getAxisPosition x)) →
    c.Homes ({ s with position := x } : DualCarriages K).axesPositions
  move : ∀ x, ({ s with position := x } : DualCarriages K).kinRange c s.activeMode =
    s.kinRange c s.activeMode

theorem Single.limits (ho : c.Ordered) (hsc : ∀ i, (s.dc i).Scaled) (hh : c.Homes s.axesPositions)
    {i : Carriage} (h : Single s i) : Limits c s := by
  have hmove (x : K) : Single ({ s with position := x } : DualCarriages K) i :=
    ⟨h.primary, h.inactive⟩
  have hother (x : K) : ({ s with position := x } : DualCarriages K).axesPositions i.other =
      s.axesPositions i.other := (hsc _).inactive h.inactive _ _
  have hself (x : K) : ({ s with position := x } : DualCarriages K).axesPositions i = x :=
    (hsc _).primary h.primary _
  have hapart := (ho.apart_iff i _).1 hh.apart
  have hrange := hh.contains i
  refine ⟨?_, fun x hlo hhi _ => ⟨fun j => ?_, ?_⟩, fun x => ?_⟩
  · rw [h.activeMode, h.kinRange]
    split_ifs at hapart ⊢ with hlt
    · exact max_le (c.rail i).min_lt_max.le (hapart.trans hrange.2)
    · exact le_min (c.rail i).min_lt_max.le (hrange.1.trans (le_sub_iff_add_le.2 hapart))
  · obtain rfl | rfl := i.eq_or_eq_other j
    · rw [hself]
      rw [h.activeMode, h.kinRange] at hlo hhi
      split_ifs at hlo hhi
      · exact ⟨(le_max_left _ _).trans hlo, hhi⟩
      · exact ⟨hlo, hhi.trans (min_le_left _ _)⟩
    · rw [hother]
      exact hh.contains _
  · rw [ho.apart_iff i, hother, hself]
    rw [h.activeMode, h.kinRange] at hlo hhi
    split_ifs at hlo hhi ⊢
    · exact (le_max_right _ _).trans hlo
    · exact le_sub_iff_add_le.1 (hhi.trans (min_le_right _ _))
  · rw [h.activeMode, h.kinRange, (hmove x).kinRange, hother]

/-- Carriage 1 copies carriage 0. -/
theorem limits_copy (hsc : ∀ i, (s.dc i).Scaled) (hh : c.Homes s.axesPositions)
    (h0 : s.modes .dc0 = .primary) (h1 : s.modes .dc1 = .copy) : Limits c s := by
  have hmode : s.activeMode = .copy := by simp [activeMode, h1]
  have hp0 : s.axesPositions .dc0 = s.position := (hsc _).primary h0 _
  have hx0 (x : K) : ({ s with position := x } : DualCarriages K).axesPositions .dc0 = x :=
    (hsc _).primary h0 _
  have hx1 (x : K) : ({ s with position := x } : DualCarriages K).axesPositions .dc1 =
      x - s.position + s.axesPositions .dc1 := (hsc _).copy h1 _ _
  have hrange : s.kinRange c s.activeMode =
      (max (c.rail .dc0).positionMin
        (s.position - s.axesPositions .dc1 + (c.rail .dc1).positionMin),
      min (c.rail .dc0).positionMax
        (s.position - s.axesPositions .dc1 + (c.rail .dc1).positionMax)) := by
    rw [hmode, ← hp0]
    simp only [kinRange, ne_eq, reduceCtorEq, not_false_eq_true, true_or, if_true,
      CarriageRail.range]
  obtain ⟨hmin0, hmax0⟩ := hh.contains .dc0
  obtain ⟨hmin1, hmax1⟩ := hh.contains .dc1
  have hapart := hh.apart
  rw [hp0] at hmin0 hmax0
  refine ⟨?_, fun x hlo hhi _ => ⟨fun i => ?_, ?_⟩, fun x => ?_⟩
  · rw [hrange]
    refine (max_le hmin0 ?_).trans (le_min hmax0 ?_) <;> linarith
  · rw [hrange] at hlo hhi
    cases i with
    | dc0 =>
      rw [hx0]
      exact ⟨(le_max_left _ _).trans hlo, hhi.trans (min_le_left _ _)⟩
    | dc1 =>
      rw [hx1]
      have hl := (le_max_right _ _).trans hlo
      have hu := hhi.trans (min_le_right _ _)
      constructor <;> linarith
  · unfold DualConfig.Apart at hapart ⊢
    rw [hx0, hx1]
    rw [hp0] at hapart
    split_ifs at hapart ⊢ <;> linarith
  · rw [hrange, hmode]
    have hdiff : x - (x - s.position + s.axesPositions .dc1) =
        s.position - s.axesPositions .dc1 := by ring
    simp only [kinRange, ne_eq, reduceCtorEq, not_false_eq_true, true_or, if_true,
      CarriageRail.range, hx0 x, hx1 x, hdiff]

/-- Carriage 1 mirrors carriage 0. -/
theorem limits_mirror (hsc : ∀ i, (s.dc i).Scaled) (hh : c.Homes s.axesPositions)
    (h0 : s.modes .dc0 = .primary) (h1 : s.modes .dc1 = .mirror) : Limits c s := by
  have hmode : s.activeMode = .mirror := by simp [activeMode, h1]
  have hp0 : s.axesPositions .dc0 = s.position := (hsc _).primary h0 _
  have hx0 (x : K) : ({ s with position := x } : DualCarriages K).axesPositions .dc0 = x :=
    (hsc _).primary h0 _
  have hx1 (x : K) : ({ s with position := x } : DualCarriages K).axesPositions .dc1 =
      s.position - x + s.axesPositions .dc1 := (hsc _).mirror h1 _ _
  have hrange : s.kinRange c s.activeMode =
      if 0 < c.getDcOrder .dc0 .dc1 then
        (max (c.rail .dc0).positionMin (1 / 2 * (s.position + s.axesPositions .dc1 + c.safeDist)),
          min (c.rail .dc0).positionMax
            (s.position + s.axesPositions .dc1 - (c.rail .dc1).positionMin))
      else
        (max (c.rail .dc0).positionMin
            (s.position + s.axesPositions .dc1 - (c.rail .dc1).positionMax),
          min (c.rail .dc0).positionMax
            (1 / 2 * (s.position + s.axesPositions .dc1 - c.safeDist))) := by
    rw [hmode, ← hp0]
    simp only [kinRange, ne_eq, reduceCtorEq, not_false_eq_true, true_or, if_true,
      CarriageRail.range]
  obtain ⟨hmin0, hmax0⟩ := hh.contains .dc0
  obtain ⟨hmin1, hmax1⟩ := hh.contains .dc1
  have hapart := hh.apart
  unfold DualConfig.Apart at hapart
  rw [hp0] at hmin0 hmax0 hapart
  refine ⟨?_, fun x hlo hhi hc => ⟨fun i => ?_, ?_⟩, fun x => ?_⟩
  · rw [hrange]
    split_ifs at hapart ⊢ <;>
      refine (max_le hmin0 ?_).trans (le_min hmax0 ?_) <;> linarith
  · cases i with
    | dc0 =>
      rw [hx0]
      rw [hrange] at hlo hhi
      split_ifs at hlo hhi <;>
        exact ⟨(le_max_left _ _).trans hlo, hhi.trans (min_le_left _ _)⟩
    | dc1 => exact hc h1
  · unfold DualConfig.Apart
    rw [hx0, hx1]
    rw [hrange] at hlo hhi
    split_ifs at hlo hhi ⊢
    · have hl := (le_max_right _ _).trans hlo
      linarith
    · have hu := hhi.trans (min_le_right _ _)
      linarith
  · rw [hrange, hmode]
    have hsum : x + (s.position - x + s.axesPositions .dc1) =
        s.position + s.axesPositions .dc1 := by ring
    simp only [kinRange, ne_eq, reduceCtorEq, not_false_eq_true, true_or, if_true,
      CarriageRail.range, hx0 x, hx1 x, hsum]

/-- The limits keep the carriages apart in every mode. -/
theorem Kept.limits (h : Kept c s) (ho : c.Ordered) (hh : s.Homed) : Limits c s := by
  have hhomes := h.homes hh
  rcases h.paired with ⟨h0, h1⟩ | ⟨h0, h1⟩
  · cases h1' : s.modes .dc1 with
    | inactive => exact Single.limits ho h.scaled hhomes (i := .dc0) ⟨h0, h1'⟩
    | primary => exact absurd h1' h1
    | copy => exact limits_copy h.scaled hhomes h0 h1'
    | mirror => exact limits_mirror h.scaled hhomes h0 h1'
  · exact Single.limits ho h.scaled hhomes (i := .dc1) ⟨h1, h0⟩

theorem Limits.getKinRange (h : Limits c s) (hd : 0 < c.safeDist) :
    s.getKinRange c s.activeMode = s.kinRange c s.activeMode := by
  simp only [DualCarriages.getKinRange, hd.ne', if_false, h.nonempty.not_gt]

theorem Limits.getKinRange_move (h : Limits c s) (x : K) :
    ({ s with position := x } : DualCarriages K).getKinRange c s.activeMode =
      s.getKinRange c s.activeMode := by
  simp only [DualCarriages.getKinRange, h.move x]

/-! ## Moves -/

theorem Kept.visit (h : Kept c s) : Kept c s.visit := by
  unfold DualCarriages.visit
  split_ifs with hh
  · exact
      { scaled := h.scaled
        paired := h.paired
        saved := h.saved
        homes := h.homes
        whole := fun hw => (h.whole hw).imp fun _ hi => ⟨hi.primary, hi.inactive⟩
        kin := h.kin
        visited := by
          intro v hv
          rcases List.mem_cons.1 hv with rfl | hv
          · exact ⟨fun i _ => (h.homes hh).contains i, (h.homes hh).apart⟩
          · exact h.visited v hv }
  · exact h

/-- A move that ends where the carriages are inside their ranges and apart. -/
theorem Kept.move (h : Kept c s) (ho : c.Ordered) {x others : K}
    (hx : s.Homed → s.limits.1 ≤ x → x ≤ s.limits.2 →
      c.Homes ({ s with position := x } : DualCarriages K).axesPositions)
    (hm : s.move x others = some t) : Kept c t := by
  unfold DualCarriages.move at hm
  split_ifs at hm with hshort hout
  · exact Option.some_inj.1 hm ▸ h
  · obtain rfl := Option.some_inj.1 hm
    have hhomes (hh : s.Homed) :
        c.Homes ({ s with position := x } : DualCarriages K).axesPositions := by
      by_cases hxs : x = s.position
      · subst hxs
        exact h.homes hh
      · simp only [ne_eq, hxs, not_false_eq_true, true_and, not_or, not_lt] at hout
        exact hx hh hout.1 hout.2
    have hu : Kept c ({ s with position := x } : DualCarriages K) :=
      { scaled := h.scaled
        paired := h.paired
        saved := h.saved
        homes := hhomes
        whole := fun hw => (h.whole hw).imp fun _ hi => ⟨hi.primary, hi.inactive⟩
        kin := fun hh hw =>
          (h.kin hh hw).trans ((h.limits ho hh).getKinRange_move x).symm
        visited := h.visited }
    exact hu.visit

/-- A move that meets the condition ends where the carriages are inside their ranges and apart. -/
theorem Kept.homes_move (h : Kept c s) (ho : c.Ordered) (hd : 0 < c.safeDist) {x others : K}
    (hg : Guarded c s (.move x others)) (hh : s.Homed) (hlo : s.limits.1 ≤ x)
    (hhi : x ≤ s.limits.2) :
    c.Homes ({ s with position := x } : DualCarriages K).axesPositions := by
  have hl := h.limits ho hh
  obtain ⟨hw, hmirror⟩ := hg hh hlo hhi
  cases hwhole : s.wholeRange with
  | true =>
    obtain ⟨i, hi⟩ := h.whole hwhole
    have hr := hw hwhole
    rw [← hi.activeMode, hl.getKinRange hd] at hr
    exact hl.homes x hr.1 hr.2 hmirror
  | false =>
    rw [h.kin hh hwhole, hl.getKinRange hd] at hlo hhi
    exact hl.homes x hlo hhi hmirror

/-- A move of the primary carriage. -/
theorem Single.axesPositions_move {i : Carriage} (hs : Single s i) (hsc : ∀ j, (s.dc j).Scaled)
    (x : K) : ({ s with position := x } : DualCarriages K).axesPositions =
      Function.update s.axesPositions i x := by
  funext j
  obtain rfl | rfl := i.eq_or_eq_other j
  · rw [Function.update_self]
    exact (hsc _).primary hs.primary x
  · rw [Function.update_of_ne i.other_ne]
    exact (hsc _).inactive hs.inactive _ _

@[simp] theorem visit_axesPositions : s.visit.axesPositions = s.axesPositions := by
  unfold visit
  split_ifs <;> rfl

@[simp] theorem visit_savedStates : s.visit.savedStates = s.savedStates := by
  unfold visit
  split_ifs <;> rfl

theorem visit_homed : s.visit.Homed ↔ s.Homed := by
  unfold visit
  split_ifs <;> rfl

/-- What a restored carriage does, if its position is apart from the other. -/
theorem Kept.restorePosition (h : Kept c s) (ho : c.Ordered) {saved : CarriageState K}
    {i : Carriage} (hg : s.Homed → (c.rail i).Contains (saved.axesPositions i) →
      c.Homes (Function.update s.axesPositions i (saved.axesPositions i))) :
    Kept c (s.restorePosition c saved i).1 := by
  have hu := h.toggleActiveDcRail i false
  obtain ⟨hf, hs⟩ := frame_toggleActiveDcRail c h.scaled i false
  unfold DualCarriages.restorePosition
  dsimp only
  cases ht : (s.toggleActiveDcRail c i false).move (saved.axesPositions i) 0 with
  | none => exact hu
  | some t =>
    refine hu.move ho (fun hh hlo hhi => ?_) ht
    rw [toggleActiveDcRail_limits h.scaled hh] at hlo hhi
    rw [hs.axesPositions_move hf.scaled, hf.axesPositions]
    exact hg (hf.homed.1 hh) ⟨hlo, hhi⟩

/-- A carriage that is restored without an error is at its saved position. -/
theorem restorePosition_axesPositions (hsc : ∀ j, (s.dc j).Scaled) {saved : CarriageState K}
    {i : Carriage} (hclose : saved.axesPositions i = s.axesPositions i ∨
      0.000000001 ≤ |saved.axesPositions i - s.axesPositions i|)
    (hr : s.restorePosition c saved i = (t, true)) :
    t.axesPositions = Function.update s.axesPositions i (saved.axesPositions i) ∧
      t.savedStates = s.savedStates ∧ (t.Homed ↔ s.Homed) := by
  obtain ⟨hf, hs⟩ := frame_toggleActiveDcRail c hsc i false
  have hpos : (s.toggleActiveDcRail c i false).position = s.axesPositions i := by
    rw [← hf.axesPositions]
    exact ((hf.scaled i).primary hs.primary _).symm
  unfold restorePosition at hr
  dsimp only at hr
  split at hr
  · simp at hr
  · rename_i u hm
    obtain rfl : u = t := by simpa using hr
    unfold DualCarriages.move at hm
    rw [hpos, add_zero] at hm
    split_ifs at hm with hshort hout
    · obtain rfl := Option.some_inj.1 hm
      have heq : saved.axesPositions i = s.axesPositions i := by
        refine hclose.resolve_right fun hle => hshort.not_ge ?_
        rw [← sq_abs (saved.axesPositions i - s.axesPositions i)]
        exact pow_le_pow_left₀ (by norm_num) hle 2
      refine ⟨?_, hf.savedStates, hf.homed⟩
      rw [hf.axesPositions, heq, Function.update_eq_self]
    · obtain rfl := Option.some_inj.1 hm
      refine ⟨?_, by simpa using hf.savedStates, visit_homed.trans hf.homed⟩
      rw [visit_axesPositions, hs.axesPositions_move hf.scaled, hf.axesPositions]

/-! ## Commands -/

/-- The moves of a restore that meets the condition. -/
theorem Kept.restorePositions (h : Kept c s) (ho : c.Ordered) {name : String}
    {saved : CarriageState K} (hs : s.savedStates name = some saved)
    (hg : Guarded c s (.restoreState name true)) : Kept c (s.restorePositions c saved).1 ∧
      ∀ t, s.restorePositions c saved = (t, true) →
        t.axesPositions = saved.axesPositions ∧ t.savedStates = s.savedStates := by
  obtain ⟨hclose, hapart⟩ := hg rfl saved hs
  have h0 : Kept c (s.restorePosition c saved .dc0).1 := by
    refine h.restorePosition ho fun hh hc => ⟨fun j => ?_, (hapart hh hc).1⟩
    cases j with
    | dc0 => simpa using hc
    | dc1 => simpa using (h.homes hh).contains .dc1
  unfold DualCarriages.restorePositions
  rcases hr : s.restorePosition c saved .dc0 with ⟨u, _ | _⟩
  · rw [hr] at h0
    exact ⟨h0, fun t ht => by simp at ht⟩
  · rw [hr] at h0
    dsimp only at h0 ⊢
    obtain ⟨hu, hsaved, hhomed⟩ := restorePosition_axesPositions h.scaled (hclose .dc0) hr
    have heq : Function.update u.axesPositions .dc1 (saved.axesPositions .dc1) =
        saved.axesPositions := by
      funext j
      cases j with
      | dc0 => simp [hu]
      | dc1 => simp
    refine ⟨h0.restorePosition ho fun hh hc => ?_, fun t ht => ?_⟩
    · rw [heq]
      have hc0 : (c.rail .dc0).Contains (saved.axesPositions .dc0) := by
        simpa [hu] using (h0.homes hh).contains .dc0
      refine ⟨fun j => ?_, (hapart (hhomed.1 hh) hc0).2 hc⟩
      cases j with
      | dc0 => exact hc0
      | dc1 => exact hc
    · have hclose1 : saved.axesPositions .dc1 = u.axesPositions .dc1 ∨
          0.000000001 ≤ |saved.axesPositions .dc1 - u.axesPositions .dc1| := by
        simpa [hu] using hclose .dc1
      obtain ⟨hp, hsaved', -⟩ := restorePosition_axesPositions h0.scaled hclose1 ht
      exact ⟨hp.trans heq, hsaved'.trans hsaved⟩

/-- A restore that meets the condition, and what it leads to. -/
theorem Kept.cmdRestoreDualCarriageState (h : Kept c s) (ho : c.Ordered) {name : String}
    {moving : Bool} (hg : Guarded c s (.restoreState name moving)) :
    Kept c (s.cmdRestoreDualCarriageState c name moving).1 ∧
      ∀ t, s.cmdRestoreDualCarriageState c name moving = (t, true) →
        ∃ saved, s.savedStates name = some saved ∧ t.modes = saved.carriageModes ∧
          t.axesPositions = if moving then saved.axesPositions else s.axesPositions := by
  unfold DualCarriages.cmdRestoreDualCarriageState
  cases hs : s.savedStates name with
  | none => exact ⟨h, fun t ht => by simp at ht⟩
  | some saved =>
    have hp := h.saved name saved hs
    cases moving with
    | false =>
      obtain ⟨hk, hm, hf⟩ := h.restoreModes hp
      simp only [Bool.false_eq_true, if_false]
      refine ⟨hk, fun t ht => ⟨saved, rfl, ?_⟩⟩
      obtain rfl : s.restoreModes c saved = t := congrArg Prod.fst ht
      exact ⟨hm, hf.axesPositions⟩
    | true =>
      obtain ⟨hk, hpos⟩ := h.restorePositions ho hs hg
      simp only [if_true]
      rcases hr : s.restorePositions c saved with ⟨u, _ | _⟩
      · rw [hr] at hk
        exact ⟨hk, fun t ht => by simp at ht⟩
      · rw [hr] at hk
        obtain ⟨hk', hm, hf⟩ := hk.restoreModes hp
        refine ⟨hk', fun t ht => ⟨saved, rfl, ?_⟩⟩
        obtain rfl : u.restoreModes c saved = t := congrArg Prod.fst ht
        exact ⟨hm, hf.axesPositions.trans (hpos u hr).1⟩

/-- A carriage homes. -/
theorem homeCarriage_spec (c : DualConfig K) (hsc : ∀ j, (s.dc j).Scaled) (i : Carriage) (x : K) :
    (∀ j, ((s.homeCarriage c i x).dc j).Scaled) ∧ Single (s.homeCarriage c i x) i ∧
      (s.homeCarriage c i x).axesPositions = Function.update s.axesPositions i x ∧
      (s.homeCarriage c i x).Homed ∧ (s.homeCarriage c i x).savedStates = s.savedStates ∧
      (s.homeCarriage c i x).visited = s.visited := by
  obtain ⟨hf, hs⟩ := frame_toggleActiveDcRail c hsc i true
  refine ⟨hf.scaled, ⟨hs.primary, hs.inactive⟩, ?_, ?_, hf.savedStates, hf.visited⟩
  · rw [← hf.axesPositions, ← hs.axesPositions_move hf.scaled]
    rfl
  · exact (c.rail _).min_lt_max.le

theorem Kept.home (h : Kept c s) {p : Carriage → K} (hp : c.Homes p) : Kept c (s.home c p) := by
  obtain ⟨hsc, _, hpos, _, hsaved, hv⟩ :=
    homeCarriage_spec c h.scaled (homesFirst c) (p (homesFirst c))
  obtain ⟨hsc', _, hpos', _, hsaved', hv'⟩ :=
    homeCarriage_spec c hsc (homesFirst c).other (p (homesFirst c).other)
  obtain ⟨hf, hs⟩ := frame_toggleActiveDcRail c hsc' .dc0 true
  have heq : (s.home c p).axesPositions = p := by
    refine hf.axesPositions.trans (hpos'.trans ?_)
    rw [hpos]
    funext j
    obtain rfl | hj := (homesFirst c).eq_or_eq_other j
    · simp
    · rw [hj, Function.update_self]
  exact
    { scaled := hf.scaled
      paired := hs.paired
      saved := by
        rw [show (s.home c p).savedStates = s.savedStates from
          hf.savedStates.trans (hsaved'.trans hsaved)]
        exact h.saved
      homes := fun _ => by rwa [heq]
      whole := fun _ => ⟨.dc0, hs⟩
      kin := fun _ hw => by simp [DualCarriages.home, DualCarriages.toggleActiveDcRail] at hw
      visited := by
        rw [show (s.home c p).visited = s.visited from hf.visited.trans (hv'.trans hv)]
        exact h.visited }

theorem not_homed_motorOff : ¬s.motorOff.Homed := by
  have hlt : (-1 : K) < 1 := by linarith [one_pos (α := K)]
  exact hlt.not_ge

/-- The axis is not homed any more. -/
theorem Kept.motorOff (h : Kept c s) : Kept c s.motorOff where
  scaled := h.scaled
  paired := h.paired
  saved := h.saved
  homes hh := absurd hh not_homed_motorOff
  whole hw := (h.whole hw).imp fun _ hi => ⟨hi.primary, hi.inactive⟩
  kin hh := absurd hh not_homed_motorOff
  visited := h.visited

/-- A carriage fails to home. -/
theorem Kept.homeCarriage_motorOff (h : Kept c s) (hsc : ∀ j, (t.dc j).Scaled)
    (hsaved : t.savedStates = s.savedStates) (hv : t.visited = s.visited) (i : Carriage) (x : K) :
    Kept c (t.homeCarriage c i x).motorOff := by
  obtain ⟨hsc', hs, -, -, hsaved', hv'⟩ := homeCarriage_spec c hsc i x
  have hsaved'' : (t.homeCarriage c i x).motorOff.savedStates = s.savedStates :=
    hsaved'.trans hsaved
  have hv'' : (t.homeCarriage c i x).motorOff.visited = s.visited := hv'.trans hv
  exact
    { scaled := hsc'
      paired := hs.paired
      saved := by rw [hsaved'']; exact h.saved
      homes := fun hh => absurd hh not_homed_motorOff
      whole := fun _ => ⟨i, hs.primary, hs.inactive⟩
      kin := fun hh => absurd hh not_homed_motorOff
      visited := by rw [hv'']; exact h.visited }

theorem Kept.homeFails (h : Kept c s) (first : Option K) (x : K) :
    Kept c (s.homeFails c first x) := by
  cases first with
  | none => exact h.homeCarriage_motorOff h.scaled rfl rfl _ x
  | some p =>
    obtain ⟨hsc, _, _, _, hsaved, hv⟩ := homeCarriage_spec c h.scaled (homesFirst c) p
    exact h.homeCarriage_motorOff hsc hsaved hv _ x

theorem Kept.cmdSaveDualCarriageState (h : Kept c s) (name : String) :
    Kept c (s.cmdSaveDualCarriageState name) where
  scaled := h.scaled
  paired := h.paired
  saved n saved hn := by
    by_cases heq : n = name
    · subst heq
      obtain rfl : _ = saved := by simpa [DualCarriages.cmdSaveDualCarriageState] using hn
      exact h.paired
    · exact h.saved n saved (by simpa [DualCarriages.cmdSaveDualCarriageState, heq] using hn)
  homes := h.homes
  whole hw := (h.whole hw).imp fun _ hi => ⟨hi.primary, hi.inactive⟩
  kin := h.kin
  visited := h.visited

/-- What one event keeps. -/
theorem Kept.next (h : Kept c s) (ho : c.Ordered) (hd : 0 < c.safeDist) {e : DualEvent K}
    (hg : Guarded c s e) (he : s.next c e = some t) : Kept c t := by
  cases e with
  | home p =>
    simp only [DualCarriages.next, Option.ite_none_right_eq_some, Option.some_inj] at he
    exact he.2 ▸ h.home he.1
  | homeFails first x => exact Option.some_inj.1 he ▸ h.homeFails first x
  | motorOff => exact Option.some_inj.1 he ▸ h.motorOff
  | setDualCarriage i mode => exact Option.some_inj.1 he ▸ h.cmdSetDualCarriage i mode
  | saveState name => exact Option.some_inj.1 he ▸ h.cmdSaveDualCarriageState name
  | restoreState name moving =>
    exact Option.some_inj.1 he ▸ (h.cmdRestoreDualCarriageState ho hg).1
  | move x others =>
    simp only [DualCarriages.next, Option.ite_none_right_eq_some, Option.some_inj] at he
    obtain ⟨-, rfl⟩ := he
    cases hm : s.move x others with
    | none => exact h
    | some t => exact h.move ho (h.homes_move ho hd hg) hm

/-- What every run keeps whose events meet the condition. -/
theorem kept_of_reachable (ho : c.Ordered) (hd : 0 < c.safeDist)
    (h : (system c).ReachableBy (Guarded c) s) : Kept c s := by
  refine h.invariant ?_ fun s e t hs hC he => hs.next ho hd hC he
  rintro s rfl
  exact kept_start

/-! ## Main result -/

/-- In a run whose events meet the condition, no change of the modes moves a carriage, one carriage
is primary, a state that is restored without an error is the saved one, and after every move the
active carriages were inside their ranges and the carriages apart. -/
theorem keepsDistance (ho : c.Ordered) (hd : 0 < c.safeDist)
    (h : (system c).ReachableBy (Guarded c) s) :
    (∀ i b, (s.toggleActiveDcRail c i b).axesPositions = s.axesPositions) ∧
      (∀ i mode, (s.activateDcMode c i mode).axesPositions = s.axesPositions) ∧
      (∃! i, s.modes i = .primary) ∧
      (∀ name moving t, Guarded c s (.restoreState name moving) →
        s.cmdRestoreDualCarriageState c name moving = (t, true) →
        ∃ saved, s.savedStates name = some saved ∧ t.modes = saved.carriageModes ∧
          t.axesPositions = if moving then saved.axesPositions else s.axesPositions) ∧
      ∀ v ∈ s.visited, v.Safe c := by
  have hk := kept_of_reachable ho hd h
  exact ⟨fun i b => (frame_toggleActiveDcRail c hk.scaled i b).1.axesPositions,
    fun i mode => (frame_activateDcMode c hk.scaled i mode).axesPositions, hk.paired.existsUnique,
    fun _ _ t hg ht => (hk.cmdRestoreDualCarriageState ho hg).2 t ht, hk.visited⟩

/-- Carriages that home away from each other, with ranges that overlap. -/
def overlapping : DualConfig ℚ where
  rail
    | .dc0 => ⟨0, 330, 0, false, by norm_num, by norm_num, by norm_num⟩
    | .dc1 => ⟨60, 360, 360, true, by norm_num, by norm_num, by norm_num⟩
  safeDistance := some 60
  safeDistance_nonneg := by simp

/-- Where the carriages of `overlapping` home. -/
def endstops : Carriage → ℚ
  | .dc0 => 0
  | .dc1 => 360

/-- A move is an event. -/
theorem next_move (x : K) {others : K} (h : 0 ≤ others) :
    (system c).next s (.move x others) = some ((s.move x others).getD s) :=
  if_pos h

theorem homes_endstops : overlapping.Homes endstops := by
  decide +kernel

/-- Both carriages home, and carriage 1 mirrors a move. -/
def mirrored : DualCarriages ℚ :=
  ((start.home overlapping endstops).cmdSetDualCarriage overlapping .dc1 .mirror)

theorem keepsDistance_mirrored : ∃ s, (system overlapping).ReachableBy (Guarded overlapping) s ∧
    s.visited.length = 1 ∧ ∀ v ∈ s.visited, v.Safe overlapping := by
  have hm : (system overlapping).ReachableBy (Guarded overlapping) mirrored :=
    .step (a := .setDualCarriage .dc1 .mirror)
      (.step (a := .home endstops) (.init rfl) trivial (if_pos homes_endstops)) trivial rfl
  have hg : Guarded overlapping mirrored (.move 100 0) := by
    simp only [Guarded]
    decide +kernel
  have hs : (system overlapping).ReachableBy (Guarded overlapping)
      ((mirrored.move 100 0).getD mirrored) :=
    hm.step hg (next_move (100 : ℚ) le_rfl)
  refine ⟨_, hs, by decide +kernel, (keepsDistance ?_ ?_ hs).2.2.2.2⟩
  · intro heq
    exact absurd heq (by decide)
  · decide +kernel

/-- The end of a move to 310 after both carriages have homed. -/
def tooClose : DualCarriages ℚ :=
  ((start.home overlapping endstops).move 310 0).getD (start.home overlapping endstops)

theorem visited_tooClose :
    tooClose.visited.map (fun v => (v.axesPositions .dc0, v.axesPositions .dc1)) =
      [(310, 360)] := by
  decide +kernel

/-- After homing, carriage 0 may come too close to the other. -/
theorem not_safe_homed : ¬∀ s, (system overlapping).Reachable s →
    ∀ v ∈ s.visited, v.Safe overlapping := by
  intro h
  have hs : (system overlapping).Reachable tooClose :=
    .step (a := .move 310 0)
      (.step (a := .home endstops) (.init rfl) trivial (if_pos homes_endstops)) trivial
      (next_move (310 : ℚ) le_rfl)
  obtain ⟨v, hv, heq⟩ := List.mem_map.1
    (visited_tooClose ▸ List.mem_singleton_self _ : ((310 : ℚ), (360 : ℚ)) ∈ _)
  have hapart : v.axesPositions .dc0 + overlapping.safeDist ≤ v.axesPositions .dc1 :=
    (h _ hs v hv).apart
  simp only [Prod.mk.injEq] at heq
  rw [heq.1, heq.2] at hapart
  revert hapart
  decide +kernel

end DualCarriages

end Thinker
