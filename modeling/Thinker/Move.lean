import Mathlib.Tactic
import Mathlib.Algebra.Order.Field.Basic
import Mathlib.Data.Fin.VecNotation
import Thinker.Numerals

/-!
# Move requests

`Move` of `toolhead.py` in exact arithmetic, over any ordered field. `math.sqrt` is a
parameter. A position has the axes x, y, z and e.
-/

set_option linter.unusedSectionVars false

namespace Thinker

variable {K : Type*} [Field K] [LinearOrder K] [IsStrictOrderedRing K]

/-- The four coordinates of a position. -/
abbrev Coord (K : Type*) := Fin 4 → K

/-- A `command_error` : the text with its place holders, and the numbers in their places. -/
structure CommandError (K : Type*) where
  text : String
  values : List K
  deriving DecidableEq, Repr

/-- The limits of the toolhead that a move starts with. -/
structure MoveLimits (K : Type*) where
  maxVelocity : K
  maxAccel : K
  maxAccelToDecel : K
  junctionDeviation : K

/-- The attributes of `Move` that planning reads. -/
structure Move (K : Type*) where
  startPos : Coord K
  endPos : Coord K
  accel : K
  junctionDeviation : K
  isKinematicMove : Bool
  axesD : Coord K
  moveD : K
  axesR : Coord K
  minMoveT : K
  maxStartV2 : K
  maxCruiseV2 : K
  deltaV2 : K
  maxSmoothedV2 : K
  smoothDeltaV2 : K

namespace Move

/-- `Move.__init__`. -/
def new (sqrt : K → K) (th : MoveLimits K) (startPos endPos : Coord K) (speed : K) : Move K :=
  let axesD : Coord K := fun i => endPos i - startPos i
  let moveD := sqrt (axesD 0 * axesD 0 + axesD 1 * axesD 1 + axesD 2 * axesD 2)
  if moveD < 0.000000001 then
    -- extrude only move
    let endPos : Coord K := ![startPos 0, startPos 1, startPos 2, endPos 3]
    let axesD : Coord K := ![0, 0, 0, axesD 3]
    let moveD := |axesD 3|
    let invMoveD := if moveD ≠ 0 then 1 / moveD else 0
    let accel := 99999999.9
    { startPos := startPos, endPos := endPos, accel := accel
      junctionDeviation := th.junctionDeviation, isKinematicMove := false
      axesD := axesD, moveD := moveD, axesR := fun i => axesD i * invMoveD
      minMoveT := moveD / speed, maxStartV2 := 0, maxCruiseV2 := speed ^ 2
      deltaV2 := 2 * moveD * accel, maxSmoothedV2 := 0
      smoothDeltaV2 := 2 * moveD * th.maxAccelToDecel }
  else
    let invMoveD := 1 / moveD
    let velocity := min speed th.maxVelocity
    { startPos := startPos, endPos := endPos, accel := th.maxAccel
      junctionDeviation := th.junctionDeviation, isKinematicMove := true
      axesD := axesD, moveD := moveD, axesR := fun i => axesD i * invMoveD
      minMoveT := moveD / velocity, maxStartV2 := 0, maxCruiseV2 := velocity ^ 2
      deltaV2 := 2 * moveD * th.maxAccel, maxSmoothedV2 := 0
      smoothDeltaV2 := 2 * moveD * th.maxAccelToDecel }

/-- `limit_speed`. -/
def limitSpeed (m : Move K) (speed accel : K) : Move K :=
  let speed2 := speed ^ 2
  let m := if speed2 < m.maxCruiseV2 then
    { m with maxCruiseV2 := speed2, minMoveT := m.moveD / speed } else m
  let accel := min m.accel accel
  let deltaV2 := 2 * m.moveD * accel
  { m with accel := accel, deltaV2 := deltaV2, smoothDeltaV2 := min m.smoothDeltaV2 deltaV2 }

/-- `move_error`. -/
def moveError (m : Move K) (msg : String) : CommandError K :=
  ⟨msg ++ ": %.3f %.3f %.3f [%.3f]", [m.endPos 0, m.endPos 1, m.endPos 2, m.endPos 3]⟩

/-! ## What a new move spans -/

/-- The distances of a new move lead from its start to its end. -/
theorem new_axesD (sqrt : K → K) (th : MoveLimits K) (p q : Coord K) (speed : K) (i : Fin 4) :
    (new sqrt th p q speed).axesD i = (new sqrt th p q speed).endPos i - p i := by
  simp only [new]
  split_ifs
  · fin_cases i <;> simp
  · fin_cases i <;> simp
  · rfl

/-- A move that is not kinematic moves the extruder only. -/
theorem new_axesD_eq_zero {sqrt : K → K} {th : MoveLimits K} {p q : Coord K} {speed : K}
    (h : (new sqrt th p q speed).isKinematicMove = false) (i : Fin 3) :
    (new sqrt th p q speed).axesD i.castSucc = 0 := by
  simp only [new] at h ⊢
  split_ifs at h ⊢
  all_goals fin_cases i <;> rfl

/-! ## What a speed limit changes -/

variable (m : Move K) (speed accel : K)

@[simp] theorem limitSpeed_endPos : (m.limitSpeed speed accel).endPos = m.endPos := by
  simp only [limitSpeed]
  split_ifs <;> rfl

@[simp] theorem limitSpeed_axesD : (m.limitSpeed speed accel).axesD = m.axesD := by
  simp only [limitSpeed]
  split_ifs <;> rfl

@[simp] theorem limitSpeed_moveD : (m.limitSpeed speed accel).moveD = m.moveD := by
  simp only [limitSpeed]
  split_ifs <;> rfl

@[simp] theorem limitSpeed_accel : (m.limitSpeed speed accel).accel = min m.accel accel := by
  simp only [limitSpeed]
  split_ifs <;> rfl

@[simp] theorem limitSpeed_maxCruiseV2 :
    (m.limitSpeed speed accel).maxCruiseV2 = min m.maxCruiseV2 (speed ^ 2) := by
  simp only [limitSpeed]
  split_ifs with h
  · exact (min_eq_right h.le).symm
  · exact (min_eq_left (not_lt.1 h)).symm

end Move

end Thinker
