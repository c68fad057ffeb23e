import Thinker.Move
import Thinker.Raises
import Mathlib.Data.Rat.Floor

/-!
# Positions after homing and probing

`HomingMove` and `Homing.home_rails` of `homing.py`, with the positions of `MCU_stepper` of
`stepper.py`, in exact arithmetic. A stepper has a commanded position and a step count on the micro
controller; the offset between the two is what `set_position` changes, so that the count stays
(`getMcuPosition_setPosition`).

A homing move ends with a new position of the toolhead, from the counts at which the steppers
stopped and the counts at which the endstops triggered. For kinematics with exact inverses it agrees
with both (`recovered_homingMove`). A stepper of two endstops has two records; the step counts are
kept by the name of the stepper, so the trigger of the last record is the one that counts.

Not modelled is the output to a file, where there is no micro controller to ask.
-/

set_option linter.unusedSectionVars false

namespace Thinker

variable {ι K : Type} [DecidableEq ι] [Field K] [LinearOrder K] [IsStrictOrderedRing K]
  [FloorRing K]

/-! ## Steppers -/

/-- The positions of `MCU_stepper`. -/
structure McuStepper (K : Type) [Field K] [LinearOrder K] where
  stepDist : K
  stepDist_pos : 0 < stepDist
  commandedPosition : K
  mcuPositionOffset : K

namespace McuStepper

variable (m : McuStepper K)

/-- `get_mcu_position`. -/
def getMcuPosition : ℤ :=
  let mcuPos := (m.commandedPosition + m.mcuPositionOffset) / m.stepDist
  if 0 ≤ mcuPos then ⌊mcuPos + 1 / 2⌋ else ⌈mcuPos - 1 / 2⌉

/-- `_set_mcu_position`. -/
def setMcuPosition (mcuPos : ℤ) : McuStepper K :=
  { m with mcuPositionOffset := mcuPos * m.stepDist - m.commandedPosition }

/-- `set_position`, given the position of the stepper at the coordinate. -/
def setPosition (pos : K) : McuStepper K :=
  { m with commandedPosition := pos }.setMcuPosition m.getMcuPosition

/-- `mcu_to_commanded_position`. -/
def mcuToCommandedPosition (mcuPos : ℤ) : K :=
  mcuPos * m.stepDist - m.mcuPositionOffset

@[simp] theorem stepDist_setMcuPosition (n : ℤ) : (m.setMcuPosition n).stepDist = m.stepDist :=
  rfl

/-- The count that was set is the one that is read. -/
@[simp] theorem getMcuPosition_setMcuPosition (n : ℤ) :
    (m.setMcuPosition n).getMcuPosition = n := by
  have hdist := m.stepDist_pos.ne'
  have hpos : (m.commandedPosition + (n * m.stepDist - m.commandedPosition)) / m.stepDist = n := by
    field_simp
    ring
  simp only [getMcuPosition, setMcuPosition, hpos]
  split_ifs with hn
  · rw [Int.floor_eq_iff]
    constructor <;> linarith
  · rw [Int.ceil_eq_iff]
    constructor <;> linarith

/-- A new position of the toolhead keeps the count. -/
@[simp] theorem getMcuPosition_setPosition (pos : K) :
    (m.setPosition pos).getMcuPosition = m.getMcuPosition :=
  getMcuPosition_setMcuPosition _ _

/-- After a new position, counts stand for positions as far from it as they are from the count. -/
theorem mcuToCommandedPosition_setPosition (pos : K) (n : ℤ) :
    (m.setPosition pos).mcuToCommandedPosition n = pos + (n - m.getMcuPosition) * m.stepDist := by
  simp only [mcuToCommandedPosition, setPosition, setMcuPosition]
  ring

end McuStepper

/-! ## Kinematics -/

/-- Kinematics whose `calc_position` and the `calc_position_from_coord` of whose steppers are
inverse to each other. -/
structure Kinematics (ι K : Type) where
  calcPositionFromCoord : ι → (Fin 3 → K) → K
  calcPosition : (ι → K) → Fin 3 → K
  fromCoord_calcPosition : ∀ pos s, calcPositionFromCoord s (calcPosition pos) = pos s
  calcPosition_fromCoord : ∀ coord, calcPosition (fun s => calcPositionFromCoord s coord) = coord

namespace Kinematics

/-- `CartKinematics`. -/
def cartesian : Kinematics (Fin 3) K where
  calcPositionFromCoord s coord := coord s
  calcPosition pos := pos
  fromCoord_calcPosition _ _ := rfl
  calcPosition_fromCoord _ := rfl

/-- `CoreXYKinematics`. -/
def corexy : Kinematics (Fin 3) K where
  calcPositionFromCoord s coord := ![coord 0 + coord 1, coord 0 - coord 1, coord 2] s
  calcPosition pos := ![1 / 2 * (pos 0 + pos 1), 1 / 2 * (pos 0 - pos 1), pos 2]
  fromCoord_calcPosition pos s := by
    fin_cases s <;> simp <;> ring
  calcPosition_fromCoord coord := by
    ext i
    fin_cases i <;> simp <;> ring

end Kinematics

/-! ## The toolhead -/

/-- The toolhead with its kinematics and their steppers, all moves made. -/
structure Toolhead (ι K : Type) [Field K] [LinearOrder K] where
  kin : Kinematics ι K
  commandedPos : Coord K
  steppers : ι → McuStepper K

namespace Toolhead

variable (th : Toolhead ι K)

/-- `calc_position_from_coord` at a position of the toolhead. -/
def stepperAt (s : ι) (pos : Coord K) : K :=
  th.kin.calcPositionFromCoord s (Fin.init pos)

/-- `set_position`. -/
def setPosition (newpos : Coord K) : Toolhead ι K :=
  { th with
    commandedPos := newpos
    steppers := fun s => (th.steppers s).setPosition (th.stepperAt s newpos) }

/-- `get_commanded_position` of the steppers. -/
def kinSpos (s : ι) : K :=
  (th.steppers s).commandedPosition

/-- `calc_toolhead_pos`. -/
def calcToolheadPos (kinSpos : ι → K) (offsets : ι → Option ℤ) : Coord K :=
  Fin.snoc (α := fun _ => K)
    (th.kin.calcPosition fun s => kinSpos s + (offsets s).getD 0 * (th.steppers s).stepDist)
    (th.commandedPos (Fin.last 3))

/-- The toolhead after a move, given its position and where the move has brought the steppers. -/
def moved (pos : Coord K) (kinSpos : ι → K) : Toolhead ι K :=
  { th with
    commandedPos := pos
    steppers := fun s => { th.steppers s with commandedPosition := kinSpos s } }

/-- `note_homing_end` of a stepper, with the count that its micro controller reports. -/
def noteHomingEnd (mcuPosition : ι → ℤ) (s : ι) : Toolhead ι K :=
  { th with
    steppers := Function.update th.steppers s ((th.steppers s).setMcuPosition (mcuPosition s)) }

@[simp] theorem commandedPos_setPosition (pos : Coord K) :
    (th.setPosition pos).commandedPos = pos :=
  rfl

@[simp] theorem stepperAt_setPosition (pos pos' : Coord K) (s : ι) :
    (th.setPosition pos).stepperAt s pos' = th.stepperAt s pos' :=
  rfl

@[simp] theorem steppers_setPosition (pos : Coord K) (s : ι) :
    (th.setPosition pos).steppers s = (th.steppers s).setPosition (th.stepperAt s pos) :=
  rfl

/-- The steppers are where the offsets put them. -/
@[simp] theorem stepperAt_calcToolheadPos (kinSpos : ι → K) (offsets : ι → Option ℤ) (s : ι) :
    th.stepperAt s (th.calcToolheadPos kinSpos offsets) =
      kinSpos s + (offsets s).getD 0 * (th.steppers s).stepDist := by
  rw [stepperAt, calcToolheadPos, Fin.init_snoc, th.kin.fromCoord_calcPosition]

/-- The end of the trsyncs of an endstop sets the counts of its steppers. -/
theorem foldl_noteHomingEnd (counts : ι → ℤ) (l : List ι) :
    l.foldl (noteHomingEnd · counts) th =
      { th with steppers := fun s =>
          if s ∈ l then (th.steppers s).setMcuPosition (counts s) else th.steppers s } := by
  induction l generalizing th with
  | nil => simp
  | cons a l ih =>
    rw [List.foldl_cons, ih]
    simp only [noteHomingEnd, Toolhead.mk.injEq, true_and]
    funext s
    by_cases hs : s = a
    · subst hs
      by_cases hl : s ∈ l
      · simp only [hl, if_true, List.mem_cons, or_true, Function.update_self]
        rfl
      · simp [hl]
    · simp [hs]

end Toolhead

/-! ## Homing moves -/

/-- An endstop with its name and the steppers that it stops. -/
structure McuEndstop (ι : Type) where
  name : String
  steppers : List ι

/-- How a move ends: its error, the position of the toolhead and the commanded positions of the
steppers. -/
structure MoveOutcome (ι K : Type) where
  error : Option String
  commandedPos : Coord K
  kinSpos : ι → K

/-- What the printer answers in the course of a homing move. -/
structure HomingOutcome (ι K : Type) where
  drip : MoveOutcome ι K
  moveEndPrintTime : K
  /-- The trigger time that `home_wait` returns, by the place of the endstop in the list. -/
  homeWait : ℕ → K
  /-- The counts at which the steppers stopped. -/
  mcuPosition : ι → ℤ
  pastMcuPosition : ι → K → ℤ
  /-- The error of a handler of `homing_move_end`. -/
  endError : Option String

/-- `StepperPosition`. -/
structure StepperPosition (ι : Type) where
  stepper : ι
  endstopName : String
  startPos : ℤ
  haltPos : ℤ
  trigPos : ℤ
  deriving DecidableEq, Repr

namespace StepperPosition

/-- A dict over the records by the names of their steppers: a later record takes the place of an
earlier one. -/
def stepsBy (f : StepperPosition ι → ℤ) (records : List (StepperPosition ι)) : ι → Option ℤ :=
  records.foldl (fun d sp => Function.update d sp.stepper (some (f sp))) fun _ => none

/-- The last record of a stepper. -/
def lastRecord (records : List (StepperPosition ι)) (s : ι) : Option (StepperPosition ι) :=
  records.reverse.find? fun sp => sp.stepper = s

/-- `check_no_movement`. -/
def checkNoMovement (records : List (StepperPosition ι)) : Option String :=
  (records.find? fun sp => sp.startPos = sp.trigPos).map (·.endstopName)

/-- Such a dict has the entries of the last records. -/
theorem stepsBy_eq_map (f : StepperPosition ι → ℤ) (records : List (StepperPosition ι)) (s : ι) :
    stepsBy f records s = (lastRecord records s).map f := by
  induction records using List.reverseRecOn with
  | nil => rfl
  | append_singleton records sp ih =>
    rw [lastRecord, List.reverse_concat, List.find?_cons, stepsBy, List.foldl_concat]
    by_cases hs : sp.stepper = s
    · simp [hs]
    · rw [Function.update_of_ne (Ne.symm hs)]
      simpa [hs, stepsBy, lastRecord] using ih

/-- The last record of a stepper is one of its records. -/
theorem lastRecord_eq_some {records : List (StepperPosition ι)} {s : ι} {sp : StepperPosition ι}
    (h : lastRecord records s = some sp) : sp ∈ records ∧ sp.stepper = s :=
  ⟨List.mem_reverse.1 (List.mem_of_find?_eq_some h), by simpa using List.find?_some h⟩

/-- A stepper without a last record has none. -/
theorem lastRecord_eq_none_iff {records : List (StepperPosition ι)} {s : ι} :
    lastRecord records s = none ↔ ∀ sp ∈ records, sp.stepper ≠ s := by
  simp [lastRecord]

end StepperPosition

/-- The loop that waits for the endstops: the toolhead, `trigger_times` and the first error. -/
structure HomingWait (ι K : Type) [Field K] [LinearOrder K] where
  toolhead : Toolhead ι K
  triggerTimes : String → Option K
  error : Option String

/-- One endstop of the loop. -/
def HomingWait.step (out : HomingOutcome ι K) (checkTriggered : Bool) (w : HomingWait ι K)
    (endstop : McuEndstop ι × ℕ) : HomingWait ι K :=
  let triggerTime := out.homeWait endstop.2
  let w := { w with
    toolhead := endstop.1.steppers.foldl (·.noteHomingEnd out.mcuPosition) w.toolhead }
  let name := endstop.1.name
  if 0 < triggerTime then
    { w with triggerTimes := Function.update w.triggerTimes name (some triggerTime) }
  else if triggerTime < 0 ∧ w.error = none then
    { w with error := some ("Communication timeout during homing " ++ name) }
  else if checkTriggered ∧ w.error = none then
    { w with error := some ("No trigger on " ++ name ++ " after full movement") }
  else w

/-- The position that `homing_move` returns, the toolhead that it leaves and its records. -/
structure HomingResult (ι K : Type) [Field K] [LinearOrder K] where
  trigpos : Coord K
  toolhead : Toolhead ι K
  stepperPositions : List (StepperPosition ι)

namespace Toolhead

variable (th : Toolhead ι K) (endstops : List (McuEndstop ι)) (movepos : Coord K)
  (probePos checkTriggered : Bool) (out : HomingOutcome ι K)

/-- The toolhead after the drip move, and the loop over the endstops after it. -/
def waitEndstops : HomingWait ι K :=
  endstops.zipIdx.foldl (HomingWait.step out checkTriggered)
    ⟨th.moved out.drip.commandedPos out.drip.kinSpos, fun _ => none,
      out.drip.error.map ("Error during homing move: " ++ ·)⟩

/-- The records of the steppers. The count at the start is read before the move. -/
def stepperPositions (w : HomingWait ι K) : List (StepperPosition ι) :=
  endstops.flatMap fun endstop => endstop.steppers.map fun s =>
    { stepper := s
      endstopName := endstop.name
      startPos := (th.steppers s).getMcuPosition
      haltPos := (w.toolhead.steppers s).getMcuPosition
      trigPos := out.pastMcuPosition s
        ((w.triggerTimes endstop.name).getD out.moveEndPrintTime) }

/-- `trigpos` and `haltpos` of `homing_move`, with the commanded positions before the move. -/
def trigAndHaltPos (kinSpos : ι → K) (records : List (StepperPosition ι)) : Coord K × Coord K :=
  if probePos then
    let haltSteps := StepperPosition.stepsBy (fun sp => sp.haltPos - sp.startPos) records
    let trigSteps := StepperPosition.stepsBy (fun sp => sp.trigPos - sp.startPos) records
    let trigpos := th.calcToolheadPos kinSpos trigSteps
    if ∃ sp ∈ records, trigSteps sp.stepper ≠ haltSteps sp.stepper then
      (trigpos, th.calcToolheadPos kinSpos haltSteps)
    else (trigpos, trigpos)
  else
    let overSteps := StepperPosition.stepsBy (fun sp => sp.haltPos - sp.trigPos) records
    if ∃ sp ∈ records, overSteps sp.stepper ≠ some 0 then
      let th := th.setPosition movepos
      (movepos, th.calcToolheadPos th.kinSpos overSteps)
    else (movepos, movepos)

/-- `homing_move`. The rate of an endstop without steppers is the maximum of nothing. -/
def homingMove : Except String (HomingResult ι K) :=
  if ∃ endstop ∈ endstops, endstop.steppers = [] then
    .error "max() arg is an empty sequence"
  else
    let w := th.waitEndstops endstops checkTriggered out
    let records := th.stepperPositions endstops out w
    let pos := w.toolhead.trigAndHaltPos movepos probePos th.kinSpos records
    match w.error <|> out.endError with
    | some error => .error error
    | none => .ok ⟨pos.1, w.toolhead.setPosition pos.2, records⟩

end Toolhead

/-! ## What a homing move recovers -/

/-- One endstop sets the counts of its steppers. -/
@[simp] theorem HomingWait.toolhead_step (out : HomingOutcome ι K) (checkTriggered : Bool)
    (w : HomingWait ι K) (endstop : McuEndstop ι × ℕ) :
    (w.step out checkTriggered endstop).toolhead =
      endstop.1.steppers.foldl (·.noteHomingEnd out.mcuPosition) w.toolhead := by
  unfold HomingWait.step
  dsimp only
  split_ifs <;> rfl

/-- The loop sets the counts of the steppers of all endstops. -/
theorem HomingWait.toolhead_foldl (out : HomingOutcome ι K) (checkTriggered : Bool)
    (w : HomingWait ι K) (l : List (McuEndstop ι × ℕ)) :
    (l.foldl (HomingWait.step out checkTriggered) w).toolhead =
      (l.flatMap (·.1.steppers)).foldl (·.noteHomingEnd out.mcuPosition) w.toolhead := by
  induction l generalizing w with
  | nil => rfl
  | cons endstop l ih => rw [List.foldl_cons, ih, HomingWait.toolhead_step, List.flatMap_cons,
      List.foldl_append]

namespace Toolhead

variable {th : Toolhead ι K} {endstops : List (McuEndstop ι)} {movepos : Coord K}
  {probePos checkTriggered : Bool} {out : HomingOutcome ι K} {res : HomingResult ι K}

/-- After the wait the steppers of endstops have the counts that are reported, the others what the
move has brought them to. -/
theorem toolhead_waitEndstops (th : Toolhead ι K) (endstops : List (McuEndstop ι))
    (checkTriggered : Bool) (out : HomingOutcome ι K) :
    (th.waitEndstops endstops checkTriggered out).toolhead =
      let moved := th.moved out.drip.commandedPos out.drip.kinSpos
      { moved with steppers := fun s =>
          if ∃ endstop ∈ endstops, s ∈ endstop.steppers then
            (moved.steppers s).setMcuPosition (out.mcuPosition s)
          else moved.steppers s } := by
  have hzip : endstops.zipIdx.flatMap (·.1.steppers) = endstops.flatMap (·.steppers) := by
    conv_rhs => rw [← List.zipIdx_map_fst 0 endstops, List.flatMap_map]
  rw [waitEndstops, HomingWait.toolhead_foldl, foldl_noteHomingEnd, hzip]
  simp only [List.mem_flatMap]

/-- A homing move that raises nothing. -/
theorem homingMove_eq_ok
    (h : th.homingMove endstops movepos probePos checkTriggered out = .ok res) :
    ∃ w, w = th.waitEndstops endstops checkTriggered out ∧
      res.stepperPositions = th.stepperPositions endstops out w ∧
      res.trigpos = (w.toolhead.trigAndHaltPos movepos probePos th.kinSpos
        res.stepperPositions).1 ∧
      res.toolhead = w.toolhead.setPosition (w.toolhead.trigAndHaltPos movepos probePos
        th.kinSpos res.stepperPositions).2 := by
  unfold homingMove at h
  split at h
  · cases h
  · dsimp only at h
    split at h
    · cases h
    · cases h
      exact ⟨_, rfl, rfl, rfl, rfl⟩

/-- What the last record of a stepper says, 0 for a stepper without one. -/
def lastSteps (f : StepperPosition ι → ℤ) (records : List (StepperPosition ι)) (s : ι) : ℤ :=
  ((StepperPosition.lastRecord records s).map f).getD 0

/-- After probing the steppers are, from where they started, as far as their last records say. -/
theorem stepperAt_trigAndHaltPos_probe (th : Toolhead ι K) (movepos : Coord K) (kinSpos : ι → K)
    (records : List (StepperPosition ι)) (s : ι) :
    th.stepperAt s (th.trigAndHaltPos movepos true kinSpos records).1 =
        kinSpos s + lastSteps (fun sp => sp.trigPos - sp.startPos) records s *
          (th.steppers s).stepDist ∧
      th.stepperAt s (th.trigAndHaltPos movepos true kinSpos records).2 =
        kinSpos s + lastSteps (fun sp => sp.haltPos - sp.startPos) records s *
          (th.steppers s).stepDist := by
  simp only [trigAndHaltPos, if_true]
  split_ifs with hne
  · simp [lastSteps, StepperPosition.stepsBy_eq_map]
  · -- the dicts are equal, so one position serves for both
    have heq : StepperPosition.stepsBy (fun sp => sp.trigPos - sp.startPos) records s =
        StepperPosition.stepsBy (fun sp => sp.haltPos - sp.startPos) records s := by
      cases hlast : StepperPosition.lastRecord records s with
      | none => simp [StepperPosition.stepsBy_eq_map, hlast]
      | some sp =>
        obtain ⟨hsp, rfl⟩ := StepperPosition.lastRecord_eq_some hlast
        by_contra h
        exact hne ⟨sp, hsp, h⟩
    constructor
    · simp [lastSteps, StepperPosition.stepsBy_eq_map]
    · rw [stepperAt_calcToolheadPos, heq, StepperPosition.stepsBy_eq_map]
      rfl

/-- After homing the steppers are, from the target of the move, as far as they went on after the
trigger of their last records. -/
theorem stepperAt_trigAndHaltPos_home (th : Toolhead ι K) (movepos : Coord K) (kinSpos : ι → K)
    (records : List (StepperPosition ι)) (s : ι) :
    (th.trigAndHaltPos movepos false kinSpos records).1 = movepos ∧
      th.stepperAt s (th.trigAndHaltPos movepos false kinSpos records).2 =
        th.stepperAt s movepos + lastSteps (fun sp => sp.haltPos - sp.trigPos) records s *
          (th.steppers s).stepDist := by
  simp only [trigAndHaltPos, Bool.false_eq_true, if_false]
  split_ifs with hne
  · refine ⟨rfl, ?_⟩
    have hcalc := (th.setPosition movepos).stepperAt_calcToolheadPos
      (th.setPosition movepos).kinSpos
      (StepperPosition.stepsBy (fun sp => sp.haltPos - sp.trigPos) records) s
    rw [StepperPosition.stepsBy_eq_map] at hcalc
    exact hcalc
  · refine ⟨rfl, ?_⟩
    have hzero : lastSteps (fun sp => sp.haltPos - sp.trigPos) records s = 0 := by
      rw [lastSteps]
      cases hlast : StepperPosition.lastRecord records s with
      | none => rfl
      | some sp =>
        obtain ⟨hsp, rfl⟩ := StepperPosition.lastRecord_eq_some hlast
        have hover : StepperPosition.stepsBy (fun sp => sp.haltPos - sp.trigPos) records sp.stepper
            = some 0 := by
          by_contra h
          exact hne ⟨sp, hsp, h⟩
        rw [StepperPosition.stepsBy_eq_map, hlast] at hover
        rw [hover]
        rfl
    simp [hzero]

/-- A record of a homing move agrees with the position that the move sets and the one that it
returns. -/
structure Recovers (th : Toolhead ι K) (movepos : Coord K) (probePos : Bool)
    (res : HomingResult ι K) (sp : StepperPosition ι) : Prop where
  probed : probePos = true →
    res.toolhead.stepperAt sp.stepper res.toolhead.commandedPos - th.kinSpos sp.stepper =
      (sp.haltPos - sp.startPos) * (th.steppers sp.stepper).stepDist
  homed : probePos = false →
    res.toolhead.stepperAt sp.stepper res.toolhead.commandedPos -
        res.toolhead.stepperAt sp.stepper movepos =
      (sp.haltPos - sp.trigPos) * (th.steppers sp.stepper).stepDist
  returned : (res.toolhead.steppers sp.stepper).mcuToCommandedPosition sp.trigPos =
    res.toolhead.stepperAt sp.stepper res.trigpos

/-- The true count of a stepper after the drip move: as reported when an endstop stopped it, else
as far as the move has brought it. -/
def trueCount (th : Toolhead ι K) (endstops : List (McuEndstop ι)) (out : HomingOutcome ι K)
    (s : ι) : ℤ :=
  if ∃ endstop ∈ endstops, s ∈ endstop.steppers then out.mcuPosition s
  else ((th.moved out.drip.commandedPos out.drip.kinSpos).steppers s).getMcuPosition

/-- What a homing move recovers. -/
structure Recovered (th : Toolhead ι K) (endstops : List (McuEndstop ι)) (movepos : Coord K)
    (probePos checkTriggered : Bool) (out : HomingOutcome ι K) (res : HomingResult ι K) : Prop where
  /-- The records hold the counts at the start, at the halt and at the trigger of the endstop. -/
  records : ∀ sp ∈ res.stepperPositions, sp.startPos = (th.steppers sp.stepper).getMcuPosition ∧
    sp.haltPos = out.mcuPosition sp.stepper ∧
    sp.trigPos = out.pastMcuPosition sp.stepper
      (((th.waitEndstops endstops checkTriggered out).triggerTimes sp.endstopName).getD
        out.moveEndPrintTime)
  /-- Every stepper of an endstop is at the position of its last record. -/
  last : ∀ endstop ∈ endstops, ∀ s ∈ endstop.steppers, ∃ sp,
    StepperPosition.lastRecord res.stepperPositions s = some sp ∧ sp.stepper = s ∧
      th.Recovers movepos probePos res sp
  /-- The steppers of no endstop have not moved. -/
  others : ∀ s, (∀ endstop ∈ endstops, s ∉ endstop.steppers) →
    res.toolhead.stepperAt s res.toolhead.commandedPos =
        (if probePos then th.kinSpos s else res.toolhead.stepperAt s movepos) ∧
      res.toolhead.stepperAt s res.trigpos =
        res.toolhead.stepperAt s res.toolhead.commandedPos
  /-- The counts are the true ones, now and after every new position. -/
  counts : ∀ s, (res.toolhead.steppers s).getMcuPosition = th.trueCount endstops out s ∧
    ∀ pos, ((res.toolhead.setPosition pos).steppers s).getMcuPosition =
      th.trueCount endstops out s

/-- The wait leaves the true counts. -/
theorem getMcuPosition_waitEndstops (th : Toolhead ι K) (endstops : List (McuEndstop ι))
    (checkTriggered : Bool) (out : HomingOutcome ι K) (s : ι) :
    ((th.waitEndstops endstops checkTriggered out).toolhead.steppers s).getMcuPosition =
      th.trueCount endstops out s := by
  rw [toolhead_waitEndstops, trueCount]
  dsimp only
  split_ifs
  · exact McuStepper.getMcuPosition_setMcuPosition _ _
  · rfl

/-- The wait changes no step distance. -/
theorem stepDist_waitEndstops (th : Toolhead ι K) (endstops : List (McuEndstop ι))
    (checkTriggered : Bool) (out : HomingOutcome ι K) (s : ι) :
    ((th.waitEndstops endstops checkTriggered out).toolhead.steppers s).stepDist =
      (th.steppers s).stepDist := by
  rw [toolhead_waitEndstops]
  dsimp only
  split_ifs
  · exact McuStepper.stepDist_setMcuPosition _ _
  · rfl

/-- The records of a homing move. -/
theorem mem_stepperPositions {w : HomingWait ι K} {sp : StepperPosition ι} :
    sp ∈ th.stepperPositions endstops out w ↔ ∃ endstop ∈ endstops, ∃ s ∈ endstop.steppers,
      { stepper := s
        endstopName := endstop.name
        startPos := (th.steppers s).getMcuPosition
        haltPos := (w.toolhead.steppers s).getMcuPosition
        trigPos := out.pastMcuPosition s
          ((w.triggerTimes endstop.name).getD out.moveEndPrintTime) } = sp := by
  simp only [stepperPositions, List.mem_flatMap, List.mem_map]

/-- The steppers at the position that a homing move sets and at the one that it returns. -/
theorem stepperAt_homingMove
    (h : th.homingMove endstops movepos probePos checkTriggered out = .ok res) (s : ι) :
    res.toolhead.stepperAt s res.toolhead.commandedPos =
        (if probePos then
          th.kinSpos s + lastSteps (fun sp => sp.haltPos - sp.startPos) res.stepperPositions s *
            (th.steppers s).stepDist
        else
          res.toolhead.stepperAt s movepos +
            lastSteps (fun sp => sp.haltPos - sp.trigPos) res.stepperPositions s *
              (th.steppers s).stepDist) ∧
      res.toolhead.stepperAt s res.trigpos =
        if probePos then
          th.kinSpos s + lastSteps (fun sp => sp.trigPos - sp.startPos) res.stepperPositions s *
            (th.steppers s).stepDist
        else res.toolhead.stepperAt s movepos := by
  obtain ⟨w, hw, -, htrig, htool⟩ := homingMove_eq_ok h
  have hdist : (w.toolhead.steppers s).stepDist = (th.steppers s).stepDist :=
    hw ▸ stepDist_waitEndstops ..
  have hat : ∀ pos, res.toolhead.stepperAt s pos = w.toolhead.stepperAt s pos := by
    intro pos
    rw [htool, stepperAt_setPosition]
  have hP : res.toolhead.commandedPos =
      (w.toolhead.trigAndHaltPos movepos probePos th.kinSpos res.stepperPositions).2 := by
    rw [htool, commandedPos_setPosition]
  simp only [hat, hP, htrig]
  cases probePos with
  | true =>
    have ⟨htrigAt, hhaltAt⟩ := w.toolhead.stepperAt_trigAndHaltPos_probe movepos th.kinSpos
      res.stepperPositions s
    rw [hdist] at htrigAt hhaltAt
    exact ⟨hhaltAt, htrigAt⟩
  | false =>
    have ⟨hmove, hhaltAt⟩ := w.toolhead.stepperAt_trigAndHaltPos_home movepos th.kinSpos
      res.stepperPositions s
    rw [hdist] at hhaltAt
    refine ⟨hhaltAt, ?_⟩
    rw [hmove]
    rfl

/-- A homing move leaves the true counts. -/
theorem getMcuPosition_homingMove
    (h : th.homingMove endstops movepos probePos checkTriggered out = .ok res) (s : ι) :
    (res.toolhead.steppers s).getMcuPosition = th.trueCount endstops out s := by
  obtain ⟨w, hw, -, -, htool⟩ := homingMove_eq_ok h
  rw [htool, steppers_setPosition, McuStepper.getMcuPosition_setPosition, hw,
    getMcuPosition_waitEndstops]

/-- Counts of a stepper stand for positions as far from the one that is set as they are from the
true count. -/
theorem mcuToCommandedPosition_homingMove
    (h : th.homingMove endstops movepos probePos checkTriggered out = .ok res) (s : ι) (n : ℤ) :
    (res.toolhead.steppers s).mcuToCommandedPosition n =
      res.toolhead.stepperAt s res.toolhead.commandedPos +
        (n - th.trueCount endstops out s) * (th.steppers s).stepDist := by
  obtain ⟨w, hw, -, -, htool⟩ := homingMove_eq_ok h
  have hdist : (w.toolhead.steppers s).stepDist = (th.steppers s).stepDist :=
    hw ▸ stepDist_waitEndstops ..
  rw [htool, steppers_setPosition, McuStepper.mcuToCommandedPosition_setPosition, hdist, hw,
    getMcuPosition_waitEndstops]
  rfl

/-- The last record of a stepper agrees with the positions of the move. -/
theorem recovers_lastRecord
    (h : th.homingMove endstops movepos probePos checkTriggered out = .ok res)
    {sp : StepperPosition ι}
    (hlast : StepperPosition.lastRecord res.stepperPositions sp.stepper = some sp)
    (hhalt : sp.haltPos = th.trueCount endstops out sp.stepper) :
    th.Recovers movepos probePos res sp := by
  have ⟨hset, hret⟩ := stepperAt_homingMove h sp.stepper
  have hcount := mcuToCommandedPosition_homingMove h sp.stepper sp.trigPos
  simp only [lastSteps, hlast, Option.map_some, Option.getD_some] at hset hret
  rw [← hhalt] at hcount
  cases probePos with
  | true =>
    simp only [if_true] at hset hret
    refine ⟨fun _ => ?_, nofun, ?_⟩
    · rw [hset]
      push_cast
      ring
    · rw [hcount, hset, hret]
      push_cast
      ring
  | false =>
    simp only [Bool.false_eq_true, if_false] at hset hret
    refine ⟨nofun, fun _ => ?_, ?_⟩
    · rw [hset]
      push_cast
      ring
    · rw [hcount, hset, hret]
      push_cast
      ring

/-- The records of a homing move hold the counts at its start, at the halts and at the triggers. -/
theorem records_homingMove
    (h : th.homingMove endstops movepos probePos checkTriggered out = .ok res)
    {sp : StepperPosition ι} (hsp : sp ∈ res.stepperPositions) :
    (∃ endstop ∈ endstops, sp.stepper ∈ endstop.steppers) ∧
      sp.startPos = (th.steppers sp.stepper).getMcuPosition ∧
      sp.haltPos = out.mcuPosition sp.stepper ∧
      sp.trigPos = out.pastMcuPosition sp.stepper
        (((th.waitEndstops endstops checkTriggered out).triggerTimes sp.endstopName).getD
          out.moveEndPrintTime) := by
  obtain ⟨w, hw, hrec, -⟩ := homingMove_eq_ok h
  rw [hrec, mem_stepperPositions] at hsp
  obtain ⟨endstop, hend, s, hs, rfl⟩ := hsp
  refine ⟨⟨endstop, hend, hs⟩, rfl, ?_, by rw [hw]⟩
  rw [hw, getMcuPosition_waitEndstops, trueCount, if_pos ⟨endstop, hend, hs⟩]

/-- A homing move that raises no error recovers the positions. -/
theorem recovered_homingMove
    (h : th.homingMove endstops movepos probePos checkTriggered out = .ok res) :
    th.Recovered endstops movepos probePos checkTriggered out res where
  records _ hsp := (records_homingMove h hsp).2
  last := by
    intro endstop hend s hs
    obtain ⟨w, -, hrec, -⟩ := homingMove_eq_ok h
    cases hlast : StepperPosition.lastRecord res.stepperPositions s with
    | none =>
      have hno := StepperPosition.lastRecord_eq_none_iff.1 hlast
      rw [hrec] at hno
      exact absurd rfl (hno _ (mem_stepperPositions.2 ⟨endstop, hend, s, hs, rfl⟩))
    | some sp =>
      obtain ⟨hsp, rfl⟩ := StepperPosition.lastRecord_eq_some hlast
      have hhalt : sp.haltPos = th.trueCount endstops out sp.stepper := by
        rw [trueCount, if_pos ⟨endstop, hend, hs⟩]
        exact (records_homingMove h hsp).2.2.1
      exact ⟨sp, rfl, rfl, recovers_lastRecord h hlast hhalt⟩
  others := by
    intro s hs
    have hlast : StepperPosition.lastRecord res.stepperPositions s = none := by
      rw [StepperPosition.lastRecord_eq_none_iff]
      rintro sp hsp rfl
      obtain ⟨⟨endstop, hend, hmem⟩, -⟩ := records_homingMove h hsp
      exact hs endstop hend hmem
    have ⟨hset, hret⟩ := stepperAt_homingMove h s
    simp only [lastSteps, hlast, Option.map_none, Option.getD_none, Int.cast_zero, zero_mul,
      add_zero] at hset hret
    exact ⟨hset, hret.trans hset.symm⟩
  counts s := by
    refine ⟨getMcuPosition_homingMove h s, fun pos => ?_⟩
    rw [steppers_setPosition, McuStepper.getMcuPosition_setPosition]
    exact getMcuPosition_homingMove h s

/-! ## Homing rails -/

/-- `_fill_coord`. -/
def fillCoord (th : Toolhead ι K) (coord : Fin 4 → Option K) : Coord K :=
  fun i => (coord i).getD (th.commandedPos i)

/-- The end of `home_rails`, with the offsets that the handlers of `home_rails_end` have set. -/
def applyAdjust (th : Toolhead ι K) (forcepos : Fin 4 → Option K) (adjustPos : List (ι × K)) :
    Toolhead ι K :=
  if ∃ entry ∈ adjustPos, entry.2 ≠ 0 then
    let newpos := th.kin.calcPosition fun s => th.kinSpos s + (adjustPos.lookup s).getD 0
    th.setPosition <| Fin.snoc (α := fun _ => K)
      (fun i : Fin 3 => if (forcepos i.castSucc).isSome then newpos i
        else th.commandedPos i.castSucc)
      (th.commandedPos (Fin.last 3))
  else th

/-- The second home of `home_rails`, after the move back. -/
def secondHome (sqrt : K → K) (th : Toolhead ι K) (endstops : List (McuEndstop ι))
    (retractDist : K) (forcepos movepos : Fin 4 → Option K) (retract : MoveOutcome ι K)
    (out : HomingOutcome ι K) : Except String (HomingResult ι K) :=
  let startpos := th.fillCoord forcepos
  let homepos := th.fillCoord movepos
  let axesD : Coord K := fun i => homepos i - startpos i
  let moveD := sqrt (axesD 0 * axesD 0 + axesD 1 * axesD 1 + axesD 2 * axesD 2)
  if moveD = 0 then .error "float division by zero"
  else
    let retractR := min 1 (retractDist / moveD)
    let retractpos : Coord K := fun i => homepos i - axesD i * retractR
    match retract.error with
    | some error => .error error
    | none => do
      let th := th.moved retract.commandedPos retract.kinSpos
      let startpos : Coord K := fun i => retractpos i - axesD i * retractR
      let res ← (th.setPosition startpos).homingMove endstops homepos false true out
      match StepperPosition.checkNoMovement res.stepperPositions with
      | some name => .error ("Endstop " ++ name ++ " still triggered after retract")
      | none => .ok res

/-- `home_rails`. The outcomes are those of the first homing move, of the move back and of the
second homing move. -/
def homeRails (sqrt : K → K) (th : Toolhead ι K) (endstops : List (McuEndstop ι)) (retractDist : K)
    (forcepos movepos : Fin 4 → Option K) (first : HomingOutcome ι K) (retract : MoveOutcome ι K)
    (second : HomingOutcome ι K) (adjustPos : List (ι × K)) : Except String (Toolhead ι K) := do
  let res ← (th.setPosition (th.fillCoord forcepos)).homingMove endstops (th.fillCoord movepos)
    false true first
  let res ← (if retractDist = 0 then .ok res
    else secondHome sqrt res.toolhead endstops retractDist forcepos movepos retract second)
  return res.toolhead.applyAdjust forcepos adjustPos

/-- Without offsets the toolhead stays where the homing move has put it. -/
theorem applyAdjust_of_zero (th : Toolhead ι K) (forcepos : Fin 4 → Option K)
    {adjustPos : List (ι × K)} (h : ∀ entry ∈ adjustPos, entry.2 = 0) :
    th.applyAdjust forcepos adjustPos = th := by
  rw [applyAdjust, if_neg]
  rintro ⟨entry, hmem, hne⟩
  exact hne (h entry hmem)

/-- The target of a homing move has the given coordinates. -/
theorem fillCoord_eq (th : Toolhead ι K) {coord : Fin 4 → Option K} {i : Fin 4} {x : K}
    (h : coord i = some x) : th.fillCoord coord i = x := by
  rw [fillCoord, h, Option.getD_some]

/-- The second home ends with a homing move to the given coordinates. -/
theorem secondHome_eq_ok {sqrt : K → K} {th : Toolhead ι K} {endstops : List (McuEndstop ι)}
    {retractDist : K} {forcepos movepos : Fin 4 → Option K} {retract : MoveOutcome ι K}
    {out : HomingOutcome ι K} {res : HomingResult ι K}
    (h : secondHome sqrt th endstops retractDist forcepos movepos retract out = .ok res) :
    ∃ before : Toolhead ι K,
      before.homingMove endstops (th.fillCoord movepos) false true out = .ok res := by
  unfold secondHome at h
  dsimp only at h
  split at h
  · cases h
  split at h
  · cases h
  obtain ⟨res', hmove, h⟩ := bind_eq_ok.1 h
  split at h
  · cases h
  · cases h
    exact ⟨_, hmove⟩

/-- Without offsets the toolhead that `home_rails` leaves is the one of its last homing move, which
goes to the given coordinates. -/
theorem homeRails_eq_ok {sqrt : K → K} {th th' : Toolhead ι K} {endstops : List (McuEndstop ι)}
    {retractDist : K} {forcepos movepos : Fin 4 → Option K} {first second : HomingOutcome ι K}
    {retract : MoveOutcome ι K} {adjustPos : List (ι × K)}
    (h : homeRails sqrt th endstops retractDist forcepos movepos first retract second adjustPos =
      .ok th') (hzero : ∀ entry ∈ adjustPos, entry.2 = 0) :
    ∃ (before : Toolhead ι K) (homepos : Coord K) (res : HomingResult ι K),
      (∀ i x, movepos i = some x → homepos i = x) ∧ th' = res.toolhead ∧
        before.homingMove endstops homepos false true (if retractDist = 0 then first else second) =
          .ok res := by
  obtain ⟨res, hfirst, h⟩ := bind_eq_ok.1 h
  obtain ⟨last, hlast, h⟩ := bind_eq_ok.1 h
  rw [applyAdjust_of_zero _ _ hzero] at h
  cases h
  split_ifs at hlast ⊢ with hdist
  · cases hlast
    exact ⟨_, _, res, fun i x => fillCoord_eq th, rfl, hfirst⟩
  · obtain ⟨before, hsecond⟩ := secondHome_eq_ok hlast
    exact ⟨before, _, last, fun i x => fillCoord_eq res.toolhead, rfl, hsecond⟩

/-- A homing or probing move that raises no error recovers the positions, and so does `home_rails`
without offsets, for the target of its last homing move. -/
theorem recovers_homing :
    (∀ (th : Toolhead ι K) (endstops : List (McuEndstop ι)) (movepos : Coord K)
        (probePos checkTriggered : Bool) (out : HomingOutcome ι K) (res : HomingResult ι K),
      th.homingMove endstops movepos probePos checkTriggered out = .ok res →
        th.Recovered endstops movepos probePos checkTriggered out res) ∧
      ∀ (sqrt : K → K) (th th' : Toolhead ι K) (endstops : List (McuEndstop ι)) (retractDist : K)
        (forcepos movepos : Fin 4 → Option K) (first second : HomingOutcome ι K)
        (retract : MoveOutcome ι K) (adjustPos : List (ι × K)),
      homeRails sqrt th endstops retractDist forcepos movepos first retract second adjustPos =
          .ok th' → (∀ entry ∈ adjustPos, entry.2 = 0) →
        ∃ (before : Toolhead ι K) (homepos : Coord K) (res : HomingResult ι K),
          (∀ i x, movepos i = some x → homepos i = x) ∧ th' = res.toolhead ∧
            before.Recovered endstops homepos false true
              (if retractDist = 0 then first else second) res := by
  refine ⟨fun th endstops movepos probePos checkTriggered out res h => recovered_homingMove h, ?_⟩
  intro sqrt th th' endstops retractDist forcepos movepos first second retract adjustPos h hzero
  obtain ⟨before, homepos, res, hhome, hres, hmove⟩ := homeRails_eq_ok h hzero
  exact ⟨before, homepos, res, hhome, hres, recovered_homingMove hmove⟩

/-- A printer with steps of a hundredth at the origin. -/
def atOrigin (kin : Kinematics (Fin 3) ℚ) : Toolhead (Fin 3) ℚ where
  kin := kin
  commandedPos := 0
  steppers _ := ⟨1 / 100, by norm_num, 0, 0⟩

/-- A homing move in which all steppers stop at 105 steps. The count at a time is 10 less for each
second before. -/
def overshoot : HomingOutcome (Fin 3) ℚ where
  drip := ⟨none, 0, fun _ => 1⟩
  moveEndPrintTime := 10
  homeWait i := 10 - i
  mcuPosition _ := 105
  pastMcuPosition _ t := 10 * ⌊t⌋
  endError := none

/-- Two steppers of a CoreXY printer go on for five steps after the trigger. -/
theorem recovers_homing_corexy : ∃ res,
    (atOrigin .corexy).homingMove [⟨"stepper_x", [0, 1]⟩] 0 false true overshoot = .ok res ∧
      (atOrigin .corexy).Recovered [⟨"stepper_x", [0, 1]⟩] 0 false true overshoot res := by
  have hok : ((atOrigin .corexy).homingMove [⟨"stepper_x", [0, 1]⟩] 0 false true
      overshoot).toOption.isSome = true := by decide +kernel
  obtain ⟨res, hres⟩ := Option.isSome_iff_exists.1 hok
  have hmove : (atOrigin .corexy).homingMove [⟨"stepper_x", [0, 1]⟩] 0 false true overshoot =
      .ok res := by
    cases hcase : (atOrigin .corexy).homingMove [⟨"stepper_x", [0, 1]⟩] 0 false true overshoot with
    | error error => simp [hcase, Except.toOption] at hres
    | ok r => simpa [hcase, Except.toOption] using hres
  exact ⟨res, hmove, recovers_homing.1 _ _ _ _ _ _ _ hmove⟩

/-- A stepper that two endstops stop has a record for each, and only one of the two triggers agrees
with the position. -/
theorem not_recovers_firstRecord :
    ¬∀ (th : Toolhead (Fin 3) ℚ) (endstops : List (McuEndstop (Fin 3))) (movepos : Coord ℚ)
      (probePos checkTriggered : Bool) (out : HomingOutcome (Fin 3) ℚ)
      (res : HomingResult (Fin 3) ℚ),
      th.homingMove endstops movepos probePos checkTriggered out = .ok res →
        ∀ sp ∈ res.stepperPositions, th.Recovers movepos probePos res sp := by
  intro hall
  let shared := (atOrigin .cartesian).homingMove [⟨"stepper_x", [0]⟩, ⟨"stepper_y", [0]⟩] 0 false
    true overshoot
  have hpos : (shared.toOption.map fun res =>
      (res.stepperPositions, res.toolhead.stepperAt 0 res.toolhead.commandedPos,
        res.toolhead.stepperAt 0 0)) =
      some ([⟨0, "stepper_x", 0, 105, 100⟩, ⟨0, "stepper_y", 0, 105, 90⟩], 15 / 100, 0) := by
    decide +kernel
  cases hres : shared with
  | error error => simp [hres, Except.toOption] at hpos
  | ok res =>
    simp only [hres, Except.toOption, Option.map_some, Option.some.injEq, Prod.mk.injEq] at hpos
    have hrec := (hall _ _ _ _ _ _ res hres ⟨0, "stepper_x", 0, 105, 100⟩ (by simp [hpos.1])).homed
      rfl
    have hdist : ((atOrigin .cartesian).steppers 0).stepDist = 1 / 100 := rfl
    simp only [hpos.2.1, hpos.2.2, hdist] at hrec
    norm_num at hrec

end Toolhead

end Thinker
