import Mathlib.Data.List.DropRight
import Thinker.Junction
import Thinker.TrapqMove

/-!
# The motion queue

The list of moves and the history of `trapq.c`. `trapq_append` puts up to three segments of a move
at the end of the list, with a null move before them where there is a gap ; `trapq_finalize_moves`
moves those that have ended to the history ; `trapq_set_position` does so with all of them, cuts
off what was interrupted, and puts a marker in front.

The segments of a planned move lead from its start to its end (`Trapq.Append.Balanced.drives`).
-/

set_option linter.unusedSectionVars false

namespace Thinker

variable {K : Type*} [Field K] [LinearOrder K] [IsStrictOrderedRing K]

/-- `NEVER_TIME`. -/
def neverTime : K := 9999999999999999.9

/-- `MAX_NULL_MOVE`. -/
def maxNullMove : K := 1

/-- `struct trapq` : the moves between the sentinels, the tail sentinel, and the history with the
newest move first. The head sentinel is always `TrapqMove.alloc`. -/
structure Trapq (K : Type*) where
  moves : List (TrapqMove K)
  tail : TrapqMove K
  history : List (TrapqMove K)

/-- The move is kept in the history. -/
def TrapqMove.isMoving (m : TrapqMove K) : Bool :=
  decide (m.startV ≠ 0 ∨ m.halfAccel ≠ 0)

/-- `struct pull_move`. -/
structure PullMove (K : Type*) where
  printTime : K
  moveT : K
  startV : K
  accel : K
  start : TrapqCoord K
  r : TrapqCoord K

/-- The move as `trapq_extract_old` writes it. -/
def TrapqMove.pull (m : TrapqMove K) : PullMove K :=
  ⟨m.printTime, m.moveT, m.startV, 2 * m.halfAccel, m.startPos, m.axesR⟩

namespace Trapq

/-- `trapq_alloc`. -/
def alloc : Trapq K :=
  ⟨[], { TrapqMove.alloc with printTime := neverTime, moveT := neverTime }, []⟩

variable (tq : Trapq K)

/-- The move before the tail sentinel. -/
def last : TrapqMove K :=
  tq.moves.getLast?.getD TrapqMove.alloc

/-- `trapq_check_sentinels`. -/
def checkSentinels : Trapq K :=
  -- Already up to date
  if tq.tail.printTime ≠ 0 then tq
  -- No moves at all on this list
  else if tq.moves.isEmpty then { tq with tail := { tq.tail with printTime := neverTime } }
  else
    let m := tq.last
    { tq with
      tail := { tq.tail with
        printTime := m.printTime + m.moveT
        startPos := m.getCoord m.moveT } }

/-- The null move that fills the gap between two moves. -/
def nullMove (prev m : TrapqMove K) : TrapqMove K :=
  let printTime :=
    -- Limit the first null move to improve numerical stability
    if prev.printTime = 0 ∧ m.printTime > maxNullMove then m.printTime - maxNullMove
    else prev.printTime + prev.moveT
  { TrapqMove.alloc with
    startPos := m.startPos
    printTime := printTime
    moveT := m.printTime - printTime }

/-- `trapq_add_move`. -/
def addMove (m : TrapqMove K) : Trapq K :=
  let gap :=
    if tq.last.printTime + tq.last.moveT < m.printTime then [nullMove tq.last m] else []
  { tq with
    moves := tq.moves ++ (gap ++ [m])
    tail := { tq.tail with printTime := 0 } }

/-- The arguments of `trapq_append`. -/
structure Append (K : Type*) where
  printTime : K
  accelT : K
  cruiseT : K
  decelT : K
  startPos : TrapqCoord K
  axesR : TrapqCoord K
  startV : K
  cruiseV : K
  accel : K

/-- The moves that `trapq_append` adds one after the other. -/
def Append.segments (p : Append K) : List (TrapqMove K) :=
  let accel : TrapqMove K :=
    ⟨p.printTime, p.accelT, p.startV, 0.5 * p.accel, p.startPos, p.axesR⟩
  let printTime := if p.accelT ≠ 0 then p.printTime + p.accelT else p.printTime
  let startPos := if p.accelT ≠ 0 then accel.getCoord p.accelT else p.startPos
  let cruise : TrapqMove K := ⟨printTime, p.cruiseT, p.cruiseV, 0, startPos, p.axesR⟩
  let printTime := if p.cruiseT ≠ 0 then printTime + p.cruiseT else printTime
  let startPos := if p.cruiseT ≠ 0 then cruise.getCoord p.cruiseT else startPos
  let decel : TrapqMove K :=
    ⟨printTime, p.decelT, p.cruiseV, -0.5 * p.accel, startPos, p.axesR⟩
  (if p.accelT ≠ 0 then [accel] else []) ++ (if p.cruiseT ≠ 0 then [cruise] else []) ++
    if p.decelT ≠ 0 then [decel] else []

/-- `trapq_append`. -/
def append (p : Append K) : Trapq K :=
  p.segments.foldl addMove tq

/-- The loop that moves what has ended from the moves to the history. -/
def expire (printTime : K) :
    List (TrapqMove K) → List (TrapqMove K) → List (TrapqMove K) × List (TrapqMove K)
  | [], history => ([], history)
  | m :: moves, history =>
    if m.printTime + m.moveT > printTime then (m :: moves, history)
    else expire printTime moves (if m.isMoving then m :: history else history)

/-- The loop that frees the old moves of the history, except for the latest. -/
def clearHistory (clearHistoryTime : K) : List (TrapqMove K) → List (TrapqMove K)
  | [] => []
  | latest :: history =>
    latest :: history.rdropWhile fun m => !decide (m.printTime + m.moveT > clearHistoryTime)

/-- `trapq_finalize_moves`. -/
def finalizeMoves (printTime clearHistoryTime : K) : Trapq K :=
  let (moves, history) := expire printTime tq.moves tq.history
  { moves := moves
    tail := if moves.isEmpty then { tq.tail with printTime := neverTime } else tq.tail
    history := clearHistory clearHistoryTime history }

/-- The loop over the moves of the history that were interrupted. -/
def prune (printTime : K) : List (TrapqMove K) → List (TrapqMove K)
  | [] => []
  | m :: history =>
    if m.printTime < printTime then
      (if m.printTime + m.moveT > printTime then { m with moveT := printTime - m.printTime }
      else m) :: history
    else prune printTime history

/-- `trapq_set_position`. -/
def setPosition (printTime : K) (pos : TrapqCoord K) : Trapq K :=
  -- Flush all moves from trapq
  let tq := tq.finalizeMoves neverTime 0
  -- Add a marker to the trapq history
  { tq with
    history := { TrapqMove.alloc with printTime := printTime, startPos := pos } ::
      prune printTime tq.history }

/-- The loop of `trapq_extract_old`, with how many moves it still takes. -/
def extractLoop (startTime endTime : K) : ℕ → List (TrapqMove K) → List (PullMove K)
  | _, [] => []
  | left, m :: history =>
    if startTime ≥ m.printTime + m.moveT ∨ left = 0 then []
    else if endTime ≤ m.printTime then extractLoop startTime endTime left history
    else m.pull :: extractLoop startTime endTime (left - 1) history

/-- `trapq_extract_old`. -/
def extractOld (max : ℤ) (startTime endTime : K) : List (PullMove K) :=
  extractLoop startTime endTime max.toNat tq.history

end Trapq

namespace Trapq

/-- The sentinel at the end of the list is up to date after it was checked. -/
theorem checkSentinels_spec (tq : Trapq K) (h : tq.tail.printTime = 0 ∨
    tq.tail.printTime = if tq.moves = [] then neverTime else tq.last.endTime) :
    tq.checkSentinels.moves = tq.moves ∧ tq.checkSentinels.history = tq.history ∧
      tq.checkSentinels.tail.moveT = tq.tail.moveT ∧
      tq.checkSentinels.tail.axesR = tq.tail.axesR ∧
      tq.checkSentinels.tail.printTime =
        if tq.moves = [] then neverTime else tq.last.endTime := by
  unfold checkSentinels
  by_cases htail : tq.tail.printTime = 0
  · rw [if_neg (not_not.2 htail)]
    by_cases hnil : tq.moves = []
    · simp [hnil]
    · rw [if_neg (by simpa using hnil), if_neg hnil]
      exact ⟨rfl, rfl, rfl, rfl, rfl⟩
  · rw [if_pos htail]
    exact ⟨rfl, rfl, rfl, rfl, h.resolve_left htail⟩

end Trapq

/-! ## The segments of a move -/

/-- A time, a position and a speed. -/
@[ext]
structure MotionState (K : Type*) where
  time : K
  pos : TrapqCoord K
  v : K

/-- Where a move starts. -/
def TrapqMove.startState (m : TrapqMove K) : MotionState K :=
  ⟨m.printTime, m.startPos, m.startV⟩

/-- Where a move ends. -/
def TrapqMove.endState (m : TrapqMove K) : MotionState K :=
  ⟨m.endTime, m.getCoord m.moveT, m.velocity m.moveT⟩

/-- Moves that lead from one state to another, each from where the one before it ends. -/
def Drives : List (TrapqMove K) → MotionState K → MotionState K → Prop
  | [], s, s' => s = s'
  | m :: ms, s, s' => m.startState = s ∧ Drives ms m.endState s'

theorem Drives.append {ms ms' : List (TrapqMove K)} {s s' s'' : MotionState K}
    (h : Drives ms s s') (h' : Drives ms' s' s'') : Drives (ms ++ ms') s s'' := by
  induction ms generalizing s with
  | nil =>
    obtain rfl : s = s' := h
    exact h'
  | cons m ms ih => exact ⟨h.1, ih h.2⟩

/-- A phase that takes no time is left out. -/
theorem drives_phase (m : TrapqMove K) :
    Drives (if m.moveT ≠ 0 then [m] else []) m.startState m.endState := by
  split_ifs with h
  · exact ⟨rfl, rfl⟩
  · have hzero : m.moveT = 0 := not_not.1 h
    refine MotionState.ext ?_ ?_ ?_
    · simp [TrapqMove.startState, TrapqMove.endState, TrapqMove.endTime, hzero]
    · simp [TrapqMove.startState, TrapqMove.endState, hzero]
    · simp [TrapqMove.startState, TrapqMove.endState, TrapqMove.velocity, hzero]

namespace Trapq.Append

variable (p : Append K)

/-- The phase in which a move gets faster. -/
def accelPhase : TrapqMove K :=
  ⟨p.printTime, p.accelT, p.startV, 0.5 * p.accel, p.startPos, p.axesR⟩

/-- The phase in which its speed is constant. -/
def cruisePhase : TrapqMove K :=
  ⟨p.accelPhase.endTime, p.cruiseT, p.cruiseV, 0, p.accelPhase.getCoord p.accelT, p.axesR⟩

/-- The phase in which it gets slower. -/
def decelPhase : TrapqMove K :=
  ⟨p.cruisePhase.endTime, p.decelT, p.cruiseV, -0.5 * p.accel,
    p.cruisePhase.getCoord p.cruiseT, p.axesR⟩

/-- The segments are the phases that take time. -/
theorem segments_eq : p.segments = (if p.accelPhase.moveT ≠ 0 then [p.accelPhase] else []) ++
    (if p.cruisePhase.moveT ≠ 0 then [p.cruisePhase] else []) ++
      if p.decelPhase.moveT ≠ 0 then [p.decelPhase] else [] := by
  by_cases haccel : p.accelT = 0 <;> by_cases hcruise : p.cruiseT = 0 <;>
    simp [segments, accelPhase, cruisePhase, decelPhase, TrapqMove.endTime, haccel, hcruise]

end Trapq.Append

/-- `set_junction` is called with speeds that the move can be driven with. -/
structure Drivable (m : Move K) (j : Junction K) : Prop where
  accel_pos : 0 < m.accel
  cruise_pos : 0 < j.cruiseV2
  start_nonneg : 0 ≤ j.startV2
  start_le : j.startV2 ≤ j.cruiseV2
  end_nonneg : 0 ≤ j.endV2
  end_le : j.endV2 ≤ j.cruiseV2
  cruiseD_nonneg : 0 ≤ (m.phaseD j).2.1

namespace Drivable

variable {sqrt : K → K} {m : Move K} {j : Junction K}

/-- The time of a change of speed at a constant acceleration. -/
theorem changeT_eq {v w a : K} (ha : 0 < a) (hv : 0 ≤ v) (hw : 0 < w) :
    (w * w - v * v) * (0.5 / a) / ((v + w) * 0.5) = (w - v) / a := by
  have hsum : v + w ≠ 0 := (add_pos_of_nonneg_of_pos hv hw).ne'
  have hhalf : (0.5 : K) ≠ 0 := by norm_num
  rw [div_eq_div_iff (mul_ne_zero hsum hhalf) ha.ne']
  field_simp
  ring

/-- The times of the phases are those of changes of speed at the acceleration. -/
structure Timed (m : Move K) (d : K × K × K) (p : Phases K) : Prop where
  cruise_pos : 0 < p.cruiseV
  start_nonneg : 0 ≤ p.startV
  start_le : p.startV ≤ p.cruiseV
  end_nonneg : 0 ≤ p.endV
  end_le : p.endV ≤ p.cruiseV
  accelD : d.1 = (p.cruiseV * p.cruiseV - p.startV * p.startV) * (0.5 / m.accel)
  decelD : d.2.2 = (p.cruiseV * p.cruiseV - p.endV * p.endV) * (0.5 / m.accel)
  accelT : p.accelT = (p.cruiseV - p.startV) / m.accel
  cruiseT : p.cruiseT = d.2.1 / p.cruiseV
  decelT : p.decelT = (p.cruiseV - p.endV) / m.accel

theorem timed (h : Drivable m j) (hs : IsSqrt sqrt) :
    Timed m (m.phaseD j) (m.setJunction sqrt j) := by
  have hcruise : 0 < sqrt j.cruiseV2 := hs.pos h.cruise_pos
  have hstart := hs.nonneg _ h.start_nonneg
  have hend := hs.nonneg _ h.end_nonneg
  have hcc := hs.mul_self _ h.cruise_pos.le
  have hss := hs.mul_self _ h.start_nonneg
  have hee := hs.mul_self _ h.end_nonneg
  have haccelD : (m.phaseD j).1 = (sqrt j.cruiseV2 * sqrt j.cruiseV2 -
      sqrt j.startV2 * sqrt j.startV2) * (0.5 / m.accel) := by
    rw [hcc, hss]
    rfl
  have hdecelD : (m.phaseD j).2.2 = (sqrt j.cruiseV2 * sqrt j.cruiseV2 -
      sqrt j.endV2 * sqrt j.endV2) * (0.5 / m.accel) := by
    rw [hcc, hee]
    rfl
  refine ⟨hcruise, hstart, ?_, hend, ?_, haccelD, hdecelD, ?_, rfl, ?_⟩
  · refine (mul_self_le_mul_self_iff hstart hcruise.le).2 ?_
    rw [hss, hcc]
    exact h.start_le
  · refine (mul_self_le_mul_self_iff hend hcruise.le).2 ?_
    rw [hee, hcc]
    exact h.end_le
  · change (m.phaseD j).1 / ((sqrt j.startV2 + sqrt j.cruiseV2) * 0.5) = _
    rw [haccelD]
    exact changeT_eq h.accel_pos hstart hcruise
  · change (m.phaseD j).2.2 / ((sqrt j.endV2 + sqrt j.cruiseV2) * 0.5) = _
    rw [hdecelD]
    exact changeT_eq h.accel_pos hend hcruise

end Drivable

namespace Trapq.Append

/-- What the toolhead hands over for a move that is planned. -/
def ofMove (printTime : K) (m : Move K) (p : Phases K) : Append K :=
  ⟨printTime, p.accelT, p.cruiseT, p.decelT, fun i => m.startPos i.castSucc,
    fun i => m.axesR i.castSucc, p.startV, p.cruiseV, m.accel⟩

variable {m : Move K} {p : Phases K} {d : K × K × K}

/-- The speeds and the distances of the phases. -/
structure Balanced (m : Move K) (d : K × K × K) (p : Phases K) : Prop where
  accelV : p.startV + m.accel * p.accelT = p.cruiseV
  decelV : p.cruiseV - m.accel * p.decelT = p.endV
  accelD : (p.startV + 0.5 * m.accel * p.accelT) * p.accelT = d.1
  cruiseD : p.cruiseV * p.cruiseT = d.2.1
  decelD : (p.cruiseV - 0.5 * m.accel * p.decelT) * p.decelT = d.2.2

theorem balanced (h : Drivable.Timed m d p) (ha : 0 < m.accel) : Balanced m d p := by
  have hcruise := h.cruise_pos
  refine ⟨?_, ?_, ?_, ?_, ?_⟩
  · rw [h.accelT]
    field_simp
    ring
  · rw [h.decelT]
    field_simp
    ring
  · rw [h.accelT, h.accelD]
    field_simp
    ring
  · rw [h.cruiseT]
    field_simp
  · rw [h.decelT, h.decelD]
    field_simp
    ring

/-- The segments of a planned move lead from its start to its end. -/
theorem Balanced.drives (h : Balanced m d p) (hsum : d.1 + d.2.1 + d.2.2 = m.moveD)
    (printTime : K) : Drives (ofMove printTime m p).segments
      ⟨printTime, fun i => m.startPos i.castSucc, p.startV⟩
      ⟨printTime + (p.accelT + p.cruiseT + p.decelT),
        fun i => m.startPos i.castSucc + m.axesR i.castSucc * m.moveD, p.endV⟩ := by
  set a := ofMove printTime m p with hofMove
  have hstate₁ : a.accelPhase.endState = a.cruisePhase.startState := by
    refine MotionState.ext rfl rfl (Eq.trans ?_ h.accelV)
    simp only [TrapqMove.endState, TrapqMove.velocity, accelPhase, hofMove, ofMove]
    ring
  have hstate₂ : a.cruisePhase.endState = a.decelPhase.startState := by
    refine MotionState.ext rfl rfl ?_
    simp [TrapqMove.endState, TrapqMove.startState, TrapqMove.velocity, cruisePhase, decelPhase]
  have hstate₃ : a.decelPhase.endState = ⟨printTime + (p.accelT + p.cruiseT + p.decelT),
      fun i => m.startPos i.castSucc + m.axesR i.castSucc * m.moveD, p.endV⟩ := by
    refine MotionState.ext ?_ (funext fun i => ?_) (Eq.trans ?_ h.decelV)
    · simp only [TrapqMove.endState, TrapqMove.endTime, decelPhase, cruisePhase, accelPhase,
        hofMove, ofMove]
      ring
    · rw [← hsum, ← h.accelD, ← h.cruiseD, ← h.decelD]
      simp only [TrapqMove.endState, TrapqMove.getCoord, TrapqMove.getDistance, decelPhase,
        cruisePhase, accelPhase, hofMove, ofMove]
      ring
    · simp only [TrapqMove.endState, TrapqMove.velocity, decelPhase, hofMove, ofMove]
      ring
  have hdrive₁ := drives_phase a.accelPhase
  have hdrive₂ := drives_phase a.cruisePhase
  have hdrive₃ := drives_phase a.decelPhase
  rw [hstate₁] at hdrive₁
  rw [hstate₂] at hdrive₂
  rw [hstate₃] at hdrive₃
  rw [segments_eq]
  exact (hdrive₁.append hdrive₂).append hdrive₃

/-- The speed in a phase is between those at both ends. -/
theorem phase_speed {seg : TrapqMove K} {v : K} (htime : 0 ≤ seg.moveT) (hstart : 0 ≤ seg.startV)
    (hstartLe : seg.startV ≤ v) (hend : 0 ≤ seg.velocity seg.moveT)
    (hendLe : seg.velocity seg.moveT ≤ v) :
    ∀ seg' ∈ (if seg.moveT ≠ 0 then [seg] else []), 0 < seg'.moveT ∧
      ∀ τ, 0 ≤ τ → τ ≤ seg'.moveT → 0 ≤ seg'.velocity τ ∧ seg'.velocity τ ≤ v := by
  intro seg' hseg
  split_ifs at hseg with h
  · obtain rfl := List.mem_singleton.1 hseg
    refine ⟨lt_of_le_of_ne htime (Ne.symm h), fun τ hτ hle => ?_⟩
    unfold TrapqMove.velocity at hend hendLe ⊢
    rcases le_total 0 seg'.halfAccel with ha | ha
    · have h₁ := mul_nonneg ha hτ
      have h₂ := mul_le_mul_of_nonneg_left hle ha
      constructor <;> linarith
    · have h₁ := mul_nonpos_of_nonpos_of_nonneg ha hτ
      have h₂ := mul_le_mul_of_nonpos_left hle ha
      constructor <;> linarith
  · cases hseg

theorem Balanced.speed (h : Balanced m d p) (ht : Drivable.Timed m d p) (ha : 0 < m.accel)
    (hd : 0 ≤ d.2.1) (printTime : K) : ∀ seg ∈ (ofMove printTime m p).segments, 0 < seg.moveT ∧
      ∀ τ, 0 ≤ τ → τ ≤ seg.moveT → 0 ≤ seg.velocity τ ∧ seg.velocity τ ≤ p.cruiseV := by
  have haccelT : 0 ≤ p.accelT := ht.accelT ▸ div_nonneg (sub_nonneg.2 ht.start_le) ha.le
  have hcruiseT : 0 ≤ p.cruiseT := ht.cruiseT ▸ div_nonneg hd ht.cruise_pos.le
  have hdecelT : 0 ≤ p.decelT := ht.decelT ▸ div_nonneg (sub_nonneg.2 ht.end_le) ha.le
  set a := ofMove printTime m p with hofMove
  have hv₁ : a.accelPhase.velocity a.accelPhase.moveT = p.cruiseV := by
    refine Eq.trans ?_ h.accelV
    simp only [TrapqMove.velocity, accelPhase, hofMove, ofMove]
    ring
  have hv₂ : a.cruisePhase.velocity a.cruisePhase.moveT = p.cruiseV := by
    simp [TrapqMove.velocity, cruisePhase, hofMove, ofMove]
  have hv₃ : a.decelPhase.velocity a.decelPhase.moveT = p.endV := by
    refine Eq.trans ?_ h.decelV
    simp only [TrapqMove.velocity, decelPhase, hofMove, ofMove]
    ring
  rw [segments_eq]
  intro seg hseg
  rcases List.mem_append.1 hseg with hseg | hseg
  · rcases List.mem_append.1 hseg with hseg | hseg
    · exact phase_speed haccelT ht.start_nonneg ht.start_le (hv₁.symm ▸ ht.cruise_pos.le)
        hv₁.le seg hseg
    · exact phase_speed hcruiseT ht.cruise_pos.le le_rfl (hv₂.symm ▸ ht.cruise_pos.le) hv₂.le
        seg hseg
  · exact phase_speed hdecelT ht.cruise_pos.le le_rfl (hv₃.symm ▸ ht.end_nonneg)
      (hv₃.symm ▸ ht.end_le) seg hseg

end Trapq.Append

end Thinker
