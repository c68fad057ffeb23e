import Thinker.Velocities

/-!
# The look-ahead queue

`LookAheadQueue` of `toolhead.py`. `flush` goes over the queue from the last move to the
first. What it does to the velocities is `Velocities.step`. Besides, it plans the moves that
accelerate at once, and the moves that wait when a peak is found. A lazy flush does so only
in front of the last but one peak.
-/

set_option linter.unusedSectionVars false

namespace Thinker

variable {K : Type*} [Field K] [LinearOrder K] [IsStrictOrderedRing K]

/-! ## The queue -/

/-- The local variables of `flush`, and the junctions of the moves of the queue by index.
`delayed` has the index of a move with its start and end velocity, the first move first. -/
structure FlushLoop (K : Type*) where
  nextEndV2 : K
  nextSmoothedV2 : K
  peakCruiseV2 : K
  delayed : List (ℕ × K × K)
  flushCount : ℕ
  updateFlushCount : Bool
  junctions : ℕ → Option (Junction K)

namespace FlushLoop

/-- Propagate `peak_cruise_v2` to any delayed moves. -/
def propagate (mcV2 : K) :
    List (ℕ × K × K) → (ℕ → Option (Junction K)) → ℕ → Option (Junction K)
  | [], junctions => junctions
  | (k, msV2, meV2) :: delayed, junctions =>
    let mcV2 := min mcV2 msV2
    propagate mcV2 delayed
      (Function.update junctions k (some ⟨min msV2 mcV2, mcV2, min meV2 mcV2⟩))

/-- The body of the loop of `flush`, for the move at index `i`. -/
def flushMove (i : ℕ) (m : Move K) (l : FlushLoop K) : FlushLoop K :=
  let reachableStartV2 := l.nextEndV2 + m.deltaV2
  let startV2 := min m.maxStartV2 reachableStartV2
  let reachableSmoothedV2 := l.nextSmoothedV2 + m.smoothDeltaV2
  let smoothedV2 := min m.maxSmoothedV2 reachableSmoothedV2
  let l' :=
    if smoothedV2 < reachableSmoothedV2 then
      let l :=
        if smoothedV2 + m.smoothDeltaV2 > l.nextSmoothedV2 ∨ l.delayed ≠ [] then
          let l := if l.updateFlushCount ∧ l.peakCruiseV2 ≠ 0 then
            { l with flushCount := i, updateFlushCount := false } else l
          let peakCruiseV2 := min m.maxCruiseV2 ((smoothedV2 + reachableSmoothedV2) * 0.5)
          let junctions := if !l.updateFlushCount ∧ i < l.flushCount then
            propagate peakCruiseV2 l.delayed l.junctions else l.junctions
          { l with peakCruiseV2 := peakCruiseV2, delayed := [], junctions := junctions }
        else l
      if !l.updateFlushCount ∧ i < l.flushCount then
        let cruiseV2 := min ((startV2 + reachableStartV2) * 0.5) (min m.maxCruiseV2 l.peakCruiseV2)
        let j : Junction K := ⟨min startV2 cruiseV2, cruiseV2, min l.nextEndV2 cruiseV2⟩
        { l with junctions := Function.update l.junctions i (some j) }
      else l
    else { l with delayed := (i, startV2, l.nextEndV2) :: l.delayed }
  { l' with nextEndV2 := startV2, nextSmoothedV2 := smoothedV2 }

/-- The loop of `flush` over the moves from index `i` on, the last one first. -/
def flushLoop (lazy : Bool) : ℕ → List (Move K) → FlushLoop K
  | i, [] => ⟨0, 0, 0, [], i, lazy, fun _ => none⟩
  | i, m :: rest => flushMove i m (flushLoop lazy (i + 1) rest)

/-- The velocities among the local variables. -/
def toVelocities (l : FlushLoop K) : Velocities K :=
  ⟨l.nextEndV2, l.nextSmoothedV2, l.peakCruiseV2, l.delayed.map Prod.snd⟩

end FlushLoop

/-- `LOOKAHEAD_FLUSH_TIME`. -/
def lookaheadFlushTime : K := 0.250

/-- `LookAheadQueue`, with the moves that went to `_process_moves` and their junctions. -/
structure LookAheadQueue (K : Type*) where
  queue : List (Move K)
  junctionFlush : K
  processed : List (Move K × Option (Junction K))

/-- The moves from index `i` on with their junctions. -/
def marked (junctions : ℕ → Option (Junction K)) :
    ℕ → List (Move K) → List (Move K × Option (Junction K))
  | _, [] => []
  | i, m :: q => (m, junctions i) :: marked junctions (i + 1) q

namespace LookAheadQueue

/-- `flush`. -/
def flush (s : LookAheadQueue K) (lazy : Bool) : LookAheadQueue K :=
  let s := { s with junctionFlush := lookaheadFlushTime }
  let l := FlushLoop.flushLoop lazy 0 s.queue
  if l.updateFlushCount ∨ l.flushCount = 0 then s
  else { s with
    queue := s.queue.drop l.flushCount
    processed := s.processed ++ marked l.junctions 0 (s.queue.take l.flushCount) }

/-- `add_move`, with the bound that the extruder gives for the junction. -/
def addMove (sqrt : K → K) (s : LookAheadQueue K) (m : Move K) (extruderV2 : K) :
    LookAheadQueue K :=
  match s.queue.getLast? with
  | none => { s with queue := [m] }
  | some prev =>
    let m := Move.calcJunction sqrt extruderV2 prev m
    let s := { s with
      queue := s.queue ++ [m]
      junctionFlush := s.junctionFlush - m.minMoveT }
    if s.junctionFlush ≤ 0 then s.flush true else s

end LookAheadQueue

/-! ## The loop, move by move -/

/-- The junction of a move that accelerates. -/
def Move.junctionAt (m : Move K) (v : Velocities K) : Junction K :=
  let c := min ((m.startV2 v + (v.endV2 + m.deltaV2)) * 0.5)
    (min m.maxCruiseV2 (v.step m).peakV2)
  ⟨min (m.startV2 v) c, c, min v.endV2 c⟩

namespace FlushLoop

variable {i : ℕ} {m : Move K} {l : FlushLoop K}

theorem flushMove_toVelocities : (flushMove i m l).toVelocities = l.toVelocities.step m := by
  have hnil : l.delayed.map Prod.snd ≠ [] ↔ l.delayed ≠ [] := by simp
  unfold flushMove Velocities.step Move.Accelerates Move.Peaks Move.peakV2 Move.startV2
    Move.smoothedV2 toVelocities
  dsimp only
  simp only [hnil]
  split_ifs <;> rfl

theorem flushLoop_toVelocities (lazy : Bool) (i : ℕ) (q : List (Move K)) :
    (flushLoop lazy i q).toVelocities = velocities q := by
  induction q generalizing i with
  | nil => rfl
  | cons m q ih => rw [flushLoop, flushMove_toVelocities, ih, velocities]

theorem accelerates_iff : m.Accelerates l.toVelocities ↔
    min m.maxSmoothedV2 (l.nextSmoothedV2 + m.smoothDeltaV2) <
      l.nextSmoothedV2 + m.smoothDeltaV2 :=
  Iff.rfl

theorem peaks_iff : m.Peaks l.toVelocities ↔
    min m.maxSmoothedV2 (l.nextSmoothedV2 + m.smoothDeltaV2) + m.smoothDeltaV2 >
      l.nextSmoothedV2 ∨ l.delayed ≠ [] := by
  unfold Move.Peaks Move.smoothedV2 toVelocities
  rw [Ne, List.map_eq_nil_iff]

/-- A move that cannot accelerate waits. -/
theorem flushMove_delay (h : ¬m.Accelerates l.toVelocities) :
    flushMove i m l = { l with
      nextEndV2 := m.startV2 l.toVelocities
      nextSmoothedV2 := m.smoothedV2 l.toVelocities
      delayed := (i, m.startV2 l.toVelocities, l.nextEndV2) :: l.delayed } := by
  unfold flushMove
  simp only [if_neg (mt accelerates_iff.2 h)]
  rfl

/-- A move that accelerates is planned once the flush count is known, and the moves that
waited for it with it. -/
theorem flushMove_plan (h : m.Accelerates l.toVelocities) (hu : l.updateFlushCount = false)
    (hi : i < l.flushCount) :
    (flushMove i m l).updateFlushCount = false ∧ (flushMove i m l).flushCount = l.flushCount ∧
      (flushMove i m l).delayed = [] ∧
      (flushMove i m l).junctions = Function.update
        (propagate (l.toVelocities.step m).peakV2 l.delayed l.junctions) i
        (some (m.junctionAt l.toVelocities)) := by
  have hacc := accelerates_iff.1 h
  by_cases hp : m.Peaks l.toVelocities
  · unfold Move.junctionAt Velocities.step flushMove
    simp only [if_pos h, if_pos hp, if_pos hacc, if_pos (peaks_iff.1 hp), hu, hi, if_true,
      Bool.not_false, Bool.false_eq_true, false_and, if_false, and_self, true_and]
    rfl
  · have hnil : l.delayed = [] := not_not.1 (not_or.1 (mt peaks_iff.2 hp)).2
    unfold Move.junctionAt Velocities.step flushMove
    simp only [if_pos h, if_neg hp, if_pos hacc, if_neg (mt peaks_iff.2 hp), hu, hi, if_true,
      Bool.not_false, and_self, true_and]
    rw [hnil]
    exact ⟨rfl, rfl⟩

/-- Before that only a move that accelerates in front of a peak changes it. -/
theorem flushMove_pending (hu : l.updateFlushCount = true) :
    (flushMove i m l).updateFlushCount = true ∨
      m.Accelerates l.toVelocities ∧ m.Peaks l.toVelocities ∧ l.peakCruiseV2 ≠ 0 ∧
        (flushMove i m l).updateFlushCount = false ∧ (flushMove i m l).flushCount = i ∧
        (flushMove i m l).delayed = [] := by
  by_cases h : m.Accelerates l.toVelocities
  · have hacc := accelerates_iff.1 h
    by_cases hp : m.Peaks l.toVelocities
    · by_cases hpeak : l.peakCruiseV2 = 0
      · left
        unfold flushMove
        simp [hacc, peaks_iff.1 hp, hu, hpeak]
      · right
        refine ⟨h, hp, hpeak, ?_⟩
        unfold flushMove
        simp [hacc, peaks_iff.1 hp, hu, hpeak]
    · left
      unfold flushMove
      simp [hacc, mt peaks_iff.2 hp, hu]
  · left
    rw [flushMove_delay h]
    exact hu

end FlushLoop

end Thinker
