import Thinker.Junction

/-!
# The backward pass over the velocities of a queue

`LookAheadQueue.flush` goes from the last move to the first. What it finds out about the
velocities does not depend on which moves it flushes : the greatest start velocity of each
move, a smoothed one, the peak of the last run of moves that speed up and slow down, and
the moves that wait for the next peak.

The pass assumes a stop behind the last move. More moves can only raise the velocities
(`velocities_mono`). Where a move takes its whole bound they cannot raise it, and then
nothing in front of that move changes either (`Stable`).
-/

set_option linter.unusedSectionVars false

namespace Thinker

variable {K : Type*} [Field K] [LinearOrder K] [IsStrictOrderedRing K]

/-- The local variables of `flush` that hold velocities. `delayed` has the start and end
velocities of the delayed moves, the first move first. -/
structure Velocities (K : Type*) where
  endV2 : K
  smoothedV2 : K
  peakV2 : K
  delayed : List (K × K)

namespace Move

/-- `start_v2`. -/
def startV2 (m : Move K) (v : Velocities K) : K := min m.maxStartV2 (v.endV2 + m.deltaV2)

/-- `smoothed_v2`. -/
def smoothedV2 (m : Move K) (v : Velocities K) : K :=
  min m.maxSmoothedV2 (v.smoothedV2 + m.smoothDeltaV2)

/-- It is possible for this move to accelerate. -/
def Accelerates (m : Move K) (v : Velocities K) : Prop :=
  m.smoothedV2 v < v.smoothedV2 + m.smoothDeltaV2

/-- This move can decelerate, or it is a full accel move after a full decel move. -/
def Peaks (m : Move K) (v : Velocities K) : Prop :=
  m.smoothedV2 v + m.smoothDeltaV2 > v.smoothedV2 ∨ v.delayed ≠ []

/-- The new `peak_cruise_v2`. -/
def peakV2 (m : Move K) (v : Velocities K) : K :=
  min m.maxCruiseV2 ((m.smoothedV2 v + (v.smoothedV2 + m.smoothDeltaV2)) * 0.5)

instance (m : Move K) (v : Velocities K) : Decidable (m.Accelerates v) :=
  inferInstanceAs (Decidable (_ < _))

instance (m : Move K) (v : Velocities K) : Decidable (m.Peaks v) :=
  inferInstanceAs (Decidable (_ ∨ _))

end Move

namespace Velocities

/-- What the loop of `flush` does to the velocities at one move. -/
def step (m : Move K) (v : Velocities K) : Velocities K :=
  if m.Accelerates v then
    { endV2 := m.startV2 v, smoothedV2 := m.smoothedV2 v
      peakV2 := if m.Peaks v then m.peakV2 v else v.peakV2
      delayed := if m.Peaks v then [] else v.delayed }
  else
    { endV2 := m.startV2 v, smoothedV2 := m.smoothedV2 v, peakV2 := v.peakV2
      delayed := (m.startV2 v, v.endV2) :: v.delayed }

@[simp] theorem step_endV2 (m : Move K) (v : Velocities K) : (step m v).endV2 = m.startV2 v := by
  unfold step
  split_ifs <;> rfl

@[simp] theorem step_smoothedV2 (m : Move K) (v : Velocities K) :
    (step m v).smoothedV2 = m.smoothedV2 v := by
  unfold step
  split_ifs <;> rfl

/-- No move waits behind one that accelerates. -/
theorem step_delayed_of_accelerates {m : Move K} {v : Velocities K} (h : m.Accelerates v) :
    (step m v).delayed = [] := by
  by_cases hp : m.Peaks v
  · simp [step, h, hp]
  · simpa [step, h, hp] using (not_or.1 hp).2

theorem step_delayed_ne_nil {m : Move K} {v : Velocities K} (h : ¬m.Accelerates v) :
    (step m v).delayed ≠ [] := by
  simp [step, h]

theorem step_peakV2_of_peaks {m : Move K} {v : Velocities K} (h : m.Accelerates v)
    (hp : m.Peaks v) : (step m v).peakV2 = m.peakV2 v := by
  simp [step, h, hp]

theorem step_peakV2_of_not_peaks {m : Move K} {v : Velocities K} (hp : ¬m.Peaks v) :
    (step m v).peakV2 = v.peakV2 := by
  unfold step
  split_ifs <;> rfl

end Velocities

/-- The velocities in front of the first move, with a stop behind the last one. -/
def velocities : List (Move K) → Velocities K
  | [] => ⟨0, 0, 0, []⟩
  | m :: rest => (velocities rest).step m

/-- The bound at the start of the first move, or the stop behind the last one. -/
def headStart : List (Move K) → K
  | [] => 0
  | m :: _ => m.maxStartV2

/-- The smoothed bound at the start of the first move. -/
def headSmoothed : List (Move K) → K
  | [] => 0
  | m :: _ => m.maxSmoothedV2

/-- A queue whose moves are sound and each in reach of the one before it. -/
def Chain : List (Move K) → Prop
  | [] => True
  | m :: rest => m.Sound ∧ m.Follows (headStart rest) (headSmoothed rest) ∧ Chain rest

variable {w r : List (Move K)} {m : Move K}

theorem Chain.right (h : Chain (w ++ r)) : Chain r := by
  induction w with
  | nil => exact h
  | cons m w ih => exact ih h.2.2

/-- The velocities stay within the bounds of the first move. -/
structure Bounded (w : List (Move K)) : Prop where
  smoothed_nonneg : 0 ≤ (velocities w).smoothedV2
  smoothed_le_end : (velocities w).smoothedV2 ≤ (velocities w).endV2
  smoothed_le : (velocities w).smoothedV2 ≤ headSmoothed w
  end_le : (velocities w).endV2 ≤ headStart w

theorem Chain.bounded (h : Chain w) : Bounded w := by
  induction w with
  | nil => exact ⟨le_rfl, le_rfl, le_rfl, le_rfl⟩
  | cons m w ih =>
    obtain ⟨hm, -, hw⟩ := h
    obtain ⟨h0, h1, -, -⟩ := ih hw
    refine ⟨?_, ?_, ?_, ?_⟩
    · rw [velocities, Velocities.step_smoothedV2]
      exact le_min hm.maxSmoothedV2_nonneg (add_nonneg h0 hm.smoothDeltaV2_pos.le)
    · rw [velocities, Velocities.step_smoothedV2, Velocities.step_endV2]
      exact min_le_min hm.maxSmoothedV2_le (add_le_add h1 hm.smoothDeltaV2_le)
    · rw [velocities, Velocities.step_smoothedV2]
      exact min_le_left _ _
    · rw [velocities, Velocities.step_endV2]
      exact min_le_left _ _

/-- More moves raise the velocities. -/
theorem velocities_mono (h : Chain (w ++ r)) :
    (velocities w).endV2 ≤ (velocities (w ++ r)).endV2 ∧
      (velocities w).smoothedV2 ≤ (velocities (w ++ r)).smoothedV2 := by
  induction w with
  | nil =>
    have hb := h.bounded
    exact ⟨hb.smoothed_nonneg.trans hb.smoothed_le_end, hb.smoothed_nonneg⟩
  | cons m w ih =>
    obtain ⟨hend, hsmooth⟩ := ih h.2.2
    simp only [List.cons_append, velocities, Velocities.step_endV2, Velocities.step_smoothedV2]
    exact ⟨min_le_min_left _ (by linarith), min_le_min_left _ (by linarith)⟩

/-! ## What more moves do not change -/

/-- More moves do not change the velocities in front of the first move, nor which moves wait. -/
def Stable (w : List (Move K)) : Prop :=
  ∀ r, Chain (w ++ r) → (velocities (w ++ r)).endV2 = (velocities w).endV2 ∧
    (velocities (w ++ r)).smoothedV2 = (velocities w).smoothedV2 ∧
    (velocities (w ++ r)).delayed = (velocities w).delayed

/-- A move that accelerates from its whole bound is stable. -/
theorem stable_of_accelerates (hacc : m.Accelerates (velocities w))
    (hmax : m.startV2 (velocities w) = m.maxStartV2) : Stable (m :: w) := by
  intro r hr
  obtain ⟨hend, hsmooth⟩ := velocities_mono hr.2.2
  -- an accelerating move takes its smoothed bound
  have htake : ∀ v : Velocities K, m.Accelerates v → m.smoothedV2 v = m.maxSmoothedV2 :=
    fun v hv => (min_choice _ _).resolve_right hv.ne
  have hacc' : m.Accelerates (velocities (w ++ r)) := by
    have := hacc
    rw [Move.Accelerates, htake _ hacc] at this
    exact (min_le_left _ _).trans_lt (this.trans_le (by linarith))
  have hmax' : m.startV2 (velocities (w ++ r)) = m.maxStartV2 := by
    refine le_antisymm (min_le_left _ _) ?_
    rw [← hmax]
    exact min_le_min_left _ (by linarith)
  simp only [List.cons_append, velocities, Velocities.step_endV2, Velocities.step_smoothedV2,
    Velocities.step_delayed_of_accelerates hacc, Velocities.step_delayed_of_accelerates hacc',
    hmax, hmax', htake _ hacc, htake _ hacc', and_self]

/-- The velocities at a move depend on the velocities behind it. -/
theorem step_congr (m : Move K) {v v' : Velocities K} (hend : v'.endV2 = v.endV2)
    (hsmooth : v'.smoothedV2 = v.smoothedV2) (hdelayed : v'.delayed = v.delayed) :
    m.startV2 v' = m.startV2 v ∧ m.smoothedV2 v' = m.smoothedV2 v ∧
      (m.Accelerates v' ↔ m.Accelerates v) ∧ (m.Peaks v' ↔ m.Peaks v) ∧
      m.peakV2 v' = m.peakV2 v := by
  simp only [Move.startV2, Move.smoothedV2, Move.Accelerates, Move.Peaks, Move.peakV2, hend,
    hsmooth, hdelayed, and_self]

/-- In front of a stable queue every move is stable. -/
theorem Stable.cons (h : Stable w) (m : Move K) : Stable (m :: w) := by
  intro r hr
  obtain ⟨hend, hsmooth, hdelayed⟩ := h r hr.2.2
  obtain ⟨h1, h2, h3, h4, -⟩ := step_congr m hend hsmooth hdelayed
  simp only [List.cons_append, velocities, Velocities.step, h1, h2, h3, h4, hend, hdelayed]
  split_ifs <;> exact ⟨rfl, rfl, rfl⟩

/-- A peak in front of a stable queue is not changed either. -/
theorem Stable.velocities_eq (h : Stable w) (hacc : m.Accelerates (velocities w))
    (hpeak : m.Peaks (velocities w)) (hr : Chain (m :: w ++ r)) :
    velocities (m :: w ++ r) = velocities (m :: w) := by
  obtain ⟨hend, hsmooth, hdelayed⟩ := h r hr.2.2
  obtain ⟨h1, h2, h3, h4, h5⟩ := step_congr m hend hsmooth hdelayed
  simp only [List.cons_append, velocities, Velocities.step, h1, h2, h3, h4, h5, hacc, hpeak,
    if_true]

/-! ## Where a run of moves ends -/

/-- What the velocities of a queue say about its first moves : the peak is above the smoothed
velocity where no move waits, and a move that waits in front of a peak is stable. -/
structure Settled (w : List (Move K)) : Prop where
  peak_nonneg : 0 ≤ (velocities w).peakV2
  smoothed_eq : (velocities w).delayed = [] → (velocities w).smoothedV2 = headSmoothed w
  smoothed_le_peak : (velocities w).delayed = [] →
    (velocities w).smoothedV2 ≤ (velocities w).peakV2
  stable : (velocities w).delayed ≠ [] → (velocities w).peakV2 ≠ 0 → Stable w

/-- Where no move waits, and the move in front could take more than the smoothed velocity,
the whole bound is taken. -/
theorem whole_bound (hw : Bounded w) (hf : m.Follows (headStart w) (headSmoothed w))
    (heq : (velocities w).smoothedV2 = headSmoothed w)
    (hlt : (velocities w).smoothedV2 < m.maxSmoothedV2 + m.smoothDeltaV2) :
    (velocities w).endV2 = headStart w ∧ (velocities w).smoothedV2 = headStart w := by
  have hsame : headSmoothed w = headStart w := by
    refine hf.smoothed_eq.resolve_right fun h => ?_
    rw [heq, h] at hlt
    exact lt_irrefl _ hlt
  have hs : (velocities w).smoothedV2 = headStart w := heq.trans hsame
  exact ⟨le_antisymm hw.end_le (hs.symm.trans_le hw.smoothed_le_end), hs⟩

/-- Where no move waits and there is a peak, the first move accelerates. -/
theorem exists_accelerates (hpeak : (velocities w).peakV2 ≠ 0)
    (hdelayed : (velocities w).delayed = []) :
    ∃ m w', w = m :: w' ∧ m.Accelerates (velocities w') := by
  cases w with
  | nil => exact absurd rfl hpeak
  | cons m w' =>
    refine ⟨m, w', rfl, ?_⟩
    by_contra hno
    exact Velocities.step_delayed_ne_nil hno hdelayed

/-- Where no move waits, the move in front could take more, and there is a peak, the queue is
stable. -/
theorem stable_of_peak (hw : Bounded w) (hf : m.Follows (headStart w) (headSmoothed w))
    (hset : Settled w) (hdelayed : (velocities w).delayed = [])
    (hpeak : (velocities w).peakV2 ≠ 0)
    (hlt : (velocities w).smoothedV2 < m.maxSmoothedV2 + m.smoothDeltaV2) : Stable w := by
  obtain ⟨hmax, -⟩ := whole_bound hw hf (hset.smoothed_eq hdelayed) hlt
  obtain ⟨a, w', rfl, hacc⟩ := exists_accelerates hpeak hdelayed
  refine stable_of_accelerates hacc ?_
  rwa [velocities, Velocities.step_endV2] at hmax

theorem Chain.settled (h : Chain w) : Settled w := by
  induction w with
  | nil => exact ⟨le_rfl, fun _ => rfl, fun _ => le_rfl, fun hne => absurd rfl hne⟩
  | cons m w ih =>
    obtain ⟨hm, hf, hw⟩ := h
    have hset := ih hw
    have hb := hw.bounded
    have hd := hm.smoothDeltaV2_pos
    have hpeak0 : 0 ≤ m.peakV2 (velocities w) := by
      have := hb.smoothed_nonneg
      have : 0 ≤ m.smoothedV2 (velocities w) :=
        le_min hm.maxSmoothedV2_nonneg (add_nonneg hb.smoothed_nonneg hd.le)
      refine le_min hm.maxCruiseV2_pos.le (mul_nonneg ?_ (by norm_num))
      linarith
    by_cases hacc : m.Accelerates (velocities w)
    · have htake : m.smoothedV2 (velocities w) = m.maxSmoothedV2 :=
        (min_choice _ _).resolve_right hacc.ne
      refine ⟨?_, fun _ => ?_, fun _ => ?_, fun hne => ?_⟩
      · by_cases hp : m.Peaks (velocities w)
        · simpa [velocities, Velocities.step, hacc, hp] using hpeak0
        · simpa [velocities, Velocities.step, hacc, hp] using hset.peak_nonneg
      · rw [velocities, Velocities.step_smoothedV2, htake, headSmoothed]
      · rw [velocities, Velocities.step_smoothedV2]
        by_cases hp : m.Peaks (velocities w)
        · have hle : m.smoothedV2 (velocities w) ≤ m.peakV2 (velocities w) := by
            refine le_min ?_ ?_
            · rw [htake]
              exact hm.maxSmoothedV2_le.trans hm.maxStartV2_le
            · have := hacc
              rw [Move.Accelerates] at this
              norm_num
              linarith
          simpa [velocities, Velocities.step, hacc, hp] using hle
        · obtain ⟨hlow, hnil⟩ := not_or.1 hp
          have := hset.smoothed_le_peak (not_not.1 hnil)
          have hle : m.smoothedV2 (velocities w) ≤ (velocities w).peakV2 := by linarith
          simpa [velocities, Velocities.step, hacc, hp] using hle
      · exact absurd (Velocities.step_delayed_of_accelerates hacc) hne
    · refine ⟨?_, fun hnil => ?_, fun hnil => ?_, fun _ hpeak => ?_⟩
      · simpa [velocities, Velocities.step, hacc] using hset.peak_nonneg
      · exact absurd hnil (Velocities.step_delayed_ne_nil hacc)
      · exact absurd hnil (Velocities.step_delayed_ne_nil hacc)
      · have hpeak' : (velocities w).peakV2 ≠ 0 := by
          simpa [velocities, Velocities.step, hacc] using hpeak
        refine Stable.cons ?_ m
        by_cases hnil : (velocities w).delayed = []
        · refine stable_of_peak hb hf hset hnil hpeak' ?_
          -- a move that waits takes less than its smoothed bound
          have : (velocities w).smoothedV2 + m.smoothDeltaV2 ≤ m.maxSmoothedV2 := by
            by_contra hlt
            exact hacc ((min_le_left _ _).trans_lt (not_le.1 hlt))
          linarith
        · exact hset.stable hnil hpeak'

end Thinker
