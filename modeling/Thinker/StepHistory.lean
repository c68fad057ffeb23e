import Mathlib.Analysis.Real.Sqrt
import Mathlib.Data.List.DropRight
import Thinker.StepCompress
import Thinker.Transition
import Thinker.Trdispatch

/-!
# The history of the steps

`add_move` (`stepcompress.c`) keeps each move of a stepper in a list, newest first, with its clocks
and the position that it starts from. `stepcompress_set_last_position` puts a marker there, where
the positions count anew. `stepcompress_find_past_position` goes through the list and solves the
quadratic equation of the move that covers the clock; `stepcompress_history_expire` drops the end of
the list.

The answer is the position of the newest entry that has begun (`positionAt`), also after an expiry,
for clocks that are not before the end of what has expired (`findPastPosition_eq`). The exception
is a clock before a marker, where what was in force then has expired : the answer is the position
of the marker.

The messages to the micro-controller are left out.
-/

set_option linter.unusedSectionVars false

namespace Thinker

namespace StepHistory

open Stepcompress

/-- `CLOCK_DIFF_MAX`. -/
def clockDiffMax : ℕ :=
  3 * 2 ^ 28

/-- `struct history_steps`. -/
structure HistorySteps where
  firstClock : ℕ
  lastClock : ℕ
  startPosition : ℤ
  stepCount : ℤ
  interval : ℤ
  add : ℤ
  deriving DecidableEq, Repr

/-- The part of `struct stepcompress` that the history depends on. The list has the newest entry
first. -/
structure StepLog where
  lastStepClock : ℕ
  sdir : ℤ
  lastPosition : ℤ
  historyList : List HistorySteps

/-- `stepcompress_alloc`. -/
def StepLog.alloc : StepLog where
  lastStepClock := 0
  sdir := -1
  lastPosition := 0
  historyList := []

section

variable (i32 : ℤ → ℤ)

/-- The `ticks` of `add_move`. -/
def moveTicks (move : StepMove) : ℕ :=
  toUInt32 (i32 (move.add * addfactor i32 move.count) + move.interval * (move.count - 1))

/-- The entry that `add_move` makes. -/
def StepLog.entry (s : StepLog) (firstClock : ℕ) (move : StepMove) : HistorySteps where
  firstClock := firstClock
  lastClock := (firstClock + moveTicks i32 move) % 2 ^ 64
  startPosition := s.lastPosition
  stepCount := if s.sdir = 0 then -move.count else move.count
  interval := toInt32 move.interval
  add := move.add

/-- `add_move`. -/
def StepLog.addMove (s : StepLog) (firstClock : ℕ) (move : StepMove) : StepLog :=
  let hs := s.entry i32 firstClock move
  { s with
    lastStepClock := hs.lastClock
    lastPosition := s.lastPosition + hs.stepCount
    historyList := hs :: s.historyList }

/-- A pass through the loop of `queue_flush`, with the move that `compress_bisect_add` returns. -/
def StepLog.queueFlush (s : StepLog) (queue : List ℕ) (maxError : ℕ) (move : StepMove) :
    Option StepLog :=
  if Stepcompress.checkLine ⟨queue, maxError, s.lastStepClock⟩ move then
    some (s.addMove i32 ((s.lastStepClock + move.interval) % 2 ^ 64) move)
  else none

/-- `stepcompress_flush_far`. -/
def StepLog.flushFar (s : StepLog) (absStepClock : ℕ) : StepLog :=
  s.addMove i32 absStepClock ⟨sub32 absStepClock s.lastStepClock, 1, 0⟩

end

/-- `set_next_step_dir`, after the flush. -/
def StepLog.setNextStepDir (s : StepLog) (sdir : ℤ) : StepLog :=
  { s with sdir := sdir }

/-- `stepcompress_reset`, after the flush. -/
def StepLog.reset (s : StepLog) (lastStepClock : ℕ) : StepLog :=
  { s with lastStepClock := lastStepClock, sdir := -1 }

/-- The entry that marks a position. -/
def marker (clock : ℕ) (lastPosition : ℤ) : HistorySteps :=
  ⟨clock, clock, lastPosition, 0, 0, 0⟩

/-- `stepcompress_set_last_position`, after the flush. -/
def StepLog.setLastPosition (s : StepLog) (clock : ℕ) (lastPosition : ℤ) : StepLog :=
  { s with
    lastPosition := lastPosition
    historyList := marker clock lastPosition :: s.historyList }

/-- Whether `free_history` drops an entry at the end of the list. -/
def HistorySteps.isOver (endClock : ℕ) (hs : HistorySteps) : Bool :=
  decide (hs.lastClock ≤ endClock)

/-- `stepcompress_history_expire`. -/
def StepLog.historyExpire (s : StepLog) (endClock : ℕ) : StepLog :=
  { s with historyList := s.historyList.rdropWhile (·.isOver endClock) }

variable {K : Type*} [Field K] [LinearOrder K] [IsStrictOrderedRing K] [FloorRing K]

/-- The `offset` of `stepcompress_find_past_position`. -/
def HistorySteps.offset (sqrt : K → K) (i32 : ℤ → ℤ) (hs : HistorySteps) (clock : ℕ) : ℤ :=
  let ticks := i32 (toInt32 (clock - hs.firstClock) + hs.interval)
  if hs.add = 0 then ticks.tdiv hs.interval
  else
    let a : K := hs.add / 2
    let b : K := hs.interval - hs.add / 2
    let c : K := -ticks
    truncate ((sqrt (b * b - 4 * a * c) - b) / (2 * a))

/-- The loop of `stepcompress_find_past_position`. -/
def findInHistory (sqrt : K → K) (i32 : ℤ → ℤ) (clock : ℕ) : ℤ → List HistorySteps → ℤ
  | lastPosition, [] => lastPosition
  | _, hs :: rest =>
    if clock < hs.firstClock then findInHistory sqrt i32 clock hs.startPosition rest
    else if clock ≥ hs.lastClock then hs.startPosition + hs.stepCount
    else if hs.stepCount < 0 then hs.startPosition - hs.offset sqrt i32 clock
    else hs.startPosition + hs.offset sqrt i32 clock

/-- `stepcompress_find_past_position`. -/
def StepLog.findPastPosition (sqrt : K → K) (i32 : ℤ → ℤ) (s : StepLog) (clock : ℕ) : ℤ :=
  findInHistory sqrt i32 clock s.lastPosition s.historyList

/-! ## Where the stepper is -/

namespace HistorySteps

variable (hs : HistorySteps)

/-- The clocks of the steps of a move. -/
def steps : List ℤ :=
  stepClocks hs.add (hs.firstClock - hs.interval) hs.interval hs.stepCount.natAbs

/-- The position at a clock after an entry has begun : each step that is over counts. -/
def positionAt (clock : ℕ) : ℤ :=
  hs.startPosition + hs.stepCount.sign * hs.steps.countP fun step => step ≤ (clock : ℤ)

/-- The position after an entry. -/
def endPosition : ℤ :=
  hs.startPosition + hs.stepCount

/-- Whether an entry is a marker. -/
def IsMarker : Prop :=
  hs.stepCount = 0

instance : Decidable hs.IsMarker :=
  inferInstanceAs (Decidable (_ = _))

/-- Whether an entry is in force at a clock, if no newer one is. -/
def hasBegun (clock : ℕ) : Bool :=
  decide (hs.firstClock ≤ clock)

end HistorySteps

/-- The position at a clock after a history : that of the entry in force, or where the first entry
starts. -/
def positionAt (lastPosition : ℤ) (history : List HistorySteps) (clock : ℕ) : ℤ :=
  match history.find? (·.hasBegun clock) with
  | some hs => hs.positionAt clock
  | none => (history.getLast?.map HistorySteps.startPosition).getD lastPosition

/-! ## Runs -/

/-- A stepper, and what has expired of its history. -/
structure Stepper where
  log : StepLog
  expired : List HistorySteps

/-- The history as if nothing had expired. -/
def Stepper.whole (s : Stepper) : List HistorySteps :=
  s.log.historyList ++ s.expired

/-- What happens to the history of a stepper. -/
inductive Event where
  | queueFlush (queue : List ℕ) (maxError : ℕ) (move : StepMove)
  | flushFar (absStepClock : ℕ)
  | setNextStepDir (sdir : ℤ)
  | reset (lastStepClock : ℕ)
  | setLastPosition (clock : ℕ) (lastPosition : ℤ)
  | historyExpire (endClock : ℕ)

/-- The stepper after an event. -/
def Stepper.next (i32 : ℤ → ℤ) (s : Stepper) : Event → Option Stepper
  | .queueFlush queue maxError move =>
    (s.log.queueFlush i32 queue maxError move).map fun log => { s with log := log }
  | .flushFar absStepClock => some { s with log := s.log.flushFar i32 absStepClock }
  | .setNextStepDir sdir => some { s with log := s.log.setNextStepDir sdir }
  | .reset lastStepClock => some { s with log := s.log.reset lastStepClock }
  | .setLastPosition clock lastPosition =>
    some { s with log := s.log.setLastPosition clock lastPosition }
  | .historyExpire endClock =>
    some ⟨s.log.historyExpire endClock,
      s.log.historyList.rtakeWhile (·.isOver endClock) ++ s.expired⟩

/-- The runs of a stepper. -/
def system (i32 : ℤ → ℤ) : System Stepper Event where
  init s := s = ⟨.alloc, []⟩
  next := Stepper.next i32

/-- What the callers see to : a move covers steps of the queue, which are not further from the last
step than `CLOCK_DIFF_MAX`, and arguments are in the range of their type. -/
def InRange (s : Stepper) : Event → Prop
  | .queueFlush queue maxError move =>
    move.count ≤ queue.length ∧ move.count < 2 ^ 16 ∧ move.interval < 2 ^ 32 ∧
      -2 ^ 15 ≤ move.add ∧ move.add < 2 ^ 15 ∧
      ∀ i < queue.length,
        Stepcompress.ticks ⟨queue, maxError, s.log.lastStepClock⟩ i < clockDiffMax
  | .flushFar absStepClock => absStepClock < 2 ^ 64
  | .setLastPosition clock _ => clock < 2 ^ 64
  | _ => True

/-- Clocks that increase in time. -/
structure Increasing (history : List HistorySteps) : Prop where
  le : ∀ hs ∈ history, hs.firstClock ≤ hs.lastClock
  pairwise : history.Pairwise fun new old => old.lastClock ≤ new.firstClock

/-! ## The steps of an entry -/

/-- What an entry of the history looks like. -/
structure HistorySteps.Sound (hs : HistorySteps) : Prop where
  last_eq : hs.firstClock ≤ hs.lastClock →
    (hs.lastClock : ℤ) = hs.firstClock + quad hs.add hs.interval hs.stepCount.natAbs - hs.interval
  step_nonneg : ∀ j, 1 ≤ j → j < hs.stepCount.natAbs → 0 ≤ hs.interval + hs.add * j
  interval_nonneg : hs.stepCount.natAbs ≠ 1 → 0 ≤ hs.interval
  quad_lt : 2 ≤ hs.stepCount.natAbs → quad hs.add hs.interval hs.stepCount.natAbs < 2 ^ 31

/-- Arithmetic of `int32_t` that is right where nothing overflows. -/
def Lawful (i32 : ℤ → ℤ) : Prop :=
  ∀ a, -2 ^ 31 ≤ a → a < 2 ^ 31 → i32 a = a

namespace HistorySteps

variable {hs : HistorySteps} {clock : ℕ} {sqrt : K → K} {i32 : ℤ → ℤ}

/-- After its last clock, an entry has made all its steps. -/
theorem Sound.positionAt_of_le (h : hs.Sound) (hle : hs.firstClock ≤ hs.lastClock)
    (hclock : hs.lastClock ≤ clock) : hs.positionAt clock = hs.endPosition := by
  have hcount : hs.steps.countP (fun step => step ≤ (clock : ℤ)) = hs.stepCount.natAbs := by
    refine countP_stepClocks le_rfl fun k hk hkn => iff_of_true ?_ hkn
    have hmono := quad_le_quad h.step_nonneg hk hkn le_rfl
    have hlast := h.last_eq hle
    omega
  rw [HistorySteps.positionAt, hcount, Int.sign_mul_natAbs, endPosition]

/-- A clock that a move covers. -/
structure Covers (hs : HistorySteps) (clock : ℕ) : Prop where
  first_le : hs.firstClock ≤ clock
  lt_last : clock < hs.lastClock

/-- The ticks of a clock that a move covers, from the step before the move. -/
theorem Sound.ticks (h : hs.Sound) (hi32 : Lawful i32) (hc : hs.Covers clock) :
    2 ≤ hs.stepCount.natAbs ∧
    i32 (toInt32 (clock - hs.firstClock) + hs.interval) =
      (clock : ℤ) - hs.firstClock + hs.interval ∧
    (clock : ℤ) - hs.firstClock + hs.interval <
      quad hs.add hs.interval hs.stepCount.natAbs := by
  obtain ⟨hfirst, hlast⟩ := hc
  have heq := h.last_eq (by omega)
  have hlt : (clock : ℤ) - hs.firstClock + hs.interval <
      quad hs.add hs.interval hs.stepCount.natAbs := by omega
  have hcount : 2 ≤ hs.stepCount.natAbs := by
    by_contra hsmall
    obtain hzero | hone : hs.stepCount.natAbs = 0 ∨ hs.stepCount.natAbs = 1 := by omega
    · have hinterval := h.interval_nonneg (by omega)
      rw [hzero, quad_zero] at heq
      omega
    · rw [hone, quad_one] at heq
      omega
  have hquad := h.quad_lt hcount
  have hinterval := h.interval_nonneg (by omega)
  have hcast : toInt32 (clock - hs.firstClock) = (clock : ℤ) - hs.firstClock := by
    unfold toInt32
    rw [Int.bmod_eq_of_le (by omega) (by omega)]
    omega
  refine ⟨hcount, ?_, hlt⟩
  rw [hcast]
  exact hi32 _ (by omega) (by omega)

/-- The offset counts the steps up to the clock. -/
theorem Sound.offset_spec (h : hs.Sound) (hi32 : Lawful i32) (hsqrt : ExactSqrt sqrt)
    (hc : hs.Covers clock) : ∃ m : ℕ, hs.offset sqrt i32 clock = m ∧ m ≤ hs.stepCount.natAbs ∧
      ∀ k, 1 ≤ k → k ≤ hs.stepCount.natAbs →
        (quad hs.add hs.interval k ≤ clock - hs.firstClock + hs.interval ↔ k ≤ m) := by
  obtain ⟨hcount, hticks, hlt⟩ := h.ticks hi32 hc
  have hinterval := h.interval_nonneg (by omega)
  have hfirst := hc.first_le
  set t : ℤ := clock - hs.firstClock + hs.interval with ht
  have hone : quad hs.add hs.interval 1 ≤ t := by
    rw [quad_one]
    omega
  unfold offset
  dsimp only
  rw [hticks]
  split_ifs with hadd
  · -- every step takes the interval
    simp only [quad, hadd, zero_mul, zero_add] at hlt ⊢
    have hpos : 0 < hs.interval := by
      rcases hinterval.eq_or_lt with hzero | hpos
      · rw [← hzero, zero_mul] at hlt
        omega
      · exact hpos
    rw [Int.tdiv_eq_ediv_of_nonneg (by omega)]
    have hdiv := Int.ediv_nonneg (by omega : 0 ≤ t) hinterval
    have hle : t / hs.interval < hs.stepCount.natAbs :=
      Int.ediv_lt_of_lt_mul hpos (by rwa [mul_comm])
    refine ⟨(t / hs.interval).toNat, by omega, by omega, fun k _ _ => ?_⟩
    rw [mul_comm, ← Int.le_ediv_iff_mul_le hpos]
    omega
  · have hroot := fun k => quad_le_iff_le_root (k := k) hsqrt hadd hone hlt
    have hr := (hroot 1 le_rfl (by omega)).1 hone
    have hn := (hroot _ (by omega) le_rfl).not.1 (not_le.2 hlt)
    set r : K := (sqrt ((hs.interval - hs.add / 2) * (hs.interval - hs.add / 2) -
      4 * (hs.add / 2) * -t) - (hs.interval - hs.add / 2)) / (2 * (hs.add / 2))
    have hr0 : 0 ≤ r := le_trans (by norm_num) hr
    have hfloor : (⌊r⌋.toNat : ℤ) = ⌊r⌋ := Int.toNat_of_nonneg (Int.floor_nonneg.2 hr0)
    have hle : ⌊r⌋ < hs.stepCount.natAbs :=
      Int.floor_lt.2 (by rw [Int.cast_natCast]; exact not_le.1 hn)
    refine ⟨⌊r⌋.toNat, (if_pos hr0).trans hfloor.symm, by omega, fun k hk hkn => ?_⟩
    rw [hroot k hk hkn, ← Int.cast_natCast, ← Int.le_floor]
    omega

/-- What the search returns for the entry in force. -/
theorem Sound.find_eq (h : hs.Sound) (hi32 : Lawful i32) (hsqrt : ExactSqrt sqrt)
    (hc : hs.Covers clock) :
    (if hs.stepCount < 0 then hs.startPosition - hs.offset sqrt i32 clock
      else hs.startPosition + hs.offset sqrt i32 clock) = hs.positionAt clock := by
  obtain ⟨m, hoffset, hm, hsteps⟩ := h.offset_spec hi32 hsqrt hc
  have hcount : hs.steps.countP (fun step => step ≤ (clock : ℤ)) = m := by
    refine countP_stepClocks hm fun k hk hkn => ?_
    rw [← hsteps k hk hkn]
    constructor <;> intro hle <;> linarith
  have htwo := (h.ticks hi32 hc).1
  rw [positionAt, hcount, hoffset]
  split_ifs with hneg
  · rw [Int.sign_eq_neg_one_of_neg hneg]
    ring
  · rw [Int.sign_eq_one_of_pos (by omega)]
    ring

end HistorySteps

/-! ## The search -/

variable {sqrt : K → K} {i32 : ℤ → ℤ} {clock : ℕ}

theorem getLast?_cons_getD (hs : HistorySteps) (rest : List HistorySteps) (lastPosition : ℤ) :
    ((hs :: rest).getLast?.map HistorySteps.startPosition).getD lastPosition =
      (rest.getLast?.map HistorySteps.startPosition).getD hs.startPosition := by
  cases hlast : rest.getLast? with
  | none => simp [List.getLast?_cons, hlast]
  | some m => simp [List.getLast?_cons, hlast]

theorem positionAt_cons (lastPosition : ℤ) (hs : HistorySteps) (rest : List HistorySteps) :
    positionAt lastPosition (hs :: rest) clock =
      if hs.firstClock ≤ clock then hs.positionAt clock
      else positionAt hs.startPosition rest clock := by
  unfold positionAt
  rw [List.find?_cons, getLast?_cons_getD]
  split_ifs with hbegun
  · rw [show hs.hasBegun clock = true from decide_eq_true hbegun]
  · rw [show hs.hasBegun clock = false from decide_eq_false hbegun]

/-- The search finds where the stepper is, by the entries that are left. -/
theorem findInHistory_eq (hi32 : Lawful i32) (hsqrt : ExactSqrt sqrt)
    {history : List HistorySteps} (hsound : ∀ hs ∈ history, hs.Sound)
    (hle : ∀ hs ∈ history, hs.firstClock ≤ hs.lastClock) (lastPosition : ℤ) :
    findInHistory sqrt i32 clock lastPosition history =
      positionAt lastPosition history clock := by
  induction history generalizing lastPosition with
  | nil => rfl
  | cons hs rest ih =>
    have hhs := hsound hs List.mem_cons_self
    rw [findInHistory, positionAt_cons, ih (fun e he => hsound e (List.mem_cons_of_mem _ he))
      (fun e he => hle e (List.mem_cons_of_mem _ he))]
    rcases Nat.lt_or_ge clock hs.firstClock with hbefore | hbegun
    · rw [if_pos hbefore, if_neg (not_le.2 hbefore)]
    · rw [if_neg (not_lt.2 hbegun), if_pos hbegun]
      rcases Nat.lt_or_ge clock hs.lastClock with hcovers | hover
      · rw [if_neg (not_le.2 hcovers), hhs.find_eq hi32 hsqrt ⟨hbegun, hcovers⟩]
      · rw [if_pos hover, hhs.positionAt_of_le (hle hs List.mem_cons_self) hover,
          HistorySteps.endPosition]

/-! ## What has expired -/

/-- Positions that go on from entry to entry, up to a position, but for the markers. -/
inductive Leads : ℤ → List HistorySteps → Prop
  | nil (position : ℤ) : Leads position []
  | move {hs : HistorySteps} {rest : List HistorySteps} (h : Leads hs.startPosition rest) :
    Leads hs.endPosition (hs :: rest)
  | marker (clock : ℕ) (position : ℤ) {before : ℤ} {rest : List HistorySteps}
    (h : Leads before rest) : Leads position (marker clock position :: rest)

theorem Leads.head_endPosition {position : ℤ} {e : HistorySteps} {rest : List HistorySteps}
    (h : Leads position (e :: rest)) : e.endPosition = position := by
  cases h with
  | move h => rfl
  | marker clock position h => exact add_zero position

/-- The oldest entry that is left goes on from what has expired, if it is no marker. -/
theorem Leads.oldest {position : ℤ} {kept : List HistorySteps} {e : HistorySteps}
    {expired : List HistorySteps} (h : Leads position (kept ++ e :: expired))
    (hmove : ∀ m ∈ kept.getLast?, ¬m.IsMarker) :
    (kept.getLast?.map HistorySteps.startPosition).getD position = e.endPosition := by
  induction kept generalizing position with
  | nil => exact h.head_endPosition.symm
  | cons k rest ih =>
    have hrest : ∀ m ∈ rest.getLast?, ¬m.IsMarker := fun m hm =>
      hmove m (by simp [List.getLast?_cons, Option.mem_def.1 hm])
    rw [getLast?_cons_getD]
    cases h with
    | move h => exact ih h hrest
    | marker clock position h =>
      cases hlast : rest.getLast? with
      | none =>
        have hmarker : (StepHistory.marker clock position).IsMarker := rfl
        exact absurd hmarker (hmove _ (by rw [List.getLast?_cons, hlast]; rfl))
      | some m =>
        have hstart := ih h hrest
        rw [hlast] at hstart
        exact hstart

/-- With what has expired, the answer is the same, if the clock is not before a marker that is
the oldest entry left. -/
theorem positionAt_append {position : ℤ} {kept expired : List HistorySteps}
    (hleads : Leads position (kept ++ expired)) (hsound : ∀ hs ∈ expired, hs.Sound)
    (hle : ∀ hs ∈ expired, hs.firstClock ≤ hs.lastClock)
    (hclock : ∀ hs ∈ expired, hs.lastClock ≤ clock)
    (hmove : expired ≠ [] → ∀ m ∈ kept.getLast?, clock < m.firstClock → ¬m.IsMarker) :
    positionAt position (kept ++ expired) clock = positionAt position kept clock := by
  cases hfind : kept.find? (·.hasBegun clock) with
  | some hs => simp only [positionAt, List.find?_append, hfind, Option.some_or]
  | none =>
    cases expired with
    | nil => rw [List.append_nil]
    | cons e expired =>
      have hlast := hclock e List.mem_cons_self
      have hfirst := hle e List.mem_cons_self
      have hbegun : e.hasBegun clock = true := decide_eq_true (hfirst.trans hlast)
      have hbefore : ∀ m ∈ kept.getLast?, clock < m.firstClock := fun m hm => by
        have hnot := List.find?_eq_none.1 hfind m (List.mem_of_getLast? hm)
        simpa [HistorySteps.hasBegun] using hnot
      have holdest := hleads.oldest fun m hm => hmove (by simp) m hm (hbefore m hm)
      have hnow : (e :: expired).find? (·.hasBegun clock) = some e := by
        rw [List.find?_cons, hbegun]
      simp only [positionAt, List.find?_append, hfind, Option.none_or, hnow, holdest]
      exact (hsound e List.mem_cons_self).positionAt_of_le hfirst hlast

/-! ## What a run keeps -/

/-- What holds of the history of a stepper, with what has expired of it. -/
structure Inv (s : Stepper) : Prop where
  sound : ∀ hs ∈ s.whole, hs.Sound
  leads : Leads s.log.lastPosition s.whole

theorem sound_marker (clock : ℕ) (position : ℤ) : (marker clock position).Sound where
  last_eq _ := by simp [marker]
  step_nonneg j _ hj := absurd hj (Nat.not_lt_zero j)
  interval_nonneg _ := le_rfl
  quad_lt h := absurd h (by simp [marker])

/-- The clocks of a move : no step goes back, and all are near. -/
structure Fits (move : StepMove) : Prop where
  count_pos : 1 ≤ move.count
  interval_lt : move.interval < 2 ^ 31
  step_nonneg : ∀ j < move.count, (0 : ℤ) ≤ move.interval + move.add * j
  quad_lt : quad move.add move.interval move.count < clockDiffMax

/-- `addfactor` is exact where it is not multiplied by zero. -/
theorem add_mul_addfactor (hi32 : Lawful i32) {add : ℤ} {count : ℕ}
    (h : |add| * tri count < 2 ^ 30) :
    i32 (add * addfactor i32 count) = add * tri count := by
  rcases eq_or_ne add 0 with rfl | hne
  · rw [zero_mul, zero_mul]
    exact hi32 0 (by norm_num) (by norm_num)
  · have htri := tri_nonneg count
    have htwo := two_mul_tri count
    have hone : 1 ≤ |add| := Int.one_le_abs hne
    have hsmall : tri count < 2 ^ 30 := by nlinarith
    have hfactor : addfactor i32 count = tri count := by
      have hprod : (count : ℤ) * (count - 1) = 2 * tri count := htwo.symm
      unfold addfactor
      rw [hprod, hi32 _ (by omega) (by omega), Int.tdiv_eq_ediv_of_nonneg (by omega)]
      omega
    have habs : |add * tri count| < 2 ^ 30 := by
      rwa [abs_mul, abs_of_nonneg htri]
    rw [hfactor]
    have hbounds := abs_lt.1 habs
    exact hi32 _ (by omega) (by omega)

/-- The ticks of a move are exact. -/
theorem Fits.moveTicks_eq {move : StepMove} (h : Fits move) (hi32 : Lawful i32) :
    (moveTicks i32 move : ℤ) = quad move.add move.interval move.count - move.interval := by
  obtain ⟨d, hd⟩ : ∃ d, move.count = d + 1 := ⟨move.count - 1, by have := h.count_pos; omega⟩
  have hlast := h.step_nonneg d (by omega)
  have hlt := h.quad_lt
  have habs := abs_mul_tri_le_quad (by simp) hlast
  rw [← hd] at habs
  have hmono := quad_le_quad (fun j _ hj => h.step_nonneg j hj) le_rfl h.count_pos le_rfl
  rw [quad_one] at hmono
  have hsum : move.add * tri move.count + move.interval * (move.count - 1) =
      quad move.add move.interval move.count - move.interval := by
    unfold quad
    ring
  unfold moveTicks toUInt32
  rw [add_mul_addfactor hi32 (habs.trans_lt (hlt.trans (by norm_num [clockDiffMax]))), hsum]
  unfold clockDiffMax at hlt
  omega

variable {log : StepLog} {s t : Stepper}

theorem natAbs_stepCount (log : StepLog) (firstClock : ℕ) (move : StepMove) :
    (log.entry i32 firstClock move).stepCount.natAbs = move.count := by
  unfold StepLog.entry
  dsimp only
  split_ifs <;> simp

/-- The last clock of an entry, if it has not wrapped around. -/
theorem lastClock_eq {firstClock : ℕ} {move : StepMove} (hfirst : firstClock < 2 ^ 64)
    (hle : firstClock ≤ (log.entry i32 firstClock move).lastClock) :
    (log.entry i32 firstClock move).lastClock = firstClock + moveTicks i32 move := by
  have hticks : moveTicks i32 move < 2 ^ 32 := by
    unfold moveTicks toUInt32
    omega
  unfold StepLog.entry at hle ⊢
  dsimp only at hle ⊢
  omega

/-- `add_move` makes a sound entry of a move that fits. -/
theorem Fits.sound {move : StepMove} (h : Fits move) (hi32 : Lawful i32) {firstClock : ℕ}
    (hfirst : firstClock < 2 ^ 64) : (log.entry i32 firstClock move).Sound := by
  have hcount : (log.entry i32 firstClock move).stepCount.natAbs = move.count :=
    natAbs_stepCount log firstClock move
  have hcast : toInt32 move.interval = (move.interval : ℤ) := by
    have hlt := h.interval_lt
    unfold toInt32
    exact Int.bmod_eq_of_le (by omega) (by omega)
  have hlt := h.quad_lt
  constructor
  · intro hle
    have hlast := lastClock_eq hfirst hle
    have hticks := h.moveTicks_eq hi32
    rw [hcount, hlast]
    simp only [StepLog.entry, hcast]
    push_cast
    rw [hticks]
    ring
  · intro j _ hj
    rw [hcount] at hj
    simpa only [StepLog.entry, hcast] using h.step_nonneg j hj
  · intro _
    simp [StepLog.entry, hcast]
  · intro _
    rw [hcount]
    simp only [StepLog.entry, hcast]
    exact hlt.trans (by norm_num [clockDiffMax])

/-- The single step of a move that is far makes a sound entry. -/
theorem sound_far (hi32 : Lawful i32) {firstClock : ℕ} (hfirst : firstClock < 2 ^ 64)
    (interval : ℕ) : (log.entry i32 firstClock ⟨interval, 1, 0⟩).Sound := by
  have hcount : (log.entry i32 firstClock ⟨interval, 1, 0⟩).stepCount.natAbs = 1 :=
    natAbs_stepCount log firstClock ⟨interval, 1, 0⟩
  have hticks : moveTicks i32 ⟨interval, 1, 0⟩ = 0 := by
    unfold moveTicks
    rw [zero_mul, hi32 0 (by norm_num) (by norm_num)]
    simp [toUInt32]
  constructor
  · intro hle
    have hlast := lastClock_eq hfirst hle
    rw [hcount, hlast, hticks, quad_one]
    simp [StepLog.entry]
  · intro j hj hlt
    omega
  · exact fun h => absurd hcount h
  · intro h
    omega

/-- A move of the queue that `check_line` accepts fits. -/
theorem fits_of_checkLine {queue : List ℕ} {maxError : ℕ} {move : StepMove}
    (hrange : InRange s (.queueFlush queue maxError move))
    (hcheck : Stepcompress.checkLine ⟨queue, maxError, s.log.lastStepClock⟩ move = true) :
    Fits move := by
  obtain ⟨hqueue, -, hinterval, hlow, hhigh, hticks⟩ := hrange
  have hnear : ∀ j < move.count,
      Stepcompress.ticks ⟨queue, maxError, s.log.lastStepClock⟩ j < clockDiffMax :=
    fun j hj => hticks j (hj.trans_le hqueue)
  obtain ⟨hpos, hlt, hsteps⟩ := checkLine_spec hinterval ⟨hlow, hhigh⟩
    (fun j hj => (hnear j hj).trans (by norm_num [clockDiffMax])) hcheck
  refine ⟨hpos, hlt, fun j hj => (hsteps j hj).1, ?_⟩
  have hlast := (hsteps (move.count - 1) (by omega)).2.1
  rw [Nat.sub_add_cancel hpos] at hlast
  exact hlast.trans_lt (Nat.cast_lt.2 (hnear _ (by omega)))

/-- A new entry from `add_move`. -/
theorem Inv.addMove (h : Inv s) {firstClock : ℕ} {move : StepMove}
    (hsound : (s.log.entry i32 firstClock move).Sound) :
    Inv { s with log := s.log.addMove i32 firstClock move } where
  sound := List.forall_mem_cons.2 ⟨hsound, h.sound⟩
  leads := @Leads.move (s.log.entry i32 firstClock move) _ h.leads

theorem inv_step (hi32 : Lawful i32) {e : Event} (h : Inv s) (hrange : InRange s e)
    (hnext : (system i32).next s e = some t) : Inv t := by
  cases e with
  | queueFlush queue maxError move =>
    obtain ⟨log, hlog, rfl⟩ := Option.map_eq_some_iff.1 hnext
    unfold StepLog.queueFlush at hlog
    split_ifs at hlog with hcheck
    obtain rfl := Option.some_inj.1 hlog
    exact h.addMove ((fits_of_checkLine hrange hcheck).sound hi32 (Nat.mod_lt _ (by norm_num)))
  | flushFar absStepClock =>
    obtain rfl := Option.some_inj.1 hnext
    exact h.addMove (sound_far hi32 hrange _)
  | setNextStepDir sdir | reset lastStepClock =>
    obtain rfl := Option.some_inj.1 hnext
    exact ⟨h.sound, h.leads⟩
  | setLastPosition clock position =>
    obtain rfl := Option.some_inj.1 hnext
    exact ⟨List.forall_mem_cons.2 ⟨sound_marker clock position, h.sound⟩,
      .marker clock position h.leads⟩
  | historyExpire endClock =>
    obtain rfl := Option.some_inj.1 hnext
    have hwhole : Stepper.whole ⟨s.log.historyExpire endClock,
        s.log.historyList.rtakeWhile (·.isOver endClock) ++ s.expired⟩ = s.whole := by
      rw [Stepper.whole, StepLog.historyExpire, ← List.append_assoc,
        List.rdropWhile_append_rtakeWhile]
      rfl
    exact ⟨hwhole ▸ h.sound, hwhole ▸ h.leads⟩

theorem inv_of_reachable (hi32 : Lawful i32) (h : (system i32).ReachableBy InRange s) : Inv s := by
  refine h.invariant ?_ fun s e t hs hrange hnext => inv_step hi32 hs hrange hnext
  rintro s rfl
  exact ⟨fun hs hmem => absurd hmem List.not_mem_nil, .nil 0⟩

/-! ## The position at a clock -/

/-- Whether a clock is before a marker that is the oldest entry left, and something older has
expired. -/
def Stepper.Rebased (s : Stepper) (clock : ℕ) : Prop :=
  s.expired ≠ [] ∧ ∃ m ∈ s.log.historyList.getLast?, clock < m.firstClock ∧ m.IsMarker

/-- `stepcompress_find_past_position` finds where the stepper was, and before the oldest entry that
is left, where that starts. -/
theorem findPastPosition_eq (hsqrt : ExactSqrt sqrt) (hi32 : Lawful i32)
    (h : (system i32).ReachableBy InRange s) (hclocks : Increasing s.whole)
    (hclock : ∀ hs ∈ s.expired, hs.lastClock ≤ clock) :
    (¬s.Rebased clock → s.log.findPastPosition sqrt i32 clock =
      positionAt s.log.lastPosition s.whole clock) ∧
    ∀ m ∈ s.log.historyList.getLast?, clock < m.firstClock →
      s.log.findPastPosition sqrt i32 clock = m.startPosition := by
  have hinv := inv_of_reachable hi32 h
  have hfind : s.log.findPastPosition sqrt i32 clock =
      positionAt s.log.lastPosition s.log.historyList clock := findInHistory_eq hi32 hsqrt
    (fun hs hmem => hinv.sound hs (List.mem_append_left _ hmem))
    (fun hs hmem => hclocks.le hs (List.mem_append_left _ hmem)) s.log.lastPosition
  refine ⟨fun hrebased => ?_, fun m hm hbefore => ?_⟩
  · refine hfind.trans (positionAt_append hinv.leads
      (fun hs hmem => hinv.sound hs (List.mem_append_right _ hmem))
      (fun hs hmem => hclocks.le hs (List.mem_append_right _ hmem)) hclock ?_).symm
    exact fun hne m hm hbefore hmarker => hrebased ⟨hne, m, hm, hbefore, hmarker⟩
  · have hnone : s.log.historyList.find? (·.hasBegun clock) = none := by
      obtain ⟨front, hfront⟩ := List.getLast?_eq_some_iff.1 hm
      have hpairwise := (List.pairwise_append.1 hclocks.pairwise).1
      have hle := hclocks.le m (List.mem_append_left _ (List.mem_of_getLast? hm))
      rw [hfront, List.pairwise_append] at hpairwise
      rw [List.find?_eq_none, hfront]
      intro hs hmem
      have hlater : m.firstClock ≤ hs.firstClock := by
        rcases List.mem_append.1 hmem with hmem | hmem
        · exact hle.trans (hpairwise.2.2 hs hmem m List.mem_cons_self)
        · rw [List.mem_singleton.1 hmem]
      simp only [HistorySteps.hasBegun, decide_eq_true_eq]
      omega
    refine hfind.trans ?_
    rw [positionAt, hnone, Option.mem_def.1 hm]
    rfl

instance (s : Stepper) (e : Event) : Decidable (InRange s e) := by
  cases e <;> unfold InRange <;> infer_instance

/-- A stepper without steps. -/
def Stepper.start : Stepper :=
  ⟨.alloc, []⟩

/-- The stepper after a run. -/
def afterRun (events : List Event) : Stepper :=
  ((system id).run .start events).getD .start

theorem reachable_afterRun {events : List Event}
    (hsome : ((system id).run .start events).isSome = true)
    (hmeets : (system id).meets InRange .start events = true) :
    (system id).ReachableBy InRange (afterRun events) := by
  obtain ⟨s, hs⟩ := Option.isSome_iff_exists.1 hsome
  have hinit : (system id).ReachableBy InRange .start := .init rfl
  rw [afterRun, hs]
  exact hinit.run hmeets hs

theorem exactSqrt_real : ExactSqrt Real.sqrt :=
  fun x hx => ⟨Real.sqrt_nonneg x, Real.mul_self_sqrt hx⟩

theorem lawful_id : Lawful id :=
  fun _ _ _ => rfl

/-- A step back, which expires, and three steps ahead that become slower. -/
def slowingRun : List Event :=
  [.setNextStepDir 0, .queueFlush [10] 0 ⟨10, 1, 0⟩, .setNextStepDir 1,
    .queueFlush [25, 45, 70] 0 ⟨15, 3, 5⟩, .historyExpire 12]

theorem findPastPosition_slowingRun :
    (afterRun slowingRun).log.findPastPosition Real.sqrt id 50 = 1 :=
  have hmove : ∀ m ∈ (afterRun slowingRun).log.historyList.getLast?, ¬m.IsMarker := by
    decide +kernel
  ((findPastPosition_eq exactSqrt_real lawful_id
    (@reachable_afterRun slowingRun (by decide +kernel) (by decide +kernel))
    ⟨by decide +kernel, by decide +kernel⟩ (by decide +kernel)).1
    fun ⟨_, m, hm, _, hmarker⟩ => hmove m hm hmarker).trans (by decide +kernel)

/-- Three steps, and a marker for later; the steps expire. -/
def rebasedRun : List Event :=
  [.setNextStepDir 1, .queueFlush [10, 20, 30] 0 ⟨10, 3, 0⟩, .setLastPosition 100 1000,
    .historyExpire 50]

/-- Before the marker, the position after the steps is not found. -/
theorem not_findPastPosition_eq : ¬ ∀ (sqrt : ℝ → ℝ) (i32 : ℤ → ℤ), ExactSqrt sqrt → Lawful i32 →
    ∀ s, (system i32).ReachableBy InRange s → Increasing s.whole →
      ∀ clock, (∀ hs ∈ s.expired, hs.lastClock ≤ clock) →
        s.log.findPastPosition sqrt i32 clock =
          positionAt s.log.lastPosition s.whole clock := by
  intro h
  have heq := h Real.sqrt id exactSqrt_real lawful_id (afterRun rebasedRun)
    (reachable_afterRun (by decide +kernel) (by decide +kernel))
    ⟨by decide +kernel, by decide +kernel⟩ 60 (by decide +kernel)
  have hfind : (afterRun rebasedRun).log.findPastPosition Real.sqrt id 60 = 1000 := rfl
  have hposition : positionAt (afterRun rebasedRun).log.lastPosition
      (afterRun rebasedRun).whole 60 = 3 := by decide +kernel
  omega

end StepHistory

end Thinker
