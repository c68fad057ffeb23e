import Mathlib.Algebra.Order.Field.Basic
import Mathlib.Data.Fin.VecNotation
import Mathlib.Data.List.Chain
import Mathlib.Tactic.Linarith
import Mathlib.Tactic.Ring
import Thinker.Numerals

/-!
# The moves of a motion queue

`struct move` of `trapq.h`, and a pointer to one in the list of moves (`TrapqCursor`). What reads
the position of a stepper at a time goes from a move to its neighbours, until it is at the move
that the time is in. In a stretch of moves that follow each other in time it gets there, if the
time is in the stretch (`TrapqCursor.seek_spec`).
-/

set_option linter.unusedSectionVars false

namespace Thinker

variable {K : Type*} [Field K] [LinearOrder K] [IsStrictOrderedRing K]

/-- `struct coord`, with the axes in the order `x`, `y`, `z`. -/
abbrev TrapqCoord (K : Type*) := Fin 3 → K

/-- The flags `AF_X`, `AF_Y` and `AF_Z`. -/
abbrev ActiveFlags := Fin 3 → Bool

/-- `struct move`. -/
structure TrapqMove (K : Type*) where
  printTime : K
  moveT : K
  startV : K
  halfAccel : K
  startPos : TrapqCoord K
  axesR : TrapqCoord K

namespace TrapqMove

/-- `move_alloc`. -/
def alloc : TrapqMove K :=
  ⟨0, 0, 0, 0, 0, 0⟩

variable (m : TrapqMove K)

/-- `move_get_distance`. -/
def getDistance (moveTime : K) : K :=
  (m.startV + m.halfAccel * moveTime) * moveTime

/-- `move_get_coord`. -/
def getCoord (moveTime : K) : TrapqCoord K :=
  fun axis => m.startPos axis + m.axesR axis * m.getDistance moveTime

/-- The speed at a time in a move. -/
def velocity (moveTime : K) : K :=
  m.startV + 2 * m.halfAccel * moveTime

/-- The time at which a move ends. -/
def endTime : K :=
  m.printTime + m.moveT

@[simp] theorem getDistance_zero : m.getDistance 0 = 0 := by
  simp [getDistance]

@[simp] theorem getCoord_zero : m.getCoord 0 = m.startPos := by
  ext axis
  simp [getCoord]

end TrapqMove

/-! ## Stretches of moves -/

/-- A move starts when the one before it ends. -/
def Follows (m m' : TrapqMove K) : Prop :=
  m'.printTime = m.endTime

/-- Moves that follow each other. -/
structure Contiguous (ms : List (TrapqMove K)) : Prop where
  chain : ms.IsChain Follows
  nonneg : ∀ m ∈ ms, 0 ≤ m.moveT

/-- Some moves start before a time and end after another one. -/
structure Covers (ms : List (TrapqMove K)) (a b : K) : Prop where
  start : ∃ m ∈ ms, m.printTime ≤ a
  stop : ∃ m ∈ ms, b ≤ m.endTime

variable {ms : List (TrapqMove K)} {a b : K}

namespace Contiguous

variable {m m' : TrapqMove K} {prevs nexts : List (TrapqMove K)}

theorem endTime_ge (h : Contiguous ms) (hm : m ∈ ms) : m.printTime ≤ m.endTime :=
  le_add_of_nonneg_right (h.nonneg m hm)

theorem tail (h : Contiguous (m :: ms)) : Contiguous ms :=
  ⟨h.chain.tail, fun m' hm' => h.nonneg m' (List.mem_cons_of_mem _ hm')⟩

/-- What comes before a move has ended when it starts. -/
theorem endTime_le (h : Contiguous (prevs ++ m :: nexts)) :
    ∀ p ∈ prevs, p.endTime ≤ m.printTime := by
  induction prevs with
  | nil => exact nofun
  | cons q prevs ih =>
    have htail : Contiguous (prevs ++ m :: nexts) := h.tail
    intro p hp
    rcases List.mem_cons.1 hp with rfl | hp
    · cases prevs with
      | nil => exact (List.isChain_cons_cons.1 h.chain).1.ge
      | cons q' prevs =>
        have hq : q'.printTime = p.endTime := (List.isChain_cons_cons.1 h.chain).1
        rw [← hq]
        exact (htail.endTime_ge List.mem_cons_self).trans (ih htail q' List.mem_cons_self)
    · exact ih htail p hp

/-- What comes after a move starts when it has ended. -/
theorem printTime_ge (prevs : List (TrapqMove K)) (h : Contiguous (prevs ++ m :: nexts)) :
    ∀ n ∈ nexts, m.endTime ≤ n.printTime := by
  intro n hn
  obtain ⟨l, l', rfl⟩ := List.append_of_mem hn
  have hsplit : prevs ++ m :: (l ++ n :: l') = (prevs ++ m :: l) ++ n :: l' := by simp
  rw [hsplit] at h
  exact h.endTime_le m (by simp)

theorem printTime_le (prevs : List (TrapqMove K)) (h : Contiguous (prevs ++ m :: nexts)) :
    ∀ n ∈ m :: nexts, m.printTime ≤ n.printTime := by
  intro n hn
  rcases List.mem_cons.1 hn with rfl | hn
  · exact le_rfl
  · exact (h.endTime_ge (by simp)).trans (h.printTime_ge prevs n hn)

theorem le_endTime (nexts : List (TrapqMove K)) (h : Contiguous (prevs ++ m :: nexts)) :
    ∀ p ∈ prevs ++ [m], p.endTime ≤ m.endTime := by
  intro p hp
  rcases List.mem_append.1 hp with hp | hp
  · exact (h.endTime_le p hp).trans (h.endTime_ge (by simp))
  · rw [List.mem_singleton.1 hp]

/-- The first move that has not ended at a time is the one that the time is in. -/
theorem find?_eq (h : Contiguous ms) (hm : m ∈ ms) {x : K} (hlt : m.printTime < x)
    (hle : x ≤ m.endTime) : ms.find? (fun m => decide (x ≤ m.endTime)) = some m := by
  obtain ⟨l, l', rfl⟩ := List.append_of_mem hm
  rw [List.find?_append, List.find?_cons_of_pos (by simpa using hle), Option.or_eq_some_iff]
  refine .inr ⟨List.find?_eq_none.2 fun p hp => ?_, rfl⟩
  simpa using (h.endTime_le p hp).trans_lt hlt

end Contiguous

/-! ## A pointer into the list -/

/-- A `struct move *` : the moves before it with the nearest first, the move, and those after it. -/
structure TrapqCursor (K : Type*) where
  prevs : List (TrapqMove K)
  move : TrapqMove K
  nexts : List (TrapqMove K)

namespace TrapqCursor

/-- The moves of the list in their order. -/
def moves (c : TrapqCursor K) : List (TrapqMove K) :=
  c.prevs.reverse ++ c.move :: c.nexts

/-- More moves of the list on both sides, which may not follow each other. -/
def within (c : TrapqCursor K) (front back : List (TrapqMove K)) : TrapqCursor K :=
  ⟨c.prevs ++ front, c.move, c.nexts ++ back⟩

/-- The loop that goes back while the time is negative. `none` is a read before the list. -/
def seekBack : List (TrapqMove K) → TrapqMove K → List (TrapqMove K) → K →
    Option (TrapqCursor K × K)
  | prevs, m, nexts, time =>
    if time < 0 then
      match prevs with
      | [] => none
      | p :: prevs => seekBack prevs p (m :: nexts) (time + p.moveT)
    else some (⟨prevs, m, nexts⟩, time)

/-- The loop that goes on while the time is behind the end of the move. -/
def seekForward : List (TrapqMove K) → TrapqMove K → List (TrapqMove K) → K →
    Option (TrapqCursor K × K)
  | prevs, m, nexts, time =>
    if m.moveT < time then
      match nexts with
      | [] => none
      | n :: nexts => seekForward (m :: prevs) n nexts (time - m.moveT)
    else some (⟨prevs, m, nexts⟩, time)

/-- The move that a time is in, and the time in that move. -/
def seek (c : TrapqCursor K) (time : K) : Option (TrapqCursor K × K) :=
  (seekBack c.prevs c.move c.nexts time).bind fun (c, time) =>
    seekForward c.prevs c.move c.nexts time

variable {c : TrapqCursor K} {time : K} {front back : List (TrapqMove K)}

/-- Where a loop ends : at a move of the stretch, with the same time. -/
structure Arrives (c : TrapqCursor K) (time : K) (c' : TrapqCursor K) (time' : K) : Prop where
  moves_eq : c'.moves = c.moves
  time_eq : c'.move.printTime + time' = c.move.printTime + time
  nonneg : 0 ≤ time'

theorem moves_back (prevs nexts : List (TrapqMove K)) (p m : TrapqMove K) :
    moves ⟨prevs, p, m :: nexts⟩ = moves ⟨p :: prevs, m, nexts⟩ := by
  simp [moves]

/-- The move before the one that is pointed to ends where that starts. -/
theorem follows_prev {prevs nexts : List (TrapqMove K)} {p m : TrapqMove K}
    (h : Contiguous (moves ⟨p :: prevs, m, nexts⟩)) : m.printTime = p.endTime := by
  have hchain := h.chain
  rw [← moves_back] at hchain
  exact (List.isChain_cons_cons.1 hchain.right_of_append).1

/-- The end of a move and the start of the next one are one time. -/
theorem boundary_eq {prevs nexts : List (TrapqMove K)} {p m : TrapqMove K}
    (h : Contiguous (moves ⟨p :: prevs, m, nexts⟩)) :
    m.printTime + 0 = p.printTime + p.moveT := by
  rw [add_zero]
  exact follows_prev h

/-- The loop that goes back ends in the stretch. -/
theorem seekBack_spec (h : Contiguous c.moves)
    (hstart : ∃ m ∈ c.moves, m.printTime ≤ c.move.printTime + time) :
    ∃ c' time', seekBack (c.prevs ++ front) c.move (c.nexts ++ back) time =
        some (c'.within front back, time') ∧ Arrives c time c' time' := by
  obtain ⟨prevs, m, nexts⟩ := c
  simp only at hstart ⊢
  induction prevs generalizing m nexts time with
  | nil =>
    have hnonneg : 0 ≤ time := by
      obtain ⟨n, hn, hle⟩ := hstart
      have hn := Contiguous.printTime_le [] h n hn
      linarith
    refine ⟨⟨[], m, nexts⟩, time, ?_, ⟨rfl, rfl, hnonneg⟩⟩
    unfold seekBack
    rw [if_neg (not_lt.2 hnonneg)]
    rfl
  | cons p prevs ih =>
    by_cases hneg : time < 0
    · have hfollows : m.printTime = p.endTime := follows_prev h
      have htime : p.printTime + (time + p.moveT) = m.printTime + time := by
        rw [hfollows, TrapqMove.endTime]
        ring
      rw [← moves_back] at h hstart
      rw [← htime] at hstart
      obtain ⟨c', time', hrun, hmoves, heq, hpos⟩ := ih p (m :: nexts) h hstart
      refine ⟨c', time', ?_, ⟨hmoves.trans (moves_back ..), heq.trans htime, hpos⟩⟩
      unfold seekBack
      rw [if_pos hneg]
      exact hrun
    · refine ⟨⟨p :: prevs, m, nexts⟩, time, ?_, ⟨rfl, rfl, not_lt.1 hneg⟩⟩
      unfold seekBack
      rw [if_neg hneg]
      rfl

/-- The loop that goes on ends at the move that the time is in. -/
theorem seekForward_spec (h : Contiguous c.moves) (htime : 0 ≤ time)
    (hstop : ∃ m ∈ c.moves, c.move.printTime + time ≤ m.endTime) :
    ∃ c' time', seekForward (c.prevs ++ front) c.move (c.nexts ++ back) time =
        some (c'.within front back, time') ∧ Arrives c time c' time' ∧ time' ≤ c'.move.moveT := by
  obtain ⟨prevs, m, nexts⟩ := c
  simp only at hstop ⊢
  induction nexts generalizing m prevs time with
  | nil =>
    have hle : time ≤ m.moveT := by
      obtain ⟨p, hp, hle⟩ := hstop
      have hp := Contiguous.le_endTime [] h p hp
      unfold TrapqMove.endTime at hp hle
      linarith
    refine ⟨⟨prevs, m, []⟩, time, ?_, ⟨rfl, rfl, htime⟩, hle⟩
    unfold seekForward
    rw [if_neg (not_lt.2 hle)]
    rfl
  | cons n nexts ih =>
    by_cases hlt : m.moveT < time
    · rw [moves_back] at h hstop
      have hfollows : n.printTime = m.endTime := follows_prev h
      have heq : n.printTime + (time - m.moveT) = m.printTime + time := by
        rw [hfollows, TrapqMove.endTime]
        ring
      rw [← heq] at hstop
      obtain ⟨c', time', hrun, ⟨hmoves, htime', hpos⟩, hle⟩ :=
        ih (sub_nonneg.2 hlt.le) (m :: prevs) n h hstop
      refine ⟨c', time', ?_, ⟨hmoves.trans (moves_back ..).symm, htime'.trans heq, hpos⟩, hle⟩
      unfold seekForward
      rw [if_pos hlt]
      exact hrun
    · refine ⟨⟨prevs, m, n :: nexts⟩, time, ?_, ⟨rfl, rfl, htime⟩, not_lt.1 hlt⟩
      unfold seekForward
      rw [if_neg hlt]
      rfl

/-- In a stretch that covers the time, the move is found that it is in. -/
theorem seek_spec (h : Contiguous c.moves) (front back : List (TrapqMove K))
    (hcovers : Covers c.moves (c.move.printTime + time) (c.move.printTime + time)) :
    ∃ c' time', (c.within front back).seek time = some (c'.within front back, time') ∧
      Arrives c time c' time' ∧ time' ≤ c'.move.moveT := by
  obtain ⟨c₁, time₁, hback, hmoves, heq, hpos⟩ := seekBack_spec h hcovers.start
  have hstop := hcovers.stop
  rw [← heq, ← hmoves] at hstop
  rw [← hmoves] at h
  obtain ⟨c', time', hforward, ⟨hmoves', heq', hpos'⟩, hle⟩ := seekForward_spec h hpos hstop
  refine ⟨c', time', ?_, ⟨hmoves'.trans hmoves, heq'.trans heq, hpos'⟩, hle⟩
  exact Option.bind_eq_some_iff.2 ⟨_, hback, hforward⟩

end TrapqCursor

end Thinker
