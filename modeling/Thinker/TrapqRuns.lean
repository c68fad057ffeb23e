import Thinker.Transition
import Thinker.Trapq

/-!
# Runs of the motion queue

What holds of the moves and the history of a `trapq` in every run.

The time `0` stands for a sentinel. A segment that starts then is taken for the head sentinel, and
a gap behind it is filled for one second only. Where all segments start at a positive time the list
has no gaps (`Trapq.tidy_of_reachable`).
-/

set_option linter.unusedSectionVars false

namespace Thinker

variable {K : Type*} [Field K] [LinearOrder K] [IsStrictOrderedRing K]

/-! ## The moves and the history -/

namespace Trapq

/-- A move in which nothing moves. -/
def IsNull (m : TrapqMove K) : Prop :=
  m.startV = 0 ∧ m.halfAccel = 0 ∧ m.axesR = 0

/-- Moves that were appended, with null moves in the gaps. -/
inductive Fills : List (TrapqMove K) → List (TrapqMove K) → Prop
  | nil : Fills [] []
  | null {m : TrapqMove K} {as ms : List (TrapqMove K)} (hm : IsNull m) (h : Fills as ms) :
      Fills as (m :: ms)
  | move {m : TrapqMove K} {as ms : List (TrapqMove K)} (h : Fills as ms) :
      Fills (m :: as) (m :: ms)

/-- The newest move first, and each behind the end of the next one. -/
def Ordered (history : List (TrapqMove K)) : Prop :=
  history.Pairwise fun m m' => m'.endTime ≤ m.printTime

/-- A queue in a run, with all moves that were appended, and the end of the last one. -/
structure Run (K : Type*) where
  tq : Trapq K
  appended : List (TrapqMove K)
  frontier : K

/-- What holds in every run. -/
structure Inv (s : Run K) : Prop where
  chain : s.tq.moves.IsChain Follows
  pos : ∀ m ∈ s.tq.moves, 0 < m.moveT
  last : ∀ m ∈ s.tq.moves.getLast?, m.endTime ≤ s.frontier ∧ 0 < m.printTime
  never : ∀ m ∈ s.tq.moves, m.endTime ≤ neverTime
  ordered : Ordered s.tq.history
  nonneg : ∀ m ∈ s.tq.history, 0 ≤ m.moveT
  behind : ∀ m ∈ s.tq.history, m.endTime ≤ s.frontier
  before : ∀ m ∈ s.tq.history, ∀ m' ∈ s.tq.moves, m'.isMoving = true → m.endTime ≤ m'.printTime
  fills : ∃ as, as <:+ s.appended ∧ Fills as s.tq.moves
  tail : s.tq.tail.printTime = 0 ∨
    s.tq.tail.printTime = if s.tq.moves = [] then neverTime else s.tq.last.endTime

theorem Fills.append {as ms as' ms' : List (TrapqMove K)} (h : Fills as ms) (h' : Fills as' ms') :
    Fills (as ++ as') (ms ++ ms') := by
  induction h with
  | nil => exact h'
  | null hm _ ih => exact ih.null hm
  | move _ ih => exact ih.move

theorem Fills.of_append {as pre post : List (TrapqMove K)} (h : Fills as (pre ++ post)) :
    ∃ as', as' <:+ as ∧ Fills as' post := by
  induction pre generalizing as with
  | nil => exact ⟨as, List.suffix_refl _, h⟩
  | cons m pre ih =>
    cases h with
    | null _ h => exact ih h
    | move h =>
      obtain ⟨as', hsuffix, hfills⟩ := ih h
      exact ⟨as', hsuffix.trans (List.suffix_cons _ _), hfills⟩

namespace Inv

variable {s : Run K} {m : TrapqMove K}

theorem contiguous (h : Inv s) : Contiguous s.tq.moves :=
  ⟨h.chain, fun m hm => (h.pos m hm).le⟩

/-- The frontier may be later. -/
theorem mono (h : Inv s) {f : K} (hf : s.frontier ≤ f) : Inv { s with frontier := f } :=
  ⟨h.chain, h.pos, fun m hm => ⟨(h.last m hm).1.trans hf, (h.last m hm).2⟩, h.never, h.ordered,
    h.nonneg, fun m hm => (h.behind m hm).trans hf, h.before, h.fills, h.tail⟩

end Inv

@[simp] theorem nullMove_endTime (prev m : TrapqMove K) :
    (nullMove prev m).endTime = m.printTime := by
  simp [nullMove, TrapqMove.endTime]

theorem isNull_nullMove (prev m : TrapqMove K) : IsNull (nullMove prev m) :=
  ⟨rfl, rfl, rfl⟩

theorem isMoving_of_isNull {m : TrapqMove K} (h : IsNull m) : m.isMoving = false := by
  simp [TrapqMove.isMoving, h.1, h.2.1]

theorem nullMove_moveT_pos {prev m : TrapqMove K} (h : prev.endTime < m.printTime) :
    0 < (nullMove prev m).moveT := by
  unfold nullMove
  simp only
  split_ifs
  · rw [sub_sub_cancel]
    exact one_pos
  · exact sub_pos.2 h

/-- The gap before a move that is added. -/
def gap (prev m : TrapqMove K) : List (TrapqMove K) :=
  if prev.printTime + prev.moveT < m.printTime then [nullMove prev m] else []

theorem addMove_moves (tq : Trapq K) (m : TrapqMove K) :
    (tq.addMove m).moves = tq.moves ++ (gap tq.last m ++ [m]) := rfl

/-- What is in a gap does not move, and ends when the move starts. -/
theorem mem_gap {prev m n : TrapqMove K} (h : n ∈ gap prev m) :
    IsNull n ∧ 0 < n.moveT ∧ n.endTime = m.printTime := by
  unfold gap at h
  split_ifs at h with hlt
  · obtain rfl := List.mem_singleton.1 h
    exact ⟨isNull_nullMove prev m, nullMove_moveT_pos hlt, nullMove_endTime prev m⟩
  · cases h

theorem chain_gap (prev m : TrapqMove K) : (gap prev m ++ [m]).IsChain Follows := by
  unfold gap
  split_ifs
  · exact List.isChain_cons_cons.2 ⟨(nullMove_endTime prev m).symm, List.isChain_singleton _⟩
  · exact List.isChain_singleton _

theorem fills_gap (prev m : TrapqMove K) : Fills [m] (gap prev m ++ [m]) := by
  unfold gap
  split_ifs
  · exact Fills.nil.move.null (isNull_nullMove prev m)
  · exact Fills.nil.move

/-- The gap starts where a move ends that is not taken for a sentinel. -/
theorem follows_gap {prev m : TrapqMove K} (hprev : prev.printTime ≠ 0)
    (hle : prev.endTime ≤ m.printTime) : ∀ n ∈ (gap prev m ++ [m]).head?, Follows prev n := by
  intro n hn
  unfold gap at hn
  split_ifs at hn with hlt
  · obtain rfl := Option.some_inj.1 hn
    unfold Follows nullMove
    simp only
    rw [if_neg fun h => hprev h.1]
    rfl
  · obtain rfl := Option.some_inj.1 hn
    exact (not_lt.1 hlt).antisymm hle

namespace Inv

variable {s : Run K} {m : TrapqMove K}

/-- A segment is added that starts when what was appended has ended. -/
theorem addMove (h : Inv s) (hstart : s.frontier ≤ m.printTime) (hpos : 0 < m.printTime)
    (htime : 0 < m.moveT) (hnever : m.endTime ≤ neverTime) :
    Inv ⟨s.tq.addMove m, s.appended ++ [m], m.endTime⟩ := by
  have hend : m.printTime ≤ m.endTime := le_add_of_nonneg_right htime.le
  have hmem : ∀ n ∈ (s.tq.addMove m).moves, n ∈ s.tq.moves ∨ n ∈ gap s.tq.last m ∨ n = m := by
    intro n hn
    rw [addMove_moves, List.mem_append, List.mem_append, List.mem_singleton] at hn
    exact hn
  refine ⟨?_, ?_, ?_, ?_, h.ordered, h.nonneg, fun n hn => (h.behind n hn).trans
    (hstart.trans hend), ?_, ?_, .inl rfl⟩
  · rw [addMove_moves, List.isChain_append]
    refine ⟨h.chain, chain_gap _ _, fun l hl => ?_⟩
    have hlast : s.tq.last = l := by
      unfold Trapq.last
      rw [hl]
      rfl
    rw [hlast]
    exact follows_gap (h.last l hl).2.ne' ((h.last l hl).1.trans hstart)
  · intro n hn
    rcases hmem n hn with hn | hn | rfl
    · exact h.pos n hn
    · exact (mem_gap hn).2.1
    · exact htime
  · intro n hn
    rw [addMove_moves, ← List.append_assoc, List.getLast?_append, List.getLast?_singleton,
      Option.some_or] at hn
    obtain rfl := Option.some_inj.1 hn
    exact ⟨le_rfl, hpos⟩
  · intro n hn
    rcases hmem n hn with hn | hn | rfl
    · exact h.never n hn
    · rw [(mem_gap hn).2.2]
      exact hend.trans hnever
    · exact hnever
  · intro o ho n hn hmoving
    rcases hmem n hn with hn | hn | rfl
    · exact h.before o ho n hn hmoving
    · rw [isMoving_of_isNull (mem_gap hn).1] at hmoving
      cases hmoving
    · exact (h.behind o ho).trans hstart
  · obtain ⟨as, hsuffix, hfills⟩ := h.fills
    obtain ⟨front, happended⟩ := hsuffix
    refine ⟨as ++ [m], ⟨front, ?_⟩, ?_⟩
    · rw [← happended, List.append_assoc]
    · exact hfills.append (fills_gap _ _)

/-- A phase that takes no time adds nothing. -/
theorem phase (h : Inv s) (hstart : s.frontier ≤ m.printTime) (hpos : 0 < m.printTime)
    (htime : 0 ≤ m.moveT) (hnever : m.endTime ≤ neverTime) :
    Inv ⟨(if m.moveT ≠ 0 then [m] else []).foldl Trapq.addMove s.tq,
      s.appended ++ (if m.moveT ≠ 0 then [m] else []), m.endTime⟩ := by
  split_ifs with hzero
  · exact h.addMove hstart hpos (lt_of_le_of_ne htime (Ne.symm hzero)) hnever
  · rw [List.append_nil]
    exact h.mono (hstart.trans (le_add_of_nonneg_right htime))

/-- The times of an append are not negative, and it starts behind what was appended. -/
structure Timely (s : Run K) (p : Append K) : Prop where
  start : s.frontier ≤ p.printTime
  accelT_nonneg : 0 ≤ p.accelT
  cruiseT_nonneg : 0 ≤ p.cruiseT
  decelT_nonneg : 0 ≤ p.decelT
  never : p.printTime + (p.accelT + p.cruiseT + p.decelT) ≤ neverTime

theorem append (h : Inv s) {p : Append K} (hp : Timely s p) (hpos : 0 < p.printTime) :
    Inv ⟨s.tq.append p, s.appended ++ p.segments,
      p.printTime + (p.accelT + p.cruiseT + p.decelT)⟩ := by
  obtain ⟨hstart, ha, hc, hd, hnever⟩ := hp
  have htime₁ : p.accelPhase.endTime = p.printTime + p.accelT := rfl
  have htime₂ : p.cruisePhase.endTime = p.printTime + p.accelT + p.cruiseT := rfl
  have htime₃ : p.decelPhase.endTime = p.printTime + (p.accelT + p.cruiseT + p.decelT) := by
    change p.printTime + p.accelT + p.cruiseT + p.decelT = _
    ring
  have h₁ := h.phase (m := p.accelPhase) hstart hpos ha (by rw [htime₁]; linarith)
  have h₂ := h₁.phase (m := p.cruisePhase) le_rfl
    (by change 0 < p.accelPhase.endTime; rw [htime₁]; linarith) hc (by rw [htime₂]; linarith)
  have h₃ := h₂.phase (m := p.decelPhase) le_rfl
    (by change 0 < p.cruisePhase.endTime; rw [htime₂]; linarith) hd (by rw [htime₃]; linarith)
  unfold Trapq.append
  rw [← htime₃, Append.segments_eq, List.foldl_append, List.foldl_append, ← List.append_assoc,
    ← List.append_assoc]
  exact h₃

end Inv

/-! ## Expiry -/

theorem expire_spec (t : K) (moves history : List (TrapqMove K)) :
    ∃ pre, moves = pre ++ (expire t moves history).1 ∧ (∀ m ∈ pre, m.endTime ≤ t) ∧
      (∀ m ∈ (expire t moves history).1.head?, t < m.endTime) ∧
      (expire t moves history).2 = (pre.filter (·.isMoving)).reverse ++ history := by
  induction moves generalizing history with
  | nil => exact ⟨[], rfl, nofun, nofun, rfl⟩
  | cons m moves ih =>
    unfold expire
    by_cases hlt : m.printTime + m.moveT > t
    · rw [if_pos hlt]
      refine ⟨[], rfl, nofun, fun n hn => ?_, rfl⟩
      obtain rfl := Option.some_inj.1 hn
      exact hlt
    · rw [if_neg hlt]
      obtain ⟨pre, hmoves, hpre, hhead, hhistory⟩ :=
        ih (if m.isMoving then m :: history else history)
      refine ⟨m :: pre, congrArg (m :: ·) hmoves, fun n hn => ?_, hhead, ?_⟩
      · rcases List.mem_cons.1 hn with rfl | hn
        · exact not_lt.1 hlt
        · exact hpre n hn
      · rw [hhistory]
        cases hm : m.isMoving <;> simp [hm]

theorem clearHistory_prefix (t : K) (history : List (TrapqMove K)) :
    clearHistory t history <+: history := by
  cases history with
  | nil => exact List.prefix_refl _
  | cons latest history =>
    exact (List.prefix_cons_inj latest).2 (List.rdropWhile_prefix _ _)

/-- What `trapq_finalize_moves` makes of the moves and the history. -/
structure Finalized (tq tq' : Trapq K) (t : K) (pre : List (TrapqMove K)) : Prop where
  moves_eq : tq.moves = pre ++ tq'.moves
  ended : ∀ m ∈ pre, m.endTime ≤ t
  going : ∀ m ∈ tq'.moves.head?, t < m.endTime
  history : tq'.history <+: (pre.filter (·.isMoving)).reverse ++ tq.history
  tail : tq'.tail.printTime = if tq'.moves = [] then neverTime else tq.tail.printTime

theorem finalized (tq : Trapq K) (t clear : K) :
    ∃ pre, Finalized tq (tq.finalizeMoves t clear) t pre := by
  obtain ⟨pre, hmoves, hpre, hhead, hhistory⟩ := expire_spec t tq.moves tq.history
  refine ⟨pre, hmoves, hpre, hhead, ?_, ?_⟩
  · rw [← hhistory]
    exact clearHistory_prefix clear _
  · unfold finalizeMoves
    cases hm : (expire t tq.moves tq.history).1 <;> simp [hm]

namespace Inv

variable {s : Run K} {tq : Trapq K} {t : K} {pre : List (TrapqMove K)}

/-- Moves that follow each other are ordered, the newest first. -/
theorem ordered_of_contiguous {ms : List (TrapqMove K)} (h : Contiguous ms) :
    Ordered ms.reverse := by
  unfold Ordered
  rw [List.pairwise_reverse]
  induction ms with
  | nil => exact List.Pairwise.nil
  | cons m ms ih =>
    exact List.pairwise_cons.2 ⟨fun n hn => h.printTime_ge [] n hn, ih h.tail⟩

theorem endTime_le_frontier (h : Inv s) : ∀ m ∈ s.tq.moves, m.endTime ≤ s.frontier := by
  intro m hm
  obtain ⟨l, hl⟩ := Option.isSome_iff_exists.1 (List.getLast?_isSome.2 (List.ne_nil_of_mem hm))
  obtain ⟨init, hmoves⟩ := List.getLast?_eq_some_iff.1 hl
  have hcontiguous := h.contiguous
  rw [hmoves] at hcontiguous hm
  exact (hcontiguous.le_endTime [] m hm).trans (h.last l hl).1

theorem finalize (h : Inv s) (hf : Finalized s.tq tq t pre) : Inv { s with tq := tq } := by
  obtain ⟨hmoves, hended, hgoing, hhistory, htail⟩ := hf
  have hsuffix : ∀ m ∈ tq.moves, m ∈ s.tq.moves := fun m hm => by
    rw [hmoves]
    exact List.mem_append_right _ hm
  have hpre : ∀ m ∈ (pre.filter (·.isMoving)).reverse, m ∈ pre ∧ m.isMoving = true := fun m hm =>
    List.mem_filter.1 (List.mem_reverse.1 hm)
  have hmemPre : ∀ m ∈ pre, m ∈ s.tq.moves := fun m hm => by
    rw [hmoves]
    exact List.mem_append_left _ hm
  have hlast : tq.moves ≠ [] → s.tq.moves.getLast? = tq.moves.getLast? := fun hne => by
    rw [hmoves, List.getLast?_append, Option.or_of_isSome (List.getLast?_isSome.2 hne)]
  have hcontiguous := h.contiguous
  have hmem : ∀ m ∈ tq.history, m ∈ pre ∧ m.isMoving = true ∨ m ∈ s.tq.history := fun m hm =>
    (List.mem_append.1 (hhistory.subset hm)).imp (hpre m) id
  refine ⟨?_, fun m hm => h.pos m (hsuffix m hm), ?_, fun m hm => h.never m (hsuffix m hm), ?_, ?_,
    ?_, ?_, ?_, ?_⟩
  · have hchain := h.chain
    rw [hmoves] at hchain
    exact hchain.right_of_append
  · intro m hm
    have hne : tq.moves ≠ [] := fun hnil => by
      rw [hnil] at hm
      cases hm
    exact h.last m (by rwa [hlast hne])
  · refine List.Pairwise.sublist hhistory.sublist (List.pairwise_append.2 ⟨?_, h.ordered, ?_⟩)
    · rw [hmoves] at hcontiguous
      have hpreContiguous : Contiguous pre :=
        ⟨hcontiguous.chain.left_of_append, fun m hm =>
          hcontiguous.nonneg m (List.mem_append_left _ hm)⟩
      exact (ordered_of_contiguous hpreContiguous).sublist List.filter_sublist.reverse
    · intro m hm m' hm'
      exact h.before m' hm' m (hmemPre m (hpre m hm).1) (hpre m hm).2
  · intro m hm
    rcases hmem m hm with ⟨hm, -⟩ | hm
    · exact (h.pos m (hmemPre m hm)).le
    · exact h.nonneg m hm
  · intro m hm
    rcases hmem m hm with ⟨hm, -⟩ | hm
    · exact h.endTime_le_frontier m (hmemPre m hm)
    · exact h.behind m hm
  · intro m hm m' hm' hmoving
    rcases hmem m hm with ⟨hm, -⟩ | hm
    · obtain ⟨l, l', hpost⟩ := List.append_of_mem hm'
      rw [hmoves, hpost, ← List.append_assoc] at hcontiguous
      exact hcontiguous.endTime_le m (List.mem_append_left _ hm)
    · exact h.before m hm m' (hsuffix m' hm') hmoving
  · obtain ⟨as, hsuffixAs, hfills⟩ := h.fills
    rw [hmoves] at hfills
    obtain ⟨as', hsuffix', hfills'⟩ := hfills.of_append
    exact ⟨as', hsuffix'.trans hsuffixAs, hfills'⟩
  · simp only
    rw [htail]
    split_ifs with hnil
    · exact .inr rfl
    · have hne : s.tq.moves ≠ [] := by
        rw [hmoves]
        exact List.append_ne_nil_of_right_ne_nil _ hnil
      have heq : tq.last = s.tq.last := by
        unfold Trapq.last
        rw [hlast hnil]
      rw [heq]
      exact h.tail.imp id fun htail' => by rwa [if_neg hne] at htail'

/-! ## A new position -/

theorem prune_spec (t : K) {history : List (TrapqMove K)} (h : Ordered history)
    (hnonneg : ∀ m ∈ history, 0 ≤ m.moveT) :
    Ordered (prune t history) ∧ ∀ m ∈ prune t history, 0 ≤ m.moveT ∧ m.endTime ≤ t := by
  induction history with
  | nil => exact ⟨List.Pairwise.nil, nofun⟩
  | cons m history ih =>
    obtain ⟨hm, hhistory⟩ := List.pairwise_cons.1 h
    unfold prune
    by_cases hlt : m.printTime < t
    · rw [if_pos hlt]
      set m' := if m.printTime + m.moveT > t then { m with moveT := t - m.printTime } else m
      have hm' : m'.printTime = m.printTime ∧ 0 ≤ m'.moveT ∧ m'.endTime ≤ t := by
        by_cases hgt : m.printTime + m.moveT > t
        · rw [show m' = { m with moveT := t - m.printTime } from if_pos hgt]
          exact ⟨rfl, sub_nonneg.2 hlt.le, (add_sub_cancel _ _).le⟩
        · rw [show m' = m from if_neg hgt]
          exact ⟨rfl, hnonneg m List.mem_cons_self, not_lt.1 hgt⟩
      refine ⟨List.pairwise_cons.2 ⟨fun n hn => ?_, hhistory⟩, fun n hn => ?_⟩
      · rw [hm'.1]
        exact hm n hn
      · rcases List.mem_cons.1 hn with rfl | hn
        · exact hm'.2
        · exact ⟨hnonneg n (List.mem_cons_of_mem _ hn), (hm n hn).trans hlt.le⟩
    · rw [if_neg hlt]
      exact ih hhistory fun n hn => hnonneg n (List.mem_cons_of_mem _ hn)

/-- A marker is put in front of what was not interrupted. -/
theorem setPosition (h : Inv s) (t : K) (pos : TrapqCoord K) :
    (s.tq.setPosition t pos).moves = [] ∧
      Inv { s with tq := s.tq.setPosition t pos, frontier := t } := by
  obtain ⟨pre, hf⟩ := finalized s.tq neverTime 0
  have hinv := h.finalize hf
  have hnil : (s.tq.finalizeMoves neverTime 0).moves = [] := by
    cases hm : (s.tq.finalizeMoves neverTime 0).moves with
    | nil => rfl
    | cons m ms =>
      have hgoing := hf.going m (by rw [hm]; rfl)
      have hnever := hinv.never m (by simp [hm])
      exact absurd hgoing (not_lt.2 hnever)
  obtain ⟨hordered, hpruned⟩ := prune_spec t hinv.ordered hinv.nonneg
  have hmarker : ∀ m ∈ (s.tq.setPosition t pos).history, 0 ≤ m.moveT ∧ m.endTime ≤ t := by
    intro m hm
    rcases List.mem_cons.1 hm with rfl | hm
    · simp [TrapqMove.alloc, TrapqMove.endTime]
    · exact hpruned m hm
  have htail := hf.tail
  rw [if_pos hnil] at htail
  refine ⟨hnil, ?_⟩
  refine ⟨?_, ?_, ?_, ?_, List.pairwise_cons.2 ⟨fun m hm => (hpruned m hm).2, hordered⟩,
    fun m hm => (hmarker m hm).1, fun m hm => (hmarker m hm).2, ?_, ⟨[], ?_, ?_⟩, .inr ?_⟩
  all_goals simp only [show (s.tq.setPosition t pos).moves = [] from hnil]
  · exact List.isChain_nil
  · simp
  · simp
  · simp
  · simp
  · exact List.nil_suffix
  · exact Fills.nil
  · exact htail

/-- The tail sentinel follows the last move. -/
theorem checkSentinels (h : Inv s) : Inv { s with tq := s.tq.checkSentinels } ∧
    s.tq.checkSentinels.moves = s.tq.moves ∧
    s.tq.checkSentinels.tail.printTime =
      if s.tq.moves = [] then neverTime else s.tq.last.endTime := by
  obtain ⟨hmoves, hhistory, -, -, htail⟩ := s.tq.checkSentinels_spec h.tail
  have hlast : s.tq.checkSentinels.last = s.tq.last := by
    unfold Trapq.last
    rw [hmoves]
  refine ⟨?_, hmoves, htail⟩
  refine ⟨?_, ?_, ?_, ?_, ?_, ?_, ?_, ?_, ?_, .inr ?_⟩
  all_goals simp only [hmoves, hhistory, hlast]
  · exact h.chain
  · exact h.pos
  · exact h.last
  · exact h.never
  · exact h.ordered
  · exact h.nonneg
  · exact h.behind
  · exact h.before
  · exact h.fills
  · exact htail

end Inv

/-! ## Old moves -/

/-- The moves of a history that overlap an interval. -/
def overlapping (startTime endTime : K) (history : List (TrapqMove K)) : List (TrapqMove K) :=
  history.filter fun m => decide (startTime < m.endTime ∧ m.printTime < endTime)

theorem extractLoop_eq (startTime endTime : K) {history : List (TrapqMove K)}
    (h : Ordered history) (hnonneg : ∀ m ∈ history, 0 ≤ m.moveT) (left : ℕ) :
    extractLoop startTime endTime left history =
      ((overlapping startTime endTime history).take left).map TrapqMove.pull := by
  unfold overlapping
  induction history generalizing left with
  | nil => simp [extractLoop]
  | cons m history ih =>
    obtain ⟨hm, hhistory⟩ := List.pairwise_cons.1 h
    have ih := ih hhistory fun n hn => hnonneg n (List.mem_cons_of_mem _ hn)
    unfold extractLoop
    by_cases hstart : startTime ≥ m.printTime + m.moveT
    · -- what is older has ended before the interval, too
      have hnone : (m :: history).filter (fun m =>
          decide (startTime < m.endTime ∧ m.printTime < endTime)) = [] := by
        rw [List.filter_eq_nil_iff]
        intro n hn
        have hend : n.endTime ≤ m.endTime := by
          rcases List.mem_cons.1 hn with rfl | hn
          · exact le_rfl
          · exact (hm n hn).trans (le_add_of_nonneg_right (hnonneg m List.mem_cons_self))
        simp [not_lt.2 (hend.trans hstart)]
      rw [if_pos (.inl hstart), hnone]
      simp
    · have hlt : startTime < m.endTime := not_le.1 hstart
      by_cases hleft : left = 0
      · simp [hleft]
      · obtain ⟨k, rfl⟩ := Nat.exists_eq_succ_of_ne_zero hleft
        rw [if_neg (by simp [hstart])]
        by_cases hend : endTime ≤ m.printTime
        · rw [if_pos hend, ih, List.filter_cons_of_neg (by simp [hend])]
        · rw [if_neg hend, ih, List.filter_cons_of_pos (by simpa [hlt] using hend)]
          simp

/-! ## Every run -/

/-- The segments of a planned move lead from its start to its end, and are never faster than its
speed. -/
structure IsPath (sqrt : K → K) (m : Move K) (j : Junction K) (printTime : K) : Prop where
  drives : let p := m.setJunction sqrt j
    Drives (Append.ofMove printTime m p).segments
      ⟨printTime, fun i => m.startPos i.castSucc, p.startV⟩
      ⟨printTime + (p.accelT + p.cruiseT + p.decelT),
        fun i => m.startPos i.castSucc + m.axesR i.castSucc * m.moveD, p.endV⟩
  speed : let p := m.setJunction sqrt j
    ∀ seg ∈ (Append.ofMove printTime m p).segments, 0 < seg.moveT ∧
      ∀ τ, 0 ≤ τ → τ ≤ seg.moveT → 0 ≤ seg.velocity τ ∧ seg.velocity τ ≤ p.cruiseV

/-- The queue has no gaps, and all that is finalised is in its history. -/
structure Tidy (s : Run K) : Prop where
  contiguous : Contiguous s.tq.moves
  fills : ∃ as, as <:+ s.appended ∧ Fills as s.tq.moves
  ordered : Ordered s.tq.history
  finalize : ∀ t clear, ∃ pre, s.tq.moves = pre ++ (s.tq.finalizeMoves t clear).moves ∧
    (∀ m ∈ pre, m.endTime ≤ t) ∧ (∀ m ∈ (s.tq.finalizeMoves t clear).moves, t < m.endTime) ∧
      (s.tq.finalizeMoves t clear).history <+: (pre.filter (·.isMoving)).reverse ++ s.tq.history
  setPosition : ∀ t pos, (s.tq.setPosition t pos).moves = [] ∧
    Ordered (s.tq.setPosition t pos).history ∧
      ∀ m ∈ (s.tq.setPosition t pos).history, m.endTime ≤ t
  extractOld : ∀ max startTime endTime, s.tq.extractOld max startTime endTime =
    ((overlapping startTime endTime s.tq.history).take max.toNat).map TrapqMove.pull
  checkSentinels : s.tq.checkSentinels.moves = s.tq.moves ∧
    s.tq.checkSentinels.tail.printTime =
      if s.tq.moves = [] then neverTime else s.tq.last.endTime

/-- What is done with a queue. -/
inductive Event (K : Type*) where
  | append (p : Append K)
  | finalizeMoves (printTime clearHistoryTime : K)
  | setPosition (printTime : K) (pos : TrapqCoord K)
  | checkSentinels

/-- A queue from its allocation on. -/
def system : System (Run K) (Event K) where
  init s := s = ⟨alloc, [], 0⟩
  next s
    | .append p => some ⟨s.tq.append p, s.appended ++ p.segments,
        p.printTime + (p.accelT + p.cruiseT + p.decelT)⟩
    | .finalizeMoves printTime clearHistoryTime =>
      some { s with tq := s.tq.finalizeMoves printTime clearHistoryTime }
    | .setPosition printTime pos =>
      some { s with tq := s.tq.setPosition printTime pos, frontier := printTime }
    | .checkSentinels => some { s with tq := s.tq.checkSentinels }

/-- Appends are in time. -/
def Ready (s : Run K) : Event K → Prop
  | .append p => Inv.Timely s p
  | _ => True

/-- Appends are in time, and not at the time that stands for a sentinel. -/
def Admissible (s : Run K) : Event K → Prop
  | .append p => Inv.Timely s p ∧ 0 < p.printTime
  | _ => True

theorem inv_alloc : Inv (⟨alloc, [], 0⟩ : Run K) :=
  ⟨List.isChain_nil, nofun, nofun, nofun, List.Pairwise.nil, nofun, nofun, nofun,
    ⟨[], List.suffix_refl _, Fills.nil⟩, .inr rfl⟩

theorem inv_of_reachable {s : Run K} (h : system.ReachableBy Admissible s) : Inv s := by
  refine h.invariant ?_ ?_
  · rintro s rfl
    exact inv_alloc
  · intro s a t hs ha ht
    cases a with
    | append p =>
      obtain rfl := Option.some_inj.1 ht
      exact hs.append ha.1 ha.2
    | finalizeMoves printTime clearHistoryTime =>
      obtain rfl := Option.some_inj.1 ht
      obtain ⟨pre, hf⟩ := finalized s.tq printTime clearHistoryTime
      exact hs.finalize hf
    | setPosition printTime pos =>
      obtain rfl := Option.some_inj.1 ht
      exact (hs.setPosition printTime pos).2
    | checkSentinels =>
      obtain rfl := Option.some_inj.1 ht
      exact hs.checkSentinels.1

theorem Inv.tidy {s : Run K} (h : Inv s) : Tidy s := by
  refine ⟨h.contiguous, h.fills, h.ordered, fun t clear => ?_, fun t pos => ?_,
    fun max startTime endTime => extractLoop_eq startTime endTime h.ordered h.nonneg _,
    h.checkSentinels.2⟩
  · obtain ⟨pre, hf⟩ := finalized s.tq t clear
    have hcontiguous := (h.finalize hf).contiguous
    refine ⟨pre, hf.moves_eq, hf.ended, fun m hm => ?_, hf.history⟩
    have hgoing := hf.going
    simp only at hcontiguous
    cases hmoves : (s.tq.finalizeMoves t clear).moves with
    | nil =>
      rw [hmoves] at hm
      cases hm
    | cons m₀ ms =>
      rw [hmoves] at hm hgoing hcontiguous
      rcases List.mem_cons.1 hm with rfl | hm
      · exact hgoing m rfl
      · exact (hgoing m₀ rfl).trans_le ((hcontiguous.printTime_ge [] m hm).trans
          (hcontiguous.endTime_ge (List.mem_cons_of_mem _ hm)))
  · obtain ⟨hnil, hinv⟩ := h.setPosition t pos
    exact ⟨hnil, hinv.ordered, hinv.behind⟩

/-- The segments of every planned move are a path, and in every run with appends at positive times
the queue is tidy. -/
theorem tidy_of_reachable {sqrt : K → K} (hs : IsSqrt sqrt) :
    (∀ (m : Move K) (j : Junction K), Drivable m j → ∀ printTime, IsPath sqrt m j printTime) ∧
      ∀ s : Run K, system.ReachableBy Admissible s → Tidy s := by
  refine ⟨fun m j h printTime => ?_, fun s h => (inv_of_reachable h).tidy⟩
  have htimed := h.timed hs
  have hbalanced := Append.balanced htimed h.accel_pos
  have hsum : (m.phaseD j).1 + (m.phaseD j).2.1 + (m.phaseD j).2.2 = m.moveD := by
    unfold Move.phaseD
    ring
  exact ⟨hbalanced.drives hsum printTime,
    hbalanced.speed htimed h.accel_pos h.cruiseD_nonneg printTime⟩

/-- A segment at a constant speed. -/
def cruise (printTime cruiseT : K) : Append K :=
  ⟨printTime, 0, cruiseT, 0, 0, 0, 1, 1, 1⟩

/-- A move of one millimetre along an axis. -/
def millimetre : Move ℝ :=
  ⟨0, ![1, 0, 0, 0], 1000, 0, true, ![1, 0, 0, 0], 1, ![1, 0, 0, 0], 0, 0, 100, 2000, 0, 0⟩

/-- A planned move, and a queue that is interrupted. -/
theorem tidy_interrupted : IsPath Real.sqrt millimetre ⟨0, 100, 0⟩ 1 ∧
    Tidy (⟨(alloc.append (cruise 1 2)).setPosition 2 0, (cruise 1 2).segments, 2⟩ : Run ℝ) := by
  have hs : IsSqrt Real.sqrt :=
    ⟨fun x _ => Real.sqrt_nonneg x, fun x hx => Real.mul_self_sqrt hx⟩
  obtain ⟨hpath, htidy⟩ := tidy_of_reachable hs
  refine ⟨hpath _ _ ⟨?_, ?_, ?_, ?_, ?_, ?_, ?_⟩ 1, htidy _ ?_⟩
  · norm_num [millimetre]
  · norm_num
  · norm_num
  · norm_num
  · norm_num
  · norm_num
  · norm_num [millimetre, Move.phaseD]
  · have happend : system.ReachableBy Admissible
        (⟨alloc.append (cruise 1 2), [] ++ (cruise 1 2).segments, 1 + (0 + 2 + 0)⟩ : Run ℝ) := by
      refine .step (.init rfl) (a := .append (cruise 1 2)) ?_ rfl
      refine ⟨⟨?_, ?_, ?_, ?_, ?_⟩, ?_⟩ <;> norm_num [cruise, neverTime]
    exact happend.step (a := .setPosition 2 0) trivial rfl

/-- A gap behind a segment that starts at the time `0` is not filled. -/
theorem not_tidy_zero : ¬∀ s : Run ℚ, system.ReachableBy Ready s → Tidy s := by
  intro h
  have hfirst : system.ReachableBy Ready
      (⟨alloc.append (cruise 0 (1 / 2)), [] ++ (cruise 0 (1 / 2)).segments,
        0 + (0 + 1 / 2 + 0)⟩ : Run ℚ) := by
    refine .step (.init rfl) (a := .append (cruise 0 (1 / 2))) ?_ rfl
    refine ⟨?_, ?_, ?_, ?_, ?_⟩ <;> norm_num [cruise, neverTime]
  have hready : Ready (⟨alloc.append (cruise 0 (1 / 2)), [] ++ (cruise 0 (1 / 2)).segments,
      0 + (0 + 1 / 2 + 0)⟩ : Run ℚ) (.append (cruise 5 1)) := by
    refine ⟨?_, ?_, ?_, ?_, ?_⟩ <;> norm_num [cruise, neverTime]
  have htidy := h _ (hfirst.step hready rfl)
  have hchain := List.isChain_iff_getElem.1 htidy.contiguous.chain 0 (by decide +kernel)
  revert hchain
  unfold Follows
  decide +kernel

end Trapq

end Thinker
