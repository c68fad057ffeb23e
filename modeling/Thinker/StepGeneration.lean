import Thinker.Transition
import Thinker.TrapqRuns

/-!
# The generation of steps

`itersolve_generate_steps` goes over the moves of a motion queue from the last flush on, and
searches for steps in those that are active for a stepper, and in windows behind and before them.
Moves that are not active are skipped, and gone back to where a later move turns out to be active.
A range that is searched has its end, but not its start.

A queue that was empty begins with a null move of one second, before which there is no move to be
searched. From the start of the first move on, the ranges cover the active moves and both windows
(`StepGenerator.sweeps_of_reachable`). The loop is left before the end of the list, as the sentinel
there is not active and lasts for `NEVER_TIME`.
-/

set_option linter.unusedSectionVars false

namespace Thinker

variable {K : Type*} [Field K] [LinearOrder K] [IsStrictOrderedRing K]

/-- A range of time that is searched in a move. -/
structure SearchRange (K : Type*) where
  move : TrapqMove K
  start : K
  stop : K

/-- `itersolve_gen_steps_range`, with the range that it searches. It returns at once if there is no
time in it. -/
def genStepsRange (m : TrapqMove K) (absStart absEnd : K) : List (SearchRange K) :=
  let start := absStart - m.printTime
  let stop := absEnd - m.printTime
  let start := if start < 0 then 0 else start
  let stop := if stop > m.moveT then m.moveT else stop
  if start < stop then [⟨m, m.printTime + start, m.printTime + stop⟩] else []

/-- `check_active`. -/
def checkActive (activeFlags : ActiveFlags) (m : TrapqMove K) : Bool :=
  (activeFlags 0 && decide (m.axesR 0 ≠ 0)) || (activeFlags 1 && decide (m.axesR 1 ≠ 0)) ||
    (activeFlags 2 && decide (m.axesR 2 ≠ 0))

/-- What `itersolve_generate_steps` does not change. -/
structure GenCall (K : Type*) where
  activeFlags : ActiveFlags
  preActive : K
  postActive : K
  lastFlushTime : K
  flushTime : K

/-- The variables of its loop, with what was searched. -/
structure GenLoop (K : Type*) where
  forceStepsTime : K
  skipCount : ℕ
  lastMoveTime : K
  log : List (SearchRange K)

/-- How it goes on after a move. -/
inductive GenNext (K : Type*) where
  | finished (lastMoveTime : K) (log : List (SearchRange K))
  | next (s : GenLoop K)

namespace GenCall

variable (g : GenCall K)

/-- The skipped moves that are gone back to, with their number and those before the move. The last
argument is what was gone over. -/
def goBack (absStart : K) :
    ℕ → List (TrapqMove K) → List (TrapqMove K) → Option (List (TrapqMove K))
  | _, [], _ => none
  | skipCount, pm :: prevs, pms =>
    if skipCount - 1 ≠ 0 ∧ pm.printTime > absStart then
      goBack absStart (skipCount - 1) prevs (pm :: pms)
    else some (pm :: pms)

/-- The start of the search before a move. -/
def leadStart (m : TrapqMove K) (forceStepsTime : K) : K :=
  let absStart := m.printTime - g.preActive
  let absStart := if absStart < g.lastFlushTime then g.lastFlushTime else absStart
  if absStart < forceStepsTime then forceStepsTime else absStart

/-- What is searched before an active move, which leads up to it. -/
def lead (prevs : List (TrapqMove K)) (m : TrapqMove K) (s : GenLoop K) :
    Option (List (SearchRange K)) :=
  if s.skipCount ≠ 0 ∧ g.preActive ≠ 0 then
    let absStart := g.leadStart m s.forceStepsTime
    (goBack absStart s.skipCount prevs []).map fun pms =>
      pms.flatMap fun pm => genStepsRange pm absStart g.flushTime
  else some []

/-- The body of the loop. `none` is a read before the list. -/
def visit (prevs : List (TrapqMove K)) (m : TrapqMove K) (s : GenLoop K) : Option (GenNext K) :=
  let moveEnd := m.printTime + m.moveT
  if checkActive g.activeFlags m then
    (g.lead prevs m s).map fun lead =>
      let log := s.log ++ lead ++ genStepsRange m g.lastFlushTime g.flushTime
      if moveEnd ≥ g.flushTime then .finished g.flushTime log
      else .next ⟨moveEnd + g.postActive, 0, moveEnd, log⟩
  else
    let s :=
      if m.printTime < s.forceStepsTime then
        -- Must generate steps just past stepper activity
        let absEnd :=
          if s.forceStepsTime > g.flushTime then g.flushTime else s.forceStepsTime
        { s with skipCount := 1, log := s.log ++ genStepsRange m g.lastFlushTime absEnd }
      else { s with skipCount := s.skipCount + 1 }
    if g.flushTime + g.preActive ≤ moveEnd then some (.finished s.lastMoveTime s.log)
    else some (.next s)

/-- The loop over the moves. `none` is a read outside of the list. -/
def loop : List (TrapqMove K) → TrapqMove K → List (TrapqMove K) → GenLoop K →
    Option (K × List (SearchRange K))
  | prevs, m, nexts, s =>
    match g.visit prevs m s with
    | none => none
    | some (.finished lastMoveTime log) => some (lastMoveTime, log)
    | some (.next s) =>
      match nexts with
      | [] => none
      | n :: nexts => loop (m :: prevs) n nexts s

/-- The loop that leaves out what was flushed. -/
def seekFlush : List (TrapqMove K) → TrapqMove K → List (TrapqMove K) → Option (TrapqCursor K)
  | prevs, m, nexts =>
    if g.lastFlushTime ≥ m.printTime + m.moveT then
      match nexts with
      | [] => none
      | n :: nexts => seekFlush (m :: prevs) n nexts
    else some ⟨prevs, m, nexts⟩

end GenCall

/-- What `itersolve_generate_steps` uses of a stepper, with its queue and all that was searched. -/
structure StepGenerator (K : Type*) where
  activeFlags : ActiveFlags
  preActive : K
  postActive : K
  lastFlushTime : K
  lastMoveTime : K
  tq : Trapq K
  log : List (SearchRange K)

namespace StepGenerator

variable (sk : StepGenerator K)

/-- What does not change in a call. -/
def call (flushTime : K) : GenCall K :=
  ⟨sk.activeFlags, sk.preActive, sk.postActive, sk.lastFlushTime, flushTime⟩

/-- `itersolve_generate_steps`, where all steps are queued. `none` is a read outside of the
list. -/
def generateSteps (flushTime : K) : Option (StepGenerator K) :=
  let tq := sk.tq.checkSentinels
  let g := sk.call flushTime
  (g.seekFlush [] TrapqMove.alloc (tq.moves ++ [tq.tail])).bind fun c =>
    let s := ⟨sk.lastMoveTime + sk.postActive, 0, sk.lastMoveTime, sk.log⟩
    (g.loop c.prevs c.move c.nexts s).map fun (lastMoveTime, log) =>
      { sk with
        lastFlushTime := flushTime
        lastMoveTime := lastMoveTime
        tq := tq
        log := log }

end StepGenerator

/-! ## Ranges -/

/-- A time was searched. -/
def Covered (log : List (SearchRange K)) (t : K) : Prop :=
  ∃ r ∈ log, r.start < t ∧ t ≤ r.stop

/-- Each range ends before the next one starts. -/
def Increasing (log : List (SearchRange K)) : Prop :=
  log.Pairwise fun r r' => r.stop ≤ r'.start

/-- A range is a part of its move. -/
structure Inside (r : SearchRange K) : Prop where
  lt : r.start < r.stop
  ge : r.move.printTime ≤ r.start
  le : r.stop ≤ r.move.endTime

variable {m : TrapqMove K} {a b t : K} {log log' : List (SearchRange K)}

theorem genStepsRange_eq (m : TrapqMove K) (a b : K) :
    genStepsRange m a b =
      if max a m.printTime < min b m.endTime then
        [⟨m, max a m.printTime, min b m.endTime⟩]
      else [] := by
  have hstart : (if a - m.printTime < 0 then 0 else a - m.printTime) =
      max a m.printTime - m.printTime := by
    split_ifs with h
    · rw [max_eq_right (sub_neg.1 h).le, sub_self]
    · rw [max_eq_left (sub_nonneg.1 (not_lt.1 h))]
  have hstop : (if b - m.printTime > m.moveT then m.moveT else b - m.printTime) =
      min b m.endTime - m.printTime := by
    unfold TrapqMove.endTime
    split_ifs with h
    · rw [min_eq_right (by linarith), add_sub_cancel_left]
    · rw [min_eq_left (by linarith)]
  unfold genStepsRange
  simp only [hstart, hstop, sub_lt_sub_iff_right, add_sub_cancel]

theorem mem_genStepsRange {r : SearchRange K} (h : r ∈ genStepsRange m a b) :
    Inside r ∧ r.move = m ∧ r.start = max a m.printTime ∧ r.stop = min b m.endTime := by
  rw [genStepsRange_eq] at h
  split_ifs at h with hlt
  · obtain rfl := List.mem_singleton.1 h
    exact ⟨⟨hlt, le_max_right _ _, min_le_right _ _⟩, rfl, rfl, rfl⟩
  · cases h

theorem covered_genStepsRange (ha : a < t) (hb : t ≤ b) (hstart : m.printTime < t)
    (hstop : t ≤ m.endTime) : Covered (genStepsRange m a b) t := by
  have hlt : max a m.printTime < t := max_lt ha hstart
  have hle : t ≤ min b m.endTime := le_min hb hstop
  rw [genStepsRange_eq, if_pos (hlt.trans_le hle)]
  exact ⟨_, List.mem_singleton_self _, hlt, hle⟩

theorem Covered.left (h : Covered log t) : Covered (log ++ log') t :=
  h.imp fun _ hr => ⟨List.mem_append_left _ hr.1, hr.2⟩

theorem Covered.right (h : Covered log' t) : Covered (log ++ log') t :=
  h.imp fun _ hr => ⟨List.mem_append_right _ hr.1, hr.2⟩

/-- A range behind all others. -/
theorem Increasing.genStepsRange (h : Increasing log)
    (hle : ∀ r ∈ log, r.stop ≤ max a m.printTime) : Increasing (log ++ genStepsRange m a b) := by
  refine List.pairwise_append.2 ⟨h, ?_, fun r hr r' hr' => ?_⟩
  · rw [genStepsRange_eq]
    split_ifs
    · exact List.pairwise_singleton _ _
    · exact List.Pairwise.nil
  · rw [(mem_genStepsRange hr').2.2.1]
    exact hle r hr

/-- Some moves that follow each other are searched from a time on. -/
theorem sweep {pms : List (TrapqMove K)} {m : TrapqMove K} {nexts : List (TrapqMove K)}
    (h : Contiguous (pms ++ m :: nexts)) (a b : K) :
    Increasing (pms.flatMap fun pm => genStepsRange pm a b) ∧
      (∀ r ∈ pms.flatMap fun pm => genStepsRange pm a b,
        Inside r ∧ a ≤ r.start ∧ r.stop ≤ b ∧ r.stop ≤ m.printTime) ∧
      ∀ t, a < t → t ≤ b → t ≤ m.printTime → (∀ p ∈ pms.head?, p.printTime < t) → pms ≠ [] →
        Covered (pms.flatMap fun pm => genStepsRange pm a b) t := by
  induction pms with
  | nil => exact ⟨List.Pairwise.nil, nofun, fun _ _ _ _ _ hne => absurd rfl hne⟩
  | cons p pms ih =>
    obtain ⟨hincreasing, hmem, hcovers⟩ := ih h.tail
    have hp : p.endTime ≤ m.printTime := h.endTime_le p List.mem_cons_self
    rw [List.flatMap_cons]
    refine ⟨?_, ?_, ?_⟩
    · refine List.pairwise_append.2
        ⟨Increasing.genStepsRange List.Pairwise.nil nofun, hincreasing, fun r hr r' hr' => ?_⟩
      obtain ⟨q, hq, hr'⟩ := List.mem_flatMap.1 hr'
      have hstop : r.stop ≤ p.endTime := (mem_genStepsRange hr).2.2.2.trans_le (min_le_right _ _)
      have hstart : q.printTime ≤ r'.start :=
        (le_max_right _ _).trans (mem_genStepsRange hr').2.2.1.ge
      exact (hstop.trans (h.printTime_ge [] q (List.mem_append_left _ hq))).trans hstart
    · intro r hr
      rcases List.mem_append.1 hr with hr | hr
      · obtain ⟨hinside, -, hstart, hstop⟩ := mem_genStepsRange hr
        refine ⟨hinside, hstart ▸ le_max_left _ _, hstop ▸ min_le_left _ _, ?_⟩
        exact (hstop.trans_le (min_le_right _ _)).trans hp
      · exact hmem r hr
    · intro t hat htb htm hhead _
      rcases le_or_gt t p.endTime with hle | hgt
      · exact (covered_genStepsRange hat htb (hhead p rfl) hle).left
      · refine (hcovers t hat htb htm (fun q hq => ?_) fun hnil => ?_).right
        · cases pms with
          | nil => cases hq
          | cons q' pms =>
            obtain rfl := Option.some_inj.1 hq
            exact (List.isChain_cons_cons.1 h.chain).1.trans_lt hgt
        · subst hnil
          exact absurd ((List.isChain_cons_cons.1 h.chain).1.trans_lt hgt) (not_lt.2 htm)

namespace GenCall

/-! ## What leads up to a move -/

/-- It goes back to the move that the search starts in, or over all that were skipped. -/
theorem goBack_spec (absStart : K) (rest : List (TrapqMove K)) {k : ℕ} {done : List (TrapqMove K)}
    (hk : k ≠ 0) (hle : k ≤ done.length) (acc : List (TrapqMove K)) :
    ∃ i, i ≠ 0 ∧ i ≤ k ∧
      goBack absStart k (done ++ rest) acc = some ((done.take i).reverse ++ acc) ∧
        (i = k ∨ ∀ p ∈ (done.take i).getLast?, p.printTime ≤ absStart) := by
  induction done generalizing k acc with
  | nil => exact absurd (Nat.le_zero.1 hle) hk
  | cons p done ih =>
    rw [List.cons_append, goBack]
    by_cases hgo : k - 1 ≠ 0 ∧ p.printTime > absStart
    · have hlen : k - 1 ≤ done.length := by
        rw [List.length_cons] at hle
        omega
      obtain ⟨i, hi, hik, hback, hstop⟩ := ih hgo.1 hlen (p :: acc)
      refine ⟨i + 1, by omega, by omega, ?_, ?_⟩
      · rw [if_pos hgo, hback]
        simp
      · refine hstop.imp (by omega) fun hlast q hq => hlast q ?_
        have hne : done.take i ≠ [] := by
          cases done with
          | nil => exact absurd (Nat.le_zero.1 hlen) hgo.1
          | cons q' done =>
            obtain ⟨j, rfl⟩ := Nat.exists_eq_succ_of_ne_zero hi
            simp
        rwa [List.take_succ_cons, List.getLast?_cons_of_ne_nil hne] at hq
    · refine ⟨1, by omega, by omega, ?_, ?_⟩
      · rw [if_neg hgo]
        simp
      · by_cases hk1 : k - 1 = 0
        · exact .inl (by omega)
        · refine .inr fun q hq => ?_
          obtain rfl : p = q := by simpa using hq
          exact not_lt.1 fun hlt => hgo ⟨hk1, hlt⟩

/-! ## The loop -/

/-- When a stepper was active : until before the call, and in the moves that were visited. -/
inductive Window (g : GenCall K) (before : K) (done : List (TrapqMove K)) : K → K → Prop
  | before : Window g before done before before
  | move {a : TrapqMove K} (ha : a ∈ done) (hactive : checkActive g.activeFlags a = true) :
      Window g before done a.printTime a.endTime

/-- What is called with. -/
structure Proper (g : GenCall K) (before : K) : Prop where
  pre_nonneg : 0 ≤ g.preActive
  post_nonneg : 0 ≤ g.postActive
  before_le : before ≤ g.lastFlushTime

/-- When the moves start that were skipped. -/
def skipStart (done : List (TrapqMove K)) (skipCount : ℕ) (time : K) : K :=
  ((done.take skipCount).getLast?.map TrapqMove.printTime).getD time

/-- What holds in the loop at the start of a move. The moves before it are newest first. -/
structure LoopInv (g : GenCall K) (before start : K) (log : List (SearchRange K))
    (done : List (TrapqMove K)) (time : K) (s : GenLoop K) : Prop where
  force : s.forceStepsTime = s.lastMoveTime + g.postActive
  skip : s.skipCount ≤ done.length
  log_prefix : log <+: s.log
  increasing : Increasing s.log
  inside : ∀ r ∈ s.log, Inside r
  flushed : ∀ r ∈ s.log, r.stop ≤ g.flushTime
  behind : ∀ r ∈ s.log, r.stop ≤ g.lastFlushTime ∨ r.stop ≤ s.forceStepsTime ∧ r.stop ≤ time
  recent : ∃ lo, Window g before done lo s.lastMoveTime
  latest : ∀ lo hi, Window g before done lo hi → hi ≤ s.lastMoveTime
  swept : ∀ lo hi, Window g before done lo hi → ∀ t, g.lastFlushTime < t → t ≤ g.flushTime →
    start < t → t ≤ time → lo - g.preActive < t → t ≤ hi + g.postActive → Covered s.log t
  back : skipStart done s.skipCount time ≤ g.lastFlushTime ∨
    skipStart done s.skipCount time ≤ s.forceStepsTime ∨ skipStart done s.skipCount time = start

variable {g : GenCall K} {before start : K} {log : List (SearchRange K)}
  {done nexts : List (TrapqMove K)} {m e : TrapqMove K} {s : GenLoop K}

theorem Window.cons {lo hi : K} (h : Window g before (m :: done) lo hi) :
    Window g before done lo hi ∨
      checkActive g.activeFlags m = true ∧ lo = m.printTime ∧ hi = m.endTime := by
  cases h with
  | before => exact .inl .before
  | move ha hactive =>
    rcases List.mem_cons.1 ha with rfl | ha
    · exact .inr ⟨hactive, rfl, rfl⟩
    · exact .inl (.move ha hactive)

theorem Window.succ {lo hi : K} (h : Window g before done lo hi) :
    Window g before (m :: done) lo hi := by
  cases h with
  | before => exact .before
  | move ha hactive => exact .move (List.mem_cons_of_mem _ ha) hactive

theorem leadStart_eq (m : TrapqMove K) (f : K) :
    g.leadStart m f = max (max (m.printTime - g.preActive) g.lastFlushTime) f := by
  simp only [leadStart, max_def_lt]

/-- What holds after a call. -/
structure Swept (g : GenCall K) (start : K) (log : List (SearchRange K)) (ms : List (TrapqMove K))
    (lastMoveTime : K) (log' : List (SearchRange K)) : Prop where
  log_prefix : log <+: log'
  increasing : Increasing log'
  inside : ∀ r ∈ log', Inside r
  flushed : ∀ r ∈ log', r.stop ≤ g.flushTime
  le_flush : lastMoveTime ≤ g.flushTime
  latest : ∀ a ∈ ms, checkActive g.activeFlags a = true → a.endTime ≤ g.flushTime →
    a.endTime ≤ lastMoveTime
  covers : ∀ a ∈ ms, checkActive g.activeFlags a = true → ∀ t, g.lastFlushTime < t →
    t ≤ g.flushTime → start < t → a.printTime - g.preActive < t → t ≤ a.endTime + g.postActive →
      Covered log' t

namespace LoopInv

/-- The windows of what comes before a move start before it. -/
theorem lo_le (hg : g.Proper before) (hc : Contiguous (done.reverse ++ m :: nexts)) {lo hi : K}
    (h : Window g before done lo hi) : lo ≤ g.lastFlushTime ∨ lo ≤ m.printTime := by
  cases h with
  | before => exact .inl hg.before_le
  | move ha _ =>
    have ha' := List.mem_reverse.2 ha
    exact .inr ((hc.endTime_ge (List.mem_append_left _ ha')).trans (hc.endTime_le _ ha'))

/-- What is searched before an active move reaches back over its window. -/
theorem lead_spec (hg : g.Proper before) (hc : Contiguous (done.reverse ++ m :: nexts))
    (h : LoopInv g before start log done m.printTime s) :
    ∃ l, g.lead (done ++ [e]) m s = some l ∧ Increasing l ∧
      (∀ r ∈ l, Inside r ∧ max g.lastFlushTime s.forceStepsTime ≤ r.start ∧
        r.stop ≤ g.flushTime ∧ r.stop ≤ m.printTime) ∧
      ∀ t, g.lastFlushTime < t → t ≤ g.flushTime → start < t → t ≤ m.printTime →
        m.printTime - g.preActive < t → Covered (s.log ++ l) t := by
  have hforce : ∀ t, g.lastFlushTime < t → t ≤ g.flushTime → start < t → t ≤ m.printTime →
      m.printTime - g.preActive < t → t ≤ s.forceStepsTime → Covered s.log t := by
    intro t ht hflush hstart hle hpre hf
    obtain ⟨lo, hw⟩ := h.recent
    refine h.swept lo _ hw t ht hflush hstart hle ?_ (h.force ▸ hf)
    rcases lo_le hg hc hw with hlo | hlo
    · linarith [hg.pre_nonneg]
    · linarith
  have hback := h.back
  unfold skipStart at hback
  unfold lead
  by_cases hlead : s.skipCount ≠ 0 ∧ g.preActive ≠ 0
  · set absStart := g.leadStart m s.forceStepsTime with habs
    rw [leadStart_eq] at habs
    have hL : g.lastFlushTime ≤ absStart :=
      habs ▸ (le_max_right _ _).trans (le_max_left _ _)
    have hf : s.forceStepsTime ≤ absStart := habs ▸ le_max_right _ _
    obtain ⟨i, hi, hik, hrun, hstop⟩ := goBack_spec absStart [e] hlead.1 h.skip []
    have hsplit : done.reverse = (done.drop i).reverse ++ (done.take i).reverse := by
      rw [← List.reverse_append, List.take_append_drop]
    have hstretch : Contiguous ((done.take i).reverse ++ m :: nexts) := by
      rw [hsplit, List.append_assoc] at hc
      exact ⟨hc.chain.right_of_append, fun n hn => hc.nonneg n (List.mem_append_right _ hn)⟩
    have hne : (done.take i).reverse ≠ [] := by
      have hlen : done.length ≠ 0 := by have := h.skip; omega
      cases done with
      | nil => exact absurd rfl hlen
      | cons p done =>
        obtain ⟨j, rfl⟩ := Nat.exists_eq_succ_of_ne_zero hi
        simp
    obtain ⟨hincreasing, hmem, hcovers⟩ := sweep hstretch absStart g.flushTime
    rw [if_pos hlead]
    simp only
    rw [hrun, List.append_nil]
    refine ⟨_, rfl, hincreasing, fun r hr => ?_, fun t ht hflush hstart hle hpre => ?_⟩
    · obtain ⟨hinside, hstart, hstop⟩ := hmem r hr
      exact ⟨hinside, (max_le hL hf).trans hstart, hstop⟩
    · rcases le_or_gt t s.forceStepsTime with hf' | hf'
      · exact (hforce t ht hflush hstart hle hpre hf').left
      · have habs' : absStart < t := habs ▸ max_lt (max_lt hpre ht) hf'
        refine (hcovers t habs' hflush hle (fun p hp => ?_) hne).right
        rw [List.head?_reverse] at hp
        rcases hstop with rfl | hstop
        · rw [hp] at hback
          rcases hback with hback | hback | hback
          · exact hback.trans_lt ht
          · exact hback.trans_lt hf'
          · exact hback.trans_lt hstart
        · exact (hstop p hp).trans_lt habs'
  · rw [if_neg hlead]
    refine ⟨[], rfl, List.Pairwise.nil, nofun, fun t ht hflush hstart hle hpre => ?_⟩
    rw [List.append_nil]
    rcases not_and_or.1 hlead with hskip | hpre'
    · rw [not_not.1 hskip] at hback
      rcases hback with hback | hback | hback
      · exact absurd ht (not_lt.2 (hle.trans hback))
      · exact hforce t ht hflush hstart hle hpre (hle.trans hback)
      · exact absurd hstart (not_lt.2 (hle.trans hback.le))
    · rw [not_not.1 hpre', sub_zero] at hpre
      exact absurd hpre (not_lt.2 hle)

/-- What was searched is behind what is searched before an active move. -/
theorem increasing_append (h : LoopInv g before start log done m.printTime s)
    {l : List (SearchRange K)} (hl : Increasing l)
    (hmem : ∀ r ∈ l, max g.lastFlushTime s.forceStepsTime ≤ r.start) :
    Increasing (s.log ++ l) := by
  refine List.pairwise_append.2 ⟨h.increasing, hl, fun r hr r' hr' => ?_⟩
  refine le_trans ?_ (hmem r' hr')
  exact le_max_iff.2 ((h.behind r hr).imp id fun hr => hr.1)

/-- An active move is visited. -/
theorem active (hg : g.Proper before) (hc : Contiguous (done.reverse ++ m :: nexts))
    (hfresh : g.lastFlushTime < m.endTime) (hm : checkActive g.activeFlags m = true)
    (h : LoopInv g before start log done m.printTime s) :
    ∃ l, g.lead (done ++ [e]) m s = some l ∧
      LoopInv g before start log (m :: done) m.endTime
        ⟨m.endTime + g.postActive, 0, m.endTime,
          s.log ++ l ++ genStepsRange m g.lastFlushTime g.flushTime⟩ ∧
      ∀ t, g.lastFlushTime < t → t ≤ g.flushTime → start < t → t ≤ m.endTime →
        m.printTime - g.preActive < t →
          Covered (s.log ++ l ++ genStepsRange m g.lastFlushTime g.flushTime) t := by
  obtain ⟨l, hlead, hincreasing, hmem, hcovers⟩ := h.lead_spec hg hc (e := e)
  have hend : m.printTime ≤ m.endTime := hc.endTime_ge (by simp)
  have hcovers' : ∀ t, g.lastFlushTime < t → t ≤ g.flushTime → start < t → t ≤ m.endTime →
      m.printTime - g.preActive < t →
        Covered (s.log ++ l ++ genStepsRange m g.lastFlushTime g.flushTime) t := by
    intro t ht hflush hstart hle hpre
    rcases le_or_gt t m.printTime with hm' | hm'
    · exact (hcovers t ht hflush hstart hm' hpre).left
    · exact (covered_genStepsRange ht hflush hm' hle).right
  refine ⟨l, hlead, ?_, hcovers'⟩
  constructor
  · rfl
  · exact Nat.zero_le _
  · rw [List.append_assoc]
    exact h.log_prefix.trans (List.prefix_append _ _)
  · refine (h.increasing_append hincreasing fun r hr => (hmem r hr).2.1).genStepsRange ?_
    intro r hr
    rcases List.mem_append.1 hr with hr | hr
    · exact le_max_iff.2 ((h.behind r hr).imp id fun hr => hr.2)
    · exact (hmem r hr).2.2.2.trans (le_max_right _ _)
  · intro r hr
    rcases List.mem_append.1 hr with hr | hr
    · exact (List.mem_append.1 hr).elim (h.inside r) fun hr => (hmem r hr).1
    · exact (mem_genStepsRange hr).1
  · intro r hr
    rcases List.mem_append.1 hr with hr | hr
    · exact (List.mem_append.1 hr).elim (h.flushed r) fun hr => (hmem r hr).2.2.1
    · exact (mem_genStepsRange hr).2.2.2.trans_le (min_le_left _ _)
  · have hforce : ∀ {x : K}, x ≤ m.endTime →
        x ≤ g.lastFlushTime ∨ x ≤ m.endTime + g.postActive ∧ x ≤ m.endTime :=
      fun hx => .inr ⟨hx.trans (le_add_of_nonneg_right hg.post_nonneg), hx⟩
    intro r hr
    rcases List.mem_append.1 hr with hr | hr
    · rcases List.mem_append.1 hr with hr | hr
      · exact (h.behind r hr).elim .inl fun hr => hforce (hr.2.trans hend)
      · exact hforce ((hmem r hr).2.2.2.trans hend)
    · exact hforce ((mem_genStepsRange hr).2.2.2.trans_le (min_le_right _ _))
  · exact ⟨_, .move List.mem_cons_self hm⟩
  · intro lo hi hw
    rcases hw.cons with hw | ⟨-, -, rfl⟩
    · cases hw with
      | before => exact hg.before_le.trans hfresh.le
      | move ha _ => exact (hc.endTime_le _ (List.mem_reverse.2 ha)).trans hend
    · exact le_rfl
  · intro lo hi hw t ht hflush hstart hle hpre hpost
    rcases hw.cons with hw | ⟨-, rfl, -⟩
    · rcases le_or_gt t m.printTime with hm' | hm'
      · exact ((h.swept lo hi hw t ht hflush hstart hm' hpre hpost).left).left
      · exact (covered_genStepsRange ht hflush hm' hle).right
    · exact hcovers' t ht hflush hstart hle hpre
  · exact .inr (.inl (le_add_of_nonneg_right hg.post_nonneg))

/-- A move that is not active is visited. -/
theorem inactive (hc : Contiguous (done.reverse ++ m :: nexts))
    (hm : checkActive g.activeFlags m = false)
    (h : LoopInv g before start log done m.printTime s) :
    LoopInv g before start log (m :: done) m.endTime
      (if m.printTime < s.forceStepsTime then
        { s with
          skipCount := 1
          log := s.log ++ genStepsRange m g.lastFlushTime (min s.forceStepsTime g.flushTime) }
      else { s with skipCount := s.skipCount + 1 }) := by
  have hend : m.printTime ≤ m.endTime := hc.endTime_ge (by simp)
  have hold : ∀ {lo hi : K}, Window g before (m :: done) lo hi → Window g before done lo hi :=
    fun hw => hw.cons.resolve_right fun h => by rw [hm] at h; cases h.1
  have hrecent : ∃ lo, Window g before (m :: done) lo s.lastMoveTime := by
    obtain ⟨lo, hw⟩ := h.recent
    exact ⟨lo, hw.succ⟩
  have hlatest : ∀ {lo hi t : K}, Window g before (m :: done) lo hi → t ≤ hi + g.postActive →
      t ≤ s.forceStepsTime := by
    intro lo hi t hw ht
    rw [h.force]
    linarith [h.latest _ _ (hold hw)]
  split_ifs with hlt
  · constructor
    · exact h.force
    · simp
    · exact h.log_prefix.trans (List.prefix_append _ _)
    · refine h.increasing.genStepsRange fun r hr => ?_
      exact le_max_iff.2 ((h.behind r hr).imp id fun hr => hr.2)
    · intro r hr
      exact (List.mem_append.1 hr).elim (h.inside r) fun hr => (mem_genStepsRange hr).1
    · intro r hr
      rcases List.mem_append.1 hr with hr | hr
      · exact h.flushed r hr
      · exact (mem_genStepsRange hr).2.2.2.trans_le ((min_le_left _ _).trans (min_le_right _ _))
    · intro r hr
      rcases List.mem_append.1 hr with hr | hr
      · exact (h.behind r hr).imp id fun hr => ⟨hr.1, hr.2.trans hend⟩
      · have hstop := (mem_genStepsRange hr).2.2.2
        exact .inr ⟨hstop.trans_le ((min_le_left _ _).trans (min_le_left _ _)),
          hstop.trans_le (min_le_right _ _)⟩
    · exact hrecent
    · exact fun lo hi hw => h.latest lo hi (hold hw)
    · intro lo hi hw t ht hflush hstart hle hpre hpost
      rcases le_or_gt t m.printTime with hm' | hm'
      · exact (h.swept lo hi (hold hw) t ht hflush hstart hm' hpre hpost).left
      · exact (covered_genStepsRange ht (le_min (hlatest hw hpost) hflush) hm' hle).right
    · refine .inr (.inl ?_)
      simpa [skipStart] using hlt.le
  · constructor
    · exact h.force
    · simpa using h.skip
    · exact h.log_prefix
    · exact h.increasing
    · exact h.inside
    · exact h.flushed
    · exact fun r hr => (h.behind r hr).imp id fun hr => ⟨hr.1, hr.2.trans hend⟩
    · exact hrecent
    · exact fun lo hi hw => h.latest lo hi (hold hw)
    · intro lo hi hw t ht hflush hstart hle hpre hpost
      have hm' : t ≤ m.printTime := (hlatest hw hpost).trans (not_lt.1 hlt)
      exact h.swept lo hi (hold hw) t ht hflush hstart hm' hpre hpost
    · have heq : skipStart (m :: done) (s.skipCount + 1) m.endTime =
          skipStart done s.skipCount m.printTime := by
        unfold skipStart
        rw [List.take_succ_cons, List.getLast?_cons]
        cases (done.take s.skipCount).getLast? <;> rfl
      simp only [heq]
      exact h.back

/-- It ends with an active move that is still going on then. -/
theorem finish_active (hc : Contiguous (done.reverse ++ m :: nexts))
    (hflush : m.endTime ≥ g.flushTime) {s' : GenLoop K}
    (h : LoopInv g before start log (m :: done) m.endTime s')
    (hcovers : ∀ t, g.lastFlushTime < t → t ≤ g.flushTime → start < t → t ≤ m.endTime →
      m.printTime - g.preActive < t → Covered s'.log t) :
    Swept g start log (done.reverse ++ m :: nexts) g.flushTime s'.log := by
  refine ⟨h.log_prefix, h.increasing, h.inside, h.flushed, le_rfl, fun a _ _ ha => ha, ?_⟩
  intro a ha hactive t ht hle hstart hpre hpost
  have hmem : a ∈ m :: done ∨ a ∈ nexts := by
    simp only [List.mem_append, List.mem_reverse, List.mem_cons] at ha ⊢
    tauto
  rcases hmem with hmem | hmem
  · exact h.swept _ _ (.move hmem hactive) t ht hle hstart (hle.trans hflush) hpre hpost
  · have hlo : m.printTime ≤ a.printTime :=
      hc.printTime_le _ a (List.mem_cons_of_mem _ hmem)
    exact hcovers t ht hle hstart (hle.trans hflush) (by linarith)

/-- It ends with a move that is not active, and is behind the windows that can be searched. -/
theorem finish_inactive (hg : g.Proper before) (hc : Contiguous (done.reverse ++ m :: nexts))
    (hpos : ∀ n ∈ nexts, 0 < n.moveT) (hflush : g.flushTime + g.preActive ≤ m.endTime)
    {s' : GenLoop K} (hle : s'.lastMoveTime ≤ g.flushTime)
    (h : LoopInv g before start log (m :: done) m.endTime s') :
    Swept g start log (done.reverse ++ m :: nexts) s'.lastMoveTime s'.log := by
  have hmem : ∀ a ∈ done.reverse ++ m :: nexts, a ∈ m :: done ∨ a ∈ nexts := by
    intro a ha
    simp only [List.mem_append, List.mem_reverse, List.mem_cons] at ha ⊢
    tauto
  have hpre := hg.pre_nonneg
  refine ⟨h.log_prefix, h.increasing, h.inside, h.flushed, hle, ?_, ?_⟩
  · intro a ha hactive hend
    rcases hmem a ha with ha | ha
    · exact h.latest _ _ (.move ha hactive)
    · have hstart := hc.printTime_ge _ a ha
      have hlt := hpos a ha
      unfold TrapqMove.endTime at hend
      linarith
  · intro a ha hactive t ht hle hstart hpre hpost
    rcases hmem a ha with ha | ha
    · exact h.swept _ _ (.move ha hactive) t ht hle hstart (by linarith) hpre hpost
    · have := hc.printTime_ge _ a ha
      linarith

/-- A move is visited. -/
theorem visit_spec (hg : g.Proper before) (hc : Contiguous (done.reverse ++ m :: nexts))
    (hpos : ∀ n ∈ nexts, 0 < n.moveT) (hfresh : g.lastFlushTime < m.endTime)
    (hle : s.lastMoveTime ≤ g.flushTime) (h : LoopInv g before start log done m.printTime s) :
    (∃ s', g.visit (done ++ [e]) m s = some (.next s') ∧
      m.endTime < g.flushTime + g.preActive ∧ s'.lastMoveTime ≤ g.flushTime ∧
        LoopInv g before start log (m :: done) m.endTime s') ∨
    ∃ lastMoveTime log', g.visit (done ++ [e]) m s = some (.finished lastMoveTime log') ∧
      Swept g start log (done.reverse ++ m :: nexts) lastMoveTime log' := by
  have hpre := hg.pre_nonneg
  unfold visit
  cases hm : checkActive g.activeFlags m with
  | true =>
    obtain ⟨l, hlead, hinv, hcovers⟩ := h.active hg hc hfresh hm (e := e)
    rw [if_pos rfl, hlead]
    by_cases hflush : m.endTime ≥ g.flushTime
    · refine .inr ⟨_, _, congrArg some (if_pos hflush), ?_⟩
      exact finish_active hc hflush hinv hcovers
    · have hlt := not_le.1 hflush
      exact .inl ⟨_, congrArg some (if_neg hflush), by linarith, hlt.le, hinv⟩
  | false =>
    have hinv := h.inactive hc hm
    have habs : (if s.forceStepsTime > g.flushTime then g.flushTime else s.forceStepsTime) =
        min s.forceStepsTime g.flushTime := by
      rw [min_comm, min_def_lt]
    rw [if_neg Bool.false_ne_true]
    simp only [habs]
    set s' := if m.printTime < s.forceStepsTime then
        { s with
          skipCount := 1
          log := s.log ++ genStepsRange m g.lastFlushTime (min s.forceStepsTime g.flushTime) }
      else { s with skipCount := s.skipCount + 1 } with hs'
    have hle' : s'.lastMoveTime ≤ g.flushTime := by
      rw [hs']
      split_ifs <;> exact hle
    by_cases hflush : g.flushTime + g.preActive ≤ m.endTime
    · exact .inr ⟨_, _, if_pos hflush, finish_inactive hg hc hpos hflush hle' hinv⟩
    · exact .inl ⟨_, if_neg hflush, not_le.1 hflush, hle', hinv⟩

/-- The loop comes to an end in the list, if its last move is not active and goes on for long
enough. -/
theorem loop_spec (hg : g.Proper before) (hc : Contiguous (done.reverse ++ m :: nexts))
    (hpos : ∀ n ∈ nexts, 0 < n.moveT) (hfresh : g.lastFlushTime < m.endTime)
    (hlast : ∀ l ∈ (m :: nexts).getLast?, g.flushTime + g.preActive ≤ l.endTime)
    (hle : s.lastMoveTime ≤ g.flushTime) (h : LoopInv g before start log done m.printTime s) :
    ∃ lastMoveTime log', g.loop (done ++ [e]) m nexts s = some (lastMoveTime, log') ∧
      Swept g start log (done.reverse ++ m :: nexts) lastMoveTime log' := by
  induction nexts generalizing done m s with
  | nil =>
    unfold loop
    rcases h.visit_spec hg hc hpos hfresh hle with ⟨_, -, hlt, -⟩ | ⟨lm, l, hvisit, hswept⟩
    · exact absurd (hlast m rfl) (not_le.2 hlt)
    · rw [hvisit]
      exact ⟨lm, l, rfl, hswept⟩
  | cons n nexts ih =>
    unfold loop
    rcases h.visit_spec hg hc hpos hfresh hle with ⟨s', hvisit, -, hle', hinv⟩ |
      ⟨lm, l, hvisit, hswept⟩
    · rw [hvisit]
      have hsplit : done.reverse ++ m :: n :: nexts = (m :: done).reverse ++ n :: nexts := by simp
      have hfollows : n.printTime = m.endTime :=
        (List.isChain_cons_cons.1 hc.chain.right_of_append).1
      have hn : n.printTime ≤ n.endTime := hc.endTime_ge (by simp)
      rw [hsplit] at hc ⊢
      refine ih hc (fun n' hn' => hpos n' (List.mem_cons_of_mem _ hn')) ?_ ?_ hle' ?_
      · exact hfresh.trans_le (hfollows ▸ hn)
      · rwa [List.getLast?_cons_cons] at hlast
      · rwa [hfollows]
    · rw [hvisit]
      exact ⟨lm, l, rfl, hswept⟩

end LoopInv

/-- What was flushed is left out. -/
theorem seekFlush_spec (prevs : List (TrapqMove K)) (m : TrapqMove K) (nexts : List (TrapqMove K))
    (h : ∃ l ∈ m :: nexts, g.lastFlushTime < l.endTime) :
    ∃ pre m' nexts', m :: nexts = pre ++ m' :: nexts' ∧
      (∀ p ∈ pre, p.endTime ≤ g.lastFlushTime) ∧ g.lastFlushTime < m'.endTime ∧
        g.seekFlush prevs m nexts = some ⟨pre.reverse ++ prevs, m', nexts'⟩ := by
  induction nexts generalizing prevs m with
  | nil =>
    obtain ⟨l, hl, hlt⟩ := h
    obtain rfl := List.mem_singleton.1 hl
    exact ⟨[], l, [], rfl, nofun, hlt, if_neg (not_le.2 hlt)⟩
  | cons n nexts ih =>
    by_cases hend : g.lastFlushTime ≥ m.printTime + m.moveT
    · have h' : ∃ l ∈ n :: nexts, g.lastFlushTime < l.endTime := by
        obtain ⟨l, hl, hlt⟩ := h
        rcases List.mem_cons.1 hl with rfl | hl
        · exact absurd hlt (not_lt.2 hend)
        · exact ⟨l, hl, hlt⟩
      obtain ⟨pre, m', nexts', hsplit, hpre, hlt, hrun⟩ := ih (m :: prevs) n h'
      refine ⟨m :: pre, m', nexts', congrArg (m :: ·) hsplit, ?_, hlt, ?_⟩
      · intro p hp
        rcases List.mem_cons.1 hp with rfl | hp
        · exact hend
        · exact hpre p hp
      · unfold seekFlush
        rw [if_pos hend]
        simpa using hrun
    · exact ⟨[], m, n :: nexts, rfl, nofun, not_le.1 hend, if_neg hend⟩

end GenCall

/-! ## Calls -/

namespace Trapq

variable (tq : Trapq K)

/-- Moves are put at the end of the list, and the sentinel is no longer up to date. -/
def extend (ext : List (TrapqMove K)) : Trapq K :=
  { tq with moves := tq.moves ++ ext, tail := { tq.tail with printTime := 0 } }

/-- A queue of moves that follow each other. -/
structure Timed : Prop where
  contiguous : Contiguous tq.moves
  pos : ∀ m ∈ tq.moves, 0 < m.moveT
  nonneg : ∀ m ∈ tq.moves, 0 ≤ m.printTime
  tail_moveT : tq.tail.moveT = neverTime
  tail_axesR : tq.tail.axesR = 0
  tail : tq.tail.printTime = 0 ∨
    tq.tail.printTime = if tq.moves = [] then neverTime else tq.last.endTime

theorem timed_alloc : (alloc : Trapq K).Timed :=
  ⟨⟨List.isChain_nil, nofun⟩, nofun, nofun, rfl, rfl, .inr rfl⟩

variable {tq}

theorem Timed.extend (h : tq.Timed) {ext : List (TrapqMove K)}
    (hc : Contiguous (tq.moves ++ ext)) (hpos : ∀ m ∈ ext, 0 < m.moveT)
    (hnonneg : ∀ m ∈ ext, 0 ≤ m.printTime) : (tq.extend ext).Timed :=
  ⟨hc, fun m hm => (List.mem_append.1 hm).elim (h.pos m) (hpos m),
    fun m hm => (List.mem_append.1 hm).elim (h.nonneg m) (hnonneg m), h.tail_moveT, h.tail_axesR,
    .inl rfl⟩

/-- The moves with the sentinel behind them. -/
structure Listed (ms : List (TrapqMove K)) : Prop where
  contiguous : Contiguous ms
  pos : ∀ m ∈ ms, 0 < m.moveT
  never : ∀ l ∈ ms.getLast?, neverTime < l.endTime

theorem neverTime_pos : (0 : K) < neverTime := by
  unfold neverTime
  norm_num

theorem Timed.checkSentinels (h : tq.Timed) : tq.checkSentinels.Timed ∧
    tq.checkSentinels.moves = tq.moves ∧
      Listed (tq.checkSentinels.moves ++ [tq.checkSentinels.tail]) := by
  obtain ⟨hmoves, -, hmoveT, haxesR, htail⟩ := tq.checkSentinels_spec h.tail
  have hlast : tq.checkSentinels.last = tq.last := by
    unfold last
    rw [hmoves]
  rw [h.tail_moveT] at hmoveT
  have htailPos : 0 < tq.checkSentinels.tail.printTime := by
    rw [htail]
    split_ifs with hnil
    · exact neverTime_pos
    · obtain ⟨l, hl⟩ := Option.isSome_iff_exists.1 (List.getLast?_isSome.2 hnil)
      have hmem := List.mem_of_getLast? hl
      have heq : tq.last = l := by
        unfold last
        rw [hl]
        rfl
      rw [heq]
      exact add_pos_of_nonneg_of_pos (h.nonneg l hmem) (h.pos l hmem)
  refine ⟨⟨?_, ?_, ?_, hmoveT, haxesR.trans h.tail_axesR, .inr ?_⟩, hmoves, ⟨⟨?_, ?_⟩, ?_, ?_⟩⟩
  · rw [hmoves]
    exact h.contiguous
  · rw [hmoves]
    exact h.pos
  · rw [hmoves]
    exact h.nonneg
  · rw [hmoves, hlast]
    exact htail
  · rw [hmoves]
    refine List.isChain_append.2 ⟨h.contiguous.chain, List.isChain_singleton _, fun l hl n hn => ?_⟩
    obtain rfl := Option.some_inj.1 hn
    have hne : tq.moves ≠ [] := fun hnil => by
      rw [hnil] at hl
      cases hl
    have heq : tq.last = l := by
      unfold last
      rw [hl]
      rfl
    unfold Follows
    rw [htail, if_neg hne, heq]
  · intro m hm
    rcases List.mem_append.1 hm with hm | hm
    · exact (h.pos m (hmoves ▸ hm)).le
    · rw [List.mem_singleton.1 hm, hmoveT]
      exact neverTime_pos.le
  · intro m hm
    rcases List.mem_append.1 hm with hm | hm
    · exact h.pos m (hmoves ▸ hm)
    · rw [List.mem_singleton.1 hm, hmoveT]
      exact neverTime_pos
  · intro l hl
    rw [List.getLast?_concat] at hl
    obtain rfl := Option.some_inj.1 hl
    unfold TrapqMove.endTime
    rw [hmoveT]
    exact lt_add_of_pos_left _ htailPos

end Trapq

namespace StepGenerator

/-- A time is in a move of a stepper, or in a window around it. -/
structure InWindow (sk : StepGenerator K) (a : TrapqMove K) (t : K) : Prop where
  mem : a ∈ sk.tq.moves
  active : checkActive sk.activeFlags a = true
  pre : a.printTime - sk.preActive < t
  post : t ≤ a.endTime + sk.postActive

/-- A time is behind the start of the first move. -/
def Listed (sk : StepGenerator K) (t : K) : Prop :=
  ∀ m ∈ sk.tq.moves.head?, m.printTime < t

/-- What holds between calls. -/
structure Inv (sk : StepGenerator K) : Prop where
  pre_nonneg : 0 ≤ sk.preActive
  post_nonneg : 0 ≤ sk.postActive
  flush_nonneg : 0 ≤ sk.lastFlushTime
  last_le : sk.lastMoveTime ≤ sk.lastFlushTime
  timed : sk.tq.Timed
  increasing : Increasing sk.log
  inside : ∀ r ∈ sk.log, Inside r
  flushed : ∀ r ∈ sk.log, r.stop ≤ sk.lastFlushTime
  latest : ∀ a ∈ sk.tq.moves, checkActive sk.activeFlags a = true →
    a.endTime ≤ sk.lastFlushTime → a.endTime ≤ sk.lastMoveTime
  covers : ∀ a t, sk.InWindow a t → t ≤ sk.lastFlushTime → sk.Listed t → Covered sk.log t

/-- Moves that are put at the end of the list, where their windows were not flushed. -/
structure Extends (sk : StepGenerator K) (ext : List (TrapqMove K)) : Prop where
  contiguous : Contiguous (sk.tq.moves ++ ext)
  pos : ∀ m ∈ ext, 0 < m.moveT
  nonneg : ∀ m ∈ ext, 0 ≤ m.printTime
  beyond : ∀ a ∈ ext, checkActive sk.activeFlags a = true →
    sk.lastFlushTime + sk.preActive ≤ a.printTime

/-- A time to which steps can be generated. -/
structure Flushable (sk : StepGenerator K) (flushTime : K) : Prop where
  increasing : sk.lastFlushTime ≤ flushTime
  never : flushTime + sk.preActive ≤ neverTime

variable {sk : StepGenerator K}

theorem Inv.extend (h : Inv sk) {ext : List (TrapqMove K)} (hext : Extends sk ext) :
    Inv { sk with tq := sk.tq.extend ext } := by
  refine ⟨h.pre_nonneg, h.post_nonneg, h.flush_nonneg, h.last_le,
    h.timed.extend hext.contiguous hext.pos hext.nonneg, h.increasing, h.inside, h.flushed, ?_, ?_⟩
  · intro a ha hactive hend
    rcases List.mem_append.1 ha with ha | ha
    · exact h.latest a ha hactive hend
    · have hpos := hext.pos a ha
      have hbeyond := hext.beyond a ha hactive
      have hpre := h.pre_nonneg
      unfold TrapqMove.endTime at hend
      simp only at hend
      linarith
  · intro a t hw ht hlisted
    rcases List.mem_append.1 hw.mem with ha | ha
    · refine h.covers a t ⟨ha, hw.active, hw.pre, hw.post⟩ ht fun m hm => hlisted m ?_
      change (sk.tq.moves ++ ext).head? = some m
      rw [List.head?_append, show sk.tq.moves.head? = some m from hm, Option.some_or]
    · have hbeyond := hext.beyond a ha hw.active
      have hpre := hw.pre
      simp only at hpre ht
      linarith

/-- The start of the loop. -/
theorem Inv.loopInv (h : Inv sk) {flushTime : K} (hle : sk.lastFlushTime ≤ flushTime)
    {pre nexts : List (TrapqMove K)} {m : TrapqMove K} {start : K}
    (hc : Contiguous (pre ++ m :: nexts)) (hpre : ∀ p ∈ pre, p.endTime ≤ sk.lastFlushTime)
    (hlatest : ∀ a ∈ pre, checkActive sk.activeFlags a = true → a.endTime ≤ sk.lastMoveTime)
    (hstart : pre = [] → start = m.printTime) :
    GenCall.LoopInv (sk.call flushTime) sk.lastMoveTime start sk.log pre.reverse m.printTime
      ⟨sk.lastMoveTime + sk.postActive, 0, sk.lastMoveTime, sk.log⟩ := by
  have hm : m.printTime ≤ sk.lastFlushTime ∨ m.printTime = start := by
    rcases List.eq_nil_or_concat pre with rfl | ⟨init, p, rfl⟩
    · exact .inr (hstart rfl).symm
    · refine .inl ?_
      rw [List.concat_eq_append, List.append_assoc] at hc
      rw [(List.isChain_cons_cons.1 hc.chain.right_of_append).1]
      exact hpre p (by simp)
  constructor
  · rfl
  · exact Nat.zero_le _
  · exact List.prefix_refl _
  · exact h.increasing
  · exact h.inside
  · exact fun r hr => (h.flushed r hr).trans hle
  · exact fun r hr => .inl (h.flushed r hr)
  · exact ⟨_, .before⟩
  · intro lo hi hw
    cases hw with
    | before => exact le_rfl
    | move ha hactive => exact hlatest _ (List.mem_reverse.1 ha) hactive
  · intro lo hi hw t ht hflush hlt hle _ _
    rcases hm with hm | hm
    · exact absurd ht (not_lt.2 (hle.trans hm))
    · exact absurd hlt (not_lt.2 (hle.trans hm.le))
  · rcases hm with hm | hm
    · exact .inl hm
    · exact .inr (.inr hm)

/-- A call does not leave the list, and searches in all windows up to the time of the flush. -/
theorem Inv.generateSteps (h : Inv sk) {flushTime : K} (hf : Flushable sk flushTime) :
    ∃ sk', sk.generateSteps flushTime = some sk' ∧ Inv sk' := by
  obtain ⟨htimed, hmoves, hlisted⟩ := h.timed.checkSentinels
  set tq := sk.tq.checkSentinels with htq
  set g := sk.call flushTime with hg
  have hproper : g.Proper sk.lastMoveTime :=
    ⟨h.pre_nonneg, h.post_nonneg, h.last_le⟩
  have hnever : ∀ l ∈ (tq.moves ++ [tq.tail]).getLast?, flushTime + sk.preActive < l.endTime :=
    fun l hl => hf.never.trans_lt (hlisted.never l hl)
  have htail : sk.lastFlushTime < tq.tail.endTime := by
    have := hnever tq.tail (by simp)
    linarith [h.pre_nonneg, hf.increasing]
  obtain ⟨pre₀, m, nexts, hsplit, hended, hfresh, hseek⟩ :=
    g.seekFlush_spec [] TrapqMove.alloc (tq.moves ++ [tq.tail]) ⟨tq.tail, by simp, htail⟩
  cases pre₀ with
  | nil =>
    -- the head sentinel has ended at the time zero
    obtain ⟨rfl, -⟩ := List.cons.inj hsplit
    have hzero : (TrapqMove.alloc : TrapqMove K).endTime = 0 := add_zero 0
    exact absurd (hzero ▸ hfresh) (not_lt.2 h.flush_nonneg)
  | cons p pre =>
    obtain rfl : TrapqMove.alloc = p := (List.cons.inj hsplit).1
    replace hsplit : tq.moves ++ [tq.tail] = pre ++ m :: nexts := (List.cons.inj hsplit).2
    rw [List.reverse_cons, List.append_nil] at hseek
    have hc := hlisted.contiguous
    rw [hsplit] at hc
    obtain ⟨start, hstart⟩ : ∃ start, ∀ n ∈ (pre ++ m :: nexts).head?, start = n.printTime := by
      cases pre with
      | nil => exact ⟨m.printTime, fun n hn => congrArg _ (Option.some_inj.1 hn)⟩
      | cons p pre => exact ⟨p.printTime, fun n hn => congrArg _ (Option.some_inj.1 hn)⟩
    have hpre : ∀ a ∈ pre, checkActive sk.activeFlags a = true →
        a.endTime ≤ sk.lastMoveTime := by
      intro a ha hactive
      have hend := hended a (List.mem_cons_of_mem _ ha)
      have hmem : a ∈ tq.moves ++ [tq.tail] := hsplit ▸ List.mem_append_left _ ha
      rcases List.mem_append.1 hmem with hmem | hmem
      · exact h.latest a (hmoves ▸ hmem) hactive hend
      · rw [List.mem_singleton.1 hmem] at hend
        exact absurd htail (not_lt.2 hend)
    have hinv := h.loopInv hf.increasing hc
      (fun p hp => hended p (List.mem_cons_of_mem _ hp)) hpre
      (fun hnil => hstart m (by rw [hnil]; rfl))
    have hlast : ∀ l ∈ (m :: nexts).getLast?, g.flushTime + g.preActive ≤ l.endTime := by
      intro l hl
      refine (hnever l ?_).le
      rw [hsplit, List.getLast?_append, show (m :: nexts).getLast? = some l from hl,
        Option.some_or]
      rfl
    have hpos : ∀ n ∈ nexts, 0 < n.moveT := fun n hn =>
      hlisted.pos n (hsplit ▸ List.mem_append_right _ (List.mem_cons_of_mem _ hn))
    obtain ⟨lastMoveTime, log', hloop, hswept⟩ :=
      GenCall.LoopInv.loop_spec (e := TrapqMove.alloc) hproper
        (by rwa [List.reverse_reverse]) hpos hfresh hlast (h.last_le.trans hf.increasing) hinv
    rw [List.reverse_reverse, ← hsplit] at hswept
    refine ⟨⟨sk.activeFlags, sk.preActive, sk.postActive, flushTime, lastMoveTime, tq, log'⟩,
      ?_, ?_⟩
    · unfold StepGenerator.generateSteps
      simp only
      rw [← htq, ← hg, hseek, Option.bind_some, hloop]
      rfl
    · refine ⟨h.pre_nonneg, h.post_nonneg, h.flush_nonneg.trans hf.increasing, hswept.le_flush,
        htimed, hswept.increasing, hswept.inside, hswept.flushed, ?_, ?_⟩
      · exact fun a ha => hswept.latest a (List.mem_append_left _ ha)
      · intro a t hw hle hhead
        rcases le_or_gt t sk.lastFlushTime with ht | ht
        · obtain ⟨l, rfl⟩ := hswept.log_prefix
          refine (h.covers a t ⟨hmoves ▸ hw.mem, hw.active, hw.pre, hw.post⟩ ht ?_).left
          exact fun n hn => hhead n (hmoves.symm ▸ hn)
        · have hmem : a ∈ tq.moves ++ [tq.tail] := List.mem_append_left _ hw.mem
          refine hswept.covers a hmem hw.active t ht hle ?_ hw.pre hw.post
          have hne : tq.moves ≠ [] := List.ne_nil_of_mem hw.mem
          obtain ⟨n, hn⟩ := Option.isSome_iff_exists.1 (List.isSome_head?.2 hne)
          rw [hstart n (by rw [← hsplit, List.head?_append, hn]; rfl)]
          exact hhead n hn

/-! ## Every run -/

/-- What happens to a stepper and its queue. -/
inductive Event (K : Type*) where
  | extend (ext : List (TrapqMove K))
  | generateSteps (flushTime : K)

/-- A stepper for which no steps were generated, with a queue of moves that follow each other. -/
structure Fresh (sk : StepGenerator K) : Prop where
  pre_nonneg : 0 ≤ sk.preActive
  post_nonneg : 0 ≤ sk.postActive
  lastFlushTime : sk.lastFlushTime = 0
  lastMoveTime : sk.lastMoveTime = 0
  timed : sk.tq.Timed
  log : sk.log = []

/-- A stepper and its queue from the start on. -/
def system : System (StepGenerator K) (Event K) where
  init := Fresh
  next sk
    | .extend ext => some { sk with tq := sk.tq.extend ext }
    | .generateSteps flushTime => sk.generateSteps flushTime

/-- Moves follow the others, where nothing was flushed, and the times of the flushes increase. -/
def Admissible (sk : StepGenerator K) : Event K → Prop
  | .extend ext => Extends sk ext
  | .generateSteps flushTime => Flushable sk flushTime

theorem Fresh.inv (h : Fresh sk) : Inv sk := by
  refine ⟨h.pre_nonneg, h.post_nonneg, h.lastFlushTime.ge, ?_, h.timed, ?_, ?_, ?_, ?_, ?_⟩
  · rw [h.lastFlushTime, h.lastMoveTime]
  · rw [h.log]
    exact List.Pairwise.nil
  · rw [h.log]
    exact nofun
  · rw [h.log]
    exact nofun
  · intro a ha _ hend
    rwa [h.lastMoveTime, ← h.lastFlushTime]
  · intro a t hw ht hlisted
    obtain ⟨m, hm⟩ :=
      Option.isSome_iff_exists.1 (List.isSome_head?.2 (List.ne_nil_of_mem hw.mem))
    have hstart := hlisted m hm
    have hnonneg := h.timed.nonneg m (List.mem_of_mem_head? hm)
    rw [h.lastFlushTime] at ht
    exact absurd (hnonneg.trans_lt hstart) (not_lt.2 ht)

theorem inv_of_reachable (h : system.ReachableBy Admissible sk) : Inv sk := by
  refine h.invariant ?_ ?_
  · exact fun s hs => Fresh.inv hs
  · intro s a t hs ha ht
    cases a with
    | extend ext =>
      obtain rfl := Option.some_inj.1 ht
      exact hs.extend ha
    | generateSteps flushTime =>
      obtain ⟨sk', hrun, hinv⟩ := hs.generateSteps ha
      obtain rfl := Option.some_inj.1 (hrun.symm.trans ht)
      exact hinv

/-- What was searched by all calls. -/
structure Sweeps (sk : StepGenerator K) : Prop where
  increasing : Increasing sk.log
  inside : ∀ r ∈ sk.log, Inside r
  flushed : ∀ r ∈ sk.log, r.stop ≤ sk.lastFlushTime
  covers : ∀ a t, sk.InWindow a t → t ≤ sk.lastFlushTime → sk.Listed t → Covered sk.log t
  total : ∀ flushTime, Flushable sk flushTime → (sk.generateSteps flushTime).isSome

/-- In every run the ranges are in order and do not overlap, are not behind the last flush, and
cover the moves of the stepper and both windows from the start of the first move on ; no call
leaves the list. -/
theorem sweeps_of_reachable (h : system.ReachableBy Admissible sk) : Sweeps sk := by
  have hinv := inv_of_reachable h
  refine ⟨hinv.increasing, hinv.inside, hinv.flushed, hinv.covers, fun flushTime hf => ?_⟩
  obtain ⟨sk', hrun, -⟩ := hinv.generateSteps hf
  exact Option.isSome_of_eq_some hrun

instance (m m' : TrapqMove ℚ) : Decidable (Follows m m') :=
  inferInstanceAs (Decidable (_ = _))

instance (log : List (SearchRange ℚ)) (t : ℚ) : Decidable (Covered log t) :=
  inferInstanceAs (Decidable (∃ r ∈ log, _))

/-- What `trapq_append` puts into an empty queue : a null move of one second, and a move in `x` from
five to six. -/
def firstMoves : List (TrapqMove ℚ) :=
  (Trapq.alloc.append ⟨5, 0, 1, 0, 0, ![1, 0, 0], 1, 1, 0⟩).moves

/-- A stepper in `x` with a window of two seconds before its moves, and one second behind them. -/
def queuedStepper : StepGenerator ℚ :=
  ⟨fun axis => axis == 0, 2, 1, 0, 0, Trapq.alloc.extend firstMoves, []⟩

theorem fresh_queuedStepper : Fresh queuedStepper := by
  refine ⟨by decide +kernel, by decide +kernel, rfl, rfl, ?_, rfl⟩
  refine Trapq.timed_alloc.extend ⟨?_, ?_⟩ ?_ ?_
  all_goals decide +kernel

theorem flushable_queuedStepper : Flushable queuedStepper 10 :=
  ⟨by decide +kernel, by decide +kernel⟩

/-- The state after steps were generated up to ten. -/
def flushedStepper : StepGenerator ℚ :=
  (queuedStepper.generateSteps 10).getD queuedStepper

theorem reachable_flushedStepper : system.ReachableBy Admissible flushedStepper := by
  obtain ⟨sk, hrun, -⟩ := fresh_queuedStepper.inv.generateSteps flushable_queuedStepper
  refine .step (a := .generateSteps 10) (.init fresh_queuedStepper) flushable_queuedStepper ?_
  change queuedStepper.generateSteps 10 = some flushedStepper
  rw [flushedStepper, hrun, Option.getD_some]

/-- A run with a flush. -/
theorem sweeps_flushedStepper : flushedStepper.lastFlushTime = 10 ∧ Sweeps flushedStepper :=
  ⟨by decide +kernel, sweeps_of_reachable reachable_flushedStepper⟩

/-- The window before the first move is longer than the null move ; and a flush that is later than
the tail sentinel leaves the list. -/
theorem not_covered_before_first :
    (∃ sk : StepGenerator ℚ, system.ReachableBy Admissible sk ∧
      ∃ a t, sk.InWindow a t ∧ t ≤ sk.lastFlushTime ∧ ¬Covered sk.log t) ∧
    ∃ (sk : StepGenerator ℚ) (flushTime : ℚ), system.ReachableBy Admissible sk ∧
      sk.lastFlushTime ≤ flushTime ∧ sk.generateSteps flushTime = none := by
  refine ⟨?_, queuedStepper, 3 * neverTime, .init fresh_queuedStepper, by decide +kernel,
    by decide +kernel⟩
  obtain ⟨a, ha, hactive, hpre, hpost⟩ : ∃ a ∈ flushedStepper.tq.moves,
      checkActive flushedStepper.activeFlags a = true ∧
        a.printTime - flushedStepper.preActive < 7 / 2 ∧
          7 / 2 ≤ a.endTime + flushedStepper.postActive := by
    decide +kernel
  exact ⟨flushedStepper, reachable_flushedStepper, a, 7 / 2, ⟨ha, hactive, hpre, hpost⟩,
    by decide +kernel, by decide +kernel⟩

end StepGenerator

end Thinker
