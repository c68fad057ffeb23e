import Thinker.JobQueue

/-!
# The discipline of the job queue

Every job that was queued is still queued, was started or was deleted, and `start_print` is called
for the first job of the queue once a query allows it (`Sound`). This holds in every run.

`start_print` is not called while the queue is held and at most one timer of `_pop_job` is
scheduled (`Quiet`) in runs where a handler that takes the state from `loading` leaves no
`_pop_job` behind and the queue is not paused while a start of it is under way (`Careful`).
-/

set_option linter.unusedSectionVars false

namespace Thinker

namespace JobQueue

variable {s : JobQueue}

/-! ## Jobs -/

theorem map_jobId_newJobs (n : ℕ) (jobs : List (Text × ℕ)) :
    (newJobs n jobs).map QueuedJob.jobId = jobs.map Prod.snd := by
  induction jobs generalizing n with
  | nil => rfl
  | cons job jobs ih => rw [newJobs, List.map_cons, List.map_cons, ih]

theorem map_serial_newJobs (n : ℕ) (jobs : List (Text × ℕ)) :
    (newJobs n jobs).map QueuedJob.serial = List.range' n jobs.length := by
  induction jobs generalizing n with
  | nil => rfl
  | cons job jobs ih => rw [newJobs, List.map_cons, ih, List.length_cons, List.range'_succ]

/-- Every job that was queued is queued, started or deleted, `_pop_job` works on the first job of
the queue, and a query allowed every start. -/
structure Sound (s : JobQueue) : Prop where
  nodup : (s.queuedJobs.map QueuedJob.jobId).Nodup
  perm : (s.queuedJobs.map QueuedJob.serial ++ (s.started ++ s.deleted)).Perm
    (List.range s.nextSerial)
  first : ∀ job, s.holder.bind Holder.job = some job → s.queuedJobs.head? = some job
  query : ∀ job, s.holder = some (.transition job) →
    ∃ result, s.lastQuery = some result ∧ result.canPrint = true
  issued : ∀ i ∈ s.issued, i.first = some i.job ∧
    ∃ result, i.lastQuery = some result ∧ result.canPrint = true

namespace Sound

theorem queueJob (h : s.Sound) (hfree : s.holder = none) {jobs : List (Text × ℕ)}
    {missing reset : Bool} (halloc : s.Allocates (.queueJob jobs missing reset)) :
    (s.queueJob jobs missing reset).Sound := by
  unfold JobQueue.queueJob
  cases missing with
  | true => exact h
  | false =>
    obtain ⟨hnodup, hnew⟩ := halloc
    rw [if_neg nofun]
    refine ⟨?_, ?_, fun job hjob => ?_, fun job hjob => ?_, h.issued⟩
    · show (((if reset = true then [] else s.queuedJobs) ++ _).map _).Nodup
      rw [List.map_append, map_jobId_newJobs]
      cases reset with
      | true => simpa using hnodup
      | false =>
        refine List.nodup_append.2 ⟨h.nodup, hnodup, ?_⟩
        rintro id hid id' hid' rfl
        obtain ⟨job, hjob, rfl⟩ := List.mem_map.1 hid
        exact hnew rfl job hjob hid'
    · have hrange : List.range (s.nextSerial + jobs.length) =
          List.range s.nextSerial ++ List.range' s.nextSerial jobs.length := by
        rw [List.range_eq_range', List.range_eq_range', ← List.range'_append_1, Nat.zero_add]
      show (((if reset = true then [] else s.queuedJobs) ++ _).map _ ++
        (s.started ++ (s.deleted ++ _))).Perm (List.range (s.nextSerial + jobs.length))
      rw [List.map_append, map_serial_newJobs, hrange]
      have hperm := h.perm
      rw [List.perm_iff_count] at hperm ⊢
      intro n
      have := hperm n
      cases reset <;>
        simp only [List.count_append, List.map_nil, List.count_nil, if_true, if_false,
          Bool.false_eq_true, List.append_nil, zero_add] at this ⊢ <;> omega
    · exact absurd hjob (by simp [hfree])
    · exact absurd hjob (by simp [hfree])

theorem deleteJob (h : s.Sound) (hfree : s.holder = none) (jobIds : List ℕ) (all : Bool) :
    (s.deleteJob jobIds all).Sound := by
  unfold JobQueue.deleteJob
  refine ⟨h.nodup.sublist (List.filter_sublist.map _), ?_, fun job hjob => ?_, fun job hjob => ?_,
    h.issued⟩
  · have hsplit := (List.filter_append_perm (fun job : QueuedJob =>
      all || decide (job.jobId ∈ jobIds)) s.queuedJobs).map QueuedJob.serial
    have hperm := h.perm
    rw [List.perm_iff_count] at hsplit hperm ⊢
    intro n
    have h1 := hsplit n
    have h2 := hperm n
    simp only [List.map_append, List.count_append] at h1 h2 ⊢
    omega
  · exact absurd hjob (by simp [hfree])
  · exact absurd hjob (by simp [hfree])

theorem handleJump (h : s.Sound) (hfree : s.holder = none) (jobId : ℕ) :
    (s.handleJump jobId).Sound := by
  unfold JobQueue.handleJump
  split
  · exact h
  · rename_i job hjob
    have hperm := List.perm_cons_erase (List.mem_of_find?_eq_some hjob)
    refine ⟨(hperm.map _).nodup_iff.1 h.nodup, ((hperm.map _).append_right _).symm.trans h.perm,
      fun job hjob => ?_, fun job hjob => ?_, h.issued⟩
    · exact absurd hjob (by simp [hfree])
    · exact absurd hjob (by simp [hfree])

/-- Only the state of the queue, a timer and the queue itself are changed by a task that does not
await with the lock. -/
theorem body (h : s.Sound) (hfree : s.holder = none) {t : Task} (halloc : s.Allocates t) :
    (s.body t).Sound := by
  cases t with
  | handleReady =>
    show s.handleReady.Sound
    unfold JobQueue.handleReady
    split_ifs
    exacts [h, ⟨h.nodup, h.perm, h.first, h.query, h.issued⟩, h]
  | handleShutdown =>
    show s.handleShutdown.Sound
    unfold JobQueue.handleShutdown
    split_ifs
    exacts [⟨h.nodup, h.perm, h.first, h.query, h.issued⟩, h]
  | onJobComplete =>
    show s.onJobComplete.Sound
    unfold JobQueue.onJobComplete
    split_ifs
    exacts [⟨h.nodup, h.perm, h.first, h.query, h.issued⟩, h]
  | onJobAbort =>
    show s.onJobAbort.Sound
    unfold JobQueue.onJobAbort
    split_ifs
    exacts [⟨h.nodup, h.perm, h.first, h.query, h.issued⟩, h]
  | popJob needTransition =>
    show (s.popJob needTransition).Sound
    unfold JobQueue.popJob
    split_ifs
    · exact h
    · split
      · exact ⟨h.nodup, h.perm, h.first, h.query, h.issued⟩
      · rename_i job jobs hjobs
        refine ⟨h.nodup, h.perm, ?_, nofun, h.issued⟩
        rintro _ ⟨rfl⟩
        show s.queuedJobs.head? = some job
        rw [hjobs, List.head?_cons]
  | queueJob jobs missing reset => exact h.queueJob hfree halloc
  | deleteJob jobIds all => exact h.deleteJob hfree jobIds all
  | pauseQueue => exact h
  | startQueue =>
    show s.startQueue.Sound
    unfold JobQueue.startQueue
    split_ifs
    exacts [h, ⟨h.nodup, h.perm, h.first, h.query, h.issued⟩,
      ⟨h.nodup, h.perm, nofun, nofun, h.issued⟩]
  | handleJump jobId => exact h.handleJump hfree jobId

theorem locked (h : s.Sound) (hfree : s.holder = none) {t : Task} {s' : JobQueue}
    (hs' : s.locked t = some s') : s'.Sound := by
  unfold JobQueue.locked at hs'
  split at hs'
  · rename_i halloc
    obtain rfl := Option.some_inj.1 hs'
    exact h.body hfree halloc
  · exact absurd hs' nofun

theorem acquire (h : s.Sound) {t : Task} {s' : JobQueue} (hs' : s.acquire t = some s') :
    s'.Sound := by
  unfold JobQueue.acquire at hs'
  split at hs'
  · rename_i hfree
    exact h.locked hfree.1 hs'
  · obtain rfl := Option.some_inj.1 hs'
    exact ⟨h.nodup, h.perm, h.first, h.query, h.issued⟩

theorem enter (h : s.Sound) (t : Task) : (s.enter t).Sound := by
  cases t <;> exact ⟨h.nodup, h.perm, h.first, h.query, h.issued⟩

theorem release (h : s.Sound) (state : QueueState) : (s.release state).Sound :=
  ⟨h.nodup, h.perm, nofun, nofun, h.issued⟩

theorem startPrint (h : s.Sound) {job : QueuedJob} (hjob : s.queuedJobs.head? = some job)
    (hquery : ∃ result, s.lastQuery = some result ∧ result.canPrint = true) :
    (s.startPrint job).Sound := by
  refine ⟨h.nodup, h.perm, ?_, nofun, fun i hi => ?_⟩
  · rintro _ ⟨rfl⟩
    exact hjob
  · rcases List.mem_append.1 hi with hi | hi
    · exact h.issued i hi
    · obtain rfl := List.mem_singleton.1 hi
      exact ⟨hjob, hquery⟩

theorem popChecked (h : s.Sound) {job : QueuedJob} {needTransition : Bool}
    (hholder : s.holder = some (.checking job needTransition)) (result : QueryResult) :
    (({ s with lastQuery := some result } : JobQueue).popChecked job needTransition
      result).Sound := by
  have hjob : s.queuedJobs.head? = some job := h.first job (by rw [hholder]; rfl)
  have h' : ({ s with lastQuery := some result } : JobQueue).Sound :=
    ⟨h.nodup, h.perm, h.first, fun job hjob => absurd hjob (by simp [hholder]), h.issued⟩
  unfold JobQueue.popChecked
  split_ifs with hstop
  · exact h'.release _
  · push Not at hstop
    refine ⟨h.nodup, h.perm, ?_, fun _ _ => ⟨result, rfl, ?_⟩, h.issued⟩
    · rintro _ ⟨rfl⟩
      exact hjob
    · simpa using hstop.1
  · push Not at hstop
    exact h'.startPrint hjob ⟨result, rfl, by simpa using hstop.1⟩

theorem popTransitioned (h : s.Sound) {job : QueuedJob}
    (hholder : s.holder = some (.transition job)) (outcome : Outcome) :
    (s.popTransitioned job outcome).Sound := by
  cases outcome with
  | ok =>
    show (if s.queueState = .loading then s.startPrint job else s.release .paused).Sound
    split_ifs
    · exact h.startPrint (h.first job (by rw [hholder]; rfl)) (h.query job hholder)
    · exact h.release _
  | serverError => exact h.release _
  | otherError => exact h.release _

/-- The job that is started is the first. -/
theorem queuedJobs_popStarted (h : s.Sound) {job : QueuedJob}
    (hholder : s.holder = some (.starting job)) :
    s.queuedJobs = job :: (s.popStarted job .ok).queuedJobs := by
  obtain ⟨jobs, hjobs⟩ := List.head?_eq_some_iff.1 (h.first job (by rw [hholder]; rfl))
  show s.queuedJobs = job :: s.queuedJobs.eraseP _
  rw [hjobs, List.eraseP_cons_of_pos (by simp)]

theorem popStarted (h : s.Sound) {job : QueuedJob} (hholder : s.holder = some (.starting job))
    (outcome : Outcome) : (s.popStarted job outcome).Sound := by
  cases outcome with
  | ok =>
    have hjobs := h.queuedJobs_popStarted hholder
    refine ⟨h.nodup.sublist (List.eraseP_sublist.map _), ?_, nofun, nofun, h.issued⟩
    have hperm := h.perm
    rw [hjobs, List.perm_iff_count] at hperm
    rw [List.perm_iff_count]
    intro n
    have := hperm n
    show List.count n (_ ++ ((s.started ++ [job.serial]) ++ s.deleted)) =
      List.count n (List.range s.nextSerial)
    simp only [List.map_cons, List.count_append, List.count_cons, List.count_nil] at this ⊢
    rw [← this]
    omega
  | serverError => exact h.release _
  | otherError => exact h.release _

theorem next (h : s.Sound) {e : Event} {s' : JobQueue} (hs' : s.next e = some s') :
    s'.Sound := by
  cases e with
  | call t =>
    unfold JobQueue.next at hs'
    dsimp only at hs'
    split_ifs at hs'
    · obtain rfl := Option.some_inj.1 hs'
      exact h
    · exact (h.enter t).acquire hs'
  | grant =>
    unfold JobQueue.next at hs'
    dsimp only at hs'
    split at hs'
    · rename_i t waiters hfree _
      have h' : ({ s with waiters := waiters } : JobQueue).Sound :=
        ⟨h.nodup, h.perm, h.first, h.query, h.issued⟩
      exact h'.locked hfree hs'
    · exact absurd hs' nofun
  | fire timer =>
    unfold JobQueue.next at hs'
    dsimp only at hs'
    split_ifs at hs'
    obtain rfl := Option.some_inj.1 hs'
    exact ⟨h.nodup, h.perm, h.first, h.query, h.issued⟩
  | begin =>
    unfold JobQueue.next at hs'
    dsimp only at hs'
    split at hs'
    · rename_i needTransition fired _
      have h' : ({ s with fired := fired, popQueueHandle := none } : JobQueue).Sound :=
        ⟨h.nodup, h.perm, h.first, h.query, h.issued⟩
      exact h'.acquire hs'
    · exact absurd hs' nofun
  | queried result =>
    unfold JobQueue.next at hs'
    dsimp only at hs'
    split at hs'
    · rename_i job needTransition hholder
      obtain rfl := Option.some_inj.1 hs'
      exact h.popChecked hholder result
    · obtain rfl := Option.some_inj.1 hs'
      unfold startChecked
      split_ifs
      exacts [⟨h.nodup, h.perm, nofun, nofun, h.issued⟩, ⟨h.nodup, h.perm, nofun, nofun, h.issued⟩]
    · exact absurd hs' nofun
  | transitioned outcome =>
    unfold JobQueue.next at hs'
    dsimp only at hs'
    split at hs'
    · rename_i job hholder
      obtain rfl := Option.some_inj.1 hs'
      exact h.popTransitioned hholder outcome
    · exact absurd hs' nofun
  | printStarted outcome =>
    unfold JobQueue.next at hs'
    dsimp only at hs'
    split at hs'
    · rename_i job hholder
      obtain rfl := Option.some_inj.1 hs'
      exact h.popStarted hholder outcome
    · exact absurd hs' nofun

end Sound

/-! ## Jobs that leave the queue -/

/-- Whether a task deletes a job. -/
def Task.Deletes (job : QueuedJob) : Task → Prop
  | .queueJob _ _ reset => reset = true
  | .deleteJob jobIds all => all = true ∨ job.jobId ∈ jobIds
  | _ => False

/-- The lock is free. -/
def Free (s : JobQueue) : Prop :=
  s.holder = none ∧ s.waiters = []

instance : Decidable s.Free :=
  inferInstanceAs (Decidable (_ ∧ _))

/-- The handler that gets the lock by an event. -/
def runs (s : JobQueue) : Event → Option Task
  | .call t => if s.Free then some t else none
  | .grant => s.waiters.head?
  | _ => none

theorem mem_queuedJobs_body {job : QueuedJob} (hjob : job ∈ s.queuedJobs) {t : Task} :
    job ∈ (s.body t).queuedJobs ∨ t.Deletes job := by
  cases t with
  | handleReady =>
    left
    show job ∈ s.handleReady.queuedJobs
    unfold handleReady
    split_ifs <;> exact hjob
  | handleShutdown =>
    left
    show job ∈ s.handleShutdown.queuedJobs
    unfold handleShutdown
    split_ifs <;> exact hjob
  | onJobComplete =>
    left
    show job ∈ s.onJobComplete.queuedJobs
    unfold onJobComplete
    split_ifs <;> exact hjob
  | onJobAbort =>
    left
    show job ∈ s.onJobAbort.queuedJobs
    unfold onJobAbort
    split_ifs <;> exact hjob
  | popJob needTransition =>
    left
    show job ∈ (s.popJob needTransition).queuedJobs
    unfold popJob
    split_ifs
    · exact hjob
    · split <;> exact hjob
  | queueJob jobs missing reset =>
    cases reset with
    | true => exact .inr rfl
    | false =>
      left
      show job ∈ (s.queueJob jobs missing false).queuedJobs
      cases missing with
      | true => exact hjob
      | false => exact List.mem_append_left _ hjob
  | deleteJob jobIds all =>
    by_cases hdel : all = true ∨ job.jobId ∈ jobIds
    · exact .inr hdel
    · left
      push Not at hdel
      exact List.mem_filter.2 ⟨hjob, by simp [hdel]⟩
  | pauseQueue => exact .inl hjob
  | startQueue =>
    left
    show job ∈ s.startQueue.queuedJobs
    unfold startQueue
    split_ifs <;> exact hjob
  | handleJump jobId =>
    left
    show job ∈ (s.handleJump jobId).queuedJobs
    unfold handleJump
    split
    · exact hjob
    · rename_i first hfirst
      exact (List.perm_cons_erase (List.mem_of_find?_eq_some hfirst)).mem_iff.1 hjob

theorem mem_queuedJobs_locked {job : QueuedJob} (hjob : job ∈ s.queuedJobs) {t : Task}
    {s' : JobQueue} (hs' : s.locked t = some s') : job ∈ s'.queuedJobs ∨ t.Deletes job := by
  unfold locked at hs'
  split at hs'
  · obtain rfl := Option.some_inj.1 hs'
    exact mem_queuedJobs_body hjob
  · exact absurd hs' nofun

theorem mem_queuedJobs_acquire {job : QueuedJob} (hjob : job ∈ s.queuedJobs) {t : Task}
    {s' : JobQueue} (hs' : s.acquire t = some s') :
    job ∈ s'.queuedJobs ∨ s.Free ∧ t.Deletes job := by
  unfold acquire at hs'
  split at hs'
  · rename_i hfree
    exact (mem_queuedJobs_locked hjob hs').imp_right fun h => ⟨hfree, h⟩
  · obtain rfl := Option.some_inj.1 hs'
    exact .inl hjob

/-- A job that leaves the queue is deleted by a handler that gets the lock, or was the first and
has been started. -/
theorem Sound.leaves (h : s.Sound) {e : Event} {s' : JobQueue} (hs' : s.next e = some s')
    {job : QueuedJob} (hjob : job ∈ s.queuedJobs) :
    job ∈ s'.queuedJobs ∨ (∃ t, s.runs e = some t ∧ t.Deletes job) ∨
      (e = .printStarted .ok ∧ s.holder = some (.starting job) ∧
        s.queuedJobs = job :: s'.queuedJobs ∧ s'.started = s.started ++ [job.serial]) := by
  cases e with
  | call t =>
    unfold JobQueue.next at hs'
    dsimp only at hs'
    split_ifs at hs'
    · obtain rfl := Option.some_inj.1 hs'
      exact .inl hjob
    · have hsame : job ∈ (s.enter t).queuedJobs ∧ ((s.enter t).Free → s.Free) := by
        cases t <;> exact ⟨hjob, id⟩
      rcases mem_queuedJobs_acquire hsame.1 hs' with hmem | ⟨hfree, hdel⟩
      · exact .inl hmem
      · exact .inr (.inl ⟨t, if_pos (hsame.2 hfree), hdel⟩)
  | grant =>
    unfold JobQueue.next at hs'
    dsimp only at hs'
    split at hs'
    · rename_i t waiters _ hwaiters
      have hjob : job ∈ ({ s with waiters := waiters } : JobQueue).queuedJobs := hjob
      refine (mem_queuedJobs_locked hjob hs').imp_right fun hdel => .inl ⟨t, ?_, hdel⟩
      show s.waiters.head? = some t
      rw [hwaiters, List.head?_cons]
    · exact absurd hs' nofun
  | fire timer =>
    unfold JobQueue.next at hs'
    dsimp only at hs'
    split_ifs at hs'
    obtain rfl := Option.some_inj.1 hs'
    exact .inl hjob
  | begin =>
    unfold JobQueue.next at hs'
    dsimp only at hs'
    split at hs'
    · rename_i fired _
      have hjob : job ∈ ({ s with fired := fired, popQueueHandle := none } : JobQueue).queuedJobs :=
        hjob
      exact (mem_queuedJobs_acquire hjob hs').imp_right fun hdel => False.elim hdel.2
    · exact absurd hs' nofun
  | queried result =>
    left
    unfold JobQueue.next at hs'
    dsimp only at hs'
    split at hs'
    · obtain rfl := Option.some_inj.1 hs'
      unfold JobQueue.popChecked
      split_ifs <;> exact hjob
    · obtain rfl := Option.some_inj.1 hs'
      unfold startChecked
      split_ifs <;> exact hjob
    · exact absurd hs' nofun
  | transitioned outcome =>
    left
    unfold JobQueue.next at hs'
    dsimp only at hs'
    split at hs'
    · rename_i first _
      obtain rfl := Option.some_inj.1 hs'
      cases outcome with
      | ok =>
        show job ∈ (if s.queueState = .loading then s.startPrint first
          else s.release .paused).queuedJobs
        split_ifs <;> exact hjob
      | serverError => exact hjob
      | otherError => exact hjob
    · exact absurd hs' nofun
  | printStarted outcome =>
    unfold JobQueue.next at hs'
    dsimp only at hs'
    split at hs'
    · rename_i first hholder
      obtain rfl := Option.some_inj.1 hs'
      cases outcome with
      | ok =>
        have hjobs := h.queuedJobs_popStarted hholder
        rcases List.mem_cons.1 (hjobs ▸ hjob) with rfl | hmem
        · exact .inr (.inr ⟨rfl, hholder, hjobs, rfl⟩)
        · exact .inl hmem
      | serverError => exact .inl hjob
      | otherError => exact .inl hjob
    · exact absurd hs' nofun

/-! ## Callbacks and pauses -/

/-- How many `_pop_job` are scheduled, or do not have the lock yet. -/
def pops (s : JobQueue) : ℕ :=
  s.scheduled.length + s.fired.length + s.waiters.countP Task.isPop

/-- How many `_pop_job` have the lock. -/
def popping (s : JobQueue) : ℕ :=
  if (s.holder.bind Holder.job).isSome = true then 1 else 0

/-- No start of the queue is under way : by `start_queue` or by a printer that is ready. -/
def NoStart (s : JobQueue) : Prop :=
  s.holder ≠ some .startQueue ∧ .startQueue ∉ s.waiters ∧
    (s.loadOnStart = true → .handleReady ∉ s.waiters)

instance : Decidable s.NoStart :=
  inferInstanceAs (Decidable (_ ∧ _))

/-- The queue is paused only while no start of it is under way, and a handler that takes the state
from `loading` leaves no `_pop_job` behind : neither does the pause after a timer fired, nor an
abort, nor a shutdown that ends with an empty queue. -/
def Careful (s : JobQueue) : Event → Prop
  | .call t =>
    (t = .pauseQueue ∨ t = .handleShutdown →
      s.NoStart ∧ s.fired = [] ∧ ∀ t ∈ s.waiters, t.isPop = false) ∧
    (t = .onJobAbort → s.Free → s.queuedJobs ≠ [] → s.pops = 0)
  | .grant =>
    (s.waiters.head? = some .onJobAbort → s.queuedJobs ≠ [] → s.pops = 0) ∧
    (s.waiters.head? = some .handleShutdown → s.queuedJobs = [] → s.automatic = true →
      s.pops = 0)
  | _ => True

instance (e : Event) : Decidable (Careful s e) := by
  unfold Careful
  split <;> infer_instance

/-- One `_pop_job` at most is on its way, in the state `loading`, and its timer is the handle. The
queue is paused while it is held, and was not held when a print was started. -/
structure Quiet (s : JobQueue) : Prop where
  one : s.pops + s.popping ≤ 1
  loading : 0 < s.pops → s.queueState = .loading
  handle : ∀ timer ∈ s.scheduled, s.popQueueHandle = some timer.id
  checking : s.holder = some .startQueue → s.pops = 0
  held : s.held = true → s.queueState = .paused ∧ s.NoStart
  issued : ∀ i ∈ s.issued, i.held = false

namespace Quiet

theorem pops_eq_zero (h : s.Quiet) (hstate : s.queueState ≠ .loading) : s.pops = 0 := by
  by_contra hne
  exact hstate (h.loading (Nat.pos_of_ne_zero hne))

theorem held_eq_false (h : s.Quiet) (hstate : s.queueState ≠ .paused) : s.held = false := by
  by_contra hne
  exact hstate (h.held (by simpa using hne)).1

theorem scheduled_eq_nil (hpops : s.pops = 0) : s.scheduled = [] := by
  unfold pops at hpops
  exact List.length_eq_zero_iff.1 (by omega)

/-- The state may change while no `_pop_job` is on its way. -/
theorem release (h : s.Quiet) (hpops : s.pops = 0) {q : QueueState}
    (hstate : s.held = true → q = .paused) : (s.release q).Quiet where
  one := by
    show s.pops + 0 ≤ 1
    omega
  loading := fun hpos => absurd hpos (by show ¬ 0 < s.pops; omega)
  handle := h.handle
  checking := nofun
  held := fun hheld => ⟨hstate hheld, nofun, (h.held hheld).2.2⟩
  issued := h.issued

theorem setState (h : s.Quiet) (hpops : s.pops = 0) (hfree : s.holder = none) {state : QueueState}
    (hstate : s.held = true → state = .paused) :
    ({ s with queueState := state } : JobQueue).Quiet := by
  have h' := h.release hpops hstate
  unfold JobQueue.release at h'
  rwa [← hfree] at h'

theorem delayPop (h : s.Quiet) (hpops : s.pops = 0) (hfree : s.holder = none)
    (hheld : s.held = false) (needTransition : Bool) :
    (({ s with queueState := .loading } : JobQueue).delayPop needTransition).Quiet := by
  have hscheduled := scheduled_eq_nil hpops
  refine ⟨?_, fun _ => rfl, fun timer htimer => ?_, fun hholder => ?_, fun h => ?_, h.issued⟩
  · unfold pops at hpops
    show (s.scheduled ++ [_]).length + s.fired.length + s.waiters.countP Task.isPop + s.popping ≤ 1
    rw [List.length_append, List.length_singleton]
    have hpopping : s.popping = 0 := by simp [popping, hfree]
    omega
  · have htimer : timer ∈ s.scheduled ++ [_] := htimer
    rw [hscheduled, List.nil_append, List.mem_singleton] at htimer
    rw [htimer]
    rfl
  · have hholder : s.holder = some .startQueue := hholder
    exact absurd hholder (by simp [hfree])
  · have h : s.held = true := h
    exact absurd h (by simp [hheld])

/-- A task that gets the lock. -/
theorem body (h : s.Quiet) (hfree : s.holder = none) {t : Task}
    (hpop : t.isPop = true → s.pops = 0)
    (hstart : t = .startQueue ∨ t = .handleReady ∧ s.loadOnStart = true → s.held = false)
    (habort : t = .onJobAbort → s.queuedJobs ≠ [] → s.pops = 0)
    (hshutdown : t = .handleShutdown → s.queuedJobs = [] → s.automatic = true → s.pops = 0) :
    (s.body t).Quiet := by
  cases t with
  | handleReady =>
    show s.handleReady.Quiet
    unfold JobQueue.handleReady
    split_ifs with hstop hstate
    · exact h
    · have hheld := hstart (.inr ⟨rfl, by simpa using fun hl => hstop (.inl hl)⟩)
      refine h.delayPop (h.pops_eq_zero ?_) hfree hheld false
      rcases hstate with hstate | hstate <;> simp [hstate]
    · exact h
  | handleShutdown =>
    show s.handleShutdown.Quiet
    unfold JobQueue.handleShutdown
    split_ifs with hidle
    · have hpops := hshutdown rfl hidle.1 hidle.2
      exact ⟨h.one, fun hpos => absurd hpos (by show ¬ 0 < s.pops; omega), h.handle, h.checking,
        nofun, h.issued⟩
    · exact h
  | onJobComplete =>
    show s.onJobComplete.Quiet
    unfold JobQueue.onJobComplete
    split_ifs with hready
    · have hstate : s.queueState ≠ .loading := by simp [hready.1]
      exact h.delayPop (h.pops_eq_zero hstate) hfree (h.held_eq_false (by simp [hready.1])) true
    · exact h
  | onJobAbort =>
    show s.onJobAbort.Quiet
    unfold JobQueue.onJobAbort
    split_ifs with hjobs
    · exact h.setState (habort rfl hjobs) hfree fun _ => rfl
    · exact h
  | popJob needTransition =>
    show (s.popJob needTransition).Quiet
    unfold JobQueue.popJob
    split_ifs with hpaused
    · exact h
    · have hpops := hpop rfl
      have hheld := h.held_eq_false hpaused
      split
      · exact h.setState hpops hfree fun h => absurd h (by simp [hheld])
      · refine ⟨?_, fun hpos => absurd hpos (by show ¬ 0 < s.pops; omega), h.handle, nofun,
          fun h => absurd h (by show ¬ s.held = true; simp [hheld]), h.issued⟩
        show s.pops + 1 ≤ 1
        omega
  | queueJob jobs missing reset =>
    show (s.queueJob jobs missing reset).Quiet
    unfold JobQueue.queueJob
    split_ifs
    exacts [h, ⟨h.one, h.loading, h.handle, h.checking, h.held, h.issued⟩,
      ⟨h.one, h.loading, h.handle, h.checking, h.held, h.issued⟩]
  | deleteJob jobIds all =>
    exact ⟨h.one, h.loading, h.handle, h.checking, h.held, h.issued⟩
  | pauseQueue => exact h
  | startQueue =>
    have hheld := hstart (.inl rfl)
    show s.startQueue.Quiet
    unfold JobQueue.startQueue
    split_ifs with hloading hjobs
    · exact h
    · exact h.setState (h.pops_eq_zero hloading) hfree fun h => absurd h (by simp [hheld])
    · have hpops := h.pops_eq_zero hloading
      refine ⟨?_, h.loading, h.handle, fun _ => hpops,
        fun h => absurd h (by show ¬ s.held = true; simp [hheld]), h.issued⟩
      show s.pops + 0 ≤ 1
      omega
  | handleJump jobId =>
    show (s.handleJump jobId).Quiet
    unfold JobQueue.handleJump
    split
    exacts [h, ⟨h.one, h.loading, h.handle, h.checking, h.held, h.issued⟩]

theorem locked (h : s.Quiet) (hfree : s.holder = none) {t : Task}
    (hpop : t.isPop = true → s.pops = 0)
    (hstart : t = .startQueue ∨ t = .handleReady ∧ s.loadOnStart = true → s.held = false)
    (habort : t = .onJobAbort → s.queuedJobs ≠ [] → s.pops = 0)
    (hshutdown : t = .handleShutdown → s.queuedJobs = [] → s.automatic = true → s.pops = 0)
    {s' : JobQueue} (hs' : s.locked t = some s') : s'.Quiet := by
  unfold JobQueue.locked at hs'
  split at hs'
  · obtain rfl := Option.some_inj.1 hs'
    exact h.body hfree hpop hstart habort hshutdown
  · exact absurd hs' nofun

/-- A handler other than `_pop_job` waits for the lock. -/
theorem wait (h : s.Quiet) {t : Task} (hpop : t.isPop = false)
    (hstart : t = .startQueue ∨ t = .handleReady ∧ s.loadOnStart = true → s.held = false) :
    ({ s with waiters := s.waiters ++ [t] } : JobQueue).Quiet := by
  have hpops : ({ s with waiters := s.waiters ++ [t] } : JobQueue).pops = s.pops := by
    show _ + _ + (s.waiters ++ [t]).countP Task.isPop = _ + _ + s.waiters.countP Task.isPop
    rw [List.countP_append, List.countP_singleton, hpop]
    simp
  refine ⟨hpops ▸ h.one, fun hpos => h.loading (hpops ▸ hpos), h.handle,
    fun hholder => hpops.trans (h.checking hholder), fun hheld => ?_, h.issued⟩
  obtain ⟨hstate, hnone, hqueue, hready⟩ := h.held hheld
  have hne : ¬ s.held = false := by
    have hheld : s.held = true := hheld
    simp [hheld]
  refine ⟨hstate, hnone, fun hmem => ?_, fun hload hmem => ?_⟩
  · rcases List.mem_append.1 hmem with hmem | hmem
    · exact hqueue hmem
    · exact hne (hstart (.inl (List.mem_singleton.1 hmem).symm))
  · rcases List.mem_append.1 hmem with hmem | hmem
    · exact hready hload hmem
    · exact hne (hstart (.inr ⟨(List.mem_singleton.1 hmem).symm, hload⟩))

/-- A pause cancels the timer. -/
theorem pauseQueue (h : s.Quiet) (hstart : s.NoStart) (hfired : s.fired = [])
    (hwaiters : ∀ t ∈ s.waiters, t.isPop = false) :
    s.pauseQueue.Quiet ∧ s.pauseQueue.pops = 0 := by
  have hpops : s.pauseQueue.pops = 0 := by
    have hscheduled : s.scheduled.filter (fun timer => s.popQueueHandle ≠ some timer.id) = [] := by
      rw [List.filter_eq_nil_iff]
      intro timer htimer
      simp [h.handle timer htimer]
    have hcount : s.waiters.countP Task.isPop = 0 := by
      rw [List.countP_eq_zero]
      intro t ht
      simp [hwaiters t ht]
    show (s.scheduled.filter _).length + s.fired.length + s.waiters.countP Task.isPop = 0
    rw [hscheduled, hfired, hcount]
    rfl
  have hpopping : s.pauseQueue.popping ≤ 1 := by
    unfold popping
    split <;> omega
  refine ⟨⟨by omega, fun hpos => by omega, fun timer htimer => ?_, fun _ => hpops,
    fun _ => ⟨rfl, hstart⟩, h.issued⟩, hpops⟩
  have hnil := scheduled_eq_nil hpops
  exact absurd htimer (by simp [hnil])

theorem call (h : s.Quiet) {t : Task} (hpop : t.isPop = false)
    (hcareful : Careful s (.call t)) {s' : JobQueue} (hs' : (s.enter t).acquire t = some s') :
    s'.Quiet := by
  obtain ⟨hpause, habort⟩ := hcareful
  have henter : (s.enter t).Quiet ∧
      (t = .handleShutdown → (s.enter t).pops = 0) := by
    cases t with
    | pauseQueue =>
      obtain ⟨hstart, hfired, hwaiters⟩ := hpause (.inl rfl)
      exact ⟨(h.pauseQueue hstart hfired hwaiters).1, nofun⟩
    | handleShutdown =>
      obtain ⟨hstart, hfired, hwaiters⟩ := hpause (.inr rfl)
      exact (h.pauseQueue hstart hfired hwaiters).imp_right fun h _ => h
    | startQueue => exact ⟨⟨h.one, h.loading, h.handle, h.checking, nofun, h.issued⟩, nofun⟩
    | handleReady =>
      refine ⟨⟨h.one, h.loading, h.handle, h.checking, fun hheld => h.held ?_, h.issued⟩, nofun⟩
      have hheld : (s.held && !s.loadOnStart) = true := hheld
      simp only [Bool.and_eq_true] at hheld
      exact hheld.1
    | _ => exact ⟨h, nofun⟩
  have hstart : t = .startQueue ∨ t = .handleReady ∧ (s.enter t).loadOnStart = true →
      (s.enter t).held = false := by
    rintro (rfl | ⟨rfl, hload⟩)
    · rfl
    · have hload : s.loadOnStart = true := hload
      simp [enter, hload]
  unfold JobQueue.acquire at hs'
  split at hs'
  · rename_i hfree
    refine henter.1.locked hfree.1 (fun hp => absurd hp (by simp [hpop])) hstart ?_
      (fun ht _ _ => henter.2 ht) hs'
    rintro rfl hjobs
    exact habort rfl hfree hjobs
  · obtain rfl := Option.some_inj.1 hs'
    exact henter.1.wait hpop hstart

theorem grant (h : s.Quiet) (hcareful : Careful s .grant) {t : Task} {waiters : List Task}
    (hfree : s.holder = none) (hwaiters : s.waiters = t :: waiters) {s' : JobQueue}
    (hs' : ({ s with waiters := waiters } : JobQueue).locked t = some s') : s'.Quiet := by
  obtain ⟨habort, hshutdown⟩ := hcareful
  have hpops : s.pops =
      ({ s with waiters := waiters } : JobQueue).pops + if t.isPop = true then 1 else 0 := by
    show s.scheduled.length + s.fired.length + s.waiters.countP Task.isPop =
      s.scheduled.length + s.fired.length + waiters.countP Task.isPop + _
    rw [hwaiters, List.countP_cons, Nat.add_assoc _ (waiters.countP _)]
  have hle : ({ s with waiters := waiters } : JobQueue).pops ≤ s.pops := by omega
  have hone := h.one
  have hq : ({ s with waiters := waiters } : JobQueue).Quiet := by
    refine ⟨?_, fun hpos => h.loading (hpos.trans_le hle), h.handle, fun hholder => ?_,
      fun hheld => ?_, h.issued⟩
    · show _ + s.popping ≤ 1
      omega
    · have := h.checking hholder
      omega
    · obtain ⟨hstate, hnone, hqueue, hready⟩ := h.held hheld
      rw [hwaiters] at hqueue hready
      exact ⟨hstate, hnone, fun hmem => hqueue (List.mem_cons_of_mem _ hmem),
        fun hload hmem => hready hload (List.mem_cons_of_mem _ hmem)⟩
  have hhead : s.waiters.head? = some t := by rw [hwaiters, List.head?_cons]
  refine hq.locked hfree (fun hp => ?_) (fun ht => ?_) (fun ht hjobs => ?_)
    (fun ht hjobs hauto => ?_) hs'
  · rw [if_pos hp] at hpops
    omega
  · by_contra hheld
    obtain ⟨-, -, hqueue, hready⟩ := h.held (by simpa using hheld)
    have hmem : t ∈ s.waiters := hwaiters ▸ List.mem_cons_self
    rcases ht with rfl | ⟨rfl, hload⟩
    · exact hqueue hmem
    · exact hready hload hmem
  · have := habort (ht ▸ hhead) hjobs
    omega
  · have := hshutdown (ht ▸ hhead) hjobs hauto
    omega

theorem fire (h : s.Quiet) {timer : Timer} (htimer : timer ∈ s.scheduled) :
    ({ s with
      scheduled := s.scheduled.erase timer
      fired := s.fired ++ [timer.needTransition] } : JobQueue).Quiet := by
  have hpops : ({ s with
      scheduled := s.scheduled.erase timer
      fired := s.fired ++ [timer.needTransition] } : JobQueue).pops = s.pops := by
    show (s.scheduled.erase timer).length + (s.fired ++ [_]).length + s.waiters.countP Task.isPop =
      s.scheduled.length + s.fired.length + s.waiters.countP Task.isPop
    have hpos := List.length_pos_of_mem htimer
    rw [List.length_erase_of_mem htimer, List.length_append, List.length_singleton]
    omega
  exact ⟨hpops ▸ h.one, fun hpos => h.loading (hpops ▸ hpos),
    fun timer htimer => h.handle timer (List.mem_of_mem_erase htimer),
    fun hholder => hpops.trans (h.checking hholder), h.held, h.issued⟩

/-- A task that a timer created begins. -/
theorem begin (h : s.Quiet) {needTransition : Bool} {fired : List Bool}
    (hfired : s.fired = needTransition :: fired) {s' : JobQueue}
    (hs' : ({ s with fired := fired, popQueueHandle := none } : JobQueue).acquire
      (.popJob needTransition) = some s') : s'.Quiet := by
  have hpops : s.pops =
      ({ s with fired := fired, popQueueHandle := none } : JobQueue).pops + 1 := by
    show s.scheduled.length + s.fired.length + s.waiters.countP Task.isPop =
      s.scheduled.length + fired.length + s.waiters.countP Task.isPop + 1
    rw [hfired, List.length_cons]
    omega
  have hone := h.one
  have hzero : ({ s with fired := fired, popQueueHandle := none } : JobQueue).pops = 0 := by omega
  have hloading := h.loading (by omega)
  have hheld : ¬ s.held = true := by simp [h.held_eq_false (by simp [hloading])]
  have hq : ({ s with fired := fired, popQueueHandle := none } : JobQueue).Quiet := by
    refine ⟨?_, fun _ => hloading, fun timer htimer => ?_, fun _ => hzero,
      fun h => absurd h hheld, h.issued⟩
    · show _ + s.popping ≤ 1
      omega
    · have hnil := scheduled_eq_nil hzero
      rw [hnil] at htimer
      exact absurd htimer List.not_mem_nil
  unfold JobQueue.acquire at hs'
  split at hs'
  · rename_i hfree
    exact hq.locked (t := .popJob needTransition) hfree.1 (fun _ => hzero)
      (by rintro (h | ⟨h, -⟩) <;> cases h) nofun nofun hs'
  · obtain rfl := Option.some_inj.1 hs'
    have hwait : ({ s with
        fired := fired
        popQueueHandle := none
        waiters := s.waiters ++ [.popJob needTransition] } : JobQueue).pops = s.pops := by
      rw [hpops]
      show _ + _ + (s.waiters ++ [_]).countP Task.isPop = _ + _ + _ + 1
      rw [List.countP_append]
      rfl
    refine ⟨hwait ▸ h.one, fun _ => hloading, hq.handle,
      fun hholder => hwait.trans (h.checking hholder), fun h => absurd h hheld, h.issued⟩

theorem startPrint (h : s.Quiet) (hpops : s.pops = 0) (hstate : s.queueState = .loading)
    (job : QueuedJob) : (s.startPrint job).Quiet := by
  have hheld := h.held_eq_false (by simp [hstate])
  refine ⟨?_, fun hpos => absurd hpos (by show ¬ 0 < s.pops; omega), h.handle, nofun,
    fun h => absurd h (by show ¬ s.held = true; simp [hheld]), fun i hi => ?_⟩
  · show s.pops + 1 ≤ 1
    omega
  · rcases List.mem_append.1 hi with hi | hi
    · exact h.issued i hi
    · obtain rfl := List.mem_singleton.1 hi
      exact hheld

/-- While `_pop_job` has the lock there is no other. -/
theorem pops_of_job (h : s.Quiet) {holder : Holder} {job : QueuedJob}
    (hholder : s.holder = some holder) (hjob : holder.job = some job) : s.pops = 0 := by
  have hone := h.one
  have hpopping : s.popping = 1 := by simp [popping, hholder, hjob]
  omega

theorem next (h : s.Quiet) {e : Event} (hcareful : Careful s e) {s' : JobQueue}
    (hs' : s.next e = some s') : s'.Quiet := by
  cases e with
  | call t =>
    unfold JobQueue.next at hs'
    dsimp only at hs'
    split_ifs at hs' with hpop hauto
    · obtain rfl := Option.some_inj.1 hs'
      exact h
    · exact h.call (by simpa using hpop) hcareful hs'
  | grant =>
    unfold JobQueue.next at hs'
    dsimp only at hs'
    split at hs'
    · rename_i t waiters hfree hwaiters
      exact h.grant hcareful hfree hwaiters hs'
    · exact absurd hs' nofun
  | fire timer =>
    unfold JobQueue.next at hs'
    dsimp only at hs'
    split_ifs at hs' with htimer
    obtain rfl := Option.some_inj.1 hs'
    exact h.fire htimer
  | begin =>
    unfold JobQueue.next at hs'
    dsimp only at hs'
    split at hs'
    · rename_i needTransition fired hfired
      exact h.begin hfired hs'
    · exact absurd hs' nofun
  | queried result =>
    have h' : ({ s with lastQuery := some result } : JobQueue).Quiet :=
      ⟨h.one, h.loading, h.handle, h.checking, h.held, h.issued⟩
    unfold JobQueue.next at hs'
    dsimp only at hs'
    split at hs'
    · rename_i job needTransition hholder
      obtain rfl := Option.some_inj.1 hs'
      have hpops := h.pops_of_job hholder rfl
      unfold JobQueue.popChecked
      split_ifs with hstop
      · exact h'.release hpops fun _ => rfl
      · push Not at hstop
        have hstate : s.queueState = .loading := hstop.2
        have hheld := h.held_eq_false (by simp [hstate])
        refine ⟨?_, fun hpos => absurd hpos (by show ¬ 0 < s.pops; omega), h.handle, nofun,
          fun h => absurd h (by show ¬ s.held = true; simp [hheld]), h.issued⟩
        show s.pops + 1 ≤ 1
        omega
      · push Not at hstop
        exact h'.startPrint hpops hstop.2 job
    · rename_i hholder
      obtain rfl := Option.some_inj.1 hs'
      have hpops := h.checking hholder
      have hheld : s.held = false := by
        by_contra hheld
        exact (h.held (by simpa using hheld)).2.1 hholder
      unfold startChecked
      split_ifs
      · have hreleased := h'.release hpops (q := .loading) fun h => absurd h (by simp [hheld])
        exact hreleased.delayPop hpops rfl hheld false
      · exact h'.release hpops fun h => absurd h (by simp [hheld])
    · exact absurd hs' nofun
  | transitioned outcome =>
    unfold JobQueue.next at hs'
    dsimp only at hs'
    split at hs'
    · rename_i job hholder
      obtain rfl := Option.some_inj.1 hs'
      have hpops := h.pops_of_job hholder rfl
      cases outcome with
      | ok =>
        show (if s.queueState = .loading then s.startPrint job else s.release .paused).Quiet
        split_ifs with hstate
        · exact h.startPrint hpops hstate job
        · exact h.release hpops fun _ => rfl
      | serverError => exact h.release hpops fun _ => rfl
      | otherError => exact h.release hpops fun hheld => (h.held hheld).1
    · exact absurd hs' nofun
  | printStarted outcome =>
    unfold JobQueue.next at hs'
    dsimp only at hs'
    split at hs'
    · rename_i job hholder
      obtain rfl := Option.some_inj.1 hs'
      have hpops := h.pops_of_job hholder rfl
      cases outcome with
      | ok =>
        have h' : ({ s with
            queuedJobs := s.queuedJobs.eraseP fun j => j.jobId = job.jobId
            started := s.started ++ [job.serial] } : JobQueue).Quiet :=
          ⟨h.one, h.loading, h.handle, h.checking, h.held, h.issued⟩
        refine h'.release hpops fun hheld => ?_
        have hstate := (h.held hheld).1
        rw [if_neg (by simp [hstate])]
        exact hstate
      | serverError => exact h.release hpops fun _ => rfl
      | otherError => exact h.release hpops fun hheld => (h.held hheld).1
    · exact absurd hs' nofun

end Quiet

/-! ## The discipline -/

theorem sound_of_reachable {C : JobQueue → Event → Prop} (h : system.ReachableBy C s) :
    s.Sound := by
  refine h.invariant (I := Sound) (fun s h0 => ?_) fun s e s' h _ hs' => h.next hs'
  refine ⟨?_, ?_, ?_, ?_, ?_⟩
  · rw [h0.queuedJobs]
    exact List.nodup_nil
  · rw [h0.queuedJobs, h0.started, h0.deleted, h0.nextSerial]
    exact List.Perm.nil
  · rw [h0.holder]
    nofun
  · rw [h0.holder]
    nofun
  · rw [h0.issued]
    nofun

theorem quiet_of_reachable (h : system.ReachableBy Careful s) : s.Quiet := by
  refine h.invariant (I := Quiet) (fun s h0 => ?_) fun s e s' h hcareful hs' =>
    h.next hcareful hs'
  have hpops : s.pops = 0 := by simp [pops, h0.scheduled, h0.fired, h0.waiters]
  have hpopping : s.popping = 0 := by simp [popping, h0.holder]
  refine ⟨by omega, fun hpos => by omega, ?_, fun _ => hpops, ?_, ?_⟩
  · rw [h0.scheduled]
    nofun
  · rw [h0.held]
    nofun
  · rw [h0.issued]
    nofun

/-- In every run each job that was queued is queued, started or deleted once, a job that leaves the
queue is deleted or was the first and has been started, and every start is of the first job after a
query that allows it. In a careful run no start comes while the queue is held, and one callback at
most is scheduled. -/
theorem queue_of_reachable (h : system.Reachable s) :
    (s.queuedJobs.map QueuedJob.serial ++ (s.started ++ s.deleted)).Perm
        (List.range s.nextSerial) ∧
      (∀ e s', s.next e = some s' → ∀ job ∈ s.queuedJobs,
        job ∈ s'.queuedJobs ∨ (∃ t, s.runs e = some t ∧ t.Deletes job) ∨
          (e = .printStarted .ok ∧ s.holder = some (.starting job) ∧
            s.queuedJobs = job :: s'.queuedJobs ∧ s'.started = s.started ++ [job.serial])) ∧
      (∀ i ∈ s.issued, i.first = some i.job ∧
        ∃ result, i.lastQuery = some result ∧ result.canPrint = true) ∧
      (system.ReachableBy Careful s →
        (∀ i ∈ s.issued, i.held = false) ∧ s.scheduled.length ≤ 1) := by
  have hs := sound_of_reachable h
  refine ⟨hs.perm, fun e s' hs' job hjob => hs.leaves hs' hjob, hs.issued, fun hcareful => ?_⟩
  have hquiet := quiet_of_reachable hcareful
  have hone := hquiet.one
  unfold pops at hone
  exact ⟨hquiet.issued, by omega⟩

/-- A queue that was just loaded. -/
def loaded (loadOnStart automatic : Bool) : JobQueue :=
  ⟨loadOnStart, automatic, false, [], if automatic then .ready else .paused, none, none, [], [], [],
    0, none, false, [], [], [], 0⟩

theorem starts_loaded (loadOnStart automatic : Bool) :
    (loaded loadOnStart automatic).Starts := by
  refine ⟨rfl, ?_, rfl, rfl, rfl, rfl, rfl, rfl, rfl, rfl, rfl, rfl⟩
  cases automatic <;> rfl

/-- Files are queued. -/
def queues : Event :=
  .call (.queueJob [("a.g".toList, 1), ("b.g".toList, 2)] false false)

/-- Two files are queued, and the first is started. -/
def firstStarted : List Event :=
  [queues, .call .startQueue, .queried (.stats "standby".toList), .fire ⟨0, false⟩, .begin,
    .queried (.stats "standby".toList), .printStarted .ok]

theorem queue_of_reachable_started :
    ∃ s, system.run (loaded false false) firstStarted = some s ∧ s.queuedJobs.length = 1 ∧
      s.started.Nodup ∧ (∀ i ∈ s.issued, i.first = some i.job ∧ i.held = false) := by
  have hrun : (system.run (loaded false false) firstStarted).map (fun s =>
      decide (s.queuedJobs.length = 1)) = some true := by decide +kernel
  obtain ⟨s, hs, heq⟩ := Option.map_eq_some_iff.1 hrun
  have hreach : system.ReachableBy Careful s :=
    System.ReachableBy.run (.init (starts_loaded false false)) (by decide +kernel) hs
  obtain ⟨hperm, -, hissued, hquiet⟩ := queue_of_reachable (hreach.mono fun _ _ _ => trivial)
  have hnodup := (hperm.nodup_iff.2 List.nodup_range).of_append_right.of_append_left
  exact ⟨s, hs, of_decide_eq_true heq, hnodup, fun i hi =>
    ⟨(hissued i hi).1, (hquiet hreach).1 i hi⟩⟩

/-- The queue is paused while `start_queue` waits for its query. -/
def pausedStarting : List Event :=
  [queues, .call .startQueue, .call .pauseQueue, .queried (.stats "standby".toList), .grant,
    .fire ⟨0, false⟩, .begin, .queried (.stats "standby".toList)]

/-- The queue is paused and empty at a shutdown, and a print is completed later. -/
def pausedShutdown : List Event :=
  [.call .pauseQueue, .call .handleShutdown, queues, .call .onJobComplete, .fire ⟨0, true⟩, .begin,
    .queried (.stats "complete".toList)]

/-- A job is aborted before the callback of a printer that is ready. -/
def abortedReady : List Event :=
  [queues, .call .handleReady, .call .onJobAbort, .call .startQueue,
    .queried (.stats "cancelled".toList)]

/-- A pause that has returned does not keep the first two from the call of `start_print`, and the
third has two callbacks. -/
theorem not_held_paused :
    (∃ s, system.run (loaded false false) pausedStarting = some s ∧ s.waiters = [] ∧
        ∃ i ∈ s.issued, i.held = true) ∧
      (∃ s, system.run (loaded false true) pausedShutdown = some s ∧ s.issued ≠ []) ∧
      ∃ s, system.run (loaded true false) abortedReady = some s ∧ s.scheduled.length = 2 := by
  refine ⟨?_, ?_, ?_⟩
  · have hrun : (system.run (loaded false false) pausedStarting).map (fun s =>
        decide (s.waiters = [] ∧ ∃ i ∈ s.issued, i.held = true)) = some true := by decide +kernel
    obtain ⟨s, hs, heq⟩ := Option.map_eq_some_iff.1 hrun
    exact ⟨s, hs, of_decide_eq_true heq⟩
  · have hrun : (system.run (loaded false true) pausedShutdown).map (fun s =>
        s.issued.isEmpty) = some false := by decide +kernel
    obtain ⟨s, hs, heq⟩ := Option.map_eq_some_iff.1 hrun
    exact ⟨s, hs, List.isEmpty_eq_false_iff.1 heq⟩
  · have hrun : (system.run (loaded true false) abortedReady).map (fun s =>
        decide (s.scheduled.length = 2)) = some true := by decide +kernel
    obtain ⟨s, hs, heq⟩ := Option.map_eq_some_iff.1 hrun
    exact ⟨s, hs, of_decide_eq_true heq⟩

end JobQueue

end Thinker
