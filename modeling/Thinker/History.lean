import Thinker.Numerals
import Thinker.Transition
import Thinker.VirtualSd

/-!
# The print history

`History` of `history.py` : the jobs that were printed, in a namespace of the database. The keys
of the namespace are kept a second time in `cached_job_ids`, and a job that is running a second
time in `current_job`. No handler awaits between two changes, so each is one step.
-/

set_option linter.unusedSectionVars false

namespace Thinker

/-! ## Job ids -/

/-- A digit of `X` format. -/
def hexDigit (d : ℕ) : Char :=
  if d < 10 then Char.ofNat (48 + d) else Char.ofNat (55 + d)

/-- The value of a digit in `int(text, 16)`. -/
def hexValue (c : Char) : Option ℕ :=
  let n := c.toNat
  if 48 ≤ n ∧ n ≤ 57 then some (n - 48)
  else if 65 ≤ n ∧ n ≤ 70 then some (n - 55)
  else if 97 ≤ n ∧ n ≤ 102 then some (n - 87)
  else none

/-- `f"{n:06X}"`. -/
def jobId (n : ℕ) : Text :=
  let digits := (Nat.digits 16 n).reverse.map hexDigit
  List.replicate (6 - digits.length) '0' ++ digits

/-- `int(text, 16)` of digits. -/
def parseHex (t : Text) : Option ℕ :=
  t.foldlM (fun n c => (hexValue c).map (16 * n + ·)) 0

theorem hexValue_hexDigit {d : ℕ} (h : d < 16) : hexValue (hexDigit d) = some d := by
  interval_cases d <;> decide

theorem parseHex_zeros (k : ℕ) : parseHex (List.replicate k '0') = some 0 := by
  unfold parseHex
  induction k with
  | zero => rfl
  | succ k ih => rw [List.replicate_succ, List.foldlM_cons]; exact ih

theorem parseHex_digits (t : Text) (ht : parseHex t = some 0) (ds : List ℕ)
    (h : ∀ d ∈ ds, d < 16) :
    parseHex (t ++ ds.reverse.map hexDigit) = some (Nat.ofDigits 16 ds) := by
  induction ds with
  | nil => simpa using ht
  | cons d ds ih =>
    have ih := ih fun e he => h e (List.mem_cons_of_mem d he)
    unfold parseHex at ih ⊢
    rw [List.reverse_cons, List.map_append, ← List.append_assoc, List.foldlM_append, ih]
    simp [hexValue_hexDigit (h d List.mem_cons_self), Nat.ofDigits_cons, add_comm]

/-- An id is read back. -/
theorem parseHex_jobId (n : ℕ) : parseHex (jobId n) = some n := by
  have h := parseHex_digits _ (parseHex_zeros (6 - ((Nat.digits 16 n).reverse.map hexDigit).length))
    (Nat.digits 16 n) fun d hd => Nat.digits_lt_base (by decide) hd
  rwa [Nat.ofDigits_digits] at h

theorem jobId_injective : Function.Injective jobId := fun m n h =>
  Option.some_inj.1 ((parseHex_jobId m).symm.trans (h ▸ parseHex_jobId n))

example : jobId 43981 = "00ABCD".toList := by decide +kernel

/-! ## Jobs -/

/-- The status of a job. -/
inductive JobStatus where
  | inProgress
  | completed
  | cancelled
  | error
  | klippyShutdown
  | klippyDisconnect
  | serverExit
  deriving DecidableEq

/-- The keys of the print stats that a job has an attribute for. -/
structure PrintStats (K : Type) where
  filename : Option Text
  totalDuration : Option K
  printDuration : Option K
  filamentUsed : Option K

variable {K : Type}

/-- `{}`. -/
def PrintStats.empty : PrintStats K :=
  ⟨none, none, none, none⟩

/-- `PrinterJob`. -/
structure PrinterJob (K : Type) where
  filename : Option Text
  status : JobStatus
  startTime : K
  endTime : Option K
  totalDuration : K
  printDuration : K
  filamentUsed : K
  deriving DecidableEq

namespace PrinterJob

variable (job : PrinterJob K)

/-- `update_from_ps`. -/
def updateFromPs (data : PrintStats K) : PrinterJob K :=
  { job with
    filename := data.filename.or job.filename
    totalDuration := data.totalDuration.getD job.totalDuration
    printDuration := data.printDuration.getD job.printDuration
    filamentUsed := data.filamentUsed.getD job.filamentUsed }

/-- `PrinterJob(data)` at the time `now`. -/
def new [Zero K] (now : K) (data : PrintStats K) : PrinterJob K :=
  updateFromPs ⟨none, .inProgress, now, none, 0, 0, 0⟩ data

/-- `finish`. -/
def finish (now : K) (status : JobStatus) (data : PrintStats K) : PrinterJob K :=
  updateFromPs { job with endTime := some now, status := status } data

@[simp]
theorem status_finish (now : K) (status : JobStatus) (data : PrintStats K) :
    (job.finish now status data).status = status :=
  rfl

end PrinterJob

/-- `job_totals`. -/
structure JobTotals (K : Type) where
  totalJobs : ℕ
  totalTime : K
  totalPrintTime : K
  totalFilamentUsed : K
  longestJob : K
  longestPrint : K

namespace JobTotals

/-- The totals before any job. -/
def zero [Zero K] : JobTotals K :=
  ⟨0, 0, 0, 0, 0, 0⟩

variable [AddCommMonoid K]

/-- `_update_job_totals`. -/
def add [LinearOrder K] (totals : JobTotals K) (job : PrinterJob K) : JobTotals K where
  totalJobs := totals.totalJobs + 1
  totalTime := totals.totalTime + job.totalDuration
  totalPrintTime := totals.totalPrintTime + job.printDuration
  totalFilamentUsed := totals.totalFilamentUsed + job.filamentUsed
  longestJob := max totals.longestJob job.totalDuration
  longestPrint := max totals.longestPrint job.printDuration

/-- The totals are the count and the sums of these jobs. -/
structure Of (totals : JobTotals K) (jobs : List (PrinterJob K)) : Prop where
  totalJobs : totals.totalJobs = jobs.length
  totalTime : totals.totalTime = (jobs.map PrinterJob.totalDuration).sum
  totalPrintTime : totals.totalPrintTime = (jobs.map PrinterJob.printDuration).sum
  totalFilamentUsed : totals.totalFilamentUsed = (jobs.map PrinterJob.filamentUsed).sum

theorem of_zero : (zero : JobTotals K).Of [] :=
  ⟨rfl, rfl, rfl, rfl⟩

theorem Of.add [LinearOrder K] {totals : JobTotals K} {jobs : List (PrinterJob K)} (h : totals.Of jobs)
    (job : PrinterJob K) : (totals.add job).Of (jobs ++ [job]) := by
  refine ⟨?_, ?_, ?_, ?_⟩
  · rw [List.length_append, ← h.totalJobs]
    rfl
  all_goals rw [List.map_append, List.sum_append, List.map_singleton, List.sum_singleton]
  · rw [← h.totalTime]
    rfl
  · rw [← h.totalPrintTime]
    rfl
  · rw [← h.totalFilamentUsed]
    rfl

end JobTotals

/-! ## The store -/

/-- `MAX_JOBS`. -/
def maxJobs : ℕ :=
  10000

/-- `History`. `currentJob` is `current_job` with `current_job_id`, which are set together.
`finished` is not in the code : the jobs that were finished since the totals were last reset. -/
structure History (K : Type) where
  historyNs : Text → Option (PrinterJob K)
  cachedJobIds : List Text
  nextJobId : ℕ
  currentJob : Option (Text × PrinterJob K)
  jobTotals : JobTotals K
  finished : List (PrinterJob K)

namespace History

variable [AddCommMonoid K] [LinearOrder K] (s : History K)

/-- `__init__`, on a namespace with its keys in the order of the database. `none` stands for an
exception. -/
def load (historyNs : Text → Option (PrinterJob K)) (keys : List Text) (jobTotals : JobTotals K)
    (finished : List (PrinterJob K)) : Option (History K) :=
  match keys.getLast? with
  | none => some ⟨historyNs, keys, 0, none, jobTotals, finished⟩
  | some last =>
    (parseHex last).map fun n => ⟨historyNs, keys, n + 1, none, jobTotals, finished⟩

/-- `delete_job`. -/
def deleteJob (jobId : Text) : History K :=
  if jobId ∈ s.cachedJobIds then
    { s with
      historyNs := Function.update s.historyNs jobId none
      cachedJobIds := s.cachedJobIds.erase jobId }
  else s

/-- `add_job`. -/
def addJob (job : PrinterJob K) : History K :=
  let s := if maxJobs ≤ s.cachedJobIds.length then s.deleteJob (s.cachedJobIds.headD []) else s
  let id := jobId s.nextJobId
  { s with
    currentJob := some (id, job)
    historyNs := Function.update s.historyNs id (some job)
    cachedJobIds := s.cachedJobIds ++ [id]
    nextJobId := s.nextJobId + 1 }

/-- `finish_job`. Stats that belong to another print, or were reset, are not used. -/
def finishJob (now : K) (status : JobStatus) (pstats : PrintStats K) : History K :=
  match s.currentJob with
  | none => s
  | some (id, cj) =>
    let reset := pstats.filename ≠ cj.filename ∨ pstats.totalDuration.getD 0 < cj.totalDuration
    let job := cj.finish now status (if reset then .empty else pstats)
    { s with
      historyNs := Function.update s.historyNs id (some job)
      jobTotals := s.jobTotals.add job
      finished := s.finished ++ [job]
      currentJob := none }

/-- `_on_job_started`. -/
def onJobStarted (now : K) (prevStats newStats : PrintStats K) : History K :=
  let s := if s.currentJob.isSome then s.finishJob now .cancelled prevStats else s
  s.addJob (.new now newStats)

/-- `_on_job_complete`. -/
def onJobComplete (now : K) (newStats : PrintStats K) : History K :=
  s.finishJob now .completed newStats

/-- `_on_job_cancelled`. -/
def onJobCancelled (now : K) (newStats : PrintStats K) : History K :=
  s.finishJob now .cancelled newStats

/-- `_on_job_error`. -/
def onJobError (now : K) (newStats : PrintStats K) : History K :=
  s.finishJob now .error newStats

/-- `_on_job_standby`. -/
def onJobStandby (now : K) (prevStats : PrintStats K) : History K :=
  s.finishJob now .cancelled prevStats

/-- `_handle_shutdown`. -/
def handleShutdown (now : K) (lastStats : PrintStats K) : History K :=
  s.finishJob now .klippyShutdown lastStats

/-- `_handle_disconnect`. -/
def handleDisconnect (now : K) (lastStats : PrintStats K) : History K :=
  s.finishJob now .klippyDisconnect lastStats

/-- `on_exit`. -/
def onExit (now : K) (lastStats : PrintStats K) : History K :=
  s.finishJob now .serverExit lastStats

/-- The request to delete a job. An id that is not stored raises an error. -/
def deleteRequest (uid : Text) : History K :=
  if uid ∈ s.cachedJobIds then s.deleteJob uid else s

/-- The request to delete all jobs. -/
def deleteAllRequest : History K :=
  { s with historyNs := fun _ => none, cachedJobIds := [], nextJobId := 0 }

/-- `_handle_job_total_reset`. While a job is running it raises an error. -/
def handleJobTotalReset : History K :=
  if s.currentJob.isSome then s else { s with jobTotals := .zero, finished := [] }

/-- What happens to the history, with the time at which it does. -/
inductive Event (K : Type) where
  | started (now : K) (prevStats newStats : PrintStats K)
  | complete (now : K) (newStats : PrintStats K)
  | cancelled (now : K) (newStats : PrintStats K)
  | error (now : K) (newStats : PrintStats K)
  | standby (now : K) (prevStats : PrintStats K)
  | shutdown (now : K) (lastStats : PrintStats K)
  | disconnect (now : K) (lastStats : PrintStats K)
  | exit (now : K) (lastStats : PrintStats K)
  | delete (uid : Text)
  | deleteAll
  | resetTotals

/-- The state after an event. -/
def next : Event K → History K
  | .started now prevStats newStats => s.onJobStarted now prevStats newStats
  | .complete now newStats => s.onJobComplete now newStats
  | .cancelled now newStats => s.onJobCancelled now newStats
  | .error now newStats => s.onJobError now newStats
  | .standby now prevStats => s.onJobStandby now prevStats
  | .shutdown now lastStats => s.handleShutdown now lastStats
  | .disconnect now lastStats => s.handleDisconnect now lastStats
  | .exit now lastStats => s.onExit now lastStats
  | .delete uid => s.deleteRequest uid
  | .deleteAll => s.deleteAllRequest
  | .resetTotals => s.handleJobTotalReset

/-- The keys of the namespace are these ids, which increase, no job of it is in progress, and the
totals are those of these jobs. -/
structure Consistent (historyNs : Text → Option (PrinterJob K)) (keys : List Text)
    (jobTotals : JobTotals K) (finished : List (PrinterJob K)) : Prop where
  isSome_iff : ∀ id, (historyNs id).isSome = true ↔ id ∈ keys
  ids : ∃ ids : List ℕ, keys = ids.map jobId ∧ ids.Pairwise (· < ·)
  notInProgress : ∀ id job, historyNs id = some job → job.status ≠ .inProgress
  totals : jobTotals.Of finished

/-- The history of a server that starts with a consistent store. -/
def system : System (History K) (Event K) where
  init s := ∃ historyNs keys jobTotals finished,
    Consistent historyNs keys jobTotals finished ∧
      load historyNs keys jobTotals finished = some s
  next s e := some (s.next e)

/-! ## The copies of the store -/

variable {s}

/-- The namespace, the ids, the id counter, the current job and the totals agree. -/
structure Sound (s : History K) : Prop where
  isSome_iff : ∀ id, (s.historyNs id).isSome = true ↔ id ∈ s.cachedJobIds
  ids : ∃ ids : List ℕ, s.cachedJobIds = ids.map jobId ∧ ids.Pairwise (· < ·) ∧
    ∀ n ∈ ids, n < s.nextJobId
  current : ∀ id job, s.historyNs id = some job → job.status = .inProgress →
    s.currentJob = some (id, job)
  totals : s.jobTotals.Of s.finished

namespace Sound

theorem nodup_cachedJobIds (h : s.Sound) : s.cachedJobIds.Nodup := by
  obtain ⟨ids, hids, hlt, -⟩ := h.ids
  rw [hids]
  exact (List.nodup_map_iff jobId_injective).2 (hlt.imp fun h => h.ne)

/-- The next id is not in use. -/
theorem historyNs_nextJobId (h : s.Sound) : s.historyNs (jobId s.nextJobId) = none := by
  obtain ⟨ids, hids, -, hlt⟩ := h.ids
  rw [← Option.not_isSome_iff_eq_none, h.isSome_iff, hids, List.mem_map]
  rintro ⟨n, hn, he⟩
  exact (hlt n hn).ne (jobId_injective he)

theorem deleteJob (h : s.Sound) (id : Text) : (s.deleteJob id).Sound := by
  unfold History.deleteJob
  split
  · rename_i hmem
    refine ⟨fun i => ?_, ?_, fun i job hi => ?_, h.totals⟩
    · show (Function.update s.historyNs id none i).isSome = true ↔ i ∈ s.cachedJobIds.erase id
      rw [h.nodup_cachedJobIds.mem_erase_iff, ← h.isSome_iff, Function.update_apply]
      split <;> simp [*]
    · obtain ⟨ids, hids, hlt, hnext⟩ := h.ids
      obtain ⟨n, hn, rfl⟩ := List.mem_map.1 (hids ▸ hmem)
      refine ⟨ids.erase n, ?_, hlt.sublist List.erase_sublist, fun m hm =>
        hnext m (List.mem_of_mem_erase hm)⟩
      rw [List.map_erase jobId_injective, ← hids]
    · have hi : Function.update s.historyNs id none i = some job := hi
      rw [Function.update_apply] at hi
      split at hi
      · exact absurd hi nofun
      · exact h.current i job hi
  · exact h

@[simp]
theorem currentJob_deleteJob (id : Text) : (s.deleteJob id).currentJob = s.currentJob := by
  unfold History.deleteJob
  split <;> rfl

theorem addJob (h : s.Sound) (hcurrent : s.currentJob = none) (job : PrinterJob K) :
    (s.addJob job).Sound := by
  unfold History.addJob
  dsimp only
  generalize ht : (if maxJobs ≤ s.cachedJobIds.length then
    s.deleteJob (s.cachedJobIds.headD []) else s) = t
  have h : t.Sound := by
    rw [← ht]
    split
    exacts [h.deleteJob _, h]
  have hcurrent : t.currentJob = none := by
    rw [← ht]
    split
    · rwa [currentJob_deleteJob]
    · exact hcurrent
  refine ⟨fun i => ?_, ?_, fun i job' hi hp => ?_, h.totals⟩
  · show (Function.update t.historyNs _ (some job) i).isSome = true ↔ i ∈ _ ++ [_]
    rw [List.mem_append, ← h.isSome_iff, List.mem_singleton, Function.update_apply]
    split <;> simp [*]
  · obtain ⟨ids, hids, hlt, hnext⟩ := h.ids
    refine ⟨ids ++ [t.nextJobId], ?_, ?_, fun m hm => ?_⟩
    · rw [List.map_append, ← hids, List.map_singleton]
    · rw [List.pairwise_append]
      refine ⟨hlt, List.pairwise_singleton _ _, fun m hm n hn => ?_⟩
      obtain rfl := List.mem_singleton.1 hn
      exact hnext m hm
    · show m < t.nextJobId + 1
      rcases List.mem_append.1 hm with hm | hm
      · exact (hnext m hm).trans (Nat.lt_succ_self _)
      · obtain rfl := List.mem_singleton.1 hm
        exact Nat.lt_succ_self _
  · have hi : Function.update t.historyNs (jobId t.nextJobId) (some job) i = some job' := hi
    rw [Function.update_apply] at hi
    split at hi
    · obtain rfl := Option.some_inj.1 hi
      subst i
      rfl
    · exact absurd (h.current i job' hi hp) (by simp [hcurrent])

/-- A job that is finished is stored once more. Its id must still be in the cache. -/
theorem finishJob (h : s.Sound)
    (hcached : ∀ j ∈ s.currentJob, j.1 ∈ s.cachedJobIds) (now : K)
    (status : JobStatus) (hstatus : status ≠ .inProgress) (pstats : PrintStats K) :
    (s.finishJob now status pstats).Sound ∧ (s.finishJob now status pstats).currentJob = none := by
  unfold History.finishJob
  split
  · rename_i hnone
    exact ⟨h, hnone⟩
  · rename_i id cj hcj
    have hid := hcached (id, cj) hcj
    dsimp only
    generalize hjob : cj.finish now status _ = job
    have hjs : job.status = status := by rw [← hjob, PrinterJob.status_finish]
    refine ⟨⟨fun i => ?_, h.ids, fun i job' hi hp => ?_, h.totals.add job⟩, rfl⟩
    · show (Function.update s.historyNs id (some job) i).isSome = true ↔ i ∈ s.cachedJobIds
      rw [← h.isSome_iff, Function.update_apply]
      split
      · subst i
        simpa using (h.isSome_iff id).2 hid
      · rfl
    · have hi : Function.update s.historyNs id (some job) i = some job' := hi
      rw [Function.update_apply] at hi
      split at hi
      · obtain rfl := Option.some_inj.1 hi
        exact absurd (hjs.symm.trans hp) hstatus
      · rename_i hne
        have hcur := h.current i job' hi hp
        rw [hcj, Option.some_inj, Prod.mk.injEq] at hcur
        exact absurd hcur.1.symm hne

end Sound

/-- The history is sound once a consistent store is read. -/
theorem sound_load {historyNs : Text → Option (PrinterJob K)} {keys : List Text}
    {jobTotals : JobTotals K} {finished : List (PrinterJob K)}
    (h : Consistent historyNs keys jobTotals finished)
    (hload : load historyNs keys jobTotals finished = some s) : s.Sound := by
  obtain ⟨ids, rfl, hlt⟩ := h.ids
  have hcurrent : ∀ id job, historyNs id = some job → job.status = .inProgress → False :=
    fun id job hid hp => h.notInProgress id job hid hp
  unfold load at hload
  split at hload
  · obtain rfl := Option.some_inj.1 hload
    rename_i hnil
    obtain rfl := List.map_eq_nil_iff.1 (List.getLast?_eq_none_iff.1 hnil)
    exact ⟨h.isSome_iff, ⟨[], rfl, List.Pairwise.nil, nofun⟩,
      fun id job hid hp => (hcurrent id job hid hp).elim, h.totals⟩
  · rename_i last hlast
    rw [List.getLast?_map, Option.map_eq_some_iff] at hlast
    obtain ⟨n, hn, rfl⟩ := hlast
    rw [parseHex_jobId, Option.map_some, Option.some_inj] at hload
    subst s
    refine ⟨h.isSome_iff, ⟨ids, rfl, hlt, fun m hm => ?_⟩,
      fun id job hid hp => (hcurrent id job hid hp).elim, h.totals⟩
    obtain ⟨init, rfl⟩ := List.getLast?_eq_some_iff.1 hn
    rcases List.mem_append.1 hm with hm | hm
    · exact ((List.pairwise_append.1 hlt).2.2 m hm n (List.mem_singleton_self n)).trans
        (Nat.lt_succ_self n)
    · exact (List.mem_singleton.1 hm) ▸ Nat.lt_succ_self n

/-- Whether an event finishes a job that is running. -/
def Event.finishes : Event K → Bool
  | .delete _ | .deleteAll | .resetTotals => false
  | _ => true

/-- A job that is finished was not deleted while it was running. -/
def Kept (s : History K) (e : Event K) : Prop :=
  e.finishes = true → ∀ j ∈ s.currentJob, j.1 ∈ s.cachedJobIds

instance (e : Event K) : Decidable (Kept s e) :=
  inferInstanceAs (Decidable (_ → _))

theorem Sound.next (h : s.Sound) {e : Event K} (hkept : Kept s e) : (s.next e).Sound := by
  cases e with
  | started now prevStats newStats =>
    show (s.onJobStarted now prevStats newStats).Sound
    unfold onJobStarted
    dsimp only
    split
    · obtain ⟨hs, hnone⟩ := h.finishJob (hkept rfl) now .cancelled nofun prevStats
      exact hs.addJob hnone _
    · rename_i hnone
      exact h.addJob (by simpa using hnone) _
  | complete now stats => exact (h.finishJob (hkept rfl) now .completed nofun stats).1
  | cancelled now stats => exact (h.finishJob (hkept rfl) now .cancelled nofun stats).1
  | error now stats => exact (h.finishJob (hkept rfl) now .error nofun stats).1
  | standby now stats => exact (h.finishJob (hkept rfl) now .cancelled nofun stats).1
  | shutdown now stats => exact (h.finishJob (hkept rfl) now .klippyShutdown nofun stats).1
  | disconnect now stats => exact (h.finishJob (hkept rfl) now .klippyDisconnect nofun stats).1
  | exit now stats => exact (h.finishJob (hkept rfl) now .serverExit nofun stats).1
  | delete uid =>
    show (s.deleteRequest uid).Sound
    unfold deleteRequest
    split
    exacts [h.deleteJob uid, h]
  | deleteAll =>
    exact ⟨fun _ => by simp [History.next, deleteAllRequest], ⟨[], rfl, List.Pairwise.nil, nofun⟩,
      nofun, h.totals⟩
  | resetTotals =>
    show (s.handleJobTotalReset).Sound
    unfold handleJobTotalReset
    split
    exacts [h, ⟨h.isSome_iff, h.ids, h.current, JobTotals.of_zero⟩]

/-- In runs that delete no running job the copies agree, the next id is not in use, and one stored
job at most is in progress. -/
theorem store_of_reachable (h : (system (K := K)).ReachableBy Kept s) :
    (∀ id, (s.historyNs id).isSome = true ↔ id ∈ s.cachedJobIds) ∧
      (∃ ids : List ℕ, s.cachedJobIds = ids.map jobId ∧ ids.Pairwise (· < ·) ∧
        ∀ n ∈ ids, n < s.nextJobId) ∧
      s.historyNs (jobId s.nextJobId) = none ∧
      (∀ id job, s.historyNs id = some job → job.status = .inProgress →
        s.currentJob = some (id, job)) ∧
      s.jobTotals.Of s.finished := by
  have hs : s.Sound := by
    refine h.invariant (I := Sound) ?_ ?_
    · rintro s ⟨historyNs, keys, jobTotals, finished, hc, hload⟩
      exact sound_load hc hload
    · rintro s e t hs hkept ht
      obtain rfl := Option.some_inj.1 ht
      exact hs.next hkept
  exact ⟨hs.isSome_iff, hs.ids, hs.historyNs_nextJobId, hs.current, hs.totals⟩

/-- The history on an empty store. -/
def empty : History K :=
  ⟨fun _ => none, [], 0, none, .zero, []⟩

theorem init_empty : (system (K := K)).init empty :=
  ⟨fun _ => none, [], .zero, [],
    ⟨fun _ => by simp, ⟨[], rfl, List.Pairwise.nil⟩, nofun, JobTotals.of_zero⟩, rfl⟩

/-- The stats of a print of `a.g`. -/
def stats (duration : ℤ) : PrintStats ℤ :=
  ⟨some "a.g".toList, some duration, some duration, some 0⟩

/-- Two prints, of which the first is deleted while the second runs. -/
def deletedBefore : List (Event ℤ) :=
  [.started 0 .empty (stats 0), .complete 5 (stats 5), .started 6 (stats 5) (stats 0),
    .delete (jobId 0)]

theorem store_of_reachable_deleted :
    ∃ s, system.run empty deletedBefore = some s ∧ s.cachedJobIds = [jobId 1] ∧
      (s.historyNs (jobId 1)).isSome = true ∧ s.historyNs (jobId 2) = none ∧
      s.jobTotals.totalTime = 5 := by
  have hrun : (system.run empty deletedBefore).map (fun s => decide (s.cachedJobIds = [jobId 1] ∧
      s.nextJobId = 2 ∧ s.finished.map PrinterJob.totalDuration = [5])) = some true := by
    decide +kernel
  obtain ⟨s, hs, heq⟩ := Option.map_eq_some_iff.1 hrun
  obtain ⟨hcached, hnext, htotal⟩ := of_decide_eq_true heq
  have hreach : system.ReachableBy Kept s :=
    System.ReachableBy.run (.init init_empty) (by decide +kernel) hs
  obtain ⟨hkeys, -, hfree, -, htotals⟩ := store_of_reachable hreach
  refine ⟨s, hs, hcached, (hkeys _).2 ?_, hnext ▸ hfree, ?_⟩
  · rw [hcached]
    exact List.mem_singleton_self _
  · rw [htotals.totalTime, htotal]
    rfl

/-- All jobs are deleted while one runs, which then completes. -/
def deletedRunning : List (Event ℤ) :=
  [.started 0 .empty (stats 0), .deleteAll, .complete 5 (stats 5)]

/-- The job is stored once more, and the next job overwrites it. -/
theorem not_isSome_iff_deleted :
    ∃ s : History ℤ, system.Reachable s ∧ (s.historyNs (jobId 0)).isSome = true ∧
      jobId 0 ∉ s.cachedJobIds ∧ s.nextJobId = 0 := by
  have hrun : (system.run empty deletedRunning).map (fun s =>
      decide ((s.historyNs (jobId 0)).isSome = true ∧ jobId 0 ∉ s.cachedJobIds ∧
        s.nextJobId = 0)) = some true := by decide +kernel
  obtain ⟨s, hs, heq⟩ := Option.map_eq_some_iff.1 hrun
  exact ⟨s, System.Reachable.run (.init init_empty) hs, of_decide_eq_true heq⟩

end History

end Thinker
