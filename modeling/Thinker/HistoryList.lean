import Thinker.History

/-!
# The list of printed jobs

`_handle_jobs_list` of `history.py` looks for the bounds of the jobs that it lists from both ends
of `cached_job_ids`, and returns a page of what is between them.

The end of a job that is running is `None`, which is not compared with a number : the request
raises an error where the last job is running and an upper bound is given. The number `-1` stands
for a bound that is not given, and a list has at most `MAX_JOBS` jobs. Otherwise the page is the
right one (`lists_iff`).
-/

set_option linter.unusedSectionVars false

namespace Thinker

variable {K : Type} [Field K] [LinearOrder K] [IsStrictOrderedRing K]

/-! ## The request -/

/-- The arguments of a request. -/
structure JobsListRequest (K : Type) where
  before : Option K
  since : Option K
  limit : Option ℤ
  start : Option ℤ
  order : Option Text

/-- What `_handle_jobs_list` raises. -/
inductive JobsListError where
  | invalidOrder (order : Text)
  | indexError
  | keyError (jobId : Text)
  /-- `None < before`. -/
  | typeError
  deriving DecidableEq

/-- What `_prep_requested_job` returns. -/
structure RequestedJob (K : Type) where
  job : PrinterJob K
  jobId : Text
  fileExists : Bool
  deriving DecidableEq

namespace History

variable (s : History K) (fileExists : PrinterJob K → Bool)

/-- `_prep_requested_job`, with what the file manager finds. -/
def prepRequestedJob (job : PrinterJob K) (jobId : Text) : RequestedJob K :=
  ⟨job, jobId, fileExists job⟩

/-- `cached_job_ids[n]`, where a negative number counts from the end. -/
def cachedJobId (n : ℤ) : Except JobsListError Text :=
  match s.cachedJobIds[(if n < 0 then n + s.cachedJobIds.length else n).toNat]? with
  | some id => if n < -s.cachedJobIds.length then .error .indexError else .ok id
  | none => .error .indexError

/-- `history_ns[cached_job_ids[n]]` with the id. -/
def jobAt (n : ℤ) : Except JobsListError (Text × PrinterJob K) :=
  (s.cachedJobId n).bind fun id =>
    match s.historyNs id with
    | some job => .ok (id, job)
    | none => .error (.keyError id)

/-- The loop over `start_num`, with how far it is from `end_num`. -/
def sinceLoop (since : K) : ℕ → ℕ → Except JobsListError ℕ
  | 0, startNum => .ok startNum
  | k + 1, startNum =>
    (s.jobAt startNum).bind fun (_, job) =>
      if job.startTime > since then .ok startNum else sinceLoop since k (startNum + 1)

/-- The loop over `end_num`. -/
def beforeLoop (before : K) : ℕ → Except JobsListError ℕ
  | 0 => .ok 0
  | endNum + 1 =>
    (s.jobAt endNum).bind fun (_, job) =>
      match job.endTime with
      | none => .error .typeError
      | some endTime => if endTime < before then .ok (endNum + 1) else beforeLoop before endNum

/-- The loop over `i`, with how far it is from `count`. -/
def pageLoop (reverseOrder : Bool) (startNum endNum : ℕ) (limit : ℤ) :
    ℕ → ℤ → List (RequestedJob K) → Except JobsListError (List (RequestedJob K))
  | 0, _, jobs => .ok jobs
  | k + 1, i, jobs =>
    if (jobs.length : ℤ) < limit then
      (s.jobAt (if reverseOrder then endNum - i - 1 else startNum + i)).bind fun (id, job) =>
        pageLoop reverseOrder startNum endNum limit k (i + 1)
          (jobs ++ [prepRequestedJob fileExists job id])
    else .ok jobs

/-- `_handle_jobs_list` : the `count` and the `jobs`. -/
def handleJobsList (r : JobsListRequest K) :
    Except JobsListError (ℕ × List (RequestedJob K)) :=
  let endNum := s.cachedJobIds.length
  let before := r.before.getD (-1)
  let since := r.since.getD (-1)
  let limit := r.limit.getD 50
  let start := r.start.getD 0
  let order := r.order.getD "desc".toList
  if order ≠ "asc".toList ∧ order ≠ "desc".toList then .error (.invalidOrder order)
  else
    let reverseOrder := decide (order = "desc".toList)
    (if since ≠ -1 then s.sinceLoop since endNum 0 else .ok 0).bind fun startNum =>
      (if before ≠ -1 then s.beforeLoop before endNum else .ok endNum).bind fun endNum =>
        if startNum ≥ endNum ∨ endNum = 0 then .ok (0, [])
        else
          let count := endNum - startNum
          let limit := if limit = 0 then (maxJobs : ℤ) else limit
          (s.pageLoop fileExists reverseOrder startNum endNum limit (count - start).toNat start
            []).map fun jobs => (count, jobs)

end History

/-! ## What is listed -/

/-- The jobs of a history by their numbers, and in the order of time. Only the last one may be
running. -/
structure JobsInOrder (s : History K) (jobs : List (ℕ × PrinterJob K)) : Prop where
  ids : s.cachedJobIds = jobs.map fun e => jobId e.1
  increasing : jobs.Pairwise fun e e' => e.1 < e'.1
  stored : ∀ e ∈ jobs, s.historyNs (jobId e.1) = some e.2
  startTimes : jobs.Pairwise fun e e' => e.2.startTime ≤ e'.2.startTime
  finished : ∀ e ∈ jobs, ∀ t ∈ e.2.endTime, e.2.startTime ≤ t
  endTimes : jobs.Pairwise fun e e' => ∀ t ∈ e.2.endTime, ∀ t' ∈ e'.2.endTime, t ≤ t'
  running : ∀ e ∈ jobs.dropLast, e.2.endTime.isSome = true

namespace JobsListRequest

variable (r : JobsListRequest K)

/-- A bound that is not `-1`. -/
def given (bound : Option K) : Option K :=
  bound.filter fun x => decide (x ≠ -1)

/-- A job started after a bound and ended before another one. -/
def Within (since before : Option K) (job : PrinterJob K) : Prop :=
  (∀ x ∈ since, x < job.startTime) ∧ ∀ y ∈ before, ∃ t ∈ job.endTime, t < y

instance (since before : Option K) (job : PrinterJob K) : Decidable (Within since before job) :=
  inferInstanceAs (Decidable (_ ∧ _))

/-- The jobs of a request. -/
def matching (since before : Option K) (jobs : List (ℕ × PrinterJob K)) :
    List (ℕ × PrinterJob K) :=
  jobs.filter fun e => decide (Within since before e.2)

/-- A page of jobs in an order. -/
def page (r : JobsListRequest K) (fileExists : PrinterJob K → Bool)
    (jobs : List (ℕ × PrinterJob K)) : List (RequestedJob K) :=
  let limit := r.limit.getD 50
  let ordered := if r.order.getD "desc".toList = "desc".toList then jobs.reverse else jobs
  let rest := ordered.drop (r.start.getD 0).toNat
  (if limit = 0 then rest else rest.take limit.toNat).map fun e =>
    ⟨e.2, jobId e.1, fileExists e.2⟩

/-- The arguments are such that a page is asked for. -/
structure Valid : Prop where
  limit : 0 ≤ r.limit.getD 50
  start : 0 ≤ r.start.getD 0
  order : r.order.getD "desc".toList = "asc".toList ∨ r.order.getD "desc".toList = "desc".toList

/-- The history lists the jobs of a request. -/
def Lists (s : History K) (fileExists : PrinterJob K → Bool) (jobs : List (ℕ × PrinterJob K)) :
    Prop :=
  s.handleJobsList fileExists r =
    .ok ((matching r.since r.before jobs).length,
      r.page fileExists (matching r.since r.before jobs))

/-- No end is compared that is missing, a bound of `-1` leaves out no job, and a page without a
limit has at most `MAX_JOBS`. -/
structure Listable (jobs : List (ℕ × PrinterJob K)) : Prop where
  ended : given r.before ≠ none → ∀ e ∈ jobs.getLast?, e.2.endTime.isSome = true
  minusOne : ∀ e ∈ jobs, Within (given r.since) (given r.before) e.2 →
    Within r.since r.before e.2
  maxJobs : r.limit.getD 50 = 0 →
    (matching (given r.since) (given r.before) jobs).length ≤ (r.start.getD 0).toNat + maxJobs

end JobsListRequest

/-! ## The loops -/

/-- A filter that keeps what is between two places. -/
theorem filter_eq_slice {α : Type*} {p : α → Bool} {l : List α} {m n : ℕ}
    (h : ∀ (i : ℕ) (hi : i < l.length), p l[i] = true ↔ m ≤ i ∧ i < n) :
    l.filter p = (l.take n).drop m := by
  induction l generalizing m n with
  | nil => simp
  | cons a l ih =>
    have hhead : p a = true ↔ m = 0 ∧ 0 < n := by simpa using h 0 (Nat.zero_lt_succ _)
    have htail : l.filter p = (l.take (n - 1)).drop (m - 1) := by
      refine ih fun i hi => ?_
      have hnext := h (i + 1) (Nat.succ_lt_succ hi)
      rw [List.getElem_cons_succ] at hnext
      rw [hnext]
      omega
    rw [List.filter_cons, htail]
    by_cases hn : n = 0
    · subst hn
      rw [if_neg (by simp [hhead])]
      simp
    obtain ⟨n, rfl⟩ := Nat.exists_eq_succ_of_ne_zero hn
    cases m with
    | zero => rw [if_pos (hhead.2 ⟨rfl, Nat.succ_pos n⟩), Nat.succ_sub_one]; rfl
    | succ m => rw [if_neg (by simp [hhead])]; rfl

namespace JobsInOrder

open History JobsListRequest

variable {s : History K} {jobs : List (ℕ × PrinterJob K)} {fileExists : PrinterJob K → Bool}
  {r : JobsListRequest K}

theorem length_cachedJobIds (h : JobsInOrder s jobs) : s.cachedJobIds.length = jobs.length := by
  rw [h.ids, List.length_map]

theorem jobAt (h : JobsInOrder s jobs) {n : ℕ} (hn : n < jobs.length) :
    s.jobAt n = .ok (jobId jobs[n].1, jobs[n].2) := by
  have hid : s.cachedJobIds[n]? = some (jobId jobs[n].1) := by
    rw [h.ids, List.getElem?_map, List.getElem?_eq_getElem hn, Option.map_some]
  have hcached : s.cachedJobId n = .ok (jobId jobs[n].1) := by
    unfold cachedJobId
    rw [if_neg (by omega), Int.toNat_natCast, hid]
    exact if_neg (by omega)
  unfold History.jobAt
  rw [hcached]
  show (match s.historyNs (jobId jobs[n].1) with
    | some job => Except.ok (jobId jobs[n].1, job)
    | none => .error (JobsListError.keyError (jobId jobs[n].1))) = _
  rw [h.stored _ (List.getElem_mem hn)]

/-- The first loop stops at the first job behind the bound. -/
theorem sinceLoop (h : JobsInOrder s jobs) (since : K) {k n : ℕ} (hn : n + k = jobs.length) :
    ∃ m, s.sinceLoop since k n = .ok m ∧ n ≤ m ∧ m ≤ jobs.length ∧
      (∀ (i : ℕ) (hi : i < jobs.length), n ≤ i → i < m → ¬ since < jobs[i].2.startTime) ∧
      ∀ hm : m < jobs.length, since < jobs[m].2.startTime := by
  induction k generalizing n with
  | zero =>
    exact ⟨n, rfl, le_rfl, by omega, fun i _ hni him => absurd him (by omega),
      fun hm => absurd hm (by omega)⟩
  | succ k ih =>
    have hlt : n < jobs.length := by omega
    have hstep : s.sinceLoop since (k + 1) n = if since < jobs[n].2.startTime then .ok n
        else s.sinceLoop since k (n + 1) := by
      rw [History.sinceLoop, h.jobAt hlt]
      rfl
    rw [hstep]
    split_ifs with hstart
    · exact ⟨n, rfl, le_rfl, hlt.le, fun i _ hni him => absurd him (by omega), fun _ => hstart⟩
    · obtain ⟨m, hm, hnm, hlen, hbefore, hat⟩ := ih (n := n + 1) (by omega)
      refine ⟨m, hm, by omega, hlen, fun i hi hni him => ?_, hat⟩
      rcases Nat.lt_or_eq_of_le hni with hlt' | rfl
      · exact hbefore i hi hlt' him
      · exact hstart

/-- The second loop stops behind the last job before the bound, if all of them have ended. -/
theorem beforeLoop (h : JobsInOrder s jobs) (before : K) {n : ℕ} (hn : n ≤ jobs.length)
    (hended : ∀ (i : ℕ) (hi : i < jobs.length), i < n → jobs[i].2.endTime.isSome = true) :
    ∃ m, s.beforeLoop before n = .ok m ∧ m ≤ n ∧
      (∀ (i : ℕ) (hi : i < jobs.length), m ≤ i → i < n → ¬ ∃ t ∈ jobs[i].2.endTime, t < before) ∧
      ∀ (hm : m - 1 < jobs.length), 0 < m → ∃ t ∈ jobs[m - 1].2.endTime, t < before := by
  induction n with
  | zero =>
    exact ⟨0, rfl, le_rfl, fun i _ _ hi => absurd hi (Nat.not_lt_zero i),
      fun _ hm => absurd hm (lt_irrefl 0)⟩
  | succ n ih =>
    have hlt : n < jobs.length := by omega
    obtain ⟨t, ht⟩ := Option.isSome_iff_exists.1 (hended n hlt (Nat.lt_succ_self n))
    have hstep : s.beforeLoop before (n + 1) = if t < before then .ok (n + 1)
        else s.beforeLoop before n := by
      rw [History.beforeLoop, h.jobAt hlt]
      show (match jobs[n].2.endTime with
        | none => Except.error JobsListError.typeError
        | some endTime => if endTime < before then .ok (n + 1) else s.beforeLoop before n) = _
      rw [ht]
    rw [hstep]
    split_ifs with hend
    · exact ⟨n + 1, rfl, le_rfl, fun i _ hni hi => absurd hi (by omega),
        fun _ _ => ⟨t, ht, hend⟩⟩
    · obtain ⟨m, hm, hmn, hbehind, hat⟩ := ih hlt.le fun i hi hin => hended i hi (by omega)
      refine ⟨m, hm, by omega, fun i hi hmi hin => ?_, hat⟩
      rcases Nat.lt_or_eq_of_le (Nat.le_of_lt_succ hin) with hlt' | rfl
      · exact hbehind i hi hmi hlt'
      · rintro ⟨t', ht', hend'⟩
        rw [ht] at ht'
        obtain rfl := Option.some_inj.1 ht'
        exact hend hend'

/-- The last loop takes a page of the jobs that it goes over. -/
theorem pageLoop {ordered : List (ℕ × PrinterJob K)} {reverseOrder : Bool} {startNum endNum : ℕ}
    (hat : ∀ (i : ℕ) (hi : i < ordered.length),
      s.jobAt (if reverseOrder then endNum - i - 1 else startNum + i) =
        .ok (jobId ordered[i].1, ordered[i].2)) (limit : ℤ) {k i : ℕ}
    (hk : k = ordered.length - i) (acc : List (RequestedJob K)) :
    s.pageLoop fileExists reverseOrder startNum endNum limit k i acc =
      .ok (acc ++ ((ordered.drop i).take (limit - acc.length).toNat).map fun e =>
        ⟨e.2, jobId e.1, fileExists e.2⟩) := by
  induction k generalizing i acc with
  | zero =>
    rw [List.drop_eq_nil_of_le (by omega)]
    simp [History.pageLoop]
  | succ k ih =>
    have hi : i < ordered.length := by omega
    rw [History.pageLoop]
    by_cases hlimit : (acc.length : ℤ) < limit
    · rw [if_pos hlimit]
      obtain ⟨n, hn⟩ : ∃ n : ℕ, (limit - acc.length).toNat = n + 1 :=
        Nat.exists_eq_succ_of_ne_zero (by omega)
      have hn' : (limit - ((acc ++ [prepRequestedJob fileExists ordered[i].2
          (jobId ordered[i].1)]).length : ℕ)).toNat = n := by
        rw [List.length_append, List.length_singleton]
        omega
      rw [hat i hi]
      refine (ih (i := i + 1) (by omega) _).trans ?_
      rw [hn', hn, List.drop_eq_getElem_cons hi, List.take_succ_cons, List.map_cons,
        List.append_assoc]
      rfl
    · rw [if_neg hlimit, Int.toNat_eq_zero.2 (by omega), List.take_zero, List.map_nil,
        List.append_nil]

/-! ## The bounds -/

theorem given_eq_none_iff {bound : Option K} : given bound = none ↔ bound.getD (-1) = -1 := by
  cases bound with
  | none => simp [given]
  | some x => simp [given, Option.filter_eq_none_iff]

theorem given_of_ne {bound : Option K} (h : bound.getD (-1) ≠ -1) :
    given bound = some (bound.getD (-1)) := by
  cases bound with
  | none => exact absurd rfl h
  | some x => exact Option.filter_some_pos (decide_eq_true h)

/-- The first bound leaves the jobs from one place on. -/
theorem since_spec (h : JobsInOrder s jobs) (since : Option K) :
    ∃ m, (if since.getD (-1) ≠ -1 then s.sinceLoop (since.getD (-1)) s.cachedJobIds.length 0
        else .ok 0) = .ok m ∧ m ≤ jobs.length ∧
      ∀ (i : ℕ) (hi : i < jobs.length),
        (∀ x ∈ given since, x < jobs[i].2.startTime) ↔ m ≤ i := by
  by_cases hsince : since.getD (-1) = -1
  · rw [if_neg (not_not.2 hsince), given_eq_none_iff.2 hsince]
    exact ⟨0, rfl, Nat.zero_le _, fun i _ => iff_of_true nofun (Nat.zero_le i)⟩
  · rw [if_pos hsince, given_of_ne hsince, h.length_cachedJobIds]
    obtain ⟨m, hm, -, hlen, hbefore, hat⟩ := h.sinceLoop (since.getD (-1)) (Nat.zero_add _)
    refine ⟨m, hm, hlen, fun i hi => ?_⟩
    simp only [Option.mem_def, Option.some_inj, forall_eq']
    constructor
    · intro hstart
      by_contra him
      exact hbefore i hi (Nat.zero_le i) (not_le.1 him) hstart
    · intro hmi
      rcases Nat.lt_or_eq_of_le hmi with hlt | rfl
      · exact (hat (hlt.trans hi)).trans_le
          (List.pairwise_iff_getElem.1 h.startTimes m i _ hi hlt)
      · exact hat hi

theorem isSome_endTime (h : JobsInOrder s jobs)
    (hlast : ∀ e ∈ jobs.getLast?, e.2.endTime.isSome = true) (i : ℕ) (hi : i < jobs.length) :
    jobs[i].2.endTime.isSome = true := by
  rcases Nat.lt_or_ge i (jobs.length - 1) with hlt | hge
  · have hmem : jobs[i] ∈ jobs.dropLast := by
      rw [List.dropLast_eq_take]
      exact List.mem_take_iff_getElem.2 ⟨i, by omega, rfl⟩
    exact h.running _ hmem
  · refine hlast _ ?_
    obtain rfl : i = jobs.length - 1 := by omega
    rw [List.getLast?_eq_getElem?]
    exact List.getElem?_eq_getElem hi

/-- The second bound leaves the jobs up to one place. -/
theorem before_spec (h : JobsInOrder s jobs) (before : Option K)
    (hended : given before ≠ none → ∀ e ∈ jobs.getLast?, e.2.endTime.isSome = true) :
    ∃ m, (if before.getD (-1) ≠ -1 then s.beforeLoop (before.getD (-1)) s.cachedJobIds.length
        else .ok s.cachedJobIds.length) = .ok m ∧ m ≤ jobs.length ∧
      ∀ (i : ℕ) (hi : i < jobs.length),
        (∀ y ∈ given before, ∃ t ∈ jobs[i].2.endTime, t < y) ↔ i < m := by
  rw [h.length_cachedJobIds]
  by_cases hbefore : before.getD (-1) = -1
  · rw [if_neg (not_not.2 hbefore), given_eq_none_iff.2 hbefore]
    exact ⟨_, rfl, le_rfl, fun i hi => iff_of_true nofun hi⟩
  · have hgiven := given_of_ne hbefore
    have hended := h.isSome_endTime (hended (by rw [hgiven]; exact Option.some_ne_none _))
    rw [if_pos hbefore, hgiven]
    obtain ⟨m, hm, hlen, hbehind, hat⟩ :=
      h.beforeLoop (before.getD (-1)) le_rfl fun i hi _ => hended i hi
    refine ⟨m, hm, hlen, fun i hi => ?_⟩
    simp only [Option.mem_def, Option.some_inj, forall_eq']
    constructor
    · intro hend
      by_contra him
      exact hbehind i hi (not_lt.1 him) hi hend
    · intro him
      obtain ⟨t', ht', hend⟩ := hat (by omega) (by omega)
      rcases Nat.lt_or_ge i (m - 1) with hlt | hge
      · obtain ⟨t, ht⟩ := Option.isSome_iff_exists.1 (hended i hi)
        exact ⟨t, ht, (List.pairwise_iff_getElem.1 h.endTimes i (m - 1) hi _ hlt t ht t'
          ht').trans_lt hend⟩
      · obtain rfl : i = m - 1 := by omega
        exact ⟨t', ht', hend⟩

/-! ## The list -/

/-- The jobs between two places are gone over from either end. -/
theorem pageLoop_slice (h : JobsInOrder s jobs) {m n : ℕ} (hn : n ≤ jobs.length)
    (reverseOrder : Bool) (limit : ℤ) (start : ℕ) :
    s.pageLoop fileExists reverseOrder m n limit (n - m - start) start [] =
      .ok ((((if reverseOrder then ((jobs.take n).drop m).reverse
        else (jobs.take n).drop m).drop start).take limit.toNat).map fun e =>
          ⟨e.2, jobId e.1, fileExists e.2⟩) := by
  have hlength : ((jobs.take n).drop m).length = n - m := by
    rw [List.length_drop, List.length_take_of_le hn]
  have hfrom : ∀ (i : ℕ) (hi : i < n - m), ((jobs.take n).drop m)[i] = jobs[m + i] := by
    intro i hi
    rw [List.getElem_drop, List.getElem_take]
  generalize hordered : (if reverseOrder then ((jobs.take n).drop m).reverse
    else (jobs.take n).drop m) = ordered
  have hat : ordered.length = n - m ∧ ∀ (i : ℕ) (hi : i < ordered.length),
      s.jobAt (if reverseOrder then (n : ℤ) - i - 1 else m + i) =
        .ok (jobId ordered[i].1, ordered[i].2) := by
    cases reverseOrder with
    | false =>
      subst hordered
      refine ⟨hlength, fun i hi => ?_⟩
      have hi : i < ((jobs.take n).drop m).length := hi
      rw [hlength] at hi
      simp only [Bool.false_eq_true, if_false]
      rw [hfrom i hi]
      exact_mod_cast h.jobAt (n := m + i) (by omega)
    | true =>
      subst hordered
      refine ⟨List.length_reverse.trans hlength, fun i hi => ?_⟩
      have hi : i < ((jobs.take n).drop m).reverse.length := hi
      rw [List.length_reverse, hlength] at hi
      have hjob := h.jobAt (n := m + (n - m - 1 - i)) (by omega)
      simp only [if_true, List.getElem_reverse, hlength]
      rw [hfrom _ (by omega), show (n : ℤ) - i - 1 = ((m + (n - m - 1 - i) : ℕ) : ℤ) by omega]
      exact hjob
  refine (pageLoop hat.2 limit (k := n - m - start) (i := start) (by rw [hat.1]) []).trans ?_
  rw [List.nil_append, List.length_nil, Nat.cast_zero, sub_zero]

/-- A request, with the number of jobs that it can list at most. -/
def clip (r : JobsListRequest K) : JobsListRequest K :=
  { r with limit := some (if r.limit.getD 50 = 0 then maxJobs else r.limit.getD 50) }

theorem page_clip (r : JobsListRequest K) (jobs : List (ℕ × PrinterJob K)) :
    (clip r).page fileExists jobs =
      (((if decide (r.order.getD "desc".toList = "desc".toList) then jobs.reverse
        else jobs).drop (r.start.getD 0).toNat).take
          (if r.limit.getD 50 = 0 then (maxJobs : ℤ) else r.limit.getD 50).toNat).map fun e =>
        ⟨e.2, jobId e.1, fileExists e.2⟩ := by
  unfold page clip
  simp only [Option.getD_some, decide_eq_true_iff]
  rw [if_neg]
  split_ifs with hlimit
  · exact Int.natCast_ne_zero.2 (by decide)
  · exact hlimit

/-- The jobs within the bounds other than `-1` are listed, and no more than `MAX_JOBS`. -/
theorem handleJobsList_of_ended (h : JobsInOrder s jobs) (hr : r.Valid)
    (hended : given r.before ≠ none → ∀ e ∈ jobs.getLast?, e.2.endTime.isSome = true) :
    s.handleJobsList fileExists r =
      .ok ((matching (given r.since) (given r.before) jobs).length,
        (clip r).page fileExists (matching (given r.since) (given r.before) jobs)) := by
  obtain ⟨m, hm, hmlen, hmspec⟩ := h.since_spec r.since
  obtain ⟨n, hn, hnlen, hnspec⟩ := h.before_spec r.before hended
  have hslice : matching (given r.since) (given r.before) jobs = (jobs.take n).drop m := by
    refine filter_eq_slice fun i hi => ?_
    rw [decide_eq_true_iff]
    exact and_congr (hmspec i hi) (hnspec i hi)
  have hlength : ((jobs.take n).drop m).length = n - m := by
    rw [List.length_drop, List.length_take_of_le hnlen]
  obtain ⟨start, hstart⟩ := Int.eq_ofNat_of_zero_le hr.start
  unfold handleJobsList
  dsimp only
  rw [if_neg (not_and_or.2 (hr.order.imp not_not.2 not_not.2)), hm]
  show (Except.bind _ fun endNum => _) = _
  rw [hn, hslice, page_clip, hstart, Int.toNat_natCast]
  show (if m ≥ n ∨ n = 0 then Except.ok (0, []) else _) = _
  by_cases hempty : m ≥ n ∨ n = 0
  · have hnil : (jobs.take n).drop m = [] := List.eq_nil_of_length_eq_zero (by omega)
    rw [if_pos hempty, hnil]
    simp
  · have hcount : (((n - m : ℕ) : ℤ) - start).toNat = n - m - start := by omega
    rw [if_neg hempty, hcount, h.pageLoop_slice hnlen, hlength]
    rfl

/-- A last job that is running is compared with a bound. -/
theorem handleJobsList_of_running (h : JobsInOrder s jobs) (hr : r.Valid)
    {e : ℕ × PrinterJob K} (he : e ∈ jobs.getLast?) (hrunning : e.2.endTime = none)
    (hbefore : given r.before ≠ none) :
    s.handleJobsList fileExists r = .error .typeError := by
  obtain ⟨m, hm, -, -⟩ := h.since_spec r.since
  obtain ⟨k, hk⟩ : ∃ k, jobs.length = k + 1 :=
    Nat.exists_eq_succ_of_ne_zero fun hzero => by
      rw [List.eq_nil_of_length_eq_zero hzero] at he
      cases he
  have hlast : jobs[k] = e := by
    rw [List.getLast?_eq_getElem?, hk, Nat.add_sub_cancel] at he
    rw [Option.mem_def, List.getElem?_eq_getElem (by omega)] at he
    exact Option.some_inj.1 he
  have hloop : s.beforeLoop (r.before.getD (-1)) (k + 1) = .error .typeError := by
    rw [History.beforeLoop, h.jobAt (by omega : k < jobs.length), hlast]
    show (match e.2.endTime with
      | none => Except.error JobsListError.typeError
      | some endTime => if endTime < r.before.getD (-1) then .ok (k + 1)
        else s.beforeLoop (r.before.getD (-1)) k) = _
    rw [hrunning]
  unfold handleJobsList
  dsimp only
  rw [if_neg (not_and_or.2 (hr.order.imp not_not.2 not_not.2)), hm]
  show (Except.bind _ fun endNum => _) = _
  rw [if_pos (mt given_eq_none_iff.2 hbefore), h.length_cachedJobIds, hk, hloop]
  rfl

theorem Within.given {since before : Option K} {job : PrinterJob K} (h : Within since before job) :
    Within (JobsListRequest.given since) (JobsListRequest.given before) job := by
  have hmem : ∀ {bound : Option K}, ∀ x ∈ JobsListRequest.given bound, x ∈ bound := fun x hx =>
    (Option.filter_eq_some_iff.1 hx).1
  exact ⟨fun x hx => h.1 x (hmem x hx), fun y hy => h.2 y (hmem y hy)⟩

/-- A bound of `-1` leaves out no job if as many jobs are within all bounds. -/
theorem length_matching_eq_iff (since before : Option K) (jobs : List (ℕ × PrinterJob K)) :
    (matching since before jobs).length = (matching (given since) (given before) jobs).length ↔
      ∀ e ∈ jobs, Within (given since) (given before) e.2 → Within since before e.2 := by
  have hfilter : matching since before jobs =
      (matching (given since) (given before) jobs).filter fun e =>
        decide (Within since before e.2) := by
    unfold matching
    rw [List.filter_filter]
    refine List.filter_congr fun e _ => ?_
    rw [Bool.eq_iff_iff, Bool.and_eq_true, decide_eq_true_iff, decide_eq_true_iff]
    exact ⟨fun hw => ⟨hw, Within.given hw⟩, fun hw => hw.1⟩
  rw [hfilter, List.length_filter_eq_length_iff]
  unfold matching
  simp only [List.mem_filter, decide_eq_true_iff, and_imp]

theorem matching_given {since before : Option K} {jobs : List (ℕ × PrinterJob K)}
    (h : ∀ e ∈ jobs, Within (given since) (given before) e.2 → Within since before e.2) :
    matching (given since) (given before) jobs = matching since before jobs := by
  refine List.filter_congr fun e he => ?_
  rw [decide_eq_decide]
  exact ⟨h e he, Within.given⟩

/-- The page without a limit is cut off where it has more than `MAX_JOBS`. -/
theorem page_clip_iff (r : JobsListRequest K) (jobs : List (ℕ × PrinterJob K)) :
    (clip r).page fileExists jobs = r.page fileExists jobs ↔
      (r.limit.getD 50 = 0 → jobs.length ≤ (r.start.getD 0).toNat + maxJobs) := by
  rw [page_clip]
  unfold page
  simp only [decide_eq_true_iff]
  generalize hordered : (if r.order.getD "desc".toList = "desc".toList then jobs.reverse
    else jobs) = ordered
  have hlength : ordered.length = jobs.length := by
    rw [← hordered]
    split_ifs
    · exact List.length_reverse
    · rfl
  by_cases hlimit : r.limit.getD 50 = 0
  · rw [if_pos hlimit, if_pos hlimit, Int.toNat_natCast]
    constructor
    · intro heq _
      have hle := congrArg List.length heq
      rw [List.length_map, List.length_map, List.length_take, List.length_drop] at hle
      omega
    · intro hle
      have hle := hle hlimit
      rw [List.take_of_length_le]
      rw [List.length_drop]
      omega
  · rw [if_neg hlimit, if_neg hlimit]
    exact iff_of_true rfl fun hzero => absurd hzero hlimit

/-- The history lists the jobs of a request just where it can. -/
theorem lists_iff (h : JobsInOrder s jobs) (hr : r.Valid) :
    r.Lists s fileExists jobs ↔ r.Listable jobs := by
  unfold JobsListRequest.Lists
  by_cases hended : given r.before ≠ none → ∀ e ∈ jobs.getLast?, e.2.endTime.isSome = true
  · rw [h.handleJobsList_of_ended hr hended, Except.ok.injEq, Prod.mk.injEq]
    constructor
    · rintro ⟨hlength, hpage⟩
      have hminus := (length_matching_eq_iff r.since r.before jobs).1 hlength.symm
      refine ⟨hended, hminus, ?_⟩
      rw [matching_given hminus] at hpage ⊢
      exact (page_clip_iff r _).1 hpage
    · rintro ⟨-, hminus, hmax⟩
      rw [matching_given hminus] at hmax ⊢
      exact ⟨rfl, (page_clip_iff r _).2 hmax⟩
  · refine iff_of_false ?_ fun hl => hended hl.ended
    push Not at hended
    obtain ⟨hbefore, e, he, hrunning⟩ := hended
    rw [h.handleJobsList_of_running hr he (by simpa using hrunning) hbefore]
    exact nofun

end JobsInOrder

/-! ## A job that is running -/

/-- A job that has ended, and one that is running. -/
def runningJobs : List (ℕ × PrinterJob ℚ) :=
  [(0, ⟨some "a".toList, .completed, 10, some 20, 10, 10, 0⟩),
    (1, ⟨some "b".toList, .inProgress, 30, none, 0, 0, 0⟩)]

/-- The history of these jobs. -/
def runningHistory : History ℚ where
  historyNs id := (runningJobs.find? fun e => jobId e.1 = id).map Prod.snd
  cachedJobIds := runningJobs.map fun e => jobId e.1
  nextJobId := 2
  currentJob := (runningJobs[1]?).map fun e => (jobId e.1, e.2)
  jobTotals := ⟨1, 10, 10, 0, 10, 10⟩
  finished := []

theorem jobsInOrder_runningHistory : JobsInOrder runningHistory runningJobs := by
  refine ⟨rfl, by decide +kernel, by decide +kernel, by decide +kernel, by decide +kernel,
    by decide +kernel, by decide +kernel⟩

/-- All jobs, from the first one on. -/
def allJobs (before : Option ℚ) : JobsListRequest ℚ :=
  ⟨before, none, none, none, some "asc".toList⟩

/-- They are listed. -/
theorem lists_allJobs : (allJobs none).Lists runningHistory (fun _ => true) runningJobs :=
  (jobsInOrder_runningHistory.lists_iff ⟨by decide, by decide, .inl rfl⟩).2
    ⟨fun hne => absurd rfl hne, by decide +kernel, by decide +kernel⟩

/-- Those that ended before a time are not. -/
theorem not_lists_allJobs :
    JobsInOrder runningHistory runningJobs ∧ (allJobs (some 25)).Valid ∧
      runningHistory.handleJobsList (fun _ => true) (allJobs (some 25)) = .error .typeError ∧
      ¬ (allJobs (some 25)).Lists runningHistory (fun _ => true) runningJobs := by
  have hraise : runningHistory.handleJobsList (fun _ => true) (allJobs (some 25)) =
      .error .typeError := by decide +kernel
  refine ⟨jobsInOrder_runningHistory, ⟨by decide, by decide, .inl rfl⟩, hraise, fun h => ?_⟩
  exact absurd (hraise.symm.trans h) nofun

end Thinker
