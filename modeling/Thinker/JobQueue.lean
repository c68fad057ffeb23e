import Thinker.VirtualSd
import Thinker.Transition

/-!
# The job queue

`JobQueue` of `job_queue.py`. A coroutine is cut where it awaits : a `Task` is what is left of one
that waits for the lock, a `Holder` what is left of one that awaits something else while it has the
lock. Timers and the tasks that they create are kept until they run.

The jobs are stored in the order of the dictionary. A job is started only while the last query
allows it, and leaves the queue when it was started or is deleted (`queue_of_reachable`).
-/

set_option linter.unusedSectionVars false

namespace Thinker

/-- A queued job. `jobId` stands for the address of the object, `serial` is not in the code : how
many jobs were queued before. -/
structure QueuedJob where
  filename : Text
  jobId : ℕ
  serial : ℕ
  deriving DecidableEq

/-- `queue_state`. -/
inductive QueueState where
  | ready
  | paused
  | loading
  | starting
  deriving DecidableEq

namespace JobQueue

/-- What a query of the print stats gives. -/
inductive QueryResult where
  | failed
  | noStats
  | stats (state : Text)
  deriving DecidableEq

/-- `_check_can_print` on this result. -/
def QueryResult.canPrint : QueryResult → Bool
  | .failed | .noStats => false
  | .stats state => state ≠ "printing".toList ∧ state ≠ "paused".toList

/-- How a call to Klippy ends : with a result, a server error or another exception. -/
inductive Outcome where
  | ok
  | serverError
  | otherError
  deriving DecidableEq

/-- A handler that needs the lock. The ids of the jobs of `queueJob` are those that they get, and
`missing` is whether a file that is checked does not exist. -/
inductive Task where
  | handleReady
  | handleShutdown
  | onJobComplete
  | onJobAbort
  | popJob (needTransition : Bool)
  | queueJob (jobs : List (Text × ℕ)) (missing reset : Bool)
  | deleteJob (jobIds : List ℕ) (all : Bool)
  | pauseQueue
  | startQueue
  | handleJump (jobId : ℕ)
  deriving DecidableEq

/-- Whether a task is `_pop_job`. -/
def Task.isPop : Task → Bool
  | .popJob _ => true
  | _ => false

/-- What a coroutine awaits while it has the lock : `_pop_job` the print stats, the transition
g-code or the start of the print, and `start_queue` the print stats. -/
inductive Holder where
  | checking (job : QueuedJob) (needTransition : Bool)
  | transition (job : QueuedJob)
  | starting (job : QueuedJob)
  | startQueue
  deriving DecidableEq

/-- The job of `_pop_job`. -/
def Holder.job : Holder → Option QueuedJob
  | .checking job _ | .transition job | .starting job => some job
  | .startQueue => none

/-- A timer that will create a task of `_pop_job`. -/
structure Timer where
  id : ℕ
  needTransition : Bool
  deriving DecidableEq

/-- A call of `start_print`, with the first job of the queue, the last query and whether the queue
was held at that time. -/
structure Issue where
  job : QueuedJob
  first : Option QueuedJob
  lastQuery : Option QueryResult
  held : Bool
  deriving DecidableEq

end JobQueue

open JobQueue in
/-- `JobQueue`. The lock is `holder` and `waiters`, the event loop has the timers `scheduled` and
the tasks `fired` of `_pop_job` that did not begin. From `lastQuery` on the fields are not in the
code : `held` is whether `pause_queue` was called and nothing that may start the queue came after
it. -/
structure JobQueue where
  loadOnStart : Bool
  automatic : Bool
  hasTransitionGcode : Bool
  queuedJobs : List QueuedJob
  queueState : QueueState
  popQueueHandle : Option ℕ
  holder : Option Holder
  waiters : List Task
  scheduled : List JobQueue.Timer
  fired : List Bool
  nextTimer : ℕ
  lastQuery : Option JobQueue.QueryResult
  held : Bool
  issued : List Issue
  started : List ℕ
  deleted : List ℕ
  nextSerial : ℕ
  deriving DecidableEq

namespace JobQueue

variable (s : JobQueue)

/-- `delay_callback` of `_pop_job`. -/
def delayPop (needTransition : Bool) : JobQueue :=
  { s with
    scheduled := s.scheduled ++ [⟨s.nextTimer, needTransition⟩]
    popQueueHandle := some s.nextTimer
    nextTimer := s.nextTimer + 1 }

/-- `"ready" if self.automatic else "paused"`. -/
def idleState : QueueState :=
  if s.automatic then .ready else .paused

/-! ## Handlers with the lock -/

/-- `_handle_ready`. -/
def handleReady : JobQueue :=
  if s.loadOnStart = false ∨ s.queuedJobs = [] then s
  else if s.queueState = .ready ∨ s.queueState = .paused then
    ({ s with queueState := .loading } : JobQueue).delayPop false
  else s

/-- `_handle_shutdown`, after `pause_queue`. -/
def handleShutdown : JobQueue :=
  if s.queuedJobs = [] ∧ s.automatic = true then { s with queueState := .ready, held := false }
  else s

/-- `_on_job_complete`. -/
def onJobComplete : JobQueue :=
  if s.queueState = .ready ∧ s.queuedJobs ≠ [] then
    ({ s with queueState := .loading } : JobQueue).delayPop true
  else s

/-- `_on_job_abort`. -/
def onJobAbort : JobQueue :=
  if s.queuedJobs ≠ [] then { s with queueState := .paused } else s

/-- `_pop_job`, to the query. -/
def popJob (needTransition : Bool) : JobQueue :=
  if s.queueState = .paused then s
  else
    match s.queuedJobs with
    | [] => { s with queueState := s.idleState }
    | job :: _ => { s with holder := some (.checking job needTransition) }

/-- Jobs with the numbers from `n` on. -/
def newJobs (n : ℕ) : List (Text × ℕ) → List QueuedJob
  | [] => []
  | (filename, jobId) :: jobs => ⟨filename, jobId, n⟩ :: newJobs (n + 1) jobs

/-- `queue_job`. -/
def queueJob (jobs : List (Text × ℕ)) (missing reset : Bool) : JobQueue :=
  if missing = true then s
  else
    { s with
      queuedJobs := (if reset = true then [] else s.queuedJobs) ++ newJobs s.nextSerial jobs
      deleted := s.deleted ++ if reset = true then s.queuedJobs.map QueuedJob.serial else []
      nextSerial := s.nextSerial + jobs.length }

/-- `delete_job`. -/
def deleteJob (jobIds : List ℕ) (all : Bool) : JobQueue :=
  { s with
    queuedJobs := s.queuedJobs.filter fun job => !(all || decide (job.jobId ∈ jobIds))
    deleted := s.deleted ++
      (s.queuedJobs.filter fun job => all || decide (job.jobId ∈ jobIds)).map QueuedJob.serial }

/-- `start_queue`, to the query. -/
def startQueue : JobQueue :=
  if s.queueState = .loading then s
  else if s.queuedJobs = [] then { s with queueState := s.idleState }
  else { s with holder := some .startQueue }

/-- `_handle_jump`. -/
def handleJump (jobId : ℕ) : JobQueue :=
  match s.queuedJobs.find? fun job => job.jobId = jobId with
  | none => s
  | some job => { s with queuedJobs := job :: s.queuedJobs.erase job }

/-- A task that gets the lock runs to its end or its next `await`. -/
def body : Task → JobQueue
  | .handleReady => s.handleReady
  | .handleShutdown => s.handleShutdown
  | .onJobComplete => s.onJobComplete
  | .onJobAbort => s.onJobAbort
  | .popJob needTransition => s.popJob needTransition
  | .queueJob jobs missing reset => s.queueJob jobs missing reset
  | .deleteJob jobIds all => s.deleteJob jobIds all
  | .pauseQueue => s
  | .startQueue => s.startQueue
  | .handleJump jobId => s.handleJump jobId

/-- The objects of new jobs are not those of other jobs. -/
def Allocates : Task → Prop
  | .queueJob jobs false reset =>
    (jobs.map Prod.snd).Nodup ∧
      (reset = false → ∀ job ∈ s.queuedJobs, job.jobId ∉ jobs.map Prod.snd)
  | _ => True

instance (t : Task) : Decidable (s.Allocates t) := by
  unfold Allocates
  split <;> infer_instance

/-- A task that gets the lock. -/
def locked (t : Task) : Option JobQueue :=
  if s.Allocates t then some (s.body t) else none

/-! ## Handlers before they have the lock -/

/-- `pause_queue`, to the lock. -/
def pauseQueue : JobQueue :=
  { s with
    queueState := .paused
    scheduled := s.scheduled.filter fun timer => s.popQueueHandle ≠ some timer.id
    popQueueHandle := none
    held := true }

/-- What a handler does before it needs the lock. -/
def enter : Task → JobQueue
  | .pauseQueue | .handleShutdown => s.pauseQueue
  | .startQueue => { s with held := false }
  | .handleReady => { s with held := s.held && !s.loadOnStart }
  | _ => s

/-- `acquire`. The lock goes to those that wait in their order. -/
def acquire (t : Task) : Option JobQueue :=
  if s.holder = none ∧ s.waiters = [] then s.locked t
  else some { s with waiters := s.waiters ++ [t] }

/-! ## After an `await` with the lock -/

/-- `_set_queue_state`, at the end of a coroutine that has the lock. -/
def release (state : QueueState) : JobQueue :=
  { s with queueState := state, holder := none }

/-- The call of `start_print`. -/
def startPrint (job : QueuedJob) : JobQueue :=
  { s with
    queueState := .starting
    holder := some (.starting job)
    issued := s.issued ++ [⟨job, s.queuedJobs.head?, s.lastQuery, s.held⟩] }

/-- `_pop_job` after the query. -/
def popChecked (job : QueuedJob) (needTransition : Bool) (result : QueryResult) : JobQueue :=
  if result.canPrint = false ∨ s.queueState ≠ .loading then s.release .paused
  else if s.hasTransitionGcode = true ∧ needTransition = true then
    { s with holder := some (.transition job) }
  else s.startPrint job

/-- `_pop_job` after the transition g-code. -/
def popTransitioned (job : QueuedJob) : Outcome → JobQueue
  | .ok => if s.queueState = .loading then s.startPrint job else s.release .paused
  | .serverError => s.release .paused
  | .otherError => s.release s.queueState

/-- `_pop_job` after `start_print`. -/
def popStarted (job : QueuedJob) : Outcome → JobQueue
  | .ok =>
    let queuedJobs := s.queuedJobs.eraseP fun j => j.jobId = job.jobId
    { s with
      queuedJobs := queuedJobs
      started := s.started ++ [job.serial]
      queueState :=
        if s.queueState = .starting then
          if queuedJobs = [] ∨ s.automatic = true then .ready else .paused
        else s.queueState
      holder := none }
  | .serverError => s.release .paused
  | .otherError => s.release s.queueState

/-- `start_queue` after the query. -/
def startChecked (result : QueryResult) : JobQueue :=
  if result.canPrint = true then (s.release .loading).delayPop false
  else s.release s.idleState

/-! ## Runs -/

/-- What may happen next : a handler is called, the first task that waits gets the lock, a timer
fires or the first task that one created begins, or what is awaited with the lock comes. -/
inductive Event where
  | call (t : Task)
  | grant
  | fire (timer : Timer)
  | begin
  | queried (result : QueryResult)
  | transitioned (outcome : Outcome)
  | printStarted (outcome : Outcome)
  deriving DecidableEq

/-- The state after an event. -/
def next : Event → Option JobQueue
  | .call t =>
    if t.isPop = true then none
    else if t = .onJobComplete ∧ s.automatic = false then some s
    else (s.enter t).acquire t
  | .grant =>
    match s.holder, s.waiters with
    | none, t :: waiters => ({ s with waiters := waiters } : JobQueue).locked t
    | _, _ => none
  | .fire timer =>
    if timer ∈ s.scheduled then
      some { s with
        scheduled := s.scheduled.erase timer
        fired := s.fired ++ [timer.needTransition] }
    else none
  | .begin =>
    match s.fired with
    | needTransition :: fired =>
      ({ s with fired := fired, popQueueHandle := none } : JobQueue).acquire (.popJob needTransition)
    | [] => none
  | .queried result =>
    match s.holder with
    | some (.checking job needTransition) =>
      some (({ s with lastQuery := some result } : JobQueue).popChecked job needTransition result)
    | some .startQueue =>
      some (({ s with lastQuery := some result } : JobQueue).startChecked result)
    | _ => none
  | .transitioned outcome =>
    match s.holder with
    | some (.transition job) => some (s.popTransitioned job outcome)
    | _ => none
  | .printStarted outcome =>
    match s.holder with
    | some (.starting job) => some (s.popStarted job outcome)
    | _ => none

/-- The queue once it is loaded. -/
structure Starts (s : JobQueue) : Prop where
  queuedJobs : s.queuedJobs = []
  queueState : s.queueState = s.idleState
  popQueueHandle : s.popQueueHandle = none
  holder : s.holder = none
  waiters : s.waiters = []
  scheduled : s.scheduled = []
  fired : s.fired = []
  held : s.held = false
  issued : s.issued = []
  started : s.started = []
  deleted : s.deleted = []
  nextSerial : s.nextSerial = 0

/-- The queue, from the time that it is loaded. -/
def system : System JobQueue Event where
  init := Starts
  next := next

end JobQueue

end Thinker
