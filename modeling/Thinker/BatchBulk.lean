import Thinker.Transition
import Mathlib.Tactic

/-!
# Clients of a bulk sensor

Clients register with a helper that starts the sensor for the first one, collects its data with a
timer, hands each batch to every client, and stops the sensor when the last client asks to be
removed. The callbacks that start and stop the sensor and collect its data query a micro-controller
: clients may register while one of them is suspended, and each may raise an error.

A task is a callback that is suspended. `Inv` says that there is at most one, and what the flag, the
timer and the list of clients are while it is there. The history of a run gives the clients that are
to be served (`live`); the list is always that.
-/

namespace Thinker

namespace BatchBulk

/-- A callback that is suspended. -/
inductive Task
  /-- `start_cb`, called for a client that registers or at the end of a stop. -/
  | starting (client : Option ℕ)
  /-- `batch_cb`, called from a timer. -/
  | batching (timer : ℕ)
  /-- `stop_cb`. -/
  | stopping
deriving DecidableEq, Repr

/-- What is seen of a run. -/
inductive Entry
  /-- `start_cb` is called. -/
  | startCalled
  /-- It returns. -/
  | startReturned
  /-- It raises an error. -/
  | startFailed
  /-- `stop_cb` is called. -/
  | stopCalled
  /-- It returns. -/
  | stopReturned
  /-- It raises an error. -/
  | stopFailed
  /-- `batch_cb` raises an error. -/
  | batchFailed
  /-- A batch is handed to clients, of which some ask to be removed. -/
  | delivered (called removed : List ℕ)
  /-- A client is appended to the list. -/
  | added (client : ℕ)
  /-- `add_client` returns. -/
  | addReturned (client : ℕ)
  /-- `add_client` raises an error. -/
  | addRaised (client : ℕ)
deriving DecidableEq, Repr

/-- The outcome of `batch_cb`. -/
inductive BatchResult
  /-- It raises an error. -/
  | error
  /-- There is no message. -/
  | empty
  /-- There is a message, and some clients want more. -/
  | msg (keep : ℕ → Bool)

/-- `BatchBulkHelper`, the timers of the reactor, and the callbacks that are suspended. -/
structure World where
  isStarted : Bool
  batchTimer : Option ℕ
  clientCbs : List ℕ
  /-- The timers that are registered. -/
  timers : List ℕ
  /-- The timers that will fire. -/
  armed : List ℕ
  /-- The callbacks that are suspended. -/
  tasks : List Task
  nextTimer : ℕ
  nextClient : ℕ
  /-- A timer was unregistered that is not registered. -/
  failed : Bool
  /-- What was seen, the last first. -/
  log : List Entry
deriving DecidableEq, Repr

/-- A helper is created. -/
def init : World :=
  ⟨false, none, [], [], [], [], 0, 0, false, []⟩

/-- The clients of a batch in turn : those called, those that remain, and whether the last one asked
to be removed. -/
def deliver (keep : ℕ → Bool) : List ℕ → List ℕ → List ℕ × List ℕ × Bool
  | [], clients => ([], clients, false)
  | c :: cs, clients =>
    if keep c then
      let rest := deliver keep cs clients
      (c :: rest.1, rest.2)
    else if clients.erase c = [] then ([c], [], true)
    else
      let rest := deliver keep cs (clients.erase c)
      (c :: rest.1, rest.2)

namespace World

variable (w : World)

/-- `_start`, up to the call of `start_cb`. -/
def start (client : Option ℕ) : World :=
  if w.isStarted then { w with log := (client.map .addReturned).toList ++ w.log }
  else
    { w with
      isStarted := true
      tasks := .starting client :: w.tasks
      log := .startCalled :: w.log }

/-- `_start`, after `start_cb`. -/
def startDone (client : Option ℕ) (ok : Bool) : World :=
  let tasks := w.tasks.erase (.starting client)
  if ok then
    { w with
      tasks := tasks
      timers := w.nextTimer :: w.timers
      armed := w.nextTimer :: w.armed
      batchTimer := some w.nextTimer
      nextTimer := w.nextTimer + 1
      log := (client.map .addReturned).toList ++ .startReturned :: w.log }
  else
    { w with
      tasks := tasks
      isStarted := false
      clientCbs := []
      log := (client.map .addRaised).toList ++ .startFailed :: w.log }

/-- `reactor.unregister_timer(self.batch_timer)`. -/
def unregister : World :=
  match w.batchTimer with
  | none => { w with failed := true }
  | some t =>
    if t ∈ w.timers then { w with timers := w.timers.erase t, armed := w.armed.erase t }
    else { w with failed := true }

/-- `_stop`, up to the call of `stop_cb`. -/
def stop : World :=
  let w := { { w with clientCbs := [] }.unregister with batchTimer := none }
  if w.isStarted then { w with tasks := .stopping :: w.tasks, log := .stopCalled :: w.log } else w

/-- `_stop`, after `stop_cb`. -/
def stopDone (ok : Bool) : World :=
  let w := { w with tasks := w.tasks.erase .stopping, isStarted := false }
  let w := if ok then { w with log := .stopReturned :: w.log }
    else { w with clientCbs := [], log := .stopFailed :: w.log }
  if w.clientCbs = [] then w else w.start none

/-- The handler of a timer returns the time to fire again. -/
def rearm (t : ℕ) : World :=
  if t ∈ w.timers then { w with armed := t :: w.armed } else w

/-- `_proc_batch`, after `batch_cb`. -/
def batchDone (t : ℕ) (result : BatchResult) : World :=
  let w := { w with tasks := w.tasks.erase (.batching t) }
  match result with
  | .error => { w with log := .batchFailed :: w.log }.stop
  | .empty => w.rearm t
  | .msg keep =>
    let out := deliver keep w.clientCbs w.clientCbs
    let w := { w with
      clientCbs := out.2.1
      log := .delivered out.1 (out.1.filter fun c => !keep c) :: w.log }
    if out.2.2 then w.stop else w.rearm t

/-- `add_client` for a new client. -/
def addClient : World :=
  { w with
    clientCbs := w.clientCbs ++ [w.nextClient]
    nextClient := w.nextClient + 1
    log := .added w.nextClient :: w.log }.start (some w.nextClient)

end World

/-- What may happen. -/
inductive Event
  /-- A client registers. -/
  | addClient
  /-- A timer fires, and `batch_cb` is called. -/
  | fire (timer : ℕ)
  /-- `start_cb` ends. -/
  | startDone (client : Option ℕ) (ok : Bool)
  /-- `stop_cb` ends. -/
  | stopDone (ok : Bool)
  /-- `batch_cb` ends. -/
  | batchDone (timer : ℕ) (result : BatchResult)

/-- Callbacks end while they are suspended, and timers fire while they are due. -/
def next (w : World) : Event → Option World
  | .addClient => some w.addClient
  | .fire t =>
    if t ∈ w.armed then
      some { w with armed := w.armed.erase t, tasks := .batching t :: w.tasks }
    else none
  | .startDone client ok =>
    if .starting client ∈ w.tasks then some (w.startDone client ok) else none
  | .stopDone ok => if .stopping ∈ w.tasks then some (w.stopDone ok) else none
  | .batchDone t result => if .batching t ∈ w.tasks then some (w.batchDone t result) else none

/-- A helper with its clients. -/
def system : System World Event :=
  ⟨(· = init), next⟩

/-! ## What a history says -/

/-- The clients that are to be served. -/
def live : List Entry → List ℕ
  | [] => []
  | .added c :: l => live l ++ [c]
  | .delivered _ removed :: l => (live l).filter fun c => c ∉ removed
  | .startFailed :: _ => []
  | .stopFailed :: _ => []
  | .batchFailed :: _ => []
  | .startCalled :: l => live l
  | .startReturned :: l => live l
  | .stopCalled :: l => live l
  | .stopReturned :: l => live l
  | .addReturned _ :: l => live l
  | .addRaised _ :: l => live l

/-- What the callbacks have done with the sensor. -/
inductive Sensor
  /-- It is not running. -/
  | off
  /-- `start_cb` is running. -/
  | starting
  /-- It is running. -/
  | on
  /-- `stop_cb` is running. -/
  | stopping
deriving DecidableEq, Repr

/-- The sensor after a history. -/
def sensor : List Entry → Sensor
  | [] => .off
  | .startCalled :: _ => .starting
  | .startReturned :: _ => .on
  | .startFailed :: _ => .off
  | .stopCalled :: _ => .stopping
  | .stopReturned :: _ => .off
  | .stopFailed :: _ => .off
  | .batchFailed :: l => sensor l
  | .delivered _ _ :: l => sensor l
  | .added _ :: l => sensor l
  | .addReturned _ :: l => sensor l
  | .addRaised _ :: l => sensor l

/-- What ends the session of a client, or the client itself. -/
def Ends (c : ℕ) (e : Entry) : Prop :=
  e = .startFailed ∨ e = .stopFailed ∨ e = .batchFailed ∨
    ∃ called removed, e = .delivered called removed ∧ c ∈ removed

/-- `add_client` has returned for a client, and nothing since it was added ended its session. -/
def Entitled (l : List Entry) (c : ℕ) : Prop :=
  .addReturned c ∈ l ∧ ∃ after before, l = after ++ .added c :: before ∧ ∀ e ∈ after, ¬Ends c e

theorem mem_live_append {c : ℕ} {after before : List Entry} (h : c ∈ live before)
    (hends : ∀ e ∈ after, ¬Ends c e) : c ∈ live (after ++ before) := by
  induction after with
  | nil => exact h
  | cons e after ih =>
    have ih := ih fun e he => hends e (List.mem_cons_of_mem _ he)
    have hend := hends e List.mem_cons_self
    cases e with
    | added c' => exact List.mem_append_left _ ih
    | delivered called removed =>
      refine List.mem_filter.2 ⟨ih, ?_⟩
      simpa using fun hc => hend (.inr (.inr (.inr ⟨called, removed, rfl, hc⟩)))
    | startFailed => exact absurd (.inl rfl) hend
    | stopFailed => exact absurd (.inr (.inl rfl)) hend
    | batchFailed => exact absurd (.inr (.inr (.inl rfl))) hend
    | startCalled => exact ih
    | startReturned => exact ih
    | stopCalled => exact ih
    | stopReturned => exact ih
    | addReturned => exact ih
    | addRaised => exact ih

/-- A client that is entitled to batches is to be served. -/
theorem Entitled.mem_live {l : List Entry} {c : ℕ} (h : Entitled l c) : c ∈ live l := by
  obtain ⟨-, after, before, rfl, hends⟩ := h
  exact mem_live_append (List.mem_append_right _ (List.mem_singleton_self c)) hends

/-! ## One batch -/

theorem filter_erase_cons {keep : ℕ → Bool} {done cs : List ℕ} {c : ℕ}
    (h : (done ++ c :: cs).Nodup) :
    (done.filter keep ++ c :: cs).erase c = done.filter keep ++ cs := by
  have hc : c ∉ done.filter keep := fun hc =>
    (List.nodup_append.1 h).2.2 c (List.mem_filter.1 hc).1 c List.mem_cons_self rfl
  rw [List.erase_append_right _ hc, List.erase_cons_head]

/-- Every client is called in its turn, and those remain that want more. -/
theorem deliver_eq {keep : ℕ → Bool} {done cs : List ℕ} (h : (done ++ cs).Nodup) :
    (deliver keep cs (done.filter keep ++ cs)).1 = cs ∧
      (deliver keep cs (done.filter keep ++ cs)).2.1 = (done ++ cs).filter keep ∧
      ((deliver keep cs (done.filter keep ++ cs)).2.2 = true ↔
        cs ≠ [] ∧ (done ++ cs).filter keep = []) := by
  induction cs generalizing done with
  | nil => simp [deliver]
  | cons c cs ih =>
    have happend : done ++ c :: cs = done ++ [c] ++ cs := by simp
    by_cases hc : keep c = true
    · have hdone : (done ++ [c]).filter keep = done.filter keep ++ [c] := by simp [hc]
      obtain ⟨hcalled, hclients, hstop⟩ := ih (happend ▸ h)
      rw [hdone, List.append_assoc, List.singleton_append] at hcalled hclients hstop
      rw [deliver, if_pos hc, happend]
      refine ⟨congrArg _ hcalled, hclients, hstop.trans ?_⟩
      have hne : (done ++ [c] ++ cs).filter keep ≠ [] := by simp [hc]
      exact iff_of_false (fun hs => hne hs.2) fun hs => hne hs.2
    · have hdone : (done ++ [c]).filter keep = done.filter keep := by simp [hc]
      have herase : (done.filter keep ++ c :: cs).erase c = done.filter keep ++ cs :=
        filter_erase_cons h
      rw [deliver, if_neg hc, herase]
      by_cases hempty : done.filter keep ++ cs = []
      · obtain ⟨hnone, rfl⟩ := List.append_eq_nil_iff.1 hempty
        rw [if_pos hempty]
        have hall : (done ++ [c]).filter keep = [] := hdone.trans hnone
        exact ⟨rfl, hall.symm, by simp [hall]⟩
      · obtain ⟨hcalled, hclients, hstop⟩ := ih (happend ▸ h)
        rw [hdone] at hcalled hclients hstop
        rw [if_neg hempty, happend]
        refine ⟨congrArg _ hcalled, hclients, hstop.trans ?_⟩
        refine ⟨fun hs => ⟨List.cons_ne_nil _ _, hs.2⟩, fun hs => ⟨?_, hs.2⟩⟩
        rintro rfl
        exact hempty (by simpa [hdone] using hs.2)

theorem deliver_all (keep : ℕ → Bool) {clients : List ℕ} (h : clients.Nodup) :
    (deliver keep clients clients).1 = clients ∧
      (deliver keep clients clients).2.1 = clients.filter keep ∧
      ((deliver keep clients clients).2.2 = true ↔ clients ≠ [] ∧ clients.filter keep = []) := by
  have hnil : ([] ++ clients).Nodup := h
  simpa using deliver_eq hnil

/-! ## Invariants -/

/-- The state but for the clients and what was seen. -/
structure Shape (w : World) (started : Bool) (timer : Option ℕ) (armed : List ℕ)
    (tasks : List Task) : Prop where
  isStarted : w.isStarted = started
  batchTimer : w.batchTimer = timer
  timers : w.timers = timer.toList
  armed : w.armed = armed
  tasks : w.tasks = tasks

/-- At most one callback is suspended, and the flag and the timer agree with it. -/
inductive Phase (w : World) : Prop
  | idle (h : Shape w false none [] []) (hs : sensor w.log = .off) (hc : w.clientCbs = [])
  | waiting (t : ℕ) (h : Shape w true (some t) [t] []) (hs : sensor w.log = .on)
      (hc : w.clientCbs ≠ [])
  | batching (t : ℕ) (h : Shape w true (some t) [] [.batching t]) (hs : sensor w.log = .on)
      (hc : w.clientCbs ≠ [])
  | starting (client : Option ℕ) (h : Shape w true none [] [.starting client])
      (hs : sensor w.log = .starting) (hc : w.clientCbs ≠ [])
  | stopping (h : Shape w true none [] [.stopping]) (hs : sensor w.log = .stopping)

/-- What may be seen after a history : the sensor is started while it is off and stopped while it is
on, and a batch is handed to the clients that are to be served. -/
def Proper (l : List Entry) : Entry → Prop
  | .startCalled => sensor l = .off
  | .stopCalled => sensor l = .on
  | .delivered called _ => called = live l
  | _ => True

/-- All that was seen is as it should be. -/
def Seen (log : List Entry) : Prop :=
  ∀ e l, (e :: l) <:+ log → Proper l e

/-- The list holds the clients that are to be served. -/
structure Clients (w : World) : Prop where
  live : w.clientCbs = live w.log
  nodup : w.clientCbs.Nodup
  fresh : ∀ c ∈ w.clientCbs, c < w.nextClient

/-- What a run keeps. -/
structure Inv (w : World) : Prop where
  phase : Phase w
  clients : Clients w
  seen : Seen w.log
  failed : w.failed = false

theorem Seen.cons {log : List Entry} {e : Entry} (h : Seen log) (he : Proper log e) :
    Seen (e :: log) := by
  intro e' l hl
  rcases List.suffix_cons_iff.1 hl with heq | hl
  · obtain ⟨rfl, rfl⟩ := List.cons.inj heq
    exact he
  · exact h e' l hl

/-- The result of `add_client` says nothing about the sensor or the clients to be served. -/
theorem sensor_result (f : ℕ → Entry) (hf : f = .addReturned ∨ f = .addRaised) (client : Option ℕ)
    (log : List Entry) : sensor ((client.map f).toList ++ log) = sensor log ∧
      live ((client.map f).toList ++ log) = live log ∧
      (Seen log → Seen ((client.map f).toList ++ log)) := by
  cases client with
  | none => exact ⟨rfl, rfl, id⟩
  | some c =>
    rcases hf with rfl | rfl
    · exact ⟨rfl, rfl, fun h => h.cons trivial⟩
    · exact ⟨rfl, rfl, fun h => h.cons trivial⟩

theorem Inv.init : Inv init where
  phase := .idle ⟨rfl, rfl, rfl, rfl, rfl⟩ rfl rfl
  clients := ⟨rfl, List.nodup_nil, by simp [BatchBulk.init]⟩
  seen := fun e l hl => absurd (List.eq_nil_of_suffix_nil hl) (List.cons_ne_nil _ _)
  failed := rfl

variable {w : World}

/-- A start while the sensor is off. -/
theorem start_of_idle {client : Option ℕ} (h : Shape w false none [] []) (hs : sensor w.log = .off)
    (hc : w.clientCbs ≠ []) (hclients : Clients w) (hseen : Seen w.log) (hf : w.failed = false) :
    Inv (w.start client) := by
  rw [World.start, if_neg (by rw [h.isStarted]; exact Bool.false_ne_true)]
  exact {
    phase := .starting client ⟨rfl, h.batchTimer, h.timers, h.armed, by rw [h.tasks]⟩ rfl hc
    clients := ⟨hclients.live, hclients.nodup, hclients.fresh⟩
    seen := hseen.cons hs
    failed := hf }

theorem Clients.addClient (h : Clients w) :
    Clients { w with
      clientCbs := w.clientCbs ++ [w.nextClient]
      nextClient := w.nextClient + 1
      log := .added w.nextClient :: w.log } where
  live := by rw [BatchBulk.live, h.live]
  nodup := by
    refine List.Nodup.append h.nodup (List.nodup_singleton _) fun c hc hc' => ?_
    exact absurd (h.fresh c hc) (by rw [List.mem_singleton.1 hc']; exact lt_irrefl _)
  fresh c hc := by
    rcases List.mem_append.1 hc with hc | hc
    · exact Nat.lt_succ_of_lt (h.fresh c hc)
    · rw [List.mem_singleton.1 hc]
      exact Nat.lt_succ_self _

theorem Inv.addClient (h : Inv w) : Inv w.addClient := by
  have hclients := h.clients.addClient
  have hseen : Seen (.added w.nextClient :: w.log) := h.seen.cons trivial
  have hne : w.clientCbs ++ [w.nextClient] ≠ [] := by simp
  -- the sensor is not off : the client is appended and `add_client` returns
  have hstarted (hon : w.isStarted = true) : w.addClient = { w with
      clientCbs := w.clientCbs ++ [w.nextClient]
      nextClient := w.nextClient + 1
      log := .addReturned w.nextClient :: .added w.nextClient :: w.log } := by
    rw [World.addClient, World.start, if_pos hon]
    rfl
  cases h.phase with
  | idle hshape hs hc =>
    exact start_of_idle ⟨hshape.isStarted, hshape.batchTimer, hshape.timers, hshape.armed,
      hshape.tasks⟩ hs hne hclients hseen h.failed
  | waiting t hshape hs hc =>
    rw [hstarted hshape.isStarted]
    exact {
      phase := .waiting t ⟨hshape.isStarted, hshape.batchTimer, hshape.timers, hshape.armed,
        hshape.tasks⟩ hs hne
      clients := ⟨hclients.live, hclients.nodup, hclients.fresh⟩
      seen := hseen.cons trivial
      failed := h.failed }
  | batching t hshape hs hc =>
    rw [hstarted hshape.isStarted]
    exact {
      phase := .batching t ⟨hshape.isStarted, hshape.batchTimer, hshape.timers, hshape.armed,
        hshape.tasks⟩ hs hne
      clients := ⟨hclients.live, hclients.nodup, hclients.fresh⟩
      seen := hseen.cons trivial
      failed := h.failed }
  | starting client hshape hs hc =>
    rw [hstarted hshape.isStarted]
    exact {
      phase := .starting client ⟨hshape.isStarted, hshape.batchTimer, hshape.timers, hshape.armed,
        hshape.tasks⟩ hs hne
      clients := ⟨hclients.live, hclients.nodup, hclients.fresh⟩
      seen := hseen.cons trivial
      failed := h.failed }
  | stopping hshape hs =>
    rw [hstarted hshape.isStarted]
    exact {
      phase := .stopping ⟨hshape.isStarted, hshape.batchTimer, hshape.timers, hshape.armed,
        hshape.tasks⟩ hs
      clients := ⟨hclients.live, hclients.nodup, hclients.fresh⟩
      seen := hseen.cons trivial
      failed := h.failed }

/-- The phase tells which callbacks may end. -/
theorem Phase.of_batching {t : ℕ} (h : Phase w) (ht : .batching t ∈ w.tasks) :
    Shape w true (some t) [] [.batching t] ∧ sensor w.log = .on ∧ w.clientCbs ≠ [] := by
  cases h with
  | idle hshape hs hc => simp [hshape.tasks] at ht
  | waiting t' hshape hs hc => simp [hshape.tasks] at ht
  | batching t' hshape hs hc =>
    obtain rfl : t = t' := by simpa [hshape.tasks] using ht
    exact ⟨hshape, hs, hc⟩
  | starting client hshape hs hc => simp [hshape.tasks] at ht
  | stopping hshape hs => simp [hshape.tasks] at ht

theorem Phase.of_starting {client : Option ℕ} (h : Phase w) (ht : .starting client ∈ w.tasks) :
    Shape w true none [] [.starting client] ∧ sensor w.log = .starting ∧ w.clientCbs ≠ [] := by
  cases h with
  | idle hshape hs hc => simp [hshape.tasks] at ht
  | waiting t' hshape hs hc => simp [hshape.tasks] at ht
  | batching t' hshape hs hc => simp [hshape.tasks] at ht
  | starting client' hshape hs hc =>
    obtain rfl : client = client' := by simpa [hshape.tasks] using ht
    exact ⟨hshape, hs, hc⟩
  | stopping hshape hs => simp [hshape.tasks] at ht

theorem Phase.of_stopping (h : Phase w) (ht : .stopping ∈ w.tasks) :
    Shape w true none [] [.stopping] ∧ sensor w.log = .stopping := by
  cases h with
  | idle hshape hs hc => simp [hshape.tasks] at ht
  | waiting t' hshape hs hc => simp [hshape.tasks] at ht
  | batching t' hshape hs hc => simp [hshape.tasks] at ht
  | starting client' hshape hs hc => simp [hshape.tasks] at ht
  | stopping hshape hs => exact ⟨hshape, hs⟩

theorem Phase.of_armed {t : ℕ} (h : Phase w) (ht : t ∈ w.armed) :
    Shape w true (some t) [t] [] ∧ sensor w.log = .on ∧ w.clientCbs ≠ [] := by
  cases h with
  | idle hshape hs hc => simp [hshape.armed] at ht
  | waiting t' hshape hs hc =>
    obtain rfl : t = t' := by simpa [hshape.armed] using ht
    exact ⟨hshape, hs, hc⟩
  | batching t' hshape hs hc => simp [hshape.armed] at ht
  | starting client hshape hs hc => simp [hshape.armed] at ht
  | stopping hshape hs => simp [hshape.armed] at ht

/-- When no callback is suspended, the helper waits for its timer or has nothing to do. -/
theorem Phase.of_nil (h : Phase w) (ht : w.tasks = []) :
    (Shape w false none [] [] ∧ w.clientCbs = []) ∨
      ∃ t, Shape w true (some t) [t] [] ∧ w.clientCbs ≠ [] := by
  cases h with
  | idle hshape hs hc => exact .inl ⟨hshape, hc⟩
  | waiting t hshape hs hc => exact .inr ⟨t, hshape, hc⟩
  | batching t hshape hs hc => exact absurd (hshape.tasks.symm.trans ht) (List.cons_ne_nil _ _)
  | starting client hshape hs hc =>
    exact absurd (hshape.tasks.symm.trans ht) (List.cons_ne_nil _ _)
  | stopping hshape hs => exact absurd (hshape.tasks.symm.trans ht) (List.cons_ne_nil _ _)

theorem Inv.fire {t : ℕ} (h : Inv w) (ht : t ∈ w.armed) :
    Inv { w with armed := w.armed.erase t, tasks := .batching t :: w.tasks } := by
  obtain ⟨hshape, hs, hc⟩ := h.phase.of_armed ht
  exact {
    phase := .batching t ⟨hshape.isStarted, hshape.batchTimer, hshape.timers,
      by rw [hshape.armed, List.erase_cons_head], by rw [hshape.tasks]⟩ hs hc
    clients := ⟨h.clients.live, h.clients.nodup, h.clients.fresh⟩
    seen := h.seen
    failed := h.failed }

theorem Inv.startDone {client : Option ℕ} (h : Inv w) (ht : .starting client ∈ w.tasks)
    (ok : Bool) : Inv (w.startDone client ok) := by
  obtain ⟨hshape, hs, hc⟩ := h.phase.of_starting ht
  have htasks : w.tasks.erase (.starting client) = [] := by
    rw [hshape.tasks, List.erase_cons_head]
  cases ok with
  | true =>
    obtain ⟨hsensor, hlive, hseen⟩ :=
      sensor_result .addReturned (.inl rfl) client (.startReturned :: w.log)
    rw [World.startDone, if_pos rfl, htasks]
    exact {
      phase := .waiting w.nextTimer ⟨hshape.isStarted, rfl, by rw [hshape.timers]; rfl,
        by rw [hshape.armed], rfl⟩ hsensor hc
      clients := ⟨h.clients.live.trans hlive.symm, h.clients.nodup, h.clients.fresh⟩
      seen := hseen (h.seen.cons trivial)
      failed := h.failed }
  | false =>
    obtain ⟨hsensor, hlive, hseen⟩ :=
      sensor_result .addRaised (.inr rfl) client (.startFailed :: w.log)
    rw [World.startDone, if_neg Bool.false_ne_true, htasks]
    exact {
      phase := .idle ⟨rfl, hshape.batchTimer, hshape.timers, hshape.armed, rfl⟩ hsensor rfl
      clients := ⟨hlive.symm, List.nodup_nil, by simp⟩
      seen := hseen (h.seen.cons trivial)
      failed := h.failed }

theorem Inv.stopDone (h : Inv w) (ht : .stopping ∈ w.tasks) (ok : Bool) : Inv (w.stopDone ok) := by
  obtain ⟨hshape, hs⟩ := h.phase.of_stopping ht
  have htasks : w.tasks.erase .stopping = [] := by
    rw [hshape.tasks, List.erase_cons_head]
  cases ok with
  | true =>
    by_cases hc : w.clientCbs = []
    · have hdone : w.stopDone true = { w with
          tasks := [], isStarted := false, log := .stopReturned :: w.log } := by
        simp only [World.stopDone, htasks, if_true, if_pos hc]
      rw [hdone]
      exact {
        phase := .idle ⟨rfl, hshape.batchTimer, hshape.timers, hshape.armed, rfl⟩ rfl hc
        clients := ⟨h.clients.live, h.clients.nodup, h.clients.fresh⟩
        seen := h.seen.cons trivial
        failed := h.failed }
    · -- clients registered while the sensor was stopping
      have hdone : w.stopDone true = { w with
          tasks := [], isStarted := false, log := .stopReturned :: w.log }.start none := by
        simp only [World.stopDone, htasks, if_true, if_neg hc]
      rw [hdone]
      exact start_of_idle ⟨rfl, hshape.batchTimer, hshape.timers, hshape.armed, rfl⟩ rfl hc
        ⟨h.clients.live, h.clients.nodup, h.clients.fresh⟩ (h.seen.cons trivial) h.failed
  | false =>
    have hdone : w.stopDone false = { w with
        tasks := [], isStarted := false, clientCbs := [], log := .stopFailed :: w.log } := by
      simp only [World.stopDone, htasks, Bool.false_eq_true, if_false, if_true]
    rw [hdone]
    exact {
      phase := .idle ⟨rfl, hshape.batchTimer, hshape.timers, hshape.armed, rfl⟩ rfl rfl
      clients := ⟨rfl, List.nodup_nil, by simp⟩
      seen := h.seen.cons trivial
      failed := h.failed }

/-- The timer is unregistered once, when the sensor is stopped at the end of a batch. -/
theorem Inv.stop {t : ℕ} (hshape : Shape w true (some t) [] []) (hs : sensor w.log = .on)
    (hlive : live w.log = []) (hseen : Seen w.log) (hf : w.failed = false) : Inv w.stop := by
  have hstop : w.stop = { w with
      clientCbs := []
      timers := []
      armed := []
      batchTimer := none
      tasks := [.stopping]
      log := .stopCalled :: w.log } := by
    simp [World.stop, World.unregister, hshape.batchTimer, hshape.isStarted, hshape.tasks,
      hshape.armed, hshape.timers]
  rw [hstop]
  exact {
    phase := .stopping ⟨hshape.isStarted, rfl, rfl, rfl, rfl⟩ rfl
    clients := ⟨hlive.symm, List.nodup_nil, by simp⟩
    seen := hseen.cons hs
    failed := hf }

theorem Inv.rearm {t : ℕ} (hshape : Shape w true (some t) [] []) (hs : sensor w.log = .on)
    (hc : w.clientCbs ≠ []) (hclients : Clients w) (hseen : Seen w.log) (hf : w.failed = false) :
    Inv (w.rearm t) := by
  have ht : t ∈ w.timers := by
    rw [hshape.timers]
    exact List.mem_singleton_self t
  rw [World.rearm, if_pos ht]
  exact {
    phase := .waiting t ⟨hshape.isStarted, hshape.batchTimer, hshape.timers,
      by rw [hshape.armed], hshape.tasks⟩ hs hc
    clients := ⟨hclients.live, hclients.nodup, hclients.fresh⟩
    seen := hseen
    failed := hf }

theorem Inv.batchDone {t : ℕ} (h : Inv w) (ht : .batching t ∈ w.tasks) (result : BatchResult) :
    Inv (w.batchDone t result) := by
  obtain ⟨hshape, hs, hc⟩ := h.phase.of_batching ht
  have htasks : w.tasks.erase (.batching t) = [] := by
    rw [hshape.tasks, List.erase_cons_head]
  have hshape' : Shape { w with tasks := [] } true (some t) [] [] :=
    ⟨hshape.isStarted, hshape.batchTimer, hshape.timers, hshape.armed, rfl⟩
  cases result with
  | error =>
    rw [World.batchDone, htasks]
    exact Inv.stop ⟨hshape.isStarted, hshape.batchTimer, hshape.timers, hshape.armed, rfl⟩ hs rfl
      (h.seen.cons trivial) h.failed
  | empty =>
    rw [World.batchDone, htasks]
    exact Inv.rearm hshape' hs hc ⟨h.clients.live, h.clients.nodup, h.clients.fresh⟩ h.seen h.failed
  | msg keep =>
    obtain ⟨hcalled, hremain, hstop⟩ := deliver_all keep h.clients.nodup
    have hremoved : (w.clientCbs.filter fun c => c ∉ w.clientCbs.filter fun c => !keep c) =
        w.clientCbs.filter keep := by
      refine List.filter_congr fun c hc => ?_
      cases hk : keep c <;> simp [hc, hk]
    have hlive : w.clientCbs.filter keep =
        live (.delivered w.clientCbs (w.clientCbs.filter fun c => !keep c) :: w.log) := by
      rw [live, ← h.clients.live, hremoved]
    have hseen : Seen (.delivered w.clientCbs (w.clientCbs.filter fun c => !keep c) :: w.log) :=
      h.seen.cons h.clients.live
    rw [World.batchDone, htasks]
    simp only [hcalled, hremain]
    split
    next hlast =>
      have hnone : w.clientCbs.filter keep = [] := by simpa using (hstop.1 hlast).2
      exact Inv.stop ⟨hshape.isStarted, hshape.batchTimer, hshape.timers, hshape.armed, rfl⟩ hs
        (hlive.symm.trans hnone) hseen h.failed
    next hlast =>
      have hsome : w.clientCbs.filter keep ≠ [] := fun hnone =>
        hlast (hstop.2 ⟨hc, by simpa using hnone⟩)
      refine Inv.rearm ⟨hshape.isStarted, hshape.batchTimer, hshape.timers, hshape.armed, rfl⟩ hs
        hsome ⟨hlive, h.clients.nodup.filter _, fun c hc' => ?_⟩ hseen h.failed
      exact h.clients.fresh c (List.mem_filter.1 hc').1

theorem Inv.next {w' : World} {e : Event} (h : Inv w) (hw : next w e = some w') : Inv w' := by
  cases e with
  | addClient =>
    obtain rfl := Option.some_inj.1 hw
    exact h.addClient
  | fire t =>
    obtain ⟨ht, hw⟩ := Option.ite_none_right_eq_some.1 hw
    obtain rfl := Option.some_inj.1 hw
    exact h.fire ht
  | startDone client ok =>
    obtain ⟨ht, hw⟩ := Option.ite_none_right_eq_some.1 hw
    obtain rfl := Option.some_inj.1 hw
    exact h.startDone ht ok
  | stopDone ok =>
    obtain ⟨ht, hw⟩ := Option.ite_none_right_eq_some.1 hw
    obtain rfl := Option.some_inj.1 hw
    exact h.stopDone ht ok
  | batchDone t result =>
    obtain ⟨ht, hw⟩ := Option.ite_none_right_eq_some.1 hw
    obtain rfl := Option.some_inj.1 hw
    exact h.batchDone ht result

theorem Inv.of_reachable (h : system.Reachable w) : Inv w := by
  refine System.ReachableBy.invariant (I := Inv) ?_ ?_ h
  · rintro s rfl
    exact .init
  · intro s e t hs _ ht
    exact hs.next ht

/-! ## Results -/

/-- What the helper has to do. -/
structure Correct (w : World) : Prop where
  /-- `start_cb` is called only when it was not called before, or the last call raised an error, or
  `stop_cb` was called and has ended since. -/
  start : ∀ l, (.startCalled :: l) <:+ w.log → sensor l = .off
  /-- `stop_cb` is called only when `start_cb` has returned since it was called last. -/
  stop : ∀ l, (.stopCalled :: l) <:+ w.log → sensor l = .on
  /-- While no callback is suspended the timer is registered exactly when the flag is set. -/
  timer : w.tasks = [] → ((∃ t, w.batchTimer = some t ∧ w.timers = [t]) ↔ w.isStarted = true) ∧
    (w.isStarted = false → w.batchTimer = none ∧ w.timers = [])
  /-- The flag is set exactly when there are clients. -/
  started : w.tasks = [] → (w.isStarted = true ↔ w.clientCbs ≠ [])
  /-- Every client that is entitled to a batch is called. -/
  served : ∀ called removed l, (.delivered called removed :: l) <:+ w.log →
    ∀ c, Entitled l c → c ∈ called
  /-- No timer was unregistered that was not registered. -/
  unregistered : w.failed = false

/-- **Bulk sensor clients**, for every interleaving and every error. -/
theorem clients_served (h : system.Reachable w) : Correct w := by
  have hinv := Inv.of_reachable h
  exact {
    start := fun l hl => hinv.seen _ l hl
    stop := fun l hl => hinv.seen _ l hl
    timer := fun ht => by
      rcases hinv.phase.of_nil ht with ⟨hshape, hc⟩ | ⟨t, hshape, hc⟩
      · rw [hshape.isStarted, hshape.batchTimer, hshape.timers]
        exact ⟨⟨by simp, by simp⟩, fun _ => ⟨rfl, rfl⟩⟩
      · rw [hshape.isStarted, hshape.batchTimer, hshape.timers]
        exact ⟨⟨fun _ => rfl, fun _ => ⟨t, rfl, rfl⟩⟩, by simp⟩
    started := fun ht => by
      rcases hinv.phase.of_nil ht with ⟨hshape, hc⟩ | ⟨t, hshape, hc⟩
      · rw [hshape.isStarted, hc]
        simp
      · rw [hshape.isStarted]
        exact ⟨fun _ => hc, fun _ => rfl⟩
    served := fun called removed l hl c hc => by
      obtain rfl : called = live l := hinv.seen _ l hl
      exact hc.mem_live
    unregistered := hinv.failed }

/-- Two clients, the second while the sensor is starting, of which the first is removed. -/
def twoClients : List Event :=
  [.addClient, .addClient, .startDone (some 0) true, .fire 0, .batchDone 0 (.msg fun c => c = 1),
    .fire 0, .batchDone 0 (.msg fun _ => false), .addClient, .stopDone true, .startDone none true]

/-- A third client registers while the sensor is stopping. -/
theorem clients_served_twoClients : Correct ((system.run init twoClients).getD init) :=
  clients_served (System.Reachable.run (.init rfl)
    (show system.run init twoClients = some ((system.run init twoClients).getD init) by decide))

/-- The last of the callbacks that start and stop the sensor is `start_cb`. -/
def lastCalledStart : List Entry → Bool
  | [] => false
  | .startCalled :: _ => true
  | .stopCalled :: _ => false
  | _ :: l => lastCalledStart l

/-- There are no two starts without a stop between. -/
def Alternates (log : List Entry) : Prop :=
  ∀ l, (.startCalled :: l) <:+ log → lastCalledStart l = false

/-- After a start that raised an error the next client starts the sensor again. -/
theorem not_alternates : ∃ w, system.Reachable w ∧ ¬Alternates w.log := by
  let events : List Event := [.addClient, .startDone (some 0) false, .addClient]
  have hrun : system.run init events = some ((system.run init events).getD init) := by decide
  refine ⟨(system.run init events).getD init, System.Reachable.run (.init rfl) hrun, fun h => ?_⟩
  exact absurd (h [.added 1, .addRaised 0, .startFailed, .startCalled, .added 0] (by decide))
    (by decide)

end BatchBulk

end Thinker
