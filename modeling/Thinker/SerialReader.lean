import Thinker.Trsync

/-!
# Queries to a micro-controller

`serialhdl.py` : a query (`SerialRetryCommand`) registers a handler for the name and oid of its
answer, sends its commands, waits until they are acknowledged, and returns the last message that
the handler was called with. It sends them again a few times if there was none.

A connection executes commands in order, each answered by at most one message, and acknowledges
the last command of a transmission after its answer. Messages that answer no query come at any
time and under any name, and every message may be lost. Greenlets run between any two of these.
The micro-controller is a parameter (`QueryMcu`), with `trsyncMcu` as an instance.

Beside the state are the messages that the handler of a query was called with and the answers
that were sent, each with the query whose transmission was being executed.
-/

namespace Thinker

/-- A micro-controller, as a connection sees it. -/
structure QueryMcu (μ ε γ M : Type*) where
  /-- The execution of a command, with its answer. -/
  exec : μ → γ → Option (μ × Option M)
  /-- What happens meanwhile, with the messages that are sent. -/
  step : μ → ε → Option (μ × List M)

/-- What `get_response` ends with. -/
inductive QueryResult (M : Type*) where
  | ok (params : M)
  /-- `Unable to obtain '%s' response`. -/
  | error
  /-- There is no handler to remove. -/
  | keyError
  deriving DecidableEq, Repr

/-- Where a greenlet is in `get_response`. -/
inductive QueryPhase (M : Type*) where
  /-- In `raw_send_wait_ack`. -/
  | waiting
  /-- The completion has been notified. -/
  | acked
  /-- Before the next transmission. -/
  | pausing
  | done (result : QueryResult M)
  deriving DecidableEq, Repr

/-- Whether `get_response` has ended. -/
def QueryPhase.isDone {M : Type*} : QueryPhase M → Bool
  | .done _ => true
  | _ => false

/-- `SerialRetryCommand`, with the commands of `get_response`. -/
structure SerialRetryCommand (γ M κ : Type*) where
  /-- The name and oid of the answer. -/
  key : κ
  /-- `cmds[:-1]`. -/
  preface : List γ
  cmd : γ
  lastParams : Option M
  retries : ℕ
  phase : QueryPhase M
  transmissions : ℕ
  heard : List (Option ℕ × M)
  deriving DecidableEq, Repr

/-- A response handler. -/
inductive ResponseHandler where
  | query (q : ℕ)
  | callback
  deriving DecidableEq, Repr

/-- A command on its way, of a query or not. `notify` asks for a notification. -/
structure Transmission (γ : Type*) where
  query : Option ℕ
  cmd : γ
  notify : Bool
  deriving DecidableEq, Repr

/-- A message on its way back, or the notification of a query. -/
inductive QueryFrame (M : Type*) where
  | msg (query : Option ℕ) (params : M)
  | ack (q : ℕ)
  deriving DecidableEq, Repr

/-- `SerialReader`, with the connection. -/
structure SerialReader (μ γ M κ : Type*) where
  mcu : μ
  handlers : κ → Option ResponseHandler
  queries : ℕ → Option (SerialRetryCommand γ M κ)
  count : ℕ
  toMcu : List (Transmission γ)
  fromMcu : List (QueryFrame M)
  /-- The answers to queries, with the state after the execution. -/
  answers : List (ℕ × M × μ)

/-- What happens at a connection. -/
inductive SerialEvent (ε γ κ : Type*) where
  /-- A greenlet makes a query and sends its commands. -/
  | query (key : κ) (preface : List γ) (cmd : γ)
  | register (key : κ)
  | unregister (key : κ)
  | send (cmd : γ)
  | exec
  | mcu (e : ε)
  | receive
  | lose
  | resume (q : ℕ)
  | retry (q : ℕ)

namespace SerialReader

variable {μ ε γ M κ : Type*} [DecidableEq κ] (s : SerialReader μ γ M κ)

/-- Replace a query. -/
def setQuery (q : ℕ) (x : SerialRetryCommand γ M κ) : SerialReader μ γ M κ :=
  { s with queries := Function.update s.queries q (some x) }

/-- `register_response`. -/
def registerResponse (handler : Option ResponseHandler) (key : κ) : SerialReader μ γ M κ :=
  { s with handlers := Function.update s.handlers key handler }

/-- The commands of one transmission of a query. -/
def transmission (q : ℕ) (preface : List γ) (cmd : γ) : List (Transmission γ) :=
  preface.map (fun c => ⟨some q, c, false⟩) ++ [⟨some q, cmd, true⟩]

/-- `SerialRetryCommand.__init__`, and `get_response` up to the first `raw_send_wait_ack`. -/
def makeQuery (key : κ) (preface : List γ) (cmd : γ) : SerialReader μ γ M κ :=
  let q := s.count
  let x : SerialRetryCommand γ M κ := {
    key := key
    preface := preface
    cmd := cmd
    lastParams := none
    retries := 5
    phase := .waiting
    transmissions := 1
    heard := [] }
  { (s.setQuery q x).registerResponse (some (.query q)) key with
    count := s.count + 1
    toMcu := s.toMcu ++ transmission q preface cmd }

/-- The end of `get_response` : the handler is removed, if there is one. -/
def finish (q : ℕ) (x : SerialRetryCommand γ M κ) (result : QueryResult M) :
    SerialReader μ γ M κ :=
  match s.handlers x.key with
  | none => s.setQuery q { x with phase := .done .keyError }
  | some _ => (s.setQuery q { x with phase := .done result }).registerResponse none x.key

/-- `get_response` after `raw_send_wait_ack`. -/
def resume (q : ℕ) (x : SerialRetryCommand γ M κ) : SerialReader μ γ M κ :=
  match x.lastParams with
  | some params => s.finish q x (.ok params)
  | none =>
    if x.retries = 0 then s.finish q x .error
    else s.setQuery q { x with phase := .pausing, retries := x.retries - 1 }

/-- `get_response` after the pause. -/
def retry (q : ℕ) (x : SerialRetryCommand γ M κ) : SerialReader μ γ M κ :=
  { s.setQuery q { x with phase := .waiting, transmissions := x.transmissions + 1 } with
    toMcu := s.toMcu ++ transmission q x.preface x.cmd }

/-- `handle_callback`, if the handler belongs to a query. -/
def handle (key : M → κ) (query : Option ℕ) (params : M) : SerialReader μ γ M κ :=
  match s.handlers (key params) with
  | some (.query q) =>
    match s.queries q with
    | some x => s.setQuery q { x with
        lastParams := some params
        heard := x.heard ++ [(query, params)] }
    | none => s
  | _ => s

/-- The completion of `raw_send_wait_ack`. -/
def complete (q : ℕ) : SerialReader μ γ M κ :=
  match s.queries q with
  | some x => s.setQuery q { x with phase := .acked }
  | none => s

/-- The state of the host when it starts to send queries. -/
def start (mcu : μ) : SerialReader μ γ M κ where
  mcu := mcu
  handlers := fun _ => none
  queries := fun _ => none
  count := 0
  toMcu := []
  fromMcu := []
  answers := []

end SerialReader

open SerialReader in
/-- A connection to a micro-controller that starts as `init`. -/
def connection {μ ε γ M κ : Type*} [DecidableEq κ] (D : QueryMcu μ ε γ M) (key : M → κ)
    (init : μ → Prop) : System (SerialReader μ γ M κ) (SerialEvent ε γ κ) where
  init s := ∃ mcu, init mcu ∧ s = start mcu
  next s
    | .query k preface cmd => some (s.makeQuery k preface cmd)
    | .register k => some (s.registerResponse (some .callback) k)
    | .unregister k => some (s.registerResponse none k)
    | .send cmd => some { s with toMcu := s.toMcu ++ [⟨none, cmd, false⟩] }
    | .exec =>
      match s.toMcu with
      | [] => none
      | c :: rest => (D.exec s.mcu c.cmd).map fun r =>
        { s with
          mcu := r.1
          toMcu := rest
          fromMcu := s.fromMcu ++ r.2.toList.map (.msg c.query) ++
            if c.notify then c.query.toList.map .ack else []
          answers := s.answers ++ c.query.toList.flatMap fun q =>
            r.2.toList.map fun params => (q, params, r.1) }
    | .mcu e => (D.step s.mcu e).map fun r =>
      { s with mcu := r.1, fromMcu := s.fromMcu ++ r.2.map (.msg none) }
    | .receive =>
      match s.fromMcu with
      | [] => none
      | .msg query params :: rest => some ({ s with fromMcu := rest }.handle key query params)
      | .ack q :: rest => some ({ s with fromMcu := rest }.complete q)
    | .lose =>
      match s.fromMcu with
      | .msg _ _ :: rest => some { s with fromMcu := rest }
      | _ => none
    | .resume q =>
      match s.queries q with
      | none => none
      | some x =>
        match x.phase with
        | .acked => some (s.resume q x)
        | _ => none
    | .retry q =>
      match s.queries q with
      | none => none
      | some x =>
        match x.phase with
        | .pausing => some (s.retry q x)
        | _ => none

/-! ## Queries to a trsync -/

/-- The micro-controller of `trsyncMcu` starts with its objects configured. Once it is shut down
it answers every command with `is_shutdown`, which has another name. -/
def trsyncMcu {T S E : Type*} [DecidableEq T] [DecidableEq S] [DecidableEq E]
    (board : StepperBoard) (oids : List T) : QueryMcu (HomingMcu T S E) (HomingEvent T S E)
      (HomingCommand T S E) (TrsyncStateMsg T) where
  exec s c :=
    if s.isShutdown then some (s, none)
    else ((homingMcu board oids).next s (.command c)).map fun t =>
      (t, (t.sent.drop s.sent.length).head?)
  step s
    | .command _ => none
    | a => ((homingMcu board oids).next s a).map fun t => (t, t.sent.drop s.sent.length)

end Thinker
