import Mathlib.Tactic
import Thinker.Json

/-!
# The connections of the API server

`ClientConnection` of `webhooks.py` on the `PollReactor`. A client sends requests that end with a
byte 3; each is handed to a callback of the reactor, whose handler may pause, and its response is
sent at once or, while the socket takes no more, when the descriptor waits for output.
-/

namespace Thinker

namespace Webhooks

abbrev Bytes := List UInt8

/-! ## Requests -/

/-- `WebRequest`, of which the id is null if there is none. -/
structure WebRequest where
  id : Json
  method : Text
  params : List (Text × Json)

/-- `WebRequest` from what `json.loads` returns, unless it raises. -/
def WebRequest.ofJson : Json → Option WebRequest
  | .obj members =>
    match members.lookup "method".toList, (members.lookup "params".toList).getD (.obj []) with
    | some (.str method), .obj params =>
      some ⟨(members.lookup "id".toList).getD .null, method, params⟩
    | _, _ => none
  | _ => none

variable {δ : Type*}

/-- What a handler does: it returns and may have sent data, or it raises. -/
inductive HandlerResult (δ : Type*) where
  | returns (response : Option δ)
  | raises (msg : Text)

/-- A message to a client: data that is sent, or the answer to a request. -/
inductive Message (δ : Type*) where
  | data (d : δ)
  | result (id : Json) (response : Option δ)
  | error (id : Json) (msg : Text)

/-- `finish`, after the handler. -/
def WebRequest.finish (w : WebRequest) : HandlerResult δ → Option (Message δ)
  | .returns response => if w.id.isNull then none else some (.result w.id response)
  | .raises msg => if w.id.isNull then none else some (.error w.id msg)

/-! ## The state -/

/-- The callback of a request waits, its handler runs, or it is done. -/
inductive Status where
  | waiting
  | running
  | done
  deriving DecidableEq

/-- `ClientConnection`. Recorded are also its requests with their status, the requests whose handler
was called, the bytes that were received and written, and the messages that were passed to `send`
with the request that they answer. -/
structure Client where
  fd : ℕ
  isOpen : Bool
  partialData : Bytes
  sendBuffer : Bytes
  isBlocking : Bool
  blockingCount : ℤ
  requests : List (WebRequest × Status)
  processed : List ℕ
  received : Bytes
  written : Bytes
  passed : List (Option ℕ × Bytes)

/-- A new connection. -/
def Client.new (fd : ℕ) : Client where
  fd := fd
  isOpen := true
  partialData := []
  sendBuffer := []
  isBlocking := false
  blockingCount := 0
  requests := []
  processed := []
  received := []
  written := []
  passed := []

/-- Whose callbacks a descriptor has. -/
inductive Owner where
  | server
  | client (i : ℕ)
  deriving DecidableEq

/-- A registered descriptor, and what it waits for. -/
structure Handle where
  owner : Owner
  readable : Bool
  writable : Bool

/-- The reactor with its descriptors, and the clients in the order in which they connected. -/
structure Host where
  fds : ℕ → Option Handle
  serverFd : Option ℕ
  clients : ℕ → Client
  numClients : ℕ
  raised : Bool

/-- The server listens on a descriptor. -/
def Host.init (serverFd : ℕ) : Host where
  fds := Function.update (fun _ => none) serverFd (some ⟨.server, true, false⟩)
  serverFd := some serverFd
  clients := fun _ => { Client.new 0 with isOpen := false }
  numClients := 0
  raised := false

/-- What a non-blocking send returns: the bytes that were taken, a socket that takes none now, or
another error. -/
inductive SendResult where
  | sent (n : ℕ)
  | wouldBlock
  | error

/-- The events of a descriptor, and what its socket does in its callbacks. A `recv` of nothing is an
error, and one of no bytes is the end. -/
structure Ready where
  fd : ℕ
  readable : Bool
  writable : Bool
  recv : Option Bytes
  send : SendResult
  accept : Option ℕ

/-! ## The operations -/

/-- The requests in some received data, and the data of the next one. -/
def Client.receive (loads : Bytes → Option Json) (c : Client) (data : Bytes) : Client :=
  let requests := (data.splitOn 3).modifyHead (c.partialData ++ ·)
  let decoded := requests.dropLast.filterMap fun req => (loads req).bind WebRequest.ofJson
  { c with
    partialData := requests.getLast?.getD []
    requests := c.requests ++ decoded.map fun w => (w, .waiting)
    received := c.received ++ data }

/-- Some bytes of the buffer are written. -/
def Client.shift (c : Client) (sent : ℕ) : Client :=
  { c with sendBuffer := c.sendBuffer.drop sent, written := c.written ++ c.sendBuffer.take sent }

/-- A message is added to the buffer. -/
def Client.push (c : Client) (origin : Option ℕ) (jmsg : Bytes) : Client :=
  { c with
    sendBuffer := c.sendBuffer ++ (jmsg ++ [3])
    passed := c.passed ++ [(origin, jmsg ++ [3])] }

/-- The status of a request. -/
def Client.setStatus (c : Client) (k : ℕ) (status : Status) : Client :=
  { c with requests := c.requests.modify k fun r => (r.1, status) }

namespace Host

variable (s : Host)

/-- A client is changed. -/
def modify (i : ℕ) (f : Client → Client) : Host :=
  { s with clients := Function.update s.clients i (f (s.clients i)) }

/-- `unregister_fd`. -/
def unregisterFd (fd : ℕ) : Host :=
  { s with fds := Function.update s.fds fd none }

/-- `set_fd_wake`. -/
def setFdWake (fd : ℕ) (isReadable isWriteable : Bool) : Host :=
  let handle := (s.fds fd).map fun h => Handle.mk h.owner isReadable isWriteable
  { s with fds := Function.update s.fds fd handle }

/-- `close`. -/
def close (i : ℕ) : Host :=
  if (s.clients i).isOpen then
    (s.unregisterFd (s.clients i).fd).modify i fun c => { c with isOpen := false }
  else s

/-- `_do_send` after the socket took some bytes. -/
def sent (i n : ℕ) : Host :=
  let c := s.clients i
  let s :=
    if n < c.sendBuffer.length then
      if c.isBlocking then s
      else (s.setFdWake c.fd false true).modify i fun c =>
        { c with isBlocking := true, blockingCount := 5 }
    else if c.isBlocking then
      (s.setFdWake c.fd true false).modify i fun c => { c with isBlocking := false }
    else s
  s.modify i (·.shift n)

/-- `_do_send`. -/
def doSend (i : ℕ) (r : SendResult) : Host :=
  if (s.clients i).isOpen then
    match r with
    | .error => s.close i
    | .wouldBlock => s.sent i 0
    | .sent n => s.sent i (min n (s.clients i).sendBuffer.length)
  else s

/-- `process_received`. -/
def processReceived (loads : Bytes → Option Json) (i : ℕ) (recv : Option Bytes) : Host :=
  match recv with
  | none => s
  | some [] => s.close i
  | some (b :: data) => s.modify i fun c => c.receive loads (b :: data)

/-- `_handle_accept`: the new connection has a descriptor that is not in use. -/
def handleAccept (accept : Option ℕ) : Host :=
  match accept with
  | none => s
  | some fd =>
    if (s.fds fd).isSome then s
    else { s with
      fds := Function.update s.fds fd (some ⟨.client s.numClients, true, false⟩)
      clients := Function.update s.clients s.numClients (.new fd)
      numClients := s.numClients + 1 }

/-- The read callback of a descriptor. -/
def readCallback (loads : Bytes → Option Json) (r : Ready) : Owner → Host
  | .server => s.handleAccept r.accept
  | .client i => s.processReceived loads i r.recv

/-- The write callback of a descriptor; the server has none. -/
def writeCallback (r : Ready) : Owner → Host
  | .server => { s with raised := true }
  | .client i => s.doSend i r.send

/-- `self._fds[fd]` with a callback; a descriptor that is not registered is a `KeyError`. -/
def call (fd : ℕ) (callback : Owner → Host) : Host :=
  match s.fds fd with
  | none => { s with raised := true }
  | some h => callback h.owner

/-- The callbacks of one descriptor that is ready. -/
def dispatchOne (loads : Bytes → Option Json) (r : Ready) : Host :=
  let s := if r.readable then s.call r.fd (s.readCallback loads r) else s
  if s.raised then s
  else if r.writable then s.call r.fd (s.writeCallback r)
  else s

/-- The callbacks of all descriptors that are ready. -/
def dispatch (loads : Bytes → Option Json) : Host → List Ready → Host
  | s, [] => s
  | s, r :: res =>
    let s := s.dispatchOne loads r
    if s.raised then s else dispatch loads s res

/-- `send` of a message that answers a request, or of other data. -/
def send (dumps : Message δ → Option Bytes) (i : ℕ) (origin : Option ℕ) (m : Message δ)
    (r : SendResult) : Host :=
  match dumps m with
  | none => s
  | some jmsg =>
    let s := s.modify i (·.push origin jmsg)
    if (s.clients i).isBlocking then s else s.doSend i r

/-- `_process_request` after the handler. -/
def finishRequest (dumps : Message δ → Option Bytes) (i k : ℕ) (w : WebRequest)
    (o : HandlerResult δ) (r : SendResult) : Host :=
  let s := s.modify i (·.setStatus k .done)
  match w.finish o with
  | none => s
  | some m => s.send dumps i (some k) m r

/-- `stats` for one client. -/
def statsOne (i : ℕ) : Host :=
  let c := s.clients i
  if c.isOpen && c.isBlocking then
    let s := s.modify i fun c => { c with blockingCount := c.blockingCount - 1 }
    if c.blockingCount - 1 < 0 then s.close i else s
  else s

/-- `stats`. -/
def stats : Host :=
  (List.range s.numClients).foldl statsOne s

/-- `_handle_disconnect`. -/
def handleDisconnect (fd : ℕ) : Host :=
  let s := (List.range s.numClients).foldl close s
  { s.unregisterFd fd with serverFd := none }

end Host

/-! ## Runs -/

/-- What happens: the poll returns, the callback of a request calls its handler, a handler is done,
other data is sent to a client, and the events of the printer. -/
inductive Event (δ : Type*) where
  | poll (res : List Ready)
  | start (i k : ℕ)
  | finish (i k : ℕ) (o : HandlerResult δ) (r : SendResult)
  | send (i : ℕ) (d : δ) (r : SendResult)
  | stats
  | disconnect

/-- A poll returns registered descriptors, each once, and one as writable only if it waits for
output. -/
def Polled (s : Host) (res : List Ready) : Prop :=
  (res.map Ready.fd).Nodup ∧
    ∀ r ∈ res, ∃ h, s.fds r.fd = some h ∧ (r.writable = true → h.writable = true)

/-- The steps of the host, unless an exception has ended it. -/
inductive Step (loads : Bytes → Option Json) (dumps : Message δ → Option Bytes) :
    Host → Event δ → Host → Prop
  | poll {s : Host} {res : List Ready} (halive : s.raised = false) (hpolled : Polled s res) :
      Step loads dumps s (.poll res) (s.dispatch loads res)
  | start {s : Host} {i k : ℕ} {w : WebRequest} (halive : s.raised = false)
      (hwaiting : (s.clients i).requests[k]? = some (w, .waiting)) :
      Step loads dumps s (.start i k) (s.modify i fun c =>
        { c.setStatus k .running with processed := c.processed ++ [k] })
  | finish {s : Host} {i k : ℕ} {w : WebRequest} {o : HandlerResult δ} {r : SendResult}
      (halive : s.raised = false) (hrunning : (s.clients i).requests[k]? = some (w, .running)) :
      Step loads dumps s (.finish i k o r) (s.finishRequest dumps i k w o r)
  | send {s : Host} {i : ℕ} {d : δ} {r : SendResult} (halive : s.raised = false) :
      Step loads dumps s (.send i d r) (s.send dumps i none (.data d) r)
  | stats {s : Host} (halive : s.raised = false) : Step loads dumps s .stats s.stats
  | disconnect {s : Host} {fd : ℕ} (halive : s.raised = false) (hserver : s.serverFd = some fd) :
      Step loads dumps s .disconnect (s.handleDisconnect fd)

/-! ## Received data -/

/-- Data that comes in parts is split like all of it. -/
theorem splitOn_append {α : Type*} [DecidableEq α] (a : α) (l l' : List α) :
    (l ++ l').splitOn a = (l.splitOn a).dropLast ++
      (l'.splitOn a).modifyHead ((l.splitOn a).getLast?.getD [] ++ ·) := by
  induction l with
  | nil =>
    rw [List.nil_append, List.splitOn_nil]
    cases l'.splitOn a <;> rfl
  | cons x l ih =>
    rw [List.cons_append, List.splitOn_cons_eq_if_modifyHead, List.splitOn_cons_eq_if_modifyHead,
      ih]
    obtain ⟨p, ps, hp⟩ := List.exists_cons_of_ne_nil (List.splitOn_ne_nil a l)
    obtain ⟨q, qs, hq⟩ := List.exists_cons_of_ne_nil (List.splitOn_ne_nil a l')
    rw [hp, hq]
    cases hx : x == a with
    | true => simp
    | false =>
      cases ps with
      | nil => simp
      | cons p' ps => simp

variable {loads : Bytes → Option Json} {dumps : Message δ → Option Bytes}

/-- How often the handler of a request was called. -/
def calls : Option (WebRequest × Status) → ℕ
  | some (_, .running) => 1
  | some (_, .done) => 1
  | _ => 0

/-- How often a request was answered. -/
def answers : Option (WebRequest × Status) → ℕ
  | some (w, .done) => if w.id.isNull then 0 else 1
  | _ => 0

/-- The messages of a client are written in order, its requests are those that were received
completely, and each is processed and answered once. -/
structure Client.Kept (loads : Bytes → Option Json) (c : Client) : Prop where
  written_eq : c.written ++ c.sendBuffer = (c.passed.map Prod.snd).flatten
  partial_eq : c.partialData = (c.received.splitOn 3).getLast?.getD []
  requests_eq : c.requests.map Prod.fst = (c.received.splitOn 3).dropLast.filterMap
    fun req => (loads req).bind WebRequest.ofJson
  processed_eq : ∀ k, c.processed.count k = calls c.requests[k]?
  passed_eq : ∀ k, c.passed.countP (·.1 == some k) = answers c.requests[k]?

namespace Client

variable {c c' : Client} {k : ℕ} {w : WebRequest}

/-- What the status of a request and the messages do not depend on. -/
theorem Kept.congr (h : c.Kept loads) (hwritten : c'.written ++ c'.sendBuffer =
    c.written ++ c.sendBuffer) (hrest : c'.partialData = c.partialData)
    (hrequests : c'.requests = c.requests) (hprocessed : c'.processed = c.processed)
    (hreceived : c'.received = c.received) (hpassed : c'.passed = c.passed) : c'.Kept loads where
  written_eq := by rw [hwritten, hpassed, h.written_eq]
  partial_eq := by rw [hrest, hreceived, h.partial_eq]
  requests_eq := by rw [hrequests, hreceived, h.requests_eq]
  processed_eq k := by rw [hprocessed, hrequests, h.processed_eq]
  passed_eq k := by rw [hpassed, hrequests, h.passed_eq]

theorem kept_new (fd : ℕ) : (new fd).Kept loads where
  written_eq := rfl
  partial_eq := rfl
  requests_eq := rfl
  processed_eq _ := rfl
  passed_eq _ := rfl

theorem kept_shift (h : c.Kept loads) (n : ℕ) : (c.shift n).Kept loads :=
  h.congr (by simp [shift]) rfl rfl rfl rfl rfl

theorem kept_receive (h : c.Kept loads) (data : Bytes) : (c.receive loads data).Kept loads := by
  have hsplit := splitOn_append 3 c.received data
  have hne : (data.splitOn 3).modifyHead (c.partialData ++ ·) ≠ [] := by
    obtain ⟨q, qs, hq⟩ := List.exists_cons_of_ne_nil (List.splitOn_ne_nil 3 data)
    rw [hq]
    exact List.cons_ne_nil _ _
  rw [← h.partial_eq] at hsplit
  have hlater : ∀ {β : Type} (g : Option (WebRequest × Status) → β) (ws : List WebRequest) (k : ℕ),
      g none = g ((ws.map fun w => (w, Status.waiting))[k - c.requests.length]?) →
      g (c.requests ++ ws.map fun w => (w, Status.waiting))[k]? = g c.requests[k]? := by
    intro β g ws k hg
    by_cases hk : k < c.requests.length
    · rw [List.getElem?_append_left hk]
    · rw [List.getElem?_append_right (not_lt.1 hk), ← hg, List.getElem?_eq_none (not_lt.1 hk)]
  refine ⟨h.written_eq, ?_, ?_, fun k => ?_, fun k => ?_⟩
  · change _ = ((c.received ++ data).splitOn 3).getLast?.getD []
    rw [hsplit, List.getLast?_append_of_ne_nil _ hne]
    rfl
  · change List.map Prod.fst (c.requests ++ List.map (fun w => (w, Status.waiting)) _) =
      ((c.received ++ data).splitOn 3).dropLast.filterMap _
    rw [hsplit, List.dropLast_append_of_ne_nil hne, List.filterMap_append, List.map_append,
      h.requests_eq, List.map_map]
    congr 1
    exact List.map_id _
  · change c.processed.count k = calls (c.requests ++ List.map (fun w => (w, Status.waiting)) _)[k]?
    rw [h.processed_eq, hlater calls]
    rw [List.getElem?_map]
    cases (List.filterMap _ _)[k - c.requests.length]? <;> rfl
  · change c.passed.countP _ = answers (c.requests ++ List.map (fun w => (w, Status.waiting)) _)[k]?
    rw [h.passed_eq, hlater answers]
    rw [List.getElem?_map]
    cases (List.filterMap _ _)[k - c.requests.length]? <;> rfl

theorem getElem?_setStatus (k j : ℕ) (status : Status) : (c.setStatus k status).requests[j]? =
    (c.requests[j]?).map fun r => if k = j then (r.1, status) else r := by
  unfold setStatus
  rw [List.getElem?_modify]
  split_ifs with h <;> rfl

theorem map_fst_setStatus (k : ℕ) (status : Status) :
    (c.setStatus k status).requests.map Prod.fst = c.requests.map Prod.fst := by
  refine List.ext_getElem? fun j => ?_
  rw [List.getElem?_map, List.getElem?_map, getElem?_setStatus, Option.map_map]
  congr 1
  funext r
  change (if k = j then (r.1, status) else r).1 = r.1
  split_ifs <;> rfl

theorem kept_start (h : c.Kept loads) (hk : c.requests[k]? = some (w, .waiting)) :
    Kept loads { c.setStatus k .running with processed := c.processed ++ [k] } where
  written_eq := h.written_eq
  partial_eq := h.partial_eq
  requests_eq := (map_fst_setStatus k .running).trans h.requests_eq
  processed_eq j := by
    change (c.processed ++ [k]).count j = calls (c.setStatus k .running).requests[j]?
    rw [getElem?_setStatus, List.count_append, h.processed_eq]
    by_cases hj : k = j
    · subst hj
      simp [hk, calls]
    · simp [hj]
  passed_eq j := by
    change c.passed.countP _ = answers (c.setStatus k .running).requests[j]?
    rw [getElem?_setStatus, h.passed_eq]
    by_cases hj : k = j
    · subst hj
      simp [hk, answers]
    · simp [hj]

theorem processed_done (h : c.Kept loads) (hk : c.requests[k]? = some (w, .running)) (j : ℕ) :
    c.processed.count j = calls (c.setStatus k .done).requests[j]? := by
  rw [getElem?_setStatus, h.processed_eq]
  by_cases hj : k = j
  · subst hj
    simp [hk, calls]
  · simp [hj]

/-- A handler is done whose request has no id. -/
theorem kept_done (h : c.Kept loads) (hk : c.requests[k]? = some (w, .running))
    (hid : w.id.isNull = true) : (c.setStatus k .done).Kept loads where
  written_eq := h.written_eq
  partial_eq := h.partial_eq
  requests_eq := (map_fst_setStatus k .done).trans h.requests_eq
  processed_eq := processed_done h hk
  passed_eq j := by
    change c.passed.countP _ = answers (c.setStatus k .done).requests[j]?
    rw [getElem?_setStatus, h.passed_eq]
    by_cases hj : k = j
    · subst hj
      simp [hk, answers, hid]
    · simp [hj]

/-- A handler is done, and its request is answered. -/
theorem kept_answer (h : c.Kept loads) (hk : c.requests[k]? = some (w, .running))
    (hid : w.id.isNull = false) (jmsg : Bytes) :
    ((c.setStatus k .done).push (some k) jmsg).Kept loads where
  written_eq := by
    change c.written ++ (c.sendBuffer ++ (jmsg ++ [3])) =
      ((c.passed ++ [(some k, jmsg ++ [3])]).map Prod.snd).flatten
    rw [← List.append_assoc, h.written_eq]
    simp
  partial_eq := h.partial_eq
  requests_eq := (map_fst_setStatus k .done).trans h.requests_eq
  processed_eq := processed_done h hk
  passed_eq j := by
    change (c.passed ++ [(some k, jmsg ++ [3])]).countP _ =
      answers (c.setStatus k .done).requests[j]?
    rw [getElem?_setStatus, List.countP_append, h.passed_eq]
    by_cases hj : k = j
    · subst hj
      simp [hk, answers, hid]
    · simp [hj]

/-- Other data is sent. -/
theorem kept_push (h : c.Kept loads) (jmsg : Bytes) : (c.push none jmsg).Kept loads where
  written_eq := by
    change c.written ++ (c.sendBuffer ++ (jmsg ++ [3])) =
      ((c.passed ++ [(none, jmsg ++ [3])]).map Prod.snd).flatten
    rw [← List.append_assoc, h.written_eq]
    simp
  partial_eq := h.partial_eq
  requests_eq := h.requests_eq
  processed_eq := h.processed_eq
  passed_eq j := by
    change (c.passed ++ [(none, jmsg ++ [3])]).countP _ = answers c.requests[j]?
    rw [List.countP_append, h.passed_eq]
    simp

end Client

/-! ## The descriptors and the clients -/

variable (loads) in
/-- The descriptors of open clients are registered, a client is blocking exactly while its
descriptor waits for output only and, unless it is `skip`, while its buffer has data. -/
structure Host.Sound (skip : Option ℕ) (s : Host) : Prop where
  fds_eq : ∀ i, (s.clients i).isOpen = true → s.fds (s.clients i).fd =
    some ⟨.client i, !(s.clients i).isBlocking, (s.clients i).isBlocking⟩
  owner : ∀ fd h, s.fds fd = some h → (h.owner = .server ∧ h.writable = false) ∨
    ∃ i, h.owner = .client i ∧ (s.clients i).isOpen = true ∧ (s.clients i).fd = fd
  server : ∀ fd, s.serverFd = some fd → ∃ h, s.fds fd = some h ∧ h.owner = .server
  buffer : ∀ i, skip ≠ some i → (s.clients i).isOpen = true →
    ((s.clients i).isBlocking = true ↔ (s.clients i).sendBuffer ≠ [])
  kept : ∀ i, (s.clients i).Kept loads
  closed : ∀ i, s.numClients ≤ i → (s.clients i).isOpen = false

namespace Host

variable {s : Host} {i : ℕ} {skip : Option ℕ}

@[simp] theorem modify_clients (f : Client → Client) :
    (s.modify i f).clients i = f (s.clients i) :=
  Function.update_self ..

theorem modify_clients_ne {j : ℕ} (f : Client → Client) (hj : j ≠ i) :
    (s.modify i f).clients j = s.clients j :=
  Function.update_of_ne hj ..

@[simp] theorem modify_fds (f : Client → Client) : (s.modify i f).fds = s.fds := rfl

theorem modify_modify (f g : Client → Client) :
    (s.modify i f).modify i g = s.modify i fun c => g (f c) := by
  simp only [modify, Function.update_idem, Function.update_self]

theorem Sound.lt (h : s.Sound loads skip) (hopen : (s.clients i).isOpen = true) :
    i < s.numClients := by
  by_contra hle
  rw [h.closed i (not_lt.1 hle)] at hopen
  exact Bool.false_ne_true hopen

/-- Two open clients have two descriptors. -/
theorem Sound.fd_ne (h : s.Sound loads skip) {j : ℕ} (hj : j ≠ i)
    (hi : (s.clients i).isOpen = true) (hopen : (s.clients j).isOpen = true) :
    (s.clients j).fd ≠ (s.clients i).fd := by
  intro heq
  have hfds := h.fds_eq j hopen
  rw [heq, h.fds_eq i hi, Option.some.injEq, Handle.mk.injEq, Owner.client.injEq] at hfds
  exact hj hfds.1.symm

/-- The descriptor of the server is not that of an open client. -/
theorem Sound.server_ne (h : s.Sound loads skip) {fd : ℕ} (hserver : s.serverFd = some fd)
    (hi : (s.clients i).isOpen = true) : fd ≠ (s.clients i).fd := by
  rintro rfl
  obtain ⟨handle, hfds, howner⟩ := h.server _ hserver
  rw [h.fds_eq i hi, Option.some.injEq] at hfds
  rw [← hfds] at howner
  exact Owner.noConfusion howner

theorem Sound.weaken (h : s.Sound loads none) : s.Sound loads skip :=
  ⟨h.fds_eq, h.owner, h.server, fun i _ => h.buffer i (by simp), h.kept, h.closed⟩

/-- The data of a client is changed, but neither its descriptor nor whether it is blocking. -/
theorem Sound.modify (h : s.Sound loads none) {f : Client → Client}
    (hfd : (f (s.clients i)).fd = (s.clients i).fd)
    (hopen : (f (s.clients i)).isOpen = (s.clients i).isOpen)
    (hblocking : (f (s.clients i)).isBlocking = (s.clients i).isBlocking)
    (hbuffer : skip ≠ some i → (f (s.clients i)).sendBuffer = (s.clients i).sendBuffer)
    (hkept : (f (s.clients i)).Kept loads) : (s.modify i f).Sound loads skip := by
  have hsame : ∀ j, ((s.modify i f).clients j).fd = (s.clients j).fd ∧
      ((s.modify i f).clients j).isOpen = (s.clients j).isOpen ∧
      ((s.modify i f).clients j).isBlocking = (s.clients j).isBlocking := by
    intro j
    by_cases hj : j = i
    · subst hj
      rw [modify_clients]
      exact ⟨hfd, hopen, hblocking⟩
    · rw [modify_clients_ne f hj]
      exact ⟨rfl, rfl, rfl⟩
  refine ⟨fun j hj => ?_, fun fd handle hfds => ?_, h.server, fun j hskip hj => ?_, fun j => ?_,
    fun j hj => ?_⟩
  · obtain ⟨hfd, hopen, hblocking⟩ := hsame j
    rw [hopen] at hj
    rw [hfd, hblocking]
    exact h.fds_eq j hj
  · refine (h.owner fd handle hfds).imp_right ?_
    rintro ⟨j, howner, hj, hfd'⟩
    obtain ⟨hfd, hopen, -⟩ := hsame j
    exact ⟨j, howner, hopen.trans hj, hfd.trans hfd'⟩
  · obtain ⟨-, hopen, hblocking⟩ := hsame j
    rw [hopen] at hj
    rw [hblocking, h.buffer j (by simp) hj]
    by_cases hji : j = i
    · subst hji
      rw [modify_clients, hbuffer hskip]
    · rw [modify_clients_ne f hji]
  · by_cases hji : j = i
    · subst hji
      rw [modify_clients]
      exact hkept
    · rw [modify_clients_ne f hji]
      exact h.kept j
  · exact (hsame j).2.1.trans (h.closed j hj)

/-- A client and what waits for its descriptor are replaced. -/
theorem Sound.replace (h : s.Sound loads (some i)) (hi : (s.clients i).isOpen = true) {c : Client}
    (hfd : c.fd = (s.clients i).fd)
    (hbuffer : c.isOpen = true → (c.isBlocking = true ↔ c.sendBuffer ≠ []))
    (hkept : c.Kept loads) {waiting : Option Handle}
    (hwaiting : waiting =
      if c.isOpen then some ⟨.client i, !c.isBlocking, c.isBlocking⟩ else none) :
    Sound loads none { s with
      fds := Function.update s.fds (s.clients i).fd waiting
      clients := Function.update s.clients i c } := by
  refine ⟨fun j hj => ?_, fun fd handle hfds => ?_, fun fd hserver => ?_, fun j _ hj => ?_,
    fun j => ?_, fun j hj => ?_⟩
  all_goals dsimp only at *
  · by_cases hji : j = i
    · subst hji
      rw [Function.update_self] at hj ⊢
      rw [hfd, Function.update_self, hwaiting, if_pos hj]
    · rw [Function.update_of_ne hji] at hj ⊢
      rw [Function.update_of_ne (h.fd_ne hji hi hj), h.fds_eq j hj]
  · by_cases hfd' : fd = (s.clients i).fd
    · subst hfd'
      rw [Function.update_self, hwaiting] at hfds
      obtain ⟨hopen, heq⟩ := Option.ite_none_right_eq_some.1 hfds
      refine .inr ⟨i, ?_, ?_, ?_⟩
      · rw [← Option.some.inj heq]
      · rw [Function.update_self, hopen]
      · rw [Function.update_self, hfd]
    · rw [Function.update_of_ne hfd'] at hfds
      refine (h.owner fd handle hfds).imp_right ?_
      rintro ⟨j, howner, hj, heq⟩
      have hji : j ≠ i := fun hji => hfd' (hji ▸ heq.symm)
      exact ⟨j, howner, by rw [Function.update_of_ne hji, hj],
        by rw [Function.update_of_ne hji, heq]⟩
  · rw [Function.update_of_ne (h.server_ne hserver hi)]
    exact h.server fd hserver
  · by_cases hji : j = i
    · subst hji
      rw [Function.update_self] at hj ⊢
      exact hbuffer hj
    · rw [Function.update_of_ne hji] at hj ⊢
      exact h.buffer j (fun heq => hji (Option.some.inj heq).symm) hj
  · by_cases hji : j = i
    · subst hji
      rw [Function.update_self]
      exact hkept
    · rw [Function.update_of_ne hji]
      exact h.kept j
  · have hji : j ≠ i := fun hji => absurd (h.lt hi) (not_lt.2 (hji ▸ hj))
    rw [Function.update_of_ne hji]
    exact h.closed j hj

/-- An open client is blocking or not, and its descriptor waits accordingly. -/
theorem Sound.wake (h : s.Sound loads (some i)) (hi : (s.clients i).isOpen = true) {c : Client}
    (hfd : c.fd = (s.clients i).fd) (hopen : c.isOpen = true)
    (hbuffer : c.isBlocking = true ↔ c.sendBuffer ≠ []) (hkept : c.Kept loads) :
    Sound loads none { s with
      fds := Function.update s.fds (s.clients i).fd
        (some ⟨.client i, !c.isBlocking, c.isBlocking⟩)
      clients := Function.update s.clients i c } :=
  h.replace hi hfd (fun _ => hbuffer) hkept (if_pos hopen).symm

theorem sound_close (h : s.Sound loads (some i)) (hi : (s.clients i).isOpen = true) :
    (s.close i).Sound loads none := by
  have hclose : s.close i = { s with
      fds := Function.update s.fds (s.clients i).fd none
      clients := Function.update s.clients i { s.clients i with isOpen := false } } := if_pos hi
  rw [hclose]
  exact h.replace (c := { s.clients i with isOpen := false }) hi rfl
    (fun hopen => absurd hopen Bool.false_ne_true) ((h.kept i).congr rfl rfl rfl rfl rfl rfl) rfl

theorem sound_close_any (h : s.Sound loads none) (i : ℕ) : (s.close i).Sound loads none := by
  by_cases hi : (s.clients i).isOpen = true
  · exact sound_close h.weaken hi
  · have hclose : s.close i = s := if_neg hi
    rw [hclose]
    exact h

/-- After some bytes were taken the client is blocking if there are others. -/
theorem sent_eq (h : s.Sound loads (some i)) (hi : (s.clients i).isOpen = true) (n : ℕ) :
    ∃ c : Client, c.fd = (s.clients i).fd ∧ c.isOpen = true ∧
      (c.isBlocking = true ↔ n < (s.clients i).sendBuffer.length) ∧
      c.sendBuffer = (s.clients i).sendBuffer.drop n ∧ (c.Kept loads) ∧
      s.sent i n = { s with
        fds := Function.update s.fds (s.clients i).fd
          (some ⟨.client i, !c.isBlocking, c.isBlocking⟩)
        clients := Function.update s.clients i c } := by
  have hfds := h.fds_eq i hi
  have hshift := Client.kept_shift (h.kept i) n
  have hsame : s.fds = Function.update s.fds (s.clients i).fd
      (some ⟨.client i, !(s.clients i).isBlocking, (s.clients i).isBlocking⟩) := by
    rw [← hfds, Function.update_eq_self]
  unfold sent
  by_cases hn : n < (s.clients i).sendBuffer.length
  · cases hblocking : (s.clients i).isBlocking with
    | true =>
      refine ⟨(s.clients i).shift n, rfl, hi, iff_of_true hblocking hn, rfl, hshift, ?_⟩
      simp only [if_pos hn, hblocking, if_true]
      change { s with clients := _ } = { s with fds := _, clients := _ }
      rw [show ((s.clients i).shift n).isBlocking = (s.clients i).isBlocking from rfl, ← hsame]
    | false =>
      refine ⟨{ (s.clients i).shift n with isBlocking := true, blockingCount := 5 }, rfl, hi,
        iff_of_true rfl hn, rfl, hshift.congr rfl rfl rfl rfl rfl rfl, ?_⟩
      simp only [if_pos hn, hblocking, Bool.false_eq_true, if_false]
      rw [modify_modify]
      unfold setFdWake
      rw [hfds]
      rfl
  · cases hblocking : (s.clients i).isBlocking with
    | true =>
      refine ⟨{ (s.clients i).shift n with isBlocking := false }, rfl, hi,
        iff_of_false Bool.false_ne_true hn, rfl, hshift.congr rfl rfl rfl rfl rfl rfl, ?_⟩
      simp only [if_neg hn, hblocking, if_true]
      rw [modify_modify]
      unfold setFdWake
      rw [hfds]
      rfl
    | false =>
      refine ⟨(s.clients i).shift n, rfl, hi,
        iff_of_false (by rw [← Bool.not_eq_true] at hblocking; exact hblocking) hn, rfl, hshift, ?_⟩
      simp only [if_neg hn, hblocking, Bool.false_eq_true, if_false]
      change { s with clients := _ } = { s with fds := _, clients := _ }
      rw [show ((s.clients i).shift n).isBlocking = (s.clients i).isBlocking from rfl, ← hsame]

theorem sound_sent (h : s.Sound loads (some i)) (hi : (s.clients i).isOpen = true) (n : ℕ) :
    (s.sent i n).Sound loads none := by
  obtain ⟨c, hfd, hopen, hblocking, hbuffer, hkept, heq⟩ := sent_eq h hi n
  rw [heq]
  refine h.wake hi hfd hopen ?_ hkept
  rw [hblocking, hbuffer, ← List.length_pos_iff, List.length_drop]
  omega

theorem sound_doSend (h : s.Sound loads (some i)) (hi : (s.clients i).isOpen = true)
    (r : SendResult) : (s.doSend i r).Sound loads none := by
  unfold doSend
  rw [if_pos hi]
  cases r with
  | sent n => exact sound_sent h hi _
  | wouldBlock => exact sound_sent h hi 0
  | error => exact sound_close h hi

theorem sound_doSend_any (h : s.Sound loads none) (i : ℕ) (r : SendResult) :
    (s.doSend i r).Sound loads none := by
  by_cases hi : (s.clients i).isOpen = true
  · exact sound_doSend h.weaken hi r
  · unfold doSend
    rw [if_neg hi]
    exact h

/-! ### The callbacks of a poll -/

theorem sound_processReceived (h : s.Sound loads none) (i : ℕ) (recv : Option Bytes) :
    (s.processReceived loads i recv).Sound loads none := by
  match recv with
  | none => exact h
  | some [] => exact sound_close_any h i
  | some (b :: data) =>
    exact h.modify (f := fun c => c.receive loads (b :: data)) rfl rfl rfl (fun _ => rfl)
      (Client.kept_receive (h.kept i) (b :: data))

theorem sound_handleAccept (h : s.Sound loads none) (accept : Option ℕ) :
    (s.handleAccept accept).Sound loads none := by
  match accept with
  | none => exact h
  | some fd =>
    unfold handleAccept
    dsimp only
    split_ifs with hsome
    · exact h
    have hnone : s.fds fd = none := Option.not_isSome_iff_eq_none.1 hsome
    have hnew : ∀ j, (s.clients j).isOpen = true → j ≠ s.numClients :=
      fun j hj heq => absurd (h.lt hj) (not_lt.2 heq.ge)
    refine ⟨fun j hj => ?_, fun fd' handle hfds => ?_, fun fd' hserver => ?_, fun j _ hj => ?_,
      fun j => ?_, fun j hj => ?_⟩
    all_goals dsimp only at *
    · by_cases hji : j = s.numClients
      · subst hji
        rw [Function.update_self]
        exact Function.update_self ..
      · rw [Function.update_of_ne hji] at hj ⊢
        have hfd : (s.clients j).fd ≠ fd := fun heq => by
          rw [← heq, h.fds_eq j hj] at hnone
          cases hnone
        rw [Function.update_of_ne hfd, h.fds_eq j hj]
    · by_cases hfd' : fd' = fd
      · subst hfd'
        rw [Function.update_self] at hfds
        refine .inr ⟨s.numClients, ?_, ?_, ?_⟩
        · rw [← Option.some.inj hfds]
        · rw [Function.update_self]
          rfl
        · rw [Function.update_self]
          rfl
      · rw [Function.update_of_ne hfd'] at hfds
        refine (h.owner fd' handle hfds).imp_right ?_
        rintro ⟨j, howner, hj, heq⟩
        exact ⟨j, howner, by rw [Function.update_of_ne (hnew j hj), hj],
          by rw [Function.update_of_ne (hnew j hj), heq]⟩
    · obtain ⟨handle, hfds, howner⟩ := h.server fd' hserver
      have hfd' : fd' ≠ fd := fun heq => by
        rw [heq, hnone] at hfds
        cases hfds
      exact ⟨handle, (Function.update_of_ne hfd' ..).trans hfds, howner⟩
    · by_cases hji : j = s.numClients
      · subst hji
        rw [Function.update_self]
        exact iff_of_false Bool.false_ne_true fun hne => hne rfl
      · rw [Function.update_of_ne hji] at hj ⊢
        exact h.buffer j (by simp) hj
    · by_cases hji : j = s.numClients
      · subst hji
        rw [Function.update_self]
        exact Client.kept_new fd
      · rw [Function.update_of_ne hji]
        exact h.kept j
    · have hji : j ≠ s.numClients := by omega
      rw [Function.update_of_ne hji]
      exact h.closed j (by omega)

theorem sound_readCallback (h : s.Sound loads none) (r : Ready) (owner : Owner) :
    (s.readCallback loads r owner).Sound loads none := by
  cases owner with
  | server => exact sound_handleAccept h r.accept
  | client i => exact sound_processReceived h i r.recv

theorem sound_raised (h : s.Sound loads none) (raised : Bool) :
    ({ s with raised := raised } : Host).Sound loads none :=
  ⟨h.fds_eq, h.owner, h.server, h.buffer, h.kept, h.closed⟩

theorem sound_writeCallback (h : s.Sound loads none) (r : Ready) (owner : Owner) :
    (s.writeCallback r owner).Sound loads none := by
  cases owner with
  | server => exact sound_raised h true
  | client i => exact sound_doSend_any h i r.send

theorem sound_call (h : s.Sound loads none) {fd : ℕ} {callback : Owner → Host}
    (hcallback : ∀ owner, (callback owner).Sound loads none) :
    (s.call fd callback).Sound loads none := by
  unfold call
  cases s.fds fd with
  | none => exact sound_raised h true
  | some handle => exact hcallback handle.owner

theorem sound_dispatchOne (h : s.Sound loads none) (r : Ready) :
    (s.dispatchOne loads r).Sound loads none := by
  have hread : (if r.readable then s.call r.fd (s.readCallback loads r) else s).Sound loads
      none := by
    split_ifs
    · exact sound_call h (sound_readCallback h r)
    · exact h
  unfold dispatchOne
  dsimp only
  generalize (if r.readable then s.call r.fd (s.readCallback loads r) else s) = t at hread ⊢
  split_ifs
  · exact hread
  · exact sound_call hread (sound_writeCallback hread r)
  · exact hread

theorem sound_dispatch (h : s.Sound loads none) (res : List Ready) :
    (s.dispatch loads res).Sound loads none := by
  induction res generalizing s with
  | nil => exact h
  | cons r res ih =>
    have hone := sound_dispatchOne h r
    unfold dispatch
    dsimp only
    split_ifs
    · exact hone
    · exact ih hone

/-! ### Callbacks that are not registered -/

theorem raised_close (i : ℕ) : (s.close i).raised = s.raised := by
  unfold close
  split_ifs <;> rfl

theorem raised_doSend (i : ℕ) (r : SendResult) : (s.doSend i r).raised = s.raised := by
  have hsent : ∀ n, (s.sent i n).raised = s.raised := fun n => by
    unfold sent
    dsimp only
    split_ifs <;> rfl
  unfold doSend
  split_ifs
  · cases r with
    | sent n => exact hsent _
    | wouldBlock => exact hsent 0
    | error => exact raised_close i
  · rfl

theorem raised_readCallback (r : Ready) (owner : Owner) :
    (s.readCallback loads r owner).raised = s.raised := by
  cases owner with
  | server =>
    change (s.handleAccept r.accept).raised = s.raised
    unfold handleAccept
    split
    · rfl
    · split_ifs <;> rfl
  | client i =>
    change (s.processReceived loads i r.recv).raised = s.raised
    unfold processReceived
    split
    · rfl
    · exact raised_close i
    · rfl

/-- Only the descriptor of a client that is closed changes. -/
theorem fds_close {fd : ℕ} (hfd : fd ≠ (s.clients i).fd) : (s.close i).fds fd = s.fds fd := by
  unfold close
  split_ifs
  · exact Function.update_of_ne hfd ..
  · rfl

theorem fds_sent (n : ℕ) {fd : ℕ} (hfd : fd ≠ (s.clients i).fd) :
    (s.sent i n).fds fd = s.fds fd := by
  unfold sent
  dsimp only
  split_ifs
  · rfl
  · exact Function.update_of_ne hfd ..
  · exact Function.update_of_ne hfd ..
  · rfl

theorem fds_doSend (r : SendResult) {fd : ℕ} (hfd : fd ≠ (s.clients i).fd) :
    (s.doSend i r).fds fd = s.fds fd := by
  unfold doSend
  split_ifs
  · cases r with
    | sent n => exact fds_sent _ hfd
    | wouldBlock => exact fds_sent 0 hfd
    | error => exact fds_close hfd
  · rfl

/-- The callback of another descriptor leaves a descriptor registered as it is. -/
theorem fds_readCallback (h : s.Sound loads none) (r : Ready) {handle handle' : Handle} {fd : ℕ}
    (hr : s.fds r.fd = some handle) (hfd : s.fds fd = some handle') (hne : fd ≠ r.fd) :
    (s.readCallback loads r handle.owner).fds fd = some handle' := by
  rcases h.owner r.fd handle hr with ⟨howner, -⟩ | ⟨i, howner, -, hi⟩
  · rw [howner]
    change (s.handleAccept r.accept).fds fd = _
    unfold handleAccept
    split
    · exact hfd
    · split_ifs with hsome
      · exact hfd
      · refine (Function.update_of_ne (fun heq => hsome ?_) ..).trans hfd
        rw [← heq, hfd]
        rfl
  · rw [howner]
    change (s.processReceived loads i r.recv).fds fd = _
    unfold processReceived
    split
    · exact hfd
    · rw [fds_close (hi ▸ hne), hfd]
    · exact hfd

/-- Its own read callback leaves a descriptor registered, unless a client is at its end. -/
theorem fds_readCallback_self (h : s.Sound loads none) (r : Ready) {handle : Handle}
    (hr : s.fds r.fd = some handle) : (s.readCallback loads r handle.owner).fds r.fd =
      if handle.owner ≠ .server ∧ r.recv = some [] then none else some handle := by
  rcases h.owner r.fd handle hr with ⟨howner, -⟩ | ⟨i, howner, hopen, hi⟩
  · rw [howner, if_neg fun hand => hand.1 rfl]
    change (s.handleAccept r.accept).fds r.fd = _
    unfold handleAccept
    split
    · exact hr
    · split_ifs with hsome
      · exact hr
      · refine (Function.update_of_ne (fun heq => hsome ?_) ..).trans hr
        rw [← heq, hr]
        rfl
  · rw [howner]
    change (s.processReceived loads i r.recv).fds r.fd = _
    unfold processReceived
    split
    next hrecv => rw [hrecv, if_neg (fun hand => nomatch hand.2), hr]
    next hrecv =>
      rw [if_pos ⟨Owner.noConfusion, hrecv⟩]
      unfold close
      rw [if_pos hopen, ← hi]
      exact Function.update_self ..
    next b data hrecv => rw [hrecv, if_neg (fun hand => nomatch hand.2), modify_fds, hr]

/-- The descriptors that a poll returned are registered, and those of the server do not wait for
output. -/
def Waits (s : Host) (r : Ready) : Prop :=
  ∃ handle, s.fds r.fd = some handle ∧ (r.writable = true → handle.owner ≠ .server)

/-- A connection ends while its descriptor is also ready for output. -/
def EndsWritable (r : Ready) : Prop :=
  r.readable = true ∧ r.writable = true ∧ r.recv = some []

theorem raised_dispatchOne (h : s.Sound loads none) {r : Ready} (hraised : s.raised = false)
    (hwaits : s.Waits r) : (s.dispatchOne loads r).raised = true ↔ EndsWritable r := by
  obtain ⟨handle, hfds, hwritable⟩ := hwaits
  have hcall : ∀ {t : Host}, t.raised = false → t.fds r.fd = some handle → r.writable = true →
      (t.call r.fd (t.writeCallback r)).raised = false := by
    intro t ht hfds hw
    unfold call
    rw [hfds]
    cases howner : handle.owner with
    | server => exact absurd howner (hwritable hw)
    | client i =>
      simp only [howner]
      exact (raised_doSend i r.send).trans ht
  unfold dispatchOne EndsWritable
  cases hreadable : r.readable with
  | false =>
    simp only [Bool.false_eq_true, if_false, hraised, false_and, iff_false, Bool.not_eq_true]
    split_ifs with hw
    · exact hcall hraised hfds hw
    · exact hraised
  | true =>
    have hread : s.call r.fd (s.readCallback loads r) = s.readCallback loads r handle.owner := by
      unfold call
      rw [hfds]
    have hsame : (s.readCallback loads r handle.owner).raised = false :=
      (raised_readCallback r handle.owner).trans hraised
    have hself := fds_readCallback_self h r hfds
    simp only [if_true, hread, hsame, Bool.false_eq_true, if_false, true_and]
    generalize s.readCallback loads r handle.owner = t at hsame hself ⊢
    cases hw : r.writable with
    | false => simp [hsame]
    | true =>
      by_cases hrecv : r.recv = some []
      · rw [if_pos ⟨hwritable hw, hrecv⟩] at hself
        simp [call, hself, hrecv]
      · rw [if_neg fun hand => hrecv hand.2] at hself
        simp [hcall hsame hself hw, hrecv]

theorem waits_dispatchOne (h : s.Sound loads none) {r r' : Ready} (hwaits : s.Waits r)
    (hwaits' : s.Waits r') (hne : r'.fd ≠ r.fd) : (s.dispatchOne loads r).Waits r' := by
  obtain ⟨handle, hfds, hwritable⟩ := hwaits
  obtain ⟨handle', hfds', hwritable'⟩ := hwaits'
  refine ⟨handle', ?_, hwritable'⟩
  have hwrite : ∀ {t : Host}, t.Sound loads none → t.fds r'.fd = some handle' →
      (t.call r.fd (t.writeCallback r)).fds r'.fd = some handle' := by
    intro t ht hfds'
    unfold call
    cases hfds : t.fds r.fd with
    | none => exact hfds'
    | some handle =>
      rcases ht.owner r.fd handle hfds with ⟨howner, -⟩ | ⟨i, howner, -, hi⟩
      · simp only [howner]
        exact hfds'
      · simp only [howner]
        exact (fds_doSend r.send (hi ▸ hne)).trans hfds'
  have hread : (if r.readable then s.call r.fd (s.readCallback loads r) else s).fds r'.fd =
      some handle' := by
    split_ifs
    · unfold call
      rw [hfds]
      exact fds_readCallback h r hfds hfds' hne
    · exact hfds'
  have hsound : (if r.readable then s.call r.fd (s.readCallback loads r) else s).Sound loads
      none := by
    split_ifs
    · exact sound_call h (sound_readCallback h r)
    · exact h
  unfold dispatchOne
  dsimp only
  generalize (if r.readable then s.call r.fd (s.readCallback loads r) else s) = t at hread hsound ⊢
  split_ifs
  · exact hread
  · exact hwrite hsound hread
  · exact hread

/-- A callback that is not registered is called exactly if a connection ends while its descriptor is
also ready for output. -/
theorem raised_dispatch_iff (h : s.Sound loads none) {res : List Ready} (hraised : s.raised = false)
    (hnodup : (res.map Ready.fd).Nodup) (hwaits : ∀ r ∈ res, s.Waits r) :
    (s.dispatch loads res).raised = true ↔ ∃ r ∈ res, EndsWritable r := by
  induction res generalizing s with
  | nil => simp [dispatch, hraised]
  | cons r res ih =>
    obtain ⟨hr, hnodup⟩ := List.nodup_cons.1 hnodup
    have hone := raised_dispatchOne h hraised (hwaits r List.mem_cons_self)
    unfold dispatch
    dsimp only
    by_cases hends : EndsWritable r
    · rw [if_pos (hone.2 hends)]
      exact iff_of_true (hone.2 hends) ⟨r, List.mem_cons_self, hends⟩
    · rw [if_neg (mt hone.1 hends), ih (sound_dispatchOne h r) ?_ hnodup fun r' hr' => ?_,
        List.exists_mem_cons_iff, or_iff_right hends]
      · exact eq_false_of_ne_true (mt hone.1 hends)
      · refine waits_dispatchOne h (hwaits r List.mem_cons_self)
          (hwaits r' (List.mem_cons_of_mem _ hr')) fun heq => hr ?_
        exact heq ▸ List.mem_map_of_mem hr'

/-! ### Messages -/

theorem Sound.of_buffer (h : s.Sound loads (some i)) (hbuffer : (s.clients i).isOpen = true →
    ((s.clients i).isBlocking = true ↔ (s.clients i).sendBuffer ≠ [])) : s.Sound loads none := by
  refine ⟨h.fds_eq, h.owner, h.server, fun j _ hj => ?_, h.kept, h.closed⟩
  by_cases hji : j = i
  · subst hji
    exact hbuffer hj
  · exact h.buffer j (fun heq => hji (Option.some.inj heq).symm) hj

/-- A message that was added to the buffer is sent. -/
theorem sound_flush (h : s.Sound loads none) {f : Client → Client}
    (hfd : (f (s.clients i)).fd = (s.clients i).fd)
    (hopen : (f (s.clients i)).isOpen = (s.clients i).isOpen)
    (hblocking : (f (s.clients i)).isBlocking = (s.clients i).isBlocking)
    (hbuffer : (f (s.clients i)).sendBuffer ≠ []) (hkept : (f (s.clients i)).Kept loads)
    (r : SendResult) :
    (if ((s.modify i f).clients i).isBlocking then s.modify i f
      else (s.modify i f).doSend i r).Sound loads none := by
  have hmodify : (s.modify i f).Sound loads (some i) :=
    h.modify hfd hopen hblocking (fun hskip => absurd rfl hskip) hkept
  split_ifs with hb
  · exact hmodify.of_buffer fun _ => iff_of_true hb (by rwa [modify_clients])
  · by_cases hi : ((s.modify i f).clients i).isOpen = true
    · exact sound_doSend hmodify hi r
    · have hclosed : (s.modify i f).doSend i r = s.modify i f := if_neg hi
      rw [hclosed]
      exact hmodify.of_buffer fun hi' => absurd hi' hi

theorem sound_send (h : s.Sound loads none) (i : ℕ) (d : δ) (r : SendResult) :
    (s.send dumps i none (.data d) r).Sound loads none := by
  unfold send
  cases dumps (.data d) with
  | none => exact h
  | some jmsg =>
    exact sound_flush (f := (·.push none jmsg)) h rfl rfl rfl (by simp [Client.push])
      (Client.kept_push (h.kept i) jmsg) r

/-- A handler is done; its answer, if there is one, can be encoded. -/
theorem sound_finishRequest (h : s.Sound loads none) {k : ℕ} {w : WebRequest} {o : HandlerResult δ}
    (hk : (s.clients i).requests[k]? = some (w, .running))
    (hdumps : ∀ m, w.finish o = some m → (dumps m).isSome = true) (r : SendResult) :
    (s.finishRequest dumps i k w o r).Sound loads none := by
  have hnull : w.finish o = none ↔ w.id.isNull = true := by
    cases o with
    | returns response => simp [WebRequest.finish]
    | raises msg => simp [WebRequest.finish]
  unfold finishRequest
  cases hfinish : w.finish o with
  | none =>
    exact h.modify (f := (·.setStatus k .done)) rfl rfl rfl (fun _ => rfl)
      (Client.kept_done (h.kept i) hk (hnull.1 hfinish))
  | some m =>
    obtain ⟨jmsg, hjmsg⟩ := Option.isSome_iff_exists.1 (hdumps m hfinish)
    have hid : w.id.isNull = false := by
      rw [← Bool.not_eq_true, ← hnull, hfinish]
      exact Option.some_ne_none m
    simp only [send, hjmsg, modify_modify]
    exact sound_flush (f := fun c => (c.setStatus k .done).push (some k) jmsg) h rfl rfl rfl
      (by simp [Client.push]) (Client.kept_answer (h.kept i) hk hid jmsg) r

/-! ### The events of the printer -/

theorem sound_statsOne (h : s.Sound loads none) (i : ℕ) : (s.statsOne i).Sound loads none := by
  have hmodify : (s.modify i fun c => { c with blockingCount := c.blockingCount - 1 }).Sound
      loads none :=
    h.modify rfl rfl rfl (fun _ => rfl) ((h.kept i).congr rfl rfl rfl rfl rfl rfl)
  unfold statsOne
  dsimp only
  split_ifs
  · exact sound_close_any hmodify i
  · exact hmodify
  · exact h

theorem sound_foldl (f : Host → ℕ → Host)
    (hf : ∀ s i, Sound loads none s → (f s i).Sound loads none) (h : s.Sound loads none)
    (l : List ℕ) : (l.foldl f s).Sound loads none := by
  induction l generalizing s with
  | nil => exact h
  | cons i l ih => exact ih (hf s i h)

theorem serverFd_close (i : ℕ) : (s.close i).serverFd = s.serverFd := by
  unfold close
  split_ifs <;> rfl

theorem sound_handleDisconnect (h : s.Sound loads none) {fd : ℕ} (hserver : s.serverFd = some fd) :
    (s.handleDisconnect fd).Sound loads none := by
  have hclosed := sound_foldl close (fun _ i h => sound_close_any h i) h (List.range s.numClients)
  have hsame : ∀ (l : List ℕ) (t : Host), (l.foldl close t).serverFd = t.serverFd := by
    intro l
    induction l with
    | nil => exact fun _ => rfl
    | cons i l ih => exact fun t => (ih _).trans (serverFd_close i)
  have hfd := (hsame (List.range s.numClients) s).trans hserver
  unfold handleDisconnect
  dsimp only
  generalize (List.range s.numClients).foldl close s = t at hclosed hfd ⊢
  refine ⟨fun j hj => ?_, fun fd' handle hfds => ?_, (fun _ hnone => nomatch hnone), hclosed.buffer,
    hclosed.kept, hclosed.closed⟩
  · exact (Function.update_of_ne (hclosed.server_ne hfd hj).symm ..).trans (hclosed.fds_eq j hj)
  · by_cases heq : fd' = fd
    · subst heq
      exact absurd hfds (by simp [unregisterFd])
    · exact hclosed.owner fd' handle ((Function.update_of_ne heq ..).symm.trans hfds)

end Host

/-! ## Every run -/

variable (dumps) in
/-- No connection ends in a poll that also finds its descriptor ready for output, and every answer
can be encoded. -/
def Fine (s : Host) : Event δ → Prop
  | .poll res => ∀ r ∈ res, ¬ Host.EndsWritable r
  | .finish i k o _ => ∀ w, (s.clients i).requests[k]? = some (w, .running) →
      ∀ m, w.finish o = some m → (dumps m).isSome = true
  | _ => True

/-- The states of a run whose events satisfy a condition. -/
inductive Run (loads : Bytes → Option Json) (dumps : Message δ → Option Bytes)
    (condition : Host → Event δ → Prop) (serverFd : ℕ) : Host → Prop
  | init : Run loads dumps condition serverFd (.init serverFd)
  | step {s s' : Host} {e : Event δ} (h : Run loads dumps condition serverFd s)
      (hcondition : condition s e) (hstep : Step loads dumps s e s') :
      Run loads dumps condition serverFd s'

variable {s s' : Host}

theorem sound_init (serverFd : ℕ) : (Host.init serverFd).Sound loads none := by
  have hself : (Host.init serverFd).fds serverFd = some ⟨.server, true, false⟩ := by
    simp [Host.init]
  have hother : ∀ fd, fd ≠ serverFd → (Host.init serverFd).fds fd = none := fun fd hne => by
    simp [Host.init, hne]
  refine ⟨fun _ hopen => absurd hopen Bool.false_ne_true, fun fd handle hfds => .inl ?_,
    fun fd hserver => ⟨⟨.server, true, false⟩, ?_, rfl⟩,
    fun _ _ hopen => absurd hopen Bool.false_ne_true,
    fun _ => (Client.kept_new 0).congr rfl rfl rfl rfl rfl rfl, fun _ _ => rfl⟩
  · by_cases heq : fd = serverFd
    · rw [heq, hself, Option.some.injEq] at hfds
      rw [← hfds]
      exact ⟨rfl, rfl⟩
    · rw [hother fd heq] at hfds
      cases hfds
  · cases hserver
    exact hself

theorem waits_of_polled (h : s.Sound loads none) {res : List Ready} (hpolled : Polled s res) :
    ∀ r ∈ res, s.Waits r := by
  intro r hr
  obtain ⟨handle, hfds, hwritable⟩ := hpolled.2 r hr
  refine ⟨handle, hfds, fun hw hserver => ?_⟩
  rcases h.owner r.fd handle hfds with ⟨-, hnot⟩ | ⟨i, howner, -⟩
  · exact Bool.false_ne_true (hnot.symm.trans (hwritable hw))
  · exact Owner.noConfusion (hserver.symm.trans howner)

theorem raised_stats (s : Host) : s.stats.raised = s.raised := by
  have hone : ∀ (t : Host) (i : ℕ), (t.statsOne i).raised = t.raised := by
    intro t i
    unfold Host.statsOne
    dsimp only
    split_ifs
    · exact Host.raised_close i
    · rfl
    · rfl
  have hall : ∀ (l : List ℕ) (t : Host), (l.foldl Host.statsOne t).raised = t.raised := by
    intro l
    induction l with
    | nil => exact fun _ => rfl
    | cons i l ih => exact fun t => (ih _).trans (hone t i)
  exact hall _ s

theorem raised_handleDisconnect (s : Host) (fd : ℕ) :
    (s.handleDisconnect fd).raised = s.raised := by
  have hall : ∀ (l : List ℕ) (t : Host), (l.foldl Host.close t).raised = t.raised := by
    intro l
    induction l with
    | nil => exact fun _ => rfl
    | cons i l ih => exact fun t => (ih _).trans (Host.raised_close i)
  exact hall _ s

theorem raised_send (s : Host) (i : ℕ) (origin : Option ℕ) (m : Message δ) (r : SendResult) :
    (s.send dumps i origin m r).raised = s.raised := by
  unfold Host.send
  cases dumps m with
  | none => rfl
  | some jmsg =>
    dsimp only
    split_ifs
    · rfl
    · exact Host.raised_doSend i r

theorem sound_step {e : Event δ} (h : s.Sound loads none) (hfine : Fine dumps s e)
    (hstep : Step loads dumps s e s') : s'.Sound loads none ∧ s'.raised = false := by
  cases hstep with
  | poll halive hpolled =>
    refine ⟨Host.sound_dispatch h _, eq_false_of_ne_true fun hraised => ?_⟩
    obtain ⟨r, hr, hends⟩ :=
      (Host.raised_dispatch_iff h halive hpolled.1 (waits_of_polled h hpolled)).1 hraised
    exact hfine r hr hends
  | start halive hwaiting =>
    exact ⟨h.modify rfl rfl rfl (fun _ => rfl) (Client.kept_start (h.kept _) hwaiting), halive⟩
  | finish halive hrunning =>
    refine ⟨Host.sound_finishRequest h hrunning (hfine _ hrunning) _, ?_⟩
    unfold Host.finishRequest
    dsimp only
    split
    · exact halive
    · exact (raised_send _ _ _ _ _).trans halive
  | send halive => exact ⟨Host.sound_send h _ _ _, (raised_send _ _ _ _ _).trans halive⟩
  | stats halive =>
    exact ⟨Host.sound_foldl _ (fun _ i h => Host.sound_statsOne h i) h _,
      (raised_stats s).trans halive⟩
  | disconnect halive hserver =>
    exact ⟨Host.sound_handleDisconnect h hserver, (raised_handleDisconnect s _).trans halive⟩

theorem sound_run {serverFd : ℕ} (h : Run loads dumps (Fine dumps) serverFd s) :
    s.Sound loads none ∧ s.raised = false := by
  induction h with
  | init => exact ⟨sound_init serverFd, rfl⟩
  | step _ hfine hstep ih => exact sound_step ih.1 hfine hstep

variable (loads) in
/-- What holds of every connection: its requests are those that were received completely and are
valid, the handler of each is called once and each that is done is answered once if it has an id,
the bytes that were written begin the messages that were passed to `send`, and an open client is
blocking exactly while its buffer has data and its descriptor waits for output only. -/
structure Host.Healthy (s : Host) : Prop where
  requests_eq : ∀ i, (s.clients i).requests.map Prod.fst =
    ((s.clients i).received.splitOn 3).dropLast.filterMap
      fun req => (loads req).bind WebRequest.ofJson
  processed_eq : ∀ i k, (s.clients i).processed.count k = calls (s.clients i).requests[k]?
  passed_eq : ∀ i k, (s.clients i).passed.countP (·.1 == some k) =
    answers (s.clients i).requests[k]?
  written_prefix : ∀ i, (s.clients i).written <+: ((s.clients i).passed.map Prod.snd).flatten
  blocking_iff : ∀ i, (s.clients i).isOpen = true → ((s.clients i).isBlocking = true ↔
    (s.clients i).sendBuffer ≠ [] ∧
      s.fds (s.clients i).fd = some ⟨.client i, false, true⟩)

theorem Host.Sound.healthy (h : s.Sound loads none) : s.Healthy loads where
  requests_eq i := (h.kept i).requests_eq
  processed_eq i := (h.kept i).processed_eq
  passed_eq i := (h.kept i).passed_eq
  written_prefix i := ⟨_, (h.kept i).written_eq⟩
  blocking_iff i hi := by
    have hbuffer := h.buffer i (by simp) hi
    rw [h.fds_eq i hi, ← hbuffer]
    cases (s.clients i).isBlocking <;> simp

/-- A request that every text stands for. -/
def infoRequest : Json :=
  .obj [("id".toList, .num 1), ("method".toList, .str "info".toList)]

/-- What is ready when a client connects. -/
def connecting : Ready :=
  ⟨3, true, false, none, .wouldBlock, some 4⟩

/-- The request of a client that is polled. -/
def requesting : Ready :=
  ⟨4, true, false, some [65, 3], .wouldBlock, none⟩

theorem polled_connecting : Polled (.init 3) [connecting] :=
  ⟨List.nodup_singleton _, by simp [connecting, Host.init]⟩

/-- The client of a blocked connection closes it. -/
def hangUp : Ready :=
  ⟨4, true, true, some [], .wouldBlock, none⟩

end Webhooks

end Thinker
