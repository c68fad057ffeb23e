import Mathlib.Data.List.ReduceOption
import Mathlib.Tactic
import Thinker.Json
import Thinker.Raises

/-!
# JSON-RPC requests

`dispatch` decodes a message, hands each object of it to `processObject`, and encodes what these
answer. A method that is called runs until it returns or raises, and what other tasks do while it
waits is part of its run, so a method is a function of the whole host.
-/

namespace Thinker

namespace JsonRpc

/-- What a response of the client resolves its future to: its result, or the error that
`client_data["name"]`, the code and the message of the response make. The message is the one in the
response or tells the whole response. -/
inductive Reply where
  | result (r : Json)
  | error (name : Text) (code : Json) (msg : Json ⊕ Json)

/-- What a method does: it returns a value, or it raises a `TypeError`, a `ServerError` with its
status code, or another exception. -/
inductive Outcome where
  | result (r : Json)
  | typeError (msg : Text)
  | serverError (statusCode : ℤ) (msg : Text)
  | exception (msg : Text)

/-- The exceptions of `dispatch` itself. -/
inductive Raised where
  | attributeError
  | typeError
  | invalidState
  deriving DecidableEq

/-- A connection and the rest of the host. Of the futures in `pendingResponses` the flag tells
whether they are done, as those are whose caller waits no longer. -/
structure Host (σ : Type*) where
  clientName : Text
  pendingResponses : List (ℤ × Bool)
  resolved : List (ℤ × Reply)
  world : σ

/-- The parameters of a call, with the connection under `_socket_` if there is one. -/
structure Params where
  members : List (Text × Json)
  socket : Bool

/-- The method that a host has registered under a name. -/
abbrev Methods (σ : Type*) :=
  Host σ → Text → Option (Params → Host σ → Host σ × Outcome)

variable {σ : Type*}

/-- `build_result`. -/
def buildResult (result reqId : Json) : Json :=
  .obj [("jsonrpc".toList, .str "2.0".toList), ("result".toList, result), ("id".toList, reqId)]

/-- `build_error`. -/
def buildError (code : ℤ) (msg : Text) (reqId : Json) : Json :=
  .obj [("jsonrpc".toList, .str "2.0".toList),
    ("error".toList, .obj [("code".toList, .num code), ("message".toList, .str msg)]),
    ("id".toList, reqId)]

/-- `execute_method`. -/
def executeMethod (conn : Bool) (callback : Params → Host σ → Host σ × Outcome) (reqId : Json)
    (params : List (Text × Json)) (h : Host σ) : Host σ × Option Json :=
  let (h, outcome) := callback ⟨params, conn⟩ h
  match outcome with
  | .result r => (h, if reqId.isNull then none else some (buildResult r reqId))
  | .typeError e => (h, some (buildError (-32602) ("Invalid params:\n".toList ++ e) reqId))
  | .serverError statusCode e =>
    let code := if statusCode = 404 then -32601 else if statusCode = 401 then -32602 else statusCode
    (h, some (buildError code e reqId))
  | .exception e => (h, some (buildError (-31000) e reqId))

/-- `resolve_pending_response`. A key is hashed unless the dictionary is empty, and a future that is
done takes no result. -/
def resolvePendingResponse (responseId : Json) (reply : Reply) (h : Host σ) :
    Host σ × Except Raised Unit :=
  if h.pendingResponses.isEmpty then (h, .ok ())
  else if !responseId.hashable then (h, .error .typeError)
  else
    match h.pendingResponses.find? fun e => responseId.equalsInt e.1 with
    | none => (h, .ok ())
    | some (key, done) =>
      let h := { h with pendingResponses := h.pendingResponses.filter (·.1 ≠ key) }
      if done then (h, .error .invalidState)
      else ({ h with resolved := h.resolved ++ [(key, reply)] }, .ok ())

/-- The result or the error of a response. -/
def replyOf (o : List (Text × Json)) (name : Text) : Reply :=
  match o.lookup "result".toList with
  | none | some .null =>
    match o.lookup "error".toList with
    | some (.obj error) =>
      .error name ((error.lookup "code".toList).getD (.num (-32600)))
        (((error.lookup "message".toList).map .inl).getD (.inr (.obj o)))
    | _ => .error name (.num (-32600)) (.inr (.obj o))
  | some r => .result r

/-- `process_response`. -/
def processResponse (conn : Bool) (o : List (Text × Json)) (h : Host σ) :
    Host σ × Except Raised Unit :=
  if !conn then (h, .ok ())
  else
    match o.lookup "id".toList with
    | none | some .null => (h, .ok ())
    | some responseId => resolvePendingResponse responseId (replyOf o h.clientName) h

/-- `process_object`. Only a dictionary has the method `get`. -/
def processObject (methods : Methods σ) (conn : Bool) (v : Json) (h : Host σ) :
    Host σ × Except Raised (Option Json) :=
  match v with
  | .obj o =>
    let reqId := (o.lookup "id".toList).getD .null
    match o.lookup "jsonrpc".toList with
    | some (.str version) =>
      if version ≠ "2.0".toList then
        (h, .ok (some (buildError (-32600) "Invalid Request".toList reqId)))
      else
        match o.lookup "method".toList with
        | none =>
          let (h, done) := processResponse conn o h
          (h, done.map fun _ => none)
        | some (.str methodName) =>
          match methods h methodName with
          | none => (h, .ok (some (buildError (-32601) "Method not found".toList reqId)))
          | some callback =>
            match o.lookup "params".toList with
            | none =>
              let (h, response) := executeMethod conn callback reqId [] h
              (h, .ok response)
            | some (.obj params) =>
              let (h, response) := executeMethod conn callback reqId params h
              (h, .ok response)
            | some _ => (h, .ok (some (buildError (-32602) "Invalid params:".toList reqId)))
        | some _ => (h, .ok (some (buildError (-32600) "Invalid Request".toList reqId)))
    | _ => (h, .ok (some (buildError (-32600) "Invalid Request".toList reqId)))
  | _ => (h, .error .attributeError)

/-- `field in params`, and then the assignment that hides the field. A dictionary takes it; a list
or a string in which the field is found does not, and in other values nothing can be looked for. -/
def sanitizeField (params : Json) (field : Text) : Except Raised Unit :=
  match params with
  | .obj _ => .ok ()
  | .arr items =>
    if items.any (fun v => match v with | .str t => t == field | _ => false)
    then .error .typeError else .ok ()
  | .str t => if t.has field then .error .typeError else .ok ()
  | _ => .error .typeError

/-- `_log_request`. -/
def logRequest (verbose : Bool) (v : Json) : Except Raised Unit :=
  if !verbose then .ok ()
  else
    match v with
    | .obj o =>
      let params := (o.lookup "params".toList).getD (.obj [])
      match o.lookup "method".toList with
      | some (.str method) =>
        if "access.".toList <+: method ∨ method = "machine.sudo.password".toList then .ok ()
        else if method = "server.connection.identify".toList then do
          sanitizeField params "access_token".toList
          sanitizeField params "api_key".toList
        else .ok ()
      | _ => .ok ()
    | _ => .error .attributeError

/-- An item is logged and processed. -/
def handle (methods : Methods σ) (verbose conn : Bool) (v : Json) (h : Host σ) :
    Host σ × Except Raised (Option Json) :=
  match logRequest verbose v with
  | .error e => (h, .error e)
  | .ok () => processObject methods conn v h

/-- The loop over the items of a batch. -/
def handleBatch (methods : Methods σ) (verbose conn : Bool) :
    List Json → List Json → Host σ → Host σ × Except Raised (List Json)
  | [], responses, h => (h, .ok responses)
  | item :: items, responses, h =>
    match handle methods verbose conn item h with
    | (h, .error e) => (h, .error e)
    | (h, .ok resp) => handleBatch methods verbose conn items (responses ++ resp.toList) h

/-- `dispatch`, with the decoder `loads`. The value it returns is what is encoded. -/
def dispatch (loads : Text → Option Json) (methods : Methods σ) (verbose conn : Bool) (data : Text)
    (h : Host σ) : Host σ × Except Raised (Option Json) :=
  match loads data with
  | none => (h, .ok (some (buildError (-32700) "Parse error".toList .null)))
  | some (.arr items) =>
    match handleBatch methods verbose conn items [] h with
    | (h, .error e) => (h, .error e)
    | (h, .ok responses) => (h, .ok (if responses.isEmpty then none else some (.arr responses)))
  | some v => handle methods verbose conn v h

/-! ## What a message has to be answered -/

/-- What an object is: a request, a request whose parameters are no dictionary, a response, or none
of them. -/
inductive Kind where
  | request (name : Text) (params : List (Text × Json))
  | badParams (name : Text)
  | response
  | invalid

/-- The kind of an object. -/
def kindOf (o : List (Text × Json)) : Kind :=
  match o.lookup "jsonrpc".toList with
  | some (.str version) =>
    if version ≠ "2.0".toList then .invalid
    else
      match o.lookup "method".toList, o.lookup "params".toList with
      | some (.str name), none => .request name []
      | some (.str name), some (.obj params) => .request name params
      | some (.str name), some _ => .badParams name
      | none, _ => .response
      | some _, _ => .invalid
  | _ => .invalid

/-- An error response. -/
def IsError (reqId response : Json) : Prop :=
  ∃ code msg, response = buildError code msg reqId

/-- An error response to what is no request. -/
def IsInvalidRequest (reqId response : Json) : Prop :=
  ∃ msg, response = buildError (-32600) msg reqId

/-- A response carries the result if the method returned, and otherwise an error. -/
def Outcome.Answers (reqId response : Json) : Outcome → Prop
  | .result r => response = buildResult r reqId
  | _ => IsError reqId response

/-- The answer that an item has to get on a host, and the host behind it. A response object gets
none, and of a request whose id is `null` nothing is asked. -/
inductive Serves (methods : Methods σ) (conn : Bool) :
    Json → Host σ → Option Json → Host σ → Prop
  | other {v : Json} {h : Host σ} {r : Json} (hv : v.isObj = false)
      (hr : IsInvalidRequest .null r) : Serves methods conn v h (some r) h
  | invalid {o : List (Text × Json)} {h : Host σ} {r : Json} (hkind : kindOf o = .invalid)
      (hr : IsInvalidRequest ((o.lookup "id".toList).getD .null) r) :
      Serves methods conn (.obj o) h (some r) h
  | badParams {o : List (Text × Json)} {h : Host σ} {r : Json} {name : Text}
      (hkind : kindOf o = .badParams name)
      (hr : IsError ((o.lookup "id".toList).getD .null) r) :
      Serves methods conn (.obj o) h (some r) h
  | response {o : List (Text × Json)} {h : Host σ} (hkind : kindOf o = .response) :
      Serves methods conn (.obj o) h none (processResponse conn o h).1
  | unknown {o : List (Text × Json)} {h : Host σ} {name : Text} {params : List (Text × Json)}
      {reqId r : Json} (hkind : kindOf o = .request name params)
      (hid : o.lookup "id".toList = some reqId) (hnull : reqId.isNull = false)
      (hmethod : methods h name = none) (hr : IsError reqId r) :
      Serves methods conn (.obj o) h (some r) h
  | called {o : List (Text × Json)} {h : Host σ} {name : Text} {params : List (Text × Json)}
      {reqId r : Json} {f : Params → Host σ → Host σ × Outcome}
      (hkind : kindOf o = .request name params)
      (hid : o.lookup "id".toList = some reqId) (hnull : reqId.isNull = false)
      (hmethod : methods h name = some f) (hr : (f ⟨params, conn⟩ h).2.Answers reqId r) :
      Serves methods conn (.obj o) h (some r) (f ⟨params, conn⟩ h).1
  | unknownNotification {o : List (Text × Json)} {h : Host σ} {name : Text}
      {params : List (Text × Json)} (hkind : kindOf o = .request name params)
      (hid : o.lookup "id".toList = none) (hmethod : methods h name = none) :
      Serves methods conn (.obj o) h none h
  | notification {o : List (Text × Json)} {h : Host σ} {name : Text}
      {params : List (Text × Json)} {f : Params → Host σ → Host σ × Outcome}
      (hkind : kindOf o = .request name params) (hid : o.lookup "id".toList = none)
      (hmethod : methods h name = some f) :
      Serves methods conn (.obj o) h none (f ⟨params, conn⟩ h).1
  | nullId {o : List (Text × Json)} {h h' : Host σ} {name : Text} {params : List (Text × Json)}
      {resp : Option Json} (hkind : kindOf o = .request name params)
      (hid : o.lookup "id".toList = some .null)
      (hresp : processObject methods conn (.obj o) h = (h', .ok resp)) :
      Serves methods conn (.obj o) h resp h'

/-- The answers to the items of a batch, in order. -/
inductive ServesAll (methods : Methods σ) (conn : Bool) :
    List Json → Host σ → List (Option Json) → Host σ → Prop
  | nil {h : Host σ} : ServesAll methods conn [] h [] h
  | cons {v : Json} {vs : List Json} {h h' h'' : Host σ} {resp : Option Json}
      {resps : List (Option Json)} (hv : Serves methods conn v h resp h')
      (hvs : ServesAll methods conn vs h' resps h'') :
      ServesAll methods conn (v :: vs) h (resp :: resps) h''

/-- `dispatch` returns, what it returns is one parse error for a text that is not JSON, the list of
the answers to the items of a batch, if there are any, and the answer to a single value. -/
def Answered (loads : Text → Option Json) (methods : Methods σ) (verbose conn : Bool) (data : Text)
    (h : Host σ) : Prop :=
  ∃ h' reply, dispatch loads methods verbose conn data h = (h', .ok reply) ∧
    match loads data with
    | none => ∃ msg, reply = some (buildError (-32700) msg .null)
    | some (.arr items) => ∃ resps, ServesAll methods conn items h resps h' ∧
        reply = if resps.reduceOption.isEmpty then none else some (.arr resps.reduceOption)
    | some v => Serves methods conn v h reply h'

/-! ## When it is answered so -/

/-- What the log of requests does with an object: the token fields are hidden in a dictionary and
must not be found in other parameters. -/
def Loggable (verbose : Bool) (o : List (Text × Json)) : Prop :=
  verbose = true → o.lookup "method".toList = some (.str "server.connection.identify".toList) →
    match o.lookup "params".toList with
    | none | some (.obj _) => True
    | some (.arr items) =>
        .str "access_token".toList ∉ items ∧ .str "api_key".toList ∉ items
    | some (.str t) => ¬ "access_token".toList <:+: t ∧ ¬ "api_key".toList <:+: t
    | some _ => False

/-- A response can be resolved: its id can be looked up, and no future that is done is found. -/
def Resolvable (conn : Bool) (o : List (Text × Json)) (h : Host σ) : Prop :=
  ∀ reqId, o.lookup "id".toList = some reqId → conn = true → reqId.isNull = false →
    h.pendingResponses ≠ [] → reqId.hashable = true ∧
      ∀ key, h.pendingResponses.find? (fun e => reqId.equalsInt e.1) ≠ some (key, true)

/-- An item that is answered as it has to be: an object that can be logged, whose future can be
resolved if it is a response, and whose method is registered and returns if it is a notification. -/
def Sound (methods : Methods σ) (verbose conn : Bool) (v : Json) (h : Host σ) : Prop :=
  ∃ o, v = .obj o ∧ Loggable verbose o ∧
    match kindOf o with
    | .response => Resolvable conn o h
    | .request name params => o.lookup "id".toList = none →
        ∃ f r, methods h name = some f ∧ (f ⟨params, conn⟩ h).2 = .result r
    | _ => True

/-- The host behind an item: a method has run, or a response was resolved. -/
def after (methods : Methods σ) (conn : Bool) (v : Json) (h : Host σ) : Host σ :=
  match v with
  | .obj o =>
    match kindOf o with
    | .response => (processResponse conn o h).1
    | .request name params => (methods h name).elim h fun f => (f ⟨params, conn⟩ h).1
    | _ => h
  | _ => h

/-- Every item is sound on the host it is handled on. -/
def AllSound (methods : Methods σ) (verbose conn : Bool) : List Json → Host σ → Prop
  | [], _ => True
  | v :: vs, h => Sound methods verbose conn v h ∧
      AllSound methods verbose conn vs (after methods conn v h)

/-! ## One item -/

variable {methods : Methods σ} {verbose conn : Bool} {h h' h'' : Host σ} {v : Json}
  {o : List (Text × Json)} {resp resp' : Option Json}

/-- `process_object`, by the kind of the object. -/
theorem processObject_obj : processObject methods conn (.obj o) h =
    match kindOf o with
    | .invalid => (h, .ok (some (buildError (-32600) "Invalid Request".toList
        ((o.lookup "id".toList).getD .null))))
    | .badParams name =>
        if (methods h name).isNone then (h, .ok (some (buildError (-32601)
          "Method not found".toList ((o.lookup "id".toList).getD .null))))
        else (h, .ok (some (buildError (-32602) "Invalid params:".toList
          ((o.lookup "id".toList).getD .null))))
    | .response =>
        ((processResponse conn o h).1, (processResponse conn o h).2.map fun _ => none)
    | .request name params =>
        (methods h name).elim (h, .ok (some (buildError (-32601) "Method not found".toList
          ((o.lookup "id".toList).getD .null)))) fun f =>
            ((executeMethod conn f ((o.lookup "id".toList).getD .null) params h).1,
              .ok (executeMethod conn f ((o.lookup "id".toList).getD .null) params h).2) := by
  unfold processObject kindOf
  dsimp only
  rcases o.lookup "jsonrpc".toList with _ | v
  · rfl
  cases v with
  | str version =>
    by_cases hversion : version ≠ "2.0".toList
    · simp only [if_pos hversion]
    · simp only [if_neg hversion]
      rcases o.lookup "method".toList with _ | v
      · rfl
      cases v with
      | str name =>
        rcases o.lookup "params".toList with _ | params
        · cases hmethod : methods h name <;> simp only [hmethod, Option.elim]
        · cases params <;> cases hmethod : methods h name <;>
            simp [hmethod]
      | _ => rfl
  | _ => rfl

theorem executeMethod_fst (conn : Bool) (f : Params → Host σ → Host σ × Outcome) (reqId : Json)
    (params : List (Text × Json)) (h : Host σ) :
    (executeMethod conn f reqId params h).1 = (f ⟨params, conn⟩ h).1 := by
  unfold executeMethod
  dsimp only
  cases (f ⟨params, conn⟩ h).2 <;> rfl

/-- A request with an id is answered by the outcome of its method. -/
theorem executeMethod_answers (conn : Bool) (f : Params → Host σ → Host σ × Outcome) {reqId : Json}
    (hnull : reqId.isNull = false) (params : List (Text × Json)) (h : Host σ) :
    ∃ r, (executeMethod conn f reqId params h).2 = some r ∧
      (f ⟨params, conn⟩ h).2.Answers reqId r := by
  unfold executeMethod
  dsimp only
  cases (f ⟨params, conn⟩ h).2 with
  | result r => exact ⟨_, by rw [hnull]; rfl, rfl⟩
  | typeError msg => exact ⟨_, rfl, _, _, rfl⟩
  | serverError statusCode msg => exact ⟨_, rfl, _, _, rfl⟩
  | exception msg => exact ⟨_, rfl, _, _, rfl⟩

/-- A notification stays unanswered exactly if its method returns. -/
theorem executeMethod_null (conn : Bool) (f : Params → Host σ → Host σ × Outcome)
    (params : List (Text × Json)) (h : Host σ) :
    (executeMethod conn f .null params h).2 = none ↔ ∃ r, (f ⟨params, conn⟩ h).2 = .result r := by
  unfold executeMethod
  dsimp only
  cases (f ⟨params, conn⟩ h).2 <;> simp [Json.isNull]

/-- A response is resolved unless its id is no key or its future is done. -/
theorem resolvePendingResponse_snd (reqId : Json) (reply : Reply) (h : Host σ) :
    (resolvePendingResponse reqId reply h).2 = .ok () ↔
      (h.pendingResponses ≠ [] → reqId.hashable = true ∧
        ∀ key, h.pendingResponses.find? (fun e => reqId.equalsInt e.1) ≠ some (key, true)) := by
  unfold resolvePendingResponse
  by_cases hempty : h.pendingResponses = []
  · simp [hempty]
  cases hhash : reqId.hashable with
  | false => simp [hempty]
  | true =>
    rcases hfind : h.pendingResponses.find? (fun e => reqId.equalsInt e.1) with _ | ⟨key, done⟩
    · simp [hempty, hfind]
    · cases done <;> simp [hempty, hfind]

theorem processResponse_snd : (processResponse conn o h).2 = .ok () ↔ Resolvable conn o h := by
  unfold processResponse Resolvable
  cases conn with
  | false => simp
  | true =>
    rcases o.lookup "id".toList with _ | reqId
    · simp
    · cases reqId <;> simp [Json.isNull, resolvePendingResponse_snd]

theorem sanitizeField_ok {params : Json} {field : Text} : sanitizeField params field = .ok () ↔
    match params with
    | .obj _ => True
    | .arr items => .str field ∉ items
    | .str t => ¬ field <:+: t
    | _ => False := by
  unfold sanitizeField
  cases params with
  | arr items =>
    have hfield : items.any (fun v => match v with | .str t => t == field | _ => false) = true ↔
        .str field ∈ items := by
      rw [List.any_eq_true]
      constructor
      · rintro ⟨v, hv, heq⟩
        cases v with
        | str t => exact eq_of_beq heq ▸ hv
        | _ => cases heq
      · exact fun h => ⟨_, h, beq_self_eq_true field⟩
    dsimp only
    rw [← hfield]
    split_ifs with h <;> simp [h]
  | str t =>
    dsimp only
    split_ifs with h <;> simpa [Text.has] using h
  | _ => simp

/-- The parameters of an identification are those in which no token field can be found but in a
dictionary. -/
theorem sanitizeFields_ok {params : Json} {field field' : Text} :
    (do sanitizeField params field; sanitizeField params field') = .ok () ↔
      match params with
      | .obj _ => True
      | .arr items => .str field ∉ items ∧ .str field' ∉ items
      | .str t => ¬ field <:+: t ∧ ¬ field' <:+: t
      | _ => False := by
  rw [bind_eq_ok]
  simp only [Unique.exists_iff, PUnit.default_eq_unit, sanitizeField_ok]
  cases params <;> simp

theorem logRequest_obj : logRequest verbose (.obj o) = .ok () ↔ Loggable verbose o := by
  have hidentify : ¬ ("access.".toList <+: "server.connection.identify".toList ∨
      "server.connection.identify".toList = "machine.sudo.password".toList) := by decide
  unfold logRequest Loggable
  generalize "server.connection.identify".toList = identify at hidentify ⊢
  cases verbose with
  | false => simp
  | true =>
    dsimp only
    rcases o.lookup "method".toList with _ | v
    · simp
    cases v with
    | str method =>
      by_cases hmethod : method = identify
      · subst hmethod
        simp only [Bool.not_true, Bool.false_eq_true, if_false, if_neg hidentify, if_true,
          true_imp_iff, sanitizeFields_ok]
        rcases o.lookup "params".toList with _ | params
        · exact Iff.rfl
        · cases params <;> exact Iff.rfl
      · refine iff_of_true ?_ fun _ heq => absurd (Json.str.inj (Option.some.inj heq)) hmethod
        simp only [Bool.not_true, Bool.false_eq_true, if_neg hmethod, ite_self]
    | _ => exact iff_of_true rfl fun _ heq => nomatch heq

theorem after_obj : after methods conn (.obj o) h =
    match kindOf o with
    | .response => (processResponse conn o h).1
    | .request name params => (methods h name).elim h fun f => (f ⟨params, conn⟩ h).1
    | _ => h := rfl

theorem after_request {name : Text} {params : List (Text × Json)}
    (hkind : kindOf o = .request name params) : after methods conn (.obj o) h =
      (methods h name).elim h fun f => (f ⟨params, conn⟩ h).1 := by
  rw [after_obj, hkind]

/-- A request always returns. -/
theorem processObject_request {name : Text} {params : List (Text × Json)}
    (hkind : kindOf o = .request name params) : processObject methods conn (.obj o) h =
      (after methods conn (.obj o) h,
        .ok ((methods h name).elim (some (buildError (-32601) "Method not found".toList
          ((o.lookup "id".toList).getD .null))) fun f =>
            (executeMethod conn f ((o.lookup "id".toList).getD .null) params h).2)) := by
  rw [processObject_obj, after_request hkind, hkind]
  cases hmethod : methods h name <;> simp only [hmethod, Option.elim, executeMethod_fst]

/-- A sound item is answered as it has to be. -/
theorem Sound.handle (hv : Sound methods verbose conn v h) :
    ∃ resp, handle methods verbose conn v h = (after methods conn v h, .ok resp) ∧
      Serves methods conn v h resp (after methods conn v h) := by
  obtain ⟨o, rfl, hlog, hsound⟩ := hv
  have hprocess : handle methods verbose conn (.obj o) h =
      processObject methods conn (.obj o) h := by
    rw [JsonRpc.handle, logRequest_obj.2 hlog]
  rw [hprocess]
  cases hkind : kindOf o with
  | invalid =>
    rw [processObject_obj, after_obj, hkind]
    exact ⟨_, rfl, .invalid hkind ⟨_, rfl⟩⟩
  | badParams name =>
    rw [processObject_obj, after_obj, hkind]
    cases hmethod : methods h name with
    | none => exact ⟨_, by simp only [hmethod]; rfl, .badParams hkind ⟨_, _, rfl⟩⟩
    | some f => exact ⟨_, by simp only [hmethod]; rfl, .badParams hkind ⟨_, _, rfl⟩⟩
  | response =>
    rw [hkind] at hsound
    rw [processObject_obj, after_obj, hkind]
    exact ⟨none, by rw [processResponse_snd.2 hsound]; rfl, .response hkind⟩
  | request name params =>
    rw [hkind] at hsound
    refine ⟨_, processObject_request hkind, ?_⟩
    rcases hid : o.lookup "id".toList with _ | reqId
    · obtain ⟨f, r, hmethod, hr⟩ := hsound hid
      have hnone := (executeMethod_null conn f params h).2 ⟨r, hr⟩
      simp only [after_request hkind, hmethod, Option.elim, Option.getD_none, hnone]
      exact .notification hkind hid hmethod
    rw [Option.getD_some]
    cases hnull : reqId.isNull with
    | true =>
      obtain rfl := Json.isNull_iff.1 hnull
      refine .nullId hkind hid ?_
      rw [processObject_request hkind, hid, Option.getD_some]
    | false =>
      rw [after_request hkind]
      cases hmethod : methods h name with
      | none => exact .unknown hkind hid hnull hmethod ⟨_, _, rfl⟩
      | some f =>
        obtain ⟨r, hr, hanswers⟩ := executeMethod_answers conn f hnull params h
        simp only [Option.elim, hr]
        exact .called hkind hid hnull hmethod hanswers

/-- The host behind an item does not depend on its answer. -/
theorem Serves.eq_after (hs : Serves methods conn v h resp h') : h' = after methods conn v h := by
  cases hs with
  | other hv => cases v <;> first | rfl | cases hv
  | invalid hkind => rw [after_obj, hkind]
  | badParams hkind => rw [after_obj, hkind]
  | response hkind => rw [after_obj, hkind]
  | unknown hkind _ _ hmethod => rw [after_request hkind, hmethod, Option.elim]
  | called hkind _ _ hmethod => rw [after_request hkind, hmethod, Option.elim]
  | unknownNotification hkind _ hmethod => rw [after_request hkind, hmethod, Option.elim]
  | notification hkind _ hmethod => rw [after_request hkind, hmethod, Option.elim]
  | nullId hkind _ hresp =>
    rw [processObject_request hkind] at hresp
    exact (Prod.ext_iff.1 hresp).1.symm

theorem of_handle (hh : handle methods verbose conn v h = (h', .ok resp)) :
    ∃ o, v = .obj o ∧ Loggable verbose o ∧
      processObject methods conn (.obj o) h = (h', .ok resp) := by
  unfold handle at hh
  split at hh
  · cases hh
  · rename_i hlog
    cases v with
    | obj o => exact ⟨o, rfl, logRequest_obj.1 hlog, hh⟩
    | _ => cases hh

theorem of_processObject_request {name : Text} {params : List (Text × Json)}
    (hkind : kindOf o = .request name params)
    (hprocess : processObject methods conn (.obj o) h = (h', .ok resp)) :
    h' = after methods conn (.obj o) h ∧
      resp = (methods h name).elim (some (buildError (-32601) "Method not found".toList
        ((o.lookup "id".toList).getD .null))) fun f =>
          (executeMethod conn f ((o.lookup "id".toList).getD .null) params h).2 := by
  rw [processObject_request hkind] at hprocess
  obtain ⟨hfst, hsnd⟩ := Prod.mk.inj hprocess
  exact ⟨hfst.symm, (Except.ok.inj hsnd).symm⟩

/-- The answers of `handle` are at least those an item has to get, and if it gets no other, it is
sound. -/
theorem Serves.sound (hs : Serves methods conn v h resp h')
    (hh : handle methods verbose conn v h = (h'', .ok resp')) :
    h'' = h' ∧ resp.toList.length ≤ resp'.toList.length ∧
      (resp'.toList.length ≤ resp.toList.length → Sound methods verbose conn v h) := by
  obtain ⟨o, rfl, hlog, hprocess⟩ := of_handle hh
  have hsound (hkind : match kindOf o with
      | .response => Resolvable conn o h
      | .request name params => o.lookup "id".toList = none →
          ∃ f r, methods h name = some f ∧ (f ⟨params, conn⟩ h).2 = .result r
      | _ => True) : Sound methods verbose conn (.obj o) h := ⟨o, rfl, hlog, hkind⟩
  have hafter := hs.eq_after
  cases hs with
  | other hv => cases hv
  | invalid hkind =>
    rw [processObject_obj, hkind] at hprocess
    obtain ⟨rfl, rfl⟩ : h = h'' ∧ _ = resp' := by simpa using hprocess
    exact ⟨rfl, le_rfl, fun _ => hsound (by rw [hkind]; trivial)⟩
  | @badParams _ _ _ name hkind =>
    rw [processObject_obj, hkind] at hprocess
    have hr : h = h'' ∧ ∃ r, some r = resp' := by
      cases hmethod : methods h name <;> simp [hmethod] at hprocess <;>
        exact ⟨hprocess.1, _, hprocess.2⟩
    obtain ⟨rfl, r, rfl⟩ := hr
    exact ⟨rfl, le_rfl, fun _ => hsound (by rw [hkind]; trivial)⟩
  | response hkind =>
    rw [processObject_obj, hkind] at hprocess
    cases hdone : (processResponse conn o h).2 with
    | error e => rw [hdone] at hprocess; cases hprocess
    | ok u =>
      rw [hdone] at hprocess
      obtain ⟨rfl, rfl⟩ : (processResponse conn o h).1 = h'' ∧ none = resp' := by
        simpa [Except.map] using hprocess
      exact ⟨rfl, le_rfl, fun _ => hsound (by rw [hkind]; exact processResponse_snd.1 hdone)⟩
  | unknown hkind hid hnull hmethod =>
    obtain ⟨rfl, rfl⟩ := of_processObject_request hkind hprocess
    refine ⟨hafter.symm, by rw [hmethod]; exact le_rfl, fun _ => hsound ?_⟩
    rw [hkind]
    exact fun hnone => nomatch hid.symm.trans hnone
  | @called _ _ _ params _ _ f hkind hid hnull hmethod =>
    obtain ⟨rfl, rfl⟩ := of_processObject_request hkind hprocess
    obtain ⟨r, hr, -⟩ := executeMethod_answers conn f hnull params h
    refine ⟨hafter.symm, ?_, fun _ => hsound ?_⟩
    · rw [hmethod, hid, Option.elim, Option.getD_some, hr]
      exact le_rfl
    · rw [hkind]
      exact fun hnone => nomatch hid.symm.trans hnone
  | unknownNotification hkind hid hmethod =>
    obtain ⟨rfl, rfl⟩ := of_processObject_request hkind hprocess
    refine ⟨hafter.symm, Nat.zero_le _, fun hle => ?_⟩
    rw [hmethod] at hle
    exact absurd hle (by simp)
  | @notification _ _ _ params f hkind hid hmethod =>
    obtain ⟨rfl, rfl⟩ := of_processObject_request hkind hprocess
    refine ⟨hafter.symm, Nat.zero_le _, fun hle => hsound ?_⟩
    rw [hmethod, hid, Option.elim, Option.getD_none] at hle
    have hnone : (executeMethod conn f .null params h).2 = none := by
      rw [← Option.toList_eq_nil_iff, ← List.length_eq_zero_iff]
      exact Nat.le_zero.1 hle
    obtain ⟨r, hr⟩ := (executeMethod_null conn f params h).1 hnone
    rw [hkind]
    exact fun _ => ⟨f, r, hmethod, hr⟩
  | nullId hkind hid hresp =>
    obtain ⟨rfl, hresp'⟩ := Prod.mk.inj (hresp.symm.trans hprocess)
    obtain rfl := Except.ok.inj hresp'
    refine ⟨rfl, le_rfl, fun _ => hsound ?_⟩
    rw [hkind]
    exact fun hnone => nomatch hid.symm.trans hnone

/-! ## A message -/

/-- A batch whose items are sound is answered as it has to be. -/
theorem handleBatch_of_allSound {items : List Json}
    (hitems : AllSound methods verbose conn items h) (acc : List Json) :
    ∃ resps h', handleBatch methods verbose conn items acc h =
        (h', .ok (acc ++ resps.reduceOption)) ∧ ServesAll methods conn items h resps h' := by
  induction items generalizing acc h with
  | nil => exact ⟨[], h, by simp [handleBatch, List.reduceOption], .nil⟩
  | cons v items ih =>
    obtain ⟨hv, hitems⟩ := hitems
    obtain ⟨resp, hhandle, hserves⟩ := hv.handle
    obtain ⟨resps, h', hbatch, hall⟩ := ih hitems (acc ++ resp.toList)
    refine ⟨resp :: resps, h', ?_, .cons hserves hall⟩
    rw [handleBatch, hhandle]
    dsimp only
    rw [hbatch]
    cases resp <;> simp [List.reduceOption]

/-- The items of a batch that is answered as it has to be are sound: each gets at least its answer,
so none gets another one. -/
theorem allSound_of_handleBatch {items acc responses : List Json} {resps : List (Option Json)}
    (hbatch : handleBatch methods verbose conn items acc h = (h', .ok responses))
    (hall : ServesAll methods conn items h resps h'') :
    acc.length + resps.reduceOption.length ≤ responses.length ∧
      (responses.length ≤ acc.length + resps.reduceOption.length →
        AllSound methods verbose conn items h) := by
  induction items generalizing acc h resps with
  | nil =>
    cases hall
    obtain ⟨-, hresponses⟩ := Prod.mk.inj hbatch
    obtain rfl := Except.ok.inj hresponses
    exact ⟨by simp [List.reduceOption], fun _ => trivial⟩
  | cons v items ih =>
    cases hall with
    | @cons _ _ _ h₁ _ resp resps hserves hall =>
    unfold handleBatch at hbatch
    cases hhandle : handle methods verbose conn v h with
    | mk h₂ result =>
    rw [hhandle] at hbatch
    cases result with
    | error e => cases hbatch
    | ok resp' =>
    obtain ⟨rfl, hle, hsound⟩ := hserves.sound hhandle
    obtain ⟨hle', hsound'⟩ := ih hbatch hall
    have hlength : (resp :: resps).reduceOption.length =
        resp.toList.length + resps.reduceOption.length := by
      cases resp <;> simp [List.reduceOption, Nat.add_comm]
    rw [List.length_append] at hle' hsound'
    rw [hlength]
    refine ⟨by omega, fun hge => ⟨hsound (by omega), ?_⟩⟩
    rw [← hserves.eq_after]
    exact hsound' (by omega)

/-- The items of a message. -/
def items : Json → List Json
  | .arr items => items
  | v => [v]

theorem answered_of_batch {loads : Text → Option Json} {data : Text} {items : List Json}
    (hdata : loads data = some (.arr items)) : Answered loads methods verbose conn data h ↔
      AllSound methods verbose conn items h := by
  unfold Answered dispatch
  simp only [hdata]
  constructor
  · rintro ⟨h', reply, hreply, resps, hall, rfl⟩
    cases hbatch : handleBatch methods verbose conn items [] h with
    | mk h₂ result =>
    rw [hbatch] at hreply
    cases result with
    | error e => cases hreply
    | ok responses =>
    obtain ⟨rfl, heq⟩ := Prod.mk.inj hreply
    have hresponses : responses = resps.reduceOption := by
      have := Except.ok.inj heq
      split_ifs at this with h₁ h₂ <;> simp_all
    exact (allSound_of_handleBatch hbatch hall).2 (by simp [hresponses])
  · intro hitems
    obtain ⟨resps, h', hbatch, hall⟩ := handleBatch_of_allSound hitems []
    exact ⟨h', _, by rw [hbatch]; rfl, resps, hall, rfl⟩

theorem answered_of_single {loads : Text → Option Json} {data : Text}
    (hdata : loads data = some v) (hv : ∀ items, v ≠ .arr items) :
    Answered loads methods verbose conn data h ↔ Sound methods verbose conn v h := by
  have hdispatch : Answered loads methods verbose conn data h ↔
      ∃ h' reply, handle methods verbose conn v h = (h', .ok reply) ∧
        Serves methods conn v h reply h' := by
    unfold Answered dispatch
    cases v with
    | arr items => exact absurd rfl (hv items)
    | _ => simp only [hdata]
  rw [hdispatch]
  constructor
  · rintro ⟨h', reply, hreply, hserves⟩
    exact (hserves.sound hreply).2.2 le_rfl
  · intro hsound
    obtain ⟨resp, hhandle, hserves⟩ := hsound.handle
    exact ⟨_, resp, hhandle, hserves⟩

/-- The methods of a host on which only `printer.info` is registered. -/
def printerInfo : Methods Unit := fun _ name =>
  if name = "printer.info".toList then some fun _ h => (h, .result (.str "ready".toList)) else none

/-- A request with an id. -/
def infoRequest : Json :=
  .obj [("jsonrpc".toList, .str "2.0".toList), ("method".toList, .str "printer.info".toList),
    ("id".toList, .num 7)]

/-- A notification whose method is not registered. -/
def stopNotification : Json :=
  .obj [("jsonrpc".toList, .str "2.0".toList), ("method".toList, .str "printer.stop".toList)]

end JsonRpc

end Thinker
