import Thinker.QueryStatus

/-!
# Status subscriptions of the server

`KlippyConnection` of `klippy_connection.py`. One subscription to Klippy is shared by all
connections. What is read from Klippy is run by the event loop in its order, but the request of a
connection continues some turns after its response was read, so that a status update that was read
later may run before. `_state` and the events that a status update of `webhooks` sends are left out.

If none does, and no subscription times out, each connection has been sent the latest status
(`status_of_reachable`).
-/

set_option linter.unusedSectionVars false

namespace Thinker

/-- A connection of `subscriptions`. `received` is not in the code : the response to its
subscription and what `send_status` was given since. -/
structure Subscriber (O F V : Type) where
  subscription : Subscription O F
  received : List (Dict O (Dict F V))

/-- A `_request_subscripton` that has the lock. -/
structure SubscribeRequest (C O F : Type) where
  id : ℕ
  conn : C
  requestedSub : Subscription O F
  allSubs : Subscription O F

/-- What was read from Klippy and did not run : a call of `process_status_update`, or the response
to the request that has the lock. -/
inductive StatusCallback (O F V : Type) where
  | update (status : Dict O (Dict F V))
  | response (status : Dict O (Dict F V))

namespace StatusCallback

variable {O F V : Type}

/-- The status of a callback. -/
def status : StatusCallback O F V → Dict O (Dict F V)
  | .update status | .response status => status

/-- Whether a callback is a response. -/
def isResponse : StatusCallback O F V → Bool
  | .update _ => false
  | .response _ => true

end StatusCallback

/-- `KlippyConnection`. The lock of subscriptions is `pending` and `lockWaiters`, and `asked` are the
requests that Klippy has not answered. The last two fields are not in the code : the latest status
that was read, and that which the callbacks were run with. -/
structure KlippyConnection (C O F V : Type) where
  subscriptions : Dict C (Subscriber O F V)
  subscriptionCache : Dict O (Dict F V)
  pending : Option (SubscribeRequest C O F)
  lockWaiters : List (C × Subscription O F)
  asked : List (ℕ × Subscription O F)
  callbacks : List (StatusCallback O F V)
  nextId : ℕ
  latest : O → F → Option V
  known : O → F → Option V

namespace KlippyConnection

variable {C O F V : Type} [DecidableEq C] [DecidableEq O] [DecidableEq F] [DecidableEq V]

/-! ## Statuses -/

/-- The fields of an object that a subscription is to. -/
def pruneFields (items : Option (List F)) (fields : Dict F V) : Dict F V :=
  match items with
  | none => fields
  | some items => fields.filterMap fun f v => if f ∈ items then some v else none

/-- What `_process_status_update` gives to a connection. -/
def connStatus (subscription : Subscription O F) (status : Dict O (Dict F V)) :
    Dict O (Dict F V) :=
  subscription.filterMap fun o items =>
    (status.lookup o).bind fun fields =>
      let val := pruneFields items fields
      if val.entries ≠ [] then some val else none

/-- `pruned_status`. -/
def prunedStatus (requestedSub : Subscription O F) (allStatus : Dict O (Dict F V)) :
    Dict O (Dict F V) :=
  allStatus.filterMap fun o fields => (requestedSub.lookup o).map fun items =>
    pruneFields items fields

/-- `status_diff` : the fields of the cache that have another value. -/
def statusDiff (cache allStatus : Dict O (Dict F V)) : Dict O (Dict F V) :=
  allStatus.filterMap fun o fields =>
    (cache.lookup o).bind fun cached =>
      let diff := fields.filterMap fun f v =>
        (cached.lookup f).bind fun old => if v ≠ old then some v else none
      if diff.entries ≠ [] then some diff else none

/-- The items of two subscriptions to an object. -/
def unionItems : Option (List F) → Option (List F) → Option (List F)
  | some prev, some items => some (prev ∪ items)
  | _, _ => none

/-- The status that Klippy answers with. -/
def fullStatus (keys : O → List F) (subscription : Subscription O F) (status : O → F → V) :
    Dict O (Dict F V) :=
  subscription.filterMap fun o items =>
    some (Dict.ofList (QueryStatusHelper.itemsOf keys o items) (status o))

/-- A status that is read after another. -/
def overlay (old : O → F → Option V) (status : Dict O (Dict F V)) (o : O) (f : F) : Option V :=
  (status.get o f).or (old o f)

/-! ## The connection -/

variable (keys : O → List F) (s : KlippyConnection C O F V)

/-- `_process_status_update`. -/
def processStatusUpdate (status : Dict O (Dict F V)) : KlippyConnection C O F V :=
  { s with
    subscriptionCache := s.subscriptionCache.updateEach status
    subscriptions := s.subscriptions.filterMap fun _ e => some
      { e with received := e.received ++ [connStatus e.subscription status] } }

/-- `_request_subscripton` with the lock, to the request. -/
def requestSubscription (conn : C) (requestedSub : Subscription O F) : KlippyConnection C O F V :=
  let allSubs := s.subscriptions.entries.foldl
    (fun all e => all.mergeWith unionItems e.2.subscription) requestedSub
  { s with
    pending := some ⟨s.nextId, conn, requestedSub, allSubs⟩
    asked := s.asked ++ [(s.nextId, allSubs)]
    nextId := s.nextId + 1 }

/-- `_request_subscripton` with the response. -/
def finishSubscription (request : SubscribeRequest C O F) (allStatus : Dict O (Dict F V)) :
    KlippyConnection C O F V :=
  let diff := statusDiff s.subscriptionCache allStatus
  let s := { s with subscriptionCache := s.subscriptionCache.update allStatus }
  let s := if diff.entries ≠ [] then s.processStatusUpdate diff else s
  { s with
    subscriptionCache := s.subscriptionCache.filterMap fun o fields =>
      if o ∈ allStatus then some fields else none
    subscriptions := s.subscriptions.insert request.conn
      ⟨request.requestedSub, [prunedStatus request.requestedSub allStatus]⟩
    pending := none }

/-- What may happen next : a connection subscribes or is removed, the first request that waits gets
the lock, Klippy sends an update or answers a request with its status, the first update that was
read runs, the request whose response is first continues, or the request times out or is refused. -/
inductive Event (C O F V : Type) where
  | subscribe (conn : C) (requestedSub : Subscription O F)
  | remove (conn : C)
  | grant
  | readUpdate (status : Dict O (Dict F V))
  | readResponse (n : ℕ) (status : O → F → V)
  | update
  | resume
  | timeout
  | refused

/-- The state after an event. -/
def next : Event C O F V → Option (KlippyConnection C O F V)
  | .subscribe conn requestedSub =>
    if s.pending.isNone = true ∧ s.lockWaiters.isEmpty = true then
      some (s.requestSubscription conn requestedSub)
    else some { s with lockWaiters := s.lockWaiters ++ [(conn, requestedSub)] }
  | .remove conn => some { s with subscriptions := s.subscriptions.erase conn }
  | .grant =>
    match s.pending, s.lockWaiters with
    | none, (conn, requestedSub) :: lockWaiters =>
      some (({ s with lockWaiters := lockWaiters } : KlippyConnection C O F V).requestSubscription
        conn requestedSub)
    | _, _ => none
  | .readUpdate status =>
    some { s with
      callbacks := s.callbacks ++ [.update status]
      latest := overlay s.latest status }
  | .readResponse n status =>
    (s.asked[n]?).map fun (id, allSubs) =>
      let allStatus := fullStatus keys allSubs status
      { s with
        asked := s.asked.eraseIdx n
        callbacks :=
          if (s.pending.map SubscribeRequest.id) = some id then
            s.callbacks ++ [.response allStatus]
          else s.callbacks
        latest := overlay s.latest allStatus }
  | .update =>
    (s.callbacks.find? fun cb => !cb.isResponse).map fun cb =>
      { s with
        callbacks := s.callbacks.eraseP fun cb => !cb.isResponse
        known := overlay s.known cb.status }.processStatusUpdate cb.status
  | .resume =>
    match s.pending, s.callbacks with
    | some request, .response allStatus :: callbacks =>
      some ({ s with
        callbacks := callbacks
        known := overlay s.known allStatus }.finishSubscription request allStatus)
    | _, _ => none
  | .timeout =>
    if s.pending.isSome = true ∧ s.callbacks.all (fun cb => !cb.isResponse) = true then
      some { s with pending := none }
    else none
  | .refused =>
    s.pending.bind fun request =>
      if request.id ∈ s.asked.map Prod.fst then
        some { s with
          asked := s.asked.filter fun ask => ask.1 ≠ request.id
          pending := none }
      else none

/-- A connection to Klippy without subscriptions. -/
def start : KlippyConnection C O F V :=
  ⟨∅, ∅, none, [], [], [], 0, fun _ _ => none, fun _ _ => none⟩

/-- The connection to a Klippy whose objects have these fields. -/
def system : System (KlippyConnection C O F V) (Event C O F V) where
  init s := s = start
  next := next keys

/-! ## What a subscription asks for -/

variable {keys} {s}

/-- A subscription is to this field, which the object has. -/
def Asks (keys : O → List F) (subscription : Subscription O F) (o : O) (f : F) : Prop :=
  f ∈ keys o ∧ ∃ items, subscription.lookup o = some items ∧ ∀ l, items = some l → f ∈ l

theorem lookup_pruneFields {items : Option (List F)} {f : F} (hf : ∀ l, items = some l → f ∈ l)
    (fields : Dict F V) : (pruneFields items fields).lookup f = fields.lookup f := by
  unfold pruneFields
  split
  · rfl
  · rename_i l
    rw [Dict.lookup_filterMap]
    cases fields.lookup f with
    | none => rfl
    | some v => exact if_pos (hf l rfl)

/-- A connection is given the fields that it asks for. -/
theorem get_connStatus {subscription : Subscription O F} {o : O} {f : F}
    (h : Asks keys subscription o f) (status : Dict O (Dict F V)) :
    (connStatus subscription status).get o f = status.get o f := by
  obtain ⟨-, items, ho, hf⟩ := h
  unfold connStatus Dict.get
  rw [Dict.lookup_filterMap, ho, Option.bind_some]
  cases status.lookup o with
  | none => rfl
  | some fields =>
    have hlookup := lookup_pruneFields hf fields
    rw [Option.bind_some, Option.bind_some, ← hlookup]
    dsimp only
    split_ifs with hempty
    · rfl
    · rw [AList.ext (not_not.1 hempty) (t := ∅)]
      rfl

theorem get_prunedStatus {requestedSub : Subscription O F} {o : O} {f : F}
    (h : Asks keys requestedSub o f) (allStatus : Dict O (Dict F V)) :
    (prunedStatus requestedSub allStatus).get o f = allStatus.get o f := by
  obtain ⟨-, items, ho, hf⟩ := h
  unfold prunedStatus Dict.get
  rw [Dict.lookup_filterMap, ho]
  cases allStatus.lookup o with
  | none => rfl
  | some fields => exact lookup_pruneFields hf fields

/-- What Klippy answers. -/
theorem get_fullStatus {subscription : Subscription O F} {o : O} {f : F}
    (h : Asks keys subscription o f) (status : O → F → V) :
    (fullStatus keys subscription status).get o f = some (status o f) := by
  obtain ⟨hkeys, items, ho, hf⟩ := h
  unfold fullStatus Dict.get
  rw [Dict.lookup_filterMap, ho, Option.bind_some, Option.bind_some, Dict.lookup_ofList, if_pos]
  cases items with
  | none => exact hkeys
  | some l => exact hf l rfl

/-- The difference has the fields whose value is another than in the cache. -/
theorem get_statusDiff (cache allStatus : Dict O (Dict F V)) (o : O) (f : F) :
    (statusDiff cache allStatus).get o f =
      (allStatus.get o f).bind fun v => (cache.get o f).bind fun old =>
        if v ≠ old then some v else none := by
  unfold statusDiff Dict.get
  rw [Dict.lookup_filterMap]
  cases allStatus.lookup o with
  | none => rfl
  | some fields =>
    rw [Option.bind_some, Option.bind_some]
    cases cache.lookup o with
    | none => cases fields.lookup f <;> rfl
    | some cached =>
      rw [Option.bind_some, Option.bind_some]
      dsimp only
      generalize hdiff : fields.filterMap (fun f v =>
        (cached.lookup f).bind fun old => if v ≠ old then some v else none) = diff
      have hlookup : diff.lookup f = (fields.lookup f).bind fun v => (cached.lookup f).bind fun old =>
          if v ≠ old then some v else none := by
        rw [← hdiff, Dict.lookup_filterMap]
      rw [← hlookup]
      split_ifs with hempty
      · rfl
      · rw [AList.ext (not_not.1 hempty) (t := ∅)]
        rfl

theorem asks_mergeWith {all sub : Subscription O F} {o : O} {f : F}
    (h : Asks keys all o f ∨ Asks keys sub o f) : Asks keys (all.mergeWith unionItems sub) o f := by
  have hkeys : f ∈ keys o := by
    rcases h with h | h
    exacts [h.1, h.1]
  refine ⟨hkeys, ?_⟩
  rw [Dict.lookup_mergeWith]
  cases hall : all.lookup o with
  | none =>
    cases hsub : sub.lookup o with
    | none =>
      rcases h with ⟨-, items, ho, -⟩ | ⟨-, items, ho, -⟩
      · exact absurd (hall.symm.trans ho) nofun
      · exact absurd (hsub.symm.trans ho) nofun
    | some items =>
      rcases h with ⟨-, items', ho, -⟩ | ⟨-, items', ho, hf⟩
      · exact absurd (hall.symm.trans ho) nofun
      · obtain rfl := Option.some_inj.1 (hsub.symm.trans ho)
        exact ⟨items, rfl, hf⟩
  | some prev =>
    cases hsub : sub.lookup o with
    | none =>
      rcases h with ⟨-, items', ho, hf⟩ | ⟨-, items', ho, -⟩
      · obtain rfl := Option.some_inj.1 (hall.symm.trans ho)
        exact ⟨prev, rfl, hf⟩
      · exact absurd (hsub.symm.trans ho) nofun
    | some items =>
      refine ⟨unionItems prev items, rfl, fun l hl => ?_⟩
      cases prev with
      | none => exact absurd hl nofun
      | some prev =>
        cases items with
        | none => exact absurd hl nofun
        | some items =>
          obtain rfl := Option.some_inj.1 hl
          rcases h with ⟨-, items', ho, hf⟩ | ⟨-, items', ho, hf⟩
          · obtain rfl := Option.some_inj.1 (hall.symm.trans ho)
            exact List.mem_union_iff.2 (.inl (hf prev rfl))
          · obtain rfl := Option.some_inj.1 (hsub.symm.trans ho)
            exact List.mem_union_iff.2 (.inr (hf items rfl))

/-- The request to Klippy asks for what it is merged from. -/
theorem asks_foldl {l : List (Sigma fun _ : C => Subscriber O F V)} {all : Subscription O F} {o : O}
    {f : F} (h : Asks keys all o f ∨ ∃ e ∈ l, Asks keys e.2.subscription o f) :
    Asks keys (l.foldl (fun all e => all.mergeWith unionItems e.2.subscription) all) o f := by
  induction l generalizing all with
  | nil => exact h.resolve_right fun ⟨e, he, _⟩ => absurd he List.not_mem_nil
  | cons e l ih =>
    refine ih ?_
    rcases h with h | ⟨e', he', h⟩
    · exact .inl (asks_mergeWith (.inl h))
    · rcases List.mem_cons.1 he' with rfl | he'
      · exact .inl (asks_mergeWith (.inr h))
      · exact .inr ⟨e', he', h⟩

/-! ## What the connections know -/

/-- No update overtakes a response, and no request times out. -/
def InOrder (s : KlippyConnection C O F V) : Event C O F V → Prop
  | .update => s.callbacks.head?.all (fun cb => !cb.isResponse) = true
  | .timeout => False
  | _ => True

instance (e : Event C O F V) : Decidable (InOrder s e) := by
  unfold InOrder
  split <;> infer_instance

/-- The cache and the connections have the status that the callbacks were run with, and the request
that has the lock is for all of them. -/
structure Synced (keys : O → List F) (s : KlippyConnection C O F V) : Prop where
  latest : s.latest = s.callbacks.foldl (fun old cb => overlay old cb.status) s.known
  cache : ∀ o f v, s.subscriptionCache.get o f = some v → s.known o f = some v
  views : ∀ c e, s.subscriptions.lookup c = some e → ∀ o f, Asks keys e.subscription o f →
    ∃ v, s.subscriptionCache.get o f = some v ∧ Dict.view e.received o f = some v
  request : ∀ r, s.pending = some r → ∀ o f,
    (Asks keys r.requestedSub o f ∨
      ∃ c e, s.subscriptions.lookup c = some e ∧ Asks keys e.subscription o f) →
    Asks keys r.allSubs o f
  responses : ∀ allStatus, .response allStatus ∈ s.callbacks →
    ∃ r status, s.pending = some r ∧ allStatus = fullStatus keys r.allSubs status
  once : s.callbacks.countP StatusCallback.isResponse ≤ 1
  asked : s.asked = [] ∨ ∃ r, s.pending = some r ∧ s.asked = [(r.id, r.allSubs)] ∧
    s.callbacks.countP StatusCallback.isResponse = 0

namespace Synced

theorem countP_eq_zero (h : Synced keys s) (hpending : s.pending = none) :
    s.callbacks.countP StatusCallback.isResponse = 0 := by
  rw [List.countP_eq_zero]
  intro cb hcb
  cases cb with
  | update status => exact nofun
  | response allStatus =>
    obtain ⟨r, -, hr, -⟩ := h.responses allStatus hcb
    exact absurd (hpending.symm.trans hr) nofun

theorem not_response {allStatus : Dict O (Dict F V)}
    (hzero : s.callbacks.countP StatusCallback.isResponse = 0) :
    .response allStatus ∉ s.callbacks :=
  fun hmem => List.countP_eq_zero.1 hzero _ hmem rfl

/-- A request gets the lock. -/
theorem requestSubscription (h : Synced keys s) (hpending : s.pending = none) (conn : C)
    (requestedSub : Subscription O F) : Synced keys (s.requestSubscription conn requestedSub) := by
  have hzero := h.countP_eq_zero hpending
  have hasked : s.asked = [] := by
    refine h.asked.resolve_right ?_
    rintro ⟨r, hr, -⟩
    exact absurd (hpending.symm.trans hr) nofun
  refine ⟨h.latest, h.cache, h.views, ?_, fun allStatus hmem => absurd hmem (not_response hzero),
    h.once, .inr ⟨_, rfl, ?_, hzero⟩⟩
  · rintro _ ⟨rfl⟩ o f hasks
    refine asks_foldl (hasks.imp_right ?_)
    rintro ⟨c, e, he, hasks⟩
    exact ⟨⟨c, e⟩, AList.mem_lookup_iff.1 he, hasks⟩
  · show s.asked ++ [_] = [_]
    rw [hasked]
    rfl

/-- A connection is removed. -/
theorem remove (h : Synced keys s) (conn : C) :
    Synced keys { s with subscriptions := s.subscriptions.erase conn } := by
  have hsub : ∀ {c e}, (s.subscriptions.erase conn).lookup c = some e →
      s.subscriptions.lookup c = some e := by
    intro c e he
    by_cases hc : c = conn
    · rw [hc, AList.lookup_erase] at he
      exact absurd he nofun
    · rwa [AList.lookup_erase_ne hc] at he
  refine ⟨h.latest, h.cache, fun c e he => h.views c e (hsub he), fun r hr o f hasks => ?_,
    h.responses, h.once, h.asked⟩
  refine h.request r hr o f (hasks.imp_right ?_)
  rintro ⟨c, e, he, hasks⟩
  exact ⟨c, e, hsub he, hasks⟩

/-- Klippy sends an update. -/
theorem readUpdate (h : Synced keys s) (status : Dict O (Dict F V)) :
    Synced keys { s with
      callbacks := s.callbacks ++ [.update status]
      latest := overlay s.latest status } := by
  have hcount : (s.callbacks ++ [StatusCallback.update status]).countP StatusCallback.isResponse =
      s.callbacks.countP StatusCallback.isResponse := by
    rw [List.countP_append, List.countP_singleton]
    rfl
  refine ⟨?_, h.cache, h.views, h.request, fun allStatus hmem => ?_, hcount ▸ h.once,
    hcount ▸ h.asked⟩
  · show overlay s.latest status = _
    rw [List.foldl_concat, ← h.latest]
    rfl
  · rcases List.mem_append.1 hmem with hmem | hmem
    · exact h.responses allStatus hmem
    · exact absurd (List.mem_singleton.1 hmem) nofun

/-- Klippy answers a request. -/
theorem readResponse (h : Synced keys s) {n : ℕ} {status : O → F → V}
    {t : KlippyConnection C O F V} (ht : s.next keys (.readResponse n status) = some t) :
    Synced keys t := by
  obtain ⟨⟨id, allSubs⟩, hn, rfl⟩ := Option.map_eq_some_iff.1 ht
  rcases h.asked with hnil | ⟨r, hr, hasked, hzero⟩
  · rw [hnil] at hn
    exact absurd hn nofun
  · have hmem := List.mem_of_getElem? hn
    rw [hasked, List.mem_singleton] at hmem
    obtain ⟨rfl, rfl⟩ := Prod.mk.inj hmem
    have hn0 : n = 0 := by
      have hlt := (List.getElem?_eq_some_iff.1 hn).1
      rw [hasked, List.length_singleton] at hlt
      omega
    dsimp only
    rw [if_pos (by rw [hr]; rfl)]
    refine ⟨?_, h.cache, h.views, h.request, fun allStatus hmem => ?_, ?_, .inl ?_⟩
    · show overlay s.latest _ = _
      rw [List.foldl_concat, ← h.latest]
      rfl
    · rcases List.mem_append.1 hmem with hmem | hmem
      · exact absurd hmem (not_response hzero)
      · have heq := List.mem_singleton.1 hmem
        injection heq with heq
        exact ⟨r, status, hr, heq⟩
    · show (s.callbacks ++ _).countP _ ≤ 1
      rw [List.countP_append, hzero, List.countP_singleton]
      split <;> omega
    · show s.asked.eraseIdx n = []
      rw [hn0, hasked]
      rfl

/-- An update that is first runs. -/
theorem update (h : Synced keys s) {status : Dict O (Dict F V)}
    {callbacks : List (StatusCallback O F V)} (hcallbacks : s.callbacks = .update status :: callbacks) :
    Synced keys (({ s with
      callbacks := callbacks
      known := overlay s.known status } : KlippyConnection C O F V).processStatusUpdate status) := by
  have hcount : callbacks.countP StatusCallback.isResponse =
      s.callbacks.countP StatusCallback.isResponse := by
    rw [hcallbacks, List.countP_cons]
    rfl
  have hsub : ∀ {c e}, (({ s with
      callbacks := callbacks
      known := overlay s.known status } : KlippyConnection C O F V).processStatusUpdate
        status).subscriptions.lookup c = some e →
      ∃ e', s.subscriptions.lookup c = some e' ∧ e.subscription = e'.subscription ∧
        e.received = e'.received ++ [connStatus e'.subscription status] := by
    intro c e he
    have he : (s.subscriptions.filterMap _).lookup c = some e := he
    rw [Dict.lookup_filterMap, Option.bind_eq_some_iff] at he
    obtain ⟨e', he', heq⟩ := he
    obtain rfl := Option.some_inj.1 heq
    exact ⟨e', he', rfl, rfl⟩
  refine ⟨?_, fun o f v hv => ?_, fun c e he o f hasks => ?_, fun r hr o f hasks => ?_,
    fun allStatus hmem => ?_, hcount ▸ h.once, ?_⟩
  · show s.latest = _
    rw [h.latest, hcallbacks]
    rfl
  · have hv : (s.subscriptionCache.updateEach status).get o f = some v := hv
    rw [Dict.get_updateEach] at hv
    show (status.get o f).or (s.known o f) = some v
    cases hstatus : status.get o f with
    | none =>
      rw [hstatus, Option.none_or] at hv
      rw [Option.none_or]
      exact h.cache o f v hv
    | some w => rwa [hstatus] at hv
  · obtain ⟨e', he', hsubscription, hreceived⟩ := hsub he
    rw [hsubscription] at hasks
    obtain ⟨v, hcache, hview⟩ := h.views c e' he' o f hasks
    refine ⟨(status.get o f).getD v, ?_, ?_⟩
    · show (s.subscriptionCache.updateEach status).get o f = _
      rw [Dict.get_updateEach, hcache]
      cases status.get o f <;> rfl
    · rw [hreceived, Dict.view_append, get_connStatus hasks, hview]
      cases status.get o f <;> rfl
  · refine h.request r hr o f (hasks.imp_right ?_)
    rintro ⟨c, e, he, hasks⟩
    obtain ⟨e', he', hsubscription, -⟩ := hsub he
    exact ⟨c, e', he', hsubscription ▸ hasks⟩
  · exact h.responses allStatus (hcallbacks ▸ List.mem_cons_of_mem _ hmem)
  · show s.asked = [] ∨ ∃ r, s.pending = some r ∧ s.asked = [(r.id, r.allSubs)] ∧
      callbacks.countP StatusCallback.isResponse = 0
    rw [hcount]
    exact h.asked

/-- After a response the cache has what it says. -/
theorem get_subscriptionCache_finish (r : SubscribeRequest C O F)
    (allStatus : Dict O (Dict F V)) (o : O) (f : F) :
    (s.finishSubscription r allStatus).subscriptionCache.get o f = allStatus.get o f := by
  have hupdate : ∀ fields, allStatus.lookup o = some fields →
      (s.subscriptionCache.update allStatus).get o f = allStatus.get o f := by
    intro fields hfields
    unfold Dict.get
    rw [Dict.lookup_update, hfields, Option.some_or]
  have hkeep : ∀ cache : Dict O (Dict F V),
      (∀ fields, allStatus.lookup o = some fields → cache.get o f = allStatus.get o f) →
      Dict.get (cache.filterMap fun o fields => if o ∈ allStatus then some fields else none) o f =
        allStatus.get o f := by
    intro cache hcache
    cases hall : allStatus.lookup o with
    | none =>
      have hmem : o ∉ allStatus := AList.lookup_eq_none.1 hall
      unfold Dict.get
      rw [Dict.lookup_filterMap, hall]
      cases cache.lookup o with
      | none => rfl
      | some fields => rw [Option.bind_some, if_neg hmem]
    | some fields =>
      have hmem : o ∈ allStatus := AList.lookup_isSome.1 (Option.isSome_of_eq_some hall)
      rw [← hcache fields hall]
      unfold Dict.get
      rw [Dict.lookup_filterMap]
      cases cache.lookup o with
      | none => rfl
      | some fields => rw [Option.bind_some, if_pos hmem]
  unfold finishSubscription
  dsimp only
  split_ifs with hdiff
  · refine hkeep _ fun fields hfields => ?_
    show ((s.subscriptionCache.update allStatus).updateEach _).get o f = _
    rw [Dict.get_updateEach, hupdate fields hfields, get_statusDiff]
    cases allStatus.get o f with
    | none => rfl
    | some v =>
      cases s.subscriptionCache.get o f with
      | none => rfl
      | some old =>
        rw [Option.bind_some, Option.bind_some]
        split <;> rfl
  · exact hkeep _ hupdate

/-- After a response the connections have been sent the difference. -/
theorem lookup_subscriptions_finish (keys : O → List F) {r : SubscribeRequest C O F}
    {allStatus : Dict O (Dict F V)} {c : C} {e : Subscriber O F V}
    (he : (s.finishSubscription r allStatus).subscriptions.lookup c = some e) :
    e = ⟨r.requestedSub, [prunedStatus r.requestedSub allStatus]⟩ ∨
      ∃ e', s.subscriptions.lookup c = some e' ∧ e.subscription = e'.subscription ∧
        ∀ o f, Asks keys e'.subscription o f → Dict.view e.received o f =
          ((statusDiff s.subscriptionCache allStatus).get o f).or (Dict.view e'.received o f) := by
  unfold finishSubscription at he
  dsimp only at he
  by_cases hc : c = r.conn
  · rw [hc, AList.lookup_insert] at he
    exact .inl (Option.some_inj.1 he).symm
  · right
    rw [AList.lookup_insert_ne hc] at he
    split_ifs at he with hdiff
    · have he : (s.subscriptions.filterMap _).lookup c = some e := he
      rw [Dict.lookup_filterMap, Option.bind_eq_some_iff] at he
      obtain ⟨e', he', heq⟩ := he
      obtain rfl := Option.some_inj.1 heq
      refine ⟨e', he', rfl, fun o f hasks => ?_⟩
      show Dict.view (e'.received ++ [_]) o f = _
      rw [Dict.view_append, get_connStatus hasks]
    · refine ⟨e, he, rfl, fun o f _ => ?_⟩
      rw [AList.ext (not_not.1 hdiff) (t := ∅)]
      rfl

/-- A request continues, and the response is first. -/
theorem finishSubscription (h : Synced keys s) {r : SubscribeRequest C O F}
    {allStatus : Dict O (Dict F V)} {callbacks : List (StatusCallback O F V)}
    (hr : s.pending = some r) (hcallbacks : s.callbacks = .response allStatus :: callbacks) :
    Synced keys (({ s with
      callbacks := callbacks
      known := overlay s.known allStatus } : KlippyConnection C O F V).finishSubscription r
        allStatus) := by
  obtain ⟨r', status, hr', hall⟩ := h.responses allStatus (hcallbacks ▸ List.mem_cons_self)
  obtain rfl := Option.some_inj.1 (hr.symm.trans hr')
  have hcount : s.callbacks.countP StatusCallback.isResponse =
      callbacks.countP StatusCallback.isResponse + 1 := by
    rw [hcallbacks, List.countP_cons]
    rfl
  have hzero : callbacks.countP StatusCallback.isResponse = 0 := by
    have := h.once
    omega
  have hasked : s.asked = [] := by
    refine h.asked.resolve_right ?_
    rintro ⟨-, -, -, hnone⟩
    omega
  have hframe : ∀ t : KlippyConnection C O F V,
      (t.finishSubscription r allStatus).latest = t.latest ∧
        (t.finishSubscription r allStatus).callbacks = t.callbacks ∧
        (t.finishSubscription r allStatus).known = t.known ∧
        (t.finishSubscription r allStatus).asked = t.asked ∧
        (t.finishSubscription r allStatus).pending = none := by
    intro t
    unfold KlippyConnection.finishSubscription
    dsimp only
    split <;> exact ⟨rfl, rfl, rfl, rfl, rfl⟩
  obtain ⟨hlatest, hcb, hknown, hask, hpending⟩ := hframe { s with
    callbacks := callbacks
    known := overlay s.known allStatus }
  have hanswer : ∀ {o f}, Asks keys r.allSubs o f → allStatus.get o f = some (status o f) :=
    fun hasks => hall ▸ get_fullStatus hasks status
  refine ⟨?_, fun o f v hv => ?_, fun c e he o f hasks => ?_, ?_, ?_, ?_, .inl (hask.trans hasked)⟩
  · rw [hlatest, hcb, hknown]
    show s.latest = _
    rw [h.latest, hcallbacks]
    rfl
  · rw [get_subscriptionCache_finish] at hv
    rw [hknown]
    show (allStatus.get o f).or _ = some v
    rw [hv, Option.some_or]
  · rw [get_subscriptionCache_finish]
    rcases lookup_subscriptions_finish keys he with rfl | ⟨e', he', hsubscription, hview⟩
    · refine ⟨status o f, hanswer (h.request r hr o f (.inl hasks)), ?_⟩
      show Dict.view [prunedStatus r.requestedSub allStatus] o f = _
      rw [Dict.view_singleton, get_prunedStatus hasks]
      exact hanswer (h.request r hr o f (.inl hasks))
    · have he' : s.subscriptions.lookup c = some e' := he'
      rw [hsubscription] at hasks
      have hget := hanswer (h.request r hr o f (.inr ⟨c, e', he', hasks⟩))
      obtain ⟨v, hcache, hold⟩ := h.views c e' he' o f hasks
      have hdiff : (statusDiff s.subscriptionCache allStatus).get o f =
          if status o f ≠ v then some (status o f) else none := by
        rw [get_statusDiff, hget, hcache]
        rfl
      refine ⟨status o f, hget, (hview o f hasks).trans ?_⟩
      show ((statusDiff s.subscriptionCache allStatus).get o f).or _ = _
      rw [hdiff, hold]
      split_ifs with hsame
      · rfl
      · rw [Option.none_or, not_not.1 hsame]
  · rw [hpending]
    nofun
  · rw [hcb]
    exact fun allStatus hmem => absurd hmem fun hmem =>
      List.countP_eq_zero.1 hzero _ hmem rfl
  · rw [hcb]
    exact hzero.le.trans (Nat.zero_le _)

theorem next (h : Synced keys s) {e : Event C O F V} (horder : InOrder s e)
    {t : KlippyConnection C O F V} (ht : s.next keys e = some t) : Synced keys t := by
  cases e with
  | subscribe conn requestedSub =>
    unfold KlippyConnection.next at ht
    dsimp only at ht
    split_ifs at ht with hfree
    · obtain rfl := Option.some_inj.1 ht
      exact h.requestSubscription (Option.isNone_iff_eq_none.1 hfree.1) conn requestedSub
    · obtain rfl := Option.some_inj.1 ht
      exact ⟨h.latest, h.cache, h.views, h.request, h.responses, h.once, h.asked⟩
  | remove conn =>
    obtain rfl := Option.some_inj.1 ht
    exact h.remove conn
  | grant =>
    unfold KlippyConnection.next at ht
    dsimp only at ht
    split at ht
    · rename_i conn requestedSub lockWaiters hpending _
      obtain rfl := Option.some_inj.1 ht
      have h' : Synced keys { s with lockWaiters := lockWaiters } :=
        ⟨h.latest, h.cache, h.views, h.request, h.responses, h.once, h.asked⟩
      exact h'.requestSubscription hpending conn requestedSub
    · exact absurd ht nofun
  | readUpdate status =>
    obtain rfl := Option.some_inj.1 ht
    exact h.readUpdate status
  | readResponse n status => exact h.readResponse ht
  | update =>
    obtain ⟨cb, hcb, rfl⟩ := Option.map_eq_some_iff.1 ht
    cases hcallbacks : s.callbacks with
    | nil =>
      rw [hcallbacks] at hcb
      exact absurd hcb nofun
    | cons first callbacks =>
      have hfirst : (!first.isResponse) = true := by
        have horder : s.callbacks.head?.all (fun cb => !cb.isResponse) = true := horder
        rwa [hcallbacks] at horder
      rw [hcallbacks,
        List.find?_cons_of_pos (p := fun cb : StatusCallback O F V => !cb.isResponse) hfirst] at hcb
      obtain rfl := Option.some_inj.1 hcb
      rw [List.eraseP_cons_of_pos (p := fun cb : StatusCallback O F V => !cb.isResponse) hfirst]
      cases first with
      | update status => exact h.update hcallbacks
      | response allStatus => exact absurd hfirst nofun
  | resume =>
    unfold KlippyConnection.next at ht
    dsimp only at ht
    split at ht
    · rename_i r allStatus callbacks hr hcallbacks
      obtain rfl := Option.some_inj.1 ht
      exact h.finishSubscription hr hcallbacks
    · exact absurd ht nofun
  | timeout => exact horder.elim
  | refused =>
    obtain ⟨r, hr, ht⟩ := Option.bind_eq_some_iff.1 ht
    split_ifs at ht with hmem
    obtain rfl := Option.some_inj.1 ht
    rcases h.asked with hnil | ⟨r', hr', hasked, hzero⟩
    · rw [hnil] at hmem
      exact absurd hmem nofun
    · obtain rfl := Option.some_inj.1 (hr.symm.trans hr')
      refine ⟨h.latest, h.cache, h.views, nofun,
        fun allStatus hmem => absurd hmem (not_response hzero), h.once, .inl ?_⟩
      show s.asked.filter _ = []
      rw [hasked, List.filter_cons_of_neg (by simp)]
      rfl

end Synced

/-- In a run in which no update overtakes a response and no request times out, each connection has
been sent the latest status of what it asks for whenever no callback is left, and the cache has
it. -/
theorem status_of_reachable (h : (system keys).ReachableBy InOrder s) (hcallbacks : s.callbacks = []) :
    (∀ c e, s.subscriptions.lookup c = some e → ∀ o f, Asks keys e.subscription o f →
      ∃ v, s.latest o f = some v ∧ s.subscriptionCache.get o f = some v ∧
        Dict.view e.received o f = some v) ∧
      ∀ o f v, s.subscriptionCache.get o f = some v → s.latest o f = some v := by
  have hs : Synced keys s := by
    refine h.invariant (I := Synced keys) ?_ fun s e t hs horder ht => hs.next horder ht
    rintro s rfl
    exact ⟨rfl, fun o f v hv => absurd hv nofun, fun c e he => absurd he nofun, nofun, nofun,
      Nat.zero_le _, .inl rfl⟩
  have hlatest : s.latest = s.known := by
    rw [hs.latest, hcallbacks]
    rfl
  rw [hlatest]
  refine ⟨fun c e he o f hasks => ?_, hs.cache⟩
  obtain ⟨v, hcache, hview⟩ := hs.views c e he o f hasks
  exact ⟨v, hs.cache o f v hcache, hcache, hview⟩

/-- A subscription to all fields of an object. -/
def wholeObject : Subscription ℕ ℕ :=
  AList.singleton 0 none

/-- An update of a field. -/
def changed (v : ℕ) : Dict ℕ (Dict ℕ ℕ) :=
  AList.singleton 0 (AList.singleton 0 v)

/-- Two connections subscribe, and the first hears of a change from the response to the second. -/
def subscribedTwice : List (Event ℕ ℕ ℕ ℕ) :=
  [.subscribe 1 wholeObject, .readResponse 0 fun _ _ => 0, .resume, .subscribe 2 wholeObject,
    .readResponse 0 fun _ _ => 1, .resume]

theorem status_of_reachable_subscribed :
    ∃ s : KlippyConnection ℕ ℕ ℕ ℕ, ∃ e, (system fun _ => [0]).run start subscribedTwice = some s ∧
      s.subscriptions.lookup 1 = some e ∧ s.latest 0 0 = some 1 ∧
        Dict.view e.received 0 0 = some 1 := by
  have hrun : ((system fun _ => [0]).run start subscribedTwice).map (fun s =>
      decide (s.callbacks.length = 0 ∧ s.latest 0 0 = some 1 ∧
        (s.subscriptions.lookup 1).map (fun e => e.subscription.lookup 0) = some (some none))) =
          some true := by decide +kernel
  obtain ⟨s, hs, heq⟩ := Option.map_eq_some_iff.1 hrun
  obtain ⟨hlength, hlatest, hclient⟩ := of_decide_eq_true heq
  obtain ⟨e, he, ho⟩ := Option.map_eq_some_iff.1 hclient
  have hreach : (system fun _ => [0]).ReachableBy InOrder s :=
    System.ReachableBy.run (.init rfl) (by decide +kernel) hs
  obtain ⟨v, hv, -, hview⟩ := (status_of_reachable hreach (List.length_eq_zero_iff.1 hlength)).1 1 e
    he 0 0 ⟨List.mem_singleton_self 0, none, ho, nofun⟩
  obtain rfl := Option.some_inj.1 (hlatest.symm.trans hv)
  exact ⟨s, e, hs, he, hlatest, hview⟩

/-- The response to the second connection is overtaken by an update that was read later. -/
def overtakenResponse : List (Event ℕ ℕ ℕ ℕ) :=
  [.subscribe 1 wholeObject, .readResponse 0 fun _ _ => 0, .resume, .subscribe 2 wholeObject,
    .readResponse 0 fun _ _ => 0, .readUpdate (changed 1), .update, .resume]

/-- The update is undone for both connections and in the cache. -/
theorem not_status_overtaken :
    ∃ s : KlippyConnection ℕ ℕ ℕ ℕ, ∃ e e', (system fun _ => [0]).Reachable s ∧ s.callbacks = [] ∧
      s.latest 0 0 = some 1 ∧ s.subscriptionCache.get 0 0 = some 0 ∧
      s.subscriptions.lookup 1 = some e ∧ Dict.view e.received 0 0 = some 0 ∧
      s.subscriptions.lookup 2 = some e' ∧ Dict.view e'.received 0 0 = some 0 := by
  have hrun : ((system fun _ => [0]).run start overtakenResponse).map (fun s =>
      decide (s.callbacks.length = 0 ∧ s.latest 0 0 = some 1 ∧
        s.subscriptionCache.get 0 0 = some 0 ∧
        (s.subscriptions.lookup 1).map (fun e => Dict.view e.received 0 0) = some (some 0) ∧
        (s.subscriptions.lookup 2).map (fun e => Dict.view e.received 0 0) = some (some 0))) =
          some true := by decide +kernel
  obtain ⟨s, hs, heq⟩ := Option.map_eq_some_iff.1 hrun
  obtain ⟨hlength, hlatest, hcache, hfirst, hsecond⟩ := of_decide_eq_true heq
  obtain ⟨e, he, hview⟩ := Option.map_eq_some_iff.1 hfirst
  obtain ⟨e', he', hview'⟩ := Option.map_eq_some_iff.1 hsecond
  exact ⟨s, e, e', System.Reachable.run (.init rfl) hs, List.length_eq_zero_iff.1 hlength, hlatest,
    hcache, he, hview, he', hview'⟩

end KlippyConnection

end Thinker
