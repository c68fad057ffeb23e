import Thinker.Dict
import Thinker.Transition

/-!
# Status queries

`QueryStatusHelper` of `webhooks.py`. `_do_query` reads the status of the objects that someone asks
for, answers the pending queries, and sends to each client the items that differ from those of the
last `_do_query`. A handler that subscribes waits for its answer, and stores the subscription once
it runs again.

Between the answer and that time another `_do_query` may run. If none does, what a client has
received is what was read last (`view_of_reachable`). The template that goes with the messages of a
client is left out.
-/

set_option linter.unusedSectionVars false

namespace Thinker

/-- The items of each object, `none` for all of them. -/
abbrev Subscription (O I : Type) :=
  Dict O (Option (List I))

/-- The items of some objects. `none` stands for `None`. -/
abbrev Report (O I W : Type) :=
  Dict O (Dict I (Option W))

/-- A client of `clients`. `received` is not in the code : the response to its subscription and the
messages since. -/
structure StatusClient (O I W : Type) where
  subscription : Subscription O I
  received : List (Report O I W)

/-- A handler that waits for a query. -/
structure StatusQuery (C O I : Type) where
  client : C
  isSubscribe : Bool
  objects : Subscription O I

/-- `QueryStatusHelper`. `lastQuery` has the status of an object as a function from the items.
`answered` are the handlers whose query was answered and that did not run since, and `closed` the
connections that were closed. -/
structure QueryStatusHelper (C O I W : Type) where
  clients : Dict C (StatusClient O I W)
  pendingQueries : List (StatusQuery C O I)
  queryTimer : Bool
  lastQuery : Dict O (I → Option W)
  answered : List (StatusQuery C O I × Report O I W)
  closed : List C

namespace QueryStatusHelper

variable {C O I W : Type} [DecidableEq C] [DecidableEq O] [DecidableEq I] [DecidableEq W]

/-! ## Reports -/

section
variable (keys : O → List I)

/-- The items that are asked for. -/
def itemsOf (o : O) (items : Option (List I)) : List I :=
  items.getD (keys o)

/-- A subscription after a query : the items of an object that has some are listed. -/
def expand (subscription : Subscription O I) : Subscription O I :=
  subscription.filterMap fun o items =>
    some (if items = none ∧ keys o ≠ [] then some (keys o) else items)

/-- `cquery` : the status of the items that differ from the last, or of all of them. -/
def report (isQuery : Bool) (status lastQuery : O → I → Option W)
    (subscription : Subscription O I) : Report O I W :=
  subscription.filterMap fun o items =>
    let cres := Dict.ofList
      ((itemsOf keys o items).filter fun i => isQuery || decide (status o i ≠ lastQuery o i))
      (status o)
    if cres.entries ≠ [] ∨ isQuery = true then some cres else none

@[simp]
theorem lookup_expand (subscription : Subscription O I) (o : O) :
    (expand keys subscription).lookup o = (subscription.lookup o).map fun items =>
      if items = none ∧ keys o ≠ [] then some (keys o) else items := by
  unfold expand
  rw [Dict.lookup_filterMap]
  cases subscription.lookup o <;> rfl

theorem itemsOf_expand (o : O) (items : Option (List I)) :
    itemsOf keys o (if items = none ∧ keys o ≠ [] then some (keys o) else items) =
      itemsOf keys o items := by
  split_ifs with h
  · rw [h.1]
    rfl
  · rfl

/-- The value of an item in a report. -/
theorem get_report (isQuery : Bool) (status lastQuery : O → I → Option W)
    {subscription : Subscription O I} {o : O} {items : Option (List I)}
    (ho : subscription.lookup o = some items) {i : I} (hi : i ∈ itemsOf keys o items) :
    (report keys isQuery status lastQuery subscription).get o i =
      if isQuery = true ∨ status o i ≠ lastQuery o i then some (status o i) else none := by
  unfold report Dict.get
  rw [Dict.lookup_filterMap, ho, Option.bind_some]
  dsimp only
  generalize hcres : Dict.ofList
    ((itemsOf keys o items).filter fun i => isQuery || decide (status o i ≠ lastQuery o i))
    (status o) = cres
  have hlookup : cres.lookup i =
      if isQuery = true ∨ status o i ≠ lastQuery o i then some (status o i) else none := by
    rw [← hcres, Dict.lookup_ofList]
    simp [hi]
  split_ifs with hsent hsend hsend
  · rw [Option.bind_some, hlookup, if_pos hsend]
  · rw [Option.bind_some, hlookup, if_neg hsend]
  · rw [if_pos hsend] at hlookup
    have hempty : cres = ∅ := AList.ext (not_not.1 fun hne => hsent (.inl hne))
    rw [hempty, AList.lookup_empty] at hlookup
    exact absurd hlookup nofun
  · rfl

end

/-! ## The helper -/

variable (keys : O → List I) (s : QueryStatusHelper C O I W)

/-- `last_query.get(obj_name, {}).get(ri)`. -/
def last (o : O) (i : I) : Option W :=
  (s.lastQuery.lookup o).bind (· i)

/-- A client in `_do_query`. A report without objects is not sent. -/
def updateClient (status : O → I → Option W) (c : StatusClient O I W) : StatusClient O I W :=
  let cquery := report keys false status s.last c.subscription
  { subscription := expand keys c.subscription
    received := if cquery.entries = [] then c.received else c.received ++ [cquery] }

/-- The clients that are not closed, with their objects. -/
def openClients : Dict C (StatusClient O I W) :=
  s.clients.filterMap fun c e => if c ∈ s.closed then none else some e

/-- The objects that are queried. -/
def queried : List O :=
  s.pendingQueries.flatMap (fun q => q.objects.keys) ++
    s.openClients.entries.flatMap fun e => e.2.subscription.keys

/-- `_do_query`. -/
def doQuery (status : O → I → Option W) : QueryStatusHelper C O I W where
  clients := s.openClients.filterMap fun _ e => some (s.updateClient keys status e)
  pendingQueries := []
  queryTimer := s.queried ≠ []
  lastQuery := Dict.ofList s.queried status
  answered := s.answered ++ s.pendingQueries.map fun q =>
    ({ q with objects := expand keys q.objects },
      report keys true status s.last q.objects)
  closed := s.closed

/-- `_handle_query`, to its `wait`. -/
def handleQuery (q : StatusQuery C O I) : QueryStatusHelper C O I W :=
  { s with
    clients := if q.isSubscribe = true then s.clients.erase q.client else s.clients
    pendingQueries := s.pendingQueries ++ [q]
    queryTimer := true }

/-- `_handle_query`, with the answer. -/
def finishQuery (q : StatusQuery C O I) (answer : Report O I W) : QueryStatusHelper C O I W :=
  if q.isSubscribe = true then
    { s with clients := s.clients.insert q.client ⟨q.objects, [answer]⟩ }
  else s

/-- What may happen next : a request comes, the timer runs and reads a status, a handler that was
answered runs, or a connection is closed. -/
inductive Event (C O I W : Type) where
  | request (q : StatusQuery C O I)
  | doQuery (status : O → I → Option W)
  | resume (n : ℕ)
  | close (c : C)

/-- The state after an event. -/
def next : Event C O I W → Option (QueryStatusHelper C O I W)
  | .request q => some (s.handleQuery q)
  | .doQuery status => if s.queryTimer = true then some (s.doQuery keys status) else none
  | .resume n =>
    (s.answered[n]?).map fun (q, answer) =>
      ({ s with answered := s.answered.eraseIdx n } : QueryStatusHelper C O I W).finishQuery q answer
  | .close c => some { s with closed := c :: s.closed }

/-- `__init__`. -/
def start : QueryStatusHelper C O I W :=
  ⟨∅, [], false, ∅, [], []⟩

/-- The helper of objects with these keys. -/
def system : System (QueryStatusHelper C O I W) (Event C O I W) where
  init s := s = start
  next := next keys

/-! ## What the clients know -/

variable {keys} {s}

/-- Values are those of the last query. -/
def UpToDate (keys : O → List I) (s : QueryStatusHelper C O I W) (subscription : Subscription O I)
    (value : O → I → Option (Option W)) : Prop :=
  ∀ o items, subscription.lookup o = some items →
    ∃ res, s.lastQuery.lookup o = some res ∧ ∀ i ∈ itemsOf keys o items, value o i = some (res i)

/-- The timer does not run between the answer to a subscription and its handler. -/
def Prompt (s : QueryStatusHelper C O I W) : Event C O I W → Prop
  | .doQuery _ => ∀ a ∈ s.answered, a.1.isSubscribe = false
  | _ => True

instance (e : Event C O I W) : Decidable (Prompt s e) := by
  unfold Prompt
  split <;> infer_instance

/-- Clients and answers to subscriptions are up to date. -/
structure Current (keys : O → List I) (s : QueryStatusHelper C O I W) : Prop where
  clients : ∀ c e, s.clients.lookup c = some e → UpToDate keys s e.subscription (Dict.view e.received)
  answered : ∀ a ∈ s.answered, a.1.isSubscribe = true → UpToDate keys s a.1.objects a.2.get

/-- The message of a client brings it up to date. -/
theorem view_updateClient (status : O → I → Option W) {e : StatusClient O I W}
    (h : UpToDate keys s e.subscription (Dict.view e.received)) {o : O} {items : Option (List I)}
    (ho : e.subscription.lookup o = some items) {i : I} (hi : i ∈ itemsOf keys o items) :
    Dict.view (s.updateClient keys status e).received o i = some (status o i) := by
  obtain ⟨res, hres, hview⟩ := h o items ho
  have hget := get_report keys false status s.last ho hi
  have hlast : s.last o i = res i := by
    unfold last
    rw [hres, Option.bind_some]
  have hmerged : Dict.view (s.updateClient keys status e).received o i =
      ((report keys false status s.last e.subscription).get o i).or (Dict.view e.received o i) := by
    unfold updateClient
    dsimp only
    split_ifs with hempty
    · have hnone : report keys false status s.last e.subscription = ∅ := AList.ext hempty
      rw [hnone]
      rfl
    · exact Dict.view_append _ _ _ _
  rw [hmerged, hget, hview i hi, hlast]
  by_cases hsame : status o i = res i
  · rw [if_neg (by simp [hsame]), Option.none_or, hsame]
  · rw [if_pos (.inr hsame), Option.some_or]

theorem lookup_openClients {c : C} {e : StatusClient O I W} (he : s.openClients.lookup c = some e) :
    s.clients.lookup c = some e := by
  unfold openClients at he
  rw [Dict.lookup_filterMap, Option.bind_eq_some_iff] at he
  obtain ⟨e', he', heq⟩ := he
  split_ifs at heq
  rwa [← Option.some_inj.1 heq]

/-- What is asked for is queried. -/
theorem lookup_lastQuery_doQuery (status : O → I → Option W) {o : O} (ho : o ∈ s.queried) :
    (s.doQuery keys status).lastQuery.lookup o = some (status o) := by
  show (Dict.ofList s.queried status).lookup o = _
  rw [Dict.lookup_ofList, if_pos ho]

theorem mem_keys {subscription : Subscription O I} {o : O} {items : Option (List I)}
    (ho : subscription.lookup o = some items) : o ∈ subscription.keys :=
  AList.mem_keys.1 (AList.lookup_isSome.1 (Option.isSome_of_eq_some ho))

theorem mem_queried_of_client {c : C} {e : StatusClient O I W}
    (he : s.openClients.lookup c = some e) {o : O} {items : Option (List I)}
    (ho : e.subscription.lookup o = some items) : o ∈ s.queried :=
  List.mem_append_right _
    (List.mem_flatMap.2 ⟨⟨c, e⟩, AList.mem_lookup_iff.1 he, mem_keys ho⟩)

theorem mem_queried_of_query {q : StatusQuery C O I} (hq : q ∈ s.pendingQueries) {o : O}
    {items : Option (List I)} (ho : q.objects.lookup o = some items) : o ∈ s.queried :=
  List.mem_append_left _ (List.mem_flatMap.2 ⟨q, hq, mem_keys ho⟩)

/-- A subscription that the query has expanded. -/
theorem upToDate_expand {s' : QueryStatusHelper C O I W} {subscription : Subscription O I}
    {value : O → I → Option (Option W)} (status : O → I → Option W)
    (hvalue : ∀ o items, subscription.lookup o = some items →
      s'.lastQuery.lookup o = some (status o) ∧
        ∀ i ∈ itemsOf keys o items, value o i = some (status o i)) :
    UpToDate keys s' (expand keys subscription) value := by
  intro o items ho
  rw [lookup_expand, Option.map_eq_some_iff] at ho
  obtain ⟨items', ho, rfl⟩ := ho
  rw [itemsOf_expand]
  exact ⟨status o, hvalue o items' ho⟩

/-- Nothing is behind after a query that comes in time. -/
theorem Current.doQuery (h : Current keys s) (status : O → I → Option W)
    (hprompt : Prompt s (.doQuery status)) : Current keys (s.doQuery keys status) := by
  refine ⟨fun c e he => ?_, fun a ha hsub => ?_⟩
  · have he : (s.openClients.filterMap fun _ e => some (s.updateClient keys status e)).lookup c =
        some e := he
    rw [Dict.lookup_filterMap, Option.bind_eq_some_iff] at he
    obtain ⟨e', he', heq⟩ := he
    obtain rfl := Option.some_inj.1 heq
    refine upToDate_expand status fun o items ho => ⟨?_, fun i hi => ?_⟩
    · exact lookup_lastQuery_doQuery status (mem_queried_of_client he' ho)
    · exact view_updateClient status (h.clients c e' (lookup_openClients he')) ho hi
  · rcases List.mem_append.1 ha with ha | ha
    · rw [hprompt a ha] at hsub
      exact absurd hsub nofun
    · obtain ⟨q, hq, rfl⟩ := List.mem_map.1 ha
      refine upToDate_expand status fun o items ho => ⟨?_, fun i hi => ?_⟩
      · exact lookup_lastQuery_doQuery status (mem_queried_of_query hq ho)
      · rw [get_report keys true status s.last ho hi, if_pos (.inl rfl)]

theorem Current.next (h : Current keys s) {e : Event C O I W} (hprompt : Prompt s e)
    {t : QueryStatusHelper C O I W} (ht : s.next keys e = some t) : Current keys t := by
  cases e with
  | request q =>
    obtain rfl := Option.some_inj.1 ht
    refine ⟨fun c e he => ?_, h.answered⟩
    have he : (if q.isSubscribe = true then s.clients.erase q.client else s.clients).lookup c =
        some e := he
    split_ifs at he
    · by_cases hc : c = q.client
      · rw [hc, AList.lookup_erase] at he
        exact absurd he nofun
      · rw [AList.lookup_erase_ne hc] at he
        exact h.clients c e he
    · exact h.clients c e he
  | doQuery status =>
    unfold QueryStatusHelper.next at ht
    dsimp only at ht
    split_ifs at ht
    obtain rfl := Option.some_inj.1 ht
    exact h.doQuery status hprompt
  | resume n =>
    obtain ⟨⟨q, answer⟩, hn, ht⟩ := Option.map_eq_some_iff.1 ht
    have hmem := List.mem_of_getElem? hn
    have hrest : ∀ a ∈ s.answered.eraseIdx n, a.1.isSubscribe = true →
        UpToDate keys s a.1.objects a.2.get := fun a ha hsub =>
      h.answered a (List.mem_of_mem_eraseIdx ha) hsub
    subst t
    unfold finishQuery
    dsimp only
    split_ifs with hsub
    · refine ⟨fun c e he => ?_, hrest⟩
      have he : (s.clients.insert q.client ⟨q.objects, [answer]⟩).lookup c = some e := he
      by_cases hc : c = q.client
      · rw [hc, AList.lookup_insert] at he
        obtain rfl := Option.some_inj.1 he
        have hview : Dict.view [answer] = answer.get := by
          funext o i
          exact Dict.view_singleton answer o i
        rw [hview]
        exact h.answered _ hmem hsub
      · rw [AList.lookup_insert_ne hc] at he
        exact h.clients c e he
    · exact ⟨h.clients, hrest⟩
  | close c =>
    obtain rfl := Option.some_inj.1 ht
    exact ⟨h.clients, h.answered⟩

/-- In a run where each subscription is stored before the next query, what a client has received is
on every item the status that `_do_query` has read. -/
theorem view_of_reachable (h : (system (C := C) (W := W) keys).ReachableBy Prompt s)
    {status : O → I → Option W} (hprompt : Prompt s (.doQuery status))
    {t : QueryStatusHelper C O I W} (ht : s.next keys (.doQuery status) = some t) {c : C}
    {e : StatusClient O I W} (he : t.clients.lookup c = some e) {o : O} {items : Option (List I)}
    (ho : e.subscription.lookup o = some items) {i : I} (hi : i ∈ itemsOf keys o items) :
    Dict.view e.received o i = some (status o i) := by
  have hs : Current keys s := by
    refine h.invariant (I := Current keys) ?_ fun s e t hs hprompt ht => hs.next hprompt ht
    rintro s rfl
    exact ⟨fun c e he => absurd he nofun, nofun⟩
  obtain ⟨res, hres, hview⟩ := (hs.next hprompt ht).clients c e he o items ho
  have hlast : t.lastQuery = Dict.ofList s.queried status := by
    unfold QueryStatusHelper.next at ht
    dsimp only at ht
    split_ifs at ht
    obtain rfl := Option.some_inj.1 ht
    rfl
  rw [hlast, Dict.lookup_ofList, Option.ite_none_right_eq_some] at hres
  rw [hview i hi, ← Option.some_inj.1 hres.2]

/-- A subscription to all items of an object. -/
def subscribe (c : ℕ) : StatusQuery ℕ ℕ ℕ :=
  ⟨c, true, AList.singleton 0 none⟩

/-- Each item has this value. -/
def constant (v : ℕ) : ℕ → ℕ → Option ℕ :=
  fun _ _ => some v

/-- A client subscribes. -/
def subscribed : List (Event ℕ ℕ ℕ ℕ) :=
  [.request (subscribe 1), .doQuery (constant 0), .resume 0]

theorem view_of_reachable_subscribed :
    ∃ s t : QueryStatusHelper ℕ ℕ ℕ ℕ, ∃ e, (system fun _ => [0]).run start subscribed = some s ∧
      s.next (fun _ => [0]) (.doQuery (constant 1)) = some t ∧ t.clients.lookup 1 = some e ∧
        Dict.view e.received 0 0 = some (some 1) := by
  have hrun : ((system fun _ => [0]).run start subscribed).map (fun s =>
      (s.next (fun _ => [0]) (.doQuery (constant 1))).map fun t =>
        (t.clients.lookup 1).map fun e => e.subscription.lookup 0) =
          some (some (some (some (some [0])))) := by decide +kernel
  obtain ⟨s, hs, hnext⟩ := Option.map_eq_some_iff.1 hrun
  obtain ⟨t, ht, hclient⟩ := Option.map_eq_some_iff.1 hnext
  obtain ⟨e, he, ho⟩ := Option.map_eq_some_iff.1 hclient
  have hreach : (system fun _ => [0]).ReachableBy Prompt s :=
    System.ReachableBy.run (.init rfl) (by decide +kernel) hs
  have hanswered : s.answered.length = 0 := by
    have hlength : ((system fun _ => [0]).run start subscribed).map (fun s => s.answered.length) =
        some 0 := by decide +kernel
    rwa [hs, Option.map_some, Option.some_inj] at hlength
  have hprompt : Prompt s (.doQuery (constant 1)) := by
    intro a ha
    rw [List.length_eq_zero_iff.1 hanswered] at ha
    exact absurd ha List.not_mem_nil
  exact ⟨s, t, e, hs, ht, he, view_of_reachable hreach hprompt ht he ho (by decide)⟩

/-- A second client subscribes, and the status changes in a query between its answer and its
handler. -/
def overtaken : List (Event ℕ ℕ ℕ ℕ) :=
  subscribed ++
    [.request (subscribe 2), .doQuery (constant 0), .doQuery (constant 1), .resume 0]

/-- The second client never hears of the change. -/
theorem not_view_overtaken :
    ∃ s t : QueryStatusHelper ℕ ℕ ℕ ℕ, ∃ e, (system fun _ => [0]).Reachable s ∧
      s.next (fun _ => [0]) (.doQuery (constant 1)) = some t ∧ t.clients.lookup 2 = some e ∧
        e.subscription.lookup 0 = some (some [0]) ∧ Dict.view e.received 0 0 = some (some 0) := by
  have hrun : ((system fun _ => [0]).run start overtaken).map (fun s =>
      (s.next (fun _ => [0]) (.doQuery (constant 1))).map fun t =>
        (t.clients.lookup 2).map fun e => decide (e.subscription.lookup 0 = some (some [0]) ∧
          Dict.view e.received 0 0 = some (some 0))) = some (some (some true)) := by decide +kernel
  obtain ⟨s, hs, hnext⟩ := Option.map_eq_some_iff.1 hrun
  obtain ⟨t, ht, hclient⟩ := Option.map_eq_some_iff.1 hnext
  obtain ⟨e, he, hvalues⟩ := Option.map_eq_some_iff.1 hclient
  obtain ⟨ho, hview⟩ := of_decide_eq_true hvalues
  exact ⟨s, t, e, System.Reachable.run (.init rfl) hs, ht, he, ho, hview⟩

end QueryStatusHelper

end Thinker
