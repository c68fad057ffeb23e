import Mathlib.Tactic
import Thinker.Transition

/-!
# Responses and callbacks of the websocket of KlipperScreen

A `KlippyWebsocket` numbers its requests from 1 and files a callback under the number of
its request. The table of callbacks belongs to the class, so all instances share it, and
it outlives every connection : a switch of printers creates a new instance, which numbers
its requests from 1 again while callbacks of the old one are still filed. `onMessage`
takes whatever is filed under the number of a response.

A response then finds its own callback, or none if it has none, in every run in which a
request with a callback is sent only while no request of its number can still be answered,
and one without a callback only while none is filed under its number (`Careful`,
`responses_reach_requests`). One instance alone is always careful, through any lost
connections (`delivered_of_alone`).
-/

namespace Thinker

/-- A `KlippyWebsocket`. The last of its sockets is `ws`. -/
structure KlippyWebsocket where
  reqId : ℕ := 0
  connected : Bool := false
  closing : Bool := false
  sockets : ℕ := 0
deriving DecidableEq

/-- A request : the how-manieth it is, who sent it over which of its sockets, the number
it carries, and whether it came with a callback. -/
structure WsRequest where
  index : ℕ
  sender : ℕ
  socket : ℕ
  id : ℕ
  callback : Bool
deriving DecidableEq

/-- The instances created so far, of which the screen uses the last, and the table they
share. An entry holds the callback, method, parameters and arguments of a request, and
stands here for that request. -/
structure WsScreen where
  count : ℕ := 0
  instances : ℕ → KlippyWebsocket := fun _ => {}
  callbackTable : ℕ → Option WsRequest := fun _ => none
  /-- Requests made. -/
  sent : ℕ := 0
  /-- Requests that a server has received and may still answer. -/
  pending : Finset WsRequest := ∅
  /-- The callbacks called, by their requests, with the requests answered. -/
  invoked : List (WsRequest × WsRequest) := []

inductive WsEvent
  /-- `connect_printer` : the instance in use is closed and a new one created. -/
  | connectPrinter
  /-- A new socket is started. -/
  | connect (i : ℕ)
  | onOpen (i : ℕ)
  | onClose (i socket : ℕ)
  /-- `send_method`, of a request that the server receives or does not. -/
  | sendMethod (i : ℕ) (callback received : Bool)
  /-- The response to a request. -/
  | onMessage (r : WsRequest)

namespace WsScreen

def setInstance (s : WsScreen) (i : ℕ) (f : KlippyWebsocket → KlippyWebsocket) : WsScreen :=
  { s with instances := Function.update s.instances i (f (s.instances i)) }

def connectPrinter (s : WsScreen) : WsScreen :=
  let i := s.count - 1
  let s := if 0 < s.count ∧ (s.instances i).connected then
      s.setInstance i fun ws => { ws with closing := true }
    else s
  { s with count := s.count + 1, instances := Function.update s.instances s.count {} }

def connect (s : WsScreen) (i : ℕ) : WsScreen :=
  if (s.instances i).connected then s
  else s.setInstance i fun ws => { ws with sockets := ws.sockets + 1 }

/-- After the end of a connection no message of it arrives. -/
def onClose (s : WsScreen) (i socket : ℕ) : WsScreen :=
  let s := { s with pending := s.pending.filter fun r => ¬(r.sender = i ∧ r.socket = socket) }
  if ¬(s.instances i).connected then s
  else if (s.instances i).closing then s.setInstance i fun ws => { ws with closing := false }
  else s.setInstance i fun ws => { ws with connected := false }

/-- The request that an instance sends next. -/
def request (s : WsScreen) (i : ℕ) (callback : Bool) : WsRequest :=
  ⟨s.sent, i, (s.instances i).sockets, (s.instances i).reqId + 1, callback⟩

def sendMethod (s : WsScreen) (i : ℕ) (callback received : Bool) : WsScreen :=
  if ¬(s.instances i).connected then s
  else
    let r := s.request i callback
    let s := s.setInstance i fun ws => { ws with reqId := ws.reqId + 1 }
    { s with
      callbackTable :=
        if callback then Function.update s.callbackTable r.id (some r) else s.callbackTable
      sent := s.sent + 1
      pending := if received then insert r s.pending else s.pending }

def onMessage (s : WsScreen) (r : WsRequest) : WsScreen :=
  let s := { s with pending := s.pending.erase r }
  match s.callbackTable r.id with
  | some entry =>
    { s with
      callbackTable := Function.update s.callbackTable r.id none
      invoked := s.invoked ++ [(entry, r)] }
  | none => s

def next (s : WsScreen) : WsEvent → Option WsScreen
  | .connectPrinter => some s.connectPrinter
  | .connect i => if i < s.count then some (s.connect i) else none
  | .onOpen i =>
    if i < s.count ∧ 0 < (s.instances i).sockets then
      some (s.setInstance i fun ws => { ws with connected := true })
    else none
  | .onClose i socket =>
    if i < s.count ∧ socket ≤ (s.instances i).sockets then some (s.onClose i socket) else none
  | .sendMethod i callback received =>
    if i < s.count then some (s.sendMethod i callback received) else none
  | .onMessage r => if r ∈ s.pending then some (s.onMessage r) else none

def system : System WsScreen WsEvent where
  init s := s = {}
  next := next

/-- A request with a callback is sent while no request of its number can still be answered,
one without while no callback is filed under its number. -/
def Careful (s : WsScreen) : WsEvent → Prop
  | .sendMethod i true _ => ∀ r ∈ s.pending, r.id ≠ (s.request i true).id
  | .sendMethod i false _ => s.callbackTable (s.request i false).id = none
  | _ => True

/-- The callbacks called so far were each called once and with the response to their own
request, and no other response called one. -/
structure Delivered (s : WsScreen) : Prop where
  own : ∀ p ∈ s.invoked, p.1 = p.2
  once : (s.invoked.map Prod.fst).Nodup
  called : ∀ p ∈ s.invoked, p.2.callback = true

/-- A request that can still be answered has its own callback filed, or none. -/
structure Inv (s : WsScreen) : Prop extends Delivered s where
  filed : ∀ r ∈ s.pending, s.callbackTable r.id = if r.callback then some r else none
  pending_lt : ∀ r ∈ s.pending, r.index < s.sent
  invoked_lt : ∀ p ∈ s.invoked, p.1.index < s.sent
  answered : ∀ p ∈ s.invoked, p.2 ∉ s.pending

/-! ## Steps -/

variable {s : WsScreen}

/-- Steps that file and call nothing, and after which no more can be answered. -/
theorem Inv.congr {t : WsScreen} (hs : Inv s) (h1 : t.callbackTable = s.callbackTable)
    (h2 : t.sent = s.sent) (h3 : t.pending ⊆ s.pending) (h4 : t.invoked = s.invoked) : Inv t where
  own := h4 ▸ hs.own
  once := h4 ▸ hs.once
  called := h4 ▸ hs.called
  filed r hr := h1 ▸ hs.filed r (h3 hr)
  pending_lt r hr := h2 ▸ hs.pending_lt r (h3 hr)
  invoked_lt := h2 ▸ h4 ▸ hs.invoked_lt
  answered p hp hr := hs.answered p (h4 ▸ hp) (h3 hr)

theorem Inv.connectPrinter (hs : Inv s) : Inv s.connectPrinter := by
  rw [WsScreen.connectPrinter]
  split <;> exact hs.congr rfl rfl subset_rfl rfl

theorem Inv.connect (hs : Inv s) (i : ℕ) : Inv (s.connect i) := by
  rw [WsScreen.connect]
  split
  · exact hs
  · exact hs.congr rfl rfl subset_rfl rfl

theorem Inv.onClose (hs : Inv s) (i socket : ℕ) : Inv (s.onClose i socket) := by
  rw [WsScreen.onClose]
  dsimp only
  split_ifs <;> exact hs.congr rfl rfl (Finset.filter_subset _ _) rfl

theorem Inv.sendMethod (hs : Inv s) {i : ℕ} {callback received : Bool}
    (hc : Careful s (.sendMethod i callback received)) :
    Inv (s.sendMethod i callback received) := by
  rw [WsScreen.sendMethod]
  split
  · exact hs
  set r := s.request i callback with hr
  have hindex : r.index = s.sent := rfl
  have hcallback : r.callback = callback := rfl
  have hmem : ∀ q, q ∈ (if received then insert r s.pending else s.pending) →
      q = r ∨ q ∈ s.pending := by
    intro q hq
    split at hq
    · exact Finset.mem_insert.mp hq
    · exact .inr hq
  have hfiled : ∀ q ∈ s.pending, q.id = r.id → callback = false := by
    intro q hq he
    cases callback with
    | false => rfl
    | true => exact absurd he (hc q hq)
  refine ⟨⟨hs.own, hs.once, hs.called⟩, ?_, ?_, ?_, ?_⟩
  · intro q hq
    show (if callback then Function.update s.callbackTable r.id (some r) else s.callbackTable)
      q.id = _
    cases callback with
    | true =>
      rcases hmem q hq with rfl | hq
      · rw [if_pos rfl, Function.update_self, hcallback, if_pos rfl]
      · rw [if_pos rfl, Function.update_of_ne (hc q hq), hs.filed q hq]
    | false =>
      rcases hmem q hq with rfl | hq
      · rw [if_neg Bool.false_ne_true, hcallback, if_neg Bool.false_ne_true]
        exact hc
      · rw [if_neg Bool.false_ne_true, hs.filed q hq]
  · intro q hq
    show q.index < s.sent + 1
    rcases hmem q hq with rfl | hq
    · omega
    · have := hs.pending_lt q hq
      omega
  · exact fun p hp => (hs.invoked_lt p hp).trans (Nat.lt_succ_self _)
  · intro p hp hq
    rcases hmem _ hq with he | hq
    · have := hs.invoked_lt p hp
      rw [hs.own p hp, he] at this
      omega
    · exact hs.answered p hp hq

theorem Inv.onMessage (hs : Inv s) {r : WsRequest} (hr : r ∈ s.pending) :
    Inv (s.onMessage r) := by
  have hfiled := hs.filed r hr
  rw [WsScreen.onMessage]
  cases hc : r.callback with
  | false =>
    rw [hc, if_neg Bool.false_ne_true] at hfiled
    simp only [hfiled]
    exact hs.congr rfl rfl (Finset.erase_subset _ _) rfl
  | true =>
    rw [hc, if_pos rfl] at hfiled
    simp only [hfiled]
    -- No other request of this number can be answered : its callback would be filed instead.
    have hne : ∀ q ∈ s.pending, q ≠ r → q.id ≠ r.id := by
      intro q hq hqr he
      have := hs.filed q hq
      rw [he, hfiled] at this
      split at this
      · exact hqr (Option.some.inj this).symm
      · cases this
    refine ⟨⟨?_, ?_, ?_⟩, ?_, ?_, ?_, ?_⟩
    · intro p hp
      rcases List.mem_append.mp hp with hp | hp
      · exact hs.own p hp
      · rw [List.mem_singleton.mp hp]
    · show ((s.invoked ++ [(r, r)]).map Prod.fst).Nodup
      rw [List.map_append, List.nodup_append]
      refine ⟨hs.once, by simp, ?_⟩
      rintro _ hp _ hq rfl
      obtain ⟨p, hp, he⟩ := List.mem_map.mp hp
      refine hs.answered p hp ?_
      rw [← hs.own p hp, he, List.mem_singleton.mp hq]
      exact hr
    · intro p hp
      rcases List.mem_append.mp hp with hp | hp
      · exact hs.called p hp
      · rw [List.mem_singleton.mp hp, hc]
    · intro q hq
      obtain ⟨hqr, hq⟩ := Finset.mem_erase.mp hq
      show Function.update s.callbackTable r.id none q.id = _
      rw [Function.update_of_ne (hne q hq hqr), hs.filed q hq]
    · exact fun q hq => hs.pending_lt q (Finset.mem_of_mem_erase hq)
    · intro p hp
      rcases List.mem_append.mp hp with hp | hp
      · exact hs.invoked_lt p hp
      · rw [List.mem_singleton.mp hp]
        exact hs.pending_lt r hr
    · intro p hp hq
      rcases List.mem_append.mp hp with hp | hp
      · exact hs.answered p hp (Finset.mem_of_mem_erase hq)
      · rw [List.mem_singleton.mp hp] at hq
        exact Finset.notMem_erase r _ hq

theorem Inv.next (hs : Inv s) {a : WsEvent} {t : WsScreen} (hc : Careful s a)
    (h : s.next a = some t) : Inv t := by
  cases a with
  | connectPrinter =>
    cases h
    exact hs.connectPrinter
  | connect i =>
    rw [WsScreen.next, Option.ite_none_right_eq_some] at h
    obtain ⟨-, ⟨⟩⟩ := h
    exact hs.connect i
  | onOpen i =>
    rw [WsScreen.next, Option.ite_none_right_eq_some] at h
    obtain ⟨-, ⟨⟩⟩ := h
    exact hs.congr rfl rfl subset_rfl rfl
  | onClose i socket =>
    rw [WsScreen.next, Option.ite_none_right_eq_some] at h
    obtain ⟨-, ⟨⟩⟩ := h
    exact hs.onClose i socket
  | sendMethod i callback received =>
    rw [WsScreen.next, Option.ite_none_right_eq_some] at h
    obtain ⟨-, ⟨⟩⟩ := h
    exact hs.sendMethod hc
  | onMessage r =>
    rw [WsScreen.next, Option.ite_none_right_eq_some] at h
    obtain ⟨hr, ⟨⟩⟩ := h
    exact hs.onMessage hr

theorem inv_init : Inv {} := by
  refine ⟨⟨?_, ?_, ?_⟩, ?_, ?_, ?_, ?_⟩ <;> simp

theorem inv_of_reachable (h : system.ReachableBy Careful s) : Inv s :=
  h.invariant (I := Inv) (by rintro _ rfl; exact inv_init) fun _ _ _ hs hc hn => hs.next hc hn

/-- In runs that are careful with their numbers every response reaches its own request. -/
theorem responses_reach_requests (h : system.ReachableBy Careful s) : Delivered s :=
  (inv_of_reachable h).toDelivered

/-! ## Two runs -/

instance (s : WsScreen) (a : WsEvent) : Decidable (Careful s a) := by
  unfold Careful
  split <;> infer_instance

/-- The screen after a run. -/
def afterRun (events : List WsEvent) : WsScreen :=
  (system.run {} events).getD {}

theorem run_afterRun {events : List WsEvent} (h : (system.run {} events).isSome = true) :
    system.run {} events = some (afterRun events) := by
  obtain ⟨s, hs⟩ := Option.isSome_iff_exists.1 h
  rw [afterRun, hs, Option.getD_some]

/-- The first requests of two instances. -/
def listRequest : WsRequest := ⟨0, 0, 1, 1, true⟩
def infoRequest : WsRequest := ⟨1, 1, 1, 1, false⟩

/-- The printer is switched when all is answered. -/
def switchedIdle : List WsEvent :=
  [.connectPrinter, .connect 0, .onOpen 0, .sendMethod 0 true true, .onMessage listRequest,
    .connectPrinter, .onClose 0 1, .connect 1, .onOpen 1, .sendMethod 1 false true,
    .onMessage infoRequest]

theorem responses_reach_requests_switchedIdle : Delivered (afterRun switchedIdle) :=
  responses_reach_requests (System.ReachableBy.run (.init rfl) (by decide +kernel)
    (run_afterRun (by decide +kernel)))

/-- The printer is switched with a request unanswered, and the new instance sends its first
request without a callback. -/
def switchedBusy : List WsEvent :=
  [.connectPrinter, .connect 0, .onOpen 0, .sendMethod 0 true true, .connectPrinter,
    .onClose 0 1, .connect 1, .onOpen 1, .sendMethod 1 false true, .onMessage infoRequest]

/-- The response to the request of the new instance calls the callback of the old one. -/
theorem callback_of_other_printer :
    system.Reachable (afterRun switchedBusy) ∧
      (afterRun switchedBusy).invoked = [(listRequest, infoRequest)] ∧
      ¬Delivered (afterRun switchedBusy) := by
  have hi : (afterRun switchedBusy).invoked = [(listRequest, infoRequest)] := by decide +kernel
  refine ⟨System.Reachable.run (.init rfl) (run_afterRun (by decide +kernel)), hi, fun hd => ?_⟩
  exact absurd (hd.own (listRequest, infoRequest) (by rw [hi]; simp)) (by decide)

/-! ## One instance alone -/

/-- No printer is connected after the first one. -/
def Alone (s : WsScreen) : WsEvent → Prop
  | .connectPrinter => s.count = 0
  | _ => True

/-- The one instance has numbered what is filed and what can still be answered. -/
structure Single (s : WsScreen) : Prop where
  count_le : s.count ≤ 1
  filed_le : ∀ n, (s.instances 0).reqId < n → s.callbackTable n = none
  pending_le : ∀ r ∈ s.pending, r.id ≤ (s.instances 0).reqId
  filed_empty : s.count = 0 → (∀ n, s.callbackTable n = none) ∧ s.pending = ∅

/-- Steps that only change what is said about sockets. -/
theorem Single.congr {t : WsScreen} (hs : Single s) (h1 : t.callbackTable = s.callbackTable)
    (h2 : (t.instances 0).reqId = (s.instances 0).reqId) (h3 : t.pending ⊆ s.pending)
    (h4 : t.count = s.count) : Single t where
  count_le := h4 ▸ hs.count_le
  filed_le n hn := h1 ▸ hs.filed_le n (h2 ▸ hn)
  pending_le r hr := h2 ▸ hs.pending_le r (h3 hr)
  filed_empty h0 := by
    obtain ⟨h5, h6⟩ := hs.filed_empty (h4 ▸ h0)
    exact ⟨h1 ▸ h5, Finset.subset_empty.mp (h6 ▸ h3)⟩

theorem instances_setInstance (s : WsScreen) (i j : ℕ) (f : KlippyWebsocket → KlippyWebsocket) :
    (s.setInstance i f).instances j = if j = i then f (s.instances i) else s.instances j :=
  Function.update_apply ..

theorem reqId_setInstance (s : WsScreen) (i : ℕ) {f : KlippyWebsocket → KlippyWebsocket}
    (hf : ∀ ws, (f ws).reqId = ws.reqId) (j : ℕ) :
    ((s.setInstance i f).instances j).reqId = (s.instances j).reqId := by
  rw [instances_setInstance]
  split
  · next h => rw [hf, h]
  · rfl

theorem Single.sendMethod (hs : Single s) {i : ℕ} (hi : i < s.count) (callback received : Bool) :
    Single (s.sendMethod i callback received) := by
  obtain rfl : i = 0 := by have := hs.count_le; omega
  rw [WsScreen.sendMethod]
  split
  · exact hs
  have hreq : (((s.setInstance 0 fun ws => { ws with reqId := ws.reqId + 1 })).instances 0).reqId =
      (s.instances 0).reqId + 1 := by
    rw [instances_setInstance, if_pos rfl]
  refine ⟨hs.count_le, ?_, ?_, fun h0 => absurd (show s.count = 0 from h0) (by omega)⟩
  · intro n hn
    replace hn : (s.instances 0).reqId + 1 < n := hreq ▸ hn
    have hn' := hs.filed_le n (by omega)
    show (if callback then Function.update s.callbackTable _ _ else s.callbackTable) n = none
    split
    · rw [Function.update_of_ne (by show n ≠ (s.instances 0).reqId + 1; omega), hn']
    · exact hn'
  · intro r hr
    show r.id ≤ _
    rw [hreq]
    have hr' : r = s.request 0 callback ∨ r ∈ s.pending := by
      change r ∈ (if received then insert (s.request 0 callback) s.pending else s.pending) at hr
      split at hr
      · exact Finset.mem_insert.mp hr
      · exact .inr hr
    rcases hr' with rfl | hr'
    · exact le_rfl
    · have := hs.pending_le r hr'
      omega

theorem Single.onMessage (hs : Single s) (r : WsRequest) : Single (s.onMessage r) := by
  have hsub := Finset.erase_subset r s.pending
  rw [WsScreen.onMessage]
  dsimp only
  split
  · refine ⟨hs.count_le, ?_, fun q hq => hs.pending_le q (hsub hq), ?_⟩
    · intro n hn
      by_cases h : n = r.id
      · subst h
        exact Function.update_self ..
      · exact (Function.update_of_ne h ..).trans (hs.filed_le n hn)
    · intro h0
      have := (hs.filed_empty h0).1 r.id
      simp_all
  · exact hs.congr rfl rfl hsub rfl

theorem Single.next (hs : Single s) {a : WsEvent} {t : WsScreen} (ha : Alone s a)
    (h : s.next a = some t) : Single t := by
  cases a with
  | connectPrinter =>
    cases h
    have h0 : s.count = 0 := ha
    obtain ⟨h1, h2⟩ := hs.filed_empty h0
    rw [WsScreen.connectPrinter, if_neg (by omega)]
    exact ⟨by show s.count + 1 ≤ 1; omega, fun n _ => h1 n, by simp [h2], fun h => by cases h⟩
  | connect i =>
    rw [WsScreen.next, Option.ite_none_right_eq_some] at h
    obtain ⟨-, ⟨⟩⟩ := h
    rw [WsScreen.connect]
    split
    · exact hs
    · exact hs.congr rfl (reqId_setInstance s i (by intro; rfl) 0) subset_rfl rfl
  | onOpen i =>
    rw [WsScreen.next, Option.ite_none_right_eq_some] at h
    obtain ⟨-, ⟨⟩⟩ := h
    exact hs.congr rfl (reqId_setInstance s i (by intro; rfl) 0) subset_rfl rfl
  | onClose i socket =>
    rw [WsScreen.next, Option.ite_none_right_eq_some] at h
    obtain ⟨-, ⟨⟩⟩ := h
    rw [WsScreen.onClose]
    dsimp only
    split_ifs
    · exact hs.congr rfl (reqId_setInstance _ i (by intro; rfl) 0) (Finset.filter_subset _ _) rfl
    · exact hs.congr rfl (reqId_setInstance _ i (by intro; rfl) 0) (Finset.filter_subset _ _) rfl
    · exact hs.congr rfl rfl (Finset.filter_subset _ _) rfl
  | sendMethod i callback received =>
    rw [WsScreen.next, Option.ite_none_right_eq_some] at h
    obtain ⟨hi, ⟨⟩⟩ := h
    exact hs.sendMethod hi callback received
  | onMessage r =>
    rw [WsScreen.next, Option.ite_none_right_eq_some] at h
    obtain ⟨-, ⟨⟩⟩ := h
    exact hs.onMessage r

/-- The numbers of one instance are new in the table, however often it reconnects. -/
theorem careful_of_alone (h : system.ReachableBy Alone s) :
    Single s ∧ system.ReachableBy Careful s := by
  induction h with
  | init h =>
    obtain rfl := h
    exact ⟨⟨by decide, fun _ _ => rfl, by simp, fun _ => ⟨fun _ => rfl, rfl⟩⟩, .init rfl⟩
  | @step s t a _ ha hn ih =>
    obtain ⟨hs, hr⟩ := ih
    refine ⟨hs.next ha hn, hr.step ?_ hn⟩
    cases a with
    | sendMethod i callback received =>
      have hi : i < s.count := by
        by_contra hi
        simp [system, WsScreen.next, hi] at hn
      obtain rfl : i = 0 := by have := hs.count_le; omega
      cases callback with
      | true =>
        intro r hr
        have := hs.pending_le r hr
        show r.id ≠ (s.instances 0).reqId + 1
        omega
      | false => exact hs.filed_le _ (Nat.lt_succ_self _)
    | _ => trivial

/-- So the responses to it reach their own requests. -/
theorem delivered_of_alone (h : system.ReachableBy Alone s) : Delivered s :=
  (inv_of_reachable (careful_of_alone h).2).toDelivered

instance (s : WsScreen) (a : WsEvent) : Decidable (Alone s a) := by
  unfold Alone
  split <;> infer_instance

/-- Its connection is lost with a request unanswered, and it sends another one after it. -/
theorem delivered_of_alone_lost : ∃ s, Delivered s ∧ s.invoked.length = 1 :=
  ⟨afterRun [.connectPrinter, .connect 0, .onOpen 0, .sendMethod 0 true true, .onClose 0 1,
    .connect 0, .onOpen 0, .sendMethod 0 true true, .onMessage ⟨1, 0, 2, 2, true⟩],
    delivered_of_alone (System.ReachableBy.run (.init rfl) (by decide +kernel)
      (run_afterRun (by decide +kernel))), by decide +kernel⟩

end WsScreen

end Thinker
