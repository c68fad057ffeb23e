import Mathlib
import Thinker.Numerals
import Thinker.Transition
import Thinker.TwoLeast

/-!
# Dispatching trigger sync messages

`trdispatch.c` : while an axis is homed, the host forwards what each micro-controller reports
(`trsync_state`) to the others. A report that there is no trigger yet extends their timeouts
(`trsync_set_timeout`) : each may go on until some ticks after the oldest report of the others.
Any other report stops all of them (`trsync_trigger`).

`serialqueue_get_clock_est` returns any clock estimate, so the estimate is part of the event.
Times are exact.
-/

set_option linter.unusedSectionVars false

namespace Thinker

variable {n : ℕ} {K : Type*} [Field K] [LinearOrder K] [IsStrictOrderedRing K] [FloorRing K]

/-! ## Clock estimates -/

/-- `struct clock_estimate`. -/
structure ClockEstimate (K : Type*) [Field K] [LinearOrder K] where
  lastClock : BitVec 64
  convClock : BitVec 64
  convTime : K
  estFreq : K
  estFreq_pos : 0 < estFreq

/-- The integer that C converts a floating point number to. -/
def truncate (x : K) : ℤ :=
  if 0 ≤ x then ⌊x⌋ else ⌈x⌉

namespace ClockEstimate

/-- `clock_from_clock32`. -/
def clockFromClock32 (ce : ClockEstimate K) (clock32 : BitVec 32) : BitVec 64 :=
  ce.lastClock + ((clock32.setWidth 64 - ce.lastClock).setWidth 32).signExtend 64

/-- `clock_to_time`. -/
def clockToTime (ce : ClockEstimate K) (clock : BitVec 64) : K :=
  ce.convTime + ((clock - ce.convClock).toInt : K) / ce.estFreq

/-- `clock_from_time`. -/
def clockFromTime (ce : ClockEstimate K) (time : K) : BitVec 64 :=
  BitVec.ofInt 64 (truncate ((time - ce.convTime) * ce.estFreq + 1 / 2)) + ce.convClock

end ClockEstimate

/-- `PR_NEVER`. -/
def prNever : K := 9999999999999999

/-! ## Reports -/

/-- `struct trdispatch_mcu`. -/
structure TrdispatchMcu (K : Type*) [Field K] [LinearOrder K] where
  trsyncOid : BitVec 32
  lastStatusClock : BitVec 64
  expireClock : BitVec 64
  expireTicks : BitVec 64
  minExtendTicks : BitVec 64
  ce : ClockEstimate K

/-- A command for a micro-controller. A timeout is queued with the full clock. -/
inductive TrsyncCommand (n : ℕ) where
  | trigger (mcu : Fin n) (oid reason : BitVec 32)
  | setTimeout (mcu : Fin n) (oid clock : BitVec 32) (reqClock : BitVec 64)
  deriving DecidableEq

/-- `struct trdispatch`, with the commands that were sent. -/
structure Trdispatch (n : ℕ) (K : Type*) [Field K] [LinearOrder K] where
  tdm : Fin n → TrdispatchMcu K
  isActive : Bool
  canTrigger : Bool
  dispatchReason : BitVec 32
  sent : List (TrsyncCommand n)

/-- `trsync_state oid=%c can_trigger=%c trigger_reason=%c clock=%u`. -/
structure TrsyncState where
  oid : BitVec 32
  canTrigger : BitVec 32
  triggerReason : BitVec 32
  clock : BitVec 32

namespace TrdispatchMcu

/-- The time of the last report. -/
def statusTime (tdm : TrdispatchMcu K) : K :=
  tdm.ce.clockToTime tdm.lastStatusClock

/-- The clock until which a micro-controller may go on after a report of this time. -/
def deadline (tdm : TrdispatchMcu K) (time : K) : BitVec 64 :=
  tdm.ce.clockFromTime time + tdm.expireTicks

/-- The new `expire_clock`, if it is to be extended. The signed difference is converted to
unsigned again, since `min_extend_ticks` is. -/
def extension (tdm : TrdispatchMcu K) (time : K) : Option (BitVec 64) :=
  let expire := tdm.deadline time
  if tdm.minExtendTicks ≤ BitVec.ofInt 64 (expire - tdm.expireClock).toInt then some expire
  else none

/-- With the new `expire_clock`. -/
def extended (tdm : TrdispatchMcu K) (time : K) : TrdispatchMcu K :=
  { tdm with expireClock := (tdm.extension time).getD tdm.expireClock }

end TrdispatchMcu

namespace Trdispatch

variable (s : Trdispatch n K)

/-- `trdispatch_start`. -/
def trdispatchStart (dispatchReason : BitVec 32) : Trdispatch n K :=
  if s.isActive ∨ n = 0 then s
  else { s with dispatchReason := dispatchReason, isActive := true, canTrigger := true }

/-- `send_trsync_trigger`. -/
def trsyncTrigger (m : Fin n) : TrsyncCommand n :=
  .trigger m (s.tdm m).trsyncOid s.dispatchReason

/-- `send_trsync_set_timeout`. -/
def trsyncSetTimeout (m : Fin n) : TrsyncCommand n :=
  .setTimeout m (s.tdm m).trsyncOid ((s.tdm m).expireClock.setWidth 32) (s.tdm m).expireClock

/-- Update `last_status_clock`. -/
def noteStatus (i : Fin n) (clock : BitVec 32) (ce : ClockEstimate K) : Trdispatch n K :=
  let tdm : TrdispatchMcu K := { s.tdm i with ce := ce, lastStatusClock := ce.clockFromClock32 clock }
  { s with tdm := Function.update s.tdm i tdm }

/-- Extend the timeout of one micro-controller, if needed. -/
def extend (times : TwoLeast (Fin n) K) (s : Trdispatch n K) (m : Fin n) : Trdispatch n K :=
  match (s.tdm m).extension (times.except m) with
  | none => s
  | some expire =>
    let tdm : TrdispatchMcu K := { s.tdm m with expireClock := expire }
    let s := { s with tdm := Function.update s.tdm m tdm }
    { s with sent := s.sent ++ [s.trsyncSetTimeout m] }

/-- The minimum acknowledged times. -/
def times : TwoLeast (Fin n) K :=
  twoLeast prNever (fun m => (s.tdm m).statusTime) (List.finRange n)

/-- `handle_trsync_state`. `none` is a message that cannot be decoded. -/
def handleTrsyncState (i : Fin n) (message : Option TrsyncState) (ce : ClockEstimate K) :
    Trdispatch n K :=
  match message with
  | none => s
  | some msg =>
    if msg.oid ≠ (s.tdm i).trsyncOid then s
    else if s.canTrigger = false then s
    else if msg.canTrigger = 0 then
      { s with canTrigger := false, sent := s.sent ++ (List.finRange n).map s.trsyncTrigger }
    else
      let s := s.noteStatus i msg.clock ce
      (List.finRange n).foldl (extend s.times) s

end Trdispatch

/-- A message from a micro-controller, and the estimate of its clock. -/
structure TrsyncReport (n : ℕ) (K : Type*) [Field K] [LinearOrder K] where
  mcu : Fin n
  message : Option TrsyncState
  ce : ClockEstimate K

/-- A homing operation : messages after `trdispatch_start`. -/
def homing (s₀ : Trdispatch n K) (dispatchReason : BitVec 32) :
    System (Trdispatch n K) (TrsyncReport n K) where
  init s := s₀.isActive = false ∧ s₀.sent = [] ∧ s = s₀.trdispatchStart dispatchReason
  next s r := some (s.handleTrsyncState r.mcu r.message r.ce)

namespace Trdispatch

/-! ## What a report does -/

/-- The times of the last reports of the others. A single micro-controller is among them. -/
def otherTimes (s : Trdispatch n K) (m : Fin n) : List K :=
  ((List.finRange n).filter fun j => decide (j ≠ m ∨ n = 1)).map fun j => (s.tdm j).statusTime

variable {s : Trdispatch n K} {m : Fin n}

theorem finRange_eq_singleton : List.finRange n = [m] ↔ n = 1 := by
  constructor
  · intro h
    simpa using congrArg List.length h
  · rintro rfl
    rw [Subsingleton.elim m 0]
    rfl

/-- For each micro-controller, the smallest time of the others is taken. -/
theorem min?_otherTimes (h : ∀ j, (s.tdm j).statusTime < prNever) (m : Fin n) :
    (s.otherTimes m).min? = some (s.times.except m) := by
  have := except_twoLeast (List.nodup_finRange n) (fun j _ => h j) (List.mem_finRange m)
  simp only [finRange_eq_singleton] at this
  exact this

/-- The timeout is sent if it is extended. -/
def timeoutCommand (times : TwoLeast (Fin n) K) (s : Trdispatch n K) (m : Fin n) :
    Option (TrsyncCommand n) :=
  ((s.tdm m).extension (times.except m)).map fun expire =>
    .setTimeout m (s.tdm m).trsyncOid (expire.setWidth 32) expire

variable (times : TwoLeast (Fin n) K)

theorem extend_tdm (i : Fin n) : (extend times s i).tdm m =
    if m = i then (s.tdm i).extended (times.except i) else s.tdm m := by
  unfold extend TrdispatchMcu.extended
  cases hext : (s.tdm i).extension (times.except i) with
  | none =>
    split_ifs with hm
    · rw [hm]
      rfl
    · rfl
  | some expire => exact Function.update_apply _ _ _ _

theorem extend_sent (i : Fin n) :
    (extend times s i).sent = s.sent ++ (timeoutCommand times s i).toList := by
  unfold extend timeoutCommand
  cases hext : (s.tdm i).extension (times.except i) with
  | none => exact (List.append_nil _).symm
  | some expire => simp [trsyncSetTimeout]

@[simp] theorem extend_canTrigger (i : Fin n) : (extend times s i).canTrigger = s.canTrigger := by
  unfold extend
  cases (s.tdm i).extension (times.except i) <;> rfl

@[simp] theorem extend_dispatchReason (i : Fin n) :
    (extend times s i).dispatchReason = s.dispatchReason := by
  unfold extend
  cases (s.tdm i).extension (times.except i) <;> rfl

/-- The loop over the micro-controllers extends each of them. -/
theorem foldl_extend {l : List (Fin n)} (hl : l.Nodup) :
    (∀ m, (l.foldl (extend times) s).tdm m =
      if m ∈ l then (s.tdm m).extended (times.except m) else s.tdm m) ∧
    (l.foldl (extend times) s).sent = s.sent ++ l.filterMap (timeoutCommand times s) ∧
    (l.foldl (extend times) s).canTrigger = s.canTrigger ∧
    (l.foldl (extend times) s).dispatchReason = s.dispatchReason := by
  induction l generalizing s with
  | nil => simp
  | cons i l ih =>
    obtain ⟨hi, hl⟩ := List.nodup_cons.1 hl
    obtain ⟨htdm, hsent, htrigger, hreason⟩ := ih (s := extend times s i) hl
    rw [List.foldl_cons]
    refine ⟨fun m => ?_, ?_, htrigger.trans (extend_canTrigger _ _),
      hreason.trans (extend_dispatchReason _ _)⟩
    · rw [htdm, extend_tdm]
      by_cases hm : m = i
      · subst hm
        simp [hi]
      · simp [hm]
    · have hcongr : l.filterMap (timeoutCommand times (extend times s i)) =
          l.filterMap (timeoutCommand times s) := by
        refine List.filterMap_congr fun m hm => ?_
        have hne : m ≠ i := by
          rintro rfl
          exact hi hm
        unfold timeoutCommand
        rw [extend_tdm, if_neg hne]
      rw [hsent, extend_sent, hcongr, List.filterMap_cons, List.append_assoc]
      cases timeoutCommand times s i <;> rfl

/-- The clocks of the timeouts that a micro-controller was sent. -/
def timeouts (s : Trdispatch n K) (m : Fin n) : List (BitVec 64) :=
  s.sent.filterMap fun
    | .trigger _ _ _ => none
    | .setTimeout i _ _ reqClock => if i = m then some reqClock else none

theorem filterMap_eq_toList {α β : Type*} {l : List α} (hl : l.Nodup) {a : α} (ha : a ∈ l)
    {g : α → Option β} (hg : ∀ b, b ≠ a → g b = none) : l.filterMap g = (g a).toList := by
  induction l with
  | nil => cases ha
  | cons b l ih =>
    obtain ⟨hb, hl⟩ := List.nodup_cons.1 hl
    rcases List.mem_cons.1 ha with rfl | ha
    · have hrest : l.filterMap g = [] :=
        List.filterMap_eq_nil_iff.2 fun c hc => hg c fun h => hb (h ▸ hc)
      rw [List.filterMap_cons, hrest]
      cases g a <;> rfl
    · have hne : b ≠ a := fun h => hb (h ▸ ha)
      rw [List.filterMap_cons, hg b hne]
      exact ih hl ha

/-- What a message can do : nothing, stop all, or extend the timeouts. -/
theorem handleTrsyncState_cases (s : Trdispatch n K) (i : Fin n) (message : Option TrsyncState)
    (ce : ClockEstimate K) :
    (s.handleTrsyncState i message ce = s ∧ ∀ msg, message = some msg →
      msg.oid = (s.tdm i).trsyncOid → s.canTrigger = false) ∨
    (s.canTrigger = true ∧ s.handleTrsyncState i message ce =
      { s with canTrigger := false, sent := s.sent ++ (List.finRange n).map s.trsyncTrigger }) ∨
    ∃ msg, message = some msg ∧ msg.oid = (s.tdm i).trsyncOid ∧ s.canTrigger = true ∧
      msg.canTrigger ≠ 0 ∧ s.handleTrsyncState i message ce =
        (List.finRange n).foldl (extend (s.noteStatus i msg.clock ce).times)
          (s.noteStatus i msg.clock ce) := by
  cases message with
  | none => exact Or.inl ⟨rfl, fun msg h => by cases h⟩
  | some msg =>
    unfold handleTrsyncState
    dsimp only
    split_ifs with hoid hcan htrigger
    · refine Or.inl ⟨rfl, fun msg' h' heq => ?_⟩
      obtain rfl := Option.some_inj.1 h'
      exact absurd heq hoid
    · exact Or.inl ⟨rfl, fun _ _ _ => hcan⟩
    · exact Or.inr (Or.inl ⟨by simpa using hcan, rfl⟩)
    · exact Or.inr (Or.inr ⟨msg, rfl, not_not.1 hoid, by simpa using hcan, htrigger, rfl⟩)

/-- A report does not change what the timeouts are computed with. -/
theorem noteStatus_tdm (i : Fin n) (clock : BitVec 32) (ce : ClockEstimate K) :
    ((s.noteStatus i clock ce).tdm m).trsyncOid = (s.tdm m).trsyncOid ∧
    ((s.noteStatus i clock ce).tdm m).expireClock = (s.tdm m).expireClock ∧
    ((s.noteStatus i clock ce).tdm m).expireTicks = (s.tdm m).expireTicks ∧
    ((s.noteStatus i clock ce).tdm m).minExtendTicks = (s.tdm m).minExtendTicks := by
  unfold noteStatus
  by_cases hm : m = i
  · subst hm
    simp
  · simp [Function.update_of_ne hm]

/-- Stopping all micro-controllers sends no timeout. -/
theorem timeouts_stop (m : Fin n) : ({ s with
    canTrigger := false
    sent := s.sent ++ (List.finRange n).map s.trsyncTrigger } : Trdispatch n K).timeouts m =
    s.timeouts m := by
  unfold timeouts
  rw [List.filterMap_append, List.filterMap_map]
  refine (congrArg _ (List.filterMap_eq_nil_iff.2 fun j _ => ?_)).trans (List.append_nil _)
  rfl

/-- What is sent to one micro-controller when the timeouts are extended. -/
theorem timeouts_foldl_extend (m : Fin n) :
    ((List.finRange n).foldl (extend times) s).timeouts m =
      s.timeouts m ++ ((s.tdm m).extension (times.except m)).toList := by
  have hsent := (foldl_extend (s := s) times (List.nodup_finRange n)).2.1
  unfold timeouts
  rw [hsent, List.filterMap_append, List.filterMap_filterMap,
    filterMap_eq_toList (List.nodup_finRange n) (List.mem_finRange m)]
  · unfold timeoutCommand
    cases (s.tdm m).extension (times.except m) <;> simp
  · intro j hj
    unfold timeoutCommand
    cases (s.tdm j).extension (times.except j) <;> simp [hj]

/-- A new timeout lies behind the oldest report of the others. -/
theorem deadline_of_timeouts_ne (hlt : ∀ j, (s.tdm j).statusTime < prNever)
    (hne : ((List.finRange n).foldl (extend s.times) s).timeouts m ≠ s.timeouts m) :
    ∃ time, (((List.finRange n).foldl (extend s.times) s).otherTimes m).min? = some time ∧
      (((List.finRange n).foldl (extend s.times) s).tdm m).expireClock =
        (((List.finRange n).foldl (extend s.times) s).tdm m).deadline time := by
  have htdm := (foldl_extend (s := s) s.times (List.nodup_finRange n)).1
  simp only [List.mem_finRange, if_true] at htdm
  refine ⟨s.times.except m, ?_, ?_⟩
  · rw [← min?_otherTimes hlt m]
    unfold otherTimes
    simp only [htdm]
    rfl
  · rw [timeouts_foldl_extend] at hne
    rw [htdm]
    show ((s.tdm m).extension _).getD _ = (s.tdm m).deadline _
    cases hext : (s.tdm m).extension (s.times.except m) with
    | none => exact absurd (by rw [hext]; exact List.append_nil _) hne
    | some expire =>
      obtain ⟨-, heq⟩ := Option.ite_none_right_eq_some.1 hext
      exact (Option.some_inj.1 heq).symm

/-! ## A homing operation -/

/-- A clock is ahead of another by at least these ticks. -/
def Forward (ticks a b : BitVec 64) : Prop :=
  (ticks.toNat : ℤ) ≤ (b - a).toInt

instance (ticks a b : BitVec 64) : Decidable (Forward ticks a b) :=
  inferInstanceAs (Decidable (_ ≤ _))

/-- The deadline of a report of this time is not behind the timeout (or, read as an unsigned
number, the distance is too short to be sent). -/
def NotBehind (tdm : TrdispatchMcu K) (time : K) : Prop :=
  0 ≤ (tdm.deadline time - tdm.expireClock).toInt ∨
    tdm.deadline time - tdm.expireClock < tdm.minExtendTicks

instance (tdm : TrdispatchMcu K) (time : K) : Decidable (NotBehind tdm time) :=
  inferInstanceAs (Decidable (_ ∨ _))

/-- After the report all times are below `PR_NEVER`, and no deadline is behind its timeout. -/
def InOrder (s : Trdispatch n K) (r : TrsyncReport n K) : Prop :=
  match r.message with
  | none => True
  | some msg =>
    msg.oid = (s.tdm r.mcu).trsyncOid → s.canTrigger = true → msg.canTrigger ≠ 0 →
      (∀ j, ((s.noteStatus r.mcu msg.clock r.ce).tdm j).statusTime < prNever) ∧
      ∀ m, ∀ time ∈ ((s.noteStatus r.mcu msg.clock r.ce).otherTimes m).min?,
        NotBehind ((s.noteStatus r.mcu msg.clock r.ce).tdm m) time

instance (s : Trdispatch n K) (r : TrsyncReport n K) : Decidable (InOrder s r) := by
  unfold InOrder
  cases r.message <;> infer_instance

/-- What holds while an axis is homed. -/
structure Homing (s₀ : Trdispatch n K) (dispatchReason : BitVec 32) (s : Trdispatch n K) : Prop where
  command : ∀ m, s.trsyncTrigger m = .trigger m (s₀.tdm m).trsyncOid dispatchReason
  minExtendTicks : ∀ m, (s.tdm m).minExtendTicks = (s₀.tdm m).minExtendTicks
  chain : ∀ m, ((s₀.tdm m).expireClock :: s.timeouts m).IsChain
    (Forward (s₀.tdm m).minExtendTicks)
  last : ∀ m, ((s₀.tdm m).expireClock :: s.timeouts m).getLast? = some (s.tdm m).expireClock
  sent : ∃ cs : List (TrsyncCommand n),
    (∀ c ∈ cs, ∃ m oid clock reqClock, c = .setTimeout m oid clock reqClock) ∧
    s.sent = cs ++ if s.canTrigger then []
      else (List.finRange n).map fun m => .trigger m (s₀.tdm m).trsyncOid dispatchReason

/-- An extension is forward by at least `min_extend_ticks`, if the deadline is not behind. -/
theorem forward_of_extension {tdm : TrdispatchMcu K} {time : K} (h : NotBehind tdm time)
    {expire : BitVec 64} (hexp : tdm.extension time = some expire) :
    expire = tdm.deadline time ∧ Forward tdm.minExtendTicks tdm.expireClock expire := by
  unfold TrdispatchMcu.extension at hexp
  obtain ⟨hle, heq⟩ := Option.ite_none_right_eq_some.1 hexp
  obtain rfl := Option.some_inj.1 heq
  refine ⟨rfl, ?_⟩
  rw [BitVec.ofInt_toInt] at hle
  unfold Forward
  rcases h with h | h
  · rw [BitVec.toInt_eq_toNat_cond] at h ⊢
    have hle := BitVec.le_def.1 hle
    split_ifs at h ⊢ <;> omega
  · exact absurd hle (BitVec.not_le.2 h)

variable {s₀ : Trdispatch n K} {dispatchReason : BitVec 32}

theorem homing_init (hactive : s₀.isActive = false) (hsent : s₀.sent = []) :
    Homing s₀ dispatchReason (s₀.trdispatchStart dispatchReason) := by
  unfold trdispatchStart
  split_ifs with hn
  · have hzero : n = 0 := by simpa [hactive] using hn
    subst hzero
    refine ⟨fun m => m.elim0, fun m => m.elim0, fun m => m.elim0, fun m => m.elim0,
      [], by simp, ?_⟩
    rw [hsent]
    simp
  · refine ⟨fun m => rfl, fun m => rfl, fun m => ?_, fun m => ?_, [], by simp, by simpa⟩
    · simp [timeouts, hsent]
    · simp [timeouts, hsent]

/-- The loop keeps it, if no deadline is behind. -/
theorem Homing.foldl_extend (h : Homing s₀ dispatchReason s) (hcan : s.canTrigger = true)
    (htimes : ∀ m, NotBehind (s.tdm m) (s.times.except m)) :
    Homing s₀ dispatchReason ((List.finRange n).foldl (extend s.times) s) := by
  obtain ⟨htdm, hsent, hcan', hreason⟩ :=
    Trdispatch.foldl_extend (s := s) s.times (List.nodup_finRange n)
  simp only [List.mem_finRange, if_true] at htdm
  refine ⟨fun m => ?_, fun m => ?_, fun m => ?_, fun m => ?_, ?_⟩
  · rw [← h.command m]
    unfold trsyncTrigger
    rw [htdm, hreason]
    rfl
  · rw [htdm]
    exact h.minExtendTicks m
  · rw [timeouts_foldl_extend, ← List.cons_append, List.isChain_append]
    refine ⟨h.chain m, ?_, fun a ha b hb => ?_⟩
    · cases (s.tdm m).extension (s.times.except m) <;> simp
    · rw [h.last m] at ha
      obtain rfl := Option.some_inj.1 ha
      cases hext : (s.tdm m).extension (s.times.except m) with
      | none =>
        rw [hext] at hb
        cases hb
      | some expire =>
        rw [hext] at hb
        obtain rfl := Option.some_inj.1 hb
        rw [← h.minExtendTicks m]
        exact (forward_of_extension (htimes m) hext).2
  · rw [timeouts_foldl_extend, ← List.cons_append, htdm]
    unfold TrdispatchMcu.extended
    cases hext : (s.tdm m).extension (s.times.except m) with
    | none =>
      rw [Option.toList_none, List.append_nil]
      exact h.last m
    | some expire => exact List.getLast?_concat
  · obtain ⟨cs, hcs, hsent'⟩ := h.sent
    refine ⟨cs ++ (List.finRange n).filterMap (timeoutCommand s.times s), fun c hc => ?_, ?_⟩
    · rcases List.mem_append.1 hc with hc | hc
      · exact hcs c hc
      · obtain ⟨m, -, hm⟩ := List.mem_filterMap.1 hc
        obtain ⟨expire, -, rfl⟩ := Option.map_eq_some_iff.1 hm
        exact ⟨_, _, _, _, rfl⟩
    · rw [hsent, hcan', hsent', hcan]
      simp

theorem Homing.noteStatus (h : Homing s₀ dispatchReason s) (i : Fin n) (clock : BitVec 32)
    (ce : ClockEstimate K) : Homing s₀ dispatchReason (s.noteStatus i clock ce) := by
  refine ⟨fun m => ?_, fun m => ?_, h.chain, fun m => ?_, h.sent⟩
  · rw [← h.command m]
    unfold trsyncTrigger
    rw [(noteStatus_tdm i clock ce).1]
    rfl
  · rw [(noteStatus_tdm i clock ce).2.2.2]
    exact h.minExtendTicks m
  · rw [(noteStatus_tdm i clock ce).2.1]
    exact h.last m

theorem Homing.handleTrsyncState (h : Homing s₀ dispatchReason s) {r : TrsyncReport n K}
    (hr : InOrder s r) :
    Homing s₀ dispatchReason (s.handleTrsyncState r.mcu r.message r.ce) := by
  obtain ⟨heq, -⟩ | ⟨hcan, heq⟩ | ⟨msg, hmsg, hoid, hcan, htrigger, heq⟩ :=
    handleTrsyncState_cases s r.mcu r.message r.ce
  · rwa [heq]
  · rw [heq]
    refine ⟨h.command, h.minExtendTicks, fun m => ?_, fun m => ?_, ?_⟩
    · rw [timeouts_stop]
      exact h.chain m
    · rw [timeouts_stop]
      exact h.last m
    · obtain ⟨cs, hcs, hsent⟩ := h.sent
      rw [hcan, if_pos rfl, List.append_nil] at hsent
      refine ⟨cs, hcs, ?_⟩
      rw [hsent, List.map_congr_left fun m _ => h.command m]
      rfl
  · unfold InOrder at hr
    rw [hmsg] at hr
    obtain ⟨hlt, htimes⟩ := hr hoid hcan htrigger
    rw [heq]
    refine (h.noteStatus r.mcu msg.clock r.ce).foldl_extend hcan fun m => ?_
    exact htimes m _ (min?_otherTimes hlt m)

/-- In every homing operation in which no deadline falls behind its timeout : the timeouts of
each micro-controller only move forward, by at least `min_extend_ticks` ; a new one lies
`expire_ticks` behind the oldest report of the others ; and once a report says that there was a
trigger, each micro-controller is sent one `trsync_trigger`, and nothing is sent after that. -/
theorem dispatched_of_reachable
    (h : (homing s₀ dispatchReason).ReachableBy InOrder s) :
    (∀ m, ((s₀.tdm m).expireClock :: s.timeouts m).IsChain (Forward (s₀.tdm m).minExtendTicks) ∧
      ((s₀.tdm m).expireClock :: s.timeouts m).getLast? = some (s.tdm m).expireClock) ∧
    (∃ cs : List (TrsyncCommand n),
      (∀ c ∈ cs, ∃ m oid clock reqClock, c = .setTimeout m oid clock reqClock) ∧
      s.sent = cs ++ if s.canTrigger then []
        else (List.finRange n).map fun m => .trigger m (s₀.tdm m).trsyncOid dispatchReason) ∧
    ∀ i msg ce, msg.oid = (s.tdm i).trsyncOid →
      (msg.canTrigger = 0 → (s.handleTrsyncState i (some msg) ce).canTrigger = false) ∧
      (InOrder s ⟨i, some msg, ce⟩ → ∀ m,
        (s.handleTrsyncState i (some msg) ce).timeouts m ≠ s.timeouts m →
        ∃ time, ((s.handleTrsyncState i (some msg) ce).otherTimes m).min? = some time ∧
          ((s.handleTrsyncState i (some msg) ce).tdm m).expireClock =
            ((s.handleTrsyncState i (some msg) ce).tdm m).deadline time) := by
  have hs : Homing s₀ dispatchReason s := by
    refine h.invariant ?_ ?_
    · rintro _ ⟨hactive, hsent, rfl⟩
      exact homing_init hactive hsent
    · rintro s r t hs hr ht
      obtain rfl := Option.some_inj.1 ht
      exact hs.handleTrsyncState hr
  refine ⟨fun m => ⟨hs.chain m, hs.last m⟩, hs.sent, fun i msg ce hoid => ⟨fun htrigger => ?_,
    fun hr m hne => ?_⟩⟩
  · obtain ⟨heq, hcan⟩ | ⟨-, heq⟩ | ⟨msg', hmsg, -, -, hne, -⟩ :=
      handleTrsyncState_cases s i (some msg) ce
    · rw [heq]
      exact hcan msg rfl hoid
    · rw [heq]
    · obtain rfl := Option.some_inj.1 hmsg
      exact absurd htrigger hne
  · obtain ⟨heq, -⟩ | ⟨-, heq⟩ | ⟨msg', hmsg, -, hcan, htrigger, heq⟩ :=
      handleTrsyncState_cases s i (some msg) ce
    · rw [heq] at hne
      exact absurd rfl hne
    · rw [heq] at hne
      exact absurd (timeouts_stop m) hne
    · obtain rfl := Option.some_inj.1 hmsg
      obtain ⟨hlt, -⟩ := hr hoid hcan htrigger
      rw [heq] at hne ⊢
      exact deadline_of_timeouts_ne hlt hne

/-- Two micro-controllers of 1 MHz that start at one second. -/
def twoMcus : Trdispatch 2 ℚ where
  tdm m := {
    trsyncOid := BitVec.ofNat 32 m
    lastStatusClock := 1000000
    expireClock := 1050000
    expireTicks := 50000
    minExtendTicks := 12000
    ce := ⟨1000000, 0, 0, 1000000, by norm_num⟩ }
  isActive := false
  canTrigger := false
  dispatchReason := 0
  sent := []

/-- Both report, and are extended, before the second one is triggered. -/
theorem dispatched_of_reachable_two :
    ∃ s, (homing twoMcus 2).run (twoMcus.trdispatchStart 2)
      [⟨0, some ⟨0, 1, 0, 1015000⟩, ⟨1000000, 0, 0, 1000000, by norm_num⟩⟩,
        ⟨1, some ⟨1, 1, 0, 1022500⟩, ⟨1000000, 0, 0, 1000000, by norm_num⟩⟩,
        ⟨1, some ⟨1, 0, 1, 1030000⟩, ⟨1000000, 0, 0, 1000000, by norm_num⟩⟩] = some s ∧
      s.timeouts 0 = [1072500] ∧ ([1050000] ++ s.timeouts 0).IsChain (Forward 12000) := by
  have hrun : ((homing twoMcus 2).run (twoMcus.trdispatchStart 2)
      [⟨0, some ⟨0, 1, 0, 1015000⟩, ⟨1000000, 0, 0, 1000000, by norm_num⟩⟩,
        ⟨1, some ⟨1, 1, 0, 1022500⟩, ⟨1000000, 0, 0, 1000000, by norm_num⟩⟩,
        ⟨1, some ⟨1, 0, 1, 1030000⟩, ⟨1000000, 0, 0, 1000000, by norm_num⟩⟩]).map
      (fun s => s.timeouts 0) = some [1072500] := by decide +kernel
  obtain ⟨s, hs, htimeouts⟩ := Option.map_eq_some_iff.1 hrun
  have hreach : (homing twoMcus 2).ReachableBy InOrder s :=
    System.ReachableBy.run (.init ⟨rfl, rfl, rfl⟩) (by decide +kernel) hs
  exact ⟨s, hs, htimeouts, ((dispatched_of_reachable hreach).1 0).1⟩

/-- A new estimate of the clock of the second micro-controller sends the timeout of the first
one back. -/
theorem not_forward_estimate :
    ∃ s, (homing twoMcus 2).Reachable s ∧ s.timeouts 0 = [1049910] ∧
      ¬([1050000] ++ s.timeouts 0).IsChain (Forward 12000) ∧
      (s.tdm 0).expireClock < (twoMcus.tdm 0).expireClock := by
  have hrun : ((homing twoMcus 2).run (twoMcus.trdispatchStart 2)
      [⟨1, some ⟨1, 1, 0, 1000010⟩, ⟨1000000, 0, 0, 1000100, by norm_num⟩⟩]).map
      (fun s => (s.timeouts 0, decide ((s.tdm 0).expireClock < 1050000))) =
      some ([1049910], true) := by decide +kernel
  obtain ⟨s, hs, heq⟩ := Option.map_eq_some_iff.1 hrun
  obtain ⟨htimeouts, hlt⟩ := Prod.mk.inj heq
  refine ⟨s, System.Reachable.run (.init ⟨rfl, rfl, rfl⟩) hs, htimeouts, ?_,
    of_decide_eq_true hlt⟩
  rw [htimeouts]
  decide +kernel

end Trdispatch

end Thinker
