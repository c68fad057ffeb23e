import Thinker.Transition
import Mathlib.Algebra.Order.Field.Basic
import Mathlib.Tactic

/-!
# Resending the value of a pin

`PrinterOutputPin` of `output_pin.py` with `maximum_mcu_duration`, in exact arithmetic, and the pin
of the micro-controller in the print time, which shuts down when an update is missing
(`digital_load_event` in `gpiocmds.c`).

Requested values come for print times ahead of the present, but the timer that sends the last value
again looks at the last print time only. A value that is requested for long after the one before
leaves a gap (`PinRun.not_fed_ahead`). In a run without such a request the pin is fed
(`PinRun.fed_of_reachable`).

The timer fires no later than 0.1 s after its waketime.
-/

set_option linter.unusedSectionVars false

namespace Thinker

variable {K : Type} [Field K] [LinearOrder K] [IsStrictOrderedRing K]

/-! ## The pin of the micro-controller -/

/-- A digital pin in the print time : the updates that are queued, and when the next event is to be
loaded. -/
structure McuPin (K : Type) where
  isShutdown : Bool
  mq : List (K × K)
  endTime : Option K
  deriving DecidableEq

namespace McuPin

/-- `digital_load_event` for what is due, with the default value and `max_duration`. -/
def catchUp (default maxDuration now : K) : List (K × K) → Option K → McuPin K
  | mq, none => ⟨false, mq, none⟩
  | mq, some endTime =>
    if now < endTime then ⟨false, mq, some endTime⟩
    else
      match mq with
      | [] => ⟨true, [], none⟩
      | (_, value) :: mq =>
        let maxTime := if value = default then none else some (endTime + maxDuration)
        match mq with
        | [] => catchUp default maxDuration now [] maxTime
        | (wake, next) :: rest =>
          if maxTime.any (· < wake) then ⟨true, [], none⟩
          else catchUp default maxDuration now ((wake, next) :: rest) (some wake)

variable (m : McuPin K)

/-- The pin at a later time. -/
def advance (default maxDuration now : K) : McuPin K :=
  if m.isShutdown then m else catchUp default maxDuration now m.mq m.endTime

/-- `command_queue_digital_out`. -/
def queue (time value : K) : McuPin K :=
  if m.isShutdown then m
  else if m.mq.isEmpty then
    if m.endTime.any (· < time) then ⟨true, [], none⟩ else ⟨false, [(time, value)], some time⟩
  else { m with mq := m.mq ++ [(time, value)] }

/-- The updates in the queue follow each other in time up to the last one, and the next event is
the first of them, or the end of the last one. -/
structure Fed (default maxDuration lastTime lastValue : K) (mq : List (K × K))
    (endTime : Option K) : Prop where
  last : ∀ u ∈ mq.getLast?, u = (lastTime, lastValue)
  chain : mq.IsChain fun a b => a.2 ≠ default → b.1 ≤ a.1 + maxDuration
  endTime_eq : endTime = match mq.head? with
    | some u => some u.1
    | none => if lastValue = default then none else some (lastTime + maxDuration)

variable {default maxDuration lastTime lastValue now : K} {mq : List (K × K)} {endTime : Option K}

/-- Loading what is due leaves the pin fed, as long as the last update is not over. -/
theorem fed_catchUp (h : Fed default maxDuration lastTime lastValue mq endTime)
    (hnow : lastValue ≠ default → now < lastTime + maxDuration) :
    ∃ mq' endTime', catchUp default maxDuration now mq endTime = ⟨false, mq', endTime'⟩ ∧
      Fed default maxDuration lastTime lastValue mq' endTime' := by
  induction mq generalizing endTime with
  | nil =>
    obtain rfl := h.endTime_eq
    by_cases hdefault : lastValue = default
    · exact ⟨[], none, by simp [catchUp, hdefault], h.last, h.chain, by simp [hdefault]⟩
    · refine ⟨[], some (lastTime + maxDuration), ?_, h.last, h.chain, by simp [hdefault]⟩
      simp [catchUp, hdefault, hnow hdefault]
  | cons u rest ih =>
    obtain ⟨time, value⟩ := u
    obtain rfl : endTime = some time := h.endTime_eq
    rw [catchUp]
    by_cases hlt : now < time
    · rw [if_pos hlt]
      exact ⟨_, _, rfl, h⟩
    · rw [if_neg hlt]
      cases rest with
      | nil =>
        obtain ⟨rfl, rfl⟩ := Prod.mk.inj (h.last _ rfl)
        refine ih ⟨fun u hu => ?_, List.isChain_nil, rfl⟩
        cases hu
      | cons v rest =>
        obtain ⟨wake, next⟩ := v
        obtain ⟨hnext, hchain⟩ := List.isChain_cons_cons.1 h.chain
        have hgap : ¬((if value = default then none else some (time + maxDuration)).any
            (· < wake) = true) := by
          by_cases hvalue : value = default
          · simp [hvalue]
          · simpa [hvalue] using hnext hvalue
        dsimp only
        rw [if_neg hgap]
        exact ih ⟨h.last, hchain, rfl⟩

/-- An update that comes before the last one is over. -/
theorem fed_queue (h : Fed default maxDuration lastTime lastValue mq endTime) {time : K}
    (value : K) (htime : lastValue ≠ default → time ≤ lastTime + maxDuration) :
    ∃ mq' endTime', queue ⟨false, mq, endTime⟩ time value = ⟨false, mq', endTime'⟩ ∧
      Fed default maxDuration time value mq' endTime' := by
  cases mq with
  | nil =>
    obtain rfl := h.endTime_eq
    refine ⟨[(time, value)], some time, ?_, fun u hu => (Option.some_inj.1 hu).symm,
      List.isChain_singleton _, rfl⟩
    by_cases hdefault : lastValue = default
    · simp [queue, hdefault]
    · simp [queue, hdefault, htime hdefault]
  | cons u rest =>
    refine ⟨u :: rest ++ [(time, value)], endTime, rfl, ?_, ?_, h.endTime_eq⟩
    · intro v hv
      rw [List.getLast?_concat] at hv
      exact (Option.some_inj.1 hv).symm
    · refine h.chain.append (List.isChain_singleton _) fun a ha b hb => ?_
      obtain rfl := h.last a ha
      obtain rfl := Option.some_inj.1 hb
      exact htime

end McuPin

/-! ## The host -/

/-- `PIN_MIN_TIME`. -/
def pinMinTime : K := 0.1

theorem pinMinTime_pos : (0 : K) < pinMinTime := by
  unfold pinMinTime
  norm_num

/-- `RESEND_HOST_TIME`. -/
def resendHostTime : K := 0.3 + pinMinTime

/-- The configuration of a `PrinterOutputPin`, and the print time at a host time. -/
structure PinConfig (K : Type) [Field K] [LinearOrder K] where
  maxMcuDuration : K
  maxMcuDuration_ge : 0.5 ≤ maxMcuDuration
  shutdownValue : K
  estimatedPrintTime : K → K

namespace PinConfig

variable (c : PinConfig K)

/-- `resend_interval`. -/
def resendInterval : K :=
  c.maxMcuDuration - resendHostTime

end PinConfig

/-- `PrinterOutputPin` at a host time, with the pin of the micro-controller, when the timer was
scheduled last, and the updates that were sent, each with its print time and the print time when it
was sent. -/
structure PinRun (K : Type) where
  now : K
  lastValue : K
  lastPrintTime : K
  resendTimer : Option K
  scheduledAt : K
  requested : K
  sent : List (K × K × K)
  mcu : McuPin K
  deriving DecidableEq

/-- The callback of a `SET_PIN` command, the resend timer, and time that passes. -/
inductive PinEvent (K : Type) where
  | setPin (printTime value : K)
  | resend
  | pass

namespace PinRun

variable (c : PinConfig K) (s : PinRun K)

/-- The start. The start value is the value at a shutdown. -/
def start (now : K) : PinRun K :=
  ⟨now, c.shutdownValue, 0, none, now, 0, [], ⟨false, [], none⟩⟩

/-- `_set_pin`. -/
def setPin (printTime value : K) (isResend : Bool) : PinRun K :=
  if value = s.lastValue ∧ !isResend then s
  else
    let printTime := max printTime (s.lastPrintTime + pinMinTime)
    { s with
      lastValue := value
      lastPrintTime := printTime
      sent := s.sent ++ [(printTime, value, c.estimatedPrintTime s.now)]
      mcu := s.mcu.queue printTime value
      resendTimer := if s.resendTimer = none then some s.now else s.resendTimer
      scheduledAt := if s.resendTimer = none then s.now else s.scheduledAt }

/-- `_resend_current_val`. -/
def resendCurrentVal : PinRun K :=
  if s.lastValue = c.shutdownValue then { s with resendTimer := none }
  else
    let printTime := c.estimatedPrintTime s.now
    let timeDiff := s.lastPrintTime + c.resendInterval - printTime
    if timeDiff > 0 then
      { s with resendTimer := some (s.now + timeDiff), scheduledAt := s.now }
    else
      { s.setPin c (printTime + pinMinTime) s.lastValue true with
        resendTimer := some (s.now + c.resendInterval), scheduledAt := s.now }

/-- Time has passed, and the micro-controller has loaded what is due. -/
def passTo (t : K) : PinRun K :=
  { s with
    now := t
    mcu := s.mcu.advance c.shutdownValue c.maxMcuDuration (c.estimatedPrintTime t) }

/-- An event at a time, where the timer is not late. Print times do not decrease. -/
def next (e : K × PinEvent K) : Option (PinRun K) :=
  if e.1 < s.now ∨ s.resendTimer.any (· + 0.1 < e.1) then none
  else
    match e.2 with
    | .setPin printTime value =>
      if printTime < s.requested then none
      else some ({ s.passTo c e.1 with requested := printTime }.setPin c printTime value false)
    | .resend =>
      if s.resendTimer.any (· ≤ e.1) then some ((s.passTo c e.1).resendCurrentVal c) else none
    | .pass => some (s.passTo c e.1)

/-- The runs of a pin. -/
def system : System (PinRun K) (K × PinEvent K) where
  init s := ∃ now, s = start c now
  next := next c

/-- No value is requested for a time that is over, or for long after the last one; and the print
time has not gained much on the host time since the timer was scheduled. -/
def Calm (s : PinRun K) (e : K × PinEvent K) : Prop :=
  (s.resendTimer ≠ none →
    c.estimatedPrintTime e.1 - c.estimatedPrintTime s.scheduledAt ≤ e.1 - s.scheduledAt + 0.2) ∧
  match e.2 with
  | .setPin printTime value => value ≠ s.lastValue → c.estimatedPrintTime e.1 ≤ printTime ∧
      (s.lastValue ≠ c.shutdownValue → printTime ≤ s.lastPrintTime + c.maxMcuDuration)
  | _ => True

instance : ∀ e, Decidable (Calm c s e)
  | (time, .setPin printTime value) => inferInstanceAs (Decidable
      ((s.resendTimer ≠ none → c.estimatedPrintTime time - c.estimatedPrintTime s.scheduledAt ≤
        time - s.scheduledAt + 0.2) ∧
      (value ≠ s.lastValue → c.estimatedPrintTime time ≤ printTime ∧
        (s.lastValue ≠ c.shutdownValue → printTime ≤ s.lastPrintTime + c.maxMcuDuration))))
  | (time, .resend) | (time, .pass) => inferInstanceAs (Decidable
      ((s.resendTimer ≠ none → c.estimatedPrintTime time - c.estimatedPrintTime s.scheduledAt ≤
        time - s.scheduledAt + 0.2) ∧ True))

/-- An update after another one, each with its print time, its value and when it was sent. -/
def Follows (a b : K × K × K) : Prop :=
  a.1 + pinMinTime ≤ b.1 ∧
    (a.2.1 ≠ c.shutdownValue → b.1 ≤ a.1 + c.maxMcuDuration ∧ b.2.2 ≤ b.1)

/-- What holds in a calm run. -/
structure Inv : Prop where
  last : ∀ u ∈ s.sent.getLast?, u.1 = s.lastPrintTime ∧ u.2.1 = s.lastValue
  unsent : s.sent = [] → s.lastValue = c.shutdownValue
  sent : s.sent.IsChain (Follows c)
  timer : s.lastValue ≠ c.shutdownValue → s.resendTimer ≠ none
  wake : ∀ w ∈ s.resendTimer, c.estimatedPrintTime s.scheduledAt + (w - s.scheduledAt) ≤
    s.lastPrintTime + c.resendInterval
  present : s.lastValue ≠ c.shutdownValue →
    c.estimatedPrintTime s.now + pinMinTime ≤ s.lastPrintTime + c.maxMcuDuration
  mcu : s.mcu.isShutdown = false
  fed : McuPin.Fed c.shutdownValue c.maxMcuDuration s.lastPrintTime s.lastValue s.mcu.mq
    s.mcu.endTime

variable {c s}

theorem inv_passTo (h : s.Inv c) {t : K}
    (hgain : s.resendTimer ≠ none →
      c.estimatedPrintTime t - c.estimatedPrintTime s.scheduledAt ≤ t - s.scheduledAt + 0.2)
    (hlate : ∀ w ∈ s.resendTimer, t ≤ w + 0.1) : (s.passTo c t).Inv c := by
  have hpresent : s.lastValue ≠ c.shutdownValue →
      c.estimatedPrintTime t + pinMinTime ≤ s.lastPrintTime + c.maxMcuDuration := by
    intro hvalue
    obtain ⟨w, hw⟩ := Option.ne_none_iff_exists'.1 (h.timer hvalue)
    have hwake := h.wake w hw
    have hgain := hgain (h.timer hvalue)
    have hlate := hlate w hw
    unfold PinConfig.resendInterval resendHostTime at hwake
    unfold pinMinTime at hwake ⊢
    linarith
  obtain ⟨mq, endTime, hcatch, hfed⟩ := McuPin.fed_catchUp h.fed fun hvalue =>
    (lt_add_of_pos_right _ pinMinTime_pos).trans_le (hpresent hvalue)
  have hmcu : s.mcu.advance c.shutdownValue c.maxMcuDuration (c.estimatedPrintTime t) =
      ⟨false, mq, endTime⟩ := by
    unfold McuPin.advance
    rw [h.mcu]
    exact hcatch
  refine ⟨h.last, h.unsent, h.sent, h.timer, h.wake, hpresent, ?_, ?_⟩
  · exact congrArg McuPin.isShutdown hmcu
  · show McuPin.Fed _ _ _ _ (McuPin.advance ..).mq (McuPin.advance ..).endTime
    rw [hmcu]
    exact hfed

/-- A value that is sent. -/
theorem inv_setPin (h : s.Inv c) {printTime value : K} {isResend : Bool}
    (hsend : ¬(value = s.lastValue ∧ !isResend)) (hpast : c.estimatedPrintTime s.now ≤ printTime)
    (hgap : s.lastValue ≠ c.shutdownValue → printTime ≤ s.lastPrintTime + c.maxMcuDuration) :
    (s.setPin c printTime value isResend).Inv c := by
  have hmin : s.lastPrintTime + pinMinTime ≤ s.lastPrintTime + c.maxMcuDuration := by
    have hge := c.maxMcuDuration_ge
    unfold pinMinTime
    linarith
  have hgap' : s.lastValue ≠ c.shutdownValue →
      max printTime (s.lastPrintTime + pinMinTime) ≤ s.lastPrintTime + c.maxMcuDuration :=
    fun hvalue => max_le (hgap hvalue) hmin
  have hmcu : s.mcu = ⟨false, s.mcu.mq, s.mcu.endTime⟩ := by
    rw [← h.mcu]
  obtain ⟨mq, endTime, hqueue, hfed⟩ := McuPin.fed_queue h.fed value hgap'
  rw [← hmcu] at hqueue
  have hinterval : 0 ≤ c.resendInterval := by
    have hge := c.maxMcuDuration_ge
    unfold PinConfig.resendInterval resendHostTime pinMinTime
    linarith
  unfold setPin
  rw [if_neg hsend]
  refine ⟨fun u hu => ?_, fun hnil => ?_, ?_, fun _ => ?_, fun w hw => ?_, fun _ => ?_, ?_, ?_⟩
  · rw [List.getLast?_concat] at hu
    obtain rfl := Option.some_inj.1 hu
    exact ⟨rfl, rfl⟩
  · exact absurd hnil (List.append_ne_nil_of_right_ne_nil _ (List.cons_ne_nil _ _))
  · refine h.sent.append (List.isChain_singleton _) fun a ha b hb => ?_
    obtain ⟨htime, hvalue⟩ := h.last a ha
    obtain rfl := Option.some_inj.1 hb
    unfold Follows
    rw [htime, hvalue]
    exact ⟨le_max_right _ _, fun hne => ⟨hgap' hne, hpast.trans (le_max_left _ _)⟩⟩
  · dsimp only
    split_ifs with htimer
    · exact Option.some_ne_none _
    · exact htimer
  · dsimp only at hw ⊢
    split_ifs at hw ⊢ with htimer
    · obtain rfl := Option.some_inj.1 hw
      rw [sub_self, add_zero]
      exact (hpast.trans (le_max_left _ _)).trans (le_add_of_nonneg_right hinterval)
    · have hlast : s.lastPrintTime ≤ max printTime (s.lastPrintTime + pinMinTime) :=
        (le_add_of_nonneg_right pinMinTime_pos.le).trans (le_max_right _ _)
      exact (h.wake w hw).trans (add_le_add_left hlast _)
  · have hge := c.maxMcuDuration_ge
    refine add_le_add (hpast.trans (le_max_left _ _)) ?_
    unfold pinMinTime
    linarith
  · exact congrArg McuPin.isShutdown hqueue
  · dsimp only
    rw [hqueue]
    exact hfed

/-- The resend timer. -/
theorem inv_resendCurrentVal (h : s.Inv c) : (s.resendCurrentVal c).Inv c := by
  unfold resendCurrentVal
  dsimp only
  split_ifs with hvalue htime
  · refine ⟨h.last, h.unsent, h.sent, fun hne => absurd hvalue hne, fun w hw => ?_, h.present,
      h.mcu, h.fed⟩
    cases hw
  · refine ⟨h.last, h.unsent, h.sent, fun _ => Option.some_ne_none _, fun w hw => ?_, h.present,
      h.mcu, h.fed⟩
    obtain rfl := Option.some_inj.1 hw
    dsimp only
    linarith
  · have hsend : ¬(s.lastValue = s.lastValue ∧ !true) := fun hsame => Bool.false_ne_true hsame.2
    have hset := inv_setPin h hsend (le_add_of_nonneg_right pinMinTime_pos.le) h.present
    refine ⟨hset.last, hset.unsent, hset.sent, fun _ => Option.some_ne_none _, fun w hw => ?_,
      hset.present, hset.mcu, hset.fed⟩
    obtain rfl := Option.some_inj.1 hw
    have hlast : c.estimatedPrintTime s.now ≤ (s.setPin c
        (c.estimatedPrintTime s.now + pinMinTime) s.lastValue true).lastPrintTime := by
      unfold setPin
      rw [if_neg hsend]
      exact (le_add_of_nonneg_right pinMinTime_pos.le).trans (le_max_left _ _)
    dsimp only
    linarith

theorem inv_next {e : K × PinEvent K} {t : PinRun K} (h : s.Inv c) (hcalm : Calm c s e)
    (hnext : s.next c e = some t) : t.Inv c := by
  obtain ⟨time, e⟩ := e
  obtain ⟨hgain, hcalm⟩ := hcalm
  unfold next at hnext
  obtain ⟨htime, hnext⟩ := Option.ite_none_left_eq_some.1 hnext
  obtain ⟨-, hlate⟩ := not_or.1 htime
  have hpass : (s.passTo c time).Inv c := by
    refine inv_passTo h hgain fun w hw => ?_
    rw [Option.mem_def.1 hw] at hlate
    simpa using hlate
  cases e with
  | setPin printTime value =>
    obtain ⟨-, hnext⟩ := Option.ite_none_left_eq_some.1 hnext
    obtain rfl := Option.some_inj.1 hnext
    have hrequest : ({ s.passTo c time with requested := printTime } : PinRun K).Inv c :=
      ⟨hpass.last, hpass.unsent, hpass.sent, hpass.timer, hpass.wake, hpass.present, hpass.mcu,
        hpass.fed⟩
    by_cases hvalue : value = s.lastValue
    · have hskip : ({ s.passTo c time with requested := printTime } : PinRun K).setPin c
          printTime value false = { s.passTo c time with requested := printTime } :=
        if_pos ⟨hvalue, rfl⟩
      rw [hskip]
      exact hrequest
    · obtain ⟨hpast, hgap⟩ := hcalm hvalue
      exact inv_setPin hrequest (fun hsame => hvalue hsame.1) hpast hgap
  | resend =>
    obtain ⟨-, hnext⟩ := Option.ite_none_right_eq_some.1 hnext
    obtain rfl := Option.some_inj.1 hnext
    exact inv_resendCurrentVal hpass
  | pass =>
    obtain rfl := Option.some_inj.1 hnext
    exact hpass

theorem inv_of_reachable (h : (system c).ReachableBy (Calm c) s) : s.Inv c := by
  refine h.invariant ?_ fun s e t hs hcalm hnext => inv_next hs hcalm hnext
  rintro s ⟨now, rfl⟩
  refine ⟨fun u hu => ?_, fun _ => rfl, List.isChain_nil, fun hne => absurd rfl hne,
    fun w hw => ?_, fun hne => absurd rfl hne, rfl, fun u hu => ?_, List.isChain_nil,
    (if_pos rfl).symm⟩
  · cases hu
  · cases hw
  · cases hu

/-- The host feeds the pin. -/
structure Fed (c : PinConfig K) (s : PinRun K) : Prop where
  /-- Updates follow each other in time, and are sent in time. -/
  sent : s.sent.IsChain (Follows c)
  /-- The last one is not over. -/
  present : ∀ u ∈ s.sent.getLast?, u.2.1 ≠ c.shutdownValue →
    c.estimatedPrintTime s.now < u.1 + c.maxMcuDuration
  /-- A value that differs is sent. -/
  requested : ∀ (time printTime value : K) t, s.next c (time, .setPin printTime value) = some t →
    value ≠ s.lastValue → ∃ q, printTime ≤ q ∧
      t.sent = s.sent ++ [(q, value, c.estimatedPrintTime time)]
  mcu : s.mcu.isShutdown = false

/-- In every run without a request for long after the last value, where the print time does not run
away from the host time, the pin is fed. -/
theorem fed_of_reachable (h : (system c).ReachableBy (Calm c) s) : s.Fed c := by
  have hinv := inv_of_reachable h
  refine ⟨hinv.sent, fun u hu hvalue => ?_, fun time printTime value t hnext hvalue => ?_,
    hinv.mcu⟩
  · obtain ⟨htime, hlast⟩ := hinv.last u hu
    rw [htime]
    rw [hlast] at hvalue
    exact (lt_add_of_pos_right _ pinMinTime_pos).trans_le (hinv.present hvalue)
  · obtain ⟨-, hnext⟩ := Option.ite_none_left_eq_some.1 hnext
    obtain ⟨-, hnext⟩ := Option.ite_none_left_eq_some.1 hnext
    obtain rfl := Option.some_inj.1 hnext
    refine ⟨max printTime (s.lastPrintTime + pinMinTime), le_max_left _ _, ?_⟩
    unfold setPin
    rw [if_neg fun hsame => hvalue hsame.1]
    rfl

/-- A pin of an example. -/
def fan : PinConfig ℚ where
  maxMcuDuration := 1
  maxMcuDuration_ge := by norm_num
  shutdownValue := 0
  estimatedPrintTime := fun time => time - 5

/-- The fan is on, and its value is sent again. -/
def fanOn : List (ℚ × PinEvent ℚ) :=
  [(6, .setPin 1.5 1), (6.05, .resend), (7.15, .resend)]

theorem fed_fanOn : ∃ s, (system fan).run (start fan 0) fanOn = some s ∧
    s.sent = [(1.5, 1, 1), (2.25, 1, 2.15)] ∧ s.Fed fan := by
  have hinit : (system fan).ReachableBy (Calm fan) (start fan 0) := .init ⟨0, rfl⟩
  have hreach : (system fan).ReachableBy (Calm fan)
      (((system fan).run (start fan 0) fanOn).get (by decide +kernel)) :=
    hinit.run (by decide +kernel) (Option.some_get _).symm
  exact ⟨_, (Option.some_get _).symm, by decide +kernel, fed_of_reachable hreach⟩

/-- The fan is on, and off again after a dwell of one and a half seconds. -/
def fanPause : List (ℚ × PinEvent ℚ) :=
  [(6, .setPin 1.5 1), (6, .setPin 3 0), (6, .resend), (7, .pass)]

/-- The micro-controller shuts down, because the second value comes long after the first. -/
theorem not_fed_ahead : ¬∀ s, (system fan).Reachable s → s.Fed fan := by
  intro h
  have hinit : (system fan).Reachable (start fan 0) := .init ⟨0, rfl⟩
  have hreach : (system fan).Reachable
      (((system fan).run (start fan 0) fanPause).get (by decide +kernel)) :=
    hinit.run (Option.some_get _).symm
  exact absurd (h _ hreach).mcu (by decide +kernel)

end PinRun

end Thinker
