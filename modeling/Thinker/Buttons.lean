import Thinker.Numerals
import Thinker.Transition

/-!
# Button reports

`buttons.c` debounces the pins and keeps up to eight reports until they are acknowledged, and
`MCU_buttons` of `buttons.py` expands the 8-bit count of a message and takes the reports that are
new. Messages with reports may be lost, and are sent again after some ticks; acknowledgements are
not lost.

The host has taken a prefix of the reports that were recorded (`Linked`). A change that comes while
eight reports wait is not recorded.
-/

set_option linter.unusedSectionVars false

namespace Thinker

/-! ## The firmware -/

/-- `struct buttons`. `reports` is the array up to `report_count`. -/
structure Buttons where
  pressed : BitVec 8
  lastPressed : BitVec 8
  reports : List (BitVec 8)
  ackCount : BitVec 8
  retransmitState : BitVec 8
  retransmitCount : BitVec 8
  deriving DecidableEq

/-- `buttons_state`. -/
structure ButtonsState where
  ackCount : BitVec 8
  state : List (BitVec 8)
  deriving DecidableEq

namespace Buttons

/-- `BF_NO_RETRANSMIT`. -/
def noRetransmit : BitVec 8 :=
  0x80

/-- `BF_PENDING`. -/
def pending : BitVec 8 :=
  0xff

/-- `BF_ACKED`. -/
def acked : BitVec 8 :=
  0xfe

/-- The bits of the pins that are set, from the bit `i` on. -/
def readPins (i : ℕ) : List Bool → BitVec 8
  | [] => 0
  | pin :: pins => (if pin = true then 1#8 <<< i else 0) ||| readPins (i + 1) pins

variable (b : Buttons)

/-- The debouncing of `buttons_event`. A change that is not recorded is not reported again. -/
def debounce (status : BitVec 8) : Buttons :=
  let diff := status ^^^ b.pressed
  let debounced := ~~~(status ^^^ b.lastPressed)
  if diff &&& debounced ≠ 0 then
    let pressed := b.pressed &&& ~~~debounced ||| status &&& debounced
    if b.reports.length < 8 then
      { b with
        pressed := pressed
        reports := b.reports ++ [pressed]
        retransmitState := pending }
    else { b with pressed := pressed }
  else b

/-- Whether `buttons_event` sees a change with a full queue. -/
def Misses (status : BitVec 8) : Prop :=
  (status ^^^ b.pressed) &&& ~~~(status ^^^ b.lastPressed) ≠ 0 ∧ 8 ≤ b.reports.length

instance (status : BitVec 8) : Decidable (b.Misses status) :=
  inferInstanceAs (Decidable (_ ∧ _))

/-- `buttons_event`. The last tick before a retransmit leads from 0 to `BF_PENDING`. -/
def event (pins : List Bool) : Buttons :=
  let status := readPins 0 pins
  let b := { b.debounce status with lastPressed := status }
  if b.retransmitState &&& noRetransmit = 0 then
    { b with retransmitState := b.retransmitState - 1 }
  else b

/-- `command_buttons_query`. -/
def query (retransmitCount invert : BitVec 8) : Buttons where
  pressed := invert
  lastPressed := invert
  reports := []
  ackCount := 0
  retransmitState := acked
  retransmitCount := retransmitCount

/-- `command_buttons_ack`. -/
def ack (count : BitVec 8) : Buttons :=
  if b.reports.length ≤ count.toNat then
    { b with ackCount := b.ackCount + count, reports := [], retransmitState := acked }
  else { b with ackCount := b.ackCount + count, reports := b.reports.drop count.toNat }

/-- `buttons_task`. -/
def task : Option (Buttons × ButtonsState) :=
  if b.retransmitState = pending ∧ b.reports ≠ [] then
    some ({ b with retransmitState := b.retransmitCount }, ⟨b.ackCount, b.reports⟩)
  else none

variable {b}

/-- The timer records the state of the buttons, or a change is missed, or the state is as before. -/
theorem event_spec (pins : List Bool) :
    (b.event pins).ackCount = b.ackCount ∧
      (((b.event pins).reports = b.reports ∧
          ((b.event pins).pressed = b.pressed ∨ b.Misses (readPins 0 pins))) ∨
        ((b.event pins).reports = b.reports ++ [(b.event pins).pressed] ∧ b.reports.length < 8)) := by
  have hkeep : (b.event pins).ackCount = (b.debounce (readPins 0 pins)).ackCount ∧
      (b.event pins).reports = (b.debounce (readPins 0 pins)).reports ∧
      (b.event pins).pressed = (b.debounce (readPins 0 pins)).pressed := by
    unfold event
    dsimp only
    split <;> exact ⟨rfl, rfl, rfl⟩
  rw [hkeep.1, hkeep.2.1, hkeep.2.2]
  unfold debounce
  dsimp only
  split_ifs with hdiff hfull
  · exact ⟨rfl, .inr ⟨rfl, hfull⟩⟩
  · exact ⟨rfl, .inl ⟨rfl, .inr ⟨hdiff, by omega⟩⟩⟩
  · exact ⟨rfl, .inl ⟨rfl, .inl rfl⟩⟩

theorem reports_ack (count : BitVec 8) :
    (b.ack count).reports = b.reports.drop count.toNat := by
  unfold ack
  split_ifs with hall
  · rw [List.drop_eq_nil_of_le hall]
  · rfl

theorem ack_frame (count : BitVec 8) :
    (b.ack count).ackCount = b.ackCount + count ∧ (b.ack count).pressed = b.pressed := by
  unfold ack
  split_ifs <;> exact ⟨rfl, rfl⟩

end Buttons

/-! ## The host -/

/-- `MCU_buttons`, with the calls of the callbacks by their place in the list. -/
structure MCUButtons where
  invert : BitVec 8
  lastButton : BitVec 8
  ackCount : ℤ
  callbacks : List (BitVec 8 × ℕ)
  called : List (ℕ × BitVec 8)
  deriving DecidableEq

namespace MCUButtons

variable (h : MCUButtons)

/-- The callbacks of the buttons that changed. -/
def callbacksOf (changed button : BitVec 8) : List (ℕ × BitVec 8) :=
  h.callbacks.zipIdx.filterMap fun ((mask, shift), i) =>
    if changed &&& mask ≠ 0 then some (i, (button &&& mask) >>> shift) else none

/-- One report of `handle_buttons_state`. -/
def take (h : MCUButtons) (button : BitVec 8) : MCUButtons :=
  let button := button ^^^ h.invert
  { h with
    lastButton := button
    called := h.called ++ h.callbacksOf (button ^^^ h.lastButton) button }

/-- The count of a message, expanded from 8 bits. -/
def expandAck (count : BitVec 8) : ℤ :=
  let ackDiff := ((count.toNat : ℤ) - h.ackCount) % 256
  h.ackCount + (if 128 ≤ ackDiff then ackDiff - 256 else ackDiff)

/-- How many reports of a message are new. -/
def newCount (m : ButtonsState) : ℤ :=
  h.expandAck m.ackCount + m.state.length - h.ackCount

/-- The new reports of a message. -/
def newButtons (m : ButtonsState) : List (BitVec 8) :=
  m.state.drop (m.state.length - (h.newCount m).toNat)

/-- `handle_buttons_state`, if there are new reports. -/
def handleButtonsState (m : ButtonsState) : MCUButtons :=
  (h.newButtons m).foldl take { h with ackCount := h.ackCount + h.newCount m }

@[simp]
theorem ackCount_foldl_take (l : List (BitVec 8)) : (l.foldl take h).ackCount = h.ackCount := by
  induction l generalizing h with
  | nil => rfl
  | cons _ _ ih => exact ih _

@[simp]
theorem invert_foldl_take (l : List (BitVec 8)) : (l.foldl take h).invert = h.invert := by
  induction l generalizing h with
  | nil => rfl
  | cons _ _ ih => exact ih _

/-- The last report decides the state. -/
theorem lastButton_foldl_take (l : List (BitVec 8)) (hl : l ≠ []) :
    (l.foldl take h).lastButton = l.getLast hl ^^^ h.invert := by
  obtain ⟨init, last, rfl⟩ := (List.eq_nil_or_concat' l).resolve_left hl
  rw [List.foldl_concat, List.getLast_concat]
  show last ^^^ (init.foldl take h).invert = _
  rw [invert_foldl_take]

/-- A message with new reports. -/
theorem handleButtonsState_frame {m : ButtonsState} (hne : h.newButtons m ≠ []) :
    (h.handleButtonsState m).ackCount = h.ackCount + h.newCount m ∧
      (h.handleButtonsState m).invert = h.invert ∧
      (h.handleButtonsState m).lastButton = (h.newButtons m).getLast hne ^^^ h.invert :=
  ⟨ackCount_foldl_take _ _, invert_foldl_take _ _, lastButton_foldl_take _ _ hne⟩

/-- A count that the host is ahead of by less than half of the range. -/
theorem expandAck_ofNat {n : ℕ} (hle : (n : ℤ) ≤ h.ackCount) (hlt : h.ackCount ≤ n + 128) :
    h.expandAck (BitVec.ofNat 8 n) = n := by
  unfold expandAck
  rw [BitVec.toNat_ofNat]
  push_cast
  split_ifs <;> omega

end MCUButtons

/-! ## Both ends -/

/-- The firmware, the host, and what is in flight between them. A message is kept with the number
of reports that were acknowledged when it was sent. The last four fields are not in the code : the
reports that were recorded and those that the host took, how many the firmware saw acknowledged,
and whether a change was missed after the last that was recorded. -/
structure ButtonLink where
  mcu : Buttons
  host : MCUButtons
  messages : List (ButtonsState × ℕ)
  acks : List ℤ
  recorded : List (BitVec 8)
  taken : List (BitVec 8)
  acked : ℕ
  missed : Bool
  deriving DecidableEq

namespace ButtonLink

/-- What may happen next : the timer reads the pins, the task runs, a message is lost or arrives,
or an acknowledgement arrives. The wake flag of the task is shared with other buttons, so the task
may run at any time. -/
inductive Event where
  | event (pins : List Bool)
  | task
  | lose (i : ℕ)
  | message
  | ack
  deriving DecidableEq

variable (s : ButtonLink)

/-- The state after an event. -/
def next : Event → Option ButtonLink
  | .event pins =>
    let mcu := s.mcu.event pins
    let recorded := mcu.reports.drop s.mcu.reports.length
    some { s with
      mcu := mcu
      recorded := s.recorded ++ recorded
      missed := decide (s.mcu.Misses (Buttons.readPins 0 pins)) || (s.missed && recorded.isEmpty) }
  | .task => s.mcu.task.map fun (mcu, m) =>
      { s with mcu := mcu, messages := s.messages ++ [(m, s.acked)] }
  | .lose i => some { s with messages := s.messages.eraseIdx i }
  | .message =>
    match s.messages with
    | [] => none
    | (m, _) :: messages =>
      let s := { s with messages := messages }
      if s.host.newCount m ≤ 0 then some s
      else
        some { s with
          host := s.host.handleButtonsState m
          acks := s.acks ++ [s.host.newCount m]
          taken := s.taken ++ s.host.newButtons m }
  | .ack =>
    match s.acks with
    | [] => none
    | count :: acks =>
      some { s with
        mcu := s.mcu.ack (BitVec.ofInt 8 count)
        acks := acks
        acked := s.acked + (BitVec.ofInt 8 count).toNat }

/-- Both ends after `buttons_query`. -/
structure Starts (s : ButtonLink) : Prop where
  mcu : s.mcu = .query s.mcu.retransmitCount s.host.invert
  lastButton : s.host.lastButton = 0
  ackCount : s.host.ackCount = 0
  messages : s.messages = []
  acks : s.acks = []
  recorded : s.recorded = []
  taken : s.taken = []
  acked : s.acked = 0
  missed : s.missed = false

/-- Both ends, from the query on. -/
def system : System ButtonLink Event where
  init := Starts
  next := next

variable {s}

/-- The host took a prefix of the reports that were recorded, and the firmware keeps those that it
did not see acknowledged. A message is of some of them, and has nothing that the host took last
after its end. -/
structure Linked (s : ButtonLink) : Prop where
  length_le : s.mcu.reports.length ≤ 8
  reports : s.mcu.reports = s.recorded.drop s.acked
  acked_le : s.acked ≤ s.recorded.length
  ackCount : s.mcu.ackCount = BitVec.ofNat 8 s.acked
  acks : (s.acked : ℤ) + s.acks.sum = s.taken.length
  acks_pos : ∀ count ∈ s.acks, 0 < count
  taken : s.taken = s.recorded.take s.taken.length
  hostCount : s.host.ackCount = s.taken.length
  lastButton : s.host.lastButton = s.taken.getLast?.getD s.host.invert ^^^ s.host.invert
  pressed : s.missed = false → s.mcu.pressed = s.recorded.getLast?.getD s.host.invert
  messages : ∀ m ∈ s.messages, m.1.ackCount = BitVec.ofNat 8 m.2 ∧ m.2 ≤ s.acked ∧
    m.1.state.length ≤ 8 ∧ m.2 + m.1.state.length ≤ s.recorded.length ∧
    m.1.state = (s.recorded.drop m.2).take m.1.state.length ∧
    s.taken.length ≤ m.2 + m.1.state.length
  order : s.messages.Pairwise fun m m' =>
    m.2 + m.1.state.length ≤ m'.2 + m'.1.state.length

namespace Linked

theorem taken_le (h : s.Linked) : s.taken.length ≤ s.recorded.length := by
  rw [h.taken, List.length_take]
  omega

theorem acked_le_taken (h : s.Linked) : s.acked ≤ s.taken.length := by
  have hacks := h.acks
  have hnonneg : 0 ≤ s.acks.sum := List.sum_nonneg fun count hcount => (h.acks_pos count hcount).le
  omega

theorem length_reports (h : s.Linked) : s.acked + s.mcu.reports.length = s.recorded.length := by
  have hle := h.acked_le
  rw [h.reports, List.length_drop]
  omega

/-- The timer. -/
theorem event (h : s.Linked) {pins : List Bool} {t : ButtonLink}
    (ht : s.next (.event pins) = some t) : t.Linked := by
  obtain rfl := Option.some_inj.1 ht
  obtain ⟨hcount, hkeep | ⟨hreports, hlt⟩⟩ := s.mcu.event_spec pins
  · obtain ⟨hreports, hpressed⟩ := hkeep
    have hnil : (s.mcu.event pins).reports.drop s.mcu.reports.length = [] := by
      rw [hreports, List.drop_length]
    rw [hnil, List.append_nil]
    refine ⟨?_, ?_, h.acked_le, hcount.trans h.ackCount, h.acks, h.acks_pos, h.taken, h.hostCount,
      h.lastButton, fun hmissed => ?_, h.messages, h.order⟩
    · rw [hreports]
      exact h.length_le
    · exact hreports.trans h.reports
    · simp only [List.isEmpty_nil, Bool.and_true, Bool.or_eq_false_iff, decide_eq_false_iff_not]
        at hmissed
      exact (hpressed.resolve_right hmissed.1).trans (h.pressed hmissed.2)
  · have hnew : (s.mcu.event pins).reports.drop s.mcu.reports.length =
        [(s.mcu.event pins).pressed] := by
      rw [hreports, List.drop_left]
    have htaken := h.taken_le
    rw [hnew]
    refine ⟨?_, ?_, ?_, hcount.trans h.ackCount, h.acks, h.acks_pos, ?_, h.hostCount,
      h.lastButton, fun _ => ?_, fun m hm => ?_, h.order⟩
    · rw [hreports, List.length_append, List.length_singleton]
      omega
    · show (s.mcu.event pins).reports = (s.recorded ++ _).drop s.acked
      rw [hreports, List.drop_append_of_le_length h.acked_le, ← h.reports]
    · show s.acked ≤ (s.recorded ++ _).length
      have := h.acked_le
      rw [List.length_append]
      omega
    · show s.taken = (s.recorded ++ _).take s.taken.length
      rw [List.take_append_of_le_length htaken]
      exact h.taken
    · show _ = (s.recorded ++ [_]).getLast?.getD _
      rw [List.getLast?_concat, Option.getD_some]
    · obtain ⟨hc, hle, hlen, hbound, hstate, hlast⟩ := h.messages m hm
      refine ⟨hc, hle, hlen, ?_, ?_, hlast⟩
      · show _ ≤ (s.recorded ++ _).length
        rw [List.length_append]
        omega
      · show _ = ((s.recorded ++ _).drop m.2).take _
        rw [List.drop_append_of_le_length (by omega), List.take_append_of_le_length]
        · exact hstate
        · rw [List.length_drop]
          omega

/-- The task sends what was not acknowledged. -/
theorem task (h : s.Linked) {t : ButtonLink} (ht : s.next .task = some t) : t.Linked := by
  unfold next Buttons.task at ht
  dsimp only at ht
  split_ifs at ht with hpending
  · rw [Option.map_some] at ht
    obtain rfl := Option.some_inj.1 ht
    have hlength := h.length_reports
    have htaken := h.taken_le
    refine ⟨h.length_le, h.reports, h.acked_le, h.ackCount, h.acks, h.acks_pos, h.taken,
      h.hostCount, h.lastButton, h.pressed, fun m hm => ?_, ?_⟩
    · rcases List.mem_append.1 hm with hm | hm
      · exact h.messages m hm
      · obtain rfl := List.mem_singleton.1 hm
        refine ⟨h.ackCount, le_rfl, h.length_le, hlength.le, ?_, ?_⟩
        · show s.mcu.reports = (s.recorded.drop s.acked).take s.mcu.reports.length
          rw [← h.reports, List.take_length]
        · show s.taken.length ≤ s.acked + s.mcu.reports.length
          omega
    · refine List.pairwise_append.2 ⟨h.order, List.pairwise_singleton _ _, fun m hm m' hm' => ?_⟩
      obtain rfl := List.mem_singleton.1 hm'
      obtain ⟨-, -, -, hbound, -, -⟩ := h.messages m hm
      show _ ≤ s.acked + s.mcu.reports.length
      omega
  · exact absurd ht nofun

theorem lose (h : s.Linked) {i : ℕ} {t : ButtonLink} (ht : s.next (.lose i) = some t) :
    t.Linked := by
  obtain rfl := Option.some_inj.1 ht
  have hsub := List.eraseIdx_sublist s.messages i
  exact ⟨h.length_le, h.reports, h.acked_le, h.ackCount, h.acks, h.acks_pos, h.taken, h.hostCount,
    h.lastButton, h.pressed, fun m hm => h.messages m (hsub.subset hm), h.order.sublist hsub⟩

/-- The host takes the reports of a message that follow those that it took. -/
theorem message (h : s.Linked) {t : ButtonLink} (ht : s.next .message = some t) : t.Linked := by
  unfold next at ht
  dsimp only at ht
  split at ht
  · exact absurd ht nofun
  · rename_i m n messages hmessages
    have hmem : (m, n) ∈ s.messages := hmessages ▸ List.mem_cons_self
    have hsub : messages.Sublist s.messages := hmessages ▸ List.sublist_cons_self _ _
    have hm := h.messages (m, n) hmem
    dsimp only at hm
    obtain ⟨hc, hle, hlen, hbound, hstate, hlast⟩ := hm
    have hacked := h.acked_le_taken
    have hhost := h.hostCount
    have hexpand : s.host.expandAck m.ackCount = n := by
      rw [hc]
      exact s.host.expandAck_ofNat (by omega) (by omega)
    have hnew : s.host.newCount m = n + m.state.length - s.taken.length := by
      unfold MCUButtons.newCount
      rw [hexpand, hhost]
    split_ifs at ht with hold
    · obtain rfl := Option.some_inj.1 ht
      exact ⟨h.length_le, h.reports, h.acked_le, h.ackCount, h.acks, h.acks_pos, h.taken,
        h.hostCount, h.lastButton, h.pressed, fun m hm => h.messages m (hsub.subset hm),
        h.order.sublist hsub⟩
    · obtain rfl := Option.some_inj.1 ht
      have hbuttons : s.host.newButtons m =
          (s.recorded.drop s.taken.length).take (n + m.state.length - s.taken.length) := by
        unfold MCUButtons.newButtons
        have hdrop : m.state.length - (s.host.newCount m).toNat = s.taken.length - n := by omega
        have hadd : n + (s.taken.length - n) = s.taken.length := by omega
        have hsub : m.state.length - (s.taken.length - n) =
            n + m.state.length - s.taken.length := by omega
        rw [hdrop]
        nth_rewrite 1 [hstate]
        rw [List.drop_take, List.drop_drop, hadd, hsub]
      have htaken : s.taken ++ s.host.newButtons m = s.recorded.take (n + m.state.length) := by
        rw [hbuttons]
        nth_rewrite 1 [h.taken]
        rw [← List.take_add]
        congr 1
        omega
      have hlength : (s.taken ++ s.host.newButtons m).length = n + m.state.length := by
        rw [htaken, List.length_take, Nat.min_eq_left hbound]
      have hne : s.host.newButtons m ≠ [] := by
        intro hnil
        rw [hnil, List.append_nil] at hlength
        omega
      obtain ⟨hhostAck, hinvert, hbutton⟩ := s.host.handleButtonsState_frame hne
      refine ⟨h.length_le, h.reports, h.acked_le, h.ackCount, ?_, fun count hcount => ?_, ?_, ?_,
        ?_, fun hmissed => ?_, fun m' hm' => ?_, h.order.sublist hsub⟩
      · show (s.acked : ℤ) + (s.acks ++ [_]).sum = (s.taken ++ s.host.newButtons m).length
        have hacks := h.acks
        rw [hlength, List.sum_append, List.sum_singleton, hnew]
        push_cast
        omega
      · rcases List.mem_append.1 hcount with hcount | hcount
        · exact h.acks_pos count hcount
        · obtain rfl := List.mem_singleton.1 hcount
          omega
      · show s.taken ++ s.host.newButtons m = s.recorded.take (s.taken ++ s.host.newButtons m).length
        rw [hlength, htaken]
      · show (s.host.handleButtonsState m).ackCount = (s.taken ++ s.host.newButtons m).length
        rw [hhostAck, hlength]
        push_cast
        omega
      · show (s.host.handleButtonsState m).lastButton =
          (s.taken ++ s.host.newButtons m).getLast?.getD (s.host.handleButtonsState m).invert ^^^
            (s.host.handleButtonsState m).invert
        rw [hbutton, hinvert, List.getLast?_append_of_ne_nil _ hne,
          List.getLast?_eq_some_getLast hne, Option.getD_some]
      · show s.mcu.pressed = s.recorded.getLast?.getD (s.host.handleButtonsState m).invert
        rw [hinvert]
        exact h.pressed hmissed
      · obtain ⟨hc', hle', hlen', hbound', hstate', -⟩ := h.messages m' (hsub.subset hm')
        refine ⟨hc', hle', hlen', hbound', hstate', ?_⟩
        show (s.taken ++ s.host.newButtons m).length ≤ _
        rw [hlength]
        have horder := h.order
        rw [hmessages] at horder
        exact (List.pairwise_cons.1 horder).1 m' hm'

/-- The firmware drops the reports that are acknowledged. -/
theorem ack (h : s.Linked) {t : ButtonLink} (ht : s.next .ack = some t) : t.Linked := by
  unfold next at ht
  dsimp only at ht
  split at ht
  · exact absurd ht nofun
  · rename_i count acks hacks
    obtain rfl := Option.some_inj.1 ht
    have hsum := h.acks
    have hpos := h.acks_pos
    rw [hacks] at hsum hpos
    rw [List.sum_cons] at hsum
    have hcount := hpos count List.mem_cons_self
    have hrest : 0 ≤ acks.sum :=
      List.sum_nonneg fun c hc => (hpos c (List.mem_cons_of_mem _ hc)).le
    have htaken := h.taken_le
    have hlength := h.length_reports
    have hle := h.length_le
    have hnat : ((BitVec.ofInt 8 count).toNat : ℤ) = count := by
      rw [BitVec.toNat_ofInt]
      omega
    have hframe := s.mcu.ack_frame (BitVec.ofInt 8 count)
    have hreports : (s.mcu.ack (BitVec.ofInt 8 count)).reports =
        s.recorded.drop (s.acked + (BitVec.ofInt 8 count).toNat) := by
      rw [Buttons.reports_ack, h.reports, List.drop_drop]
    refine ⟨?_, hreports, ?_, ?_, ?_, fun c hc => hpos c (List.mem_cons_of_mem _ hc), h.taken,
      h.hostCount, h.lastButton, fun hmissed => hframe.2.trans (h.pressed hmissed),
      fun m hm => ?_, h.order⟩
    · show (s.mcu.ack _).reports.length ≤ 8
      rw [hreports, List.length_drop]
      omega
    · show s.acked + (BitVec.ofInt 8 count).toNat ≤ s.recorded.length
      omega
    · show (s.mcu.ack _).ackCount = BitVec.ofNat 8 (s.acked + (BitVec.ofInt 8 count).toNat)
      rw [hframe.1, h.ackCount, BitVec.ofNat_add, BitVec.ofNat_toNat, BitVec.setWidth_eq]
    · show ((s.acked + (BitVec.ofInt 8 count).toNat : ℕ) : ℤ) + acks.sum = _
      push_cast
      omega
    · obtain ⟨hc, hle, hrest⟩ := h.messages m hm
      refine ⟨hc, ?_, hrest⟩
      show m.2 ≤ s.acked + _
      omega

end Linked

theorem linked_of_reachable (h : system.Reachable s) : s.Linked := by
  refine h.invariant (I := Linked) (fun s h0 => ?_) fun s e t h _ ht => ?_
  · obtain ⟨hmcu, hlast, hcount, hmessages, hacks, hrecorded, htaken, hacked, hmissed⟩ := h0
    refine ⟨?_, ?_, ?_, ?_, ?_, ?_, ?_, ?_, ?_, fun _ => ?_, ?_, ?_⟩
    · rw [hmcu]
      exact Nat.zero_le _
    · rw [hmcu, hrecorded, List.drop_nil]
      rfl
    · rw [hacked]
      exact Nat.zero_le _
    · rw [hmcu, hacked]
      rfl
    · rw [hacked, hacks, htaken]
      rfl
    · rw [hacks]
      nofun
    · rw [hrecorded, htaken]
      rfl
    · rw [hcount, htaken]
      rfl
    · rw [hlast, htaken]
      simp
    · rw [hmcu, hrecorded]
      rfl
    · rw [hmessages]
      nofun
    · rw [hmessages]
      exact List.Pairwise.nil
  · cases e with
    | event pins => exact h.event ht
    | task => exact h.task ht
    | lose i => exact h.lose ht
    | message => exact h.message ht
    | ack => exact h.ack ht

/-- The host has taken the reports in the order in which they were recorded, each once. Where the
firmware waits for no acknowledgement, the host has the last of them, and the buttons are as it says
unless a change was missed since. -/
theorem link_of_reachable (h : system.Reachable s) :
    s.taken <+: s.recorded ∧
      (s.mcu.reports = [] →
        s.host.lastButton = s.recorded.getLast?.getD s.host.invert ^^^ s.host.invert ∧
        (s.missed = false → s.host.lastButton = s.mcu.pressed ^^^ s.host.invert)) := by
  have hs := linked_of_reachable h
  refine ⟨hs.taken ▸ List.take_prefix _ _, fun hnil => ?_⟩
  have hlength := hs.length_reports
  have hacked := hs.acked_le_taken
  have htaken := hs.taken_le
  have hall : s.taken = s.recorded := by
    rw [hnil, List.length_nil] at hlength
    rw [hs.taken, List.take_of_length_le (by omega)]
  have hlast : s.host.lastButton = s.recorded.getLast?.getD s.host.invert ^^^ s.host.invert :=
    hall ▸ hs.lastButton
  exact ⟨hlast, fun hmissed => by rw [hlast, hs.pressed hmissed]⟩

/-- Both ends after the query of a button that is not inverted. -/
def queried : ButtonLink :=
  ⟨.query 50 0, ⟨0, 0, 0, [(1, 0)], []⟩, [], [], [], [], 0, false⟩

theorem starts_queried : queried.Starts :=
  ⟨rfl, rfl, rfl, rfl, rfl, rfl, rfl, rfl, rfl⟩

/-- The button is pressed, and the first message is lost. -/
def pressedOnce : List Event :=
  [.event [true], .event [true], .task, .lose 0] ++ List.replicate 51 (.event [true]) ++
    [.task, .message, .ack]

theorem link_of_reachable_pressed :
    ∃ s, system.run queried pressedOnce = some s ∧ s.host.lastButton = 1 ∧
      s.host.called = [(0, 1)] := by
  have hrun : (system.run queried pressedOnce).map (fun s =>
      decide (s.mcu.reports = [] ∧ s.missed = false ∧ s.mcu.pressed = 1 ∧ s.host.invert = 0 ∧
        s.host.called = [(0, 1)])) = some true := by decide +kernel
  obtain ⟨s, hs, heq⟩ := Option.map_eq_some_iff.1 hrun
  obtain ⟨hreports, hmissed, hpressed, hinvert, hcalled⟩ := of_decide_eq_true heq
  have hreach : system.Reachable s := System.Reachable.run (.init starts_queried) hs
  have hlast := ((link_of_reachable hreach).2 hreports).2 hmissed
  rw [hpressed, hinvert] at hlast
  exact ⟨s, hs, hlast, hcalled⟩

/-- The button changes nine times before the task runs, and stays pressed. -/
def pressedNine : List Event :=
  (List.range 9).flatMap (fun i => [.event [i % 2 == 0], .event [i % 2 == 0]]) ++
    [.task, .message, .ack]

/-- The ninth change is not recorded, and the host never hears of it. -/
theorem not_pressed_lastButton :
    ∃ s, system.Reachable s ∧ s.mcu.reports = [] ∧ s.messages = [] ∧ s.acks = [] ∧
      s.host.lastButton ≠ s.mcu.pressed ^^^ s.host.invert := by
  have hrun : (system.run queried pressedNine).map (fun s =>
      decide (s.mcu.reports = [] ∧ s.messages = [] ∧ s.acks = [] ∧
        s.host.lastButton ≠ s.mcu.pressed ^^^ s.host.invert)) = some true := by decide +kernel
  obtain ⟨s, hs, heq⟩ := Option.map_eq_some_iff.1 hrun
  exact ⟨s, System.Reachable.run (.init starts_queried) hs, of_decide_eq_true heq⟩

end ButtonLink

end Thinker
