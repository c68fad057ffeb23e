import Thinker.OutputPins

/-!
# The watchdog of output pins

While an output is not steadily at its default value, its timer is scheduled, and it loads the
next update or shuts the micro-controller down within `max_duration` ticks of the last load.

The timers of the code are 32 bit readings. The invariants (`DigitalOut.On`, `PwmOut.On`) hold
the clocks in full that stand for them : `w` when the timer is due, `e` the end of the present
setting, and those of the updates that are still to be loaded. They are all within half of the
clock's range from now, so `timer_is_before` compares them (`timerIsBefore_word`).
-/

namespace Thinker

/-! ## Readings of the clock -/

theorem word_add (a : ℕ) (d : BitVec 32) : word a + d = word (a + d.toNat) := by
  unfold word
  bv_omega

/-- Within half of the clock's range from a base the readings are compared as the clocks. -/
theorem timerIsBefore_word {base a b : ℕ} (ha : base ≤ a) (ha' : a < base + 2 ^ 31)
    (hb : base ≤ b) (hb' : b < base + 2 ^ 31) :
    timerIsBefore (word a) (word b) = true ↔ a < b := by
  rw [timerIsBefore_iff]
  unfold ticks word
  rw [BitVec.toNat_sub, BitVec.toNat_ofNat, BitVec.toNat_ofNat]
  omega

theorem word_inj {base a b : ℕ} (ha : base ≤ a) (ha' : a < base + 2 ^ 31)
    (hb : base ≤ b) (hb' : b < base + 2 ^ 31) : word a = word b ↔ a = b := by
  constructor
  · intro h
    have := congrArg BitVec.toNat h
    unfold word at this
    rw [BitVec.toNat_ofNat, BitVec.toNat_ofNat] at this
    omega
  · rintro rfl
    rfl

/-! ## Updates in their order -/

/-- The updates that were queued have been loaded in their order, each at its clock, up to
those of `pend`, which are still in the queue. -/
structure Updates {α β : Type*} (moveOf : ℕ × α → β) (now : ℕ) (queued : List (ℕ × α))
    (loads : List (ℕ × β)) (mq : List β) (pend : List (ℕ × α)) : Prop where
  loaded : ∃ done, queued = done ++ pend ∧ loads = done.map fun p => (p.1, moveOf p)
  mq_eq : mq = pend.map moveOf
  sorted : pend.Pairwise fun p q => p.1 ≤ q.1
  ahead : ∀ p ∈ pend, now ≤ p.1 ∧ p.1 < now + 2 ^ 31

namespace Updates

variable {α β : Type*} {moveOf : ℕ × α → β} {now : ℕ} {queued : List (ℕ × α)}
  {loads : List (ℕ × β)} {mq : List β} {p : ℕ × α} {pend : List (ℕ × α)}

theorem nil (now : ℕ) : Updates moveOf now [] [] [] [] :=
  ⟨⟨[], rfl, rfl⟩, rfl, List.Pairwise.nil, fun p hp => (by cases hp)⟩

/-- The first update has the earliest clock. -/
theorem head_le (h : Updates moveOf now queued loads mq pend) (hp : p ∈ pend.head?) :
    ∀ q ∈ pend, p.1 ≤ q.1 := by
  obtain ⟨l, rfl⟩ := List.head?_eq_some_iff.1 hp
  intro q hq
  rcases List.mem_cons.1 hq with rfl | hq
  · exact le_rfl
  · exact (List.pairwise_cons.1 h.sorted).1 q hq

/-- The last of the updates has the latest clock. -/
theorem le_getLast {l : List (ℕ × α)} (h : l.Pairwise fun p q => p.1 ≤ q.1) {q : ℕ × α}
    (hq : q ∈ l.getLast?) : ∀ p ∈ l, p.1 ≤ q.1 := by
  obtain ⟨l', rfl⟩ := List.getLast?_eq_some_iff.1 hq
  intro p hp
  rcases List.mem_append.1 hp with hp | hp
  · exact (List.pairwise_append.1 h).2.2 p hp q (List.mem_singleton_self q)
  · rw [List.mem_singleton.1 hp]

theorem append (h : Updates moveOf now queued loads mq pend) (hc : OnTime now queued p.1) :
    Updates moveOf now (queued ++ [p]) loads (mq ++ [moveOf p]) (pend ++ [p]) := by
  obtain ⟨hnow, hlt, hlast⟩ := hc
  obtain ⟨done, hqueued, hloads⟩ := h.loaded
  refine ⟨⟨done, ?_, hloads⟩, ?_, ?_, fun q hq => ?_⟩
  · rw [hqueued, List.append_assoc]
  · rw [h.mq_eq, List.map_append]
    rfl
  · refine List.pairwise_append.2 ⟨h.sorted, List.pairwise_singleton _ _, fun q hq r hr => ?_⟩
    rw [List.mem_singleton.1 hr]
    obtain ⟨l, hl⟩ := Option.isSome_iff_exists.1
      (List.getLast?_isSome.2 (List.ne_nil_of_mem hq))
    refine (le_getLast h.sorted hl q hq).trans (hlast l ?_)
    rw [hqueued, List.getLast?_append, hl]
    rfl
  · rcases List.mem_append.1 hq with hq | hq
    · exact h.ahead q hq
    · rw [List.mem_singleton.1 hq]
      exact ⟨hnow, hlt⟩

/-- The first update is loaded at its clock. -/
theorem pop (h : Updates moveOf now queued loads mq (p :: pend)) (hnow : now = p.1) :
    Updates moveOf now queued (loads ++ [(now, moveOf p)]) (pend.map moveOf) pend := by
  obtain ⟨done, hqueued, hloads⟩ := h.loaded
  refine ⟨⟨done ++ [p], ?_, ?_⟩, rfl, (List.pairwise_cons.1 h.sorted).2,
    fun q hq => h.ahead q (List.mem_cons_of_mem p hq)⟩
  · rw [hqueued, List.append_assoc]
    rfl
  · rw [hloads, hnow, List.map_append]
    rfl

/-- The clock goes on, up to the first update. -/
theorem tick (h : Updates moveOf now queued loads mq pend)
    (hlt : ∀ q ∈ pend.head?, now < q.1) : Updates moveOf (now + 1) queued loads mq pend := by
  refine ⟨h.loaded, h.mq_eq, h.sorted, fun q hq => ?_⟩
  obtain ⟨r, l, rfl⟩ := List.exists_cons_of_ne_nil (List.ne_nil_of_mem hq)
  have := hlt r rfl
  have := h.head_le (p := r) rfl q hq
  have := h.ahead q hq
  omega

end Updates

/-! ## Digital pins -/

namespace DigitalOut

/-- The update that a command queues. -/
def moveOf (p : ℕ × BitVec 32) : DigitalMove :=
  ⟨word p.1, p.2⟩

/-- The updates that are still to be loaded. -/
structure Queue (s : DigitalOut) (pend : List (ℕ × BitVec 32)) : Prop where
  up : s.isShutdown = false
  max_pos : 0 < s.maxDuration.toNat
  max_lt : s.maxDuration.toNat < 2 ^ 31
  cycle_lt : s.cycleTime.toNat < 2 ^ 31
  updates : Updates moveOf s.now s.queued s.loads s.mq pend
  lastLoad : s.lastLoad ≤ s.now

theorem Queue.congr {s t : DigitalOut} {pend : List (ℕ × BitVec 32)} (h : s.Queue pend)
    (h1 : t.isShutdown = s.isShutdown) (h2 : t.maxDuration = s.maxDuration)
    (h3 : t.cycleTime = s.cycleTime) (h4 : t.queued = s.queued) (h5 : t.loads = s.loads)
    (h6 : t.mq = s.mq) (h7 : t.now = s.now) (h8 : t.lastLoad = s.lastLoad) : t.Queue pend := by
  refine ⟨h1.trans h.up, h2 ▸ h.max_pos, h2 ▸ h.max_lt, h3 ▸ h.cycle_lt, ?_, ?_⟩
  · rw [h4, h5, h6, h7]
    exact h.updates
  · rw [h7, h8]
    exact h.lastLoad

/-- The timer, which is due at `w`, ends the present setting at `e`. -/
structure Timer (s : DigitalOut) (w e : ℕ) : Prop where
  waketime : s.waketime = word w
  endTime : s.endTime = word e
  now_le : s.now ≤ w
  le_end : w ≤ e
  end_lt : e < s.now + 2 ^ 31
  load : s.func = .load → w = e
  toggle : s.func = .toggle → s.dfToggling = true ∧ w < e ∧ s.onDuration.toNat < 2 ^ 31 ∧
    s.offDuration.toNat < 2 ^ 31

/-- What holds until the micro-controller is shut down. -/
structure On (s : DigitalOut) (pend : List (ℕ × BitVec 32)) (w e : ℕ) : Prop where
  queue : s.Queue pend
  pin : s.pin = s.dfOn
  active : s.active = s.dfCheckEnd
  timer : s.dfCheckEnd = true → s.Timer w e
  end_pending : ∀ p ∈ pend.head?, s.dfCheckEnd = true ∧ e = p.1
  end_idle : pend = [] → s.dfCheckEnd = true → e = s.lastLoad + s.maxDuration.toNat
  watch : ¬s.SteadyDefault → s.dfCheckEnd = true ∧ e ≤ s.lastLoad + s.maxDuration.toNat

variable {s : DigitalOut} {pend : List (ℕ × BitVec 32)} {w e : ℕ}

/-- A timer that is due is due now. -/
theorem On.due (h : s.On pend w e) (hdue : s.Due) : s.dfCheckEnd = true ∧ s.now = w := by
  obtain ⟨hactive, hwake⟩ := hdue
  have hcheck : s.dfCheckEnd = true := h.active ▸ hactive
  have ht := h.timer hcheck
  have hle := ht.le_end
  have hlt := ht.end_lt
  rw [ht.waketime] at hwake
  exact ⟨hcheck, ((word_inj ht.now_le (by omega) le_rfl (by omega)).1 hwake).symm⟩

theorem On.tick (h : s.On pend w e) (hdue : ¬s.Due) :
    On { s with now := s.now + 1 } pend w e := by
  have hw : s.dfCheckEnd = true → s.now < w := by
    intro hcheck
    have ht := h.timer hcheck
    refine lt_of_le_of_ne ht.now_le ?_
    rintro rfl
    exact hdue ⟨h.active ▸ hcheck, ht.waketime⟩
  have hhead : ∀ p ∈ pend.head?, s.now < p.1 := by
    intro p hp
    obtain ⟨hcheck, heq⟩ := h.end_pending p hp
    rw [← heq]
    exact (hw hcheck).trans_le (h.timer hcheck).le_end
  refine ⟨⟨h.queue.up, h.queue.max_pos, h.queue.max_lt, h.queue.cycle_lt,
    h.queue.updates.tick hhead, h.queue.lastLoad.trans (Nat.le_succ _)⟩, h.pin, h.active,
    fun hcheck => ?_, h.end_pending, h.end_idle, h.watch⟩
  have ht := h.timer hcheck
  have hlt := ht.end_lt
  refine ⟨ht.waketime, ht.endTime, hw hcheck, ht.le_end, ?_, ht.load, ht.toggle⟩
  show e < s.now + 1 + 2 ^ 31
  omega

theorem On.toggle (h : s.On pend w e) (hdue : s.Due) (hfunc : s.func = .toggle) :
    ∃ w', On s.digitalToggleEvent pend w' e := by
  obtain ⟨hcheck, hnow⟩ := h.due hdue
  have ht := h.timer hcheck
  have hend := ht.end_lt
  obtain ⟨htog, hlt, hon, hoff⟩ := ht.toggle hfunc
  have hsteady : ¬s.SteadyDefault := fun h => absurd (htog.symm.trans h.1) (by decide)
  -- the distance to the next event
  obtain ⟨d, hd, hwake⟩ : ∃ d : BitVec 32, d.toNat < 2 ^ 31 ∧
      (if (!s.dfOn) = true then s.onDuration else s.offDuration) = d := by
    split_ifs
    · exact ⟨_, hon, rfl⟩
    · exact ⟨_, hoff, rfl⟩
  have hbefore := timerIsBefore_word (show s.now ≤ w + d.toNat by omega) (by omega)
    (show s.now ≤ e by omega) hend
  have hqueue : Queue s.digitalToggleEvent pend := h.queue.congr rfl rfl rfl rfl rfl rfl rfl rfl
  have hpin : (!s.pin) = !s.dfOn := by rw [h.pin]
  cases hends : timerIsBefore (word (w + d.toNat)) (word e) with
  | false =>
    refine ⟨e, hqueue, hpin, h.active, fun _ => ?_, h.end_pending, h.end_idle, fun _ =>
      h.watch hsteady⟩
    have hle : e ≤ w + d.toNat := by
      rw [hends] at hbefore
      simpa using hbefore
    refine ⟨?_, ht.endTime, by show s.now ≤ e; omega, le_rfl, hend, fun _ => rfl, fun hf => ?_⟩
    · unfold digitalToggleEvent
      simp only [hwake, ht.waketime, word_add, ht.endTime, hends, hcheck]
      rfl
    · unfold digitalToggleEvent at hf
      simp only [hwake, ht.waketime, word_add, ht.endTime, hends, hcheck] at hf
      cases hf
  | true =>
    refine ⟨w + d.toNat, hqueue, hpin, h.active, fun _ => ?_, h.end_pending, h.end_idle, fun _ =>
      h.watch hsteady⟩
    have hlt' := hbefore.1 hends
    refine ⟨?_, ht.endTime, by show s.now ≤ w + d.toNat; omega, hlt'.le, hend, fun hf => ?_,
      fun _ => ⟨htog, hlt', hon, hoff⟩⟩
    · unfold digitalToggleEvent
      simp only [hwake, ht.waketime, word_add, ht.endTime, hends, hcheck]
      rfl
    · unfold digitalToggleEvent at hf
      simp only [hwake, ht.waketime, word_add, ht.endTime, hends, hcheck, hfunc] at hf
      cases hf

/-- A new setting that ends at `e`. -/
theorem Queue.scheduleNext (h : s.Queue pend) (hactive : s.active = true)
    (hfunc : s.func = .load) (hwake : s.waketime = word s.now)
    {onDuration endTime : BitVec 32} {dfOn dfToggling dfCheckEnd : Bool} (hpin : s.pin = dfOn)
    (htog : dfToggling = true → dfCheckEnd = true ∧ onDuration < s.cycleTime)
    (hend : dfCheckEnd = true → endTime = word e ∧ s.now ≤ e ∧ e < s.now + 2 ^ 31)
    (hpend : ∀ p ∈ pend.head?, dfCheckEnd = true ∧ e = p.1)
    (hidle : pend = [] → dfCheckEnd = true → e = s.lastLoad + s.maxDuration.toNat)
    (hwatch : ¬(dfToggling = false ∧ dfOn = s.dfDefaultOn) →
      dfCheckEnd = true ∧ e ≤ s.lastLoad + s.maxDuration.toNat) :
    ∃ w, On (s.scheduleNext onDuration endTime dfOn dfToggling dfCheckEnd) pend w e := by
  unfold DigitalOut.scheduleNext
  cases htoggling : dfToggling with
  | false =>
    rw [htoggling] at hwatch
    cases hcheck : dfCheckEnd with
    | false =>
      rw [hcheck] at hpend hwatch
      refine ⟨e, h.congr rfl rfl rfl rfl rfl rfl rfl rfl, hpin, rfl, fun hf => (by cases hf),
        hpend, fun _ hf => (by cases hf), fun hs => ?_⟩
      exact absurd (hwatch fun ⟨_, hdef⟩ => hs ⟨rfl, hpin.trans hdef⟩).1 Bool.false_ne_true
    | true =>
      obtain ⟨hendTime, hle, hlt⟩ := hend hcheck
      rw [hcheck] at hpend hidle hwatch
      refine ⟨e, h.congr rfl rfl rfl rfl rfl rfl rfl rfl, hpin, hactive, fun _ => ?_, hpend,
        hidle, fun hs => hwatch fun ⟨_, hdef⟩ => hs ⟨rfl, hpin.trans hdef⟩⟩
      exact ⟨hendTime, hendTime, hle, le_rfl, hlt, fun _ => rfl,
        fun hf => (by cases hfunc.symm.trans hf)⟩
  | true =>
    obtain ⟨hcheck, hcycle⟩ := htog htoggling
    obtain ⟨hendTime, hle, hlt⟩ := hend hcheck
    rw [hcheck] at hpend hidle hwatch
    rw [htoggling] at hwatch
    have hcycle := BitVec.lt_def.1 hcycle
    have hon : onDuration.toNat < 2 ^ 31 := hcycle.trans h.cycle_lt
    have hwatch := hwatch fun ⟨hf, _⟩ => (by cases hf)
    have hbefore := timerIsBefore_word (Nat.le_add_right s.now onDuration.toNat)
      (by omega) hle hlt
    dsimp only
    rw [hcheck, hwake, word_add, hendTime]
    simp only [Bool.not_true, Bool.false_eq_true, if_false, Bool.true_and, Bool.not_eq_eq_eq_not]
    cases hends : timerIsBefore (word (s.now + onDuration.toNat)) (word e) with
    | false =>
      simp only [if_true]
      refine ⟨e, h.congr rfl rfl rfl rfl rfl rfl rfl rfl, hpin, hactive, fun _ => ?_, hpend,
        hidle, fun _ => hwatch⟩
      exact ⟨rfl, rfl, hle, le_rfl, hlt, fun _ => rfl, fun hf => (by cases hfunc.symm.trans hf)⟩
    | true =>
      have hlt' := hbefore.1 hends
      refine ⟨s.now + onDuration.toNat, h.congr rfl rfl rfl rfl rfl rfl rfl rfl, hpin, hactive,
        fun _ => ?_, hpend, hidle, fun _ => hwatch⟩
      refine ⟨rfl, rfl, Nat.le_add_right _ _, hlt'.le, hlt, fun hf => (by cases hf),
        fun _ => ⟨rfl, hlt', hon, ?_⟩⟩
      show (s.cycleTime - onDuration).toNat < 2 ^ 31
      have := h.cycle_lt
      rw [BitVec.toNat_sub_of_le (BitVec.le_def.2 hcycle.le)]
      omega

/-- The next update is loaded at its clock, or there is none. -/
theorem On.load (h : s.On pend w e) (hdue : s.Due) (hfunc : s.func = .load) :
    (pend = [] ∧ s.digitalLoadEvent = s.shutdown) ∨
    ∃ p ps, pend = p :: ps ∧ ∃ t : DigitalOut, t.Queue ps ∧
      (s.digitalLoadEvent = t.shutdown ∨ ∃ w' e', On s.digitalLoadEvent ps w' e') := by
  obtain ⟨hcheck, hnow⟩ := h.due hdue
  have ht := h.timer hcheck
  cases pend with
  | nil =>
    left
    refine ⟨rfl, ?_⟩
    unfold digitalLoadEvent
    rw [h.queue.updates.mq_eq]
    rfl
  | cons p ps =>
    right
    obtain ⟨-, hp⟩ := h.end_pending p rfl
    have hclock : s.now = p.1 := by rw [hnow, ht.load hfunc, hp]
    -- the state in which the update has just been taken off the queue
    let t : DigitalOut := { s with
      mq := ps.map moveOf
      pin := decide (p.2 ≠ 0)
      loads := s.loads ++ [(s.now, moveOf p)]
      lastLoad := s.now }
    have htq : t.Queue ps := ⟨h.queue.up, h.queue.max_pos, h.queue.max_lt, h.queue.cycle_lt,
      h.queue.updates.pop hclock, le_rfl⟩
    refine ⟨p, ps, rfl, t, htq, ?_⟩
    have hwake : t.waketime = word t.now := by
      show s.waketime = word s.now
      rw [ht.waketime, hnow]
    have hmax := h.queue.max_pos
    have hmaxlt := h.queue.max_lt
    have hmax0 : s.maxDuration ≠ 0 := by
      intro h0
      rw [h0] at hmax
      exact absurd hmax (by decide)
    -- whether the setting is to be watched
    obtain ⟨steady, hsteady⟩ : ∃ b, (!decide (p.2 ≠ 0) || decide (s.cycleTime ≤ p.2)) = b :=
      ⟨_, rfl⟩
    obtain ⟨watched, hwatched⟩ : ∃ b, ((if steady = true then
        decide (p.2 ≠ 0) != s.dfDefaultOn else true) && decide (s.maxDuration ≠ 0)) = b := ⟨_, rfl⟩
    have hwatch : ¬((!steady) = false ∧ decide (p.2 ≠ 0) = s.dfDefaultOn) → watched = true := by
      intro hne
      rw [← hwatched, decide_eq_true hmax0, Bool.and_true]
      split_ifs with hs
      · rw [bne_iff_ne]
        exact fun heq => hne ⟨by rw [hs]; rfl, heq⟩
      · rfl
    have htog : (!steady) = true → watched = true ∧ p.2 < s.cycleTime := by
      intro hs
      refine ⟨hwatch fun ⟨hf, _⟩ => absurd (hs.symm.trans hf) (by decide), ?_⟩
      rw [Bool.not_eq_true', ← hsteady, Bool.or_eq_false_iff, decide_eq_false_iff_not] at hs
      exact BitVec.not_le.1 hs.2
    have hend : s.waketime + s.maxDuration = word (s.now + s.maxDuration.toNat) := by
      rw [ht.waketime, ← hnow, word_add]
    unfold digitalLoadEvent
    rw [h.queue.updates.mq_eq, List.map_cons]
    dsimp only
    rw [show (moveOf p).onDuration = p.2 from rfl, hsteady, hwatched, hend]
    cases ps with
    | nil =>
      right
      obtain ⟨w', hon⟩ := htq.scheduleNext (e := s.now + s.maxDuration.toNat)
        (h.active.trans hcheck) hfunc hwake
        rfl htog
        (fun hw => ⟨if_pos hw, Nat.le_add_right _ _, Nat.add_lt_add_left hmaxlt _⟩)
        (fun q hq => by cases hq) (fun _ _ => rfl) (fun hne => ⟨hwatch hne, le_rfl⟩)
      exact ⟨w', _, hon⟩
    | cons q qs =>
      obtain ⟨hle, hlt⟩ := h.queue.updates.ahead q (List.mem_cons_of_mem p List.mem_cons_self)
      have hbefore := timerIsBefore_word (Nat.le_add_right s.now s.maxDuration.toNat)
        (Nat.add_lt_add_left hmaxlt _) hle hlt
      have hcond : (watched && timerIsBefore
          (if watched = true then word (s.now + s.maxDuration.toNat) else 0)
          (moveOf q).waketime) = true ↔ watched = true ∧ s.now + s.maxDuration.toNat < q.1 := by
        cases watched
        · simp
        · rw [show (moveOf q).waketime = word q.1 from rfl]
          simpa using hbefore
      rw [List.map_cons]
      dsimp only
      by_cases hexceeds : watched = true ∧ s.now + s.maxDuration.toNat < q.1
      · rw [if_pos (hcond.2 hexceeds)]
        exact Or.inl rfl
      · rw [if_neg (mt hcond.1 hexceeds)]
        right
        have hqmax : ¬((!steady) = false ∧ decide (p.2 ≠ 0) = s.dfDefaultOn) →
            true = true ∧ q.1 ≤ s.now + s.maxDuration.toNat := by
          intro hne
          refine ⟨rfl, ?_⟩
          by_contra hgt
          exact hexceeds ⟨hwatch hne, not_le.1 hgt⟩
        obtain ⟨w', hon⟩ := htq.scheduleNext (e := q.1) (h.active.trans hcheck) hfunc hwake
          rfl (fun hs => ⟨rfl, (htog hs).2⟩) (fun _ => ⟨rfl, hle, hlt⟩)
          (fun q' hq => ⟨rfl, by rw [← Option.some_inj.1 hq]⟩) (fun hnil => by cases hnil) hqmax
        exact ⟨w', _, hon⟩

theorem On.commandQueue (h : s.On pend w e) {clock : ℕ} (onTicks : BitVec 32)
    (hc : OnTime s.now s.queued clock) :
    ∃ t : DigitalOut, t.Queue (pend ++ [(clock, onTicks)]) ∧
      (s.commandQueueDigitalOut clock onTicks = t.shutdown ∨
        ∃ w' e', On (s.commandQueueDigitalOut clock onTicks) (pend ++ [(clock, onTicks)])
          w' e') := by
  let t : DigitalOut := { s with
    mq := s.mq ++ [⟨word clock, onTicks⟩]
    queued := s.queued ++ [(clock, onTicks)] }
  have htq : t.Queue (pend ++ [(clock, onTicks)]) :=
    ⟨h.queue.up, h.queue.max_pos, h.queue.max_lt, h.queue.cycle_lt,
      h.queue.updates.append (p := (clock, onTicks)) hc, h.queue.lastLoad⟩
  refine ⟨t, htq, ?_⟩
  unfold commandQueueDigitalOut
  dsimp only
  cases hpend : pend with
  | cons p ps =>
    have hmq : s.mq.isEmpty = false := by
      rw [h.queue.updates.mq_eq, hpend]
      rfl
    rw [hmq, Bool.not_false, if_pos rfl, ← hpend]
    right
    refine ⟨w, e, htq, h.pin, h.active, fun hcheck => ?_, fun q hq => h.end_pending q ?_,
      fun hnil => ?_, h.watch⟩
    · have ht := h.timer hcheck
      exact ⟨ht.waketime, ht.endTime, ht.now_le, ht.le_end, ht.end_lt, ht.load, ht.toggle⟩
    · rw [hpend] at hq ⊢
      exact hq
    · exact absurd hnil (by simp)
  | nil =>
    have hmq : s.mq = [] := by
      rw [h.queue.updates.mq_eq, hpend]
      rfl
    rw [hpend] at htq
    obtain ⟨hnow, hlt, -⟩ := hc
    have hempty : s.mq.isEmpty = true := by
      rw [hmq]
      rfl
    rw [hempty, Bool.not_true, if_neg Bool.false_ne_true]
    by_cases hexceeds : (s.dfCheckEnd && timerIsBefore s.endTime (word clock)) = true
    · rw [if_pos hexceeds]
      exact Or.inl rfl
    rw [if_neg hexceeds]
    right
    -- the new clock is within the present setting
    have hle : s.dfCheckEnd = true → clock ≤ e := by
      intro hcheck
      have ht := h.timer hcheck
      have hnow_le := ht.now_le
      have hle_end := ht.le_end
      by_contra hgt
      refine hexceeds ?_
      rw [hcheck, ht.endTime]
      exact (timerIsBefore_word (hnow_le.trans hle_end) ht.end_lt hnow hlt).2 (by omega)
    have hwatch : ¬s.SteadyDefault → true = true ∧ clock ≤ s.lastLoad + s.maxDuration.toNat := by
      intro hs
      obtain ⟨hcheck, hmax⟩ := h.watch hs
      exact ⟨rfl, (hle hcheck).trans hmax⟩
    have hhead : ∀ p ∈ ([] ++ [(clock, onTicks)]).head?, true = true ∧ clock = p.1 := by
      intro p hp
      rw [← Option.some_inj.1 hp]
      exact ⟨rfl, rfl⟩
    by_cases htoggles : (s.dfToggling && timerIsBefore s.waketime (word clock)) = true
    · rw [if_pos htoggles]
      obtain ⟨htog, hbefore⟩ := Bool.and_eq_true_iff.1 htoggles
      have hcheck := (h.watch fun hs => absurd (htog.symm.trans hs.1) (by decide)).1
      have ht := h.timer hcheck
      have hle_end := ht.le_end
      have hend_lt := ht.end_lt
      rw [ht.waketime, timerIsBefore_word ht.now_le (by omega) hnow hlt] at hbefore
      refine ⟨w, clock, htq.congr rfl rfl rfl rfl rfl rfl rfl rfl, h.pin, h.active.trans hcheck,
        fun _ => ?_, hhead, fun hnil => absurd hnil (by simp), hwatch⟩
      refine ⟨ht.waketime, rfl, ht.now_le, hbefore.le, hlt, fun hf => ?_, fun hf => ?_⟩
      · have := ht.load hf
        have := hle hcheck
        omega
      · obtain ⟨-, -, hon, hoff⟩ := ht.toggle hf
        exact ⟨htog, hbefore, hon, hoff⟩
    · rw [if_neg htoggles]
      refine ⟨clock, clock, htq.congr rfl rfl rfl rfl rfl rfl rfl rfl, h.pin, rfl, fun _ => ?_,
        hhead, fun hnil => absurd hnil (by simp), hwatch⟩
      exact ⟨rfl, rfl, hnow, le_rfl, hlt, fun _ => rfl, fun hf => (by cases hf)⟩

theorem On.commandUpdate (h : s.On pend w e) (value : BitVec 8) :
    s.commandUpdateDigitalOut value = s.shutdown ∨
      ∃ w' e', On (s.commandUpdateDigitalOut value) pend w' e' := by
  unfold commandUpdateDigitalOut
  dsimp only
  cases hpend : pend with
  | cons p ps =>
    have hmq : s.mq.isEmpty = false := by
      rw [h.queue.updates.mq_eq, hpend]
      rfl
    rw [hmq, Bool.not_false, if_pos rfl]
    exact Or.inl rfl
  | nil =>
    have hmq : s.mq.isEmpty = true := by
      rw [h.queue.updates.mq_eq, hpend]
      rfl
    have hqueue := h.queue
    rw [hpend] at hqueue
    have hmax0 : s.maxDuration ≠ 0 := by
      intro h0
      have hmax := h.queue.max_pos
      rw [h0] at hmax
      exact absurd hmax (by decide)
    rw [hmq, Bool.not_true, if_neg Bool.false_ne_true, decide_eq_true hmax0, Bool.and_true]
    right
    have hq : ∀ t : DigitalOut, t.isShutdown = s.isShutdown → t.maxDuration = s.maxDuration →
        t.cycleTime = s.cycleTime → t.queued = s.queued → t.loads = s.loads → t.mq = s.mq →
        t.now = s.now → t.lastLoad = s.now → Queue t [] := by
      intro t h1 h2 h3 h4 h5 h6 h7 h8
      have := Queue.congr (t := { t with lastLoad := s.lastLoad }) hqueue h1 h2 h3 h4 h5 h6 h7 rfl
      exact ⟨this.up, this.max_pos, this.max_lt, this.cycle_lt, this.updates, (h8.trans h7.symm).le⟩
    by_cases hdef : (decide (value ≠ 0) != s.dfDefaultOn) = true
    · rw [if_pos hdef]
      refine ⟨s.now + s.maxDuration.toNat, s.now + s.maxDuration.toNat,
        hq _ rfl rfl rfl rfl rfl rfl rfl rfl, rfl, rfl, fun _ => ?_, fun p hp => (by cases hp),
        fun _ _ => rfl, fun _ => ⟨rfl, le_rfl⟩⟩
      exact ⟨word_add _ _, word_add _ _, Nat.le_add_right _ _, le_rfl,
        Nat.add_lt_add_left h.queue.max_lt _, fun _ => rfl, fun hf => (by cases hf)⟩
    · rw [if_neg hdef]
      refine ⟨w, e, hq _ rfl rfl rfl rfl rfl rfl rfl rfl, rfl, rfl, fun hf => (by cases hf),
        fun p hp => (by cases hp), fun _ hf => (by cases hf), fun hs => ?_⟩
      exact absurd ⟨rfl, not_not.1 (mt bne_iff_ne.2 hdef)⟩ hs

/-- What holds in every state. -/
def Inv (s : DigitalOut) : Prop :=
  (∃ pend w e, s.On pend w e) ∨ ∃ t : DigitalOut, (∃ pend, t.Queue pend) ∧
    { s with now := t.now } = t.shutdown

theorem Inv.next (h : s.Inv) {maxDuration cycleTime : BitVec 32} {a : DigitalEvent}
    {t : DigitalOut} (ht : (digitalOut maxDuration cycleTime).next s a = some t) : t.Inv := by
  rcases h with ⟨pend, w, e, h⟩ | ⟨u, ⟨pend, hqueue⟩, hu⟩
  · cases a with
    | tick =>
      obtain ⟨hdue, ht⟩ := Option.ite_none_left_eq_some.1 ht
      obtain rfl := Option.some_inj.1 ht
      exact Or.inl ⟨pend, w, e, h.tick hdue⟩
    | dispatch =>
      obtain ⟨hdue, ht⟩ := Option.ite_none_right_eq_some.1 ht
      obtain rfl := Option.some_inj.1 ht
      unfold DigitalOut.dispatch
      cases hfunc : s.func with
      | toggle =>
        obtain ⟨w', hon⟩ := h.toggle hdue hfunc
        exact Or.inl ⟨pend, w', e, hon⟩
      | load =>
        obtain ⟨-, heq⟩ | ⟨p, ps, -, u, hqueue, heq | ⟨w', e', hon⟩⟩ := h.load hdue hfunc
        · exact Or.inr ⟨s, ⟨pend, h.queue⟩, by rw [heq]; rfl⟩
        · exact Or.inr ⟨u, ⟨ps, hqueue⟩, by rw [heq]; rfl⟩
        · exact Or.inl ⟨ps, w', e', hon⟩
    | queue clock onTicks =>
      obtain ⟨⟨-, hc⟩, ht⟩ := Option.ite_none_right_eq_some.1 ht
      obtain rfl := Option.some_inj.1 ht
      obtain ⟨u, hqueue, heq | ⟨w', e', hon⟩⟩ := h.commandQueue onTicks hc
      · exact Or.inr ⟨u, ⟨_, hqueue⟩, by rw [heq]; rfl⟩
      · exact Or.inl ⟨_, w', e', hon⟩
    | update value =>
      obtain ⟨-, ht⟩ := Option.ite_none_right_eq_some.1 ht
      obtain rfl := Option.some_inj.1 ht
      obtain heq | ⟨w', e', hon⟩ := h.commandUpdate value
      · exact Or.inr ⟨s, ⟨pend, h.queue⟩, by rw [heq]; rfl⟩
      · exact Or.inl ⟨pend, w', e', hon⟩
    | shutdown =>
      obtain ⟨-, ht⟩ := Option.ite_none_right_eq_some.1 ht
      obtain rfl := Option.some_inj.1 ht
      exact Or.inr ⟨s, ⟨pend, h.queue⟩, rfl⟩
  · -- after a shutdown only the clock goes on
    have hshut : s.isShutdown = true := congrArg DigitalOut.isShutdown hu
    have hactive : s.active = false := congrArg DigitalOut.active hu
    cases a with
    | tick =>
      obtain ⟨-, ht⟩ := Option.ite_none_left_eq_some.1 ht
      obtain rfl := Option.some_inj.1 ht
      exact Or.inr ⟨u, ⟨pend, hqueue⟩, hu⟩
    | dispatch =>
      obtain ⟨⟨hdue, -⟩, -⟩ := Option.ite_none_right_eq_some.1 ht
      exact absurd (hdue.symm.trans hactive) (by decide)
    | queue clock onTicks =>
      obtain ⟨⟨hup, -⟩, -⟩ := Option.ite_none_right_eq_some.1 ht
      exact absurd (hshut.symm.trans hup) (by decide)
    | update value =>
      obtain ⟨hup, -⟩ := Option.ite_none_right_eq_some.1 ht
      exact absurd (hshut.symm.trans hup) (by decide)
    | shutdown =>
      obtain ⟨hup, -⟩ := Option.ite_none_right_eq_some.1 ht
      exact absurd (hshut.symm.trans hup) (by decide)

theorem inv_of_reachable {maxDuration cycleTime : BitVec 32} (hmax : 0 < maxDuration.toNat)
    (hmaxlt : maxDuration.toNat < 2 ^ 31) (hcycle : cycleTime.toNat < 2 ^ 31)
    (h : (digitalOut maxDuration cycleTime).Reachable s) : s.Inv := by
  refine h.invariant ?_ fun s a t hs _ ht => hs.next ht
  rintro s ⟨now, default, rfl⟩
  refine Or.inl ⟨[], now, now, ⟨rfl, hmax, hmaxlt, hcycle, Updates.nil now, le_rfl⟩,
    rfl, rfl, fun hf => (by cases hf),
    fun p hp => (by cases hp), fun _ hf => (by cases hf), fun hs => ?_⟩
  exact absurd ⟨rfl, rfl⟩ hs

/-- While the output is not steadily at its default value, the last load is no longer ago than
`max_duration`, and after a shutdown it is at its default value. The updates are loaded in
their order, each at its clock. -/
structure Watched (s : DigitalOut) : Prop where
  watch : s.isShutdown = false → ¬s.SteadyDefault → s.now ≤ s.lastLoad + s.maxDuration.toNat
  default_of_shutdown : s.isShutdown = true → s.SteadyDefault
  loads : ∃ done pend, s.queued = done ++ pend ∧
    s.loads = done.map (fun p => (p.1, DigitalMove.mk (word p.1) p.2)) ∧
    (s.isShutdown = false → ∀ p ∈ pend, s.now ≤ p.1)

theorem Inv.watched (h : s.Inv) : s.Watched := by
  rcases h with ⟨pend, w, e, h⟩ | ⟨u, ⟨pend, hqueue⟩, hu⟩
  · refine ⟨fun _ hs => ?_, fun hshut => absurd (h.queue.up.symm.trans hshut) (by decide), ?_⟩
    · obtain ⟨hcheck, hle⟩ := h.watch hs
      have ht := h.timer hcheck
      exact (ht.now_le.trans ht.le_end).trans hle
    · obtain ⟨done, hqueued, hloads⟩ := h.queue.updates.loaded
      exact ⟨done, pend, hqueued, hloads, fun _ p hp => (h.queue.updates.ahead p hp).1⟩
  · have hshut : s.isShutdown = true := congrArg DigitalOut.isShutdown hu
    obtain ⟨done, hqueued, hloads⟩ := hqueue.updates.loaded
    refine ⟨fun hup => absurd (hshut.symm.trans hup) (by decide), fun _ => ⟨?_, ?_⟩, done, pend,
      ?_, ?_, fun hup => absurd (hshut.symm.trans hup) (by decide)⟩
    · exact congrArg DigitalOut.dfToggling hu
    · exact (congrArg DigitalOut.pin hu).trans (congrArg DigitalOut.dfDefaultOn hu).symm
    · exact (congrArg DigitalOut.queued hu).trans hqueued
    · exact (congrArg DigitalOut.loads hu).trans hloads

end DigitalOut

/-! ## PWM pins -/

namespace PwmOut

/-- The update that a command queues. -/
def moveOf (p : ℕ × BitVec 16) : PwmMove :=
  ⟨word p.1, p.2⟩

/-- The updates that are still to be loaded. -/
structure Queue (s : PwmOut) (pend : List (ℕ × BitVec 16)) : Prop where
  up : s.isShutdown = false
  max_pos : 0 < s.maxDuration.toNat
  max_lt : s.maxDuration.toNat < 2 ^ 31
  updates : Updates moveOf s.now s.queued s.loads s.mq pend

/-- What holds until the micro-controller is shut down, with the timer due at `w`. -/
structure On (s : PwmOut) (pend : List (ℕ × BitVec 16)) (w : ℕ) : Prop where
  queue : s.Queue pend
  timer : s.active = true → s.waketime = word w ∧ s.now ≤ w ∧ w < s.now + 2 ^ 31
  pending : ∀ p ∈ pend.head?, s.active = true ∧ s.func = .event ∧ w = p.1
  idle : pend = [] → s.active = true →
    s.func = .endEvent ∧ w = s.lastLoad + s.maxDuration.toNat
  ends : s.func = .endEvent → s.active = true
  watch : s.pin ≠ s.defaultValue → s.active = true ∧ w ≤ s.lastLoad + s.maxDuration.toNat

variable {s : PwmOut} {pend : List (ℕ × BitVec 16)} {w : ℕ}

/-- A timer that is due is due now. -/
theorem On.due (h : s.On pend w) (hdue : s.Due) : s.now = w := by
  obtain ⟨hactive, hdue⟩ := hdue
  obtain ⟨hwake, hle, hlt⟩ := h.timer hactive
  rw [hwake] at hdue
  exact ((word_inj hle hlt le_rfl (by omega)).1 hdue).symm

theorem On.tick (h : s.On pend w) (hdue : ¬s.Due) :
    On { s with now := s.now + 1 } pend w := by
  have hw : s.active = true → s.now < w := by
    intro hactive
    obtain ⟨hwake, hle, -⟩ := h.timer hactive
    refine lt_of_le_of_ne hle ?_
    rintro rfl
    exact hdue ⟨hactive, hwake⟩
  have hhead : ∀ p ∈ pend.head?, s.now < p.1 := by
    intro p hp
    obtain ⟨hactive, -, heq⟩ := h.pending p hp
    exact heq ▸ hw hactive
  refine ⟨⟨h.queue.up, h.queue.max_pos, h.queue.max_lt, h.queue.updates.tick hhead⟩,
    fun hactive => ?_, h.pending, h.idle, h.ends, h.watch⟩
  obtain ⟨hwake, -, hlt⟩ := h.timer hactive
  exact ⟨hwake, hw hactive, hlt.trans (Nat.add_lt_add_right (Nat.lt_succ_self _) _)⟩

/-- The first update is loaded at its clock. -/
theorem On.event (h : s.On pend w) (hdue : s.Due) (hfunc : s.func = .event) :
    ∃ p ps, pend = p :: ps ∧ ∃ t : PwmOut, t.Queue ps ∧
      (s.pwmEvent = t.shutdown ∨ ∃ w', On s.pwmEvent ps w') := by
  have hnow := h.due hdue
  obtain ⟨hactive, -⟩ := hdue
  obtain ⟨hwake, -, -⟩ := h.timer hactive
  cases pend with
  | nil => exact absurd (hfunc.symm.trans (h.idle rfl hactive).1) (by decide)
  | cons p ps =>
    obtain ⟨-, -, hp⟩ := h.pending p rfl
    -- the state in which the update has just been taken off the queue
    let t : PwmOut := { s with
      mq := ps.map moveOf
      pin := p.2
      loads := s.loads ++ [(s.now, moveOf p)]
      lastLoad := s.now }
    have hloaded := h.queue.updates.pop (hnow.trans hp)
    have htq : t.Queue ps := ⟨h.queue.up, h.queue.max_pos, h.queue.max_lt, hloaded⟩
    refine ⟨p, ps, rfl, t, htq, ?_⟩
    have hmaxlt := h.queue.max_lt
    have hmax0 : s.maxDuration ≠ 0 := by
      intro h0
      have hmax := h.queue.max_pos
      rw [h0] at hmax
      exact absurd hmax (by decide)
    have hend : s.waketime + s.maxDuration = word (s.now + s.maxDuration.toNat) := by
      rw [hwake, ← hnow, word_add]
    unfold pwmEvent
    rw [h.queue.updates.mq_eq, List.map_cons]
    dsimp only
    rw [show (moveOf p).value = p.2 from rfl, hend]
    cases ps with
    | nil =>
      right
      rw [List.map_nil]
      dsimp only
      by_cases hdef : p.2 = s.defaultValue
      · rw [if_pos (Or.inl hdef)]
        refine ⟨w, ⟨h.queue.up, h.queue.max_pos, h.queue.max_lt, hloaded⟩,
          fun hf => (by cases hf), fun q hq => (by cases hq), fun _ hf => (by cases hf),
          fun hf => ?_, fun hne => absurd hdef hne⟩
        exact absurd (hfunc.symm.trans hf) (by decide)
      · rw [if_neg (not_or.2 ⟨hdef, hmax0⟩)]
        refine ⟨s.now + s.maxDuration.toNat,
          ⟨h.queue.up, h.queue.max_pos, h.queue.max_lt, hloaded⟩, fun _ => ?_,
          fun q hq => (by cases hq), fun _ _ => ⟨rfl, rfl⟩, fun _ => hactive,
          fun _ => ⟨hactive, le_rfl⟩⟩
        exact ⟨rfl, Nat.le_add_right _ _, Nat.add_lt_add_left hmaxlt _⟩
    | cons q qs =>
      obtain ⟨hle, hlt⟩ := h.queue.updates.ahead q (List.mem_cons_of_mem p List.mem_cons_self)
      have hbefore := timerIsBefore_word (Nat.le_add_right s.now s.maxDuration.toNat)
        (Nat.add_lt_add_left hmaxlt _) hle hlt
      rw [List.map_cons]
      dsimp only
      rw [show (moveOf q).waketime = word q.1 from rfl]
      by_cases hexceeds : p.2 ≠ s.defaultValue ∧ s.maxDuration ≠ 0 ∧
          timerIsBefore (word (s.now + s.maxDuration.toNat)) (word q.1) = true
      · rw [if_pos hexceeds]
        exact Or.inl rfl
      · rw [if_neg hexceeds]
        right
        refine ⟨q.1, ⟨h.queue.up, h.queue.max_pos, h.queue.max_lt, hloaded⟩,
          fun _ => ⟨rfl, hle, hlt⟩, fun r hr => ?_, fun hnil => (by cases hnil),
          fun _ => hactive, fun hne => ⟨hactive, ?_⟩⟩
        · rw [← Option.some_inj.1 hr]
          exact ⟨hactive, hfunc, rfl⟩
        · by_contra hgt
          exact hexceeds ⟨hne, hmax0, hbefore.2 (not_le.1 hgt)⟩

theorem On.commandQueue (h : s.On pend w) {clock : ℕ} (value : BitVec 16)
    (hc : OnTime s.now s.queued clock) :
    ∃ t : PwmOut, t.Queue (pend ++ [(clock, value)]) ∧
      (s.commandQueuePwmOut clock value = t.shutdown ∨
        ∃ w', On (s.commandQueuePwmOut clock value) (pend ++ [(clock, value)]) w') := by
  let t : PwmOut := { s with
    mq := s.mq ++ [⟨word clock, value⟩]
    queued := s.queued ++ [(clock, value)] }
  have hupd := h.queue.updates.append (p := (clock, value)) hc
  have htq : t.Queue (pend ++ [(clock, value)]) :=
    ⟨h.queue.up, h.queue.max_pos, h.queue.max_lt, hupd⟩
  refine ⟨t, htq, ?_⟩
  unfold commandQueuePwmOut
  dsimp only
  cases hpend : pend with
  | cons p ps =>
    have hmq : s.mq.isEmpty = false := by
      rw [h.queue.updates.mq_eq, hpend]
      rfl
    rw [hmq, Bool.not_false, if_pos rfl, ← hpend]
    right
    refine ⟨w, htq, h.timer, fun q hq => h.pending q ?_, fun hnil => absurd hnil (by simp),
      h.ends, h.watch⟩
    rw [hpend] at hq ⊢
    exact hq
  | nil =>
    have hmq : s.mq.isEmpty = true := by
      rw [h.queue.updates.mq_eq, hpend]
      rfl
    rw [hpend] at hupd
    obtain ⟨hnow, hlt, -⟩ := hc
    rw [hmq, Bool.not_true, if_neg Bool.false_ne_true]
    by_cases hexceeds : s.func = .endEvent ∧ timerIsBefore s.waketime (word clock) = true
    · rw [if_pos hexceeds]
      exact Or.inl rfl
    rw [if_neg hexceeds]
    right
    refine ⟨clock, ⟨h.queue.up, h.queue.max_pos, h.queue.max_lt, hupd⟩,
      fun _ => ⟨rfl, hnow, hlt⟩, fun p hp => ?_, fun hnil => absurd hnil (by simp),
      fun hf => (by cases hf), fun hne => ⟨rfl, ?_⟩⟩
    · rw [← Option.some_inj.1 hp]
      exact ⟨rfl, rfl, rfl⟩
    · -- the new clock is no later than the end of the present setting
      obtain ⟨hactive, hle⟩ := h.watch hne
      obtain ⟨hwake, hnow', hlt'⟩ := h.timer hactive
      refine le_trans ?_ hle
      by_contra hgt
      refine hexceeds ⟨(h.idle hpend hactive).1, ?_⟩
      rw [hwake]
      exact (timerIsBefore_word hnow' hlt' hnow hlt).2 (not_le.1 hgt)

/-- What holds in every state. -/
def Inv (s : PwmOut) : Prop :=
  (∃ pend w, s.On pend w) ∨ ∃ t : PwmOut, (∃ pend, t.Queue pend) ∧
    { s with now := t.now } = t.shutdown

theorem Inv.next (h : s.Inv) {maxDuration : BitVec 32} {a : PwmEvent} {t : PwmOut}
    (ht : (pwmOut maxDuration).next s a = some t) : t.Inv := by
  rcases h with ⟨pend, w, h⟩ | ⟨u, ⟨pend, hqueue⟩, hu⟩
  · cases a with
    | tick =>
      obtain ⟨hdue, ht⟩ := Option.ite_none_left_eq_some.1 ht
      obtain rfl := Option.some_inj.1 ht
      exact Or.inl ⟨pend, w, h.tick hdue⟩
    | dispatch =>
      obtain ⟨hdue, ht⟩ := Option.ite_none_right_eq_some.1 ht
      obtain rfl := Option.some_inj.1 ht
      unfold PwmOut.dispatch
      cases hfunc : s.func with
      | event =>
        obtain ⟨p, ps, -, u, hqueue, heq | ⟨w', hon⟩⟩ := h.event hdue hfunc
        · exact Or.inr ⟨u, ⟨ps, hqueue⟩, by rw [heq]; rfl⟩
        · exact Or.inl ⟨ps, w', hon⟩
      | endEvent => exact Or.inr ⟨s, ⟨pend, h.queue⟩, rfl⟩
    | queue clock value =>
      obtain ⟨⟨-, hc⟩, ht⟩ := Option.ite_none_right_eq_some.1 ht
      obtain rfl := Option.some_inj.1 ht
      obtain ⟨u, hqueue, heq | ⟨w', hon⟩⟩ := h.commandQueue value hc
      · exact Or.inr ⟨u, ⟨_, hqueue⟩, by rw [heq]; rfl⟩
      · exact Or.inl ⟨_, w', hon⟩
    | shutdown =>
      obtain ⟨-, ht⟩ := Option.ite_none_right_eq_some.1 ht
      obtain rfl := Option.some_inj.1 ht
      exact Or.inr ⟨s, ⟨pend, h.queue⟩, rfl⟩
  · -- after a shutdown only the clock goes on
    have hshut : s.isShutdown = true := congrArg PwmOut.isShutdown hu
    have hactive : s.active = false := congrArg PwmOut.active hu
    cases a with
    | tick =>
      obtain ⟨-, ht⟩ := Option.ite_none_left_eq_some.1 ht
      obtain rfl := Option.some_inj.1 ht
      exact Or.inr ⟨u, ⟨pend, hqueue⟩, hu⟩
    | dispatch =>
      obtain ⟨⟨hdue, -⟩, -⟩ := Option.ite_none_right_eq_some.1 ht
      exact absurd (hdue.symm.trans hactive) (by decide)
    | queue clock value =>
      obtain ⟨⟨hup, -⟩, -⟩ := Option.ite_none_right_eq_some.1 ht
      exact absurd (hshut.symm.trans hup) (by decide)
    | shutdown =>
      obtain ⟨hup, -⟩ := Option.ite_none_right_eq_some.1 ht
      exact absurd (hshut.symm.trans hup) (by decide)

theorem inv_of_reachable {maxDuration : BitVec 32} (hmax : 0 < maxDuration.toNat)
    (hmaxlt : maxDuration.toNat < 2 ^ 31) (h : (pwmOut maxDuration).Reachable s) : s.Inv := by
  refine h.invariant ?_ fun s a t hs _ ht => hs.next ht
  rintro s ⟨now, default, rfl⟩
  refine Or.inl ⟨[], now, ⟨rfl, hmax, hmaxlt, Updates.nil now⟩, fun hf => (by cases hf),
    fun p hp => (by cases hp), fun _ hf => (by cases hf), fun hf => (by cases hf), fun hne => ?_⟩
  exact absurd rfl hne

/-- While the output is not at its default value, the last load is no longer ago than
`max_duration`, and after a shutdown it is at its default value. The updates are loaded in
their order, each at its clock. -/
structure Watched (s : PwmOut) : Prop where
  watch : s.isShutdown = false → s.pin ≠ s.defaultValue →
    s.now ≤ s.lastLoad + s.maxDuration.toNat
  default_of_shutdown : s.isShutdown = true → s.pin = s.defaultValue
  loads : ∃ done pend, s.queued = done ++ pend ∧
    s.loads = done.map (fun p => (p.1, PwmMove.mk (word p.1) p.2)) ∧
    (s.isShutdown = false → ∀ p ∈ pend, s.now ≤ p.1)

theorem Inv.watched (h : s.Inv) : s.Watched := by
  rcases h with ⟨pend, w, h⟩ | ⟨u, ⟨pend, hqueue⟩, hu⟩
  · refine ⟨fun _ hne => ?_, fun hshut => absurd (h.queue.up.symm.trans hshut) (by decide), ?_⟩
    · obtain ⟨hactive, hle⟩ := h.watch hne
      exact (h.timer hactive).2.1.trans hle
    · obtain ⟨done, hqueued, hloads⟩ := h.queue.updates.loaded
      exact ⟨done, pend, hqueued, hloads, fun _ p hp => (h.queue.updates.ahead p hp).1⟩
  · have hshut : s.isShutdown = true := congrArg PwmOut.isShutdown hu
    obtain ⟨done, hqueued, hloads⟩ := hqueue.updates.loaded
    refine ⟨fun hup => absurd (hshut.symm.trans hup) (by decide), fun _ => ?_, done, pend,
      ?_, ?_, fun hup => absurd (hshut.symm.trans hup) (by decide)⟩
    · exact (congrArg PwmOut.pin hu).trans (congrArg PwmOut.defaultValue hu).symm
    · exact (congrArg PwmOut.queued hu).trans hqueued
    · exact (congrArg PwmOut.loads hu).trans hloads

end PwmOut

/-- The watchdog of output pins, in every state of every run. -/
theorem watched_of_reachable {maxDuration cycleTime : BitVec 32} (hmax : 0 < maxDuration.toNat)
    (hmaxlt : maxDuration.toNat < 2 ^ 31) (hcycle : cycleTime.toNat < 2 ^ 31) :
    (∀ s, (digitalOut maxDuration cycleTime).Reachable s → s.Watched) ∧
      ∀ s, (pwmOut maxDuration).Reachable s → s.Watched :=
  ⟨fun _ hs => (DigitalOut.inv_of_reachable hmax hmaxlt hcycle hs).watched,
    fun _ hs => (PwmOut.inv_of_reachable hmax hmaxlt hs).watched⟩

/-- An update is queued and loaded, and toggles the pin until its `max_duration` is over. -/
def digitalPulses : List DigitalEvent :=
  [.queue (2 ^ 32 - 1) 4, .tick, .tick, .dispatch,
    .tick, .tick, .tick, .tick, .dispatch,
    .tick, .tick, .tick, .tick, .tick, .tick, .dispatch,
    .tick, .tick, .tick, .tick, .dispatch,
    .tick, .tick, .tick, .tick, .tick, .tick, .dispatch]

/-- An update is queued and loaded, and none follows. -/
def pwmOnce : List PwmEvent :=
  [.queue (2 ^ 32 - 1) 4, .tick, .tick, .dispatch, .tick, .tick, .tick, .tick, .tick, .dispatch]

/-- The clock wraps around after the update is loaded, and the end of `max_duration` shuts
down. -/
theorem watched_of_reachable_wrap :
    (∃ s, (digitalOut 20 10).run (DigitalOut.config (2 ^ 32 - 3) false 20 10) digitalPulses =
        some s ∧ s.isShutdown = true ∧ s.now = s.lastLoad + 20 ∧ s.Watched) ∧
    ∃ s, (pwmOut 5).run (PwmOut.config (2 ^ 32 - 3) 0 5) pwmOnce = some s ∧
      s.isShutdown = true ∧ s.now = s.lastLoad + 5 ∧ s.Watched := by
  constructor
  · have hrun : ((digitalOut 20 10).run (DigitalOut.config (2 ^ 32 - 3) false 20 10)
        digitalPulses).map (fun s => (s.isShutdown, decide (s.now = s.lastLoad + 20))) =
        some (true, true) := by decide +kernel
    obtain ⟨s, hs, heq⟩ := Option.map_eq_some_iff.1 hrun
    obtain ⟨hshut, hnow⟩ := Prod.mk.inj heq
    have hreach : (digitalOut 20 10).Reachable s :=
      System.Reachable.run (.init ⟨_, _, rfl⟩) hs
    exact ⟨s, hs, hshut, of_decide_eq_true hnow,
      (watched_of_reachable (by decide) (by decide) (by decide)).1 s hreach⟩
  · have hrun : ((pwmOut 5).run (PwmOut.config (2 ^ 32 - 3) 0 5) pwmOnce).map
        (fun s => (s.isShutdown, decide (s.now = s.lastLoad + 5))) = some (true, true) := by
      decide +kernel
    obtain ⟨s, hs, heq⟩ := Option.map_eq_some_iff.1 hrun
    obtain ⟨hshut, hnow⟩ := Prod.mk.inj heq
    have hreach : (pwmOut 5).Reachable s := System.Reachable.run (.init ⟨_, _, rfl⟩) hs
    exact ⟨s, hs, hshut, of_decide_eq_true hnow,
      (@watched_of_reachable 5 10 (by decide) (by decide) (by decide)).2 s hreach⟩

end Thinker
