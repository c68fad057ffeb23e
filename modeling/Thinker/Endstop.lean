import Mathlib.Tactic

/-!
# Endstops

`endstop.c` : the timer of an endstop samples its pin. After a match it samples again at the
shorter `sample_time`, and a trigger is due when `sample_count` samples in a row have matched.

A timer event reads the pin once or twice : the first match is read again at once. All reads
since `endstop_home` are kept beside the state, and one sample of each event, which matches when
each of its reads does (`Endstop.Counts`).
-/

namespace Thinker

/-- The timer function of an endstop. -/
inductive EndstopFunc where
  | event
  | oversample
  deriving DecidableEq, Repr

/-- `struct endstop`, attached to a trsync of `T`. -/
structure Endstop (T : Type*) where
  /-- Whether the timer is scheduled. -/
  active : Bool
  waketime : BitVec 32
  func : EndstopFunc
  restTime : BitVec 32
  sampleTime : BitVec 32
  nextwake : BitVec 32
  ts : Option T
  /-- `ESF_PIN_HIGH`. -/
  pinHigh : Bool
  /-- `ESF_HOMING`. -/
  homing : Bool
  sampleCount : BitVec 8
  triggerCount : BitVec 8
  triggerReason : BitVec 8
  reads : List Bool
  samples : List Bool
  /-- Whether the trigger has been called. -/
  fired : Bool
  deriving DecidableEq, Repr

namespace Endstop

variable {T : Type*} (e : Endstop T)

/-- Whether the value of the pin is the one that is waited for. -/
def matching (val : Bool) : Bool :=
  val == e.pinHigh

/-- `endstop_oversample_event`. -/
def oversampleEvent (val : Bool) : Endstop T :=
  let m := e.matching val
  let e := { e with reads := e.reads ++ [m], samples := e.samples ++ [m] }
  if !m then
    { e with func := .event, waketime := e.nextwake, triggerCount := e.sampleCount }
  else
    let count := e.triggerCount - 1
    if count = 0 then { e with active := false, fired := true }
    else { e with triggerCount := count, waketime := e.waketime + e.sampleTime }

/-- `endstop_event`, which reads the pin again after a match. -/
def endstopEvent (val val' : Bool) : Endstop T :=
  let nextwake := e.waketime + e.restTime
  if !e.matching val then
    { e with
      waketime := nextwake
      reads := e.reads ++ [false]
      samples := e.samples ++ [false] }
  else
    { e with nextwake := nextwake, func := .oversample, reads := e.reads ++ [true] }.oversampleEvent
      val'

/-- The timer function. `endstop_oversample_event` reads the pin once. -/
def event (val val' : Bool) : Endstop T :=
  match e.func with
  | .event => e.endstopEvent val val'
  | .oversample => e.oversampleEvent val

/-- `command_endstop_home`. -/
def home (clock sampleTicks : BitVec 32) (sampleCount : BitVec 8) (restTicks : BitVec 32)
    (pinValue : Bool) (ts : T) (triggerReason : BitVec 8) : Endstop T :=
  let e := { e with
    active := false
    waketime := clock
    sampleTime := sampleTicks
    sampleCount := sampleCount
    reads := []
    samples := []
    fired := false }
  if sampleCount = 0 then { e with ts := none, pinHigh := false, homing := false }
  else { e with
    active := true
    restTime := restTicks
    func := .event
    triggerCount := sampleCount
    pinHigh := pinValue
    homing := true
    ts := some ts
    triggerReason := triggerReason }

/-- `command_config_endstop`. -/
def config : Endstop T where
  active := false
  waketime := 0
  func := .event
  restTime := 0
  sampleTime := 0
  nextwake := 0
  ts := none
  pinHigh := false
  homing := false
  sampleCount := 0
  triggerCount := 0
  triggerReason := 0
  reads := []
  samples := []
  fired := false

/-! ## Matches in a row -/

/-- The last `n` are matches. -/
def EndsWith (n : ℕ) (l : List Bool) : Prop :=
  List.replicate n true <:+ l

instance (n : ℕ) (l : List Bool) : Decidable (EndsWith n l) :=
  inferInstanceAs (Decidable (_ <:+ _))

theorem endsWith_zero (l : List Bool) : EndsWith 0 l :=
  List.nil_suffix

theorem not_endsWith_nil (n : ℕ) : ¬EndsWith (n + 1) [] := by
  intro h
  have := h.length_le
  rw [List.length_replicate] at this
  exact absurd this (Nat.not_succ_le_zero n)

theorem endsWith_succ_append {n : ℕ} {l : List Bool} {b : Bool} :
    EndsWith (n + 1) (l ++ [b]) ↔ b = true ∧ EndsWith n l := by
  unfold EndsWith
  rw [List.replicate_succ', List.suffix_concat_iff]
  constructor
  · rintro (h | ⟨m, h, hm⟩)
    · exact absurd h (by simp)
    · obtain ⟨rfl, hb⟩ := List.append_inj' h rfl
      exact ⟨(List.singleton_inj.1 hb).symm, hm⟩
  · rintro ⟨rfl, h⟩
    exact Or.inr ⟨_, rfl, h⟩

/-- The last sample ends the first `n` matches in a row. -/
def FirstRun (n : ℕ) (samples : List Bool) : Prop :=
  EndsWith n samples ∧ ∀ l, l <+: samples → l ≠ samples → ¬EndsWith n l

/-- There have not been `n` matches in a row, but `k` at the end. -/
structure Run (n k : ℕ) (samples : List Bool) : Prop where
  lt : k < n
  ends : EndsWith k samples
  not_ends : ¬EndsWith (k + 1) samples
  none : ∀ l, l <+: samples → ¬EndsWith n l

namespace Run

variable {n k : ℕ} {samples : List Bool}

theorem start (hn : 0 < n) : Run n 0 [] := by
  obtain ⟨m, rfl⟩ := Nat.exists_eq_succ_of_ne_zero hn.ne'
  refine ⟨hn, endsWith_zero [], not_endsWith_nil 0, fun l hl => ?_⟩
  rw [List.prefix_nil.1 hl]
  exact not_endsWith_nil m

theorem mismatch (h : Run n k samples) : Run n 0 (samples ++ [false]) := by
  have hn := Nat.zero_lt_of_lt h.lt
  obtain ⟨m, rfl⟩ := Nat.exists_eq_succ_of_ne_zero hn.ne'
  have hfalse : ∀ i, ¬EndsWith (i + 1) (samples ++ [false]) := fun i hi =>
    absurd (endsWith_succ_append.1 hi).1 (by decide)
  refine ⟨hn, endsWith_zero _, hfalse 0, fun l hl => ?_⟩
  rcases List.prefix_concat_iff.1 hl with rfl | hl
  · exact hfalse m
  · exact h.none l hl

theorem matched (h : Run n k samples) (hlt : k + 1 < n) : Run n (k + 1) (samples ++ [true]) := by
  refine ⟨hlt, endsWith_succ_append.2 ⟨rfl, h.ends⟩,
    fun hends => h.not_ends (endsWith_succ_append.1 hends).2, fun l hl => ?_⟩
  rcases List.prefix_concat_iff.1 hl with rfl | hl
  · intro hends
    -- more matches in a row than there are
    obtain ⟨m, rfl⟩ := Nat.exists_eq_add_of_le hlt
    refine h.not_ends ?_
    rw [show k + 1 + 1 + m = k + 1 + m + 1 by omega] at hends
    exact List.IsSuffix.trans ⟨List.replicate m true, by rw [← List.replicate_add, Nat.add_comm]⟩
      (endsWith_succ_append.1 hends).2
  · exact h.none l hl

theorem last (h : Run n k samples) (heq : k + 1 = n) : FirstRun n (samples ++ [true]) := by
  obtain rfl := heq
  refine ⟨endsWith_succ_append.2 ⟨rfl, h.ends⟩, fun l hl hne => ?_⟩
  rcases List.prefix_concat_iff.1 hl with rfl | hl
  · exact absurd rfl hne
  · exact h.none l hl

end Run

/-! ## Sampling -/

/-- While the timer is scheduled, the matches in a row and `trigger_count` make up
`sample_count`. Once the trigger has been called, they have reached it for the first time. -/
structure Counts : Prop where
  ts : e.active = true → e.ts.isSome = true
  fired : e.active = true → e.fired = false
  run : e.active = true → ∃ k, Run e.sampleCount.toNat k e.samples ∧
    e.triggerCount.toNat + k = e.sampleCount.toNat ∧ (e.func = .event → k = 0)
  firstRun : e.fired = true → FirstRun e.sampleCount.toNat e.samples

variable {e}

/-- The timer is removed. -/
theorem Counts.inactive (h : e.Counts) : Counts { e with active := false } :=
  ⟨fun hf => (by cases hf), fun hf => (by cases hf), fun hf => (by cases hf), h.firstRun⟩

theorem counts_config : (config : Endstop T).Counts :=
  ⟨fun hf => (by cases hf), fun hf => (by cases hf), fun hf => (by cases hf),
    fun hf => (by cases hf)⟩

theorem counts_home (e : Endstop T) (clock sampleTicks : BitVec 32) (sampleCount : BitVec 8)
    (restTicks : BitVec 32) (pinValue : Bool) (ts : T) (triggerReason : BitVec 8) :
    (e.home clock sampleTicks sampleCount restTicks pinValue ts triggerReason).Counts := by
  unfold home
  by_cases hzero : sampleCount = 0
  · rw [if_pos hzero]
    exact ⟨fun hf => (by cases hf), fun hf => (by cases hf), fun hf => (by cases hf),
      fun hf => (by cases hf)⟩
  · rw [if_neg hzero]
    refine ⟨fun _ => rfl, fun _ => rfl, fun _ => ⟨0, Run.start ?_, rfl, fun _ => rfl⟩,
      fun hf => (by cases hf)⟩
    exact Nat.pos_of_ne_zero fun h => hzero (BitVec.toNat_inj.1 h)

theorem Counts.oversampleEvent (h : e.Counts) (hactive : e.active = true)
    (hfunc : e.func = .oversample) (val : Bool) : (e.oversampleEvent val).Counts := by
  obtain ⟨k, hrun, hcount, -⟩ := h.run hactive
  unfold Endstop.oversampleEvent
  dsimp only
  cases e.matching val with
  | false =>
    exact ⟨fun _ => h.ts hactive, fun _ => h.fired hactive,
      fun _ => ⟨0, hrun.mismatch, rfl, fun _ => rfl⟩,
      fun hf => absurd (hf.symm.trans (h.fired hactive)) (by decide)⟩
  | true =>
    have hlt := hrun.lt
    have hpos : (1#8).toNat ≤ e.triggerCount.toNat := by
      rw [BitVec.toNat_ofNat]
      omega
    have hsub : (e.triggerCount - 1).toNat = e.triggerCount.toNat - 1 :=
      BitVec.toNat_sub_of_le hpos
    rw [Bool.not_true, if_neg Bool.false_ne_true]
    by_cases hzero : e.triggerCount - 1 = 0
    · rw [if_pos hzero]
      rw [hzero, show (0 : BitVec 8).toNat = 0 from rfl] at hsub
      exact ⟨fun hf => (by cases hf), fun hf => (by cases hf), fun hf => (by cases hf),
        fun _ => hrun.last (by omega)⟩
    · rw [if_neg hzero]
      have hne : (e.triggerCount - 1).toNat ≠ 0 := fun h => hzero (BitVec.toNat_inj.1 h)
      refine ⟨fun _ => h.ts hactive, fun _ => h.fired hactive, fun _ => ⟨k + 1,
        hrun.matched (by omega), ?_, fun hf => (by cases hfunc.symm.trans hf)⟩,
        fun hf => absurd (hf.symm.trans (h.fired hactive)) (by decide)⟩
      show (e.triggerCount - 1).toNat + (k + 1) = e.sampleCount.toNat
      omega

theorem Counts.event (h : e.Counts) (hactive : e.active = true) (val val' : Bool) :
    (e.event val val').Counts := by
  unfold Endstop.event
  cases hfunc : e.func with
  | oversample => exact h.oversampleEvent hactive hfunc val
  | event =>
    obtain ⟨k, hrun, hcount, hk⟩ := h.run hactive
    obtain rfl := hk hfunc
    dsimp only
    unfold endstopEvent
    dsimp only
    cases e.matching val with
    | false =>
      exact ⟨fun _ => h.ts hactive, fun _ => h.fired hactive,
        fun _ => ⟨0, hrun.mismatch, hcount, fun _ => rfl⟩,
        fun hf => absurd (hf.symm.trans (h.fired hactive)) (by decide)⟩
    | true =>
      rw [Bool.not_true, if_neg Bool.false_ne_true]
      have hagain : Counts { e with
          nextwake := e.waketime + e.restTime
          func := .oversample
          reads := e.reads ++ [true] } :=
        ⟨fun _ => h.ts hactive, fun _ => h.fired hactive, fun _ => ⟨0, hrun, hcount, fun _ => rfl⟩,
          fun hf => absurd (hf.symm.trans (h.fired hactive)) (by decide)⟩
      exact hagain.oversampleEvent hactive rfl val'

theorem active_oversampleEvent (hactive : e.active = true) (val : Bool) :
    (e.oversampleEvent val).fired = true ∨ (e.oversampleEvent val).active = true := by
  unfold oversampleEvent
  dsimp only
  split_ifs
  · exact Or.inr hactive
  · exact Or.inl rfl
  · exact Or.inr hactive

/-- The timer goes on until the trigger is called. -/
theorem active_event (hactive : e.active = true) (val val' : Bool) :
    (e.event val val').fired = true ∨ (e.event val val').active = true := by
  unfold event
  cases e.func with
  | oversample => exact active_oversampleEvent hactive val
  | event =>
    dsimp only
    unfold endstopEvent
    dsimp only
    by_cases hm : (!e.matching val) = true
    · rw [if_pos hm]
      exact Or.inr hactive
    · rw [if_neg hm]
      exact active_oversampleEvent (by exact hactive) val'

/-- An event takes one sample, which matches when all its reads do. -/
theorem reads_event (e : Endstop T) (val val' : Bool) :
    ∃ reads, reads ≠ [] ∧ (e.event val val').reads = e.reads ++ reads ∧
      (e.event val val').samples = e.samples ++ [reads.all id] := by
  have hover : ∀ (e : Endstop T) (val : Bool),
      (e.oversampleEvent val).reads = e.reads ++ [e.matching val] ∧
        (e.oversampleEvent val).samples = e.samples ++ [e.matching val] := by
    intro e val
    unfold oversampleEvent
    dsimp only
    split_ifs <;> exact ⟨rfl, rfl⟩
  unfold event
  cases e.func with
  | oversample =>
    obtain ⟨hreads, hsamples⟩ := hover e val
    exact ⟨[e.matching val], List.cons_ne_nil _ _, hreads, by rw [hsamples]; simp⟩
  | event =>
    dsimp only
    unfold endstopEvent
    dsimp only
    by_cases hm : (!e.matching val) = true
    · rw [if_pos hm]
      exact ⟨[false], List.cons_ne_nil _ _, rfl, rfl⟩
    · rw [if_neg hm]
      obtain ⟨hreads, hsamples⟩ := hover { e with
        nextwake := e.waketime + e.restTime
        func := .oversample
        reads := e.reads ++ [true] } val'
      refine ⟨[true, e.matching val'], List.cons_ne_nil _ _, ?_, ?_⟩
      · rw [hreads, List.append_assoc]
        rfl
      · rw [hsamples]
        simp [matching]

/-- The setting of the endstop stays as it is. -/
theorem setting_event (e : Endstop T) (val val' : Bool) :
    (e.event val val').ts = e.ts ∧ (e.event val val').triggerReason = e.triggerReason := by
  have hover : ∀ (e : Endstop T) (val : Bool), (e.oversampleEvent val).ts = e.ts ∧
      (e.oversampleEvent val).triggerReason = e.triggerReason := by
    intro e val
    unfold oversampleEvent
    dsimp only
    split_ifs <;> exact ⟨rfl, rfl⟩
  unfold event
  cases e.func with
  | oversample => exact hover e val
  | event =>
    dsimp only
    unfold endstopEvent
    dsimp only
    split_ifs
    · exact ⟨rfl, rfl⟩
    · exact hover _ val'

/-- The trigger is called by the event that takes the last sample of the first `sample_count`
matches in a row. -/
theorem Counts.fired_iff (h : e.Counts) (hactive : e.active = true) (val val' : Bool) :
    (e.event val val').fired = true ↔
      FirstRun (e.event val val').sampleCount.toNat (e.event val val').samples := by
  have hevent := h.event hactive val val'
  refine ⟨hevent.firstRun, fun hfirst => ?_⟩
  rcases active_event hactive val val' with hfired | hrunning
  · exact hfired
  · obtain ⟨k, hrun, -⟩ := hevent.run hrunning
    exact absurd hfirst.1 (hrun.none _ List.prefix_rfl)

end Endstop

end Thinker
