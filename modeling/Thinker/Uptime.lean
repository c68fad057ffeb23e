import Thinker.ClockSync
import Thinker.TimerList

/-!
# Extending a 32 bit clock

The counter of a micro-controller has 32 bits. `stats_update` of `basecmd.c` counts its roll-overs
as it sends the statistics, and `command_get_uptime` looks for one since then. The host goes on
from the uptime, with the difference of each `clock` response to the last one, and takes any other
clock for the time nearest to the last one.

All three are exact (`clock_extension`) : the firmware as long as `stats_update` is not called later
than half a turn of the counter, less the interval of the statistics, after the last call.
-/

set_option linter.unusedSectionVars false

namespace Thinker

/-! ## The firmware -/

/-- `DIV_ROUND_UP`. -/
def divRoundUp (n d : BitVec 32) : BitVec 32 :=
  (n + d - 1) / d

/-- The variables of the statistics. -/
structure McuStats where
  statsSendTime : BitVec 32
  statsSendTimeHigh : BitVec 32
  count : BitVec 32
  sum : BitVec 32
  sumsq : BitVec 32
  deriving DecidableEq

/-- The `stats` response. -/
structure StatsResponse where
  count : BitVec 32
  sum : BitVec 32
  sumsq : BitVec 32
  deriving DecidableEq

/-- The `uptime` response. -/
structure UptimeResponse where
  high : BitVec 32
  clock : BitVec 32
  deriving DecidableEq

namespace UptimeResponse

/-- The clock that the response stands for. -/
def value (r : UptimeResponse) : ℕ :=
  r.high.toNat <<< 32 ||| r.clock.toNat

end UptimeResponse

namespace McuStats

/-- After a reset. -/
def start : McuStats where
  statsSendTime := 0
  statsSendTimeHigh := 0
  count := 0
  sum := 0
  sumsq := 0

/-- `command_get_uptime` at this time. -/
def commandGetUptime (s : McuStats) (cur : BitVec 32) : UptimeResponse where
  high := s.statsSendTimeHigh + if cur < s.statsSendTime then 1 else 0
  clock := cur

/-- `stats_update` up to the test of the time. -/
def addSample (s : McuStats) (start cur : BitVec 32) : McuStats :=
  let diff := cur - start
  let nextsumsq : BitVec 32 :=
    if diff ≤ 0xffff then s.sumsq + divRoundUp (diff * diff) 256
    else if diff ≤ 0xfffff then s.sumsq + divRoundUp diff 256 * diff
    else 0xffffffff
  { s with
    count := s.count + 1
    sum := s.sum + diff
    sumsq := if nextsumsq < s.sumsq then 0xffffffff else nextsumsq }

/-- `stats_update`, with the response that it sends. -/
def statsUpdate (clockFreq : BitVec 32) (s : McuStats) (start cur : BitVec 32) :
    McuStats × Option StatsResponse :=
  let s := s.addSample start cur
  if timerIsBefore cur (s.statsSendTime + timerFromUs clockFreq 5000000) then (s, none)
  else
    ({ statsSendTime := cur
       statsSendTimeHigh := s.statsSendTimeHigh + if cur < s.statsSendTime then 1 else 0
       count := 0
       sum := 0
       sumsq := 0 }, some ⟨s.count, s.sum, s.sumsq⟩)

end McuStats

/-- The counter after this many ticks. -/
def counter (ticks : ℕ) : BitVec 32 :=
  BitVec.ofNat 32 ticks

/-- The statistics, with the ticks at the last call of `stats_update`. -/
structure McuRun where
  stats : McuStats
  updated : ℕ
  deriving DecidableEq

namespace McuRun

/-- The interval of the statistics. -/
def interval (clockFreq : BitVec 32) : ℕ :=
  (timerFromUs clockFreq 5000000).toNat

/-- Time has gone on to this tick, and `stats_update` is not late. -/
def InTime (clockFreq : BitVec 32) (m : McuRun) (now : ℕ) : Prop :=
  m.updated ≤ now ∧ now + interval clockFreq < m.updated + 2 ^ 31

instance (clockFreq : BitVec 32) (m : McuRun) (now : ℕ) : Decidable (m.InTime clockFreq now) :=
  inferInstanceAs (Decidable (_ ∧ _))

/-- `stats_update` is called at this tick, with any `start`. -/
def update (clockFreq : BitVec 32) (m : McuRun) (start : BitVec 32) (now : ℕ) : McuRun where
  stats := (m.stats.statsUpdate clockFreq start (counter now)).1
  updated := now

/-- The calls of `stats_update`. -/
def system (clockFreq : BitVec 32) : System McuRun (BitVec 32 × ℕ) where
  init m := m = ⟨.start, 0⟩
  next m e := if m.InTime clockFreq e.2 then some (m.update clockFreq e.1 e.2) else none

/-- The statistics were last sent at this tick. -/
structure SentAt (clockFreq : BitVec 32) (m : McuRun) (sent : ℕ) : Prop where
  time_eq : m.stats.statsSendTime = counter sent
  high_eq : m.stats.statsSendTimeHigh = counter (sent / 2 ^ 32)
  sent_le : sent ≤ m.updated
  near : m.updated = sent ∨ m.updated < sent + interval clockFreq

variable {clockFreq : BitVec 32} {m : McuRun} {sent now : ℕ}

theorem counter_lt_iff {a b : ℕ} : counter a < counter b ↔ a % 2 ^ 32 < b % 2 ^ 32 := by
  simp [counter, BitVec.lt_def]

theorem counter_add (a b : ℕ) : counter a + counter b = counter (a + b) :=
  (BitVec.ofNat_add a b).symm

/-- The ticks between two counters of one turn. -/
theorem ticks_counter {a b : ℕ} (hle : a ≤ b) (hlt : b < a + 2 ^ 32) :
    ticks (counter a) (counter b) = b - a := by
  unfold ticks counter
  simp only [BitVec.toNat_sub, BitVec.toNat_ofNat]
  omega

/-- A roll-over since the statistics were sent. -/
theorem high_add (hle : sent ≤ now) (hlt : now < sent + 2 ^ 32) :
    counter (sent / 2 ^ 32) + (if counter now < counter sent then 1 else 0) =
      counter (now / 2 ^ 32) := by
  have hturn : (if counter now < counter sent then 1 else 0 : BitVec 32) =
      counter (now / 2 ^ 32 - sent / 2 ^ 32) := by
    split_ifs with h
    · rw [counter_lt_iff] at h
      have : now / 2 ^ 32 - sent / 2 ^ 32 = 1 := by omega
      rw [this]
      rfl
    · rw [counter_lt_iff] at h
      have : now / 2 ^ 32 - sent / 2 ^ 32 = 0 := by omega
      rw [this]
      rfl
  rw [hturn, counter_add, Nat.add_sub_cancel' (Nat.div_le_div_right hle)]

/-- A time that is not late is at most half a turn behind the last statistics. -/
theorem SentAt.lt (h : m.SentAt clockFreq sent) (hnow : m.InTime clockFreq now) :
    sent ≤ now ∧ now < sent + 2 ^ 31 := by
  have hle := h.sent_le
  obtain ⟨hupdated, hlate⟩ := hnow
  refine ⟨hle.trans hupdated, ?_⟩
  rcases h.near with hnear | hnear <;> omega

theorem InTime.interval_lt (h : m.InTime clockFreq now) : interval clockFreq < 2 ^ 31 := by
  obtain ⟨hupdated, hlate⟩ := h
  omega

/-- Whether `stats_update` sends. -/
theorem timerIsBefore_sent (hle : sent ≤ now) (hlt : now < sent + 2 ^ 31)
    (hinterval : interval clockFreq < 2 ^ 31) :
    timerIsBefore (counter now) (counter sent + timerFromUs clockFreq 5000000) = true ↔
      now < sent + interval clockFreq := by
  have hdue : counter sent + timerFromUs clockFreq 5000000 =
      counter (sent + interval clockFreq) := by
    rw [← counter_add, interval, counter, counter, BitVec.ofNat_toNat, BitVec.setWidth_eq]
  rw [hdue, timerIsBefore_iff]
  rcases lt_or_ge now (sent + interval clockFreq) with hbefore | hafter
  · rw [ticks_counter hbefore.le (by omega)]
    omega
  · have hround := ticks_trans (counter (sent + interval clockFreq)) (counter now)
      (counter (sent + interval clockFreq))
    have hrange := ticks_lt (counter now) (counter (sent + interval clockFreq))
    rw [ticks_self, ticks_counter hafter (by omega)] at hround
    omega

/-- A call of `stats_update` that is not late. -/
theorem SentAt.step (h : m.SentAt clockFreq sent) (hnow : m.InTime clockFreq now)
    (start : BitVec 32) : ∃ sent', (m.update clockFreq start now).SentAt clockFreq sent' := by
  obtain ⟨hle, hlt⟩ := h.lt hnow
  have hbefore := timerIsBefore_sent hle hlt hnow.interval_lt
  have hhigh := high_add hle (hlt.trans (by omega))
  rw [← h.time_eq] at hbefore hhigh
  rw [← h.high_eq] at hhigh
  by_cases hsend : now < sent + interval clockFreq
  · have hstats : (m.update clockFreq start now).stats =
        m.stats.addSample start (counter now) :=
      congrArg Prod.fst (if_pos (hbefore.2 hsend))
    exact ⟨sent, by rw [hstats]; exact h.time_eq, by rw [hstats]; exact h.high_eq, hle, .inr hsend⟩
  · have hstats : (m.update clockFreq start now).stats =
        ⟨counter now, counter (now / 2 ^ 32), 0, 0, 0⟩ := by
      rw [← hhigh]
      exact congrArg Prod.fst (if_neg fun htimer => hsend (hbefore.1 htimer))
    exact ⟨now, by rw [hstats], by rw [hstats], le_rfl, .inl rfl⟩

/-- Every run. -/
theorem exists_sentAt (h : (system clockFreq).Reachable m) : ∃ sent, m.SentAt clockFreq sent := by
  refine h.invariant (I := fun m => ∃ sent, m.SentAt clockFreq sent) ?_ ?_
  · rintro m rfl
    exact ⟨0, rfl, rfl, le_rfl, .inl rfl⟩
  · rintro m ⟨start, now⟩ t ⟨sent, hsent⟩ - hnext
    simp only [system, Option.ite_none_right_eq_some, Option.some_inj] at hnext
    obtain ⟨hnow, rfl⟩ := hnext
    exact hsent.step hnow start

/-- The value of the response is the tick, up to the 64 bits that it has. -/
theorem value_commandGetUptime (h : (system clockFreq).Reachable m)
    (hnow : m.InTime clockFreq now) :
    (m.stats.commandGetUptime (counter now)).value = now % 2 ^ 64 := by
  obtain ⟨sent, hsent⟩ := exists_sentAt h
  obtain ⟨hle, hlt⟩ := hsent.lt hnow
  have hhigh := high_add hle (hlt.trans (by omega))
  have hclock_lt : now % 2 ^ 32 < 2 ^ 32 := Nat.mod_lt _ (by norm_num)
  have hresponse : m.stats.commandGetUptime (counter now) =
      ⟨counter (now / 2 ^ 32), counter now⟩ := by
    rw [McuStats.commandGetUptime, hsent.time_eq, hsent.high_eq, hhigh]
  rw [hresponse, UptimeResponse.value]
  simp only [counter, BitVec.toNat_ofNat]
  rw [← Nat.shiftLeft_add_eq_or_of_lt hclock_lt, Nat.shiftLeft_eq]
  omega

end McuRun

/-! ## The host -/

namespace ClockSync

variable {K : Type*} [Field K] [LinearOrder K] [IsStrictOrderedRing K] [FloorRing K]

/-- `_handle_clock` of one response after another. -/
def handleClocks (sqrt : K → K) (s : ClockSync K) (responses : List (ClockParams K)) :
    ClockSync K :=
  responses.foldl (fun s params => (s.handleClock sqrt params).1) s

@[simp] theorem lastClock_trackRtt (s : ClockSync K) (sentTime receiveTime : K) :
    (s.trackRtt sentTime receiveTime).lastClock = s.lastClock := by
  unfold trackRtt
  dsimp only
  split <;> rfl

theorem lastClock_filterOutliers {s t : ClockSync K} {sentTime : K}
    (h : s.filterOutliers sentTime = some t) : t.lastClock = s.lastClock := by
  unfold filterOutliers at h
  dsimp only at h
  split_ifs at h <;> obtain rfl := Option.some_inj.1 h <;> rfl

/-- Whatever a response does to the estimates, it extends the clock. -/
theorem lastClock_handleClock (sqrt : K → K) (s : ClockSync K) (params : ClockParams K) :
    (s.handleClock sqrt params).1.lastClock =
      s.lastClock + (params.clock - s.lastClock) % 2 ^ 32 := by
  unfold handleClock
  dsimp only
  split
  · rfl
  · split
    next => exact lastClock_trackRtt _ _ _
    next t ht =>
      have hclock := (lastClock_filterOutliers ht).trans (lastClock_trackRtt _ _ _)
      split <;> exact hclock

/-- A clock that is less than a turn later. -/
theorem handleClock_exact (sqrt : K → K) {s : ClockSync K} {params : ClockParams K} {clock : ℤ}
    (hclock : params.clock = clock % 2 ^ 32) (hle : s.lastClock ≤ clock)
    (hlt : clock < s.lastClock + 2 ^ 32) :
    (s.handleClock sqrt params).1.lastClock = clock := by
  rw [lastClock_handleClock, hclock]
  omega

/-- The clocks of the responses are those of these ticks, less than a turn apart from `last` on. -/
def InTurns : ℤ → List (ClockParams K × ℤ) → Prop
  | _, [] => True
  | last, (params, clock) :: responses =>
    params.clock = clock % 2 ^ 32 ∧ last ≤ clock ∧ clock < last + 2 ^ 32 ∧ InTurns clock responses

/-- The clock of the last response. -/
def lastOf (last : ℤ) (responses : List (ClockParams K × ℤ)) : ℤ :=
  (responses.getLast?.map Prod.snd).getD last

theorem lastOf_cons (last : ℤ) (response : ClockParams K × ℤ)
    (responses : List (ClockParams K × ℤ)) :
    lastOf last (response :: responses) = lastOf response.2 responses := by
  cases h : responses.getLast? <;> simp [lastOf, List.getLast?_cons, h]

/-- The host's clock is that of the last response. -/
theorem lastClock_handleClocks (sqrt : K → K) {s : ClockSync K} {last : ℤ}
    {responses : List (ClockParams K × ℤ)} (hlast : s.lastClock = last)
    (h : InTurns last responses) :
    (s.handleClocks sqrt (responses.map Prod.fst)).lastClock = lastOf last responses := by
  induction responses generalizing s last with
  | nil => exact hlast
  | cons response responses ih =>
    obtain ⟨hclock, hle, hlt, hrest⟩ := h
    have hnext := handleClock_exact sqrt hclock (hlast ▸ hle) (hlast ▸ hlt)
    have hrun := ih hnext hrest
    rw [List.map_cons, handleClocks, List.foldl_cons]
    exact hrun.trans (lastOf_cons last response responses).symm

/-- A clock that is near the last one. -/
theorem clock32ToClock64_exact {s : ClockSync K} {clock : ℤ} (hle : s.lastClock - 2 ^ 31 ≤ clock)
    (hlt : clock < s.lastClock + 2 ^ 31) : s.clock32ToClock64 (clock % 2 ^ 32) = clock := by
  unfold clock32ToClock64
  dsimp only
  split_ifs <;> omega

end ClockSync

/-! ## Both -/

variable {K : Type*} [Field K] [LinearOrder K] [IsStrictOrderedRing K] [FloorRing K]

/-- The uptime is the true tick, up to the 64 bits that it has, as long as `stats_update` is not
late, and the host starts from it ; the clock of a host that starts from a true clock is that of
the last response, as long as they are less than a turn apart ; and then every clock within half a
turn is extended to the true one. -/
theorem clock_extension (clockFreq : BitVec 32) (sqrt : K → K) :
    (∀ m, (McuRun.system clockFreq).Reachable m → ∀ now, m.InTime clockFreq now →
      (m.stats.commandGetUptime (counter now)).value = now % 2 ^ 64 ∧
        ∀ mcuFreq sentTime : K, (ClockSync.connect mcuFreq
          (m.stats.commandGetUptime (counter now)).high.toNat
          (m.stats.commandGetUptime (counter now)).clock.toNat sentTime).lastClock =
            ((now % 2 ^ 64 : ℕ) : ℤ)) ∧
    ∀ (s : ClockSync K) (responses : List (ClockParams K × ℤ)),
      ClockSync.InTurns s.lastClock responses →
      (s.handleClocks sqrt (responses.map Prod.fst)).lastClock =
          ClockSync.lastOf s.lastClock responses ∧
        ∀ clock, ClockSync.lastOf s.lastClock responses - 2 ^ 31 ≤ clock →
          clock < ClockSync.lastOf s.lastClock responses + 2 ^ 31 →
          (s.handleClocks sqrt (responses.map Prod.fst)).clock32ToClock64 (clock % 2 ^ 32) =
            clock := by
  refine ⟨fun m h now hnow => ?_, fun s responses h => ?_⟩
  · have hvalue := McuRun.value_commandGetUptime h hnow
    exact ⟨hvalue, fun _ _ => congrArg Nat.cast hvalue⟩
  · have hlast := ClockSync.lastClock_handleClocks sqrt rfl h
    exact ⟨hlast, fun clock hle hlt =>
      ClockSync.clock32ToClock64_exact (hlast.symm ▸ hle) (hlast.symm ▸ hlt)⟩

/-- The statistics of a micro-controller of 12 MHz whose counter has rolled over. -/
def rolledOver : McuRun :=
  ((McuRun.system 12000000).run ⟨.start, 0⟩
    [(0, 1500000000), (0, 3000000000), (0, 4400000000)]).getD ⟨.start, 0⟩

/-- The counter rolls over, and the host goes on from the uptime. -/
theorem clock_extension_rolledOver :
    (rolledOver.stats.commandGetUptime (counter 5000000000)).value = 5000000000 ∧
      (ClockSync.handleClocks id (ClockSync.connect (12000000 : ℚ) 1 705032704 1)
        [⟨10, 2, 3⟩, ⟨9, 3, 4⟩]).clock32ToClock64 4294967295 = 12884901887 := by
  have hreach : (McuRun.system 12000000).Reachable rolledOver :=
    System.Reachable.run (.init rfl)
      (by decide +kernel : (McuRun.system 12000000).run ⟨.start, 0⟩
        [(0, 1500000000), (0, 3000000000), (0, 4400000000)] = some rolledOver)
  refine ⟨?_, ?_⟩
  · exact ((clock_extension (K := ℚ) 12000000 id).1 rolledOver hreach 5000000000
      (by decide +kernel)).1
  · have hlast := (clock_extension (K := ℚ) 12000000 id).2
      (ClockSync.connect 12000000 1 705032704 1)
      [(⟨10, 2, 3⟩, 8589934602), (⟨9, 3, 4⟩, 12884901897)]
      ⟨rfl, by decide +kernel, by decide +kernel, rfl, by decide +kernel, by decide +kernel, trivial⟩
    exact hlast.2 12884901887 (by decide +kernel) (by decide +kernel)

end Thinker
