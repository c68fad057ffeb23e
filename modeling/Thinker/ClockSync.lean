import Thinker.Trdispatch

/-!
# Clock synchronization

`clocksync.py` : the host's estimate of a micro-controller's clock (`ClockSync`), and the map from
print time to clock of a micro-controller that follows the main one (`SecondarySync`).
Times are exact, and `int()` drops the part behind the point.

`calibrate_clock` draws a new line from where the old map is at `sync1_print_time` to what the
clock is estimated to be at `sync2_print_time` (`calibrateClock_spec`). If both clocks are the same
the line has no inverse, and the division by its slope raises an exception
(`calibrateClock_eq_none`).
-/

set_option linter.unusedSectionVars false

namespace Thinker

variable {K : Type*} [Field K] [LinearOrder K] [IsStrictOrderedRing K] [FloorRing K]

/-! ## Truncation -/

@[simp] theorem truncate_intCast (n : ℤ) : truncate (n : K) = n := by
  simp [truncate]

theorem abs_truncate_sub_lt (x : K) : |(truncate x : K) - x| < 1 := by
  unfold truncate
  split_ifs
  · have hle := Int.floor_le x
    have hlt := Int.lt_floor_add_one x
    exact abs_sub_lt_iff.2 ⟨by linarith, by linarith⟩
  · have hle := Int.le_ceil x
    have hlt := Int.ceil_lt_add_one x
    exact abs_sub_lt_iff.2 ⟨by linarith, by linarith⟩

theorem truncate_mono : Monotone (truncate : K → ℤ) := by
  intro x y hxy
  unfold truncate
  split_ifs with hx hy hy
  · exact Int.floor_mono hxy
  · exact absurd (hx.trans hxy) hy
  · exact (Int.ceil_le.2 (by simpa using (not_le.1 hx).le)).trans (Int.floor_nonneg.2 hy)
  · exact Int.ceil_mono hxy

/-! ## The estimate of a clock -/

/-- `clock_est`. -/
structure ClockLine (K : Type*) where
  sampleTime : K
  clock : K
  freq : K

/-- `ClockSync`. -/
structure ClockSync (K : Type*) where
  mcuFreq : K
  lastClock : ℤ
  clockEst : ClockLine K
  queriesPending : ℕ
  minHalfRtt : K
  minRttTime : K
  timeAvg : K
  timeVariance : K
  clockAvg : K
  clockCovariance : K
  predictionVariance : K
  lastPredictionTime : K

/-- The parameters of a `clock` response. -/
structure ClockParams (K : Type*) where
  clock : ℤ
  sentTime : K
  receiveTime : K

/-- The arguments of `serial.set_clock_est`. -/
structure SetClockEst (K : Type*) where
  freq : K
  convTime : K
  convClock : ℤ
  lastClock : ℤ

namespace ClockSync

/-- `RTT_AGE`. -/
def rttAge : K := 1 / 100000 / (60 * 60)

/-- `DECAY`. -/
def decay : K := 1 / 30

/-- `TRANSMIT_EXTRA`. -/
def transmitExtra : K := 1 / 1000

variable (s : ClockSync K)

/-- The state that `connect` sets up from the `uptime` response. -/
def connect (mcuFreq : K) (high clock : ℕ) (sentTime : K) : ClockSync K :=
  let lastClock : ℤ := ((high <<< 32 ||| clock : ℕ) : ℤ)
  { mcuFreq := mcuFreq
    lastClock := lastClock
    clockEst := ⟨sentTime, lastClock, mcuFreq⟩
    queriesPending := 0
    minHalfRtt := 9999999999 / 10
    minRttTime := 0
    timeAvg := sentTime
    timeVariance := 0
    clockAvg := lastClock
    clockCovariance := 0
    predictionVariance := (mcuFreq / 1000) ^ 2
    lastPredictionTime := -9999 }

/-- `_handle_clock` extends the clock to 64 bit. -/
def extendClock (clock : ℤ) : ClockSync K :=
  { s with
    queriesPending := 0
    lastClock := s.lastClock + (clock - s.lastClock) % 2 ^ 32 }

/-- `_handle_clock` tracks the minimum round trip time. -/
def trackRtt (sentTime receiveTime : K) : ClockSync K :=
  let halfRtt := (receiveTime - sentTime) / 2
  let agedRtt := (sentTime - s.minRttTime) * rttAge
  if halfRtt < s.minHalfRtt + agedRtt then
    { s with minHalfRtt := halfRtt, minRttTime := sentTime }
  else s

/-- `_handle_clock` filters out samples that are extreme outliers. `none` stands for a sample that
is ignored. -/
def filterOutliers (sentTime : K) : Option (ClockSync K) :=
  let clock : K := s.lastClock
  let expClock := (sentTime - s.timeAvg) * s.clockEst.freq + s.clockAvg
  let clockDiff2 := (clock - expClock) ^ 2
  if 25 * s.predictionVariance < clockDiff2 ∧ (s.mcuFreq / 2000) ^ 2 < clockDiff2 then
    if expClock < clock ∧ sentTime < s.lastPredictionTime + 10 then none
    else some { s with predictionVariance := (s.mcuFreq / 1000) ^ 2 }
  else
    some { s with
      lastPredictionTime := sentTime
      predictionVariance := (1 - decay) * (s.predictionVariance + clockDiff2 * decay) }

/-- `_handle_clock` adds the clock and the sent time to the linear regression. -/
def addSample (sentTime : K) : ClockSync K :=
  let diffSentTime := sentTime - s.timeAvg
  let diffClock := (s.lastClock : K) - s.clockAvg
  { s with
    timeAvg := s.timeAvg + decay * diffSentTime
    timeVariance := (1 - decay) * (s.timeVariance + diffSentTime ^ 2 * decay)
    clockAvg := s.clockAvg + decay * diffClock
    clockCovariance := (1 - decay) * (s.clockCovariance + diffSentTime * diffClock * decay) }

/-- `_handle_clock`, with the call of `set_clock_est`, if it comes to it. A variance of zero raises
an exception in front of it. -/
def handleClock (sqrt : K → K) (params : ClockParams K) : ClockSync K × Option (SetClockEst K) :=
  let s := s.extendClock params.clock
  if params.sentTime = 0 then (s, none)
  else
    let s := s.trackRtt params.sentTime params.receiveTime
    match s.filterOutliers params.sentTime with
    | none => (s, none)
    | some s =>
      let s := s.addSample params.sentTime
      if s.timeVariance = 0 then (s, none)
      else
        let newFreq := s.clockCovariance / s.timeVariance
        let predStddev := sqrt s.predictionVariance
        ({ s with clockEst := ⟨s.timeAvg + s.minHalfRtt, s.clockAvg, newFreq⟩ },
          some ⟨newFreq, s.timeAvg + transmitExtra, truncate (s.clockAvg - 3 * predStddev),
            s.lastClock⟩)

/-- `print_time_to_clock`. -/
def printTimeToClock (printTime : K) : ℤ :=
  truncate (printTime * s.mcuFreq)

/-- `clock_to_print_time`. -/
def clockToPrintTime (clock : ℤ) : K :=
  clock / s.mcuFreq

/-- `get_clock`. -/
def getClock (eventtime : K) : ℤ :=
  truncate (s.clockEst.clock + (eventtime - s.clockEst.sampleTime) * s.clockEst.freq)

/-- `clock32_to_clock64`. -/
def clock32ToClock64 (clock32 : ℤ) : ℤ :=
  let clockDiff := (clock32 - s.lastClock) % 2 ^ 32
  s.lastClock + if 2 ^ 31 ≤ clockDiff then clockDiff - 2 ^ 32 else clockDiff

end ClockSync

/-! ## The clock of a secondary micro-controller -/

/-- `SecondarySync`, without `main_sync`. `adjustedOffset` and `adjustedFreq` are `clock_adj`. -/
structure SecondarySync (K : Type*) where
  sync : ClockSync K
  adjustedOffset : K
  adjustedFreq : K
  lastSyncTime : K

namespace SecondarySync

variable (s : SecondarySync K) (main : ClockSync K) (printTime eventtime : K)

/-- `print_time_to_clock`. -/
def printTimeToClock (printTime : K) : ℤ :=
  truncate ((printTime - s.adjustedOffset) * s.adjustedFreq)

/-- `clock_to_print_time`. -/
def clockToPrintTime (clock : ℤ) : K :=
  clock / s.adjustedFreq + s.adjustedOffset

/-- `est_print_time`, the estimate of the main print time. -/
def estPrintTime : K :=
  ((eventtime - main.clockEst.sampleTime) * main.clockEst.freq + main.clockEst.clock) / main.mcuFreq

/-- `sync1_print_time`. -/
def sync1PrintTime : K :=
  max printTime (estPrintTime main eventtime)

/-- `sync2_print_time`. -/
def sync2PrintTime : K :=
  max (max (sync1PrintTime main printTime eventtime + 4) s.lastSyncTime)
    (printTime + 5 / 2 * (printTime - estPrintTime main eventtime))

/-- `sync2_sys_time`. -/
def sync2SysTime : K :=
  main.clockEst.sampleTime +
    (s.sync2PrintTime main printTime eventtime * main.mcuFreq - main.clockEst.clock) /
      main.clockEst.freq

/-- `sync1_clock`. -/
def sync1Clock : ℤ :=
  s.printTimeToClock (sync1PrintTime main printTime eventtime)

/-- `sync2_clock`. -/
def sync2Clock : ℤ :=
  s.sync.getClock (s.sync2SysTime main printTime eventtime)

/-- `calibrate_clock`. `none` stands for the exception of a division by zero. -/
def calibrateClock : Option (SecondarySync K) :=
  let sync1 := sync1PrintTime main printTime eventtime
  let sync2 := s.sync2PrintTime main printTime eventtime
  let sync1Clock := s.sync1Clock main printTime eventtime
  let adjustedFreq := ((s.sync2Clock main printTime eventtime - sync1Clock : ℤ) : K) / (sync2 - sync1)
  if main.mcuFreq = 0 ∨ main.clockEst.freq = 0 ∨ adjustedFreq = 0 then none
  else
    some { s with
      adjustedOffset := sync1 - sync1Clock / adjustedFreq
      adjustedFreq := adjustedFreq
      lastSyncTime := sync2 }

end SecondarySync

/-- The frequencies are positive. -/
structure PositiveFreqs (s : SecondarySync K) (main : ClockSync K) : Prop where
  main_mcuFreq : 0 < main.mcuFreq
  main_freq : 0 < main.clockEst.freq
  mcuFreq : 0 < s.sync.mcuFreq
  freq : 0 < s.sync.clockEst.freq
  adjustedFreq : 0 < s.adjustedFreq

namespace SecondarySync

variable {s t : SecondarySync K} {main : ClockSync K} {printTime eventtime : K}

theorem sync1_add_le (s : SecondarySync K) (main : ClockSync K) (printTime eventtime : K) :
    sync1PrintTime main printTime eventtime + 4 ≤ s.sync2PrintTime main printTime eventtime :=
  (le_max_left _ _).trans (le_max_left _ _)

theorem lastSyncTime_le (s : SecondarySync K) (main : ClockSync K) (printTime eventtime : K) :
    s.lastSyncTime ≤ s.sync2PrintTime main printTime eventtime :=
  (le_max_right _ _).trans (le_max_left _ _)

/-- `sync2_print_time` comes later than `sync1_print_time`. -/
theorem sync2_sub_sync1_pos (s : SecondarySync K) (main : ClockSync K) (printTime eventtime : K) :
    0 < s.sync2PrintTime main printTime eventtime - sync1PrintTime main printTime eventtime := by
  have hle := s.sync1_add_le main printTime eventtime
  linarith

/-- At `sync2_sys_time` the main print time is estimated to be `sync2_print_time`. -/
theorem estPrintTime_sync2SysTime (hmcu : 0 < main.mcuFreq) (hfreq : 0 < main.clockEst.freq) :
    estPrintTime main (s.sync2SysTime main printTime eventtime) =
      s.sync2PrintTime main printTime eventtime := by
  unfold estPrintTime sync2SysTime
  field_simp
  ring

/-- The new line, if the two clocks differ. -/
theorem calibrateClock_eq_some (h : PositiveFreqs s main)
    (hne : s.sync2Clock main printTime eventtime ≠ s.sync1Clock main printTime eventtime) :
    ∃ t, s.calibrateClock main printTime eventtime = some t ∧ t.sync = s.sync ∧
      t.adjustedFreq ≠ 0 ∧
      t.adjustedFreq * (s.sync2PrintTime main printTime eventtime -
          sync1PrintTime main printTime eventtime) =
        ((s.sync2Clock main printTime eventtime - s.sync1Clock main printTime eventtime : ℤ) : K) ∧
      t.adjustedOffset = sync1PrintTime main printTime eventtime -
        s.sync1Clock main printTime eventtime / t.adjustedFreq ∧
      t.lastSyncTime = s.sync2PrintTime main printTime eventtime := by
  have hpos := s.sync2_sub_sync1_pos main printTime eventtime
  have hdiff : ((s.sync2Clock main printTime eventtime -
      s.sync1Clock main printTime eventtime : ℤ) : K) ≠ 0 :=
    Int.cast_ne_zero.2 (sub_ne_zero.2 hne)
  have hslope := div_ne_zero hdiff hpos.ne'
  refine ⟨_, if_neg ?_, rfl, hslope, div_mul_cancel₀ _ hpos.ne', rfl, rfl⟩
  rintro (hzero | hzero | hzero)
  · exact h.main_mcuFreq.ne' hzero
  · exact h.main_freq.ne' hzero
  · exact hslope hzero

/-- The line of a map that is not constant passes through a point with a whole clock exactly. -/
theorem printTimeToClock_of_line {x : K} {clock : ℤ}
    (h : (x - t.adjustedOffset) * t.adjustedFreq = clock) : t.printTimeToClock x = clock := by
  rw [printTimeToClock, h, truncate_intCast]

/-- The two conversions undo each other up to less than one tick. -/
theorem abs_clockToPrintTime_sub_lt (hfreq : t.adjustedFreq ≠ 0) (x : K) :
    |t.clockToPrintTime (t.printTimeToClock x) - x| * |t.adjustedFreq| < 1 := by
  have hline : (t.clockToPrintTime (t.printTimeToClock x) - x) * t.adjustedFreq =
      (truncate ((x - t.adjustedOffset) * t.adjustedFreq) : K) -
        (x - t.adjustedOffset) * t.adjustedFreq := by
    rw [clockToPrintTime, printTimeToClock]
    field_simp
    ring
  rw [← abs_mul, hline]
  exact abs_truncate_sub_lt _

theorem printTimeToClock_mono (hfreq : 0 < t.adjustedFreq) : Monotone t.printTimeToClock :=
  fun _ _ hxy => truncate_mono (mul_le_mul_of_nonneg_right (sub_le_sub_right hxy _) hfreq.le)

/-- What a new map has to do with the old one, and with the estimates. -/
structure Calibrated (s t : SecondarySync K) (main : ClockSync K) (printTime eventtime : K) :
    Prop where
  /-- At `sync1_print_time` the new map agrees with the old one. -/
  agrees_old : t.printTimeToClock (sync1PrintTime main printTime eventtime) =
    s.printTimeToClock (sync1PrintTime main printTime eventtime)
  /-- At `sync2_print_time` it agrees with the estimate of the clock. -/
  agrees_estimate : t.printTimeToClock (s.sync2PrintTime main printTime eventtime) =
    s.sync.getClock (s.sync2SysTime main printTime eventtime)
  est_sync2 : estPrintTime main (s.sync2SysTime main printTime eventtime) =
    s.sync2PrintTime main printTime eventtime
  sync1_add_le : sync1PrintTime main printTime eventtime + 4 ≤
    s.sync2PrintTime main printTime eventtime
  lastSyncTime_eq : t.lastSyncTime = s.sync2PrintTime main printTime eventtime
  lastSyncTime_le : s.lastSyncTime ≤ t.lastSyncTime
  /-- The conversions undo each other up to less than one tick. -/
  roundTrip : ∀ x, |t.clockToPrintTime (t.printTimeToClock x) - x| * |t.adjustedFreq| < 1
  /-- The map goes up if the estimated clock does, and what the old map has before
  `sync1_print_time` stays before what the new one has behind it. -/
  increasing : s.sync1Clock main printTime eventtime < s.sync2Clock main printTime eventtime →
    0 < t.adjustedFreq ∧ StrictMono (fun x => (x - t.adjustedOffset) * t.adjustedFreq) ∧
      ∀ x y, x ≤ sync1PrintTime main printTime eventtime →
        sync1PrintTime main printTime eventtime ≤ y →
        s.printTimeToClock x ≤ t.printTimeToClock y

/-- The new map, if the two clocks differ. -/
theorem exists_calibrated (h : PositiveFreqs s main)
    (hne : s.sync2Clock main printTime eventtime ≠ s.sync1Clock main printTime eventtime) :
    ∃ t, s.calibrateClock main printTime eventtime = some t ∧
      Calibrated s t main printTime eventtime := by
  obtain ⟨t, ht, -, hfreq, hslope, hoffset, hlast⟩ := calibrateClock_eq_some h hne
  have hsync1 : t.printTimeToClock (sync1PrintTime main printTime eventtime) =
      s.sync1Clock main printTime eventtime := by
    apply printTimeToClock_of_line
    rw [hoffset, sub_sub_cancel, div_mul_cancel₀ _ hfreq]
  have hsync2 : t.printTimeToClock (s.sync2PrintTime main printTime eventtime) =
      s.sync2Clock main printTime eventtime := by
    apply printTimeToClock_of_line
    calc (s.sync2PrintTime main printTime eventtime - t.adjustedOffset) * t.adjustedFreq
        = t.adjustedFreq * (s.sync2PrintTime main printTime eventtime -
            sync1PrintTime main printTime eventtime) +
          s.sync1Clock main printTime eventtime / t.adjustedFreq * t.adjustedFreq := by
          rw [hoffset]
          ring
      _ = s.sync2Clock main printTime eventtime := by
          rw [hslope, div_mul_cancel₀ _ hfreq]
          push_cast
          ring
  refine ⟨t, ht, hsync1, hsync2, estPrintTime_sync2SysTime h.main_mcuFreq h.main_freq,
    s.sync1_add_le main printTime eventtime, hlast, ?_, abs_clockToPrintTime_sub_lt hfreq, ?_⟩
  · rw [hlast]
    exact s.lastSyncTime_le main printTime eventtime
  · intro hlt
    have hpos := s.sync2_sub_sync1_pos main printTime eventtime
    have hrise : (0 : K) < ((s.sync2Clock main printTime eventtime -
        s.sync1Clock main printTime eventtime : ℤ) : K) := Int.cast_pos.2 (sub_pos.2 hlt)
    have hup : 0 < t.adjustedFreq := by
      rw [← hslope] at hrise
      exact pos_of_mul_pos_left hrise hpos.le
    refine ⟨hup, fun x y hxy => ?_, fun x y hx hy => ?_⟩
    · exact mul_lt_mul_of_pos_right (sub_lt_sub_right hxy _) hup
    · calc s.printTimeToClock x
          ≤ s.sync1Clock main printTime eventtime := printTimeToClock_mono h.adjustedFreq hx
        _ = t.printTimeToClock (sync1PrintTime main printTime eventtime) := hsync1.symm
        _ ≤ t.printTimeToClock y := printTimeToClock_mono hup hy

/-- If the two clocks are the same, the new map would have slope zero. -/
theorem calibrateClock_eq_none
    (heq : s.sync2Clock main printTime eventtime = s.sync1Clock main printTime eventtime) :
    s.calibrateClock main printTime eventtime = none := by
  have hzero : ((s.sync2Clock main printTime eventtime -
      s.sync1Clock main printTime eventtime : ℤ) : K) = 0 := by rw [heq, sub_self, Int.cast_zero]
  refine if_pos (.inr (.inr ?_))
  rw [hzero, zero_div]

/-! ### Runs -/

/-- What happens to a secondary clock : a response, or a calibration to some state of the main
clock. -/
inductive Event (K : Type*) where
  | clock (params : ClockParams K)
  | calibrate (main : ClockSync K) (printTime eventtime : K)

/-- The secondary clock. An exception leaves it as it is. -/
def system (sqrt : K → K) : System (SecondarySync K) (Event K) where
  init _ := True
  next s
    | .clock params => some { s with sync := (s.sync.handleClock sqrt params).1 }
    | .calibrate main printTime eventtime =>
      some ((s.calibrateClock main printTime eventtime).getD s)

/-- A calibration does not move the time of synchronization backwards. -/
theorem lastSyncTime_le_calibrateClock (s : SecondarySync K) (main : ClockSync K)
    (printTime eventtime : K) :
    s.lastSyncTime ≤ ((s.calibrateClock main printTime eventtime).getD s).lastSyncTime := by
  unfold calibrateClock
  dsimp only
  split
  · exact le_rfl
  · exact s.lastSyncTime_le main printTime eventtime

/-- No run moves the time of synchronization backwards. -/
theorem lastSyncTime_le_run {sqrt : K → K} {events : List (Event K)}
    (h : (system sqrt).run s events = some t) : s.lastSyncTime ≤ t.lastSyncTime := by
  refine (System.run_rel (M := system sqrt) (I := fun _ => True)
    (R := fun s t => s.lastSyncTime ≤ t.lastSyncTime) (fun _ => le_rfl)
    (fun _ _ _ => le_trans) ?_ trivial h).2
  intro s a t _ hstep
  refine ⟨trivial, ?_⟩
  cases a with
  | clock params =>
    obtain rfl := Option.some_inj.1 hstep
    exact le_rfl
  | calibrate main printTime eventtime =>
    obtain rfl := Option.some_inj.1 hstep
    exact s.lastSyncTime_le_calibrateClock main printTime eventtime

end SecondarySync

/-- The conversions of `ClockSync` undo each other up to less than one tick. -/
theorem ClockSync.abs_clockToPrintTime_sub_lt {s : ClockSync K} (hfreq : 0 < s.mcuFreq) (x : K) :
    |s.clockToPrintTime (s.printTimeToClock x) - x| * s.mcuFreq < 1 := by
  have hline : (s.clockToPrintTime (s.printTimeToClock x) - x) * s.mcuFreq =
      (truncate (x * s.mcuFreq) : K) - x * s.mcuFreq := by
    rw [clockToPrintTime, printTimeToClock]
    field_simp
  calc |s.clockToPrintTime (s.printTimeToClock x) - x| * s.mcuFreq
      = |(truncate (x * s.mcuFreq) : K) - x * s.mcuFreq| := by
        rw [← hline, abs_mul, abs_of_pos hfreq]
    _ < 1 := abs_truncate_sub_lt _

namespace SecondarySync

variable {s : SecondarySync K} {main : ClockSync K}

/-- Where the estimated clock at `sync2_print_time` is not that at `sync1_print_time`, the new map
agrees with the old one at the first and with the estimate at the second time, and goes up if the
estimate does. Where it is, `calibrate_clock` raises an exception. The second time is never moved
backwards. -/
theorem calibrateClock_spec (h : PositiveFreqs s main) (printTime eventtime : K) :
    (s.sync2Clock main printTime eventtime ≠ s.sync1Clock main printTime eventtime →
      ∃ t, s.calibrateClock main printTime eventtime = some t ∧
        Calibrated s t main printTime eventtime) ∧
    (s.sync2Clock main printTime eventtime = s.sync1Clock main printTime eventtime →
      s.calibrateClock main printTime eventtime = none) ∧
    (∀ x, |s.clockToPrintTime (s.printTimeToClock x) - x| * |s.adjustedFreq| < 1) ∧
    (∀ x, |main.clockToPrintTime (main.printTimeToClock x) - x| * main.mcuFreq < 1) ∧
    ∀ sqrt events t, (system sqrt).run s events = some t → s.lastSyncTime ≤ t.lastSyncTime :=
  ⟨exists_calibrated h, calibrateClock_eq_none, abs_clockToPrintTime_sub_lt h.adjustedFreq.ne',
    ClockSync.abs_clockToPrintTime_sub_lt h.main_mcuFreq, fun _ _ _ => lastSyncTime_le_run⟩

/-- A clock that was set up at time 0, with this clock and frequency. -/
def ofLine (clock : ℤ) (freq : ℚ) : ClockSync ℚ :=
  { ClockSync.connect freq 0 0 0 with clockEst := ⟨0, clock, freq⟩ }

/-- The map of a secondary micro-controller at these frequencies, from before any calibration. -/
def fresh (clock : ℤ) (freq offset : ℚ) : SecondarySync ℚ where
  sync := ofLine clock freq
  adjustedOffset := offset
  adjustedFreq := freq
  lastSyncTime := 0

theorem calibrateClock_fresh : ∃ t,
    (fresh 7 100 (-1 / 10)).calibrateClock (ofLine 0 50) 3 2 = some t ∧
      Calibrated (fresh 7 100 (-1 / 10)) t (ofLine 0 50) 3 2 :=
  (@calibrateClock_spec ℚ _ _ _ _ (fresh 7 100 (-1 / 10)) (ofLine 0 50)
    ⟨by decide +kernel, by decide +kernel, by decide +kernel, by decide +kernel, by decide +kernel⟩
    3 2).1 (by decide +kernel)

/-- The clocks may be the same, and then there is no new map. -/
theorem not_calibrateClock_isSome : ¬ ∀ (s : SecondarySync ℚ) (main : ClockSync ℚ)
    (printTime eventtime : ℚ), PositiveFreqs s main →
      ∃ t, s.calibrateClock main printTime eventtime = some t ∧
        Calibrated s t main printTime eventtime := by
  intro h
  have hpos : PositiveFreqs (fresh 0 1 (-4)) (ofLine 0 1) :=
    ⟨by decide +kernel, by decide +kernel, by decide +kernel, by decide +kernel, by decide +kernel⟩
  obtain ⟨t, ht, -⟩ := h (fresh 0 1 (-4)) (ofLine 0 1) 0 0 hpos
  rw [calibrateClock_eq_none (by decide +kernel)] at ht
  exact absurd ht (by simp)

end SecondarySync

end Thinker
