import Thinker.QuadraticSteps

/-!
# Step compression

`compress_bisect_add` (`stepcompress.c`) looks for the longest run of queued steps that one move
covers, each step in a window before its time. For an `add` it narrows the range of intervals step
by step as far as it can; then it narrows the range of `add` and takes the next one out of that.
`check_line` goes through the steps of a move once more.

Computations with `int32_t` that may leave the range go through `i32`, which says what comes out
then; a signed overflow is undefined in C, so a result that depends on it is no result. Those with
`uint32_t` wrap around.
-/

namespace Thinker

/-- `struct points`. -/
structure Points where
  minp : ℤ
  maxp : ℤ

/-- `struct step_move`. -/
structure StepMove where
  interval : ℕ
  count : ℕ
  add : ℤ
  deriving DecidableEq, Repr

/-- The part of `struct stepcompress` that the compression reads. The queue has the low 32 bits of
the clocks of the steps from `queue_pos` to `queue_next`. -/
structure Stepcompress where
  queue : List ℕ
  maxError : ℕ
  lastStepClock : ℕ

/-- Subtraction of `uint32_t`. -/
def sub32 (a b : ℕ) : ℕ :=
  (a + 2 ^ 32 - b % 2 ^ 32) % 2 ^ 32

/-- A `uint32_t` as `int32_t`. -/
def toInt32 (a : ℕ) : ℤ :=
  Int.bmod a (2 ^ 32)

/-- An `int32_t` as `uint32_t`. -/
def toUInt32 (a : ℤ) : ℕ :=
  (a % 2 ^ 32).toNat

namespace Stepcompress

/-- A step after the last one, in ticks from the clock of that. -/
def ticks (sc : Stepcompress) (i : ℕ) : ℕ :=
  sub32 (sc.queue.getD i 0) sc.lastStepClock

/-- The error that `minmax_point` allows for. -/
def pointError (sc : Stepcompress) (i : ℕ) : ℕ :=
  let prevpoint := if 0 < i then sc.ticks (i - 1) else 0
  let maxError := sub32 (sc.ticks i) prevpoint / 2
  if maxError > sc.maxError then sc.maxError else maxError

/-- `minmax_point` of the step `pos = queue_pos + i`. -/
def minmaxPoint (sc : Stepcompress) (i : ℕ) : Points where
  minp := toInt32 (sub32 (sc.ticks i) (sc.pointError i))
  maxp := toInt32 (sc.ticks i)

section

variable (i32 : ℤ → ℤ)

/-- `idiv_up`. -/
def idivUp (n d : ℤ) : ℤ :=
  if 0 ≤ n then (i32 (i32 (n + d) - 1)).tdiv d else n.tdiv d

/-- `idiv_down`. -/
def idivDown (n d : ℤ) : ℤ :=
  if 0 ≤ n then n.tdiv d else (i32 (i32 (n - d) + 1)).tdiv d

/-- `count*(count-1)/2`. -/
def addfactor (count : ℕ) : ℤ :=
  (i32 (count * (count - 1))).tdiv 2

/-- Where the search for a sequence with one `add` has ended : at the end of the queue, or with the
`count` of steps that it covers, the interval for them, the range of intervals that the next point
leaves, and the next point. -/
structure Extent where
  isEnd : Bool
  count : ℕ
  interval : ℤ
  nextmininterval : ℤ
  nextmaxinterval : ℤ
  nextpoint : Points

/-- The least interval that brings the sequence to the next point. -/
def nextMin (add nextmininterval : ℤ) (nextcount : ℕ) (minp : ℤ) : ℤ :=
  let c := i32 (add * addfactor i32 nextcount)
  if i32 (nextmininterval * nextcount) < i32 (minp - c) then
    idivUp i32 (i32 (minp - c)) nextcount
  else nextmininterval

/-- The greatest interval that brings the sequence to the next point. -/
def nextMax (add nextmaxinterval : ℤ) (nextcount : ℕ) (maxp : ℤ) : ℤ :=
  let c := i32 (add * addfactor i32 nextcount)
  if i32 (nextmaxinterval * nextcount) > i32 (maxp - c) then
    idivDown i32 (i32 (maxp - c)) nextcount
  else nextmaxinterval

/-- "Find longest valid sequence with the given 'add'" : `count` steps are covered, and `rest` are
behind them. -/
def extend (sc : Stepcompress) (add : ℤ) : ℕ → ℕ → ℤ → ℤ → Extent
  | 0, count, nextmininterval, nextmaxinterval =>
    ⟨true, count, nextmaxinterval, nextmininterval, nextmaxinterval, ⟨0, 0⟩⟩
  | rest + 1, count, nextmininterval, nextmaxinterval =>
    let nextcount := count + 1
    let nextpoint := sc.minmaxPoint count
    let nextmin := nextMin i32 add nextmininterval nextcount nextpoint.minp
    let nextmax := nextMax i32 add nextmaxinterval nextcount nextpoint.maxp
    if nextmin > nextmax then ⟨false, count, nextmaxinterval, nextmin, nextmax, nextpoint⟩
    else extend sc add rest nextcount nextmin nextmax

/-- The variables of the search over `add`. -/
structure Search where
  outerMininterval : ℤ
  outerMaxinterval : ℤ
  add : ℤ
  minadd : ℤ
  maxadd : ℤ
  bestinterval : ℤ
  bestcount : ℕ
  bestadd : ℤ
  bestreach : ℤ
  zerointerval : ℤ
  zerocount : ℕ

/-- A `step_move` of variables of the search. -/
def stepMove (interval : ℤ) (count : ℕ) (add : ℤ) : StepMove where
  interval := toUInt32 interval
  count := count % 2 ^ 16
  add := Int.bmod add (2 ^ 16)

namespace Search

/-- Where the sequence ends. -/
def reach (s : Search) (e : Extent) : ℤ :=
  i32 (i32 (s.add * addfactor i32 e.count) + i32 (e.interval * e.count))

/-- Whether this is the best sequence found so far. -/
def isBest (s : Search) (e : Extent) : Bool :=
  s.reach i32 e > s.bestreach || (s.reach i32 e == s.bestreach && e.interval > s.bestinterval)

/-- The best sequence, and the best with the add zero. -/
def improve (s : Search) (e : Extent) : Search :=
  if s.isBest i32 e then
    { s with
      bestinterval := e.interval
      bestcount := e.count
      bestadd := s.add
      bestreach := s.reach i32 e
      zerointerval := if s.add = 0 then e.interval else s.zerointerval
      zerocount := if s.add = 0 then e.count else s.zerocount }
  else s

/-- "Check if a greater or lesser add could extend the sequence". -/
def turn (s : Search) (e : Extent) : Search :=
  let nextcount := e.count + 1
  let nextreach :=
    i32 (i32 (s.add * addfactor i32 nextcount) + i32 (e.interval * nextcount))
  if nextreach < e.nextpoint.minp then
    { s with minadd := s.add + 1, outerMaxinterval := e.nextmaxinterval }
  else { s with maxadd := s.add - 1, outerMininterval := e.nextmininterval }

/-- `errdelta`. -/
def errdelta (maxError count : ℕ) : ℤ :=
  toInt32 (maxError * 11 % 2 ^ 32 / toUInt32 (i32 (count * count)))

/-- The range of `add` after the deviation between two quadratic sequences. -/
def deviate (s : Search) (maxError : ℕ) (e : Extent) : Search :=
  if e.count > 1 then
    { s with
      minadd := max s.minadd (i32 (s.add - errdelta i32 maxError e.count))
      maxadd := min s.maxadd (i32 (s.add + errdelta i32 maxError e.count)) }
  else s

/-- "See if next point would further limit the add range". -/
def limit (s : Search) (e : Extent) : Search :=
  let nextcount := e.count + 1
  let nextaddfactor := addfactor i32 nextcount
  let low := i32 (e.nextpoint.minp - i32 (s.outerMaxinterval * nextcount))
  let high := i32 (e.nextpoint.maxp - i32 (s.outerMininterval * nextcount))
  { s with
    minadd :=
      if i32 (s.minadd * nextaddfactor) < low then idivUp i32 low nextaddfactor else s.minadd
    maxadd :=
      if i32 (s.maxadd * nextaddfactor) > high then idivDown i32 high nextaddfactor else s.maxadd }

/-- The move after the search. -/
def finish (s : Search) : StepMove :=
  if s.zerocount + s.zerocount / 16 ≥ s.bestcount then stepMove s.zerointerval s.zerocount 0
  else stepMove s.bestinterval s.bestcount s.bestadd

/-- The loop over `add`. `none` is a search without an end. -/
def run (sc : Stepcompress) : ℕ → Search → Option StepMove
  | 0, _ => none
  | fuel + 1, s =>
    let steps := min sc.queue.length 65535
    let e := extend i32 sc s.add (steps - 1) 1 s.outerMininterval s.outerMaxinterval
    if e.isEnd then some (stepMove e.interval e.count s.add)
    else
      let isBest := s.isBest i32 e
      let s := s.improve i32 e
      if isBest && e.count > 0x200 then some s.finish
      else
        let s := ((s.turn i32 e).deviate i32 sc.maxError e).limit i32 e
        if s.minadd > s.maxadd then some s.finish
        else
          run sc fuel { s with add := s.maxadd - (i32 (s.maxadd - s.minadd)).tdiv 4 }

end Search

/-- `compress_bisect_add`. -/
def compressBisectAdd (fuel : ℕ) (sc : Stepcompress) : Option StepMove :=
  let point := sc.minmaxPoint 0
  Search.run i32 sc fuel
    { outerMininterval := point.minp
      outerMaxinterval := point.maxp
      add := 0
      minadd := -0x8000
      maxadd := 0x7fff
      bestinterval := 0
      bestcount := 1
      bestadd := 1
      bestreach := -2 ^ 31
      zerointerval := 0
      zerocount := 0 }

end

/-- The loop of `check_line`, with the steps that are left. -/
def checkPoints (sc : Stepcompress) (add : ℤ) : ℕ → ℕ → ℕ → ℕ → Bool
  | 0, _, _, _ => true
  | left + 1, i, interval, p =>
    let point := sc.minmaxPoint i
    let p := (p + interval) % 2 ^ 32
    if p < toUInt32 point.minp || p > toUInt32 point.maxp then false
    else if interval ≥ 0x80000000 then false
    else checkPoints sc add left (i + 1) (toUInt32 (interval + add)) p

/-- Whether `check_line` returns 0. -/
def checkLine (sc : Stepcompress) (move : StepMove) : Bool :=
  if move.count = 0 || (move.interval = 0 && move.add = 0 && move.count > 1)
      || move.interval ≥ 0x80000000 then false
  else checkPoints sc move.add move.count 0 move.interval 0

end Stepcompress

/-! ## What `check_line` accepts -/

theorem toUInt32_natCast {a : ℕ} (h : a < 2 ^ 32) : toUInt32 (a : ℤ) = a := by
  unfold toUInt32
  omega

theorem toUInt32_toInt32 {a : ℕ} (h : a < 2 ^ 32) : toUInt32 (toInt32 a) = a := by
  unfold toUInt32 toInt32
  rw [show ((2 : ℤ) ^ 32) = ((2 ^ 32 : ℕ) : ℤ) by norm_num, Int.bmod_emod]
  omega

/-- An interval that is not taken for an overflow. -/
theorem toUInt32_lt {a : ℤ} (hlow : -2 ^ 15 ≤ a) (hhigh : a < 2 ^ 31 + 2 ^ 15)
    (h : toUInt32 a < 2 ^ 31) : 0 ≤ a ∧ (toUInt32 a : ℤ) = a := by
  unfold toUInt32 at h ⊢
  omega

namespace Stepcompress

variable {sc : Stepcompress} {add interval : ℤ}

theorem sub32_lt (a b : ℕ) : sub32 a b < 2 ^ 32 :=
  Nat.mod_lt _ (by norm_num)

theorem ticks_lt (sc : Stepcompress) (i : ℕ) : sc.ticks i < 2 ^ 32 :=
  sub32_lt _ _

@[simp] theorem toUInt32_maxp (sc : Stepcompress) (i : ℕ) :
    toUInt32 (sc.minmaxPoint i).maxp = sc.ticks i := by
  have hround := toUInt32_toInt32 (sc.ticks_lt i)
  rw [← hround]
  simp only [minmaxPoint, hround]

@[simp] theorem toUInt32_minp (sc : Stepcompress) (i : ℕ) :
    toUInt32 (sc.minmaxPoint i).minp = sub32 (sc.ticks i) (sc.pointError i) := by
  have hround := toUInt32_toInt32 (sub32_lt (sc.ticks i) (sc.pointError i))
  rw [← hround]
  simp only [minmaxPoint, hround]

/-- The steps that pass the loop of `check_line` do not go back, and lie between their points. -/
theorem checkPoints_spec (hadd : -2 ^ 15 ≤ add ∧ add < 2 ^ 15) {left i p : ℕ}
    (hp : (p : ℤ) = quad add interval i) (hpoint : p < 2 ^ 31)
    (hlow : -2 ^ 15 ≤ interval + add * i) (hhigh : interval + add * i < 2 ^ 31 + 2 ^ 15)
    (hticks : ∀ j, i ≤ j → j < i + left → sc.ticks j < 2 ^ 31)
    (h : sc.checkPoints add left i (toUInt32 (interval + add * i)) p = true) {j : ℕ}
    (hij : i ≤ j) (hj : j < i + left) :
    0 ≤ interval + add * j ∧ quad add interval (j + 1) ≤ sc.ticks j ∧
      (sub32 (sc.ticks j) (sc.pointError j) : ℤ) ≤ quad add interval (j + 1) := by
  induction left generalizing i p with
  | zero => omega
  | succ left ih =>
    unfold checkPoints at h
    dsimp only at h
    split_ifs at h with hrange hover
    simp only [Bool.or_eq_true, decide_eq_true_eq, not_or, not_lt] at hrange
    obtain ⟨hnonneg, hcast⟩ := toUInt32_lt hlow hhigh (by omega)
    have hi := hticks i le_rfl (by omega)
    have hmod : (p + toUInt32 (interval + add * i)) % 2 ^ 32 = p + toUInt32 (interval + add * i) :=
      Nat.mod_eq_of_lt (by omega)
    have hsum : ((p + toUInt32 (interval + add * i) : ℕ) : ℤ) = quad add interval (i + 1) := by
      push_cast
      rw [hcast, hp, quad_succ]
    obtain ⟨hge, hle⟩ := hrange
    rw [hmod, toUInt32_maxp] at hle
    rw [hmod, toUInt32_minp] at hge
    rcases Nat.eq_or_lt_of_le hij with rfl | hlt
    · exact ⟨hnonneg, hsum.symm.trans_le (Nat.cast_le.2 hle), (Nat.cast_le.2 hge).trans_eq hsum⟩
    · have hnext : interval + add * i + add = interval + add * (i + 1 : ℕ) := by
        push_cast
        ring
      rw [hmod, hcast, hnext] at h
      exact ih hsum (by omega) (by omega) (by omega)
        (fun j hij hj => hticks j (by omega) (by omega)) h hlt (by omega)

/-- A move that `check_line` accepts, for points that are near. -/
theorem checkLine_spec {move : StepMove} (hinterval : move.interval < 2 ^ 32)
    (hadd : -2 ^ 15 ≤ move.add ∧ move.add < 2 ^ 15)
    (hticks : ∀ j < move.count, sc.ticks j < 2 ^ 31) (h : sc.checkLine move = true) :
    1 ≤ move.count ∧ move.interval < 2 ^ 31 ∧ ∀ j < move.count,
      (0 : ℤ) ≤ move.interval + move.add * j ∧
        quad move.add move.interval (j + 1) ≤ sc.ticks j ∧
        (sub32 (sc.ticks j) (sc.pointError j) : ℤ) ≤ quad move.add move.interval (j + 1) := by
  unfold checkLine at h
  split_ifs at h with hbad
  simp only [Bool.or_eq_true, decide_eq_true_eq, not_or, not_le] at hbad
  obtain ⟨⟨hcount, -⟩, hlt⟩ := hbad
  refine ⟨by omega, by omega, fun j hj => ?_⟩
  have hstart : toUInt32 ((move.interval : ℤ) + move.add * (0 : ℕ)) = move.interval := by
    simpa using toUInt32_natCast hinterval
  rw [← hstart] at h
  refine checkPoints_spec hadd (by simp [quad, tri]) (by norm_num) ?_ ?_ (fun j _ hj => ?_) h
    (Nat.zero_le j) (by omega)
  · push_cast
    omega
  · push_cast
    omega
  · exact hticks j (by omega)

end Stepcompress

end Thinker
