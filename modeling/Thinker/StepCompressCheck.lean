import Thinker.StepHistory

/-!
# The moves of the compression are accepted

The steps that wait in the queue are behind one another and less than `CLOCK_DIFF_MAX` after the
last step. So are their windows (`Queued.windows`), and a sequence that meets the windows passes
`check_line` (`Queued.checkLine_of_meets`).

The search keeps a range of intervals for each of which the sequence meets the windows so far
(`Queued.extend_spec`). Each round leaves less of the range of `add` (`Queued.round_spec`), and the
best sequence meets its windows. No computation that the result depends on leaves the range of
`int32_t` : the result is the same whatever comes out of those that do
(`compressBisectAdd_accepted`).
-/

namespace Thinker

open StepHistory

/-! ## Bounds of a sequence that meets its windows -/

section Bounds

variable {lo hi : ℕ → ℤ} {n k : ℕ} {add interval : ℤ}

theorem Meets.interval_bounds (hw : Windows lo hi n clockDiffMax)
    (h : Meets lo hi add interval k) (hk : 1 ≤ k) (hn : k ≤ n) :
    1 ≤ interval ∧ interval < clockDiffMax := by
  have h1 := h 1 le_rfl hk
  rw [quad_one] at h1
  have hpos := hw.pos
  have hlt := hw.lt_bound 1 le_rfl (hk.trans hn)
  constructor <;> linarith [h1.1, h1.2]

theorem Meets.quad_lt (hw : Windows lo hi n clockDiffMax) (h : Meets lo hi add interval k)
    (hk : 1 ≤ k) (hn : k ≤ n) : quad add interval k < clockDiffMax :=
  (h k hk le_rfl).2.trans_lt (hw.lt_bound k hk hn)

/-- What is added to the steps stays small. -/
theorem Meets.abs_mul_tri_lt (hw : Windows lo hi n clockDiffMax) (h : Meets lo hi add interval k)
    (hk : 1 ≤ k) (hn : k ≤ n) : |add| * tri k < clockDiffMax :=
  (h.abs_mul_tri_le hw hk hn).trans_lt (h.quad_lt hw hk hn)

/-- What is added to one step stays much smaller. -/
theorem Meets.abs_mul_le (hw : Windows lo hi n clockDiffMax) (h : Meets lo hi add interval k)
    (hk : 1 ≤ k) (hn : k ≤ n) (hadd : |add| ≤ 2 ^ 15) : |add| * k ≤ 2 ^ 24 := by
  have htri := two_mul_tri k
  have hlt := h.abs_mul_tri_lt hw hk hn
  by_contra hbig
  push Not at hbig
  have hk9 : (2 : ℤ) ^ 9 < k := by
    have := mul_le_mul_of_nonneg_right hadd (Int.natCast_nonneg k)
    linarith
  have hprod : (2 : ℤ) ^ 24 * 2 ^ 9 ≤ |add| * k * (k - 1) :=
    mul_le_mul hbig.le (by linarith) (by norm_num) (by linarith)
  have heq : |add| * k * (k - 1) = 2 * (|add| * tri k) := by
    rw [mul_assoc, ← htri]
    ring
  rw [heq] at hprod
  unfold clockDiffMax at hlt
  push_cast at hlt
  linarith

/-- The next point is not much further. -/
theorem Meets.abs_mul_tri_succ (hw : Windows lo hi n clockDiffMax)
    (h : Meets lo hi add interval k) (hk : 1 ≤ k) (hn : k ≤ n) (hadd : |add| ≤ 2 ^ 15) :
    |add| * tri (k + 1) < clockDiffMax + 2 ^ 24 := by
  rw [tri_succ, mul_add]
  have h1 := h.abs_mul_tri_lt hw hk hn
  have h2 := h.abs_mul_le hw hk hn hadd
  linarith

/-- One more interval still fits. -/
theorem Meets.mul_succ_le (hw : Windows lo hi n clockDiffMax) (h : Meets lo hi add interval k)
    (hk : 1 ≤ k) (hn : k ≤ n) (hadd : |add| ≤ 2 ^ 15) :
    2 * (interval * (k + 1 : ℕ)) ≤ 5 * clockDiffMax := by
  obtain ⟨hpos, hlt⟩ := h.interval_bounds hw hk hn
  have hquad := h.quad_lt hw hk hn
  have habs := h.abs_mul_tri_lt hw hk hn
  obtain ⟨hlow, hhigh⟩ := abs_le.1 hadd
  have hcast : interval * ((k + 1 : ℕ) : ℤ) = interval * k + interval := by
    push_cast
    ring
  have hneg : -(add * tri k) ≤ |add| * tri k := by
    rw [← neg_mul]
    exact mul_le_mul_of_nonneg_right (neg_le_abs add) (tri_nonneg k)
  have hk2 : interval * k < 2 * clockDiffMax := by
    unfold quad at hquad
    linarith
  rw [hcast]
  unfold clockDiffMax at *
  by_cases hsmall : k < 4
  · interval_cases k
    · rw [quad_one] at hquad
      push_cast at *
      linarith
    · have h2 : tri 2 = 1 := by decide
      unfold quad at hquad
      rw [h2] at hquad
      push_cast at *
      linarith
    · have h3 : tri 3 = 3 := by decide
      unfold quad at hquad
      rw [h3] at hquad
      push_cast at *
      linarith
  · have h4 : interval * 4 ≤ interval * k :=
      mul_le_mul_of_nonneg_left (by exact_mod_cast not_lt.1 hsmall) (by linarith)
    linarith

end Bounds


namespace Stepcompress

/-! ## Exact computations -/

section Exact

variable {i32 : ℤ → ℤ} {n d a : ℤ}

/-- `idiv_up` rounds up. -/
theorem idivUp_le_iff (hi32 : Lawful i32) (hd : 0 < d) (hlow : -2 ^ 31 ≤ n)
    (hhigh : n + d < 2 ^ 31) : idivUp i32 n d ≤ a ↔ n ≤ a * d := by
  unfold idivUp
  split_ifs with hn
  · rw [hi32 _ (by omega) hhigh, hi32 _ (by omega) (by omega),
      Int.tdiv_eq_ediv_of_nonneg (by omega), ← Int.lt_add_one_iff, Int.ediv_lt_iff_lt_mul hd,
      add_mul, one_mul]
    omega
  · have hneg : n.tdiv d = -((-n) / d) := by
      rw [← Int.tdiv_eq_ediv_of_nonneg (by omega), Int.neg_tdiv, neg_neg]
    rw [hneg, neg_le, Int.le_ediv_iff_mul_le hd, neg_mul, neg_le_neg_iff]

/-- `idiv_down` rounds down. -/
theorem le_idivDown_iff (hi32 : Lawful i32) (hd : 0 < d) (hlow : -2 ^ 31 ≤ n - d) :
    a ≤ idivDown i32 n d ↔ a * d ≤ n := by
  unfold idivDown
  split_ifs with hn
  · rw [Int.tdiv_eq_ediv_of_nonneg hn, Int.le_ediv_iff_mul_le hd]
  · have hneg : (n - d + 1).tdiv d = -((d - 1 - n) / d) := by
      rw [← Int.tdiv_eq_ediv_of_nonneg (by omega), show n - d + 1 = -(d - 1 - n) by ring,
        Int.neg_tdiv]
    rw [hi32 _ hlow (by omega), hi32 _ (by omega) (by omega), hneg, le_neg,
      ← Int.lt_add_one_iff, Int.ediv_lt_iff_lt_mul hd, add_mul, one_mul, neg_mul]
    omega

variable {lo hi : ℕ → ℤ} {N count : ℕ} {add interval least greatest point : ℤ}

/-- The terms of a sequence at a point, in the range of the computations. -/
structure InRange (add interval : ℤ) (count : ℕ) : Prop where
  add_bound : |add| * tri count < 2 ^ 30
  interval_nonneg : 0 ≤ interval
  mul_lt : interval * count < 2 ^ 31

theorem mul_tri_bounds (h : |add| * tri count < 2 ^ 30) :
    -2 ^ 30 < add * tri count ∧ add * tri count < 2 ^ 30 := by
  rwa [← abs_lt, abs_mul, abs_of_nonneg (tri_nonneg count)]

theorem InRange.mul_eq (h : InRange add interval count) (hi32 : Lawful i32) :
    i32 (interval * count) = interval * count := by
  have hnonneg := mul_nonneg h.interval_nonneg (Int.natCast_nonneg count)
  exact hi32 _ (by omega) h.mul_lt

/-- The least number of a range with enough multiples. -/
theorem raise_le_iff (hi32 : Lawful i32) (hd : 0 < d) (hlow : -2 ^ 31 ≤ n)
    (hhigh : n + d < 2 ^ 31) :
    (if least * d < n then idivUp i32 n d else least) ≤ a ↔ least ≤ a ∧ n ≤ a * d := by
  split_ifs with hlt
  · rw [idivUp_le_iff hi32 hd hlow hhigh, iff_and_self]
    exact fun hge => (lt_of_mul_lt_mul_right (hlt.trans_le hge) hd.le).le
  · rw [iff_self_and]
    exact fun hge => (not_lt.1 hlt).trans (mul_le_mul_of_nonneg_right hge hd.le)

/-- The greatest number of a range with few enough multiples. -/
theorem le_lower_iff (hi32 : Lawful i32) (hd : 0 < d) (hlow : -2 ^ 31 ≤ n - d) :
    a ≤ (if greatest * d > n then idivDown i32 n d else greatest) ↔ a ≤ greatest ∧ a * d ≤ n := by
  split_ifs with hlt
  · rw [le_idivDown_iff hi32 hd hlow, iff_and_self]
    exact fun hge => (lt_of_mul_lt_mul_right (hge.trans_lt hlt) hd.le).le
  · rw [iff_self_and]
    exact fun hge => (mul_le_mul_of_nonneg_right hge hd.le).trans (not_lt.1 hlt)

/-- The least interval of a range with which the sequence is not before a point. -/
theorem nextMin_le_iff (hi32 : Lawful i32) (h : InRange add least count) (hcount : 0 < count)
    (hcount16 : count < 2 ^ 16) (hpoint : 0 ≤ point ∧ point < clockDiffMax) :
    nextMin i32 add least count point ≤ a ↔ least ≤ a ∧ point ≤ quad add a count := by
  obtain ⟨hlow, hhigh⟩ := mul_tri_bounds h.add_bound
  have hd : (0 : ℤ) < count := by exact_mod_cast hcount
  unfold clockDiffMax at hpoint
  push_cast at hpoint
  unfold nextMin quad
  dsimp only
  rw [add_mul_addfactor hi32 h.add_bound, h.mul_eq hi32, hi32 _ (by omega) (by omega),
    raise_le_iff hi32 hd (by omega) (by omega), sub_le_iff_le_add']

/-- The greatest interval of a range with which the sequence is not behind a point. -/
theorem le_nextMax_iff (hi32 : Lawful i32) (h : InRange add greatest count) (hcount : 0 < count)
    (hcount16 : count < 2 ^ 16) (hpoint : 0 ≤ point ∧ point < clockDiffMax) :
    a ≤ nextMax i32 add greatest count point ↔ a ≤ greatest ∧ quad add a count ≤ point := by
  obtain ⟨hlow, hhigh⟩ := mul_tri_bounds h.add_bound
  have hd : (0 : ℤ) < count := by exact_mod_cast hcount
  unfold clockDiffMax at hpoint
  push_cast at hpoint
  unfold nextMax quad
  dsimp only
  rw [add_mul_addfactor hi32 h.add_bound, h.mul_eq hi32, hi32 _ (by omega) (by omega),
    le_lower_iff hi32 hd (by omega), le_sub_iff_add_le']

end Exact

/-! ## The windows of the queue -/

variable {sc : Stepcompress} {clocks : List ℕ}

/-- Steps wait in the queue in their order, not far after the last step. -/
structure Queued (sc : Stepcompress) (clocks : List ℕ) : Prop where
  queue_eq : sc.queue = clocks.map (· % 2 ^ 32)
  ne_nil : clocks ≠ []
  increasing : clocks.Pairwise (· < ·)
  after : ∀ clock ∈ clocks, sc.lastStepClock < clock ∧ clock < sc.lastStepClock + clockDiffMax
  maxError_lt : sc.maxError < 2 ^ 16

/-- The window of a step, counted from one. -/
def lo (sc : Stepcompress) (k : ℕ) : ℤ :=
  (sc.minmaxPoint (k - 1)).minp

def hi (sc : Stepcompress) (k : ℕ) : ℤ :=
  (sc.minmaxPoint (k - 1)).maxp

theorem lo_succ (sc : Stepcompress) (i : ℕ) : sc.lo (i + 1) = (sc.minmaxPoint i).minp :=
  rfl

theorem hi_succ (sc : Stepcompress) (i : ℕ) : sc.hi (i + 1) = (sc.minmaxPoint i).maxp :=
  rfl

theorem sub32_mod {a b : ℕ} (hle : b ≤ a) (hlt : a < b + 2 ^ 32) :
    sub32 (a % 2 ^ 32) b = a - b := by
  unfold sub32
  omega

theorem sub32_eq {a b : ℕ} (hle : b ≤ a) (ha : a < 2 ^ 32) : sub32 a b = a - b := by
  unfold sub32
  omega

theorem toInt32_eq {a : ℕ} (h : a < 2 ^ 31) : toInt32 a = a := by
  unfold toInt32
  rw [Int.bmod_eq_of_le (by omega) (by omega)]

namespace Queued

variable {i j k : ℕ}

theorem length_eq (h : Queued sc clocks) : sc.queue.length = clocks.length := by
  rw [h.queue_eq, List.length_map]

theorem ticks_eq (h : Queued sc clocks) (hi : i < clocks.length) :
    sc.ticks i = clocks[i] - sc.lastStepClock := by
  obtain ⟨hafter, hlt⟩ := h.after _ (List.getElem_mem hi)
  unfold clockDiffMax at hlt
  unfold ticks
  rw [h.queue_eq, List.getD_eq_getElem?_getD, List.getElem?_map, List.getElem?_eq_getElem hi,
    Option.map_some, Option.getD_some]
  exact sub32_mod hafter.le (by omega)

theorem ticks_bounds (h : Queued sc clocks) (hi : i < clocks.length) :
    1 ≤ sc.ticks i ∧ sc.ticks i < clockDiffMax := by
  obtain ⟨hafter, hlt⟩ := h.after _ (List.getElem_mem hi)
  rw [h.ticks_eq hi]
  omega

theorem ticks_lt_ticks (h : Queued sc clocks) (hij : i < j) (hj : j < clocks.length) :
    sc.ticks i < sc.ticks j := by
  have hi : i < clocks.length := hij.trans hj
  have hlt := List.pairwise_iff_getElem.1 h.increasing i j hi hj hij
  have hafter := (h.after _ (List.getElem_mem hi)).1
  rw [h.ticks_eq hi, h.ticks_eq hj]
  omega

/-- The step before, in ticks from the last clock. -/
theorem pointError_bounds (h : Queued sc clocks) (hi : i < clocks.length) :
    sc.pointError i ≤ sc.maxError ∧
      2 * sc.pointError i ≤ sc.ticks i - if 0 < i then sc.ticks (i - 1) else 0 := by
  have hprev : (if 0 < i then sc.ticks (i - 1) else 0) ≤ sc.ticks i := by
    split_ifs with hpos
    · exact (h.ticks_lt_ticks (by omega) hi).le
    · exact Nat.zero_le _
  have herror : sc.pointError i =
      min ((sc.ticks i - if 0 < i then sc.ticks (i - 1) else 0) / 2) sc.maxError := by
    unfold pointError
    dsimp only
    rw [sub32_eq hprev (sc.ticks_lt i)]
    split_ifs <;> omega
  rw [herror]
  omega

theorem hi_eq (h : Queued sc clocks) (hi : i < clocks.length) :
    (sc.minmaxPoint i).maxp = sc.ticks i := by
  have hlt := (h.ticks_bounds hi).2
  unfold clockDiffMax at hlt
  unfold minmaxPoint
  dsimp only
  rw [toInt32_eq (by omega)]

theorem lo_eq (h : Queued sc clocks) (hi : i < clocks.length) :
    (sc.minmaxPoint i).minp = (sc.ticks i : ℤ) - sc.pointError i := by
  have hlt := (h.ticks_bounds hi).2
  have herror := (h.pointError_bounds hi).2
  unfold clockDiffMax at hlt
  have hle : sc.pointError i ≤ sc.ticks i := by omega
  unfold minmaxPoint
  dsimp only
  rw [sub32_eq hle (sc.ticks_lt i), toInt32_eq (by omega), Nat.cast_sub hle]

/-- The windows lie behind one another. -/
theorem windows (h : Queued sc clocks) : Windows sc.lo sc.hi clocks.length clockDiffMax where
  le k hk hn := by
    have hk : k - 1 < clocks.length := by omega
    unfold lo hi
    rw [h.lo_eq hk, h.hi_eq hk]
    omega
  behind k hk hn := by
    obtain ⟨i, rfl⟩ := Nat.exists_eq_add_of_le' hk
    have herror := (h.pointError_bounds hn).2
    have hlt := h.ticks_lt_ticks (Nat.lt_add_one i) hn
    unfold lo hi
    rw [Nat.add_sub_cancel, Nat.add_sub_cancel, h.lo_eq hn, h.hi_eq (by omega)]
    rw [if_pos (Nat.succ_pos i), Nat.add_sub_cancel] at herror
    omega
  pos := by
    have hlength := List.length_pos_of_ne_nil h.ne_nil
    have herror := (h.pointError_bounds hlength).2
    have hpos := (h.ticks_bounds hlength).1
    unfold lo
    rw [h.lo_eq hlength]
    rw [if_neg (lt_irrefl 0)] at herror
    omega
  lt_bound k hk hn := by
    have hk : k - 1 < clocks.length := by omega
    have hlt := (h.ticks_bounds hk).2
    unfold hi
    rw [h.hi_eq hk]
    exact_mod_cast hlt

/-- A window is not wide. -/
theorem hi_sub_lo (h : Queued sc clocks) (hi : i < clocks.length) :
    (sc.minmaxPoint i).maxp - (sc.minmaxPoint i).minp < 2 ^ 16 := by
  have herror := (h.pointError_bounds hi).1
  have hmax := h.maxError_lt
  rw [h.lo_eq hi, h.hi_eq hi]
  omega

/-! ## Sequences that are accepted -/

variable {add interval : ℤ}

theorem quad_nonneg (h : Queued sc clocks) (hmeets : Meets sc.lo sc.hi add interval k)
    (hk : k ≤ clocks.length) (hj : j ≤ k) : 0 ≤ quad add interval j := by
  rcases Nat.eq_zero_or_pos j with rfl | hpos
  · rw [quad_zero]
  · have hlow := h.windows.lo_pos hpos (hj.trans hk)
    linarith [(hmeets j hpos hj).1]

/-- The steps of a sequence that meets its windows go ahead, and not far. -/
theorem step_bounds (h : Queued sc clocks) (hmeets : Meets sc.lo sc.hi add interval k)
    (hk : k ≤ clocks.length) (hj : j < k) :
    1 ≤ interval + add * j ∧ interval + add * j < clockDiffMax := by
  have hnonneg := h.quad_nonneg hmeets hk hj.le
  have hlt := (hmeets.mono hj).quad_lt h.windows (Nat.succ_pos j) (by omega)
  rw [quad_succ] at hlt
  exact ⟨hmeets.step_pos h.windows hk hj, by linarith⟩

theorem toUInt32_cast {a : ℤ} (hnonneg : 0 ≤ a) (hlt : a < 2 ^ 32) : (toUInt32 a : ℤ) = a := by
  unfold toUInt32
  omega

theorem checkPoints_of_meets (h : Queued sc clocks) (hmeets : Meets sc.lo sc.hi add interval k)
    (hk : k ≤ clocks.length) {left p : ℕ} (hleft : i + left = k)
    (hp : (p : ℤ) = quad add interval i) :
    sc.checkPoints add left i (toUInt32 (interval + add * i)) p = true := by
  induction left generalizing i p with
  | zero => rfl
  | succ left ih =>
    obtain ⟨hpos, hlt⟩ := h.step_bounds hmeets hk (show i < k by omega)
    have hone : 1 ≤ i + 1 := Nat.le_add_left 1 i
    obtain ⟨hlow, hhigh⟩ := hmeets (i + 1) hone (by omega)
    have hquad := (hmeets.mono (show i + 1 ≤ k by omega)).quad_lt h.windows hone (by omega)
    have hpoint := h.windows.lo_pos hone (by omega)
    have hbound := h.windows.lt_bound (i + 1) hone (by omega)
    rw [lo_succ] at hlow hpoint
    rw [hi_succ] at hhigh hbound
    unfold clockDiffMax at hlt hquad hbound
    push_cast at hlt hquad hbound
    have hcast : (toUInt32 (interval + add * i) : ℤ) = interval + add * i :=
      toUInt32_cast (by linarith) (by linarith)
    have hsum : ((p + toUInt32 (interval + add * i) : ℕ) : ℤ) = quad add interval (i + 1) := by
      push_cast
      rw [hcast, hp, quad_succ]
    have hnext : interval + add * i + add = interval + add * (i + 1 : ℕ) := by
      push_cast
      ring
    have hrest : sc.checkPoints add left (i + 1)
        (toUInt32 ((toUInt32 (interval + add * i) : ℤ) + add))
        (p + toUInt32 (interval + add * i)) = true := by
      rw [hcast, hnext]
      exact ih (by omega) hsum
    unfold checkPoints
    dsimp only
    -- what is known of the point is all that is needed
    generalize sc.minmaxPoint i = point at *
    generalize toUInt32 (interval + add * i) = step at *
    have hminp : (toUInt32 point.minp : ℤ) = point.minp :=
      toUInt32_cast (by linarith) (by linarith)
    have hmaxp : (toUInt32 point.maxp : ℤ) = point.maxp :=
      toUInt32_cast (by linarith) (by linarith)
    have hmod : (p + step) % 2 ^ 32 = p + step := Nat.mod_eq_of_lt (by omega)
    have hrange : ¬ (p + step < toUInt32 point.minp ∨ p + step > toUInt32 point.maxp) := by
      omega
    rw [hmod, if_neg (by simpa using hrange), if_neg (by omega)]
    exact hrest

/-- A sequence that meets its windows makes a move that is accepted. -/
theorem checkLine_of_meets (h : Queued sc clocks) (hmeets : Meets sc.lo sc.hi add interval k)
    (hk : 1 ≤ k) (hn : k ≤ clocks.length) (hk16 : k < 2 ^ 16)
    (hadd : -2 ^ 15 ≤ add ∧ add < 2 ^ 15) :
    sc.checkLine (stepMove interval k add) = true := by
  obtain ⟨hpos, hlt⟩ := hmeets.interval_bounds h.windows hk hn
  unfold clockDiffMax at hlt
  push_cast at hlt
  have hinterval : (toUInt32 interval : ℤ) = interval := toUInt32_cast (by omega) (by omega)
  have hcount : (stepMove interval k add).count = k := Nat.mod_eq_of_lt hk16
  have hmove : (stepMove interval k add).add = add := by
    unfold stepMove
    dsimp only
    rw [Int.bmod_eq_of_le (by omega) (by omega)]
  have hcheck := h.checkPoints_of_meets hmeets hn (Nat.zero_add k) (quad_zero add interval).symm
  rw [Nat.cast_zero, mul_zero, add_zero] at hcheck
  unfold checkLine
  rw [hcount, hmove, if_neg]
  · exact hcheck
  · unfold stepMove
    simp only [Bool.or_eq_true, Bool.and_eq_true, decide_eq_true_eq, not_or, not_and, not_le]
    omega

end Queued

/-! ## The longest sequence for one `add` -/

/-- Exact arithmetic. -/
theorem lawful_id : Lawful id :=
  fun _ _ _ => rfl

/-- Where the search for one `add` has ended, a sequence meets its windows. -/
structure Ends (sc : Stepcompress) (N : ℕ) (add least greatest : ℤ) (e : Extent) : Prop where
  count_pos : 1 ≤ e.count
  count_le : e.count ≤ N
  meets : Meets sc.lo sc.hi add e.interval e.count
  least_le : least ≤ e.interval
  le_greatest : e.interval ≤ greatest

/-- Where it has stopped at a next point, that is behind the end of the sequence or not. -/
structure Stops (sc : Stepcompress) (N : ℕ) (add least : ℤ) (e : Extent) : Prop where
  count_lt : e.count < N
  nextpoint_eq : e.nextpoint = sc.minmaxPoint e.count
  nextmax_eq : quad add e.interval (e.count + 1) < e.nextpoint.minp →
    e.nextmaxinterval = e.interval
  nextmin_mem : e.nextpoint.minp ≤ quad add e.interval (e.count + 1) →
    least ≤ e.nextmininterval ∧ e.nextmininterval ≤ e.interval

namespace Queued

variable {i32 : ℤ → ℤ} {N count rest : ℕ} {add interval least greatest : ℤ}

/-- One more step of a sequence that meets its windows is in range. -/
theorem inRange_succ (h : Queued sc clocks) (hmeets : Meets sc.lo sc.hi add interval count)
    (hcount : 1 ≤ count) (hn : count ≤ clocks.length) (hadd : |add| ≤ 2 ^ 15) :
    InRange add interval (count + 1) := by
  have htri := hmeets.abs_mul_tri_succ h.windows hcount hn hadd
  have hmul := hmeets.mul_succ_le h.windows hcount hn hadd
  have hpos := (hmeets.interval_bounds h.windows hcount hn).1
  unfold clockDiffMax at htri hmul
  push_cast at htri
  refine ⟨by linarith, by linarith, ?_⟩
  have hP : (((3 * 2 ^ 28 : ℕ) : ℤ)) = 805306368 := by norm_num
  rw [hP] at hmul
  linarith

theorem extend_spec (h : Queued sc clocks) (hadd : |add| ≤ 2 ^ 15) (hN : N ≤ clocks.length)
    (hN16 : N < 2 ^ 16) (hcount : 1 ≤ count) (hrest : count + rest = N)
    (hrange : least ≤ greatest)
    (hmeets : ∀ a, least ≤ a → a ≤ greatest → Meets sc.lo sc.hi add a count) :
    ∃ e, (∀ i32, Lawful i32 → extend i32 sc add rest count least greatest = e) ∧
      Ends sc N add least greatest e ∧ (e.isEnd = false → Stops sc N add least e) := by
  induction rest generalizing count least greatest with
  | zero =>
    refine ⟨_, fun i32 _ => rfl, ⟨hcount, hrest.le, ?_, hrange, le_rfl⟩, fun hfalse => ?_⟩
    · exact hmeets greatest hrange le_rfl
    · exact absurd hfalse (by simp)
  | succ rest ih =>
    have hone : 1 ≤ count + 1 := Nat.le_add_left 1 count
    have hnext : count + 1 ≤ clocks.length := by omega
    have hlow := h.windows.lo_pos hone hnext
    have hle := h.windows.le (count + 1) hone hnext
    have hbound := h.windows.lt_bound (count + 1) hone hnext
    have hleast := h.inRange_succ (hmeets least le_rfl hrange) hcount (by omega) hadd
    have hgreatest := h.inRange_succ (hmeets greatest hrange le_rfl) hcount (by omega) hadd
    have hmin : ∀ i32, Lawful i32 → ∀ a,
        nextMin i32 add least (count + 1) (sc.lo (count + 1)) ≤ a ↔
          least ≤ a ∧ sc.lo (count + 1) ≤ quad add a (count + 1) := fun i32 hi32 a =>
      nextMin_le_iff hi32 hleast (Nat.succ_pos _) (by omega) ⟨by linarith, by linarith⟩
    have hmax : ∀ i32, Lawful i32 → ∀ a,
        a ≤ nextMax i32 add greatest (count + 1) (sc.hi (count + 1)) ↔
          a ≤ greatest ∧ quad add a (count + 1) ≤ sc.hi (count + 1) := fun i32 hi32 a =>
      le_nextMax_iff hi32 hgreatest (Nat.succ_pos _) (by omega) ⟨by linarith, by linarith⟩
    -- both ends of the range are those of exact arithmetic
    obtain ⟨nextmin, hnextmin⟩ : ∃ x, ∀ i32, Lawful i32 →
        nextMin i32 add least (count + 1) (sc.lo (count + 1)) = x :=
      ⟨_, fun i32 hi32 => eq_of_forall_ge_iff fun a =>
        (hmin i32 hi32 a).trans (hmin id lawful_id a).symm⟩
    obtain ⟨nextmax, hnextmax⟩ : ∃ x, ∀ i32, Lawful i32 →
        nextMax i32 add greatest (count + 1) (sc.hi (count + 1)) = x :=
      ⟨_, fun i32 hi32 => eq_of_forall_le_iff fun a =>
        (hmax i32 hi32 a).trans (hmax id lawful_id a).symm⟩
    have hmin : ∀ a, nextmin ≤ a ↔ least ≤ a ∧ sc.lo (count + 1) ≤ quad add a (count + 1) :=
      fun a => by rw [← hnextmin id lawful_id, hmin id lawful_id]
    have hmax : ∀ a, a ≤ nextmax ↔ a ≤ greatest ∧ quad add a (count + 1) ≤ sc.hi (count + 1) :=
      fun a => by rw [← hnextmax id lawful_id, hmax id lawful_id]
    have hnextmin_ge := ((hmin nextmin).1 le_rfl).1
    have hnextmax_le := ((hmax nextmax).1 le_rfl).1
    have hextend : ∀ i32, Lawful i32 → extend i32 sc add (rest + 1) count least greatest =
        if nextmin > nextmax then
          ⟨false, count, greatest, nextmin, nextmax, sc.minmaxPoint count⟩
        else extend i32 sc add rest (count + 1) nextmin nextmax := fun i32 hi32 => by
      rw [← hnextmin i32 hi32, ← hnextmax i32 hi32]
      rfl
    by_cases hgt : nextmin > nextmax
    · refine ⟨_, fun i32 hi32 => (hextend i32 hi32).trans (if_pos hgt),
        ⟨hcount, show count ≤ N by omega, hmeets greatest hrange le_rfl, hrange, le_rfl⟩,
        fun _ => ⟨show count < N by omega, rfl, fun hbehind => ?_, fun hahead => ?_⟩⟩
      · exact le_antisymm hnextmax_le ((hmax greatest).2 ⟨le_rfl, hbehind.le.trans hle⟩)
      · exact ⟨hnextmin_ge, (hmin greatest).2 ⟨hrange, hahead⟩⟩
    · obtain ⟨e, he, hends, hstops⟩ := ih hone (by omega) (not_lt.1 hgt) fun a ha ha' =>
        (hmeets a (hnextmin_ge.trans ha) (ha'.trans hnextmax_le)).succ
          ⟨((hmin a).1 ha).2, ((hmax a).1 ha').2⟩
      refine ⟨e, fun i32 hi32 => (hextend i32 hi32).trans ((if_neg hgt).trans (he i32 hi32)),
        ⟨hends.count_pos, hends.count_le, hends.meets, hnextmin_ge.trans hends.least_le,
          hends.le_greatest.trans hnextmax_le⟩, fun hfalse => ?_⟩
      obtain ⟨hlt, hpoint, hbehind, hahead⟩ := hstops hfalse
      exact ⟨hlt, hpoint, hbehind, fun hge =>
        ⟨hnextmin_ge.trans (hahead hge).1, (hahead hge).2⟩⟩

end Queued

/-! ## The search over `add` -/

/-- A sequence that makes a move. -/
structure Fine (sc : Stepcompress) (N : ℕ) (add interval : ℤ) (count : ℕ) : Prop where
  meets : Meets sc.lo sc.hi add interval count
  count_pos : 1 ≤ count
  count_le : count ≤ N
  add_range : -2 ^ 15 ≤ add ∧ add < 2 ^ 15

namespace Search

/-- The ranges of the search. -/
structure Ranges (sc : Stepcompress) (s : Search) : Prop where
  lo_le : sc.lo 1 ≤ s.outerMininterval
  outer_le : s.outerMininterval ≤ s.outerMaxinterval
  le_hi : s.outerMaxinterval ≤ sc.hi 1
  minadd_ge : -2 ^ 15 ≤ s.minadd
  minadd_le : s.minadd ≤ s.add
  le_maxadd : s.add ≤ s.maxadd
  maxadd_lt : s.maxadd < 2 ^ 15

/-- The best sequences are known. -/
structure Found (sc : Stepcompress) (N : ℕ) (s : Search) : Prop where
  best : Fine sc N s.bestadd s.bestinterval s.bestcount
  bestreach_eq : s.bestreach = quad s.bestadd s.bestinterval s.bestcount
  zero : Fine sc N 0 s.zerointerval s.zerocount

/-- The search goes on. Only at its start there is no best sequence, and `add` is zero. -/
structure Searching (sc : Stepcompress) (s : Search) : Prop extends s.Ranges sc where
  bestcount_le : s.bestcount ≤ 0x200
  found : s.add = 0 ∧ s.bestreach = -2 ^ 31 ∨
    (1 ≤ s.minadd ∨ s.maxadd ≤ -1) ∧ s.Found sc (min sc.queue.length 65535)

variable {s : Search} {e : Extent} {N : ℕ} {i32 : ℤ → ℤ}

/-- A new best sequence changes nothing else. -/
theorem improve_fields (s : Search) (i32 : ℤ → ℤ) (e : Extent) :
    (s.improve i32 e).add = s.add ∧
      (s.improve i32 e).outerMininterval = s.outerMininterval ∧
      (s.improve i32 e).outerMaxinterval = s.outerMaxinterval ∧
      (s.improve i32 e).minadd = s.minadd ∧ (s.improve i32 e).maxadd = s.maxadd := by
  unfold improve
  cases s.isBest i32 e <;> exact ⟨rfl, rfl, rfl, rfl, rfl⟩

theorem Ranges.abs_add_le (h : s.Ranges sc) : |s.add| ≤ 2 ^ 15 := by
  have h1 := h.minadd_ge
  have h2 := h.minadd_le
  have h3 := h.le_maxadd
  have h4 := h.maxadd_lt
  rw [abs_le]
  omega

end Search

namespace Queued

variable {s : Search} {e : Extent} {N : ℕ} {i32 : ℤ → ℤ} {least greatest : ℤ}

/-- The end of the sequence that was found. -/
theorem reach_eq (h : Queued sc clocks) (hN : N ≤ clocks.length) (hs : s.Ranges sc)
    (he : Ends sc N s.add least greatest e) (hi32 : Lawful i32) :
    s.reach i32 e = quad s.add e.interval e.count := by
  have hn := he.count_le.trans hN
  have hquad := he.meets.quad_lt h.windows he.count_pos hn
  have hnonneg := h.quad_nonneg he.meets hn le_rfl
  have htri := he.meets.abs_mul_tri_lt h.windows he.count_pos hn
  have hpos := (he.meets.interval_bounds h.windows he.count_pos hn).1
  have hmul := (h.inRange_succ he.meets he.count_pos hn hs.abs_add_le).mul_lt
  push_cast at hmul
  rw [mul_add, mul_one] at hmul
  have hprod : 0 ≤ e.interval * e.count := mul_nonneg (by linarith) (Int.natCast_nonneg _)
  unfold clockDiffMax at hquad htri
  push_cast at hquad htri
  unfold Search.reach
  rw [add_mul_addfactor hi32 (by linarith), hi32 (e.interval * e.count) (by linarith) (by linarith)]
  exact hi32 (quad s.add e.interval e.count) (by linarith) (by linarith)

/-- The sequence that was found makes a move. -/
theorem fine_of_ends (hs : s.Ranges sc) (he : Ends sc N s.add least greatest e) :
    Fine sc N s.add e.interval e.count :=
  ⟨he.meets, he.count_pos, he.count_le, hs.minadd_ge.trans hs.minadd_le,
    hs.le_maxadd.trans_lt hs.maxadd_lt⟩

/-- A sequence that is not better than the best is not longer. -/
theorem count_le_bestcount (h : Queued sc clocks) (hN : N ≤ clocks.length) (hs : s.Ranges sc)
    (he : Ends sc N s.add least greatest e) (hfound : s.Found sc N)
    (hbest : s.isBest id e = false) : e.count ≤ s.bestcount := by
  by_contra hlt
  have hreach : s.bestreach < s.reach id e := by
    rw [hfound.bestreach_eq, h.reach_eq hN hs he lawful_id]
    exact hfound.best.meets.lt_of_lt h.windows he.meets hfound.best.count_pos (not_le.1 hlt)
      (he.count_le.trans hN)
  unfold Search.isBest at hbest
  rw [decide_eq_true hreach, Bool.true_or] at hbest
  cases hbest

/-- The best sequences after one that was found. -/
theorem found_improve (h : Queued sc clocks) (hN : N ≤ clocks.length) (hs : s.Ranges sc)
    (he : Ends sc N s.add least greatest e)
    (hbest : s.add = 0 ∧ s.bestreach = -2 ^ 31 ∨ s.add ≠ 0 ∧ s.Found sc N) :
    (s.improve id e).Found sc N ∧ e.count ≤ (s.improve id e).bestcount ∧
      (s.isBest id e = true → (s.improve id e).bestcount = e.count) ∧
      (s.isBest id e = false → (s.improve id e).bestcount = s.bestcount) := by
  have hfine := fine_of_ends hs he
  have hreach := h.reach_eq hN hs he lawful_id
  have hnonneg := h.quad_nonneg he.meets (he.count_le.trans hN) le_rfl
  unfold Search.improve
  cases hb : s.isBest id e with
  | false =>
    rcases hbest with ⟨-, hstart⟩ | ⟨-, hfound⟩
    · unfold Search.isBest at hb
      rw [decide_eq_true (show s.reach id e > s.bestreach by rw [hreach, hstart]; linarith),
        Bool.true_or] at hb
      cases hb
    · exact ⟨hfound, h.count_le_bestcount hN hs he hfound hb, nofun, fun _ => rfl⟩
  | true =>
    refine ⟨⟨hfine, hreach, ?_⟩, le_rfl, fun _ => rfl, nofun⟩
    by_cases hzero : s.add = 0
    · rw [if_pos hzero, if_pos hzero]
      exact hzero ▸ hfine
    · rw [if_neg hzero, if_neg hzero]
      rcases hbest with ⟨hadd, -⟩ | ⟨-, hfound⟩
      · exact absurd hadd hzero
      · exact hfound.zero

/-- Where the sequence would be at the next point. -/
theorem nextreach_eq (h : Queued sc clocks) (hN : N ≤ clocks.length) (hs : s.Ranges sc)
    (he : Ends sc N s.add least greatest e) (hi32 : Lawful i32) :
    i32 (i32 (s.add * addfactor i32 (e.count + 1)) + i32 (e.interval * (e.count + 1 : ℕ))) =
      quad s.add e.interval (e.count + 1) := by
  have hn := he.count_le.trans hN
  have hrange := h.inRange_succ he.meets he.count_pos hn hs.abs_add_le
  have hquad := he.meets.quad_lt h.windows he.count_pos hn
  have hlt := (he.meets.interval_bounds h.windows he.count_pos hn).2
  have hstep := he.meets.abs_mul_le h.windows he.count_pos hn hs.abs_add_le
  have hprod : 0 ≤ e.interval * ((e.count + 1 : ℕ) : ℤ) :=
    mul_nonneg hrange.interval_nonneg (Int.natCast_nonneg _)
  have hle : s.add * e.count ≤ |s.add| * e.count :=
    mul_le_mul_of_nonneg_right (le_abs_self _) (Int.natCast_nonneg _)
  have hlow : -2 ^ 31 ≤ quad s.add e.interval (e.count + 1) := by
    unfold quad
    linarith [(mul_tri_bounds hrange.add_bound).1]
  have hhigh : quad s.add e.interval (e.count + 1) < 2 ^ 31 := by
    unfold clockDiffMax at hquad hlt
    push_cast at hquad hlt
    rw [quad_succ]
    linarith
  rw [add_mul_addfactor hi32 hrange.add_bound, hrange.mul_eq hi32]
  exact hi32 _ hlow hhigh

/-- The range of `add` is halved at the `add` that was tried, and the range of intervals is left
where the sequence has stopped. -/
theorem turn_spec (h : Queued sc clocks) (hN : N ≤ clocks.length) (hs : s.Ranges sc)
    (he : Ends sc N s.add s.outerMininterval s.outerMaxinterval e)
    (hstop : Stops sc N s.add s.outerMininterval e) :
    ∃ t : Search, (∀ i32, Lawful i32 → s.turn i32 e = t) ∧ t.add = s.add ∧
      sc.lo 1 ≤ t.outerMininterval ∧ t.outerMininterval ≤ t.outerMaxinterval ∧
      t.outerMaxinterval ≤ sc.hi 1 ∧
      (t.minadd = s.add + 1 ∧ t.maxadd = s.maxadd ∨ t.minadd = s.minadd ∧ t.maxadd = s.add - 1) ∧
      (s.Found sc N → t.Found sc N) ∧ t.bestcount = s.bestcount := by
  have hturn : ∀ i32, Lawful i32 → s.turn i32 e =
      if quad s.add e.interval (e.count + 1) < e.nextpoint.minp then
        { s with minadd := s.add + 1, outerMaxinterval := e.nextmaxinterval }
      else { s with maxadd := s.add - 1, outerMininterval := e.nextmininterval } :=
    fun i32 hi32 => by rw [← h.nextreach_eq hN hs he hi32]; rfl
  refine ⟨_, hturn, ?_⟩
  split_ifs with hbehind
  · have hmax := hstop.nextmax_eq hbehind
    refine ⟨rfl, hs.lo_le, ?_, ?_, .inl ⟨rfl, rfl⟩, fun hf => ⟨hf.best, hf.bestreach_eq, hf.zero⟩,
      rfl⟩
    · exact he.least_le.trans hmax.ge
    · exact (hmax.le.trans he.le_greatest).trans hs.le_hi
  · obtain ⟨hge, hle⟩ := hstop.nextmin_mem (not_lt.1 hbehind)
    exact ⟨rfl, hs.lo_le.trans hge, hle.trans he.le_greatest, hs.le_hi, .inr ⟨rfl, rfl⟩,
      fun hf => ⟨hf.best, hf.bestreach_eq, hf.zero⟩, rfl⟩

/-- The error that limits the range of `add`. -/
theorem exists_errdelta {maxError count : ℕ} (hmax : maxError < 2 ^ 16)
    (hsmall : count ≤ 0x200) :
    ∃ d : ℕ, d * (count * count) ≤ 720885 ∧
      ∀ i32, Lawful i32 → Search.errdelta i32 maxError count = d := by
  refine ⟨maxError * 11 / (count * count), ?_, fun i32 hi32 => ?_⟩
  · exact (Nat.div_mul_le_self _ _).trans (by omega)
  · have hsq : count * count ≤ 0x200 * 0x200 := Nat.mul_le_mul hsmall hsmall
    have hcast : (count : ℤ) * count = ((count * count : ℕ) : ℤ) := by push_cast; rfl
    have hdiv : maxError * 11 / (count * count) ≤ maxError * 11 := Nat.div_le_self _ _
    unfold Search.errdelta
    rw [hcast, hi32 _ (by omega) (by omega), toUInt32_natCast (by omega),
      Nat.mod_eq_of_lt (by omega), toInt32_eq (by omega)]

/-- Numbers near an `add` are in range at the next point, too. -/
theorem abs_mul_tri_lt_of_near {add a : ℤ} {d k : ℕ}
    (hadd : |add| * tri (k + 1) < clockDiffMax + 2 ^ 24) (hd : d * (k * k) ≤ 720885) (hk : 1 ≤ k)
    (hsmall : k ≤ 0x200) (hnear : |a - add| ≤ d + 1) : |a| * tri (k + 1) < 2 ^ 30 := by
  have htri := two_mul_tri (k + 1)
  have hnonneg := tri_nonneg (k + 1)
  have hd : (d : ℤ) * (k * k) ≤ 720885 := by exact_mod_cast hd
  have hk : (1 : ℤ) ≤ k := by exact_mod_cast hk
  have hsmall : (k : ℤ) ≤ 512 := by exact_mod_cast hsmall
  push_cast at htri
  rw [add_sub_cancel_right] at htri
  have hle : tri (k + 1) ≤ k * k := by nlinarith
  have hmul : (d : ℤ) * tri (k + 1) ≤ d * (k * k) :=
    mul_le_mul_of_nonneg_left hle (Int.natCast_nonneg d)
  have hsq : (k : ℤ) * k ≤ 512 * 512 := mul_le_mul hsmall hsmall (by linarith) (by norm_num)
  have habs : |a| ≤ |add| + (d + 1) := by
    have := abs_sub_abs_le_abs_sub a add
    linarith
  have hprod := mul_le_mul_of_nonneg_right habs hnonneg
  rw [add_mul, add_mul, one_mul] at hprod
  unfold clockDiffMax at hadd
  push_cast at hadd
  linarith

/-- The range of `add` is limited by the deviation between two sequences. -/
theorem deviate_spec (sc : Stepcompress) (N : ℕ) {t : Search} {maxError : ℕ}
    (hmaxError : maxError < 2 ^ 16) (hcount : 1 ≤ e.count) (hsmall : e.count ≤ 0x200)
    (hadd : |t.add| * tri (e.count + 1) < clockDiffMax + 2 ^ 24)
    (hmin : -2 ^ 15 ≤ t.minadd ∧ t.minadd ≤ t.add + 1)
    (hmax : t.add - 1 ≤ t.maxadd ∧ t.maxadd < 2 ^ 15) :
    ∃ u : Search, (∀ i32, Lawful i32 → t.deviate i32 maxError e = u) ∧
      t.minadd ≤ u.minadd ∧ u.maxadd ≤ t.maxadd ∧
      |u.minadd| * tri (e.count + 1) < 2 ^ 30 ∧ |u.maxadd| * tri (e.count + 1) < 2 ^ 30 ∧
      u.outerMininterval = t.outerMininterval ∧ u.outerMaxinterval = t.outerMaxinterval ∧
      (t.Found sc N → u.Found sc N) ∧ u.bestcount = t.bestcount := by
  obtain ⟨d, hd, herrdelta⟩ := exists_errdelta hmaxError hsmall
  by_cases hmore : e.count > 1
  · have hdle : d ≤ 720885 := by
      have : 1 ≤ e.count * e.count := Nat.mul_pos hcount hcount
      nlinarith
    refine ⟨{ t with minadd := max t.minadd (t.add - d), maxadd := min t.maxadd (t.add + d) },
      fun i32 hi32 => ?_, le_max_left _ _, min_le_left _ _, ?_, ?_, rfl, rfl,
      fun hf => ⟨hf.best, hf.bestreach_eq, hf.zero⟩, rfl⟩
    · unfold Search.deviate
      rw [if_pos hmore, herrdelta i32 hi32, hi32 _ (by omega) (by omega),
        hi32 _ (by omega) (by omega)]
    · refine abs_mul_tri_lt_of_near hadd hd hcount hsmall (abs_le.2 ?_)
      dsimp only
      omega
    · refine abs_mul_tri_lt_of_near hadd hd hcount hsmall (abs_le.2 ?_)
      dsimp only
      omega
  · have hone : e.count = 1 := by omega
    have htri : tri (e.count + 1) = 1 := by
      rw [hone]
      decide
    refine ⟨t, fun i32 _ => if_neg hmore, le_rfl, le_rfl, ?_, ?_, rfl, rfl, id, rfl⟩
    · rw [htri, mul_one, abs_lt]
      omega
    · rw [htri, mul_one, abs_lt]
      omega

/-- The next point limits the range of `add` further. -/
theorem limit_spec (sc : Stepcompress) (N : ℕ) {u : Search} (hcount : 1 ≤ e.count)
    (hsmall : e.count ≤ 0x200)
    (hminadd : |u.minadd| * tri (e.count + 1) < 2 ^ 30)
    (hmaxadd : |u.maxadd| * tri (e.count + 1) < 2 ^ 30)
    (hminp : 0 ≤ e.nextpoint.minp ∧ e.nextpoint.minp < clockDiffMax)
    (hmaxp : 0 ≤ e.nextpoint.maxp ∧ e.nextpoint.maxp < clockDiffMax)
    (houter : 0 ≤ u.outerMininterval ∧ u.outerMininterval ≤ u.outerMaxinterval)
    (hmul : u.outerMaxinterval * (e.count + 1 : ℕ) < 2 ^ 31 - 2 ^ 20) :
    ∃ v : Search, (∀ i32, Lawful i32 → u.limit i32 e = v) ∧
      u.minadd ≤ v.minadd ∧ v.maxadd ≤ u.maxadd ∧
      v.outerMininterval = u.outerMininterval ∧ v.outerMaxinterval = u.outerMaxinterval ∧
      (u.Found sc N → v.Found sc N) ∧ v.bestcount = u.bestcount := by
  have htwo := two_mul_tri (e.count + 1)
  have hk : (1 : ℤ) ≤ e.count := by exact_mod_cast hcount
  have hk' : (e.count : ℤ) ≤ 512 := by exact_mod_cast hsmall
  have hsq : (e.count : ℤ) * e.count ≤ 512 * 512 :=
    mul_le_mul hk' hk' (by linarith) (by norm_num)
  have hpos : 0 < tri (e.count + 1) := by
    push_cast at htwo
    nlinarith
  have htri : tri (e.count + 1) < 2 ^ 19 := by
    push_cast at htwo
    nlinarith
  have hfactor : ∀ i32, Lawful i32 → addfactor i32 (e.count + 1) = tri (e.count + 1) := by
    intro i32 hi32
    unfold addfactor
    rw [← htwo, hi32 _ (by omega) (by omega), Int.tdiv_eq_ediv_of_nonneg (by omega)]
    omega
  have hmulMin : u.outerMininterval * ((e.count + 1 : ℕ) : ℤ) ≤
      u.outerMaxinterval * ((e.count + 1 : ℕ) : ℤ) :=
    mul_le_mul_of_nonneg_right houter.2 (Int.natCast_nonneg _)
  have hmulNonneg : 0 ≤ u.outerMininterval * ((e.count + 1 : ℕ) : ℤ) :=
    mul_nonneg houter.1 (Int.natCast_nonneg _)
  have hminBounds := mul_tri_bounds hminadd
  have hmaxBounds := mul_tri_bounds hmaxadd
  unfold clockDiffMax at hminp hmaxp
  push_cast at hminp hmaxp
  set low := e.nextpoint.minp - u.outerMaxinterval * ((e.count + 1 : ℕ) : ℤ) with hlow
  set high := e.nextpoint.maxp - u.outerMininterval * ((e.count + 1 : ℕ) : ℤ) with hhigh
  have hmin : ∀ i32, Lawful i32 → ∀ a,
      (if u.minadd * tri (e.count + 1) < low then idivUp i32 low (tri (e.count + 1))
        else u.minadd) ≤ a ↔ u.minadd ≤ a ∧ low ≤ a * tri (e.count + 1) := fun i32 hi32 a =>
    raise_le_iff hi32 hpos (by omega) (by omega)
  have hmax : ∀ i32, Lawful i32 → ∀ a,
      a ≤ (if u.maxadd * tri (e.count + 1) > high then idivDown i32 high (tri (e.count + 1))
        else u.maxadd) ↔ a ≤ u.maxadd ∧ a * tri (e.count + 1) ≤ high := fun i32 hi32 a =>
    le_lower_iff hi32 hpos (by omega)
  refine ⟨{ u with
    minadd := if u.minadd * tri (e.count + 1) < low then idivUp id low (tri (e.count + 1))
      else u.minadd
    maxadd := if u.maxadd * tri (e.count + 1) > high then idivDown id high (tri (e.count + 1))
      else u.maxadd }, fun i32 hi32 => ?_, ((hmin id lawful_id _).1 le_rfl).1,
    ((hmax id lawful_id _).1 le_rfl).1, rfl, rfl,
    fun hf => ⟨hf.best, hf.bestreach_eq, hf.zero⟩, rfl⟩
  unfold Search.limit
  dsimp only
  rw [hfactor i32 hi32, hi32 (u.minadd * _) (by omega) (by omega),
    hi32 (u.maxadd * _) (by omega) (by omega), hi32 (u.outerMaxinterval * _) (by omega) (by omega),
    hi32 (u.outerMininterval * _) (by omega) (by omega), ← hlow, ← hhigh,
    hi32 low (by omega) (by omega), hi32 high (by omega) (by omega),
    eq_of_forall_ge_iff fun a => (hmin i32 hi32 a).trans (hmin id lawful_id a).symm,
    eq_of_forall_le_iff fun a => (hmax i32 hi32 a).trans (hmax id lawful_id a).symm]

/-- A round of the search that goes on leaves less of the range of `add`. -/
theorem round_spec (h : Queued sc clocks) (hN : N ≤ clocks.length) (hs : s.Ranges sc)
    (he : Ends sc N s.add s.outerMininterval s.outerMaxinterval e)
    (hstop : Stops sc N s.add s.outerMininterval e) (hsmall : e.count ≤ 0x200) :
    ∃ v : Search, (∀ i32, Lawful i32 →
        ((s.turn i32 e).deviate i32 sc.maxError e).limit i32 e = v) ∧
      sc.lo 1 ≤ v.outerMininterval ∧ v.outerMininterval ≤ v.outerMaxinterval ∧
      v.outerMaxinterval ≤ sc.hi 1 ∧ s.minadd ≤ v.minadd ∧ v.maxadd ≤ s.maxadd ∧
      (s.add + 1 ≤ v.minadd ∨ v.maxadd ≤ s.add - 1) ∧
      (s.Found sc N → v.Found sc N) ∧ v.bestcount = s.bestcount := by
  have hn := he.count_le.trans hN
  have hnext : e.count + 1 ≤ clocks.length := by
    have := hstop.count_lt
    omega
  have hlength : 0 < clocks.length := by omega
  have hone : 1 ≤ e.count + 1 := Nat.le_add_left 1 _
  obtain ⟨t, hturn, hadd, hlo, houter, hhi, hrange, hfound, hbest⟩ := h.turn_spec hN hs he hstop
  have hminadd := hs.minadd_ge
  have hminaddLe := hs.minadd_le
  have hmaxadd := hs.le_maxadd
  have hmaxaddLt := hs.maxadd_lt
  have htri := he.meets.abs_mul_tri_succ h.windows he.count_pos hn hs.abs_add_le
  obtain ⟨u, hdeviate, hmin, hmax, hminTri, hmaxTri, hmininterval, hmaxinterval, hfound', hbest'⟩ :=
    deviate_spec sc N h.maxError_lt he.count_pos hsmall (hadd ▸ htri)
      (t := t) (by omega) (by omega)
  -- the last interval of the range is not far from the one that was found
  have hmul := he.meets.mul_succ_le h.windows he.count_pos hn hs.abs_add_le
  have hfirst := (he.meets 1 le_rfl he.count_pos).1
  rw [quad_one] at hfirst
  have hwidth : sc.hi 1 - sc.lo 1 < 2 ^ 16 := h.hi_sub_lo hlength
  have hpos := h.windows.pos
  have hlast : t.outerMaxinterval * ((e.count + 1 : ℕ) : ℤ) < 2 ^ 31 - 2 ^ 20 := by
    have hle : t.outerMaxinterval * ((e.count + 1 : ℕ) : ℤ) ≤
        (e.interval + 2 ^ 16) * ((e.count + 1 : ℕ) : ℤ) :=
      mul_le_mul_of_nonneg_right (by linarith) (Int.natCast_nonneg _)
    have hcount : ((e.count + 1 : ℕ) : ℤ) ≤ 513 := by exact_mod_cast Nat.succ_le_succ hsmall
    have hP : ((clockDiffMax : ℕ) : ℤ) = 805306368 := by norm_num [clockDiffMax]
    rw [hP] at hmul
    rw [add_mul] at hle
    linarith
  have hlow := h.windows.lo_pos hone hnext
  have hle := h.windows.le (e.count + 1) hone hnext
  have hbound := h.windows.lt_bound (e.count + 1) hone hnext
  rw [lo_succ] at hlow hle
  rw [hi_succ] at hle hbound
  rw [← hstop.nextpoint_eq] at hlow hle hbound
  obtain ⟨v, hlimit, hmin', hmax', hmininterval', hmaxinterval', hfound'', hbest''⟩ :=
    limit_spec sc N (u := u) he.count_pos hsmall hminTri hmaxTri
      ⟨by linarith, by linarith⟩ ⟨by linarith, by linarith⟩
      (by rw [hmininterval, hmaxinterval]; exact ⟨by linarith, houter⟩)
      (by rw [hmaxinterval]; exact hlast)
  refine ⟨v, fun i32 hi32 => ?_, ?_, ?_, ?_, by omega, by omega, by omega,
    fun hf => hfound'' (hfound' (hfound hf)), hbest''.trans (hbest'.trans hbest)⟩
  · rw [hturn i32 hi32, hdeviate i32 hi32, hlimit i32 hi32]
  · rw [hmininterval', hmininterval]
    exact hlo
  · rw [hmininterval', hmininterval, hmaxinterval', hmaxinterval]
    exact houter
  · rw [hmaxinterval', hmaxinterval]
    exact hhi

end Queued

/-- A move for steps of the queue that `check_line` accepts : its steps lie in their windows, and
each goes ahead. -/
structure Accepted (sc : Stepcompress) (move : StepMove) : Prop where
  count_pos : 1 ≤ move.count
  count_le : move.count ≤ min sc.queue.length 65535
  add_range : -2 ^ 15 ≤ move.add ∧ move.add < 2 ^ 15
  points : ∀ j < move.count, (sc.minmaxPoint j).minp ≤ quad move.add move.interval (j + 1) ∧
    quad move.add move.interval (j + 1) ≤ (sc.minmaxPoint j).maxp
  steps : ∀ j < move.count, (0 : ℤ) < move.interval + move.add * j ∧
    (move.interval : ℤ) + move.add * j < 2 ^ 31
  checkLine_eq : sc.checkLine move = true

namespace Queued

variable {s : Search} {N : ℕ}

theorem accepted_of_fine {add interval : ℤ} {count : ℕ} (h : Queued sc clocks)
    (hf : Fine sc (min sc.queue.length 65535) add interval count) :
    Accepted sc (stepMove interval count add) := by
  have hle := hf.count_le
  have hlength := h.length_eq
  have hn : count ≤ clocks.length := by omega
  obtain ⟨hpos, hlt⟩ := hf.meets.interval_bounds h.windows hf.count_pos hn
  unfold clockDiffMax at hlt
  push_cast at hlt
  have hinterval : ((stepMove interval count add).interval : ℤ) = interval :=
    toUInt32_cast (by omega) (by omega)
  have hcount : (stepMove interval count add).count = count := Nat.mod_eq_of_lt (by omega)
  have hadd : (stepMove interval count add).add = add := by
    have hrange := hf.add_range
    unfold stepMove
    dsimp only
    rw [Int.bmod_eq_of_le (by omega) (by omega)]
  refine ⟨hf.count_pos.trans_eq hcount.symm, hcount.trans_le hle, by rw [hadd]; exact hf.add_range,
    fun j hj => ?_, fun j hj => ?_,
    h.checkLine_of_meets hf.meets hf.count_pos hn (by omega) hf.add_range⟩
  · rw [hadd, hinterval]
    rw [hcount] at hj
    exact hf.meets (j + 1) (Nat.le_add_left 1 j) hj
  · rw [hadd, hinterval]
    rw [hcount] at hj
    obtain ⟨hstep, hstepLt⟩ := h.step_bounds hf.meets hn hj
    unfold clockDiffMax at hstepLt
    push_cast at hstepLt
    constructor <;> linarith

/-- The move after the search. -/
theorem accepted_finish (h : Queued sc clocks) (hf : s.Found sc (min sc.queue.length 65535)) :
    Accepted sc s.finish := by
  unfold Search.finish
  split_ifs
  · exact h.accepted_of_fine hf.zero
  · exact h.accepted_of_fine hf.best

theorem improve_eq (h : Queued sc clocks) {e : Extent} {least greatest : ℤ} {i32 : ℤ → ℤ}
    (hN : N ≤ clocks.length) (hs : s.Ranges sc) (he : Ends sc N s.add least greatest e)
    (hi32 : Lawful i32) :
    s.isBest i32 e = s.isBest id e ∧ s.improve i32 e = s.improve id e := by
  have hreach := (h.reach_eq hN hs he hi32).trans (h.reach_eq hN hs he lawful_id).symm
  have hbest : s.isBest i32 e = s.isBest id e := by
    unfold Search.isBest
    rw [hreach]
  refine ⟨hbest, ?_⟩
  unfold Search.improve
  rw [hbest, hreach]

/-- A round after which the search goes on leaves less of the range of `add`. -/
theorem searching_round (h : Queued sc clocks) {e : Extent} (hs : s.Searching sc)
    (he : Ends sc (min sc.queue.length 65535) s.add s.outerMininterval s.outerMaxinterval e)
    (hstop : Stops sc (min sc.queue.length 65535) s.add s.outerMininterval e)
    (hfound : (s.improve id e).Found sc (min sc.queue.length 65535))
    (hsmall : e.count ≤ 0x200) (hbest : (s.improve id e).bestcount ≤ 0x200) :
    ∃ v : Search, (∀ i32, Lawful i32 →
        (((s.improve i32 e).turn i32 e).deviate i32 sc.maxError e).limit i32 e = v) ∧
      v.Found sc (min sc.queue.length 65535) ∧ -2 ^ 15 ≤ v.minadd ∧ v.maxadd < 2 ^ 15 ∧
      v.maxadd - v.minadd < s.maxadd - s.minadd ∧
      (v.minadd ≤ v.maxadd →
        Search.Searching sc { v with add := v.maxadd - (v.maxadd - v.minadd).tdiv 4 }) := by
  have hlength := h.length_eq
  have hN : min sc.queue.length 65535 ≤ clocks.length := by omega
  obtain ⟨hadd₁, hmin₁, hmax₁, hminadd₁, hmaxadd₁⟩ := Search.improve_fields s id e
  have himprove : ∀ i32, Lawful i32 → s.improve i32 e = s.improve id e := fun i32 hi32 =>
    (h.improve_eq hN hs.toRanges he hi32).2
  generalize s.improve id e = s₁ at *
  have hs₁ : s₁.Ranges sc :=
    ⟨hs.lo_le.trans hmin₁.ge, by rw [hmin₁, hmax₁]; exact hs.outer_le, hmax₁.trans_le hs.le_hi,
      hs.minadd_ge.trans hminadd₁.ge, by rw [hminadd₁, hadd₁]; exact hs.minadd_le,
      by rw [hmaxadd₁, hadd₁]; exact hs.le_maxadd, hmaxadd₁.trans_lt hs.maxadd_lt⟩
  rw [← hadd₁, ← hmin₁, ← hmax₁] at he
  rw [← hadd₁, ← hmin₁] at hstop
  obtain ⟨v, hround, hlo, houter, hhi, hminadd, hmaxadd, hless, hfound', hbest'⟩ :=
    h.round_spec hN hs₁ he hstop hsmall
  have h1 := hs₁.minadd_ge
  have h2 := hs₁.minadd_le
  have h3 := hs₁.le_maxadd
  have h4 := hs₁.maxadd_lt
  refine ⟨v, fun i32 hi32 => (himprove i32 hi32).symm ▸ hround i32 hi32, hfound' hfound, by omega,
    by omega, by omega, fun hle => ?_⟩
  have hquarter : (v.maxadd - v.minadd).tdiv 4 = (v.maxadd - v.minadd) / 4 :=
    Int.tdiv_eq_ediv_of_nonneg (by omega)
  have hlater : 1 ≤ v.minadd ∨ v.maxadd ≤ -1 := by
    rcases hs.found with ⟨hzero, -⟩ | ⟨hside, -⟩
    · omega
    · omega
  have hv := hfound' hfound
  rw [hquarter]
  refine ⟨⟨hlo, houter, hhi, ?_, ?_, ?_, ?_⟩, hbest'.trans_le hbest,
    .inr ⟨hlater, hv.best, hv.bestreach_eq, hv.zero⟩⟩
  all_goals dsimp only; omega

/-- The search ends with an accepted move, the same for all arithmetic without overflow. -/
theorem run_spec (h : Queued sc clocks) (n : ℕ) (hs : s.Searching sc)
    (hn : s.maxadd - s.minadd < n) :
    ∃ move, Accepted sc move ∧ ∀ i32, Lawful i32 → ∀ fuel, n ≤ fuel →
      Search.run i32 sc fuel s = some move := by
  have hminadd := hs.minadd_le
  have hmaxadd := hs.le_maxadd
  induction n generalizing s with
  | zero => omega
  | succ n ih =>
    have hlength := h.length_eq
    have hpos := List.length_pos_of_ne_nil h.ne_nil
    have hN : min sc.queue.length 65535 ≤ clocks.length := by omega
    have hsteps : 1 + (min sc.queue.length 65535 - 1) = min sc.queue.length 65535 := by omega
    have hfirst : ∀ a, s.outerMininterval ≤ a → a ≤ s.outerMaxinterval →
        Meets sc.lo sc.hi s.add a 1 := by
      intro a ha ha' j hj hj'
      obtain rfl : j = 1 := by omega
      rw [quad_one]
      exact ⟨hs.lo_le.trans ha, ha'.trans hs.le_hi⟩
    obtain ⟨e, he, hends, hstops⟩ :=
      h.extend_spec hs.abs_add_le hN (by omega) le_rfl hsteps hs.outer_le hfirst
    have hadd : s.add = 0 ∧ s.bestreach = -2 ^ 31 ∨
        s.add ≠ 0 ∧ s.Found sc (min sc.queue.length 65535) :=
      hs.found.imp_right fun hlater => ⟨by omega, hlater.2⟩
    obtain ⟨hfound, hcount, hnew, hold⟩ := h.found_improve hN hs.toRanges hends hadd
    cases hend : e.isEnd with
    | true =>
      refine ⟨_, h.accepted_of_fine (fine_of_ends hs.toRanges hends), fun i32 hi32 fuel hfuel => ?_⟩
      obtain ⟨fuel, rfl⟩ : ∃ f, fuel = f + 1 := ⟨fuel - 1, by omega⟩
      unfold Search.run
      dsimp only
      rw [he i32 hi32, hend, if_pos rfl]
    | false =>
      by_cases hlong : (s.isBest id e && e.count > 0x200) = true
      · refine ⟨_, h.accepted_finish hfound, fun i32 hi32 fuel hfuel => ?_⟩
        obtain ⟨fuel, rfl⟩ : ∃ f, fuel = f + 1 := ⟨fuel - 1, by omega⟩
        obtain ⟨hisBest, himprove⟩ := h.improve_eq hN hs.toRanges hends hi32
        unfold Search.run
        dsimp only
        rw [he i32 hi32, hend, if_neg Bool.false_ne_true, hisBest, himprove, if_pos hlong]
      · have hbest : (s.improve id e).bestcount ≤ 0x200 := by
          cases hb : s.isBest id e with
          | false => exact (hold hb).trans_le hs.bestcount_le
          | true =>
            rw [hb, Bool.true_and, decide_eq_true_iff] at hlong
            exact (hnew hb).trans_le (not_lt.1 hlong)
        obtain ⟨v, hround, hv, hlow, hhigh, hless, hnext⟩ :=
          h.searching_round hs hends (hstops hend) hfound (hcount.trans hbest) hbest
        by_cases hover : v.minadd > v.maxadd
        · refine ⟨_, h.accepted_finish hv, fun i32 hi32 fuel hfuel => ?_⟩
          obtain ⟨fuel, rfl⟩ : ∃ f, fuel = f + 1 := ⟨fuel - 1, by omega⟩
          unfold Search.run
          dsimp only
          rw [he i32 hi32, hend, if_neg Bool.false_ne_true,
            (h.improve_eq hN hs.toRanges hends hi32).1, if_neg hlong, hround i32 hi32, if_pos hover]
        · have hs' := hnext (not_lt.1 hover)
          obtain ⟨move, hmove, hrun⟩ := ih hs' (by dsimp only; omega) hs'.minadd_le hs'.le_maxadd
          refine ⟨move, hmove, fun i32 hi32 fuel hfuel => ?_⟩
          obtain ⟨fuel, rfl⟩ : ∃ f, fuel = f + 1 := ⟨fuel - 1, by omega⟩
          unfold Search.run
          dsimp only
          rw [he i32 hi32, hend, if_neg Bool.false_ne_true,
            (h.improve_eq hN hs.toRanges hends hi32).1, if_neg hlong, hround i32 hi32, if_neg hover,
            hi32 (v.maxadd - v.minadd) (by omega) (by omega)]
          exact hrun i32 hi32 fuel (by omega)

end Queued

/-- Every queue of steps starts with a move that is accepted, whatever comes out of computations
that leave the range of `int32_t`. -/
theorem compressBisectAdd_accepted (h : Queued sc clocks) :
    ∃ move, Accepted sc move ∧ ∀ i32, Lawful i32 → ∀ fuel, 65536 ≤ fuel →
      compressBisectAdd i32 fuel sc = some move := by
  have hlength := List.length_pos_of_ne_nil h.ne_nil
  have hle := h.windows.le 1 le_rfl hlength
  rw [lo_succ sc 0, hi_succ sc 0] at hle
  refine h.run_spec 65536 ⟨⟨?_, ?_, ?_, ?_, ?_, ?_, ?_⟩, ?_, .inl ⟨rfl, rfl⟩⟩ ?_
  · rw [lo_succ sc 0]
  · dsimp only
    exact hle
  · rw [hi_succ sc 0]
  all_goals norm_num

/-- Three steps after the last one. -/
theorem compressBisectAdd_three : ∃ move, Accepted ⟨[100, 210, 330], 25, 0⟩ move ∧
    ∀ i32, Lawful i32 → ∀ fuel, 65536 ≤ fuel →
      compressBisectAdd i32 fuel ⟨[100, 210, 330], 25, 0⟩ = some move := by
  have h : Queued ⟨[100, 210, 330], 25, 0⟩ [100, 210, 330] :=
    ⟨rfl, List.cons_ne_nil _ _, by decide, by decide, by decide⟩
  exact compressBisectAdd_accepted h

end Stepcompress

end Thinker
