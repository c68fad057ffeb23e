import Mathlib.Algebra.BigOperators.Field
import Mathlib.Tactic.FinCases
import Thinker.TrapqMove

/-!
# Input shaping

`kin_shaper.c`. The callback of a stepper reads the position of an axis at several times around the
given one, and hands their weighted sum to the kinematics, as the position of a dummy move that
does not move. The pulses are reversed, their amplitudes add up to one, and their times are shifted
so that their mean is zero.
-/

set_option linter.unusedSectionVars false

open Finset

namespace Thinker

variable {K : Type*} [Field K] [LinearOrder K] [IsStrictOrderedRing K]

/-- One of the `pulses`. -/
structure ShaperPulse (K : Type*) where
  t : K
  a : K

/-- `shift_pulses`. -/
def shiftPulses (sp : List (ShaperPulse K)) : List (ShaperPulse K) :=
  let ts := (sp.map fun p => p.a * p.t).sum
  sp.map fun p => { p with t := p.t - ts }

/-- `init_shaper`, with the pulses and its result. -/
def initShaper (n : ℤ) (a t : ℕ → K) : List (ShaperPulse K) × ℤ :=
  if n < 0 ∨ n > 5 then ([], -1)
  else
    let invA := 1 / ((List.range n.toNat).map a).sum
    -- Reverse pulses vs their traditional definition
    (shiftPulses ((List.range n.toNat).reverse.map fun i => ⟨-t i, a i * invA⟩), 0)

/-- `get_axis_position`. -/
def getAxisPosition (m : TrapqMove K) (axis : Fin 3) (moveTime : K) : K :=
  m.startPos axis + m.axesR axis * m.getDistance moveTime

/-- `get_axis_position_across_moves`. -/
def getAxisPositionAcrossMoves (c : TrapqCursor K) (axis : Fin 3) (time : K) : Option K :=
  (c.seek time).map fun (c, time) => getAxisPosition c.move axis time

/-- `calc_position`. -/
def calcPosition (c : TrapqCursor K) (axis : Fin 3) (moveTime : K) (sp : List (ShaperPulse K)) :
    Option K :=
  sp.foldlM (fun res p =>
    (getAxisPositionAcrossMoves c axis (moveTime + p.t)).map fun x => res + p.a * x) 0

/-- `DUMMY_T`. -/
def dummyT : K := 500

/-- `struct input_shaper`, with what it is used of the `sk`. The position is that of the dummy
move. -/
structure InputShaper (K : Type*) where
  activeFlags : ActiveFlags
  startPos : TrapqCoord K
  sx : List (ShaperPulse K)
  sy : List (ShaperPulse K)
  genStepsPreActive : K
  genStepsPostActive : K

namespace InputShaper

/-- `input_shaper_alloc` and `input_shaper_set_sk`, for a stepper with some flags. -/
def setSk (activeFlags : ActiveFlags) : InputShaper K :=
  ⟨activeFlags, 0, [], [], 0, 0⟩

variable (sh : InputShaper K)

/-- A pointer to the move `m`. -/
def dummy : TrapqCursor K :=
  ⟨[], { TrapqMove.alloc with moveT := 2 * dummyT, startPos := sh.startPos }, []⟩

section Callbacks

variable {β : Type*} (orig : TrapqCursor K → K → β) (c : TrapqCursor K) (moveTime : K)

/-- The position of the dummy move on an axis is the shaped one, if there are pulses. -/
def shapeAxis (axis : Fin 3) (sp : List (ShaperPulse K)) : Option (InputShaper K) :=
  if sp.isEmpty then some sh
  else (calcPosition c axis moveTime sp).map fun x =>
    { sh with startPos := Function.update sh.startPos axis x }

/-- `shaper_x_calc_position`. -/
def shaperXCalcPosition : Option (InputShaper K × β) :=
  if sh.sx.isEmpty then some (sh, orig c moveTime)
  else (sh.shapeAxis c moveTime 0 sh.sx).map fun sh => (sh, orig sh.dummy dummyT)

/-- `shaper_y_calc_position`. -/
def shaperYCalcPosition : Option (InputShaper K × β) :=
  if sh.sy.isEmpty then some (sh, orig c moveTime)
  else (sh.shapeAxis c moveTime 1 sh.sy).map fun sh => (sh, orig sh.dummy dummyT)

/-- `shaper_xy_calc_position`. -/
def shaperXYCalcPosition : Option (InputShaper K × β) :=
  if sh.sx.isEmpty && sh.sy.isEmpty then some (sh, orig c moveTime)
  else
    let sh := { sh with startPos := c.move.getCoord moveTime }
    (sh.shapeAxis c moveTime 0 sh.sx).bind fun sh =>
      (sh.shapeAxis c moveTime 1 sh.sy).map fun sh => (sh, orig sh.dummy dummyT)

/-- The `calc_position_cb` that `input_shaper_set_sk` sets. -/
def calcPositionCb : Option (InputShaper K × β) :=
  if sh.activeFlags = ![true, false, false] then sh.shaperXCalcPosition orig c moveTime
  else if sh.activeFlags = ![false, true, false] then sh.shaperYCalcPosition orig c moveTime
  else sh.shaperXYCalcPosition orig c moveTime

end Callbacks

/-- The windows of an axis, where those of the axes before it are given. -/
def axisWindow (active : Bool) (sp : List (ShaperPulse K)) (window : K × K) (update : K → K → K) :
    K × K :=
  match active, sp.head?, sp.getLast? with
  | true, some first, some last => (update window.1 last.t, update window.2 (-first.t))
  | _, _, _ => window

/-- `shaper_note_generation_time`. -/
def noteGenerationTime : InputShaper K :=
  let window := axisWindow (sh.activeFlags 0) sh.sx (0, 0) fun _ new => new
  let window := axisWindow (sh.activeFlags 1) sh.sy window fun old new =>
    if new > old then new else old
  { sh with genStepsPreActive := window.1, genStepsPostActive := window.2 }

/-- `input_shaper_set_shaper_params`, with its result. -/
def setShaperParams (axis : Fin 3) (n : ℤ) (a t : ℕ → K) : InputShaper K × ℤ :=
  if axis ≠ 0 ∧ axis ≠ 1 then (sh, -1)
  -- Ignore input shaper update if the axis is not active
  else if sh.activeFlags axis then
    let (sp, status) := initShaper n a t
    (noteGenerationTime (if axis = 0 then { sh with sx := sp } else { sh with sy := sp }), status)
  else (sh, 0)

/-! ## The pulses -/

end InputShaper

/-- The amplitude of a pulse, among those with the amplitudes `a`. -/
def shaperAmplitude (n : ℕ) (a : ℕ → K) (i : ℕ) : K :=
  a i / ∑ j ∈ range n, a j

/-- The time of a pulse, reversed and shifted. -/
def shaperTime (n : ℕ) (a t : ℕ → K) (i : ℕ) : K :=
  -t i + ∑ j ∈ range n, shaperAmplitude n a j * t j

section Pulses

variable {n : ℕ} {a t : ℕ → K}

theorem sum_range_map {M : Type*} [AddCommMonoid M] (n : ℕ) (f : ℕ → M) :
    ((List.range n).map f).sum = ∑ i ∈ range n, f i := by
  rw [Finset.sum_eq_multiset_sum, Finset.range_val, Multiset.range, Multiset.map_coe,
    Multiset.sum_coe]

theorem sum_reverse_map {M : Type*} [AddCommMonoid M] (n : ℕ) (f : ℕ → M) :
    ((List.range n).reverse.map f).sum = ∑ i ∈ range n, f i := by
  rw [List.map_reverse, List.sum_reverse, sum_range_map]

theorem sum_shaperAmplitude (h : ∑ i ∈ range n, a i ≠ 0) :
    ∑ i ∈ range n, shaperAmplitude n a i = 1 := by
  unfold shaperAmplitude
  rw [← Finset.sum_div, div_self h]

/-- The mean of the times is zero. -/
theorem sum_shaperTime (h : ∑ i ∈ range n, a i ≠ 0) :
    ∑ i ∈ range n, shaperAmplitude n a i * shaperTime n a t i = 0 := by
  unfold shaperTime
  simp only [mul_add, mul_neg]
  rw [Finset.sum_add_distrib, Finset.sum_neg_distrib, ← Finset.sum_mul, sum_shaperAmplitude h,
    one_mul, neg_add_cancel]

/-- What `init_shaper` sets. -/
theorem initShaper_eq (hn : n ≤ 5) : initShaper (n : ℤ) a t =
    ((List.range n).reverse.map fun i => ⟨shaperTime n a t i, shaperAmplitude n a i⟩, 0) := by
  unfold initShaper shiftPulses
  rw [if_neg (by omega), Int.toNat_natCast]
  dsimp only
  rw [List.map_map, List.map_map, sum_range_map, sum_reverse_map]
  refine Prod.ext (List.map_congr_left fun i _ => ?_) rfl
  simp only [Function.comp_def, shaperTime, shaperAmplitude, mul_neg, Finset.sum_neg_distrib,
    sub_neg_eq_add, mul_one_div]

end Pulses

/-! ## The position of an axis -/

/-- A move starts on an axis where the one before it ends. -/
def Joined (axis : Fin 3) (m m' : TrapqMove K) : Prop :=
  m'.startPos axis = m.getCoord m.moveT axis

/-- The position on an axis at a time. -/
def axisPosition (ms : List (TrapqMove K)) (axis : Fin 3) (x : K) : K :=
  ((ms.find? fun m => decide (x ≤ m.endTime)).map fun m =>
    m.getCoord (x - m.printTime) axis).getD 0

section Positions

variable {ms : List (TrapqMove K)} {m m₀ : TrapqMove K} {axis : Fin 3}

/-- Moves between two that take no time do not change the position. -/
theorem startPos_of_printTime_eq (h : Contiguous (m₀ :: ms))
    (hj : (m₀ :: ms).IsChain (Joined axis)) (hm : m ∈ ms) (htime : m.printTime = m₀.endTime) :
    m.startPos axis = m₀.getCoord m₀.moveT axis := by
  induction ms generalizing m₀ with
  | nil => cases hm
  | cons n ms ih =>
    have hn : n.startPos axis = m₀.getCoord m₀.moveT axis := (List.isChain_cons_cons.1 hj).1
    have hfollows : n.printTime = m₀.endTime := (List.isChain_cons_cons.1 h.chain).1
    rcases List.mem_cons.1 hm with rfl | hm
    · exact hn
    · have htail := h.tail
      have hge := htail.printTime_ge [] m hm
      have hnonneg := htail.nonneg n List.mem_cons_self
      have hzero : n.moveT = 0 := by
        unfold TrapqMove.endTime at hge hfollows htime
        linarith
      have hend : m.printTime = n.endTime := by
        rw [htime, ← hfollows, TrapqMove.endTime, hzero, add_zero]
      rw [ih htail hj.tail hm hend, hzero, TrapqMove.getCoord_zero, hn]

theorem axisPosition_eq (h : Contiguous ms) (hj : ms.IsChain (Joined axis)) (hm : m ∈ ms) {τ : K}
    (hτ : 0 ≤ τ) (hle : τ ≤ m.moveT) :
    axisPosition ms axis (m.printTime + τ) = m.getCoord τ axis := by
  unfold axisPosition
  induction ms with
  | nil => cases hm
  | cons m₀ ms ih =>
    by_cases hx : m.printTime + τ ≤ m₀.endTime
    · rw [List.find?_cons_of_pos (by simpa using hx), Option.map_some, Option.getD_some]
      rcases List.mem_cons.1 hm with rfl | hm
      · rw [add_sub_cancel_left]
      · -- only the end of the first move is also in a later one
        have hge := h.printTime_ge [] m hm
        have hzero : τ = 0 := by linarith
        have hend : m.printTime = m₀.endTime := by linarith
        rw [hzero, add_zero, TrapqMove.getCoord_zero, startPos_of_printTime_eq h hj hm hend, hend,
          TrapqMove.endTime, add_sub_cancel_left]
    · rw [List.find?_cons_of_neg (by simpa using hx)]
      rcases List.mem_cons.1 hm with rfl | hm
      · exact absurd (add_le_add_right hle _) hx
      · exact ih h.tail hj.tail hm

variable {c : TrapqCursor K} (front back : List (TrapqMove K)) {time : K}

theorem getAxisPositionAcrossMoves_eq (h : Contiguous c.moves)
    (hj : c.moves.IsChain (Joined axis))
    (hcovers : Covers c.moves (c.move.printTime + time) (c.move.printTime + time)) :
    getAxisPositionAcrossMoves (c.within front back) axis time =
      some (axisPosition c.moves axis (c.move.printTime + time)) := by
  obtain ⟨c', time', hseek, ⟨hmoves, heq, hpos⟩, hle⟩ := c.seek_spec h front back hcovers
  have hmem : c'.move ∈ c.moves := by
    rw [← hmoves]
    simp [TrapqCursor.moves]
  unfold getAxisPositionAcrossMoves
  rw [hseek, ← heq, axisPosition_eq h hj hmem hpos hle]
  rfl

/-- The position that is computed is the sum over the pulses. -/
theorem calcPosition_eq (h : Contiguous c.moves) (hj : c.moves.IsChain (Joined axis))
    {sp : List (ShaperPulse K)}
    (hcovers : ∀ p ∈ sp, Covers c.moves (c.move.printTime + time + p.t)
      (c.move.printTime + time + p.t)) :
    calcPosition (c.within front back) axis time sp =
      some (sp.map fun p =>
        p.a * axisPosition c.moves axis (c.move.printTime + time + p.t)).sum := by
  have hrun : ∀ res : K, sp.foldlM (fun res p =>
      (getAxisPositionAcrossMoves (c.within front back) axis (time + p.t)).map fun x =>
        res + p.a * x) res =
      some (res + (sp.map fun p =>
        p.a * axisPosition c.moves axis (c.move.printTime + time + p.t)).sum) := by
    induction sp with
    | nil => simp
    | cons p sp ih =>
      intro res
      have hp := hcovers p List.mem_cons_self
      rw [add_assoc] at hp
      rw [List.foldlM_cons, getAxisPositionAcrossMoves_eq front back h hj hp, ← add_assoc]
      refine (ih (fun p hp => hcovers p (List.mem_cons_of_mem _ hp)) _).trans ?_
      rw [List.map_cons, List.sum_cons, add_assoc]
  refine (hrun 0).trans ?_
  rw [zero_add]

end Positions

namespace InputShaper

/-! ## What is shaped -/

/-- The coordinates that the kinematics reads. -/
def readCoord (sh : InputShaper K) (c : TrapqCursor K) (moveTime : K) : Option (TrapqCoord K) :=
  (sh.calcPositionCb (fun c time => c.move.getCoord time) c moveTime).map Prod.snd

/-- The pulses of an axis. -/
def pulses (sh : InputShaper K) (axis : Fin 3) : List (ShaperPulse K) :=
  ![sh.sx, sh.sy, []] axis

/-- The arguments of `input_shaper_set_shaper_params`. -/
structure Params (K : Type*) where
  axis : Fin 3
  n : ℤ
  a : ℕ → K
  t : ℕ → K

/-- The times of the pulses are in order. -/
def Params.Increasing (p : Params K) : Prop :=
  ∀ i j : ℕ, i < j → (j : ℤ) < p.n → p.t i ≤ p.t j

/-- The state after some updates. -/
def run (activeFlags : ActiveFlags) (calls : List (Params K)) : InputShaper K :=
  calls.foldl (fun sh p => (sh.setShaperParams p.axis p.n p.a p.t).1) (setSk activeFlags)

/-- A move, a time in it, and the moves around it that the pulses are read from. -/
structure Readable (sh : InputShaper K) (c : TrapqCursor K) (time : K) : Prop where
  contiguous : Contiguous c.moves
  joined : ∀ axis, axis ≠ 2 → c.moves.IsChain (Joined axis)
  nonneg : 0 ≤ time
  le : time ≤ c.move.moveT
  covers : ∀ axis, ∀ p ∈ sh.pulses axis,
    Covers c.moves (c.move.printTime + time + p.t) (c.move.printTime + time + p.t)

/-- The pulses of every active axis are in the windows. -/
def Windowed (sh : InputShaper K) : Prop :=
  ∀ axis, axis ≠ 2 → sh.activeFlags axis = true → ∀ p ∈ sh.pulses axis,
    -sh.genStepsPostActive ≤ p.t ∧ p.t ≤ sh.genStepsPreActive

variable {sh : InputShaper K} {c : TrapqCursor K} {time : K} {axis : Fin 3}

theorem Readable.axisPosition (h : Readable sh c time) (haxis : axis ≠ 2) :
    axisPosition c.moves axis (c.move.printTime + time) = c.move.getCoord time axis :=
  axisPosition_eq h.contiguous (h.joined axis haxis) (by simp [TrapqCursor.moves]) h.nonneg h.le

/-- The shaped position of an axis with some pulses. -/
def shapedPosition (c : TrapqCursor K) (axis : Fin 3) (x : K) (sp : List (ShaperPulse K)) : K :=
  if sp.isEmpty then axisPosition c.moves axis x
  else (sp.map fun p => p.a * axisPosition c.moves axis (x + p.t)).sum

@[simp] theorem dummy_getCoord (sh : InputShaper K) (time : K) :
    sh.dummy.move.getCoord time = sh.startPos := by
  ext axis
  simp [dummy, TrapqMove.alloc, TrapqMove.getCoord]

/-- Only the position of an axis that has pulses is changed. -/
theorem Readable.shapeAxis (h : Readable sh c time) (front back : List (TrapqMove K))
    (axis : Fin 3) (haxis : axis ≠ 2) (sh₀ : InputShaper K) :
    ∃ coord, sh₀.shapeAxis (c.within front back) time axis (sh.pulses axis) =
        some { sh₀ with startPos := coord } ∧
      (∀ axis', axis' ≠ axis → coord axis' = sh₀.startPos axis') ∧
      (sh₀.startPos axis = c.move.getCoord time axis ∨ (sh.pulses axis).isEmpty = false →
        coord axis = shapedPosition c axis (c.move.printTime + time) (sh.pulses axis)) := by
  unfold InputShaper.shapeAxis shapedPosition
  by_cases hsp : (sh.pulses axis).isEmpty = true
  · refine ⟨sh₀.startPos, if_pos hsp, fun _ _ => rfl, fun hstart => ?_⟩
    rw [if_pos hsp, h.axisPosition haxis]
    exact hstart.resolve_right (by simp [hsp])
  · rw [if_neg hsp, if_neg hsp,
      calcPosition_eq front back h.contiguous (h.joined axis haxis) (h.covers axis)]
    exact ⟨_, rfl, fun axis' hne => Function.update_of_ne hne _ _,
      fun _ => Function.update_self _ _ _⟩

/-- The callback of a single axis. -/
theorem Readable.single (h : Readable sh c time) (front back : List (TrapqMove K))
    (axis : Fin 3) (haxis : axis ≠ 2) : ∃ sh' coord,
      (if (sh.pulses axis).isEmpty then some (sh, (c.within front back).move.getCoord time)
        else (sh.shapeAxis (c.within front back) time axis (sh.pulses axis)).map fun sh =>
          (sh, sh.dummy.move.getCoord dummyT)) = some (sh', coord) ∧
      coord axis = shapedPosition c axis (c.move.printTime + time) (sh.pulses axis) := by
  by_cases hsp : (sh.pulses axis).isEmpty = true
  · refine ⟨sh, c.move.getCoord time, if_pos hsp, ?_⟩
    rw [shapedPosition, if_pos hsp, h.axisPosition haxis]
  · obtain ⟨coord, hshape, -, hcoord⟩ := h.shapeAxis front back axis haxis sh
    rw [if_neg hsp, hshape]
    exact ⟨_, _, rfl, by rw [dummy_getCoord]; exact hcoord (.inr (by simpa using hsp))⟩

/-- The kinematics reads the shaped positions of the axes that are active. -/
theorem readCoord_eq (h : Readable sh c time) (front back : List (TrapqMove K)) :
    ∃ coord, sh.readCoord (c.within front back) time = some coord ∧
      ∀ axis, axis ≠ 2 → sh.activeFlags axis = true →
        coord axis = shapedPosition c axis (c.move.printTime + time) (sh.pulses axis) := by
  unfold readCoord calcPositionCb
  split_ifs with hx hy
  · obtain ⟨sh', coord, hrun, hcoord⟩ := h.single front back 0 (by decide)
    refine ⟨coord, congrArg (Option.map Prod.snd) hrun, fun axis _ hactive => ?_⟩
    rw [hx] at hactive
    fin_cases axis
    · exact hcoord
    · exact absurd hactive Bool.false_ne_true
    · exact absurd hactive Bool.false_ne_true
  · obtain ⟨sh', coord, hrun, hcoord⟩ := h.single front back 1 (by decide)
    refine ⟨coord, congrArg (Option.map Prod.snd) hrun, fun axis _ hactive => ?_⟩
    rw [hy] at hactive
    fin_cases axis
    · exact absurd hactive Bool.false_ne_true
    · exact hcoord
    · exact absurd hactive Bool.false_ne_true
  · unfold shaperXYCalcPosition
    split_ifs with hempty
    · rw [Bool.and_eq_true] at hempty
      refine ⟨c.move.getCoord time, rfl, fun axis haxis _ => ?_⟩
      have hsp : (sh.pulses axis).isEmpty = true := by
        fin_cases axis
        · exact hempty.1
        · exact hempty.2
        · rfl
      rw [shapedPosition, if_pos hsp, h.axisPosition haxis]
    · obtain ⟨coord₁, hshape₁, hother₁, hcoord₁⟩ := h.shapeAxis front back 0 (by decide)
        { sh with startPos := (c.within front back).move.getCoord time }
      obtain ⟨coord₂, hshape₂, hother₂, hcoord₂⟩ := h.shapeAxis front back 1 (by decide)
        { sh with startPos := coord₁ }
      refine ⟨coord₂, ?_, fun axis haxis _ => ?_⟩
      · change Option.map Prod.snd ((InputShaper.shapeAxis _ _ _ 0 (sh.pulses 0)).bind _) = _
        rw [hshape₁]
        change Option.map Prod.snd ((InputShaper.shapeAxis _ _ _ 1 (sh.pulses 1)).map _) = _
        rw [hshape₂]
        exact congrArg some (dummy_getCoord _ _)
      · fin_cases axis
        · exact (hother₂ 0 (by decide)).trans (hcoord₁ (.inl rfl))
        · exact hcoord₂ (.inl (hother₁ 1 (by decide)))
        · exact absurd rfl haxis

/-! ## Updates -/

/-- An update of an axis that is active sets its pulses. -/
theorem pulses_setShaperParams (sh : InputShaper K) {axis : Fin 3} (haxis : axis ≠ 2)
    (hactive : sh.activeFlags axis = true) (n : ℤ) (a t : ℕ → K) :
    (sh.setShaperParams axis n a t).1.pulses = Function.update sh.pulses axis (initShaper n a t).1
      := by
  have hxy : ¬(axis ≠ 0 ∧ axis ≠ 1) := by
    revert haxis
    fin_cases axis <;> decide
  unfold setShaperParams
  rw [if_neg hxy, if_pos hactive]
  funext axis'
  fin_cases axis
  · fin_cases axis' <;> rfl
  · fin_cases axis' <;> rfl
  · exact absurd rfl haxis

/-- An update either does nothing or sets the pulses of an active axis. -/
theorem setShaperParams_cases (sh : InputShaper K) (axis : Fin 3) (n : ℤ) (a t : ℕ → K) :
    (sh.setShaperParams axis n a t).1 = sh ∨
      ∃ sh', (sh.setShaperParams axis n a t).1 = noteGenerationTime sh' ∧
        sh'.activeFlags = sh.activeFlags ∧
        sh'.pulses = Function.update sh.pulses axis (initShaper n a t).1 := by
  unfold setShaperParams
  split_ifs with haxis hactive hzero
  · exact .inl rfl
  · refine .inr ⟨_, rfl, rfl, ?_⟩
    subst hzero
    funext axis'
    fin_cases axis' <;> rfl
  · have hone : axis = 1 := by
      by_contra hne
      exact haxis ⟨hzero, hne⟩
    refine .inr ⟨_, rfl, rfl, ?_⟩
    subst hone
    funext axis'
    fin_cases axis' <;> rfl
  · exact .inl rfl

theorem activeFlags_setShaperParams (sh : InputShaper K) (axis : Fin 3) (n : ℤ) (a t : ℕ → K) :
    (sh.setShaperParams axis n a t).1.activeFlags = sh.activeFlags := by
  rcases setShaperParams_cases sh axis n a t with he | ⟨sh', he, hflags, -⟩
  · rw [he]
  · rw [he]
    exact hflags

theorem activeFlags_run (activeFlags : ActiveFlags) (calls : List (Params K)) :
    (run activeFlags calls).activeFlags = activeFlags := by
  unfold run
  induction calls using List.reverseRecOn with
  | nil => rfl
  | append_singleton calls p ih =>
    rw [List.foldl_append, List.foldl_cons, List.foldl_nil, activeFlags_setShaperParams, ih]

/-- The pulses are in the order of their times. -/
def Sorted (sp : List (ShaperPulse K)) : Prop :=
  sp.Pairwise fun p p' => p.t ≤ p'.t

theorem sorted_initShaper {n : ℤ} {a t : ℕ → K} (ht : ∀ i j : ℕ, i < j → (j : ℤ) < n → t i ≤ t j) :
    Sorted (initShaper n a t).1 := by
  by_cases hn : n < 0 ∨ n > 5
  · unfold initShaper
    rw [if_pos hn]
    exact List.Pairwise.nil
  · obtain ⟨k, rfl⟩ := Int.eq_ofNat_of_zero_le (not_lt.1 fun h => hn (.inl h))
    rw [initShaper_eq (by omega)]
    unfold Sorted
    rw [List.pairwise_map, List.pairwise_reverse]
    refine List.pairwise_lt_range.imp_of_mem fun {i j} _ hj hij => ?_
    have hle := ht i j hij (by exact_mod_cast List.mem_range.1 hj)
    exact add_le_add_left (neg_le_neg hle) _

theorem Sorted.bounds {sp : List (ShaperPulse K)} (h : Sorted sp) {first last : ShaperPulse K}
    (hfirst : sp.head? = some first) (hlast : sp.getLast? = some last) :
    ∀ p ∈ sp, first.t ≤ p.t ∧ p.t ≤ last.t := by
  intro p hp
  constructor
  · obtain ⟨rest, rfl⟩ := List.head?_eq_some_iff.1 hfirst
    rcases List.mem_cons.1 hp with rfl | hp
    · exact le_rfl
    · exact (List.pairwise_cons.1 h).1 p hp
  · obtain ⟨rest, rfl⟩ := List.getLast?_eq_some_iff.1 hlast
    rcases List.mem_append.1 hp with hp | hp
    · exact (List.pairwise_append.1 h).2.2 p hp last (List.mem_singleton_self _)
    · rw [List.mem_singleton.1 hp]

theorem Sorted.axisWindow {sp : List (ShaperPulse K)} (h : Sorted sp) {update : K → K → K}
    (hupdate : ∀ old new, new ≤ update old new) (window : K × K) :
    ∀ p ∈ sp, -(axisWindow true sp window update).2 ≤ p.t ∧
      p.t ≤ (axisWindow true sp window update).1 := by
  intro p hp
  have hne : sp ≠ [] := List.ne_nil_of_mem hp
  obtain ⟨first, hfirst⟩ := Option.isSome_iff_exists.1 (List.isSome_head?.2 hne)
  obtain ⟨last, hlast⟩ := Option.isSome_iff_exists.1 (List.getLast?_isSome.2 hne)
  have hbounds := h.bounds hfirst hlast p hp
  unfold InputShaper.axisWindow
  rw [hfirst, hlast]
  exact ⟨(neg_le.1 (hupdate window.2 (-first.t))).trans hbounds.1,
    hbounds.2.trans (hupdate window.1 last.t)⟩

theorem le_axisWindow (active : Bool) (sp : List (ShaperPulse K)) (window : K × K)
    {update : K → K → K} (hupdate : ∀ old new, old ≤ update old new) :
    window.1 ≤ (axisWindow active sp window update).1 ∧
      window.2 ≤ (axisWindow active sp window update).2 := by
  unfold axisWindow
  split
  · exact ⟨hupdate _ _, hupdate _ _⟩
  · exact ⟨le_rfl, le_rfl⟩

theorem windowed_noteGenerationTime {sh : InputShaper K} (h : ∀ axis, Sorted (sh.pulses axis)) :
    Windowed sh.noteGenerationTime := by
  intro axis haxis hactive p hp
  have hmax : ∀ old new : K, old ≤ (if new > old then new else old) ∧
      new ≤ (if new > old then new else old) := by
    intro old new
    split_ifs with hlt
    · exact ⟨hlt.le, le_rfl⟩
    · exact ⟨le_rfl, not_lt.1 hlt⟩
  set window := axisWindow (sh.activeFlags 0) sh.sx (0, 0) fun _ new => new with hwindow
  fin_cases axis
  · have hx := (h 0).axisWindow (fun _ _ => le_rfl) (0, 0) p hp
    have hle := le_axisWindow (sh.activeFlags 1) sh.sy window fun old new => (hmax old new).1
    rw [← show sh.activeFlags 0 = true from hactive] at hx
    exact ⟨(neg_le_neg hle.2).trans hx.1, hx.2.trans hle.1⟩
  · have hy := (h 1).axisWindow (fun old new => (hmax old new).2) window p hp
    rw [← show sh.activeFlags 1 = true from hactive] at hy
    exact hy
  · exact absurd rfl haxis

/-- Updates with times in order keep the pulses in the windows. -/
theorem windowed_run (activeFlags : ActiveFlags) {calls : List (Params K)}
    (h : ∀ p ∈ calls, p.Increasing) :
    Windowed (run activeFlags calls) := by
  have hrun : (∀ axis, Sorted ((run activeFlags calls).pulses axis)) ∧
      Windowed (run activeFlags calls) := by
    unfold run
    induction calls using List.reverseRecOn with
    | nil =>
      have hempty : ∀ axis, (setSk (K := K) activeFlags).pulses axis = [] := by
        intro axis
        fin_cases axis <;> rfl
      refine ⟨fun axis => ?_, fun axis _ _ p hp => ?_⟩
      · rw [List.foldl_nil, hempty]
        exact List.Pairwise.nil
      · rw [List.foldl_nil, hempty] at hp
        cases hp
    | append_singleton calls p ih =>
      obtain ⟨hsorted, hwindowed⟩ := ih fun q hq => h q (List.mem_append_left _ hq)
      rw [List.foldl_append, List.foldl_cons, List.foldl_nil]
      rcases setShaperParams_cases
        (calls.foldl (fun sh p => (sh.setShaperParams p.axis p.n p.a p.t).1) (setSk activeFlags))
        p.axis p.n p.a p.t with he | ⟨sh', he, -, hpulses⟩
      · rw [he]
        exact ⟨hsorted, hwindowed⟩
      · have hsorted' : ∀ axis, Sorted (sh'.pulses axis) := by
          intro axis
          rw [hpulses]
          by_cases haxis : axis = p.axis
          · subst haxis
            rw [Function.update_self]
            exact sorted_initShaper (h p (by simp))
          · rw [Function.update_of_ne haxis]
            exact hsorted axis
        rw [he]
        exact ⟨hsorted', windowed_noteGenerationTime hsorted'⟩
  exact hrun.2

/-! ## The shaped motion -/

/-- What the shaper of an axis does that has some pulses. -/
structure Shapes (sh : InputShaper K) (axis : Fin 3) (n : ℕ) (a t : ℕ → K) : Prop where
  amplitude : ∑ i ∈ range n, shaperAmplitude n a i = 1
  mean : ∑ i ∈ range n, shaperAmplitude n a i * shaperTime n a t i = 0
  weighted : ∀ c time front back, Readable sh c time →
    (sh.readCoord (c.within front back) time).map (· axis) =
      some (∑ i ∈ range n, shaperAmplitude n a i *
        axisPosition c.moves axis (c.move.printTime + time + shaperTime n a t i))
  affine : ∀ c time front back, Readable sh c time → ∀ α β lo hi : K,
    lo ≤ c.move.printTime + time → c.move.printTime + time ≤ hi →
    (∀ i < n, lo ≤ c.move.printTime + time + shaperTime n a t i ∧
      c.move.printTime + time + shaperTime n a t i ≤ hi) →
    (∀ x, lo ≤ x → x ≤ hi → axisPosition c.moves axis x = α + β * x) →
    (sh.readCoord (c.within front back) time).map (· axis) = some (c.move.getCoord time axis)
  boundary : ∀ prevs m m' nexts front back,
    Readable sh (⟨prevs, m, m' :: nexts⟩ : TrapqCursor K) m.moveT →
    Readable sh (⟨m :: prevs, m', nexts⟩ : TrapqCursor K) 0 ∧
      (sh.readCoord (TrapqCursor.within ⟨prevs, m, m' :: nexts⟩ front back) m.moveT).map (· axis) =
        (sh.readCoord (TrapqCursor.within ⟨m :: prevs, m', nexts⟩ front back) 0).map (· axis)

/-- The positions are weighted with the amplitudes. -/
theorem shapedPosition_of_pulses {n : ℕ} {a t : ℕ → K} (h : ∑ i ∈ range n, a i ≠ 0)
    (c : TrapqCursor K) (axis : Fin 3) (x : K) :
    shapedPosition c axis x
        ((List.range n).reverse.map fun i => ⟨shaperTime n a t i, shaperAmplitude n a i⟩) =
      ∑ i ∈ range n, shaperAmplitude n a i *
        axisPosition c.moves axis (x + shaperTime n a t i) := by
  have hn : n ≠ 0 := by
    rintro rfl
    exact h rfl
  unfold shapedPosition
  rw [if_neg (by simpa using hn), List.map_map, ← sum_reverse_map]
  rfl

/-- A weighted sum of an affine motion around a time is the position at that time. -/
theorem sum_affine {n : ℕ} {a t : ℕ → K} (h : ∑ i ∈ range n, a i ≠ 0) (α β x : K) :
    ∑ i ∈ range n, shaperAmplitude n a i * (α + β * (x + shaperTime n a t i)) = α + β * x := by
  have hterm : ∀ i ∈ range n, shaperAmplitude n a i * (α + β * (x + shaperTime n a t i)) =
      (α + β * x) * shaperAmplitude n a i +
        β * (shaperAmplitude n a i * shaperTime n a t i) := fun i _ => by ring
  rw [Finset.sum_congr rfl hterm, Finset.sum_add_distrib, ← Finset.mul_sum, ← Finset.mul_sum,
    sum_shaperAmplitude h, sum_shaperTime h, mul_one, mul_zero, add_zero]

/-- The end of a move is the start of the next one. -/
theorem Readable.next {sh : InputShaper K} {prevs nexts : List (TrapqMove K)} {m m' : TrapqMove K}
    (h : Readable sh (⟨prevs, m, m' :: nexts⟩ : TrapqCursor K) m.moveT) :
    Readable sh (⟨m :: prevs, m', nexts⟩ : TrapqCursor K) 0 ∧
      m'.printTime + 0 = m.printTime + m.moveT := by
  obtain ⟨hcontiguous, hjoined, hnonneg, hle, hcovers⟩ := h
  simp only [TrapqCursor.moves_back] at hcontiguous hjoined hcovers
  have htime := TrapqCursor.boundary_eq hcontiguous
  rw [← htime] at hcovers
  exact ⟨⟨hcontiguous, hjoined, le_rfl,
    hcontiguous.nonneg m' (by simp [TrapqCursor.moves]), hcovers⟩, htime⟩

/-- An axis that is given pulses is shaped by them. -/
theorem shapes_setShaperParams {n : ℕ} {a t : ℕ → K} {axis : Fin 3} (haxis : axis ≠ 2) (hn : n ≤ 5)
    (hsum : ∑ i ∈ range n, a i ≠ 0) {sh : InputShaper K} (hactive : sh.activeFlags axis = true) :
    Shapes (sh.setShaperParams axis n a t).1 axis n a t := by
  have hflags : (sh.setShaperParams axis n a t).1.activeFlags axis = true := by
    rw [activeFlags_setShaperParams]
    exact hactive
  have hpulses : (sh.setShaperParams axis n a t).1.pulses axis =
      (List.range n).reverse.map fun i => ⟨shaperTime n a t i, shaperAmplitude n a i⟩ := by
    rw [pulses_setShaperParams sh haxis hactive, Function.update_self, initShaper_eq hn]
  set sh' := (sh.setShaperParams axis n a t).1
  have hweighted : ∀ c time front back, Readable sh' c time →
      (sh'.readCoord (c.within front back) time).map (· axis) =
        some (∑ i ∈ range n, shaperAmplitude n a i *
          axisPosition c.moves axis (c.move.printTime + time + shaperTime n a t i)) := by
    intro c time front back h
    obtain ⟨coord, hread, hcoord⟩ := readCoord_eq h front back
    rw [hread, Option.map_some, hcoord axis haxis hflags, hpulses, shapedPosition_of_pulses hsum]
  refine ⟨sum_shaperAmplitude hsum, sum_shaperTime hsum, hweighted, ?_, ?_⟩
  · intro c time front back h α β lo hi hlo hhi hin haffine
    rw [hweighted c time front back h, ← h.axisPosition haxis, haffine _ hlo hhi,
      ← sum_affine hsum α β]
    exact congrArg some (Finset.sum_congr rfl fun i hi' => by
      rw [haffine _ (hin i (mem_range.1 hi')).1 (hin i (mem_range.1 hi')).2])
  · intro prevs m m' nexts front back h
    obtain ⟨h', htime⟩ := h.next
    refine ⟨h', ?_⟩
    rw [hweighted _ _ front back h, hweighted _ _ front back h', TrapqCursor.moves_back, htime]

/-- After an update with some pulses, and any ones before it, an axis is shaped by them ; where
all times are in order, the pulses of every active axis are in the windows. -/
theorem shapes_run (activeFlags : ActiveFlags) (calls : List (Params K)) {p : Params K}
    (haxis : p.axis ≠ 2) (hactive : activeFlags p.axis = true) (hnonneg : 0 ≤ p.n) (hn : p.n ≤ 5)
    (hsum : ∑ i ∈ range p.n.toNat, p.a i ≠ 0) :
    Shapes (run activeFlags (calls ++ [p])) p.axis p.n.toNat p.a p.t ∧
      ((∀ q ∈ calls ++ [p], q.Increasing) → Windowed (run activeFlags (calls ++ [p]))) := by
  refine ⟨?_, windowed_run activeFlags⟩
  obtain ⟨axis, n, a, t⟩ := p
  obtain ⟨k, rfl⟩ := Int.eq_ofNat_of_zero_le hnonneg
  unfold run
  rw [List.foldl_append, List.foldl_cons, List.foldl_nil]
  exact shapes_setShaperParams haxis (by simpa using hn) hsum
    ((congrFun (activeFlags_run activeFlags calls) axis).trans hactive)

/-- Two pulses of the same amplitude. -/
def zvPulses : Params ℚ :=
  ⟨0, 2, fun _ => 1, fun i => i / 10⟩

theorem shapes_zvPulses : Shapes (run ![true, true, false] [zvPulses]) 0 2 zvPulses.a zvPulses.t ∧
    Windowed (run ![true, true, false] [zvPulses]) := by
  obtain ⟨hshapes, hwindowed⟩ := shapes_run ![true, true, false] [] (p := zvPulses) (by decide) rfl
    (by decide) (by decide) (by decide +kernel)
  refine ⟨hshapes, hwindowed fun q hq => ?_⟩
  obtain rfl := List.mem_singleton.1 hq
  intro i j hij _
  have hcast : (i : ℚ) ≤ j := by exact_mod_cast hij.le
  exact div_le_div_of_nonneg_right hcast (by norm_num)

end InputShaper

end Thinker
