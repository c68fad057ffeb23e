import Thinker.LookAhead
import Thinker.Transition

/-!
# Planned moves

A lazy flush hands the moves in front of the last but one peak to the toolhead, before it is
known what comes behind the queue.

The moves handed over so far are `Planned` : each has got a junction that it can be driven
with, and starts at the speed at which the one before it ends. The first move that is kept
has its start velocity fixed : whatever moves follow, it will be planned from the velocity
at which the last move handed over ends (`HeadFixed`).

Within a flush, `Planning` says this of the moves that the loop has seen. The moves that
wait for a peak are not planned yet, but they can be driven with every peak (`Waits`).
-/

set_option linter.unusedSectionVars false

namespace Thinker

variable {K : Type*} [Field K] [LinearOrder K] [IsStrictOrderedRing K]

/-! ## Planned moves -/

/-- The moves have junctions that they can be driven with, from the speed `v2` on to the
speed `e2`. -/
def Planned : List (Move K × Option (Junction K)) → K → K → Prop
  | [], v2, e2 => v2 = e2
  | (m, j) :: ps, v2, e2 =>
    ∃ p : Junction K, j = some p ∧ p.startV2 = v2 ∧ m.Plannable ∧ m.Fits p ∧ Planned ps p.endV2 e2

theorem Planned.append {ps qs : List (Move K × Option (Junction K))} {v2 e2 f2 : K}
    (hp : Planned ps v2 e2) (hq : Planned qs e2 f2) : Planned (ps ++ qs) v2 f2 := by
  induction ps generalizing v2 with
  | nil =>
    obtain rfl : v2 = e2 := hp
    exact hq
  | cons p ps ih =>
    obtain ⟨j, hj, hv, hm, hfits, hps⟩ := hp
    exact ⟨j, hj, hv, hm, hfits, ih hps⟩

theorem Planned.of_mem {ps : List (Move K × Option (Junction K))} {v2 e2 : K}
    (h : Planned ps v2 e2) {p : Move K × Option (Junction K)} (hp : p ∈ ps) :
    ∃ j, p.2 = some j ∧ p.1.Plannable ∧ p.1.Fits j := by
  induction ps generalizing v2 with
  | nil => exact absurd hp List.not_mem_nil
  | cons q ps ih =>
    obtain ⟨j, hj, -, hm, hfits, hps⟩ := h
    rcases List.mem_cons.1 hp with rfl | hp
    · exact ⟨j, hj, hm, hfits⟩
    · exact ih hps hp

theorem marked_append (junctions : ℕ → Option (Junction K)) (i : ℕ) (q r : List (Move K)) :
    marked junctions i (q ++ r) = marked junctions i q ++ marked junctions (i + q.length) r := by
  induction q generalizing i with
  | nil => rfl
  | cons m q ih =>
    have hlen : i + 1 + q.length = i + (m :: q).length := by
      rw [List.length_cons]
      omega
    rw [List.cons_append, marked, marked, ih, List.cons_append, hlen]

/-- Only the junctions of the moves themselves count. -/
theorem marked_congr {js js' : ℕ → Option (Junction K)} {i : ℕ} {q : List (Move K)}
    (h : ∀ k, i ≤ k → k < i + q.length → js k = js' k) : marked js i q = marked js' i q := by
  induction q generalizing i with
  | nil => rfl
  | cons m q ih =>
    rw [marked, marked, h i le_rfl (by simp)]
    congr 1
    refine ih fun k hk hk' => h k (by omega) ?_
    rw [List.length_cons]
    omega

theorem marked_update (js : ℕ → Option (Junction K)) (i : ℕ) (j : Option (Junction K))
    (q : List (Move K)) : marked (Function.update js i j) (i + 1) q = marked js (i + 1) q := by
  refine marked_congr fun k hk _ => Function.update_of_ne ?_ _ _
  omega

/-! ## Moves that wait for a peak -/

/-- The moves `ds` from index `i` on wait, the first one with the start velocity `x`, and the
end velocity of the last one is `y`. -/
def Waits : ℕ → List (Move K) → List (ℕ × K × K) → K → K → Prop
  | _, [], entries, x, y => entries = [] ∧ x = y
  | i, m :: ds, entries, x, y => ∃ end2 rest, entries = (i, x, end2) :: rest ∧ m.Sound ∧
      0 < x ∧ x ≤ m.maxStartV2 ∧ x ≤ end2 + m.deltaV2 ∧ 0 ≤ end2 ∧ y ≤ x ∧
      Waits (i + 1) ds rest end2 y

namespace FlushLoop

/-- The junctions of other moves stay as they are. -/
theorem propagate_apply {i : ℕ} {ds : List (Move K)} {entries : List (ℕ × K × K)} {x y : K}
    (h : Waits i ds entries x y) (mc : K) (js : ℕ → Option (Junction K)) {k : ℕ}
    (hk : k < i ∨ i + ds.length ≤ k) : propagate mc entries js k = js k := by
  induction ds generalizing i entries x mc js with
  | nil =>
    obtain ⟨rfl, -⟩ := h
    rfl
  | cons m ds ih =>
    obtain ⟨end2, rest, rfl, -, -, -, -, -, -, hrest⟩ := h
    rw [List.length_cons] at hk
    rw [propagate, ih hrest _ _ (by omega), Function.update_of_ne (by omega)]

/-- Every delayed move can be driven below the peak. -/
theorem planned_propagate {i : ℕ} {ds : List (Move K)} {entries : List (ℕ × K × K)} {x y : K}
    (h : Waits i ds entries x y) {mc : K} (hmc : 0 < mc) (hy : y ≤ mc)
    (js : ℕ → Option (Junction K)) :
    Planned (marked (propagate mc entries js) i ds) (min mc x) y := by
  induction ds generalizing i entries x mc js with
  | nil =>
    obtain ⟨-, rfl⟩ := h
    exact min_eq_right hy
  | cons m ds ih =>
    obtain ⟨end2, rest, rfl, hm, hx, hmax, hend, hend0, hyx, hrest⟩ := h
    have hmc' : 0 < min mc x := lt_min hmc hx
    rw [propagate, marked, propagate_apply hrest _ _ (by omega), Function.update_self]
    refine ⟨_, rfl, min_eq_right (min_le_right _ _), hm.toPlannable, ?_, ?_⟩
    · have hcruise : min mc x ≤ m.maxStartV2 := (min_le_right _ _).trans hmax
      refine ⟨hmc', hcruise.trans hm.maxStartV2_le, le_min hx.le hmc'.le,
        (min_le_left _ _).trans hmax, min_le_right _ _, le_min hend0 hmc'.le, min_le_right _ _, ?_⟩
      have hd := hm.deltaV2_pos.le
      have hchange : min mc x - min end2 (min mc x) ≤ m.deltaV2 := by
        rcases min_choice end2 (min mc x) with h | h <;> rw [h]
        · have := min_le_right mc x
          linarith
        · linarith
      rw [min_eq_right (min_le_right mc x)]
      simpa using hchange
    · have := ih hrest hmc' (le_min hy hyx) (Function.update js i
        (some ⟨min x (min mc x), min mc x, min end2 (min mc x)⟩))
      rwa [min_comm (min mc x) end2] at this

end FlushLoop

/-! ## What a lazy flush leaves -/

/-- Whatever moves follow, the moves that are left are planned from the velocity `e2` on. -/
def HeadFixed (e2 : K) : List (Move K) → Prop
  | [] => e2 = 0
  | m :: w => ∀ r, Chain (m :: w ++ r) → (velocities (m :: w ++ r)).delayed = [] ∧
      min (velocities (m :: w ++ r)).endV2 (velocities (m :: w ++ r)).peakV2 = e2

/-- More moves do not change that. -/
theorem HeadFixed.append {e2 : K} {w r : List (Move K)} (h : HeadFixed e2 w) (hw : w ≠ []) :
    HeadFixed e2 (w ++ r) := by
  cases w with
  | nil => exact absurd rfl hw
  | cons m w =>
    intro r' hr'
    simpa using h (r ++ r') (by simpa using hr')

/-- The first move after a stop starts from the stop. -/
theorem headFixed_of_fresh {m : Move K} (hm : m.Fresh) : HeadFixed 0 [m] := by
  intro r hr
  have hw : Chain r := hr.2.2
  have hend : m.startV2 (velocities r) = 0 := by
    unfold Move.startV2
    rw [hm.maxStartV2_eq]
    exact min_eq_left (add_nonneg (hw.bounded.smoothed_nonneg.trans hw.bounded.smoothed_le_end)
      hm.deltaV2_pos.le)
  have hpos : 0 < (velocities r).smoothedV2 + m.smoothDeltaV2 :=
    add_pos_of_nonneg_of_pos hw.bounded.smoothed_nonneg hm.smoothDeltaV2_pos
  have hacc : m.Accelerates (velocities r) := by
    unfold Move.Accelerates Move.smoothedV2
    rw [hm.maxSmoothedV2_eq, min_eq_left hpos.le]
    exact hpos
  refine ⟨Velocities.step_delayed_of_accelerates hacc, ?_⟩
  have hpeak : 0 ≤ (velocities (m :: r)).peakV2 := (Chain.settled hr).peak_nonneg
  show min (velocities (m :: r)).endV2 (velocities (m :: r)).peakV2 = 0
  rw [velocities, Velocities.step_endV2, hend]
  exact min_eq_left hpeak

/-- A move in front of a second peak has its start velocity fixed. -/
theorem headFixed_of_peaks {m : Move K} {w : List (Move K)} (h : Chain (m :: w))
    (hacc : m.Accelerates (velocities w)) (hp : m.Peaks (velocities w))
    (hpeak : (velocities w).peakV2 ≠ 0) :
    HeadFixed (min (velocities (m :: w)).endV2 (velocities (m :: w)).peakV2) (m :: w) := by
  obtain ⟨-, hf, hw⟩ := h
  have hset := hw.settled
  have hstable : Stable w := by
    by_cases hnil : (velocities w).delayed = []
    · refine stable_of_peak hw.bounded hf hset hnil hpeak ?_
      -- no move waits, so this move can decelerate
      have hdec := hp.resolve_right (not_not.2 hnil)
      have : m.smoothedV2 (velocities w) ≤ m.maxSmoothedV2 := min_le_left _ _
      linarith
    · exact hset.stable hnil hpeak
  intro r hr
  rw [hstable.velocities_eq hacc hp hr]
  exact ⟨Velocities.step_delayed_of_accelerates hacc, rfl⟩

/-! ## The plan of a flush -/

theorem peak_pos {m : Move K} {w : List (Move K)} (h : Chain (m :: w))
    (hacc : m.Accelerates (velocities w)) : 0 < (velocities (m :: w)).peakV2 := by
  obtain ⟨hm, -, hw⟩ := h
  have hy := hw.bounded.smoothed_nonneg
  have hd := hm.smoothDeltaV2_pos
  have hs : 0 ≤ m.smoothedV2 (velocities w) := le_min hm.maxSmoothedV2_nonneg (by linarith)
  rw [velocities]
  by_cases hp : m.Peaks (velocities w)
  · rw [Velocities.step_peakV2_of_peaks hacc hp, Move.peakV2]
    exact lt_min hm.maxCruiseV2_pos (mul_pos (by linarith) (by norm_num))
  · rw [Velocities.step_peakV2_of_not_peaks hp]
    -- the move cannot decelerate, so the old peak is above it
    obtain ⟨hdec, hnil⟩ := not_or.1 hp
    have := hw.settled.smoothed_le_peak (not_not.1 hnil)
    linarith

/-- A move between two velocities that are in reach of each other can be driven with each
peak. -/
theorem fits_of_reach {m : Move K} (hm : m.Sound) {s x p : K} (hs : 0 ≤ s) (hx : 0 ≤ x)
    (hp : 0 < p) (hsm : s ≤ m.maxStartV2) (hxc : x ≤ m.maxCruiseV2) (hsx : s ≤ x + m.deltaV2)
    (hxs : x ≤ s + m.deltaV2) {c : K}
    (hc : c = min ((s + (x + m.deltaV2)) * 0.5) (min m.maxCruiseV2 p)) :
    m.Fits ⟨min s c, c, min x c⟩ ∧ min s c = min s p ∧ min x c = min x p := by
  have hd := hm.deltaV2_pos
  have hmid : (s + (x + m.deltaV2)) * 0.5 = (s + x + m.deltaV2) / 2 := by norm_num; ring
  rw [hmid] at hc
  have hc0 : 0 < c := hc ▸ lt_min (by linarith) (lt_min hm.maxCruiseV2_pos hp)
  have hcmid : c ≤ (s + x + m.deltaV2) / 2 := hc ▸ min_le_left _ _
  have hcc : c ≤ m.maxCruiseV2 := hc ▸ (min_le_right _ _).trans (min_le_left _ _)
  have hcut : ∀ v, v ≤ (s + x + m.deltaV2) / 2 → v ≤ m.maxCruiseV2 → min v c = min v p := by
    intro v hv hv'
    rw [hc, ← min_assoc, ← min_assoc, min_eq_left hv, min_eq_left hv']
  refine ⟨⟨hc0, hcc, le_min hs hc0.le, (min_le_left _ _).trans hsm, min_le_right _ _,
    le_min hx hc0.le, min_le_right _ _, ?_⟩, ?_, ?_⟩
  · show c - min s c + (c - min x c) ≤ m.deltaV2
    rcases min_choice s c with h | h <;> rcases min_choice x c with h' | h' <;>
      rw [h, h'] <;> linarith [min_le_left s c, min_le_left x c]
  · exact hcut s (by linarith) (hsm.trans hm.maxStartV2_le)
  · exact hcut x (by linarith) hxc

/-- An accelerating move can be driven, and starts and ends no faster than the peak. -/
theorem junctionAt_spec {m : Move K} {w : List (Move K)} (h : Chain (m :: w))
    (hacc : m.Accelerates (velocities w)) :
    m.Fits (m.junctionAt (velocities w)) ∧
      (m.junctionAt (velocities w)).startV2 =
        min (velocities (m :: w)).endV2 (velocities (m :: w)).peakV2 ∧
      (m.junctionAt (velocities w)).endV2 =
        min (velocities w).endV2 (velocities (m :: w)).peakV2 := by
  have hpeak := peak_pos h hacc
  obtain ⟨hm, hf, hw⟩ := h
  have hx : 0 ≤ (velocities w).endV2 :=
    hw.bounded.smoothed_nonneg.trans hw.bounded.smoothed_le_end
  have hd := hm.deltaV2_pos
  have hreach : (velocities w).endV2 ≤ m.startV2 (velocities w) + m.deltaV2 := by
    have hxm := hw.bounded.end_le.trans hf.start_le
    unfold Move.startV2
    rcases min_choice m.maxStartV2 ((velocities w).endV2 + m.deltaV2) with h | h <;> rw [h] <;>
      linarith
  rw [velocities, Velocities.step_endV2]
  exact fits_of_reach hm (le_min hm.maxStartV2_nonneg (by linarith)) hx hpeak (min_le_left _ _)
    (hw.bounded.end_le.trans hf.start_le_cruise) (min_le_right _ _) hreach rfl

/-- Where no move waits, a new peak does not change the velocity in front of it. -/
theorem min_peak_eq {m : Move K} {w : List (Move K)} (h : Chain (m :: w))
    (hacc : m.Accelerates (velocities w)) (hnil : (velocities w).delayed = []) :
    min (velocities w).endV2 (velocities (m :: w)).peakV2 =
      min (velocities w).endV2 (velocities w).peakV2 := by
  obtain ⟨hm, hf, hw⟩ := h
  have hset := hw.settled
  rw [velocities]
  by_cases hp : m.Peaks (velocities w)
  · rw [Velocities.step_peakV2_of_peaks hacc hp]
    have hdec := hp.resolve_right (not_not.2 hnil)
    have htake : m.smoothedV2 (velocities w) = m.maxSmoothedV2 :=
      (min_choice _ _).resolve_right hacc.ne
    obtain ⟨hend, hsmooth⟩ :=
      whole_bound hw.bounded hf (hset.smoothed_eq hnil) (htake ▸ hdec)
    have hold := hset.smoothed_le_peak hnil
    have hnew : (velocities w).endV2 ≤ m.peakV2 (velocities w) := by
      unfold Move.peakV2
      refine le_min (hend.trans_le hf.start_le_cruise) ?_
      norm_num
      linarith
    rw [min_eq_left hnew, min_eq_left (by linarith)]
  · rw [Velocities.step_peakV2_of_not_peaks hp]

/-- The peak behind which moves wait is above their smoothed velocity. -/
theorem smoothed_le_peak {m : Move K} {w : List (Move K)} (h : Chain (m :: w))
    (hacc : m.Accelerates (velocities w)) (hne : (velocities w).delayed ≠ []) :
    (velocities w).smoothedV2 ≤ (velocities (m :: w)).peakV2 := by
  obtain ⟨hm, hf, hw⟩ := h
  have hb := hw.bounded
  have htake : m.smoothedV2 (velocities w) = m.maxSmoothedV2 :=
    (min_choice _ _).resolve_right hacc.ne
  rw [velocities, Velocities.step_peakV2_of_peaks hacc (Or.inr hne), Move.peakV2]
  refine le_min (hb.smoothed_le_end.trans (hb.end_le.trans hf.start_le_cruise)) ?_
  have := hb.smoothed_le.trans hf.smoothed_le
  rw [htake]
  norm_num
  linarith

/-- A move that waits speeds up to a start velocity above all that its end needs. -/
theorem startV2_of_waits {m : Move K} {w : List (Move K)} (h : Chain (m :: w))
    (hacc : ¬m.Accelerates (velocities w)) :
    0 < m.startV2 (velocities w) ∧ (velocities w).smoothedV2 ≤ m.startV2 (velocities w) ∧
      (velocities w).smoothedV2 ≤ m.smoothedV2 (velocities w) := by
  obtain ⟨hm, -, hw⟩ := h
  have hb := hw.bounded
  have hd := hm.smoothDeltaV2_pos
  have hreach : (velocities w).smoothedV2 + m.smoothDeltaV2 ≤ m.smoothedV2 (velocities w) :=
    not_lt.1 hacc
  have hstart : m.smoothedV2 (velocities w) ≤ m.startV2 (velocities w) :=
    min_le_min hm.maxSmoothedV2_le (add_le_add hb.smoothed_le_end hm.smoothDeltaV2_le)
  have := hb.smoothed_nonneg
  exact ⟨by linarith, by linarith, by linarith⟩

/-- What is known at the front of the plan : no move waits, or the moves `ds` do. -/
inductive Front (i : ℕ) (l : FlushLoop K) : List (Move K) → K → Prop
  | ready (h : l.delayed = []) : Front i l [] (min l.nextEndV2 l.peakCruiseV2)
  | waiting {ds : List (Move K)} {y : K} (hne : l.delayed ≠ [])
      (h : Waits i ds l.delayed l.nextEndV2 y) (hy : y ≤ l.nextSmoothedV2) : Front i l ds y

/-- The plan in front of the first move, once it is known that `kept` is kept : the moves `ds`
wait, and the moves `pre` behind them are planned from the velocity `y` on. -/
structure Planning (i : ℕ) (l : FlushLoop K) (ds pre kept : List (Move K)) (y e2 : K) : Prop where
  updateFlushCount_eq : l.updateFlushCount = false
  flushCount_eq : l.flushCount = i + ds.length + pre.length
  fixed : HeadFixed e2 kept
  planned : Planned (marked l.junctions (i + ds.length) pre) y e2
  front : Front i l ds y

namespace Planning

variable {lazy : Bool} {i : ℕ} {m : Move K} {ds pre kept : List (Move K)} {y e2 : K}

/-- With a peak, the moves that wait are planned as well. -/
theorem propagate {l : FlushLoop K} (h : Planning i l ds pre kept y e2) {w : List (Move K)}
    (hl : l.toVelocities = velocities w) (hc : Chain (m :: w))
    (hacc : m.Accelerates (velocities w)) :
    Planned (marked (FlushLoop.propagate (velocities (m :: w)).peakV2 l.delayed l.junctions) i
      (ds ++ pre)) (min (velocities w).endV2 (velocities (m :: w)).peakV2) e2 := by
  have hend : (velocities w).endV2 = l.nextEndV2 := by rw [← hl]; rfl
  have hsmooth : (velocities w).smoothedV2 = l.nextSmoothedV2 := by rw [← hl]; rfl
  have hpeak : (velocities w).peakV2 = l.peakCruiseV2 := by rw [← hl]; rfl
  have hdelayed : (velocities w).delayed = l.delayed.map Prod.snd := by rw [← hl]; rfl
  have hplan := h.planned
  cases h.front with
  | ready hnil =>
    rw [min_peak_eq hc hacc (by rw [hdelayed, hnil]; rfl), hend, hpeak, hnil]
    exact hplan
  | waiting hne hwaits hy =>
    have hle := smoothed_le_peak hc hacc (by rwa [hdelayed, Ne, List.map_eq_nil_iff])
    have hds := FlushLoop.planned_propagate hwaits (peak_pos hc hacc)
      (hy.trans (hsmooth ▸ hle)) l.junctions
    rw [marked_append, min_comm, hend]
    refine hds.append ?_
    rwa [marked_congr fun k hk _ => FlushLoop.propagate_apply hwaits _ _ (Or.inr hk)]

/-- A move that accelerates is planned, and those that waited for it. -/
theorem accelerate {l : FlushLoop K} (h : Planning (i + 1) l ds pre kept y e2) {q : List (Move K)}
    (hl : l.toVelocities = velocities q) (hc : Chain (m :: q))
    (hacc : m.Accelerates (velocities q)) :
    Planning i (l.flushMove i m) [] (m :: (ds ++ pre)) kept
      (min (l.flushMove i m).nextEndV2 (l.flushMove i m).peakCruiseV2) e2 := by
  have hcount := h.flushCount_eq
  obtain ⟨hupd', hcount', hdelayed', hjs⟩ :=
    FlushLoop.flushMove_plan (i := i) (hl ▸ hacc) h.updateFlushCount_eq (by omega)
  have hl' : (l.flushMove i m).toVelocities = velocities (m :: q) := by
    rw [FlushLoop.flushMove_toVelocities, hl, velocities]
  have hpeak : (velocities (m :: q)).peakV2 = (l.toVelocities.step m).peakV2 := by
    rw [velocities, hl]
  obtain ⟨hfits, hstart, hend⟩ := junctionAt_spec hc hacc
  refine ⟨hupd', ?_, h.fixed, ?_, Front.ready hdelayed'⟩
  · rw [hcount', hcount, List.length_nil, List.length_cons, List.length_append]
    omega
  · have hrest := h.propagate hl hc hacc
    rw [← hend, hpeak, hl] at hrest
    show Planned (marked _ i (m :: (ds ++ pre))) _ e2
    rw [hjs, hl, marked, Function.update_self]
    refine ⟨_, rfl, ?_, hc.1.toPlannable, hfits, ?_⟩
    · rw [hstart, ← hl']
      rfl
    · rwa [marked_update]

/-- A move that cannot accelerate waits as well. -/
theorem delay {l : FlushLoop K} (h : Planning (i + 1) l ds pre kept y e2) {q : List (Move K)}
    (hl : l.toVelocities = velocities q) (hc : Chain (m :: q))
    (hacc : ¬m.Accelerates (velocities q)) :
    Planning i (l.flushMove i m) (m :: ds) pre kept y e2 := by
  obtain ⟨hpos, hstart, hsmooth⟩ := startV2_of_waits hc hacc
  obtain ⟨hm, hf, hw⟩ := hc
  have hx : 0 ≤ (velocities q).endV2 :=
    hw.bounded.smoothed_nonneg.trans hw.bounded.smoothed_le_end
  have hend : (velocities q).endV2 = l.nextEndV2 := by rw [← hl]; rfl
  have hpeak : (velocities q).peakV2 = l.peakCruiseV2 := by rw [← hl]; rfl
  have hlen : i + (m :: ds).length = i + 1 + ds.length := by
    rw [List.length_cons]
    omega
  -- the moves behind this one wait for their start velocity
  have hwaits : Waits (i + 1) ds l.delayed l.nextEndV2 y ∧ y ≤ (velocities q).smoothedV2 := by
    cases h.front with
    | ready hnil =>
      have hnil' : (velocities q).delayed = [] := by
        rw [← hl]
        exact List.map_eq_nil_iff.2 hnil
      have hlt : (velocities q).smoothedV2 < m.maxSmoothedV2 + m.smoothDeltaV2 := by
        have := hm.smoothDeltaV2_pos
        have : m.smoothedV2 (velocities q) ≤ m.maxSmoothedV2 := min_le_left _ _
        linarith
      obtain ⟨hbound, hbound'⟩ := whole_bound hw.bounded hf (hw.settled.smoothed_eq hnil') hlt
      have hle := hw.settled.smoothed_le_peak hnil'
      rw [← hend, ← hpeak, min_eq_left (by linarith)]
      exact ⟨⟨hnil, rfl⟩, by linarith⟩
    | waiting _ hwaits hy =>
      exact ⟨hwaits, hy.trans_eq (by rw [← hl]; rfl)⟩
  rw [FlushLoop.flushMove_delay (hl ▸ hacc), hl, ← hend]
  refine ⟨h.updateFlushCount_eq, ?_, h.fixed, ?_, Front.waiting (List.cons_ne_nil _ _) ?_ ?_⟩
  · rw [hlen]
    exact h.flushCount_eq
  · rw [hlen]
    exact h.planned
  · exact ⟨_, _, rfl, hm, hpos, min_le_left _ _, min_le_right _ _, hx, hwaits.2.trans hstart,
      hend ▸ hwaits.1⟩
  · exact hwaits.2.trans hsmooth

end Planning

/-- The loop of `flush` plans the moves in front of those that it keeps, if it finds any. A
flush that is not lazy keeps none. -/
theorem FlushLoop.planning (lazy : Bool) (i : ℕ) {q : List (Move K)} (hc : Chain q) :
    lazy = true ∧ (flushLoop lazy i q).updateFlushCount = true ∨
      ∃ ds pre kept y e2, q = ds ++ pre ++ kept ∧ (lazy = false → kept = []) ∧
        Planning i (flushLoop lazy i q) ds pre kept y e2 := by
  induction q generalizing i with
  | nil =>
    cases lazy with
    | true => exact Or.inl ⟨rfl, rfl⟩
    | false =>
      exact Or.inr ⟨[], [], [], min 0 0, 0, rfl, fun _ => rfl, rfl, rfl, rfl, min_self 0,
        Front.ready rfl⟩
  | cons m q ih =>
    have hl := flushLoop_toVelocities lazy (i + 1) q
    rw [flushLoop]
    rcases ih (i + 1) hc.2.2 with ⟨hlazy, hupd⟩ | ⟨ds, pre, kept, y, e2, rfl, hkept, h⟩
    · rcases flushMove_pending (i := i) (m := m) hupd with
        h | ⟨hacc, hp, hpeak, hupd', hcount, hdelayed⟩
      · exact Or.inl ⟨hlazy, h⟩
      · -- this move is behind the moves that are flushed
        rw [hl] at hacc hp
        have hpeak' : (velocities q).peakV2 ≠ 0 := by
          rw [← hl]
          exact hpeak
        have hfixed := headFixed_of_peaks hc hacc hp hpeak'
        have hl' : (flushMove i m (flushLoop lazy (i + 1) q)).toVelocities =
            velocities (m :: q) := by
          rw [flushMove_toVelocities, hl, velocities]
        rw [← hl'] at hfixed
        refine Or.inr ⟨[], [], m :: q, _, _, rfl, fun h => ?_, hupd', hcount, hfixed, rfl,
          Front.ready hdelayed⟩
        rw [hlazy] at h
        cases h
    · by_cases hacc : m.Accelerates (velocities (ds ++ pre ++ kept))
      · exact Or.inr ⟨_, _, _, _, _, rfl, hkept, h.accelerate hl hc hacc⟩
      · exact Or.inr ⟨_, _, _, _, _, rfl, hkept, h.delay hl hc hacc⟩

/-! ## The queue -/

theorem Chain.sound_of_mem {q : List (Move K)} (h : Chain q) {m : Move K} (hm : m ∈ q) :
    m.Sound := by
  induction q with
  | nil => exact absurd hm List.not_mem_nil
  | cons a q ih =>
    rcases List.mem_cons.1 hm with rfl | hm
    · exact h.1
    · exact ih h.2.2 hm

theorem Chain.concat {q : List (Move K)} (h : Chain q) {prev m : Move K}
    (hprev : q.getLast? = some prev) (hm : m.Sound)
    (hf : prev.Follows m.maxStartV2 m.maxSmoothedV2) : Chain (q ++ [m]) := by
  induction q with
  | nil => cases hprev
  | cons a q ih =>
    cases q with
    | nil =>
      obtain rfl := Option.some_inj.1 hprev
      exact ⟨h.1, hf, hm, hm.follows_zero, trivial⟩
    | cons b q =>
      rw [List.getLast?_cons_cons] at hprev
      exact ⟨h.1, h.2.1, ih h.2.2 hprev⟩

namespace LookAheadQueue

/-- The moves handed over are planned, and the queue goes on where they end. -/
structure Inv (s : LookAheadQueue K) (e2 : K) : Prop where
  chain : Chain s.queue
  planned : Planned s.processed 0 e2
  fixed : HeadFixed e2 s.queue

variable {s : LookAheadQueue K} {e2 : K}

theorem Inv.setJunctionFlush (h : Inv s e2) (v : K) : Inv { s with junctionFlush := v } e2 :=
  ⟨h.chain, h.planned, h.fixed⟩

/-- Where something is flushed, the plan starts at the velocity that was fixed before. -/
theorem Inv.front_eq (h : Inv s e2) {l : FlushLoop K} {ds : List (Move K)} {y : K}
    (hl : l.toVelocities = velocities s.queue) (hq : s.queue ≠ []) (hfront : Front 0 l ds y) :
    ds = [] ∧ y = e2 := by
  have hfixed := h.fixed
  have hc := h.chain
  obtain ⟨m, w, hmw⟩ := List.exists_cons_of_ne_nil hq
  rw [hmw] at hfixed hl hc
  obtain ⟨hnil, hmin⟩ := hfixed [] (by simpa using hc)
  rw [List.append_nil, ← hl] at hnil hmin
  cases hfront with
  | ready => exact ⟨rfl, hmin⟩
  | waiting hne => exact absurd (List.map_eq_nil_iff.1 hnil) hne

theorem Inv.flush (h : Inv s e2) (lazy : Bool) :
    ∃ e2', Inv (s.flush lazy) e2' ∧ (lazy = false → (s.flush lazy).queue = []) := by
  unfold LookAheadQueue.flush
  dsimp only
  have hl := FlushLoop.flushLoop_toVelocities lazy 0 s.queue
  rcases FlushLoop.planning lazy 0 h.chain with
    ⟨hlazy, hupd⟩ | ⟨ds, pre, kept, y, e2', hq, hkept, hplan⟩
  · rw [if_pos (Or.inl hupd)]
    exact ⟨e2, h.setJunctionFlush _, fun hf => absurd hlazy (by simp [hf])⟩
  · have hcount := hplan.flushCount_eq
    split_ifs with hnone
    · -- there is nothing to flush, and the queue stays as it is
      have hzero := hnone.resolve_left (by simp [hplan.updateFlushCount_eq])
      have hds : ds = [] := List.eq_nil_of_length_eq_zero (by omega)
      have hpre : pre = [] := List.eq_nil_of_length_eq_zero (by omega)
      refine ⟨e2, h.setJunctionFlush _, fun hf => ?_⟩
      show s.queue = []
      rw [hq, hds, hpre, hkept hf]
      rfl
    · have hne : s.queue ≠ [] := by
        intro hnil
        rw [hnil] at hq
        obtain ⟨rfl, rfl, -⟩ : ds = [] ∧ pre = [] ∧ kept = [] := by simpa using hq.symm
        exact hnone (Or.inr hcount)
      obtain ⟨rfl, rfl⟩ := h.front_eq hl hne hplan.front
      have hlen : (FlushLoop.flushLoop lazy 0 s.queue).flushCount = pre.length := by
        simpa using hcount
      have hplanned := hplan.planned
      rw [hlen, hq]
      rw [hq] at hplanned
      refine ⟨e2', ⟨?_, ?_, ?_⟩, fun hf => ?_⟩
      · show Chain (([] ++ pre ++ kept).drop pre.length)
        rw [List.nil_append, List.drop_left]
        exact Chain.right (w := [] ++ pre) (hq ▸ h.chain)
      · show Planned (s.processed ++ marked _ 0 (([] ++ pre ++ kept).take pre.length)) 0 e2'
        rw [List.nil_append, List.take_left]
        exact h.planned.append hplanned
      · show HeadFixed e2' (([] ++ pre ++ kept).drop pre.length)
        rw [List.nil_append, List.drop_left]
        exact hplan.fixed
      · show ([] ++ pre ++ kept).drop pre.length = []
        rw [List.nil_append, List.drop_left, hkept hf]

theorem Inv.addMove {sqrt : K → K} (hs : IsSqrt sqrt) (h : Inv s e2) {m : Move K}
    (hm : m.Fresh) {extruderV2 : K} (he : 0 ≤ extruderV2) :
    ∃ e2', Inv (s.addMove sqrt m extruderV2) e2' := by
  unfold LookAheadQueue.addMove
  split
  · rename_i hlast
    have hnil : s.queue = [] := List.getLast?_eq_none_iff.1 hlast
    have hfixed := h.fixed
    rw [hnil] at hfixed
    obtain rfl : e2 = 0 := hfixed
    exact ⟨0, ⟨hm.sound, hm.sound.follows_zero, trivial⟩, h.planned, headFixed_of_fresh hm⟩
  · rename_i prev hlast
    have hmem : prev ∈ s.queue := List.mem_of_getLast? hlast
    obtain ⟨hsound, hf⟩ :=
      Move.calcJunction_spec hs (h.chain.sound_of_mem hmem) hm he
    have hinv : Inv { s with
        queue := s.queue ++ [Move.calcJunction sqrt extruderV2 prev m]
        junctionFlush := s.junctionFlush - (Move.calcJunction sqrt extruderV2 prev m).minMoveT } e2 :=
      ⟨h.chain.concat hlast hsound hf, h.planned, h.fixed.append (List.ne_nil_of_mem hmem)⟩
    dsimp only
    split_ifs
    · obtain ⟨e2', hinv', -⟩ := hinv.flush true
      exact ⟨e2', hinv'⟩
    · exact ⟨e2, hinv⟩

end LookAheadQueue

/-! ## Every run -/

/-- What the toolhead does with its look-ahead queue. -/
inductive LookAheadEvent (K : Type*) where
  | addMove (m : Move K) (extruderV2 : K)
  | flush (lazy : Bool)
  | setFlushTime (flushTime : K)

/-- The look-ahead queue of a toolhead. -/
def lookAhead (sqrt : K → K) : System (LookAheadQueue K) (LookAheadEvent K) where
  init s := s = ⟨[], lookaheadFlushTime, []⟩
  next s
    | .addMove m extruderV2 => some (s.addMove sqrt m extruderV2)
    | .flush lazy => some (s.flush lazy)
    | .setFlushTime flushTime => some { s with junctionFlush := flushTime }

/-- A move that is added has just been made, and the extruder gives no negative bound. -/
def LookAheadEvent.Admissible : LookAheadEvent K → Prop
  | .addMove m extruderV2 => m.Fresh ∧ 0 ≤ extruderV2
  | _ => True

namespace LookAheadQueue

theorem inv_of_reachable {sqrt : K → K} (hs : IsSqrt sqrt) {s : LookAheadQueue K}
    (h : (lookAhead sqrt).ReachableBy (fun _ a => a.Admissible) s) : ∃ e2, Inv s e2 := by
  refine h.invariant (I := fun s => ∃ e2, Inv s e2) ?_ ?_
  · rintro s rfl
    exact ⟨0, trivial, rfl, rfl⟩
  · rintro s a t ⟨e2, hinv⟩ ha ht
    cases a with
    | addMove m extruderV2 =>
      obtain rfl := Option.some_inj.1 ht
      exact hinv.addMove hs ha.1 ha.2
    | flush lazy =>
      obtain rfl := Option.some_inj.1 ht
      obtain ⟨e2', hinv', -⟩ := hinv.flush lazy
      exact ⟨e2', hinv'⟩
    | setFlushTime flushTime =>
      obtain rfl := Option.some_inj.1 ht
      exact ⟨e2, hinv.setJunctionFlush _⟩

end LookAheadQueue

end Thinker
