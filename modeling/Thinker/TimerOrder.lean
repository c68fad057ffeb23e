import Thinker.Numerals
import Thinker.TimerList

/-!
# The order of the timer list

Every operation of `sched.c` keeps the list linked and in order (`SchedStatus.Inv`), if late
timers are due after the first timer and a timer that is put in front is before all others.
-/

namespace Thinker

namespace Timer

variable {n : ℕ}

/-- The static timers, and the others. -/
def equiv : Timer n ≃ Option (Option (Option (Fin n))) where
  toFun
    | .periodic => none
    | .sentinel => some none
    | .deleted => some (some none)
    | .user k => some (some (some k))
  invFun
    | none => .periodic
    | some none => .sentinel
    | some (some none) => .deleted
    | some (some (some k)) => .user k
  left_inv t := by cases t <;> rfl
  right_inv t := by rcases t with _ | _ | _ | _ <;> rfl

instance : Fintype (Timer n) :=
  Fintype.ofEquiv _ equiv.symm

theorem length_le {l : List (Timer n)} (h : l.Nodup) : l.length ≤ n + 3 := by
  have hcard : Fintype.card (Timer n) = n + 3 := by
    rw [Fintype.card_congr equiv]
    simp
  exact hcard ▸ h.length_le_card

end Timer

namespace SchedStatus

variable {n : ℕ} {s : SchedStatus n} {l : List (Timer n)}

/-- The list of the timers is linked, each active timer is in it once, and their times are in
order. -/
structure Inv (s : SchedStatus n) (l : List (Timer n)) : Prop where
  linked : Linked s.next s.timerList l .sentinel
  next_sentinel : s.next .sentinel = none
  nodup : (s.timerList :: l).Nodup
  periodic_mem : .periodic ∈ s.timerList :: l
  sentinel_notMem : .sentinel ∉ s.timerList :: l
  deleted_notMem : .deleted ∉ l
  lastInsert_mem : s.lastInsert ∈ s.timerList :: l
  active_iff : ∀ k, s.active k = true ↔ .user k ∈ s.timerList :: l
  window : TimeWindow s.waketime (s.waketime s.timerList) l
  sentinel_eq : s.waketime .sentinel = s.waketime .periodic + 0x80000000

namespace Inv

theorem start : Inv (SchedStatus.start n) [] where
  linked := rfl
  next_sentinel := rfl
  nodup := List.nodup_singleton _
  periodic_mem := List.mem_cons_self
  sentinel_notMem := by simp [SchedStatus.start]
  deleted_notMem := List.not_mem_nil
  lastInsert_mem := List.mem_cons_self
  active_iff k := by simp [SchedStatus.start]
  window := TimeWindow.nil
  sentinel_eq := by simp [SchedStatus.start]

/-- A reset leaves the periodic timer behind the deleted one. -/
theorem reset (h : Inv s l) : Inv s.schedTimerReset [.periodic] where
  linked := by simp [schedTimerReset, Linked]
  next_sentinel := by simpa [schedTimerReset] using h.next_sentinel
  nodup := by simp [schedTimerReset]
  periodic_mem := by simp
  sentinel_notMem := by simp [schedTimerReset]
  deleted_notMem := by simp
  lastInsert_mem := by simp [schedTimerReset]
  active_iff k := by simp [schedTimerReset]
  window := by
    refine ⟨List.pairwise_singleton _ _, fun x hx => ?_⟩
    obtain rfl := List.mem_singleton.1 hx
    simp [schedTimerReset]
  sentinel_eq := by simpa [schedTimerReset] using h.sentinel_eq

theorem runShutdown (h : Inv s l) : Inv s.runShutdown [.periodic] :=
  { h.reset with }

end Inv

/-! ## Inserting a timer -/

/-- A timer within half of the clock's range is before the sentinel or before the periodic
timer. -/
theorem stops {wt : Timer n → BitVec 32} {base w : BitVec 32} {l : List (Timer n)}
    (hs : wt .sentinel = wt .periodic + 0x80000000) (hw : ticks base w < 2 ^ 31)
    (hp : ticks base (wt .periodic) ≤ 2 ^ 31)
    (h : ticks base (wt .periodic) ≤ ticks base w ∨ .periodic ∈ l) :
    timerIsBefore w (wt .sentinel) = true ∨ ∃ y ∈ l, timerIsBefore w (wt y) = true := by
  by_cases hle : ticks base (wt .periodic) ≤ ticks base w
  · left
    have h1 := ticks_trans base w (wt .periodic)
    have h2 := ticks_trans w (wt .periodic) (wt .sentinel)
    have h3 : ticks (wt .periodic) (wt .sentinel) = 2 ^ 31 := by
      rw [hs, ticks_add]
      rfl
    have := ticks_lt w (wt .periodic)
    rw [timerIsBefore_iff]
    omega
  · exact Or.inr ⟨_, h.resolve_left hle, (timerIsBefore_iff_of_le base hw hp).2 (by omega)⟩

/-- What `insert_timer` does to a list in order. -/
theorem insertTimer_spec {a t pos : Timer n} {base : BitVec 32}
    (hl : Linked s.next a l .sentinel) (hnodup : (a :: l).Nodup) (ht : t ∉ a :: l)
    (hwindow : TimeWindow s.waketime base l) (htick : ticks base (s.waketime t) < 2 ^ 31)
    (hs : s.waketime .sentinel = s.waketime .periodic + 0x80000000)
    (hp : ticks base (s.waketime .periodic) ≤ 2 ^ 31)
    (hpl : ticks base (s.waketime .periodic) ≤ ticks base (s.waketime t) ∨ .periodic ∈ l)
    (hpos : pos = a ∨ pos ∈ l ∧ timerIsBefore (s.waketime t) (s.waketime pos) = false ∨
      pos = t ∧ s.next t = some a ∧ timerIsBefore (s.waketime t) (s.waketime a) = false) :
    ∃ next', s.insertTimer pos t (s.waketime t) = some { s with next := next' } ∧
      Linked next' a (place (fun x => timerIsBefore (s.waketime t) (s.waketime x)) t l)
        .sentinel ∧
      ∀ y, y ∉ a :: l → y ≠ t → next' y = s.next y := by
  have hlen : l.length < n + 4 := by
    have := Timer.length_le hnodup
    rw [List.length_cons] at this
    omega
  let stop : Timer n → Bool := fun x => timerIsBefore (s.waketime t) (s.waketime x)
  have hstop : stop .sentinel = true ∨ ∃ y ∈ l, stop y = true := stops hs htick hp hpl
  rcases hpos with rfl | ⟨hmem, hafter⟩ | ⟨rfl, hnext, hafter⟩
  · obtain ⟨next', heq, h⟩ := walkInsert_spec hl hnodup ht hstop (Nat.lt_succ_of_lt hlen)
    exact ⟨next', by rw [insertTimer, fuel, heq]; rfl, h⟩
  · obtain ⟨p, q, rfl⟩ := List.append_of_mem hmem
    -- the timers in front of `pos` are no later than `pos`
    have hpass : ∀ y ∈ p ++ [pos], timerIsBefore (s.waketime t) (s.waketime y) = false := by
      intro y hy
      rcases List.mem_append.1 hy with hy | hy
      · have hle := (List.pairwise_append.1 hwindow.sorted).2.2 y hy pos List.mem_cons_self
        rw [← Bool.not_eq_true] at hafter ⊢
        rw [timerIsBefore_iff_of_le base htick (hwindow.near pos hmem)] at hafter
        rw [timerIsBefore_iff_of_le base htick (hwindow.near y (by simp [hy]))]
        omega
      · rw [List.mem_singleton.1 hy]
        exact hafter
    rw [List.length_append, List.length_cons] at hlen
    obtain ⟨next', heq, h⟩ :=
      walkInsert_mid hl hnodup ht hpass hstop (show q.length < n + 5 by omega)
    exact ⟨next', by rw [insertTimer, fuel, heq]; rfl, h⟩
  · -- the timer itself, which still leads to the list
    obtain ⟨next', heq, h⟩ := walkInsert_spec hl hnodup ht hstop hlen
    refine ⟨next', ?_, h⟩
    rw [insertTimer, fuel, walkInsert_succ hnext hafter, heq]
    rfl

namespace Inv

/-! ## Adding a timer -/

theorem periodic_near (h : Inv s l) :
    ticks (s.waketime s.timerList) (s.waketime .periodic) ≤ 2 ^ 31 := by
  rcases List.mem_cons.1 h.periodic_mem with hp | hp
  · rw [← hp, ticks_self]
    exact Nat.zero_le _
  · exact h.window.near _ hp

/-- The wake time of a timer that is not active does not matter. -/
theorem setWaketime (h : Inv s l) {k : Fin n} (hk : s.active k = false) (w : BitVec 32) :
    Inv { s with waketime := Function.update s.waketime (.user k) w } l := by
  have hmem : Timer.user k ∉ s.timerList :: l := by
    rw [← h.active_iff, hk]
    exact Bool.false_ne_true
  have heq : ∀ x ∈ s.timerList :: l, Function.update s.waketime (.user k) w x = s.waketime x :=
    fun x hx => Function.update_of_ne (fun (he : x = .user k) => hmem (he ▸ hx)) _ _
  refine ⟨h.linked, h.next_sentinel, h.nodup, h.periodic_mem, h.sentinel_notMem, h.deleted_notMem,
    h.lastInsert_mem, h.active_iff, ?_, ?_⟩
  · show TimeWindow (Function.update s.waketime (.user k) w)
      (Function.update s.waketime (.user k) w s.timerList) l
    rw [heq _ List.mem_cons_self]
    exact h.window.congr fun x hx => heq x (List.mem_cons_of_mem _ hx)
  · show Function.update s.waketime (.user k) w .sentinel =
      Function.update s.waketime (.user k) w .periodic + _
    simpa using h.sentinel_eq

/-- A timer that is not before the first one is inserted behind it. -/
theorem insert (h : Inv s l) {k : Fin n} (hk : s.active k = false)
    (hw : timerIsBefore (s.waketime (.user k)) (s.waketime s.timerList) = false) :
    ∃ s' l', s.insertTimer s.timerList (.user k) (s.waketime (.user k)) = some s' ∧
      Inv (s'.activate k) l' := by
  have hmem : Timer.user k ∉ s.timerList :: l := by
    rw [← h.active_iff, hk]
    exact Bool.false_ne_true
  have htick := ticks_lt_of_timerIsBefore hw
  have hpl : ticks (s.waketime s.timerList) (s.waketime .periodic) ≤
      ticks (s.waketime s.timerList) (s.waketime (.user k)) ∨ .periodic ∈ l := by
    rcases List.mem_cons.1 h.periodic_mem with hp | hp
    · rw [← hp, ticks_self]
      exact Or.inl (Nat.zero_le _)
    · exact Or.inr hp
  obtain ⟨next', heq, hlinked, hframe⟩ := insertTimer_spec h.linked h.nodup hmem h.window htick
    h.sentinel_eq h.periodic_near hpl (Or.inl rfl)
  let stop : Timer n → Bool := fun x => timerIsBefore (s.waketime (.user k)) (s.waketime x)
  have hperm : (s.timerList :: place stop (.user k) l).Perm (.user k :: s.timerList :: l) :=
    ((place_perm stop _ l).cons _).trans (List.Perm.swap _ _ _)
  refine ⟨_, place stop (.user k) l, heq, hlinked, ?_, ?_, ?_, ?_, ?_, ?_, ?_, ?_, h.sentinel_eq⟩
  · show next' .sentinel = none
    rw [hframe _ h.sentinel_notMem (by simp)]
    exact h.next_sentinel
  · exact hperm.nodup_iff.2 (List.nodup_cons.2 ⟨hmem, h.nodup⟩)
  · exact hperm.mem_iff.2 (List.mem_cons_of_mem _ h.periodic_mem)
  · show .sentinel ∉ s.timerList :: place stop (.user k) l
    rw [hperm.mem_iff]
    simpa using h.sentinel_notMem
  · rw [(place_perm stop (.user k) l).mem_iff]
    simpa using h.deleted_notMem
  · exact hperm.mem_iff.2 (List.mem_cons_of_mem _ h.lastInsert_mem)
  · intro j
    show Function.update s.active k true j = true ↔ .user j ∈ s.timerList :: place stop (.user k) l
    rw [hperm.mem_iff, List.mem_cons, ← h.active_iff]
    by_cases hj : j = k
    · simp [hj]
    · simp [hj]
  · exact h.window.place htick

/-- A timer that is before all others is put in front. -/
theorem addFront (h : Inv s l) {k : Fin n} (hk : s.active k = false)
    (hhead : timerIsBefore (s.waketime (.user k)) (s.waketime s.timerList) = true)
    (hper : timerIsBefore (s.waketime (.user k)) (s.waketime .periodic) = true)
    (hall : ∀ j, s.active j = true →
      timerIsBefore (s.waketime (.user k)) (s.waketime (.user j)) = true) :
    ∃ l', Inv ((s.addFront k (s.waketime (.user k))).activate k) l' := by
  have hmem : Timer.user k ∉ s.timerList :: l := by
    rw [← h.active_iff, hk]
    exact Bool.false_ne_true
  have hbefore : ∀ x ∈ s.timerList :: l, x ≠ .deleted →
      timerIsBefore (s.waketime (.user k)) (s.waketime x) = true := by
    intro x hx hd
    cases x with
    | periodic => exact hper
    | sentinel => exact absurd hx h.sentinel_notMem
    | deleted => exact absurd rfl hd
    | user j => exact hall j ((h.active_iff j).2 hx)
  -- the timers behind the new one
  let rest := if s.timerList = .deleted then l else s.timerList :: l
  have hrest : rest.Sublist (s.timerList :: l) := by
    show (if s.timerList = .deleted then l else s.timerList :: l).Sublist _
    split_ifs
    · exact List.sublist_cons_self _ _
    · exact List.Sublist.refl _
  have hdel : Timer.deleted ∉ rest := by
    show Timer.deleted ∉ (if s.timerList = .deleted then l else s.timerList :: l)
    split_ifs with hd
    · exact h.deleted_notMem
    · simpa using ⟨fun he => hd he.symm, h.deleted_notMem⟩
  have hmem_rest : ∀ x, x ≠ .deleted → (x ∈ rest ↔ x ∈ s.timerList :: l) := by
    intro x hx
    show x ∈ (if s.timerList = .deleted then l else s.timerList :: l) ↔ _
    split_ifs with hd
    · simp [hd, hx]
    · rfl
  have hne : ∀ x ∈ rest, x ≠ .deleted := fun x hx hd => hdel (hd ▸ hx)
  have hwindow : TimeWindow s.waketime (s.waketime (.user k)) rest :=
    (h.window.cons_base.sublist hrest).backward hhead fun x hx =>
      hbefore x (hrest.subset hx) (hne x hx)
  refine ⟨.user k :: rest, ⟨by simp [activate, SchedStatus.addFront], ?_⟩, ?_, ?_, ?_, ?_, ?_, ?_, ?_,
    ?_, ?_⟩
  · have hframe : ∀ x ∈ s.timerList :: l, x ≠ .deleted →
        (activate k (s.addFront k (s.waketime (.user k)))).next x = s.next x := by
      intro x hx hd
      have hxk : x ≠ .user k := fun he => hmem (he ▸ hx)
      simp [activate, SchedStatus.addFront, hd, hxk]
    show Linked _ _ (if s.timerList = .deleted then l else s.timerList :: l) _
    split_ifs with hd
    · refine h.linked.congr (by simp [activate, SchedStatus.addFront, hd]) fun x hx => ?_
      exact hframe x (List.mem_cons_of_mem _ hx) fun he => h.deleted_notMem (he ▸ hx)
    · refine ⟨by simp [activate, SchedStatus.addFront, hd], h.linked.frame fun x hx => ?_⟩
      refine hframe x hx ?_
      rintro rfl
      rcases List.mem_cons.1 hx with he | hx
      · exact hd he.symm
      · exact h.deleted_notMem hx
  · simpa [activate, SchedStatus.addFront] using h.next_sentinel
  · refine List.nodup_cons.2 ⟨?_, List.nodup_cons.2 ⟨fun hk => hmem (hrest.subset hk),
      h.nodup.sublist hrest⟩⟩
    show .deleted ∉ .user k :: rest
    simpa using hdel
  · exact List.mem_cons_of_mem _ (List.mem_cons_of_mem _ ((hmem_rest _ (by simp)).2 h.periodic_mem))
  · show .sentinel ∉ .deleted :: .user k :: rest
    simpa [hmem_rest] using h.sentinel_notMem
  · simpa using hdel
  · show s.lastInsert ∈ .deleted :: .user k :: rest
    by_cases hd : s.lastInsert = .deleted
    · rw [hd]
      exact List.mem_cons_self
    · exact List.mem_cons_of_mem _ (List.mem_cons_of_mem _ ((hmem_rest _ hd).2 h.lastInsert_mem))
  · intro j
    show Function.update s.active k true j = true ↔ .user j ∈ .deleted :: .user k :: rest
    have := h.active_iff j
    by_cases hj : j = k
    · simp [hj]
    · simp [hj, hmem_rest, this]
  · have hw : ∀ x ≠ .deleted,
        (activate k (s.addFront k (s.waketime (.user k)))).waketime x = s.waketime x := by
      intro x hx
      simp [activate, SchedStatus.addFront, hx]
    have hhead' : (activate k (s.addFront k (s.waketime (.user k)))).waketime .deleted =
        s.waketime (.user k) := by
      simp [activate, SchedStatus.addFront]
    show TimeWindow _ ((activate k (s.addFront k (s.waketime (.user k)))).waketime .deleted) _
    rw [hhead']
    refine TimeWindow.congr hwindow.cons_base fun x hx => hw x ?_
    rcases List.mem_cons.1 hx with rfl | hx
    · simp
    · exact hne x hx
  · simpa [activate, SchedStatus.addFront] using h.sentinel_eq

/-! ## Removing a timer -/

/-- The first timer is replaced by the deleted timer. -/
theorem delHead (h : Inv s l) {k : Fin n} (hk : s.timerList = .user k) :
    ∃ s', s.schedDelTimer k = some s' ∧ Inv s' l := by
  have hfirst : Timer.user k ∉ l := hk ▸ (List.nodup_cons.1 h.nodup).1
  unfold schedDelTimer
  rw [if_pos hk, Option.map_some]
  refine ⟨_, rfl, ?_, ?_, ?_, ?_, ?_, ?_, ?_, ?_, ?_, ?_⟩
  · have hlinked := h.linked
    rw [hk] at hlinked
    refine hlinked.congr (by simp) fun x hx => ?_
    have hd : x ≠ .deleted := fun he => h.deleted_notMem (he ▸ hx)
    simp [hd]
  · simpa using h.next_sentinel
  · exact List.nodup_cons.2 ⟨h.deleted_notMem, (List.nodup_cons.1 h.nodup).2⟩
  · have := h.periodic_mem
    rw [hk] at this
    simpa using this
  · have := h.sentinel_notMem
    rw [hk] at this
    simpa using this
  · exact h.deleted_notMem
  · show (if s.lastInsert = .user k then .periodic else s.lastInsert) ∈ .deleted :: l
    have hper := h.periodic_mem
    have hlast := h.lastInsert_mem
    rw [hk] at hper hlast
    split_ifs with hl
    · simpa using hper
    · exact List.mem_cons_of_mem _ ((List.mem_cons.1 hlast).resolve_left hl)
  · intro j
    show Function.update s.active k false j = true ↔ .user j ∈ .deleted :: l
    have := h.active_iff j
    rw [hk] at this
    by_cases hj : j = k
    · simp [hj, hfirst]
    · simp [hj, this]
  · have hwindow := h.window
    rw [hk] at hwindow
    show TimeWindow (Function.update s.waketime .deleted _)
      (Function.update s.waketime .deleted _ .deleted) l
    rw [Function.update_self]
    refine hwindow.congr fun x hx => Function.update_of_ne ?_ _ _
    rintro rfl
    exact h.deleted_notMem hx
  · simpa using h.sentinel_eq

/-- Another timer is unlinked. -/
theorem unlink (h : Inv s l) {k : Fin n} (hk : s.timerList ≠ .user k) :
    ∃ s', s.schedDelTimer k = some s' ∧ Inv s' (l.erase (.user k)) := by
  have hlen : l.length + 1 < fuel n := by
    have := Timer.length_le h.nodup
    rw [List.length_cons] at this
    unfold fuel
    omega
  obtain ⟨next', heq, hlinked, hframe⟩ :=
    walkRemove_spec h.linked h.next_sentinel (show Timer.user k ≠ .sentinel by simp)
      h.nodup hlen
  have hsub : (s.timerList :: l.erase (.user k)).Sublist (s.timerList :: l) :=
    List.erase_sublist.cons_cons _
  have hmem : ∀ x, x ≠ .user k → (x ∈ s.timerList :: l.erase (.user k) ↔ x ∈ s.timerList :: l) := by
    intro x hx
    rw [List.mem_cons, List.mem_cons, List.mem_erase_of_ne hx]
  unfold schedDelTimer
  rw [if_neg hk, heq, Option.map_some, Option.map_some]
  refine ⟨_, rfl, hlinked, ?_, ?_, ?_, ?_, ?_, ?_, ?_, ?_, ?_⟩
  · show next' .sentinel = none
    rw [hframe _ h.sentinel_notMem]
    exact h.next_sentinel
  · exact h.nodup.sublist hsub
  · exact (hmem _ (by simp)).2 h.periodic_mem
  · exact fun hm => h.sentinel_notMem (hsub.subset hm)
  · exact fun hm => h.deleted_notMem (List.mem_of_mem_erase hm)
  · show (if s.lastInsert = .user k then .periodic else s.lastInsert) ∈
      s.timerList :: l.erase (.user k)
    split_ifs with hl
    · exact (hmem _ (by simp)).2 h.periodic_mem
    · exact (hmem _ hl).2 h.lastInsert_mem
  · intro j
    show Function.update s.active k false j = true ↔ .user j ∈ s.timerList :: l.erase (.user k)
    by_cases hj : j = k
    · have := (List.nodup_cons.1 h.nodup).2
      simp [hj, hk.symm, this.mem_erase_iff]
    · rw [hmem _ (by simpa using hj), ← h.active_iff]
      simp [hj]
  · exact h.window.sublist List.erase_sublist
  · exact h.sentinel_eq

theorem del (h : Inv s l) (k : Fin n) : ∃ s' l', s.schedDelTimer k = some s' ∧ Inv s' l' := by
  by_cases hk : s.timerList = .user k
  · obtain ⟨s', heq, h'⟩ := h.delHead hk
    exact ⟨s', l, heq, h'⟩
  · obtain ⟨s', heq, h'⟩ := h.unlink hk
    exact ⟨s', _, heq, h'⟩

/-! ## Dispatching a timer -/

/-- The first timer is done. -/
theorem finish {x : Timer n} (h : Inv s (x :: l)) (hp : s.timerList ≠ .periodic)
    {active : Fin n → Bool} (hactive : ∀ k, active k = true ↔ .user k ∈ x :: l) :
    Inv { s with
      timerList := x
      lastInsert := if s.lastInsert = s.timerList then x else s.lastInsert
      active := active } l where
  linked := h.linked.2
  next_sentinel := h.next_sentinel
  nodup := (List.nodup_cons.1 h.nodup).2
  periodic_mem := (List.mem_cons.1 h.periodic_mem).resolve_left hp.symm
  sentinel_notMem hm := h.sentinel_notMem (List.mem_cons_of_mem _ hm)
  deleted_notMem hm := h.deleted_notMem (List.mem_cons_of_mem _ hm)
  lastInsert_mem := by
    show (if s.lastInsert = s.timerList then x else s.lastInsert) ∈ x :: l
    split_ifs with hl
    · exact List.mem_cons_self
    · exact (List.mem_cons.1 h.lastInsert_mem).resolve_left hl
  active_iff := hactive
  window := by
    have hsorted := List.pairwise_cons.1 h.window.sorted
    exact (h.window.sublist (List.sublist_cons_self _ _)).forward hsorted.1
  sentinel_eq := h.sentinel_eq

/-- The first timer is due again before the others. -/
theorem stay (h : Inv s l) {wt : Timer n → BitVec 32} {d : BitVec 32}
    (ht : wt s.timerList = s.waketime s.timerList + d) (hwt : ∀ x ∈ l, wt x = s.waketime x)
    (hs : wt .sentinel = wt .periodic + 0x80000000)
    (hd : ∀ x ∈ l, d.toNat ≤ ticks (s.waketime s.timerList) (s.waketime x)) :
    Inv { s with waketime := wt } l := by
  refine ⟨h.linked, h.next_sentinel, h.nodup, h.periodic_mem, h.sentinel_notMem, h.deleted_notMem,
    h.lastInsert_mem, h.active_iff, ?_, hs⟩
  refine TimeWindow.congr ?_ hwt
  show TimeWindow s.waketime (wt s.timerList) l
  rw [ht]
  refine h.window.forward fun x hx => ?_
  rw [ticks_add]
  exact hd x hx

/-- The first timer is due again later, and is inserted behind. -/
theorem move {x : Timer n} (h : Inv s (x :: l)) (hdel : s.timerList ≠ .deleted)
    {wt : Timer n → BitVec 32} {d : BitVec 32}
    (ht : wt s.timerList = s.waketime s.timerList + d) (hd : d.toNat < 2 ^ 31)
    (hwt : ∀ y ∈ x :: l, wt y = s.waketime y) (hs : wt .sentinel = wt .periodic + 0x80000000)
    (hafter : timerIsBefore (wt s.timerList) (wt x) = false) :
    ∃ s' l', ({ s with waketime := wt }).updateTimerList s.timerList true = some (s', wt x) ∧
      Inv s' l' ∧ s'.waketime s'.timerList = wt x := by
  obtain ⟨ht', hnodup⟩ := List.nodup_cons.1 h.nodup
  have hwindow : TimeWindow wt (s.waketime s.timerList) (x :: l) := h.window.congr hwt
  have htick : ticks (s.waketime s.timerList) (wt s.timerList) = d.toNat := by
    rw [ht, ticks_add]
  have hx : ticks (s.waketime s.timerList) (wt x) ≤ d.toNat := by
    have := hwindow.near x List.mem_cons_self
    rw [← Bool.not_eq_true, timerIsBefore_iff_of_le _ (htick ▸ hd) this] at hafter
    omega
  -- the periodic timer is in front of the sentinel
  have hper : ticks (s.waketime s.timerList) (wt .periodic) ≤ 2 ^ 31 ∧
      (ticks (s.waketime s.timerList) (wt .periodic) ≤
        ticks (s.waketime s.timerList) (wt s.timerList) ∨ .periodic ∈ l) := by
    rcases List.mem_cons.1 h.periodic_mem with hp | hp
    · rw [hp, htick]
      exact ⟨hd.le, Or.inl le_rfl⟩
    · refine ⟨hwindow.near _ hp, ?_⟩
      rcases List.mem_cons.1 hp with rfl | hp
      · exact Or.inl (htick ▸ hx)
      · exact Or.inr hp
  let pos := if timerIsBefore (wt s.timerList) (wt s.lastInsert) then x else s.lastInsert
  have hpos : pos = x ∨ pos ∈ l ∧ timerIsBefore (wt s.timerList) (wt pos) = false ∨
      pos = s.timerList ∧ s.next s.timerList = some x ∧
        timerIsBefore (wt s.timerList) (wt x) = false := by
    show (if timerIsBefore (wt s.timerList) (wt s.lastInsert) then x else s.lastInsert) = x ∨ _
    by_cases hb : timerIsBefore (wt s.timerList) (wt s.lastInsert) = true
    · exact Or.inl (if_pos hb)
    · have hposl : pos = s.lastInsert := if_neg hb
      rw [hposl, if_neg hb]
      rcases List.mem_cons.1 h.lastInsert_mem with hl | hl
      · exact Or.inr (Or.inr ⟨hl, h.linked.1, hafter⟩)
      · rcases List.mem_cons.1 hl with hl | hl
        · exact Or.inl hl
        · exact Or.inr (Or.inl ⟨hl, by simpa using hb⟩)
  let s₁ : SchedStatus n := { s with waketime := wt, timerList := x }
  obtain ⟨next', heq, hlinked, hframe⟩ := insertTimer_spec (s := s₁) h.linked.2 hnodup ht'
    (hwindow.sublist (List.sublist_cons_self _ _)) (htick ▸ hd) hs hper.1 hper.2 hpos
  let stop : Timer n → Bool := fun y => timerIsBefore (wt s.timerList) (wt y)
  have hplaced : TimeWindow wt (s.waketime s.timerList) (place stop s.timerList l) :=
    (hwindow.sublist (List.sublist_cons_self _ _)).place (htick ▸ hd)
  have hperm : (x :: place stop s.timerList l).Perm (s.timerList :: x :: l) :=
    ((place_perm stop _ l).cons _).trans (List.Perm.swap _ _ _)
  refine ⟨{ s₁ with next := next', lastInsert := s.timerList }, place stop s.timerList l, ?_,
    ⟨hlinked, ?_, ?_, ?_, ?_, ?_, ?_, ?_, ?_, hs⟩, rfl⟩
  · have hnext : ({ s with waketime := wt } : SchedStatus n).next s.timerList = some x := h.linked.1
    have heq' : s₁.insertTimer pos s.timerList (wt s.timerList) =
        some { s₁ with next := next' } := heq
    unfold updateTimerList
    rw [hnext]
    simp only [Option.bind_eq_bind, Option.bind_some, hafter, Bool.not_true, Bool.not_false,
      Bool.false_eq_true, if_false, if_true]
    show (s₁.insertTimer pos s.timerList (wt s.timerList)).bind _ = _
    rw [heq']
    rfl
  · show next' .sentinel = none
    rw [hframe _ (fun hm => h.sentinel_notMem (List.mem_cons_of_mem _ hm))
      (fun he => h.sentinel_notMem (he ▸ List.mem_cons_self))]
    exact h.next_sentinel
  · exact hperm.nodup_iff.2 h.nodup
  · exact hperm.mem_iff.2 h.periodic_mem
  · exact fun hm => h.sentinel_notMem (hperm.mem_iff.1 hm)
  · rw [(place_perm stop s.timerList l).mem_iff]
    intro hm
    rcases List.mem_cons.1 hm with he | hm
    · exact hdel he.symm
    · exact h.deleted_notMem (List.mem_cons_of_mem _ hm)
  · exact hperm.mem_iff.2 List.mem_cons_self
  · intro k
    rw [h.active_iff]
    exact hperm.mem_iff.symm
  · refine hplaced.forward fun y hy => ?_
    rcases List.mem_cons.1 ((place_perm stop s.timerList l).mem_iff.1 hy) with rfl | hy
    · exact htick ▸ hx
    · exact (List.pairwise_cons.1 hwindow.sorted).1 y hy

/-- The end of a dispatch whose timer is due again. -/
theorem reschedule (h : Inv s l) (hdel : s.timerList ≠ .deleted) {wt : Timer n → BitVec 32}
    {d : BitVec 32} (ht : wt s.timerList = s.waketime s.timerList + d) (hd : d.toNat < 2 ^ 31)
    (hwt : ∀ y ∈ l, wt y = s.waketime y) (hs : wt .sentinel = wt .periodic + 0x80000000) :
    ∃ s' l', ({ s with waketime := wt }).updateTimerList s.timerList true =
      some (s', s'.waketime s'.timerList) ∧ Inv s' l' := by
  have hstay : ∀ {x : Timer n}, s.next s.timerList = some x →
      timerIsBefore (wt s.timerList) (wt x) = true →
      ({ s with waketime := wt }).updateTimerList s.timerList true =
        some ({ s with waketime := wt }, wt s.timerList) := by
    intro x hx hb
    unfold updateTimerList
    simp [hx, hb]
  cases l with
  | nil =>
    -- the periodic timer is alone in front of the sentinel
    have hp : s.timerList = .periodic := (List.mem_singleton.1 h.periodic_mem).symm
    refine ⟨_, [], hstay h.linked ?_, h.stay ht hwt hs fun x hx => absurd hx List.not_mem_nil⟩
    rw [hp, hs, timerIsBefore_iff, ticks_add]
    decide
  | cons x l =>
    by_cases hb : timerIsBefore (wt s.timerList) (wt x) = true
    · refine ⟨_, x :: l, hstay h.linked.1 hb, h.stay ht hwt hs fun y hy => ?_⟩
      have hx := h.window.near x List.mem_cons_self
      have htick : ticks (s.waketime s.timerList) (wt s.timerList) = d.toNat := by
        rw [ht, ticks_add]
      rw [hwt x List.mem_cons_self, timerIsBefore_iff_of_le _ (htick ▸ hd) hx, htick] at hb
      rcases List.mem_cons.1 hy with rfl | hy
      · exact hb.le
      · exact hb.le.trans ((List.pairwise_cons.1 h.window.sorted).1 y hy)
    · obtain ⟨s', l', heq, hinv, htime⟩ := h.move hdel ht hd hwt hs (by simpa using hb)
      exact ⟨s', l', by rw [heq, htime], hinv⟩

theorem timerFromUs_lt (clockFreq : BitVec 32) :
    (timerFromUs clockFreq 100000).toNat < 2 ^ 31 := by
  unfold timerFromUs
  rw [BitVec.toNat_mul, BitVec.toNat_udiv]
  have := clockFreq.isLt
  have h1 : (100000 : BitVec 32).toNat = 100000 := rfl
  have h2 : (1000000 : BitVec 32).toNat = 1000000 := rfl
  have hdiv : clockFreq.toNat / 1000000 ≤ 4294 := by omega
  rw [h1, h2, Nat.mod_eq_of_lt] <;> omega

/-- A dispatch returns the wake time of the timer that is the first one then. -/
theorem dispatch (h : Inv s l) (clockFreq : BitVec 32) {res : Option (BitVec 32)}
    (hres : ∀ d ∈ res, d.toNat < 2 ^ 31) :
    ∃ s' l', s.schedTimerDispatch clockFreq res =
      some (s', some (s'.waketime s'.timerList)) ∧ Inv s' l' := by
  -- a timer that is done has the periodic timer behind it
  have hdone : ∀ active : Fin n → Bool, s.timerList ≠ .periodic →
      (∀ k, active k = true ↔ .user k ∈ l) →
      ∃ s' l', ({ s with active := active }).updateTimerList s.timerList false =
        some (s', s'.waketime s'.timerList) ∧ Inv s' l' := by
    intro active hp hactive
    cases l with
    | nil => exact absurd (List.mem_singleton.1 h.periodic_mem).symm hp
    | cons x l =>
      refine ⟨_, l, ?_, h.finish hp hactive⟩
      unfold updateTimerList
      simp [h.linked.1]
  have hmap : ∀ {o : Option (SchedStatus n × BitVec 32)},
      (∃ s' l', o = some (s', s'.waketime s'.timerList) ∧ Inv s' l') →
      ∃ s' l', (o.map fun r => (r.1, some r.2)) =
        some (s', some (s'.waketime s'.timerList)) ∧ Inv s' l' := by
    rintro _ ⟨s', l', rfl, hinv⟩
    exact ⟨s', l', rfl, hinv⟩
  obtain ⟨hfirst, -⟩ := List.nodup_cons.1 h.nodup
  unfold schedTimerDispatch
  dsimp only
  cases ht : s.timerList with
  | periodic =>
    rw [ht] at hfirst
    have hwt : ∀ y ∈ l, Function.update (Function.update s.waketime .periodic
        (s.waketime .periodic + timerFromUs clockFreq 100000)) .sentinel
        (s.waketime .periodic + timerFromUs clockFreq 100000 + 0x80000000) y = s.waketime y := by
      intro y hy
      have hys : y ≠ .sentinel := fun he => h.sentinel_notMem (he ▸ List.mem_cons_of_mem _ hy)
      have hyp : y ≠ .periodic := fun he => hfirst (he ▸ hy)
      rw [Function.update_of_ne hys, Function.update_of_ne hyp]
    have := h.reschedule (by simp [ht]) (by simp [ht]) (timerFromUs_lt clockFreq) hwt (by simp)
    rw [ht] at this
    simp only [timerFunc, ht]
    exact hmap this
  | sentinel => exact absurd (ht ▸ List.mem_cons_self) h.sentinel_notMem
  | deleted =>
    have := hdone s.active (by simp [ht]) fun k => by
      rw [h.active_iff, ht]
      simp
    rw [ht] at this
    exact hmap this
  | user k =>
    rw [ht] at hfirst
    cases res with
    | none =>
      have := hdone (Function.update s.active k false) (by simp [ht]) fun j => by
        by_cases hj : j = k
        · simp [hj, hfirst]
        · have := h.active_iff j
          rw [ht] at this
          simp [hj, this]
      rw [ht] at this
      exact hmap this
    | some d =>
      have hwt : ∀ y ∈ l, Function.update s.waketime (.user k) (s.waketime (.user k) + d) y =
          s.waketime y := by
        intro y hy
        exact Function.update_of_ne (fun (he : y = .user k) => hfirst (he ▸ hy)) _ _
      have := h.reschedule (by simp [ht]) (by simp [ht]) (hres d rfl) hwt
        (by simpa using h.sentinel_eq)
      rw [ht] at this
      simp only [timerFunc, ht]
      exact hmap this

/-! ## Every run -/

theorem setTooCloseC (h : Inv s l) (c : ℕ) : Inv { s with tooCloseC := c } l :=
  ⟨h.linked, h.next_sentinel, h.nodup, h.periodic_mem, h.sentinel_notMem, h.deleted_notMem,
    h.lastInsert_mem, h.active_iff, h.window, h.sentinel_eq⟩

theorem setShutdownStatus (h : Inv s l) (b : Bool) : Inv { s with shutdownStatus := b } l :=
  ⟨h.linked, h.next_sentinel, h.nodup, h.periodic_mem, h.sentinel_notMem, h.deleted_notMem,
    h.lastInsert_mem, h.active_iff, h.window, h.sentinel_eq⟩

/-- `sched_add_timer` of a timer whose wake time is set. -/
theorem schedAddTimer (h : Inv s l) {k : Fin n} {now now' : BitVec 32} (hk : s.active k = false)
    (htime : (SchedEvent.addTimer k (s.waketime (.user k)) now now').InTime s) :
    ∃ s' l', s.schedAddTimer k now now' = some s' ∧ Inv s' l' := by
  have hmem : s.timerList ≠ .user k := by
    intro he
    have := (h.active_iff k).2 (he ▸ List.mem_cons_self)
    rw [hk] at this
    cases this
  unfold SchedStatus.schedAddTimer
  dsimp only
  by_cases hb : timerIsBefore (s.waketime (.user k)) (s.waketime s.timerList) = true
  · have htime' := htime hb
    rw [if_pos hb]
    by_cases hlate : timerIsBefore (s.waketime (.user k)) now = true
    · rw [if_pos hlate]
      by_cases hc : s.tooCloseC < 2
      · -- the late timer is tolerated
        rw [if_pos ⟨hlate, hc⟩] at htime'
        rw [if_neg (by omega)]
        have hset := (h.setTooCloseC (s.tooCloseC + 1)).setWaketime hk now'
        obtain ⟨s', l', heq, hinv⟩ := hset.insert hk (by simpa [hmem] using htime')
        refine ⟨s'.activate k, l', ?_, hinv⟩
        dsimp only at heq
        rw [Function.update_self] at heq
        rw [heq]
        rfl
      · rw [if_neg fun hand => hc hand.2] at htime'
        rw [if_pos (by omega)]
        by_cases hdown : s.shutdownStatus = true
        · rw [if_pos hdown]
          obtain ⟨hper, hall⟩ := htime'.resolve_left fun hand => by simp [hdown] at hand
          obtain ⟨l', hinv⟩ := (h.setTooCloseC (s.tooCloseC + 1)).addFront hk hb hper hall
          exact ⟨_, l', rfl, hinv⟩
        · rw [if_neg hdown]
          exact ⟨_, _, rfl, (h.setTooCloseC (s.tooCloseC + 1)).runShutdown⟩
    · rw [if_neg hlate]
      rw [if_neg fun hand => hlate hand.1] at htime'
      obtain ⟨hper, hall⟩ := htime'.resolve_left fun hand => hlate hand.1
      obtain ⟨l', hinv⟩ := h.addFront hk hb hper hall
      exact ⟨_, l', rfl, hinv⟩
  · rw [if_neg hb]
    obtain ⟨s', l', heq, hinv⟩ := h.insert hk (by simpa using hb)
    exact ⟨s'.activate k, l', by rw [heq]; rfl, hinv⟩

/-- Whether a timer is added in time does not depend on its old wake time. -/
theorem inTime_setWaketime (h : Inv s l) {k : Fin n} {waketime now now' : BitVec 32}
    (hk : s.active k = false) (htime : (SchedEvent.addTimer k waketime now now').InTime s) :
    (SchedEvent.addTimer k waketime now now').InTime
      { s with waketime := Function.update s.waketime (.user k) waketime } := by
  have hmem : s.timerList ≠ .user k := by
    intro he
    have := (h.active_iff k).2 (he ▸ List.mem_cons_self)
    rw [hk] at this
    cases this
  have hactive : ∀ j, s.active j = true → j ≠ k := by
    rintro j hj rfl
    rw [hk] at hj
    cases hj
  unfold SchedEvent.InTime at htime ⊢
  dsimp only at htime ⊢
  rw [Function.update_of_ne hmem, Function.update_of_ne (by simp)]
  intro hb
  have htime' := htime hb
  split_ifs at htime' ⊢ with hlate
  · exact htime'
  · refine htime'.imp_right fun ⟨hper, hall⟩ => ⟨hper, fun j hj => ?_⟩
    rw [Function.update_of_ne (by simpa using hactive j hj)]
    exact hall j hj

/-- Every event keeps the list in order, and no walk leaves it. -/
theorem next (h : Inv s l) (clockFreq : BitVec 32) {a : SchedEvent n} (ha : a.Allowed s)
    (htime : a.InTime s) : ∃ s' l', (sched n clockFreq).next s a = some s' ∧ Inv s' l' := by
  unfold sched
  dsimp only
  rw [if_pos ha]
  cases a with
  | addTimer k waketime now now' =>
    refine (h.setWaketime ha waketime).schedAddTimer ha ?_
    have := h.inTime_setWaketime ha htime
    simpa using this
  | delTimer k => exact h.del k
  | dispatch res =>
    have hres : ∀ d ∈ res, d.toNat < 2 ^ 31 := by
      rintro d rfl
      exact ha
    obtain ⟨s', l', heq, hinv⟩ := h.dispatch clockFreq hres
    exact ⟨s', l', by simp [heq], hinv⟩
  | shutdown => exact ⟨_, _, rfl, h.runShutdown⟩
  | clearShutdown => exact ⟨_, l, rfl, h.setShutdownStatus false⟩

end Inv

theorem inv_of_reachable {clockFreq : BitVec 32}
    (h : (sched n clockFreq).ReachableBy (fun s a => a.InTime s) s) : ∃ l, Inv s l := by
  refine h.invariant (I := fun s => ∃ l, Inv s l) ?_ ?_
  · rintro s rfl
    exact ⟨[], Inv.start⟩
  · rintro s a t ⟨l, hinv⟩ htime ht
    have ha : a.Allowed s := by
      by_contra hno
      simp [sched, hno] at ht
    obtain ⟨s', l', heq, hinv'⟩ := hinv.next clockFreq ha htime
    obtain rfl := Option.some_inj.1 (heq.symm.trans ht)
    exact ⟨l', hinv'⟩

/-- The timers from `timer_list` on lead to the sentinel without meeting one twice, each active
timer is among them, none is later than one behind it or than the sentinel, and `last_insert`
is one of them. -/
def Sorted (s : SchedStatus n) : Prop :=
  ∃ l, Linked s.next s.timerList l .sentinel ∧ s.next .sentinel = none ∧
    (s.timerList :: l ++ [Timer.sentinel]).Nodup ∧
    (∀ k, s.active k = true ↔ .user k ∈ s.timerList :: l) ∧
    ((s.timerList :: l).Pairwise fun x y => NotAfter (s.waketime x) (s.waketime y)) ∧
    (∀ x ∈ (s.timerList :: l).getLast?, NotAfter (s.waketime x) (s.waketime .sentinel)) ∧
    s.lastInsert ∈ s.timerList :: l

theorem Inv.sorted (h : Inv s l) : s.Sorted := by
  have hwindow := h.window.cons_base
  refine ⟨l, h.linked, h.next_sentinel, ?_, h.active_iff, hwindow.notAfter, fun x hx => ?_,
    h.lastInsert_mem⟩
  · refine List.Nodup.append h.nodup (List.nodup_singleton _) ?_
    simpa using h.sentinel_notMem
  · have hmem := List.mem_of_getLast? hx
    -- the periodic timer is the last one or in front of it
    have hle : ticks (s.waketime s.timerList) (s.waketime .periodic) ≤
        ticks (s.waketime s.timerList) (s.waketime x) := by
      obtain ⟨p, hp⟩ := List.getLast?_eq_some_iff.1 hx
      have hper := h.periodic_mem
      have hsorted := hwindow.sorted
      rw [hp] at hper hsorted
      rcases List.mem_append.1 hper with hper | hper
      · exact (List.pairwise_append.1 hsorted).2.2 _ hper x (List.mem_singleton_self x)
      · rw [List.mem_singleton.1 hper]
    have hx2 := hwindow.near x hmem
    have h1 := ticks_trans (s.waketime s.timerList) (s.waketime .periodic) (s.waketime .sentinel)
    have h2 := ticks_trans (s.waketime s.timerList) (s.waketime x) (s.waketime .sentinel)
    have h3 : ticks (s.waketime .periodic) (s.waketime .sentinel) = 2 ^ 31 := by
      rw [h.sentinel_eq, ticks_add]
      rfl
    have := ticks_lt (s.waketime x) (s.waketime .sentinel)
    rw [notAfter_iff]
    omega

/-- If all timers are added in time, the list is in order in every state, and no function of
`sched.c` leaves it. -/
theorem sorted_of_reachable {clockFreq : BitVec 32}
    (h : (sched n clockFreq).ReachableBy (fun s a => a.InTime s) s) :
    s.Sorted ∧ ∀ a : SchedEvent n, a.Allowed s → a.InTime s →
      ((sched n clockFreq).next s a).isSome = true := by
  obtain ⟨l, hinv⟩ := inv_of_reachable h
  refine ⟨hinv.sorted, fun a ha htime => ?_⟩
  obtain ⟨s', l', heq, -⟩ := hinv.next clockFreq ha htime
  rw [heq]
  rfl

/-- A timer is put in front of the periodic one and moves behind it, and another is put in
front. -/
theorem sorted_of_reachable_timers : ∃ s, (sched 2 20000000).run (start 2)
    [.dispatch none, .addTimer 0 1000 500 501, .dispatch none, .dispatch (some 3000000),
      .addTimer 1 1500000 1000000 1000001] = some s ∧
    s.active 0 = true ∧ s.active 1 = true ∧ s.Sorted := by
  have hrun : ((sched 2 20000000).run (start 2)
      [.dispatch none, .addTimer 0 1000 500 501, .dispatch none, .dispatch (some 3000000),
        .addTimer 1 1500000 1000000 1000001]).map (fun s => (s.active 0, s.active 1)) =
      some (true, true) := by decide +kernel
  obtain ⟨s, hs, hactive⟩ := Option.map_eq_some_iff.1 hrun
  obtain ⟨h0, h1⟩ := Prod.mk.inj hactive
  have hreach : (sched 2 20000000).ReachableBy (fun s a => a.InTime s) s :=
    System.ReachableBy.run (.init rfl) (by decide +kernel) hs
  exact ⟨s, hs, h0, h1, (sorted_of_reachable hreach).1⟩

/-- The list is not in order if an active timer is due before the first one. -/
theorem not_sorted_of_active {k : Fin n} (hk : s.active k = true) (hfirst : s.timerList ≠ .user k)
    (h : ¬NotAfter (s.waketime s.timerList) (s.waketime (.user k))) : ¬s.Sorted := by
  rintro ⟨l, -, -, -, hactive, hpair, -, -⟩
  have hmem := (List.mem_cons.1 ((hactive k).1 hk)).resolve_left hfirst.symm
  exact h ((List.pairwise_cons.1 hpair).1 _ hmem)

/-- A late timer that was tolerated is behind the first timer, but due before it, or the walk
for its place leaves the list. The list is not in order either after a timer was put in front
that is more than half of the clock's range before another. -/
theorem not_sorted_late :
    (∃ s, (sched 2 20000000).Reachable s ∧ ¬s.Sorted ∧ (sched 2 20000000).run (start 2)
      [.dispatch none, .addTimer 0 1000000 500 501, .addTimer 1 900 1000 1001] = some s) ∧
    (∃ s, (sched 1 20000000).Reachable s ∧
      (SchedEvent.addTimer 0 900 1000 1001).Allowed s ∧
      (sched 1 20000000).next s (.addTimer 0 900 1000 1001) = none) ∧
    ∃ s, (sched 2 20000000).Reachable s ∧ ¬s.Sorted ∧ (sched 2 20000000).run (start 2)
      [.addTimer 0 0x7fffffff 0 0, .addTimer 1 0xfffffffe 0xfffffffb 0xfffffffb] = some s := by
  refine ⟨?_, ?_, ?_⟩
  · have hrun : ((sched 2 20000000).run (start 2)
        [.dispatch none, .addTimer 0 1000000 500 501, .addTimer 1 900 1000 1001]).map
        (fun s => decide (s.active 1 = true ∧ s.timerList ≠ .user 1 ∧
          ¬NotAfter (s.waketime s.timerList) (s.waketime (.user 1)))) = some true := by
      decide +kernel
    obtain ⟨s, hs, hbad⟩ := Option.map_eq_some_iff.1 hrun
    obtain ⟨hk, hfirst, hlate⟩ := of_decide_eq_true hbad
    exact ⟨s, System.Reachable.run (.init rfl) hs, not_sorted_of_active hk hfirst hlate, hs⟩
  · have hrun : ((sched 1 20000000).run (start 1) [.dispatch none]).map
        (fun s => decide ((SchedEvent.addTimer 0 900 1000 1001).Allowed s ∧
          ((sched 1 20000000).next s (.addTimer 0 900 1000 1001)).isNone = true)) =
          some true := by
      decide +kernel
    obtain ⟨s, hs, hbad⟩ := Option.map_eq_some_iff.1 hrun
    obtain ⟨hallowed, hnone⟩ := of_decide_eq_true hbad
    exact ⟨s, System.Reachable.run (.init rfl) hs, hallowed, Option.isNone_iff_eq_none.1 hnone⟩
  · have hrun : ((sched 2 20000000).run (start 2)
        [.addTimer 0 0x7fffffff 0 0, .addTimer 1 0xfffffffe 0xfffffffb 0xfffffffb]).map
        (fun s => decide (s.active 0 = true ∧ s.timerList ≠ .user 0 ∧
          ¬NotAfter (s.waketime s.timerList) (s.waketime (.user 0)))) = some true := by
      decide +kernel
    obtain ⟨s, hs, hbad⟩ := Option.map_eq_some_iff.1 hrun
    obtain ⟨hk, hfirst, hlate⟩ := of_decide_eq_true hbad
    exact ⟨s, System.Reachable.run (.init rfl) hs, not_sorted_of_active hk hfirst hlate, hs⟩

end SchedStatus

end Thinker
