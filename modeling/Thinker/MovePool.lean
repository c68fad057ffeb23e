import Mathlib.Tactic

/-!
# The move pool

The move queue of `basecmd.c` : a pool of items, each with one `next` field, which links it into
the free list or into one of the queues. The last item of a queue is kept beside the first; it is
stale once the queue is empty. An item is its index in `move_list`.

Each item is in exactly one place : on the free list, in one queue, or with one of the holders that
took it and have not yet put it back (`Conserved`).
-/

set_option linter.unusedSectionVars false

namespace Thinker

/-! ## Chains -/

/-- The items of the list are linked from `a` on. -/
def Threaded (next : ℕ → Option ℕ) : Option ℕ → List ℕ → Prop
  | a, [] => a = none
  | a, m :: l => a = some m ∧ Threaded next (next m) l

namespace Threaded

variable {next next' : ℕ → Option ℕ} {a : Option ℕ} {l l' : List ℕ} {m : ℕ}

theorem congr (h : Threaded next a l) (hl : ∀ i ∈ l, next' i = next i) : Threaded next' a l := by
  induction l generalizing a with
  | nil => exact h
  | cons i l ih =>
    obtain ⟨ha, h⟩ := h
    refine ⟨ha, ?_⟩
    rw [hl i List.mem_cons_self]
    exact ih h fun j hj => hl j (List.mem_cons_of_mem i hj)

theorem unique (h : Threaded next a l) (h' : Threaded next a l') : l = l' := by
  induction l generalizing a l' with
  | nil =>
    cases l' with
    | nil => rfl
    | cons j l' => exact absurd (h.symm.trans h'.1) nofun
  | cons i l ih =>
    cases l' with
    | nil => exact absurd (h'.symm.trans h.1) nofun
    | cons j l' =>
      obtain rfl := Option.some_inj.1 (h.1.symm.trans h'.1)
      rw [ih h.2 h'.2]

/-- What is linked behind an item of a chain. -/
theorem drop (h : Threaded next a (l' ++ m :: l)) : Threaded next (next m) l := by
  induction l' generalizing a with
  | nil => exact h.2
  | cons i l' ih => exact ih h.2

/-- A chain that ends has no cycle. -/
theorem nodup (h : Threaded next a l) : l.Nodup := by
  induction l generalizing a with
  | nil => exact List.nodup_nil
  | cons i l ih =>
    refine List.nodup_cons.2 ⟨fun hi => ?_, ih h.2⟩
    obtain ⟨before, behind, rfl⟩ := List.append_of_mem hi
    -- behind `i` there would be two chains of different lengths
    have hlen := congrArg List.length (h.2.unique h.2.drop)
    simp at hlen
    omega

theorem eq_nil_iff (h : Threaded next a l) : l = [] ↔ a = none := by
  cases l with
  | nil => exact ⟨fun _ => h, fun _ => rfl⟩
  | cons i l => simp [h.1]

/-- An item is linked behind the last one. -/
theorem concat {last : ℕ} (h : Threaded next a l) (hlast : l.getLast? = some last) (hm : m ∉ l) :
    Threaded (Function.update (Function.update next m none) last (some m)) a (l ++ [m]) := by
  induction l generalizing a with
  | nil => exact nomatch hlast
  | cons i l ih =>
    have hnodup := h.nodup
    obtain ⟨ha, h⟩ := h
    refine ⟨ha, ?_⟩
    have hne : m ≠ i := fun heq => hm (heq ▸ List.mem_cons_self)
    cases l with
    | nil =>
      obtain rfl : i = last := Option.some_inj.1 hlast
      rw [Function.update_self]
      refine ⟨rfl, ?_⟩
      rw [Function.update_of_ne hne, Function.update_self]
      rfl
    | cons j l =>
      rw [List.getLast?_cons_cons] at hlast
      have hlast' : i ≠ last := by
        rintro rfl
        exact (List.nodup_cons.1 hnodup).1 (List.mem_of_getLast? hlast)
      rw [Function.update_of_ne hlast', Function.update_of_ne hne.symm]
      exact ih h hlast fun hmem => hm (List.mem_cons_of_mem i hmem)

end Threaded

/-! ## The functions of the pool -/

/-- `struct move_queue_head`. -/
structure MoveQueueHead where
  first : Option ℕ
  last : Option ℕ
  deriving DecidableEq, Repr

/-- The static variables of the move queue, the `next` fields of the items, and the queues. -/
structure MovePool (ι : Type*) where
  moveCount : ℕ
  next : ℕ → Option ℕ
  moveFreeList : Option ℕ
  mq : ι → MoveQueueHead

namespace MovePool

variable {ι : Type*} [DecidableEq ι]

/-- `move_free`. -/
def moveFree (p : MovePool ι) (m : ℕ) : MovePool ι :=
  { p with
    next := Function.update p.next m p.moveFreeList
    moveFreeList := some m }

/-- `move_alloc`. Without a free item it is a shutdown. -/
def moveAlloc (p : MovePool ι) : Option (ℕ × MovePool ι) :=
  p.moveFreeList.map fun m => (m, { p with moveFreeList := p.next m })

/-- `move_queue_first`. -/
def moveQueueFirst (p : MovePool ι) (q : ι) : Option ℕ :=
  (p.mq q).first

/-- `move_queue_push`, which returns whether the queue was empty. -/
def moveQueuePush (p : MovePool ι) (m : ℕ) (q : ι) : Bool × MovePool ι :=
  let next := Function.update p.next m none
  match (p.mq q).first with
  | some first =>
    (false, { p with
      next :=
        match (p.mq q).last with
        | some last => Function.update next last (some m)
        | none => next
      mq := Function.update p.mq q ⟨some first, some m⟩ })
  | none => (true, { p with next := next, mq := Function.update p.mq q ⟨some m, some m⟩ })

/-- `move_queue_pop`. The caller ensures that the queue is not empty. -/
def moveQueuePop (p : MovePool ι) (q : ι) : Option (ℕ × MovePool ι) :=
  (p.mq q).first.map fun m =>
    (m, { p with mq := Function.update p.mq q ⟨p.next m, (p.mq q).last⟩ })

/-- `move_queue_clear` on the queues of a set of objects. -/
def moveQueueClear (p : MovePool ι) (clears : ι → Bool) : MovePool ι :=
  { p with mq := fun q => if clears q then ⟨none, (p.mq q).last⟩ else p.mq q }

/-- The loop of `move_reset`. -/
def linkItems (next : ℕ → Option ℕ) (n : ℕ) : ℕ → Option ℕ :=
  (List.range n).foldl (fun next i => Function.update next i (some (i + 1))) next

/-- `move_reset`. -/
def moveReset (p : MovePool ι) : MovePool ι :=
  if p.moveCount = 0 then p
  else { p with
    next := Function.update (linkItems p.next (p.moveCount - 1)) (p.moveCount - 1) none
    moveFreeList := some 0 }

/-! ## Where the items are -/

/-- Where an item is. -/
inductive Place (ι η : Type*)
  | free
  | queue (q : ι)
  | held (k : η)

/-- The free list, the queues and the items of the holders are disjoint, and hold every item. -/
structure Layout {η : Type*} (p : MovePool ι) (held : η → Option ℕ) (avail : List ℕ)
    (queue : ι → List ℕ) (place : ℕ → Place ι η) : Prop where
  freeChain : Threaded p.next p.moveFreeList avail
  queueChain : ∀ q, Threaded p.next (p.mq q).first (queue q)
  last : ∀ q m, (queue q).getLast? = some m → (p.mq q).last = some m
  mem_free : ∀ m, m ∈ avail ↔ m < p.moveCount ∧ place m = .free
  mem_queue : ∀ q m, m ∈ queue q ↔ m < p.moveCount ∧ place m = .queue q
  held_eq : ∀ k m, held k = some m ↔ m < p.moveCount ∧ place m = .held k

/-- Each item of the pool is in exactly one place. -/
def Conserved {η : Type*} (p : MovePool ι) (held : η → Option ℕ) : Prop :=
  ∃ avail queue place, Layout p held avail queue place

namespace Layout

variable {η : Type*} {p p' : MovePool ι} {held : η → Option ℕ} {avail : List ℕ}
variable {queue : ι → List ℕ} {place : ℕ → Place ι η} {m : ℕ} {q : ι} {k : η}

/-- What is in the place `z` after one item is moved to the place `y`. -/
theorem moved {n : ℕ} {y z : Place ι η} {P P' : ℕ → Prop} (h : ∀ i, P i ↔ i < n ∧ place i = z)
    (hother : ∀ i, i ≠ m → (P' i ↔ P i)) (hm : P' m ↔ m < n ∧ y = z) (i : ℕ) :
    P' i ↔ i < n ∧ Function.update place m y i = z := by
  by_cases hi : i = m
  · subst hi
    rw [Function.update_self]
    exact hm
  · rw [Function.update_of_ne hi, hother i hi]
    exact h i

/-- A place that the item is neither taken from nor put into. -/
theorem unmoved {n : ℕ} {y z : Place ι η} {P : ℕ → Prop} (h : ∀ i, P i ↔ i < n ∧ place i = z)
    (hfrom : place m ≠ z) (hto : y ≠ z) (i : ℕ) :
    P i ↔ i < n ∧ Function.update place m y i = z :=
  moved h (fun _ _ => Iff.rfl) ⟨fun hm => absurd ((h m).1 hm).2 hfrom, fun hm => absurd hm.2 hto⟩ i

theorem not_mem_queue (h : Layout p held avail queue place) (hm : place m ≠ .queue q) :
    m ∉ queue q :=
  fun hmem => hm ((h.mem_queue q m).1 hmem).2

theorem not_mem_free (h : Layout p held avail queue place) (hm : place m ≠ .free) : m ∉ avail :=
  fun hmem => hm ((h.mem_free m).1 hmem).2

variable [DecidableEq η]

/-- An item is put into an empty hand. -/
theorem held_take (h : Layout p held avail queue place) (hk : held k = none)
    (hlt : m < p.moveCount) (hplace : ∀ k', place m ≠ .held k') (k' : η) :
    ∀ i, Function.update held k (some m) k' = some i ↔
      i < p.moveCount ∧ Function.update place m (.held k) i = .held k' := by
  by_cases hk' : k' = k
  · subst hk'
    rw [Function.update_self]
    exact moved (h.held_eq k') (fun i hi => by simp [hk, Ne.symm hi]) (by simp [hlt])
  · rw [Function.update_of_ne hk']
    exact unmoved (h.held_eq k') (hplace k') (by simpa using Ne.symm hk')

/-- An item that is held is put elsewhere. -/
theorem held_give (h : Layout p held avail queue place) (hk : held k = some m)
    {y : Place ι η} (hy : ∀ k', y ≠ .held k') (k' : η) :
    ∀ i, Function.update held k none k' = some i ↔
      i < p.moveCount ∧ Function.update place m y i = .held k' := by
  obtain ⟨-, hplace⟩ := (h.held_eq k m).1 hk
  by_cases hk' : k' = k
  · subst hk'
    rw [Function.update_self]
    exact moved (h.held_eq k') (fun i hi => by simp [hk, Ne.symm hi]) (by simp [hy])
  · rw [Function.update_of_ne hk']
    exact unmoved (h.held_eq k') (by simpa [hplace] using Ne.symm hk') (hy k')

/-- The first free item is taken. -/
theorem alloc (h : Layout p held avail queue place) (hk : held k = none)
    (ha : p.moveAlloc = some (m, p')) : ∃ rest, avail = m :: rest ∧
      Layout p' (Function.update held k (some m)) rest queue
        (Function.update place m (.held k)) := by
  obtain ⟨m', hfirst, heq⟩ := Option.map_eq_some_iff.1 ha
  obtain ⟨rfl, rfl⟩ := Prod.mk.inj heq
  obtain ⟨rest, rfl⟩ : ∃ rest, avail = m' :: rest := by
    have hchain := h.freeChain
    rw [hfirst] at hchain
    cases avail with
    | nil => exact nomatch hchain
    | cons i rest => exact ⟨rest, by rw [Option.some_inj.1 hchain.1]⟩
  obtain ⟨hlt, hplace⟩ := (h.mem_free m').1 List.mem_cons_self
  have hnot := (List.nodup_cons.1 h.freeChain.nodup).1
  refine ⟨rest, rfl, ?_⟩
  exact {
    freeChain := h.freeChain.2
    queueChain := h.queueChain
    last := h.last
    mem_free := moved h.mem_free (fun i hi => by simp [hi]) (by simp [hnot])
    mem_queue := fun q => unmoved (h.mem_queue q) (by simp [hplace]) (by simp)
    held_eq := h.held_take hk hlt (by simp [hplace]) }

/-- An item that is held is freed. -/
theorem free (h : Layout p held avail queue place) (hk : held k = some m) :
    Layout (p.moveFree m) (Function.update held k none) (m :: avail) queue
      (Function.update place m .free) := by
  obtain ⟨hlt, hplace⟩ := (h.held_eq k m).1 hk
  have hfree : m ∉ avail := h.not_mem_free (by simp [hplace])
  have hqueue : ∀ q, m ∉ queue q := fun q => h.not_mem_queue (by simp [hplace])
  exact {
    freeChain := by
      refine ⟨rfl, ?_⟩
      show Threaded (Function.update p.next m p.moveFreeList)
        (Function.update p.next m p.moveFreeList m) avail
      rw [Function.update_self]
      exact h.freeChain.congr fun i hi =>
        Function.update_of_ne (fun heq => hfree (by rwa [heq] at hi)) _ _
    queueChain := fun q => (h.queueChain q).congr fun i hi =>
      Function.update_of_ne (fun heq => hqueue q (by rwa [heq] at hi)) _ _
    last := h.last
    mem_free := moved h.mem_free (fun i hi => by simp [hi])
      ⟨fun _ => ⟨hlt, rfl⟩, fun _ => List.mem_cons_self⟩
    mem_queue := fun q => unmoved (h.mem_queue q) (by simp [hplace]) (by simp)
    held_eq := h.held_give hk (by simp) }

/-- An item that is held is put behind the last item of a queue. -/
theorem push (h : Layout p held avail queue place) (hk : held k = some m) (q : ι) :
    Layout (p.moveQueuePush m q).2 (Function.update held k none) avail
      (Function.update queue q (queue q ++ [m])) (Function.update place m (.queue q)) := by
  obtain ⟨hlt, hplace⟩ := (h.held_eq k m).1 hk
  have hfree : m ∉ avail := h.not_mem_free (by simp [hplace])
  have hqueue : ∀ q, m ∉ queue q := fun q => h.not_mem_queue (by simp [hplace])
  have hheld := h.held_give hk (y := .queue q) (by simp)
  have hmem : ∀ q' i, i ∈ Function.update queue q (queue q ++ [m]) q' ↔
      i < p.moveCount ∧ Function.update place m (.queue q) i = .queue q' := by
    intro q'
    by_cases hq : q' = q
    · subst hq
      rw [Function.update_self]
      exact moved (h.mem_queue q') (fun i hi => by simp [hi]) (by simp [hlt])
    · rw [Function.update_of_ne hq]
      exact unmoved (h.mem_queue q') (by simp [hplace]) (by simpa using Ne.symm hq)
  have hmem_free := unmoved h.mem_free (m := m) (y := .queue q) (by simp [hplace]) (by simp)
  -- the `next` fields of the items of other lists do not change
  have hkeep : ∀ l : List ℕ, m ∉ l → ∀ i ∈ l, Function.update p.next m none i = p.next i :=
    fun l hl i hi => Function.update_of_ne (fun heq => hl (by rwa [heq] at hi)) _ _
  cases hfirst : (p.mq q).first with
  | none =>
    have hempty : queue q = [] := (h.queueChain q).eq_nil_iff.2 hfirst
    rw [hempty, List.nil_append] at hmem ⊢
    simp only [moveQueuePush, hfirst]
    exact {
      freeChain := h.freeChain.congr (hkeep avail hfree)
      queueChain := fun q' => by
        by_cases hq : q' = q
        · subst hq
          simp only [Function.update_self]
          refine ⟨rfl, ?_⟩
          rw [Function.update_self]
          rfl
        · simp only [Function.update_of_ne hq]
          exact (h.queueChain q').congr (hkeep _ (hqueue q'))
      last := fun q' i hi => by
        by_cases hq : q' = q
        · subst hq
          simp only [Function.update_self] at hi ⊢
          exact hi
        · simp only [Function.update_of_ne hq] at hi ⊢
          exact h.last q' i hi
      mem_free := hmem_free
      mem_queue := hmem
      held_eq := hheld }
  | some first =>
    have hne : queue q ≠ [] := fun hempty => by
      rw [(h.queueChain q).eq_nil_iff.1 hempty] at hfirst
      exact nomatch hfirst
    obtain ⟨last, hlast⟩ : ∃ last, (queue q).getLast? = some last :=
      ⟨_, List.getLast?_eq_some_getLast hne⟩
    have hlastmem : last ∈ queue q := List.mem_of_getLast? hlast
    simp only [moveQueuePush, hfirst, h.last q last hlast]
    -- the last item is in no other list
    have hplacelast := ((h.mem_queue q last).1 hlastmem).2
    have hkeep' : ∀ l : List ℕ, m ∉ l → last ∉ l → ∀ i ∈ l,
        Function.update (Function.update p.next m none) last (some m) i = p.next i :=
      fun l hl hl' i hi =>
        (Function.update_of_ne (fun heq => hl' (by rwa [heq] at hi)) _ _).trans (hkeep l hl i hi)
    exact {
      freeChain := h.freeChain.congr
        (hkeep' avail hfree (h.not_mem_free (by simp [hplacelast])))
      queueChain := fun q' => by
        by_cases hq : q' = q
        · subst hq
          simp only [Function.update_self]
          have hchain := h.queueChain q'
          rw [hfirst] at hchain
          exact hchain.concat hlast (hqueue q')
        · simp only [Function.update_of_ne hq]
          exact (h.queueChain q').congr (hkeep' _ (hqueue q')
            (h.not_mem_queue (by simpa [hplacelast] using Ne.symm hq)))
      last := fun q' i hi => by
        by_cases hq : q' = q
        · subst hq
          simp only [Function.update_self] at hi ⊢
          rw [List.getLast?_concat] at hi
          exact hi
        · simp only [Function.update_of_ne hq] at hi ⊢
          exact h.last q' i hi
      mem_free := hmem_free
      mem_queue := hmem
      held_eq := hheld }

/-- The first item of a queue is taken. -/
theorem pop (h : Layout p held avail queue place) (hk : held k = none)
    (ha : p.moveQueuePop q = some (m, p')) : ∃ rest, queue q = m :: rest ∧
      Layout p' (Function.update held k (some m)) avail (Function.update queue q rest)
        (Function.update place m (.held k)) := by
  obtain ⟨m', hfirst, heq⟩ := Option.map_eq_some_iff.1 ha
  obtain ⟨rfl, rfl⟩ := Prod.mk.inj heq
  obtain ⟨rest, hrest⟩ : ∃ rest, queue q = m' :: rest := by
    have hchain := h.queueChain q
    rw [hfirst] at hchain
    cases hq : queue q with
    | nil =>
      rw [hq] at hchain
      exact nomatch hchain
    | cons i rest =>
      rw [hq] at hchain
      exact ⟨rest, by rw [Option.some_inj.1 hchain.1]⟩
  obtain ⟨hlt, hplace⟩ := (h.mem_queue q m').1 (hrest ▸ List.mem_cons_self)
  have hchain := h.queueChain q
  rw [hrest] at hchain
  have hnot := (List.nodup_cons.1 hchain.nodup).1
  refine ⟨rest, hrest, ?_⟩
  exact {
    freeChain := h.freeChain
    queueChain := fun q' => by
      by_cases hq : q' = q
      · subst hq
        simp only [Function.update_self]
        exact hchain.2
      · simp only [Function.update_of_ne hq]
        exact h.queueChain q'
    last := fun q' i hi => by
      by_cases hq : q' = q
      · subst hq
        simp only [Function.update_self] at hi ⊢
        refine h.last q' i ?_
        rw [hrest]
        cases rest with
        | nil => exact nomatch hi
        | cons j rest => rwa [List.getLast?_cons_cons]
      · simp only [Function.update_of_ne hq] at hi ⊢
        exact h.last q' i hi
    mem_free := unmoved h.mem_free (by simp [hplace]) (by simp)
    mem_queue := fun q' => by
      by_cases hq : q' = q
      · subst hq
        rw [Function.update_self]
        exact moved (h.mem_queue q') (fun i hi => by simp [hrest, hi]) (by simp [hnot])
      · rw [Function.update_of_ne hq]
        exact unmoved (h.mem_queue q') (by simpa [hplace] using Ne.symm hq) (by simp)
    held_eq := h.held_take hk hlt (by simp [hplace]) }

end Layout

namespace Conserved

variable {η : Type*} [DecidableEq η] {p p' : MovePool ι} {held : η → Option ℕ} {m : ℕ} {q : ι}
variable {k : η}

theorem alloc (h : p.Conserved held) (hk : held k = none) (ha : p.moveAlloc = some (m, p')) :
    p'.Conserved (Function.update held k (some m)) := by
  obtain ⟨avail, queue, place, h⟩ := h
  obtain ⟨rest, -, h⟩ := h.alloc hk ha
  exact ⟨rest, queue, _, h⟩

theorem free (h : p.Conserved held) (hk : held k = some m) :
    (p.moveFree m).Conserved (Function.update held k none) := by
  obtain ⟨avail, queue, place, h⟩ := h
  exact ⟨m :: avail, queue, _, h.free hk⟩

theorem push (h : p.Conserved held) (hk : held k = some m) (q : ι) :
    (p.moveQueuePush m q).2.Conserved (Function.update held k none) := by
  obtain ⟨avail, queue, place, h⟩ := h
  exact ⟨avail, _, _, h.push hk q⟩

theorem pop (h : p.Conserved held) (hk : held k = none)
    (ha : p.moveQueuePop q = some (m, p')) : p'.Conserved (Function.update held k (some m)) := by
  obtain ⟨avail, queue, place, h⟩ := h
  obtain ⟨rest, -, h⟩ := h.pop hk ha
  exact ⟨avail, _, _, h⟩

end Conserved

theorem moveCount_alloc {p p' : MovePool ι} {m : ℕ} (ha : p.moveAlloc = some (m, p')) :
    p'.moveCount = p.moveCount := by
  obtain ⟨m', -, heq⟩ := Option.map_eq_some_iff.1 ha
  rw [← (Prod.mk.inj heq).2]

theorem moveCount_push (p : MovePool ι) (m : ℕ) (q : ι) :
    (p.moveQueuePush m q).2.moveCount = p.moveCount := by
  unfold moveQueuePush
  cases (p.mq q).first <;> rfl

theorem moveCount_pop {p p' : MovePool ι} {m : ℕ} {q : ι}
    (ha : p.moveQueuePop q = some (m, p')) : p'.moveCount = p.moveCount := by
  obtain ⟨m', -, heq⟩ := Option.map_eq_some_iff.1 ha
  rw [← (Prod.mk.inj heq).2]

/-! ## Which queues are empty -/

/-- Whether a queue is not empty. -/
def nonEmpty (p : MovePool ι) (q : ι) : Bool :=
  (p.mq q).first.isSome

theorem nonEmpty_alloc {p p' : MovePool ι} {m : ℕ} (ha : p.moveAlloc = some (m, p')) :
    p'.nonEmpty = p.nonEmpty := by
  obtain ⟨m', -, heq⟩ := Option.map_eq_some_iff.1 ha
  rw [← (Prod.mk.inj heq).2]
  rfl

theorem isSome_update (mq : ι → MoveQueueHead) (q : ι) (head : MoveQueueHead) :
    (fun q' => (Function.update mq q head q').first.isSome) =
      Function.update (fun q' => (mq q').first.isSome) q head.first.isSome := by
  funext q'
  by_cases hq : q' = q
  · subst hq
    rw [Function.update_self, Function.update_self]
  · rw [Function.update_of_ne hq, Function.update_of_ne hq]

theorem nonEmpty_push (p : MovePool ι) (m : ℕ) (q : ι) :
    (p.moveQueuePush m q).1 = !p.nonEmpty q ∧
      (p.moveQueuePush m q).2.nonEmpty = Function.update p.nonEmpty q true := by
  cases hfirst : (p.mq q).first with
  | none =>
    simp only [moveQueuePush, hfirst, nonEmpty]
    exact ⟨rfl, isSome_update p.mq q _⟩
  | some first =>
    simp only [moveQueuePush, hfirst, nonEmpty]
    exact ⟨rfl, isSome_update p.mq q _⟩

theorem nonEmpty_pop {p p' : MovePool ι} {m : ℕ} {q : ι} (ha : p.moveQueuePop q = some (m, p')) :
    p.nonEmpty q = true ∧ ∃ left, p'.nonEmpty = Function.update p.nonEmpty q left := by
  obtain ⟨m', hfirst, heq⟩ := Option.map_eq_some_iff.1 ha
  rw [← (Prod.mk.inj heq).2]
  exact ⟨by rw [nonEmpty, hfirst]; rfl, (p.next m').isSome, isSome_update p.mq q _⟩

/-! ## The reset -/

theorem linkItems_apply (next : ℕ → Option ℕ) (n i : ℕ) :
    linkItems next n i = if i < n then some (i + 1) else next i := by
  induction n with
  | zero => rfl
  | succ n ih =>
    rw [linkItems, List.range_succ, List.foldl_concat]
    show Function.update (linkItems next n) n (some (n + 1)) i = _
    by_cases hi : i = n
    · subst hi
      rw [Function.update_self, if_pos (Nat.lt_succ_self i)]
    · rw [Function.update_of_ne hi, ih]
      congr 1
      exact propext ⟨fun h => by omega, fun h => by omega⟩

/-- The items are linked in their order. -/
theorem chain_linkItems (next : ℕ → Option ℕ) (n : ℕ) :
    Threaded (Function.update (linkItems next n) n none) (some 0) (List.range (n + 1)) := by
  have hrange : ∀ k i, i + k = n →
      Threaded (Function.update (linkItems next n) n none) (some i) (List.range' i (k + 1)) := by
    intro k
    induction k with
    | zero =>
      rintro i rfl
      refine ⟨rfl, ?_⟩
      rw [Nat.add_zero, Function.update_self]
      rfl
    | succ k ih =>
      intro i hi
      refine ⟨rfl, ?_⟩
      rw [Function.update_of_ne (by omega), linkItems_apply, if_pos (by omega)]
      exact ih (i + 1) (by omega)
  rw [List.range_eq_range']
  exact hrange n 0 (Nat.zero_add n)

@[simp] theorem moveCount_reset (p : MovePool ι) : p.moveReset.moveCount = p.moveCount := by
  rw [moveReset]
  split_ifs <;> rfl

@[simp] theorem mq_reset (p : MovePool ι) : p.moveReset.mq = p.mq := by
  rw [moveReset]
  split_ifs <;> rfl

theorem moveReset_spec {p : MovePool ι} (hcount : p.moveCount ≠ 0) :
    p.moveReset.moveFreeList = some 0 ∧ ∃ next, p.moveReset.next =
      Function.update (linkItems next (p.moveCount - 1)) (p.moveCount - 1) none := by
  rw [moveReset, if_neg hcount]
  exact ⟨rfl, p.next, rfl⟩

/-- Whatever the `next` fields were, after `move_reset` all items are free. -/
theorem layout_reset {η : Type*} {p : MovePool ι} (hcount : p.moveCount ≠ 0)
    (hfree : p.moveFreeList = some 0) {next : ℕ → Option ℕ}
    (hnext : p.next = Function.update (linkItems next (p.moveCount - 1)) (p.moveCount - 1) none)
    (hempty : ∀ q, (p.mq q).first = none) :
    Layout p (fun _ : η => none) (List.range p.moveCount) (fun _ => []) fun _ => .free where
  freeChain := by
    have hchain := chain_linkItems next (p.moveCount - 1)
    rw [Nat.sub_add_cancel (Nat.one_le_iff_ne_zero.2 hcount)] at hchain
    rw [hfree, hnext]
    exact hchain
  queueChain := hempty
  last _ _ hm := nomatch hm
  mem_free m := by simp
  mem_queue q m := by simp
  held_eq k m := by simp

end MovePool

end Thinker
