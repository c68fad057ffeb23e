import Mathlib.Tactic

/-!
# Tables

A table is a list of rows. `entry` reads a place of it and fails outside, `setEntry` writes one.
A table whose rows all have one length is `Sized`; its entries can be read, and both a change of an
entry and a function on all entries keep the size. `fill` writes a list of places one after the
other, each with a value that may be computed from the table so far.
-/

namespace Thinker

/-- A table of rows. -/
abbrev Grid (α : Type*) := List (List α)

namespace Grid

variable {α β : Type*}

/-- The entry of a row and a column. -/
def entry (g : Grid α) (j i : ℕ) : Option α :=
  g[j]?.bind fun row => row[i]?

/-- Write an entry. -/
def setEntry (g : Grid α) (j i : ℕ) (z : α) : Grid α :=
  g.modify j fun row => row.set i z

/-- Apply a function to each entry. -/
def mapEntries (f : α → β) (g : Grid α) : Grid β :=
  g.map fun row => row.map f

/-- Compute each entry of a table. -/
def tabulate (rows cols : ℕ) (f : ℕ → ℕ → Option α) : Option (Grid α) :=
  (List.range rows).mapM fun j => (List.range cols).mapM fun i => f j i

/-- Write the entries of some places in their order, each computed from the table so far. -/
def fill (f : Grid α → ℕ → ℕ → Option α) (places : List (ℕ × ℕ)) (g : Grid α) : Option (Grid α) :=
  places.foldlM (fun g p => (f g p.1 p.2).map (g.setEntry p.1 p.2)) g

/-- All rows have one length. -/
structure Sized (g : Grid α) (rows cols : ℕ) : Prop where
  length_eq : g.length = rows
  row_length : ∀ row ∈ g, row.length = cols

variable {g : Grid α} {rows cols j i : ℕ}

theorem Sized.entry_isSome (h : g.Sized rows cols) (hj : j < rows) (hi : i < cols) :
    ∃ z, g.entry j i = some z := by
  have hj : j < g.length := h.length_eq ▸ hj
  have hi : i < g[j].length := (h.row_length _ (List.getElem_mem hj)).symm ▸ hi
  refine ⟨g[j][i], ?_⟩
  unfold entry
  rw [List.getElem?_eq_getElem hj, Option.bind_some, List.getElem?_eq_getElem hi]

theorem Sized.setEntry (h : g.Sized rows cols) (j i : ℕ) (z : α) :
    (g.setEntry j i z).Sized rows cols := by
  unfold Grid.setEntry
  refine ⟨(List.length_modify _ _ _).trans h.length_eq, fun row hrow => ?_⟩
  obtain ⟨k, hk, rfl⟩ := List.getElem_of_mem hrow
  rw [List.length_modify] at hk
  have hrow := h.row_length _ (List.getElem_mem hk)
  rw [List.getElem_modify]
  split_ifs
  · rw [List.length_set]
    exact hrow
  · exact hrow

/-- What is written is read. -/
theorem Sized.entry_setEntry (h : g.Sized rows cols) (hj : j < rows) (hi : i < cols) (z : α) :
    (g.setEntry j i z).entry j i = some z := by
  have hj : j < g.length := h.length_eq ▸ hj
  have hi : i < g[j].length := (h.row_length _ (List.getElem_mem hj)).symm ▸ hi
  unfold Grid.setEntry entry
  rw [List.getElem?_modify_eq, List.getElem?_eq_getElem hj]
  exact List.getElem?_set_self hi

/-- The other entries stay. -/
theorem entry_setEntry_of_ne {j' i' : ℕ} (h : (j', i') ≠ (j, i)) (z : α) :
    (g.setEntry j i z).entry j' i' = g.entry j' i' := by
  unfold setEntry entry
  by_cases hj : j = j'
  · obtain rfl := hj
    have hi : i ≠ i' := fun hi => h (Prod.ext rfl hi.symm)
    rw [List.getElem?_modify_eq]
    cases g[j]? with
    | none => rfl
    | some row => exact List.getElem?_set_ne hi
  · rw [List.getElem?_modify_ne _ _ hj]

theorem entry_mapEntries (f : α → β) (g : Grid α) (j i : ℕ) :
    (g.mapEntries f).entry j i = (g.entry j i).map f := by
  unfold entry mapEntries
  rw [List.getElem?_map]
  cases g[j]? with
  | none => rfl
  | some row => exact List.getElem?_map

theorem mapEntries_id (g : Grid α) : (g.mapEntries fun z => z) = g := by
  unfold mapEntries
  simp only [List.map_id']

/-- A list is computed if each of its elements is. -/
theorem mapM_isSome {l : List α} {f : α → Option β} {P : β → Prop}
    (h : ∀ x ∈ l, ∃ y, f x = some y ∧ P y) :
    ∃ ys, l.mapM f = some ys ∧ ys.length = l.length ∧ ∀ y ∈ ys, P y := by
  induction l with
  | nil => exact ⟨[], rfl, rfl, fun _ hy => absurd hy List.not_mem_nil⟩
  | cons x l ih =>
    obtain ⟨y, hy, hP⟩ := h x List.mem_cons_self
    obtain ⟨ys, hys, hlength, hall⟩ := ih fun z hz => h z (List.mem_cons_of_mem x hz)
    refine ⟨y :: ys, ?_, by rw [List.length_cons, List.length_cons, hlength],
      List.forall_mem_cons.2 ⟨hP, hall⟩⟩
    rw [List.mapM_cons, hy, hys]
    rfl

/-- A table whose entries can all be computed. -/
theorem tabulate_isSome {f : ℕ → ℕ → Option α}
    (h : ∀ j < rows, ∀ i < cols, ∃ z, f j i = some z) :
    ∃ g, tabulate rows cols f = some g ∧ g.Sized rows cols := by
  have hrow : ∀ j ∈ List.range rows, ∃ row, ((List.range cols).mapM fun i => f j i) = some row ∧
      row.length = cols := by
    intro j hj
    obtain ⟨row, hrow, hlength, -⟩ := mapM_isSome (l := List.range cols) (f := fun i => f j i)
      (P := fun _ => True) fun i hi => by
        obtain ⟨z, hz⟩ := h j (List.mem_range.1 hj) i (List.mem_range.1 hi)
        exact ⟨z, hz, trivial⟩
    exact ⟨row, hrow, hlength.trans List.length_range⟩
  obtain ⟨g, hg, hlength, hall⟩ := mapM_isSome hrow
  exact ⟨g, hg, hlength.trans List.length_range, hall⟩

/-- Each element of a list that is computed is. -/
theorem getElem?_mapM {l : List α} {f : α → Option β} {ys : List β} (h : l.mapM f = some ys) {k : ℕ}
    {x : α} (hx : l[k]? = some x) : ∃ y, f x = some y ∧ ys[k]? = some y := by
  induction l generalizing ys k with
  | nil => cases hx
  | cons z l ih =>
    rw [List.mapM_cons] at h
    obtain ⟨y, hy, h⟩ := Option.bind_eq_some_iff.1 h
    obtain ⟨rest, hrest, h⟩ := Option.bind_eq_some_iff.1 h
    obtain rfl := Option.some_inj.1 h
    cases k with
    | zero =>
      obtain rfl := Option.some_inj.1 hx
      exact ⟨y, hy, rfl⟩
    | succ k => exact ih hrest hx

/-- The entries of a table are those that it was computed from. -/
theorem entry_tabulate {f : ℕ → ℕ → Option α} (h : tabulate rows cols f = some g) (hj : j < rows)
    (hi : i < cols) : g.entry j i = f j i := by
  obtain ⟨row, hrow, hg⟩ := getElem?_mapM h (List.getElem?_range hj)
  obtain ⟨z, hz, hrow⟩ := getElem?_mapM hrow (List.getElem?_range hi)
  unfold entry
  rw [hg, Option.bind_some, hrow, hz]

/-- Each step of `fill` keeps the size of a table in which every value can be computed. -/
theorem fill_isSome (f : Grid α → ℕ → ℕ → Option α) (places : List (ℕ × ℕ))
    (hf : ∀ g : Grid α, g.Sized rows cols → ∀ p ∈ places, ∃ z, f g p.1 p.2 = some z)
    (h : g.Sized rows cols) : ∃ g', fill f places g = some g' ∧ g'.Sized rows cols := by
  induction places generalizing g with
  | nil => exact ⟨g, rfl, h⟩
  | cons p places ih =>
    obtain ⟨z, hz⟩ := hf g h p List.mem_cons_self
    obtain ⟨g', hg', hsized⟩ := ih (fun g hg q hq => hf g hg q (List.mem_cons_of_mem p hq))
      (h.setEntry p.1 p.2 z)
    refine ⟨g', ?_, hsized⟩
    unfold fill at hg' ⊢
    rw [List.foldlM_cons, hz]
    exact hg'

theorem Sized.fill {f : Grid α → ℕ → ℕ → Option α} {places : List (ℕ × ℕ)} {g' : Grid α}
    (h : g.Sized rows cols) (hfill : Grid.fill f places g = some g') : g'.Sized rows cols := by
  induction places generalizing g with
  | nil =>
    obtain rfl := Option.some_inj.1 hfill
    exact h
  | cons p places ih =>
    unfold Grid.fill at hfill ih
    rw [List.foldlM_cons] at hfill
    obtain ⟨g₁, hg₁, hfill⟩ := Option.bind_eq_some_iff.1 hfill
    obtain ⟨z, -, rfl⟩ := Option.map_eq_some_iff.1 hg₁
    exact ih (h.setEntry p.1 p.2 z) hfill

/-- The entries outside the places stay. -/
theorem entry_fill_of_notMem {f : Grid α → ℕ → ℕ → Option α} {places : List (ℕ × ℕ)} {g' : Grid α}
    (hfill : Grid.fill f places g = some g') (h : (j, i) ∉ places) :
    g'.entry j i = g.entry j i := by
  induction places generalizing g with
  | nil =>
    obtain rfl := Option.some_inj.1 hfill
    rfl
  | cons p places ih =>
    unfold Grid.fill at hfill ih
    rw [List.foldlM_cons] at hfill
    obtain ⟨g₁, hg₁, hfill⟩ := Option.bind_eq_some_iff.1 hfill
    obtain ⟨z, -, rfl⟩ := Option.map_eq_some_iff.1 hg₁
    obtain ⟨hne, hnot⟩ := not_or.1 (mt List.mem_cons.2 h)
    rw [ih hfill hnot, entry_setEntry_of_ne hne]

/-- Where the entries of the places are computed from entries that agree with some values, and agree
with them too, all of them agree in the end. -/
theorem entry_fill {f : Grid α → ℕ → ℕ → Option α} {places : List (ℕ × ℕ)} {g' : Grid α}
    {v : ℕ → ℕ → α} (known : ℕ → ℕ → Prop) (h : g.Sized rows cols)
    (hplaces : ∀ p ∈ places, p.1 < rows ∧ p.2 < cols)
    (hf : ∀ g : Grid α, (∀ j i, known j i → g.entry j i = some (v j i)) →
      ∀ p ∈ places, f g p.1 p.2 = some (v p.1 p.2))
    (hknown : ∀ j i, known j i → g.entry j i = some (v j i))
    (hfill : Grid.fill f places g = some g') :
    ∀ j i, known j i ∨ (j, i) ∈ places → g'.entry j i = some (v j i) := by
  induction places generalizing g known with
  | nil =>
    obtain rfl := Option.some_inj.1 hfill
    rintro j i (hji | hmem)
    · exact hknown j i hji
    · exact absurd hmem List.not_mem_nil
  | cons p places ih =>
    unfold Grid.fill at hfill ih
    rw [List.foldlM_cons, hf g hknown p List.mem_cons_self] at hfill
    obtain ⟨hrow, hcol⟩ := hplaces p List.mem_cons_self
    have hwritten : ∀ j i, known j i ∨ (j, i) = p →
        (g.setEntry p.1 p.2 (v p.1 p.2)).entry j i = some (v j i) := by
      intro j i hji
      by_cases hp : (j, i) = p
      · obtain rfl := hp
        exact h.entry_setEntry hrow hcol _
      · rw [entry_setEntry_of_ne hp]
        exact hknown j i (hji.resolve_right hp)
    have hrest := ih (fun j i => known j i ∨ (j, i) = p) (h.setEntry p.1 p.2 _)
      (fun q hq => hplaces q (List.mem_cons_of_mem p hq))
      (fun g hg q hq => hf g (fun j i hji => hg j i (.inl hji)) q (List.mem_cons_of_mem p hq))
      hwritten hfill
    intro j i hji
    refine hrest j i ?_
    rcases hji with hji | hmem
    · exact .inl (.inl hji)
    · rcases List.mem_cons.1 hmem with hp | hmem
      · exact .inl (.inr hp)
      · exact .inr hmem

end Grid

end Thinker
