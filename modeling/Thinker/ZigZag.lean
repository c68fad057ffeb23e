import Mathlib.Data.List.Range
import Mathlib.Tactic

/-!
# Rows of a zig-zag

The places of a table are visited row by row, every other row backwards, and come as one list.
`rows` cuts it where two neighbours are in different rows, and puts a value in front of the row or
behind it, after the way from the last place to this one. The rows come out in one direction
(`rows_eq`). `pad` fills a row up on both sides with its outermost values.
-/

namespace Thinker

namespace ZigZag

variable {P V : Type*}

/-- The rows that are read, the row that is being read and the last place, after one more place. -/
def read (newRow ahead : P → P → Bool) (v : P → V) (st : List (List V) × List V × P) (p : P) :
    List (List V) × List V × P :=
  let done := if newRow p st.2.2 then st.1 ++ [st.2.1] else st.1
  let row := if newRow p st.2.2 then [] else st.2.1
  (done, if ahead p st.2.2 then row ++ [v p] else v p :: row, p)

/-- The rows of a list of places. -/
def rows (newRow ahead : P → P → Bool) (v : P → V) : List P → List (List V)
  | [] => []
  | p :: ps =>
    let st := (p :: ps).foldl (read newRow ahead v) ([], [], p)
    st.1 ++ [st.2.1]

/-- A row in one direction. -/
def orient (forward : Bool) (row : List V) : List V :=
  if forward then row else row.reverse

/-- A row with its outermost values `n` more times on each side. -/
def pad (n : ℕ) (row : List V) : List V :=
  row.head?.elim [] (List.replicate n) ++ row ++ row.getLast?.elim [] (List.replicate n)

/-- Neighbours in a row. -/
def Along (newRow ahead : P → P → Bool) (forward : Bool) (p q : P) : Prop :=
  newRow q p = false ∧ ahead q p = forward

section

variable {newRow ahead : P → P → Bool} {v : P → V}

/-- The rest of a row is read. -/
theorem foldl_row {forward : Bool} {p : P} {l : List P} (done : List (List V)) (row : List V)
    (h : (p :: l).IsChain (Along newRow ahead forward)) :
    ∃ q ∈ p :: l, l.foldl (read newRow ahead v) (done, row, p) =
      (done, if forward then row ++ l.map v else (l.map v).reverse ++ row, q) := by
  induction l generalizing p row with
  | nil => exact ⟨p, List.mem_cons_self, by simp⟩
  | cons q l ih =>
    obtain ⟨⟨hrow, hahead⟩, hl⟩ := List.isChain_cons_cons.1 h
    obtain ⟨last, hmem, hfold⟩ := ih (if forward then row ++ [v q] else v q :: row) hl
    refine ⟨last, List.mem_cons_of_mem _ hmem, ?_⟩
    have hread : read newRow ahead v (done, row, p) q =
        (done, if forward then row ++ [v q] else v q :: row, q) := by
      simp [read, hrow, hahead]
    rw [List.foldl_cons, hread, hfold]
    cases forward <;> simp

/-- A row is read from its first place, which is added to no row. -/
theorem foldl_first {forward : Bool} {p : P} {l : List P} (done : List (List V))
    (h : (p :: l).IsChain (Along newRow ahead forward)) :
    ∃ q ∈ p :: l, l.foldl (read newRow ahead v) (done, [v p], p) =
      (done, orient forward ((p :: l).map v), q) := by
  obtain ⟨q, hmem, hfold⟩ := foldl_row (v := v) done [v p] h
  refine ⟨q, hmem, hfold.trans ?_⟩
  cases forward <;> simp [orient]

/-- Rows in which neighbours are in one row, and between which they are not. -/
structure Zigs (newRow ahead : P → P → Bool) (forward : ℕ → Bool) (n : ℕ) (row : ℕ → List P) :
    Prop where
  ne_nil : ∀ j < n, row j ≠ []
  along : ∀ j < n, (row j).IsChain (Along newRow ahead (forward j))
  turn : ∀ j, j + 1 < n → ∀ p ∈ row j, ∀ q ∈ row (j + 1), newRow q p = true
  first : ∀ p ∈ row 0, newRow p p = false

theorem foldl_rows {forward : ℕ → Bool} {n : ℕ} {row : ℕ → List P}
    (h : Zigs newRow ahead forward n row) {p : P} (hp : (row 0).head? = some p) (j : ℕ)
    (hj : j < n) :
    ∃ q ∈ row j, ((List.range (j + 1)).flatMap row).foldl (read newRow ahead v) ([], [], p) =
      ((List.range j).map fun i => orient (forward i) ((row i).map v),
        orient (forward j) ((row j).map v), q) := by
  induction j with
  | zero =>
    obtain ⟨l, hl⟩ := List.head?_eq_some_iff.1 hp
    have hread : read newRow ahead v ([], [], p) p = ([], [v p], p) := by
      simp [read, h.first p (by simp [hl])]
    have halong := h.along 0 hj
    rw [hl] at halong ⊢
    obtain ⟨q, hq, hfold⟩ := foldl_first (v := v) [] halong
    refine ⟨q, hq, ?_⟩
    simpa [hl, hread] using hfold
  | succ j ih =>
    obtain ⟨q, hq, hfold⟩ := ih (by omega)
    obtain ⟨p', l, hl⟩ := List.exists_cons_of_ne_nil (h.ne_nil (j + 1) hj)
    have halong := h.along (j + 1) hj
    have hturn := h.turn j hj q hq p' (by simp [hl])
    rw [hl] at halong ⊢
    have hread : read newRow ahead v ((List.range j).map fun i => orient (forward i) ((row i).map v),
        orient (forward j) ((row j).map v), q) p' =
          ((List.range (j + 1)).map fun i => orient (forward i) ((row i).map v), [v p'], p') := by
      simp [read, hturn, List.range_succ]
    obtain ⟨q', hq', hfold'⟩ := foldl_first (v := v)
      ((List.range (j + 1)).map fun i => orient (forward i) ((row i).map v)) halong
    refine ⟨q', hq', ?_⟩
    rw [List.range_succ (n := j + 1), List.flatMap_append, List.foldl_append, hfold,
      List.flatMap_singleton, hl, List.foldl_cons, hread]
    exact hfold'

/-- The rows, each in its direction. -/
theorem rows_eq {forward : ℕ → Bool} {n : ℕ} {row : ℕ → List P}
    (h : Zigs newRow ahead forward n row) (hn : 0 < n) :
    rows newRow ahead v ((List.range n).flatMap row) =
      (List.range n).map fun j => orient (forward j) ((row j).map v) := by
  obtain ⟨p, l, hl⟩ := List.exists_cons_of_ne_nil (h.ne_nil 0 hn)
  obtain ⟨j, rfl⟩ : ∃ j, n = j + 1 := ⟨n - 1, by omega⟩
  obtain ⟨q, -, hfold⟩ := foldl_rows (v := v) h (p := p) (by simp [hl]) j (Nat.lt_succ_self j)
  have hcons : (List.range (j + 1)).flatMap row =
      p :: (l ++ ((List.range j).map Nat.succ).flatMap row) := by
    rw [List.range_succ_eq_map, List.flatMap_cons, hl, List.cons_append]
  unfold rows
  rw [hcons] at hfold ⊢
  dsimp only
  rw [hfold, List.range_succ, List.map_append, List.map_singleton]

end

/-- A list whose images come in rows comes in rows itself. -/
theorem exists_rows {α : Type*} {f : P → α} (n : ℕ) (row : ℕ → List α) (l : List P)
    (h : l.map f = (List.range n).flatMap row) :
    ∃ place : ℕ → List P, l = (List.range n).flatMap place ∧ ∀ j < n, (place j).map f = row j := by
  induction n generalizing l with
  | zero => exact ⟨fun _ => [], by simpa using h, fun j hj => by omega⟩
  | succ n ih =>
    rw [List.range_succ, List.flatMap_append, List.flatMap_singleton] at h
    obtain ⟨l₁, l₂, rfl, h₁, h₂⟩ := List.map_eq_append_iff.1 h
    obtain ⟨place, rfl, hplace⟩ := ih l₁ h₁
    refine ⟨Function.update place n l₂, ?_, fun j hj => ?_⟩
    · rw [List.range_succ, List.flatMap_append, List.flatMap_singleton, Function.update_self]
      congr 1
      refine List.flatMap_congr fun j hj => ?_
      rw [Function.update_of_ne (List.mem_range.1 hj).ne]
    · rcases Nat.lt_succ_iff_lt_or_eq.1 hj with hj | rfl
      · rw [Function.update_of_ne hj.ne]
        exact hplace j hj
      · rw [Function.update_self]
        exact h₂

theorem map_orient {α : Type*} (f : P → α) (forward : Bool) (l : List P) :
    (orient forward l).map f = orient forward (l.map f) := by
  cases forward <;> simp [orient]

theorem mem_orient {forward : Bool} {p : P} {l : List P} : p ∈ orient forward l ↔ p ∈ l := by
  cases forward <;> simp [orient]

@[simp] theorem length_orient (forward : Bool) (l : List P) :
    (orient forward l).length = l.length := by
  cases forward <;> simp [orient]

/-! ## Filled rows -/

@[simp] theorem pad_zero (row : List V) : pad 0 row = row := by
  have helim (o : Option V) : o.elim [] (List.replicate 0) = [] := by cases o <;> rfl
  rw [pad, helim, helim, List.nil_append, List.append_nil]

theorem length_pad {n : ℕ} {row : List V} (h : row ≠ []) : (pad n row).length = row.length + 2 * n := by
  obtain ⟨a, l, rfl⟩ := List.exists_cons_of_ne_nil h
  simp only [pad, List.head?_cons, Option.elim_some, List.length_append, List.length_replicate,
    List.getLast?_cons]
  omega

/-- The value at a place of a filled row is the one of the nearest place of the row. -/
theorem getElem?_pad {n i : ℕ} {row : List V} (h : row ≠ []) (hi : i < row.length + 2 * n) :
    (pad n row)[i]? = row[min (i - n) (row.length - 1)]? := by
  obtain ⟨a, l, rfl⟩ := List.exists_cons_of_ne_nil h
  have hlast : (a :: l).getLast? = (a :: l)[(a :: l).length - 1]? := List.getLast?_eq_getElem?
  unfold pad
  rw [List.head?_cons, Option.elim_some, List.append_assoc]
  by_cases hlow : i < n
  · rw [List.getElem?_append_left (by simpa using hlow), List.getElem?_replicate, if_pos hlow,
      Nat.sub_eq_zero_of_le hlow.le, Nat.zero_min]
    rfl
  · rw [List.getElem?_append_right (by simpa using hlow), List.length_replicate]
    by_cases hmid : i - n < (a :: l).length
    · rw [List.getElem?_append_left hmid, min_eq_left (by omega)]
    · rw [List.getElem?_append_right (by omega), min_eq_right (by omega), ← hlast,
        List.getLast?_cons, Option.elim_some, List.getElem?_replicate, if_pos (by omega)]

end ZigZag

end Thinker
