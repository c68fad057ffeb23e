import Mathlib.Tactic

/-!
# Ranges of a list, copied into another

`write dst pos src` puts the elements of `src` into `dst` from index `pos` on. `copy t dst rs`
writes the parts of `t` in the ranges `rs`, pairs of a start and a count, one after another. If the
ranges cover every index at which `dst` differs from `t`, the result is `t`.
-/

namespace Thinker

namespace Patch

variable {α : Type*}

/-- `dst[pos:pos+len(src)] = src`. -/
def write (dst : List α) (pos : ℕ) (src : List α) : List α :=
  dst.take pos ++ src ++ dst.drop (pos + src.length)

/-- `l[pos:pos+count]`. -/
def read (l : List α) (pos count : ℕ) : List α :=
  (l.drop pos).take count

/-- An index is in a range. -/
def Covers (r : ℕ × ℕ) (i : ℕ) : Prop :=
  r.1 ≤ i ∧ i < r.1 + r.2

instance (r : ℕ × ℕ) (i : ℕ) : Decidable (Covers r i) :=
  inferInstanceAs (Decidable (_ ∧ _))

/-- Writes the parts of a list in some ranges. -/
def copy (t : List α) : List α → List (ℕ × ℕ) → List α
  | dst, [] => dst
  | dst, r :: rs => copy t (write dst r.1 (read t r.1 r.2)) rs

theorem length_read {l : List α} {pos count : ℕ} (h : pos + count ≤ l.length) :
    (read l pos count).length = count := by
  rw [read, List.length_take, List.length_drop]
  omega

theorem length_write {dst src : List α} {pos : ℕ} (h : pos + src.length ≤ dst.length) :
    (write dst pos src).length = dst.length := by
  simp only [write, List.length_append, List.length_take, List.length_drop]
  omega

theorem getElem?_read {l : List α} {pos count i : ℕ} (hi : Covers (pos, count) i) :
    (read l pos count)[i - pos]? = l[i]? := by
  have hlt : i - pos < count := by
    have := hi.1
    have := hi.2
    simp only at *
    omega
  rw [read, List.getElem?_take_of_lt hlt, List.getElem?_drop, Nat.add_sub_cancel' hi.1]

/-- A write changes what is in its range. -/
theorem getElem?_write {dst src : List α} {pos : ℕ} (h : pos + src.length ≤ dst.length) (i : ℕ) :
    (write dst pos src)[i]? = if Covers (pos, src.length) i then src[i - pos]? else dst[i]? := by
  have htake : (dst.take pos).length = pos := List.length_take_of_le (by omega)
  rw [write, List.append_assoc]
  rcases lt_or_ge i pos with hlt | hge
  · rw [if_neg fun hc => absurd hc.1 (not_le.2 hlt), List.getElem?_append_left (by omega),
      List.getElem?_take_of_lt hlt]
  · rw [List.getElem?_append_right (by omega), htake]
    rcases lt_or_ge i (pos + src.length) with hin | hout
    · rw [if_pos ⟨hge, hin⟩, List.getElem?_append_left (by omega)]
    · rw [if_neg fun hc => absurd hc.2 (not_lt.2 hout), List.getElem?_append_right (by omega),
        List.getElem?_drop]
      congr 1
      omega

/-- What is not in its range is kept, and what is in it becomes what the list copied has there. -/
theorem getElem?_write_read {t dst : List α} {r : ℕ × ℕ} (ht : r.1 + r.2 ≤ t.length)
    (hlen : dst.length = t.length) (i : ℕ) :
    (write dst r.1 (read t r.1 r.2))[i]? = if Covers r i then t[i]? else dst[i]? := by
  have hr : (read t r.1 r.2).length = r.2 := length_read ht
  rw [getElem?_write (by omega), hr]
  by_cases hc : Covers r i
  · rw [if_pos hc, if_pos hc, getElem?_read hc]
  · rw [if_neg hc, if_neg hc]

theorem length_write_read {t dst : List α} {r : ℕ × ℕ} (ht : r.1 + r.2 ≤ t.length)
    (hlen : dst.length = t.length) : (write dst r.1 (read t r.1 r.2)).length = t.length := by
  rw [length_write (by rw [length_read ht]; omega), hlen]

/-- Ranges that cover every difference make a list equal to the one copied. -/
theorem copy_eq {t dst : List α} {rs : List (ℕ × ℕ)} (hrs : ∀ r ∈ rs, r.1 + r.2 ≤ t.length)
    (hlen : dst.length = t.length) (hcov : ∀ i, dst[i]? ≠ t[i]? → ∃ r ∈ rs, Covers r i) :
    copy t dst rs = t := by
  induction rs generalizing dst with
  | nil =>
    refine List.ext_getElem? fun i => ?_
    by_contra hne
    obtain ⟨r, hr, -⟩ := hcov i hne
    exact absurd hr List.not_mem_nil
  | cons r rs ih =>
    have hr : r.1 + r.2 ≤ t.length := hrs r List.mem_cons_self
    refine ih (fun r' hr' => hrs r' (List.mem_cons_of_mem _ hr')) (length_write_read hr hlen)
      fun i hi => ?_
    rw [getElem?_write_read hr hlen] at hi
    by_cases hc : Covers r i
    · exact absurd (if_pos hc) hi
    · rw [if_neg hc] at hi
      obtain ⟨r', hr', hc'⟩ := hcov i hi
      rcases List.mem_cons.1 hr' with rfl | hr'
      · exact absurd hc' hc
      · exact ⟨r', hr', hc'⟩

end Patch

end Thinker
