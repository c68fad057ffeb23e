import Mathlib.Tactic

/-!
# Go-back-N with true numbers

A sender has sent the blocks below `sent`, keeps those from `acked` on, and never has more
than `W` of them unacknowledged. A receiver has taken the blocks below `delivered`, in
order. Blocks in flight (`fwd`) and acknowledgements in flight (`bwd`) are in two queues
that may lose any element; a block may be in flight several times.

On the wire only remainders modulo some `N` are seen. With `W < N` they are enough : a
block at the head of `fwd` has the receiver's number modulo `N` only if it is the block
the receiver waits for (`Inv.eq_of_mod_eq`), and the acknowledgement at the head of `bwd`
is found again from its remainder and `acked` (`Inv.add_mod_sub`).
-/

namespace Thinker

/-- The numbers of both ends and of what is in flight between them. -/
structure Window where
  /-- The sender's first unacknowledged block. -/
  acked : ℕ
  /-- The sender's next block. -/
  sent : ℕ
  /-- The receiver's next block. -/
  delivered : ℕ
  /-- Blocks in flight, oldest first. -/
  fwd : List ℕ
  /-- Acknowledgements in flight, oldest first. -/
  bwd : List ℕ

namespace Window

/-- The invariant for a window of `W` blocks. A block in flight may be stale, but what was
sent before it is less than `W` ahead of it, and so is what the receiver has taken. -/
structure Inv (W : ℕ) (w : Window) : Prop where
  acked_le : w.acked ≤ w.delivered
  delivered_le : w.delivered ≤ w.sent
  sent_le : w.sent ≤ w.acked + W
  fwd_lt : ∀ j ∈ w.fwd, j < w.sent
  fwd_near : ∀ j ∈ w.fwd, w.delivered ≤ j + W
  fwd_order : w.fwd.Pairwise fun i j => i < j + W
  bwd_ge : ∀ v ∈ w.bwd, w.acked ≤ v
  bwd_le : ∀ v ∈ w.bwd, v ≤ w.delivered
  bwd_order : w.bwd.Pairwise (· ≤ ·)

namespace Inv

variable {W : ℕ} {w : Window}

theorem start (n : ℕ) : Inv W ⟨n, n, n, [], []⟩ where
  acked_le := le_rfl
  delivered_le := le_rfl
  sent_le := Nat.le_add_right n W
  fwd_lt := by simp
  fwd_near := by simp
  fwd_order := .nil
  bwd_ge := by simp
  bwd_le := by simp
  bwd_order := .nil

/-- Losing elements of either queue. -/
theorem lose (h : Inv W w) {fwd bwd : List ℕ} (hf : fwd.Sublist w.fwd)
    (hb : bwd.Sublist w.bwd) : Inv W { w with fwd := fwd, bwd := bwd } where
  acked_le := h.acked_le
  delivered_le := h.delivered_le
  sent_le := h.sent_le
  fwd_lt j hj := h.fwd_lt j (hf.subset hj)
  fwd_near j hj := h.fwd_near j (hf.subset hj)
  fwd_order := h.fwd_order.sublist hf
  bwd_ge v hv := h.bwd_ge v (hb.subset hv)
  bwd_le v hv := h.bwd_le v (hb.subset hv)
  bwd_order := h.bwd_order.sublist hb

/-- Blocks the sender keeps are put in flight, in order. -/
theorem push (h : Inv W w) {js : List ℕ} (hord : js.Pairwise (· < ·))
    (hge : ∀ j ∈ js, w.acked ≤ j) (hlt : ∀ j ∈ js, j < w.sent) :
    Inv W { w with fwd := w.fwd ++ js } where
  acked_le := h.acked_le
  delivered_le := h.delivered_le
  sent_le := h.sent_le
  fwd_lt j hj := (List.mem_append.1 hj).elim (h.fwd_lt j) (hlt j)
  fwd_near j hj := by
    rcases List.mem_append.1 hj with hj | hj
    · exact h.fwd_near j hj
    · have := hge j hj
      have := h.sent_le
      have := h.delivered_le
      show w.delivered ≤ j + W
      omega
  fwd_order := by
    refine List.pairwise_append.2 ⟨h.fwd_order, ?_, fun i hi j hj => ?_⟩
    · exact hord.imp fun hij => hij.trans_le (Nat.le_add_right _ _)
    · have := h.fwd_lt i hi
      have := hge j hj
      have := h.sent_le
      omega
  bwd_ge := h.bwd_ge
  bwd_le := h.bwd_le
  bwd_order := h.bwd_order

/-- Sending every kept block again. -/
theorem resend (h : Inv W w) :
    Inv W { w with fwd := w.fwd ++ List.range' w.acked (w.sent - w.acked) } := by
  refine h.push List.pairwise_lt_range' (fun j hj => ?_) fun j hj => ?_
  · exact (List.mem_range'_1.1 hj).1
  · have := List.mem_range'_1.1 hj
    omega

/-- Sending a new block while the window has room. -/
theorem send (h : Inv W w) (hroom : w.sent < w.acked + W) :
    Inv W { w with sent := w.sent + 1, fwd := w.fwd ++ [w.sent] } := by
  have hle : w.acked ≤ w.sent := h.acked_le.trans h.delivered_le
  have h' : Inv W { w with sent := w.sent + 1 } :=
    { h with
      delivered_le := h.delivered_le.trans (Nat.le_succ _)
      sent_le := hroom
      fwd_lt := fun j hj => (h.fwd_lt j hj).trans (Nat.lt_succ_self _) }
  exact h'.push (List.pairwise_singleton _ _) (by simpa using hle) (by simp)

/-- The receiver's number put in flight. -/
theorem answer (h : Inv W w) : Inv W { w with bwd := w.bwd ++ [w.delivered] } where
  acked_le := h.acked_le
  delivered_le := h.delivered_le
  sent_le := h.sent_le
  fwd_lt := h.fwd_lt
  fwd_near := h.fwd_near
  fwd_order := h.fwd_order
  bwd_ge v hv := by
    rcases List.mem_append.1 hv with hv | hv
    · exact h.bwd_ge v hv
    · exact (List.mem_singleton.1 hv) ▸ h.acked_le
  bwd_le v hv := by
    rcases List.mem_append.1 hv with hv | hv
    · exact h.bwd_le v hv
    · exact (List.mem_singleton.1 hv).le
  bwd_order := List.pairwise_append.2 ⟨h.bwd_order, List.pairwise_singleton _ _,
    fun v hv u hu => (List.mem_singleton.1 hu) ▸ h.bwd_le v hv⟩

/-- Any number of answers. -/
theorem answers (h : Inv W w) (n : ℕ) :
    Inv W { w with bwd := w.bwd ++ List.replicate n w.delivered } := by
  induction n with
  | zero => simpa using h
  | succ n ih =>
    have := ih.answer
    simpa [List.replicate_succ', List.append_assoc] using this

/-- The receiver takes the block it waits for. -/
theorem deliver (h : Inv W w) {rest : List ℕ} (hf : w.fwd = w.delivered :: rest) :
    Inv W { w with delivered := w.delivered + 1, fwd := rest } where
  acked_le := h.acked_le.trans (Nat.le_succ _)
  delivered_le := h.fwd_lt w.delivered (by simp [hf])
  sent_le := h.sent_le
  fwd_lt j hj := h.fwd_lt j (by simp [hf, hj])
  -- what comes behind the block taken is less than `W` behind it
  fwd_near j hj := (List.pairwise_cons.1 (hf ▸ h.fwd_order)).1 j hj
  fwd_order := (List.pairwise_cons.1 (hf ▸ h.fwd_order)).2
  bwd_ge := h.bwd_ge
  bwd_le v hv := (h.bwd_le v hv).trans (Nat.le_succ _)
  bwd_order := h.bwd_order

/-- The sender takes an acknowledgement. -/
theorem ack (h : Inv W w) {v : ℕ} {rest : List ℕ} (hb : w.bwd = v :: rest) :
    Inv W { w with acked := v, bwd := rest } where
  acked_le := h.bwd_le v (by simp [hb])
  delivered_le := h.delivered_le
  sent_le := by
    have := h.bwd_ge v (by simp [hb])
    have := h.sent_le
    show w.sent ≤ v + W
    omega
  fwd_lt := h.fwd_lt
  fwd_near := h.fwd_near
  fwd_order := h.fwd_order
  bwd_ge u hu := (List.pairwise_cons.1 (hb ▸ h.bwd_order)).1 u hu
  bwd_le u hu := h.bwd_le u (by simp [hb, hu])
  bwd_order := (List.pairwise_cons.1 (hb ▸ h.bwd_order)).2

/-- A block in flight with the receiver's remainder is the block it waits for. -/
theorem eq_of_mod_eq (h : Inv W w) {N : ℕ} (hN : W < N) {j : ℕ} (hj : j ∈ w.fwd)
    (hmod : j % N = w.delivered % N) : j = w.delivered := by
  have h1 := h.fwd_lt j hj
  have h2 := h.fwd_near j hj
  have h3 := h.sent_le
  have h4 := h.acked_le
  refine Nat.ModEq.eq_of_abs_lt hmod ?_
  rw [abs_lt]
  omega

/-- An acknowledgement in flight is the sender's number plus the difference of the
remainders. -/
theorem add_mod_sub (h : Inv W w) {N : ℕ} (hN : W < N) {v : ℕ} (hv : v ∈ w.bwd) :
    w.acked + (v - w.acked) % N = v := by
  have h1 := h.bwd_ge v hv
  have h2 := h.bwd_le v hv
  have h3 := h.delivered_le
  have h4 := h.sent_le
  rw [Nat.mod_eq_of_lt (by omega)]
  omega

end Inv

end Window

end Thinker
