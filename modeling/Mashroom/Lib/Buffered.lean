import Mathlib.Algebra.Order.Group.Nat
import Mathlib.Data.List.Basic

/-!
# Buffered — writing through a buffer

A writer keeps what is written last in a buffer of some capacity, and empties it when it finds it full.  What is written
is what was taken from the buffer, followed by what is in it (`text_puts`).  Pieces of one length never run over when
the length divides the capacity (`puts_of_dvd`), and otherwise some number of them does (`dvd_of_replicate`).
-/

/-- What was written, and what is in the buffer. -/
structure Buffered (α : Type) (capacity : ℕ) where
  flushed : List α
  pending : List α
  fits : pending.length ≤ capacity

namespace Buffered

variable {α : Type} {capacity : ℕ}

/-- Nothing is written. -/
def empty : Buffered α capacity := ⟨[], [], Nat.zero_le _⟩

/-- All that was written, in the buffer or not. -/
def text (w : Buffered α capacity) : List α := w.flushed ++ w.pending

/-- The buffer is emptied. -/
def flush (w : Buffered α capacity) : Buffered α capacity := ⟨w.text, [], Nat.zero_le _⟩

/-- The buffer is emptied when it is full. -/
def room (w : Buffered α capacity) : Buffered α capacity := if capacity ≤ w.pending.length then w.flush else w

/-- A piece that the buffer has room for. -/
def add (w : Buffered α capacity) (piece : List α) : Option (Buffered α capacity) :=
  if h : w.pending.length + piece.length ≤ capacity then
    some ⟨w.flushed, w.pending ++ piece, by rwa [List.length_append]⟩
  else none

/-- One piece. -/
def put (w : Buffered α capacity) (piece : List α) : Option (Buffered α capacity) := w.room.add piece

/-- One piece after the other. -/
def puts (w : Buffered α capacity) (pieces : List (List α)) : Option (Buffered α capacity) := pieces.foldlM put w

theorem puts_cons (w : Buffered α capacity) (piece : List α) (pieces : List (List α)) :
    w.puts (piece :: pieces) = (w.put piece).bind fun v => v.puts pieces := List.foldlM_cons

theorem puts_append (w : Buffered α capacity) (pieces pieces' : List (List α)) :
    w.puts (pieces ++ pieces') = (w.puts pieces).bind fun v => v.puts pieces' := List.foldlM_append

section Text

variable {w w' : Buffered α capacity} {piece : List α} {pieces : List (List α)}

@[simp] theorem text_empty : (empty : Buffered α capacity).text = [] := rfl

@[simp] theorem text_flush (w : Buffered α capacity) : w.flush.text = w.text := List.append_nil _

@[simp] theorem text_room (w : Buffered α capacity) : w.room.text = w.text := by
  unfold room
  split
  · exact text_flush w
  · rfl

theorem add_eq_some (h : w.add piece = some w') :
    w'.flushed = w.flushed ∧ w'.pending = w.pending ++ piece := by
  unfold add at h
  split at h
  · obtain rfl := Option.some.inj h
    exact ⟨rfl, rfl⟩
  · cases h

theorem text_add (h : w.add piece = some w') : w'.text = w.text ++ piece := by
  obtain ⟨hflushed, hpending⟩ := add_eq_some h
  rw [text, hflushed, hpending, text, List.append_assoc]

theorem text_put (h : w.put piece = some w') : w'.text = w.text ++ piece := by
  rw [text_add h, text_room]

/-- What is written is what the pieces are. -/
theorem text_puts (h : w.puts pieces = some w') : w'.text = w.text ++ pieces.flatten := by
  induction pieces generalizing w with
  | nil =>
    obtain rfl := Option.some.inj h
    exact (List.append_nil _).symm
  | cons piece pieces ih =>
    rw [puts_cons] at h
    obtain ⟨v, hv, h⟩ := Option.bind_eq_some_iff.mp h
    rw [ih h, text_put hv, List.flatten_cons, List.append_assoc]

end Text

/-! ## Pieces of one length -/

section Pieces

variable {k : ℕ} {w : Buffered α capacity} {piece : List α} {pieces : List (List α)}

theorem pending_room : w.room.pending.length = if capacity ≤ w.pending.length then 0 else w.pending.length := by
  unfold room
  split <;> rfl

theorem room_pending_lt (hpos : 0 < capacity) : w.room.pending.length < capacity := by
  rw [pending_room]
  split <;> omega

/-- A buffer that is filled by whole pieces has room for one more. -/
theorem put_of_dvd (hcap : k ∣ capacity) (hpos : 0 < capacity) (hw : k ∣ w.pending.length)
    (hpiece : piece.length = k) : ∃ w', w.put piece = some w' ∧ k ∣ w'.pending.length := by
  have hlt := room_pending_lt (w := w) hpos
  have hroom : k ∣ w.room.pending.length := by
    rw [pending_room]
    split
    · exact ⟨0, rfl⟩
    · exact hw
  obtain ⟨c, rfl⟩ := hcap
  obtain ⟨n, hn⟩ := hroom
  have hle : w.room.pending.length + piece.length ≤ k * c := by
    rw [hn] at hlt ⊢
    have hnc : n < c := Nat.lt_of_mul_lt_mul_left hlt
    rw [hpiece, ← Nat.mul_succ]
    exact Nat.mul_le_mul_left k hnc
  refine ⟨_, dif_pos hle, ?_⟩
  show k ∣ (w.room.pending ++ piece).length
  rw [List.length_append, hn, hpiece]
  exact ⟨n + 1, rfl⟩

/-- Pieces that divide the capacity never run over. -/
theorem puts_of_dvd (hcap : k ∣ capacity) (hpos : 0 < capacity) (hw : k ∣ w.pending.length)
    (hpieces : ∀ piece ∈ pieces, piece.length = k) : ∃ w', w.puts pieces = some w' ∧ k ∣ w'.pending.length := by
  induction pieces generalizing w with
  | nil => exact ⟨w, rfl, hw⟩
  | cons piece pieces ih =>
    obtain ⟨hpiece, hpieces⟩ := List.forall_mem_cons.mp hpieces
    obtain ⟨v, hv, hvk⟩ := put_of_dvd hcap hpos hw hpiece
    obtain ⟨w', hw', hk'⟩ := ih hvk hpieces
    refine ⟨w', ?_, hk'⟩
    rw [puts_cons, hv]
    exact hw'

/-- Pieces that begin before the buffer is full are all in it. -/
theorem pending_puts (hpieces : ∀ piece ∈ pieces, piece.length = k) {w' : Buffered α capacity}
    (hroom : w.pending.length + pieces.length * k < capacity + k) (h : w.puts pieces = some w') :
    w'.pending.length = w.pending.length + pieces.length * k := by
  induction pieces generalizing w with
  | nil =>
    obtain rfl := Option.some.inj h
    simp
  | cons piece pieces ih =>
    obtain ⟨hpiece, hpieces⟩ := List.forall_mem_cons.mp hpieces
    rw [List.length_cons, Nat.succ_mul] at hroom ⊢
    have hlt : ¬ capacity ≤ w.pending.length := by omega
    rw [puts_cons] at h
    obtain ⟨v, hv, h⟩ := Option.bind_eq_some_iff.mp h
    rw [put, room, if_neg hlt] at hv
    have hpending : v.pending.length = w.pending.length + k := by
      rw [(add_eq_some hv).2, List.length_append, hpiece]
    rw [ih hpieces (by omega) h, hpending]
    omega

/-- Pieces of which any number can be put fill the buffer. -/
theorem dvd_of_replicate (hk : 0 < k) (hpiece : piece.length = k)
    (h : ∀ n, ∃ w', (empty : Buffered α capacity).puts (List.replicate n piece) = some w') :
    0 < capacity ∧ k ∣ capacity := by
  have hpos : 0 < capacity := by
    obtain ⟨w, hw⟩ := h 1
    rw [List.replicate_one, puts_cons] at hw
    obtain ⟨v, hv, hw⟩ := Option.bind_eq_some_iff.mp hw
    have hfits := v.fits
    rw [(add_eq_some hv).2, List.length_append, hpiece] at hfits
    omega
  refine ⟨hpos, Nat.dvd_of_mod_eq_zero ?_⟩
  by_contra hmod
  -- one piece more than the buffer has room for
  have hdiv := Nat.div_add_mod capacity k
  have hlt := Nat.mod_lt capacity hk
  have hsucc : (capacity / k + 1) * k = k * (capacity / k) + k := by rw [Nat.succ_mul, Nat.mul_comm]
  have hall : ∀ p ∈ List.replicate (capacity / k + 1) piece, p.length = k := by
    intro p hp
    rw [List.eq_of_mem_replicate hp, hpiece]
  obtain ⟨w, hw⟩ := h (capacity / k + 1)
  have hlength := pending_puts hall (by
    simp only [empty, List.length_nil, List.length_replicate, hsucc]
    omega) hw
  have hfits := w.fits
  simp only [empty, List.length_nil, List.length_replicate, hsucc] at hlength
  omega

end Pieces

end Buffered
