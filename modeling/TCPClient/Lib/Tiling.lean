import Mathlib.Algebra.BigOperators.Group.Finset.Basic
import Mathlib.Algebra.Order.BigOperators.Group.Finset

/-!
# Cutting an interval into pieces

Piece `i` of `count` starts at `off i` and has length `len i`.  `Tiles` compares each piece with
the one before it only, which is what a program that computes one piece at a time gives; the
facts about all pieces follow: their lengths add up to the whole (`Tiles.sum_len`), they do not
overlap (`Tiles.end_le`) and they leave no position out (`Tiles.existsUnique`).  `tiles_of_step`
is the cut with a fixed step and a shorter last piece.
-/

namespace Tiling

open Finset

/-- `[0, size)` cut into `count` pieces, none of them empty. -/
structure Tiles (size count : Nat) (off len : Nat → Nat) : Prop where
  first : 0 < count → off 0 = 0
  next : ∀ i, i + 1 < count → off (i + 1) = off i + len i
  pos : ∀ i < count, 0 < len i
  last : ∀ i, i + 1 = count → off i + len i = size
  empty : count = 0 → size = 0

namespace Tiles

variable {size count : Nat} {off len : Nat → Nat}

/-- A piece starts behind all that come before it. -/
theorem off_eq_sum (h : Tiles size count off len) {i : Nat} (hi : i < count) :
    off i = ∑ j ∈ range i, len j := by
  induction i with
  | zero => rw [h.first hi, sum_range_zero]
  | succ i ih => rw [h.next i hi, ih (by omega), sum_range_succ]

theorem sum_len (h : Tiles size count off len) : ∑ i ∈ range count, len i = size := by
  cases hcount : count with
  | zero => rw [sum_range_zero, h.empty hcount]
  | succ n => rw [sum_range_succ, ← h.off_eq_sum (by omega), h.last n hcount.symm]

/-- An earlier piece ends before a later one starts. -/
theorem end_le (h : Tiles size count off len) {i j : Nat} (hij : i < j) (hj : j < count) :
    off i + len i ≤ off j := by
  rw [h.off_eq_sum hj, h.off_eq_sum (by omega), ← sum_range_succ]
  exact sum_le_sum_of_subset (range_subset_range.mpr hij)

/-- **Every position lies in exactly one piece.** -/
theorem existsUnique (h : Tiles size count off len) {p : Nat} (hp : p < size) :
    ∃! i, i < count ∧ off i ≤ p ∧ p < off i + len i := by
  have hex : ∀ n ≤ count, p < ∑ i ∈ range n, len i →
      ∃ i, i < n ∧ off i ≤ p ∧ p < off i + len i := by
    intro n
    induction n with
    | zero => intro _ hlt; simp at hlt
    | succ n ih =>
      intro hn hlt
      by_cases hbefore : p < ∑ i ∈ range n, len i
      · obtain ⟨i, hi, hin⟩ := ih (by omega) hbefore
        exact ⟨i, by omega, hin⟩
      · -- not in an earlier piece, so in the one that was added
        have hoff := h.off_eq_sum (show n < count by omega)
        rw [sum_range_succ] at hlt
        exact ⟨n, by omega, by omega, by omega⟩
  obtain ⟨i, hi, hlo, hhi⟩ := hex count le_rfl (by rwa [h.sum_len])
  refine ⟨i, ⟨hi, hlo, hhi⟩, ?_⟩
  rintro j ⟨hj, hjlo, hjhi⟩
  rcases Nat.lt_trichotomy i j with hij | rfl | hji
  · have := h.end_le hij hj
    omega
  · rfl
  · have := h.end_le hji hi
    omega

end Tiles

/-- **A fixed step**: pieces of length `step` as long as there is enough left, and what is left
    as the last one. -/
theorem tiles_of_step {size step count : Nat} (hstep : 0 < step)
    (hcount : ∀ i, i < count ↔ i * step < size) :
    Tiles size count (fun i => i * step) (fun i => min step (size - i * step)) where
  first := fun _ => Nat.zero_mul step
  next := by
    intro i hi
    have hlt : i * step + step < size := by
      rw [← Nat.succ_mul]
      exact (hcount (i + 1)).mp hi
    show (i + 1) * step = i * step + min step (size - i * step)
    rw [Nat.min_eq_left (by omega), Nat.succ_mul]
  pos := by
    intro i hi
    have hlt := (hcount i).mp hi
    exact Nat.lt_min.mpr ⟨hstep, by omega⟩
  last := by
    intro i hi
    have hlt := (hcount i).mp (by omega)
    have hend : ¬ i * step + step < size := by
      rw [← Nat.succ_mul, ← hcount (i + 1)]
      omega
    show i * step + min step (size - i * step) = size
    omega
  empty := by
    intro h0
    by_contra hne
    have hpos : 0 * step < size := by omega
    have := (hcount 0).mpr hpos
    omega

/-- All pieces but the last have the full length. -/
theorem len_of_next {size step count : Nat} (hcount : ∀ i, i < count ↔ i * step < size) {i : Nat}
    (hi : i + 1 < count) : min step (size - i * step) = step := by
  have hlt := (hcount (i + 1)).mp hi
  rw [Nat.succ_mul] at hlt
  omega

end Tiling
