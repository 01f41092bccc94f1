import Mathlib.Algebra.Order.Floor.Ring
import Mathlib.Tactic.Linarith
import Mathlib.Tactic.Ring

/-!
# RowMajor — flattening a position into an index

A position in a grid is `a` columns and `b` rows from the first point, each a number with a fraction.  Its cell is
`⌊a⌋`, `⌊b⌋`, and in rows of `n` cells the index of the cell is `⌊a⌋ + n * ⌊b⌋`.  Flattening first and rounding then
gives `⌊a + n * b⌋`: the two agree as long as the fractions together stay below one cell (`floor_flat_eq_iff`).
-/

namespace RowMajor

section Floor

variable {K : Type} [Field K] [LinearOrder K] [FloorRing K] (n : ℕ) (a b : K)

/-- The flattened position is the index of its cell and the fractions that are left. -/
theorem flat_eq : a + n * b = ((⌊a⌋ + n * ⌊b⌋ : ℤ) : K) + (Int.fract a + n * Int.fract b) := by
  have ha := Int.floor_add_fract a
  have hb := Int.floor_add_fract b
  push_cast
  calc a + n * b = (⌊a⌋ + Int.fract a) + n * (⌊b⌋ + Int.fract b) := by rw [ha, hb]
    _ = ⌊a⌋ + n * ⌊b⌋ + (Int.fract a + n * Int.fract b) := by ring

variable [IsStrictOrderedRing K]

theorem floor_flat : ⌊a + n * b⌋ = ⌊a⌋ + n * ⌊b⌋ + ⌊Int.fract a + n * Int.fract b⌋ := by
  rw [flat_eq, Int.floor_intCast_add]

/-- **Rounding the flattened position gives the index of the cell exactly if the fractions, of the column and of a
row, add up to less than a cell.** -/
theorem floor_flat_eq_iff : ⌊a + n * b⌋ = ⌊a⌋ + n * ⌊b⌋ ↔ Int.fract a + n * Int.fract b < 1 := by
  have h0 : 0 ≤ Int.fract a + n * Int.fract b :=
    add_nonneg (Int.fract_nonneg a) (mul_nonneg n.cast_nonneg (Int.fract_nonneg b))
  rw [floor_flat, add_eq_left, Int.floor_eq_zero_iff, Set.mem_Ico]
  exact and_iff_right h0

end Floor

end RowMajor
