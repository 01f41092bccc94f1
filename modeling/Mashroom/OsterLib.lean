import Mathlib.Data.Rat.Defs
import Mathlib.Algebra.Order.Ring.Rat
import Mathlib.Algebra.GroupWithZero.Basic
import Mathlib.Algebra.Order.Field.Rat

/-!
# OsterLib — the external library, as a parameter

The readers of signed numbers, the powers, the IBM floating point numbers and the undefined value come from
OsterLib, which is not part of the repository.  The decoder takes them from an `OsterLib`; what is documented
of them, and used here, is `OsterLib.Documented`.  Floating point numbers are exact rationals.
-/

namespace Mashroom

/-- A geographic position. -/
structure Coord where
  lat : ℚ
  lon : ℚ
  deriving DecidableEq

/-- What the decoder calls in OsterLib. -/
structure OsterLib where
  /-- `INT2` on two octets -/
  int2 : ℕ → ℕ → ℤ
  /-- `INT3` on three octets -/
  int3 : ℕ → ℕ → ℕ → ℤ
  /-- `read_bytes<n,true>` on `n` octets -/
  signedBytes : List ℕ → ℤ
  /-- `to_float` -/
  toFloat : ℤ → ℚ
  /-- `ibm2flt` on four octets -/
  ibm2flt : ℕ → ℕ → ℕ → ℕ → ℚ
  /-- `int_power` -/
  intPower : ℚ → ℤ → ℚ
  /-- `UNDEFINED` -/
  undefined : ℚ
  /-- `is_correct_pos` -/
  isCorrectPos : Coord → Bool

/-- The number two octets hold in sign and magnitude. -/
def signMagnitude2 (a b : ℕ) : ℤ := (if 128 ≤ a then -1 else 1) * ((a % 128 * 256 + b : ℕ) : ℤ)

/-- `INT2` reads sign and magnitude, and `int_power` is exact. -/
structure OsterLib.Documented (lib : OsterLib) : Prop where
  int2_eq : ∀ a b, lib.int2 a b = signMagnitude2 a b
  intPower_eq : ∀ x k, lib.intPower x k = x ^ k

theorem OsterLib.Documented.intPower_ne_zero {lib : OsterLib} (h : lib.Documented) {x : ℚ} (hx : x ≠ 0)
    (k : ℤ) : lib.intPower x k ≠ 0 := by
  rw [h.intPower_eq]
  exact zpow_ne_zero k hx

/-- The number three octets hold in sign and magnitude. -/
def signMagnitude3 (a b c : ℕ) : ℤ := (if 128 ≤ a then -1 else 1) * (((a % 128 * 256 + b) * 256 + c : ℕ) : ℤ)

/-- The IBM floating point number of four octets: sign, exponent of 16 in excess 64, fraction of 24 bits. -/
def ibmFloat (a b c d : ℕ) : ℚ :=
  (if 128 ≤ a then -1 else 1) * (((b * 256 + c) * 256 + d : ℕ) / 2 ^ 24) * 16 ^ ((a % 128 : ℕ) - 64 : ℤ)

/-- The library as it is documented. -/
def OsterLib.reference : OsterLib where
  int2 := signMagnitude2
  int3 := signMagnitude3
  signedBytes os := match os with
    | [a, b] => signMagnitude2 a b
    | [a, b, c] => signMagnitude3 a b c
    | _ => 0
  toFloat z := z
  ibm2flt := ibmFloat
  intPower x k := x ^ k
  undefined := 9999 * 10 ^ 17
  isCorrectPos pos := decide (-90 ≤ pos.lat ∧ pos.lat ≤ 90 ∧ -180 ≤ pos.lon ∧ pos.lon ≤ 360)

theorem OsterLib.reference_documented : OsterLib.reference.Documented :=
  ⟨fun _ _ => rfl, fun _ _ => rfl⟩

end Mashroom
