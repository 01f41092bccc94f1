import Mathlib.Data.Nat.Bits
import Mathlib.Tactic.Ring

/-!
# Octets — byte strings, big-endian numbers and bit fields

A byte string is a `List UInt8`.  `octet s p` is its octet at offset `p` (`0` past the end), `be s p n` the
big-endian number in the `n` octets from `p`, `bit s i` its bit `i` counted from the most significant bit of
octet `0`, and `field s i n` the number in the `n` bits from `i`.  `be_eq_field` is the link between the two
readings; `field_add` cuts a field in two.
-/

namespace Octets

/-- The octet at offset `p`, `0` past the end. -/
def octet (s : List UInt8) (p : ℕ) : ℕ := (s.getD p 0).toNat

/-- The big-endian number in the `n` octets from `p`. -/
def be (s : List UInt8) (p : ℕ) : ℕ → ℕ
  | 0 => 0
  | n + 1 => be s p n * 256 + octet s (p + n)

/-- Bit `i`, counted from the most significant bit of octet `0`. -/
def bit (s : List UInt8) (i : ℕ) : ℕ := octet s (i / 8) / 2 ^ (7 - i % 8) % 2

/-- The number in the `n` bits from bit `i`. -/
def field (s : List UInt8) (i : ℕ) : ℕ → ℕ
  | 0 => 0
  | n + 1 => 2 * field s i n + bit s (i + n)

section Basic

variable (s : List UInt8)

theorem octet_lt (p : ℕ) : octet s p < 256 := UInt8.toNat_lt _

theorem bit_lt (i : ℕ) : bit s i < 2 := Nat.mod_lt _ (by decide)

theorem bit_eq_zero_or_one (i : ℕ) : bit s i = 0 ∨ bit s i = 1 := by
  have := bit_lt s i
  omega

theorem field_lt (i n : ℕ) : field s i n < 2 ^ n := by
  induction n with
  | zero => simp [field]
  | succ n ih =>
    have h := bit_lt s (i + n)
    rw [field, pow_succ]
    omega

/-- A field is its upper bits followed by its lower bits. -/
theorem field_add (i m n : ℕ) : field s i (m + n) = field s i m * 2 ^ n + field s (i + m) n := by
  induction n with
  | zero => simp [field]
  | succ n ih =>
    rw [← Nat.add_assoc, field, ih, field, pow_succ, show i + (m + n) = i + m + n by omega]
    ring

/-- Shifting the lower `n` bits out of a field leaves its upper bits. -/
theorem field_shift (i m n : ℕ) : field s i (m + n) >>> n = field s i m := by
  rw [Nat.shiftRight_eq_div_pow, field_add, Nat.mul_comm, Nat.mul_add_div (Nat.two_pow_pos n),
    Nat.div_eq_of_lt (field_lt s _ n), Nat.add_zero]

/-- A field of `n` bits is not changed by the mask of `n` ones. -/
theorem field_and_mask (i n : ℕ) : field s i n &&& (2 ^ n - 1) = field s i n := by
  rw [Nat.and_two_pow_sub_one_eq_mod, Nat.mod_eq_of_lt (field_lt s i n)]

/-- The upper `k` bits of an octet. -/
theorem field_octet_upper (p : ℕ) {k : ℕ} (hk : k ≤ 8) : field s (8 * p) k = octet s p / 2 ^ (8 - k) := by
  induction k with
  | zero => exact (Nat.div_eq_of_lt (octet_lt s p)).symm
  | succ k ih =>
    have hpow : 2 ^ (8 - k) = 2 ^ (7 - k) * 2 := by
      rw [← pow_succ, show 7 - k + 1 = 8 - k by omega]
    have hbit : bit s (8 * p + k) = octet s p / 2 ^ (7 - k) % 2 := by
      rw [bit, show (8 * p + k) / 8 = p by omega, show (8 * p + k) % 8 = k by omega]
    rw [field, ih (by omega), hbit, hpow, ← Nat.div_div_eq_div_mul, show 8 - (k + 1) = 7 - k by omega]
    exact Nat.div_add_mod _ 2

theorem field_octet (p : ℕ) : field s (8 * p) 8 = octet s p := by
  rw [field_octet_upper s p le_rfl, Nat.sub_self, pow_zero, Nat.div_one]

theorem be_eq_field (p n : ℕ) : be s p n = field s (8 * p) (8 * n) := by
  induction n with
  | zero => rfl
  | succ n ih =>
    rw [be, ih, show 256 = 2 ^ 8 from rfl, show 8 * (n + 1) = 8 * n + 8 by omega, field_add, ← Nat.mul_add,
      field_octet]

theorem be_lt (p n : ℕ) : be s p n < 2 ^ (8 * n) := by
  rw [be_eq_field]
  exact field_lt s _ _

/-- The upper `m` bits of the number in `n` octets. -/
theorem be_shift (p : ℕ) {m n : ℕ} (h : m ≤ 8 * n) : be s p n >>> (8 * n - m) = field s (8 * p) m := by
  have hs := field_shift s (8 * p) m (8 * n - m)
  rwa [show m + (8 * n - m) = 8 * n by omega, ← be_eq_field] at hs

end Basic

section Append

variable {pre s post : List UInt8}

theorem octet_append_left {p : ℕ} (h : p < s.length) : octet (s ++ post) p = octet s p := by
  simp [octet, List.getD_eq_getElem?_getD, List.getElem?_append_left h]

theorem octet_append_right (p : ℕ) : octet (pre ++ s) (pre.length + p) = octet s p := by
  simp [octet, List.getD_eq_getElem?_getD, List.getElem?_append_right]

/-- A number inside the middle part of a byte string is read there. -/
theorem be_middle {p n : ℕ} (h : p + n ≤ s.length) :
    be (pre ++ s ++ post) (pre.length + p) n = be s p n := by
  induction n with
  | zero => rfl
  | succ n ih =>
    rw [be, be, ih (by omega), Nat.add_assoc, List.append_assoc, octet_append_right,
      octet_append_left (by omega)]

theorem octet_middle {p : ℕ} (h : p < s.length) :
    octet (pre ++ s ++ post) (pre.length + p) = octet s p := by
  rw [List.append_assoc, octet_append_right, octet_append_left h]

end Append

end Octets
