import Mathlib.Data.Int.Log
import Mathlib.Data.Rat.Floor
import Mathlib.Tactic.Linarith

/-!
# BinaryFormat — numbers of a binary floating point type, and rounding to them

The numbers of a type are those with at most `prec` binary digits, the last of them at a place from `emin` on.  An
operation of the type gives the exact result rounded to the nearest of them, and to an even last digit if two are as
near.  That none is nearer (`round_nearest`) is what everything else follows from: a number of the type stays as it is,
and rounding keeps the order.  There is no largest number here: what is computed has to stay below it.
-/

/-- The digits of the numbers of a type, and the last place that they have. -/
structure BinaryFormat where
  prec : ℕ
  emin : ℤ
  prec_pos : 0 < prec

namespace BinaryFormat

/-- `float` -/
def binary32 : BinaryFormat := ⟨24, -149, by decide⟩

/-- `double` -/
def binary64 : BinaryFormat := ⟨53, -1074, by decide⟩

/-- The nearest integer, the even one of two. -/
def nearestEven (q : ℚ) : ℤ :=
  if Int.fract q < 1 / 2 then ⌊q⌋
  else if 1 / 2 < Int.fract q then ⌊q⌋ + 1
  else if Even ⌊q⌋ then ⌊q⌋ else ⌊q⌋ + 1

section NearestEven

variable {q : ℚ}

theorem abs_nearestEven_sub_le (q : ℚ) : |(nearestEven q : ℚ) - q| ≤ 1 / 2 := by
  have hq := Int.floor_add_fract q
  have h0 := Int.fract_nonneg q
  have h1 := Int.fract_lt_one q
  unfold nearestEven
  split_ifs <;> push_cast <;> rw [abs_le] <;> constructor <;> linarith

/-- No integer is nearer. -/
theorem nearestEven_nearest (q : ℚ) (n : ℤ) : |(nearestEven q : ℚ) - q| ≤ |(n : ℚ) - q| := by
  by_cases hn : nearestEven q = n
  · rw [hn]
  have hone : (1 : ℚ) ≤ |(nearestEven q : ℚ) - n| := by
    exact_mod_cast Int.one_le_abs (sub_ne_zero.mpr hn)
  have htriangle := abs_sub_le (nearestEven q : ℚ) q n
  have herror := abs_nearestEven_sub_le q
  rw [abs_sub_comm q (n : ℚ)] at htriangle
  linarith

end NearestEven

variable (t : BinaryFormat)

/-- The place of the last digit of what is rounded to. -/
def lastPlace (q : ℚ) : ℤ := max (Int.log 2 |q| + 1 - t.prec) t.emin

/-- The nearest number of the type. -/
def round (q : ℚ) : ℚ := nearestEven (q / 2 ^ t.lastPlace q) * 2 ^ t.lastPlace q

/-- A number of the type. -/
def Represents (q : ℚ) : Prop := ∃ m e : ℤ, |m| ≤ 2 ^ t.prec ∧ t.emin ≤ e ∧ q = m * 2 ^ e

variable {t} {q r : ℚ}

/-! ## The nearest number -/

/-- A multiple of the last place is not nearer. -/
theorem scaled_nearest {h : ℚ} (hh : 0 < h) (q : ℚ) (n : ℤ) : |nearestEven (q / h) * h - q| ≤ |n * h - q| := by
  have hscale : ∀ x : ℚ, |x * h - q| = |x - q / h| * h := by
    intro x
    rw [← abs_of_pos hh, ← abs_mul, abs_of_pos hh, sub_mul, div_mul_cancel₀ _ hh.ne']
  rw [hscale, hscale]
  exact mul_le_mul_of_nonneg_right (nearestEven_nearest _ n) hh.le

theorem scaled_error {h : ℚ} (hh : 0 < h) (q : ℚ) : |nearestEven (q / h) * h - q| ≤ h / 2 := by
  have herror := mul_le_mul_of_nonneg_right (abs_nearestEven_sub_le (q / h)) hh.le
  have hscale : |nearestEven (q / h) * h - q| = |(nearestEven (q / h) : ℚ) - q / h| * h := by
    rw [← abs_of_pos hh, ← abs_mul, abs_of_pos hh, sub_mul, div_mul_cancel₀ _ hh.ne']
  rw [hscale]
  linarith

theorem two_zpow_pos (e : ℤ) : (0 : ℚ) < 2 ^ e := zpow_pos two_pos e

/-- A number with all its digits before the last place is a multiple of it. -/
theorem exists_multiple (m : ℤ) {e e' : ℤ} (h : e ≤ e') : ∃ n : ℤ, (m : ℚ) * 2 ^ e' = n * 2 ^ e := by
  refine ⟨m * 2 ^ (e' - e).toNat, ?_⟩
  have hexp : (2 : ℚ) ^ e' = 2 ^ (e' - e).toNat * 2 ^ e := by
    rw [← zpow_natCast, Int.toNat_of_nonneg (sub_nonneg.mpr h), ← zpow_add₀ two_ne_zero, sub_add_cancel]
  push_cast
  rw [hexp, mul_assoc]

/-- A number with digits behind the last place is not larger than the power of two below the number rounded. -/
theorem abs_le_of_lt_lastPlace {m e : ℤ} (hm : |m| ≤ 2 ^ t.prec) (he : e < t.lastPlace q) :
    |(m : ℚ) * 2 ^ e| ≤ 2 ^ (t.lastPlace q + t.prec - 1) := by
  have hm' : |(m : ℚ)| ≤ 2 ^ (t.prec : ℤ) := by
    rw [zpow_natCast]
    exact_mod_cast hm
  calc |(m : ℚ) * 2 ^ e| = |(m : ℚ)| * 2 ^ e := by rw [abs_mul, abs_of_pos (two_zpow_pos e)]
    _ ≤ 2 ^ (t.prec : ℤ) * 2 ^ e := mul_le_mul_of_nonneg_right hm' (two_zpow_pos e).le
    _ = 2 ^ (t.prec + e : ℤ) := (zpow_add₀ two_ne_zero _ _).symm
    _ ≤ 2 ^ (t.lastPlace q + t.prec - 1) := zpow_le_zpow_right₀ one_le_two (by omega)

/-- **No number of the type is nearer.** -/
theorem round_nearest (q : ℚ) (hr : t.Represents r) : |t.round q - q| ≤ |r - q| := by
  obtain ⟨m, e, hm, he, rfl⟩ := hr
  have hscaled := scaled_nearest (two_zpow_pos (t.lastPlace q)) q
  rcases le_or_gt (t.lastPlace q) e with hle | hlt
  · obtain ⟨n, hn⟩ := exists_multiple m hle
    rw [hn]
    exact hscaled n
  by_cases hq : q = 0
  · have hzero := hscaled 0
    subst hq
    rw [Int.cast_zero, zero_mul, sub_self (0 : ℚ), abs_zero] at hzero
    exact hzero.trans (abs_nonneg _)
  -- the power of two below `q` is a multiple of the last place, and not further from `q`
  have hplace : t.lastPlace q = Int.log 2 |q| + 1 - t.prec :=
    max_eq_left_iff.mpr (not_lt.mp fun h => by
      have : t.lastPlace q = t.emin := max_eq_right h.le
      omega)
  have hpower : (2 : ℚ) ^ (t.lastPlace q + t.prec - 1) ≤ |q| := by
    rw [hplace, show Int.log 2 |q| + 1 - t.prec + t.prec - 1 = Int.log 2 |q| by ring]
    exact_mod_cast Int.zpow_log_le_self Nat.one_lt_two (abs_pos.mpr hq)
  have hsmall := abs_le_of_lt_lastPlace hm hlt
  have hpos := t.prec_pos
  have hmultiple : t.lastPlace q ≤ t.lastPlace q + t.prec - 1 := by omega
  obtain ⟨n, hn⟩ := exists_multiple 1 hmultiple
  rw [Int.cast_one, one_mul] at hn
  have htriangle := abs_sub_abs_le_abs_sub q (m * 2 ^ e)
  rw [abs_sub_comm q (m * 2 ^ e)] at htriangle
  rcases lt_or_gt_of_ne hq with hneg | hposq
  · have hn' := hscaled (-n)
    push_cast at hn'
    rw [neg_mul, ← hn, abs_of_neg hneg] at *
    rw [abs_of_nonneg (by linarith : 0 ≤ -2 ^ (t.lastPlace q + t.prec - 1) - q)] at hn'
    exact hn'.trans (by linarith)
  · have hn' := hscaled n
    rw [← hn] at hn'
    rw [abs_of_pos hposq] at hpower htriangle
    rw [abs_sub_comm (2 ^ _ : ℚ), abs_of_nonneg (by linarith : 0 ≤ q - 2 ^ (t.lastPlace q + t.prec - 1))] at hn'
    exact hn'.trans (by linarith)

/-- A number of the type stays as it is. -/
theorem round_of_represents (h : t.Represents q) : t.round q = q := by
  have hnear := round_nearest q h
  rw [sub_self, abs_zero] at hnear
  exact sub_eq_zero.mp (abs_nonpos_iff.mp hnear)

/-- The number rounded to is one of the type. -/
theorem represents_round (q : ℚ) : t.Represents (t.round q) := by
  refine ⟨_, _, ?_, le_max_right _ _, rfl⟩
  have hlt : |q| < 2 ^ (t.lastPlace q + t.prec) := by
    refine (Int.lt_zpow_succ_log_self Nat.one_lt_two |q|).trans_le ?_
    rw [Nat.cast_ofNat]
    refine zpow_le_zpow_right₀ one_le_two ?_
    have := le_max_left (Int.log 2 |q| + 1 - t.prec) t.emin
    simp only [lastPlace]
    omega
  have hquot : |q / 2 ^ t.lastPlace q| < 2 ^ t.prec := by
    rw [abs_div, abs_of_pos (two_zpow_pos _), div_lt_iff₀ (two_zpow_pos _), ← zpow_natCast,
      ← zpow_add₀ two_ne_zero, add_comm]
    exact hlt
  have hsum := abs_sub_abs_le_abs_sub (nearestEven (q / 2 ^ t.lastPlace q) : ℚ) (q / 2 ^ t.lastPlace q)
  have herror := abs_nearestEven_sub_le (q / 2 ^ t.lastPlace q)
  have hint : |(nearestEven (q / 2 ^ t.lastPlace q) : ℚ)| < 2 ^ t.prec + 1 := by linarith
  exact Int.lt_add_one_iff.mp (by exact_mod_cast hint)

/-! ## Order -/

/-- **Rounding keeps the order.** -/
theorem round_mono (h : q ≤ r) : t.round q ≤ t.round r := by
  rcases h.eq_or_lt with rfl | hlt
  · exact le_rfl
  by_contra hno
  rw [not_le] at hno
  -- each is at least as near to its own number: both numbers are on the wrong side of the middle
  have hq := round_nearest q (represents_round (t := t) r)
  have hr := round_nearest r (represents_round (t := t) q)
  have hleft : t.round r + t.round q ≤ 2 * q := by
    rcases abs_cases (t.round q - q) with ⟨h1, -⟩ | ⟨h1, h1'⟩ <;>
      rcases abs_cases (t.round r - q) with ⟨h2, h2'⟩ | ⟨h2, -⟩ <;> linarith
  have hright : 2 * r ≤ t.round r + t.round q := by
    rcases abs_cases (t.round q - r) with ⟨h1, -⟩ | ⟨h1, h1'⟩ <;>
      rcases abs_cases (t.round r - r) with ⟨h2, h2'⟩ | ⟨h2, -⟩ <;> linarith
  linarith

theorem round_le (hr : t.Represents r) (h : q ≤ r) : t.round q ≤ r :=
  (round_mono h).trans (round_of_represents hr).le

theorem le_round (hr : t.Represents r) (h : r ≤ q) : r ≤ t.round q :=
  (round_of_represents hr).ge.trans (round_mono h)

/-- A number that the type has up to the given place is not rounded further than half of it. -/
theorem abs_round_sub_le {e : ℤ} (he : t.emin ≤ e) (h : |q| ≤ 2 ^ (t.prec + e)) : |t.round q - q| ≤ 2 ^ e / 2 := by
  refine (round_nearest q (r := nearestEven (q / 2 ^ e) * 2 ^ e) ⟨_, e, ?_, he, rfl⟩).trans
    (scaled_error (two_zpow_pos e) q)
  have hquot : |q / 2 ^ e| ≤ 2 ^ t.prec := by
    rwa [abs_div, abs_of_pos (two_zpow_pos _), div_le_iff₀ (two_zpow_pos _), ← zpow_natCast, ← zpow_add₀ two_ne_zero]
  have hsum := abs_sub_abs_le_abs_sub (nearestEven (q / 2 ^ e) : ℚ) (q / 2 ^ e)
  have herror := abs_nearestEven_sub_le (q / 2 ^ e)
  have hint : |(nearestEven (q / 2 ^ e) : ℚ)| < 2 ^ t.prec + 1 := by linarith
  exact Int.lt_add_one_iff.mp (by exact_mod_cast hint)

/-! ## Numbers of a type -/

theorem represents_two_zpow {e : ℤ} (h : t.emin ≤ e) : t.Represents (2 ^ e) :=
  ⟨1, e, by rw [abs_one]; exact one_le_pow₀ one_le_two, h, by rw [Int.cast_one, one_mul]⟩

theorem Represents.neg (h : t.Represents q) : t.Represents (-q) := by
  obtain ⟨m, e, hm, he, rfl⟩ := h
  exact ⟨-m, e, by rwa [abs_neg], he, by rw [Int.cast_neg, neg_mul]⟩

theorem abs_round_le (hr : t.Represents r) (h : |q| ≤ r) : |t.round q| ≤ r :=
  abs_le.mpr ⟨le_round hr.neg (abs_le.mp h).1, round_le hr (abs_le.mp h).2⟩

/-- A wider type has the numbers of the narrower one. -/
structure Wider (t t' : BinaryFormat) : Prop where
  prec : t.prec ≤ t'.prec
  emin : t'.emin ≤ t.emin

theorem Represents.wider {t' : BinaryFormat} (hw : t.Wider t') (h : t.Represents q) : t'.Represents q := by
  obtain ⟨m, e, hm, he, rfl⟩ := h
  exact ⟨m, e, hm.trans (pow_le_pow_right₀ one_le_two hw.prec), hw.emin.trans he, rfl⟩

/-- Integers with no more digits than the type has. -/
theorem represents_intCast {z : ℤ} (h0 : t.emin ≤ 0) (hz : |z| ≤ 2 ^ t.prec) : t.Represents z :=
  ⟨z, 0, hz, h0, by rw [zpow_zero, mul_one]⟩

theorem round_zero : t.round 0 = 0 := round_of_represents ⟨0, t.emin, by rw [abs_zero]; positivity, le_rfl, by simp⟩

theorem round_nonneg (h : 0 ≤ q) : 0 ≤ t.round q := round_zero.ge.trans (round_mono h)

end BinaryFormat
