import Mashroom.Grib1.Values

/-!
# Grib1.Scaling — the law of the two scale factors

A packed integer `X` stands for `(R + X * 2 ^ E) * 10 ^ (-D)`.  Both factors are signed numbers in two octets; the
decimal one leaves its accessor as an `unsigned short`, so a negative `D` arrives as `D + 65536`.
`scalingLaw_iff` says for which values of which messages the law holds all the same.
-/

namespace Mashroom

namespace Layout

variable (lib : OsterLib) (f : File) (p : ℕ)

/-- The decimal scale factor `D`. -/
def decimalFactor : ℤ := signMagnitude2 (Octets.octet f (p + 34)) (Octets.octet f (p + 35))

/-- The binary scale factor `E`. -/
def binaryFactor : ℤ := signMagnitude2 (Octets.octet f (off4 f p + 4)) (Octets.octet f (off4 f p + 5))

/-- The value before the decimal scale. -/
def unscaled (x : ℕ) : ℚ := refValue lib f p + x * 2 ^ binaryFactor f p

/-- What a packed integer stands for. -/
def lawValue (x : ℕ) : ℚ := unscaled lib f p x * 10 ^ (-decimalFactor f p)

variable {lib f p}

theorem signMagnitude2_bounds {a b : ℕ} (hb : b < 256) :
    -32768 < signMagnitude2 a b ∧ signMagnitude2 a b < 32768 := by
  unfold signMagnitude2
  split <;> omega

theorem binaryScale_eq (hl : lib.Documented) : binaryScale lib f p = binaryFactor f p := by
  obtain ⟨h1, h2⟩ := signMagnitude2_bounds (a := Octets.octet f (off4 f p + 4)) (Octets.octet_lt f (off4 f p + 5))
  rw [binaryScale, hl.int2_eq, toSigned, binaryFactor, Int.bmod_eq_of_le] <;> omega

theorem decimalScale_eq (hl : lib.Documented) :
    (decimalScale lib f p : ℤ) = if 0 ≤ decimalFactor f p then decimalFactor f p else decimalFactor f p + 65536 := by
  obtain ⟨h1, h2⟩ := signMagnitude2_bounds (a := Octets.octet f (p + 34)) (Octets.octet_lt f (p + 35))
  rw [decimalScale, hl.int2_eq, toUnsigned, decimalFactor]
  split <;> omega

theorem decoded_eq (hl : lib.Documented) (x : ℕ) :
    decoded lib f p x = unscaled lib f p x * 10 ^ (-decimalScale lib f p : ℤ) := by
  rw [decoded, refVal, scale, hl.intPower_eq, hl.intPower_eq, binaryScale_eq hl, unscaled]
  ring

/-- The decoder's value is the one the law gives when `D` is not negative, or the value is zero anyway. -/
theorem decoded_eq_lawValue_iff (hl : lib.Documented) (x : ℕ) :
    decoded lib f p x = lawValue lib f p x ↔ 0 ≤ decimalFactor f p ∨ unscaled lib f p x = 0 := by
  have h10 : (10 : ℚ) ≠ 1 := by norm_num
  rw [decoded_eq hl, lawValue, mul_eq_mul_left_iff, zpow_right_inj₀ (by norm_num) h10, neg_inj, decimalScale_eq hl]
  refine or_congr_left ?_
  split <;> omega

end Layout

open Layout

namespace Message

/-- The raw integer that `extractValue` takes for value `n`: `0` when no bits are packed, `none` for a value that is
missing by the bit map. -/
def rawInteger (f : File) (p : ℕ) (n : ℤ) : Except Fault (Option ℕ) :=
  if bitsPerValue f p = 0 then .ok (some 0)
  else if hasBms f p then (message f p).rawValueBitmap f (bitsPerValue f p) n
  else some <$> (message f p).rawValue f (bitsPerValue f p) n

/-- Value `n` is the one the law gives for its raw integer, or undefined where it is missing. -/
def ScalingLaw (lib : OsterLib) (f : File) (p : ℕ) (n : ℤ) : Prop :=
  ∃ r, rawInteger f p n = .ok r ∧
    (message f p).extractValue lib f n = .ok (r.elim lib.undefined (lawValue lib f p))

section Law

variable {lib : OsterLib} {f : File} {p : ℕ} (hw : WellFormed f p) (hs : SimplePacked f p)

include hw hs

theorem extractValue_rawInteger (n : ℤ) : (message f p).extractValue lib f n =
    (fun r => r.elim lib.undefined (decoded lib f p)) <$> rawInteger f p n := by
  rw [extractValue_message hw hs, rawInteger]
  by_cases hnb : bitsPerValue f p = 0
  · rw [if_pos hnb, if_pos hnb]
    show _ = Except.ok (decoded lib f p 0)
    simp [decoded]
  · rw [if_neg hnb, if_neg hnb]
    split
    · rfl
    · cases (message f p).rawValue f (bitsPerValue f p) n <;> rfl

/-- The law holds where there is a raw integer, and it is missing or `D` does no harm. -/
theorem scalingLaw_rawInteger (hl : lib.Documented) (n : ℤ) : ScalingLaw lib f p n ↔
    ∃ r, rawInteger f p n = .ok r ∧ ∀ x ∈ r, 0 ≤ decimalFactor f p ∨ unscaled lib f p x = 0 := by
  refine exists_congr fun r => and_congr_right fun hr => ?_
  rw [extractValue_rawInteger hw hs, hr]
  show Except.ok _ = Except.ok _ ↔ _
  rw [Except.ok.injEq]
  cases r with
  | none => simp
  | some x =>
    simp only [Option.elim_some, Option.mem_some_iff, forall_eq']
    exact decoded_eq_lawValue_iff hl x

end Law

/-! ## Where there is a raw integer -/

section Raw

variable {f : File} {p n : ℕ}

/-- Without a bit map the octets that are taken must be in the file, and the computations fit. -/
theorem rawValue_eq_ok (hnb : bitsPerValue f p ≠ 0) (hn : 1 ≤ n) {x : ℕ} :
    (message f p).rawValue f (bitsPerValue f p) n = .ok x ↔
      (bitsPerValue f p ≤ 30 ∧ n ≤ 2 ^ 30 ∧ rawStart f p n + (bitsPerValue f p + 7) / 8 ≤ f.length) ∧
        x = Octets.field f (8 * rawStart f p n) (bitsPerValue f p) := by
  by_cases hb : bitsPerValue f p ≤ 30
  · by_cases hmax : n ≤ 2 ^ 30
    · rw [rawValue_message (by omega) hb hn hmax]
      split
      · rename_i hin
        rw [Except.ok.injEq]
        exact ⟨fun h => ⟨⟨hb, hmax, hin⟩, h.symm⟩, fun h => h.2.symm⟩
      · rename_i hin
        refine iff_of_false ?_ fun h => hin h.1.2.2
        intro h
        cases h
    · refine iff_of_false ?_ fun h => hmax h.1.2.1
      intro h
      simp only [rawValue, bind_eq_ok, cInt] at h
      obtain ⟨_, -, k, hk, k', hk', -⟩ := h
      split at hk
      · cases hk
        split at hk'
        · omega
        · cases hk'
      · cases hk
  · refine iff_of_false ?_ fun h => hb h.1.1
    intro h
    obtain ⟨_, hmask, -⟩ := bind_eq_ok.mp h
    rw [fillMask, if_neg (by omega)] at hmask
    cases hmask

/-- With a bit map there is never a raw integer, and in one case a missing value: `jmask` has no value. -/
theorem rawValueBitmap_eq_ok (hb : hasBms f p = true) (hn : 1 ≤ n) {r : Option ℕ} :
    (message f p).rawValueBitmap f (bitsPerValue f p) n = .ok r ↔
      r = none ∧ n ≤ 2 ^ 31 ∧ n % 8 = 0 ∧ off3 f p + (n - 1) < f.length ∧
        Octets.octet f (off3 f p + (n - 1)) &&& 128 = 0 := by
  by_cases hmax : n ≤ 2 ^ 31
  · rw [rawValueBitmap_message hb hn hmax]
    exact and_congr_right fun _ => ⟨fun h => ⟨hmax, h⟩, And.right⟩
  · refine iff_of_false ?_ fun h => hmax h.2.1
    intro h
    simp only [rawValueBitmap, bind_eq_ok, cInt] at h
    obtain ⟨_, -, k, hk, -⟩ := h
    split at hk
    · omega
    · cases hk

/-- No bits are packed, and `D` is not negative or the reference value zero; or the bit map is found to miss the
value; or, without a bit map, the octets of the raw integer are in the file, and `D` is not negative or the value
zero. -/
def Scaled (lib : OsterLib) (f : File) (p n : ℕ) : Prop :=
  (bitsPerValue f p = 0 ∧ (0 ≤ decimalFactor f p ∨ refValue lib f p = 0)) ∨
  (bitsPerValue f p ≠ 0 ∧ hasBms f p = true ∧ n ≤ 2 ^ 31 ∧ n % 8 = 0 ∧ off3 f p + (n - 1) < f.length ∧
    Octets.octet f (off3 f p + (n - 1)) &&& 128 = 0) ∨
  (bitsPerValue f p ≠ 0 ∧ hasBms f p = false ∧
    (bitsPerValue f p ≤ 30 ∧ n ≤ 2 ^ 30 ∧ rawStart f p n + (bitsPerValue f p + 7) / 8 ≤ f.length) ∧
    (0 ≤ decimalFactor f p ∨ unscaled lib f p (Octets.field f (8 * rawStart f p n) (bitsPerValue f p)) = 0))

/-- **The decoded value is `(R + X * 2 ^ E) * 10 ^ (-D)`** exactly when the message is `Scaled` at it. -/
theorem scalingLaw_iff {lib : OsterLib} (hl : lib.Documented) (hw : WellFormed f p) (hs : SimplePacked f p)
    (hn : 1 ≤ n) : ScalingLaw lib f p n ↔ Scaled lib f p n := by
  rw [scalingLaw_rawInteger hw hs hl, rawInteger, Scaled]
  by_cases hnb : bitsPerValue f p = 0
  · have hzero : unscaled lib f p 0 = refValue lib f p := by simp [unscaled]
    simp [hnb, hzero]
  · rw [if_neg hnb]
    cases hb : hasBms f p with
    | true =>
      rw [if_pos rfl]
      simp only [rawValueBitmap_eq_ok hb hn]
      simp [hnb]
    | false =>
      rw [if_neg (by decide)]
      have hsome : ∀ r, (some <$> (message f p).rawValue f (bitsPerValue f p) n) = .ok r ↔
          ∃ x, (message f p).rawValue f (bitsPerValue f p) n = .ok x ∧ r = some x := by
        intro r
        cases (message f p).rawValue f (bitsPerValue f p) n <;> simp [Functor.map, Except.map, eq_comm]
      simp only [hsome, rawValue_eq_ok hnb hn]
      constructor
      · rintro ⟨r, ⟨x, ⟨hin, rfl⟩, rfl⟩, hr⟩
        exact .inr (.inr ⟨hnb, trivial, hin, hr _ rfl⟩)
      · rintro (⟨h, -⟩ | ⟨-, h, -⟩ | ⟨-, -, hin, hr⟩)
        · exact absurd h hnb
        · cases h
        · refine ⟨_, ⟨_, ⟨hin, rfl⟩, rfl⟩, fun x hx => ?_⟩
          cases hx
          exact hr

end Raw

/-! ## A negative decimal scale factor -/

/-- A constant field whose decimal scale factor is -1 and whose reference value is 1: the value is 10. -/
def tens : File :=
  assemble [lengthPrefixed (List.replicate 23 0 ++ [128, 1]),
    lengthPrefixed [0, 0, 0, 65, 16, 0, 0, 0]]

/-- The theorem at the first value. -/
theorem scalingLaw_iff_tens : ScalingLaw .reference tens 0 (1 : ℕ) ↔ Scaled .reference tens 0 1 :=
  scalingLaw_iff OsterLib.reference_documented (by decide) (by decide) (by decide)

/-- The field is decoded as `10 ^ (-65535)`. -/
theorem tens_not_tens :
    (WellFormed tens 0 ∧ SimplePacked tens 0) ∧ decimalFactor tens 0 = -1 ∧ refValue .reference tens 0 = 1 ∧
      (message tens 0).extractValue .reference tens (1 : ℕ) = .ok (10 ^ (-65535 : ℤ)) ∧
      lawValue .reference tens 0 0 = 10 ∧ ¬ ScalingLaw .reference tens 0 (1 : ℕ) := by
  have hw : WellFormed tens 0 := by decide
  have hs : SimplePacked tens 0 := by decide
  have hD : decimalFactor tens 0 = -1 := by decide
  have hR : refValue .reference tens 0 = 1 := by with_unfolding_all decide
  have hnb : bitsPerValue tens 0 = 0 := by decide
  have hv : (message tens 0).extractValue .reference tens (1 : ℕ) = .ok (10 ^ (-65535 : ℤ)) := by
    rw [extractValue_message hw hs, if_pos hnb, refVal, hR, one_mul,
      show (decimalScale .reference tens 0 : ℤ) = 65535 by decide]
    rfl
  have hlaw : lawValue .reference tens 0 0 = 10 := by
    rw [lawValue, unscaled, hR, hD]
    norm_num
  refine ⟨⟨hw, hs⟩, hD, hR, hv, hlaw, ?_⟩
  rw [scalingLaw_rawInteger hw hs OsterLib.reference_documented, rawInteger, if_pos hnb]
  rintro ⟨r, hr, hall⟩
  cases hr
  rcases hall 0 rfl with h | h
  · rw [hD] at h
    exact absurd h (by decide)
  · rw [unscaled, hR] at h
    norm_num at h

end Message

end Mashroom
