import Mathlib.Tactic.Ring
import Mashroom.Grib1.Decode

/-!
# Grib1.Values — what the decoders compute

For a well-formed simple-packed message the values are `refVal + scale * x`, with `x` a field of bits of
section 4.  The section on the single value shows which bits `extractValue` takes for value `n`, and for which
messages they are the right ones (`extractValue_plain_iff`).
-/

namespace Mashroom

open Layout

/-! ## The cursor reads fields -/

namespace BitCursor

variable {f : File}

/-- The cursor that has taken `j` octets from `q` on. -/
def after (f : File) (q j : ℕ) : BitCursor := { tbits := Octets.be f q j, tBits := 8 * j, bits := (q + j : ℕ) }

theorem takeOctet_after {q j : ℕ} (hj : j < 4) (h : q + j < f.length) :
    takeOctet f (after f q j) = .ok (after f q (j + 1)) := by
  have hlt : Octets.be f q (j + 1) < 2 ^ 32 :=
    lt_of_lt_of_le (Octets.be_lt f q (j + 1)) (Nat.pow_le_pow_right (by decide) (by omega))
  rw [takeOctet, after, octetAt_natCast, octet_ok h, ok_bind]
  rw [show Octets.be f q j * 256 + Octets.octet f (q + j) = Octets.be f q (j + 1) from rfl, Nat.mod_eq_of_lt hlt]
  simp [after, Nat.mul_add, Int.add_assoc]

theorem takeTwo_after {q : ℕ} (h : q + 2 ≤ f.length) : takeTwo f (after f q 0) = .ok (after f q 2) := by
  have hor : Octets.octet f q <<< 8 ||| Octets.octet f (q + 1) = Octets.be f q 2 := by
    rw [← Nat.shiftLeft_add_eq_or_of_lt (Octets.octet_lt f (q + 1)), Nat.shiftLeft_eq]
    simp [Octets.be]
  rw [takeTwo, after, octetAt_natCast, octet_ok (by omega), ok_bind,
    show ((q + 0 : ℕ) : ℤ) + 1 = (q + 1 : ℕ) by simp, octetAt_natCast, octet_ok (by omega), ok_bind]
  simp [after, Octets.be, hor]

theorem takeTwo_outside {q : ℕ} (h : f.length < q + 2) : takeTwo f (after f q 0) = .error .outside := by
  rw [takeTwo, after, octetAt_natCast, show ((q + 0 : ℕ) : ℤ) + 1 = (q + 1 : ℕ) by simp]
  by_cases hq : q < f.length
  · rw [octet_ok (by omega), ok_bind, octetAt_natCast, octet_outside (by omega), error_bind]
  · rw [octet_outside (by omega), error_bind]

/-- Filling the cursor takes the octets that hold `nBit` bits. -/
theorem fill_after {q nBit : ℕ} (hn : nBit ≤ 32) (h : q + (nBit + 7) / 8 ≤ f.length) :
    ∀ (fuel j : ℕ), j ≤ (nBit + 7) / 8 → (nBit + 7) / 8 ≤ j + fuel →
      fill f nBit fuel (after f q j) = .ok (after f q ((nBit + 7) / 8))
  | 0, j, hj, hf => by
    rw [show j = (nBit + 7) / 8 by omega]
    rfl
  | fuel + 1, j, hj, hf => by
    rw [fill]
    split
    · rename_i hlt
      have hlt : 8 * j < nBit := hlt
      rw [takeOctet_after (by omega) (by omega), ok_bind]
      exact fill_after hn h fuel (j + 1) (by omega) (by omega)
    · rename_i hge
      have hge : ¬ 8 * j < nBit := hge
      rw [show j = (nBit + 7) / 8 by omega]

/-- Where an octet is missing, filling the cursor reads outside the file. -/
theorem fill_outside {q nBit : ℕ} (hn : nBit ≤ 32) (h : f.length < q + (nBit + 7) / 8) :
    ∀ (fuel j : ℕ), j < (nBit + 7) / 8 → (nBit + 7) / 8 ≤ j + fuel →
      fill f nBit fuel (after f q j) = .error .outside
  | 0, j, hj, hf => absurd hj (by omega)
  | fuel + 1, j, hj, hf => by
    have hlt : (after f q j).tBits < nBit := show 8 * j < nBit by omega
    rw [fill, if_pos hlt]
    by_cases he : q + j < f.length
    · rw [takeOctet_after (by omega) he, ok_bind]
      exact fill_outside hn h fuel (j + 1) (by omega) (by omega)
    · rw [takeOctet, after, octetAt_natCast, octet_outside (by omega), error_bind, error_bind]

/-- The first `nBit` bits of the octets taken. -/
theorem use_after (f : File) (q : ℕ) {nBit k : ℕ} (h : nBit ≤ 8 * k) :
    ∃ c, use nBit (some (2 ^ nBit - 1)) (after f q k) = .ok (Octets.field f (8 * q) nBit, c) := by
  refine ⟨{ after f q k with tBits := 8 * k - nBit }, ?_⟩
  show Except.ok (Octets.be f q k >>> (8 * k - nBit) &&& (2 ^ nBit - 1), _) = _
  rw [Octets.be_shift f q h, Octets.field_and_mask]
  rfl

end BitCursor

/-! ## The numbers of a message -/

namespace Layout

variable (lib : OsterLib) (f : File) (p : ℕ)

/-- The decimal scale factor as the decoder takes it. -/
def decimalScale : ℕ := toUnsigned 16 (lib.int2 (Octets.octet f (p + 34)) (Octets.octet f (p + 35)))

/-- The binary scale factor. -/
def binaryScale : ℤ := toSigned 16 (lib.int2 (Octets.octet f (off4 f p + 4)) (Octets.octet f (off4 f p + 5)))

/-- The reference value. -/
def refValue : ℚ :=
  lib.ibm2flt (Octets.octet f (off4 f p + 6)) (Octets.octet f (off4 f p + 7)) (Octets.octet f (off4 f p + 8))
    (Octets.octet f (off4 f p + 9))

/-- The decoded value of the packed integer `0`. -/
def refVal : ℚ := refValue lib f p * lib.intPower 10 (-decimalScale lib f p)

/-- The difference between the decoded values of successive packed integers. -/
def scale : ℚ := lib.intPower 10 (-decimalScale lib f p) * lib.intPower 2 (binaryScale lib f p)

/-- The decoded value of a packed integer. -/
def decoded (x : ℕ) : ℚ := refVal lib f p + scale lib f p * x

/-- The packed integer number `n`, from 1: the big-endian field in bits `(n - 1) * nb` to `n * nb` of the data,
which start at octet 12 of section 4. -/
def packed (n : ℕ) : ℕ :=
  Octets.field f (8 * (off4 f p + 11) + (n - 1) * bitsPerValue f p) (bitsPerValue f p)

theorem scale_ne_zero {lib : OsterLib} (h : lib.Documented) : scale lib f p ≠ 0 :=
  mul_ne_zero (h.intPower_ne_zero (by norm_num) _) (h.intPower_ne_zero (by norm_num) _)

theorem decoded_injective {lib : OsterLib} (h : lib.Documented) {x y : ℕ} :
    decoded lib f p x = decoded lib f p y ↔ x = y := by
  simp [decoded, scale_ne_zero f p h]

end Layout

/-! ## The single value -/

namespace Message

section Parts

variable {lib : OsterLib} {f : File} {p : ℕ} (hw : WellFormed f p)

include hw

theorem decimalScaleFactor_message :
    (message f p).section1.decimalScaleFactor lib f = .ok (decimalScale lib f p) := by
  have h1 := hw.off1_le
  have h4 := hw.end_le
  have h2 : off2 f p + len2 f p = off3 f p := rfl
  have h3 : off3 f p + len3 f p = off4 f p := rfl
  simp only [message, ProductDefinitionSection.decimalScaleFactor, int2At]
  rw [octet_ok (by omega), octet_ok (by omega)]
  rfl

theorem scaleFactor_message : (message f p).section4.scaleFactor lib f = .ok (binaryScale lib f p) := by
  have h := hw.bds
  have h4 := hw.end_le
  simp only [message, BinaryDataSection.scaleFactor, int2At]
  rw [octet_ok (by omega), octet_ok (by omega)]
  rfl

theorem refValue_message : (message f p).section4.refValue lib f = .ok (refValue lib f p) := by
  have h := hw.bds
  have h4 := hw.end_le
  simp only [message, BinaryDataSection.refValue, ibmAt]
  rw [octet_ok (by omega), octet_ok (by omega), octet_ok (by omega), octet_ok (by omega)]
  rfl

theorem bitPerValue_message : (message f p).section4.bitPerValue f = .ok (bitsPerValue f p) := by
  have h := hw.bds
  have h4 := hw.end_le
  exact octet_ok (by simp only [message]; omega)

theorem section1Flags_message :
    (message f p).section1.section1Flags f = .ok { sec2Inc := hasGds f p, sec3Inc := hasBms f p } := by
  have h := hw.readable.flags
  simp only [message, ProductDefinitionSection.section1Flags]
  rw [octet_ok (by omega)]
  rfl

theorem getDataFlag_message (hs : SimplePacked f p) :
    (message f p).section4.getDataFlag f = .ok { sphericalHarmCoefs := false, complexPack := false } := by
  have h := hw.bds
  have h4 := hw.end_le
  have hf := hw.flags
  obtain ⟨h128, h64⟩ := hs
  simp only [bdsFlags] at hf h128 h64
  simp only [message, BinaryDataSection.getDataFlag]
  rw [octet_ok (by omega), ok_bind, h128, h64]
  by_cases h16 : Octets.octet f (off4 f p + 3) &&& 16 = 0
  · simp [h16]
  · rw [if_pos h16, octet_ok (by have := hf h16; omega)]
    rfl

end Parts

section Value

variable {lib : OsterLib} {f : File} {p : ℕ} (hw : WellFormed f p) (hs : SimplePacked f p)

include hw hs

/-- `extractValue` on a simple-packed message, up to the raw integer. -/
theorem extractValue_message (n : ℤ) :
    (message f p).extractValue lib f n =
      if bitsPerValue f p = 0 then .ok (refVal lib f p)
      else if hasBms f p then
        (fun r => r.elim lib.undefined (decoded lib f p)) <$> (message f p).rawValueBitmap f (bitsPerValue f p) n
      else decoded lib f p <$> (message f p).rawValue f (bitsPerValue f p) n := by
  simp only [extractValue, decimalScaleFactor_message hw, scaleFactor_message hw, bitPerValue_message hw,
    refValue_message hw, getDataFlag_message hw hs, section1Flags_message hw, ok_bind, pure_eq_ok,
    Bool.false_eq_true, or_self, if_false]
  split
  · rfl
  · split
    · cases (message f p).rawValueBitmap f (bitsPerValue f p) n with
      | error e => rfl
      | ok r => cases r <;> rfl
    · cases (message f p).rawValue f (bitsPerValue f p) n <;> rfl

end Value

/-- Where `extractValue` takes the bits of value `n` from. -/
def rawStart (f : File) (p n : ℕ) : ℕ := off4 f p + 11 + 2 * (n - 1)

/-- The raw integer of value `n` is the field at `rawStart`, if its octets are in the file. -/
theorem rawValue_message {f : File} {p nBit n : ℕ} (h1 : 1 ≤ nBit) (hb : nBit ≤ 30) (hn : 1 ≤ n)
    (hmax : n ≤ 2 ^ 30) :
    (message f p).rawValue f nBit n = if rawStart f p n + (nBit + 7) / 8 ≤ f.length then
        .ok (Octets.field f (8 * rawStart f p n) nBit)
      else .error .outside := by
  have hc1 : cInt ((n : ℤ) - 1) = .ok ((n : ℤ) - 1) := if_pos (by omega)
  have hc2 : cInt (2 * ((n : ℤ) - 1)) = .ok (2 * ((n : ℤ) - 1)) := if_pos (by omega)
  have hstart : ((message f p).section4.buf : ℤ) + 11 + 2 * ((n : ℤ) - 1) = (rawStart f p n + 0 : ℕ) := by
    simp only [message, rawStart]
    omega
  have hcur : ({ tbits := 0, tBits := 0, bits := (rawStart f p n + 0 : ℕ) } : BitCursor) =
    BitCursor.after f (rawStart f p n) 0 := rfl
  simp only [rawValue, fillMask, if_pos (show nBit < 31 by omega), ok_bind, hc1, hc2, hstart, hcur]
  generalize rawStart f p n = q
  obtain ⟨c, huse⟩ := BitCursor.use_after f q (show nBit ≤ 8 * ((nBit + 7) / 8) by omega)
  by_cases hin : q + (nBit + 7) / 8 ≤ f.length
  · rw [if_pos hin]
    by_cases h8 : 8 < nBit
    · rw [if_pos h8, BitCursor.takeTwo_after (by omega), ok_bind,
        BitCursor.fill_after (by omega) hin nBit 2 (by omega) (by omega), ok_bind, huse]
      rfl
    · rw [if_neg h8, BitCursor.fill_after (by omega) hin nBit 0 (by omega) (by omega), ok_bind, huse]
      rfl
  · rw [if_neg hin]
    by_cases h8 : 8 < nBit
    · rw [if_pos h8]
      by_cases h2 : q + 2 ≤ f.length
      · rw [BitCursor.takeTwo_after h2, ok_bind,
          BitCursor.fill_outside (by omega) (by omega) nBit 2 (by omega) (by omega), error_bind]
      · rw [BitCursor.takeTwo_outside (by omega), error_bind]
    · rw [if_neg h8, BitCursor.fill_outside (by omega) (by omega) nBit 0 (by omega) (by omega), error_bind]

section Plain

variable {lib : OsterLib} {f : File} {p n : ℕ}

/-- The packed integers are inside section 4. -/
theorem packed_inside (hmax : n ≤ numPacked f p) : n * bitsPerValue f p ≤ (len4 f p - 11) * 8 :=
  calc n * bitsPerValue f p
    _ ≤ numPacked f p * bitsPerValue f p := Nat.mul_le_mul_right _ hmax
    _ ≤ (len4 f p - 11) * 8 - (bdsFlags f p &&& 15) := Nat.div_mul_le_self _ _
    _ ≤ (len4 f p - 11) * 8 := Nat.sub_le _ _

theorem numPacked_le : numPacked f p ≤ 2 ^ 27 := by
  have h : len4 f p < 2 ^ 24 := Octets.be_lt f _ 3
  have := Nat.div_le_self ((len4 f p - 11) * 8 - (bdsFlags f p &&& 15)) (bitsPerValue f p)
  unfold numPacked
  omega

/-- The first value, and every value of 16 bits, is looked for where it is. -/
theorem rawStart_right (hw : WellFormed f p) (hn : 1 ≤ n) (hmax : n ≤ numPacked f p)
    (h : n = 1 ∨ bitsPerValue f p = 16) : rawStart f p n + (bitsPerValue f p + 7) / 8 ≤ f.length ∧
      Octets.field f (8 * rawStart f p n) (bitsPerValue f p) = packed f p n := by
  have hin := packed_inside hmax
  have hend := hw.end_le
  have hbds := hw.bds
  have hoff : 8 * rawStart f p n = 8 * (off4 f p + 11) + (n - 1) * bitsPerValue f p := by
    unfold rawStart
    rcases h with rfl | h
    · omega
    · rw [h]
      omega
  have hsucc : (n - 1) * bitsPerValue f p + bitsPerValue f p = n * bitsPerValue f p := by
    rw [← Nat.succ_mul, Nat.succ_eq_add_one, Nat.sub_add_cancel hn]
  refine ⟨by omega, ?_⟩
  rw [packed, hoff]

/-- **The raw integer of value `n` is the packed integer number `n`**, without a bit map, exactly when the value
is the first or takes 16 bits, or when the octets taken instead are in the file and happen to start with the same
bits. -/
theorem extractValue_plain_iff (hl : lib.Documented) (hw : WellFormed f p) (hs : SimplePacked f p)
    (hb : hasBms f p = false) (h1 : 1 ≤ bitsPerValue f p) (h25 : bitsPerValue f p ≤ 25) (hn : 1 ≤ n)
    (hmax : n ≤ numPacked f p) :
    (message f p).extractValue lib f n = .ok (decoded lib f p (packed f p n)) ↔
      n = 1 ∨ bitsPerValue f p = 16 ∨ (rawStart f p n + (bitsPerValue f p + 7) / 8 ≤ f.length ∧
        Octets.field f (8 * rawStart f p n) (bitsPerValue f p) = packed f p n) := by
  have hbig := numPacked_le (f := f) (p := p)
  rw [extractValue_message hw hs, if_neg (by omega), hb, if_neg (by decide),
    rawValue_message h1 (by omega) hn (by omega)]
  have hright := rawStart_right hw hn hmax
  split
  · rename_i hlen
    show Except.ok _ = _ ↔ _
    rw [Except.ok.injEq, decoded_injective f p hl]
    constructor
    · exact fun he => .inr (.inr ⟨hlen, he⟩)
    · rintro (h | h | h)
      · exact (hright (.inl h)).2
      · exact (hright (.inr h)).2
      · exact h.2
  · rename_i hlen
    constructor
    · intro he
      cases he
    · rintro (h | h | h)
      · exact absurd (hright (.inl h)).1 hlen
      · exact absurd (hright (.inr h)).1 hlen
      · exact absurd h.1 hlen

/-- A message of four 8-bit values 1 to 4, without a bit map. -/
def octetValues : File := assemble [flagsSection 0, octetsSection [1, 2, 3, 4]]

/-- The first of the four values is decoded right. -/
theorem extractValue_plain_iff_first :
    (message octetValues 0).extractValue .reference octetValues (1 : ℕ) =
        .ok (decoded .reference octetValues 0 (packed octetValues 0 1)) ↔
      1 = 1 ∨ bitsPerValue octetValues 0 = 16 ∨
        (rawStart octetValues 0 1 + (bitsPerValue octetValues 0 + 7) / 8 ≤ octetValues.length ∧
          Octets.field octetValues (8 * rawStart octetValues 0 1) (bitsPerValue octetValues 0) =
            packed octetValues 0 1) :=
  extractValue_plain_iff OsterLib.reference_documented (by decide) (by decide)
    (by decide) (by decide) (by decide) (by decide) (by decide)

/-- For the second of the four values, `2`, the third is decoded. -/
theorem second_octet_value_wrong :
    (WellFormed octetValues 0 ∧ SimplePacked octetValues 0 ∧ hasBms octetValues 0 = false ∧
        2 ≤ numPacked octetValues 0) ∧
      packed octetValues 0 2 = 2 ∧
      (message octetValues 0).extractValue .reference octetValues 2 = .ok (decoded .reference octetValues 0 3) ∧
      (message octetValues 0).extractValue .reference octetValues 2 ≠
        .ok (decoded .reference octetValues 0 (packed octetValues 0 2)) := by
  have h2 : packed octetValues 0 2 = 2 := by decide
  have h3 : (message octetValues 0).extractValue .reference octetValues (2 : ℕ) =
      .ok (decoded .reference octetValues 0 3) := by
    rw [extractValue_message (by decide) (by decide), if_neg (by decide),
      if_neg (by decide), show (message octetValues 0).rawValue octetValues (bitsPerValue octetValues 0) (2 : ℕ)
        = .ok 3 by decide]
    rfl
  refine ⟨by decide, h2, h3, ?_⟩
  intro h
  have h := h3.symm.trans h
  rw [Except.ok.injEq, decoded_injective _ _ OsterLib.reference_documented, h2] at h
  exact absurd h (by decide)

end Plain

/-! ## All values -/

section All

variable {lib : OsterLib} {f : File} {p : ℕ}

/-- A vector with no elements takes no value, so the loop without a bit map cannot make a turn. -/
theorem plainTurn_empty (nBit jmask : ℕ) (R : ℚ) (e : ℤ) (i : ℕ) (c : BitCursor) (s' : PlainLocals) :
    plainTurn f nBit jmask R e i { cursor := c, result := [] } ≠ .ok s' := by
  intro h
  unfold plainTurn at h
  split at h <;>
  · simp only [bind_eq_ok] at h
    obtain ⟨c1, -, c2, -, ⟨raw, c3⟩, -, result, hstore, -⟩ := h
    cases hstore

theorem extractAll_message (hw : WellFormed f p) (hs : SimplePacked f p) :
    (message f p).extractAll lib f =
      if bitsPerValue f p = 0 then .ok [refValue lib f p]
      else if hasBms f p then do
        let bms ← deref (message f p).section3.buf
        let n ← (message f p).section2.nxny f
        let s ← forLoop (bitmapTurn lib f (bitsPerValue f p) (refValue lib f p) (binaryScale lib f p)) n 0 {
          bitmap := bms
          bbits := none
          cursor := { tbits := 0, tBits := 0, bits := off4 f p }
          result := List.replicate n 0 }
        return s.result
      else do
        let jmask ← fillMask (bitsPerValue f p)
        let n ← (message f p).section2.nxny f
        let s ← forLoop (plainTurn f (bitsPerValue f p) jmask (refValue lib f p) (binaryScale lib f p)) n 0 {
          cursor := { tbits := 0, tBits := 0, bits := off4 f p }
          result := [] }
        return s.result := by
  simp only [extractAll, scaleFactor_message hw, bitPerValue_message hw, refValue_message hw,
    getDataFlag_message hw hs, section1Flags_message hw, ok_bind, pure_eq_ok, Bool.false_eq_true, or_self, if_false]
  rfl

/-- Without a bit map and with packed bits, `extractAll` never has a value. -/
theorem extractAll_plain_nil (hw : WellFormed f p) (hs : SimplePacked f p) (hnb : bitsPerValue f p ≠ 0)
    (hb : hasBms f p = false) {vs : List ℚ} (h : (message f p).extractAll lib f = .ok vs) : vs = [] := by
  rw [extractAll_message hw hs, if_neg hnb, hb, if_neg (by decide)] at h
  simp only [bind_eq_ok] at h
  obtain ⟨jmask, -, n, -, s, hloop, hvs⟩ := h
  cases hvs
  cases n with
  | zero =>
    cases hloop
    rfl
  | succ n =>
    obtain ⟨s', hturn, -⟩ := bind_eq_ok.mp hloop
    exact absurd hturn (plainTurn_empty _ _ _ _ _ _ _)

/-! ### With a bit map -/

/-- An uninitialised mask gives no value. -/
theorem fill_use_none (nBit fuel : ℕ) (c : BitCursor) {α : Type} (g : ℕ × BitCursor → Except Fault α) (a : α) :
    (BitCursor.fill f nBit fuel c >>= fun c => BitCursor.use nBit none c >>= g) ≠ .ok a := by
  intro h
  obtain ⟨c', -, h⟩ := bind_eq_ok.mp h
  cases h

/-- With a bit map the single-value decoder has a result in one case: the number is a multiple of 8 and the octet
at `n - 1` from the start of section 3 has its first bit clear.  The result is then the undefined value. -/
theorem rawValueBitmap_message (hb : hasBms f p = true) {nBit n : ℕ} (hn : 1 ≤ n) (hmax : n ≤ 2 ^ 31)
    {r : Option ℕ} : (message f p).rawValueBitmap f nBit n = .ok r ↔
      r = none ∧ n % 8 = 0 ∧ off3 f p + (n - 1) < f.length ∧
        Octets.octet f (off3 f p + (n - 1)) &&& 128 = 0 := by
  have hc : cInt ((n : ℤ) - 1) = .ok ((n : ℤ) - 1) := if_pos (by omega)
  have hd : deref (message f p).section3.buf = .ok (off3 f p) := by simp [message, hb]
  have hp : (off3 f p : ℤ) + ((n : ℤ) - 1) = (off3 f p + (n - 1) : ℕ) := by omega
  have hm : ((n : ℤ) % 8).toNat = n % 8 := by omega
  simp only [rawValueBitmap, hd, hc, hp, hm, ok_bind, octetAt_natCast]
  by_cases h8 : n % 8 = 0
  · rw [if_pos h8, h8]
    by_cases hin : off3 f p + (n - 1) < f.length
    · rw [octet_ok hin]
      show (if Octets.octet f (off3 f p + (n - 1)) &&& 128 = 0 then _ else _) = _ ↔ _
      split
      · rename_i h0
        simp [h0, hin, eq_comm]
      · rename_i h0
        constructor
        · exact fun h => absurd h (fill_use_none _ _ _ _ _)
        · exact fun h => absurd h.2.2.2 h0
    · rw [octet_outside (by omega)]
      simp [hin]
  · rw [if_neg h8]
    simp [useLocal, h8]

/-- How far the map pointer of the loop has moved before turn `i`. -/
def mapPointer : ℕ → ℤ
  | 0 => 0
  | i + 1 => mapPointer i + (i - 1) + if i % 8 = 0 then 1 else 0

/-- Where, from the start of section 3, the loop takes the octet it tests for points `8 * k` to `8 * k + 7`. -/
def loadOffset (k : ℕ) : ℤ := 32 * k ^ 2 - 3 * k - 1

theorem mapPointer_mul_eight (k : ℕ) : mapPointer (8 * k) + (8 * k - 1) = loadOffset k := by
  suffices h : mapPointer (8 * k) = 32 * k ^ 2 - 11 * k by rw [h, loadOffset]; ring
  induction k with
  | zero => rfl
  | succ k ih =>
    have hmod : ∀ j, j < 8 → (8 * k + j) % 8 = j := fun j hj => by omega
    rw [show 8 * (k + 1) = 8 * k + 7 + 1 by ring]
    simp only [mapPointer, hmod 7 (by omega), hmod 6 (by omega), hmod 5 (by omega), hmod 4 (by omega),
      hmod 3 (by omega), hmod 2 (by omega), hmod 1 (by omega), ih, show 8 * k % 8 = 0 by omega]
    push_cast
    ring

/-- The test of point `j` in the loop reads an octet of the file and finds the bit clear. -/
def TestedClear (f : File) (p j : ℕ) : Prop :=
  ∃ o, octetAt f (off3 f p + loadOffset (j / 8)) = .ok o ∧ o &&& mapMasks.getD (j % 8) 0 = 0

/-- The locals of the loop before turn `i` of `n`, when every test so far found its bit clear. -/
def clearLocals (lib : OsterLib) (f : File) (p n i : ℕ) : BitmapLocals where
  bitmap := off3 f p + mapPointer i
  bbits := if i = 0 then none else (octetAt f (off3 f p + loadOffset ((i - 1) / 8))).toOption
  cursor := { tbits := 0, tBits := 0, bits := off4 f p }
  result := List.replicate i lib.undefined ++ List.replicate (n - i) 0

theorem store_clear {n i : ℕ} (hi : i < n) (U : ℚ) :
    store (List.replicate i U ++ List.replicate (n - i) 0) i U =
      .ok (List.replicate (i + 1) U ++ List.replicate (n - (i + 1)) 0) := by
  have hlen : i < (List.replicate i U ++ List.replicate (n - i) 0).length := by
    rw [List.length_append, List.length_replicate, List.length_replicate]
    omega
  rw [store, if_pos hlen, List.set_append_right _ _ (by simp), List.length_replicate, Nat.sub_self,
    show n - i = n - (i + 1) + 1 by omega, List.replicate_succ, List.set_cons_zero, List.replicate_succ',
    List.append_assoc]
  rfl

/-- After the map octet is at hand, a turn goes on exactly when the bit is clear. -/
theorem bitmapTest_clear {nBit i : ℕ} {R : ℚ} {e : ℤ} {s s' : BitmapLocals} {result : List ℚ}
    (hstore : store s.result i lib.undefined = .ok result) :
    bitmapTest lib f nBit R e i s = .ok s' ↔
      ∃ o, s.bbits = some o ∧ o &&& mapMasks.getD (i % 8) 0 = 0 ∧ s' = { s with result } := by
  unfold bitmapTest
  cases s.bbits with
  | none => simp [useLocal]
  | some o =>
    rw [useLocal, ok_bind]
    by_cases h0 : o &&& mapMasks.getD (i % 8) 0 = 0
    · rw [if_pos h0, hstore, ok_bind]
      constructor
      · intro h
        cases h
        exact ⟨o, rfl, h0, rfl⟩
      · rintro ⟨-, -, -, rfl⟩
        rfl
    · rw [if_neg h0]
      constructor
      · exact fun h => absurd h (fill_use_none _ _ _ _ _)
      · rintro ⟨o', ho, h0', -⟩
        cases ho
        exact absurd h0' h0

/-- One turn goes on exactly when its test finds the bit clear. -/
theorem bitmapTurn_clear {nBit n i : ℕ} {R : ℚ} {e : ℤ} (hi : i < n) {s' : BitmapLocals} :
    bitmapTurn lib f nBit R e i (clearLocals lib f p n i) = .ok s' ↔
      TestedClear f p i ∧ s' = clearLocals lib f p n (i + 1) := by
  have hstore : store (clearLocals lib f p n i).result i lib.undefined =
    .ok (clearLocals lib f p n (i + 1)).result := store_clear hi lib.undefined
  unfold bitmapTurn bitmapLoad
  by_cases h8 : i % 8 = 0
  · -- the turn loads an octet
    obtain ⟨k, rfl⟩ : ∃ k, i = 8 * k := ⟨i / 8, by omega⟩
    have haddr : (clearLocals lib f p n (8 * k)).bitmap + ((8 * k : ℕ) - 1) = off3 f p + loadOffset k := by
      rw [← mapPointer_mul_eight, clearLocals]
      push_cast
      ring
    rw [if_pos h8, haddr, TestedClear, show 8 * k / 8 = k by omega]
    cases ho : octetAt f (off3 f p + loadOffset k) with
    | error e => simp
    | ok o =>
      have hnext : clearLocals lib f p n (8 * k + 1) =
          { clearLocals lib f p n (8 * k) with
            bitmap := off3 f p + loadOffset k + 1
            bbits := some o
            result := (clearLocals lib f p n (8 * k + 1)).result } := by
        rw [← haddr]
        simp only [clearLocals, mapPointer, if_pos h8, Nat.add_sub_cancel, if_neg (Nat.succ_ne_zero _),
          show 8 * k / 8 = k by omega, ho, BitmapLocals.mk.injEq, and_true, Except.toOption]
        ring
      rw [ok_bind, pure_eq_ok, ok_bind]
      refine (bitmapTest_clear (by exact hstore)).trans ?_
      rw [hnext]
      simp
  · -- the turn tests the octet loaded before
    have hpos : i ≠ 0 := by rintro rfl; exact h8 rfl
    have hdiv : (i - 1) / 8 = i / 8 := by omega
    have hnext : clearLocals lib f p n (i + 1) =
        { clearLocals lib f p n i with
          bitmap := (clearLocals lib f p n i).bitmap + (i - 1)
          result := (clearLocals lib f p n (i + 1)).result } := by
      simp only [clearLocals, mapPointer, if_neg h8, Nat.add_sub_cancel, if_neg (Nat.succ_ne_zero _), if_neg hpos,
        hdiv, BitmapLocals.mk.injEq, and_true]
      ring
    rw [if_neg h8, pure_eq_ok, ok_bind]
    refine (bitmapTest_clear (by exact hstore)).trans ?_
    rw [hnext, TestedClear]
    simp only [clearLocals, if_neg hpos, hdiv]
    cases octetAt f (off3 f p + loadOffset (i / 8)) <;> simp [Except.toOption]

/-- The loop ends exactly when every test finds the bit clear, with undefined values only. -/
theorem forLoop_clear {nBit n : ℕ} {R : ℚ} {e : ℤ} {s' : BitmapLocals} : ∀ k i, i + k = n →
    (forLoop (bitmapTurn lib f nBit R e) k i (clearLocals lib f p n i) = .ok s' ↔
      (∀ j, i ≤ j → j < n → TestedClear f p j) ∧ s' = clearLocals lib f p n n)
  | 0, i, h => by
    obtain rfl : i = n := h
    rw [forLoop, Except.ok.injEq, eq_comm]
    simp only [iff_and_self]
    exact fun _ j h1 h2 => absurd h1 (by omega)
  | k + 1, i, h => by
    rw [forLoop, bind_eq_ok]
    constructor
    · rintro ⟨s1, hturn, hloop⟩
      obtain ⟨hi, rfl⟩ := (bitmapTurn_clear (by omega)).mp hturn
      obtain ⟨hrest, rfl⟩ := (forLoop_clear k (i + 1) (by omega)).mp hloop
      refine ⟨?_, rfl⟩
      intro j h1 h2
      rcases Nat.eq_or_lt_of_le h1 with rfl | hlt
      · exact hi
      · exact hrest j hlt h2
    · rintro ⟨hall, rfl⟩
      exact ⟨_, (bitmapTurn_clear (by omega)).mpr ⟨hall i le_rfl (by omega), rfl⟩,
        (forLoop_clear k (i + 1) (by omega)).mpr ⟨fun j h1 h2 => hall j (by omega) h2, rfl⟩⟩

/-- With a bit map and packed bits, `extractAll` has a result only when every bit it tests is clear. -/
theorem extractAll_bitmap (hw : WellFormed f p) (hs : SimplePacked f p) (hnb : bitsPerValue f p ≠ 0)
    (hb : hasBms f p = true) {vs : List ℚ} : (message f p).extractAll lib f = .ok vs ↔
      ∃ n, (message f p).section2.nxny f = .ok n ∧ (∀ j < n, TestedClear f p j) ∧
        vs = List.replicate n lib.undefined := by
  have hd : deref (message f p).section3.buf = .ok (off3 f p) := by simp [message, hb]
  have hinit : ∀ n, BitmapLocals.mk (off3 f p) none { tbits := 0, tBits := 0, bits := off4 f p }
      (List.replicate n 0) = clearLocals lib f p n 0 := by
    intro n
    simp [clearLocals, mapPointer]
  have hlast : ∀ n, (clearLocals lib f p n n).result = List.replicate n lib.undefined := by
    intro n
    simp [clearLocals]
  rw [extractAll_message hw hs, if_neg hnb, hb, if_pos rfl, hd, ok_bind, bind_eq_ok]
  refine exists_congr fun n => and_congr_right fun _ => ?_
  rw [hinit n, bind_eq_ok]
  constructor
  · rintro ⟨s, hloop, hvs⟩
    obtain ⟨hall, rfl⟩ := (forLoop_clear n 0 (Nat.zero_add n)).mp hloop
    cases hvs
    exact ⟨fun j hj => hall j (Nat.zero_le j) hj, hlast n⟩
  · rintro ⟨hall, rfl⟩
    exact ⟨_, (forLoop_clear n 0 (Nat.zero_add n)).mpr ⟨fun j _ hj => hall j hj, rfl⟩, by rw [← hlast n]; rfl⟩

/-! ### The two decoders against each other -/

/-- `extractAll` has `N` values, and they are those of `extractValue` for `1` to `N`. -/
def Agrees (lib : OsterLib) (f : File) (m : Message) (N : ℕ) : Prop :=
  ∃ vs, m.extractAll lib f = .ok vs ∧ vs.length = N ∧
    ∀ n : ℕ, 1 ≤ n → n ≤ N → ∃ v, m.extractValue lib f n = .ok v ∧ vs[n - 1]? = some v

theorem refVal_eq_refValue_iff (hl : lib.Documented) :
    refVal lib f p = refValue lib f p ↔ refValue lib f p = 0 ∨ decimalScale lib f p = 0 := by
  have h10 : (10 : ℚ) ≠ 1 := by norm_num
  rw [refVal, hl.intPower_eq, mul_right_eq_self₀, zpow_eq_one_iff_right₀ (by norm_num) h10, neg_eq_zero,
    Int.natCast_eq_zero]
  exact or_comm

/-- **The two decoders agree** on a grid of `N ≥ 1` points exactly when no bits are packed, there is one point, and
the decimal scale does not change the reference value. -/
theorem extractAll_agrees_iff (hl : lib.Documented) (hw : WellFormed f p) (hs : SimplePacked f p) {N : ℕ}
    (hN : 1 ≤ N) : Agrees lib f (message f p) N ↔
      bitsPerValue f p = 0 ∧ N = 1 ∧ (refValue lib f p = 0 ∨ decimalScale lib f p = 0) := by
  rw [← refVal_eq_refValue_iff hl]
  by_cases hnb : bitsPerValue f p = 0
  · have hv : ∀ n : ℕ, (message f p).extractValue lib f n = .ok (refVal lib f p) := by
      intro n
      rw [extractValue_message hw hs, if_pos hnb]
    have ha : (message f p).extractAll lib f = .ok [refValue lib f p] := by
      rw [extractAll_message hw hs, if_pos hnb]
    constructor
    · rintro ⟨vs, hvs, rfl, hall⟩
      cases ha.symm.trans hvs
      obtain ⟨v, hv1, hv2⟩ := hall 1 le_rfl le_rfl
      cases (hv 1).symm.trans hv1
      exact ⟨hnb, rfl, by simpa using hv2.symm⟩
    · rintro ⟨-, rfl, heq⟩
      refine ⟨_, ha, rfl, fun n h1 h2 => ⟨_, hv n, ?_⟩⟩
      obtain rfl : n = 1 := by omega
      simp [heq]
  · refine iff_of_false ?_ (fun h => hnb h.1)
    rintro ⟨vs, hvs, rfl, hall⟩
    by_cases hb : hasBms f p = true
    · obtain ⟨v, hv, -⟩ := hall 1 le_rfl hN
      rw [extractValue_message hw hs, if_neg hnb, if_pos hb] at hv
      cases hr : (message f p).rawValueBitmap f (bitsPerValue f p) (1 : ℕ) with
      | error e => rw [hr] at hv; cases hv
      | ok r => exact absurd ((rawValueBitmap_message hb le_rfl (by decide)).mp hr).2.1 (by decide)
    · rw [extractAll_plain_nil hw hs hnb (by simpa using hb) hvs] at hN
      exact absurd hN (by decide)

/-- A message of four values on a regular grid. -/
def gridValues : File := assemble [flagsSection 128, latLonSection, octetsSection [1, 2, 3, 4]]

/-- The theorem at a message of four values. -/
theorem extractAll_agrees_iff_four : Agrees .reference gridValues (message gridValues 0) 4 ↔
    bitsPerValue gridValues 0 = 0 ∧ 4 = 1 ∧
      (refValue .reference gridValues 0 = 0 ∨ decimalScale .reference gridValues 0 = 0) :=
  extractAll_agrees_iff OsterLib.reference_documented (by decide) (by decide) (by decide)

/-- For a regular grid `extractAll` has no values at all. -/
theorem regular_grid_extractAll_nil :
    (WellFormed gridValues 0 ∧ SimplePacked gridValues 0) ∧
      (message gridValues 0).extractAll .reference gridValues = .ok [] ∧
      ¬ Agrees .reference gridValues (message gridValues 0) 4 := by
  have h : (message gridValues 0).extractAll .reference gridValues = .ok [] := by
    rw [extractAll_message (by decide) (by decide), if_neg (by decide),
      if_neg (by decide), show bitsPerValue gridValues 0 = 8 by decide,
      show (message gridValues 0).section2.nxny gridValues = .ok 0 by decide]
    rfl
  refine ⟨by decide, h, ?_⟩
  rintro ⟨vs, hvs, hlen, -⟩
  cases h.symm.trans hvs
  cases hlen

/-! ### The bit map -/

/-- The bits of the map: octet 7 of section 3 on, less the unused ones at its end. -/
def mapBits (f : File) (p : ℕ) : ℕ := 8 * (len3 f p - 6) - Octets.octet f (off3 f p + 3)

/-- Bit `i` of the map, from 1. -/
def mapBit (f : File) (p i : ℕ) : ℕ := Octets.bit f (8 * (off3 f p + 6) + (i - 1))

/-- The number of ones among bits 1 to `i` of the map. -/
def rank (f : File) (p : ℕ) : ℕ → ℕ
  | 0 => 0
  | i + 1 => rank f p i + mapBit f p (i + 1)

/-- What is decoded at point `i` is undefined exactly where the map has a zero, and elsewhere the value of the
packed integer whose number is the rank of the point. -/
def Obeys (lib : OsterLib) (f : File) (p i : ℕ) (r : Except Fault ℚ) : Prop :=
  (r = .ok lib.undefined ↔ mapBit f p i = 0) ∧
    (mapBit f p i = 1 → r = .ok (decoded lib f p (packed f p (rank f p i))))

/-- Element `i` of `extractAll`, from 1. -/
def allAt (lib : OsterLib) (f : File) (m : Message) (i : ℕ) : Except Fault ℚ := do
  let vs ← m.extractAll lib f
  match vs[i - 1]? with
  | some v => .ok v
  | none => .error .element

theorem Obeys.defined {i : ℕ} {r : Except Fault ℚ} (h : Obeys lib f p i r) : ∃ v, r = .ok v := by
  rcases Octets.bit_eq_zero_or_one f (8 * (off3 f p + 6) + (i - 1)) with h0 | h1
  · exact ⟨_, h.1.mpr h0⟩
  · exact ⟨_, h.2 h1⟩

/-- A result that can only be the undefined value obeys the map exactly where the map has a zero. -/
theorem obeys_undefined {i : ℕ} {r : Except Fault ℚ} (hr : ∀ v, r = .ok v → v = lib.undefined) :
    Obeys lib f p i r ↔ r = .ok lib.undefined ∧ mapBit f p i = 0 := by
  constructor
  · intro h
    obtain ⟨v, hv⟩ := h.defined
    obtain rfl := hr v hv
    exact ⟨hv, h.1.mp hv⟩
  · rintro ⟨hu, h0⟩
    exact ⟨⟨fun _ => h0, fun _ => hu⟩, fun h1 => by omega⟩

/-- With packed bits, `extractValue` is undefined at a point, or has no value. -/
theorem extractValue_bitmap (lib : OsterLib) (hw : WellFormed f p) (hs : SimplePacked f p) (hnb : bitsPerValue f p ≠ 0)
    (hb : hasBms f p = true) {i : ℕ} (hi : 1 ≤ i) (hmax : i ≤ 2 ^ 30) (v : ℚ) :
    (message f p).extractValue lib f i = .ok v ↔ v = lib.undefined ∧ i % 8 = 0 ∧
      off3 f p + (i - 1) < f.length ∧ Octets.octet f (off3 f p + (i - 1)) &&& 128 = 0 := by
  rw [extractValue_message hw hs, if_neg hnb, if_pos hb]
  have hraw : ∀ r, (message f p).rawValueBitmap f (bitsPerValue f p) i = .ok r ↔ r = none ∧ i % 8 = 0 ∧
      off3 f p + (i - 1) < f.length ∧ Octets.octet f (off3 f p + (i - 1)) &&& 128 = 0 :=
    fun r => rawValueBitmap_message hb hi (hmax.trans (by decide))
  cases hr : (message f p).rawValueBitmap f (bitsPerValue f p) i with
  | error e =>
    rw [hr] at hraw
    have := hraw none
    simp only [reduceCtorEq, true_and, false_iff] at this
    simp [this]
  | ok r =>
    rw [hr] at hraw
    obtain ⟨rfl, hcond⟩ := (hraw r).mp rfl
    simp [hcond, eq_comm]

theorem allAt_bitmap (lib : OsterLib) (hw : WellFormed f p) (hs : SimplePacked f p) (hnb : bitsPerValue f p ≠ 0)
    (hb : hasBms f p = true) {i : ℕ} (hi : 1 ≤ i) (v : ℚ) :
    allAt lib f (message f p) i = .ok v ↔ v = lib.undefined ∧
      ∃ n, (message f p).section2.nxny f = .ok n ∧ i ≤ n ∧ ∀ j < n, TestedClear f p j := by
  rw [allAt, bind_eq_ok]
  constructor
  · rintro ⟨vs, hvs, hv⟩
    obtain ⟨n, hn, hall, rfl⟩ := (extractAll_bitmap hw hs hnb hb).mp hvs
    by_cases hin : i - 1 < n
    · rw [List.getElem?_replicate, if_pos hin] at hv
      cases hv
      exact ⟨rfl, n, hn, by omega, hall⟩
    · rw [List.getElem?_replicate, if_neg hin] at hv
      cases hv
  · rintro ⟨rfl, n, hn, hin, hall⟩
    refine ⟨_, (extractAll_bitmap hw hs hnb hb).mpr ⟨n, hn, hall, rfl⟩, ?_⟩
    rw [List.getElem?_replicate, if_pos (by omega)]

/-- When no bits are packed both decoders have one value, the reference value, the first with the decimal scale. -/
theorem obeys_noBits (hw : WellFormed f p) (hs : SimplePacked f p) (hnb : bitsPerValue f p = 0) {i : ℕ} (hi : 1 ≤ i) :
    Obeys lib f p i ((message f p).extractValue lib f i) ∧ Obeys lib f p i (allAt lib f (message f p) i) ↔
      i = 1 ∧ refValue lib f p = refVal lib f p ∧ (refVal lib f p = lib.undefined ↔ mapBit f p 1 = 0) := by
  have hv : (message f p).extractValue lib f i = .ok (refVal lib f p) := by
    rw [extractValue_message hw hs, if_pos hnb]
  have ha : allAt lib f (message f p) i = if i = 1 then .ok (refValue lib f p) else .error .element := by
    rw [allAt, extractAll_message hw hs, if_pos hnb, ok_bind]
    by_cases h1 : i = 1
    · simp [h1]
    · simp [h1, show i - 1 ≠ 0 by omega]
  have hz : decoded lib f p (packed f p (rank f p i)) = refVal lib f p := by
    rw [decoded, packed, hnb]
    simp [Octets.field]
  have hobeys : ∀ v, Obeys lib f p i (.ok v) ↔
      (v = lib.undefined ↔ mapBit f p i = 0) ∧ (mapBit f p i = 1 → v = refVal lib f p) := by
    intro v
    rw [Obeys, hz, Except.ok.injEq, Except.ok.injEq]
  rw [hv, ha]
  by_cases h1 : i = 1
  · subst h1
    rw [if_pos rfl, hobeys, hobeys]
    simp only [true_and, implies_true, and_true]
    rcases Octets.bit_eq_zero_or_one f (8 * (off3 f p + 6) + (1 - 1)) with h0 | h0
    · -- a zero: both values are undefined, hence equal
      have h0 : mapBit f p 1 = 0 := h0
      simp only [h0, iff_true, zero_ne_one, false_implies, and_true]
      constructor
      · rintro ⟨hu, hu'⟩
        exact ⟨hu'.trans hu.symm, hu⟩
      · rintro ⟨heq, hu⟩
        exact ⟨hu, heq.trans hu⟩
    · -- a one: both are the decoded value
      have h0 : mapBit f p 1 = 1 := h0
      simp only [h0, one_ne_zero, iff_false, true_implies]
      constructor
      · rintro ⟨hu, -, heq⟩
        exact ⟨heq, hu⟩
      · rintro ⟨heq, hu⟩
        exact ⟨hu, heq ▸ hu, heq⟩
  · rw [if_neg h1]
    constructor
    · rintro ⟨-, h⟩
      obtain ⟨v, hv⟩ := h.defined
      cases hv
    · rintro ⟨h, -⟩
      exact absurd h h1

/-- When bits are packed both decoders obey the map where it has a zero and they test zeros only. -/
theorem obeys_packed (hw : WellFormed f p) (hs : SimplePacked f p) (hb : hasBms f p = true)
    (hnb : bitsPerValue f p ≠ 0) {i : ℕ} (hi : 1 ≤ i) (hmax : i ≤ mapBits f p) :
    Obeys lib f p i ((message f p).extractValue lib f i) ∧ Obeys lib f p i (allAt lib f (message f p) i) ↔
      mapBit f p i = 0 ∧
        (i % 8 = 0 ∧ off3 f p + (i - 1) < f.length ∧ Octets.octet f (off3 f p + (i - 1)) &&& 128 = 0) ∧
        ∃ n, (message f p).section2.nxny f = .ok n ∧ i ≤ n ∧ ∀ j < n, TestedClear f p j := by
  have hbig : i ≤ 2 ^ 30 := by
    have h : len3 f p < 2 ^ 24 := by
      rw [len3, hb]
      exact Octets.be_lt f _ 3
    unfold mapBits at hmax
    omega
  have hv := extractValue_bitmap lib hw hs hnb hb hi hbig
  have ha := allAt_bitmap lib hw hs hnb hb hi
  rw [obeys_undefined fun v h => ((hv v).mp h).1, obeys_undefined fun v h => ((ha v).mp h).1, hv, ha]
  tauto

/-- **Both decoders obey the bit map at a point** exactly when the map has a zero there and the octets they test
instead of the map all show zeros, or when no bits are packed, the point is the first, and the reference value,
not changed by the decimal scale, is the undefined value or not as the map says. -/
theorem obeys_map_iff (hw : WellFormed f p) (hs : SimplePacked f p) (hb : hasBms f p = true) {i : ℕ} (hi : 1 ≤ i)
    (hmax : i ≤ mapBits f p) :
    Obeys lib f p i ((message f p).extractValue lib f i) ∧ Obeys lib f p i (allAt lib f (message f p) i) ↔
      (bitsPerValue f p = 0 ∧ i = 1 ∧ refValue lib f p = refVal lib f p ∧
        (refVal lib f p = lib.undefined ↔ mapBit f p 1 = 0)) ∨
      (bitsPerValue f p ≠ 0 ∧ mapBit f p i = 0 ∧
        (i % 8 = 0 ∧ off3 f p + (i - 1) < f.length ∧ Octets.octet f (off3 f p + (i - 1)) &&& 128 = 0) ∧
        ∃ n, (message f p).section2.nxny f = .ok n ∧ i ≤ n ∧ ∀ j < n, TestedClear f p j) := by
  by_cases hnb : bitsPerValue f p = 0
  · rw [obeys_noBits hw hs hnb hi]
    constructor
    · intro h
      exact .inl ⟨hnb, h⟩
    · rintro (⟨-, h⟩ | ⟨h, -⟩)
      · exact h
      · exact absurd hnb h
  · rw [obeys_packed hw hs hb hnb hi hmax]
    constructor
    · intro h
      exact .inr ⟨hnb, h⟩
    · rintro (⟨h, -⟩ | ⟨-, h⟩)
      · exact absurd h hnb
      · exact h

/-- A message of eight values with a bit map of eight ones. -/
def mapValues : File :=
  assemble [flagsSection 64, lengthPrefixed [0, 0, 0, 255], octetsSection [1, 2, 3, 4, 5, 6, 7, 8]]

/-- The theorem at the last point of the message. -/
theorem obeys_map_iff_eighth :
    Obeys .reference mapValues 0 8 ((message mapValues 0).extractValue .reference mapValues (8 : ℕ)) ∧
        Obeys .reference mapValues 0 8 (allAt .reference mapValues (message mapValues 0) 8) ↔
      (bitsPerValue mapValues 0 = 0 ∧ 8 = 1 ∧ refValue .reference mapValues 0 = refVal .reference mapValues 0 ∧
        (refVal .reference mapValues 0 = OsterLib.reference.undefined ↔ mapBit mapValues 0 1 = 0)) ∨
      (bitsPerValue mapValues 0 ≠ 0 ∧ mapBit mapValues 0 8 = 0 ∧
        (8 % 8 = 0 ∧ off3 mapValues 0 + (8 - 1) < mapValues.length ∧
          Octets.octet mapValues (off3 mapValues 0 + (8 - 1)) &&& 128 = 0) ∧
        ∃ n, (message mapValues 0).section2.nxny mapValues = .ok n ∧ 8 ≤ n ∧ ∀ j < n, TestedClear mapValues 0 j) :=
  obeys_map_iff (by decide) (by decide) (by decide) (by decide) (by decide)

/-- The eighth point has a value, and is decoded as undefined. -/
theorem eighth_point_undefined :
    (WellFormed mapValues 0 ∧ SimplePacked mapValues 0 ∧ hasBms mapValues 0 = true ∧ 8 ≤ mapBits mapValues 0) ∧
      mapBit mapValues 0 8 = 1 ∧
      (message mapValues 0).extractValue .reference mapValues (8 : ℕ) = .ok OsterLib.reference.undefined ∧
      ¬ Obeys .reference mapValues 0 8 ((message mapValues 0).extractValue .reference mapValues (8 : ℕ)) := by
  have h1 : mapBit mapValues 0 8 = 1 := by decide
  have hu : (message mapValues 0).extractValue .reference mapValues (8 : ℕ) =
      .ok OsterLib.reference.undefined :=
    (extractValue_bitmap _ (by decide) (by decide) (by decide) (by decide) (by decide)
      (by decide) _).mpr ⟨rfl, by decide⟩
  exact ⟨by decide, h1, hu, fun h => absurd (h.1.mp hu) (by rw [h1]; decide)⟩

end All

end Message

end Mashroom
