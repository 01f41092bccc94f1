import Mathlib.Order.Defs.Unbundled
import Mashroom.Lib.KeepFirst
import Mashroom.Data.Hashes
import Mashroom.Network.Parts
import Mashroom.Proc.Output

/-!
# Proc.Order — the order of the properties under which data is kept

`operator<` compares hashes.  The hash of common properties has the center, the version and the parameter in its three
highest octets, and 255 for one that is not set; the hash of `ExtractDataProperties` is the bitwise or of this and of a
hash of the additional part.  There is none in the source for the additional part of this format, and so it is a
parameter here.  Keys with one hash are one key for a map, which keeps the first (`order_coherent`).
-/

namespace Mashroom

/-! ## The code -/

/-- Common properties whose values are octets. -/
abbrev CommonKey := { c : CommonDataProperties // c.Fits }

/-- `ExtractDataProperties` with such common properties. -/
abbrev ExtractKey := { k : ExtractDataProperties // k.cmn.Fits }

namespace CommonDataProperties

variable (a b : CommonDataProperties)

/-- `operator<` -/
def less : Bool := a.hash < b.hash

/-- `std::less` of shared pointers.  The right one is not looked at before its object is. -/
def lessShared : Option CommonDataProperties → Option CommonDataProperties → Except Fault Bool
  | some a, some b => .ok (a.less b)
  | some _, none => .error .null
  | none, _ => .ok true

/-- The octets in the hash. -/
def octets : ℕ × ℕ × ℕ := (octetOr255 a.center, octetOr255 a.tableVersion, octetOr255 a.parameter)

end CommonDataProperties

namespace ExtractDataProperties

variable (addHash : AdditionalExtractDataProperties → UInt64) (a b : ExtractDataProperties)

/-- `operator==` -/
def eq : Bool := a.cmn.eq b.cmn ∧ a.add = b.add

/-- `hash` -/
def hash : ℕ := a.cmn.hash ||| (addHash a.add).toNat

/-- `operator<` -/
def less : Bool := a.hash addHash < b.hash addHash

end ExtractDataProperties

/-! ## The octets of a hash -/

/-- The three highest octets of a number of eight, and the number that the other five make. -/
def hashParts (h : ℕ) : ℕ × ℕ × ℕ × ℕ := (h / 2 ^ 56, h / 2 ^ 48 % 2 ^ 8, h / 2 ^ 40 % 2 ^ 8, h % 2 ^ 40)

theorem hashParts_injective : Function.Injective hashParts := by
  intro h h' heq
  simp only [hashParts, Prod.mk.injEq] at heq
  omega

theorem hashParts_or (h h' : ℕ) : hashParts (h ||| h') = ((hashParts h).1 ||| (hashParts h').1,
    (hashParts h).2.1 ||| (hashParts h').2.1, (hashParts h).2.2.1 ||| (hashParts h').2.2.1,
    (hashParts h).2.2.2 ||| (hashParts h').2.2.2) := by
  simp only [hashParts, Nat.or_div_two_pow, Nat.or_mod_two_pow]

theorem hashParts_packed {x y z : ℕ} (hy : y < 2 ^ 8) (hz : z < 2 ^ 8) :
    hashParts ((x <<< 56 ||| y <<< 48) ||| z <<< 40) = (x, y, z, 0) := by
  have hy' : y <<< 48 < 2 ^ 56 := by
    rw [Nat.shiftLeft_eq]
    omega
  have hz' : z <<< 40 < 2 ^ 48 := by
    rw [Nat.shiftLeft_eq]
    omega
  have hyz : (x <<< 8 ||| y) <<< 48 = x <<< 56 ||| y <<< 48 := by
    rw [Nat.shiftLeft_or_distrib, ← Nat.shiftLeft_add]
  rw [← hyz, ← Nat.shiftLeft_add_eq_or_of_lt hz', ← Nat.shiftLeft_add_eq_or_of_lt hy]
  simp only [hashParts, Nat.shiftLeft_eq, Prod.mk.injEq]
  omega

/-! ## Common properties -/

namespace CommonDataProperties

variable {a b : CommonDataProperties}

theorem less_iff : a.less b = true ↔ a.hash < b.hash := decide_eq_true_iff

theorem octetOr255_lt {x : Option ℕ} (h : ∀ n ∈ x, n < 2 ^ 8) : octetOr255 x < 2 ^ 8 := by
  cases x with
  | none => decide
  | some n => exact h n rfl

/-- The hash has the octets in its highest places, and nothing below. -/
theorem hashParts_hash (h : a.Fits) : hashParts a.hash = (a.octets.1, a.octets.2.1, a.octets.2.2, 0) :=
  hashParts_packed (octetOr255_lt h.tableVersion) (octetOr255_lt h.parameter)

theorem hash_eq_iff (ha : a.Fits) (hb : b.Fits) : a.hash = b.hash ↔ a.octets = b.octets := by
  rw [← hashParts_injective.eq_iff, hashParts_hash ha, hashParts_hash hb]
  simp only [Prod.ext_iff, and_true]

end CommonDataProperties

theorem common_strictWeak : IsStrictWeakOrder CommonKey fun a b => a.1.less b.1 = true where
  irrefl a h := lt_irrefl _ (CommonDataProperties.less_iff.mp h)
  trans a b c h h' := by
    rw [CommonDataProperties.less_iff] at h h' ⊢
    exact h.trans h'
  incomp_trans a b c h h' := by
    simp only [CommonDataProperties.less_iff] at h h' ⊢
    omega

/-- Neither of two keys is less than the other where they have the same octets, and 255 stands for none. -/
theorem common_equivalent_iff (a b : CommonKey) : a.1.less b.1 = false ∧ b.1.less a.1 = false ↔
    a.1.octets = b.1.octets := by
  rw [← CommonDataProperties.hash_eq_iff a.2 b.2, Bool.eq_false_iff, Bool.eq_false_iff, Ne, Ne,
    CommonDataProperties.less_iff, CommonDataProperties.less_iff]
  omega

/-! ## Shared pointers -/

/-- `std::less` is a strict weak order of the pointers of a set. -/
structure SharedStrictWeak (s : Set (Option CommonDataProperties)) : Prop where
  defined : ∀ x ∈ s, ∀ y ∈ s, Defined (CommonDataProperties.lessShared x y)
  irrefl : ∀ x ∈ s, CommonDataProperties.lessShared x x ≠ .ok true
  trans : ∀ x ∈ s, ∀ y ∈ s, ∀ z ∈ s, CommonDataProperties.lessShared x y = .ok true →
    CommonDataProperties.lessShared y z = .ok true → CommonDataProperties.lessShared x z = .ok true
  incomp_trans : ∀ x ∈ s, ∀ y ∈ s, ∀ z ∈ s,
    CommonDataProperties.lessShared x y = .ok false → CommonDataProperties.lessShared y x = .ok false →
    CommonDataProperties.lessShared y z = .ok false → CommonDataProperties.lessShared z y = .ok false →
    CommonDataProperties.lessShared x z = .ok false

section Shared

variable {a b : CommonDataProperties}

theorem CommonDataProperties.lessShared_true : lessShared (some a) (some b) = .ok true ↔ a.hash < b.hash := by
  rw [lessShared, Except.ok.injEq, less_iff]

theorem CommonDataProperties.lessShared_false : lessShared (some a) (some b) = .ok false ↔ b.hash ≤ a.hash := by
  rw [lessShared, Except.ok.injEq, Bool.eq_false_iff, Ne, less_iff, not_lt]

end Shared

/-- It is one where none of them is null. -/
theorem sharedStrictWeak_iff {s : Set (Option CommonDataProperties)} : SharedStrictWeak s ↔ none ∉ s := by
  constructor
  · intro h hnone
    exact h.irrefl none hnone rfl
  · intro h
    have hsome : s ⊆ Set.range some := by
      intro x hx
      cases x with
      | none => exact absurd hx h
      | some a => exact ⟨a, rfl⟩
    obtain ⟨t, rfl⟩ := Set.subset_range_iff_exists_image_eq.mp hsome
    refine ⟨?_, ?_, ?_, ?_⟩
    · rintro _ ⟨a, -, rfl⟩ _ ⟨b, -, rfl⟩
      exact .ok _
    · rintro _ ⟨a, -, rfl⟩ hless
      exact lt_irrefl _ (CommonDataProperties.lessShared_true.mp hless)
    · rintro _ ⟨a, -, rfl⟩ _ ⟨b, -, rfl⟩ _ ⟨c, -, rfl⟩ hab hbc
      rw [CommonDataProperties.lessShared_true] at hab hbc ⊢
      exact hab.trans hbc
    · rintro _ ⟨a, -, rfl⟩ _ ⟨b, -, rfl⟩ _ ⟨c, -, rfl⟩ hab hba hbc hcb
      rw [CommonDataProperties.lessShared_false] at hab hba hbc hcb ⊢
      exact hbc.trans hab

/-! ## Keys of extracted data -/

namespace ExtractDataProperties

variable {addHash : AdditionalExtractDataProperties → UInt64} {a b : ExtractDataProperties}

theorem parts_iff : a = b ↔ a.cmn = b.cmn ∧ a.add = b.add := by
  cases a
  cases b
  simp [and_comm]

theorem eq_iff : a.eq b = true ↔ a = b := by
  rw [eq, parts_iff, decide_eq_true_iff, CommonDataProperties.eq_iff]

/-- The parts of the hash: of the octets of the common properties and those of the additional part, put one over the
other, and of the rest of the latter. -/
def overlay (addHash : AdditionalExtractDataProperties → UInt64) (a : ExtractDataProperties) : ℕ × ℕ × ℕ × ℕ :=
  let add := hashParts (addHash a.add).toNat
  (a.cmn.octets.1 ||| add.1, a.cmn.octets.2.1 ||| add.2.1, a.cmn.octets.2.2 ||| add.2.2.1, add.2.2.2)

theorem hash_eq_iff (ha : a.cmn.Fits) (hb : b.cmn.Fits) :
    a.hash addHash = b.hash addHash ↔ a.overlay addHash = b.overlay addHash := by
  rw [← hashParts_injective.eq_iff, hash, hash, hashParts_or, hashParts_or, CommonDataProperties.hashParts_hash ha,
    CommonDataProperties.hashParts_hash hb]
  simp only [Nat.zero_or, overlay]

end ExtractDataProperties

/-- Neither of two keys is less than the other, so that a map takes them for one key. -/
def SameKey (addHash : AdditionalExtractDataProperties → UInt64) (a b : ExtractKey) : Prop :=
  a.1.less addHash b.1 = false ∧ b.1.less addHash a.1 = false

section Keys

variable {addHash : AdditionalExtractDataProperties → UInt64} {a b : ExtractKey}

instance : DecidableRel (SameKey addHash) := fun _ _ => inferInstanceAs (Decidable (_ ∧ _))

theorem sameKey_iff_hash : SameKey addHash a b ↔ a.1.hash addHash = b.1.hash addHash := by
  simp only [SameKey, ExtractDataProperties.less, decide_eq_false_iff_not]
  omega

theorem sameKey_iff : SameKey addHash a b ↔ a.1.overlay addHash = b.1.overlay addHash :=
  sameKey_iff_hash.trans (ExtractDataProperties.hash_eq_iff a.2 b.2)

theorem sameKey_equivalence : Equivalence (SameKey addHash) where
  refl _ := sameKey_iff_hash.mpr rfl
  symm h := sameKey_iff_hash.mpr (sameKey_iff_hash.mp h).symm
  trans h h' := sameKey_iff_hash.mpr ((sameKey_iff_hash.mp h).trans (sameKey_iff_hash.mp h'))

end Keys

/-- **The order is coherent** for common properties that do not have 255 where others have none, for pointers that are
not null, and for keys whose parts, put one over the other, differ where the keys do.  A map keeps the keys then. -/
theorem order_coherent (addHash : AdditionalExtractDataProperties → UInt64) :
    IsStrictWeakOrder CommonKey (fun a b => a.1.less b.1 = true) ∧
    (∀ a b : CommonKey, (a.1.eq b.1 = true ↔ a.1.less b.1 = false ∧ b.1.less a.1 = false) ↔
      (a.1.octets = b.1.octets → a = b)) ∧
    (∀ s, SharedStrictWeak s ↔ none ∉ s) ∧
    (∀ a b : ExtractKey, (SameKey addHash a b ↔ a.1.cmn.eq b.1.cmn = true ∧ a.1.add = b.1.add) ↔
      (a.1.overlay addHash = b.1.overlay addHash → a = b)) ∧
    ∀ keys, KeepFirst.OneForEach (fun a b => a.1.eq b.1 = true) keys (KeepFirst.insertAll (SameKey addHash) keys) ↔
      ∀ a ∈ keys, ∀ b ∈ keys, a.1.overlay addHash = b.1.overlay addHash → a = b := by
  refine ⟨common_strictWeak, ?_, fun _ => sharedStrictWeak_iff, ?_, ?_⟩
  · intro a b
    rw [common_equivalent_iff, CommonDataProperties.eq_iff, Subtype.ext_iff]
    exact ⟨fun h => h.mpr, fun h => ⟨fun heq => by rw [heq], h⟩⟩
  · intro a b
    rw [sameKey_iff, CommonDataProperties.eq_iff, Subtype.ext_iff]
    rw [← ExtractDataProperties.parts_iff]
    exact ⟨fun h => h.mp, fun h => ⟨h, fun heq => by rw [heq]⟩⟩
  · intro keys
    have heq : (fun a b : ExtractKey => a.1.eq b.1 = true) = fun a b => a = b :=
      funext₂ fun a b => propext (ExtractDataProperties.eq_iff.trans Subtype.ext_iff.symm)
    have hle : ∀ ⦃a b : ExtractKey⦄, a = b → SameKey addHash a b := by
      rintro a _ rfl
      exact sameKey_equivalence.refl a
    rw [heq, KeepFirst.keeps_iff sameKey_equivalence ⟨fun _ => rfl, fun h => h.symm, fun h h' => h.trans h'⟩ hle]
    simp only [sameKey_iff]

/-- Common properties without values, and with the values that stand for none. -/
def CommonKey.unset : CommonKey := ⟨⟨none, none, none⟩, ⟨by simp, by simp, by simp⟩⟩

def CommonKey.missing : CommonKey := ⟨⟨some 255, some 255, some 255⟩, ⟨by simp, by simp, by simp⟩⟩

/-- The level of the ground at the time of the analysis. -/
def AdditionalExtractDataProperties.surface : AdditionalExtractDataProperties where
  fcst := { P1 := 0, P2 := 0, tf := 1, tri := 0 }
  level := { levelType := 1, octet11 := 0, octet12 := 0 }

def ExtractKey.unset : ExtractKey := ⟨⟨.surface, CommonKey.unset.1⟩, CommonKey.unset.2⟩

def ExtractKey.missing : ExtractKey := ⟨⟨.surface, CommonKey.missing.1⟩, CommonKey.missing.2⟩

/-- Neither of the two is less than the other, and they are not equal; a null pointer is less than itself; and of two
keys a map keeps the first. -/
theorem order_incoherent :
    (CommonKey.unset.1.eq CommonKey.missing.1 = false ∧ CommonKey.unset.1.less CommonKey.missing.1 = false ∧
      CommonKey.missing.1.less CommonKey.unset.1 = false) ∧
    CommonDataProperties.lessShared none none = .ok true ∧
    ∀ addHash, ExtractKey.unset ≠ ExtractKey.missing ∧
      KeepFirst.insertAll (SameKey addHash) [ExtractKey.unset, ExtractKey.missing] = [ExtractKey.unset] := by
  have hless : CommonKey.unset.1.less CommonKey.missing.1 = false ∧
      CommonKey.missing.1.less CommonKey.unset.1 = false :=
    (common_equivalent_iff _ _).mpr rfl
  refine ⟨⟨by decide, hless⟩, rfl, fun addHash => ⟨by decide, ?_⟩⟩
  have hsame : SameKey addHash .missing .unset := sameKey_iff.mpr rfl
  exact KeepFirst.insertAll_pair hsame

end Mashroom
