import Mashroom.Lib.Format
import Mashroom.Data.Properties

/-!
# Network.Formats — the parts of the messages, and how they are written

The formats of numbers, texts, containers and the types of OsterLib are an `OsterFormats`, of which `Documented` says
that they agree on what they are given.  The types of this repository list their fields by hand.
-/

namespace Mashroom.Network

/-- `server::Status` -/
inductive Status where
  | ready
  | suspended
  | inactive
  deriving DecidableEq

/-- `Transaction` -/
inductive Transaction where
  | accept
  | decline
  | cancel
  deriving DecidableEq

/-- `ProgressBase::Process` -/
inductive Process where
  | nothing
  | search
  | extract
  | prepare
  | sending
  deriving DecidableEq

/-- The formats of OsterLib.  `τ` and `π` are its types `TimeSequence` and `TimePeriod`. -/
structure OsterFormats (τ π : Type) where
  u8 : Format UInt8
  u16 : Format UInt16
  u32 : Format UInt32
  u64 : Format UInt64
  i16 : Format ℤ
  int : Format ℤ
  float : Format ℚ
  double : Format ℚ
  flag : Format Bool
  representationType : Format RepresentationType
  status : Format Status
  transaction : Format Transaction
  process : Format Process
  /-- `std::string` -/
  string : Format (List UInt8)
  /-- `utc_tp` -/
  time : Format ℤ
  coord : Format Coord
  timeSequence : Format τ
  timePeriod : Format π
  vector {α : Type} : Format α → Format (List α)
  unorderedSet {α : Type} : Format α → Format (List α)
  optional {α : Type} : Format α → Format (Option α)
  sharedPtr {α : Type} : Format α → Format (Option α)

/-- The finite values of a floating point type with `p` binary digits and exponents from `lo` to `hi`. -/
def IsFloat (p : ℕ) (lo hi : ℤ) (x : ℚ) : Prop := ∃ m e : ℤ, |m| < 2 ^ p ∧ lo ≤ e ∧ e ≤ hi ∧ x = m * 2 ^ e

/-- The finite values of `float`. -/
def IsFloat32 (x : ℚ) : Prop := IsFloat 24 (-149) 104 x

/-- The finite values of `double`. -/
def IsFloat64 (x : ℚ) : Prop := IsFloat 53 (-1074) 971 x

namespace OsterFormats

variable {τ π : Type}

/-- The formats agree on the values of the C++ types, and those of containers on what those of their elements agree
on. -/
structure Documented (o : OsterFormats τ π) : Prop where
  u8 : ∀ n, o.u8.Law n
  u16 : ∀ n, o.u16.Law n
  u32 : ∀ n, o.u32.Law n
  u64 : ∀ n, o.u64.Law n
  i16 : ∀ z : ℤ, -2 ^ 15 ≤ z ∧ z < 2 ^ 15 → o.i16.Law z
  int : ∀ z : ℤ, -2 ^ 31 ≤ z ∧ z < 2 ^ 31 → o.int.Law z
  float : ∀ x, IsFloat32 x → o.float.Law x
  double : ∀ x, IsFloat64 x → o.double.Law x
  flag : ∀ b, o.flag.Law b
  representationType : ∀ r, o.representationType.Law r
  status : ∀ s, o.status.Law s
  transaction : ∀ t, o.transaction.Law t
  process : ∀ p, o.process.Law p
  string : ∀ s, s.length < 2 ^ 64 → o.string.Law s
  time : ∀ t : ℤ, -2 ^ 63 ≤ t ∧ t < 2 ^ 63 → o.time.Law t
  coord : ∀ c, IsFloat64 c.lat → IsFloat64 c.lon → o.coord.Law c
  timeSequence : ∀ t, o.timeSequence.Law t
  timePeriod : ∀ t, o.timePeriod.Law t
  vector : ∀ {α : Type} (f : Format α) (as : List α), as.length < 2 ^ 64 → (∀ a ∈ as, f.Law a) → (o.vector f).Law as
  unorderedSet : ∀ {α : Type} (f : Format α) (as : List α), as.length < 2 ^ 64 → as.Nodup → (∀ a ∈ as, f.Law a) →
    (o.unorderedSet f).Law as
  optional : ∀ {α : Type} (f : Format α) (a : Option α), (∀ x ∈ a, f.Law x) → (o.optional f).Law a
  sharedPtr : ∀ {α : Type} (f : Format α) (a : Option α), (∀ x ∈ a, f.Law x) → (o.sharedPtr f).Law a

/-! ## Numbers -/

section Numbers

variable (o : OsterFormats τ π)

/-- A `uint8_t` kept as a number. -/
def nat8 : Format ℕ := o.u8.map UInt8.toNat UInt8.ofNat

/-- A `uint16_t` kept as a number. -/
def nat16 : Format ℕ := o.u16.map UInt16.toNat UInt16.ofNat

/-- A `uint32_t` kept as a number. -/
def nat32 : Format ℕ := o.u32.map UInt32.toNat UInt32.ofNat

/-- A `size_t` kept as a number. -/
def nat64 : Format ℕ := o.u64.map UInt64.toNat UInt64.ofNat

variable {o} {n : ℕ}

theorem Documented.nat8 (ho : o.Documented) (h : n < 2 ^ 8) : o.nat8.Law n :=
  Format.map_law (ho.u8 _) (UInt8.toNat_ofNat_of_lt h)

theorem Documented.nat16 (ho : o.Documented) (h : n < 2 ^ 16) : o.nat16.Law n :=
  Format.map_law (ho.u16 _) (UInt16.toNat_ofNat_of_lt h)

theorem Documented.nat32 (ho : o.Documented) (h : n < 2 ^ 32) : o.nat32.Law n :=
  Format.map_law (ho.u32 _) (UInt32.toNat_ofNat_of_lt h)

theorem Documented.nat64 (ho : o.Documented) (h : n < 2 ^ 64) : o.nat64.Law n :=
  Format.map_law (ho.u64 _) (UInt64.toNat_ofNat_of_lt h)

end Numbers

/-- A variant of `std::monostate` and one alternative has an index of eight octets. -/
theorem Documented.orNothing {o : OsterFormats τ π} (ho : o.Documented) {α : Type} {f : Format α} {v : Option α}
    (h : ∀ a ∈ v, f.Law a) : (Format.orNothing o.nat64 f).Law v :=
  Format.orNothing_law (fun _ hi => ho.nat64 (by omega)) h

end OsterFormats

end Mashroom.Network
