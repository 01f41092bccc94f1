import Mashroom.Grib1.Section

/-!
# Grib1.Message — locating the sections of a message

`Message.make f p` is the constructor on the buffer at offset `p`: from the flags and the lengths it reads, it
places the four sections, and it compares their total with the length in section 0.  `Layout` repeats that
arithmetic on the octets alone, with no check; `Layout.Readable` says that the octets the constructor reads are
in the file, and then `make` gives exactly what the layout says (`Message.make_eq`).
-/

namespace Mashroom

/-- `Code<API::GRIB1>`: the error codes of the decoder that the modelled functions use. -/
inductive Code where
  | noneErr
  | openErrorX1
  | badFileX1
  | dataEmptyX1
  | readPosX1
  | lenUnconsistX1
  | missEndSectionX1
  deriving DecidableEq

structure Message where
  section0 : IndicatorSection
  section1 : ProductDefinitionSection
  section2 : GridDescriptionSection
  section3 : BitMapSection
  section4 : BinaryDataSection
  /-- `none` when the constructor leaves it as the storage was -/
  err : Option Code
  deriving DecidableEq

namespace Message

/-- The least size of section 0. -/
def sec0MinSz : ℕ := 8

/-- The constructor on the buffer at offset `p`. -/
def make (f : File) (p : ℕ) : Except Fault Message := do
  let section0 : IndicatorSection := { buf := p }
  let section1 : ProductDefinitionSection := { buffer := p + sec0MinSz }
  let flags ← section1.section1Flags f
  let len1 ← section1.sectionLength f
  let section2 : GridDescriptionSection := {
    buf := if flags.sec2Inc then some (section1.buffer + len1) else none }
  let len2 ← section2.sectionLength f
  let section3 : BitMapSection := {
    buf := if flags.sec3Inc then some (section1.buffer + len1 + len2) else none }
  let len3 ← section3.sectionLength f
  let section4 : BinaryDataSection := { buf := section1.buffer + len1 + len2 + len3 }
  let len4 ← section4.getBDSLength f
  let len0 ← section0.messageLength f
  return {
    section0, section1, section2, section3, section4
    err := if sec0MinSz + len1 + len2 + len3 + len4 + 4 ≠ len0 then some .lenUnconsistX1 else none }

/-- `message_length` -/
def messageLength (m : Message) (f : File) : Except Fault ℕ := m.section0.messageLength f

/-- `section2`: the section, when the flags of section 1 announce it. -/
def section2? (m : Message) (f : File) : Except Fault (Option GridDescriptionSection) := do
  let flags ← m.section1.section1Flags f
  return if flags.sec2Inc then some m.section2 else none

/-- `section3`: the section, when the flags of section 1 announce it. -/
def section3? (m : Message) (f : File) : Except Fault (Option BitMapSection) := do
  let flags ← m.section1.section1Flags f
  return if flags.sec3Inc then some m.section3 else none

end Message

/-! ## The layout of a message, on its octets -/

namespace Layout

variable (f : File) (p : ℕ)

/-- The length of the message, octets 5 to 7. -/
def len0 : ℕ := Octets.be f (p + 4) 3

/-- The length of section 1. -/
def len1 : ℕ := Octets.be f (p + 8) 3

/-- Whether section 2 is announced. -/
def hasGds : Bool := Octets.octet f (p + 15) &&& 128 != 0

/-- Whether section 3 is announced. -/
def hasBms : Bool := Octets.octet f (p + 15) &&& 64 != 0

/-- Where section 2 starts, if it is there. -/
def off2 : ℕ := p + 8 + len1 f p

/-- The length of section 2, `0` when it is absent. -/
def len2 : ℕ := if hasGds f p then Octets.be f (off2 f p) 3 else 0

/-- Where section 3 starts, if it is there. -/
def off3 : ℕ := off2 f p + len2 f p

/-- The length of section 3, `0` when it is absent. -/
def len3 : ℕ := if hasBms f p then Octets.be f (off3 f p) 3 else 0

/-- Where section 4 starts. -/
def off4 : ℕ := off3 f p + len3 f p

/-- The length of section 4. -/
def len4 : ℕ := Octets.be f (off4 f p) 3

/-- The octets the constructor reads are in the file. -/
structure Readable : Prop where
  flags : p + 16 ≤ f.length
  gds : hasGds f p = true → off2 f p + 3 ≤ f.length
  bms : hasBms f p = true → off3 f p + 3 ≤ f.length
  bds : off4 f p + 3 ≤ f.length

instance : Decidable (Readable f p) :=
  decidable_of_iff (p + 16 ≤ f.length ∧ (hasGds f p = true → off2 f p + 3 ≤ f.length) ∧
      (hasBms f p = true → off3 f p + 3 ≤ f.length) ∧ off4 f p + 3 ≤ f.length)
    ⟨fun h => ⟨h.1, h.2.1, h.2.2.1, h.2.2.2⟩, fun h => ⟨h.flags, h.gds, h.bms, h.bds⟩⟩

/-- The octets the constructor reads and the whole extent of the message are in the file. -/
structure Fits : Prop where
  readable : Readable f p
  extent : p + len0 f p ≤ f.length

instance : Decidable (Fits f p) :=
  decidable_of_iff (Readable f p ∧ p + len0 f p ≤ f.length) ⟨fun h => ⟨h.1, h.2⟩, fun h => ⟨h.1, h.2⟩⟩

/-- The representation type octet of section 2. -/
def gridOctet : ℕ := Octets.octet f (off2 f p + 5)

/-- The flags octet of section 4. -/
def bdsFlags : ℕ := Octets.octet f (off4 f p + 3)

/-- The number of bits of a packed value. -/
def bitsPerValue : ℕ := Octets.octet f (off4 f p + 10)

/-- A message whose sections are all in it, are long enough for what they announce, and add up to its length,
and which is all in the file. -/
structure WellFormed : Prop where
  pds : 28 ≤ len1 f p
  gds : hasGds f p = true → 6 ≤ len2 f p
  grid : hasGds f p = true → ∀ r, RepresentationType.ofOctet (gridOctet f p) = some r → gridOctets r ≤ len2 f p
  bms : hasBms f p = true → 6 ≤ len3 f p
  bds : 11 ≤ len4 f p
  flags : bdsFlags f p &&& 16 ≠ 0 → 14 ≤ len4 f p
  total : 8 + len1 f p + len2 f p + len3 f p + len4 f p + 4 = len0 f p
  inside : p + len0 f p ≤ f.length

instance : Decidable (WellFormed f p) :=
  decidable_of_iff (28 ≤ len1 f p ∧ (hasGds f p = true → 6 ≤ len2 f p) ∧
      (hasGds f p = true → ∀ r ∈ RepresentationType.ofOctet (gridOctet f p), gridOctets r ≤ len2 f p) ∧
      (hasBms f p = true → 6 ≤ len3 f p) ∧ 11 ≤ len4 f p ∧ (bdsFlags f p &&& 16 ≠ 0 → 14 ≤ len4 f p) ∧
      8 + len1 f p + len2 f p + len3 f p + len4 f p + 4 = len0 f p ∧ p + len0 f p ≤ f.length)
    ⟨fun ⟨h1, h2, h3, h4, h5, h6, h7, h8⟩ => ⟨h1, h2, h3, h4, h5, h6, h7, h8⟩,
      fun h => ⟨h.pds, h.gds, h.grid, h.bms, h.bds, h.flags, h.total, h.inside⟩⟩

/-- The data are grid point values in simple packing. -/
def SimplePacked : Prop := bdsFlags f p &&& 128 = 0 ∧ bdsFlags f p &&& 64 = 0

instance : Decidable (SimplePacked f p) := inferInstanceAs (Decidable (_ ∧ _))

/-- The number of packed values in section 4. -/
def numPacked : ℕ := ((len4 f p - 11) * 8 - (bdsFlags f p &&& 15)) / bitsPerValue f p

/-- What the constructor makes of the octets. -/
def message : Message where
  section0 := { buf := p }
  section1 := { buffer := p + 8 }
  section2 := { buf := if hasGds f p then some (off2 f p) else none }
  section3 := { buf := if hasBms f p then some (off3 f p) else none }
  section4 := { buf := off4 f p }
  err := if 8 + len1 f p + len2 f p + len3 f p + len4 f p + 4 ≠ len0 f p then some .lenUnconsistX1 else none

/-! ### Well-formed messages -/

section WellFormed

variable {f : File} {p : ℕ} (h : WellFormed f p)

include h

/-- The end of section 4 and the end mark are in the file. -/
theorem WellFormed.end_le : off4 f p + len4 f p + 4 ≤ f.length := by
  have h1 := h.total
  have h2 := h.inside
  unfold off4 off3 off2
  omega

theorem WellFormed.off1_le : p + 36 ≤ off2 f p := by
  have := h.pds
  unfold off2
  omega

theorem WellFormed.readable : Readable f p := by
  have h1 := h.off1_le
  have h2 : off2 f p + len2 f p = off3 f p := rfl
  have h3 : off3 f p + len3 f p = off4 f p := rfl
  have h4 := h.end_le
  have h5 := h.bds
  refine ⟨by omega, ?_, ?_, by omega⟩
  · intro hg
    have := h.gds hg
    omega
  · intro hb
    have := h.bms hb
    omega

theorem WellFormed.len0_pos : len0 f p ≠ 0 := by
  have := h.total
  omega

end WellFormed

end Layout

namespace Message

open Layout

variable {f : File} {p : ℕ}

/-- The length of an optional section, when its header is in the file. -/
theorem lengthAt_ite {c : Bool} {q : ℕ} (h : c = true → q + 3 ≤ f.length) :
    lengthAt f (if c then some q else none) = .ok (if c then Octets.be f q 3 else 0) := by
  cases c
  · rfl
  · exact readBytes_ok (h rfl)

/-- Where its reads are in the file, the constructor gives what the layout says. -/
theorem make_eq (h : Readable f p) : make f p = .ok (message f p) := by
  obtain ⟨h1, h2, h3, h4⟩ := h
  have hf : ProductDefinitionSection.section1Flags { buffer := p + 8 } f =
      .ok { sec2Inc := hasGds f p, sec3Inc := hasBms f p } := by
    have h7 : octet f (p + 8 + 7) = .ok (Octets.octet f (p + 15)) := octet_ok (by omega)
    simp only [ProductDefinitionSection.section1Flags, h7, ok_bind]
    rfl
  have hl1 : readBytes f (p + 8) 3 = .ok (len1 f p) := readBytes_ok (by omega)
  have hl2 := lengthAt_ite (f := f) (c := hasGds f p) (q := off2 f p) h2
  have hl3 := lengthAt_ite (f := f) (c := hasBms f p) (q := off3 f p) h3
  have hl4 : readBytes f (off4 f p) 3 = .ok (len4 f p) := readBytes_ok h4
  have hl0 : readBytes f (p + 4) 3 = .ok (len0 f p) := readBytes_ok (by omega)
  simp only [make, sec0MinSz, hf, ok_bind]
  rw [ProductDefinitionSection.sectionLength, lengthAt_some, hl1, ok_bind]
  rw [GridDescriptionSection.sectionLength, show p + 8 + len1 f p = off2 f p from rfl, hl2, ok_bind]
  rw [BitMapSection.sectionLength, ← len2, show off2 f p + len2 f p = off3 f p from rfl, hl3, ok_bind]
  rw [BinaryDataSection.getBDSLength, ← len3, show off3 f p + len3 f p = off4 f p from rfl, lengthAt_some, hl4,
    ok_bind, IndicatorSection.messageLength, hl0, ok_bind]
  rfl

theorem lengthAt_ite_eq_ok {c : Bool} {q v : ℕ} (h : lengthAt f (if c then some q else none) = .ok v) :
    (c = true → q + 3 ≤ f.length) ∧ v = if c then Octets.be f q 3 else 0 := by
  cases c
  · simpa [eq_comm] using h
  · simpa using readBytes_eq_ok.mp h

/-- The constructor has a result only where its reads are in the file. -/
theorem readable_of_make {m : Message} (h : make f p = .ok m) : Readable f p := by
  simp only [make, sec0MinSz, bind_eq_ok] at h
  obtain ⟨flags, hf, l1, h1, l2, h2, l3, h3, l4, h4, l0, -, -⟩ := h
  obtain ⟨o, ho, hflags⟩ := bind_eq_ok.mp hf
  obtain ⟨hlt, rfl⟩ := octet_eq_ok.mp ho
  cases hflags
  obtain ⟨-, rfl⟩ := readBytes_eq_ok.mp h1
  obtain ⟨hg, rfl⟩ := lengthAt_ite_eq_ok h2
  obtain ⟨hb, rfl⟩ := lengthAt_ite_eq_ok h3
  obtain ⟨hd, rfl⟩ := readBytes_eq_ok.mp h4
  exact ⟨hlt, hg, hb, hd⟩

theorem make_eq_ok {m : Message} : make f p = .ok m ↔ Readable f p ∧ m = message f p := by
  constructor
  · intro h
    have hr := readable_of_make h
    rw [make_eq hr] at h
    exact ⟨hr, by cases h; rfl⟩
  · rintro ⟨h, rfl⟩
    exact make_eq h

end Message

/-! ## A message from its sections -/

/-- A length in three octets. -/
def length3 (n : ℕ) : List UInt8 := [.ofNat (n / 65536), .ofNat (n / 256), .ofNat n]

/-- A section: its length, then its other octets. -/
def lengthPrefixed (body : List UInt8) : List UInt8 := length3 (body.length + 3) ++ body

/-- A section 1 whose flags octet is `flags` and whose other octets are zeros. -/
def flagsSection (flags : UInt8) : List UInt8 := lengthPrefixed ([0, 0, 0, 0, flags] ++ List.replicate 20 0)

/-- A section 2 for the four points of the latitude/longitude grid between 0 and 1 degree. -/
def latLonSection : List UInt8 :=
  lengthPrefixed [0, 255, 0, 0, 2, 0, 2, 0, 3, 232, 0, 0, 0, 128, 0, 0, 0, 0, 3, 232, 3, 232, 3, 232, 0, 0, 0, 0, 0]

/-- A section 4 of values of 8 bits. -/
def octetsSection (values : List UInt8) : List UInt8 := lengthPrefixed ([0, 0, 0, 0, 0, 0, 0, 8] ++ values)

/-- The message with these sections, in order, between the octets `GRIB` and `7777`. -/
def assemble (sections : List (List UInt8)) : File :=
  [71, 82, 73, 66] ++ length3 (sections.flatten.length + 12) ++ [1] ++ sections.flatten ++ [55, 55, 55, 55]

end Mashroom
