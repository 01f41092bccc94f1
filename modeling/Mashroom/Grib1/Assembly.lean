import Mashroom.Grib1.Message

/-!
# Grib1.Assembly — decoding undoes assembly

`Sections` are the octets of the parts of a message, each section with its own length in its first three octets
and the flags of section 1 announcing what is there.  Put together they are a message, wherever it stands in a
file, and the constructor places each section where it was put (`Sections.make_octets`).
-/

namespace Mashroom

open Layout

/-- The octets of a section: the first three are their number. -/
structure IsSection (s : List UInt8) : Prop where
  size : 3 ≤ s.length
  length : Octets.be s 0 3 = s.length

instance (s : List UInt8) : Decidable (IsSection s) :=
  decidable_of_iff (3 ≤ s.length ∧ Octets.be s 0 3 = s.length) ⟨fun h => ⟨h.1, h.2⟩, fun h => ⟨h.1, h.2⟩⟩

/-- The parts of a message: section 0, the four sections, and what section 1 says of the optional ones. -/
structure Sections where
  header : List UInt8
  pds : List UInt8
  gds : Option (List UInt8)
  bms : Option (List UInt8)
  bds : List UInt8
  header_size : header.length = 8
  pds_size : 8 ≤ pds.length
  isSection_pds : IsSection pds
  isSection_gds : ∀ s ∈ gds, IsSection s
  isSection_bms : ∀ s ∈ bms, IsSection s
  isSection_bds : IsSection bds
  gds_flag : (Octets.octet pds 7 &&& 128 != 0) = gds.isSome
  bms_flag : (Octets.octet pds 7 &&& 64 != 0) = bms.isSome

namespace Sections

variable (s : Sections)

/-- The octets of section 2, none when it is absent. -/
def gdsOctets : List UInt8 := s.gds.getD []

/-- The octets of section 3, none when it is absent. -/
def bmsOctets : List UInt8 := s.bms.getD []

/-- The message. -/
def octets : File := s.header ++ s.pds ++ s.gdsOctets ++ s.bmsOctets ++ s.bds ++ [55, 55, 55, 55]

/-! ## A section in a file -/

/-- The length of a section, wherever it stands. -/
theorem be_section {a : List UInt8} (h : IsSection a) (pre post : File) :
    Octets.be (pre ++ a ++ post) pre.length 3 = a.length := by
  rw [show pre.length = pre.length + 0 from rfl, Octets.be_middle (by have := h.size; omega), h.length]

/-- The length of an optional section, at the place where it would be. -/
theorem be_optional {a : Option (List UInt8)} (h : ∀ s ∈ a, IsSection s) (pre post : File) :
    (if a.isSome then Octets.be (pre ++ a.getD [] ++ post) pre.length 3 else 0) = (a.getD []).length := by
  cases a with
  | none => rfl
  | some a => exact be_section (h a rfl) pre post

theorem optional_size {a : Option (List UInt8)} (h : ∀ s ∈ a, IsSection s) (ha : a.isSome = true) :
    3 ≤ (a.getD []).length := by
  cases a with
  | none => cases ha
  | some a => exact (h a rfl).size

/-! ## Where the constructor looks -/

section Placed

variable (pre post : File)

/-- The file the message stands in. -/
def inFile : File := pre ++ s.octets ++ post

theorem length_inFile : (s.inFile pre post).length = pre.length + 8 + s.pds.length + s.gdsOctets.length +
    s.bmsOctets.length + s.bds.length + 4 + post.length := by
  simp only [inFile, octets, List.length_append, s.header_size, List.length_cons, List.length_nil]
  omega

theorem len1_inFile : len1 (s.inFile pre post) pre.length = s.pds.length := by
  have hfile : s.inFile pre post = (pre ++ s.header) ++ s.pds ++
      (s.gdsOctets ++ s.bmsOctets ++ s.bds ++ [55, 55, 55, 55] ++ post) := by
    simp only [inFile, octets, List.append_assoc]
  have hat : pre.length + 8 = (pre ++ s.header).length := by rw [List.length_append, s.header_size]
  rw [len1, hfile, hat, be_section s.isSection_pds]

theorem flags_inFile : Octets.octet (s.inFile pre post) (pre.length + 15) = Octets.octet s.pds 7 := by
  have hfile : s.inFile pre post = (pre ++ s.header) ++ s.pds ++
      (s.gdsOctets ++ s.bmsOctets ++ s.bds ++ [55, 55, 55, 55] ++ post) := by
    simp only [inFile, octets, List.append_assoc]
  have hat : pre.length + 15 = (pre ++ s.header).length + 7 := by rw [List.length_append, s.header_size]
  rw [hfile, hat, Octets.octet_middle s.pds_size]

theorem hasGds_inFile : hasGds (s.inFile pre post) pre.length = s.gds.isSome := by
  rw [hasGds, flags_inFile, s.gds_flag]

theorem hasBms_inFile : hasBms (s.inFile pre post) pre.length = s.bms.isSome := by
  rw [hasBms, flags_inFile, s.bms_flag]

theorem off2_inFile : off2 (s.inFile pre post) pre.length = pre.length + 8 + s.pds.length := by
  rw [off2, len1_inFile]

theorem len2_inFile : len2 (s.inFile pre post) pre.length = s.gdsOctets.length := by
  have hfile : s.inFile pre post = (pre ++ s.header ++ s.pds) ++ s.gds.getD [] ++
      (s.bmsOctets ++ s.bds ++ [55, 55, 55, 55] ++ post) := by
    simp only [inFile, octets, gdsOctets, List.append_assoc]
  have hat : pre.length + 8 + s.pds.length = (pre ++ s.header ++ s.pds).length := by
    simp only [List.length_append, s.header_size]
  rw [len2, hasGds_inFile, off2_inFile, hfile, hat, be_optional s.isSection_gds]
  rfl

theorem off3_inFile :
    off3 (s.inFile pre post) pre.length = pre.length + 8 + s.pds.length + s.gdsOctets.length := by
  rw [off3, off2_inFile, len2_inFile]

theorem len3_inFile : len3 (s.inFile pre post) pre.length = s.bmsOctets.length := by
  have hfile : s.inFile pre post = (pre ++ s.header ++ s.pds ++ s.gdsOctets) ++ s.bms.getD [] ++
      (s.bds ++ [55, 55, 55, 55] ++ post) := by
    simp only [inFile, octets, bmsOctets, List.append_assoc]
  have hat : pre.length + 8 + s.pds.length + s.gdsOctets.length =
      (pre ++ s.header ++ s.pds ++ s.gdsOctets).length := by
    simp only [List.length_append, s.header_size]
  rw [len3, hasBms_inFile, off3_inFile, hfile, hat, be_optional s.isSection_bms]
  rfl

theorem off4_inFile : off4 (s.inFile pre post) pre.length =
    pre.length + 8 + s.pds.length + s.gdsOctets.length + s.bmsOctets.length := by
  rw [off4, off3_inFile, len3_inFile]

/-- The constructor reads nothing outside the message. -/
theorem readable_inFile : Readable (s.inFile pre post) pre.length := by
  have hlen := s.length_inFile pre post
  have hpds := s.pds_size
  have hbds := s.isSection_bds.size
  refine ⟨by omega, ?_, ?_, ?_⟩
  · intro hg
    have hsize := optional_size s.isSection_gds (s.hasGds_inFile pre post ▸ hg)
    change 3 ≤ s.gdsOctets.length at hsize
    rw [off2_inFile]
    omega
  · intro hb
    have hsize := optional_size s.isSection_bms (s.hasBms_inFile pre post ▸ hb)
    change 3 ≤ s.bmsOctets.length at hsize
    rw [off3_inFile]
    omega
  · rw [off4_inFile]
    omega

/-- **Decoding undoes assembly**: the constructor places each section that is there at its first octet, and
`section2` and `section3` are empty exactly for the sections that are not. -/
theorem make_octets : ∃ m, Message.make (pre ++ s.octets ++ post) pre.length = .ok m ∧
    m.section0.buf = pre.length ∧
    m.section1.buffer = pre.length + s.header.length ∧
    m.section2? (pre ++ s.octets ++ post) = .ok (s.gds.map fun _ =>
      { buf := some (pre ++ s.header ++ s.pds).length }) ∧
    m.section3? (pre ++ s.octets ++ post) = .ok (s.bms.map fun _ =>
      { buf := some (pre ++ s.header ++ s.pds ++ s.gdsOctets).length }) ∧
    m.section4.buf = (pre ++ s.header ++ s.pds ++ s.gdsOctets ++ s.bmsOctets).length := by
  have hread := s.readable_inFile pre post
  have hflags : (message (s.inFile pre post) pre.length).section1.section1Flags (s.inFile pre post) =
      .ok { sec2Inc := s.gds.isSome, sec3Inc := s.bms.isSome } := by
    have hin : pre.length + 8 + 7 < (s.inFile pre post).length := by
      have := hread.flags
      omega
    simp only [ProductDefinitionSection.section1Flags, message, octet_ok hin, ok_bind, pure_eq_ok]
    rw [← hasGds_inFile s pre post, ← hasBms_inFile s pre post]
    rfl
  refine ⟨message (s.inFile pre post) pre.length, Message.make_eq hread, rfl, ?_, ?_, ?_, ?_⟩
  · rw [s.header_size]
    rfl
  · change Message.section2? _ (s.inFile pre post) = _
    rw [Message.section2?, hflags, ok_bind, message, hasGds_inFile, off2_inFile]
    simp only [List.length_append, s.header_size]
    cases s.gds <;> rfl
  · change Message.section3? _ (s.inFile pre post) = _
    rw [Message.section3?, hflags, ok_bind, message, hasBms_inFile, off3_inFile]
    simp only [List.length_append, s.header_size]
    cases s.bms <;> rfl
  · simp only [message, off4_inFile, List.length_append, s.header_size]

end Placed

/-- The parts of a message with both optional sections and eight values. -/
def allParts : Sections where
  header := [71, 82, 73, 66, 0, 0, 0, 1]
  pds := flagsSection 192
  gds := some latLonSection
  bms := some (lengthPrefixed [0, 0, 0, 255])
  bds := octetsSection [1, 2, 3, 4, 5, 6, 7, 8]
  header_size := rfl
  pds_size := by decide
  isSection_pds := by decide
  isSection_gds := by
    intro a ha
    cases ha
    decide
  isSection_bms := by
    intro a ha
    cases ha
    decide
  isSection_bds := by decide
  gds_flag := by decide
  bms_flag := by decide

example : (Message.section4 <$> Message.make allParts.octets 0) = .ok { buf := 75 } := by decide

end Sections

end Mashroom
