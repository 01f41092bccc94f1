import Mashroom.Grib1.Grid

/-!
# Grib1.Section — the five sections of a message

Each section is a pointer into the file with the accessors of the source.  Section 1 is always there;
sections 2 and 3 are null pointers when the flags of section 1 say they are absent, and then only their length
(`0`) can be asked for.
-/

namespace Mashroom

/-- The pointer of a section that may be absent, when it is followed. -/
def deref : Option ℕ → Except Fault ℕ
  | some p => .ok p
  | none => .error .null

/-- The 3-octet length at the start of a section, `0` through a null pointer. -/
def lengthAt (f : File) : Option ℕ → Except Fault ℕ
  | some p => readBytes f p 3
  | none => .ok 0

@[simp] theorem deref_some (p : ℕ) : deref (some p) = .ok p := rfl

@[simp] theorem deref_none : deref none = .error .null := rfl

@[simp] theorem lengthAt_some (f : File) (p : ℕ) : lengthAt f (some p) = readBytes f p 3 := rfl

@[simp] theorem lengthAt_none (f : File) : lengthAt f none = .ok 0 := rfl

/-! ## Section 0 -/

structure IndicatorSection where
  buf : ℕ
  deriving DecidableEq

/-- `message_length`: octets 5 to 7. -/
def IndicatorSection.messageLength (s : IndicatorSection) (f : File) : Except Fault ℕ := readBytes f (s.buf + 4) 3

/-! ## Section 1 -/

/-- A forecast time: the count and the missed count keep their defaults when it is read from a message. -/
structure TimeForecast where
  N : ℕ := 65535
  NAvgAccMissed : ℕ := 0
  P1 : ℕ
  P2 : ℕ
  tf : TableCode
  tri : TableCode
  deriving DecidableEq

structure Level where
  levelType : TableCode
  octet11 : ℕ
  octet12 : ℕ
  deriving DecidableEq

/-- Which of sections 2 and 3 are present. -/
structure Section23Flag where
  sec2Inc : Bool
  sec3Inc : Bool
  deriving DecidableEq

/-- The days from 1970-01-01 to a civil date, for any month and day number. -/
def sysDays (year : ℤ) (month day : ℕ) : ℤ :=
  let y := if month ≤ 2 then year - 1 else year
  let m : ℤ := if month ≤ 2 then month + 9 else month - 3
  365 * y + y / 4 - y / 100 + y / 400 + (153 * m + 2) / 5 + day - 1 - 719468

structure ProductDefinitionSection where
  buffer : ℕ
  deriving DecidableEq

namespace ProductDefinitionSection

variable (s : ProductDefinitionSection) (lib : OsterLib) (f : File)

def sectionLength : Except Fault ℕ := lengthAt f (some s.buffer)

def tableVersion : Except Fault ℕ := octet f (s.buffer + 3)

def center : Except Fault TableCode := octet f (s.buffer + 4)

/-- Bits 1 and 2 of octet 8. -/
def section1Flags : Except Fault Section23Flag := do
  let o ← octet f (s.buffer + 7)
  return { sec2Inc := o &&& 128 != 0, sec3Inc := o &&& 64 != 0 }

def parameterNumber : Except Fault ℕ := octet f (s.buffer + 8)

/-- Octets 10 to 12. -/
def levelData : Except Fault Level := do
  let levelType ← octet f (s.buffer + 9)
  let octet11 ← octet f (s.buffer + 10)
  let octet12 ← octet f (s.buffer + 11)
  return { levelType, octet11, octet12 }

/-- `PDS_Year4`, the year of the century plus the full centuries, as an `unsigned short`. -/
def year : Except Fault ℕ := do
  let yearOfCentury ← octet f (s.buffer + 12)
  let century ← octet f (s.buffer + 24)
  return toUnsigned 16 (yearOfCentury + 100 * (century - 1))

/-- The reference time in nanoseconds from 1970-01-01, in 64 bits. -/
def referenceTime : Except Fault ℤ := do
  let year ← s.year f
  let month ← octet f (s.buffer + 13)
  let day ← octet f (s.buffer + 14)
  let hour ← octet f (s.buffer + 15)
  let minute ← octet f (s.buffer + 16)
  let minutes := sysDays (toSigned 16 year) month day * 1440 + hour * 60 + minute
  return toSigned 64 (minutes * 60000000000)

/-- The time forecast of octets 18 to 21. -/
def timeForecast : Except Fault TimeForecast := do
  let tf ← octet f (s.buffer + 17)
  let tri ← readBytes f (s.buffer + 20) 1
  let P1 ← readBytes f (s.buffer + 18) 1
  let P2 ← readBytes f (s.buffer + 19) 1
  return { tf, tri, P1, P2 }

/-- `decimal_scale_factor`: `INT2` of octets 27-28, as an `unsigned short`. -/
def decimalScaleFactor : Except Fault ℕ := toUnsigned 16 <$> int2At lib f (s.buffer + 26)

end ProductDefinitionSection

/-! ## Section 2 -/

structure GridDescriptionSection where
  buf : Option ℕ
  deriving DecidableEq

/-- The sum of the `n` two-octet row counts from the offset `pl` of the section at `g`. -/
def sumRows (f : File) (g : ℕ) (pl : ℤ) : ℕ → Except Fault ℕ
  | 0 => .ok 0
  | n + 1 => do
    let isum ← sumRows f g pl n
    let hi ← octetAt f (g + (pl + n * 2))
    let lo ← octetAt f (g + (pl + n * 2 + 1))
    return isum + (hi * 256 + lo)

namespace GridDescriptionSection

variable (s : GridDescriptionSection) (lib : OsterLib) (f : File)

def sectionLength : Except Fault ℕ := lengthAt f s.buf

def getRepresentationType : Except Fault ℕ := do
  let g ← deref s.buf
  octet f (g + 5)

def defineGrid : Except Fault GridInfo := do
  let id ← s.getRepresentationType f
  let g ← deref s.buf
  GridInfo.emplaceById lib f g id

/-- `GDS_PL`: where the row counts of a quasi-regular grid start. -/
def getPL (g : ℕ) : Except Fault ℤ := do
  let pv ← octet f (g + 4)
  if pv = 255 then return -1 else
    let nv ← octet f (g + 3)
    return nv * 4 + pv - 1

/-- `nxny`: the sum of the row counts of a quasi-regular grid, but `0` for a regular one.  The product of the
two dimensions is computed as an `int` and not used. -/
def nxny : Except Fault ℕ := do
  let rep ← s.getRepresentationType f
  let g ← deref s.buf
  let known ← isRepresentation rep
  if known = true ∧ (rep = 0 ∨ rep = 4) then
    let ix ← readBytes f (g + 6) 2
    let iy ← readBytes f (g + 8) 2
    let _ ← cInt (ix * iy)
    if ix = 65535 then
      let pl ← getPL f g
      sumRows f g pl iy
    else return 0
  else .error .exit

end GridDescriptionSection

/-! ## Section 3 -/

structure BitMapSection where
  buf : Option ℕ
  deriving DecidableEq

def BitMapSection.sectionLength (s : BitMapSection) (f : File) : Except Fault ℕ := lengthAt f s.buf

/-! ## Section 4 -/

/-- `Flag`: the flags the decoder tests. -/
structure Flag where
  sphericalHarmCoefs : Bool
  complexPack : Bool
  deriving DecidableEq

structure BinaryDataSection where
  buf : ℕ
  deriving DecidableEq

namespace BinaryDataSection

variable (s : BinaryDataSection) (lib : OsterLib) (f : File)

def getBDSLength : Except Fault ℕ := lengthAt f (some s.buf)

/-- `get_data_flag`: `bds[3] & 128` is kept in a one-bit field, so only its lowest bit is, which is `0`.  The
extended flags of octet 14 are read when bit 4 announces them. -/
def getDataFlag : Except Fault Flag := do
  let o ← octet f (s.buf + 3)
  if o &&& 16 ≠ 0 then
    let _ ← octet f (s.buf + 13)
  return { sphericalHarmCoefs := (o &&& 128) % 2 != 0, complexPack := o &&& 64 != 0 }

/-- The binary scale factor, octets 5 and 6. -/
def scaleFactor : Except Fault ℤ := toSigned 16 <$> int2At lib f (s.buf + 4)

/-- The reference value, octets 7 to 10. -/
def refValue : Except Fault ℚ := ibmAt lib f (s.buf + 6)

def bitPerValue : Except Fault ℕ := octet f (s.buf + 10)

end BinaryDataSection

end Mashroom
