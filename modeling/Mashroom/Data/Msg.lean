import Mashroom.Grib1.Decoded
import Mashroom.Grib1.HGrib

/-!
# Data.Msg — what the program keeps of a message

`GribMsgDataInfo` collects the grid, the reference time, the position and the identification of the message a
reader stands at.  `Layout.infoAt` says what it holds, on the octets alone, for a well-formed message
(`GribMsgDataInfo.read_reader`).
-/

namespace Mashroom

open Layout

/-- `.value()` of an optional, which throws when it is empty. -/
def optionalValue {α : Type} : Option α → Except Fault α
  | some a => .ok a
  | none => .error .exception

structure GribMsgDataInfo where
  gridData : GridInfo
  date : ℤ
  bufPos : ℤ
  tUnit : TimeForecast
  center : TableCode
  level : Level
  msgSz : ℕ
  parameter : ℕ
  tableVersion : ℕ
  /-- `none` when the message never got one -/
  err : Option Code
  deriving DecidableEq

/-- The constructor on what the loops over a file pass to it: the grid, and what they read of the message. -/
def GribMsgDataInfo.read (h : HGrib1) (m : Message) (gridData : GridInfo) : Except Fault GribMsgDataInfo := do
  let date ← m.section1.referenceTime h.file
  let len ← h.currentMessageLength
  let msgSz ← optionalValue len
  let parameter ← m.section1.parameterNumber h.file
  let tUnit ← m.section1.timeForecast h.file
  let center ← m.section1.center h.file
  let tableVersion ← m.section1.tableVersion h.file
  let level ← m.section1.levelData h.file
  return {
    gridData, date, tUnit, center, level, msgSz, parameter, tableVersion
    bufPos := h.currentMessagePosition
    err := m.err }

/-! ## On the octets -/

namespace Layout

variable (lib : OsterLib) (f : File) (p : ℕ)

/-- The reference time of a message. -/
def refTime : ℤ :=
  let year := toUnsigned 16 (Octets.octet f (p + 20) + 100 * (Octets.octet f (p + 32) - 1))
  let days := sysDays (toSigned 16 year) (Octets.octet f (p + 21)) (Octets.octet f (p + 22))
  toSigned 64 ((days * 1440 + Octets.octet f (p + 23) * 60 + Octets.octet f (p + 24)) * 60000000000)

/-- The generating centre. -/
def centerAt : TableCode := Octets.octet f (p + 12)

/-- The table version. -/
def tableAt : ℕ := Octets.octet f (p + 11)

/-- The parameter. -/
def parameterAt : ℕ := Octets.octet f (p + 16)

/-- The level. -/
def levelAt : Level where
  levelType := Octets.octet f (p + 17)
  octet11 := Octets.octet f (p + 18)
  octet12 := Octets.octet f (p + 19)

/-- The time forecast. -/
def forecastAt : TimeForecast where
  tf := Octets.octet f (p + 25)
  P1 := Octets.octet f (p + 26)
  P2 := Octets.octet f (p + 27)
  tri := Octets.octet f (p + 28)

/-- The grid of section 2, no grid without the section. -/
def gridAt : GridInfo :=
  if hasGds f p then
    match GridInfo.emplaceById lib f (off2 f p) (gridOctet f p) with
    | .ok grid => grid
    | .error _ => .monostate
  else .monostate

/-- What is kept of the message. -/
def infoAt (gridData : GridInfo) : GribMsgDataInfo where
  gridData
  date := refTime f p
  bufPos := p
  tUnit := forecastAt f p
  center := centerAt f p
  level := levelAt f p
  msgSz := len0 f p
  parameter := parameterAt f p
  tableVersion := tableAt f p
  err := (message f p).err

end Layout

section WellFormed

variable {lib : OsterLib} {f : File} {p : ℕ} (hw : WellFormed f p)

include hw

theorem referenceTime_message : (message f p).section1.referenceTime f = .ok (refTime f p) := by
  have h1 := hw.off1_le
  have h2 := hw.end_le
  have h3 : off2 f p + len2 f p = off3 f p := rfl
  have h4 : off3 f p + len3 f p = off4 f p := rfl
  simp only [ProductDefinitionSection.referenceTime, ProductDefinitionSection.year, message]
  rw [octet_ok (by omega), octet_ok (by omega), octet_ok (by omega), octet_ok (by omega), octet_ok (by omega),
    octet_ok (by omega)]
  rfl

theorem timeForecast_message : (message f p).section1.timeForecast f = .ok (forecastAt f p) := by
  have h1 := hw.off1_le
  have h2 := hw.end_le
  have h3 : off2 f p + len2 f p = off3 f p := rfl
  have h4 : off3 f p + len3 f p = off4 f p := rfl
  have hbe : ∀ q, Octets.be f q 1 = Octets.octet f q := fun q => by simp [Octets.be]
  simp only [ProductDefinitionSection.timeForecast, message]
  rw [octet_ok (by omega), readBytes_ok (by omega), readBytes_ok (by omega), readBytes_ok (by omega), hbe, hbe, hbe]
  rfl

theorem levelData_message : (message f p).section1.levelData f = .ok (levelAt f p) := by
  have h := hw.readable.bds
  have h1 := hw.off1_le
  have h3 : off2 f p + len2 f p = off3 f p := rfl
  have h4 : off3 f p + len3 f p = off4 f p := rfl
  simp only [ProductDefinitionSection.levelData, message]
  rw [octet_ok (by omega), octet_ok (by omega), octet_ok (by omega)]
  rfl

/-- For a well-formed message the constructor gives what the octets say. -/
theorem GribMsgDataInfo.read_reader (grid : GridInfo) :
    GribMsgDataInfo.read (HGrib1.reader f p) (message f p) grid = .ok (infoAt f p grid) := by
  have h := hw.readable.bds
  have h1 := hw.off1_le
  have h3 : off2 f p + len2 f p = off3 f p := rfl
  have h4 : off3 f p + len3 f p = off4 f p := rfl
  have hp : (message f p).section1.parameterNumber f = .ok (parameterAt f p) := octet_ok (by simp only [message]; omega)
  have hc : (message f p).section1.center f = .ok (centerAt f p) := octet_ok (by simp only [message]; omega)
  have ht : (message f p).section1.tableVersion f = .ok (tableAt f p) := octet_ok (by simp only [message]; omega)
  simp only [GribMsgDataInfo.read, HGrib1.reader_file, referenceTime_message hw,
    HGrib1.currentMessageLength_reader hw.readable, timeForecast_message hw, levelData_message hw, hp, hc, ht,
    optionalValue, ok_bind]
  rfl

/-- The grid of a well-formed message that has section 2 is read. -/
theorem defineGrid_message (hg : hasGds f p = true) :
    (message f p).section2.defineGrid lib f = .ok (gridAt lib f p) := by
  have h2 := hw.gds hg
  have h3 : off2 f p + len2 f p = off3 f p := rfl
  have h4 : off3 f p + len3 f p = off4 f p := rfl
  have h5 := hw.end_le
  have hd : Defined (GridInfo.emplaceById lib f (off2 f p) (gridOctet f p)) :=
    GridInfo.emplaceById_defined fun r hr => by
      have := hw.grid hg r hr
      omega
  obtain ⟨grid, hgrid⟩ := hd
  have hbuf : deref (message f p).section2.buf = .ok (off2 f p) := by simp [message, hg]
  have htype : (message f p).section2.getRepresentationType f = .ok (gridOctet f p) := by
    rw [GridDescriptionSection.getRepresentationType, hbuf, ok_bind, octet_ok (by omega)]
    rfl
  rw [GridDescriptionSection.defineGrid, htype, ok_bind, hbuf, ok_bind, gridAt, if_pos hg, hgrid]

end WellFormed

end Mashroom
