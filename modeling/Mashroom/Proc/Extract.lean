import Mashroom.Lib.Dict
import Mashroom.Data.Properties
import Mashroom.Grib1.Decode
import Mashroom.Grib1.Scan

/-!
# Proc.Extract — the two ways of taking values out of a file

`extractScan` is the overload that scans a file and filters its messages, `extractPositions` the one that jumps
to given positions and filters nothing.  Both poll a stop token once a message: `stop k` is the answer to poll
number `k`.
-/

namespace Mashroom

open DoWhile

/-- The error codes of the program that the modelled functions return. -/
inductive ErrorCode where
  | none
  | internalError
  | dataNotFound
  | interrupted
  deriving DecidableEq

structure ExtractedValue where
  timeDate : ℤ
  value : ℚ
  deriving DecidableEq

/-- The values extracted, in the order they came, under the common properties of their messages. -/
abbrev ExtractedData := Dict CommonDataProperties (List ExtractedValue)

/-- What the loops carry: the result, and the number of polls of the stop token. -/
structure ExtractLocals where
  result : ExtractedData
  polls : ℕ

section Body

variable (lib : OsterLib) (props : SearchProperties) (stop : ℕ → Bool)

/-- What is kept of the message: the grid is read when there is section 2. -/
def extractInfo (h : HGrib1) (msg : Message) : Except Fault GribMsgDataInfo := do
  let grid ← match ← msg.section2? h.file with
    | some section2 => section2.defineGrid lib h.file
    | none => .ok .monostate
  GribMsgDataInfo.read h msg grid

/-- The filters of the scan, each a `continue` of the loop.  The dates and the position are looked at inside the
branch for a given grid type only. -/
def extractSkips (info : GribMsgDataInfo) : Except Fault Bool :=
  if Differs props.center info.center then .ok true
  else if props.skipsParameter info then .ok true
  else if Differs props.fcstUnit info.tUnit then .ok true
  else
    match props.gridType with
    | none => .ok false
    | some gridType =>
      if info.gridData.hasGrid = false then .ok true
      else if gridType ≠ info.gridData.type then .ok true
      else if props.toDate < info.date ∨ info.date < props.fromDate then .ok true
      else do
        let pos ← optionalValue props.position
        return !posInGrid pos info.gridData

/-- The value at the position. -/
def extractAt (f : File) (msg : Message) (grid : GridInfo) : Except Fault ℚ := do
  let pos ← optionalValue props.position
  let n ← valueByRaw lib pos grid
  msg.extractValue lib f n

/-- The end of both loop bodies: a message with a grid adds an entry under its key. -/
def emit (f : File) (msg : Message) (info : GribMsgDataInfo) (result : ExtractedData) :
    Except Fault ExtractedData :=
  if info.gridData.hasGrid then do
    let value ← extractAt lib props f msg info.gridData
    return result.update info.key (· ++ [{ timeDate := info.date, value }])
  else .ok result

/-! ## The scan -/

/-- The body of the scan.  When the current message has length `0`, `next_message` is called and the reference
to the message is used on, although the message is destroyed by then. -/
def scanBody (s : HGrib1 × ExtractLocals) :
    Except Fault (Pass (HGrib1 × ExtractLocals) (ErrorCode × ExtractedData)) :=
  match s.1.msg with
  | none => .ok (.leave (.dataNotFound, s.2.result))
  | some msg => do
    let len ← msg.messageLength s.1.file
    let (moved, h) ← if len = 0 then s.1.nextMessage else .ok (false, s.1)
    if stop s.2.polls then return .leave (.none, s.2.result)
    else if moved then .error .dangling
    else
      let info ← extractInfo lib h msg
      if ← extractSkips props info then return .next (h, { s.2 with polls := s.2.polls + 1 })
      else
        let result ← emit lib props h.file msg info s.2.result
        return .next (h, { result, polls := s.2.polls + 1 })

/-- What the function returns after the loop. -/
def scanResult : Pass (HGrib1 × ExtractLocals) (ErrorCode × ExtractedData) → ErrorCode × ExtractedData
  | .leave r => r
  | .next s => (.none, s.2.result)

/-- `__extract__(file,ref_data)`, for at most `fuel` turns of its loop. -/
def extractScan (fuel : ℕ) (file : Option File) (refData : ExtractedData) :
    Option (Except Fault (ErrorCode × ExtractedData)) :=
  match HGrib1.openGrib file with
  | .error e => some (.error e)
  | .ok (err, grib) =>
    if err ≠ .noneErr then some (.ok (.internalError, refData))
    else if grib.fileSize = some 0 then some (.ok (.dataNotFound, refData))
    else
      (doWhile (scanBody lib props stop) advance fuel (grib, { result := refData, polls := 0 })).map
        fun r => scanResult <$> r

/-! ## The jumps to positions -/

/-- The loop over the positions. -/
def positionsLoop : List ℤ → HGrib1 → ExtractLocals → Except Fault (ErrorCode × ExtractedData)
  | [], _, s => .ok (.none, s.result)
  | pos :: positions, grib, s =>
    if pos < 0 then positionsLoop positions grib s
    else do
      let (found, grib) ← grib.setMessage pos
      if !found then positionsLoop positions grib s
      else
        match grib.msg with
        | none => .error .exception
        | some msg =>
          let len ← msg.messageLength grib.file
          let (moved, grib) ← if len = 0 then grib.nextMessage else .ok (false, grib)
          if stop s.polls then return (.interrupted, s.result)
          else if moved then .error .dangling
          else
            let info ← extractInfo lib grib msg
            let result ← emit lib props grib.file msg info s.result
            positionsLoop positions grib { result, polls := s.polls + 1 }

/-- `__extract__(file,ref_data,positions)`.  What `open_grib` returns is not looked at. -/
def extractPositions (file : Option File) (refData : ExtractedData) (positions : List ℤ) :
    Except Fault (ErrorCode × ExtractedData) := do
  let (_, grib) ← HGrib1.openGrib file
  if grib.fileSize = some 0 then return (.internalError, refData)
  else positionsLoop lib props stop positions grib { result := refData, polls := 0 }

end Body

/-- The body of the scan moves the reader only at a message of length `0`. -/
theorem scanBody_reader {lib : OsterLib} {props : SearchProperties} {stop : ℕ → Bool} {f : File} {p : ℕ}
    {b : ExtractLocals} {s' : HGrib1 × ExtractLocals} (hr : Layout.Readable f p) (hlen : Layout.len0 f p ≠ 0)
    (h : scanBody lib props stop (HGrib1.reader f p, b) = .ok (.next s')) : s'.1 = HGrib1.reader f p := by
  simp only [scanBody, HGrib1.reader_msg, HGrib1.reader_file, HGrib1.messageLength_message hr, ok_bind,
    if_neg hlen] at h
  split at h
  · cases h
  · obtain ⟨info, -, h⟩ := bind_eq_ok.mp h
    obtain ⟨skip, -, h⟩ := bind_eq_ok.mp h
    split at h
    · cases h
      rfl
    · obtain ⟨result, -, h⟩ := bind_eq_ok.mp h
      cases h
      rfl

end Mashroom
