import Mashroom.Lib.Json
import Mashroom.Proc.Restored
import Mashroom.Proc.Windows

/-!
# Proc.Json — the JSON files of extracted data, and how they are read

A file is an object of the type and the format of the data, the grid, the position, and an array of series, each with
its properties and its values.  The readers return a value, or that there is none; those of the properties of a series
end without a `return` where they have read everything.  So a file with a series cannot be read, and the data is read
back exactly where there is no series (`jsonRestored_iff`).
-/

namespace Mashroom

/-! ## What is written and read elsewhere -/

/-- How the values of a type are written, and what they are read from. -/
structure JsonConv (α : Type) where
  toJson : α → Json
  fromJson : Json → Option α

/-- The conversions of OsterLib, and those that are declared only.  Enumerations are numbers; `TIME_SERIES` and
`GRIB_v1` are 0. -/
structure JsonLib where
  dataType : JsonConv ℕ
  dataFormat : JsonConv ℕ
  representationType : JsonConv RepresentationType
  coord : JsonConv Coord
  /-- `uint8_t` -/
  nat8 : JsonConv ℕ
  /-- `uint16_t` -/
  nat16 : JsonConv ℕ
  timeFrame : JsonConv TableCode
  timeRangeIndicator : JsonConv TableCode
  levelsTags : JsonConv TableCode
  /-- a time, in seconds -/
  time : JsonConv ℤ
  float : JsonConv ℚ
  common : JsonConv CommonDataProperties
  /-- `std::optional`, which is only written -/
  optional {α : Type} : (α → Json) → Option α → Json
  /-- `std::span`, which is only written -/
  span {α : Type} : (α → Json) → List α → Json
  /-- `std::vector`, which is only read -/
  vector {α : Type} : (Json → Option α) → Json → Option (List α)
  /-- `std::to_string` of the height or of a bound of a level, and its unit -/
  levelText : String → Level → List Char

section Code

variable (lib : JsonLib)

/-! ## Forecasts and levels -/

def TimeForecast.toJson (val : TimeForecast) : Json := .object (
  [("time frame".toList, lib.timeFrame.toJson val.tf),
    ("time range indicator".toList, lib.timeRangeIndicator.toJson val.tri)] ++
  (if val.isIntervaled then
    [("N avg/acc".toList, lib.nat16.toJson val.N), ("N missed".toList, lib.nat8.toJson val.NAvgAccMissed)] else []) ++
  if val.octetDoubled ∧ val.isUniqueValue then [("P1".toList, .uint64 val.P1)]
  else [("P1".toList, .uint64 val.P1), ("P2".toList, .uint64 val.P2)])

/-- The counts of a forecast, which are left as they are when one of them is not there. -/
def TimeForecast.countsFromJson (members : List (List Char × Json)) (fcst : TimeForecast) : Option TimeForecast :=
  match Json.member? members "N avg/acc".toList, Json.member? members "N missed".toList with
  | some n, some missed => do
    return { fcst with N := ← lib.nat16.fromJson n, NAvgAccMissed := ← lib.nat8.fromJson missed }
  | _, _ => some fcst

/-- `from_json<TimeForecast>`.  The second period is read from the first. -/
def TimeForecast.fromJson (val : Json) : Option TimeForecast := do
  let members ← val.asObject
  let tf ← Json.member? members "time frame".toList
  let tri ← Json.member? members "time range indicator".toList
  let fcst : TimeForecast :=
    { tf := ← lib.timeFrame.fromJson tf, tri := ← lib.timeRangeIndicator.fromJson tri, P1 := 0, P2 := 0 }
  let fcst ← if fcst.isIntervaled then countsFromJson lib members fcst else some fcst
  let P1 ← Json.member? members "P1".toList
  let fcst := { fcst with P1 := ← lib.nat8.fromJson P1 }
  if ¬ fcst.octetDoubled ∧ ¬ fcst.isUniqueValue then
    let _ ← Json.member? members "P2".toList
    return { fcst with P2 := ← lib.nat8.fromJson P1 }
  else return fcst

def Level.toJson (val : Level) : Except Fault Json := do
  let bounded ← isBounded val.levelType
  return .object (
    [("11".toList, lib.nat8.toJson val.octet11), ("12".toList, lib.nat8.toJson val.octet12),
      ("tag".toList, lib.levelsTags.toJson val.levelType)] ++
    if bounded then
      [("top".toList, .string (lib.levelText "top" val)), ("bottom".toList, .string (lib.levelText "bottom" val))]
    else [("height".toList, .string (lib.levelText "height" val))])

/-- `at` of an object, which throws when there is no such member. -/
def memberAt (members : List (List Char × Json)) (name : List Char) : Except Fault Json :=
  match Json.member? members name with
  | some j => .ok j
  | none => .error .exception

/-- `from_json<Level>`.  The three values are all read as the first octet; the type of the level that is copied to the
caller was never set. -/
def Level.fromJson (val : Json) : Except Fault (Option Level) :=
  match val.asObject with
  | none => .ok none
  | some members => do
    let _ ← memberAt members "12".toList
    let _ ← memberAt members "tag".toList
    .error .indeterminate

/-! ## Values and properties -/

def ExtractedValue.toJson (val : ExtractedValue) : Json := .object
  [("time".toList, lib.time.toJson val.timeDate), ("value".toList, lib.float.toJson val.value)]

def ExtractedValue.fromJson (val : Json) : Option ExtractedValue := do
  let members ← val.asObject
  let time ← Json.member? members "time".toList
  let value ← Json.member? members "value".toList
  return { timeDate := ← lib.time.fromJson time, value := ← lib.float.fromJson value }

def AdditionalExtractDataProperties.toJson (add : AdditionalExtractDataProperties) : Except Fault Json := do
  let level ← add.level.toJson lib
  return .object [("forecast data".toList, add.fcst.toJson lib), ("level".toList, level)]

/-- `from_json<AdditionalExtractDataProperties>`, which does not return what it has read. -/
def AdditionalExtractDataProperties.fromJson (val : Json) :
    Except Fault (Option AdditionalExtractDataProperties) :=
  match val.asObject with
  | none => .ok none
  | some members =>
    match Json.member? members "forecast data".toList, Json.member? members "level".toList with
    | some fcst, some level =>
      match TimeForecast.fromJson lib fcst with
      | none => .ok none
      | some _ => do
        match ← Level.fromJson level with
        | none => return none
        | some _ => .error .noReturn
    | _, _ => .error .noReturn

def ExtractDataProperties.toJson (data : ExtractDataProperties) : Except Fault Json := do
  let additional ← data.add.toJson lib
  return .object [("common".toList, lib.common.toJson data.cmn), ("additional".toList, additional)]

/-- `from_json<ExtractDataProperties>`, which does not return what it has read. -/
def ExtractDataProperties.fromJson (value : Json) : Except Fault (Option ExtractDataProperties) :=
  match value.asObject with
  | none => .ok none
  | some members =>
    match (Json.member? members "common".toList).bind lib.common.fromJson with
    | none => .ok none
    | some _ =>
      match Json.member? members "additional".toList with
      | none => .ok none
      | some additional => do
        match ← AdditionalExtractDataProperties.fromJson lib additional with
        | none => return none
        | some _ => .error .noReturn

/-- The elements of the array of series, one after the other. -/
def seriesFromJson (result : ExtractedValues) : List Json → Except Fault (Option ExtractedValues)
  | [] => .ok (some result)
  | .null :: elems => seriesFromJson result elems
  | .object members :: elems =>
    match Json.member? members "info".toList, Json.member? members "values".toList with
    | some info, some values => do
      match ← ExtractDataProperties.fromJson lib info with
      | none => return none
      | some k =>
        match lib.vector (ExtractedValue.fromJson lib) values with
        | none => return none
        | some vs => seriesFromJson (result.insert k vs) elems
    | _, _ => .ok none
  | _ :: _ => .ok none

/-- `from_json<ExtractedValues>` -/
def ExtractedValues.fromJson (data : Json) : Except Fault (Option ExtractedValues) :=
  match data.asArray with
  | none => .ok none
  | some elems => seriesFromJson lib ∅ elems

/-! ## Files -/

/-- The series of a file. -/
def seriesToJson (e : ExtractDataProperties × List ExtractedValue) : Except Fault Json := do
  let info ← e.1.toJson lib
  return .object [("info".toList, info), ("values".toList, lib.span (ExtractedValue.toJson lib) e.2)]

/-- What `write_json_file` writes to a file. -/
def jsonFile (props : SearchProperties) (content : WindowFile) : Except Fault Json := do
  let data ← content.mapM (seriesToJson lib)
  return .object [("type".toList, lib.dataType.toJson 0), ("format".toList, lib.dataFormat.toJson 0),
    ("grid".toList, lib.optional lib.representationType.toJson props.gridType),
    ("position".toList, lib.optional lib.coord.toJson props.position), ("data".toList, .array data)]

/-- The files of `write_json_file`. -/
def jsonFiles (sort : SortByTime) (props : SearchProperties) (p : TimePeriod) (outPath : Path)
    (result : ExtractedValues) : Except Fault (List (Path × Json)) := do
  let files ← writeJsonFile sort props p outPath result
  files.entries.mapM fun f => do return (f.1, ← jsonFile lib props f.2)

/-- `get_json_token`, on the members of the file. -/
def getJsonToken {α : Type} (fromJson : Json → Except Fault (Option α)) (members : List (List Char × Json))
    (token : List Char) : Except Fault α := do
  match ← fromJson (← memberAt members token) with
  | none => .error .exception
  | some a => return a

/-- `read_json_file`, on what can be parsed.  All of its exceptions are one. -/
def readJsonFile (json : Json) : Except Fault ExtractedValues :=
  match json.asObject with
  | none => .error .exception
  | some members => do
    let _ ← memberAt members "type".toList
    let fmt ← getJsonToken (fun j => .ok (lib.dataFormat.fromJson j)) members "format".toList
    let type ← getJsonToken (fun j => .ok (lib.dataType.fromJson j)) members "type".toList
    if fmt = 0 ∧ type = 0 then
      let _ ← getJsonToken (fun j => .ok (lib.representationType.fromJson j)) members "grid".toList
      let _ ← getJsonToken (fun j => .ok (lib.coord.fromJson j)) members "position".toList
      getJsonToken (ExtractedValues.fromJson lib) members "data".toList
    else .error .exception

/-- `read_json_file` on every file. -/
def readJsonFiles (files : List (Path × Json)) : Except Fault (List ExtractedValues) :=
  files.mapM fun f => readJsonFile lib f.2.reread

end Code

/-! ## A file with a series -/

section Read

variable {lib : JsonLib}

/-- The properties of a series are never returned. -/
theorem ExtractDataProperties.fromJson_ne {value : Json} {k : ExtractDataProperties} :
    ExtractDataProperties.fromJson lib value ≠ .ok (some k) := by
  intro h
  unfold ExtractDataProperties.fromJson at h
  split at h
  · cases h
  · split at h
    · cases h
    · split at h
      · cases h
      · obtain ⟨add, -, h⟩ := bind_eq_ok.mp h
        cases add with
        | none => cases h
        | some add => cases h

/-- Nor is an array that begins with a series. -/
theorem seriesFromJson_ne {result r : ExtractedValues} {members : List (List Char × Json)} {elems : List Json} :
    seriesFromJson lib result (.object members :: elems) ≠ .ok (some r) := by
  intro h
  unfold seriesFromJson at h
  split at h
  · obtain ⟨k, hk, h⟩ := bind_eq_ok.mp h
    cases k with
    | none => cases h
    | some k => exact ExtractDataProperties.fromJson_ne hk
  · cases h

/-- What is read of a file was returned by the reader of the series. -/
theorem of_readJsonFile {members : List (List Char × Json)} {elems : List Json} {r : ExtractedValues}
    (hdata : Json.member? members "data".toList = some (.array elems))
    (h : readJsonFile lib (.object members) = .ok r) : seriesFromJson lib ∅ elems = .ok (some r) := by
  obtain ⟨-, -, h⟩ := bind_eq_ok.mp h
  obtain ⟨fmt, -, h⟩ := bind_eq_ok.mp h
  obtain ⟨type, -, h⟩ := bind_eq_ok.mp h
  split at h
  · obtain ⟨-, -, h⟩ := bind_eq_ok.mp h
    obtain ⟨-, -, h⟩ := bind_eq_ok.mp h
    obtain ⟨j, hj, h⟩ := bind_eq_ok.mp h
    rw [memberAt, hdata] at hj
    obtain rfl := Except.ok.inj hj
    obtain ⟨values, hvalues, h⟩ := bind_eq_ok.mp h
    cases values with
    | none => cases h
    | some values =>
      obtain rfl := Except.ok.inj h
      exact hvalues
  · cases h

/-- The array of a file begins with an object for the first series. -/
theorem of_jsonFile {props : SearchProperties} {content : WindowFile} {json : Json} (hne : content ≠ [])
    (hjson : jsonFile lib props content = .ok json) :
    ∃ members first rest, json = .object members ∧
      Json.member? members "data".toList = some (.array (.object first :: rest)) := by
  obtain ⟨data, hdata, hjson⟩ := bind_eq_ok.mp hjson
  obtain rfl := Except.ok.inj hjson
  cases content with
  | nil => exact absurd rfl hne
  | cons e content =>
    rw [List.mapM_cons] at hdata
    obtain ⟨first, hfirst, hdata⟩ := bind_eq_ok.mp hdata
    obtain ⟨rest, -, hdata⟩ := bind_eq_ok.mp hdata
    obtain ⟨info, -, hfirst⟩ := bind_eq_ok.mp hfirst
    obtain rfl := Except.ok.inj hfirst
    obtain rfl := Except.ok.inj hdata
    exact ⟨_, _, _, rfl, rfl⟩

/-- A file that is written with a series cannot be read. -/
theorem readJsonFile_ne {props : SearchProperties} {content : WindowFile} {json : Json} {r : ExtractedValues}
    (hne : content ≠ []) (hjson : jsonFile lib props content = .ok json) :
    readJsonFile lib json.reread ≠ .ok r := by
  intro h
  obtain ⟨members, first, rest, rfl, hdata⟩ := of_jsonFile hne hjson
  have hreread : Json.member? (Json.rereadMembers members) "data".toList =
      some (.array (.object (Json.rereadMembers first) :: Json.rereadElems rest)) := by
    rw [Json.member?_reread, hdata, Option.map_some, Json.reread, Json.rereadElems, Json.reread]
  rw [Json.reread] at h
  exact seriesFromJson_ne (of_readJsonFile hreread h)

end Read

/-! ## What is read back -/

section Restored

variable {lib : JsonLib} {sort : SortByTime} {props : SearchProperties} {p : TimePeriod} {outPath : Path}
  {data : ExtractedValues}

/-- Every file that is written has all series. -/
theorem ne_nil_of_writeJsonFile {files : Files WindowFile} (hentries : data.entries ≠ [])
    (hok : writeJsonFile sort props p outPath data = .ok files) : ∀ f ∈ files.entries, f.2 ≠ [] := by
  intro f hf hnil
  rcases writeWindows_eq_ok hok with rfl | ⟨minTime, maxTime, name, -, -, -, rfl⟩
  · cases hf
  · obtain ⟨t, -, ht⟩ := of_windowFiles.2 f hf
    rw [ht] at hnil
    exact hentries (List.map_eq_nil_iff.mp (List.map_eq_nil_iff.mp hnil))

/-- No file that is written can be read. -/
theorem files_eq_nil {files : List (Path × Json)} {reads : List ExtractedValues} (hentries : data.entries ≠ [])
    (hok : jsonFiles lib sort props p outPath data = .ok files) (hread : readJsonFiles lib files = .ok reads) :
    files = [] := by
  obtain ⟨windows, hwindows, hfiles⟩ := bind_eq_ok.mp hok
  cases hw : windows.entries with
  | nil =>
    rw [hw] at hfiles
    exact (Except.ok.inj hfiles).symm
  | cons f rest =>
    exfalso
    rw [hw, List.mapM_cons] at hfiles
    obtain ⟨first, hfirst, hfiles⟩ := bind_eq_ok.mp hfiles
    obtain ⟨others, -, hfiles⟩ := bind_eq_ok.mp hfiles
    obtain ⟨json, hjson, hfirst⟩ := bind_eq_ok.mp hfirst
    obtain rfl := Except.ok.inj hfirst
    obtain rfl := Except.ok.inj hfiles
    obtain ⟨r, hr⟩ := mapM_ok_iff.mp ⟨reads, hread⟩ _ List.mem_cons_self
    exact readJsonFile_ne (ne_nil_of_writeJsonFile hentries hwindows f (by rw [hw]; exact List.mem_cons_self)) hjson hr

/-- The files are written, every one of them can be read, and what is read is the data. -/
def JsonRestored (lib : JsonLib) (sort : SortByTime) (props : SearchProperties) (p : TimePeriod) (outPath : Path)
    (data : ExtractedValues) : Prop :=
  ∃ files reads, jsonFiles lib sort props p outPath data = .ok files ∧ readJsonFiles lib files = .ok reads ∧
    Restores data reads

theorem not_jsonRestored (hentries : data.entries ≠ []) : ¬ JsonRestored lib sort props p outPath data := by
  rintro ⟨files, reads, hok, hread, hrest⟩
  obtain rfl := files_eq_nil hentries hok hread
  obtain rfl := Except.ok.inj hread
  exact hentries (entries_eq_nil_of_restores hrest)

/-- **The JSON files are read back as the data exactly where there is no series.** -/
theorem jsonRestored_iff (lib : JsonLib) (sort : SortByTime) (props : SearchProperties) (p : TimePeriod)
    (outPath : Path) (data : ExtractedValues) : JsonRestored lib sort props p outPath data ↔ data.entries = [] := by
  constructor
  · intro h
    by_contra hentries
    exact not_jsonRestored hentries h
  · intro hentries
    have hfronts : fronts (data.mapValues sort.sort) = [] := by
      rw [fronts_sort, firstTimes, hentries]
      rfl
    refine ⟨[], [], ?_, rfl, restores_nil hentries⟩
    simp [jsonFiles, writeJsonFile, writeWindows, hfronts]

end Restored

/-! ## A series of one value -/

namespace JsonLib

/-- A number, which is signed when it is read. -/
def number : JsonConv ℕ where
  toJson n := .uint64 n
  fromJson j := j.asInt64.map Int.toNat

/-- An optional number, or null. -/
def optionalNumber (o : Option ℕ) : Json := o.elim .null number.toJson

/-- Enumerations by their numbers, a position by its two coordinates, times in seconds. -/
def reference : JsonLib where
  dataType := number
  dataFormat := number
  representationType := {
    toJson r := .uint64 ((List.range 256).findIdx fun n => RepresentationType.ofOctet n = some r)
    fromJson j := j.asInt64.bind fun n => RepresentationType.ofOctet n.toNat }
  coord := {
    toJson c := .array [.double c.lat, .double c.lon]
    fromJson := fun
      | .array [.double lat, .double lon] => some ⟨lat, lon⟩
      | _ => none }
  nat8 := number
  nat16 := number
  timeFrame := number
  timeRangeIndicator := number
  levelsTags := number
  time := {
    toJson t := .int64 (t / nsPerSecond)
    fromJson j := j.asInt64.map (· * nsPerSecond) }
  float := {
    toJson := .double
    fromJson := fun
      | .double q => some q
      | _ => none }
  common := {
    toJson c := .array [optionalNumber c.center, optionalNumber c.tableVersion, optionalNumber c.parameter]
    fromJson := fun
      | .array [center, tableVersion, parameter] => some {
        center := number.fromJson center
        tableVersion := number.fromJson tableVersion
        parameter := number.fromJson parameter }
      | _ => none }
  optional toJson o := o.elim .null toJson
  span toJson l := .array (l.map toJson)
  vector fromJson j := j.asArray.bind (·.mapM fromJson)
  levelText _ _ := "0".toList

end JsonLib

/-- A series of one value. -/
def oneValue : ExtractedValues := AList.insert (seriesAt 246) [⟨0, 1⟩] ∅

/-- The value is not read back. -/
theorem oneValue_not_read : ¬ JsonRestored .reference .insertion searchedProps .day ⟨true, []⟩ oneValue :=
  not_jsonRestored (List.cons_ne_nil _ _)

end Mashroom
