import Mashroom.Grib1.Levels
import Mashroom.Proc.Output

/-!
# Proc.TextHeader — the header of a text file of extracted data

A header tells, line by line, where the data is from and what each of its columns is.  A line is kept as what it is made
of: the tabs before it, its token, and the value behind the colon.  Heights and bounds of levels are written for the
reader of the file only.
-/

namespace Mashroom

/-! ## Lines -/

/-- A word of a line: no blank, tab or end of line is in it. -/
def Word (s : List Char) : Prop := s ≠ [] ∧ ∀ c ∈ s, c ≠ ' ' ∧ c ≠ '\t' ∧ c ≠ '\n'

instance (s : List Char) : Decidable (Word s) :=
  @instDecidableAnd _ _ _ (List.decidableBAll (fun c => c ≠ ' ' ∧ c ≠ '\t' ∧ c ≠ '\n') s)

/-- `parameter_table`, generated from the tables of ecCodes: the names of the parameters are words. -/
structure ParameterTable where
  name : TableCode → ℕ → ℕ → Option (List Char)
  word : ∀ center tableVersion parameter n, name center tableVersion parameter = some n → Word n

/-- What stands behind the colon of a line. -/
inductive HeaderValue where
  /-- the beginning of a structure -/
  | none
  | num (n : ℕ)
  | text (s : List Char)
  | coord (q : ℚ)
  | grid (g : RepresentationType)
  /-- `get_top_bound`, `get_bottom_bound` or `get_level_height`, by the token of the line -/
  | level (l : Level)
  deriving DecidableEq

/-- A line up to the rows. -/
inductive HeaderLine where
  /-- a line without a colon -/
  | mark (s : String)
  /-- `write_parameter` -/
  | param (indent : ℕ) (token : String) (value : HeaderValue)
  /-- the names of the columns -/
  | names (s : List Char)
  deriving DecidableEq

/-- `std::left` and `std::setw`. -/
def setw (width : ℕ) (s : List Char) : List Char := s ++ List.replicate (width - s.length) ' '

/-! ## Properties of a series -/

/-- `*` of an optional, which has no meaning when it is empty. -/
def optionalDeref {α : Type} : Option α → Except Fault α
  | some a => .ok a
  | none => .error .indeterminate

namespace TimeForecast

def isIntervaled (t : TimeForecast) : Prop := t.tri ∈ [115, 116, 117, 119, 123, 124, 125]

def octetDoubled (t : TimeForecast) : Prop := t.tri = 10

def isUniqueValue (t : TimeForecast) : Prop := t.tri ∈ [0, 1, 10]

instance (t : TimeForecast) : Decidable t.isIntervaled := inferInstanceAs (Decidable (_ ∈ _))

instance (t : TimeForecast) : Decidable t.octetDoubled := inferInstanceAs (Decidable (_ = _))

instance (t : TimeForecast) : Decidable t.isUniqueValue := inferInstanceAs (Decidable (_ ∈ _))

def lines (t : TimeForecast) : List HeaderLine :=
  [.param 0 "forecast data" .none, .param 1 "time frame" (.num t.tf), .param 1 "time range indicator" (.num t.tri)] ++
  (if t.isIntervaled then [.param 1 "N avg/acc" (.num t.N), .param 1 "N missed" (.num t.NAvgAccMissed)] else []) ++
  if t.octetDoubled then [.param 1 "P1" (.num ((t.P1 <<< 8 ||| t.P2) % 2 ^ 16))]
  else if t.isUniqueValue then [.param 1 "P1" (.num t.P1)]
  else [.param 1 "P1" (.num t.P1), .param 1 "P2" (.num t.P2)]

end TimeForecast

namespace Level

def lines (l : Level) : Except Fault (List HeaderLine) := do
  let bounded ← isBounded l.levelType
  return [.param 0 "level" .none, .param 1 "tag" (.num l.levelType), .param 1 "o11" (.num l.octet11),
    .param 1 "o12" (.num l.octet12)] ++
    if bounded then [.param 1 "top bound" (.level l), .param 1 "bottom bound" (.level l)]
    else [.param 1 "height" (.level l)]

end Level

/-! ## The header -/

variable (table : ParameterTable) (props : SearchProperties)

/-- The lines of one series.  They name the centre that was searched for. -/
def seriesLines (k : ExtractDataProperties) : Except Fault (List HeaderLine) := do
  let center ← optionalDeref k.cmn.center
  let tableVersion ← optionalDeref k.cmn.tableVersion
  let parameter ← optionalDeref k.cmn.parameter
  match table.name center tableVersion parameter with
  | none => .error .exception
  | some name =>
    let searched ← optionalValue props.center
    let level ← k.add.level.lines
    return [.param 0 "name" (.text name), .param 0 "indicator" (.num parameter),
      .param 0 "table version" (.num tableVersion), .param 0 "center" (.num searched)] ++
      k.add.fcst.lines ++ level

/-- `get_file_header`, with no description. -/
def getFileHeader (keys : List ExtractDataProperties) : Except Fault (List HeaderLine) := do
  let pos ← optionalDeref props.position
  let grid ← optionalValue props.gridType
  let series ← keys.mapM (seriesLines table props)
  return [.mark "Mashroom", .mark "\\header", .param 0 "type" (.num 0), .param 0 "format" (.num 0),
    .param 0 "version" (.num 1), .param 0 "latitude" (.coord pos.lat), .param 0 "longitude" (.coord pos.lon),
    .param 0 "grid" (.grid grid), .param 0 "parameters" (.num keys.length)] ++ series.flatten

/-- The name over the column of a series.  A missing property counts as the greatest centre, and as 0. -/
def columnName (k : ExtractDataProperties) : Except Fault (List Char) :=
  match table.name (k.cmn.center.getD 255) (k.cmn.tableVersion.getD 0) (k.cmn.parameter.getD 0) with
  | none => .error .null
  | some name => .ok name

/-- `get_data_header` -/
def getDataHeader (keys : List ExtractDataProperties) : Except Fault (List HeaderLine) := do
  let names ← keys.mapM (columnName table)
  return [.mark "\\data", .names (setw 18 "Time".toList ++ ['\t'] ++ names.flatMap fun n => setw 10 n ++ ['\t'])]

/-- What a file begins with. -/
def textHeader (keys : List ExtractDataProperties) : Except Fault (List HeaderLine) := do
  let header ← getFileHeader table props keys
  let names ← getDataHeader table keys
  return header ++ names

/-! ## When there is a header -/

/-- The header can tell of a series: its parameter is in the table, and its level is one of the table of levels. -/
def ExtractDataProperties.Headed (table : ParameterTable) (k : ExtractDataProperties) : Prop :=
  ∃ center tableVersion parameter name, k.cmn = ⟨some center, some tableVersion, some parameter⟩ ∧
    table.name center tableVersion parameter = some name ∧ k.add.level.levelType < 255

section Headed

variable {table : ParameterTable} {props : SearchProperties} {k : ExtractDataProperties}

theorem optionalDeref_eq_ok {α : Type} {o : Option α} {a : α} : optionalDeref o = .ok a ↔ o = some a := by
  cases o <;> simp [optionalDeref]

theorem optionalValue_eq_ok {α : Type} {o : Option α} {a : α} : optionalValue o = .ok a ↔ o = some a := by
  cases o <;> simp [optionalValue]

theorem Level.lines_ok_iff {l : Level} : (∃ ls, l.lines = .ok ls) ↔ l.levelType < 255 := by
  by_cases h : l.levelType < 255
  · simp [Level.lines, Level.isBounded, h]
  · simp [Level.lines, Level.isBounded, h]

/-- What the lines of a series are made of. -/
theorem seriesLines_eq_ok {ls : List HeaderLine} : seriesLines table props k = .ok ls ↔
    ∃ center tableVersion parameter name searched level, k.cmn = ⟨some center, some tableVersion, some parameter⟩ ∧
      table.name center tableVersion parameter = some name ∧ props.center = some searched ∧
      k.add.level.lines = .ok level ∧
      ls = [.param 0 "name" (.text name), .param 0 "indicator" (.num parameter),
        .param 0 "table version" (.num tableVersion), .param 0 "center" (.num searched)] ++ k.add.fcst.lines ++
          level := by
  constructor
  · intro hls
    obtain ⟨center, hcenter, hls⟩ := bind_eq_ok.mp hls
    obtain ⟨tableVersion, hversion, hls⟩ := bind_eq_ok.mp hls
    obtain ⟨parameter, hparameter, hls⟩ := bind_eq_ok.mp hls
    rw [optionalDeref_eq_ok] at hcenter hversion hparameter
    cases hname : table.name center tableVersion parameter with
    | none =>
      rw [hname] at hls
      cases hls
    | some name =>
      rw [hname] at hls
      obtain ⟨searched, hsearched, hls⟩ := bind_eq_ok.mp hls
      obtain ⟨level, hlevel, hls⟩ := bind_eq_ok.mp hls
      refine ⟨center, tableVersion, parameter, name, searched, level, ?_, hname,
        optionalValue_eq_ok.mp hsearched, hlevel, (Except.ok.inj hls).symm⟩
      rw [← hcenter, ← hversion, ← hparameter]
  · rintro ⟨center, tableVersion, parameter, name, searched, level, hcmn, hname, hsearched, hlevel, rfl⟩
    simp only [seriesLines, hcmn, optionalDeref, hname, hsearched, optionalValue, hlevel, ok_bind, pure_eq_ok]

theorem seriesLines_ok_iff (h : props.center.isSome) :
    (∃ ls, seriesLines table props k = .ok ls) ↔ k.Headed table := by
  obtain ⟨searched, hsearched⟩ := Option.isSome_iff_exists.mp h
  constructor
  · rintro ⟨ls, hls⟩
    obtain ⟨center, tableVersion, parameter, name, -, level, hcmn, hname, -, hlevel, -⟩ := seriesLines_eq_ok.mp hls
    exact ⟨center, tableVersion, parameter, name, hcmn, hname, Level.lines_ok_iff.mp ⟨level, hlevel⟩⟩
  · rintro ⟨center, tableVersion, parameter, name, hcmn, hname, hlevel⟩
    obtain ⟨level, hlevel⟩ := Level.lines_ok_iff.mpr hlevel
    exact ⟨_, seriesLines_eq_ok.mpr
      ⟨center, tableVersion, parameter, name, searched, level, hcmn, hname, hsearched, hlevel, rfl⟩⟩

/-- There is a header where there is one for each series. -/
theorem textHeader_ok_iff (h : props.Names) {keys : List ExtractDataProperties} :
    (∃ ls, textHeader table props keys = .ok ls) ↔ ∀ k ∈ keys, k.Headed table := by
  obtain ⟨hcenter, hgrid, hpos⟩ := h
  obtain ⟨grid, hgrid⟩ := Option.isSome_iff_exists.mp hgrid
  obtain ⟨pos, hpos⟩ := Option.isSome_iff_exists.mp hpos
  have hseries : (∃ ls, keys.mapM (seriesLines table props) = .ok ls) ↔ ∀ k ∈ keys, k.Headed table := by
    rw [mapM_ok_iff]
    exact forall₂_congr fun k _ => seriesLines_ok_iff hcenter
  constructor
  · rintro ⟨ls, hls⟩
    obtain ⟨header, hheader, -⟩ := bind_eq_ok.mp hls
    obtain ⟨pos, -, hheader⟩ := bind_eq_ok.mp hheader
    obtain ⟨grid, -, hheader⟩ := bind_eq_ok.mp hheader
    obtain ⟨series, hls, -⟩ := bind_eq_ok.mp hheader
    exact hseries.mp ⟨series, hls⟩
  · intro hheaded
    obtain ⟨series, hls⟩ := hseries.mpr hheaded
    have hnames : ∃ names, keys.mapM (columnName table) = .ok names := by
      refine mapM_ok_iff.mpr fun k hk => ?_
      obtain ⟨center, tableVersion, parameter, name, hcmn, hname, -⟩ := hheaded k hk
      exact ⟨name, by simp only [columnName, hcmn, Option.getD_some, hname]⟩
    obtain ⟨names, hnames⟩ := hnames
    simp only [textHeader, getFileHeader, getDataHeader, hpos, hgrid, optionalDeref, optionalValue, hls, hnames,
      ok_bind, pure_eq_ok]
    exact ⟨_, rfl⟩

end Headed

/-- Two entries of the table: the wind at 100 metres. -/
def windTable : ParameterTable where
  name center tableVersion parameter :=
    if center = 98 ∧ tableVersion = 228 then
      if parameter = 246 then some ['1', '0', '0', 'u'] else if parameter = 247 then some ['1', '0', '0', 'v'] else none
    else none
  word center tableVersion parameter n h := by
    simp only [Option.ite_none_right_eq_some] at h
    obtain ⟨-, h⟩ := h
    split at h
    · obtain rfl := Option.some.inj h
      decide
    · obtain ⟨-, h⟩ := Option.ite_none_right_eq_some.mp h
      obtain rfl := Option.some.inj h
      decide

end Mashroom
