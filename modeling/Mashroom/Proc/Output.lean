import Mathlib.Data.List.Sort
import Mashroom.Proc.Extract

/-!
# Proc.Output — series of values, periods of time, and the files that are written

What the three writers of extracted data share: the series, sorted by time; the periods that the data is separated by;
the directory and the name of a file, after the first time in it; and the files written so far.  `TimePeriod` is not
part of the repository: what is used of it, and said of it in the help of `ext-time-period`, are the fields of the
structure.  Times are nanoseconds since 1970.
-/

namespace Mashroom

/-! ## Series -/

structure AdditionalExtractDataProperties where
  fcst : TimeForecast
  level : Level
  deriving DecidableEq

structure ExtractDataProperties where
  add : AdditionalExtractDataProperties
  cmn : CommonDataProperties
  deriving DecidableEq

/-- The series of values, under their properties. -/
abbrev ExtractedValues := Dict ExtractDataProperties (List ExtractedValue)

/-- `std::sort` by time.  The order of values of one time is open. -/
structure SortByTime where
  sort : List ExtractedValue → List ExtractedValue
  perm : ∀ l, (sort l).Perm l
  sorted : ∀ l, (sort l).Pairwise fun v v' => v.timeDate ≤ v'.timeDate

/-- A sort that keeps the order of values of one time. -/
def SortByTime.insertion : SortByTime where
  sort := List.insertionSort fun v v' => v.timeDate ≤ v'.timeDate
  perm l := List.perm_insertionSort _ l
  sorted l := by
    have : Std.Total fun v v' : ExtractedValue => v.timeDate ≤ v'.timeDate := ⟨fun v v' => Int.le_total _ _⟩
    have : IsTrans ExtractedValue fun v v' => v.timeDate ≤ v'.timeDate := ⟨fun _ _ _ h h' => le_trans h h'⟩
    exact List.pairwise_insertionSort _ l

/-- The times of the values. -/
def ExtractedValues.Time (data : ExtractedValues) (t : ℤ) : Prop := ∃ e ∈ data.entries, ∃ v ∈ e.2, v.timeDate = t

/-- A series with a value is an entry. -/
theorem ExtractedValues.entry_of_mem {data : ExtractedValues} {k : ExtractDataProperties} {v : ExtractedValue}
    (h : v ∈ data.get k) :
    (⟨k, data.get k⟩ : Sigma fun _ : ExtractDataProperties => List ExtractedValue) ∈ data.entries :=
  Dict.entry_of_mem (Dict.mem_of_get_ne (List.ne_nil_of_mem h))

theorem ExtractedValues.time_iff {data : ExtractedValues} {t : ℤ} :
    data.Time t ↔ ∃ k, ∃ v ∈ data.get k, v.timeDate = t := by
  constructor
  · rintro ⟨e, he, v, hv, rfl⟩
    exact ⟨e.1, v, by rw [Dict.get_of_mem he]; exact hv, rfl⟩
  · rintro ⟨k, v, hv, rfl⟩
    exact ⟨_, ExtractedValues.entry_of_mem hv, v, hv, rfl⟩

/-! ## Periods -/

/-- `TIME_UNITS`, from years to seconds -/
inductive TimeUnits where
  | years
  | months
  | days
  | hours
  | minutes
  | seconds
  /-- a smaller unit -/
  | other
  deriving DecidableEq

/-- `year_month_day(sys_days)`, less the day. -/
def yearMonth (days : ℤ) : ℤ × ℤ :=
  let z := days + 719468
  let era := z / 146097
  let doe := z - era * 146097
  let yoe := (doe - doe / 1460 + doe / 36524 - doe / 146096) / 365
  let doy := doe - (365 * yoe + yoe / 4 - yoe / 100)
  let mp := (5 * doy + 2) / 153
  let m := if mp < 10 then mp + 3 else mp - 9
  (yoe + era * 400 + if m ≤ 2 then 1 else 0, m)

example : yearMonth 0 = (1970, 1) ∧ yearMonth (-1) = (1969, 12) ∧ yearMonth 11016 = (2000, 2) ∧
    yearMonth 11017 = (2000, 3) := by decide

inductive TimePeriodRounded where
  | year (y : ℤ)
  | yearMonth (y m : ℤ)
  | days (n : ℤ)
  | hours (n : ℤ)
  | minutes (n : ℤ)
  | seconds (n : ℤ)
  deriving DecidableEq

def nsPerSecond : ℤ := 10 ^ 9

def nsPerDay : ℤ := 24 * 60 * 60 * nsPerSecond

/-- `round_by_time_period`, by the smallest unit of the period.  `time_point_cast` truncates toward 1970. -/
def roundByUnit (unit : TimeUnits) (tp : ℤ) : TimePeriodRounded :=
  let ymd := yearMonth (tp.tdiv nsPerDay)
  match unit with
  | .years => .year ymd.1
  | .months => .yearMonth ymd.1 ymd.2
  | .days => .days (tp.tdiv nsPerDay)
  | .hours => .hours (tp.tdiv (60 * 60 * nsPerSecond))
  | .minutes => .minutes (tp.tdiv (60 * nsPerSecond))
  | .seconds => .seconds (tp.tdiv nsPerSecond)
  | .other => .yearMonth ymd.1 ymd.2

/-- A period of time: the data is separated by floors of it. -/
structure TimePeriod where
  minValuable : TimeUnits
  getNextTp : ℤ → ℤ
  /-- the next period begins later -/
  lt_next : ∀ t, t < getNextTp t
  /-- up to there the period is the same -/
  next_eq : ∀ t u, t ≤ u → u < getNextTp t → getNextTp u = getNextTp t
  /-- periods begin with their smallest unit -/
  round_next : ∀ t u, roundByUnit minValuable (getNextTp t) = roundByUnit minValuable (getNextTp u) →
    getNextTp t = getNextTp u

def roundByTimePeriod (p : TimePeriod) (tp : ℤ) : TimePeriodRounded := roundByUnit p.minValuable tp

namespace TimePeriod

/-- A period of one day. -/
def day : TimePeriod where
  minValuable := .days
  getNextTp t := (t / nsPerDay + 1) * nsPerDay
  lt_next t := Int.lt_ediv_add_one_mul_self t (by decide)
  next_eq t u h h' := by
    have hday : 0 < nsPerDay := by decide
    have hle : t / nsPerDay ≤ u / nsPerDay := Int.ediv_le_ediv hday h
    have hlt : u / nsPerDay < t / nsPerDay + 1 := Int.ediv_lt_of_lt_mul hday h'
    rw [show u / nsPerDay = t / nsPerDay by omega]
  round_next t u h := by
    have hday : nsPerDay ≠ 0 := by decide
    simp only [roundByUnit, TimePeriodRounded.days.injEq] at h
    rw [Int.mul_tdiv_cancel _ hday, Int.mul_tdiv_cancel _ hday] at h
    rw [h]

variable {p : TimePeriod} {t u v : ℤ}

/-- The periods follow each other. -/
theorem next_mono (h : t ≤ u) : p.getNextTp t ≤ p.getNextTp u := by
  by_cases hu : u < p.getNextTp t
  · rw [p.next_eq t u h hu]
  · exact le_trans (not_lt.mp hu) (p.lt_next u).le

end TimePeriod

/-! ## Files -/

inductive OutputDataFileFormats where
  | txt
  | json
  | bin
  deriving DecidableEq

/-- What the name of a file is made of. -/
structure FileName where
  center : TableCode
  grid : RepresentationType
  lat : ℚ
  lon : ℚ
  period : TimePeriodRounded
  format : OutputDataFileFormats
  deriving DecidableEq

/-- A part of a path: directories named before, those of a period, or a file. -/
inductive PathPart where
  | name (s : String)
  | period (p : TimePeriodRounded)
  | file (f : FileName)
  deriving DecidableEq

structure Path where
  absolute : Bool
  parts : List PathPart
  deriving DecidableEq

/-- `operator/=`: an absolute path replaces what is there. -/
def Path.join (p q : Path) : Path := if q.absolute then q else { p with parts := p.parts ++ q.parts }

def generateDirectory (outPath : Path) (period : TimePeriodRounded) : Path :=
  { outPath with parts := outPath.parts ++ [.period period] }

/-- `generate_filename` on the properties that the data was searched by, each asked for with `.value()`. -/
def generateFilename (format : OutputDataFileFormats) (props : SearchProperties) (period : TimePeriodRounded) :
    Except Fault FileName := do
  let center ← optionalValue props.center
  let grid ← optionalValue props.gridType
  let pos ← optionalValue props.position
  return { center, grid, lat := pos.lat, lon := pos.lon, period, format }

/-- The path of a file is below one that is a file. -/
def Path.Below (p q : Path) : Prop := p.absolute = q.absolute ∧ q.parts <+: p.parts ∧ p ≠ q

instance (p q : Path) : Decidable (p.Below q) := inferInstanceAs (Decidable (_ ∧ _ ∧ _))

/-- The files written, and what they hold. -/
abbrev Files (γ : Type) := Dict Path γ

/-- `make_and_open_file`: the directories are made, unless one of them is a file, and the file is empty. -/
def makeAndOpenFile {γ : Type} (files : Files γ) (path : Path) (content : γ) : Except Fault (Files γ) :=
  if ∃ q ∈ files.keys, path.Below q then .error .exception else .ok (files.insert path content)

/-- The properties that name the files are given. -/
def SearchProperties.Names (props : SearchProperties) : Prop :=
  props.center.isSome ∧ props.gridType.isSome ∧ props.position.isSome

theorem names_of_generateFilename {format : OutputDataFileFormats} {props : SearchProperties}
    {period : TimePeriodRounded} {f : FileName} (h : generateFilename format props period = .ok f) : props.Names := by
  unfold generateFilename at h
  obtain ⟨center, hcenter, h⟩ := bind_eq_ok.mp h
  obtain ⟨grid, hgrid, h⟩ := bind_eq_ok.mp h
  obtain ⟨pos, hpos, -⟩ := bind_eq_ok.mp h
  have hsome : ∀ {α : Type} {o : Option α} {a : α}, optionalValue o = .ok a → o.isSome := by
    intro α o a ho
    cases o with
    | none => cases ho
    | some b => rfl
  exact ⟨hsome hcenter, hsome hgrid, hsome hpos⟩

/-- The names of the files differ in the period only. -/
theorem generateFilename_of_names {props : SearchProperties} (h : props.Names) (format : OutputDataFileFormats) :
    ∃ f : FileName, ∀ period, generateFilename format props period = .ok { f with period } := by
  obtain ⟨hcenter, hgrid, hpos⟩ := h
  obtain ⟨center, hc⟩ := Option.isSome_iff_exists.mp hcenter
  obtain ⟨grid, hg⟩ := Option.isSome_iff_exists.mp hgrid
  obtain ⟨pos, hp⟩ := Option.isSome_iff_exists.mp hpos
  refine ⟨{ center, grid, lat := pos.lat, lon := pos.lon, period := .days 0, format }, fun period => ?_⟩
  simp only [generateFilename, hc, hg, hp, optionalValue, ok_bind]
  rfl

/-- The path of the file of a period. -/
def outputPath (outPath : Path) (f : FileName) (period : TimePeriodRounded) : Path where
  absolute := outPath.absolute
  parts := outPath.parts ++ [.period period, .file { f with period }]

section OutputPath

variable {outPath : Path} {f : FileName} {r r' : TimePeriodRounded}

@[simp] theorem outputPath_inj : outputPath outPath f r = outputPath outPath f r' ↔ r = r' := by
  refine ⟨fun h => ?_, fun h => by rw [h]⟩
  have hparts := congrArg Path.parts h
  simp only [outputPath, List.append_cancel_left_eq, List.cons.injEq, PathPart.period.injEq] at hparts
  exact hparts.1

/-- The files of the periods lie beside each other. -/
theorem not_below_outputPath : ¬ (outputPath outPath f r).Below (outputPath outPath f r') := by
  rintro ⟨-, hpre, hne⟩
  have hparts := hpre.eq_of_length (by simp [outputPath])
  refine hne ?_
  simp only [outputPath, List.append_cancel_left_eq, List.cons.injEq, PathPart.period.injEq] at hparts
  rw [hparts.1]

end OutputPath

/-- All files are those of a period. -/
def Files.Named {γ : Type} (outPath : Path) (f : FileName) (files : Files γ) : Prop :=
  ∀ q ∈ files, ∃ r, q = outputPath outPath f r

section Named

variable {γ : Type} {outPath : Path} {f : FileName} {r : TimePeriodRounded} {files : Files γ} {content : γ}

theorem Files.named_empty : (∅ : Files γ).Named outPath f := fun q hq => absurd hq (AList.notMem_empty q)

theorem Files.Named.insert (h : files.Named outPath f) :
    Files.Named outPath f (files.insert (outputPath outPath f r) content) := by
  intro q hq
  rcases (AList.mem_insert _).mp hq with rfl | hq
  · exact ⟨r, rfl⟩
  · exact h q hq

/-- Among files of periods there is room for that of another. -/
theorem makeAndOpenFile_of_named (h : files.Named outPath f) :
    makeAndOpenFile files (outputPath outPath f r) content =
      .ok (files.insert (outputPath outPath f r) content) := by
  refine if_neg ?_
  rintro ⟨q, hq, hbelow⟩
  obtain ⟨r', rfl⟩ := h q (AList.mem_keys.mpr hq)
  exact not_below_outputPath hbelow

end Named

/-! ## A search and two series -/

/-- A search by centre, grid and position. -/
def searchedProps : SearchProperties where
  parameters := []
  fromDate := 0
  toDate := 0
  position := some ⟨45, 45⟩
  gridType := some .latLonGridEquidistCylindr
  center := some 98
  fcstUnit := none
  level := none

/-- The properties of a series of a parameter. -/
def seriesAt (parameter : ℕ) : ExtractDataProperties where
  add := { fcst := { P1 := 0, P2 := 0, tf := 1, tri := 1 }, level := ⟨1, 0, 0⟩ }
  cmn := { center := some 98, tableVersion := some 228, parameter := some parameter }

end Mashroom
