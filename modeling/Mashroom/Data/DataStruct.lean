import Mashroom.Lib.Dict
import Mashroom.Data.Properties

/-!
# Data.DataStruct — the index of the messages of many files

A `DataStruct` keeps, for each path, the positions of its messages, and for each property of a message the
positions under the value of the property and the path.  Files are added with `addFile`, whole stores with
`merge`.  `TimeSequence` is a type of OsterLib, here the parameter `τ`.

Keys and paths are compared by content: this is the store as it would be if every path were a string of its own.  The
paths in the indexes of the code are views.  `Data.Views` says what they refer to, and `Data.Reading` which of them can
be read; a run that can read all of them makes the store here (`Script.runReading_eq_ok`, `Script.run_erase`).
-/

namespace Mashroom

/-- `path::TYPE` -/
inductive PathType where
  | directory
  | file
  | host
  deriving DecidableEq

/-- `path::Storage`, as far as containers compare it: the octets of the path, and its kind. -/
structure Storage where
  path : List UInt8
  type : PathType
  deriving DecidableEq

def Storage.file (path : List UInt8) : Storage := { path, type := .file }

/-- The positions of messages, by path. -/
abbrev Positions := Dict Storage (List ℤ)

/-- The positions of messages, by the value of a property and the path. -/
abbrev Index (κ : Type) := Dict κ Positions

/-- `DataStruct<TIME_SERIES,GRIB_v1>` -/
structure DataStruct (τ : Type) where
  positions : Positions := ∅
  byCommonData : Index CommonDataProperties := ∅
  byDate : Index τ := ∅
  byGrid : Index GridInfo := ∅
  byForecast : Index TimeForecast := ∅
  byLevel : Index Level := ∅

namespace DataStruct

variable {τ : Type}

/-! ## Adding a file -/

/-- `add_data_lambda`, with the path found by its text: the position goes to the end of the list under the key and the
path. -/
def addPosition {κ : Type} [DecidableEq κ] (index : Index κ) (key : κ) (file : Storage) (pos : ℤ) : Index κ :=
  index.update key fun byPath => byPath.update file (· ++ [pos])

/-- A message without an error is recorded in the positions and in four indexes. -/
def record (d : DataStruct τ) (file : Storage) (msg : GribMsgDataInfo) : DataStruct τ :=
  { d with
    positions := d.positions.update file (· ++ [msg.bufPos])
    byCommonData := addPosition d.byCommonData msg.key file msg.bufPos
    byForecast := addPosition d.byForecast msg.tUnit file msg.bufPos
    byGrid := addPosition d.byGrid msg.gridData file msg.bufPos
    byLevel := addPosition d.byLevel msg.level file msg.bufPos }

/-- One turn of the loop over the messages. -/
def addMsg (file : Storage) (d : DataStruct τ) (msg : GribMsgDataInfo) : Except Fault (DataStruct τ) :=
  match msg.err with
  | none => .error .indeterminate
  | some err => if err = .noneErr then .ok (d.record file msg) else .ok d

/-- `add_data(path,grib_msg)`: the positions of the path are cleared first, the indexes are not. -/
def addFile (d : DataStruct τ) (path : List UInt8) (gribMsg : List GribMsgDataInfo) :
    Except Fault (DataStruct τ) :=
  let file := Storage.file path
  gribMsg.foldlM (addMsg file) { d with positions := d.positions.insert file [] }

/-! ## Merging a store -/

/-- The positions under one key, with the paths found by their texts.  The path is looked up among the positions of the
store, and must be there. -/
def mergePaths (positions : Positions) (this data : Positions) : Except Fault Positions :=
  Dict.combineM (fun path _ ps => if path ∈ positions then .ok ps else .error .element) this data

/-- `add_data_and_paths`, for one index. -/
def mergeIndex {κ : Type} [DecidableEq κ] (positions : Positions) (this data : Index κ) : Except Fault (Index κ) :=
  Dict.combineM (fun _ byPath pathPos => mergePaths positions byPath pathPos) this data

/-- `add_data(other)` -/
def merge [DecidableEq τ] (d other : DataStruct τ) : Except Fault (DataStruct τ) := do
  let positions ← Dict.combineM (fun _ _ ps => .ok ps) d.positions other.positions
  let byCommonData ← mergeIndex positions d.byCommonData other.byCommonData
  let byDate ← mergeIndex positions d.byDate other.byDate
  let byGrid ← mergeIndex positions d.byGrid other.byGrid
  let byForecast ← mergeIndex positions d.byForecast other.byForecast
  let byLevel ← mergeIndex positions d.byLevel other.byLevel
  return { positions, byCommonData, byDate, byGrid, byForecast, byLevel }

end DataStruct

/-! ## The four properties -/

/-- The properties of a message that have an index which `addFile` fills. -/
inductive IndexedBy where
  | common
  | forecast
  | grid
  | level

namespace IndexedBy

/-- The values of the property. -/
def Key : IndexedBy → Type
  | common => CommonDataProperties
  | forecast => TimeForecast
  | grid => GridInfo
  | level => Level

instance (q : IndexedBy) : DecidableEq q.Key :=
  match q with
  | common => inferInstanceAs (DecidableEq CommonDataProperties)
  | forecast => inferInstanceAs (DecidableEq TimeForecast)
  | grid => inferInstanceAs (DecidableEq GridInfo)
  | level => inferInstanceAs (DecidableEq Level)

/-- The value a message has. -/
def key (msg : GribMsgDataInfo) : (q : IndexedBy) → q.Key
  | common => msg.key
  | forecast => msg.tUnit
  | grid => msg.gridData
  | level => msg.level

/-- The index of a store. -/
def index {τ : Type} (d : DataStruct τ) : (q : IndexedBy) → Index q.Key
  | common => d.byCommonData
  | forecast => d.byForecast
  | grid => d.byGrid
  | level => d.byLevel

section Operations

variable {τ : Type} {d e d' : DataStruct τ} (q : IndexedBy)

theorem index_record (file : Storage) (msg : GribMsgDataInfo) :
    q.index (d.record file msg) = DataStruct.addPosition (q.index d) (q.key msg) file msg.bufPos := by
  cases q <;> rfl

/-- Clearing a path leaves the indexes as they are. -/
theorem index_positions (positions : Positions) : q.index { d with positions } = q.index d := by
  cases q <;> rfl

/-- A merge merges each index, and the positions path by path. -/
theorem index_merge [DecidableEq τ] (h : d.merge e = .ok d') :
    DataStruct.mergeIndex d'.positions (q.index d) (q.index e) = .ok (q.index d') := by
  simp only [DataStruct.merge, bind_eq_ok] at h
  obtain ⟨positions, -, byCommonData, h1, byDate, -, byGrid, h3, byForecast, h4, byLevel, h5, h⟩ := h
  cases h
  cases q
  · exact h1
  · exact h4
  · exact h3
  · exact h5

end Operations

end IndexedBy

end Mashroom
