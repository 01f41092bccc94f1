import Mashroom.Program.Tokens
import Mashroom.Data.Serialize

/-!
# Program.Data — the store of the program, and its files

`Data` holds the store of a format, the formats with unsaved changes, and the files that were written.  What the
file system answers during a call is an argument of the call, so that every file operation may fail.  A file that
`writeGrib1` writes is never read again by `read`, which does not know its extension (`not_savedReadsBack`).
-/

namespace Mashroom

/-- The codes of `ErrorCode` that `Data` returns, other than `NONE`. -/
inductive FileError where
  | createDirDenied
  | dontExists
  | cannotOpenFile
  | unknownFormatFile
  | serializationError
  deriving DecidableEq

/-- The files, and how many stores were written to their last octet, and how many not. -/
structure Disk where
  files : Dict FsPath (List UInt8) := ∅
  completed : ℕ := 0
  failed : ℕ := 0

/-- What the file system answers during one call.  A query without an answer throws. -/
structure Answers where
  /-- `fs::exists(filename)` -/
  present : Option Bool
  /-- `fs::exists(filename.parent_path())` -/
  parentPresent : Option Bool
  /-- `fs::create_directories(filename.parent_path())` -/
  createParent : Option Bool
  /-- `file.is_open()` -/
  opened : Bool
  /-- `fs::create_directories(dir)` -/
  createDirectories : Option Bool
  /-- `fs::is_directory(dir)` -/
  isDirectory : Option Bool
  /-- what `serialize_to_file` returns, and the error of `deserialize_from_file` when the file cannot be read -/
  transferred : Option SerializationEC
  /-- the octets that are still in the stream are written when it is closed -/
  flushed : Bool
  /-- what a file that is not written to its end holds, if it was opened -/
  leftover : Option (List UInt8)

namespace Answers

/-- An answer, or an exception. -/
def ask (answer : Option Bool) : Except Fault Bool := answer.elim (.error .exception) .ok

/-- The octets of the store reach the file. -/
def Transfers (io : Answers) : Prop := io.transferred = none ∧ io.flushed = true

/-- The directory is there, or it is made. -/
def MakesDirectory (io : Answers) : Prop :=
  io.createDirectories = some true ∨ io.createDirectories = some false ∧ io.isDirectory = some true

/-- The file is there, or its directory is there or made, and it is opened. -/
def OpensFile (io : Answers) : Prop :=
  (io.present = some true ∨ io.present = some false ∧
    (io.parentPresent = some true ∨ io.parentPresent = some false ∧ io.createParent = some true)) ∧
    io.opened = true

end Answers

/-- `Data`, with its one store. -/
structure Data (τ : Type) where
  store : DataStruct τ := {}
  /-- `unsaved_` -/
  unsaved : Finset DataFormat := ∅
  /-- `files_` -/
  files : Dict DataFormat FsPath := ∅
  /-- `data_directory_` -/
  dataDirectory : FsPath

/-- What a call of `Data` leaves: its code, the object and the disk. -/
abbrev Written (τ : Type) := Option FileError × Data τ × Disk

namespace Data

variable {τ : Type} [DecidableEq τ] (s : Serializer τ)

/-- The part of `__write__<GRIB_v1>` after the directory was made. -/
def saveFile (io : Answers) (data : Data τ) (disk : Disk) (dir : FsPath) : Written τ :=
  let saveFile := dir.append (filenameByFormat .gribV1)
  let left : Disk := match io.leftover with
    | some octets => { disk with files := disk.files.insert saveFile octets, failed := disk.failed + 1 }
    | none => { disk with failed := disk.failed + 1 }
  match io.transferred with
  | some _ => (some .serializationError, data, left)
  | none =>
    -- the file is recorded before it is closed, and closing it reports nothing
    let data := { data with files := data.files.insert .gribV1 saveFile }
    if io.flushed then
      let octets := data.store.serialize s
      (none, data, { disk with files := disk.files.insert saveFile octets, completed := disk.completed + 1 })
    else (none, data, left)

/-- `__write__<GRIB_v1>` -/
def writeGrib1 (io : Answers) (data : Data τ) (disk : Disk) (dir : FsPath) : Except Fault (Written τ) := do
  let created ← Answers.ask io.createDirectories
  let isDir ← (if created then .ok true else Answers.ask io.isDirectory)
  if isDir then return saveFile s io data disk dir else .error .exit

/-- The loop of `write` over the formats of the extension, which returns in its first turn. -/
def writeFormats (io : Answers) (data : Data τ) (disk : Disk) (filename : FsPath) :
    List DataFormat → Except Fault (Written τ)
  | [] => .ok (none, data, disk)
  | .gribV1 :: _ => do
    let (_, data, disk) ← writeGrib1 s io data disk filename
    return (none, { data with unsaved := data.unsaved.erase .gribV1 }, disk)

/-- `write(filename)` -/
def write (io : Answers) (data : Data τ) (disk : Disk) (filename : FsPath) : Except Fault (Written τ) :=
  if filename.extension = [] then .ok (some .unknownFormatFile, data, disk)
  else match extensionToTokens filename.extension with
    | none => .ok (some .unknownFormatFile, data, disk)
    | some fmts => do
      let present ← Answers.ask io.present
      let parent ← (if present then .ok true else Answers.ask io.parentPresent)
      let made ← (if parent then .ok true else Answers.ask io.createParent)
      if ¬ made then return (some .createDirDenied, data, disk)
      else if ¬ io.opened then return (some .cannotOpenFile, data, disk)
      else writeFormats s io data { disk with files := disk.files.insert filename [] } filename fmts

/-- `__write_all__<format>` -/
def writeAll (io : Answers) (data : Data τ) (disk : Disk) (format : DataFormat) : Except Fault (Data τ × Disk) :=
  if format.index < numberOfTypes then
    if format ∈ data.unsaved then do
      let (_, data, disk) ← match format with
        | .gribV1 => writeGrib1 s io data disk data.dataDirectory
      return ({ data with unsaved := data.unsaved.erase format }, disk)
    else .ok (data, disk)
  else .error .exit

/-- `save()`: `__write_all__` for each format. -/
def save (io : Answers) (data : Data τ) (disk : Disk) : Except Fault (Data τ × Disk) :=
  writeAll s io data disk .gribV1

/-- `__read__<GRIB_v1>` -/
def readGrib1 (io : Answers) (data : Data τ) (disk : Disk) (filename : FsPath) :
    Except Fault (Option FileError × Data τ) :=
  if ¬ io.opened then .error .exit
  else match io.transferred with
    | some _ => .ok (none, data)
    | none => do
      let (_, store) ← DataStruct.deserialize s data.store (disk.files.get filename)
      return (none, { data with store })

/-- `read(filename)` -/
def read (io : Answers) (data : Data τ) (disk : Disk) (filename : FsPath) :
    Except Fault (Option FileError × Data τ) := do
  let present ← Answers.ask io.present
  if present then
    match utilityToken filename.extension with
    | none => return (some .unknownFormatFile, data)
    | some .gribV1 => readGrib1 s io data disk filename
  else return (some .dontExists, data)

/-- `add_data(data)` -/
def addData (data : Data τ) (other : DataStruct τ) : Except Fault (Data τ) := do
  let store ← data.store.merge other
  return { data with store, unsaved := insert .gribV1 data.unsaved }

/-! ## What the calls come to -/

section Calls

variable {s} {io : Answers} {data : Data τ} {disk : Disk} {dir filename : FsPath} {r : Written τ}

/-- With a directory to write to, the call has a result; without one it ends the program. -/
theorem writeGrib1_eq_ok {r : Written τ} :
    writeGrib1 s io data disk dir = .ok r ↔ io.MakesDirectory ∧ r = saveFile s io data disk dir := by
  unfold writeGrib1 Answers.MakesDirectory
  rcases io.createDirectories with - | - | -
  · simp [Answers.ask]
  · rcases io.isDirectory with - | - | - <;> simp [Answers.ask, eq_comm]
  · simp [Answers.ask, eq_comm]

/-- What is left after the store was written, or not, and the mark erased. -/
def erased (r : Written τ) : Data τ × Disk := ({ r.2.1 with unsaved := r.2.1.unsaved.erase .gribV1 }, r.2.2)

/-- The store is written if it is marked. -/
theorem writeAll_eq_ok {r : Data τ × Disk} : writeAll s io data disk .gribV1 = .ok r ↔
    (.gribV1 ∈ data.unsaved ∧ io.MakesDirectory ∧ r = erased (saveFile s io data disk data.dataDirectory)) ∨
      (.gribV1 ∉ data.unsaved ∧ r = (data, disk)) := by
  have hindex : DataFormat.gribV1.index < numberOfTypes := by decide
  rw [writeAll, if_pos hindex]
  by_cases hmem : .gribV1 ∈ data.unsaved
  · simp only [if_pos hmem, bind_eq_ok, writeGrib1_eq_ok]
    constructor
    · rintro ⟨_, ⟨hdir, rfl⟩, h⟩
      cases h
      exact .inl ⟨hmem, hdir, rfl⟩
    · rintro (⟨-, hdir, rfl⟩ | ⟨hnot, -⟩)
      · exact ⟨_, ⟨hdir, rfl⟩, rfl⟩
      · exact absurd hmem hnot
  · simp only [if_neg hmem, Except.ok.injEq]
    constructor
    · rintro rfl
      exact .inr ⟨hmem, rfl⟩
    · rintro (⟨hmem', -⟩ | ⟨-, rfl⟩)
      · exact absurd hmem' hmem
      · rfl

end Calls

/-! ## What is written is read back -/

variable {s} {io : Answers} {data data' : Data τ} {disk disk' : Disk} {dir filename : FsPath}

/-- The recorded file holds the octets of the store. -/
theorem saveFile_transfers (h : io.Transfers) : saveFile s io data disk dir =
    (none, { data with files := data.files.insert .gribV1 (dir.append (filenameByFormat .gribV1)) },
      { disk with
        files := disk.files.insert (dir.append (filenameByFormat .gribV1)) (data.store.serialize s)
        completed := disk.completed + 1 }) := by
  simp only [saveFile, h.1, h.2, if_true]

variable (s) in
/-- If the write to the data directory returns `NONE`, the recorded file is read into `fresh` without an error, and
the stores are the same. -/
def SavedReadsBack (io ioRead : Answers) (data fresh : Data τ) (disk : Disk) : Prop :=
  ∀ data' disk', writeGrib1 s io data disk data.dataDirectory = .ok (none, data', disk') →
    ∃ filename, data'.files.lookup .gribV1 = some filename ∧
      ∃ fresh', read s ioRead fresh disk' filename = .ok (none, fresh') ∧ DataStruct.Same fresh'.store data.store

/-- A file with an extension that is not the one of the program is not read. -/
theorem read_unknown {fresh fresh' : Data τ} {err : Option FileError} (h : utilityToken filename.extension = none)
    (hr : read s io fresh disk filename = .ok (err, fresh')) : err ≠ none := by
  unfold read at hr
  obtain ⟨present, -, hr⟩ := bind_eq_ok.mp hr
  rw [h] at hr
  cases present
  all_goals
    cases hr
    exact Option.some_ne_none _

/-- **No saved file is read back**, whatever the store, the directory and the answers of the file system. -/
theorem not_savedReadsBack (hdir : io.MakesDirectory) (h : io.Transfers) (ioRead : Answers) (data fresh : Data τ)
    (disk : Disk) : ¬ SavedReadsBack s io ioRead data fresh disk := by
  intro hback
  obtain ⟨filename, hname, fresh', hread, -⟩ :=
    hback _ _ (writeGrib1_eq_ok.mpr ⟨hdir, (saveFile_transfers h).symm⟩)
  rw [AList.lookup_insert] at hname
  obtain rfl := Option.some.inj hname
  exact read_unknown (utilityToken_filenameByFormat data.dataDirectory .gribV1) hread rfl

/-- A file system on which everything succeeds. -/
def allGood : Answers where
  present := some true
  parentPresent := some true
  createParent := some true
  opened := true
  createDirectories := some true
  isDirectory := some true
  transferred := none
  flushed := true
  leftover := none

/-- A program with one file of one message. -/
def oneFile : Data ℕ where
  store := DataStruct.oneMessage
  unsaved := {.gribV1}
  dataDirectory := ['/', 'd']

theorem not_savedReadsBack_oneFile :
    ¬ SavedReadsBack Serializer.reference allGood allGood oneFile { dataDirectory := [] } {} :=
  not_savedReadsBack (.inl rfl) ⟨rfl, rfl⟩ allGood oneFile { dataDirectory := [] } {}

/-- The file of the store is `/d/data.grib1`, and reading it is an error. -/
theorem oneFile_not_read :
    (∃ data disk, writeGrib1 Serializer.reference allGood oneFile {} oneFile.dataDirectory = .ok (none, data, disk) ∧
      ∃ filename, data.files.lookup .gribV1 = some filename ∧
        read Serializer.reference allGood { dataDirectory := [] } disk filename =
          .ok (some .unknownFormatFile, { dataDirectory := [] })) ∧
      ¬ SavedReadsBack Serializer.reference allGood allGood oneFile { dataDirectory := [] } {} := by
  have hsave : saveFile Serializer.reference allGood oneFile {} oneFile.dataDirectory = _ :=
    saveFile_transfers ⟨rfl, rfl⟩
  have hwrite := writeGrib1_eq_ok.mpr ⟨.inl rfl, hsave.symm⟩
  have hname := utilityToken_filenameByFormat oneFile.dataDirectory .gribV1
  refine ⟨⟨_, _, hwrite, _, AList.lookup_insert _, ?_⟩, ?_⟩
  · unfold read
    rw [hname]
    rfl
  · intro hback
    obtain ⟨filename, hlookup, fresh', hread, -⟩ := hback _ _ hwrite
    rw [AList.lookup_insert] at hlookup
    obtain rfl := Option.some.inj hlookup
    exact read_unknown hname hread rfl

end Data

end Mashroom
