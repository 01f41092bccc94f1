import Mashroom.Lib.Runs
import Mashroom.Program.Data

/-!
# Program.Lifetime — what the program keeps from one start to the next

The program starts with the files that `mashroom_data.json` lists, and asks on exit whether to save.  The file lists the
store under the name with which it was written, which `Data::read` does not know, so that every start has an empty store
(`start_empty`).  The answer decides only over the list: the destructor of `Data` writes the store in any case
(`exit_writes`).
-/

namespace Mashroom

/-- `to_data_format_name` -/
def toDataFormatName : DataFormat → String
  | .gribV1 => "Grib1"

/-- `to_data_format_token` -/
def toDataFormatToken (text : String) : Option DataFormat := if text = "Grib1" then some .gribV1 else none

/-- `mashroom_data.json` -/
inductive InfoFile where
  | absent
  /-- it has no text that is a value -/
  | incomplete
  /-- an object; a member that is no array of strings is left out -/
  | members (members : List (String × List FsPath))

/-- The disk, and the program while it runs. -/
structure Installation (τ : Type) where
  disk : Disk := {}
  info : InfoFile := .absent
  data : Option (Data τ) := none

namespace Installation

variable {τ : Type} [DecidableEq τ] (s : Serializer τ)

/-- The files that a start finds listed.  Where the key is none of the formats, `fmt_data` is what was in memory, which
is given. -/
def listed (memory : DataFormat) : InfoFile → List FsPath
  | .absent | .incomplete => []
  | .members ms => ms.flatMap fun m => if (toDataFormatToken m.1).getD memory = .gribV1 then m.2 else []

/-- The loop of `__read_initial_data_file__` over `data_files_`, which looks at no result. -/
def readFiles (data : Data τ) (disk : Disk) : List (FsPath × Answers) → Except Fault (Data τ)
  | [] => .ok data
  | (filename, io) :: files => do
    let (_, data) ← data.read s io disk filename
    readFiles data disk files

/-- How a question is answered, and what the file system answers if that comes to writing. -/
structure Answer where
  text : List Char
  io : Answers
  /-- `mashroom_data.json` is opened, and written to its end -/
  infoOpened : Bool
  infoWritten : Bool

/-- `boost::iequals(buffer,"yes")` -/
def Answer.isYes (a : Answer) : Bool := a.text.map Char.toLower = ['y', 'e', 's']

/-- The program ends without its destructors. -/
def aborted (inst : Installation τ) : Installation τ := { inst with data := none }

/-- `__write_initial_data_file__`.  Where the file is not opened, the program ends. -/
def writeInitialDataFile (inst : Installation τ) (data : Data τ) (a : Answer) : Installation τ :=
  if a.infoOpened then
    let members := data.files.entries.map fun e => (toDataFormatName e.1, [e.2])
    { inst with info := if a.infoWritten then .members members else .incomplete, data := some data }
  else inst.aborted

/-- `Mashroom::save` -/
def save (inst : Installation τ) (data : Data τ) (a : Answer) : Installation τ :=
  if data.unsaved = ∅ then { inst with data := some data }
  else if a.isYes then
    match data.save s a.io inst.disk with
    | .ok (data, disk) => writeInitialDataFile { inst with disk } data a
    | .error _ => inst.aborted
  else { inst with data := some data }

/-- What happens next. -/
inductive Action (τ : Type) where
  /-- the program starts, in a directory; the listed files are read in some order -/
  | start (dataDirectory : FsPath) (memory : DataFormat) (files : List (FsPath × Answers))
  | addData (other : DataStruct τ)
  | save (a : Answer)
  /-- the program ends: `~Mashroom`, and then `~Data` -/
  | exit (a : Answer) (io : Answers)

/-- `~Data`, if the program has not ended before. -/
def destroyData (inst : Installation τ) (io : Answers) : Installation τ :=
  match inst.data with
  | none => inst
  | some data =>
    match data.save s io inst.disk with
    | .ok (_, disk) => { inst with disk, data := none }
    | .error _ => inst.aborted

/-- One step. -/
def step (inst : Installation τ) : Action τ → Option (Installation τ)
  | .start dataDirectory memory files =>
    match inst.data with
    | some _ => none
    | none =>
      if (files.map Prod.fst).Perm (listed memory inst.info).dedup then
        match readFiles s { dataDirectory } inst.disk files with
        | .ok data => some { inst with
            -- a file that is not there is made, without a text
            info := match inst.info with
              | .absent => .incomplete
              | info => info
            data := some data }
        | .error _ => some inst
      else none
  | .addData other => inst.data.map fun data =>
    match data.addData other with
    | .ok data => { inst with data := some data }
    | .error _ => inst.aborted
  | .save a => inst.data.map fun data => save s inst data a
  | .exit a io => inst.data.map fun data => destroyData s (save s inst data a) io

/-! ## What is listed -/

variable {s}

/-- No file that is listed, or recorded to be listed, is one that `Data::read` knows. -/
structure Unknown (inst : Installation τ) : Prop where
  info : ∀ memory, ∀ filename ∈ listed memory inst.info, utilityToken filename.extension = none
  files : ∀ data, inst.data = some data → ∀ e ∈ data.files.entries, utilityToken e.2.extension = none

omit [DecidableEq τ] in
theorem unknown_fresh (disk : Disk) : Unknown ({ disk } : Installation τ) where
  info _ _ h := by cases h
  files _ h := by cases h

section Step

variable {inst inst' : Installation τ} {data data' : Data τ} {disk disk' : Disk} {io : Answers} {a : Answer}

/-- Files that `Data::read` does not know leave the store as it is. -/
theorem readFiles_unknown {files : List (FsPath × Answers)}
    (h : ∀ f ∈ files, utilityToken f.1.extension = none) (hr : readFiles s data disk files = .ok data') :
    data' = data := by
  induction files with
  | nil =>
    cases hr
    rfl
  | cons f files ih =>
    obtain ⟨filename, io⟩ := f
    obtain ⟨⟨err, data''⟩, hread, hrest⟩ := bind_eq_ok.mp hr
    have hsame : data'' = data := by
      obtain ⟨present, -, hread⟩ := bind_eq_ok.mp hread
      rw [h _ List.mem_cons_self] at hread
      cases present <;> cases hread <;> rfl
    rw [hsame] at hrest
    exact ih (fun f hf => h f (List.mem_cons_of_mem _ hf)) hrest

/-- The name under which a store is written is not known. -/
theorem files_saveFile (h : ∀ e ∈ data.files.entries, utilityToken e.2.extension = none) (dir : FsPath) :
    ∀ e ∈ (Data.saveFile s io data disk dir).2.1.files.entries, utilityToken e.2.extension = none := by
  have hinsert : ∀ e ∈ (data.files.insert .gribV1 (dir.append (filenameByFormat .gribV1))).entries,
      utilityToken e.2.extension = none := by
    intro e he
    rw [AList.entries_insert] at he
    obtain rfl | he := List.mem_cons.mp he
    · exact utilityToken_filenameByFormat dir .gribV1
    · exact h e ((List.kerase_sublist _ _).subset he)
  unfold Data.saveFile
  cases io.transferred with
  | some _ => exact h
  | none => cases io.flushed <;> exact hinsert

theorem files_save (h : ∀ e ∈ data.files.entries, utilityToken e.2.extension = none)
    (hs : data.save s io disk = .ok (data', disk')) : ∀ e ∈ data'.files.entries, utilityToken e.2.extension = none := by
  obtain ⟨-, -, heq⟩ | ⟨-, heq⟩ := Data.writeAll_eq_ok.mp hs
  · cases heq
    exact files_saveFile h _
  · cases heq
    exact h

omit [DecidableEq τ] in
theorem Unknown.aborted (h : Unknown inst) : Unknown inst.aborted := ⟨h.info, nofun⟩

omit [DecidableEq τ] in
/-- The data of the program may be any with files that are not known. -/
theorem Unknown.setData (h : Unknown inst) (hdata : ∀ e ∈ data.files.entries, utilityToken e.2.extension = none) :
    Unknown { inst with data := some data } := by
  refine ⟨h.info, fun data' h' => ?_⟩
  obtain rfl := Option.some.inj h'
  exact hdata

omit [DecidableEq τ] in
theorem Unknown.writeInitialDataFile (h : Unknown inst)
    (hdata : ∀ e ∈ data.files.entries, utilityToken e.2.extension = none) :
    Unknown (inst.writeInitialDataFile data a) := by
  unfold Installation.writeInitialDataFile
  split
  · refine ⟨fun memory filename hf => ?_, (h.setData hdata).files⟩
    cases hw : a.infoWritten <;> simp only [hw] at hf
    · cases hf
    · obtain ⟨m, hm, hf⟩ := List.mem_flatMap.mp hf
      obtain ⟨e, he, rfl⟩ := List.mem_map.mp hm
      split at hf
      · obtain rfl := List.mem_singleton.mp hf
        exact hdata e he
      · cases hf
  · exact h.aborted

theorem Unknown.save (h : Unknown inst) (hdata : ∀ e ∈ data.files.entries, utilityToken e.2.extension = none) :
    Unknown (save s inst data a) := by
  unfold Installation.save
  split
  · exact h.setData hdata
  · split
    · split
      · rename_i hs
        exact Unknown.writeInitialDataFile ⟨h.info, h.files⟩ (files_save hdata hs)
      · exact h.aborted
    · exact h.setData hdata

theorem Unknown.destroyData (h : Unknown inst) : Unknown (destroyData s inst io) := by
  unfold Installation.destroyData
  split
  · exact h
  · split
    · exact ⟨h.info, nofun⟩
    · exact h.aborted

/-- A program that starts ends at once, or finds nothing that it knows. -/
theorem step_start (h : Unknown inst) {dir : FsPath} {memory : DataFormat} {files : List (FsPath × Answers)}
    (hs : step s inst (.start dir memory files) = some inst') :
    inst.data = none ∧ (inst' = inst ∨ ∃ info, inst' = { inst with info, data := some { dataDirectory := dir } } ∧
      ∀ memory, ∀ f ∈ listed memory info, f ∈ listed memory inst.info) := by
  simp only [step] at hs
  split at hs
  · cases hs
  · rename_i hnone
    refine ⟨hnone, ?_⟩
    split at hs
    · rename_i hperm
      have hunknown : ∀ f ∈ files, utilityToken f.1.extension = none := fun f hf =>
        h.info memory _ (List.mem_dedup.mp (hperm.subset (List.mem_map_of_mem hf)))
      split at hs
      · rename_i data hread
        obtain rfl := readFiles_unknown hunknown hread
        refine .inr ⟨_, (Option.some.inj hs).symm, fun memory f hf => ?_⟩
        cases hinfo : inst.info <;> simp only [hinfo] at hf
        · cases hf
        · cases hf
        · exact hf
      · exact .inl (Option.some.inj hs).symm
    · cases hs

theorem Unknown.step (h : Unknown inst) {act : Action τ} (hs : step s inst act = some inst') : Unknown inst' := by
  cases act with
  | start dir memory files =>
    obtain ⟨-, rfl | ⟨info, rfl, hinfo⟩⟩ := step_start h hs
    · exact h
    · refine ⟨fun memory f hf => h.info memory f (hinfo memory f hf), fun data hdata => ?_⟩
      obtain rfl := Option.some.inj hdata
      exact fun e he => absurd he List.not_mem_nil
  | addData other =>
    obtain ⟨data, hdata, rfl⟩ := Option.map_eq_some_iff.mp hs
    split
    · rename_i data' hadd
      obtain ⟨store, -, hstore⟩ := bind_eq_ok.mp hadd
      cases hstore
      exact h.setData (h.files data hdata)
    · exact h.aborted
  | save a =>
    obtain ⟨data, hdata, rfl⟩ := Option.map_eq_some_iff.mp hs
    exact h.save (h.files data hdata)
  | exit a io =>
    obtain ⟨data, hdata, rfl⟩ := Option.map_eq_some_iff.mp hs
    exact (h.save (h.files data hdata)).destroyData

end Step

/-! ## From one start to the next -/

/-- **Every start has an empty store**, whatever was added, saved and answered since the program was installed. -/
theorem start_empty {disk : Disk} {acts : List (Action τ)} {inst inst' : Installation τ} {dir : FsPath}
    {memory : DataFormat} {files : List (FsPath × Answers)} {data : Data τ}
    (hrun : Runs.run (step s) { disk } acts = some inst) (hs : step s inst (.start dir memory files) = some inst')
    (hdata : inst'.data = some data) : data = { dataDirectory := dir } := by
  have hunknown : Unknown inst :=
    Runs.invariant_run (C := fun _ _ => True) (fun _ _ _ h _ hstep => h.step hstep) (unknown_fresh disk)
      (Runs.meets_of_mem (by simp) _) hrun
  obtain ⟨hnone, rfl | ⟨info, rfl, -⟩⟩ := step_start hunknown hs
  · rw [hnone] at hdata
    cases hdata
  · exact (Option.some.inj hdata).symm

/-- Unsaved changes are written where the directory is there and the octets reach the file. -/
theorem save_transfers {data : Data τ} {io : Answers} (hunsaved : .gribV1 ∈ data.unsaved) (hdir : io.MakesDirectory)
    (hio : io.Transfers) (disk : Disk) :
    ∃ data' disk', data.save s io disk = .ok (data', disk') ∧ .gribV1 ∉ data'.unsaved ∧
      data'.files.lookup .gribV1 = some (data.dataDirectory.append (filenameByFormat .gribV1)) ∧
      disk'.files.lookup (data.dataDirectory.append (filenameByFormat .gribV1)) = some (data.store.serialize s) := by
  refine ⟨_, _, Data.writeAll_eq_ok.mpr (.inl ⟨hunsaved, hdir, rfl⟩), ?_⟩
  rw [Data.saveFile_transfers hio]
  exact ⟨Finset.notMem_erase _ _, AList.lookup_insert _, AList.lookup_insert _⟩

/-- **The store is written on exit whatever the answer**, and listed where the answer is yes: if the directory can be
made and the octets reach the file, and with a yes `mashroom_data.json` can be opened and written. -/
theorem exit_writes {inst : Installation τ} {data : Data τ} {a : Answer} {io : Answers} (hdata : inst.data = some data)
    (hunsaved : .gribV1 ∈ data.unsaved) (hdir : io.MakesDirectory) (hio : io.Transfers)
    (ha : a.isYes = true → a.io.MakesDirectory ∧ a.io.Transfers ∧ a.infoOpened = true ∧ a.infoWritten = true) :
    ∃ inst', step s inst (.exit a io) = some inst' ∧ inst'.data = none ∧
      inst'.disk.files.lookup (data.dataDirectory.append (filenameByFormat .gribV1)) =
        some (data.store.serialize s) ∧
      if a.isYes then ∀ memory, data.dataDirectory.append (filenameByFormat .gribV1) ∈ listed memory inst'.info
      else inst'.info = inst.info := by
  have hne : data.unsaved ≠ ∅ := Finset.ne_empty_of_mem hunsaved
  refine ⟨_, by rw [step, hdata, Option.map_some], ?_⟩
  cases hyes : a.isYes with
  | true =>
    obtain ⟨hdir', hio', hopened, hwritten⟩ := ha hyes
    obtain ⟨data', disk', hsave, hsaved, hfile, hoctets⟩ := 
      save_transfers (s := s) hunsaved hdir' hio' inst.disk
    have hsaved' : data'.save s io disk' = .ok (data', disk') := Data.writeAll_eq_ok.mpr (.inr ⟨hsaved, rfl⟩)
    have hresult : destroyData s (save s inst data a) io = {
        disk := disk'
        info := .members (data'.files.entries.map fun e => (toDataFormatName e.1, [e.2]))
        data := none } := by
      simp [Installation.save, hne, hyes, hsave, writeInitialDataFile, hopened, hwritten, destroyData, hsaved']
    rw [hresult]
    refine ⟨rfl, hoctets, ?_⟩
    rw [if_pos rfl]
    intro memory
    refine List.mem_flatMap.mpr ⟨_, List.mem_map_of_mem (AList.mem_lookup_iff.mp hfile), ?_⟩
    exact List.mem_singleton.mpr rfl
  | false =>
    obtain ⟨data', disk', hsave, -, -, hoctets⟩ := save_transfers (s := s) hunsaved hdir hio inst.disk
    have hresult : destroyData s (save s inst data a) io = { inst with disk := disk', data := none } := by
      simp [Installation.save, hne, hyes, destroyData, hsave]
    rw [hresult]
    exact ⟨rfl, hoctets, by simp⟩

/-- The answer is yes, and everything succeeds. -/
def yesAnswer : Answer where
  text := ['y', 'e', 's']
  io := Data.allGood
  infoOpened := true
  infoWritten := true

/-- The program was started and ended once. -/
theorem start_empty_again : ∃ inst inst' : Installation ℕ, ∃ data : Data ℕ,
    Runs.run (step Serializer.reference) {} [.start ['/', 'd'] .gribV1 [], .exit yesAnswer Data.allGood] = some inst ∧
      step Serializer.reference inst (.start ['/', 'd'] .gribV1 []) = some inst' ∧ inst'.data = some data ∧
        data = { dataDirectory := ['/', 'd'] } := by
  have hrun : Runs.run (step Serializer.reference) ({ disk := {} } : Installation ℕ)
    [.start ['/', 'd'] .gribV1 [], .exit yesAnswer Data.allGood] = some { info := .incomplete } := rfl
  have hs : step Serializer.reference { info := .incomplete } (.start ['/', 'd'] .gribV1 []) =
    some { info := .incomplete, data := some { dataDirectory := ['/', 'd'] } } := rfl
  exact ⟨_, _, _, hrun, hs, rfl, start_empty hrun hs rfl⟩

/-- The program with one file of one message, and the answer no. -/
theorem exit_writes_oneFile : ∃ inst : Installation ℕ,
    step Serializer.reference { data := some Data.oneFile }
      (.exit { yesAnswer with text := ['n', 'o'] } Data.allGood) = some inst ∧
      inst.disk.files.lookup (Data.oneFile.dataDirectory.append (filenameByFormat .gribV1)) =
        some (Data.oneFile.store.serialize Serializer.reference) := by
  have hdata : ({ data := some Data.oneFile } : Installation ℕ).data = some Data.oneFile := rfl
  have hgood : Data.allGood.MakesDirectory := .inl rfl
  have htransfers : Data.allGood.Transfers := ⟨rfl, rfl⟩
  have hno : ({ yesAnswer with text := ['n', 'o'] } : Answer).isYes = false := by decide
  obtain ⟨inst, hstep, -, hfile, -⟩ := exit_writes (s := Serializer.reference) hdata (Finset.mem_singleton_self _) hgood
    htransfers fun hyes => by
      rw [hno] at hyes
      cases hyes
  exact ⟨inst, hstep, hfile⟩

end Installation

end Mashroom
