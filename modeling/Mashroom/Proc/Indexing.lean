import Mashroom.Proc.Reads
import Mashroom.Proc.Termination
import Mashroom.Sys.FileTree

/-!
# Proc.Indexing — what the index process hands to the program of the paths it is given

The messages of files are collected while the paths are visited, and handed over after the loop.  A path that is no
directory, or a host that cannot be reached, returns from the function before that.  An exception is caught for each
path, so that the rest of a directory is passed over.  `indexed_iff` says when all messages of all files arrive.
-/

namespace Mashroom

open Layout DoWhile

/-- `IndexOutputFileFormat::token` -/
inductive IndexOutputFileFormat where
  | binary
  | json
  | xml
  deriving DecidableEq

/-- The process, and what it is told by the system.  A block of a host's reply is of type `β`. -/
structure Indexer (β : Type) where
  lib : OsterLib
  tree : FileTree
  /-- the request for the references of a host, and its reply: nothing when there is no instance, and of a reply
  the blocks that are an index -/
  request : FsPath → ℕ → Except Fault (Option (List β))
  /-- `dest_directory_` -/
  dest : Option FsPath
  outputFormat : IndexOutputFileFormat
  /-- a file name can be generated for a message -/
  nameable : GribMsgDataInfo → Bool
  /-- a file opens for writing -/
  opens : FsPath → Bool
  opens_empty : opens [] = false

/-- The messages of files that are collected or handed over, in this order. -/
abbrev FileInfos := List (FsPath × GribMsgDataInfo)

/-- What is handed to `add_data` of the program's data. -/
structure ProgramData (β : Type) where
  infos : FileInfos := []
  blocks : List (FsPath × ℕ × β) := []

structure IndexState (β : Type) where
  result : FileInfos := []
  data : ProgramData β := {}

namespace Indexer

variable {β : Type} (env : Indexer β)

/-! ## Files -/

/-- `__index_file__` -/
def indexFile (fuel : ℕ) (file : FsPath) : Except (Option Fault) (List GribMsgDataInfo) := do
  let (err, grib) ← checked (HGrib1.openGrib (env.tree.content file))
  if err ≠ .noneErr then return []
  else
    let (_, infos) ← fueled (processFile env.lib fuel grib)
    return infos

/-- `write_json_file` of the index process: whether every message was written. -/
def writeJsonFile (path : FsPath) (data : List GribMsgDataInfo) : Bool := data = [] || env.opens path

/-- One turn of the loop in `__write_file__`.  The path of the file that is written is never set. -/
def writeMsg (data second : List GribMsgDataInfo) (msg : GribMsgDataInfo) : Except Fault (List GribMsgDataInfo) :=
  match env.outputFormat with
  | .json =>
    if env.nameable msg then .ok (if env.writeJsonFile [] data then second ++ [msg] else second)
    else .error .exception
  | _ => .ok second

/-- `__write_file__`: the path, and the messages that were written. -/
def writeFile (dest : FsPath) (data : List GribMsgDataInfo) : Except Fault (FsPath × List GribMsgDataInfo) := do
  let there ← env.tree.exists? dest
  if there then
    let second ← data.foldlM (env.writeMsg data) []
    return ([], second)
  else throw .exception

/-- `__index_write_file__` -/
def indexWriteFile (fuel : ℕ) (dest file : FsPath) :
    Except (Option Fault) (FsPath × List GribMsgDataInfo) := do
  let (err, grib) ← checked (HGrib1.openGrib (env.tree.content file))
  if err ≠ .noneErr then return ([], [])
  else
    let (_, infos) ← fueled (processFile env.lib fuel grib)
    checked (env.writeFile dest infos)

/-- What is collected of a file in a directory. -/
def collect (fuel : ℕ) (file : FsPath) : Except (Option Fault) (List GribMsgDataInfo) :=
  match env.dest with
  | none => env.indexFile fuel file
  | some dest => Prod.snd <$> env.indexWriteFile fuel dest file

/-! ## Paths -/

/-- The body of the loop over a directory. -/
def indexEntry (fuel : ℕ) (result : FileInfos) (entry : FsPath) : Except (Option Fault) FileInfos := do
  let regular ← checked (env.tree.isRegularFile entry)
  if regular = true ∧ IsGrib entry then
    let infos ← env.collect fuel entry
    return result ++ infos.map (entry, ·)
  else return result

/-- The loop over a directory.  An exception is caught outside of it. -/
def indexEntries (fuel : ℕ) (result : FileInfos) : List FsPath → Except (Option Fault) FileInfos
  | [] => .ok result
  | entry :: entries =>
    match env.indexEntry fuel result entry with
    | .ok result => indexEntries fuel result entries
    | .error (some .exception) => .ok result
    | .error e => .error e

/-- One path of the loop in `execute`, which goes on to the next one or returns. -/
def indexPath (fuel : ℕ) (s : IndexState β) : InPath → Except (Option Fault) (Pass (IndexState β) (ProgramData β))
  | .directory path =>
    match env.tree.isDirectory path with
    | .ok true => (fun result => .next { s with result }) <$> env.indexEntries fuel s.result (env.tree.listed path)
    | .ok false => .ok (.leave s.data)
    | .error _ => .ok (.next s)
  | .file path =>
    match env.indexFile fuel path with
    | .ok infos => .ok (.next { s with result := s.result ++ infos.map (path, ·) })
    | .error (some .exception) => .ok (.next s)
    | .error e => .error e
  | .host name port =>
    match env.request name port with
    | .ok (some blocks) =>
      .ok (.next { s with data := { s.data with blocks := s.data.blocks ++ blocks.map (name, port, ·) } })
    | .ok none => .ok (.leave s.data)
    | .error .exception => .ok (.next s)
    | .error e => .error (some e)

/-- The loop of `execute` over the paths in the order in which they are visited, and what comes after it. -/
def visits (fuel : ℕ) (s : IndexState β) : List InPath → Except (Option Fault) (ProgramData β)
  | [] => .ok { s.data with infos := s.data.infos ++ s.result }
  | path :: paths =>
    match env.indexPath fuel s path with
    | .ok (.next s) => visits fuel s paths
    | .ok (.leave data) => .ok data
    | .error e => .error e

def execute (fuel : ℕ) (paths : List InPath) : Except (Option Fault) (ProgramData β) := env.visits fuel {} paths

/-! ## What is asked of it -/

/-- A message of a file that is opened without an error. -/
def MessageOf (path : FsPath) (info : GribMsgDataInfo) : Prop :=
  ∃ f h p, env.tree path = .regular (some f) ∧ HGrib1.openGrib (some f) = .ok (.noneErr, h) ∧ Visited f p ∧
    readInfo env.lib f p = .ok info

/-- The files that a path stands for: itself, or what has an extension of messages and lies in the directory. -/
def Stands (x : InPath) (path : FsPath) : Prop :=
  path ∈ x.files env.tree ∧ (x = .file path ∨ IsGrib path)

/-- The process returns, and has handed over every message of every readable file. -/
def Indexed (paths : List InPath) : Prop :=
  ∃ fuel data, env.execute fuel paths = .ok data ∧
    ∀ x ∈ paths, ∀ path, env.Stands x path → ∀ info, env.MessageOf path info → (path, info) ∈ data.infos

/-! ## When it does so -/

/-- The function returns at this path. -/
def Leaves : InPath → Prop
  | .directory path => env.tree.isDirectory path = .ok false
  | .file _ => False
  | .host name port => env.request name port = .ok none

/-- What an entry comes to: nothing when there is an exception, else what is collected of it. -/
inductive Gives (entry : FsPath) : Option (List GribMsgDataInfo) → Prop where
  | unknown : env.tree entry = .unknown → Gives entry none
  | skipped : env.tree entry ≠ .unknown → ¬ ((∃ octets, env.tree entry = .regular octets) ∧ IsGrib entry) →
      Gives entry (some [])
  | refused {octets : Option File} {err : Code} {h : HGrib1} : env.tree entry = .regular octets → IsGrib entry →
      HGrib1.openGrib octets = .ok (err, h) → err ≠ .noneErr → Gives entry (some [])
  | read {f : File} {h : HGrib1} {reads : List GribMsgDataInfo} : env.tree entry = .regular (some f) → IsGrib entry →
      HGrib1.openGrib (some f) = .ok (.noneErr, h) → FileReads env.lib f reads → env.dest = none →
        Gives entry (some reads)
  | written {f : File} {h : HGrib1} {reads : List GribMsgDataInfo} {dest : FsPath}
      {r : FsPath × List GribMsgDataInfo} : env.tree entry = .regular (some f) → IsGrib entry →
      HGrib1.openGrib (some f) = .ok (.noneErr, h) → FileReads env.lib f reads → env.dest = some dest →
      env.writeFile dest reads = .ok r → Gives entry (some r.2)
  | threw {f : File} {h : HGrib1} {reads : List GribMsgDataInfo} {dest : FsPath} : env.tree entry = .regular (some f) →
      IsGrib entry → HGrib1.openGrib (some f) = .ok (.noneErr, h) → FileReads env.lib f reads → env.dest = some dest →
      env.writeFile dest reads = .error .exception → Gives entry none

/-- The entries of a directory are gone through to their end, or up to an exception. -/
inductive EntriesEnd : List FsPath → Prop where
  | nil : EntriesEnd []
  | stop {entry : FsPath} {entries : List FsPath} : env.Gives entry none → EntriesEnd (entry :: entries)
  | cons {entry : FsPath} {entries : List FsPath} {infos : List GribMsgDataInfo} : env.Gives entry (some infos) →
      EntriesEnd entries → EntriesEnd (entry :: entries)

/-- Nothing but an exception ends the visit of a path. -/
def PathEnds : InPath → Prop
  | .directory path => env.tree.isDirectory path = .ok true → env.EntriesEnd (env.tree.listed path)
  | .file path => FileEnds env.lib (env.tree.content path)
  | .host name port => ∀ e, env.request name port = .error e → e = .exception

/-- So it is for all paths up to the one where the function returns. -/
def Undisturbed : List InPath → Prop
  | [] => True
  | path :: paths => env.PathEnds path ∧ (env.Leaves path ∨ Undisturbed paths)

/-- The file comes before anything that cannot be asked for its kind. -/
def Reaches (entries : List FsPath) (path : FsPath) : Prop :=
  ∃ before after, entries = before ++ path :: after ∧ ∀ e ∈ before, env.tree e ≠ .unknown

/-- The visit of a path gets to a file and keeps its messages: it is the file, or there is no directory to write to and
the file is listed before anything that cannot be asked for its kind. -/
def Keeps : InPath → FsPath → Prop
  | .directory dir, path => (env.dest = none ∧ IsGrib path) ∧ env.Reaches (env.tree.listed dir) path
  | .file file, path => file = path
  | .host _ _, _ => False

section Files

variable {env} {file : FsPath}

/-- A file is refused when it is opened, or read to its end. -/
inductive Collected (env : Indexer β) (file : FsPath) : List GribMsgDataInfo → Prop where
  | refused {err : Code} {h : HGrib1} : HGrib1.openGrib (env.tree.content file) = .ok (err, h) → err ≠ .noneErr →
      Collected env file []
  | read {f : File} {h : HGrib1} {reads : List GribMsgDataInfo} : env.tree file = .regular (some f) →
      HGrib1.openGrib (some f) = .ok (.noneErr, h) → FileReads env.lib f reads → Collected env file reads

/-- A file that is opened without an error has octets. -/
theorem content_of_open {h : HGrib1} (ho : HGrib1.openGrib (env.tree.content file) = .ok (.noneErr, h)) :
    ∃ f, env.tree file = .regular (some f) ∧ HGrib1.openGrib (some f) = .ok (.noneErr, h) := by
  cases hc : env.tree.content file with
  | none =>
    rw [hc] at ho
    cases ho
  | some f =>
    rw [hc] at ho
    exact ⟨f, FileTree.content_eq_some hc, ho⟩

theorem fileEnds_iff : FileEnds env.lib (env.tree.content file) ↔ ∃ infos, Collected env file infos := by
  constructor
  · rintro ⟨err, h, ho, hends⟩
    by_cases herr : err = .noneErr
    · subst herr
      obtain ⟨f, ps, hf, hwalk⟩ := hends rfl
      obtain ⟨reads, hreads⟩ := exists_reads_iff.mpr ⟨ps, hwalk⟩
      exact ⟨reads, .read (FileTree.content_eq_some hf) (hf ▸ ho) hreads⟩
    · exact ⟨[], .refused ho herr⟩
  · rintro ⟨infos, hc⟩
    cases hc with
    | refused ho herr => exact ⟨_, _, ho, fun h => absurd h herr⟩
    | @read f h reads htree ho hreads =>
      obtain ⟨ps, hwalk⟩ := exists_reads_iff.mp ⟨infos, hreads⟩
      have hcontent := FileTree.content_regular htree
      exact ⟨_, h, hcontent ▸ ho, fun _ => ⟨f, ps, hcontent, hwalk⟩⟩

/-- What both ways of indexing a file have in common: it is opened, and read to its end. -/
def opening (env : Indexer β) {α : Type} (fuel : ℕ) (file : FsPath) (x : α)
    (k : List GribMsgDataInfo → Except (Option Fault) α) : Except (Option Fault) α := do
  let (err, grib) ← checked (HGrib1.openGrib (env.tree.content file))
  if err ≠ .noneErr then return x
  else
    let (_, infos) ← fueled (processFile env.lib fuel grib)
    k infos

theorem indexWriteFile_eq (fuel : ℕ) (dest : FsPath) : env.indexWriteFile fuel dest file =
    env.opening fuel file ([], []) fun infos => checked (env.writeFile dest infos) := rfl

section Opening

variable {α : Type} {fuel : ℕ} {x : α} {k : List GribMsgDataInfo → Except (Option Fault) α}

theorem opening_refused {err : Code} {h : HGrib1} (ho : HGrib1.openGrib (env.tree.content file) = .ok (err, h))
    (herr : err ≠ .noneErr) : env.opening fuel file x k = .ok x := by
  rw [opening, ho, checked_ok, ok_bind]
  exact if_pos herr

theorem opening_read {h : HGrib1} {r : HGrib1 × List GribMsgDataInfo}
    (ho : HGrib1.openGrib (env.tree.content file) = .ok (.noneErr, h))
    (hr : fueled (processFile env.lib fuel h) = .ok r) : env.opening fuel file x k = k r.2 := by
  rw [opening, ho, checked_ok, ok_bind]
  dsimp only
  rw [if_neg (not_not.mpr rfl), hr]
  rfl

/-- What ended, and not with a result, threw. -/
theorem eq_exception {e : Option Fault}
    (hk : (∃ a : α, Except.error e = .ok a) ∨ (Except.error e : Except _ α) = .error (some .exception)) :
    e = some .exception := by
  rcases hk with ⟨a, h⟩ | h
  · cases h
  · exact Except.error.inj h

/-- What it did, unless the program ended. -/
theorem opening_cases {r : Except (Option Fault) α} (hr : env.opening fuel file x k = r)
    (hk : (∃ a, r = .ok a) ∨ r = .error (some .exception)) :
    (∃ err h, HGrib1.openGrib (env.tree.content file) = .ok (err, h) ∧ err ≠ .noneErr ∧ r = .ok x) ∨
      ∃ f h reads, env.tree file = .regular (some f) ∧ HGrib1.openGrib (some f) = .ok (.noneErr, h) ∧
        FileReads env.lib f reads ∧ k reads = r := by
  cases ho : HGrib1.openGrib (env.tree.content file) with
  | error e =>
    rw [opening, ho] at hr
    rcases hk with ⟨a, rfl⟩ | rfl
    · cases hr
    · cases hr
      exact absurd ho HGrib1.openGrib_quiet
  | ok v =>
    obtain ⟨err, grib⟩ := v
    rw [opening, ho, checked_ok, ok_bind] at hr
    dsimp only at hr
    by_cases herr : err = .noneErr
    · subst herr
      rw [if_neg (not_not.mpr rfl)] at hr
      obtain ⟨f, htree, ho'⟩ := content_of_open ho
      cases hp : fueled (processFile env.lib fuel grib) with
      | error e =>
        rw [hp] at hr
        rcases hk with ⟨a, rfl⟩ | rfl
        · cases hr
        · cases hr
          exact absurd hp (processFile_quiet env.lib)
      | ok v =>
        rw [hp] at hr
        exact .inr ⟨f, grib, v.2, htree, ho', reads_of_processFile ho' hp, hr⟩
    · rw [if_pos herr] at hr
      exact .inl ⟨err, grib, rfl, herr, hr.symm⟩

end Opening

theorem indexFile_eq_ok {fuel : ℕ} {infos : List GribMsgDataInfo} (h : env.indexFile fuel file = .ok infos) :
    Collected env file infos := by
  rcases opening_cases h (.inl ⟨_, rfl⟩) with ⟨err, g, ho, herr, heq⟩ | ⟨f, g, reads, htree, ho, hreads, heq⟩
  · cases heq
    exact .refused ho herr
  · cases heq
    exact .read htree ho hreads

theorem indexFile_quiet {fuel : ℕ} : env.indexFile fuel file ≠ .error (some .exception) := by
  intro h
  rcases opening_cases h (.inr rfl) with ⟨err, g, ho, herr, heq⟩ | ⟨f, g, reads, htree, ho, hreads, heq⟩
  · cases heq
  · cases heq

/-- With enough fuel a file that is refused or read is indexed. -/
theorem Collected.indexFile {infos : List GribMsgDataInfo} (h : Collected env file infos) :
    ∃ n, ∀ fuel, n ≤ fuel → ∃ infos, env.indexFile fuel file = .ok infos := by
  cases h with
  | refused ho herr => exact ⟨0, fun fuel _ => ⟨[], opening_refused ho herr⟩⟩
  | read htree ho hreads =>
    obtain ⟨n, hn⟩ := processFile_of_reads ho hreads
    refine ⟨n, fun fuel hfuel => ?_⟩
    obtain ⟨h', hr⟩ := hn fuel hfuel
    exact ⟨_, opening_read (FileTree.content_regular htree ▸ ho) hr⟩

/-- What is collected of a file are its messages. -/
theorem Collected.mem_iff {infos : List GribMsgDataInfo} (h : Collected env file infos) {info : GribMsgDataInfo} :
    info ∈ infos ↔ env.MessageOf file info := by
  cases h with
  | @refused err h ho herr =>
    refine iff_of_false List.not_mem_nil ?_
    rintro ⟨f, h', p, htree, ho', -⟩
    rw [FileTree.content_regular htree, ho'] at ho
    cases ho
    exact herr rfl
  | @read f h reads htree ho hreads =>
    rw [hreads.mem_iff]
    constructor
    · rintro ⟨p, hp, hread⟩
      exact ⟨f, h, p, htree, ho, hp, hread⟩
    · rintro ⟨f', h', p, htree', -, hp, hread⟩
      rw [htree] at htree'
      cases htree'
      exact ⟨p, hp, hread⟩

/-! ## Files that are written -/

/-- No message is written: no file opens under the empty path. -/
theorem writeMsg_cases {data : List GribMsgDataInfo} (hne : data ≠ []) (l : List GribMsgDataInfo)
    (msg : GribMsgDataInfo) :
    env.writeMsg data l msg = .ok l ∨ env.writeMsg data l msg = .error .exception := by
  have hwrite : env.writeJsonFile [] data = false := by simp [writeJsonFile, env.opens_empty, hne]
  unfold writeMsg
  split
  · split
    · rw [hwrite]
      exact .inl rfl
    · exact .inr rfl
  · exact .inl rfl

theorem foldlM_writeMsg {data : List GribMsgDataInfo} : ∀ {msgs : List GribMsgDataInfo} (l : List GribMsgDataInfo),
    (msgs ≠ [] → data ≠ []) →
    msgs.foldlM (env.writeMsg data) l = .ok l ∨ msgs.foldlM (env.writeMsg data) l = .error .exception
  | [], l, _ => .inl rfl
  | msg :: msgs, l, hne => by
    have hdata := hne (List.cons_ne_nil _ _)
    rw [List.foldlM_cons]
    rcases writeMsg_cases hdata l msg with h | h
    · rw [h, ok_bind]
      exact foldlM_writeMsg l fun _ => hdata
    · rw [h]
      exact .inr rfl

theorem writeFile_cases (dest : FsPath) (data : List GribMsgDataInfo) :
    env.writeFile dest data = .ok ([], []) ∨ env.writeFile dest data = .error .exception := by
  unfold writeFile
  cases hd : env.tree.exists? dest with
  | error e =>
    right
    unfold FileTree.exists? at hd
    split at hd
    · rw [← Except.error.inj hd]
      rfl
    · cases hd
    · cases hd
  | ok there =>
    rw [ok_bind]
    cases there
    · exact .inr rfl
    · rcases @foldlM_writeMsg _ env data data [] id with h | h
      · rw [if_pos rfl, h]
        exact .inl rfl
      · rw [if_pos rfl, h]
        exact .inr rfl

end Files

/-! ## Directories -/

section Directories

variable {env} {entry : FsPath} {result result' : FileInfos}

/-- What is collected of an entry are the messages of the file, unless they are to be written. -/
theorem Gives.mem_iff {infos : List GribMsgDataInfo} (h : env.Gives entry (some infos)) {info : GribMsgDataInfo} :
    info ∈ infos ↔ (env.dest = none ∧ IsGrib entry) ∧ env.MessageOf entry info := by
  cases h with
  | skipped hknown hnot =>
    refine iff_of_false List.not_mem_nil ?_
    rintro ⟨⟨-, hgrib⟩, f, h, p, htree, -⟩
    exact hnot ⟨⟨_, htree⟩, hgrib⟩
  | refused htree hgrib ho herr =>
    have hrefused : Collected env entry [] := .refused (FileTree.content_regular htree ▸ ho) herr
    exact iff_of_false List.not_mem_nil fun h => List.not_mem_nil (hrefused.mem_iff.mpr h.2)
  | read htree hgrib ho hreads hdest =>
    rw [(Collected.read htree ho hreads).mem_iff]
    exact ⟨fun h => ⟨⟨hdest, hgrib⟩, h⟩, And.right⟩
  | @written f h reads dest r htree hgrib ho hreads hdest hw =>
    have hr : r.2 = [] := by
      rcases env.writeFile_cases dest reads with h | h
      · rw [h] at hw
        cases hw
        rfl
      · rw [h] at hw
        cases hw
    rw [hr]
    refine iff_of_false List.not_mem_nil fun h => ?_
    rw [hdest] at h
    cases h.1.1

theorem Gives.known {infos : List GribMsgDataInfo} (h : env.Gives entry (some infos)) : env.tree entry ≠ .unknown := by
  cases h with
  | skipped hknown _ => exact hknown
  | refused htree _ _ _ => rw [htree]; exact nofun
  | read htree _ _ _ _ => rw [htree]; exact nofun
  | written htree _ _ _ _ _ => rw [htree]; exact nofun

/-- Without a directory to write to only what cannot be asked for its kind throws. -/
theorem Gives.unknown_of_none (h : env.Gives entry none) (hdest : env.dest = none) : env.tree entry = .unknown := by
  cases h with
  | unknown h => exact h
  | threw _ _ _ _ hdest' _ =>
    rw [hdest] at hdest'
    cases hdest'

/-- What a file in a directory comes to, once it is opened. -/
theorem collect_cases {fuel : ℕ} {r : Except (Option Fault) (List GribMsgDataInfo)} {octets : Option File}
    (htree : env.tree entry = .regular octets) (hgrib : IsGrib entry) (hr : env.collect fuel entry = r)
    (hk : (∃ a, r = .ok a) ∨ r = .error (some .exception)) :
    (∃ infos, r = .ok infos ∧ env.Gives entry (some infos)) ∨
      r = .error (some .exception) ∧ env.Gives entry none := by
  unfold collect at hr
  split at hr
  · rename_i hdest
    rcases opening_cases hr hk with ⟨err, g, ho, herr, heq⟩ | ⟨f, g, reads, htree', ho, hreads, heq⟩
    · exact .inl ⟨[], heq, .refused htree hgrib (FileTree.content_regular htree ▸ ho) herr⟩
    · exact .inl ⟨reads, heq.symm, .read htree' hgrib ho hreads hdest⟩
  · rename_i dest hdest
    cases hw : env.indexWriteFile fuel dest entry with
    | error e =>
      rw [hw] at hr
      subst hr
      obtain rfl := eq_exception hk
      rw [indexWriteFile_eq] at hw
      rcases opening_cases hw (.inr rfl) with ⟨err, g, ho, herr, heq⟩ | ⟨f, g, reads, htree', ho, hreads, heq⟩
      · cases heq
      · refine .inr ⟨rfl, .threw htree' hgrib ho hreads hdest ?_⟩
        rcases env.writeFile_cases dest reads with h | h
        · rw [h] at heq
          cases heq
        · exact h
    | ok v =>
      rw [hw] at hr
      subst hr
      rw [indexWriteFile_eq] at hw
      rcases opening_cases hw (.inl ⟨v, rfl⟩) with ⟨err, g, ho, herr, heq⟩ | ⟨f, g, reads, htree', ho, hreads, heq⟩
      · cases heq
        exact .inl ⟨[], rfl, .refused htree hgrib (FileTree.content_regular htree ▸ ho) herr⟩
      · exact .inl ⟨v.2, rfl, .written htree' hgrib ho hreads hdest (checked_eq_ok.mp heq)⟩

/-- What a visit of an entry did, unless the program ended. -/
theorem indexEntry_cases {fuel : ℕ} {r : Except (Option Fault) FileInfos} (hr : env.indexEntry fuel result entry = r)
    (hk : (∃ a, r = .ok a) ∨ r = .error (some .exception)) :
    (∃ infos, r = .ok (result ++ infos.map (entry, ·)) ∧ env.Gives entry (some infos)) ∨
      r = .error (some .exception) ∧ env.Gives entry none := by
  by_cases hknown : env.tree entry = .unknown
  · refine .inr ⟨?_, .unknown hknown⟩
    rw [← hr, indexEntry, FileTree.isRegularFile, hknown]
    rfl
  · obtain ⟨b, hb⟩ := FileTree.isRegularFile_defined hknown
    have hb' := (FileTree.isRegularFile_eq_ok.mp hb).2
    rw [indexEntry, hb, checked_ok, ok_bind] at hr
    by_cases hg : b = true ∧ IsGrib entry
    · rw [if_pos hg] at hr
      obtain ⟨octets, htree⟩ := hb'.mp hg.1
      cases hc : env.collect fuel entry with
      | error e =>
        rw [hc] at hr
        subst hr
        obtain rfl := eq_exception hk
        rcases collect_cases htree hg.2 hc (.inr rfl) with ⟨infos, h, -⟩ | ⟨-, h⟩
        · cases h
        · exact .inr ⟨rfl, h⟩
      | ok infos =>
        rw [hc] at hr
        subst hr
        rcases collect_cases htree hg.2 hc (.inl ⟨_, rfl⟩) with ⟨infos', h, hgives⟩ | ⟨h, -⟩
        · cases h
          exact .inl ⟨_, rfl, hgives⟩
        · cases h
    · rw [if_neg hg] at hr
      refine .inl ⟨[], ?_, .skipped hknown fun h => hg ⟨hb'.mpr h.1, h.2⟩⟩
      rw [← hr, List.map_nil, List.append_nil]
      rfl

/-- A regular file in the directory adds what is collected of it, or throws. -/
theorem indexEntry_regular {fuel : ℕ} {octets : Option File} (htree : env.tree entry = .regular octets)
    (hgrib : IsGrib entry) : env.indexEntry fuel result entry =
      (fun infos => result ++ infos.map (entry, ·)) <$> env.collect fuel entry := by
  have hb : env.tree.isRegularFile entry = .ok true := by rw [FileTree.isRegularFile, htree]
  rw [Indexer.indexEntry, hb, checked_ok, ok_bind, if_pos ⟨rfl, hgrib⟩]
  cases env.collect fuel entry <;> rfl

/-- With enough fuel a file that is read is collected, or written where there is a directory to write to. -/
theorem collect_of_reads {f : File} {h : HGrib1} {reads : List GribMsgDataInfo}
    (htree : env.tree entry = .regular (some f)) (ho : HGrib1.openGrib (some f) = .ok (.noneErr, h))
    (hreads : FileReads env.lib f reads) : ∃ n, ∀ fuel, n ≤ fuel → env.collect fuel entry =
      match env.dest with
      | none => .ok reads
      | some dest => Prod.snd <$> checked (env.writeFile dest reads) := by
  obtain ⟨n, hn⟩ := processFile_of_reads ho hreads
  refine ⟨n, fun fuel hfuel => ?_⟩
  obtain ⟨h', hr⟩ := hn fuel hfuel
  unfold collect
  split
  · exact opening_read (FileTree.content_regular htree ▸ ho) hr
  · rw [indexWriteFile_eq, opening_read (FileTree.content_regular htree ▸ ho) hr]

/-- With enough fuel a visit of an entry comes to what the entry comes to. -/
theorem Gives.indexEntry {o : Option (List GribMsgDataInfo)} (h : env.Gives entry o) :
    ∃ n, ∀ fuel, n ≤ fuel → ∀ result, env.indexEntry fuel result entry =
      match o with
      | some infos => .ok (result ++ infos.map (entry, ·))
      | none => .error (some .exception) := by
  cases h with
  | unknown h =>
    refine ⟨0, fun fuel _ result => ?_⟩
    rw [Indexer.indexEntry, FileTree.isRegularFile, h]
    rfl
  | skipped hknown hnot =>
    refine ⟨0, fun fuel _ result => ?_⟩
    obtain ⟨b, hb⟩ := FileTree.isRegularFile_defined hknown
    have hb' := (FileTree.isRegularFile_eq_ok.mp hb).2
    rw [Indexer.indexEntry, hb, checked_ok, ok_bind, if_neg fun hg => hnot ⟨hb'.mp hg.1, hg.2⟩]
    simp
  | refused htree hgrib ho herr =>
    refine ⟨0, fun fuel _ result => ?_⟩
    have hcollect : env.collect fuel entry = .ok [] := by
      unfold collect
      split
      · exact opening_refused (FileTree.content_regular htree ▸ ho) herr
      · rw [indexWriteFile_eq, opening_refused (FileTree.content_regular htree ▸ ho) herr]
        rfl
    rw [indexEntry_regular htree hgrib, hcollect]
    rfl
  | read htree hgrib ho hreads hdest =>
    obtain ⟨n, hn⟩ := collect_of_reads htree ho hreads
    refine ⟨n, fun fuel hfuel result => ?_⟩
    rw [indexEntry_regular htree hgrib, hn fuel hfuel, hdest]
    rfl
  | written htree hgrib ho hreads hdest hw | threw htree hgrib ho hreads hdest hw =>
    obtain ⟨n, hn⟩ := collect_of_reads htree ho hreads
    refine ⟨n, fun fuel hfuel result => ?_⟩
    rw [indexEntry_regular htree hgrib, hn fuel hfuel, hdest]
    dsimp only
    rw [hw]
    rfl

theorem not_reaches_nil {path : FsPath} : ¬ env.Reaches [] path := by
  rintro ⟨before, after, heq, -⟩
  cases before <;> cases heq

theorem reaches_cons {e path : FsPath} {entries : List FsPath} : env.Reaches (e :: entries) path ↔
    e = path ∨ env.tree e ≠ .unknown ∧ env.Reaches entries path := by
  constructor
  · rintro ⟨before, after, heq, hbefore⟩
    cases before with
    | nil => exact .inl (List.cons.inj heq).1
    | cons e' before =>
      obtain ⟨rfl, rfl⟩ := List.cons.inj heq
      exact .inr ⟨hbefore _ List.mem_cons_self, before, after, rfl,
        fun e he => hbefore e (List.mem_cons_of_mem _ he)⟩
  · rintro (rfl | ⟨hknown, before, after, rfl, hbefore⟩)
    · exact ⟨[], entries, rfl, by simp⟩
    · exact ⟨e :: before, after, rfl, List.forall_mem_cons.mpr ⟨hknown, hbefore⟩⟩

theorem mem_infos_map {path : FsPath} {infos : List GribMsgDataInfo} {r : FsPath × GribMsgDataInfo} :
    r ∈ infos.map (path, ·) ↔ path = r.1 ∧ r.2 ∈ infos := by
  rw [List.mem_map]
  constructor
  · rintro ⟨info, hinfo, rfl⟩
    exact ⟨rfl, hinfo⟩
  · rintro ⟨rfl, hinfo⟩
    exact ⟨r.2, hinfo, rfl⟩

/-- A loop over a directory that has a result went to the end or up to an exception, and collected the messages of
the files it got to. -/
theorem indexEntries_eq_ok {fuel : ℕ} : ∀ {entries : List FsPath} {result result' : FileInfos},
    env.indexEntries fuel result entries = .ok result' → env.EntriesEnd entries ∧ ∀ r, r ∈ result' ↔
      r ∈ result ∨ ((env.dest = none ∧ IsGrib r.1) ∧ env.Reaches entries r.1) ∧ env.MessageOf r.1 r.2
  | [], result, result', h => by
    cases h
    refine ⟨.nil, fun r => ⟨.inl, ?_⟩⟩
    rintro (h | ⟨⟨-, h⟩, -⟩)
    · exact h
    · exact absurd h not_reaches_nil
  | e :: entries, result, result', h => by
    cases hr : env.indexEntry fuel result e with
    | ok result₁ =>
      simp only [indexEntries, hr] at h
      rcases indexEntry_cases hr (.inl ⟨_, rfl⟩) with ⟨infos, heq, hgives⟩ | ⟨heq, -⟩
      · cases heq
        obtain ⟨hend, hmem⟩ := indexEntries_eq_ok h
        refine ⟨.cons hgives hend, fun r => ?_⟩
        have hknown := hgives.known
        have hself : r ∈ infos.map (e, ·) ↔ ((env.dest = none ∧ IsGrib r.1) ∧ e = r.1) ∧ env.MessageOf r.1 r.2 := by
          rw [mem_infos_map, hgives.mem_iff]
          constructor
          · rintro ⟨rfl, hkept, hm⟩
            exact ⟨⟨hkept, rfl⟩, hm⟩
          · rintro ⟨⟨hkept, rfl⟩, hm⟩
            exact ⟨rfl, hkept, hm⟩
        rw [hmem, List.mem_append, hself, reaches_cons, and_iff_right hknown, and_or_left, or_and_right, or_assoc]
      · cases heq
    | error err =>
      simp only [indexEntries, hr] at h
      split at h
      · rename_i heq
        cases heq
      · rename_i heq
        cases heq
        cases h
        rcases indexEntry_cases hr (.inr rfl) with ⟨infos, heq, -⟩ | ⟨-, hgives⟩
        · cases heq
        · refine ⟨.stop hgives, fun r => ⟨.inl, ?_⟩⟩
          rintro (h | ⟨⟨hkept, hreach⟩, hm⟩)
          · exact h
          · have hunknown := hgives.unknown_of_none hkept.1
            rcases reaches_cons.mp hreach with heq | ⟨hknown, -⟩
            · obtain ⟨f, h', p, htree, -⟩ := hm
              rw [heq, htree] at hunknown
              cases hunknown
            · exact absurd hunknown hknown
      · cases h

/-- With enough fuel the loop has a result. -/
theorem EntriesEnd.indexEntries {entries : List FsPath} (h : env.EntriesEnd entries) :
    ∃ n, ∀ fuel, n ≤ fuel → ∀ result, ∃ result', env.indexEntries fuel result entries = .ok result' := by
  induction h with
  | nil => exact ⟨0, fun _ _ result => ⟨result, rfl⟩⟩
  | @stop e entries hgives =>
    obtain ⟨n, hn⟩ := hgives.indexEntry
    refine ⟨n, fun fuel hfuel result => ⟨result, ?_⟩⟩
    simp only [Indexer.indexEntries, hn fuel hfuel result]
  | @cons e entries infos hgives _ ih =>
    obtain ⟨n, hn⟩ := hgives.indexEntry
    obtain ⟨m, hm⟩ := ih
    refine ⟨max n m, fun fuel hfuel result => ?_⟩
    obtain ⟨result', h'⟩ := hm fuel (by omega) (result ++ infos.map (e, ·))
    exact ⟨result', by simp only [Indexer.indexEntries, hn fuel (by omega) result, h']⟩

end Directories

/-! ## Paths -/

section Paths

variable {env}

/-- What a visit of a path has done that goes on to the next one. -/
structure Visit (env : Indexer β) (s : IndexState β) (x : InPath) (s' : IndexState β) : Prop where
  ends : env.PathEnds x
  stays : ¬ env.Leaves x
  infos : s'.data.infos = s.data.infos
  result : ∀ r, r ∈ s'.result ↔ r ∈ s.result ∨ env.Keeps x r.1 ∧ env.MessageOf r.1 r.2

section Next

variable {fuel : ℕ} {s s' : IndexState β}

theorem indexPath_directory {path : FsPath} (h : env.indexPath fuel s (.directory path) = .ok (.next s')) :
    env.Visit s (.directory path) s' := by
  simp only [indexPath] at h
  split at h
  · rename_i hd
    cases hr : env.indexEntries fuel s.result (env.tree.listed path) with
    | error e =>
      rw [hr] at h
      cases h
    | ok result =>
      rw [hr] at h
      cases h
      obtain ⟨hend, hmem⟩ := indexEntries_eq_ok hr
      exact ⟨fun _ => hend, fun h => absurd (hd.symm.trans h) (by simp), rfl, hmem⟩
  · cases h
  · rename_i hd
    cases h
    have hlisted : env.tree.listed path = [] := FileTree.listed_eq_nil (by simp [hd])
    refine ⟨fun h => absurd (hd.symm.trans h) (by simp), fun h => absurd (hd.symm.trans h) (by simp), rfl,
      fun r => ⟨.inl, ?_⟩⟩
    rintro (h | ⟨⟨-, hreach⟩, -⟩)
    · exact h
    · rw [hlisted] at hreach
      exact absurd hreach not_reaches_nil

theorem indexPath_file {path : FsPath} (h : env.indexPath fuel s (.file path) = .ok (.next s')) :
    env.Visit s (.file path) s' := by
  simp only [indexPath] at h
  split at h
  · rename_i infos hf
    cases h
    have hc := indexFile_eq_ok hf
    refine ⟨fileEnds_iff.mpr ⟨infos, hc⟩, not_false, rfl, fun r => ?_⟩
    rw [List.mem_append, mem_infos_map, hc.mem_iff]
    refine or_congr_right (and_congr_right fun heq => ?_)
    rw [heq]
  · rename_i hf
    exact absurd hf indexFile_quiet
  · cases h

theorem indexPath_host {name : FsPath} {port : ℕ} (h : env.indexPath fuel s (.host name port) = .ok (.next s')) :
    env.Visit s (.host name port) s' := by
  have hnone : ∀ {s' : IndexState β} {r : FsPath × GribMsgDataInfo}, s'.result = s.result →
      (r ∈ s'.result ↔ r ∈ s.result ∨ env.Keeps (.host name port) r.1 ∧ env.MessageOf r.1 r.2) := by
    intro s' r heq
    rw [heq]
    exact ⟨.inl, fun h => h.resolve_right fun hk => hk.1⟩
  simp only [indexPath] at h
  split at h
  · rename_i hreq
    cases h
    exact ⟨fun e he => absurd (hreq.symm.trans he) (by simp), fun h => absurd (hreq.symm.trans h) (by simp), rfl,
      fun r => hnone rfl⟩
  · cases h
  · rename_i hreq
    cases h
    exact ⟨fun e he => (Except.error.inj (hreq.symm.trans he)).symm, fun h => absurd (hreq.symm.trans h) (by simp), rfl,
      fun r => hnone rfl⟩
  · cases h

/-- A visit of a path that goes on to the next one. -/
theorem indexPath_next : ∀ {x : InPath}, env.indexPath fuel s x = .ok (.next s') → env.Visit s x s'
  | .directory _, h => indexPath_directory h
  | .file _, h => indexPath_file h
  | .host _ _, h => indexPath_host h

end Next

/-- A visit of a path that returns. -/
theorem indexPath_leave {fuel : ℕ} {s : IndexState β} {data : ProgramData β} {x : InPath}
    (h : env.indexPath fuel s x = .ok (.leave data)) : env.PathEnds x ∧ env.Leaves x ∧ data = s.data := by
  cases x with
  | directory path =>
    simp only [indexPath] at h
    split at h
    · cases hr : env.indexEntries fuel s.result (env.tree.listed path) with
      | error e =>
        rw [hr] at h
        cases h
      | ok result =>
        rw [hr] at h
        cases h
    · rename_i hd
      cases h
      exact ⟨fun h => absurd (hd.symm.trans h) (by simp), hd, rfl⟩
    · cases h
  | file path =>
    simp only [indexPath] at h
    split at h <;> cases h
  | host name port =>
    simp only [indexPath] at h
    split at h
    · cases h
    · rename_i hreq
      cases h
      exact ⟨fun e he => absurd (hreq.symm.trans he) (by simp), hreq, rfl⟩
    · cases h
    · cases h

/-- With enough fuel a visit of a path has a result, and returns where the function returns. -/
theorem PathEnds.indexPath {x : InPath} (h : env.PathEnds x) : ∃ n, ∀ fuel, n ≤ fuel → ∀ s,
    (∃ s', env.indexPath fuel s x = .ok (.next s')) ∨ ∃ data, env.indexPath fuel s x = .ok (.leave data) := by
  cases x with
  | directory path =>
    cases hd : env.tree.isDirectory path with
    | error e => exact ⟨0, fun fuel _ s => .inl ⟨s, by simp only [Indexer.indexPath, hd]⟩⟩
    | ok b =>
      cases b with
      | false => exact ⟨0, fun fuel _ s => .inr ⟨s.data, by simp only [Indexer.indexPath, hd]⟩⟩
      | true =>
        obtain ⟨n, hn⟩ := (h hd).indexEntries
        refine ⟨n, fun fuel hfuel s => .inl ?_⟩
        obtain ⟨result, hr⟩ := hn fuel hfuel s.result
        exact ⟨{ s with result }, by simp only [Indexer.indexPath, hd, hr]; rfl⟩
  | file path =>
    obtain ⟨infos, hc⟩ := fileEnds_iff.mp h
    obtain ⟨n, hn⟩ := hc.indexFile
    refine ⟨n, fun fuel hfuel s => .inl ?_⟩
    obtain ⟨infos', hi⟩ := hn fuel hfuel
    exact ⟨_, by simp only [Indexer.indexPath, hi]; rfl⟩
  | host name port =>
    refine ⟨0, fun fuel _ s => ?_⟩
    cases hreq : env.request name port with
    | error e =>
      obtain rfl := h e hreq
      exact .inl ⟨s, by simp only [Indexer.indexPath, hreq]⟩
    | ok blocks =>
      cases blocks with
      | none => exact .inr ⟨s.data, by simp only [Indexer.indexPath, hreq]⟩
      | some blocks => exact .inl ⟨_, by simp only [Indexer.indexPath, hreq]; rfl⟩

/-- What a run that has a result handed over: nothing when it returned at a path, else the messages of the files that
the paths keep. -/
theorem visits_eq_ok {fuel : ℕ} : ∀ {paths : List InPath} {s : IndexState β} {data : ProgramData β},
    env.visits fuel s paths = .ok data → env.Undisturbed paths ∧
      ((∃ x ∈ paths, env.Leaves x) → data.infos = s.data.infos) ∧
      ((∀ x ∈ paths, ¬ env.Leaves x) → ∀ r, r ∈ data.infos ↔
        r ∈ s.data.infos ∨ r ∈ s.result ∨ ∃ x ∈ paths, env.Keeps x r.1 ∧ env.MessageOf r.1 r.2)
  | [], s, data, h => by
    cases h
    exact ⟨trivial, by simp, fun _ r => by simp⟩
  | x :: paths, s, data, h => by
    unfold visits at h
    split at h
    · rename_i s' hx
      obtain ⟨hend, hstays, hdata, hmem⟩ := indexPath_next hx
      obtain ⟨hu, hleft, hall⟩ := visits_eq_ok h
      refine ⟨⟨hend, .inr hu⟩, ?_, ?_⟩
      · rintro ⟨y, hy, hleaves⟩
        rcases List.mem_cons.mp hy with rfl | hy
        · exact absurd hleaves hstays
        · rw [hleft ⟨y, hy, hleaves⟩, hdata]
      · intro hstays' r
        rw [hall (fun y hy => hstays' y (List.mem_cons_of_mem _ hy)) r, hdata, hmem r]
        simp only [List.mem_cons, exists_eq_or_imp]
        rw [or_assoc]
    · rename_i hx
      cases h
      obtain ⟨hend, hleaves, rfl⟩ := indexPath_leave hx
      exact ⟨⟨hend, .inl hleaves⟩, fun _ => rfl, fun hstays => absurd hleaves (hstays x List.mem_cons_self)⟩
    · cases h

/-- With enough fuel a run has a result. -/
theorem visits_defined : ∀ {paths : List InPath}, env.Undisturbed paths →
    ∃ n, ∀ fuel, n ≤ fuel → ∀ s, ∃ data, env.visits fuel s paths = .ok data
  | [], _ => ⟨0, fun _ _ _ => ⟨_, rfl⟩⟩
  | x :: paths, ⟨hend, hrest⟩ => by
    obtain ⟨n, hn⟩ := hend.indexPath
    rcases hrest with hleaves | hu
    · refine ⟨n, fun fuel hfuel s => ?_⟩
      rcases hn fuel hfuel s with ⟨s', h⟩ | ⟨data, h⟩
      · exact absurd hleaves (indexPath_next h).stays
      · exact ⟨data, by simp only [visits, h]⟩
    · obtain ⟨m, hm⟩ := visits_defined hu
      refine ⟨max n m, fun fuel hfuel s => ?_⟩
      rcases hn fuel (by omega) s with ⟨s', h⟩ | ⟨data, h⟩
      · obtain ⟨data, h'⟩ := hm fuel (by omega) s'
        exact ⟨data, by simp only [visits, h, h']⟩
      · exact ⟨data, by simp only [visits, h]⟩

/-- What a run from the start handed over. -/
theorem mem_infos_iff {fuel : ℕ} {paths : List InPath} {data : ProgramData β} (h : env.execute fuel paths = .ok data)
    (r : FsPath × GribMsgDataInfo) : r ∈ data.infos ↔
      (∀ x ∈ paths, ¬ env.Leaves x) ∧ ∃ x ∈ paths, env.Keeps x r.1 ∧ env.MessageOf r.1 r.2 := by
  obtain ⟨-, hleft, hall⟩ := visits_eq_ok h
  by_cases hl : ∃ x ∈ paths, env.Leaves x
  · rw [hleft hl]
    obtain ⟨x, hx, hleaves⟩ := hl
    exact iff_of_false List.not_mem_nil fun h => h.1 x hx hleaves
  · have hstays : ∀ x ∈ paths, ¬ env.Leaves x := fun x hx hleaves => hl ⟨x, hx, hleaves⟩
    rw [hall hstays r]
    constructor
    · rintro (h | h | h)
      · exact absurd h List.not_mem_nil
      · exact absurd h List.not_mem_nil
      · exact ⟨hstays, h⟩
    · exact fun h => .inr (.inr h.2)

end Paths

/-- **Every message of every readable file is handed to the program's data** exactly when nothing but exceptions ends
the visits, and, if there is such a message, no path makes the function return and its file is kept by some path. -/
theorem indexed_iff (paths : List InPath) : env.Indexed paths ↔ env.Undisturbed paths ∧
    ∀ x ∈ paths, ∀ path, env.Stands x path → (∃ info, env.MessageOf path info) →
      (∀ y ∈ paths, ¬ env.Leaves y) ∧ ∃ y ∈ paths, env.Keeps y path := by
  constructor
  · rintro ⟨fuel, data, h, hall⟩
    refine ⟨(visits_eq_ok h).1, ?_⟩
    rintro x hx path hs ⟨info, hm⟩
    obtain ⟨hstays, y, hy, hk, -⟩ := (mem_infos_iff h _).mp (hall x hx path hs info hm)
    exact ⟨hstays, y, hy, hk⟩
  · rintro ⟨hu, hkept⟩
    obtain ⟨n, hn⟩ := visits_defined hu
    obtain ⟨data, h⟩ := hn n le_rfl {}
    refine ⟨n, data, h, fun x hx path hs info hm => ?_⟩
    obtain ⟨hstays, y, hy, hk⟩ := hkept x hx path hs ⟨info, hm⟩
    exact (mem_infos_iff h _).mpr ⟨hstays, y, hy, hk, hm⟩

/-! ### A host that cannot be reached -/

/-- A file with one message, and hosts that give no instance. -/
def unreachable : Indexer Unit where
  lib := .reference
  tree := fun path => if path = "a.grib".toList then .regular (some gridMessage) else .absent
  request := fun _ _ => .ok none
  dest := none
  outputFormat := .binary
  nameable := fun _ => true
  opens := fun _ => false
  opens_empty := rfl

/-- The file is read, and a host after it makes the function return without its message. -/
theorem host_loses_file :
    unreachable.execute 1 [.file "a.grib".toList, .host "h".toList 80] = .ok {} ∧
      ¬ unreachable.Indexed [.file "a.grib".toList, .host "h".toList 80] := by
  refine ⟨rfl, ?_⟩
  rintro ⟨fuel, data, h, hall⟩
  have hm : unreachable.MessageOf "a.grib".toList (infoAt gridMessage 0 (gridAt .reference gridMessage 0)) :=
    ⟨gridMessage, HGrib1.reader gridMessage 0, 0, rfl, by set_option maxRecDepth 4000 in decide, .first (by decide),
      by set_option maxRecDepth 4000 in with_unfolding_all decide⟩
  have hmem := hall _ List.mem_cons_self "a.grib".toList ⟨List.mem_cons_self, .inl rfl⟩ _ hm
  exact ((mem_infos_iff h _).mp hmem).1 _ (List.mem_cons_of_mem _ List.mem_cons_self) rfl

end Indexer

end Mashroom
