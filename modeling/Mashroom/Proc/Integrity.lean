import Mathlib.Data.List.Count
import Mashroom.Proc.Reads
import Mashroom.Proc.Termination
import Mashroom.Sys.FileTree

/-!
# Proc.Integrity — what the integrity process records of the paths it is given

The loop over the paths switches on their kind without a `break`, and keeps its entries from one path to the next.  So
an entry is gone through again at every later directory, which goes through all of them twice, and at every later file.
`recordedOnce_iff` says for which paths and files each message is recorded once all the same.
-/

namespace Mashroom

open Layout DoWhile

/-- The process, and what it is told by the system. -/
structure Integrity where
  lib : OsterLib
  tree : FileTree
  /-- `Mashroom::instance().request`, whose result is not looked at -/
  request : FsPath → ℕ → Except Fault Unit
  props : SearchProperties

/-- What is recorded: the files that are refused, and what is passed to `add_info`, in this order. -/
structure IntegrityData where
  fileErrors : List (FsPath × Code) := []
  infos : List (FsPath × GribMsgDataInfo) := []

/-- What the loop over the paths keeps. -/
structure IntegrityState where
  entries : List FsPath := []
  data : IntegrityData := {}

namespace Integrity

variable (env : Integrity)

/-! ## The process -/

/-- The body of the loop over the entries in `__process_core__`. -/
def processEntry (fuel : ℕ) (data : IntegrityData) (entry : FsPath) : Except (Option Fault) IntegrityData := do
  let regular ← checked (env.tree.isRegularFile entry)
  if regular = true ∧ IsGrib entry then
    let (err, grib) ← checked (HGrib1.openGrib (env.tree.content entry))
    if err ≠ .noneErr then return { data with fileErrors := data.fileErrors ++ [(entry, err)] }
    else
      let (_, infos) ← fueled
        (coreLoop env.lib env.props (fun infos info => infos ++ [(entry, info)]) fuel grib data.infos)
      return { data with infos }
  else return data

/-- `__process_core__` -/
def processCore (fuel : ℕ) (data : IntegrityData) (entries : List FsPath) : Except (Option Fault) IntegrityData :=
  entries.foldlM (env.processEntry fuel) data

/-- One path of the loop in `execute`.  An exception ends the program, since `execute` is `noexcept`. -/
def visit (fuel : ℕ) (s : IntegrityState) : InPath → Except (Option Fault) IntegrityState
  | .directory path => do
    let inside ← checked (env.tree.entries path)
    let data ← env.processCore fuel s.data (s.entries ++ inside)
    -- no `break`: the case of a file comes next, and then that of a host, which does nothing without a port
    let entries := s.entries ++ inside ++ [path]
    let data ← env.processCore fuel data entries
    return { entries, data }
  | .file path => do
    let entries := s.entries ++ [path]
    let data ← env.processCore fuel s.data entries
    return { entries, data }
  | .host name port => do
    checked (env.request name port)
    return s

/-- `execute`, as far as messages are recorded, with the paths in the order in which they are visited. -/
def execute (fuel : ℕ) (paths : List InPath) : Except (Option Fault) IntegrityData :=
  IntegrityState.data <$> paths.foldlM (env.visit fuel) {}

/-! ## What is asked of it -/

/-- A message of a regular file that passes the filters, as it is recorded. -/
def Matches (path : FsPath) (info : GribMsgDataInfo) : Prop :=
  ∃ f p read, env.tree path = .regular (some f) ∧ Visited f p ∧ readInfo env.lib f p = .ok read ∧
    info = { read with err := some .noneErr } ∧ ¬ coreSkips env.props info

/-- The process returns, and has recorded each message that passes the filters once. -/
def RecordedOnce (paths : List InPath) : Prop :=
  ∃ fuel data, env.execute fuel paths = .ok data ∧ ∀ x ∈ paths, ∀ path ∈ x.files env.tree, IsGrib path →
    ∀ info, env.Matches path info → data.infos.count (path, info) = 1

/-! ## When it does so -/

/-- Nothing ends the program: directories can be listed, hosts are asked without an exception, files can be asked for
their kind, and those that are opened are refused or read. -/
structure Undisturbed (paths : List InPath) : Prop where
  directories : ∀ path, .directory path ∈ paths → Defined (env.tree.entries path)
  hosts : ∀ name port, .host name port ∈ paths → env.request name port = .ok ()
  kinds : ∀ x ∈ paths, ∀ path ∈ x.files env.tree, env.tree path ≠ .unknown
  files : ∀ x ∈ paths, ∀ path ∈ x.files env.tree, IsGrib path → ∀ octets, env.tree path = .regular octets →
    FileEnds env.lib octets

/-- The file can be opened and is not refused. -/
def Accepted (path : FsPath) : Prop := ∃ h, HGrib1.openGrib (env.tree.content path) = .ok (.noneErr, h)

/-- The file is given as a file and not by a path before that, and only hosts come after it. -/
def VisitedLast (tree : FileTree) (paths : List InPath) (path : FsPath) : Prop :=
  ∃ before after, paths = before ++ .file path :: after ∧ (∀ x ∈ before, path ∉ x.files tree) ∧
    ∀ x ∈ after, x.isHost = true

/-! ## How often an entry is gone through -/

/-- The entries that are gone through, with some there already. -/
def processed (tree : FileTree) : List FsPath → List InPath → List FsPath
  | _, [] => []
  | entries, .directory path :: paths =>
    entries ++ tree.inside path ++ (entries ++ tree.inside path ++ [path]) ++
      processed tree (entries ++ tree.inside path ++ [path]) paths
  | entries, .file path :: paths => entries ++ [path] ++ processed tree (entries ++ [path]) paths
  | entries, .host _ _ :: paths => processed tree entries paths

/-- Those that the visit of one path goes through. -/
def turn (tree : FileTree) (entries : List FsPath) : InPath → List FsPath
  | .directory path => entries ++ tree.inside path ++ (entries ++ tree.inside path ++ [path])
  | .file path => entries ++ [path]
  | .host _ _ => []

/-- Those that are there after it. -/
def grown (tree : FileTree) (entries : List FsPath) : InPath → List FsPath
  | .directory path => entries ++ tree.inside path ++ [path]
  | .file path => entries ++ [path]
  | .host _ _ => entries

/-- How often the entries that are there are gone through. -/
def passes : List InPath → ℕ
  | [] => 0
  | .directory _ :: paths => 2 + passes paths
  | .file _ :: paths => 1 + passes paths
  | .host _ _ :: paths => passes paths

section Processed

variable {tree : FileTree} {path : FsPath}

theorem passes_eq_zero : ∀ {paths : List InPath}, passes paths = 0 ↔ ∀ x ∈ paths, x.isHost = true
  | [] => by simp [passes]
  | .directory _ :: paths => by simp [passes, InPath.isHost]
  | .file _ :: paths => by simp [passes, InPath.isHost]
  | .host _ _ :: paths => by simp [passes, InPath.isHost, passes_eq_zero]

/-- An entry that is there is gone through in every pass. -/
theorem count_processed : ∀ (paths : List InPath) (entries : List FsPath),
    (processed tree entries paths).count path =
      entries.count path * passes paths + (processed tree [] paths).count path
  | [], _ => by simp [processed, passes]
  | .directory d :: paths, entries => by
    have h1 := count_processed paths (entries ++ tree.inside d ++ [d])
    have h2 := count_processed paths ([] ++ tree.inside d ++ [d])
    simp only [processed, List.count_append, passes, List.count_nil] at h1 h2 ⊢
    rw [h1, h2]
    ring
  | .file q :: paths, entries => by
    have h1 := count_processed paths (entries ++ [q])
    have h2 := count_processed paths ([] ++ [q])
    simp only [processed, List.count_append, passes, List.count_nil] at h1 h2 ⊢
    rw [h1, h2]
    ring
  | .host _ _ :: paths, entries => by
    rw [processed, processed, passes, count_processed paths entries]

/-- Before a path that does not give the file nothing changes. -/
theorem visitedLast_cons {x : InPath} {paths : List InPath} (hx : x ≠ .file path) :
    VisitedLast tree (x :: paths) path ↔ path ∉ x.files tree ∧ VisitedLast tree paths path := by
  constructor
  · rintro ⟨before, after, heq, hbefore, hafter⟩
    cases before with
    | nil =>
      cases heq
      exact absurd rfl hx
    | cons y before =>
      obtain ⟨rfl, rfl⟩ := List.cons.inj heq
      exact ⟨hbefore _ List.mem_cons_self, before, after, rfl,
        fun y hy => hbefore y (List.mem_cons_of_mem _ hy), hafter⟩
  · rintro ⟨hnot, before, after, rfl, hbefore, hafter⟩
    exact ⟨x :: before, after, rfl, List.forall_mem_cons.mpr ⟨hnot, hbefore⟩, hafter⟩

theorem visitedLast_file {paths : List InPath} :
    VisitedLast tree (.file path :: paths) path ↔ ∀ x ∈ paths, x.isHost = true := by
  constructor
  · rintro ⟨before, after, heq, hbefore, hafter⟩
    cases before with
    | nil =>
      cases heq
      exact hafter
    | cons y before =>
      obtain ⟨rfl, -⟩ := List.cons.inj heq
      exact absurd List.mem_cons_self (hbefore _ List.mem_cons_self)
  · exact fun h => ⟨[], paths, rfl, by simp, h⟩

theorem processed_hosts : ∀ {paths : List InPath}, (∀ x ∈ paths, x.isHost = true) → processed tree [] paths = []
  | [], _ => rfl
  | .host _ _ :: paths, h => by
    rw [processed, processed_hosts fun x hx => h x (List.mem_cons_of_mem _ hx)]
  | .directory _ :: _, h => absurd (h _ List.mem_cons_self) (by simp [InPath.isHost])
  | .file _ :: _, h => absurd (h _ List.mem_cons_self) (by simp [InPath.isHost])

/-- **A file is gone through once** exactly when it is the last one visited, and is visited once. -/
theorem count_processed_eq_one : ∀ {paths : List InPath}, (∀ d, .directory d ∈ paths → d ≠ path) →
    ((processed tree [] paths).count path = 1 ↔ VisitedLast tree paths path)
  | [], _ => by
    simp only [processed, List.count_nil, zero_ne_one, false_iff]
    rintro ⟨before, after, heq, -⟩
    cases before <;> cases heq
  | .directory d :: paths, hd => by
    have ih : (processed tree [] paths).count path = 1 ↔ VisitedLast tree paths path :=
      count_processed_eq_one fun e he => hd e (List.mem_cons_of_mem _ he)
    have hne : d ≠ path := hd d List.mem_cons_self
    rw [visitedLast_cons (by simp), ← ih, processed, List.nil_append, List.count_append, List.count_append,
      List.count_append, count_processed, List.count_append, List.count_singleton, if_neg (by simpa using hne)]
    show _ ↔ path ∉ tree.inside d ∧ _
    rw [← List.count_eq_zero]
    constructor
    · intro h
      have h0 : (tree.inside d).count path = 0 := by omega
      rw [h0] at h ⊢
      simpa using h
    · rintro ⟨h0, h1⟩
      rw [h0, h1]
      simp
  | .file q :: paths, hd => by
    have ih : (processed tree [] paths).count path = 1 ↔ VisitedLast tree paths path :=
      count_processed_eq_one fun e he => hd e (List.mem_cons_of_mem _ he)
    by_cases hq : q = path
    · subst hq
      rw [visitedLast_file, processed, List.nil_append, List.count_append, count_processed, List.count_singleton_self,
        ← passes_eq_zero]
      constructor
      · intro h
        omega
      · intro h
        rw [processed_hosts (passes_eq_zero.mp h), h]
        rfl
    · rw [visitedLast_cons (by simpa using hq), ← ih, processed, List.nil_append, List.count_append, count_processed,
        List.count_singleton, if_neg (by simpa using hq)]
      have hnot : path ∉ (InPath.file q).files tree := by simpa [InPath.files] using Ne.symm hq
      simp [hnot]
  | .host n p :: paths, hd => by
    have ih : (processed tree [] paths).count path = 1 ↔ VisitedLast tree paths path :=
      count_processed_eq_one fun e he => hd e (List.mem_cons_of_mem _ he)
    rw [visitedLast_cons (by simp), ← ih, processed]
    simp [InPath.files]

theorem processed_cons (x : InPath) (paths : List InPath) (entries : List FsPath) :
    processed tree entries (x :: paths) = turn tree entries x ++ processed tree (grown tree entries x) paths := by
  cases x <;> rfl

/-- What a visit goes through or leaves was there, or the path stands for it, or is a directory itself. -/
theorem forall_turn {P : FsPath → Prop} {x : InPath} {entries : List FsPath} (he : ∀ e ∈ entries, P e)
    (hf : ∀ e ∈ x.files tree, P e) (hd : ∀ d, x = .directory d → P d) :
    (∀ e ∈ turn tree entries x, P e) ∧ ∀ e ∈ grown tree entries x, P e := by
  cases x with
  | directory d =>
    have hinside : ∀ e ∈ tree.inside d, P e := hf
    have hself : P d := hd d rfl
    simp only [turn, grown, List.forall_mem_append, List.forall_mem_singleton]
    exact ⟨⟨⟨he, hinside⟩, ⟨he, hinside⟩, hself⟩, ⟨he, hinside⟩, hself⟩
  | file q =>
    have hself : P q := hf q (List.mem_singleton_self q)
    simp only [turn, grown, List.forall_mem_append, List.forall_mem_singleton]
    exact ⟨⟨he, hself⟩, he, hself⟩
  | host n p => exact ⟨fun e h => absurd h List.not_mem_nil, he⟩

theorem forall_processed {P : FsPath → Prop} : ∀ {paths : List InPath} {entries : List FsPath},
    (∀ e ∈ entries, P e) → (∀ x ∈ paths, ∀ e ∈ x.files tree, P e) → (∀ d, .directory d ∈ paths → P d) →
    ∀ e ∈ processed tree entries paths, P e
  | [], _, _, _, _ => by simp [processed]
  | x :: paths, entries, he, hf, hd => by
    obtain ⟨hturn, hgrown⟩ := forall_turn he (hf _ List.mem_cons_self) fun d hx => hd d (hx ▸ List.mem_cons_self)
    rw [processed_cons, List.forall_mem_append]
    exact ⟨hturn, forall_processed hgrown (fun y hy => hf y (List.mem_cons_of_mem _ hy))
      fun d hmem => hd d (List.mem_cons_of_mem _ hmem)⟩

/-- Whatever a path stands for is gone through. -/
theorem mem_turn {x : InPath} (he : path ∈ x.files tree) (entries : List FsPath) : path ∈ turn tree entries x := by
  cases x with
  | directory d =>
    have hinside : path ∈ tree.inside d := he
    simp [turn, hinside]
  | file q =>
    have hself : path = q := List.mem_singleton.mp he
    simp [turn, hself]
  | host n p => exact absurd he List.not_mem_nil

theorem mem_processed {x : InPath} (he : path ∈ x.files tree) : ∀ {paths : List InPath} {entries : List FsPath},
    x ∈ paths → path ∈ processed tree entries paths
  | y :: paths, entries, hx => by
    rw [processed_cons]
    rcases List.mem_cons.mp hx with rfl | hx
    · exact List.mem_append_left _ (mem_turn he entries)
    · exact List.mem_append_right _ (mem_processed he hx)

end Processed

/-! ## One entry -/

/-- What is recorded of a file whose messages are read. -/
def recorded (path : FsPath) (reads : List GribMsgDataInfo) : List (FsPath × GribMsgDataInfo) :=
  ((reads.map fun read => { read with err := some .noneErr }).filter fun info => ¬ coreSkips env.props info).map
    (path, ·)

/-- An entry is passed over, refused, or read to its end, and this is recorded. -/
inductive Yields (path : FsPath) : List (FsPath × GribMsgDataInfo) → Prop where
  | skipped : env.tree path ≠ .unknown → ¬ ((∃ octets, env.tree path = .regular octets) ∧ IsGrib path) → Yields path []
  | refused {octets : Option File} {err : Code} {h : HGrib1} : env.tree path = .regular octets → IsGrib path →
      HGrib1.openGrib octets = .ok (err, h) → err ≠ .noneErr → Yields path []
  | read {f : File} {h : HGrib1} {reads : List GribMsgDataInfo} : env.tree path = .regular (some f) → IsGrib path →
      HGrib1.openGrib (some f) = .ok (.noneErr, h) → FileReads env.lib f reads → Yields path (env.recorded path reads)

section Yields

variable {env} {path : FsPath}

/-- The loop over a file adds what is recorded of it. -/
theorem foldl_coreUpd (reads : List GribMsgDataInfo) (infos : List (FsPath × GribMsgDataInfo)) :
    reads.foldl (coreUpd env.props fun infos info => infos ++ [(path, info)]) infos =
      infos ++ env.recorded path reads := by
  induction reads generalizing infos with
  | nil => simp [recorded]
  | cons read reads ih =>
    rw [List.foldl_cons, ih]
    simp only [recorded, coreUpd, List.map_cons, List.filter_cons, decide_not, Bool.not_eq_true',
      decide_eq_false_iff_not]
    by_cases hs : coreSkips env.props { read with err := some .noneErr }
    · rw [if_pos hs, if_neg (by simpa using hs)]
    · rw [if_neg hs, if_pos (by simpa using hs), List.map_cons, List.append_assoc]
      rfl

/-- What a pass over an entry that has a result recorded. -/
theorem processEntry_eq_ok {fuel : ℕ} {data data' : IntegrityData} (h : env.processEntry fuel data path = .ok data') :
    ∃ rs, env.Yields path rs ∧ data'.infos = data.infos ++ rs := by
  obtain ⟨regular, hreg, h⟩ := bind_eq_ok.mp h
  obtain ⟨hknown, hreg⟩ := FileTree.isRegularFile_eq_ok.mp (checked_eq_ok.mp hreg)
  split at h
  · rename_i hgrib
    obtain ⟨octets, htree⟩ := hreg.mp hgrib.1
    obtain ⟨⟨err, grib⟩, hopen, h⟩ := bind_eq_ok.mp h
    rw [checked_eq_ok, FileTree.content_regular htree] at hopen
    dsimp only at h
    split at h
    · rename_i herr
      cases h
      exact ⟨[], .refused htree hgrib.2 hopen herr, by simp⟩
    · rename_i herr
      obtain rfl := not_not.mp herr
      obtain ⟨⟨h', infos⟩, hloop, h⟩ := bind_eq_ok.mp h
      cases h
      cases octets with
      | none => cases hopen
      | some f =>
        obtain ⟨reads, hreads, heq⟩ := reads_of_coreLoop hopen hloop
        dsimp only at heq
        rw [heq]
        exact ⟨_, .read htree hgrib.2 hopen hreads, foldl_coreUpd _ _⟩
  · rename_i hnot
    cases h
    exact ⟨[], .skipped hknown fun hg => hnot ⟨hreg.mpr hg.1, hg.2⟩, by simp⟩

/-- With enough fuel a pass has a result. -/
theorem Yields.processEntry {rs : List (FsPath × GribMsgDataInfo)} (h : env.Yields path rs) :
    ∃ n, ∀ fuel, n ≤ fuel → ∀ data, ∃ data', env.processEntry fuel data path = .ok data' := by
  cases h with
  | skipped hknown hnot =>
    refine ⟨0, fun fuel _ data => ⟨data, ?_⟩⟩
    obtain ⟨b, hb⟩ := FileTree.isRegularFile_defined hknown
    have hb' := (FileTree.isRegularFile_eq_ok.mp hb).2
    rw [Integrity.processEntry, hb, checked_ok, ok_bind, if_neg fun hg => hnot ⟨hb'.mp hg.1, hg.2⟩]
    rfl
  | @refused octets err h htree hgrib hopen herr =>
    refine ⟨0, fun fuel _ data => ⟨{ data with fileErrors := data.fileErrors ++ [(path, err)] }, ?_⟩⟩
    have hb : env.tree.isRegularFile path = .ok true := by rw [FileTree.isRegularFile, htree]
    rw [Integrity.processEntry, hb, checked_ok, ok_bind, if_pos ⟨rfl, hgrib⟩, FileTree.content_regular htree, hopen,
      checked_ok, ok_bind]
    exact if_pos herr
  | @read f h reads htree hgrib hopen hreads =>
    obtain ⟨n, hn⟩ := coreLoop_of_reads hopen hreads env.props fun infos info => infos ++ [(path, info)]
    refine ⟨n, fun fuel hfuel data => ?_⟩
    have hb : env.tree.isRegularFile path = .ok true := by rw [FileTree.isRegularFile, htree]
    obtain ⟨⟨h', infos⟩, hr⟩ := hn fuel hfuel data.infos
    refine ⟨{ data with infos }, ?_⟩
    rw [Integrity.processEntry, hb, checked_ok, ok_bind, if_pos ⟨rfl, hgrib⟩, FileTree.content_regular htree, hopen,
      checked_ok, ok_bind]
    dsimp only
    rw [if_neg (not_not.mpr rfl), hr]
    rfl

/-- An entry can be gone through when it can be asked for its kind, and is refused or read if it is a file. -/
theorem exists_yields_iff : (∃ rs, env.Yields path rs) ↔ env.tree path ≠ .unknown ∧
    (IsGrib path → ∀ octets, env.tree path = .regular octets → FileEnds env.lib octets) := by
  constructor
  · rintro ⟨rs, h⟩
    cases h with
    | skipped hknown hnot => exact ⟨hknown, fun hg octets htree => absurd ⟨⟨octets, htree⟩, hg⟩ hnot⟩
    | refused htree hgrib hopen herr =>
      refine ⟨by rw [htree]; exact nofun, fun _ octets htree' => ?_⟩
      rw [htree] at htree'
      cases htree'
      exact ⟨_, _, hopen, fun h => absurd h herr⟩
    | @read f h reads htree hgrib hopen hreads =>
      refine ⟨by rw [htree]; exact nofun, fun _ octets htree' => ?_⟩
      rw [htree] at htree'
      cases htree'
      obtain ⟨ps, hwalk⟩ := exists_reads_iff.mp ⟨reads, hreads⟩
      exact ⟨_, _, hopen, fun _ => ⟨f, ps, rfl, hwalk⟩⟩
  · rintro ⟨hknown, hends⟩
    by_cases hg : (∃ octets, env.tree path = .regular octets) ∧ IsGrib path
    · obtain ⟨⟨octets, htree⟩, hgrib⟩ := hg
      obtain ⟨err, h, hopen, hends⟩ := hends hgrib octets htree
      by_cases herr : err = .noneErr
      · obtain ⟨f, ps, rfl, hwalk⟩ := hends herr
        obtain ⟨reads, hreads⟩ := exists_reads_iff.mpr ⟨ps, hwalk⟩
        rw [herr] at hopen
        exact ⟨_, .read htree hgrib hopen hreads⟩
      · exact ⟨_, .refused htree hgrib hopen herr⟩
    · exact ⟨_, .skipped hknown hg⟩

/-- A pass over another entry records nothing of this one. -/
theorem Yields.count_of_ne {e : FsPath} {rs : List (FsPath × GribMsgDataInfo)} (h : env.Yields e rs) (hne : e ≠ path)
    (info : GribMsgDataInfo) : rs.count (path, info) = 0 := by
  rw [List.count_eq_zero]
  intro hmem
  cases h with
  | skipped _ _ => cases hmem
  | refused _ _ _ _ => cases hmem
  | read _ _ _ _ =>
    obtain ⟨i, -, heq⟩ := List.mem_map.mp hmem
    exact hne (Prod.mk.inj heq).1

/-- A pass over an entry records a message that passes the filters once, if it is not refused. -/
theorem Yields.count {rs : List (FsPath × GribMsgDataInfo)} {info : GribMsgDataInfo} (h : env.Yields path rs)
    (hgrib : IsGrib path) (hm : env.Matches path info) :
    env.Accepted path ∧ rs.count (path, info) = 1 ∨ ¬ env.Accepted path ∧ rs.count (path, info) = 0 := by
  obtain ⟨f, p, read, htree, hp, hread, rfl, hskip⟩ := hm
  cases h with
  | skipped _ hnot => exact absurd ⟨⟨_, htree⟩, hgrib⟩ hnot
  | refused htree' _ hopen herr =>
    rw [htree] at htree'
    cases htree'
    refine .inr ⟨?_, rfl⟩
    rintro ⟨h', hopen'⟩
    rw [FileTree.content_regular htree, hopen] at hopen'
    cases hopen'
    exact herr rfl
  | @read f' h reads htree' _ hopen hreads =>
    rw [htree] at htree'
    cases htree'
    refine .inl ⟨⟨h, by rw [FileTree.content_regular htree]; exact hopen⟩, ?_⟩
    have hnodup : (reads.map fun read => ({ read with err := some .noneErr } : GribMsgDataInfo)).Nodup := by
      refine List.Nodup.of_map GribMsgDataInfo.bufPos ?_
      rw [List.map_map]
      exact hreads.nodup_bufPos
    have hmem : read ∈ reads := hreads.mem_iff.mpr ⟨p, hp, hread⟩
    rw [recorded, List.count_map_of_injective _ _ (fun a b hab => (Prod.mk.inj hab).2)]
    refine List.count_eq_one_of_mem (hnodup.filter _) (List.mem_filter.mpr ⟨List.mem_map_of_mem hmem, ?_⟩)
    simpa using hskip

end Yields

/-! ## All paths -/

section Run

variable {env}

/-- What a pass over some entries that has a result recorded. -/
theorem processCore_eq_ok {fuel : ℕ} : ∀ {entries : List FsPath} {data data' : IntegrityData},
    env.processCore fuel data entries = .ok data' →
    ∃ rss, List.Forall₂ env.Yields entries rss ∧ data'.infos = data.infos ++ rss.flatten
  | [], _, _, h => by
    cases h
    exact ⟨[], .nil, by simp⟩
  | e :: entries, data, data', h => by
    rw [processCore, List.foldlM_cons] at h
    obtain ⟨data₁, h1, h2⟩ := bind_eq_ok.mp h
    obtain ⟨rs, hrs, heq⟩ := processEntry_eq_ok h1
    obtain ⟨rss, hrss, heq'⟩ := processCore_eq_ok h2
    exact ⟨rs :: rss, .cons hrs hrss, by rw [heq', heq, List.flatten_cons, List.append_assoc]⟩

/-- The directory can be listed, or the host is asked without an exception. -/
def Visitable (env : Integrity) : InPath → Prop
  | .directory path => Defined (env.tree.entries path)
  | .file _ => True
  | .host name port => env.request name port = .ok ()

/-- What a visit of a path that has a result did. -/
theorem visit_eq_ok {fuel : ℕ} {x : InPath} {s s' : IntegrityState} (h : env.visit fuel s x = .ok s') :
    env.Visitable x ∧ s'.entries = grown env.tree s.entries x ∧
      ∃ rss, List.Forall₂ env.Yields (turn env.tree s.entries x) rss ∧
        s'.data.infos = s.data.infos ++ rss.flatten := by
  cases x with
  | directory d =>
    obtain ⟨inside, hinside, h⟩ := bind_eq_ok.mp h
    obtain ⟨data₁, hcore, h⟩ := bind_eq_ok.mp h
    obtain ⟨data₂, hcore', h⟩ := bind_eq_ok.mp h
    cases h
    rw [checked_eq_ok] at hinside
    obtain rfl := FileTree.inside_of_entries hinside
    obtain ⟨rss₁, hrss₁, heq₁⟩ := processCore_eq_ok hcore
    obtain ⟨rss₂, hrss₂, heq₂⟩ := processCore_eq_ok hcore'
    refine ⟨⟨_, hinside⟩, rfl, rss₁ ++ rss₂, List.rel_append hrss₁ hrss₂, ?_⟩
    rw [heq₂, heq₁, List.flatten_append, List.append_assoc]
  | file q =>
    obtain ⟨data₁, hcore, h⟩ := bind_eq_ok.mp h
    cases h
    obtain ⟨rss, hrss, heq⟩ := processCore_eq_ok hcore
    exact ⟨trivial, rfl, rss, hrss, heq⟩
  | host name port =>
    obtain ⟨u, hreq, h⟩ := bind_eq_ok.mp h
    cases h
    exact ⟨checked_eq_ok.mp hreq, rfl, [], .nil, by simp⟩

/-- What a run over some paths that has a result did. -/
theorem visits_eq_ok {fuel : ℕ} : ∀ {paths : List InPath} {s s' : IntegrityState},
    paths.foldlM (env.visit fuel) s = .ok s' → (∀ x ∈ paths, env.Visitable x) ∧
      ∃ rss, List.Forall₂ env.Yields (processed env.tree s.entries paths) rss ∧
        s'.data.infos = s.data.infos ++ rss.flatten
  | [], _, _, h => by
    cases h
    exact ⟨by simp, [], .nil, by simp⟩
  | x :: paths, s, s', h => by
    rw [List.foldlM_cons] at h
    obtain ⟨s₁, h1, h2⟩ := bind_eq_ok.mp h
    obtain ⟨hx, hentries, rss₁, hrss₁, heq₁⟩ := visit_eq_ok h1
    obtain ⟨hpaths, rss₂, hrss₂, heq₂⟩ := visits_eq_ok h2
    rw [hentries] at hrss₂
    refine ⟨List.forall_mem_cons.mpr ⟨hx, hpaths⟩, rss₁ ++ rss₂, ?_, ?_⟩
    · rw [processed_cons]
      exact List.rel_append hrss₁ hrss₂
    · rw [heq₂, heq₁, List.flatten_append, List.append_assoc]

/-- A message that passes the filters is recorded once for each time its file is gone through, if it is not refused. -/
theorem count_flatten {path : FsPath} {info : GribMsgDataInfo} (hgrib : IsGrib path) (hm : env.Matches path info)
    {entries : List FsPath} {rss : List (List (FsPath × GribMsgDataInfo))} (h : List.Forall₂ env.Yields entries rss) :
    (env.Accepted path → rss.flatten.count (path, info) = entries.count path) ∧
      (¬ env.Accepted path → rss.flatten.count (path, info) = 0) := by
  induction h with
  | nil => simp
  | @cons e rs entries rss he _ ih =>
    rw [List.flatten_cons, List.count_append, List.count_cons]
    by_cases hne : e = path
    · subst hne
      rcases he.count hgrib hm with ⟨ha, h1⟩ | ⟨ha, h0⟩
      · refine ⟨fun ha => ?_, fun hna => absurd ha hna⟩
        rw [h1, ih.1 ha, beq_self_eq_true, if_pos rfl, Nat.add_comm]
      · refine ⟨fun ha' => absurd ha' ha, fun _ => ?_⟩
        rw [h0, ih.2 ha]
    · rw [he.count_of_ne hne, Nat.zero_add, if_neg (by simpa using hne), Nat.add_zero]
      exact ih

/-- With enough fuel a pass over entries that can be gone through has a result. -/
theorem exists_fuel : ∀ {entries : List FsPath}, (∀ e ∈ entries, ∃ rs, env.Yields e rs) →
    ∃ fuel, ∀ e ∈ entries, ∀ data, ∃ data', env.processEntry fuel data e = .ok data' := by
  intro entries h
  have hmono : ∃ n, ∀ fuel, n ≤ fuel → ∀ e ∈ entries, ∀ data, ∃ data', env.processEntry fuel data e = .ok data' := by
    induction entries with
    | nil => exact ⟨0, by simp⟩
    | cons e entries ih =>
      obtain ⟨rs, hrs⟩ := h e List.mem_cons_self
      obtain ⟨n, hn⟩ := hrs.processEntry
      obtain ⟨m, hm⟩ := ih fun e he => h e (List.mem_cons_of_mem _ he)
      refine ⟨max n m, fun fuel hfuel => List.forall_mem_cons.mpr ⟨hn fuel (by omega), hm fuel (by omega)⟩⟩
  obtain ⟨n, hn⟩ := hmono
  exact ⟨n, hn n le_rfl⟩

theorem processCore_defined {fuel : ℕ} : ∀ {entries : List FsPath},
    (∀ e ∈ entries, ∀ data, ∃ data', env.processEntry fuel data e = .ok data') →
    ∀ data, ∃ data', env.processCore fuel data entries = .ok data'
  | [], _, data => ⟨data, rfl⟩
  | e :: entries, h, data => by
    obtain ⟨data₁, h1⟩ := h e List.mem_cons_self data
    obtain ⟨data₂, h2⟩ := processCore_defined (fun e he => h e (List.mem_cons_of_mem _ he)) data₁
    refine ⟨data₂, ?_⟩
    rw [processCore, List.foldlM_cons, h1, ok_bind]
    exact h2

/-- A visit of a path whose entries can be gone through has a result. -/
theorem visit_defined {fuel : ℕ} {x : InPath} {s : IntegrityState} (hx : env.Visitable x)
    (h : ∀ e ∈ turn env.tree s.entries x, ∀ data, ∃ data', env.processEntry fuel data e = .ok data') :
    ∃ s', env.visit fuel s x = .ok s' := by
  cases x with
  | directory d =>
    obtain ⟨inside, hinside⟩ := hx
    obtain rfl := FileTree.inside_of_entries hinside
    rw [turn, List.forall_mem_append] at h
    obtain ⟨data₁, h1⟩ := processCore_defined h.1 s.data
    obtain ⟨data₂, h2⟩ := processCore_defined h.2 data₁
    refine ⟨⟨s.entries ++ env.tree.inside d ++ [d], data₂⟩, ?_⟩
    simp only [visit, hinside, checked_ok, ok_bind, h1, h2, pure_eq_ok]
  | file q =>
    rw [turn] at h
    obtain ⟨data₁, h1⟩ := processCore_defined h s.data
    refine ⟨⟨s.entries ++ [q], data₁⟩, ?_⟩
    simp only [visit, h1, ok_bind, pure_eq_ok]
  | host name port =>
    have hreq : env.request name port = .ok () := hx
    exact ⟨s, by simp only [visit, hreq, checked_ok, ok_bind, pure_eq_ok]⟩

/-- A run over paths whose entries can be gone through has a result. -/
theorem visits_defined {fuel : ℕ} : ∀ {paths : List InPath} {s : IntegrityState}, (∀ x ∈ paths, env.Visitable x) →
    (∀ e ∈ processed env.tree s.entries paths, ∀ data, ∃ data', env.processEntry fuel data e = .ok data') →
    ∃ s', paths.foldlM (env.visit fuel) s = .ok s'
  | [], s, _, _ => ⟨s, rfl⟩
  | x :: paths, s, hpaths, h => by
    rw [processed_cons, List.forall_mem_append] at h
    obtain ⟨s₁, h1⟩ := visit_defined (hpaths _ List.mem_cons_self) h.1
    obtain ⟨-, hentries, -⟩ := visit_eq_ok h1
    rw [← hentries] at h
    obtain ⟨s', hs'⟩ := visits_defined (fun y hy => hpaths y (List.mem_cons_of_mem _ hy)) h.2
    exact ⟨s', by rw [List.foldlM_cons, h1, ok_bind, hs']⟩

theorem execute_eq_ok {fuel : ℕ} {paths : List InPath} {data : IntegrityData} (h : env.execute fuel paths = .ok data) :
    ∃ s, paths.foldlM (env.visit fuel) {} = .ok s ∧ s.data = data := by
  unfold execute at h
  cases hs : paths.foldlM (env.visit fuel) {} with
  | error e =>
    rw [hs] at h
    cases h
  | ok s =>
    rw [hs] at h
    exact ⟨s, rfl, Except.ok.inj h⟩

/-- The process returns exactly when nothing ends the program. -/
theorem returns_iff {paths : List InPath} :
    (∃ fuel data, env.execute fuel paths = .ok data) ↔ env.Undisturbed paths := by
  constructor
  · rintro ⟨fuel, data, h⟩
    obtain ⟨s, hs, -⟩ := execute_eq_ok h
    obtain ⟨hpaths, rss, hrss, -⟩ := visits_eq_ok hs
    have hy : ∀ x ∈ paths, ∀ path ∈ x.files env.tree, ∃ rs, env.Yields path rs := by
      intro x hx path hpath
      have hmem : path ∈ processed env.tree [] paths := mem_processed hpath hx
      obtain ⟨i, hi, rfl⟩ := List.getElem_of_mem hmem
      exact ⟨_, List.Forall₂.get hrss hi (hrss.length_eq ▸ hi)⟩
    exact ⟨fun d hd => hpaths _ hd, fun name port hh => hpaths _ hh,
      fun x hx path hp => (exists_yields_iff.mp (hy x hx path hp)).1,
      fun x hx path hp => (exists_yields_iff.mp (hy x hx path hp)).2⟩
  · rintro ⟨hd, hh, hk, hf⟩
    have hpaths : ∀ x ∈ paths, env.Visitable x
      | .directory d, hx => hd d hx
      | .file _, _ => trivial
      | .host name port, hx => hh name port hx
    have hy : ∀ e ∈ processed env.tree [] paths, ∃ rs, env.Yields e rs := by
      refine forall_processed (by simp) (fun x hx e he => exists_yields_iff.mpr ⟨hk x hx e he, hf x hx e he⟩) ?_
      intro d hmem
      obtain ⟨listing, htree⟩ := FileTree.directory_of_entries (hd d hmem)
      refine ⟨[], .skipped (by rw [htree]; exact nofun) ?_⟩
      rintro ⟨⟨octets, ho⟩, -⟩
      rw [htree] at ho
      cases ho
    obtain ⟨fuel, hfuel⟩ := exists_fuel hy
    obtain ⟨s, hs⟩ := visits_defined (s := {}) hpaths hfuel
    exact ⟨fuel, s.data, by rw [execute, hs]; rfl⟩

/-- A message that passes the filters is then recorded once exactly when its file is not refused, and visited once. -/
theorem count_eq_one_iff {fuel : ℕ} {paths : List InPath} {data : IntegrityData} (h : env.execute fuel paths = .ok data)
    {path : FsPath} {info : GribMsgDataInfo} (hgrib : IsGrib path) (hm : env.Matches path info) :
    data.infos.count (path, info) = 1 ↔ env.Accepted path ∧ VisitedLast env.tree paths path := by
  obtain ⟨s, hs, rfl⟩ := execute_eq_ok h
  obtain ⟨hpaths, rss, hrss, heq⟩ := visits_eq_ok hs
  obtain ⟨hacc, hrej⟩ := count_flatten hgrib hm hrss
  have hne : ∀ d, .directory d ∈ paths → d ≠ path := by
    rintro d hmem rfl
    obtain ⟨listing, hd⟩ := FileTree.directory_of_entries (hpaths _ hmem)
    obtain ⟨f, p, read, htree, -⟩ := hm
    rw [hd] at htree
    cases htree
  rw [heq, List.nil_append, ← count_processed_eq_one hne]
  by_cases ha : env.Accepted path
  · rw [hacc ha]
    exact ⟨fun h1 => ⟨ha, h1⟩, And.right⟩
  · rw [hrej ha]
    exact ⟨fun h1 => absurd h1 (by decide), fun h1 => absurd h1.1 ha⟩

end Run

/-- **Each message that passes the filters is recorded once** exactly when nothing ends the program, and every file with
such a message is accepted, visited once, and followed by hosts only. -/
theorem recordedOnce_iff (paths : List InPath) : env.RecordedOnce paths ↔
    env.Undisturbed paths ∧ ∀ x ∈ paths, ∀ path ∈ x.files env.tree, IsGrib path →
      (∃ info, env.Matches path info) → env.Accepted path ∧ VisitedLast env.tree paths path := by
  constructor
  · rintro ⟨fuel, data, h, honce⟩
    refine ⟨returns_iff.mp ⟨fuel, data, h⟩, ?_⟩
    rintro x hx path hpath hgrib ⟨info, hm⟩
    exact (count_eq_one_iff h hgrib hm).mp (honce x hx path hpath hgrib info hm)
  · rintro ⟨hu, hlast⟩
    obtain ⟨fuel, data, h⟩ := returns_iff.mpr hu
    refine ⟨fuel, data, h, fun x hx path hpath hgrib info hm => ?_⟩
    exact (count_eq_one_iff h hgrib hm).mpr (hlast x hx path hpath hgrib ⟨info, hm⟩)

/-! ### A directory with one file -/

/-- The file `a.grib` in the directory `d` holds one message. -/
def archive : FileTree := fun path =>
  if path = "d".toList then .directory { names := ["a.grib".toList] }
  else if path = "d/a.grib".toList then .regular (some gridMessage)
  else .absent

/-- The process without filters. -/
def unfiltered : Integrity where
  lib := .reference
  tree := archive
  request := fun _ _ => .ok ()
  props := {
    parameters := [], fromDate := -2 ^ 63, toDate := 2 ^ 63, position := none, gridType := none, center := none
    fcstUnit := none, level := none }

/-- The one message is recorded twice: the case of a directory goes on into that of a file. -/
theorem directory_recorded_twice :
    (∃ data, unfiltered.execute 1 [.directory "d".toList] = .ok data ∧
      data.infos.map Prod.fst = ["d/a.grib".toList, "d/a.grib".toList]) ∧
    ¬ unfiltered.RecordedOnce [.directory "d".toList] := by
  refine ⟨⟨_, rfl, by decide⟩, ?_⟩
  rintro ⟨fuel, data, h, honce⟩
  have hm : unfiltered.Matches "d/a.grib".toList
      { infoAt gridMessage 0 (gridAt .reference gridMessage 0) with err := some .noneErr } :=
    ⟨gridMessage, 0, infoAt gridMessage 0 (gridAt .reference gridMessage 0), rfl, .first (by decide),
      by with_unfolding_all decide, rfl, by decide⟩
  have h1 := honce _ List.mem_cons_self "d/a.grib".toList (by decide) (by decide) _ hm
  obtain ⟨-, before, after, heq, -⟩ := (count_eq_one_iff h (by decide) hm).mp h1
  have hmem : InPath.file "d/a.grib".toList ∈ [InPath.directory "d".toList] := heq ▸ by simp
  exact absurd hmem (by decide)

end Integrity

end Mashroom
