import Mashroom.Proc.Indexing
import Mashroom.Program.PathText

/-!
# Proc.IndexCommand — the index command, from its texts to the program's data

The command takes its paths from the texts of one option, puts those that are there into a set, and runs the index
process on the set.  The notifier of the option drops what `add_in_path` returns, so that a path that is not there is
passed over.  The set is hashed, and a host in it is told from another by its name only.  `handed_over_iff` says what is
handed to the program's data in terms of the texts, whatever the order in which the set is visited.
-/

namespace Mashroom

/-- The errors of `Index::add_in_path`. -/
inductive IndexPathError where
  | internalError
  | fileX1DontExists
  | x1IsNotFile
  | x1IsNotDirectory
  deriving DecidableEq

/-- Why the command does not run. -/
inductive IndexRefusal where
  | invalidArgument
  | toFewArguments
  deriving DecidableEq

/-- What the command comes to. -/
inductive IndexOutcome (β : Type) where
  | refused (err : IndexRefusal)
  | indexed (data : ProgramData β)

/-- The command, with what it is told by the system. -/
structure IndexCommand (β : Type) where
  texts : PathText.Env
  hash : StdHash
  /-- the order in which a hash set is visited -/
  visit : List PathStorage → List PathStorage
  visit_perm : ∀ s, (visit s).Perm s
  index : Indexer β

namespace IndexCommand

open Layout
open AddPath (SameEntry sameEntry_iff sameEntry_equivalence)

variable {β : Type}

/-! ## The code -/

section Code

variable (env : IndexCommand β)

/-- `Index::add_in_path` -/
def addInPath (inPath_ : List PathStorage) (a : PathStorage) :
    Except Fault (Option IndexPathError × List PathStorage) :=
  if a.path = [] then .ok (some .internalError, inPath_)
  else
    match a.type with
    | .file => do
      if !(← env.index.tree.exists? a.path) then return (some .fileX1DontExists, inPath_)
      else if !(← env.index.tree.isRegularFile a.path) then return (some .x1IsNotFile, inPath_)
      else return (none, KeepFirst.insert (SameEntry env.hash) inPath_ a)
    | .directory => do
      if !(← env.index.tree.exists? a.path) then return (some .fileX1DontExists, inPath_)
      else if !(← env.index.tree.isDirectory a.path) then return (some .x1IsNotDirectory, inPath_)
      else return (none, KeepFirst.insert (SameEntry env.hash) inPath_ a)
    | .host => .ok (none, KeepFirst.insert (SameEntry env.hash) inPath_ a)

/-- The notifier of `inp`.  It looks at `err_` after each path, and assigns nothing to it. -/
def notifyInp (failed : Bool) (inPath_ : List PathStorage) : List PathStorage → Except Fault (List PathStorage)
  | [] => .ok inPath_
  | a :: paths => do
    let (_, inPath_) ← env.addInPath inPath_ a
    if failed then return inPath_ else notifyInp failed inPath_ paths

/-- What `Index::execute` makes of an element of the set: it passes over a host without a port. -/
def visited (a : PathStorage) : Option InPath :=
  match a.type with
  | .directory => some (.directory a.path)
  | .file => some (.file a.path)
  | .host => a.add.port?.map (.host a.path)

/-- `parse` with the texts of `inp`, which is required.  The options are stored, and then notified and executed; `err_`
is what it was left as, which is no error.  They are notified once more after that. -/
def run (now : ℤ) (fuel : ℕ) (input : List (List Char)) : Except (Option Fault) (IndexOutcome β) :=
  match PathText.castAll env.texts now input with
  | .error .validationError => .ok (.refused .invalidArgument)
  | .error .nullString => .error (some .null)
  | .ok paths =>
    if paths = [] then .ok (.refused .toFewArguments)
    else do
      let inPath_ ← DoWhile.checked (env.notifyInp false [] paths)
      let data ← env.index.execute fuel ((env.visit inPath_).filterMap visited)
      let _ ← DoWhile.checked (env.notifyInp false inPath_ paths)
      return .indexed data

end Code

/-! ## The paths that are entered -/

section Entered

variable {env : IndexCommand β} {inPath_ inPath_' : List PathStorage} {a : PathStorage}

/-- A path is entered: it is of the kind that is at the path, or of a host. -/
def enters (env : IndexCommand β) (a : PathStorage) : Bool :=
  a.path ≠ [] &&
    match a.type with
    | .file => match env.index.tree a.path with
      | .regular _ => true
      | _ => false
    | .directory => match env.index.tree a.path with
      | .directory _ => true
      | _ => false
    | .host => true

theorem addInPath_eq {err : Option IndexPathError} (h : env.addInPath inPath_ a = .ok (err, inPath_')) :
    inPath_' = if env.enters a then KeepFirst.insert (SameEntry env.hash) inPath_ a else inPath_ := by
  unfold addInPath at h
  unfold enters
  by_cases hpath : a.path = []
  · rw [if_pos hpath] at h
    cases h
    rw [hpath]
    rfl
  · rw [if_neg hpath] at h
    cases htype : a.type with
    | host =>
      rw [htype] at h
      cases h
      simp [hpath]
    | file =>
      rw [htype] at h
      unfold FileTree.exists? FileTree.isRegularFile at h
      cases htree : env.index.tree a.path <;> rw [htree] at h <;> cases h <;> simp [hpath]
    | directory =>
      rw [htype] at h
      unfold FileTree.exists? FileTree.isDirectory at h
      cases htree : env.index.tree a.path <;> rw [htree] at h <;> cases h <;> simp [hpath]

/-- The set is that of the paths that are entered. -/
theorem notifyInp_eq : ∀ {paths : List PathStorage} {inPath_ : List PathStorage},
    env.notifyInp false inPath_ paths = .ok inPath_' →
      inPath_' = (paths.filter env.enters).foldl (KeepFirst.insert (SameEntry env.hash)) inPath_
  | [], _, h => by
    cases h
    rfl
  | a :: paths, inPath_, h => by
    unfold notifyInp at h
    obtain ⟨⟨err, next⟩, ha, h⟩ := bind_eq_ok.mp h
    rw [notifyInp_eq h, addInPath_eq ha, List.filter_cons]
    split <;> rfl

/-- A host of that name. -/
def isHostNamed (name : FsPath) : InPath → Bool
  | .host n _ => n = name
  | _ => false

/-- Two paths are the same for the set if they are equal, or hosts of one name. -/
theorem sameEntry_storage {hash : StdHash} {now : ℤ} (x y : InPath) :
    SameEntry hash (x.storage now) (y.storage now) ↔
      match x with
      | .host name _ => isHostNamed name y = true
      | x => y = x := by
  rw [sameEntry_iff, PathStorage.equalTo_iff]
  cases x <;> cases y <;>
    simp [InPath.storage, PathStorage.directory, PathStorage.file, PathStorage.host, isHostNamed, eq_comm]

theorem visited_storage {now : ℤ} (x : InPath) : visited (x.storage now) = some x := by
  cases x <;> rfl

theorem storage_injective {now : ℤ} : Function.Injective (InPath.storage now) := by
  intro x y h
  have hvisited := congrArg visited h
  rw [visited_storage, visited_storage] at hvisited
  exact Option.some.inj hvisited

section Set

variable {now : ℤ} {xs : List InPath}

/-- What the set holds, by the elements that it takes for the same. -/
theorem mem_set_iff (h : env.notifyInp false [] (xs.map (InPath.storage now)) = .ok inPath_) (x : InPath) :
    x.storage now ∈ inPath_ ↔ (xs.filter fun y => env.enters (y.storage now)).find? (fun y =>
      SameEntry env.hash (x.storage now) (y.storage now)) = some x := by
  have hset : inPath_ = KeepFirst.insertAll (SameEntry env.hash)
      ((xs.filter fun y => env.enters (y.storage now)).map (InPath.storage now)) := by
    rw [notifyInp_eq h, List.filter_map]
    rfl
  rw [hset, KeepFirst.mem_insertAll_iff sameEntry_equivalence, List.find?_map, Option.map_eq_some_iff]
  constructor
  · rintro ⟨y, hy, heq⟩
    obtain rfl := storage_injective heq
    exact hy
  · exact fun hx => ⟨x, hx, rfl⟩

/-- Only paths of the texts are held. -/
theorem storage_of_mem (h : env.notifyInp false [] (xs.map (InPath.storage now)) = .ok inPath_) (ha : a ∈ inPath_) :
    ∃ x ∈ xs, a = x.storage now := by
  rw [notifyInp_eq h] at ha
  have hmem := (KeepFirst.insertAll_oneForEach sameEntry_equivalence _).subset ha
  obtain ⟨x, hx, rfl⟩ := List.mem_map.mp (List.mem_of_mem_filter hmem)
  exact ⟨x, hx, rfl⟩

/-- The paths that are visited are those of the set. -/
theorem mem_visited_iff (h : env.notifyInp false [] (xs.map (InPath.storage now)) = .ok inPath_) (x : InPath) :
    x ∈ (env.visit inPath_).filterMap visited ↔ x.storage now ∈ inPath_ := by
  rw [List.mem_filterMap]
  constructor
  · rintro ⟨a, ha, hx⟩
    have ha := (env.visit_perm inPath_).mem_iff.mp ha
    obtain ⟨y, -, rfl⟩ := storage_of_mem h ha
    rw [visited_storage] at hx
    cases hx
    exact ha
  · exact fun hx => ⟨_, (env.visit_perm inPath_).mem_iff.mpr hx, visited_storage x⟩

/-- A directory or a file is visited where it is there. -/
theorem mem_set_place_iff (h : env.notifyInp false [] (xs.map (InPath.storage now)) = .ok inPath_) {x : InPath}
    (hx : x.isHost = false) : x.storage now ∈ inPath_ ↔ x ∈ xs ∧ env.enters (x.storage now) = true := by
  rw [mem_set_iff h]
  have hsame : ∀ y : InPath, SameEntry env.hash (x.storage now) (y.storage now) ↔ y = x := by
    intro y
    rw [sameEntry_storage]
    cases x with
    | directory _ => rfl
    | file _ => rfl
    | host _ _ => cases hx
  simp only [hsame]
  constructor
  · intro hfind
    exact List.mem_filter.mp (List.mem_of_find?_eq_some hfind)
  · intro hmem
    cases hfind : (xs.filter fun y => env.enters (y.storage now)).find? (fun y => y = x) with
    | none => exact absurd (decide_eq_true rfl) (List.find?_eq_none.mp hfind x (List.mem_filter.mpr hmem))
    | some y =>
      have hy : y = x := by simpa using List.find?_some hfind
      rw [hy]

/-- Of the hosts of one name the first is visited. -/
theorem mem_set_host_iff (h : env.notifyInp false [] (xs.map (InPath.storage now)) = .ok inPath_) {name : FsPath}
    {port : ℕ} (hname : name ≠ []) : InPath.storage now (.host name port) ∈ inPath_ ↔
      xs.find? (isHostNamed name) = some (.host name port) := by
  rw [mem_set_iff h, List.find?_filter]
  have hsame : (fun y : InPath => decide (env.enters (y.storage now) = true ∧
      decide (SameEntry env.hash (InPath.storage now (.host name port)) (y.storage now)) = true)) =
        isHostNamed name := by
    funext y
    have hentry : SameEntry env.hash (InPath.storage now (.host name port)) (y.storage now) ↔
        isHostNamed name y = true := sameEntry_storage (.host name port) y
    rw [Bool.eq_iff_iff, decide_eq_true_iff, decide_eq_true_iff, hentry, and_iff_right_iff_imp]
    intro hy
    cases y with
    | directory _ => cases hy
    | file _ => cases hy
    | host n p =>
      have hn : n = name := of_decide_eq_true hy
      simp [enters, InPath.storage, PathStorage.host, hn, hname]
  rw [hsame]

end Set

end Entered

/-! ## What is handed over -/

section HandedOver

variable {env : IndexCommand β} {inPath_ : List PathStorage} {now : ℤ} {xs : List InPath}

/-- A directory of the set is there when it is visited. -/
theorem not_leaves_of_enters {x : InPath} (hx : x.isHost = false) (h : env.enters (x.storage now) = true) :
    ¬ env.index.Leaves x := by
  cases x with
  | directory path =>
    intro hleaves
    have hdir : env.index.tree.isDirectory path = .ok false := hleaves
    unfold FileTree.isDirectory at hdir
    cases htree : env.index.tree path with
    | directory listing =>
      rw [htree] at hdir
      cases hdir
    | absent => simp [enters, InPath.storage, PathStorage.directory, htree] at h
    | unknown => simp [enters, InPath.storage, PathStorage.directory, htree] at h
    | regular _ => simp [enters, InPath.storage, PathStorage.directory, htree] at h
    | other => simp [enters, InPath.storage, PathStorage.directory, htree] at h
  | file _ => exact id
  | host _ _ => cases hx

/-- What keeps a message is there. -/
theorem enters_of_keeps {x : InPath} {path : FsPath} {info : GribMsgDataInfo} (hne : (x.storage now).path ≠ [])
    (hkeeps : env.index.Keeps x path) (hmessage : env.index.MessageOf path info) :
    x.isHost = false ∧ env.enters (x.storage now) = true := by
  cases x with
  | directory dir =>
    obtain ⟨-, before, after, hlisted, -⟩ := hkeeps
    have hdir : ∃ listing, env.index.tree dir = .directory listing := by
      unfold FileTree.listed at hlisted
      split at hlisted
      · exact ⟨_, ‹_›⟩
      · simp at hlisted
    obtain ⟨listing, htree⟩ := hdir
    have hpath : dir ≠ [] := hne
    exact ⟨rfl, by simp [enters, InPath.storage, PathStorage.directory, htree, hpath]⟩
  | file file =>
    obtain rfl : file = path := hkeeps
    obtain ⟨f, -, -, htree, -⟩ := hmessage
    have hpath : file ≠ [] := hne
    exact ⟨rfl, by simp [enters, InPath.storage, PathStorage.file, htree, hpath]⟩
  | host _ _ => exact absurd hkeeps not_false

/-- The visits end early only at a host that is the first of its name. -/
theorem stays_iff (h : env.notifyInp false [] (xs.map (InPath.storage now)) = .ok inPath_)
    (hne : ∀ x ∈ xs, (x.storage now).path ≠ []) :
    (∀ x ∈ (env.visit inPath_).filterMap visited, ¬ env.index.Leaves x) ↔
      ∀ name port, xs.find? (isHostNamed name) = some (.host name port) → env.index.request name port ≠ .ok none := by
  constructor
  · intro hstays name port hfind
    have hname : name ≠ [] := hne _ (List.mem_of_find?_eq_some hfind)
    exact hstays (.host name port) ((mem_visited_iff h _).mpr ((mem_set_host_iff h hname).mpr hfind))
  · intro hhosts x hx
    have hset := (mem_visited_iff h x).mp hx
    cases hhost : x.isHost with
    | false => exact not_leaves_of_enters hhost ((mem_set_place_iff h hhost).mp hset).2
    | true =>
      cases x with
      | directory _ => cases hhost
      | file _ => cases hhost
      | host name port =>
        obtain ⟨y, hy, heq⟩ := storage_of_mem h hset
        obtain rfl := storage_injective heq
        exact hhosts name port ((mem_set_host_iff h (hne _ hy)).mp hset)

/-- A message is kept by a path that is visited exactly where one of the texts keeps it. -/
theorem keeps_iff (h : env.notifyInp false [] (xs.map (InPath.storage now)) = .ok inPath_)
    (hne : ∀ x ∈ xs, (x.storage now).path ≠ []) (path : FsPath) (info : GribMsgDataInfo) :
    (∃ x ∈ (env.visit inPath_).filterMap visited, env.index.Keeps x path ∧ env.index.MessageOf path info) ↔
      (∃ x ∈ xs, env.index.Keeps x path) ∧ env.index.MessageOf path info := by
  constructor
  · rintro ⟨x, hx, hkeeps, hmessage⟩
    obtain ⟨y, hy, heq⟩ := storage_of_mem h ((mem_visited_iff h x).mp hx)
    obtain rfl := storage_injective heq
    exact ⟨⟨x, hy, hkeeps⟩, hmessage⟩
  · rintro ⟨⟨x, hx, hkeeps⟩, hmessage⟩
    obtain ⟨hhost, henters⟩ := enters_of_keeps (hne x hx) hkeeps hmessage
    exact ⟨x, (mem_visited_iff h x).mpr ((mem_set_place_iff h hhost).mpr ⟨hx, henters⟩), hkeeps, hmessage⟩

end HandedOver

/-- **What the index command hands over**: the messages of the files that the texts name or that lie in the directories
they name, unless a host that is the first of its name gives no instance.  So the order in which the set is visited
makes no difference, nor does a path that is not there.  The theorem is for any number of texts; the command line gives
the option one. -/
theorem handed_over_iff {env : IndexCommand β} (hdoc : env.texts.Documented) {now : ℤ} {fuel : ℕ}
    {input : List (List Char)} {data : ProgramData β} (h : env.run now fuel input = .ok (.indexed data)) :
    ∃ xs : List InPath,
      List.Forall₂ (fun s x => ∃ t : PathText, s = t.text ∧ t.asked env.texts = some x) input xs ∧
      ∀ path info, (path, info) ∈ data.infos ↔
        (∀ name port, xs.find? (isHostNamed name) = some (.host name port) → env.index.request name port ≠ .ok none) ∧
        (∃ x ∈ xs, env.index.Keeps x path) ∧ env.index.MessageOf path info := by
  unfold run at h
  split at h
  · cases h
  · cases h
  · rename_i paths hpaths
    split at h
    · cases h
    · obtain ⟨inPath_, hin, h⟩ := bind_eq_ok.mp h
      obtain ⟨data', hdata, h⟩ := bind_eq_ok.mp h
      obtain ⟨-, -, h⟩ := bind_eq_ok.mp h
      cases h
      obtain ⟨xs, rfl, hxs⟩ := PathText.castAll_eq_ok hdoc hpaths
      have hset : env.notifyInp false [] (xs.map (InPath.storage now)) = .ok inPath_ := DoWhile.checked_eq_ok.mp hin
      have hne : ∀ x ∈ xs, (x.storage now).path ≠ [] := by
        intro x hx
        obtain ⟨s, -, hcast⟩ := exists_of_mapM hpaths _ (List.mem_map_of_mem hx)
        exact PathText.path_ne_nil hdoc hcast
      refine ⟨xs, hxs, fun path info => ?_⟩
      rw [Indexer.mem_infos_iff hdata, stays_iff hset hne, keeps_iff hset hne]

/-- The process with one file, where no host gives an instance. -/
def reference : IndexCommand Unit where
  texts := .reference
  hash := ⟨fun _ => 0, fun _ => 0⟩
  visit := List.reverse
  visit_perm _ := List.reverse_perm _
  index := .unreachable

/-- A directory that is not there, and the file. -/
theorem run_reference : reference.run 0 1 ["dir=b".toList, "file=a.grib".toList] = .ok (.indexed
    { infos := [("a.grib".toList, infoAt gridMessage 0 (gridAt .reference gridMessage 0))] }) := rfl

theorem handed_over_file : ∃ xs : List InPath,
    List.Forall₂ (fun s x => ∃ t : PathText, s = t.text ∧ t.asked reference.texts = some x)
      ["dir=b".toList, "file=a.grib".toList] xs ∧
    ∀ path info,
      (path, info) ∈ [("a.grib".toList, infoAt gridMessage 0 (gridAt .reference gridMessage 0))] ↔
        (∀ name port, xs.find? (isHostNamed name) = some (.host name port) →
          reference.index.request name port ≠ .ok none) ∧
        (∃ x ∈ xs, reference.index.Keeps x path) ∧ reference.index.MessageOf path info :=
  handed_over_iff (fun _ _ _ => rfl) run_reference

end IndexCommand

end Mashroom
