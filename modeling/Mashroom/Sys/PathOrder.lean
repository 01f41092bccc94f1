import Mathlib.Order.Defs.Unbundled
import Mashroom.Lib.KeepFirst
import Mashroom.Data.DataStruct
import Mashroom.Sys.FileTree

/-!
# Sys.PathOrder — how paths are compared, and the sets of them

A `path::Storage` is a path with its kind and what that kind has besides: the time of the last check, and for a host its
port.  It is compared in several ways.  `operator==` looks at all of it, `operator!=` and `std::equal_to` at the path
and the kind only, and `std::less` at one of its arguments only.  So a set that is ordered by `std::less` holds at most
one element (`less_equivalence`), and `in_path_`, which is hashed, one host for each name (`paths_coherent`).
-/

namespace Mashroom

/-- `path::Additional_t`: what a path has besides. -/
inductive PathAdditional where
  | none
  | host (lastCheck : ℤ) (port : ℕ)
  | directory (lastCheck : ℤ)
  | file (lastCheck : ℤ)
  deriving DecidableEq

namespace PathAdditional

/-- `index` of the variant. -/
def index : PathAdditional → ℕ
  | none => 0
  | host .. => 1
  | directory _ => 2
  | file _ => 3

/-- The port of a host. -/
def port? : PathAdditional → Option ℕ
  | host _ port => some port
  | _ => Option.none

/-- The same with another time of the last check. -/
def checkedAt (t : ℤ) : PathAdditional → PathAdditional
  | none => none
  | host _ port => host t port
  | directory _ => directory t
  | file _ => file t

end PathAdditional

/-- `path::Storage<VIEW>`, which owns the characters of the path or views them. -/
structure PathStorage where
  view : Bool
  path : FsPath
  type : PathType
  add : PathAdditional
  deriving DecidableEq

/-- `size_t(type)` -/
def PathType.number : PathType → UInt64
  | .directory => 0
  | .file => 1
  | .host => 2

/-- What `std::hash` gives for the characters of a string, the same as for a view of them, and for a `size_t`. -/
structure StdHash where
  string : FsPath → UInt64
  size : UInt64 → UInt64

namespace PathStorage

/-! ## The code -/

section Code

variable (hash : StdHash) (a b : PathStorage)

/-- `operator==`.  That it compares the addresses first makes no difference (`eq_self`). -/
def eq : Bool := if a.path = b.path ∧ a.type = b.type ∧ a.add.index = b.add.index then a.add = b.add else false

/-- `operator!=`, with the addresses again. -/
def ne : Bool := a.path ≠ b.path ∨ a.type ≠ b.type

/-- `std::hash` -/
def hashOf : UInt64 := hash.string a.path ^^^ hash.size a.type.number

/-- `std::equal_to`, and the `operator==` outside of the class. -/
def equalTo : Bool := a.path = b.path ∧ a.type = b.type

/-- `std::less`: the hash of the left path is compared with itself. -/
def less (a _b : PathStorage) : Bool := a.hashOf hash < a.hashOf hash

/-- `Storage<false>::file(path,last_check)` -/
def file (path : FsPath) (lastCheck : ℤ) : PathStorage := ⟨false, path, .file, .file lastCheck⟩

/-- `Storage<false>::directory(path,last_check)` -/
def directory (path : FsPath) (lastCheck : ℤ) : PathStorage := ⟨false, path, .directory, .directory lastCheck⟩

/-- `Storage<false>::host(host,port,last_check)` -/
def host (name : FsPath) (port : ℕ) (lastCheck : ℤ) : PathStorage := ⟨false, name, .host, .host lastCheck port⟩

end Code

variable {hash : StdHash} {a b c : PathStorage}

theorem eq_iff : a.eq b = true ↔ a.path = b.path ∧ a.type = b.type ∧ a.add = b.add := by
  unfold eq
  constructor
  · intro h
    split at h
    · rename_i hparts
      exact ⟨hparts.1, hparts.2.1, of_decide_eq_true h⟩
    · cases h
  · rintro ⟨hpath, htype, hadd⟩
    rw [if_pos ⟨hpath, htype, congrArg _ hadd⟩]
    exact decide_eq_true hadd

theorem ne_iff : a.ne b = true ↔ a.path ≠ b.path ∨ a.type ≠ b.type := decide_eq_true_iff

theorem equalTo_iff : a.equalTo b = true ↔ a.path = b.path ∧ a.type = b.type := decide_eq_true_iff

/-- A path is equal to itself, and not unequal. -/
theorem eq_self : a.eq a = true ∧ a.ne a = false := by
  refine ⟨eq_iff.mpr ⟨rfl, rfl, rfl⟩, Bool.eq_false_iff.mpr ?_⟩
  rw [Ne, ne_iff]
  simp

theorem equalTo_equivalence : Equivalence fun a b : PathStorage => a.equalTo b = true where
  refl _ := equalTo_iff.mpr ⟨rfl, rfl⟩
  symm h := by
    obtain ⟨hpath, htype⟩ := equalTo_iff.mp h
    exact equalTo_iff.mpr ⟨hpath.symm, htype.symm⟩
  trans h h' := by
    obtain ⟨hpath, htype⟩ := equalTo_iff.mp h
    obtain ⟨hpath', htype'⟩ := equalTo_iff.mp h'
    exact equalTo_iff.mpr ⟨hpath.trans hpath', htype.trans htype'⟩

/-- The hash depends on what `std::equal_to` compares. -/
theorem hashOf_of_equalTo (h : a.equalTo b = true) : a.hashOf hash = b.hashOf hash := by
  obtain ⟨hpath, htype⟩ := equalTo_iff.mp h
  rw [hashOf, hashOf, hpath, htype]

/-! ## Ordered sets -/

/-- Neither of two paths is less than the other, so that a set takes them for the same. -/
def Unordered (hash : StdHash) (a b : PathStorage) : Prop := less hash a b = false ∧ less hash b a = false

instance : DecidableRel (Unordered hash) := fun _ _ => inferInstanceAs (Decidable (_ ∧ _))

/-- No path is less than another. -/
theorem not_less : less hash a b = false := decide_eq_false (UInt64.lt_irrefl _)

theorem unordered : Unordered hash a b := ⟨not_less, not_less⟩

theorem less_strictWeak : IsStrictWeakOrder PathStorage fun a b => less hash a b = true where
  irrefl _ := by
    rw [not_less]
    exact Bool.false_ne_true
  trans _ _ _ h := by
    rw [not_less] at h
    cases h
  incomp_trans _ _ _ _ _ := by
    rw [not_less, not_less]
    exact ⟨Bool.false_ne_true, Bool.false_ne_true⟩

/-- **One entry**: `std::less` orders nothing.  So two paths are equivalent as `std::equal_to` says where they are
equal, and a set keeps one entry for each path where all its paths are equal. -/
theorem less_equivalence (hash : StdHash) :
    IsStrictWeakOrder PathStorage (fun a b => less hash a b = true) ∧
    (∀ a b, (Unordered hash a b ↔ a.equalTo b = true) ↔ a.equalTo b = true) ∧
    ∀ xs, KeepFirst.OneForEach (fun a b => a.equalTo b = true) xs (KeepFirst.insertAll (Unordered hash) xs) ↔
      ∀ a ∈ xs, ∀ b ∈ xs, a.equalTo b = true := by
  refine ⟨less_strictWeak, ?_, ?_⟩
  · intro a b
    exact ⟨fun h => h.mp unordered, fun h => iff_of_true unordered h⟩
  · intro xs
    have hs : Equivalence (Unordered hash) := ⟨fun _ => unordered, fun _ => unordered, fun _ _ => unordered⟩
    rw [KeepFirst.keeps_iff hs equalTo_equivalence fun _ _ _ => unordered]
    exact ⟨fun h a ha b hb => h a ha b hb unordered, fun h a ha b hb _ => h a ha b hb⟩

/-- Of two files a set keeps the first. -/
theorem less_merges : (file ['a'] 0).equalTo (file ['b'] 0) = false ∧ ∀ hash,
    Unordered hash (file ['a'] 0) (file ['b'] 0) ∧
    KeepFirst.insertAll (Unordered hash) [file ['a'] 0, file ['b'] 0] = [file ['a'] 0] :=
  ⟨by decide, fun _ => ⟨unordered, KeepFirst.insertAll_pair unordered⟩⟩

/-! ## The comparisons with each other -/

/-- What a path names: its kind, the path, and the port of a host. -/
def named (a : PathStorage) : PathType × FsPath × Option ℕ := (a.type, a.path, a.add.port?)

/-- The same path with another time of the last check. -/
def checkedAt (t : ℤ) (a : PathStorage) : PathStorage := { a with add := a.add.checkedAt t }

/-- What the comparisons of two paths are to have to do with each other. -/
structure Coherent (hash : StdHash) (a b : PathStorage) : Prop where
  hash : a.eq b = true → a.hashOf hash = b.hashOf hash
  ne : a.ne b = true ↔ ¬ a.eq b = true
  equalTo : ∀ t, a.equalTo b = true ↔ (a.checkedAt t).eq (b.checkedAt t) = true
  named : a.named ≠ b.named → ¬ a.eq b = true

theorem hashOf_of_eq (h : a.eq b = true) : a.hashOf hash = b.hashOf hash := by
  obtain ⟨hpath, htype, -⟩ := eq_iff.mp h
  exact hashOf_of_equalTo (equalTo_iff.mpr ⟨hpath, htype⟩)

theorem named_of_eq (h : a.eq b = true) : a.named = b.named := by
  obtain ⟨hpath, htype, hadd⟩ := eq_iff.mp h
  rw [named, named, hpath, htype, hadd]

/-- **Two paths**: the comparisons agree unless the paths differ in what they have besides, and in nothing else. -/
theorem coherent_iff : Coherent hash a b ↔ (a.path = b.path → a.type = b.type → a.add = b.add) := by
  constructor
  · intro h hpath htype
    have hne : ¬ a.ne b = true := by
      rw [ne_iff]
      exact fun hor => hor.elim (fun h => h hpath) fun h => h htype
    exact (eq_iff.mp (not_not.mp (mt h.ne.mpr hne))).2.2
  · intro h
    refine ⟨hashOf_of_eq, ?_, ?_, fun hne heq => hne (named_of_eq heq)⟩
    · rw [ne_iff, eq_iff, ← not_and_or]
      exact not_congr ⟨fun ⟨hpath, htype⟩ => ⟨hpath, htype, h hpath htype⟩, fun heq => ⟨heq.1, heq.2.1⟩⟩
    · intro t
      rw [equalTo_iff, eq_iff]
      exact ⟨fun ⟨hpath, htype⟩ => ⟨hpath, htype, congrArg (PathAdditional.checkedAt t) (h hpath htype)⟩,
        fun heq => ⟨heq.1, heq.2.1⟩⟩

end PathStorage

/-! ## The paths of a search process -/

/-- The errors of `add_in_path` and `add_search_host`. -/
inductive AddPathError where
  | fileX1DontExists
  | x1IsNotRegularFileOrDirectory
  | invalidHostX1
  deriving DecidableEq

/-- A call of one of the two, at the time `now`. -/
inductive AddPath where
  /-- `add_in_path`, with what there is at the paths -/
  | inPath (path : FsPath) (tree : FileTree) (now : ℤ)
  /-- `add_search_host`, and whether `gethostbyname` knows the host -/
  | searchHost (host : FsPath) (port : ℕ) (known : Bool) (now : ℤ)

namespace InPath

/-- What a path of a process names. -/
def named : InPath → PathType × FsPath × Option ℕ
  | directory path => (.directory, path, none)
  | file path => (.file, path, none)
  | host name port => (.host, name, some port)

/-- What stands for it, made at the time `now`. -/
def storage (now : ℤ) : InPath → PathStorage
  | directory path => .directory path now
  | file path => .file path now
  | host name port => .host name port now

theorem named_storage (now : ℤ) (x : InPath) : (x.storage now).named = x.named := by
  cases x <;> rfl

end InPath

namespace AddPath

section Code

variable (hash : StdHash)

/-- Two paths are the same for `in_path_`: they have one hash, and are equal. -/
def SameEntry (a b : PathStorage) : Prop := a.hashOf hash = b.hashOf hash ∧ a.equalTo b = true

instance : DecidableRel (SameEntry hash) := fun _ _ => inferInstanceAs (Decidable (_ ∧ _))

/-- A call: the error, and `in_path_`. -/
def call (inPath_ : List PathStorage) : AddPath → Except Fault (Option AddPathError × List PathStorage)
  | inPath path tree now => do
    if !(← tree.exists? path) then return (some .fileX1DontExists, inPath_)
    else if ← tree.isRegularFile path then
      return (none, KeepFirst.insert (SameEntry hash) inPath_ (.file path now))
    else if ← tree.isDirectory path then
      return (none, KeepFirst.insert (SameEntry hash) inPath_ (.directory path now))
    else return (some .x1IsNotRegularFileOrDirectory, inPath_)
  | searchHost host port known now =>
    if !known then return (some .invalidHostX1, inPath_)
    else return (none, KeepFirst.insert (SameEntry hash) inPath_ (.host host port now))

/-- Calls, one after the other. -/
def calls (cs : List AddPath) : Except Fault (List PathStorage) :=
  cs.foldlM (fun inPath_ c => do let (_, inPath_) ← call hash inPath_ c; return inPath_) []

end Code

/-- What a call asks for, where it gives no error. -/
def accepted : AddPath → Option InPath
  | inPath path tree _ => match tree path with
    | .regular _ => some (.file path)
    | .directory _ => some (.directory path)
    | _ => none
  | searchHost host port known _ => if known then some (.host host port) else none

/-- The time of a call. -/
def now : AddPath → ℤ
  | inPath _ _ now => now
  | searchHost _ _ _ now => now

/-- What is inserted for it. -/
def inserted (c : AddPath) : Option PathStorage := c.accepted.map (InPath.storage c.now)

/-- Nothing that was asked for is missing. -/
def KeepsAll (cs : List AddPath) (inPath_ : List PathStorage) : Prop :=
  ∀ x ∈ cs.filterMap accepted, ∃ a ∈ inPath_, a.named = x.named

variable {hash : StdHash} {cs : List AddPath} {inPath_ inPath_' : List PathStorage}

/-- A call inserts what it asks for. -/
theorem call_eq {c : AddPath} {err : Option AddPathError} (h : call hash inPath_ c = .ok (err, inPath_')) :
    inPath_' = c.inserted.elim inPath_ (KeepFirst.insert (SameEntry hash) inPath_) := by
  cases c with
  | inPath path tree now =>
    unfold call FileTree.exists? FileTree.isRegularFile FileTree.isDirectory at h
    cases htree : tree path with
    | unknown =>
      simp only [htree] at h
      cases h
    | absent =>
      obtain ⟨-, rfl⟩ : _ ∧ inPath_ = inPath_' := by simpa [htree] using h
      simp [inserted, accepted, htree]
    | regular _ =>
      obtain ⟨-, rfl⟩ : _ ∧ KeepFirst.insert (SameEntry hash) inPath_ (.file path now) = inPath_' := by
        simpa [htree] using h
      simp [inserted, accepted, htree, InPath.storage, AddPath.now]
    | directory _ =>
      obtain ⟨-, rfl⟩ : _ ∧ KeepFirst.insert (SameEntry hash) inPath_ (.directory path now) = inPath_' := by
        simpa [htree] using h
      simp [inserted, accepted, htree, InPath.storage, AddPath.now]
    | other =>
      obtain ⟨-, rfl⟩ : _ ∧ inPath_ = inPath_' := by simpa [htree] using h
      simp [inserted, accepted, htree]
  | searchHost host port known now =>
    cases known with
    | false =>
      cases h
      rfl
    | true =>
      cases h
      rfl

theorem foldlM_call (h : cs.foldlM (fun inPath_ c => do let (_, inPath_) ← call hash inPath_ c; return inPath_)
    inPath_ = .ok inPath_') : inPath_' = (cs.filterMap inserted).foldl (KeepFirst.insert (SameEntry hash)) inPath_ := by
  induction cs generalizing inPath_ with
  | nil =>
    cases h
    rfl
  | cons c cs ih =>
    rw [List.foldlM_cons] at h
    obtain ⟨next, hc, h⟩ := bind_eq_ok.mp h
    obtain ⟨⟨err, inPath_'⟩, hc, hnext⟩ := bind_eq_ok.mp hc
    cases hnext
    rw [ih h, call_eq hc, List.filterMap_cons]
    cases c.inserted with
    | none => rfl
    | some a => rfl

/-- The calls make the set of what they ask for. -/
theorem calls_eq (h : calls hash cs = .ok inPath_) :
    inPath_ = KeepFirst.insertAll (SameEntry hash) (cs.filterMap inserted) := foldlM_call h

/-- The entries of the set are told apart as `std::equal_to` says. -/
theorem sameEntry_iff {a b : PathStorage} : SameEntry hash a b ↔ a.equalTo b = true :=
  ⟨fun h => h.2, fun h => ⟨PathStorage.hashOf_of_equalTo h, h⟩⟩

theorem sameEntry_equivalence : Equivalence (SameEntry hash) := by
  have heq : SameEntry hash = fun a b => a.equalTo b = true := funext₂ fun _ _ => propext sameEntry_iff
  rw [heq]
  exact PathStorage.equalTo_equivalence

theorem mem_inserted {a : PathStorage} :
    a ∈ cs.filterMap inserted ↔ ∃ c ∈ cs, ∃ x, c.accepted = some x ∧ x.storage c.now = a := by
  simp only [List.mem_filterMap, inserted, Option.map_eq_some_iff]

/-- What was asked for is missing where the set has nothing of that name. -/
theorem keepsAll_iff : KeepsAll cs inPath_ ↔
    ∀ a ∈ cs.filterMap inserted, ∃ b ∈ inPath_, a.named = b.named := by
  constructor
  · intro h a ha
    obtain ⟨c, hc, x, hx, rfl⟩ := mem_inserted.mp ha
    obtain ⟨b, hb, hname⟩ := h x (List.mem_filterMap.mpr ⟨c, hc, hx⟩)
    exact ⟨b, hb, (InPath.named_storage _ x).trans hname.symm⟩
  · intro h x hx
    obtain ⟨c, hc, hx⟩ := List.mem_filterMap.mp hx
    obtain ⟨b, hb, hname⟩ := h _ (mem_inserted.mpr ⟨c, hc, x, hx, rfl⟩)
    exact ⟨b, hb, hname.symm.trans (InPath.named_storage _ x)⟩

/-- Paths that the set takes for the same are named the same, unless they are hosts with different ports. -/
theorem named_of_same (hports : ∀ name port port', .host name port ∈ cs.filterMap accepted →
      .host name port' ∈ cs.filterMap accepted → port = port') {a b : PathStorage}
    (ha : a ∈ cs.filterMap inserted) (hb : b ∈ cs.filterMap inserted) (h : SameEntry hash a b) :
    a.named = b.named := by
  obtain ⟨c, hc, x, hx, rfl⟩ := mem_inserted.mp ha
  obtain ⟨d, hd, y, hy, rfl⟩ := mem_inserted.mp hb
  have hx' := List.mem_filterMap.mpr ⟨c, hc, hx⟩
  have hy' := List.mem_filterMap.mpr ⟨d, hd, hy⟩
  obtain ⟨hpath, htype⟩ := PathStorage.equalTo_iff.mp h.2
  rw [InPath.named_storage, InPath.named_storage]
  cases x with
  | directory path =>
    cases y with
    | directory path' => exact congrArg (fun p => (PathType.directory, p, none)) hpath
    | file _ => cases htype
    | host _ _ => cases htype
  | file path =>
    cases y with
    | directory _ => cases htype
    | file path' => exact congrArg (fun p => (PathType.file, p, none)) hpath
    | host _ _ => cases htype
  | host name port =>
    cases y with
    | directory _ => cases htype
    | file _ => cases htype
    | host name' port' =>
      obtain rfl : name = name' := hpath
      rw [hports name port port' hx' hy']

/-- The set of a search process keeps all that was asked for exactly where no host was asked for with two ports. -/
theorem calls_keepsAll_iff (h : calls hash cs = .ok inPath_) : KeepsAll cs inPath_ ↔
    ∀ name port port', .host name port ∈ cs.filterMap accepted → .host name port' ∈ cs.filterMap accepted →
      port = port' := by
  have hnamed : Equivalence fun a b : PathStorage => a.named = b.named :=
    ⟨fun _ => rfl, fun h => h.symm, fun h h' => h.trans h'⟩
  have hle : ∀ ⦃a b : PathStorage⦄, a.named = b.named → SameEntry hash a b := by
    intro a b hname
    obtain ⟨htype, hrest⟩ := Prod.mk.inj hname
    exact sameEntry_iff.mpr (PathStorage.equalTo_iff.mpr ⟨(Prod.mk.inj hrest).1, htype⟩)
  rw [keepsAll_iff, calls_eq h, KeepFirst.exists_mem_iff sameEntry_equivalence hnamed hle]
  constructor
  · intro hkeeps name port port' hp hp'
    obtain ⟨c, hc, hx⟩ := List.mem_filterMap.mp hp
    obtain ⟨d, hd, hy⟩ := List.mem_filterMap.mp hp'
    have hsame : SameEntry hash (.host name port c.now) (.host name port' d.now) :=
      sameEntry_iff.mpr (PathStorage.equalTo_iff.mpr ⟨rfl, rfl⟩)
    have hname := hkeeps _ (mem_inserted.mpr ⟨c, hc, _, hx, rfl⟩) _ (mem_inserted.mpr ⟨d, hd, _, hy, rfl⟩) hsame
    exact Option.some.inj (congrArg (fun n => n.2.2) hname)
  · intro hports a ha b hb hsame
    exact named_of_same hports ha hb hsame

end AddPath

/-- **Paths are told apart** in all the ways that compare two of them, unless these differ in what they have besides,
and in nothing else.  So a search process keeps all the paths it is given, unless one host is among them with two
ports. -/
theorem paths_coherent (hash : StdHash) :
    (∀ a b, PathStorage.Coherent hash a b ↔ (a.path = b.path → a.type = b.type → a.add = b.add)) ∧
    ∀ cs inPath_, AddPath.calls hash cs = .ok inPath_ → (AddPath.KeepsAll cs inPath_ ↔
      ∀ name port port', .host name port ∈ cs.filterMap AddPath.accepted →
        .host name port' ∈ cs.filterMap AddPath.accepted → port = port') :=
  ⟨fun _ _ => PathStorage.coherent_iff, fun _ _ => AddPath.calls_keepsAll_iff⟩

/-- Calls that ask for one host at two ports. -/
def AddPath.twoPorts : List AddPath :=
  [.searchHost ['h'] 80 true 0, .searchHost ['h'] 81 true 0]

/-- The two hosts are unequal for `operator==`, and equal for `operator!=`, and the second is missing. -/
theorem paths_incoherent : (PathStorage.host ['h'] 80 0).eq (.host ['h'] 81 0) = false ∧
    (PathStorage.host ['h'] 80 0).ne (.host ['h'] 81 0) = false ∧
    (∀ hash, ¬ PathStorage.Coherent hash (.host ['h'] 80 0) (.host ['h'] 81 0)) ∧
    ∀ hash, ∃ inPath_, AddPath.calls hash AddPath.twoPorts = .ok inPath_ ∧
      ¬ AddPath.KeepsAll AddPath.twoPorts inPath_ := by
  refine ⟨by decide, by decide, ?_, ?_⟩
  · intro hash h
    cases PathStorage.coherent_iff.mp h rfl rfl
  · intro hash
    obtain ⟨inPath_, h⟩ : ∃ inPath_, AddPath.calls hash AddPath.twoPorts = .ok inPath_ := ⟨_, rfl⟩
    refine ⟨inPath_, h, ?_⟩
    rw [AddPath.calls_keepsAll_iff h]
    intro hports
    exact absurd (hports ['h'] 80 81 (by simp [AddPath.twoPorts, AddPath.accepted])
      (by simp [AddPath.twoPorts, AddPath.accepted])) (by decide)

end Mashroom
