import Mashroom.Mapped
import Mashroom.Program.Tokens

/-!
# Sys.FileTree — what is at a path, and the paths that a process is given

A file tree says what each path is, and does not change while a process runs.  What the process asks of it is a query
that may throw.  An `InPath` is what `add_in_path` and `add_search_host` make: a path with its kind, and what that kind
has besides.
-/

namespace Mashroom

/-- The names in a directory, in the order in which they are listed. -/
structure Listing where
  names : List FsPath
  /-- after how many of them going on throws -/
  stops : Option ℕ := none

inductive Node where
  /-- nothing -/
  | absent
  /-- asking what it is throws -/
  | unknown
  /-- a regular file, with its octets if it can be opened -/
  | regular (octets : Option File)
  | directory (listing : Listing)
  | other

abbrev FileTree := FsPath → Node

/-- `path::Storage` as a process gets it: a host has a port. -/
inductive InPath where
  | directory (path : FsPath)
  | file (path : FsPath)
  | host (name : FsPath) (port : ℕ)
  deriving DecidableEq

/-- The extensions of the files that are looked for in a directory. -/
def IsGrib (path : FsPath) : Prop := path.extension = ".grib".toList ∨ path.extension = ".grb".toList

instance (path : FsPath) : Decidable (IsGrib path) := inferInstanceAs (Decidable (_ ∨ _))

/-- The paths of the entries of a directory. -/
def Listing.paths (listing : Listing) (dir : FsPath) : List FsPath := listing.names.map dir.append

/-- The paths that are listed before going on throws, or all. -/
def Listing.listed (listing : Listing) (dir : FsPath) : List FsPath :=
  match listing.stops with
  | some n => (listing.paths dir).take n
  | none => listing.paths dir

namespace FileTree

variable (tree : FileTree) (path : FsPath)

/-! ## Queries -/

/-- `fs::exists` -/
def exists? : Except Fault Bool :=
  match tree path with
  | .unknown => .error .exception
  | .absent => .ok false
  | _ => .ok true

/-- `is_regular_file` -/
def isRegularFile : Except Fault Bool :=
  match tree path with
  | .unknown => .error .exception
  | .regular _ => .ok true
  | _ => .ok false

/-- `fs::is_directory` -/
def isDirectory : Except Fault Bool :=
  match tree path with
  | .unknown => .error .exception
  | .directory _ => .ok true
  | _ => .ok false

/-- The octets of a file that can be opened. -/
def content : Option File :=
  match tree path with
  | .regular octets => octets
  | _ => none

/-- What lies directly in a directory. -/
def inside : List FsPath :=
  match tree path with
  | .directory listing => listing.paths path
  | _ => []

/-- What `directory_iterator` lists before it throws or ends. -/
def listed : List FsPath :=
  match tree path with
  | .directory listing => listing.listed path
  | _ => []

/-- All entries of a directory, when `directory_iterator` does not throw. -/
def entries : Except Fault (List FsPath) :=
  match tree path with
  | .directory listing => match listing.stops with
    | some _ => .error .exception
    | none => .ok (listing.paths path)
  | _ => .error .exception

variable {tree path}

theorem isRegularFile_eq_ok {b : Bool} : tree.isRegularFile path = .ok b ↔
    tree path ≠ .unknown ∧ (b = true ↔ ∃ octets, tree path = .regular octets) := by
  unfold isRegularFile
  cases tree path <;> cases b <;> simp

/-- What can be asked for its kind. -/
theorem isRegularFile_defined (h : tree path ≠ .unknown) : Defined (tree.isRegularFile path) := by
  unfold isRegularFile
  cases htree : tree path with
  | unknown => exact absurd htree h
  | absent => exact .ok _
  | regular _ => exact .ok _
  | directory _ => exact .ok _
  | other => exact .ok _

/-- Nothing is listed of what is no directory. -/
theorem listed_eq_nil (h : tree.isDirectory path ≠ .ok true) : tree.listed path = [] := by
  unfold isDirectory at h
  unfold listed
  split
  · rename_i listing htree
    rw [htree] at h
    exact absurd rfl h
  · rfl

/-- A file's octets are those that are at its path. -/
theorem content_regular {octets : Option File} (h : tree path = .regular octets) : tree.content path = octets := by
  rw [content, h]

theorem content_eq_some {f : File} (h : tree.content path = some f) : tree path = .regular (some f) := by
  unfold content at h
  split at h
  · rename_i octets htree
    rw [htree, h]
  · cases h

theorem entries_eq_ok {l : List FsPath} : tree.entries path = .ok l ↔
    ∃ listing, tree path = .directory listing ∧ listing.stops = none ∧ l = listing.paths path := by
  unfold entries
  cases tree path with
  | directory listing =>
    cases hs : listing.stops with
    | none =>
      simp only [Except.ok.injEq, Node.directory.injEq, exists_eq_left', hs, true_and]
      exact eq_comm
    | some n => simp [hs]
  | absent => simp
  | unknown => simp
  | regular _ => simp
  | other => simp

/-- What can be listed is a directory. -/
theorem directory_of_entries (h : Defined (tree.entries path)) : ∃ listing, tree path = .directory listing := by
  obtain ⟨l, hl⟩ := h
  obtain ⟨listing, htree, -⟩ := entries_eq_ok.mp hl
  exact ⟨listing, htree⟩

theorem inside_of_entries {l : List FsPath} (h : tree.entries path = .ok l) : l = tree.inside path := by
  obtain ⟨listing, hd, -, rfl⟩ := entries_eq_ok.mp h
  rw [inside, hd]

end FileTree

namespace InPath

/-- The files that a path stands for: itself, or what lies directly in the directory. -/
def files (tree : FileTree) : InPath → List FsPath
  | .directory path => tree.inside path
  | .file path => [path]
  | .host _ _ => []

def isHost : InPath → Bool
  | .host _ _ => true
  | _ => false

end InPath

end Mashroom
