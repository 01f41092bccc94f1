import Mathlib.Data.List.TakeWhile

/-!
# Program.Tokens — formats, and the names of their files

Each format has extensions, by which a file of messages is recognised, and one more extension for the files in which
the program keeps its store.  `filenameByFormat` names such a file by the first extension of the format,
`utilityToken` recognises it by the other one.
-/

namespace Mashroom

/-- A path of the file system, as its characters. -/
abbrev FsPath := List Char

namespace FsPath

/-- `path::filename`: what comes after the last slash. -/
def filename (p : FsPath) : FsPath := (p.reverse.takeWhile (· ≠ '/')).reverse

/-- `path::extension`: the file name from its last dot on.  A name without a dot has none, nor has one whose only
dot is its first character, nor has `..`. -/
def extension (p : FsPath) : FsPath :=
  let name := filename p
  let ext := (name.reverse.takeWhile (· ≠ '.')).reverse
  if name = ['.', '.'] ∨ name.length ≤ ext.length + 1 then [] else '.' :: ext

/-- `p / q` -/
def append (p q : FsPath) : FsPath :=
  if q.head? = some '/' then q else if filename p = [] then p ++ q else p ++ '/' :: q

/-- A name appended to a directory is the file name of the path. -/
theorem filename_append {p q : FsPath} (hq : ∀ c ∈ q, c ≠ '/') : filename (append p q) = q := by
  have hhead : q.head? ≠ some '/' := fun h => hq '/' (List.mem_of_mem_head? h) rfl
  have hrev : ∀ c ∈ q.reverse, decide (c ≠ '/') = true := fun c hc => by simpa using hq c (List.mem_reverse.mp hc)
  unfold append
  rw [if_neg hhead]
  split
  · rename_i hp
    have hp' : p.reverse.takeWhile (· ≠ '/') = [] := List.reverse_eq_nil_iff.mp hp
    rw [filename, List.reverse_append, List.takeWhile_append_of_pos hrev, hp', List.append_nil, List.reverse_reverse]
  · rw [filename, List.reverse_append, List.reverse_cons, List.append_assoc, List.takeWhile_append_of_pos hrev]
    simp

/-- So the extension is the one of the name. -/
theorem extension_append {p q : FsPath} (hq : ∀ c ∈ q, c ≠ '/') : extension (append p q) = extension q := by
  have hname : filename q = q := by
    have hrev : ∀ c ∈ q.reverse, decide (c ≠ '/') = true := fun c hc => by simpa using hq c (List.mem_reverse.mp hc)
    rw [filename, List.takeWhile_eq_self_iff.mpr hrev, List.reverse_reverse]
  rw [extension, extension, filename_append hq, hname]

end FsPath

/-- `__Data__::FORMAT` -/
inductive DataFormat where
  | gribV1
  deriving DecidableEq

/-- `__Data__::TYPE` -/
inductive DataType where
  | timeSeries
  | grid
  | polygone
  | isolines
  deriving DecidableEq

def DataFormat.index : DataFormat → ℕ
  | gribV1 => 0

/-- The keys of `data_type_token`. -/
def dataTypes : List DataType := [.timeSeries, .polygone, .grid, .isolines]

/-- `number_of_types` -/
def numberOfTypes : ℕ := dataTypes.length

/-- `extension_token` -/
def extensionToken : List (DataFormat × List FsPath) :=
  [(.gribV1, [['.', 'g', 'r', 'i', 'b', '1'], ['.', 'g', 'r', 'i', 'b'], ['.', 'g', 'b'], ['.', 'g', 'r', 'b']])]

/-- `utility_extension_token` -/
def utilityExtensionToken : List (DataFormat × FsPath) := [(.gribV1, ['.', 'g', '1', 'b', 'd'])]

/-- `token_to_extensions` -/
def tokenToExtensions : DataFormat → List FsPath
  | .gribV1 => [['.', 'g', 'r', 'i', 'b', '1'], ['.', 'g', 'r', 'i', 'b'], ['.', 'g', 'b'], ['.', 'g', 'r', 'b']]

/-- `extension_to_tokens`: the formats that have the extension, if there are any. -/
def extensionToTokens (extension : FsPath) : Option (List DataFormat) :=
  match (extensionToken.filter fun e => extension ∈ e.2).map Prod.fst with
  | [] => none
  | fmts => some fmts

/-- `utility_token` -/
def utilityToken (extension : FsPath) : Option DataFormat :=
  (utilityExtensionToken.find? fun e => e.2 = extension).map Prod.fst

/-- `preferred_extension` -/
def preferredExtension (format : DataFormat) : FsPath := (tokenToExtensions format).headD []

/-- `filename_by_format`, from `bindata_filename`. -/
def filenameByFormat (format : DataFormat) : FsPath := ['d', 'a', 't', 'a'] ++ preferredExtension format

/-- **No file that the program names is recognised as one of its own**: the extension is that of the messages. -/
theorem utilityToken_filenameByFormat (dir : FsPath) (format : DataFormat) :
    utilityToken (dir.append (filenameByFormat format)).extension = none := by
  have hname : ∀ c ∈ filenameByFormat format, c ≠ '/' := by
    cases format
    simp [filenameByFormat, preferredExtension, tokenToExtensions]
  rw [FsPath.extension_append hname]
  cases format
  decide

end Mashroom
