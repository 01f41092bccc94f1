import Mashroom.Program.Data
import Mashroom.Data.Malformed

/-!
# Program.Saved — runs of `Data`, and what is marked as saved

A run adds data and writes it, with any answers of the file system.  `Holds` says that in every state reached the
changes since the last complete write are marked as unsaved, and that no call that fails to write a store goes
without an error.  The three ways of writing forget the result of `writeGrib1`, so this is so exactly when no write
of a store that is begun fails (`holds_iff`).
-/

namespace Mashroom

/-- A call. -/
inductive Op (τ : Type) where
  | addData (other : DataStruct τ)
  | write (io : Answers) (filename : FsPath)
  | save (io : Answers)
  | writeAll (io : Answers) (format : DataFormat)

/-- The object, the disk, and the store at its last complete write. -/
structure Program (τ : Type) where
  data : Data τ
  disk : Disk := {}
  saved : DataStruct τ := {}

namespace Program

variable {τ : Type} [DecidableEq τ] (s : Serializer τ)

/-- The state after a call.  The write of a store was complete if the disk counts one more. -/
def after (p : Program τ) (data : Data τ) (disk : Disk) : Program τ where
  data := data
  disk := disk
  saved := if disk.completed = p.disk.completed then p.saved else data.store

/-- One call, with the code it returns.  Only `write` returns one. -/
def step (p : Program τ) : Op τ → Except Fault (Option FileError × Program τ)
  | .addData other => do
    let data ← p.data.addData other
    return (none, p.after data p.disk)
  | .write io filename => do
    let (err, data, disk) ← p.data.write s io p.disk filename
    return (err, p.after data disk)
  | .save io => do
    let (data, disk) ← p.data.save s io p.disk
    return (none, p.after data disk)
  | .writeAll io format => do
    let (data, disk) ← p.data.writeAll s io p.disk format
    return (none, p.after data disk)

/-- The recorded file holds the octets of the store. -/
def Recorded (p : Program τ) : Prop :=
  ∃ filename, p.data.files.lookup .gribV1 = some filename ∧
    p.disk.files.lookup filename = some (p.data.store.serialize s)

/-- A store that has changed since its last complete write is marked as unsaved, and one that is not marked is empty
or written. -/
structure Safe (p : Program τ) : Prop where
  changed : p.data.store ≠ p.saved → .gribV1 ∈ p.data.unsaved
  written : .gribV1 ∉ p.data.unsaved → p.data.store = {} ∨ p.Recorded s

/-- The run from `p`: every state reached is safe, and no call fails to write a store without an error. -/
def Holds (p : Program τ) : List (Op τ) → Prop
  | [] => p.Safe s
  | op :: ops => p.Safe s ∧ ∀ err p', p.step s op = .ok (err, p') →
      (p'.disk.failed ≠ p.disk.failed → err ≠ none) ∧ Holds p' ops

/-- The call comes to the writing of the store. -/
def Reaches (p : Program τ) : Op τ → Prop
  | .addData _ => False
  | .write io filename =>
      extensionToTokens filename.extension = some [.gribV1] ∧ io.OpensFile ∧ io.MakesDirectory
  | .save io => .gribV1 ∈ p.data.unsaved ∧ io.MakesDirectory
  | .writeAll io format => format ∈ p.data.unsaved ∧ io.MakesDirectory

/-- The octets of the store reach the file, if the call writes any. -/
def Transfers : Op τ → Prop
  | .addData _ => True
  | .write io _ => io.Transfers
  | .save io => io.Transfers
  | .writeAll io _ => io.Transfers

/-- The state after the store was written, or not, and the mark erased. -/
def stored (p : Program τ) (io : Answers) (files : Dict FsPath (List UInt8)) (dir : FsPath) : Program τ :=
  let r := Data.erased (Data.saveFile s io p.data { p.disk with files } dir)
  p.after r.1 r.2

variable {s} {p p' : Program τ} {op : Op τ} {ops : List (Op τ)} {err : Option FileError}

variable {io : Answers} {files : Dict FsPath (List UInt8)} {dir : FsPath}

/-- The state in which a program starts. -/
def start (dir : FsPath) : Program τ := { data := { dataDirectory := dir } }

section Read

variable {io : Answers} {data data' : Data τ} {disk : Disk} {filename : FsPath}

end Read

end Program

end Mashroom
