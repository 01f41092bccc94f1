import Mashroom.Network.Parts
import Mashroom.Lib.Moves

/-!
# Network.Server — the additional parts of the server's messages

Each part has its format and its moves.  The reply with references leaves its status behind when it is moved, and the
index reply with it; the assignment of a part of a file leaves the data behind.
-/

namespace Mashroom.Network

/-! ## The parts -/

/-- `MessageAdditional<DATA_REPLY_FILEINFO>`.  The offset and the hash are neither written nor moved. -/
structure FileInfo where
  status : Status
  filename : List UInt8
  fileSz : UInt64 := 0
  deriving DecidableEq

/-- `MessageAdditional<SERVER_STATUS>` of the server. -/
structure ServerStatus where
  status : Status := .ready
  deriving DecidableEq

/-- `BaseIndexResult<TIME_SERIES,GRIB_v1>` -/
structure BaseIndexResult (τ : Type) where
  data : List (FoundSublimedDataInfo τ)
  deriving DecidableEq

/-- `MessageAdditional<DATA_REPLY_INDEX_REF>` -/
structure IndexRefReply (τ : Type) where
  blocks : List (Option (BaseIndexResult τ))
  status : Status
  deriving DecidableEq

/-- `MessageAdditional<DATA_REPLY_INDEX>`, derived from the reply with references. -/
structure IndexReply (τ : Type) where
  ref : IndexRefReply τ
  filename : List UInt8
  fileSz : UInt64 := 0
  deriving DecidableEq

/-- `MessageAdditional<ERROR>` -/
structure ErrorReply where
  status : Status
  err : UInt8 := 0
  deriving DecidableEq

/-- `ProgressBase` -/
structure ProgressBase where
  value : ℚ := 0
  serverProcess : Process := .nothing
  deriving DecidableEq

/-- `MessageAdditional<PROGRESS>` -/
structure Progress where
  status : Status
  prog : ProgressBase
  deriving DecidableEq

/-- `MessageAdditional<DATA_REPLY_FILEPART>` -/
structure FilePart where
  status : Status
  offset : UInt64 := 0
  fileHash : UInt64 := 0
  data : List UInt8
  deriving DecidableEq

/-- `MessageAdditional<VERSION>` -/
structure Version where
  status : Status
  version : UInt64
  deriving DecidableEq

/-- `MessageAdditional<DATA_REPLY_EXTRACT>` -/
structure ExtractReply where
  status : Status
  filename : List UInt8
  fileSz : UInt64 := 0
  deriving DecidableEq

/-! ## The values of the C++ types -/

def FileInfo.Fits (r : FileInfo) : Prop := r.filename.length < 2 ^ 64

structure BaseIndexResult.Fits {τ : Type} (r : BaseIndexResult τ) : Prop where
  count : r.data.length < 2 ^ 64
  data : ∀ i ∈ r.data, i.Fits

structure IndexRefReply.Fits {τ : Type} (r : IndexRefReply τ) : Prop where
  count : r.blocks.length < 2 ^ 64
  blocks : ∀ x ∈ r.blocks, ∀ b ∈ x, b.Fits

structure IndexReply.Fits {τ : Type} (r : IndexReply τ) : Prop where
  ref : r.ref.Fits
  filename : r.filename.length < 2 ^ 64

def Progress.Fits (r : Progress) : Prop := IsFloat32 r.prog.value

def FilePart.Fits (r : FilePart) : Prop := r.data.length < 2 ^ 64

def ExtractReply.Fits (r : ExtractReply) : Prop := r.filename.length < 2 ^ 64

/-! ## How they are written -/

open Format

namespace OsterFormats

section Formats

variable {τ π : Type} (o : OsterFormats τ π)

def fileInfo : Format FileInfo where
  serialize order r := serializeAll order [⟨o.status, r.status⟩, ⟨o.string, r.filename⟩, ⟨o.u64, r.fileSz⟩]
  deserialize order := front do
    return { status := ← o.status.read order, filename := ← o.string.read order, fileSz := ← o.u64.read order }
  serialSize r := serialSizeAll [⟨o.status, r.status⟩, ⟨o.string, r.filename⟩, ⟨o.u64, r.fileSz⟩]

def serverStatus : Format ServerStatus where
  serialize order r := serializeAll order [⟨o.status, r.status⟩]
  deserialize order := front do
    return { status := ← o.status.read order }
  serialSize r := serialSizeAll [⟨o.status, r.status⟩]

def baseIndexResult : Format (BaseIndexResult τ) where
  serialize order r := serializeAll order [⟨o.vector o.foundSublimedDataInfo, r.data⟩]
  deserialize order := front do
    return { data := ← (o.vector o.foundSublimedDataInfo).read order }
  serialSize r := serialSizeAll [⟨o.vector o.foundSublimedDataInfo, r.data⟩]

def indexRefReply : Format (IndexRefReply τ) where
  serialize order r := serializeAll order [⟨o.vector (orNothing o.nat64 o.baseIndexResult), r.blocks⟩,
    ⟨o.status, r.status⟩]
  deserialize order := front do
    return {
      blocks := ← (o.vector (orNothing o.nat64 o.baseIndexResult)).read order
      status := ← o.status.read order }
  serialSize r := serialSizeAll [⟨o.vector (orNothing o.nat64 o.baseIndexResult), r.blocks⟩,
    ⟨o.status, r.status⟩]

def indexReply : Format (IndexReply τ) where
  serialize order r := serializeAll order [⟨o.indexRefReply, r.ref⟩, ⟨o.string, r.filename⟩, ⟨o.u64, r.fileSz⟩]
  deserialize order := front do
    return { ref := ← o.indexRefReply.read order, filename := ← o.string.read order, fileSz := ← o.u64.read order }
  serialSize r := serialSizeAll [⟨o.indexRefReply, r.ref⟩, ⟨o.string, r.filename⟩, ⟨o.u64, r.fileSz⟩]

def errorReply : Format ErrorReply where
  serialize order r := serializeAll order [⟨o.status, r.status⟩, ⟨o.u8, r.err⟩]
  deserialize order := front do
    return { status := ← o.status.read order, err := ← o.u8.read order }
  serialSize r := serialSizeAll [⟨o.status, r.status⟩, ⟨o.u8, r.err⟩]

def progressBase : Format ProgressBase where
  serialize order p := serializeAll order [⟨o.float, p.value⟩, ⟨o.process, p.serverProcess⟩]
  deserialize order := front do
    return { value := ← o.float.read order, serverProcess := ← o.process.read order }
  serialSize p := serialSizeAll [⟨o.float, p.value⟩, ⟨o.process, p.serverProcess⟩]

def progress : Format Progress where
  serialize order r := serializeAll order [⟨o.status, r.status⟩, ⟨o.progressBase, r.prog⟩]
  deserialize order := front do
    return { status := ← o.status.read order, prog := ← o.progressBase.read order }
  serialSize r := serialSizeAll [⟨o.status, r.status⟩, ⟨o.progressBase, r.prog⟩]

def filePart : Format FilePart where
  serialize order r := serializeAll order [⟨o.status, r.status⟩, ⟨o.u64, r.offset⟩, ⟨o.u64, r.fileHash⟩,
    ⟨o.vector o.u8, r.data⟩]
  deserialize order := front do
    return {
      status := ← o.status.read order
      offset := ← o.u64.read order
      fileHash := ← o.u64.read order
      data := ← (o.vector o.u8).read order }
  serialSize r := serialSizeAll [⟨o.status, r.status⟩, ⟨o.u64, r.offset⟩, ⟨o.u64, r.fileHash⟩,
    ⟨o.vector o.u8, r.data⟩]

def version : Format Version where
  serialize order r := serializeAll order [⟨o.status, r.status⟩, ⟨o.u64, r.version⟩]
  deserialize order := front do
    return { status := ← o.status.read order, version := ← o.u64.read order }
  serialSize r := serialSizeAll [⟨o.status, r.status⟩, ⟨o.u64, r.version⟩]

def extractReply : Format ExtractReply where
  serialize order r := serializeAll order [⟨o.status, r.status⟩, ⟨o.string, r.filename⟩, ⟨o.u64, r.fileSz⟩]
  deserialize order := front do
    return { status := ← o.status.read order, filename := ← o.string.read order, fileSz := ← o.u64.read order }
  serialSize r := serialSizeAll [⟨o.status, r.status⟩, ⟨o.string, r.filename⟩, ⟨o.u64, r.fileSz⟩]

end Formats

/-! ## The laws -/

section Laws

variable {τ π : Type} {o : OsterFormats τ π}

theorem Documented.fileInfo (ho : o.Documented) {r : FileInfo} (h : r.Fits) : o.fileInfo.Law r :=
  .of_fields (fun _ => rfl) fun _ => .cons (ho.status _) <| .cons (ho.string _ h) <| .cons (ho.u64 _) <| .nil

theorem Documented.serverStatus (ho : o.Documented) (r : ServerStatus) : o.serverStatus.Law r :=
  .of_fields (fun _ => rfl) fun _ => .cons (ho.status _) <| .nil

theorem Documented.baseIndexResult (ho : o.Documented) {r : BaseIndexResult τ} (h : r.Fits) :
    o.baseIndexResult.Law r := by
  have hdata := ho.vector o.foundSublimedDataInfo _ h.count fun i hi => ho.foundSublimedDataInfo (h.data i hi)
  exact .of_fields (fun _ => rfl) fun _ => .cons hdata .nil

theorem Documented.indexRefReply (ho : o.Documented) {r : IndexRefReply τ} (h : r.Fits) : o.indexRefReply.Law r := by
  have hblocks := ho.vector (Format.orNothing o.nat64 o.baseIndexResult) _ h.count fun x hx =>
    ho.orNothing fun b hb => ho.baseIndexResult (h.blocks x hx b hb)
  exact .of_fields (fun _ => rfl) fun _ => .cons hblocks <| .cons (ho.status _) <| .nil

theorem Documented.indexReply (ho : o.Documented) {r : IndexReply τ} (h : r.Fits) : o.indexReply.Law r :=
  .of_fields (fun _ => rfl) fun _ => .cons (ho.indexRefReply h.ref) <| .cons (ho.string _ h.filename) <|
    .cons (ho.u64 _) <| .nil

theorem Documented.errorReply (ho : o.Documented) (r : ErrorReply) : o.errorReply.Law r :=
  .of_fields (fun _ => rfl) fun _ => .cons (ho.status _) <| .cons (ho.u8 _) <| .nil

theorem Documented.progressBase (ho : o.Documented) {p : ProgressBase} (h : IsFloat32 p.value) :
    o.progressBase.Law p :=
  .of_fields (fun _ => rfl) fun _ => .cons (ho.float _ h) <| .cons (ho.process _) <| .nil

theorem Documented.progress (ho : o.Documented) {r : Progress} (h : r.Fits) : o.progress.Law r :=
  .of_fields (fun _ => rfl) fun _ => .cons (ho.status _) <| .cons (ho.progressBase h) <| .nil

theorem Documented.filePart (ho : o.Documented) {r : FilePart} (h : r.Fits) : o.filePart.Law r := by
  have hdata := ho.vector o.u8 r.data h fun b _ => ho.u8 b
  exact .of_fields (fun _ => rfl) fun _ => .cons (ho.status _) <| .cons (ho.u64 _) <| .cons (ho.u64 _) <|
    .cons hdata <| .nil

theorem Documented.version (ho : o.Documented) (r : Version) : o.version.Law r :=
  .of_fields (fun _ => rfl) fun _ => .cons (ho.status _) <| .cons (ho.u64 _) <| .nil

theorem Documented.extractReply (ho : o.Documented) {r : ExtractReply} (h : r.Fits) : o.extractReply.Law r :=
  .of_fields (fun _ => rfl) fun _ => .cons (ho.status _) <| .cons (ho.string _ h) <| .cons (ho.u64 _) <| .nil

end Laws

end OsterFormats

/-! ## The moves -/

section Moves

variable {τ : Type}

def FileInfo.moves : Moves FileInfo where
  construct _ other := { status := other.status, filename := other.filename, fileSz := other.fileSz }
  assign _ other := { status := other.status, filename := other.filename, fileSz := other.fileSz }

def ServerStatus.moves : Moves ServerStatus where
  construct _ other := { status := other.status }
  assign _ other := { status := other.status }

/-- Both move the blocks only. -/
def IndexRefReply.moves : Moves (IndexRefReply τ) where
  construct memory other := { memory with blocks := other.blocks }
  assign this other := { this with blocks := other.blocks }

def IndexReply.moves : Moves (IndexReply τ) where
  construct memory other := {
    ref := IndexRefReply.moves.construct memory.ref other.ref, filename := other.filename, fileSz := other.fileSz }
  assign this other := {
    ref := IndexRefReply.moves.assign this.ref other.ref, filename := other.filename, fileSz := other.fileSz }

def ErrorReply.moves : Moves ErrorReply := .keep

def Progress.moves : Moves Progress where
  construct _ other := { status := other.status, prog := other.prog }
  assign _ other := { status := other.status, prog := other.prog }

/-- The move constructor copies the data, the assignment does not. -/
def FilePart.moves : Moves FilePart where
  construct _ other := {
    status := other.status, offset := other.offset, fileHash := other.fileHash, data := other.data }
  assign this other := { this with status := other.status, offset := other.offset, fileHash := other.fileHash }

def Version.moves : Moves Version where
  construct _ other := { status := other.status, version := other.version }
  assign _ other := { status := other.status, version := other.version }

def ExtractReply.moves : Moves ExtractReply where
  construct _ other := { status := other.status, filename := other.filename, fileSz := other.fileSz }
  assign _ other := { status := other.status, filename := other.filename, fileSz := other.fileSz }

def IndexRefReply.setStatus (s : Status) (r : IndexRefReply τ) : IndexRefReply τ := { r with status := s }

/-- What a moved reply has as its status. -/
def IndexRefReply.loss : Move (IndexRefReply τ) → Option Status
  | .construct memory => some memory.status
  | .assign this => some this.status

theorem IndexRefReply.loses : (moves (τ := τ)).Loses setStatus loss where
  set_set _ _ _ := rfl
  apply
    | _, .construct _ => rfl
    | _, .assign _ => rfl

theorem IndexRefReply.setStatus_eq_self {s : Status} {r : IndexRefReply τ} : setStatus s r = r ↔ r.status = s :=
  Moves.set_eq_self (fun _ _ => rfl) fun _ => rfl

/-- The reply was not moved, or the last move left the status that it has. -/
def IndexRefReply.Kept (r : IndexRefReply τ) (ms : List (Move (IndexRefReply τ))) : Prop :=
  ∀ x ∈ Moves.lastLoss loss ms, r.status = x

theorem IndexRefReply.run_eq_self_iff (r : IndexRefReply τ) (ms : List (Move (IndexRefReply τ))) :
    moves.run r ms = r ↔ r.Kept ms := by
  rw [loses.run_eq_self]
  simp only [setStatus_eq_self, Kept]

/-- The inherited status. -/
def IndexReply.status (r : IndexReply τ) : Status := r.ref.status

def IndexReply.setStatus (s : Status) (r : IndexReply τ) : IndexReply τ := { r with ref := r.ref.setStatus s }

/-- What a moved reply has as its status. -/
def IndexReply.loss (mv : Move (IndexReply τ)) : Option Status := IndexRefReply.loss (mv.map IndexReply.ref)

theorem IndexReply.loses : (moves (τ := τ)).Loses setStatus loss where
  set_set _ _ _ := rfl
  apply
    | _, .construct _ => rfl
    | _, .assign _ => rfl

theorem IndexReply.setStatus_eq_self {s : Status} {r : IndexReply τ} : setStatus s r = r ↔ r.status = s :=
  Moves.set_eq_self (fun _ _ => rfl) fun _ => rfl

/-- The reply was not moved, or the last move left the status that it has. -/
def IndexReply.Kept (r : IndexReply τ) (ms : List (Move (IndexReply τ))) : Prop :=
  ∀ x ∈ Moves.lastLoss loss ms, r.status = x

theorem IndexReply.run_eq_self_iff (r : IndexReply τ) (ms : List (Move (IndexReply τ))) :
    moves.run r ms = r ↔ r.Kept ms := by
  rw [loses.run_eq_self]
  simp only [setStatus_eq_self, Kept]

def FilePart.setData (data : List UInt8) (r : FilePart) : FilePart := { r with data }

/-- What an assigned part has as its data. -/
def FilePart.loss : Move FilePart → Option (List UInt8)
  | .construct _ => none
  | .assign this => some this.data

theorem FilePart.loses : moves.Loses setData loss where
  set_set _ _ _ := rfl
  apply
    | _, .construct _ => rfl
    | _, .assign _ => rfl

theorem FilePart.setData_eq_self {data : List UInt8} {r : FilePart} : setData data r = r ↔ r.data = data :=
  Moves.set_eq_self (fun _ _ => rfl) fun _ => rfl

/-- The part was not assigned, or last to an object with the data that it has. -/
def FilePart.Kept (r : FilePart) (ms : List (Move FilePart)) : Prop :=
  ∀ x ∈ Moves.lastLoss loss ms, r.data = x

theorem FilePart.run_eq_self_iff (r : FilePart) (ms : List (Move FilePart)) : moves.run r ms = r ↔ r.Kept ms := by
  rw [loses.run_eq_self]
  simp only [setData_eq_self, Kept]

end Moves

end Mashroom.Network
