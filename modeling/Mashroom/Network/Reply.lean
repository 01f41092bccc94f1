import Mashroom.Mapped
import Mashroom.Network.Handler

/-!
# Network.Reply — what the server sends for a request

`reply` of the server's process.  What the system answers to its calls, and what sending returns, is given with the
call of `reply`; what is sent up to an exception or a fault has been sent.  What it answers of a directory is said by
`Temporary`.
-/

namespace Mashroom.Network

/-! ## What is sent -/

/-- The values of `ErrorCode` that `reply` meets. -/
def ErrorValue.none : UInt8 := 0
def ErrorValue.internalError : UInt8 := 1
def ErrorValue.fileX1DontExists : UInt8 := 14
def ErrorValue.undefinedValue : UInt8 := 25
def ErrorValue.interrupted : UInt8 := 34
def ErrorValue.x1IsNotRegularFileOrDirectory : UInt8 := 36
def ErrorValue.invalidArgument : UInt8 := 38

/-- The messages that `reply` sends, by their additional parts. -/
inductive ServerMessage (τ : Type) where
  | error (a : ErrorReply)
  | dataReplyFilepart (a : FilePart)
  | dataReplyIndexRef (a : IndexRefReply τ)
  | dataReplyExtract (a : ExtractReply)
  deriving DecidableEq

def ServerMessage.type {τ : Type} : ServerMessage τ → ServerMsgT
  | .error _ => .error
  | .dataReplyFilepart _ => .dataReplyFilepart
  | .dataReplyIndexRef _ => .dataReplyIndexRef
  | .dataReplyExtract _ => .dataReplyExtract

/-- A message that `send_message` was given, and what it returned. -/
structure Sent (τ : Type) where
  message : ServerMessage τ
  result : UInt8
  deriving DecidableEq

/-- A run of a function that sends. -/
structure Run (τ α : Type) where
  sent : List (Sent τ)
  result : Except Fault α

namespace Run

variable {τ α β : Type}

/-- A run that sends nothing. -/
def lift (x : Except Fault α) : Run τ α where
  sent := []
  result := x

/-- A call with its answer, which throws where there is none. -/
def call : Option α → Run τ α
  | some a => lift (.ok a)
  | none => lift (.error .exception)

instance : Monad (Run τ) where
  pure a := lift (.ok a)
  bind x f :=
    match x.result with
    | .ok a => { sent := x.sent ++ (f a).sent, result := (f a).result }
    | .error e => { sent := x.sent, result := .error e }

@[simp] theorem pure_sent (a : α) : (pure a : Run τ α).sent = [] := rfl

@[simp] theorem pure_result (a : α) : (pure a : Run τ α).result = .ok a := rfl

@[simp] theorem lift_sent (x : Except Fault α) : (lift x : Run τ α).sent = [] := rfl

@[simp] theorem lift_result (x : Except Fault α) : (lift x : Run τ α).result = x := rfl

theorem bind_of_ok {x : Run τ α} {a : α} (h : x.result = .ok a) (f : α → Run τ β) :
    x >>= f = { sent := x.sent ++ (f a).sent, result := (f a).result } := by
  show (match x.result with | .ok a => _ | .error e => _) = _
  rw [h]

theorem bind_of_error {x : Run τ α} {e : Fault} (h : x.result = .error e) (f : α → Run τ β) :
    x >>= f = { sent := x.sent, result := .error e } := by
  show (match x.result with | .ok a => _ | .error e => _) = _
  rw [h]

@[simp] theorem lift_ok_bind (a : α) (f : α → Run τ β) : (lift (.ok a) : Run τ α) >>= f = f a := by
  rw [bind_of_ok rfl]
  rfl

@[simp] theorem lift_error_bind (e : Fault) (f : α → Run τ β) :
    (lift (.error e) : Run τ α) >>= f = lift (.error e) := rfl

@[simp] theorem call_some_bind (a : α) (f : α → Run τ β) : (call (some a) : Run τ α) >>= f = f a := lift_ok_bind a f

@[simp] theorem call_none_bind (f : α → Run τ β) : (call none : Run τ α) >>= f = lift (.error .exception) := rfl

end Run

section Send

variable {τ : Type}

/-- `send_message<T>`, which returns `result`. -/
def sendMessage (message : ServerMessage τ) (result : UInt8) : Run τ UInt8 where
  sent := [⟨message, result⟩]
  result := .ok result

theorem sendMessage_bind {α : Type} (message : ServerMessage τ) (result : UInt8) (f : UInt8 → Run τ α) :
    sendMessage message result >>= f =
      { sent := ⟨message, result⟩ :: (f result).sent, result := (f result).result } := rfl

/-- What `send_error` sends.  Neither the error nor the status comes from the arguments. -/
def errorReply : ErrorReply where
  status := .ready
  err := ErrorValue.invalidArgument

/-- `send_error` -/
def sendError (err : UInt8) (_status : Status) (result : UInt8) : Run τ UInt8 := do
  let errtmp ← sendMessage (.error errorReply) result
  return if errtmp = ErrorValue.none then err else errtmp

end Send

/-! ## The files of an extraction -/

/-- The answers to the calls of one turn of the loop over the directory, whatever they are: those that there are for a
directory are `Entry.turn`. -/
structure Turn where
  /-- `entry.is_regular_file() && entry.path().extension()==".zip"` -/
  isZip : Option Bool
  /-- `entry.path()` -/
  path : List UInt8
  pathHash : UInt64
  /-- `fs::file_size(curdir)`: the size of the directory is asked for, not of the entry -/
  fileSize : Option UInt64
  /-- what sending `DATA_REPLY_EXTRACT` returns -/
  extractResult : UInt8
  /-- `open(curdir.c_str(),…)` gives a descriptor -/
  opened : Bool
  /-- `mmap` of the descriptor: a null pointer, or the octets behind the one returned, of which there are none behind
  `MAP_FAILED` -/
  mapped : Option (List UInt8)
  /-- `madvise` does not return `-1` -/
  advised : Bool
  /-- what sending the part of an offset returns -/
  partResult : ℕ → UInt8
  /-- what sending `ERROR` returns -/
  errorResult : UInt8
  /-- `fs::remove_all(curdir)` -/
  removed : Option Unit

/-- `assign_file_segment(ptr,size)` -/
def fileSegment (memory : List UInt8) (size : ℕ) : Except Fault (List UInt8) :=
  if size ≤ memory.length then .ok (memory.take size) else .error .outside

section Parts

variable {τ : Type} (memory : List UInt8) (hash : UInt64) (result : ℕ → UInt8)

/-- The loop that sends the parts, for `n` more turns from an offset.  The segment is taken from the start of the
mapping each time. -/
def partsFrom (offset : ℕ) : ℕ → Run τ Unit
  | 0 => pure ()
  | n + 1 => do
    let data ← Run.lift (fileSegment memory 8912)
    let part : FilePart := { status := .ready, offset := .ofNat offset, fileHash := hash, data }
    let _ ← sendMessage (.dataReplyFilepart part) (result offset)
    partsFrom (offset + 1) n

end Parts

namespace Turn

variable {τ : Type} (t : Turn)

def extractReply (size : UInt64) : ExtractReply where
  status := .ready
  filename := t.path
  fileSz := size

/-- From `mmap` to the end of the turn. -/
def replyParts (size : UInt64) : Run τ Bool :=
  match t.mapped with
  | none => do
    let _ ← sendError ErrorValue.internalError .ready t.errorResult
    return false
  | some octets =>
    if !t.advised then do
      let _ ← sendError ErrorValue.internalError .ready t.errorResult
      return false
    else do
      partsFrom (octets.take size.toNat) t.pathHash t.partResult 0 size.toNat
      let _ ← Run.call t.removed
      return true

/-- One turn: whether the loop goes on. -/
def reply : Run τ Bool := do
  if ← Run.call t.isZip then
    let size ← Run.call t.fileSize
    let err ← sendMessage (.dataReplyExtract (t.extractReply size)) t.extractResult
    if err ≠ ErrorValue.none then return true
    else if !t.opened then
      let _ ← sendError ErrorValue.internalError .ready t.errorResult
      return false
    else t.replyParts size
  else
    let _ ← sendError ErrorValue.internalError .ready t.errorResult
    return false

end Turn

/-- The loop over the directory. -/
def replyFiles {τ : Type} : List Turn → Run τ Unit
  | [] => pure ()
  | t :: ts => do
    if ← t.reply then replyFiles ts else return ()

/-! ## The requests -/

/-- The answers to the calls for a request for data, whatever they are: those of the system are
`Temporary.extraction`. -/
structure Extraction where
  /-- `fs::temp_directory_path()` and `fs::remove_all(curdir)` -/
  cleared : Option Unit
  curdir : List UInt8
  /-- `fs::create_directories(curdir)` -/
  created : Option Bool
  /-- `fs::exists(curdir)` -/
  existing : Option Bool
  /-- `fs::is_regular_file(curdir)` -/
  regularFile : Option Bool
  /-- `fs::is_directory(curdir)` -/
  directory : Option Bool
  /-- a stop is requested while `execute` goes through the data -/
  stopped : Bool
  /-- the entries of the directory after `execute` -/
  turns : List Turn
  /-- what sending `ERROR` before the loop returns -/
  errorResult : UInt8

section Extract

variable {π : Type}

/-- `set_offset_time_interval` -/
def setOffsetTimeInterval (tOff : Option π) : UInt8 :=
  if tOff.isSome then ErrorValue.none else ErrorValue.undefinedValue

/-- `set_by_request`, with the period of a month. -/
def setByRequest (month : π) (form : ExtractRequestForm π) : UInt8 :=
  match form.tSeparation with
  | some t => setOffsetTimeInterval (some t)
  | none => setOffsetTimeInterval (some month)

/-- `init_h`, visiting the form. -/
def initExtract (month : π) : Option (ExtractRequestForm π) → UInt8
  | none => ErrorValue.undefinedValue
  | some form => setByRequest month form

/-- `add_in_path(curdir.c_str())`: the error, and the paths added. -/
def Extraction.addInPath (e : Extraction) : Option (UInt8 × List (List UInt8)) := do
  if !(← e.existing) then return (ErrorValue.fileX1DontExists, [])
  else if ← e.regularFile then return (ErrorValue.none, [e.curdir])
  else if ← e.directory then return (ErrorValue.none, [e.curdir])
  else return (ErrorValue.x1IsNotRegularFileOrDirectory, [])

/-- What `execute()` returns.  With a path given, the errors of `__extract__` and `__write_file__` are not looked
at. -/
def Extraction.execute (e : Extraction) : List (List UInt8) → UInt8
  | [] => if e.stopped then ErrorValue.interrupted else ErrorValue.none
  | _ :: _ => ErrorValue.none

variable {τ : Type} (month : π) (e : Extraction)

/-- `reply` to a request for data. -/
def replyData (request : DataRequest π) : Run τ Unit := do
  if initExtract month request.form ≠ ErrorValue.none then
    let _ ← sendError ErrorValue.invalidArgument .ready e.errorResult
  else
    Run.call e.cleared
    if !(← Run.call e.created) then
      let _ ← sendError ErrorValue.internalError .ready e.errorResult
    else
      let (err, inPath) ← Run.call e.addInPath
      if err ≠ ErrorValue.none then
        let _ ← sendError ErrorValue.internalError .ready e.errorResult
      else if e.execute inPath = ErrorValue.none then replyFiles e.turns
      else return ()

end Extract

/-! ## What the system answers -/

/-- What is at a path. -/
inductive Node where
  | file (octets : List UInt8)
  | directory
  deriving DecidableEq

namespace Node

/-- `fs::is_regular_file` -/
def isRegularFile : Node → Bool
  | file _ => true
  | directory => false

/-- `fs::is_directory` -/
def isDirectory : Node → Bool
  | file _ => false
  | directory => true

/-- `fs::file_size`, which throws for what is not a regular file. -/
def fileSize : Node → Option UInt64
  | file octets => some (.ofNat octets.length)
  | directory => none

/-- The octets behind the pointer of `mmap`, which is `MAP_FAILED` for a directory. -/
def mapped : Node → List UInt8
  | file octets => octets
  | directory => []

end Node

/-- An entry that another process has put into the directory, and the answers that do not depend on the directory's
path: `execute` writes to `out_path_` and leaves nothing there. -/
structure Entry where
  isZip : Option Bool
  path : List UInt8
  pathHash : UInt64
  extractResult : UInt8
  opened : Bool
  partResult : ℕ → UInt8
  errorResult : UInt8
  removed : Option Unit

/-- The turn of an entry, where `curdir` is the path of the node. -/
def Entry.turn (curdir : Node) (entry : Entry) : Turn where
  isZip := entry.isZip
  path := entry.path
  pathHash := entry.pathHash
  fileSize := curdir.fileSize
  extractResult := entry.extractResult
  opened := entry.opened
  mapped := some curdir.mapped
  advised := curdir.isRegularFile
  partResult := entry.partResult
  errorResult := entry.errorResult
  removed := entry.removed

/-- The temporary path of a request, which `fs::create_directories` makes a directory. -/
structure Temporary where
  cleared : Option Unit
  curdir : List UInt8
  created : Option Bool
  stopped : Bool
  entries : List Entry
  errorResult : UInt8

/-- The answers of the system there. -/
def Temporary.extraction (t : Temporary) : Extraction where
  cleared := t.cleared
  curdir := t.curdir
  created := t.created
  existing := some true
  regularFile := some Node.directory.isRegularFile
  directory := some Node.directory.isDirectory
  stopped := t.stopped
  turns := t.entries.map (Entry.turn .directory)
  errorResult := t.errorResult

/-! ## The reply -/

section Reply

variable {τ π : Type}

/-- What `receive_any_message` does at a call of `reply`, and the answers to the other calls made there. -/
structure Call (τ π : Type) where
  /-- the message received, where receiving it gives no error -/
  received : Option (MessageHandler τ π .client)
  /-- what `find_all` gives for the parameters of a request, as far as it gives something -/
  found : Option (List (List (FoundSublimedDataInfo τ)))
  /-- the status of a reply that is built without one -/
  memory : Status
  /-- what sending `DATA_REPLY_INDEX_REF` returns -/
  indexRefResult : UInt8
  extraction : Extraction

/-- `get_received_message<MSG_T>()` -/
def getReceivedMessage (s : Side) (t : MessageT s) : MessageHandler τ π s → Except Fault (Message τ π s t)
  | some ⟨t', m⟩ => if h : t' = t then .ok (h ▸ m) else .error .exception
  | none => .error .exception

/-- The reply with the blocks of what was found. -/
def indexRefReply (memory : Status) (found : List (List (FoundSublimedDataInfo τ))) : IndexRefReply τ where
  blocks := found.map fun data => some { data }
  status := memory

/-- The `switch` of `reply`.  Requests of both kinds for an index are read as requests for references. -/
def replyTo (month : π) (c : Call τ π) (recvHmsg : MessageHandler τ π .client) : ClientMsgT → Run τ Unit
  | .indexRef | .index => do
    let _ ← Run.lift (getReceivedMessage .client ClientMsgT.indexRef recvHmsg)
    let found ← Run.call c.found
    let _ ← sendMessage (.dataReplyIndexRef (indexRefReply c.memory found)) c.indexRefResult
  | .dataRequest => do
    let msg ← Run.lift (getReceivedMessage .client ClientMsgT.dataRequest recvHmsg)
    replyData month c.extraction msg.additional
  | .serverStatus => pure ()
  | .transaction => pure ()

/-- `reply` -/
def reply (month : π) (c : Call τ π) : Run τ Unit :=
  match c.received with
  | none => pure ()
  | some recvHmsg =>
    match receivedMessageType recvHmsg with
    | none => pure ()
    | some t => replyTo month c recvHmsg t

theorem reply_of_received (month : π) {c : Call τ π} {t : ClientMsgT} {m : Message τ π .client t}
    (h : c.received = some (some ⟨t, m⟩)) : reply month c = replyTo month c (some ⟨t, m⟩) t := by
  have htype := receivedMessageType_some m
  simp only [reply, h, htype]

theorem replyTo_indexRef (month : π) (c : Call τ π) (m : Message τ π .client ClientMsgT.indexRef) :
    replyTo month c (some ⟨ClientMsgT.indexRef, m⟩) .indexRef = (do
      let found ← Run.call c.found
      let _ ← sendMessage (.dataReplyIndexRef (indexRefReply c.memory found)) c.indexRefResult) := rfl

/-- A request for an index does not hold a request for references. -/
theorem replyTo_index (month : π) (c : Call τ π) (m : Message τ π .client ClientMsgT.index) :
    replyTo month c (some ⟨ClientMsgT.index, m⟩) .index = Run.lift (.error .exception) := rfl

end Reply

end Mashroom.Network
