import Mashroom.Network.Client
import Mashroom.Network.Reference
import Mashroom.Network.Server

/-!
# Network.Handler — messages, and the variant that holds one

A message is its base and the additional part of its type; it is written as the base and the part.  The handler of a
side is a variant of all its messages, and is written as the index of the alternative and the message.  The enumerators
follow the order of the alternatives (`listMessage_eq`), so that the index gives the type back.
-/

namespace Mashroom.Network

/-! ## The types of messages -/

inductive Side where
  | server
  | client
  deriving DecidableEq

/-- `MESSAGE_ID<Side::SERVER>::type` -/
inductive ServerMsgT where
  | dataReplyFileinfo
  | serverStatus
  | dataReplyIndex
  | error
  | progress
  | dataReplyFilepart
  | version
  | dataReplyIndexRef
  | dataReplyExtract
  deriving DecidableEq

/-- `MESSAGE_ID<Side::CLIENT>::type` -/
inductive ClientMsgT where
  | dataRequest
  | serverStatus
  | index
  | indexRef
  | transaction
  deriving DecidableEq

/-- The enumerators, whose values count from zero. -/
def ServerMsgT.enumerators : List ServerMsgT :=
  [.dataReplyFileinfo, .serverStatus, .dataReplyIndex, .error, .progress, .dataReplyFilepart, .version,
    .dataReplyIndexRef, .dataReplyExtract]

/-- The enumerators, whose values count from zero. -/
def ClientMsgT.enumerators : List ClientMsgT := [.dataRequest, .serverStatus, .index, .indexRef, .transaction]

theorem ServerMsgT.mem_enumerators (t : ServerMsgT) : t ∈ enumerators := by
  cases t <;> decide

theorem ClientMsgT.mem_enumerators (t : ClientMsgT) : t ∈ enumerators := by
  cases t <;> decide

/-- `list_message<Side::SERVER>::type`, the alternatives after `std::monostate`. -/
def serverMessages : List ServerMsgT :=
  [.dataReplyFileinfo, .serverStatus, .dataReplyIndex, .error, .progress, .dataReplyFilepart, .version,
    .dataReplyIndexRef, .dataReplyExtract]

/-- `list_message<Side::CLIENT>::type`, the alternatives after `std::monostate`. -/
def clientMessages : List ClientMsgT := [.dataRequest, .serverStatus, .index, .indexRef, .transaction]

/-- `Message_t<S>` -/
def MessageT : Side → Type
  | .server => ServerMsgT
  | .client => ClientMsgT

instance (s : Side) : DecidableEq (MessageT s) :=
  match s with
  | .server => inferInstanceAs (DecidableEq ServerMsgT)
  | .client => inferInstanceAs (DecidableEq ClientMsgT)

/-- The enumerators of `MESSAGE_ID<S>`. -/
def enumerators : (s : Side) → List (MessageT s)
  | .server => ServerMsgT.enumerators
  | .client => ClientMsgT.enumerators

/-- The alternatives of `list_message<S>`. -/
def listMessage : (s : Side) → List (MessageT s)
  | .server => serverMessages
  | .client => clientMessages

/-- What `check_variant_enum_aligned` checks: the message of the alternative `i + 1` has the type `i`. -/
theorem listMessage_eq (s : Side) : listMessage s = enumerators s := by
  cases s <;> rfl

theorem mem_listMessage {s : Side} (t : MessageT s) : t ∈ listMessage s := by
  rw [listMessage_eq]
  cases s with
  | server => exact ServerMsgT.mem_enumerators t
  | client => exact ClientMsgT.mem_enumerators t

theorem listMessage_length_lt (s : Side) : (listMessage s).length < 2 ^ 8 := by
  cases s <;> decide

/-! ## Messages -/

section Messages

variable (τ π : Type)

/-- `MessageAdditional<MSG_T>` of the server. -/
def ServerAdditional : ServerMsgT → Type
  | .dataReplyFileinfo => FileInfo
  | .serverStatus => ServerStatus
  | .dataReplyIndex => IndexReply τ
  | .error => ErrorReply
  | .progress => Progress
  | .dataReplyFilepart => FilePart
  | .version => Version
  | .dataReplyIndexRef => IndexRefReply τ
  | .dataReplyExtract => ExtractReply

/-- `MessageAdditional<MSG_T>` of the client. -/
def ClientAdditional : ClientMsgT → Type
  | .dataRequest => DataRequest π
  | .serverStatus => ServerStatusRequest
  | .index => IndexRequest τ
  | .indexRef => IndexRefRequest τ
  | .transaction => TransactionReply

/-- `MessageAdditional<MSG_T>` -/
def MessageAdditional : (s : Side) → MessageT s → Type
  | .server, t => ServerAdditional τ t
  | .client, t => ClientAdditional τ π t

/-- `MessageBase<MSG_T>` -/
structure MessageBase where
  dataSz : ℕ := 0
  msgMore : Bool := false
  deriving DecidableEq

/-- `Message<MSG_T>` -/
structure Message (s : Side) (t : MessageT s) where
  additional : MessageAdditional τ π s t
  base : MessageBase

/-- `list_message<S>::type`, and the handler derived from it. -/
abbrev MessageHandler (s : Side) := Option (Σ t : MessageT s, Message τ π s t)

end Messages

section Fits

variable {τ π : Type}

/-- The values of the C++ types. -/
def ServerAdditional.Fits : {t : ServerMsgT} → ServerAdditional τ t → Prop
  | .dataReplyFileinfo, a => FileInfo.Fits a
  | .serverStatus, _ => True
  | .dataReplyIndex, a => IndexReply.Fits a
  | .error, _ => True
  | .progress, a => Progress.Fits a
  | .dataReplyFilepart, a => FilePart.Fits a
  | .version, _ => True
  | .dataReplyIndexRef, a => IndexRefReply.Fits a
  | .dataReplyExtract, a => ExtractReply.Fits a

/-- The values of the C++ types. -/
def ClientAdditional.Fits : {t : ClientMsgT} → ClientAdditional τ π t → Prop
  | .dataRequest, a => DataRequest.Fits a
  | .serverStatus, _ => True
  | .index, a => IndexRequest.Fits a
  | .indexRef, a => IndexRefRequest.Fits a
  | .transaction, _ => True

def MessageAdditional.Fits : {s : Side} → {t : MessageT s} → MessageAdditional τ π s t → Prop
  | .server, _, a => ServerAdditional.Fits a
  | .client, _, a => ClientAdditional.Fits a

structure Message.Fits {s : Side} {t : MessageT s} (m : Message τ π s t) : Prop where
  additional : m.additional.Fits
  dataSz : m.base.dataSz < 2 ^ 64

/-- `received_message_type()`: the index of the handler, less one, as an enumerator. -/
def receivedMessageType {s : Side} (h : MessageHandler τ π s) : Option (MessageT s) :=
  if h.isSome then (enumerators s)[Format.variantIndex (listMessage s) h - 1]? else none

end Fits

/-! ## How they are written -/

open Format

namespace OsterFormats

section Formats

variable {τ π : Type} (o : OsterFormats τ π)

def messageBase : Format MessageBase where
  serialize order b := serializeAll order [⟨o.nat64, b.dataSz⟩, ⟨o.flag, b.msgMore⟩]
  deserialize order := front do
    return { dataSz := ← o.nat64.read order, msgMore := ← o.flag.read order }
  serialSize b := serialSizeAll [⟨o.nat64, b.dataSz⟩, ⟨o.flag, b.msgMore⟩]

def serverAdditional : (t : ServerMsgT) → Format (ServerAdditional τ t)
  | .dataReplyFileinfo => o.fileInfo
  | .serverStatus => o.serverStatus
  | .dataReplyIndex => o.indexReply
  | .error => o.errorReply
  | .progress => o.progress
  | .dataReplyFilepart => o.filePart
  | .version => o.version
  | .dataReplyIndexRef => o.indexRefReply
  | .dataReplyExtract => o.extractReply

/-- A request for the status is written as nothing. -/
def clientAdditional : (t : ClientMsgT) → Format (ClientAdditional τ π t)
  | .dataRequest => o.dataRequest
  | .serverStatus => empty (α := ServerStatusRequest) {}
  | .index => o.indexRequest
  | .indexRef => o.indexRefRequest
  | .transaction => o.transactionReply

def additional : (s : Side) → (t : MessageT s) → Format (MessageAdditional τ π s t)
  | .server, t => o.serverAdditional t
  | .client, t => o.clientAdditional t

def message (s : Side) (t : MessageT s) : Format (Message τ π s t) where
  serialize order m := serializeAll order [⟨o.messageBase, m.base⟩, ⟨o.additional s t, m.additional⟩]
  deserialize order := front do
    return { base := ← o.messageBase.read order, additional := ← (o.additional s t).read order }
  serialSize m := serialSizeAll [⟨o.messageBase, m.base⟩, ⟨o.additional s t, m.additional⟩]

def messageHandler (s : Side) : Format (MessageHandler τ π s) := variant o.nat64 (listMessage s) (o.message s)

end Formats

section Laws

variable {τ π : Type} {o : OsterFormats τ π}

theorem Documented.messageBase (ho : o.Documented) {b : MessageBase} (h : b.dataSz < 2 ^ 64) : o.messageBase.Law b :=
  .of_fields (fun _ => rfl) fun _ => .cons (ho.nat64 h) <| .cons (ho.flag _) <| .nil

theorem Documented.serverAdditional (ho : o.Documented) {t : ServerMsgT} {a : ServerAdditional τ t}
    (h : a.Fits) : (o.serverAdditional t).Law a := by
  cases t with
  | dataReplyFileinfo => exact ho.fileInfo h
  | serverStatus => exact ho.serverStatus a
  | dataReplyIndex => exact ho.indexReply h
  | error => exact ho.errorReply a
  | progress => exact ho.progress h
  | dataReplyFilepart => exact ho.filePart h
  | version => exact ho.version a
  | dataReplyIndexRef => exact ho.indexRefReply h
  | dataReplyExtract => exact ho.extractReply h

theorem Documented.clientAdditional (ho : o.Documented) {t : ClientMsgT} {a : ClientAdditional τ π t}
    (h : a.Fits) : (o.clientAdditional t).Law a := by
  cases t with
  | dataRequest => exact ho.dataRequest h
  | serverStatus => exact empty_law _
  | index => exact ho.indexRequest h
  | indexRef => exact ho.indexRefRequest h
  | transaction => exact ho.transactionReply a

theorem Documented.additional (ho : o.Documented) {s : Side} {t : MessageT s} {a : MessageAdditional τ π s t}
    (h : a.Fits) : (o.additional s t).Law a := by
  cases s with
  | server => exact ho.serverAdditional h
  | client => exact ho.clientAdditional h

theorem Documented.message (ho : o.Documented) {s : Side} {t : MessageT s} {m : Message τ π s t} (h : m.Fits) :
    (o.message s t).Law m :=
  .of_fields (fun _ => rfl) fun _ => .cons (ho.messageBase h.dataSz) <| .cons (ho.additional h.additional) <| .nil

/-- The handler is read as it was written, with a message or without. -/
theorem Documented.messageHandler (ho : o.Documented) {s : Side} {h : MessageHandler τ π s}
    (hf : ∀ p ∈ h, p.2.Fits) : (o.messageHandler s).Law h := by
  refine variant_law (ho.nat64 ?_) (fun p _ => mem_listMessage p.1) fun p hp => ho.message (hf p hp)
  have hlen := listMessage_length_lt s
  cases h with
  | none => exact Nat.two_pow_pos 64
  | some p =>
    have hindex := List.idxOf_lt_length_iff.mpr (mem_listMessage p.1)
    show (listMessage s).idxOf p.1 + 1 < 2 ^ 64
    omega

end Laws

end OsterFormats

section RoundTrip

variable {τ π : Type} {s : Side} {t : MessageT s}

/-- The type of the message that the handler holds. -/
theorem receivedMessageType_some (m : Message τ π s t) : receivedMessageType (some ⟨t, m⟩) = some t := by
  have hindex : variantIndex (listMessage s) (some ⟨t, m⟩ : MessageHandler τ π s) - 1 = (listMessage s).idxOf t := rfl
  rw [receivedMessageType, hindex, ← listMessage_eq]
  exact List.getElem?_idxOf (mem_listMessage t)

/-- **The wire format**: a handler with a message is written in as many octets as its size says, and is read as a
handler with the same message, of the same type. -/
theorem messageHandler_roundTrip {o : OsterFormats τ π} (ho : o.Documented) (s : Side) (t : MessageT s)
    (m : Message τ π s t) (hm : m.Fits) (order : Bool) :
    ((o.messageHandler s).serialize order (some ⟨t, m⟩)).length = (o.messageHandler s).serialSize (some ⟨t, m⟩) ∧
      ∃ h, (o.messageHandler s).deserialize order ((o.messageHandler s).serialize order (some ⟨t, m⟩)) = some h ∧
        h = some ⟨t, m⟩ ∧ receivedMessageType h = some t := by
  have hlaw : (o.messageHandler s).Law (some ⟨t, m⟩) := ho.messageHandler fun p hp => by
    obtain rfl := Option.some.inj hp
    exact hm
  refine ⟨hlaw.size order, some ⟨t, m⟩, ?_, rfl, receivedMessageType_some m⟩
  have hread := hlaw.reads order []
  rwa [List.append_nil] at hread

end RoundTrip

/-- An error, announced with more messages to come. -/
def errorMessage : Message UInt64 UInt64 .server ServerMsgT.error where
  additional := ({ status := .suspended, err := 1 } : ErrorReply)
  base := { dataSz := 5, msgMore := true }

theorem messageHandler_roundTrip_error :
    ((reference.messageHandler .server).serialize true (some ⟨ServerMsgT.error, errorMessage⟩)).length =
        (reference.messageHandler .server).serialSize (some ⟨ServerMsgT.error, errorMessage⟩) ∧
      ∃ h, (reference.messageHandler .server).deserialize true
          ((reference.messageHandler .server).serialize true (some ⟨ServerMsgT.error, errorMessage⟩)) = some h ∧
        h = some ⟨ServerMsgT.error, errorMessage⟩ ∧ receivedMessageType h = some ServerMsgT.error :=
  messageHandler_roundTrip reference_documented .server ServerMsgT.error errorMessage ⟨trivial, by decide⟩ true

end Mashroom.Network
