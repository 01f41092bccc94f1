import Mashroom.Network.Handler

/-!
# Network.Moved — which messages survive being moved

A message is moved into `send_message`, and from there into the handler.  The move constructor of the base leaves the
flag out, which is then initialised to false, and the moves of some additional parts leave out fields that are written.
`Kept` says of each part when the moves leave it as it was; a message is what it was exactly when its base and its
additional part are (`moved_eq_self_iff`).
-/

namespace Mashroom.Network

open Moves

variable {τ π : Type}

/-! ## The base -/

namespace MessageBase

/-- The move constructor leaves `msg_more_` to its initialiser. -/
def moves : Moves MessageBase where
  construct _ other := { dataSz := other.dataSz }
  assign _ other := { dataSz := other.dataSz, msgMore := other.msgMore }

def setMore (more : Bool) (b : MessageBase) : MessageBase := { b with msgMore := more }

/-- What a moved base has as its flag. -/
def loss : Move MessageBase → Option Bool
  | .construct _ => some false
  | .assign _ => none

theorem loses : moves.Loses setMore loss where
  set_set _ _ _ := rfl
  apply
    | _, .construct _ => rfl
    | _, .assign _ => rfl

theorem setMore_eq_self {more : Bool} {b : MessageBase} : setMore more b = b ↔ b.msgMore = more :=
  set_eq_self (fun _ _ => rfl) fun _ => rfl

/-- The flag was not set, or the base was only assigned. -/
def Kept (b : MessageBase) (ms : List (Move MessageBase)) : Prop := ∀ more ∈ lastLoss loss ms, b.msgMore = more

theorem run_eq_self_iff (b : MessageBase) (ms : List (Move MessageBase)) : moves.run b ms = b ↔ b.Kept ms := by
  rw [loses.run_eq_self]
  simp only [setMore_eq_self, Kept]

/-- The size is never lost. -/
theorem run_dataSz (b : MessageBase) (ms : List (Move MessageBase)) : (moves.run b ms).dataSz = b.dataSz := by
  rw [loses.run_eq]
  cases lastLoss loss ms with
  | none => rfl
  | some more => rfl

end MessageBase

/-! ## The additional parts -/

namespace ServerAdditional

def moves : (t : ServerMsgT) → Moves (ServerAdditional τ t)
  | .dataReplyFileinfo => FileInfo.moves
  | .serverStatus => ServerStatus.moves
  | .dataReplyIndex => IndexReply.moves
  | .error => ErrorReply.moves
  | .progress => Progress.moves
  | .dataReplyFilepart => FilePart.moves
  | .version => Version.moves
  | .dataReplyIndexRef => IndexRefReply.moves
  | .dataReplyExtract => ExtractReply.moves

/-- The other parts are always kept. -/
def Kept : {t : ServerMsgT} → ServerAdditional τ t → List (Move (ServerAdditional τ t)) → Prop
  | .dataReplyIndex, a, ms => IndexReply.Kept a ms
  | .dataReplyFilepart, a, ms => FilePart.Kept a ms
  | .dataReplyIndexRef, a, ms => IndexRefReply.Kept a ms
  | _, _, _ => True

theorem run_eq_self_iff {t : ServerMsgT} (a : ServerAdditional τ t) (ms : List (Move (ServerAdditional τ t))) :
    (moves t).run a ms = a ↔ a.Kept ms := by
  cases t with
  | dataReplyIndex => exact IndexReply.run_eq_self_iff a ms
  | dataReplyFilepart => exact FilePart.run_eq_self_iff a ms
  | dataReplyIndexRef => exact IndexRefReply.run_eq_self_iff a ms
  | dataReplyFileinfo => exact iff_of_true (run_keep a ms) trivial
  | serverStatus => exact iff_of_true (run_keep a ms) trivial
  | error => exact iff_of_true (run_keep a ms) trivial
  | progress => exact iff_of_true (run_keep a ms) trivial
  | version => exact iff_of_true (run_keep a ms) trivial
  | dataReplyExtract => exact iff_of_true (run_keep a ms) trivial

end ServerAdditional

namespace ClientAdditional

def moves : (t : ClientMsgT) → Moves (ClientAdditional τ π t)
  | .dataRequest => DataRequest.moves
  | .serverStatus => ServerStatusRequest.moves
  | .index => IndexRequest.moves
  | .indexRef => IndexRefRequest.moves
  | .transaction => TransactionReply.moves

/-- The other parts are always kept. -/
def Kept : {t : ClientMsgT} → ClientAdditional τ π t → List (Move (ClientAdditional τ π t)) → Prop
  | .dataRequest, a, ms => DataRequest.Kept a ms
  | _, _, _ => True

theorem run_eq_self_iff {t : ClientMsgT} (a : ClientAdditional τ π t) (ms : List (Move (ClientAdditional τ π t))) :
    (moves t).run a ms = a ↔ a.Kept ms := by
  cases t with
  | dataRequest => exact DataRequest.run_eq_self_iff a ms
  | serverStatus => exact iff_of_true (run_keep a ms) trivial
  | index => exact iff_of_true (run_keep a ms) trivial
  | indexRef => exact iff_of_true (run_keep a ms) trivial
  | transaction => exact iff_of_true (run_keep a ms) trivial

end ClientAdditional

namespace MessageAdditional

def moves : (s : Side) → (t : MessageT s) → Moves (MessageAdditional τ π s t)
  | .server, t => ServerAdditional.moves t
  | .client, t => ClientAdditional.moves t

def Kept : {s : Side} → {t : MessageT s} → MessageAdditional τ π s t → List (Move (MessageAdditional τ π s t)) → Prop
  | .server, _, a, ms => ServerAdditional.Kept a ms
  | .client, _, a, ms => ClientAdditional.Kept a ms

theorem run_eq_self_iff {s : Side} {t : MessageT s} (a : MessageAdditional τ π s t)
    (ms : List (Move (MessageAdditional τ π s t))) : (moves s t).run a ms = a ↔ a.Kept ms := by
  cases s with
  | server => exact ServerAdditional.run_eq_self_iff a ms
  | client => exact ClientAdditional.run_eq_self_iff a ms

end MessageAdditional

/-! ## Messages -/

namespace Message

variable {s : Side} {t : MessageT s}

/-- `Message(Message&&)` and `operator=(Message&&)` move the base and the additional part. -/
def moves (s : Side) (t : MessageT s) : Moves (Message τ π s t) where
  construct memory other := {
    base := MessageBase.moves.construct memory.base other.base
    additional := (MessageAdditional.moves s t).construct memory.additional other.additional }
  assign this other := {
    base := MessageBase.moves.assign this.base other.base
    additional := (MessageAdditional.moves s t).assign this.additional other.additional }

theorem run_base (m : Message τ π s t) (ms : List (Move (Message τ π s t))) :
    ((moves s t).run m ms).base = MessageBase.moves.run m.base (ms.map (Move.map base)) := by
  refine run_member (fun x mv => ?_) m ms
  cases mv <;> rfl

theorem run_additional (m : Message τ π s t) (ms : List (Move (Message τ π s t))) :
    ((moves s t).run m ms).additional =
      (MessageAdditional.moves s t).run m.additional (ms.map (Move.map additional)) := by
  refine run_member (fun x mv => ?_) m ms
  cases mv <;> rfl

/-- The base and the additional part are kept. -/
structure Kept (m : Message τ π s t) (ms : List (Move (Message τ π s t))) : Prop where
  base : m.base.Kept (ms.map (Move.map base))
  additional : m.additional.Kept (ms.map (Move.map additional))

theorem run_eq_self_iff (m : Message τ π s t) (ms : List (Move (Message τ π s t))) :
    (moves s t).run m ms = m ↔ m.Kept ms := by
  have hbase := MessageBase.run_eq_self_iff m.base (ms.map (Move.map base))
  have hadd := MessageAdditional.run_eq_self_iff m.additional (ms.map (Move.map additional))
  rw [← run_base] at hbase
  rw [← run_additional] at hadd
  constructor
  · intro h
    exact ⟨hbase.mp (congrArg base h), hadd.mp (congrArg additional h)⟩
  · intro h
    have hb := hbase.mpr h.base
    have ha := hadd.mpr h.additional
    generalize (moves s t).run m ms = m' at ha hb
    obtain ⟨additional', base'⟩ := m'
    subst ha hb
    rfl

/-- The moved message has the fields of the message, and its handler is written alike. -/
structure Preserved (m m' : Message τ π s t) : Prop where
  fields : m' = m
  octets : ∀ (o : OsterFormats τ π) (order : Bool),
    (o.messageHandler s).serialize order (some ⟨t, m'⟩) = (o.messageHandler s).serialize order (some ⟨t, m⟩)

theorem preserved_iff {m m' : Message τ π s t} : Preserved m m' ↔ m' = m := by
  constructor
  · exact Preserved.fields
  · rintro rfl
    exact ⟨rfl, fun _ _ => rfl⟩

end Message

/-- **What moves preserve**: a base, a form, an additional part and a message are what they were, and the message is
written alike, exactly when the moves keep them. -/
theorem moved_eq_self_iff :
    (∀ (b : MessageBase) ms, MessageBase.moves.run b ms = b ↔ b.Kept ms) ∧
    (∀ (f : ExtractRequestForm π) ms, ExtractRequestForm.moves.run f ms = f ↔ f.Kept ms) ∧
    (∀ s t (a : MessageAdditional τ π s t) ms, (MessageAdditional.moves s t).run a ms = a ↔ a.Kept ms) ∧
    ∀ s t (m : Message τ π s t) ms, Message.Preserved m ((Message.moves s t).run m ms) ↔ m.Kept ms :=
  ⟨MessageBase.run_eq_self_iff, ExtractRequestForm.run_eq_self_iff, fun _ _ => MessageAdditional.run_eq_self_iff,
    fun _ _ m ms => Message.preserved_iff.trans (Message.run_eq_self_iff m ms)⟩

/-- A request for all data as text files. -/
def textRequest : Message UInt64 UInt64 .client ClientMsgT.dataRequest where
  additional := ({
    form := some {
      searchProps := {
        parameters := [], fromDate := 0, toDate := 0, position := none, gridType := none, center := none,
        fcstUnit := none, level := none }
      tSeparation := none
      fileFmt := some 1 } } : DataRequest UInt64)
  base := { dataSz := 43 }

/-- A part of a file with one octet. -/
def oneOctetPart : FilePart where
  status := .ready
  data := [1]

/-- A request with a file format is written differently once it was moved into the handler, a flag that was set is
lost, as is the data of a part that is assigned, and the status of a reply that is constructed. -/
theorem moved_not_kept :
    (reference.messageHandler .client).serialize true (some ⟨ClientMsgT.dataRequest,
        (Message.moves .client ClientMsgT.dataRequest).run textRequest
          [.construct textRequest, .construct textRequest]⟩) ≠
      (reference.messageHandler .client).serialize true (some ⟨ClientMsgT.dataRequest, textRequest⟩) ∧
    MessageBase.moves.run { msgMore := true } [.construct {}] ≠ { msgMore := true } ∧
    FilePart.moves.run oneOctetPart [.assign { status := .ready, data := [] }] ≠ oneOctetPart ∧
    IndexRefReply.moves.run ({ blocks := [], status := .ready } : IndexRefReply UInt64)
      [.construct { blocks := [], status := .inactive }] ≠ { blocks := [], status := .ready } := by
  decide

end Mashroom.Network
