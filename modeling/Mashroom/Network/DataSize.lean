import Mashroom.Network.Moved

/-!
# Network.DataSize — the size of the additional part that a message announces

The constructor of a message measures the additional part once.  `additional()` gives the part out to be changed, and
the moves may change it too, but nothing measures it again: what arrives in the handler has the size that is announced
exactly when the part has the size it had at first (`announced_iff`).
-/

namespace Mashroom.Network

variable {τ π : Type} {s : Side} {t : MessageT s}

/-- `Message(ADD_ARGS&&...)`, with the additional part made of the arguments. -/
def Message.ofAdditional (o : OsterFormats τ π) (a : MessageAdditional τ π s t) : Message τ π s t where
  additional := a
  base := { dataSz := (o.additional s t).serialSize a }

/-- The size in the base is the one of the additional part. -/
def Message.Announced (o : OsterFormats τ π) (m : Message τ π s t) : Prop :=
  m.base.dataSz = (o.additional s t).serialSize m.additional

/-- What is done with a message until it is sent. -/
inductive Act (τ π : Type) (s : Side) (t : MessageT s) where
  /-- a change through `additional()` -/
  | change (f : MessageAdditional τ π s t → MessageAdditional τ π s t)
  /-- `set_message_more()` -/
  | setMessageMore
  | move (mv : Move (Message τ π s t))

namespace Act

def apply (m : Message τ π s t) : Act τ π s t → Message τ π s t
  | .change f => { m with additional := f m.additional }
  | .setMessageMore => { m with base := m.base.setMore true }
  | .move mv => (Message.moves s t).apply m mv

/-- What happens to the additional part. -/
def applyAdditional (a : MessageAdditional τ π s t) : Act τ π s t → MessageAdditional τ π s t
  | .change f => f a
  | .setMessageMore => a
  | .move mv => (MessageAdditional.moves s t).apply a (mv.map Message.additional)

/-- A message after what was done with it. -/
def run (m : Message τ π s t) (acts : List (Act τ π s t)) : Message τ π s t := acts.foldl apply m

/-- An additional part after what was done with its message. -/
def runAdditional (a : MessageAdditional τ π s t) (acts : List (Act τ π s t)) : MessageAdditional τ π s t :=
  acts.foldl applyAdditional a

theorem apply_additional (m : Message τ π s t) (act : Act τ π s t) :
    (act.apply m).additional = act.applyAdditional m.additional := by
  cases act with
  | change f => rfl
  | setMessageMore => rfl
  | move mv => cases mv <;> rfl

theorem apply_dataSz (m : Message τ π s t) (act : Act τ π s t) : (act.apply m).base.dataSz = m.base.dataSz := by
  cases act with
  | change f => rfl
  | setMessageMore => rfl
  | move mv => cases mv <;> rfl

theorem run_additional (m : Message τ π s t) (acts : List (Act τ π s t)) :
    (run m acts).additional = runAdditional m.additional acts := by
  induction acts generalizing m with
  | nil => rfl
  | cons act acts ih =>
    show (run (act.apply m) acts).additional = runAdditional (act.applyAdditional m.additional) acts
    rw [ih, apply_additional]

/-- The size that is announced stays what it was. -/
theorem run_dataSz (m : Message τ π s t) (acts : List (Act τ π s t)) : (run m acts).base.dataSz = m.base.dataSz := by
  induction acts generalizing m with
  | nil => rfl
  | cons act acts ih =>
    show (run (act.apply m) acts).base.dataSz = m.base.dataSz
    rw [ih, apply_dataSz]

end Act

/-- What `send_message` serialises of a message that is built, changed and moved by `acts`, and moved into the handler
then. -/
def handled (o : OsterFormats τ π) (a : MessageAdditional τ π s t) (acts : List (Act τ π s t))
    (memory : Message τ π s t) : Message τ π s t :=
  Act.run (Message.ofAdditional o a) (acts ++ [.move (.construct memory)])

/-- **When the size is announced**: the message in the handler announces the size of its additional part exactly when
the part has there the size that it had when the message was built; and a message that is built in the handler, of an
additional part, always does. -/
theorem announced_iff (o : OsterFormats τ π) :
    (∀ (s : Side) (t : MessageT s) (a : MessageAdditional τ π s t) acts memory, (handled o a acts memory).Announced o ↔
      (o.additional s t).serialSize (Act.runAdditional a (acts ++ [.move (.construct memory)])) =
        (o.additional s t).serialSize a) ∧
    ∀ (s : Side) (t : MessageT s) (a : MessageAdditional τ π s t), (Message.ofAdditional o a).Announced o := by
  constructor
  · intro s t a acts memory
    rw [Message.Announced, handled, Act.run_dataSz, Act.run_additional]
    exact eq_comm
  · intro s t a
    rfl

/-! ### The reply with references -/

/-- `add_block` of the additional part. -/
def IndexRefReply.addBlock (block : BaseIndexResult τ) (r : IndexRefReply τ) : IndexRefReply τ :=
  { r with blocks := r.blocks ++ [some block] }

/-- `reply` to a request for references: an empty message, to which a block is added for every result, moved into
`send_message`. -/
def replyIndexRef (memory : IndexRefReply τ) (results : List (List (FoundSublimedDataInfo τ))) :
    List (Act τ π .server ServerMsgT.dataReplyIndexRef) :=
  results.map (fun data => .change (IndexRefReply.addBlock { data })) ++
    [.move (.construct { additional := memory, base := {} })]

/-- A reply without blocks. -/
def emptyReply : IndexRefReply UInt64 where
  blocks := []
  status := .ready

/-- A reply with one block announces the twelve octets of a reply with none. -/
theorem replyIndexRef_not_announced :
    ¬ (handled reference (s := .server) (t := ServerMsgT.dataReplyIndexRef) emptyReply
      (replyIndexRef emptyReply [[]]) { additional := emptyReply, base := {} }).Announced reference := by
  unfold Message.Announced
  decide

end Mashroom.Network
