import Mashroom.Network.Moved
import Mashroom.Network.Stream

/-!
# Network.Exchange — a message in several parts

The sender marks all parts but the last with `set_message_more()`, and the client receives until `has_more()` is false.
The mark is lost in the handler of the sender, whose base is move constructed, and the receiver does not look for it:
the lambda `has_more_msg` is never called.  So `has_more()` is false in every state, and follows the marks of an
exchange exactly when there are none (`followsFlags_iff`).
-/

namespace Mashroom.Network

variable {τ π : Type}

/-! ## The sender -/

/-- A message that is sent: as it was built, and moved into the handler. -/
structure Part (o : OsterFormats τ π) (s : Side) where
  t : MessageT s
  message : Message τ π s t
  /-- the moves into the argument of `send_message` -/
  moves : List (Move (Message τ π s t)) := []
  /-- where `emplace_message` constructs the message -/
  memory : Message τ π s t
  fits : ((Message.moves s t).run message (moves ++ [.construct memory])).Fits
  size_lt : (o.messageHandler s).serialSize
    (some ⟨t, (Message.moves s t).run message (moves ++ [.construct memory])⟩) < 2 ^ 64

namespace Part

variable {o : OsterFormats τ π} {s : Side}

/-- `message_more()` of the message as it was built. -/
def messageMore (p : Part o s) : Bool := p.message.base.msgMore

/-- The handler that is sent. -/
def handler (p : Part o s) : MessageHandler τ π s :=
  some ⟨p.t, (Message.moves s p.t).run p.message (p.moves ++ [.construct p.memory])⟩

theorem handler_law (ho : o.Documented) (p : Part o s) : (o.messageHandler s).Law p.handler :=
  ho.messageHandler fun m hm => by
    obtain rfl := Option.some.inj hm
    exact p.fits

/-- What `__send__` writes, in network order. -/
def wire (o : OsterFormats τ π) (s : Side) : Wire (Part o s) where
  serialize p := (o.messageHandler s).serialize true p.handler
  serialSize p := (o.messageHandler s).serialSize p.handler
  serializeLength n := o.nat64.serialize true n
  deserializeLength buf := o.nat64.deserialize true buf

/-- The formats are what the loops of `send` and `receive` rely on, if a `uint64_t` has eight octets. -/
theorem wire_documented (ho : o.Documented) (h8 : ∀ n, o.u64.serialSize n = 8) : (wire o s).Documented where
  serialSize p := ((p.handler_law ho).size true).symm
  fits p := p.size_lt
  length n := ((ho.u64 _).size true).trans (h8 _)
  roundTrip n hn := by
    have hread := (ho.nat64 hn).reads true []
    rwa [List.append_nil] at hread

end Part

/-! ## The receiver -/

/-- What `MessageProcess` keeps of the messages of side `s`. -/
structure MessageProcess (τ π : Type) (s : Side) where
  recvHmsg : MessageHandler τ π s := none
  hasMore : Bool := false

namespace MessageProcess

variable {s : Side} (o : OsterFormats τ π)

/-- `receive_any_message`, with what was received.  Without a value it returns an error.  `has_more_msg` is defined
there, and not called. -/
def receiveAnyMessage (p : MessageProcess τ π s) (received : Option (List UInt8)) : Option (MessageProcess τ π s) := do
  let buffer ← received
  let h ← (o.messageHandler s).deserialize true buffer
  return { p with recvHmsg := h }

/-- Calls of `receive_any_message`, one after the other. -/
def receiveAll (p : MessageProcess τ π s) (received : List (Option (List UInt8))) : Option (MessageProcess τ π s) :=
  received.foldlM (receiveAnyMessage o) p

/-- How the client's `request` ends, after how many messages. -/
inductive Outcome where
  | returned (n : ℕ)
  /-- it throws -/
  | failed (n : ℕ)
  /-- there is nothing to receive -/
  | waiting (n : ℕ)
  deriving DecidableEq

/-- The loop of `request`, after `n` messages.  `stop n` says whether it was asked to stop by then. -/
def receiveLoop (stop : ℕ → Bool) : ℕ → MessageProcess τ π s → List (Option (List UInt8)) → Outcome
  | n, _, [] => .waiting n
  | n, p, buffer :: buffers =>
    match p.receiveAnyMessage o buffer with
    | none => .failed n
    | some p' =>
      if p'.hasMore then
        if stop (n + 1) then .returned (n + 1) else receiveLoop stop (n + 1) p' buffers
      else .returned (n + 1)

variable {o}

/-- The client's `request`, where the parts are what there is to receive. -/
def request (stop : ℕ → Bool) (parts : List (Part o s)) : Outcome :=
  receiveLoop o stop 0 ({} : MessageProcess τ π s) (parts.map (some ∘ (Part.wire o s).serialize))

/-- A part is received as it was sent. -/
theorem receive_part (ho : o.Documented) (p : MessageProcess τ π s) (part : Part o s) :
    p.receiveAnyMessage o (some ((Part.wire o s).serialize part)) = some { p with recvHmsg := part.handler } := by
  have hread := (part.handler_law ho).reads true []
  rw [List.append_nil] at hread
  show ((o.messageHandler s).deserialize true ((o.messageHandler s).serialize true part.handler)).bind _ = _
  rw [hread]
  rfl

/-- The last part is the one that the handler holds, and the flag is what it was. -/
theorem receiveAll_parts (ho : o.Documented) (p : MessageProcess τ π s) (parts : List (Part o s)) :
    p.receiveAll o (parts.map (some ∘ (Part.wire o s).serialize)) =
      some { p with recvHmsg := parts.getLast?.elim p.recvHmsg Part.handler } := by
  induction parts generalizing p with
  | nil => rfl
  | cons part parts ih =>
    show (p.receiveAnyMessage o (some ((Part.wire o s).serialize part))).bind
      (fun p' => p'.receiveAll o (parts.map (some ∘ (Part.wire o s).serialize))) = _
    rw [receive_part ho, Option.bind_some, ih]
    cases parts with
    | nil => rfl
    | cons _ _ => rfl

/-- Whatever the marks are, the client receives one message. -/
theorem request_cons (ho : o.Documented) (stop : ℕ → Bool) (part : Part o s) (parts : List (Part o s)) :
    request stop (part :: parts) = .returned 1 := by
  rw [request, List.map_cons, Function.comp_apply, receiveLoop, receive_part ho]
  rfl

end MessageProcess

/-! ## The exchange -/

section Exchange

variable {s : Side} {o : OsterFormats τ π}

/-- In every state of every run in which parts were received, the last of them can be received as a message, and
`has_more()` is the mark with which it was built. -/
def FollowsFlags (o : OsterFormats τ π) (parts : List (Part o s)) : Prop :=
  ∀ c, Steps (Part.wire o s) { pending := parts } c → ∀ n part, c.received.length = n + 1 → parts[n]? = some part →
    ∃ p, MessageProcess.receiveAll o {} c.received = some p ∧ p.recvHmsg = part.handler ∧
      p.hasMore = part.messageMore

/-- What the receiver has after `n + 1` parts. -/
theorem receiveAll_received (ho : o.Documented) (h8 : ∀ n, o.u64.serialSize n = 8) {parts : List (Part o s)}
    {c : Connection (Part o s)} (hs : Steps (Part.wire o s) { pending := parts } c) {n : ℕ} {part : Part o s}
    (hn : c.received.length = n + 1) (hp : parts[n]? = some part) :
    MessageProcess.receiveAll o {} c.received = some { recvHmsg := part.handler } := by
  have hle : n + 1 ≤ parts.length := (List.getElem?_eq_some_iff.mp hp).1
  have hlast : (parts.take (n + 1)).getLast? = some part := by
    rw [List.getLast?_eq_getElem?, List.length_take, Nat.min_eq_left hle, Nat.add_sub_cancel,
      List.getElem?_take_of_lt (Nat.lt_succ_self n), hp]
  rw [(steps_inv (Part.wire_documented ho h8) hs).received_eq, hn, MessageProcess.receiveAll_parts ho, hlast]
  rfl

/-- A marked part is received without its mark. -/
theorem not_followsFlags (ho : o.Documented) (h8 : ∀ n, o.u64.serialSize n = 8) {parts : List (Part o s)}
    {part : Part o s} (hp : part ∈ parts) (hmore : part.messageMore = true) : ¬ FollowsFlags o parts := by
  intro h
  obtain ⟨n, hn⟩ := List.getElem?_of_mem hp
  have hlt : n < parts.length := (List.getElem?_eq_some_iff.mp hn).1
  obtain ⟨c, hs, hlen⟩ := exists_received (Part.wire_documented ho h8) (Nat.succ_le_of_lt hlt)
  obtain ⟨p, hp', -, hflag⟩ := h c hs n part hlen hn
  rw [receiveAll_received ho h8 hs hlen hn] at hp'
  obtain rfl := Option.some.inj hp'
  rw [hmore] at hflag
  cases hflag

/-- **When the flag is followed**: `has_more()` is the mark of the part received last, in every state of every run,
exactly when no part is marked; and the client stops after the last part exactly when there is one part. -/
theorem followsFlags_iff (ho : o.Documented) (h8 : ∀ n, o.u64.serialSize n = 8) (parts : List (Part o s)) :
    (FollowsFlags o parts ↔ ∀ part ∈ parts, part.messageMore = false) ∧
    ∀ stop, MessageProcess.request stop parts = .returned parts.length ↔ parts.length = 1 := by
  refine ⟨⟨?_, ?_⟩, ?_⟩
  · intro h part hp
    rw [← Bool.not_eq_true]
    exact fun hmore => not_followsFlags ho h8 hp hmore h
  · intro h c hs n part hn hp
    have hflag := h part (List.mem_of_getElem? hp)
    exact ⟨_, receiveAll_received ho h8 hs hn hp, rfl, hflag.symm⟩
  · intro stop
    cases parts with
    | nil => simp [MessageProcess.request, MessageProcess.receiveLoop]
    | cons part parts =>
      rw [MessageProcess.request_cons ho, MessageProcess.Outcome.returned.injEq]
      exact eq_comm

end Exchange

/-! ### Two parts -/

/-- An error as a part, marked or not. -/
def errorPart (more : Bool) : Part reference .server where
  t := ServerMsgT.error
  message := { additional := ({ status := .ready, err := 1 } : ErrorReply), base := { dataSz := 5, msgMore := more } }
  memory := { additional := ({ status := .ready } : ErrorReply), base := {} }
  fits := ⟨trivial, by cases more <;> decide⟩
  size_lt := by cases more <;> decide

theorem reference_u64_size (n : UInt64) : reference.u64.serialSize n = 8 := rfl

theorem followsFlags_iff_onePart :
    (FollowsFlags reference [errorPart false] ↔ ∀ part ∈ [errorPart false], part.messageMore = false) ∧
    ∀ stop, MessageProcess.request stop [errorPart false] = .returned 1 ↔ [errorPart false].length = 1 :=
  followsFlags_iff reference_documented reference_u64_size [errorPart false]

/-- Of two parts the first is marked; `has_more()` is false after it, and the client does not receive the second. -/
theorem twoParts_not_followed :
    ¬ FollowsFlags reference [errorPart true, errorPart false] ∧
    MessageProcess.request (fun _ => false) [errorPart true, errorPart false] = .returned 1 :=
  ⟨not_followsFlags reference_documented reference_u64_size List.mem_cons_self rfl,
    MessageProcess.request_cons reference_documented _ _ _⟩

end Mashroom.Network
