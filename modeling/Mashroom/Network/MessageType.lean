import Mashroom.Network.Handler

/-!
# Network.MessageType — the type of a message in a buffer

The handler of a side is written as the index of its alternative, which is one more than the value of the enumerator,
and then the message.  `message_type_from_buffer` adds one to the index where `received_message_type` takes one off: it
gives the type two places after that of the message, or an error behind the last one (`messageTypeFromBuffer_eq`).
-/

namespace Mashroom.Network

open Format

/-- `SerializationEC`: what `deserialize` returns, and `UNMATCHED_TYPE`. -/
inductive SerializationEC where
  | deserialize
  | unmatchedType
  deriving DecidableEq

/-- `MESSAGE_ID<S>::count()`, the value of the last enumerator and one. -/
def messageCount : Side → ℕ
  | .server => ServerMsgT.enumerators.idxOf .dataReplyExtract + 1
  | .client => ClientMsgT.enumerators.idxOf .transaction + 1

section Code

variable {τ π : Type} (o : OsterFormats τ π)

/-- `static_cast<Message_t<S>>` of a number, against the count. -/
def messageTypeOf (s : Side) (value : ℕ) : Except SerializationEC (MessageT s) :=
  if messageCount s ≤ value then .error .unmatchedType
  else
    match (enumerators s)[value]? with
    | some t => .ok t
    | none => .error .unmatchedType

/-- `message_type_from_buffer`, of a buffer that is long enough for an index. -/
def messageTypeFromBuffer (s : Side) (order : Bool) (buffer : List UInt8) : Except SerializationEC (MessageT s) :=
  match o.nat64.deserialize order buffer with
  | none => .error .deserialize
  | some result => messageTypeOf s ((result + 1) % 2 ^ 64)

end Code

section Laws

variable {τ π : Type} {o : OsterFormats τ π} {s : Side} {order : Bool} {i : ℕ} {buffer : List UInt8}

theorem messageCount_eq (s : Side) : messageCount s = (enumerators s).length := by
  cases s <;> rfl

theorem nodup_enumerators (s : Side) : (enumerators s).Nodup := by
  cases s <;> decide

/-- Both sides have two types of messages at least, and not many. -/
theorem messageCount_bounds (s : Side) : 1 < messageCount s ∧ messageCount s < 2 ^ 8 := by
  cases s <;> decide

theorem messageTypeOf_eq_ok {value : ℕ} {t : MessageT s} :
    messageTypeOf s value = .ok t ↔ (enumerators s)[value]? = some t := by
  have hcount := messageCount_eq s
  unfold messageTypeOf
  by_cases h : messageCount s ≤ value
  · rw [if_pos h, List.getElem?_eq_none (hcount ▸ h)]
    simp
  · rw [if_neg h, List.getElem?_eq_getElem (by omega)]
    simp

theorem messageTypeOf_error_iff {value : ℕ} : (∃ e, messageTypeOf s value = .error e) ↔ messageCount s ≤ value := by
  have hcount := messageCount_eq s
  unfold messageTypeOf
  by_cases h : messageCount s ≤ value
  · simp [h]
  · rw [if_neg h, List.getElem?_eq_getElem (by omega)]
    simp [h]

/-- An index of eight octets is a number of 64 bits. -/
theorem lt_of_index (h : o.nat64.deserialize order buffer = some i) : i < 2 ^ 64 := by
  obtain ⟨n, -, rfl⟩ := Option.map_eq_some_iff.mp h
  exact n.toNat_lt

/-- The index at the front of a handler with a message. -/
theorem index_of_handler (ho : o.Documented) {t : MessageT s} (m : Message τ π s t) :
    o.nat64.deserialize order ((o.messageHandler s).serialize order (some ⟨t, m⟩)) =
      some ((enumerators s).idxOf t + 1) := by
  have hindex := List.idxOf_lt_length_iff.mpr (mem_listMessage t)
  have hlength := listMessage_length_lt s
  have hlaw : o.nat64.Law ((listMessage s).idxOf t + 1) := ho.nat64 (by omega)
  rw [← listMessage_eq]
  exact hlaw.reads order _

/-- The type that comes out is two places after that of the message. -/
theorem messageTypeFromBuffer_eq (ho : o.Documented) {t : MessageT s} (m : Message τ π s t) :
    messageTypeFromBuffer o s order ((o.messageHandler s).serialize order (some ⟨t, m⟩)) =
      messageTypeOf s ((enumerators s).idxOf t + 2) := by
  have hindex := List.idxOf_lt_length_iff.mpr (mem_listMessage t)
  have hlength := listMessage_length_lt s
  have hsmall : ((enumerators s).idxOf t + 1 + 1) % 2 ^ 64 = (enumerators s).idxOf t + 2 := by
    rw [← listMessage_eq]
    exact Nat.mod_eq_of_lt (by omega)
  rw [messageTypeFromBuffer, index_of_handler ho m]
  simp only [hsmall]

/-- No other place has the same type. -/
theorem messageTypeOf_ne {t : MessageT s} {k : ℕ} (hk : k ≠ (enumerators s).idxOf t) : messageTypeOf s k ≠ .ok t := by
  intro h
  obtain ⟨hlt, hget⟩ := List.getElem?_eq_some_iff.mp (messageTypeOf_eq_ok.mp h)
  exact hk (by rw [← hget, (nodup_enumerators s).idxOf_getElem])

theorem messageTypeFromBuffer_error_iff (hi : o.nat64.deserialize order buffer = some i) :
    (∃ e, messageTypeFromBuffer o s order buffer = .error e) ↔ messageCount s ≤ (i + 1) % 2 ^ 64 := by
  rw [messageTypeFromBuffer, hi]
  exact messageTypeOf_error_iff

/-- **The type of a message is never what is read** from its buffer.  An index that no message has is rejected unless it
is zero or all ones, for which the types at one and at zero are read. -/
theorem messageTypeFromBuffer_iff (ho : o.Documented) (s : Side) (order : Bool) :
    (∀ (t : MessageT s) (m : Message τ π s t), m.Fits →
      messageTypeFromBuffer o s order ((o.messageHandler s).serialize order (some ⟨t, m⟩)) ≠ .ok t) ∧
    ∀ buffer i, o.nat64.deserialize order buffer = some i → (i = 0 ∨ (listMessage s).length < i) →
      ((∃ e, messageTypeFromBuffer o s order buffer = .error e) ↔ i ≠ 0 ∧ i ≠ 2 ^ 64 - 1) := by
  refine ⟨fun t m _ => ?_, fun buffer i hi hout => ?_⟩
  · rw [messageTypeFromBuffer_eq ho m]
    exact messageTypeOf_ne (by omega)
  · obtain ⟨hlow, hhigh⟩ := messageCount_bounds s
    have hlt := lt_of_index hi
    rw [listMessage_eq, ← messageCount_eq] at hout
    rw [messageTypeFromBuffer_error_iff hi]
    by_cases hones : i = 2 ^ 64 - 1
    · subst hones
      rw [show (2 ^ 64 - 1 + 1) % 2 ^ 64 = 0 by decide]
      omega
    · rw [Nat.mod_eq_of_lt (by omega)]
      omega

end Laws

theorem messageTypeFromBuffer_reference :
    (∀ (t : MessageT .server) (m : Message UInt64 UInt64 .server t), m.Fits →
      messageTypeFromBuffer reference .server true
        ((reference.messageHandler .server).serialize true (some ⟨t, m⟩)) ≠ .ok t) ∧
    ∀ buffer i, reference.nat64.deserialize true buffer = some i → (i = 0 ∨ (listMessage .server).length < i) →
      ((∃ e, messageTypeFromBuffer reference .server true buffer = .error e) ↔ i ≠ 0 ∧ i ≠ 2 ^ 64 - 1) :=
  messageTypeFromBuffer_iff reference_documented .server true

/-- The buffer of an error is taken for one of a part of a file. -/
theorem messageTypeFromBuffer_error : errorMessage.Fits ∧
    messageTypeFromBuffer reference .server true
      ((reference.messageHandler .server).serialize true (some ⟨ServerMsgT.error, errorMessage⟩)) =
        .ok ServerMsgT.dataReplyFilepart ∧
    (Except.ok ServerMsgT.dataReplyFilepart : Except SerializationEC ServerMsgT) ≠ .ok ServerMsgT.error := by
  refine ⟨⟨trivial, by decide⟩, ?_, by simp⟩
  rw [messageTypeFromBuffer_eq reference_documented errorMessage]
  rfl

end Mashroom.Network
