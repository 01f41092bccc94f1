import Mashroom.Network.FileParts

/-!
# Network.Answers — which requests are answered

A request is answered when a reply of its kind goes out, or an error with the code that occurred.  `send_error` always
reports the same code, which is none of those that occur, so that only replies of the kind count (`answered_iff`).
-/

namespace Mashroom.Network

/-! ## What a turn sends -/

section Turns

variable {τ : Type}

/-- An error as `send_error` makes it, or a part of a file. -/
inductive Sent.Follows : Sent τ → Prop where
  | error (result : UInt8) : Follows ⟨.error errorReply, result⟩
  | part (part : FilePart) (result : UInt8) : Follows ⟨.dataReplyFilepart part, result⟩

theorem follows_partsFrom {memory : List UInt8} {hash : UInt64} {result : ℕ → UInt8} (offset n : ℕ) :
    ∀ s ∈ (partsFrom memory hash result offset n : Run τ Unit).sent, s.Follows := by
  by_cases h : 8912 ≤ memory.length
  · induction n generalizing offset with
    | zero => simp [partsFrom]
    | succ n ih =>
      rw [partsFrom_succ h]
      intro s hs
      obtain rfl | hs := List.mem_cons.mp hs
      · exact .part _ _
      · exact ih (offset + 1) s hs
  · cases n with
    | zero => simp [partsFrom]
    | succ n => simp [partsFrom_outside (by omega : memory.length < 8912)]

namespace Turn

variable {t : Turn}

/-- After an announcement the loop goes on exactly when the mapping is read to its end and the directory is removed. -/
theorem afterAnnounced_spec (ha : t.Announces) {size : UInt64} (hs : t.fileSize = some size) :
    (∀ s ∈ (t.afterAnnounced size : Run τ Bool).sent, s.Follows) ∧
      ((t.afterAnnounced size : Run τ Bool).result = .ok true ∧ t.GoesOn ∨
        (t.afterAnnounced size : Run τ Bool).result = .ok false ∧ ¬ t.GoesOn ∨
        (∃ e, (t.afterAnnounced size : Run τ Bool).result = .error e) ∧ ¬ t.GoesOn) := by
  by_cases hm : t.Maps
  · obtain ⟨octets, ho⟩ := Option.isSome_iff_exists.mp hm.mapped
    have hgoes : t.GoesOn ↔
        t.removed = some () ∧ (size.toNat = 0 ∨ 8912 ≤ (octets.take size.toNat).length) := by
      constructor
      · rintro ⟨-, size', hs', hr | ⟨-, hr, hread⟩⟩
        · exact absurd ha.extractResult hr
        · obtain rfl := Option.some.inj (hs.symm.trans hs')
          exact ⟨hr, hread octets ho⟩
      · rintro ⟨hr, hread⟩
        refine ⟨ha.isZip, size, hs, .inr ⟨hm, hr, fun octets' ho' => ?_⟩⟩
        obtain rfl := Option.some.inj (ho.symm.trans ho')
        exact hread
    by_cases hread : size.toNat = 0 ∨ 8912 ≤ (octets.take size.toNat).length
    · rw [afterAnnounced_of_readable hm ho hread, hgoes]
      refine ⟨follows_partsFrom 0 _, ?_⟩
      cases hr : t.removed with
      | none => exact .inr (.inr ⟨⟨_, rfl⟩, by simp⟩)
      | some u => exact .inl ⟨rfl, rfl, hread⟩
    · rw [not_or, not_le] at hread
      rw [afterAnnounced_of_outside hm ho hread.1 hread.2, hgoes]
      refine ⟨by simp, .inr (.inr ⟨⟨_, rfl⟩, ?_⟩)⟩
      rintro ⟨-, h0 | hlen⟩
      · exact hread.1 h0
      · omega
  · rw [afterAnnounced_of_not_maps hm]
    refine ⟨?_, .inr (.inl ⟨rfl, ?_⟩)⟩
    · intro s hs
      obtain rfl := List.mem_singleton.mp hs
      exact .error _
    · rintro ⟨-, -, -, hr | ⟨hmaps, -⟩⟩
      · exact hr ha.extractResult
      · exact hm hmaps

/-- What is sent in a turn: the announcement, which goes out when the file is announced, and what may follow it. -/
theorem mem_reply {s : Sent τ} (h : s ∈ (t.reply : Run τ Bool).sent) :
    s.Follows ∨ ∃ file, s.message = .dataReplyExtract file ∧ (s.result = ErrorValue.none → t.Announces) := by
  obtain ⟨-, -, hr | hr⟩ | ⟨-, hg, size, hr⟩ | ⟨ha, size, hsize, hr⟩ := reply_cases (τ := τ) t <;> rw [hr] at h
  · simp at h
  · obtain rfl := List.mem_singleton.mp h
    exact .inl (.error _)
  · obtain rfl := List.mem_singleton.mp h
    obtain ⟨hz, size', hs', -⟩ := hg
    exact .inr ⟨_, rfl, fun hresult => ⟨hz, by rw [hs']; rfl, hresult⟩⟩
  · obtain rfl | h := List.mem_cons.mp h
    · exact .inr ⟨_, rfl, fun _ => ha⟩
    · exact .inl ((afterAnnounced_spec ha hsize).1 s h)

theorem exists_announcement (h : t.Announces) :
    ∃ s ∈ (t.reply : Run τ Bool).sent, s.result = ErrorValue.none ∧ s.message.type = .dataReplyExtract := by
  obtain ⟨size, hs⟩ := Option.isSome_iff_exists.mp h.fileSize
  rw [reply_of_announced h hs]
  exact ⟨_, List.mem_cons_self, rfl, rfl⟩

end Turn

theorem mem_replyFiles_cons {t : Turn} {ts : List Turn} {s : Sent τ} :
    s ∈ (replyFiles (t :: ts) : Run τ Unit).sent ↔
      s ∈ (t.reply : Run τ Bool).sent ∨ t.GoesOn ∧ s ∈ (replyFiles ts : Run τ Unit).sent := by
  have hresult : (t.reply : Run τ Bool).result = .ok true ∧ t.GoesOn ∨
      (t.reply : Run τ Bool).result = .ok false ∧ ¬ t.GoesOn ∨
      (∃ e, (t.reply : Run τ Bool).result = .error e) ∧ ¬ t.GoesOn := by
    obtain ⟨-, hg, hr | hr⟩ | ⟨-, hg, size, hr⟩ | ⟨ha, size, hsize, hr⟩ := Turn.reply_cases (τ := τ) t <;> rw [hr]
    · exact .inr (.inr ⟨⟨_, rfl⟩, hg⟩)
    · exact .inr (.inl ⟨rfl, hg⟩)
    · exact .inl ⟨rfl, hg⟩
    · exact (Turn.afterAnnounced_spec ha hsize).2
  rw [replyFiles_cons]
  obtain ⟨hr, hg⟩ | ⟨hr, hg⟩ | ⟨⟨e, hr⟩, hg⟩ := hresult
  · rw [Run.bind_of_ok hr]
    simp [hg]
  · rw [Run.bind_of_ok hr]
    simp [hg]
  · rw [Run.bind_of_error hr]
    simp [hg]

/-- An announcement goes out exactly for the files announced. -/
theorem exists_announcement_iff (ts : List Turn) :
    (∃ s ∈ (replyFiles ts : Run τ Unit).sent, s.result = ErrorValue.none ∧ s.message.type = .dataReplyExtract) ↔
      ∃ t, Announced ts t := by
  induction ts with
  | nil =>
    refine iff_of_false (by simp [replyFiles]) ?_
    rintro ⟨t, before, after, h, -⟩
    simp at h
  | cons t ts ih =>
    simp only [mem_replyFiles_cons, announced_cons]
    constructor
    · rintro ⟨s, hs | ⟨hg, hs⟩, hresult, htype⟩
      · obtain hs | ⟨file, -, ha⟩ := Turn.mem_reply hs
        · cases hs <;> simp [ServerMessage.type] at htype
        · exact ⟨t, .inl ⟨rfl, ha hresult⟩⟩
      · obtain ⟨u, hu⟩ := ih.mp ⟨s, hs, hresult, htype⟩
        exact ⟨u, .inr ⟨hg, hu⟩⟩
    · rintro ⟨u, ⟨rfl, ha⟩ | ⟨hg, hu⟩⟩
      · obtain ⟨s, hs, hresult, htype⟩ := Turn.exists_announcement (τ := τ) ha
        exact ⟨s, .inl hs, hresult, htype⟩
      · obtain ⟨s, hs, hresult, htype⟩ := ih.mpr ⟨u, hu⟩
        exact ⟨s, .inr ⟨hg, hs⟩, hresult, htype⟩

/-- Every error has the code of `send_error`. -/
theorem error_replyFiles {ts : List Turn} {s : Sent τ} (h : s ∈ (replyFiles ts : Run τ Unit).sent) {a : ErrorReply}
    (ha : s.message = .error a) : a = errorReply := by
  induction ts with
  | nil => simp [replyFiles] at h
  | cons t ts ih =>
    obtain h | ⟨-, h⟩ := mem_replyFiles_cons.mp h
    · obtain h | ⟨file, hfile, -⟩ := Turn.mem_reply h
      · cases h with
        | error result => exact (ServerMessage.error.inj ha).symm
        | part part result => simp at ha
      · rw [hfile] at ha
        simp at ha
    · exact ih h

end Turns

/-! ## What is an answer -/

/-- The data reply to a type of request.  A transaction has none. -/
def matching : ClientMsgT → Option ServerMsgT
  | .dataRequest => some .dataReplyExtract
  | .serverStatus => some .serverStatus
  | .index => some .dataReplyIndex
  | .indexRef => some .dataReplyIndexRef
  | .transaction => none

/-- An error of a turn, for which `reply` has the code of an internal error. -/
def Turn.Fails (t : Turn) : Prop := t.isZip = some false ∨ t.opened = false ∨ t.mapped = none ∨ t.advised = false

section Answers

variable {τ π : Type} {month : π}

/-- An error that occurs in the reply to a request for data. -/
inductive Extraction.Occurs (month : π) (e : Extraction) (request : DataRequest π) : UInt8 → Prop where
  | form : initExtract month request.form ≠ ErrorValue.none → Occurs month e request (initExtract month request.form)
  | created : e.created = some false → Occurs month e request ErrorValue.internalError
  | path (err : UInt8) (inPath : List (List UInt8)) : e.addInPath = some (err, inPath) → err ≠ ErrorValue.none →
      Occurs month e request err
  | turn (t : Turn) : t ∈ e.turns → t.Fails → Occurs month e request ErrorValue.internalError

/-- An error that occurs in the reply to a request.  The other requests are not processed with an error code. -/
def Call.Occurs (month : π) (c : Call τ π) : (t : ClientMsgT) → Message τ π .client t → UInt8 → Prop
  | .dataRequest, m, err => c.extraction.Occurs month m.additional err
  | _, _, _ => False

/-- What went out is a reply of the kind of the request, or an error with a code that occurred. -/
def Sent.Answers (month : π) (c : Call τ π) (t : ClientMsgT) (m : Message τ π .client t) (s : Sent τ) : Prop :=
  s.result = ErrorValue.none ∧
    (matching t = some s.message.type ∨ ∃ a, s.message = .error a ∧ c.Occurs month t m a.err)

/-- The request gets an answer. -/
def Answered (month : π) (c : Call τ π) (t : ClientMsgT) (m : Message τ π .client t) (r : Run τ Unit) : Prop :=
  ∃ s ∈ r.sent, s.Answers month c t m

/-- The requests that get one: for references when the reply goes out, and for data when an announcement does. -/
def Call.Answerable (month : π) (c : Call τ π) : (t : ClientMsgT) → Message τ π .client t → Prop
  | .indexRef, _ => c.found.isSome ∧ c.indexRefResult = ErrorValue.none
  | .dataRequest, m => c.extraction.Ready month m.additional ∧ ∃ t, Announced c.extraction.turns t
  | _, _ => False

theorem initExtract_ne_invalidArgument (form : Option (ExtractRequestForm π)) :
    initExtract month form ≠ ErrorValue.invalidArgument := by
  cases form with
  | none => simp [initExtract, ErrorValue.undefinedValue, ErrorValue.invalidArgument]
  | some form =>
    unfold initExtract setByRequest setOffsetTimeInterval
    cases h : form.tSeparation <;> simp [h, ErrorValue.none, ErrorValue.invalidArgument]

theorem Extraction.addInPath_ne_invalidArgument {e : Extraction} {err : UInt8} {inPath : List (List UInt8)}
    (h : e.addInPath = some (err, inPath)) : err ≠ ErrorValue.invalidArgument := by
  rintro rfl
  unfold Extraction.addInPath at h
  cases he : e.existing <;> cases hr : e.regularFile <;> cases hd : e.directory <;>
    simp [he, hr, hd, ErrorValue.none, ErrorValue.fileX1DontExists, ErrorValue.x1IsNotRegularFileOrDirectory,
      ErrorValue.invalidArgument] at h
  · split_ifs at h <;> simp_all
  · split_ifs at h <;> simp_all

/-- The code of `send_error` is not one of those that occur. -/
theorem not_occurs_invalidArgument (c : Call τ π) (t : ClientMsgT) (m : Message τ π .client t) :
    ¬ c.Occurs month t m ErrorValue.invalidArgument := by
  cases t with
  | dataRequest =>
    intro h
    change c.extraction.Occurs month m.additional ErrorValue.invalidArgument at h
    generalize herr : ErrorValue.invalidArgument = err at h
    cases h with
    | form _ => exact initExtract_ne_invalidArgument _ herr.symm
    | created _ => exact absurd herr (by decide)
    | path err inPath hpath _ => exact Extraction.addInPath_ne_invalidArgument hpath herr.symm
    | turn t _ _ => exact absurd herr (by decide)
  | serverStatus => exact id
  | index => exact id
  | indexRef => exact id
  | transaction => exact id

/-- With the errors of `send_error` only, a reply of the kind has to go out. -/
theorem answered_iff_matching {c : Call τ π} {t : ClientMsgT} {m : Message τ π .client t} {r : Run τ Unit}
    (herror : ∀ s ∈ r.sent, ∀ a, s.message = .error a → a = errorReply) :
    Answered month c t m r ↔ ∃ s ∈ r.sent, s.result = ErrorValue.none ∧ matching t = some s.message.type := by
  constructor
  · rintro ⟨s, hs, hresult, hmatch | ⟨a, ha, hoccurs⟩⟩
    · exact ⟨s, hs, hresult, hmatch⟩
    · rw [herror s hs a ha] at hoccurs
      exact absurd hoccurs (not_occurs_invalidArgument c t m)
  · rintro ⟨s, hs, hresult, hmatch⟩
    exact ⟨s, hs, hresult, .inl hmatch⟩

theorem answered_dataRequest_iff (c : Call τ π) (m : Message τ π .client ClientMsgT.dataRequest) :
    Answered month c .dataRequest m (replyData month c.extraction m.additional) ↔
      c.extraction.Ready month m.additional ∧ ∃ t, Announced c.extraction.turns t := by
  by_cases hready : c.extraction.Ready month m.additional
  · rw [replyData_of_ready hready, answered_iff_matching fun s hs a ha => error_replyFiles hs ha,
      ← exists_announcement_iff (τ := τ)]
    simp [hready, matching, eq_comm]
  · refine iff_of_false ?_ fun h => hready h.1
    obtain h | h := replyData_of_not_ready (τ := τ) hready
    · rw [h, answered_iff_matching (by simp)]
      simp
    · rw [h, answered_iff_matching (by simp)]
      simp [matching, ServerMessage.type]

theorem answered_indexRef_iff (c : Call τ π) (m : Message τ π .client ClientMsgT.indexRef) :
    Answered month c .indexRef m (replyTo month c (some ⟨ClientMsgT.indexRef, m⟩) .indexRef) ↔
      c.found.isSome ∧ c.indexRefResult = ErrorValue.none := by
  rw [replyTo_indexRef]
  cases hf : c.found with
  | none =>
    rw [Run.call_none_bind, answered_iff_matching (by simp)]
    simp
  | some found =>
    rw [Run.call_some_bind, sendMessage_bind, answered_iff_matching (by simp)]
    simp [matching, ServerMessage.type]

/-- **Which requests are answered**, one after the other: those for references, when the reply goes out, and those for
data, when a file is announced. -/
theorem answered_iff (month : π) (calls : List (Call τ π)) :
    (∀ c ∈ calls, ∀ (t : ClientMsgT) (m : Message τ π .client t), c.received = some (some ⟨t, m⟩) →
        Answered month c t m (reply month c)) ↔
      ∀ c ∈ calls, ∀ (t : ClientMsgT) (m : Message τ π .client t), c.received = some (some ⟨t, m⟩) →
        c.Answerable month t m := by
  refine forall₂_congr fun c _ => forall₃_congr fun t m hc => ?_
  rw [reply_of_received month hc]
  cases t with
  | dataRequest => exact answered_dataRequest_iff c m
  | indexRef => exact answered_indexRef_iff c m
  | index =>
    rw [replyTo_index]
    exact iff_of_false (by rintro ⟨s, hs, -⟩; simp at hs) id
  | serverStatus => exact iff_of_false (by rintro ⟨s, hs, -⟩; cases hs) id
  | transaction => exact iff_of_false (by rintro ⟨s, hs, -⟩; cases hs) id

end Answers

/-- A request for the index of nothing. -/
def indexMessage : Message UInt64 UInt64 .client ClientMsgT.index where
  additional := ({ parameters := [], infoLimits := none, lastUpdate := 0 } : IndexRequest UInt64)
  base := {}

/-- The call that receives it. -/
def indexCall : Call UInt64 UInt64 :=
  { dataCall with received := some (some ⟨ClientMsgT.index, indexMessage⟩) }

/-- A request for data whose directory is not made: the error that is sent is another one. -/
def noDirectoryCall : Call UInt64 UInt64 :=
  { dataCall with extraction := { dataCall.extraction with created := some false } }

/-- Nothing is sent for the index, and for the data an error other than the one that occurred. -/
theorem not_answered :
    ¬ (∀ c ∈ [indexCall], ∀ (t : ClientMsgT) (m : Message UInt64 UInt64 .client t),
        c.received = some (some ⟨t, m⟩) → Answered 1 c t m (reply 1 c)) ∧
    ¬ ∀ c ∈ [noDirectoryCall], ∀ (t : ClientMsgT) (m : Message UInt64 UInt64 .client t),
        c.received = some (some ⟨t, m⟩) → Answered 1 c t m (reply 1 c) := by
  constructor
  · intro h
    obtain ⟨s, hs, -⟩ := h indexCall (by simp) .index indexMessage rfl
    exact List.not_mem_nil hs
  · intro h
    obtain ⟨s, hs, -, hmatch | ⟨a, ha, hoccurs⟩⟩ := h noDirectoryCall (by simp) .dataRequest textRequest rfl
    · obtain rfl : s = ⟨.error errorReply, ErrorValue.none⟩ := List.mem_singleton.mp hs
      exact absurd hmatch (by decide)
    · obtain rfl : s = ⟨.error errorReply, ErrorValue.none⟩ := List.mem_singleton.mp hs
      obtain rfl := ServerMessage.error.inj ha
      exact not_occurs_invalidArgument noDirectoryCall .dataRequest textRequest hoccurs

end Mashroom.Network
