import Mashroom.Network.Answers
import Mashroom.Lib.Runs

/-!
# Network.Session — the requests of a client and the stream of replies

A client makes one request after the other, and each receives one message of the stream, for `has_more()` is false after
the first (`MessageProcess.request_cons`).  What a reply has beyond one message is left in the stream, for the requests
that follow; and a reply without a message is made up for by none.  Where the replies but the last have one message
each, and the last has one at least, the requests that are served receive a message of their own reply each
(`Singly.own`, `Singly.not_starved`).  When a request is served is left open here: `Link` has the connection in the pool
between the two.
-/

namespace Mashroom.Network

/-- A client and the server at the two ends of a connection.  Messages are kept with the number of the request that they
reply to. -/
structure Session (μ : Type) where
  /-- the requests sent -/
  sent : ℕ := 0
  /-- the requests replied to -/
  served : ℕ := 0
  /-- the last request has not received a message -/
  waiting : Bool := false
  /-- sent by the server and not received -/
  stream : List (ℕ × μ) := []
  received : List (ℕ × μ) := []

namespace Session

variable {μ : Type}

/-- What happens next. -/
inductive Action where
  | send
  /-- the server replies to the next request -/
  | serve
  | receive
  deriving DecidableEq

/-- The reply to a request. -/
def replyTo (replies : List (List μ)) (k : ℕ) : List (ℕ × μ) := ((replies[k]?).getD []).map fun m => (k, m)

/-- The replies to the first `n` requests. -/
def repliesTo (replies : List (List μ)) (n : ℕ) : List (ℕ × μ) := (List.range n).flatMap (replyTo replies)

/-- One step, where the requests to be made have the given replies. -/
def step (replies : List (List μ)) (s : Session μ) : Action → Option (Session μ)
  | .send =>
    if s.waiting = false ∧ s.sent < replies.length then some { s with sent := s.sent + 1, waiting := true } else none
  | .serve =>
    if s.served < s.sent then
      some { s with served := s.served + 1, stream := s.stream ++ replyTo replies s.served }
    else none
  | .receive =>
    match s.waiting, s.stream with
    | true, m :: stream => some { s with waiting := false, stream, received := s.received ++ [m] }
    | _, _ => none

/-- A state of the session. -/
def Reaches (replies : List (List μ)) (s : Session μ) : Prop := ∃ as, Runs.run (step replies) {} as = some s

/-! ## One step -/

section Step

variable {replies : List (List μ)} {s s' : Session μ} {a : Action}

/-- What a step does. -/
theorem step_cases (h : step replies s a = some s') :
    (a = .send ∧ s.waiting = false ∧ s.sent < replies.length ∧ s' = { s with sent := s.sent + 1, waiting := true }) ∨
    (a = .serve ∧ s.served < s.sent ∧
      s' = { s with served := s.served + 1, stream := s.stream ++ replyTo replies s.served }) ∨
    (∃ m stream, a = .receive ∧ s.waiting = true ∧ s.stream = m :: stream ∧
      s' = { s with waiting := false, stream, received := s.received ++ [m] }) := by
  cases a with
  | send =>
    obtain ⟨⟨hwaiting, hlt⟩, hs⟩ := Runs.guard_eq_some h
    exact .inl ⟨rfl, hwaiting, hlt, hs.symm⟩
  | serve =>
    obtain ⟨hlt, hs⟩ := Runs.guard_eq_some h
    exact .inr (.inl ⟨rfl, hlt, hs.symm⟩)
  | receive =>
    simp only [step] at h
    split at h
    · rename_i m stream hwaiting hstream
      exact .inr (.inr ⟨m, stream, rfl, hwaiting, hstream, (Option.some.inj h).symm⟩)
    · cases h

theorem repliesTo_succ (n : ℕ) : repliesTo replies (n + 1) = repliesTo replies n ++ replyTo replies n := by
  rw [repliesTo, List.range_succ, List.flatMap_append, List.flatMap_singleton]
  rfl

/-- What was received and what is in the stream are the replies, in their order; a request waits or has received. -/
structure InStep (replies : List (List μ)) (s : Session μ) : Prop where
  messages : s.received ++ s.stream = repliesTo replies s.served
  requests : s.sent = s.received.length + if s.waiting then 1 else 0
  served : s.served ≤ s.sent
  sent : s.sent ≤ replies.length

theorem InStep.step (hs : InStep replies s) (h : step replies s a = some s') : InStep replies s' := by
  obtain ⟨hmessages, hrequests, hserved, hsent⟩ := hs
  obtain ⟨rfl, hwaiting, hlt, rfl⟩ | ⟨rfl, hlt, rfl⟩ | ⟨m, stream, rfl, hwaiting, hstream, rfl⟩ := step_cases h
  · refine ⟨hmessages, ?_, Nat.le_succ_of_le hserved, hlt⟩
    simpa [hwaiting] using hrequests
  · refine ⟨?_, hrequests, hlt, hsent⟩
    show s.received ++ (s.stream ++ replyTo replies s.served) = _
    rw [repliesTo_succ, ← List.append_assoc, hmessages]
  · refine ⟨?_, ?_, hserved, hsent⟩
    · show s.received ++ [m] ++ stream = _
      rw [List.append_assoc, List.singleton_append, ← hstream, hmessages]
    · simpa [hwaiting] using hrequests

theorem Reaches.step (hs : Reaches replies s) (h : step replies s a = some s') : Reaches replies s' := by
  obtain ⟨as, hrun⟩ := hs
  refine ⟨as ++ [a], ?_⟩
  rw [Runs.run_append, hrun, Option.bind_some, Runs.run_cons, h]
  rfl

end Step

/-! ## Which replies keep in step -/

section Singly

variable {replies : List (List μ)}

/-- All replies but the last have one message, and the last has one at least. -/
def Singly (replies : List (List μ)) : Prop :=
  ∀ k reply, replies[k]? = some reply → reply.length = 1 ∨ k + 1 = replies.length ∧ reply ≠ []

/-- So far, each message is the reply to the request with its number. -/
theorem repliesTo_of_ones {n : ℕ} (h : ∀ k < n, ∃ m, replies[k]? = some [m]) :
    (repliesTo replies n).length = n ∧ ∀ (k : ℕ) (m : ℕ × μ), (repliesTo replies n)[k]? = some m → m.1 = k := by
  induction n with
  | zero => simp [repliesTo]
  | succ n ih =>
    obtain ⟨hlength, htag⟩ := ih fun k hk => h k (Nat.lt_succ_of_lt hk)
    obtain ⟨m, hm⟩ := h n (Nat.lt_succ_self n)
    have hreply : replyTo replies n = [(n, m)] := by rw [replyTo, hm, Option.getD_some, List.map_singleton]
    rw [repliesTo_succ, hreply]
    refine ⟨by rw [List.length_append, hlength, List.length_singleton], fun k m' hk => ?_⟩
    by_cases hlt : k < n
    · exact htag k m' (by rwa [List.getElem?_append_left (by omega)] at hk)
    · rw [List.getElem?_append_right (by omega), hlength] at hk
      obtain ⟨hi, hk⟩ := List.getElem?_eq_some_iff.mp hk
      rw [List.length_singleton] at hi
      have hkn : k = n := by omega
      subst hkn
      simp only [Nat.sub_self, List.getElem_cons_zero] at hk
      rw [← hk]

/-- The replies up to the last. -/
theorem Singly.ones (h : Singly replies) {n : ℕ} (hn : n < replies.length) :
    ∀ k < n, ∃ m, replies[k]? = some [m] := by
  intro k hk
  have hreply : replies[k]? = some replies[k] := List.getElem?_eq_getElem (by omega)
  obtain hone | ⟨hlast, -⟩ := h k _ hreply
  · obtain ⟨m, hm⟩ := List.length_eq_one_iff.mp hone
    exact ⟨m, by rw [hreply, hm]⟩
  · omega

/-- The messages have the numbers of their requests, and there are enough of them. -/
theorem Singly.repliesTo (h : Singly replies) {n : ℕ} (hn : n ≤ replies.length) :
    n ≤ (Session.repliesTo replies n).length ∧
      ∀ (k : ℕ) (m : ℕ × μ), k < n → (Session.repliesTo replies n)[k]? = some m → m.1 = k := by
  cases n with
  | zero => simp
  | succ n =>
    obtain ⟨hlength, htag⟩ := repliesTo_of_ones (h.ones (Nat.lt_of_succ_le hn))
    have hreply : replies[n]? = some replies[n] := List.getElem?_eq_getElem _
    have hne : 1 ≤ replies[n].length := by
      obtain hone | ⟨-, hne⟩ := h n _ hreply
      · rw [hone]
      · exact List.length_pos_iff.mpr hne
    have hto : replyTo replies n = replies[n].map fun m => (n, m) := by rw [replyTo, hreply, Option.getD_some]
    rw [repliesTo_succ, hto]
    refine ⟨by rw [List.length_append, hlength, List.length_map]; omega, fun k m hk hm => ?_⟩
    by_cases hlt : k < n
    · exact htag k m (by rwa [List.getElem?_append_left (by omega)] at hm)
    · rw [List.getElem?_append_right (by omega)] at hm
      obtain ⟨m', -, rfl⟩ := List.mem_map.mp (List.mem_of_getElem? hm)
      show n = k
      omega

end Singly

/-! ## The replies of the server -/

variable {τ π : Type}

/-- What the client gets of a reply: the messages that go out. -/
def delivered (month : π) (c : Call τ π) : List (ServerMessage τ) :=
  ((reply month c).sent.filter fun s => s.result = ErrorValue.none).map Sent.message

/-- The reply to a request for references has one message at most. -/
theorem delivered_indexRef (month : π) {c : Call τ π} {m : Message τ π .client ClientMsgT.indexRef}
    (h : c.received = some (some ⟨ClientMsgT.indexRef, m⟩)) :
    (delivered month c).length = if c.found.isSome ∧ c.indexRefResult = ErrorValue.none then 1 else 0 := by
  rw [delivered, reply_of_received month h, replyTo_indexRef]
  cases hf : c.found with
  | none => simp
  | some found =>
    rw [Run.call_some_bind, sendMessage_bind]
    by_cases hresult : c.indexRefResult = ErrorValue.none <;> simp [hresult]

/-- So a session of requests for references that are all found keeps in step. -/
theorem singly_indexRefs (month : π) {calls : List (Call τ π)} (h : ∀ c ∈ calls, c.found.isSome ∧
    c.indexRefResult = ErrorValue.none ∧
      ∃ m : Message τ π .client ClientMsgT.indexRef, c.received = some (some ⟨ClientMsgT.indexRef, m⟩)) :
    Singly (calls.map (delivered month)) := by
  intro k reply hk
  rw [List.getElem?_map] at hk
  obtain ⟨c, hc, rfl⟩ := Option.map_eq_some_iff.mp hk
  obtain ⟨hfound, hresult, m, hm⟩ := h c (List.mem_of_getElem? hc)
  exact .inl (by rw [delivered_indexRef month hm, if_pos ⟨hfound, hresult⟩])

/-- A status, an index or a transaction has no reply. -/
theorem delivered_of_unanswered (month : π) {c : Call τ π} {t : ClientMsgT} {m : Message τ π .client t}
    (h : c.received = some (some ⟨t, m⟩)) (ht : t ≠ .dataRequest) (ht' : t ≠ .indexRef) : delivered month c = [] := by
  rw [delivered, reply_of_received month h]
  cases t with
  | dataRequest => exact absurd rfl ht
  | indexRef => exact absurd rfl ht'
  | index => rfl
  | serverStatus => rfl
  | transaction => rfl

/-- So a session with one of them does not. -/
theorem not_singly_of_unanswered (month : π) {calls : List (Call τ π)} {c : Call τ π} (hc : c ∈ calls) {t : ClientMsgT}
    {m : Message τ π .client t} (h : c.received = some (some ⟨t, m⟩)) (ht : t ≠ .dataRequest) (ht' : t ≠ .indexRef) :
    ¬ Singly (calls.map (delivered month)) := by
  intro hsingly
  obtain ⟨k, hk⟩ := List.getElem?_of_mem hc
  have hreply : (calls.map (delivered month))[k]? = some [] := by
    rw [List.getElem?_map, hk, Option.map_some, delivered_of_unanswered month h ht ht']
  obtain hone | ⟨-, hne⟩ := hsingly k [] hreply
  · cases hone
  · exact hne rfl

end Session

end Mashroom.Network
