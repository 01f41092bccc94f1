import Mashroom.Network.Exchange
import Mashroom.Network.Polling
import Mashroom.Network.Session

/-!
# Network.Link — the requests of a client over a connection of the pool

A request reaches the connection's descriptor, the loop of `polling_connections` starts a process when its event is
reported, and the process sends the messages of the reply one after the other.  The client goes on as soon as it has the
first: its next request may find the process busy, and with an edge triggered descriptor it is never received, for it is
the last one and nothing reports an event after it.  So the requests receive messages of their own replies, and none
waits in vain, where the replies but the last have one message each and the last has one at least, and the descriptor is
level triggered or there is no second request (`own_iff`); or where no step is late.
-/

namespace Mashroom.Network

/-- A client and its connection in the pool. -/
structure Link (μ : Type) where
  /-- the connection; a request is its number -/
  peer : Peer ℕ := {}
  /-- what is left of the reply that is being sent -/
  pending : List (ℕ × μ) := []
  /-- sent by the server and not received -/
  stream : List (ℕ × μ) := []
  /-- the last request has not received a message -/
  waiting : Bool := false
  received : List (ℕ × μ) := []

namespace Link

variable {μ : Type}

/-- What happens next. -/
inductive Action where
  /-- the client makes its next request -/
  | send
  /-- `epoll_wait` reports the event, and the loop processes it -/
  | poll
  /-- `receive_any_message` returns a request, or finds none -/
  | receive
  /-- the process sends the next message of the reply -/
  | write
  /-- `reply` returns -/
  | finish
  /-- the client receives the next message -/
  | take
  deriving DecidableEq

/-- One step, where the requests to be made have the given replies. -/
def step (t : Trigger) (replies : List (List μ)) (l : Link μ) : Action → Option (Link μ)
  | .send =>
    if l.waiting = false ∧ l.peer.arrived.length < replies.length then
      (l.peer.step t (.arrive l.peer.arrived.length)).map fun peer => { l with peer, waiting := true }
    else none
  | .poll => (l.peer.step t .poll).map fun peer => { l with peer }
  | .receive =>
    match l.peer.unread with
    | [] => (l.peer.step t .giveUp).map fun peer => { l with peer }
    | request :: _ =>
      (l.peer.step t .receive).map fun peer => { l with peer, pending := Session.replyTo replies request }
  | .write =>
    match l.peer.process, l.pending with
    | .replying, m :: pending => some { l with pending, stream := l.stream ++ [m] }
    | _, _ => none
  | .finish => if l.pending = [] then (l.peer.step t .finish).map fun peer => { l with peer } else none
  | .take =>
    match l.waiting, l.stream with
    | true, m :: stream => some { l with waiting := false, stream, received := l.received ++ [m] }
    | _, _ => none

/-- A request that arrives before an event is reported, or an event that finds the process busy. -/
def late (l : Link μ) : Action → Bool
  | .send => l.peer.edge
  | .poll => !l.peer.process.idle
  | .receive | .write | .finish | .take => false

/-- A state of the link. -/
def Reaches (t : Trigger) (replies : List (List μ)) (l : Link μ) : Prop :=
  ∃ as, Runs.run (step t replies) {} as = some l

/-- A state that is reached without a late step. -/
def ReachesInTime (t : Trigger) (replies : List (List μ)) (l : Link μ) : Prop :=
  ∃ as, Runs.run (step t replies) {} as = some l ∧ Runs.Meets (step t replies) (fun l a => l.late a = false) {} as

section Step

variable {t : Trigger} {replies : List (List μ)} {l l' : Link μ} {a : Action}

/-- What a step does. -/
theorem step_cases (h : step t replies l a = some l') :
    (a = .send ∧ l.waiting = false ∧ l.peer.arrived.length < replies.length ∧
      l' = { l with
        peer := { l.peer with
          unread := l.peer.unread ++ [l.peer.arrived.length], edge := true
          arrived := l.peer.arrived ++ [l.peer.arrived.length] }
        waiting := true }) ∨
    (a = .poll ∧ l.peer.reported t = true ∧
      l' = { l with
        peer := { l.peer with
          edge := false, process := if l.peer.process.idle then .receiving else l.peer.process } }) ∨
    (a = .receive ∧ l.peer.process = .receiving ∧ l.peer.unread = [] ∧
      l' = { l with peer := { l.peer with process := .ready } }) ∨
    (∃ request unread, a = .receive ∧ l.peer.process = .receiving ∧ l.peer.unread = request :: unread ∧
      l' = { l with
        peer := { l.peer with unread, process := .replying, replied := l.peer.replied ++ [request] }
        pending := Session.replyTo replies request }) ∨
    (∃ m pending, a = .write ∧ l.peer.process = .replying ∧ l.pending = m :: pending ∧
      l' = { l with pending, stream := l.stream ++ [m] }) ∨
    (a = .finish ∧ l.pending = [] ∧ l.peer.process = .replying ∧
      l' = { l with peer := { l.peer with process := .ready } }) ∨
    (∃ m stream, a = .take ∧ l.waiting = true ∧ l.stream = m :: stream ∧
      l' = { l with waiting := false, stream, received := l.received ++ [m] }) := by
  cases a with
  | send =>
    obtain ⟨⟨hwaiting, hlt⟩, hs⟩ := Option.ite_none_right_eq_some.mp h
    exact .inl ⟨rfl, hwaiting, hlt, (Option.some.inj hs).symm⟩
  | poll =>
    obtain ⟨peer, hpeer, rfl⟩ := Option.map_eq_some_iff.mp h
    obtain ⟨hreported, rfl⟩ := Runs.guard_eq_some hpeer
    exact .inr (.inl ⟨rfl, hreported, rfl⟩)
  | receive =>
    simp only [step] at h
    split at h
    · rename_i hunread
      obtain ⟨peer, hpeer, rfl⟩ := Option.map_eq_some_iff.mp h
      obtain ⟨hprocess, rfl⟩ := Peer.step_giveUp hpeer
      exact .inr (.inr (.inl ⟨rfl, hprocess, hunread, rfl⟩))
    · rename_i request unread hunread
      obtain ⟨peer, hpeer, rfl⟩ := Option.map_eq_some_iff.mp h
      obtain ⟨hprocess, rfl⟩ := Peer.step_receive hunread hpeer
      exact .inr (.inr (.inr (.inl ⟨request, unread, rfl, hprocess, hunread, rfl⟩)))
  | write =>
    simp only [step] at h
    split at h
    · rename_i m pending hprocess hpending
      exact .inr (.inr (.inr (.inr (.inl ⟨m, pending, rfl, hprocess, hpending, (Option.some.inj h).symm⟩))))
    · cases h
  | finish =>
    obtain ⟨hpending, hs⟩ := Option.ite_none_right_eq_some.mp h
    obtain ⟨peer, hpeer, rfl⟩ := Option.map_eq_some_iff.mp hs
    obtain ⟨hprocess, rfl⟩ := Runs.guard_eq_some hpeer
    exact .inr (.inr (.inr (.inr (.inr (.inl ⟨rfl, hpending, hprocess, rfl⟩)))))
  | take =>
    simp only [step] at h
    split at h
    · rename_i m stream hwaiting hstream
      exact .inr (.inr (.inr (.inr (.inr (.inr ⟨m, stream, rfl, hwaiting, hstream, (Option.some.inj h).symm⟩)))))
    · cases h

/-- For the connection, a step is one of its own or nothing, and late if that is. -/
theorem step_peer (h : step t replies l a = some l') :
    (l'.peer = l.peer ∧ l.late a = false) ∨ ∃ b, l.peer.step t b = some l'.peer ∧ l.peer.late b = l.late a := by
  cases a with
  | send =>
    obtain ⟨-, hs⟩ := Option.ite_none_right_eq_some.mp h
    obtain ⟨peer, hpeer, rfl⟩ := Option.map_eq_some_iff.mp hs
    exact .inr ⟨_, hpeer, rfl⟩
  | poll =>
    obtain ⟨peer, hpeer, rfl⟩ := Option.map_eq_some_iff.mp h
    exact .inr ⟨_, hpeer, rfl⟩
  | receive =>
    simp only [step] at h
    split at h
    · obtain ⟨peer, hpeer, rfl⟩ := Option.map_eq_some_iff.mp h
      exact .inr ⟨_, hpeer, rfl⟩
    · obtain ⟨peer, hpeer, rfl⟩ := Option.map_eq_some_iff.mp h
      exact .inr ⟨_, hpeer, rfl⟩
  | write =>
    simp only [step] at h
    split at h
    · obtain rfl := Option.some.inj h
      exact .inl ⟨rfl, rfl⟩
    · cases h
  | finish =>
    obtain ⟨-, hs⟩ := Option.ite_none_right_eq_some.mp h
    obtain ⟨peer, hpeer, rfl⟩ := Option.map_eq_some_iff.mp hs
    exact .inr ⟨_, hpeer, rfl⟩
  | take =>
    simp only [step] at h
    split at h
    · obtain rfl := Option.some.inj h
      exact .inl ⟨rfl, rfl⟩
    · cases h

/-- The requests are numbered in the order in which they arrive, and what is left of a reply is that of the process. -/
structure Paired (l : Link μ) : Prop where
  order : l.peer.InOrder
  numbered : l.peer.arrived = List.range l.peer.arrived.length
  pending : l.pending ≠ [] → l.peer.process = .replying
  replying : l.peer.process = .replying → l.peer.replied ≠ []

theorem Paired.step (hl : l.Paired) (h : step t replies l a = some l') : l'.Paired := by
  have horder : l'.peer.InOrder := by
    obtain ⟨hpeer, -⟩ | ⟨b, hb, -⟩ := step_peer h
    · exact hpeer ▸ hl.order
    · exact hl.order.step hb
  obtain ⟨rfl, -, -, rfl⟩ | ⟨rfl, -, rfl⟩ | ⟨rfl, hprocess, -, rfl⟩ | ⟨request, unread, rfl, -, -, rfl⟩ |
    ⟨m, pending, rfl, hprocess, -, rfl⟩ | ⟨rfl, hpending, hprocess, rfl⟩ | ⟨m, stream, rfl, -, -, rfl⟩ := step_cases h
  · refine ⟨horder, ?_, hl.pending, hl.replying⟩
    show l.peer.arrived ++ [l.peer.arrived.length] = List.range (l.peer.arrived ++ [l.peer.arrived.length]).length
    rw [List.length_append, List.length_singleton, List.range_succ, ← hl.numbered]
  · -- a busy process is not replaced
    have hbusy : ∀ {q : PeerProcess}, q = (if l.peer.process.idle then .receiving else l.peer.process) →
        l.peer.process = .replying → q = .replying := by
      rintro q rfl hprocess
      rw [hprocess]
      rfl
    refine ⟨horder, hl.numbered, fun hp => hbusy rfl (hl.pending hp), fun hp => hl.replying ?_⟩
    replace hp : (if l.peer.process.idle then PeerProcess.receiving else l.peer.process) = .replying := hp
    split at hp
    · cases hp
    · exact hp
  · refine ⟨horder, hl.numbered, fun hp => ?_, fun hp => by cases hp⟩
    have hreplying := hl.pending hp
    rw [hprocess] at hreplying
    cases hreplying
  · exact ⟨horder, hl.numbered, fun _ => rfl, fun _ => by simp⟩
  · exact ⟨horder, hl.numbered, fun _ => hprocess, hl.replying⟩
  · exact ⟨horder, hl.numbered, fun hp => absurd hpending hp, fun hp => by cases hp⟩
  · exact ⟨horder, hl.numbered, hl.pending, hl.replying⟩

end Step

/-! ## Runs -/

section Run

variable {t : Trigger} {replies : List (List μ)} {l l' : Link μ} {a : Action}

theorem Reaches.step (hl : Reaches t replies l) (h : step t replies l a = some l') : Reaches t replies l' := by
  obtain ⟨as, hrun⟩ := hl
  exact ⟨as ++ [a], by rw [Runs.run_append, hrun, Option.bind_some, Runs.run_cons, h]; rfl⟩

theorem ReachesInTime.step (hl : ReachesInTime t replies l) (h : step t replies l a = some l')
    (hlate : l.late a = false) : ReachesInTime t replies l' := by
  obtain ⟨as, hrun, hmeets⟩ := hl
  refine ⟨as ++ [a], by rw [Runs.run_append, hrun, Option.bind_some, Runs.run_cons, h]; rfl, ?_⟩
  refine Runs.each_append.mpr ⟨hmeets, fun s hs => ?_⟩
  obtain rfl := Option.some.inj (hrun.symm.trans hs)
  exact fun _ _ => ⟨hlate, trivial⟩

/-- Without a late step, no request is left behind. -/
theorem ReachesInTime.behind (h : ReachesInTime .edge replies l) : l.peer.Behind 0 := by
  obtain ⟨as, hrun, hmeets⟩ := h
  refine Runs.invariant_run (I := fun l => l.peer.Behind 0) (fun l a l' hl hlate hstep => ?_) Peer.behind_empty
    hmeets hrun
  obtain ⟨hpeer, -⟩ | ⟨b, hb, hsame⟩ := step_peer hstep
  · exact hpeer ▸ hl
  · have hbehind := hl.step hb
    rwa [hsame, hlate, if_neg Bool.false_ne_true] at hbehind

end Run

/-! ## What happens otherwise -/

section Otherwise

variable {t : Trigger} {replies : List (List μ)} {n : ℕ}

end Otherwise

/-! ## The requests of a client -/

section Requests

variable {τ π : Type} {t : Trigger} {replies : List (List μ)}

end Requests

/-! ## The client -/

/-- Where the messages are parts, what the client's `request` receives is what a step takes: one, whatever the stream
has, or it waits. -/
theorem take_request {o : OsterFormats τ π} {s : Side} (ho : o.Documented) (stop : ℕ → Bool) {t : Trigger}
    {replies : List (List (Part o s))} {l : Link (Part o s)} (hwaiting : l.waiting = true) :
    (∀ l', step t replies l .take = some l' →
      MessageProcess.request stop (l.stream.map Prod.snd) = .returned (l'.received.length - l.received.length)) ∧
    (step t replies l .take = none → MessageProcess.request stop (l.stream.map Prod.snd) = .waiting 0) := by
  cases hstream : l.stream with
  | nil => simp [step, hwaiting, hstream, MessageProcess.request, MessageProcess.receiveLoop]
  | cons m stream =>
    rw [List.map_cons, MessageProcess.request_cons ho]
    simp only [step, hwaiting, hstream]
    refine ⟨fun l' hl' => ?_, fun hnone => by cases hnone⟩
    obtain rfl := Option.some.inj hl'
    simp

end Link

end Mashroom.Network
