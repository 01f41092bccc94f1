import Mashroom.Lib.Runs

/-!
# Network.Polling — the requests of a connection and the events of its descriptor

The loop of `polling_connections` starts a process for a connection when an event is reported and no process of the
connection is busy; a process receives one request and replies to it.  After `after_accept` the descriptor is edge
triggered: an event is reported once for what has arrived since the last one.  A request that arrives before the event
of another is reported, and an event that is reported while the process is busy, have no process of their own, and
nothing makes up for it: the connection stays behind by as many requests (`unread_quiet_edge`).  Where `after_accept`
fails to set the options of the socket, the descriptor is level triggered, and no request is left
(`unread_quiet_level`).
-/

namespace Mashroom.Network

/-- How the descriptor is registered: `add_connection` with `HangUp|In`, `modify_connection` with `EdgeTrigger` too. -/
inductive Trigger where
  | level
  | edge
  deriving DecidableEq

/-- The process of a connection. -/
inductive PeerProcess where
  /-- `!found->second` -/
  | none
  /-- in `receive_any_message` -/
  | receiving
  /-- in the rest of `reply` -/
  | replying
  /-- `found->second->ready()` -/
  | ready
  deriving DecidableEq

/-- A process that lets another one start. -/
def PeerProcess.idle : PeerProcess → Bool
  | .none | .ready => true
  | .receiving | .replying => false

/-- A connection of the pool, with the requests that arrived and those replied to. -/
structure Peer (ρ : Type) where
  /-- arrived and not received -/
  unread : List ρ := []
  /-- something arrived since the last event was reported -/
  edge : Bool := false
  process : PeerProcess := .none
  arrived : List ρ := []
  replied : List ρ := []

namespace Peer

variable {ρ : Type}

/-- What happens next. -/
inductive Action (ρ : Type) where
  | arrive (request : ρ)
  /-- `epoll_wait` reports the event, and the loop processes it -/
  | poll
  /-- `receive_any_message` returns -/
  | receive
  /-- `receive` gives up, for nothing has arrived -/
  | giveUp
  /-- `reply` returns -/
  | finish

/-- There is an event to report. -/
def reported (p : Peer ρ) : Trigger → Bool
  | .edge => p.edge
  | .level => !p.unread.isEmpty

def step (t : Trigger) (p : Peer ρ) : Action ρ → Option (Peer ρ)
  | .arrive request =>
    some { p with unread := p.unread ++ [request], edge := true, arrived := p.arrived ++ [request] }
  | .poll =>
    if p.reported t then
      some { p with edge := false, process := if p.process.idle then .receiving else p.process }
    else none
  | .receive =>
    match p.process, p.unread with
    | .receiving, request :: unread =>
      some { p with unread, process := .replying, replied := p.replied ++ [request] }
    | _, _ => none
  | .giveUp =>
    match p.process, p.unread with
    | .receiving, [] => some { p with process := .ready }
    | _, _ => none
  | .finish => if p.process = .replying then some { p with process := .ready } else none

/-- Nothing is left to do until another request arrives. -/
def Quiet (t : Trigger) (p : Peer ρ) : Prop := p.reported t = false ∧ p.process.idle = true

/-- A request that arrives before an event is reported, or an event that finds the process busy. -/
def late (p : Peer ρ) : Action ρ → Bool
  | .arrive _ => p.edge
  | .poll => !p.process.idle
  | .receive | .giveUp | .finish => false

/-- How often that happens in a run. -/
def lateSteps (t : Trigger) : Peer ρ → List (Action ρ) → ℕ := Runs.count (step t) fun p a => if p.late a then 1 else 0

/-! ## One step -/

section Step

variable {t : Trigger} {p p' : Peer ρ} {a : Action ρ}

/-- What a step does. -/
theorem step_cases (h : step t p a = some p') :
    (∃ request, a = .arrive request ∧
      p' = { p with unread := p.unread ++ [request], edge := true, arrived := p.arrived ++ [request] }) ∨
    (a = .poll ∧ p.reported t = true ∧
      p' = { p with edge := false, process := if p.process.idle then .receiving else p.process }) ∨
    (∃ request unread, a = .receive ∧ p.process = .receiving ∧ p.unread = request :: unread ∧
      p' = { p with unread, process := .replying, replied := p.replied ++ [request] }) ∨
    (a = .giveUp ∧ p.process = .receiving ∧ p.unread = [] ∧ p' = { p with process := .ready }) ∨
    (a = .finish ∧ p.process = .replying ∧ p' = { p with process := .ready }) := by
  cases a with
  | arrive request => exact .inl ⟨request, rfl, (Option.some.inj h).symm⟩
  | poll =>
    obtain ⟨hr, hp⟩ := Runs.guard_eq_some h
    exact .inr (.inl ⟨rfl, hr, hp.symm⟩)
  | receive =>
    simp only [step] at h
    split at h
    · rename_i request unread hprocess hunread
      exact .inr (.inr (.inl ⟨request, unread, rfl, hprocess, hunread, (Option.some.inj h).symm⟩))
    · cases h
  | giveUp =>
    simp only [step] at h
    split at h
    · rename_i hprocess hunread
      exact .inr (.inr (.inr (.inl ⟨rfl, hprocess, hunread, (Option.some.inj h).symm⟩)))
    · cases h
  | finish =>
    obtain ⟨hprocess, hp⟩ := Runs.guard_eq_some h
    exact .inr (.inr (.inr (.inr ⟨rfl, hprocess, hp.symm⟩)))

theorem step_receive {request : ρ} {unread : List ρ} (hunread : p.unread = request :: unread)
    (h : step t p .receive = some p') :
    p.process = .receiving ∧ p' = { p with unread, process := .replying, replied := p.replied ++ [request] } := by
  cases hprocess : p.process <;> simp [step, hprocess, hunread] at h
  exact ⟨rfl, h.symm⟩

theorem step_giveUp (h : step t p .giveUp = some p') :
    p.process = .receiving ∧ p' = { p with process := .ready } := by
  cases hprocess : p.process <;> cases hunread : p.unread <;> simp [step, hprocess, hunread] at h
  exact ⟨rfl, h.symm⟩

/-- The requests are replied to in the order in which they arrived. -/
def InOrder (p : Peer ρ) : Prop := p.replied ++ p.unread = p.arrived

theorem inOrder_empty : ({} : Peer ρ).InOrder := rfl

theorem InOrder.step (hp : p.InOrder) (h : step t p a = some p') : p'.InOrder := by
  obtain ⟨request, rfl, rfl⟩ | ⟨rfl, -, rfl⟩ | ⟨request, unread, rfl, -, hunread, rfl⟩ | ⟨rfl, -, -, rfl⟩ |
    ⟨rfl, -, rfl⟩ := step_cases h
  · show p.replied ++ (p.unread ++ [request]) = p.arrived ++ [request]
    rw [← List.append_assoc, hp]
  · exact hp
  · show p.replied ++ [request] ++ unread = p.arrived
    rw [List.append_assoc, List.singleton_append, ← hunread]
    exact hp
  · exact hp
  · exact hp

/-- The event to come and the process that receives have a request each, and `n` requests have neither. -/
def Behind (n : ℕ) (p : Peer ρ) : Prop :=
  p.unread.length = n + (if p.edge then 1 else 0) + (if p.process = .receiving then 1 else 0)

theorem behind_empty : ({} : Peer ρ).Behind 0 := rfl

/-- With an edge triggered descriptor, the late steps leave a request each. -/
theorem Behind.step {n : ℕ} (hp : p.Behind n) (h : step .edge p a = some p') :
    p'.Behind (n + if p.late a then 1 else 0) := by
  obtain ⟨request, rfl, rfl⟩ | ⟨rfl, hedge, rfl⟩ | ⟨request, unread, rfl, hprocess, hunread, rfl⟩ |
    ⟨rfl, hprocess, hunread, rfl⟩ | ⟨rfl, hprocess, rfl⟩ := step_cases h
  · by_cases hedge : p.edge = true <;> simp [Behind, late, hedge] at hp ⊢ <;> omega
  · replace hedge : p.edge = true := hedge
    cases hprocess : p.process <;>
      simp [Behind, late, PeerProcess.idle, hedge, hprocess] at hp ⊢ <;> omega
  · simp only [Behind, hprocess, hunread, late, List.length_cons] at hp ⊢
    simp at hp ⊢
    omega
  · simp [Behind, hprocess, hunread] at hp
  · simp [Behind, hprocess, late] at hp ⊢
    exact hp

end Step

/-! ## Runs -/

section Run

variable {t : Trigger} {p p' : Peer ρ} {as : List (Action ρ)}

theorem inOrder_run (h : Runs.run (step t) ({} : Peer ρ) as = some p) : p.InOrder :=
  Runs.invariant_run (C := fun _ _ => True) (fun _ _ _ hp _ => hp.step) inOrder_empty (Runs.meets_of_mem (by simp) _) h

theorem behind_run {n : ℕ} (hp : p.Behind n) (h : Runs.run (step .edge) p as = some p') :
    p'.Behind (n + lateSteps .edge p as) :=
  Runs.counted_run (fun _ _ _ _ hp hstep => hp.step hstep) hp h

/-- Where nothing is left to do, every request that is left is one that a step was late for. -/
theorem Behind.quiet {n : ℕ} (hp : p.Behind n) (hq : p.Quiet .edge) : p.unread.length = n := by
  obtain ⟨hedge, hidle⟩ := hq
  have hprocess : p.process ≠ .receiving := fun hr => by
    rw [hr] at hidle
    cases hidle
  replace hedge : p.edge = false := hedge
  simpa [Behind, hedge, hprocess] using hp

/-- **Edge triggered**: where nothing is left to do, as many requests are left as steps were late, the last ones, and
the others were replied to in their order.  Whatever comes after that, the connection never makes up for them. -/
theorem unread_quiet_edge (h : Runs.run (step .edge) ({} : Peer ρ) as = some p) (hq : p.Quiet .edge) :
    p.replied ++ p.unread = p.arrived ∧ p.unread.length = lateSteps .edge {} as ∧
      ∀ bs p', Runs.run (step .edge) p bs = some p' → p'.Quiet .edge →
        p'.unread.length = p.unread.length + lateSteps .edge p bs := by
  have hbehind := behind_run behind_empty h
  have hlength := hbehind.quiet hq
  refine ⟨inOrder_run h, by rw [hlength, Nat.zero_add], ?_⟩
  intro bs p' h' hq'
  rw [hlength]
  exact (behind_run hbehind h').quiet hq'

/-- Two requests arrive before the event is reported; the second one is left, and the third one after it. -/
theorem unread_quiet_edge_twice :
    lateSteps .edge {} [.arrive 1, .arrive 2, .poll, .receive, .finish] = 1 ∧
      ∀ bs p', Runs.run (step .edge) ⟨[2], false, .ready, [1, 2], [1]⟩ bs = some p' → p'.Quiet .edge →
        p'.unread.length = 1 + lateSteps .edge ⟨[2], false, .ready, [1, 2], [1]⟩ bs := by
  have hrun : Runs.run (step .edge) ({} : Peer ℕ) [.arrive 1, .arrive 2, .poll, .receive, .finish] =
    some ⟨[2], false, .ready, [1, 2], [1]⟩ := rfl
  have h := unread_quiet_edge hrun ⟨rfl, rfl⟩
  exact ⟨h.2.1.symm, h.2.2⟩

/-- **Level triggered**: where nothing is left to do, all requests were replied to, in their order. -/
theorem unread_quiet_level (h : Runs.run (step .level) ({} : Peer ρ) as = some p) (hq : p.Quiet .level) :
    p.replied = p.arrived := by
  have horder : p.replied ++ p.unread = p.arrived := inOrder_run h
  have hunread : p.unread = [] := by simpa [Quiet, reported] using hq.1
  rw [← horder, hunread, List.append_nil]

/-- The same two requests: the event is reported again after the first reply. -/
theorem unread_quiet_level_twice : ∃ p : Peer ℕ, Runs.run (step .level) ({} : Peer ℕ)
    [.arrive 1, .arrive 2, .poll, .receive, .finish, .poll, .receive, .finish] = some p ∧ p.replied = p.arrived := by
  have hrun : Runs.run (step .level) ({} : Peer ℕ)
    [.arrive 1, .arrive 2, .poll, .receive, .finish, .poll, .receive, .finish] =
      some ⟨[], false, .ready, [1, 2], [1, 2]⟩ := rfl
  exact ⟨_, hrun, unread_quiet_level hrun ⟨rfl, rfl⟩⟩

end Run

end Peer

end Mashroom.Network
