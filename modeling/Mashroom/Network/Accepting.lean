import Mashroom.Lib.Runs

/-!
# Network.Accepting — the loop that accepts connections

`launch` registers the listening socket edge triggered, and the loop of `accept` accepts one connection each time an
event is reported.  A client that connects before the event of another is reported, and one that `::accept` does not
take, has no event of its own: the backlog stays longer by it, and the events of later clients go to earlier ones
(`backlog_waiting`).  A `std::runtime_error` is caught for the event, any other exception ends the loop.
-/

namespace Mashroom.Network

/-- What is thrown, as far as the handlers tell it apart. -/
inductive AcceptException where
  | runtimeError
  | invalidArgument
  | logicError
  deriving DecidableEq

/-- `errno` after `::accept`, as `__accept_throw__` tells it apart. -/
inductive AcceptErrno where
  | eagain
  | eintr
  | econnaborted
  | emfile
  | enfile
  | eperm
  | ebadf
  | enobufs
  | enomem
  | enotsock
  | eopnotsupp
  | eproto
  | efault
  | einval
  /-- none of the cases of the switch -/
  | other
  deriving DecidableEq

/-- What a server may override. -/
inductive AcceptHook where
  | connectionAborted
  | processMaxFdReached
  | systemMaxFdReached
  deriving DecidableEq

/-- `CommonServer::__accept_throw__`: the hooks it calls, and what it throws.  There is no `break` after the case of
`EMFILE`. -/
def acceptThrow : AcceptErrno → List AcceptHook × Option AcceptException
  | .eagain | .eintr | .eperm | .other => ([], none)
  | .econnaborted => ([.connectionAborted], none)
  | .emfile => ([.processMaxFdReached, .systemMaxFdReached], none)
  | .enfile => ([.systemMaxFdReached], none)
  | .ebadf | .enobufs | .enomem | .enotsock | .eopnotsupp | .eproto | .efault => ([], some .runtimeError)
  | .einval => ([], some .invalidArgument)

/-- What `::accept` answers. -/
inductive AcceptAnswer where
  /-- a socket, and what `add_connection` or `after_accept` throws for it -/
  | socket (thrown : Option AcceptException)
  /-- `-1`, where the first client of the backlog may be gone -/
  | error (errno : AcceptErrno) (dropped : Bool)

/-- What gets past the handler of `std::runtime_error`. -/
def AcceptAnswer.thrown : AcceptAnswer → Option AcceptException
  | .socket thrown => thrown
  | .error errno _ => (acceptThrow errno).2

/-- The handler of `std::runtime_error` goes on with the next event, that of `std::exception` returns `false`. -/
def AcceptAnswer.ends (answer : AcceptAnswer) : Bool :=
  match answer.thrown with
  | none | some .runtimeError => false
  | some .invalidArgument | some .logicError => true

/-- The first client of the backlog is taken from it. -/
def AcceptAnswer.takes : AcceptAnswer → Bool
  | .socket _ => true
  | .error _ dropped => dropped

/-- The listening socket and the loop. -/
structure Acceptor (κ : Type) where
  /-- connected and not taken from the queue of the listening socket -/
  backlog : List κ := []
  /-- a client connected since the last event was reported -/
  edge : Bool := false
  /-- the loop has not returned -/
  running : Bool := true
  connected : List κ := []
  /-- taken from the backlog, by a socket or not -/
  taken : List (κ × Bool) := []

namespace Acceptor

variable {κ : Type}

/-- What happens next. -/
inductive Action (κ : Type) where
  | connect (client : κ)
  /-- the event is reported, and `::accept` answers -/
  | accept (answer : AcceptAnswer)

def step (s : Acceptor κ) : Action κ → Option (Acceptor κ)
  | .connect client =>
    some { s with backlog := s.backlog ++ [client], edge := true, connected := s.connected ++ [client] }
  | .accept answer =>
    match s.running, s.edge, s.backlog with
    | true, true, client :: backlog =>
      let s := { s with edge := false, running := !answer.ends }
      if answer.takes then
        some { s with backlog, taken := s.taken ++ [(client, answer matches .socket _)] }
      else some s
    | _, _, _ => none

/-- A client that connects before an event is reported, or an event for which none is taken. -/
def late (s : Acceptor κ) : Action κ → Bool
  | .connect _ => s.edge
  | .accept answer => !answer.takes

/-- How often that happens in a run. -/
def lateSteps : Acceptor κ → List (Action κ) → ℕ := Runs.count step fun s a => if s.late a then 1 else 0

/-! ## One step -/

section Step

variable {s s' : Acceptor κ} {a : Action κ}

/-- What a step does. -/
theorem step_cases (h : step s a = some s') :
    (∃ client, a = .connect client ∧
      s' = { s with backlog := s.backlog ++ [client], edge := true, connected := s.connected ++ [client] }) ∨
    (∃ answer client backlog, a = .accept answer ∧ s.running = true ∧ s.edge = true ∧
      s.backlog = client :: backlog ∧
      ((answer.takes = true ∧ s' = { s with
          edge := false, running := !answer.ends, backlog,
          taken := s.taken ++ [(client, answer matches .socket _)] }) ∨
        answer.takes = false ∧ s' = { s with edge := false, running := !answer.ends })) := by
  cases a with
  | connect client => exact .inl ⟨client, rfl, (Option.some.inj h).symm⟩
  | accept answer =>
    simp only [step] at h
    split at h
    · rename_i client backlog hrunning hedge hbacklog
      refine .inr ⟨answer, client, backlog, rfl, hrunning, hedge, hbacklog, ?_⟩
      split at h
      · rename_i htakes
        exact .inl ⟨htakes, (Option.some.inj h).symm⟩
      · rename_i htakes
        exact .inr ⟨by simpa using htakes, (Option.some.inj h).symm⟩
    · cases h

/-- The loop does not begin again. -/
theorem running_of_step (h : step s a = some s') (hrunning : s'.running = true) : s.running = true := by
  obtain ⟨client, rfl, rfl⟩ | ⟨answer, client, backlog, rfl, hs, -⟩ := step_cases h
  · exact hrunning
  · exact hs

/-- Where the loop is over, clients do no more than connect. -/
theorem step_of_not_running (h : step s a = some s') (hrunning : s.running = false) :
    ∃ client, a = .connect client ∧
      s' = { s with backlog := s.backlog ++ [client], edge := true, connected := s.connected ++ [client] } := by
  obtain hconnect | ⟨answer, client, backlog, rfl, hs, -⟩ := step_cases h
  · exact hconnect
  · rw [hrunning] at hs
    cases hs

/-- The clients are taken in the order in which they connected. -/
def InOrder (s : Acceptor κ) : Prop := s.taken.map Prod.fst ++ s.backlog = s.connected

theorem inOrder_empty : ({} : Acceptor κ).InOrder := rfl

theorem InOrder.step (hs : s.InOrder) (h : step s a = some s') : s'.InOrder := by
  unfold InOrder at hs ⊢
  obtain ⟨client, rfl, rfl⟩ | ⟨answer, client, backlog, rfl, -, -, hbacklog, ⟨-, rfl⟩ | ⟨-, rfl⟩⟩ := step_cases h
  · show s.taken.map Prod.fst ++ (s.backlog ++ [client]) = s.connected ++ [client]
    rw [← List.append_assoc, hs]
  · rw [List.map_append, List.append_assoc, List.map_singleton, List.singleton_append, ← hbacklog]
    exact hs
  · exact hs

/-- The event to come has a client, and `n` clients have none. -/
def Behind (n : ℕ) (s : Acceptor κ) : Prop := s.backlog.length = n + if s.edge then 1 else 0

theorem behind_empty : ({} : Acceptor κ).Behind 0 := rfl

/-- The late steps leave a client each. -/
theorem Behind.step {n : ℕ} (hs : s.Behind n) (h : step s a = some s') :
    s'.Behind (n + if s.late a then 1 else 0) := by
  unfold Behind at hs ⊢
  obtain ⟨client, rfl, rfl⟩ | ⟨answer, client, backlog, rfl, -, hedge, hbacklog, ⟨htakes, rfl⟩ | ⟨htakes, rfl⟩⟩ :=
    step_cases h
  · cases hedge : s.edge <;> simp [late, hedge] at hs ⊢ <;> omega
  · simpa [late, htakes, hedge, hbacklog] using hs
  · simpa [late, htakes, hedge] using hs

end Step

/-! ## Runs -/

variable {s : Acceptor κ} {as : List (Action κ)}

theorem inOrder_run (h : Runs.run step ({} : Acceptor κ) as = some s) : s.InOrder :=
  Runs.invariant_run (C := fun _ _ => True) (fun _ _ _ hs _ => hs.step) inOrder_empty (Runs.meets_of_mem (by simp) _) h

/-- The loop goes on until an answer ends it. -/
theorem running_run {s' : Acceptor κ} (h : Runs.run step s as = some s') :
    s'.running = true ↔ s.running = true ∧ ∀ answer, .accept answer ∈ as → answer.ends = false := by
  induction as generalizing s with
  | nil =>
    obtain rfl := Option.some.inj h
    simp
  | cons a as ih =>
    rw [Runs.run_cons] at h
    obtain ⟨t, ht, h⟩ := Option.bind_eq_some_iff.mp h
    rw [ih h]
    have hanswers : (∀ answer, .accept answer ∈ a :: as → answer.ends = false) ↔
        (∀ answer, a = .accept answer → answer.ends = false) ∧ ∀ answer, .accept answer ∈ as → answer.ends = false := by
      simp only [List.mem_cons, or_imp, forall_and, eq_comm]
    rw [hanswers, ← and_assoc]
    refine and_congr_left' ?_
    obtain ⟨client, rfl, rfl⟩ | ⟨answer, client, backlog, rfl, hrunning, -, -, ⟨-, rfl⟩ | ⟨-, rfl⟩⟩ := step_cases ht
    · simp
    · simp [hrunning]
    · simp [hrunning]

/-- **Where no event is to be reported, as many clients wait as steps were late, the last ones.  The loop goes on until
an exception gets past its handler of `std::runtime_error`, and while it goes on, every client that waits keeps one
waiting.** -/
theorem backlog_waiting (h : Runs.run step ({} : Acceptor κ) as = some s) (hquiet : s.edge = false) :
    s.taken.map Prod.fst ++ s.backlog = s.connected ∧ s.backlog.length = lateSteps {} as ∧
      (s.running = true ↔ ∀ answer, .accept answer ∈ as → answer.ends = false) ∧
      ∀ bs s', Runs.run step s bs = some s' → s'.edge = false →
        s'.backlog.length = s.backlog.length + lateSteps s bs := by
  have hcounted {n : ℕ} {t t' : Acceptor κ} {bs : List (Action κ)} (ht : t.Behind n)
      (hrun : Runs.run step t bs = some t') (hedge : t'.edge = false) :
      t'.backlog.length = n + lateSteps t bs := by
    have hbehind : t'.Behind (n + lateSteps t bs) := Runs.counted_run (fun _ _ _ _ ht hstep => ht.step hstep) ht hrun
    simpa [Behind, hedge] using hbehind
  refine ⟨inOrder_run h, ?_, by simpa using running_run h, fun bs s' h' hquiet' => hcounted ?_ h' hquiet'⟩
  · simpa using hcounted behind_empty h hquiet
  · simp [Behind, hquiet]

/-- Two clients connect before the event is reported; the second one waits for a third. -/
theorem backlog_waiting_twice :
    ∃ s : Acceptor ℕ, Runs.run step {} [.connect 1, .connect 2, .accept (.socket none), .connect 3,
        .accept (.socket none)] = some s ∧ s.backlog = [3] ∧
      lateSteps ({} : Acceptor ℕ) [.connect 1, .connect 2, .accept (.socket none), .connect 3,
        .accept (.socket none)] = 1 := by
  have hrun : Runs.run step ({} : Acceptor ℕ) [.connect 1, .connect 2, .accept (.socket none), .connect 3,
    .accept (.socket none)] = some ⟨[3], false, true, [1, 2, 3], [(1, true), (2, true)]⟩ := rfl
  obtain ⟨-, hlength, -⟩ := backlog_waiting hrun rfl
  exact ⟨_, hrun, rfl, hlength.symm⟩

end Acceptor

end Mashroom.Network
