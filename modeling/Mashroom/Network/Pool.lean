import Mathlib.Data.Finset.Insert
import Mathlib.Data.Finset.Erase
import Mashroom.Lib.Runs

/-!
# Network.Pool — the sockets of the pool and the descriptors of its multiplexor

A key of `peers_` is a copy of the socket, that shares the descriptor with the other copies; the descriptor is closed
with the last of them, and a descriptor that is closed is not registered any more.  The pool changes `peers_` before it
calls `epoll_ctl`, and does not take it back.
-/

namespace Mashroom.Network

/-! ## The state -/

/-- The pool, with what the system knows of the descriptors.  The descriptor that wakes the multiplexor is left out. -/
structure Pool where
  /-- the descriptors of the keys of `peers_` -/
  peers : Finset ℤ := ∅
  /-- the descriptors registered in the multiplexor -/
  registered : Finset ℤ := ∅
  /-- the sockets outside the pool that share a descriptor -/
  shares : ℤ → ℕ := fun _ => 0
  /-- the last operation threw -/
  thrown : Bool := false

namespace Pool

/-- A descriptor is open as long as a socket has it.  A socket without one has `-1`. -/
def IsOpen (p : Pool) (fd : ℤ) : Prop := 0 ≤ fd ∧ (fd ∈ p.peers ∨ p.shares fd ≠ 0)

instance (p : Pool) (fd : ℤ) : Decidable (p.IsOpen fd) := inferInstanceAs (Decidable (_ ∧ _))

/-- There is a socket with the descriptor outside the pool. -/
def Held (p : Pool) (fd : ℤ) : Prop := fd = -1 ∨ 0 ≤ fd ∧ p.shares fd ≠ 0

instance (p : Pool) (fd : ℤ) : Decidable (p.Held fd) := inferInstanceAs (Decidable (_ ∨ _))

/-- What the system does when a socket is destroyed. -/
def release (p : Pool) (fd : ℤ) : Pool :=
  if p.IsOpen fd then p else { p with registered := p.registered.erase fd }

/-! ## The multiplexor -/

/-- `Multiplexor::add`.  `EPOLL_CTL_ADD` fails for a descriptor that is not open or registered already, and may fail
otherwise. -/
def epollAdd (p : Pool) (fd : ℤ) (ctl : Bool) : Pool :=
  if ctl = true ∧ p.IsOpen fd ∧ fd ∉ p.registered then { p with registered := insert fd p.registered, thrown := false }
  else { p with thrown := true }

/-- `Multiplexor::remove`.  `EPOLL_CTL_DEL` fails for a descriptor that is not open or not registered, and may fail
otherwise. -/
def epollRemove (p : Pool) (fd : ℤ) (ctl : Bool) : Pool :=
  if ctl = true ∧ p.IsOpen fd ∧ fd ∈ p.registered then
    { p with registered := p.registered.erase fd, thrown := false }
  else { p with thrown := true }

/-- `Multiplexor::modify` -/
def epollModify (p : Pool) (fd : ℤ) (ctl : Bool) : Pool :=
  { p with thrown := !(ctl && decide (p.IsOpen fd) && decide (fd ∈ p.registered)) }

/-! ## The operations -/

/-- `peers_.erase(socket)`: the key and the process are destroyed, which has a copy of the socket too. -/
def erase (p : Pool) (fd : ℤ) : Pool :=
  if fd ∈ p.peers then release { p with peers := p.peers.erase fd, thrown := false } fd
  else { p with thrown := false }

def addConnection (p : Pool) (fd : ℤ) (ctl : Bool) : Pool :=
  if fd ∉ p.peers then epollAdd { p with peers := insert fd p.peers } fd ctl else { p with thrown := false }

def removeConnection (p : Pool) (fd : ℤ) (ctl : Bool) : Pool := epollRemove (p.erase fd) fd ctl

def modifyConnection (p : Pool) (fd : ℤ) (ctl : Bool) : Pool :=
  if fd ∈ p.peers then epollModify p fd ctl else { p with thrown := true }

/-- `Multiplexor::Event` -/
inductive Event where
  | in_
  | out
  | highProrityIn
  | edgeTrigger
  | oneShot
  | error
  | wakeUp
  | exclusive
  | hangUp
  | canReadButHangUp
  deriving DecidableEq

def eventProcess (p : Pool) (fd : ℤ) : Event → Pool
  | .hangUp | .canReadButHangUp | .error => p.erase fd
  | .in_ | .out | .wakeUp | .oneShot | .highProrityIn | .exclusive | .edgeTrigger => { p with thrown := false }

/-- What `polling_connections` does with a descriptor that hung up. -/
def pollHangUp (p : Pool) (fd : ℤ) : Pool := if fd ∈ p.peers then p.erase fd else { p with thrown := false }

/-- What is done with the pool, with what `epoll_ctl` answers, and with sockets elsewhere. -/
inductive Op where
  | addConnection (fd : ℤ) (ctl : Bool)
  | removeConnection (fd : ℤ) (ctl : Bool)
  | modifyConnection (fd : ℤ) (ctl : Bool)
  | eventProcess (fd : ℤ) (event : Event)
  | pollHangUp (fd : ℤ)
  /-- the system opens a descriptor for a new socket -/
  | openSocket (fd : ℤ)
  /-- a copy is made of a socket -/
  | copySocket (fd : ℤ)
  /-- a socket outside the pool is destroyed -/
  | dropSocket (fd : ℤ)

/-- One operation.  The pool is given sockets that exist outside it. -/
def step (p : Pool) : Op → Option Pool
  | .addConnection fd ctl => if p.Held fd then some (p.addConnection fd ctl) else none
  | .removeConnection fd ctl => if p.Held fd then some (p.removeConnection fd ctl) else none
  | .modifyConnection fd ctl => if p.Held fd then some (p.modifyConnection fd ctl) else none
  | .eventProcess fd event => some (p.eventProcess fd event)
  | .pollHangUp fd => some (p.pollHangUp fd)
  | .openSocket fd =>
    if 0 ≤ fd ∧ ¬ p.IsOpen fd then some { p with shares := Function.update p.shares fd 1, thrown := false } else none
  | .copySocket fd =>
    if p.IsOpen fd then some { p with shares := Function.update p.shares fd (p.shares fd + 1), thrown := false }
    else none
  | .dropSocket fd =>
    if p.shares fd ≠ 0 then
      some (release { p with shares := Function.update p.shares fd (p.shares fd - 1), thrown := false } fd)
    else none

/-! ## The invariant -/

/-- The sockets of the pool are those registered; an operation that throws leaves both as they were. -/
structure Kept (p : Pool) (p' : Pool) : Prop where
  equal : p'.peers = p'.registered
  unchanged : p'.thrown = true → p'.peers = p.peers ∧ p'.registered = p.registered

/-- What the operations rest on: the sets are the same, of descriptors. -/
structure Sound (p : Pool) : Prop where
  equal : p.peers = p.registered
  nonneg : ∀ fd ∈ p.registered, 0 ≤ fd

/-- The operations that keep the sets alike: a new socket has a descriptor and is registered, a socket of the pool is
taken out of the multiplexor, and one that is closed has no copies outside the pool. -/
def Safe (p : Pool) : Op → Prop
  | .addConnection fd ctl => fd ∈ p.peers ∨ ctl = true ∧ 0 ≤ fd
  | .removeConnection fd ctl => fd ∉ p.peers ∨ ctl = true
  | .eventProcess fd event =>
    event = .hangUp ∨ event = .canReadButHangUp ∨ event = .error → fd ∉ p.peers ∨ p.shares fd = 0
  | .pollHangUp fd => fd ∉ p.peers ∨ p.shares fd = 0
  | .modifyConnection .. | .openSocket _ | .copySocket _ | .dropSocket _ => True

section Lemmas

variable {p p' : Pool} {fd : ℤ}

theorem Kept.of_same (h : p.Sound) (hp : p'.peers = p.peers) (hr : p'.registered = p.registered) : p.Kept p' where
  equal := by rw [hp, hr, h.equal]
  unchanged _ := ⟨hp, hr⟩

theorem kept_addConnection_iff (h : p.Sound) (ctl : Bool) :
    p.Kept (p.addConnection fd ctl) ↔ fd ∈ p.peers ∨ ctl = true ∧ 0 ≤ fd := by
  unfold addConnection
  by_cases hfd : fd ∈ p.peers
  · rw [if_neg (not_not.mpr hfd)]
    exact iff_of_true (.of_same h rfl rfl) (.inl hfd)
  · rw [if_pos hfd, epollAdd]
    have hreg : fd ∉ p.registered := h.equal ▸ hfd
    split
    · rename_i hctl
      refine iff_of_true ⟨?_, ?_⟩ (.inr ⟨hctl.1, hctl.2.1.1⟩)
      · show insert fd p.peers = insert fd p.registered
        rw [h.equal]
      · intro hthrown
        exact absurd hthrown (by simp)
    · rename_i hctl
      refine iff_of_false ?_ ?_
      · intro hk
        -- the key stays, and the call threw
        have hpeers : insert fd p.peers = p.peers := (hk.unchanged rfl).1
        exact hfd (hpeers ▸ Finset.mem_insert_self fd p.peers)
      · rintro (hmem | ⟨hc, hnonneg⟩)
        · exact hfd hmem
        · exact hctl ⟨hc, ⟨hnonneg, .inl (Finset.mem_insert_self fd p.peers)⟩, hreg⟩

theorem erase_of_notMem (hfd : fd ∉ p.peers) : p.erase fd = { p with thrown := false } := if_neg hfd

/-- With a socket outside the pool the descriptor stays open. -/
theorem erase_of_held (hfd : fd ∈ p.peers) (hnonneg : 0 ≤ fd) (hshares : p.shares fd ≠ 0) :
    p.erase fd = { p with peers := p.peers.erase fd, thrown := false } := by
  rw [erase, if_pos hfd, release, if_pos]
  exact ⟨hnonneg, .inr hshares⟩

/-- Without one it is closed. -/
theorem erase_of_last (hfd : fd ∈ p.peers) (hshares : p.shares fd = 0) :
    p.erase fd = { p with peers := p.peers.erase fd, registered := p.registered.erase fd, thrown := false } := by
  rw [erase, if_pos hfd, release, if_neg]
  rintro ⟨-, hmem | hne⟩
  · exact Finset.notMem_erase fd p.peers hmem
  · exact hne hshares

theorem kept_erase_iff (h : p.Sound) : p.Kept (p.erase fd) ↔ fd ∉ p.peers ∨ p.shares fd = 0 := by
  by_cases hfd : fd ∈ p.peers
  · have hreg : fd ∈ p.registered := h.equal ▸ hfd
    by_cases hshares : p.shares fd = 0
    · rw [erase_of_last hfd hshares]
      refine iff_of_true ⟨?_, fun hthrown => absurd hthrown (by simp)⟩ (.inr hshares)
      show p.peers.erase fd = p.registered.erase fd
      rw [h.equal]
    · rw [erase_of_held hfd (h.nonneg fd hreg) hshares]
      refine iff_of_false ?_ (by simp [hfd, hshares])
      intro hk
      have hpeers : p.peers.erase fd = p.registered := hk.equal
      exact Finset.notMem_erase fd p.peers (hpeers ▸ hreg)
  · rw [erase_of_notMem hfd]
    exact iff_of_true (.of_same h rfl rfl) (.inl hfd)

theorem kept_removeConnection_iff (h : p.Sound) (hheld : p.Held fd) (ctl : Bool) :
    p.Kept (p.removeConnection fd ctl) ↔ fd ∉ p.peers ∨ ctl = true := by
  unfold removeConnection
  by_cases hfd : fd ∈ p.peers
  · have hreg : fd ∈ p.registered := h.equal ▸ hfd
    have hnonneg := h.nonneg fd hreg
    have hshares : p.shares fd ≠ 0 := by
      obtain rfl | ⟨-, hshares⟩ := hheld
      · exact absurd hnonneg (by decide)
      · exact hshares
    rw [erase_of_held hfd hnonneg hshares, epollRemove]
    split
    · rename_i hctl
      refine iff_of_true ⟨?_, fun hthrown => absurd hthrown (by simp)⟩ (.inr hctl.1)
      show p.peers.erase fd = p.registered.erase fd
      rw [h.equal]
    · rename_i hctl
      refine iff_of_false ?_ ?_
      · intro hk
        -- the key is gone, and the call threw
        have hpeers : p.peers.erase fd = p.peers := (hk.unchanged rfl).1
        exact Finset.notMem_erase fd p.peers (hpeers.symm ▸ hfd)
      · rintro (hmem | hc)
        · exact hmem hfd
        · exact hctl ⟨hc, ⟨hnonneg, .inr hshares⟩, hreg⟩
  · have hreg : fd ∉ p.registered := h.equal ▸ hfd
    rw [erase_of_notMem hfd, epollRemove, if_neg fun hctl => hreg hctl.2.2]
    exact iff_of_true (.of_same h rfl rfl) (.inl hfd)

theorem kept_eventProcess_iff (h : p.Sound) (event : Event) :
    p.Kept (p.eventProcess fd event) ↔ p.Safe (.eventProcess fd event) := by
  cases event with
  | hangUp | canReadButHangUp | error =>
    refine Iff.trans ?_ (forall_prop_of_true (by simp)).symm
    exact kept_erase_iff h
  | in_ | out | highProrityIn | edgeTrigger | oneShot | wakeUp | exclusive =>
    exact iff_of_true (.of_same h rfl rfl) (by simp [Safe])

theorem kept_dropSocket (h : p.Sound) :
    p.Kept (release { p with shares := Function.update p.shares fd (p.shares fd - 1), thrown := false } fd) := by
  unfold release
  split
  · exact .of_same h rfl rfl
  · rename_i hopen
    refine .of_same h rfl (Finset.erase_eq_of_notMem ?_)
    intro hreg
    exact hopen ⟨h.nonneg fd hreg, .inl (h.equal ▸ hreg)⟩

/-- An operation keeps the sets alike exactly when it is safe. -/
theorem kept_step_iff {op : Op} (h : p.Sound) (hs : p.step op = some p') : p.Kept p' ↔ p.Safe op := by
  cases op with
  | addConnection fd ctl =>
    obtain ⟨-, rfl⟩ := Runs.guard_eq_some hs
    exact kept_addConnection_iff h ctl
  | removeConnection fd ctl =>
    obtain ⟨hheld, rfl⟩ := Runs.guard_eq_some hs
    exact kept_removeConnection_iff h hheld ctl
  | modifyConnection fd ctl =>
    obtain ⟨-, rfl⟩ := Runs.guard_eq_some hs
    refine iff_of_true ?_ trivial
    unfold modifyConnection
    split
    · exact .of_same h rfl rfl
    · exact .of_same h rfl rfl
  | eventProcess fd event =>
    obtain rfl := Option.some.inj hs
    exact kept_eventProcess_iff h event
  | pollHangUp fd =>
    obtain rfl := Option.some.inj hs
    unfold pollHangUp
    split
    · exact kept_erase_iff h
    · rename_i hfd
      exact iff_of_true (.of_same h rfl rfl) (.inl hfd)
  | openSocket fd =>
    obtain ⟨-, rfl⟩ := Runs.guard_eq_some hs
    exact iff_of_true (.of_same h rfl rfl) trivial
  | copySocket fd =>
    obtain ⟨-, rfl⟩ := Runs.guard_eq_some hs
    exact iff_of_true (.of_same h rfl rfl) trivial
  | dropSocket fd =>
    obtain ⟨-, rfl⟩ := Runs.guard_eq_some hs
    exact iff_of_true (kept_dropSocket h) trivial

theorem registered_release_subset (p : Pool) (fd : ℤ) : (p.release fd).registered ⊆ p.registered := by
  unfold release
  split
  · exact Finset.Subset.refl _
  · exact Finset.erase_subset _ _

theorem registered_erase_subset (p : Pool) (fd : ℤ) : (p.erase fd).registered ⊆ p.registered := by
  unfold erase
  split
  · exact registered_release_subset _ fd
  · exact Finset.Subset.refl _

/-- Only an open descriptor gets registered. -/
theorem registered_step {op : Op} (hs : p.step op = some p') : ∀ fd ∈ p'.registered, fd ∈ p.registered ∨ 0 ≤ fd := by
  intro x hx
  cases op with
  | addConnection fd ctl =>
    obtain ⟨-, rfl⟩ := Runs.guard_eq_some hs
    unfold addConnection epollAdd at hx
    split_ifs at hx with hfd hctl
    · exact .inl hx
    · obtain rfl | hx := Finset.mem_insert.mp hx
      · exact .inr hctl.2.1.1
      · exact .inl hx
    · exact .inl hx
  | removeConnection fd ctl =>
    obtain ⟨-, rfl⟩ := Runs.guard_eq_some hs
    unfold removeConnection epollRemove at hx
    split_ifs at hx
    · exact .inl (registered_erase_subset p fd (Finset.mem_of_mem_erase hx))
    · exact .inl (registered_erase_subset p fd hx)
  | modifyConnection fd ctl =>
    obtain ⟨-, rfl⟩ := Runs.guard_eq_some hs
    unfold modifyConnection at hx
    split_ifs at hx
    · exact .inl hx
    · exact .inl hx
  | eventProcess fd event =>
    obtain rfl := Option.some.inj hs
    cases event with
    | hangUp | canReadButHangUp | error => exact .inl (registered_erase_subset p fd hx)
    | in_ | out | highProrityIn | edgeTrigger | oneShot | wakeUp | exclusive => exact .inl hx
  | pollHangUp fd =>
    obtain rfl := Option.some.inj hs
    unfold pollHangUp at hx
    split_ifs at hx
    · exact .inl (registered_erase_subset p fd hx)
    · exact .inl hx
  | openSocket fd | copySocket fd =>
    obtain ⟨-, rfl⟩ := Runs.guard_eq_some hs
    exact .inl hx
  | dropSocket fd =>
    obtain ⟨-, rfl⟩ := Runs.guard_eq_some hs
    have hmem := registered_release_subset _ fd hx
    exact .inl hmem

theorem Sound.step {op : Op} (h : p.Sound) (hsafe : p.Safe op) (hs : p.step op = some p') : p'.Sound where
  equal := ((kept_step_iff h hs).mpr hsafe).equal
  nonneg fd hfd := (registered_step hs fd hfd).elim (h.nonneg fd) id

end Lemmas

/-- **When the sets agree**: after every operation of a run the sockets of the pool are the descriptors registered, and
an operation that throws leaves both as they were, exactly when every operation of the run is safe. -/
theorem kept_iff_safe (ops : List Op) :
    Runs.Each step (fun p _ p' => p.Kept p') {} ops ↔ Runs.Meets step Safe {} ops :=
  @Runs.each_iff_meets _ _ step (fun p _ p' => p.Kept p') Safe Sound (fun _ _ _ h hs => kept_step_iff h hs)
    (fun _ _ _ h hsafe hs => h.step hsafe hs) {} ⟨rfl, fun fd hfd => absurd hfd (Finset.notMem_empty fd)⟩ ops

/-- A socket that cannot be registered stays in the pool, one that cannot be removed is removed from the pool only, and
one that hangs up while there is a copy stays registered. -/
theorem not_kept :
    ¬ Runs.Each step (fun p _ p' => p.Kept p') {} [.openSocket 5, .addConnection 5 false] ∧
    ¬ Runs.Each step (fun p _ p' => p.Kept p') {} [.openSocket 5, .addConnection 5 true, .removeConnection 5 false] ∧
    ¬ Runs.Each step (fun p _ p' => p.Kept p') {} [.openSocket 5, .addConnection 5 true, .pollHangUp 5] := by
  refine ⟨fun h => ?_, fun h => ?_, fun h => ?_⟩
  · exact absurd ((h _ rfl).2 _ rfl).1.equal (by decide)
  · exact absurd (((h _ rfl).2 _ rfl).2 _ rfl).1.equal (by decide)
  · exact absurd (((h _ rfl).2 _ rfl).2 _ rfl).1.equal (by decide)

end Pool

end Mashroom.Network
