import Mashroom.Network.Locks

/-!
# Network.Relock — locks of a mutex by the thread that holds it

`request_stop_protected` of a process with a queue waits with the mutex locked for `queue_ready`, which calls
`__ready__`, and its assignment calls that of `AbstractProcess` with the mutex locked: both lock the mutex a second
time.  The other operations do not (`noRelock_iff_plain`).
-/

namespace Mashroom.Network

/-- The caller is on its way to a second lock. -/
def CallerPc.relocks {α : Type} : CallerPc α → Bool
  | .stopLock waitFinish | .stopClear waitFinish => waitFinish
  | .stopPred | .readyLock .queueReady | .moveLock _ | .moveQueue _ | .baseLock true => true
  | _ => false

/-- The operation is neither a request to a process with a queue to stop that waits, nor an assignment to it from
another. -/
def Operation.plain {α : Type} : ProcessKind → Operation α → Bool
  | .queuable, .requestStop waitFinish => !waitFinish
  | .queuable, .moveAssign same _ => same
  | _, _ => true

theorem CallerPc.relocks_next {α : Type} {pc pc' : CallerPc α} (hnext : pc.next = some pc') (h : pc.relocks = false) :
    pc'.relocks = false := by
  cases pc with
  | stopClear waitFinish =>
    have hw : waitFinish = false := h
    subst hw
    obtain rfl := Option.some.inj hnext
    rfl
  | stopLock waitFinish =>
    obtain rfl := Option.some.inj hnext
    exact h
  | stopPred | moveLock | moveQueue => cases h
  | readyLock caller | readyUnlock caller =>
    cases caller <;> simp_all [CallerPc.next, CallerPc.relocks]
    all_goals rw [← hnext]
  | baseLock derived | baseUnlock derived =>
    cases derived <;> simp_all [CallerPc.next, CallerPc.relocks]
    all_goals rw [← hnext]
  | idle | stopBlocked | stopWake | stopEnd | moveUnlock => cases hnext
  | _ =>
    obtain rfl := Option.some.inj hnext
    rfl

theorem Operation.relocks_entry {α : Type} {kind : ProcessKind} {op : Operation α} (h : op.plain kind = true) :
    (op.entry kind).relocks = false := by
  cases op with
  | enqueue | ready => cases kind <;> rfl
  | requestStop waitFinish => cases kind <;> cases waitFinish <;> first | rfl | cases h
  | moveAssign same other => cases kind <;> cases same <;> first | rfl | cases h

namespace ProcessState

variable {α : Type} {s s' : ProcessState α} {n : ℕ}

/-- No thread is at a lock of the mutex while it holds it. -/
def NoRelock (s : ProcessState α) : Prop := ∀ t, s.Locks t → s.monitor.owner ≠ some t

/-- A process none of whose callers is on its way to a second lock. -/
structure Once (s : ProcessState α) : Prop where
  sound : s.Sound
  callers : ∀ n, (s.caller n).relocks = false

theorem Once.step {kind : ProcessKind} {a : Action α} (h : s.Once) (ha : ∀ n op, a = .call n op → op.plain kind = true)
    (hs : ProcessState.step kind s a = some s') : s'.Once where
  sound := h.sound.step hs
  callers m := by
    obtain hsame | hnext | ⟨op, rfl, hentry⟩ := h.sound.caller_of_step hs m
    · rw [hsame, h.callers m]
    · exact CallerPc.relocks_next hnext (h.callers m)
    · rw [hentry]
      exact Operation.relocks_entry (ha m op rfl)

theorem Once.noRelock (h : s.Once) : s.NoRelock := by
  intro t hlocks howner
  have hin := (h.sound.guards t).mpr howner
  cases t with
  | worker =>
    simp only [Locks, Inside] at hlocks hin
    cases hpc : s.worker <;> simp_all [WorkerPc.locks, WorkerPc.inside]
  | caller n =>
    have hrelocks := h.callers n
    simp only [Locks, Inside] at hlocks hin
    cases hpc : s.caller n with
    | readyLock caller => cases caller <;> simp_all [CallerPc.locks, CallerPc.inside, CallerPc.relocks]
    | baseLock derived => cases derived <;> simp_all [CallerPc.locks, CallerPc.inside, CallerPc.relocks]
    | _ => simp_all [CallerPc.locks, CallerPc.inside]

/-! ## Runs -/

/-- The thread is at a lock of the mutex that it holds. -/
theorem not_noRelock_of (hlocks : (s.caller n).locks = true) (howner : s.monitor.owner = some (.caller n)) :
    ¬ s.NoRelock :=
  fun h => h (.caller n) hlocks howner

/-- A request to stop that waits: the queue is cleared and found empty, and `__ready__` is called. -/
theorem relock_requestStop (α : Type) : ∃ as s, (∀ n op, Action.call n op ∈ as → op = .requestStop true) ∧
    Runs.run (ProcessState.step .queuable) ({} : ProcessState α) as = some s ∧ ¬ s.NoRelock := by
  refine ⟨[.call 0 (.requestStop true), .caller 0 none false, .caller 0 none false, .caller 0 none false], _, ?_, rfl,
    @not_noRelock_of _ _ 0 rfl rfl⟩
  simp

/-- An assignment from another process: that of `AbstractProcess` is called. -/
theorem relock_moveAssign {α : Type} (other : List α) :
    ∃ as s, (∀ n op, Action.call n op ∈ as → op = .moveAssign false other) ∧
      Runs.run (ProcessState.step .queuable) ({} : ProcessState α) as = some s ∧ ¬ s.NoRelock := by
  refine ⟨[.call 0 (.moveAssign false other), .caller 0 none false, .caller 0 none false], _, ?_, rfl,
    @not_noRelock_of _ _ 0 rfl rfl⟩
  simp

/-- **No thread locks the mutex a second time, in any run, exactly where no process with a queue is asked to stop and
waited for, or assigned to from another.** -/
theorem noRelock_iff_plain (kind : ProcessKind) (ops : Operation α → Prop) :
    (∀ as s, (∀ n op, Action.call n op ∈ as → ops op) → Runs.run (ProcessState.step kind) {} as = some s →
      s.NoRelock) ↔ ∀ op, ops op → op.plain kind = true := by
  constructor
  · intro h op hop
    by_contra hplain
    have hbad : ∃ as s, (∀ n op', Action.call n op' ∈ as → op' = op) ∧
        Runs.run (ProcessState.step kind) ({} : ProcessState α) as = some s ∧ ¬ s.NoRelock := by
      cases op with
      | enqueue task => cases kind <;> exact absurd rfl hplain
      | ready => cases kind <;> exact absurd rfl hplain
      | requestStop waitFinish =>
        cases kind <;> cases waitFinish
        case queuable.true => exact relock_requestStop α
        all_goals exact absurd rfl hplain
      | moveAssign same other =>
        cases kind <;> cases same
        case queuable.false => exact relock_moveAssign other
        all_goals exact absurd rfl hplain
    obtain ⟨as, s, hops, hrun, hbad⟩ := hbad
    refine hbad (h as s (fun n op' hmem => ?_) hrun)
    rw [hops n op' hmem]
    exact hop
  · intro hplain as s hops hrun
    have hmeets : Runs.Meets (ProcessState.step kind) (fun _ a => ∀ n op, a = .call n op → op.plain kind = true)
        ({} : ProcessState α) as := by
      refine Runs.meets_of_mem (fun a ha n op heq => hplain op (hops n op ?_)) _
      rw [← heq]
      exact ha
    exact (Runs.invariant_run (fun _ _ _ h ha hs => Once.step h ha hs) ⟨.initial, fun _ => rfl⟩ hmeets hrun).noRelock

/-- A waiting request to stop, and an assignment, of a process with a queue of numbers. -/
theorem relocked : ¬ (∀ as s, Runs.run (ProcessState.step .queuable) ({} : ProcessState ℕ) as = some s → s.NoRelock) ∧
    ∃ as s, (∀ n op, Action.call n op ∈ as → op = .moveAssign false [7]) ∧
      Runs.run (ProcessState.step .queuable) ({} : ProcessState ℕ) as = some s ∧ ¬ s.NoRelock := by
  obtain ⟨as, s, -, hrun, hbad⟩ := relock_requestStop ℕ
  exact ⟨fun h => hbad (h as s hrun), relock_moveAssign [7]⟩

end ProcessState

end Mashroom.Network
