import Mashroom.Network.Process

/-!
# Network.Locks — which thread is inside the mutex of a process

The owner of the mutex is the thread that is between a lock and an unlock (`ProcessState.Sound`), and what the step of a
caller does follows from where the caller is (`Sound.callerEffect`).
-/

namespace Mashroom.Network

/-- Where a caller gets only past a second lock, or past a queue that is not empty after it was cleared. -/
def CallerPc.beyond {α : Type} : CallerPc α → Bool
  | .readyUnlock .queueReady | .baseUnlock true | .moveUnlock | .stopEnd | .stopBlocked | .stopWake => true
  | .idle | .enqueueLock _ | .enqueuePush _ | .enqueueNotify | .enqueueUnlock | .stopLock _ | .stopClear _ | .stopUnlock
  | .stopNotify | .stopRequest | .stopPred | .stopWaitFor | .readyLock _ | .readyUnlock .alone | .moveLock _
  | .moveQueue _ | .baseLock _ | .baseUnlock false => false

/-- Where a call begins. -/
def Operation.entry {α : Type} : ProcessKind → Operation α → CallerPc α
  | _, .enqueue task => .enqueueLock task
  | .abstract, .requestStop waitFinish => if waitFinish then .stopWaitFor else .stopRequest
  | .queuable, .requestStop waitFinish => .stopLock waitFinish
  | _, .ready => .readyLock .alone
  | .abstract, .moveAssign _ _ => .baseLock false
  | .queuable, .moveAssign same other => if same then .idle else .moveLock other

/-- The operation asks for a stop. -/
def Operation.asks {α : Type} : Operation α → Bool
  | .requestStop _ => true
  | .enqueue _ | .ready | .moveAssign _ _ => false

/-- Where a caller goes next, unless it is blocked or beyond what it can reach. -/
def CallerPc.next {α : Type} : CallerPc α → Option (CallerPc α)
  | .enqueueLock task => some (.enqueuePush task)
  | .enqueuePush _ => some .enqueueNotify
  | .enqueueNotify => some .enqueueUnlock
  | .stopLock waitFinish => some (.stopClear waitFinish)
  | .stopClear waitFinish => some (if waitFinish then .stopPred else .stopUnlock)
  | .stopUnlock => some .stopNotify
  | .stopNotify => some .stopRequest
  | .stopPred => some (.readyLock .queueReady)
  | .stopWaitFor => some .stopRequest
  | .readyLock .alone => some (.readyUnlock .alone)
  | .moveLock other => some (.moveQueue other)
  | .moveQueue _ => some (.baseLock true)
  | .baseLock false => some (.baseUnlock false)
  | .enqueueUnlock | .stopRequest | .readyUnlock .alone | .baseUnlock false => some .idle
  | .idle | .stopBlocked | .stopWake | .stopEnd | .readyLock .queueReady | .readyUnlock .queueReady | .baseLock true
  | .baseUnlock true | .moveUnlock => none

/-- The queue after the step of a caller. -/
def CallerPc.leaves {α : Type} (queue : List α) : CallerPc α → List α
  | .enqueuePush task => queue ++ [task]
  | .stopClear _ => []
  | .moveQueue other => other
  | _ => queue

/-- What the step of a caller enqueues. -/
def CallerPc.pushed {α : Type} : CallerPc α → List α
  | .enqueuePush task => [task]
  | _ => []

/-- The caller is at a notification. -/
def CallerPc.issues {α : Type} : CallerPc α → Bool
  | .enqueueNotify | .stopNotify => true
  | _ => false

namespace ProcessState

variable {α : Type} {s s' : ProcessState α} {n : ℕ}

/-! ## Mutual exclusion -/

section Guards

/-- A caller goes on inside the mutex, or outside. -/
theorem guards_caller_keep {pc : CallerPc α} (h : s.monitor.Guards s.Inside)
    (hcaller : s'.caller = Function.update s.caller n pc) (hpc : pc.inside = (s.caller n).inside)
    (hworker : s'.worker.inside = s.worker.inside) (howner : s'.monitor.owner = s.monitor.owner) :
    s'.monitor.Guards s'.Inside := by
  refine h.keep howner fun t => ?_
  cases t with
  | worker => simp only [Inside, hworker]
  | caller m =>
    simp only [Inside, hcaller, Function.update_apply]
    split
    · rename_i hm
      rw [hm, hpc]
    · rfl

theorem guards_caller_lock {pc : CallerPc α} (h : s.monitor.Guards s.Inside) (hpc : pc.inside = true)
    (hlock : s.lockAs n pc = some s') : s'.monitor.Guards s'.Inside := by
  obtain ⟨m, hm, rfl⟩ := Option.map_eq_some_iff.mp hlock
  refine h.lock hm fun t => ?_
  cases t with
  | worker => simp [Inside, setCaller]
  | caller k =>
    simp only [Inside, setCaller, Function.update_apply, Tid.caller.injEq]
    split
    · rename_i hk
      simp [hk, hpc]
    · rename_i hk
      simp [hk]

theorem guards_caller_leave {pc : CallerPc α} (h : s.monitor.Guards s.Inside) (hin : (s.caller n).inside = true)
    (hcaller : s'.caller = Function.update s.caller n pc) (hpc : pc.inside = false) (hworker : s'.worker = s.worker)
    (howner : s'.monitor.owner = none) : s'.monitor.Guards s'.Inside := by
  have hinside : s.Inside (.caller n) := hin
  refine h.leave hinside howner fun t => ?_
  cases t with
  | worker => simp [Inside, hworker]
  | caller k =>
    simp only [Inside, hcaller, Function.update_apply, ne_eq, Tid.caller.injEq]
    split
    · rename_i hk
      simp [hk, hpc]
    · rename_i hk
      simp [hk]

theorem guards_worker_keep {pc : WorkerPc α} (h : s.monitor.Guards s.Inside) (hworker : s'.worker = pc)
    (hpc : pc.inside = s.worker.inside) (hcaller : s'.caller = s.caller) (howner : s'.monitor.owner = s.monitor.owner) :
    s'.monitor.Guards s'.Inside := by
  refine h.keep howner fun t => ?_
  cases t with
  | worker => simp only [Inside, hworker, hpc]
  | caller m => simp only [Inside, hcaller]

theorem guards_worker_lock {pc : WorkerPc α} (h : s.monitor.Guards s.Inside) (hpc : pc.inside = true)
    (hlock : s.workerLock pc = some s') : s'.monitor.Guards s'.Inside := by
  obtain ⟨m, hm, rfl⟩ := Option.map_eq_some_iff.mp hlock
  refine h.lock hm fun t => ?_
  cases t with
  | worker => simp [Inside, setWorker, hpc]
  | caller k => simp [Inside, setWorker]

theorem guards_worker_leave {pc : WorkerPc α} (h : s.monitor.Guards s.Inside) (hin : s.worker.inside = true)
    (hworker : s'.worker = pc) (hpc : pc.inside = false) (hcaller : s'.caller = s.caller)
    (howner : s'.monitor.owner = none) : s'.monitor.Guards s'.Inside := by
  have hinside : s.Inside .worker := hin
  refine h.leave hinside howner fun t => ?_
  cases t with
  | worker => simp [Inside, hworker, hpc]
  | caller k => simp [Inside, hcaller]

end Guards

/-! ## The invariant -/

/-- What holds of a process at any time: the owner of the mutex is inside, a queue that was cleared or found empty stays
so, callers get neither past a second lock nor to `cv.wait`, and the worker is the only one to be blocked. -/
structure Sound (s : ProcessState α) : Prop where
  guards : s.monitor.Guards s.Inside
  cleared : ∀ n, s.caller n = .stopPred → s.queue = []
  asleep : s.worker = .sleep → s.queue = []
  beyond : ∀ n, (s.caller n).beyond = false
  waiters : s.worker = .blocked ∧ s.monitor.waiters = [.worker] ∨ s.worker ≠ .blocked ∧ s.monitor.waiters = []

/-- A call begins only where the caller does nothing else. -/
theorem step_call {kind : ProcessKind} {op : Operation α} (hs : step kind s (.call n op) = some s') :
    s.caller n = .idle ∧ call kind s n op = some s' := by
  unfold step at hs
  cases hidle : s.caller n with
  | idle =>
    simp only [hidle] at hs
    exact ⟨rfl, hs⟩
  | _ => simp [hidle] at hs

namespace Sound

/-- A step of a caller that leaves the worker and the condition variable as they are. -/
theorem caller_step {pc : CallerPc α} (h : s.Sound) (hcaller : s'.caller = Function.update s.caller n pc)
    (hworker : s'.worker = s.worker) (hwaiters : s'.monitor.waiters = s.monitor.waiters)
    (hguards : s'.monitor.Guards s'.Inside) (hbeyond : pc.beyond = false)
    (hqueue : ∀ m, s'.caller m = .stopPred → s'.queue = []) (hasleep : s.worker = .sleep → s'.queue = []) :
    s'.Sound where
  guards := hguards
  cleared := hqueue
  asleep hw := hasleep (by rw [← hworker, hw])
  beyond m := by
    rw [hcaller, Function.update_apply]
    split
    · exact hbeyond
    · exact h.beyond m
  waiters := by
    rw [hworker, hwaiters]
    exact h.waiters

/-- The queue stays, and the caller does not get to look at it. -/
theorem cleared_of_same {pc : CallerPc α} (h : s.Sound) (hcaller : s'.caller = Function.update s.caller n pc)
    (hpc : pc ≠ .stopPred) (hqueue : s'.queue = s.queue) (m : ℕ) (hm : s'.caller m = .stopPred) : s'.queue = [] := by
  rw [hcaller, Function.update_apply] at hm
  rw [hqueue]
  split at hm
  · exact absurd hm hpc
  · exact h.cleared m hm

/-- A caller inside the mutex is the only one, so that no other looks at the queue. -/
theorem cleared_of_inside {pc : CallerPc α} (h : s.Sound) (hin : (s.caller n).inside = true)
    (hcaller : s'.caller = Function.update s.caller n pc) (hpc : pc ≠ .stopPred) (m : ℕ)
    (hm : s'.caller m = .stopPred) : s'.queue = [] := by
  rw [hcaller, Function.update_apply] at hm
  split at hm
  · exact absurd hm hpc
  · rename_i hne
    have hmin : s.Inside (.caller m) := by
      show (s.caller m).inside = true
      rw [hm]
      rfl
    have hnin : s.Inside (.caller n) := hin
    exact absurd (Tid.caller.inj (h.guards.unique hmin hnin)) hne

/-- A caller inside the mutex is the only one, so that the worker is not. -/
theorem awake_of_inside (h : s.Sound) (hin : (s.caller n).inside = true) {P : Prop} (hw : s.worker = .sleep) : P := by
  have hworker : s.Inside .worker := by
    show s.worker.inside = true
    rw [hw]
    rfl
  have hcaller : s.Inside (.caller n) := hin
  cases h.guards.unique hworker hcaller

/-- A step that locks the mutex. -/
theorem lockAs {pc : CallerPc α} (h : s.Sound) (hin : pc.inside = true) (hbeyond : pc.beyond = false)
    (hpc : pc ≠ .stopPred) (hs : s.lockAs n pc = some s') : s'.Sound := by
  have hguards := guards_caller_lock h.guards hin hs
  obtain ⟨m, hm, rfl⟩ := Option.map_eq_some_iff.mp hs
  obtain ⟨-, rfl⟩ := Monitor.lock_eq_some hm
  exact h.caller_step rfl rfl rfl hguards hbeyond (h.cleared_of_same rfl hpc rfl) h.asleep

/-- A lock by the thread that is inside is never taken. -/
theorem lockAs_of_inside {pc : CallerPc α} (h : s.Sound) (hin : (s.caller n).inside = true) :
    s.lockAs n pc = none := by
  have howner : s.monitor.owner = some (.caller n) := (h.guards (.caller n)).mp hin
  simp [ProcessState.lockAs, Monitor.lock, howner]

/-- A step that unlocks the mutex. -/
theorem unlockTo {pc : CallerPc α} (h : s.Sound) (hin : (s.caller n).inside = true) (hpcin : pc.inside = false)
    (hbeyond : pc.beyond = false) (hpc : pc ≠ .stopPred) : (s.unlockTo n pc).Sound :=
  h.caller_step rfl rfl rfl (guards_caller_leave h.guards hin rfl hpcin rfl rfl) hbeyond
    (h.cleared_of_same rfl hpc rfl) h.asleep

/-- A step that only goes on. -/
theorem goOn {pc : CallerPc α} (h : s.Sound) (hin : pc.inside = (s.caller n).inside) (hbeyond : pc.beyond = false)
    (hpc : pc ≠ .stopPred) (hcaller : s'.caller = Function.update s.caller n pc) (hworker : s'.worker = s.worker)
    (hmonitor : s'.monitor = s.monitor) (hqueue : s'.queue = s.queue) : s'.Sound :=
  h.caller_step hcaller hworker (by rw [hmonitor])
    (guards_caller_keep h.guards hcaller hin (by rw [hworker]) (by rw [hmonitor])) hbeyond
    (h.cleared_of_same hcaller hpc hqueue) fun hw => by rw [hqueue, h.asleep hw]

/-- The only thread that a notification can reach is the worker. -/
theorem notifyOne_cases (h : s.Sound) {woken : Option Tid} {m : Monitor Tid}
    (hm : s.monitor.notifyOne woken = some m) :
    (woken = none ∧ m = s.monitor ∧ s.worker ≠ .blocked) ∨
      (woken = some .worker ∧ s.worker = .blocked ∧ m = { s.monitor with waiters := [] }) := by
  cases woken with
  | none =>
    obtain ⟨hempty, rfl⟩ := Monitor.notifyOne_none hm
    obtain ⟨-, hw⟩ | ⟨hne, -⟩ := h.waiters
    · rw [hw] at hempty
      cases hempty
    · exact .inl ⟨rfl, rfl, hne⟩
  | some t =>
    obtain ⟨hmem, rfl⟩ := Monitor.notifyOne_some hm
    obtain ⟨hb, hw⟩ | ⟨-, hw⟩ := h.waiters
    · rw [hw] at hmem
      obtain rfl := List.mem_singleton.mp hmem
      refine .inr ⟨rfl, hb, ?_⟩
      rw [hw]
      rfl
    · rw [hw] at hmem
      cases hmem

/-- A notification. -/
theorem notify {pc : CallerPc α} (h : s.Sound) (hin : pc.inside = (s.caller n).inside) (hbeyond : pc.beyond = false)
    (hpc : pc ≠ .stopPred) {woken : Option Tid} (hs : s.notify n pc woken = some s') : s'.Sound := by
  obtain ⟨m, hm, rfl⟩ := Option.map_eq_some_iff.mp hs
  obtain ⟨rfl, rfl, hb⟩ | ⟨rfl, hb, rfl⟩ := h.notifyOne_cases hm
  · exact h.goOn hin hbeyond hpc rfl rfl rfl rfl
  · refine ⟨guards_caller_keep h.guards rfl hin ?_ rfl, h.cleared_of_same rfl hpc rfl, nofun, fun k => ?_,
      .inr ⟨by simp [ProcessState.wake, setWorker], rfl⟩⟩
    · rw [hb]
      rfl
    · show (Function.update s.caller n pc k).beyond = false
      rw [Function.update_apply]
      split
      · exact hbeyond
      · exact h.beyond k

theorem callerStep {woken : Option Tid} {ready : Bool} (h : s.Sound) (hs : s.callerStep n woken ready = some s') :
    s'.Sound := by
  have hbeyond := h.beyond n
  unfold ProcessState.callerStep at hs
  cases hpc : s.caller n with
  | idle | stopBlocked => simp [hpc] at hs
  | stopEnd | stopWake | moveUnlock => simp [hpc, CallerPc.beyond] at hbeyond
  | enqueueLock task | stopLock waitFinish | moveLock other =>
    simp only [hpc] at hs
    exact h.lockAs rfl rfl (by simp) hs
  | enqueuePush task | moveQueue other =>
    simp only [hpc] at hs
    obtain rfl := Option.some.inj hs
    exact h.caller_step rfl rfl rfl (guards_caller_keep h.guards rfl (by rw [hpc]; rfl) rfl rfl) rfl
      (h.cleared_of_inside (by rw [hpc]; rfl) rfl (by simp)) (h.awake_of_inside (by rw [hpc]; rfl))
  | enqueueNotify | stopNotify =>
    simp only [hpc] at hs
    exact h.notify (by rw [hpc]; rfl) rfl (by simp) hs
  | enqueueUnlock | stopUnlock =>
    simp only [hpc] at hs
    obtain rfl := Option.some.inj hs
    exact h.unlockTo (by rw [hpc]; rfl) rfl rfl (by simp)
  | stopClear waitFinish =>
    simp only [hpc] at hs
    obtain rfl := Option.some.inj hs
    refine h.caller_step rfl rfl rfl (guards_caller_keep h.guards rfl ?_ rfl rfl) ?_ (fun _ _ => rfl) fun _ => rfl
    · rw [hpc]
      cases waitFinish <;> rfl
    · cases waitFinish <;> rfl
  | stopRequest | stopWaitFor =>
    simp only [hpc] at hs
    obtain rfl := Option.some.inj hs
    exact h.goOn (by rw [hpc]; rfl) rfl (by simp) rfl rfl rfl rfl
  | stopPred =>
    simp only [hpc, if_pos (h.cleared n hpc)] at hs
    obtain rfl := Option.some.inj hs
    exact h.goOn (by rw [hpc]; rfl) rfl (by simp) rfl rfl rfl rfl
  | readyLock caller =>
    simp only [hpc] at hs
    cases caller with
    | alone => exact h.lockAs rfl rfl (by simp) hs
    | queueReady =>
      rw [h.lockAs_of_inside (by rw [hpc]; rfl)] at hs
      cases hs
  | baseLock derived =>
    simp only [hpc] at hs
    cases derived with
    | false => exact h.lockAs rfl rfl (by simp) hs
    | true =>
      rw [h.lockAs_of_inside (by rw [hpc]; rfl)] at hs
      cases hs
  | readyUnlock caller =>
    cases caller with
    | alone =>
      simp only [hpc] at hs
      obtain rfl := Option.some.inj hs
      exact h.unlockTo (by rw [hpc]; rfl) rfl rfl (by simp)
    | queueReady => simp [hpc, CallerPc.beyond] at hbeyond
  | baseUnlock derived =>
    cases derived with
    | false =>
      simp only [hpc] at hs
      obtain rfl := Option.some.inj hs
      exact h.unlockTo (by rw [hpc]; rfl) rfl rfl (by simp)
    | true => simp [hpc, CallerPc.beyond] at hbeyond

/-- A step of the worker, which is not blocked before it. -/
theorem worker_step {pc : WorkerPc α} (h : s.Sound) (hworker : s'.worker = pc) (hcaller : s'.caller = s.caller)
    (hguards : s'.monitor.Guards s'.Inside)
    (hwaiters : pc = .blocked ∧ s'.monitor.waiters = [.worker] ∨ pc ≠ .blocked ∧ s'.monitor.waiters = [])
    (hqueue : ∀ m, s.caller m = .stopPred → s'.queue = []) (hasleep : pc = .sleep → s'.queue = []) : s'.Sound where
  guards := hguards
  cleared m hm := hqueue m (by rw [← hcaller]; exact hm)
  asleep hw := hasleep (by rw [← hworker, hw])
  beyond m := by
    rw [hcaller]
    exact h.beyond m
  waiters := by
    rw [hworker]
    exact hwaiters

theorem waiters_nil (h : s.Sound) (hne : s.worker ≠ .blocked) : s.monitor.waiters = [] := by
  obtain ⟨hb, -⟩ | ⟨-, hw⟩ := h.waiters
  · exact absurd hb hne
  · exact hw

theorem workerLock {pc : WorkerPc α} (h : s.Sound) (hne : s.worker ≠ .blocked) (hin : pc.inside = true)
    (hsleep : pc ≠ .sleep) (hs : s.workerLock pc = some s') : s'.Sound := by
  have hguards := guards_worker_lock h.guards hin hs
  obtain ⟨m, hm, rfl⟩ := Option.map_eq_some_iff.mp hs
  obtain ⟨-, rfl⟩ := Monitor.lock_eq_some hm
  refine h.worker_step rfl rfl hguards (.inr ⟨?_, h.waiters_nil hne⟩) h.cleared ?_
  · rintro rfl
    cases hin
  · rintro rfl
    exact absurd rfl hsleep

theorem workerGoOn {pc : WorkerPc α} (h : s.Sound) (hne : s.worker ≠ .blocked) (hin : pc.inside = s.worker.inside)
    (hpc : pc ≠ .blocked) (hsleep : pc = .sleep → s.queue = []) : (s.setWorker pc).Sound :=
  h.worker_step rfl rfl (guards_worker_keep h.guards rfl hin rfl rfl) (.inr ⟨hpc, h.waiters_nil hne⟩) h.cleared hsleep

theorem workerStep {kind : ProcessKind} (h : s.Sound) (hs : s.workerStep kind = some s') : s'.Sound := by
  unfold ProcessState.workerStep at hs
  cases hpc : s.worker with
  | blocked | done => simp [hpc] at hs
  | first =>
    simp only [hpc] at hs
    cases kind with
    | abstract =>
      obtain rfl := Option.some.inj hs
      exact h.workerGoOn (by simp [hpc]) (by rw [hpc]; rfl) (by simp) (by simp)
    | queuable =>
      obtain rfl := Option.some.inj hs
      exact h.workerGoOn (by simp [hpc]) (by rw [hpc]; rfl) (by simp) (by simp)
  | lock | relock | wake =>
    simp only [hpc] at hs
    exact h.workerLock (by simp [hpc]) rfl (by simp) hs
  | running task =>
    simp only [hpc] at hs
    obtain rfl := Option.some.inj hs
    exact h.workerGoOn (by simp [hpc]) (by rw [hpc]; rfl) (by simp) (by simp)
  | top =>
    simp only [hpc] at hs
    cases hq : s.queue with
    | nil =>
      simp only [hq] at hs
      obtain rfl := Option.some.inj hs
      exact h.workerGoOn (by simp [hpc]) (by rw [hpc]; rfl) (by simp) (by simp)
    | cons task queue =>
      simp only [hq] at hs
      obtain rfl := Option.some.inj hs
      refine h.worker_step rfl rfl (guards_worker_leave h.guards (by rw [hpc]; rfl) rfl rfl rfl rfl)
        (.inr ⟨by simp [setWorker], h.waiters_nil (by simp [hpc])⟩) (fun m hm => ?_) nofun
      rw [h.cleared m hm] at hq
      cases hq
  | pred =>
    simp only [hpc] at hs
    split at hs
    · obtain rfl := Option.some.inj hs
      exact h.workerGoOn (by simp [hpc]) (by rw [hpc]; rfl) (by simp) (by simp)
    · rename_i hpred
      obtain rfl := Option.some.inj hs
      refine h.workerGoOn (by simp [hpc]) (by rw [hpc]; rfl) (by simp) fun _ => ?_
      by_contra hne
      exact hpred (.inl hne)
  | sleep =>
    simp only [hpc] at hs
    obtain rfl := Option.some.inj hs
    refine h.worker_step rfl rfl (guards_worker_leave h.guards (by rw [hpc]; rfl) rfl rfl rfl rfl)
      (.inl ⟨rfl, ?_⟩) h.cleared nofun
    show Tid.worker :: s.monitor.waiters = [.worker]
    rw [h.waiters_nil (by simp [hpc])]
  | test =>
    simp only [hpc] at hs
    split at hs
    · obtain rfl := Option.some.inj hs
      exact h.worker_step rfl rfl (guards_worker_leave h.guards (by rw [hpc]; rfl) rfl rfl rfl rfl)
        (.inr ⟨by simp [setWorker], h.waiters_nil (by simp [hpc])⟩) h.cleared nofun
    · obtain rfl := Option.some.inj hs
      exact h.workerGoOn (by simp [hpc]) (by rw [hpc]; rfl) (by simp) (by simp)

theorem call {kind : ProcessKind} {op : Operation α} (h : s.Sound) (hidle : s.caller n = .idle)
    (hs : ProcessState.call kind s n op = some s') : s'.Sound := by
  cases op with
  | enqueue task =>
    cases kind with
    | abstract => cases hs
    | queuable =>
      obtain rfl := Option.some.inj hs
      exact h.goOn (by rw [hidle]; rfl) rfl (by simp) rfl rfl rfl rfl
  | requestStop waitFinish =>
    cases kind with
    | abstract =>
      obtain rfl := Option.some.inj hs
      cases waitFinish with
      | false => exact h.goOn (by rw [hidle]; rfl) rfl (by simp) rfl rfl rfl rfl
      | true => exact h.goOn (by rw [hidle]; rfl) rfl (by simp) rfl rfl rfl rfl
    | queuable =>
      obtain rfl := Option.some.inj hs
      exact h.goOn (by rw [hidle]; rfl) rfl (by simp) rfl rfl rfl rfl
  | ready =>
    obtain rfl := Option.some.inj hs
    exact h.goOn (by rw [hidle]; rfl) rfl (by simp) rfl rfl rfl rfl
  | moveAssign same other =>
    cases kind with
    | abstract =>
      obtain rfl := Option.some.inj hs
      exact h.goOn (by rw [hidle]; rfl) rfl (by simp) rfl rfl rfl rfl
    | queuable =>
      cases same with
      | true =>
        obtain rfl := Option.some.inj hs
        exact h
      | false =>
        obtain rfl := Option.some.inj hs
        exact h.goOn (by rw [hidle]; rfl) rfl (by simp) rfl rfl rfl rfl

/-- A thread that gets on without a notification is the worker. -/
theorem step_spurious {kind : ProcessKind} {t : Tid} (h : s.Sound)
    (hs : ProcessState.step kind s (.spurious t) = some s') :
    s.worker = .blocked ∧ s' = { s with worker := .wake, monitor := { s.monitor with waiters := [] } } := by
  obtain ⟨m, hm, rfl⟩ := Option.map_eq_some_iff.mp hs
  obtain ⟨ht, -⟩ | ⟨ht, hb, rfl⟩ := h.notifyOne_cases hm
  · cases ht
  · obtain rfl := Option.some.inj ht
    exact ⟨hb, rfl⟩

/-- The invariant of a step. -/
theorem step {kind : ProcessKind} {a : Action α} (h : s.Sound) (hs : ProcessState.step kind s a = some s') :
    s'.Sound := by
  cases a with
  | call n op =>
    obtain ⟨hidle, hs⟩ := step_call hs
    exact h.call hidle hs
  | caller n woken ready => exact h.callerStep hs
  | worker => exact h.workerStep hs
  | spurious t =>
    obtain ⟨hb, rfl⟩ := h.step_spurious hs
    exact h.worker_step rfl rfl (guards_worker_keep h.guards rfl (by rw [hb]; rfl) rfl rfl)
      (.inr ⟨by simp, rfl⟩) h.cleared nofun

end Sound

/-! ## What the step of a caller does -/

/-- What the step of a caller does to the process. -/
structure CallerEffect (s : ProcessState α) (n : ℕ) (s' : ProcessState α) : Prop where
  next : (s.caller n).next = some (s'.caller n)
  others : ∀ m, m ≠ n → s'.caller m = s.caller m
  queue : s'.queue = (s.caller n).leaves s.queue
  enqueued : s'.enqueued = s.enqueued ++ (s.caller n).pushed
  executed : s'.executed = s.executed
  asked : s'.asked = s.asked
  stop : s'.stop = true ↔ s.stop = true ∨ s.caller n = .stopRequest
  worker : (s.caller n).issues = false → s'.worker = s.worker
  wakes : (s.caller n).issues = true → s'.worker ≠ .blocked ∧ (s'.worker = s.worker ∨ s'.worker = .wake)

namespace CallerEffect

/-- The step of a caller that is not at a notification. -/
theorem of_update {pc : CallerPc α} (hnext : (s.caller n).next = some pc)
    (hcaller : s'.caller = Function.update s.caller n pc) (hqueue : s'.queue = (s.caller n).leaves s.queue)
    (henqueued : s'.enqueued = s.enqueued ++ (s.caller n).pushed) (hexecuted : s'.executed = s.executed)
    (hasked : s'.asked = s.asked) (hstop : s'.stop = true ↔ s.stop = true ∨ s.caller n = .stopRequest)
    (hworker : s'.worker = s.worker) (hissues : (s.caller n).issues = false) : s.CallerEffect n s' where
  next := by rw [hcaller, Function.update_self, hnext]
  others m hm := by rw [hcaller, Function.update_of_ne hm]
  queue := hqueue
  enqueued := henqueued
  executed := hexecuted
  asked := hasked
  stop := hstop
  worker _ := hworker
  wakes h := by rw [hissues] at h; cases h

theorem of_unlockTo {pc : CallerPc α} (hnext : (s.caller n).next = some pc)
    (hqueue : (s.caller n).leaves s.queue = s.queue) (hpushed : (s.caller n).pushed = [])
    (hissues : (s.caller n).issues = false) (hstop : s.caller n ≠ .stopRequest) :
    s.CallerEffect n (s.unlockTo n pc) := by
  refine of_update hnext rfl hqueue.symm ?_ rfl rfl ?_ rfl hissues
  · rw [hpushed, List.append_nil]
    rfl
  · simp [hstop, ProcessState.unlockTo, setCaller]

theorem of_lockAs {pc : CallerPc α} (hs : s.lockAs n pc = some s') (hnext : (s.caller n).next = some pc)
    (hqueue : (s.caller n).leaves s.queue = s.queue) (hpushed : (s.caller n).pushed = [])
    (hissues : (s.caller n).issues = false) (hstop : s.caller n ≠ .stopRequest) : s.CallerEffect n s' := by
  obtain ⟨m, -, rfl⟩ := Option.map_eq_some_iff.mp hs
  refine of_update hnext rfl hqueue.symm ?_ rfl rfl ?_ rfl hissues
  · rw [hpushed, List.append_nil]
    rfl
  · simp [hstop, setCaller]

end CallerEffect

namespace Sound

/-- A notification unblocks the worker. -/
theorem effect_notify {pc : CallerPc α} {woken : Option Tid} (h : s.Sound) (hs : s.notify n pc woken = some s')
    (hnext : (s.caller n).next = some pc) (hissues : s.caller n = .enqueueNotify ∨ s.caller n = .stopNotify) :
    s.CallerEffect n s' := by
  have hqueue : (s.caller n).leaves s.queue = s.queue := by
    obtain hpc | hpc := hissues <;> rw [hpc] <;> rfl
  have hpushed : (s.caller n).pushed = [] := by
    obtain hpc | hpc := hissues <;> rw [hpc] <;> rfl
  have hstop : s.caller n ≠ .stopRequest := by
    obtain hpc | hpc := hissues <;> simp [hpc]
  obtain ⟨m, hm, rfl⟩ := Option.map_eq_some_iff.mp hs
  obtain ⟨rfl, rfl, hb⟩ | ⟨rfl, hb, rfl⟩ := h.notifyOne_cases hm
  · refine ⟨?_, fun k hk => Function.update_of_ne hk _ _, hqueue.symm, ?_, rfl, rfl, ?_, fun _ => rfl,
      fun _ => ⟨hb, .inl rfl⟩⟩
    · simp [setCaller, hnext]
    · simp [setCaller, hpushed]
    · simp [setCaller, hstop]
  · refine ⟨?_, fun k hk => Function.update_of_ne hk _ _, hqueue.symm, ?_, rfl, rfl, ?_, fun hno => ?_,
      fun _ => ⟨nofun, .inr rfl⟩⟩
    · simp [setCaller, ProcessState.wake, setWorker, hnext]
    · simp [setCaller, ProcessState.wake, setWorker, hpushed]
    · simp [setCaller, ProcessState.wake, setWorker, hstop]
    · obtain hpc | hpc := hissues <;> rw [hpc] at hno <;> cases hno

/-- **What the step of a caller does.** -/
theorem callerEffect {woken : Option Tid} {ready : Bool} (h : s.Sound)
    (hs : s.callerStep n woken ready = some s') : s.CallerEffect n s' := by
  have hbeyond := h.beyond n
  unfold ProcessState.callerStep at hs
  cases hpc : s.caller n with
  | idle | stopBlocked => simp [hpc] at hs
  | stopEnd | stopWake | moveUnlock => simp [hpc, CallerPc.beyond] at hbeyond
  | enqueueLock task | stopLock waitFinish | moveLock other =>
    simp only [hpc] at hs
    exact .of_lockAs hs (by rw [hpc]; rfl) (by rw [hpc]; rfl) (by rw [hpc]; rfl) (by rw [hpc]; rfl) (by simp [hpc])
  | enqueuePush task | moveQueue other | stopClear waitFinish | stopWaitFor | stopRequest =>
    simp only [hpc] at hs
    obtain rfl := Option.some.inj hs
    exact .of_update (by rw [hpc]; rfl) rfl (by rw [hpc]; rfl) (by simp [hpc, CallerPc.pushed, setCaller]) rfl rfl
      (by simp [hpc, setCaller]) rfl (by rw [hpc]; rfl)
  | enqueueNotify | stopNotify =>
    simp only [hpc] at hs
    exact h.effect_notify hs (by rw [hpc]; rfl) (by simp [hpc])
  | enqueueUnlock | stopUnlock =>
    simp only [hpc] at hs
    obtain rfl := Option.some.inj hs
    exact .of_unlockTo (by rw [hpc]; rfl) (by rw [hpc]; rfl) (by rw [hpc]; rfl) (by rw [hpc]; rfl) (by simp [hpc])
  | stopPred =>
    simp only [hpc, if_pos (h.cleared n hpc)] at hs
    obtain rfl := Option.some.inj hs
    exact .of_update (by rw [hpc]; rfl) rfl (by rw [hpc]; rfl) (by simp [hpc, CallerPc.pushed, setCaller]) rfl rfl
      (by simp [hpc, setCaller]) rfl (by rw [hpc]; rfl)
  | readyLock caller =>
    simp only [hpc] at hs
    cases caller with
    | alone =>
      exact .of_lockAs hs (by rw [hpc]; rfl) (by rw [hpc]; rfl) (by rw [hpc]; rfl) (by rw [hpc]; rfl) (by simp [hpc])
    | queueReady =>
      rw [h.lockAs_of_inside (by rw [hpc]; rfl)] at hs
      cases hs
  | baseLock derived =>
    simp only [hpc] at hs
    cases derived with
    | false =>
      exact .of_lockAs hs (by rw [hpc]; rfl) (by rw [hpc]; rfl) (by rw [hpc]; rfl) (by rw [hpc]; rfl) (by simp [hpc])
    | true =>
      rw [h.lockAs_of_inside (by rw [hpc]; rfl)] at hs
      cases hs
  | readyUnlock caller =>
    cases caller with
    | alone =>
      simp only [hpc] at hs
      obtain rfl := Option.some.inj hs
      exact .of_unlockTo (by rw [hpc]; rfl) (by rw [hpc]; rfl) (by rw [hpc]; rfl) (by rw [hpc]; rfl) (by simp [hpc])
    | queueReady => simp [hpc, CallerPc.beyond] at hbeyond
  | baseUnlock derived =>
    cases derived with
    | false =>
      simp only [hpc] at hs
      obtain rfl := Option.some.inj hs
      exact .of_unlockTo (by rw [hpc]; rfl) (by rw [hpc]; rfl) (by rw [hpc]; rfl) (by rw [hpc]; rfl) (by simp [hpc])
    | true => simp [hpc, CallerPc.beyond] at hbeyond

/-- Nothing runs but the worker. -/
theorem initial : ({} : ProcessState α).Sound where
  guards t := by cases t <;> simp [Inside, WorkerPc.inside, CallerPc.inside]
  cleared _ h := by cases h
  asleep h := by cases h
  beyond _ := rfl
  waiters := .inr ⟨by simp, rfl⟩

end Sound

/-! ## What the other steps do -/

/-- What a call does to the process. -/
structure CallEffect (kind : ProcessKind) (s : ProcessState α) (n : ℕ) (op : Operation α) (s' : ProcessState α) :
    Prop where
  caller : s'.caller = Function.update s.caller n (op.entry kind)
  queue : s'.queue = s.queue
  stop : s'.stop = s.stop
  worker : s'.worker = s.worker
  enqueued : s'.enqueued = s.enqueued
  executed : s'.executed = s.executed
  asked : s'.asked = (s.asked || op.asks)

theorem callEffect {kind : ProcessKind} {op : Operation α} (hidle : s.caller n = .idle)
    (hs : call kind s n op = some s') : CallEffect kind s n op s' := by
  have hsame : Function.update s.caller n .idle = s.caller := by rw [← hidle, Function.update_eq_self]
  cases op <;> cases kind
  case enqueue.abstract => cases hs
  case moveAssign.queuable same other =>
    cases same with
    | true =>
      obtain rfl := Option.some.inj hs
      exact ⟨hsame.symm, rfl, rfl, rfl, rfl, rfl, (Bool.or_false _).symm⟩
    | false =>
      obtain rfl := Option.some.inj hs
      exact ⟨rfl, rfl, rfl, rfl, rfl, rfl, (Bool.or_false _).symm⟩
  case requestStop.abstract | requestStop.queuable =>
    obtain rfl := Option.some.inj hs
    exact ⟨rfl, rfl, rfl, rfl, rfl, rfl, (Bool.or_true _).symm⟩
  all_goals
    obtain rfl := Option.some.inj hs
    exact ⟨rfl, rfl, rfl, rfl, rfl, rfl, (Bool.or_false _).symm⟩

/-- What the step of the worker of a process with a queue does. -/
structure WorkerEffect (s s' : ProcessState α) : Prop where
  caller : s'.caller = s.caller
  tasks : s'.executed ++ s'.queue = s.executed ++ s.queue
  stop : s'.stop = s.stop
  enqueued : s'.enqueued = s.enqueued
  asked : s'.asked = s.asked
  blocked : s'.worker = .blocked → s.worker = .sleep ∧ s'.queue = s.queue
  done : s'.worker = .done → s.stop = true

theorem workerEffect_lock {pc : WorkerPc α} (hblocked : pc ≠ .blocked) (hdone : pc ≠ .done)
    (hs : s.workerLock pc = some s') : WorkerEffect s s' := by
  obtain ⟨m, -, rfl⟩ := Option.map_eq_some_iff.mp hs
  exact ⟨rfl, rfl, rfl, rfl, rfl, fun h => absurd h hblocked, fun h => absurd h hdone⟩

theorem workerEffect_goOn {pc : WorkerPc α} (hblocked : pc ≠ .blocked) (hdone : pc ≠ .done) :
    WorkerEffect s (s.setWorker pc) :=
  ⟨rfl, rfl, rfl, rfl, rfl, fun h => absurd h hblocked, fun h => absurd h hdone⟩

theorem workerEffect (hs : s.workerStep .queuable = some s') : WorkerEffect s s' := by
  unfold workerStep at hs
  cases hpc : s.worker with
  | blocked | done => simp [hpc] at hs
  | lock | relock | wake =>
    simp only [hpc] at hs
    exact workerEffect_lock (by simp) (by simp) hs
  | first | running task =>
    simp only [hpc] at hs
    obtain rfl := Option.some.inj hs
    exact workerEffect_goOn (by simp) (by simp)
  | top =>
    simp only [hpc] at hs
    cases hq : s.queue with
    | nil =>
      simp only [hq] at hs
      obtain rfl := Option.some.inj hs
      exact workerEffect_goOn (by simp) (by simp)
    | cons task queue =>
      simp only [hq] at hs
      obtain rfl := Option.some.inj hs
      refine ⟨rfl, ?_, rfl, rfl, rfl, nofun, nofun⟩
      show (s.executed ++ [task]) ++ queue = s.executed ++ s.queue
      rw [hq, List.append_assoc, List.singleton_append]
  | pred =>
    simp only [hpc] at hs
    split at hs <;> obtain rfl := Option.some.inj hs <;> exact workerEffect_goOn (by simp) (by simp)
  | sleep =>
    simp only [hpc] at hs
    obtain rfl := Option.some.inj hs
    exact ⟨rfl, rfl, rfl, rfl, rfl, fun _ => ⟨hpc, rfl⟩, nofun⟩
  | test =>
    simp only [hpc] at hs
    split at hs
    · rename_i hstop
      obtain rfl := Option.some.inj hs
      exact ⟨rfl, rfl, rfl, rfl, rfl, nofun, fun _ => hstop⟩
    · obtain rfl := Option.some.inj hs
      exact workerEffect_goOn (by simp) (by simp)

/-- A worker leaves the callers where they are. -/
theorem workerStep_caller {kind : ProcessKind} (hs : s.workerStep kind = some s') : s'.caller = s.caller := by
  cases kind with
  | queuable => exact (workerEffect hs).caller
  | abstract =>
    cases hpc : s.worker with
    | first =>
      simp only [workerStep, hpc] at hs
      obtain rfl := Option.some.inj hs
      rfl
    | _ =>
      refine (@workerEffect _ s s' ?_).caller
      simp only [workerStep, hpc] at hs ⊢
      exact hs

/-- A caller stays, goes on, or begins a call. -/
theorem Sound.caller_of_step {kind : ProcessKind} {a : Action α} (h : s.Sound)
    (hs : ProcessState.step kind s a = some s') (m : ℕ) :
    s'.caller m = s.caller m ∨ (s.caller m).next = some (s'.caller m) ∨
      ∃ op, a = .call m op ∧ s'.caller m = op.entry kind := by
  cases a with
  | call n op =>
    obtain ⟨hidle, hs⟩ := step_call hs
    rw [(callEffect hidle hs).caller, Function.update_apply]
    split
    · rename_i hm
      subst hm
      exact .inr (.inr ⟨op, rfl, rfl⟩)
    · exact .inl rfl
  | caller n woken ready =>
    have heffect := h.callerEffect hs
    by_cases hm : m = n
    · subst hm
      exact .inr (.inl heffect.next)
    · exact .inl (heffect.others m hm)
  | worker =>
    left
    rw [workerStep_caller hs]
  | spurious t =>
    left
    obtain ⟨-, rfl⟩ := h.step_spurious hs
    rfl

end ProcessState

end Mashroom.Network
