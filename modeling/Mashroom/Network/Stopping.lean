import Mashroom.Network.Locks

/-!
# Network.Stopping — whether a request to stop ends the worker

A process is asked to stop by the one thread that still uses it, without waiting, as its destructor does.  The request
notifies the worker and sets the stop state after that; in between the worker may look at the stop state and be blocked
again, and nobody notifies it any more.  So the worker ends however the two threads go on exactly where a stop was
requested before (`ends_iff`).  A blocked thread gets on only by a notification here: what a spurious one would do,
nothing can count on.
-/

namespace Mashroom.Network

/-- Who goes on.  Who is unblocked by the notification of the caller is given. -/
inductive StopTurn where
  | caller (woken : Option Tid)
  | worker

namespace ProcessState

variable {α : Type} {n : ℕ} {s s' : ProcessState α}

/-- One step of the caller `n` or of the worker. -/
def stopStep (n : ℕ) (s : ProcessState α) : StopTurn → Option (ProcessState α)
  | .caller woken => step .queuable s (.caller n woken false)
  | .worker => step .queuable s .worker

/-- However the caller and the worker go on, the worker can end. -/
def Ends (n : ℕ) (s : ProcessState α) : Prop :=
  ∀ turns s', Runs.run (stopStep n) s turns = some s' →
    ∃ more s'', Runs.run (stopStep n) s' more = some s'' ∧ s''.worker = .done

/-! ## How far the threads are -/

/-- How many steps the caller has left in `request_stop_protected`. -/
def callerRank : CallerPc α → ℕ
  | .stopLock _ => 5
  | .stopClear _ => 4
  | .stopUnlock => 3
  | .stopNotify => 2
  | .stopRequest => 1
  | _ => 0

/-- Where the caller is in `request_stop_protected(false)`. -/
def stopping : CallerPc α → Bool
  | .stopLock false | .stopClear false | .stopUnlock | .stopNotify | .stopRequest | .idle => true
  | _ => false

/-- The caller is before its notification. -/
def beforeNotify : CallerPc α → Bool
  | .stopLock false | .stopClear false | .stopUnlock | .stopNotify => true
  | _ => false

/-- How many steps a worker has left at most that was asked to stop. -/
def workerRank : WorkerPc α → ℕ
  | .first => 11
  | .lock => 10
  | .top => 9
  | .running _ => 8
  | .relock => 7
  | .sleep => 6
  | .blocked => 5
  | .wake => 4
  | .pred => 3
  | .test => 2
  | .done => 0

/-- A bound for the steps of both; the notification may set the worker back. -/
def stopRank (n : ℕ) (s : ProcessState α) : ℕ := workerRank s.worker + 12 * callerRank (s.caller n)

/-- What a step of the caller does to its place. -/
theorem next_stopping {pc pc' : CallerPc α} (h : pc.next = some pc') (hpc : stopping pc = true) :
    stopping pc' = true ∧ callerRank pc' < callerRank pc ∧ pc' ≠ .stopLock false ∧
      (beforeNotify pc = true → beforeNotify pc' = true ∨ pc = .stopNotify) := by
  cases pc with
  | stopLock waitFinish | stopClear waitFinish =>
    cases waitFinish with
    | true => cases hpc
    | false =>
      obtain rfl := Option.some.inj h
      simp [stopping, callerRank, beforeNotify]
  | stopUnlock | stopNotify | stopRequest =>
    obtain rfl := Option.some.inj h
    simp [stopping, callerRank, beforeNotify]
  | idle => cases h
  | _ => cases hpc

/-- What a step of a worker does that was asked to stop: it gets nearer to its end, and does not fall asleep. -/
theorem worker_stops (hstop : s.stop = true) (h : s.workerStep .queuable = some s') :
    workerRank s'.worker < workerRank s.worker ∧ s'.worker ≠ .sleep := by
  unfold workerStep at h
  cases hpc : s.worker with
  | blocked | done => simp [hpc] at h
  | lock | relock | wake =>
    simp only [hpc] at h
    obtain ⟨m, -, rfl⟩ := Option.map_eq_some_iff.mp h
    simp [workerRank, setWorker]
  | first | running task | sleep =>
    simp only [hpc] at h
    obtain rfl := Option.some.inj h
    simp [workerRank, setWorker]
  | top =>
    simp only [hpc] at h
    split at h <;> obtain rfl := Option.some.inj h <;> simp [workerRank, setWorker]
  | pred =>
    simp only [hpc, hstop, or_true, if_true] at h
    obtain rfl := Option.some.inj h
    simp [workerRank, setWorker]
  | test =>
    simp only [hpc, hstop, if_true] at h
    obtain rfl := Option.some.inj h
    simp [workerRank, setWorker]

/-- A worker that is not blocked has a step, if it is not kept from the mutex. -/
theorem exists_workerStep (hblocked : s.worker ≠ .blocked) (hdone : s.worker ≠ .done)
    (hfree : s.worker.locks = true → s.monitor.owner = none) : ∃ s', s.workerStep .queuable = some s' := by
  cases hpc : s.worker with
  | blocked => exact absurd hpc hblocked
  | done => exact absurd hpc hdone
  | lock | relock | wake =>
    have howner := hfree (by rw [hpc]; rfl)
    simp [workerStep, hpc, workerLock, Monitor.lock, howner]
  | first | running task | sleep => simp [workerStep, hpc]
  | top => cases hq : s.queue <;> simp [workerStep, hpc, hq]
  | pred =>
    by_cases hp : s.queue ≠ [] ∨ s.stop = true
    · exact ⟨_, by simp only [workerStep, hpc, if_pos hp]; rfl⟩
    · exact ⟨_, by simp only [workerStep, hpc, if_neg hp]; rfl⟩
  | test => cases hs : s.stop <;> simp [workerStep, hpc, hs]

/-- Where only the caller `n` does something, and is outside, the mutex is free or the worker has it. -/
theorem Sound.owner_of_outside (h : s.Sound) (hothers : ∀ m, m ≠ n → s.caller m = .idle)
    (hn : (s.caller n).inside = false) : s.monitor.owner = none ∨ s.worker.inside = true := by
  cases howner : s.monitor.owner with
  | none => exact .inl rfl
  | some t =>
    have hin : s.Inside t := (h.guards t).mpr howner
    cases t with
    | worker => exact .inr hin
    | caller m =>
      replace hin : (s.caller m).inside = true := hin
      by_cases hm : m = n
      · rw [hm, hn] at hin
        cases hin
      · rw [hothers m hm] at hin
        cases hin

/-- So the worker has a step then, if it is not blocked. -/
theorem Sound.exists_workerStep (h : s.Sound) (hothers : ∀ m, m ≠ n → s.caller m = .idle)
    (hn : (s.caller n).inside = false) (hblocked : s.worker ≠ .blocked) (hdone : s.worker ≠ .done) :
    ∃ s', s.workerStep .queuable = some s' := by
  refine ProcessState.exists_workerStep hblocked hdone fun hlocks => ?_
  refine (h.owner_of_outside hothers hn).resolve_right fun hin => ?_
  cases hpc : s.worker <;> simp [hpc, WorkerPc.locks, WorkerPc.inside] at hlocks hin

/-! ## After an earlier request to stop -/

/-- A process that is asked to stop again. -/
structure Stopping (n : ℕ) (s : ProcessState α) : Prop where
  sound : s.Sound
  stop : s.stop = true
  others : ∀ m, m ≠ n → s.caller m = .idle
  caller : stopping (s.caller n) = true
  asleep : s.worker = .sleep → s.caller n = .stopLock false
  blocked : s.worker = .blocked → beforeNotify (s.caller n) = true

namespace Stopping

theorem callerStep (h : Stopping n s) {woken : Option Tid} (hs : s.callerStep n woken false = some s') :
    Stopping n s' ∧ stopRank n s' < stopRank n s := by
  have heffect := h.sound.callerEffect hs
  obtain ⟨hstopping, hrank, hlock, hbefore⟩ := next_stopping heffect.next h.caller
  have hasleep : s'.worker ≠ .sleep := by
    intro hw
    have hworker : s.worker = .sleep := by
      cases hissues : (s.caller n).issues with
      | false => rw [← heffect.worker hissues, hw]
      | true =>
        obtain ⟨-, h' | h'⟩ := heffect.wakes hissues
        · rw [← h', hw]
        · rw [hw] at h'
          cases h'
    -- the worker has the mutex that the caller is about to lock
    have howner : s.monitor.owner = some .worker := (h.sound.guards .worker).mp (by
      show s.worker.inside = true
      rw [hworker]
      rfl)
    simp [ProcessState.callerStep, h.asleep hworker, lockAs, Monitor.lock, howner] at hs
  refine ⟨⟨h.sound.callerStep hs, heffect.stop.mpr (.inl h.stop), fun m hm => ?_, hstopping,
    fun hw => absurd hw hasleep, fun hw => ?_⟩, ?_⟩
  · rw [heffect.others m hm, h.others m hm]
  · cases hissues : (s.caller n).issues with
    | true => exact absurd hw (heffect.wakes hissues).1
    | false =>
      rw [heffect.worker hissues] at hw
      refine (hbefore (h.blocked hw)).resolve_right fun hnotify => ?_
      rw [hnotify] at hissues
      cases hissues
  · have hworker : workerRank s'.worker ≤ 11 := by cases s'.worker <;> simp [workerRank]
    unfold stopRank
    omega

theorem workerStep (h : Stopping n s) (hs : s.workerStep .queuable = some s') :
    Stopping n s' ∧ stopRank n s' < stopRank n s := by
  have heffect := workerEffect hs
  obtain ⟨hrank, hasleep⟩ := worker_stops h.stop hs
  have hcaller : s'.caller = s.caller := heffect.caller
  refine ⟨⟨h.sound.workerStep hs, by rw [heffect.stop, h.stop], by rw [hcaller]; exact h.others,
    by rw [hcaller]; exact h.caller, fun hw => absurd hw hasleep, fun hw => ?_⟩, ?_⟩
  · rw [hcaller, h.asleep (heffect.blocked hw).1]
    rfl
  · unfold stopRank
    rw [hcaller]
    omega

theorem step (h : Stopping n s) {turn : StopTurn} (hs : stopStep n s turn = some s') :
    Stopping n s' ∧ stopRank n s' < stopRank n s := by
  cases turn with
  | caller woken => exact h.callerStep hs
  | worker => exact h.workerStep hs

/-- As long as the worker is not done, one of the two has a step. -/
theorem exists_step (h : Stopping n s) (hdone : s.worker ≠ .done) : ∃ turn s', stopStep n s turn = some s' := by
  have hworker (hn : (s.caller n).inside = false) (hblocked : s.worker ≠ .blocked) :
      ∃ turn s', stopStep n s turn = some s' := by
    obtain ⟨s', hs⟩ := h.sound.exists_workerStep h.others hn hblocked hdone
    exact ⟨.worker, s', hs⟩
  have hcaller := h.caller
  cases hpc : s.caller n with
  | idle =>
    refine hworker (by rw [hpc]; rfl) fun hb => ?_
    have hbefore := h.blocked hb
    rw [hpc] at hbefore
    cases hbefore
  | stopLock waitFinish =>
    obtain howner | hin := h.sound.owner_of_outside h.others (by rw [hpc]; rfl)
    · refine ⟨.caller none, ?_⟩
      simp [stopStep, ProcessState.step, ProcessState.callerStep, hpc, lockAs, Monitor.lock, howner]
    · refine hworker (by rw [hpc]; rfl) fun hb => ?_
      rw [hb] at hin
      cases hin
  | stopNotify =>
    obtain ⟨hb, hwaiters⟩ | ⟨hb, hwaiters⟩ := h.sound.waiters
    · refine ⟨.caller (some .worker), ?_⟩
      simp [stopStep, ProcessState.step, ProcessState.callerStep, hpc, notify, Monitor.notifyOne, hwaiters]
    · exact hworker (by rw [hpc]; rfl) hb
  | stopClear waitFinish | stopUnlock | stopRequest =>
    exact ⟨.caller none, _, by simp only [stopStep, ProcessState.step, ProcessState.callerStep, hpc]; rfl⟩
  | _ =>
    rw [hpc] at hcaller
    cases hcaller

theorem run {turns : List StopTurn} (h : Stopping n s) (hs : Runs.run (stopStep n) s turns = some s') :
    Stopping n s' :=
  Runs.invariant_run (C := fun _ _ => True) (fun _ _ _ h _ hs => (h.step hs).1) h (Runs.meets_of_mem (by simp) _) hs

theorem ends (h : Stopping n s) : Ends n s := by
  intro turns s' hs
  have hstep : ∀ t : ProcessState α, Stopping n t → t.worker ≠ .done →
      ∃ turn t', stopStep n t turn = some t' ∧ Stopping n t' ∧ stopRank n t' < stopRank n t := fun t ht hdone => by
    obtain ⟨turn, t', hstep⟩ := ht.exists_step hdone
    exact ⟨turn, t', hstep, ht.step hstep⟩
  obtain ⟨more, s'', hrun, -, hdone⟩ := Runs.exists_run (stopRank n) hstep (h.run hs)
  exact ⟨more, s'', hrun, hdone⟩

end Stopping

/-! ## Without an earlier request -/

/-- How far a worker is from being blocked that nobody asked to stop, with a queue that is empty or not. -/
def waitRank (empty : Bool) : WorkerPc α → ℕ
  | .first | .running _ => 6
  | .lock | .relock | .wake => 5
  | .test => if empty then 4 else 2
  | .top => if empty then 3 else 1
  | .pred => if empty then 2 else 3
  | .sleep => 1
  | .blocked | .done => 0

/-- A bound for the steps until it is blocked. -/
def idleRank (s : ProcessState α) : ℕ := 10 * s.queue.length + waitRank s.queue.isEmpty s.worker

theorem worker_waits (hstop : s.stop = false) (h : s.workerStep .queuable = some s') : idleRank s' < idleRank s := by
  unfold workerStep at h
  cases hpc : s.worker with
  | blocked | done => simp [hpc] at h
  | lock | relock | wake =>
    simp only [hpc] at h
    obtain ⟨m, -, rfl⟩ := Option.map_eq_some_iff.mp h
    cases hq : s.queue <;> simp [idleRank, waitRank, setWorker, hpc, hq]
  | first | running task | sleep =>
    simp only [hpc] at h
    obtain rfl := Option.some.inj h
    simp [idleRank, waitRank, setWorker, hpc]
  | top =>
    cases hq : s.queue with
    | nil =>
      simp only [hpc, hq] at h
      obtain rfl := Option.some.inj h
      simp [idleRank, waitRank, setWorker, hpc, hq]
    | cons task queue =>
      simp only [hpc, hq] at h
      obtain rfl := Option.some.inj h
      simp [idleRank, waitRank, setWorker, hpc, hq]
      omega
  | pred =>
    cases hq : s.queue <;> simp [hpc, hq, hstop] at h <;> subst h <;>
      simp [idleRank, waitRank, setWorker, hpc, hq]
  | test =>
    simp only [hpc, hstop, Bool.false_eq_true, if_false] at h
    obtain rfl := Option.some.inj h
    cases hq : s.queue <;> simp [idleRank, waitRank, setWorker, hpc, hq]

/-- A process that nobody asked to stop before. -/
structure Running (n : ℕ) (s : ProcessState α) : Prop where
  sound : s.Sound
  stop : s.stop = false
  others : ∀ m, m ≠ n → s.caller m = .idle
  caller : s.caller n = .stopLock false
  alive : s.worker ≠ .done

namespace Running

theorem workerStep (h : Running n s) (hs : s.workerStep .queuable = some s') : Running n s' := by
  have heffect := workerEffect hs
  refine ⟨h.sound.workerStep hs, by rw [heffect.stop, h.stop], fun m hm => ?_, ?_, fun hdone => ?_⟩
  · rw [heffect.caller, h.others m hm]
  · rw [heffect.caller, h.caller]
  · have hstop := heffect.done hdone
    rw [h.stop] at hstop
    cases hstop

/-- While the caller has not locked the mutex, the worker gets to where it is blocked. -/
theorem exists_blocked (h : Running n s) :
    ∃ turns s', Runs.run (stopStep n) s turns = some s' ∧ Running n s' ∧ s'.worker = .blocked := by
  refine Runs.exists_run idleRank (fun t ht hblocked => ?_) h
  have hn : (t.caller n).inside = false := by
    rw [ht.caller]
    rfl
  obtain ⟨t', hstep⟩ := ht.sound.exists_workerStep ht.others hn hblocked ht.alive
  exact ⟨.worker, t', hstep, ht.workerStep hstep, worker_waits ht.stop hstep⟩

/-- The caller clears the queue and notifies the worker, which is blocked again before the stop is requested. -/
theorem exists_lost (h : Running n s) (hblocked : s.worker = .blocked) :
    ∃ turns s', Runs.run (stopStep n) s turns = some s' ∧ s'.worker = .blocked ∧ s'.caller n = .idle := by
  have howner : s.monitor.owner = none :=
    (h.sound.owner_of_outside h.others (by rw [h.caller]; rfl)).resolve_right (by rw [hblocked]; nofun)
  have hwaiters : s.monitor.waiters = [.worker] := by
    obtain ⟨-, hw⟩ | ⟨hb, -⟩ := h.sound.waiters
    · exact hw
    · exact absurd hblocked hb
  refine ⟨[.caller none, .caller none, .caller none, .caller (some .worker), .worker, .worker, .worker, .caller none],
    ?_⟩
  simp [Runs.run, stopStep, ProcessState.step, ProcessState.callerStep, ProcessState.workerStep, workerLock, lockAs,
    unlockTo, notify, ProcessState.wake, setCaller, setWorker, Monitor.lock, Monitor.unlock, Monitor.wait,
    Monitor.notifyOne, h.caller, h.stop, howner, hwaiters]

end Running

/-- Then neither has a step left. -/
theorem stopStep_lost (hblocked : s.worker = .blocked) (hidle : s.caller n = .idle) (turn : StopTurn) :
    stopStep n s turn = none := by
  cases turn with
  | caller woken => simp [stopStep, step, callerStep, hidle]
  | worker => simp [stopStep, step, workerStep, hblocked]

theorem Running.not_ends (h : Running n s) : ¬ Ends n s := by
  intro hends
  obtain ⟨turns, t, hturns, ht, hblocked⟩ := h.exists_blocked
  obtain ⟨turns', t', hturns', hlost, hidle⟩ := ht.exists_lost hblocked
  have hrun : Runs.run (stopStep n) s (turns ++ turns') = some t' := by
    rw [Runs.run_append, hturns, Option.bind_some, hturns']
  obtain ⟨more, t'', hmore, hdone⟩ := hends _ t' hrun
  cases more with
  | nil =>
    obtain rfl := Option.some.inj hmore
    rw [hlost] at hdone
    cases hdone
  | cons turn more =>
    rw [Runs.run_cons, stopStep_lost hlost hidle] at hmore
    cases hmore

/-! ## The last request -/

/-- The worker ends only where a stop was requested. -/
theorem stop_of_done {a : Action α} (hsound : s.Sound) (h : s.worker = .done → s.stop = true)
    (hs : step .queuable s a = some s') : s'.worker = .done → s'.stop = true := by
  intro hdone
  cases a with
  | call m op =>
    obtain ⟨hidle, hs⟩ := step_call hs
    have heffect := callEffect hidle hs
    rw [heffect.stop]
    exact h (by rw [← heffect.worker, hdone])
  | caller m woken ready =>
    have heffect := hsound.callerEffect hs
    refine heffect.stop.mpr (.inl (h ?_))
    cases hissues : (s.caller m).issues with
    | false => rw [← heffect.worker hissues, hdone]
    | true =>
      obtain ⟨-, hw | hw⟩ := heffect.wakes hissues
      · rw [← hw, hdone]
      · rw [hw] at hdone
        cases hdone
  | worker =>
    rw [(workerEffect hs).stop]
    exact (workerEffect hs).done hdone
  | spurious t =>
    obtain ⟨-, rfl⟩ := hsound.step_spurious hs
    cases hdone

theorem sound_run {as : List (Action α)} (h : Runs.run (step .queuable) ({} : ProcessState α) as = some s) :
    s.Sound ∧ (s.worker = .done → s.stop = true) := by
  refine Runs.invariant_run (C := fun _ _ => True) (I := fun s => s.Sound ∧ (s.worker = .done → s.stop = true))
    (fun s a s' hs _ hstep => ⟨hs.1.step hstep, stop_of_done hs.1 hs.2 hstep⟩) ⟨.initial, fun hw => by cases hw⟩
    (Runs.meets_of_mem (by simp) _) h

/-- **Where a request to stop that is not waited for is the last use of a process, its worker ends however the two
threads go on exactly where a stop had been requested before.** -/
theorem ends_iff {as : List (Action α)} (h : Runs.run (step .queuable) ({} : ProcessState α) as = some s)
    (hidle : ∀ m, s.caller m = .idle) (hs : step .queuable s (.call n (.requestStop false)) = some s') :
    Ends n s' ↔ s.stop = true := by
  obtain ⟨hsound, hdone⟩ := sound_run h
  have heffect := callEffect (hidle n) (step_call hs).2
  have hn : s'.caller n = .stopLock false := by
    rw [heffect.caller, Function.update_self]
    rfl
  have hothers : ∀ m, m ≠ n → s'.caller m = .idle := fun m hm => by
    rw [heffect.caller, Function.update_of_ne hm, hidle]
  have hsound' : s'.Sound := hsound.step hs
  cases hstop : s.stop with
  | true =>
    refine iff_of_true (Stopping.ends ⟨hsound', by rw [heffect.stop, hstop], hothers, ?_, fun _ => hn, fun _ => ?_⟩) rfl
    · rw [hn]
      rfl
    · rw [hn]
      rfl
  | false =>
    refine iff_of_false (Running.not_ends ⟨hsound', by rw [heffect.stop, hstop], hothers, hn, fun hw => ?_⟩) (by simp)
    rw [heffect.worker] at hw
    have hyes := hdone hw
    rw [hstop] at hyes
    cases hyes

/-- Nobody asked a process to stop before that has just begun. -/
theorem ends_iff_initial : ∃ s : ProcessState ℕ, step .queuable {} (.call 0 (.requestStop false)) = some s ∧
    ¬ Ends 0 s := by
  have hrun : Runs.run (step .queuable) ({} : ProcessState ℕ) [] = some {} := rfl
  refine ⟨_, rfl, fun hends => ?_⟩
  have hstop := (ends_iff hrun (fun _ => rfl) rfl).mp hends
  cases hstop

end ProcessState

end Mashroom.Network
