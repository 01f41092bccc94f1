import Mashroom.Network.Locks

/-!
# Network.Queue — the tasks of a process with a queue

Callers enqueue tasks and request stops, and the worker takes the tasks from the front of the queue.  They are executed
in the order in which they were enqueued, and none is dropped before a stop is requested (`inOrder`).  The notification
of `request_stop_protected` comes before the stop state is set, and outside the mutex: the worker is left blocked
exactly where no other notification follows (`awake_iff_signalled`).
-/

namespace Mashroom.Network

/-- The caller is in an assignment from another process. -/
def CallerPc.moves {α : Type} : CallerPc α → Bool
  | .moveLock _ | .moveQueue _ | .baseLock true | .baseUnlock true | .moveUnlock => true
  | _ => false

/-- The caller is in a request to stop. -/
def CallerPc.stops {α : Type} : CallerPc α → Bool
  | .stopLock _ | .stopClear _ | .stopUnlock | .stopNotify | .stopRequest | .stopPred | .stopBlocked | .stopWake
  | .stopEnd | .stopWaitFor | .readyLock .queueReady | .readyUnlock .queueReady => true
  | _ => false

/-- The caller is past its lock and before its notification: nothing keeps it from that. -/
def CallerPc.notifies {α : Type} : CallerPc α → Bool
  | .enqueuePush _ | .enqueueNotify | .stopUnlock | .stopNotify => true
  | .stopClear waitFinish => !waitFinish
  | _ => false

/-- The operation is an assignment. -/
def Operation.moves {α : Type} : Operation α → Bool
  | .moveAssign _ _ => true
  | .enqueue _ | .requestStop _ | .ready => false

section Callers

variable {α : Type} {pc pc' : CallerPc α}

theorem CallerPc.moves_next (hnext : pc.next = some pc') (h : pc.moves = false) : pc'.moves = false := by
  cases pc with
  | moveLock | moveQueue | moveUnlock => cases h
  | idle | stopBlocked | stopWake | stopEnd => cases hnext
  | stopClear waitFinish =>
    obtain rfl := Option.some.inj hnext
    cases waitFinish <;> rfl
  | readyLock caller | readyUnlock caller =>
    cases caller with
    | alone =>
      obtain rfl := Option.some.inj hnext
      rfl
    | queueReady => cases hnext
  | baseLock derived | baseUnlock derived =>
    cases derived with
    | false =>
      obtain rfl := Option.some.inj hnext
      rfl
    | true => cases hnext
  | _ =>
    obtain rfl := Option.some.inj hnext
    rfl

/-- A request to stop begins with its call. -/
theorem CallerPc.stops_next (hnext : pc.next = some pc') (h : pc'.stops = true) :
    pc.stops = true := by
  cases pc with
  | idle | stopBlocked | stopWake | stopEnd | moveUnlock => cases hnext
  | stopLock | stopClear | stopUnlock | stopNotify | stopRequest | stopPred | stopWaitFor => rfl
  | readyLock caller | readyUnlock caller =>
    cases caller with
    | alone =>
      obtain rfl := Option.some.inj hnext
      cases h
    | queueReady => cases hnext
  | baseLock derived | baseUnlock derived =>
    cases derived with
    | false =>
      obtain rfl := Option.some.inj hnext
      cases h
    | true => cases hnext
  | _ =>
    obtain rfl := Option.some.inj hnext
    cases h

/-- Only a notification ends the way to it. -/
theorem CallerPc.notifies_next (hnext : pc.next = some pc') (h : pc.notifies = true) (hissues : pc.issues = false) :
    pc'.notifies = true := by
  cases pc with
  | enqueuePush | stopUnlock =>
    obtain rfl := Option.some.inj hnext
    rfl
  | stopClear waitFinish =>
    have hw : waitFinish = false := by simpa [CallerPc.notifies] using h
    subst hw
    obtain rfl := Option.some.inj hnext
    rfl
  | enqueueNotify | stopNotify => cases hissues
  | _ => cases h

end Callers

namespace ProcessState

variable {α : Type} {s s' : ProcessState α} {a : Action α}

/-- One step of a process with a queue that is not assigned to. -/
def queueStep (s : ProcessState α) : Action α → Option (ProcessState α)
  | .call n op => if op.moves then none else step .queuable s (.call n op)
  | .caller n woken ready => step .queuable s (.caller n woken ready)
  | .worker => step .queuable s .worker
  | .spurious t => step .queuable s (.spurious t)

theorem step_of_queueStep (hs : queueStep s a = some s') :
    step .queuable s a = some s' ∧ ∀ n op, a = .call n op → op.moves = false := by
  cases a with
  | call n op =>
    simp only [queueStep] at hs
    split at hs
    · cases hs
    · rename_i hmoves
      refine ⟨hs, fun n' op' heq => ?_⟩
      obtain ⟨-, rfl⟩ := Action.call.inj heq
      simpa using hmoves
  | caller | worker | spurious => exact ⟨hs, nofun⟩

/-- What holds of a process that is not assigned to. -/
structure Unmoved (s : ProcessState α) : Prop where
  sound : s.Sound
  moves : ∀ n, (s.caller n).moves = false

theorem Unmoved.step (h : s.Unmoved) (hs : queueStep s a = some s') : s'.Unmoved := by
  obtain ⟨hs, hmoves⟩ := step_of_queueStep hs
  refine ⟨h.sound.step hs, fun m => ?_⟩
  obtain hsame | hnext | ⟨op, rfl, hentry⟩ := h.sound.caller_of_step hs m
  · rw [hsame, h.moves m]
  · exact CallerPc.moves_next hnext (h.moves m)
  · rw [hentry]
    have hop := hmoves m op rfl
    cases op with
    | moveAssign => cases hop
    | enqueue | requestStop | ready => rfl

theorem Unmoved.initial : ({} : ProcessState α).Unmoved where
  sound := .initial
  moves _ := rfl

/-! ## Lost notifications -/

/-- The worker is blocked although a task is queued or a stop requested, and no call is on its way to a notification. -/
def Lost (s : ProcessState α) : Prop :=
  s.worker = .blocked ∧ (s.queue ≠ [] ∨ s.stop = true) ∧ ∀ n, (s.caller n).notifies = false

/-- A step that sets the stop state of a process whose worker is blocked, or blocks the worker of one that was asked to
stop, leaves a call on its way to a notification. -/
def Signalled (s : ProcessState α) : Action α → Prop
  | .caller n _ _ => s.caller n = .stopRequest → s.worker = .blocked → ∃ m, (s.caller m).notifies = true
  | .worker => s.worker = .sleep → s.stop = true → ∃ m, (s.caller m).notifies = true
  | .call _ _ | .spurious _ => True

/-- Nothing that matters to the worker changes. -/
theorem lost_of_same (hworker : s'.worker = s.worker) (hqueue : s'.queue = s.queue) (hstop : s'.stop = s.stop)
    (hnotifies : ∀ n, (s'.caller n).notifies = false → (s.caller n).notifies = false) (h : s'.Lost) : s.Lost := by
  obtain ⟨hb, hwork, hnone⟩ := h
  rw [hworker] at hb
  rw [hqueue, hstop] at hwork
  exact ⟨hb, hwork, fun n => hnotifies n (hnone n)⟩

/-- A call on its way to a notification stays there, but for the step that is the notification. -/
theorem CallerEffect.notifies {n m : ℕ} (h : s.CallerEffect n s') (hissues : (s.caller n).issues = false)
    (hm : (s.caller m).notifies = true) : (s'.caller m).notifies = true := by
  by_cases hmn : m = n
  · subst hmn
    exact CallerPc.notifies_next h.next hm hissues
  · rw [h.others m hmn, hm]

/-- The stop state is set. -/
theorem CallerEffect.lost_request {n : ℕ} (h : s.CallerEffect n s') (hpc : s.caller n = .stopRequest) :
    ¬ s'.Lost ↔ (s.worker = .blocked → ∃ m, (s.caller m).notifies = true) := by
  have hissues : (s.caller n).issues = false := by rw [hpc]; rfl
  have hworker := h.worker hissues
  have hstop : s'.stop = true := h.stop.mpr (.inr hpc)
  constructor
  · intro hlost hb
    by_contra hnone
    refine hlost ⟨by rw [hworker, hb], .inr hstop, fun m => ?_⟩
    by_cases hmn : m = n
    · subst hmn
      have hidle : s'.caller m = .idle := by
        have hnext := h.next
        rw [hpc] at hnext
        exact (Option.some.inj hnext).symm
      rw [hidle]
      rfl
    · rw [h.others m hmn]
      by_contra hm
      exact hnone ⟨m, by simpa using hm⟩
  · rintro hsignal ⟨hb, -, hnone⟩
    obtain ⟨m, hm⟩ := hsignal (by rw [← hworker, hb])
    have hm' := h.notifies hissues hm
    rw [hnone m] at hm'
    cases hm'

/-- A caller that does not set the stop state does not leave the worker blocked. -/
theorem CallerEffect.not_lost {n : ℕ} (h : s.CallerEffect n s') (hmoves : (s.caller n).moves = false)
    (hpc : s.caller n ≠ .stopRequest) (hlost : ¬ s.Lost) : ¬ s'.Lost := by
  rintro ⟨hb, hwork, hnone⟩
  cases hissues : (s.caller n).issues with
  | true => exact (h.wakes hissues).1 hb
  | false =>
    have hnone' : ∀ m, (s.caller m).notifies = false := by
      intro m
      by_contra hm
      have hm' := h.notifies hissues (by simpa using hm)
      rw [hnone m] at hm'
      cases hm'
    have hstop : s'.stop = true → s.stop = true := by
      intro hs
      obtain hs | hs := h.stop.mp hs
      · exact hs
      · exact absurd hs hpc
    -- a queue that is not empty was so, as the caller neither enqueues nor is assigned to
    have hqueue : s'.queue ≠ [] → s.queue ≠ [] := by
      intro hne hnil
      refine hne ?_
      rw [h.queue, hnil]
      have hn := hnone' n
      cases hp : s.caller n with
      | enqueuePush task =>
        rw [hp] at hn
        cases hn
      | moveQueue other =>
        rw [hp] at hmoves
        cases hmoves
      | _ => rfl
    exact hlost ⟨by rw [← h.worker hissues, hb], hwork.imp hqueue hstop, hnone'⟩

/-- The worker is blocked. -/
theorem WorkerEffect.lost (h : s.WorkerEffect s') (hsound : s.Sound)
    (hs : s.workerStep .queuable = some s') :
    ¬ s'.Lost ↔ (s.worker = .sleep → s.stop = true → ∃ m, (s.caller m).notifies = true) := by
  constructor
  · intro hnot hsleep hstop
    by_contra hnone
    have hb : s'.worker = .blocked := by
      simp only [workerStep, hsleep] at hs
      rw [← Option.some.inj hs]
      rfl
    refine hnot ⟨hb, .inr (by rw [h.stop, hstop]), fun m => ?_⟩
    rw [h.caller]
    by_contra hm
    exact hnone ⟨m, by simpa using hm⟩
  · rintro hsignal ⟨hb, hwork, hnone⟩
    obtain ⟨hsleep, hqueue⟩ := h.blocked hb
    rw [h.stop] at hwork
    obtain hne | hstop := hwork
    · exact hne (by rw [hqueue, hsound.asleep hsleep])
    · obtain ⟨m, hm⟩ := hsignal hsleep hstop
      rw [← h.caller, hnone m] at hm
      cases hm

/-- The worker is not left blocked by a step exactly where a call is left on its way to a notification. -/
theorem Unmoved.lost_iff (h : s.Unmoved) (hlost : ¬ s.Lost) (hs : queueStep s a = some s') :
    ¬ s'.Lost ↔ s.Signalled a := by
  obtain ⟨hs, -⟩ := step_of_queueStep hs
  cases a with
  | call n op =>
    obtain ⟨hidle, hs⟩ := step_call hs
    have heffect := callEffect hidle hs
    refine iff_of_true (fun hlost' => hlost (lost_of_same heffect.worker heffect.queue heffect.stop ?_ hlost')) trivial
    intro m hm
    by_cases hmn : m = n
    · rw [hmn, hidle]
      rfl
    · rw [heffect.caller, Function.update_of_ne hmn] at hm
      exact hm
  | caller n woken ready =>
    have heffect := h.sound.callerEffect hs
    by_cases hpc : s.caller n = .stopRequest
    · exact (heffect.lost_request hpc).trans ⟨fun hb _ => hb, fun hb => hb hpc⟩
    · exact iff_of_true (heffect.not_lost (h.moves n) hpc hlost) fun hreq => absurd hreq hpc
  | worker => exact (workerEffect hs).lost h.sound hs
  | spurious t =>
    obtain ⟨-, rfl⟩ := h.sound.step_spurious hs
    exact iff_of_true (by rintro ⟨hb, -⟩; cases hb) trivial

/-- **No notification is lost in a run exactly where every step that sets the stop state of a process whose worker is
blocked, or blocks the worker of one that was asked to stop, leaves another on its way.** -/
theorem awake_iff_signalled (as : List (Action α)) :
    Runs.Each queueStep (fun _ _ s' => ¬ s'.Lost) ({} : ProcessState α) as ↔
      Runs.Meets queueStep Signalled ({} : ProcessState α) as := by
  refine @Runs.each_iff_meets _ _ _ _ _ (fun s => s.Unmoved ∧ ¬ s.Lost) (fun s a s' h hs => h.1.lost_iff h.2 hs)
    (fun s a s' h hC hs => ⟨h.1.step hs, (h.1.lost_iff h.2 hs).mpr hC⟩) _ ⟨.initial, ?_⟩ as
  rintro ⟨hb, -⟩
  cases hb

/-- The worker is blocked when a stop is requested, is notified, finds the stop state not set, and is blocked again
before it is. -/
theorem lost_notification : ¬ ∀ as : List (Action ℕ),
    Runs.Each queueStep (fun _ _ s' => ¬ s'.Lost) ({} : ProcessState ℕ) as := by
  intro h
  refine Runs.each_iff.mp (h _)
    ([.worker, .worker, .worker, .worker, .worker, .call 0 (.requestStop false)] ++
      [.caller 0 none false, .caller 0 none false, .caller 0 none false, .caller 0 (some .worker) false] ++
      [.worker, .worker, .worker])
    (.caller 0 none false) [] _ _ rfl rfl rfl ⟨rfl, .inr rfl, fun n => ?_⟩
  cases n with
  | zero => rfl
  | succ n => rfl

/-! ## The order of the tasks -/

/-- What was executed, followed by what is queued, is what was enqueued, in that order, less what was dropped; before a
stop is requested nothing is dropped, and the worker is neither done nor left blocked. -/
structure InOrder (s : ProcessState α) : Prop where
  order : (s.executed ++ s.queue).Sublist s.enqueued
  kept : s.asked = false → s.executed ++ s.queue = s.enqueued
  served : s.asked = false → s.worker ≠ .done ∧ ¬ s.Lost

/-- A stop that goes on, or has been set, was requested. -/
structure Asked (s : ProcessState α) : Prop where
  caller : ∀ n, (s.caller n).stops = true → s.asked = true
  stop : s.stop = true → s.asked = true

theorem stops_entry {kind : ProcessKind} {op : Operation α} (h : (op.entry kind).stops = true) : op.asks = true := by
  cases op with
  | requestStop => rfl
  | enqueue | ready => cases kind <;> cases h
  | moveAssign same other => cases kind <;> cases same <;> cases h

theorem Asked.step (h : s.Asked) (hsound : s.Sound) (hs : queueStep s a = some s') : s'.Asked := by
  obtain ⟨hs, -⟩ := step_of_queueStep hs
  have hnew : (∀ m, s'.caller m = s.caller m ∨ (s.caller m).next = some (s'.caller m) ∨
      ∃ op, a = .call m op ∧ s'.caller m = op.entry .queuable) := hsound.caller_of_step hs
  cases a with
  | call n op =>
    obtain ⟨hidle, hs⟩ := step_call hs
    have heffect := callEffect hidle hs
    refine ⟨fun m hm => ?_, fun hstop => ?_⟩
    · rw [heffect.asked, Bool.or_eq_true]
      obtain hsame | hnext | ⟨op', heq, hentry⟩ := hnew m
      · exact .inl (h.caller m (by rw [← hsame, hm]))
      · exact .inl (h.caller m (CallerPc.stops_next hnext hm))
      · obtain ⟨-, rfl⟩ := Action.call.inj heq
        exact .inr (stops_entry (by rw [← hentry, hm]))
    · rw [heffect.stop] at hstop
      rw [heffect.asked, h.stop hstop, Bool.true_or]
  | caller n woken ready =>
    have heffect := hsound.callerEffect hs
    refine ⟨fun m hm => ?_, fun hstop => ?_⟩
    · rw [heffect.asked]
      obtain hsame | hnext | ⟨op', heq, -⟩ := hnew m
      · exact h.caller m (by rw [← hsame, hm])
      · exact h.caller m (CallerPc.stops_next hnext hm)
      · cases heq
    · rw [heffect.asked]
      obtain hstop | hpc := heffect.stop.mp hstop
      · exact h.stop hstop
      · exact h.caller n (by rw [hpc]; rfl)
  | worker =>
    have heffect := workerEffect hs
    refine ⟨fun m hm => ?_, fun hstop => ?_⟩
    · rw [heffect.asked]
      exact h.caller m (by rw [← heffect.caller, hm])
    · rw [heffect.asked]
      exact h.stop (by rw [← heffect.stop, hstop])
  | spurious t =>
    obtain ⟨-, rfl⟩ := hsound.step_spurious hs
    exact ⟨h.caller, h.stop⟩

/-- A step after which a stop is not requested leaves the worker on the tasks. -/
theorem served_step (h : s.Unmoved) (hasked : s.Asked) (hserved : s.worker ≠ .done ∧ ¬ s.Lost)
    (hs : queueStep s a = some s') (hno : s.asked = false) : s'.worker ≠ .done ∧ ¬ s'.Lost := by
  have hstop : s.stop = false := by
    by_contra hst
    have := hasked.stop (by simpa using hst)
    rw [hno] at this
    cases this
  have hpc : ∀ n, s.caller n ≠ .stopRequest := by
    intro n hn
    have := hasked.caller n (by rw [hn]; rfl)
    rw [hno] at this
    cases this
  refine ⟨?_, (h.lost_iff hserved.2 hs).mpr ?_⟩
  · obtain ⟨hs, -⟩ := step_of_queueStep hs
    cases a with
    | call n op =>
      obtain ⟨hidle, hs⟩ := step_call hs
      rw [(callEffect hidle hs).worker]
      exact hserved.1
    | caller n woken ready =>
      have heffect := h.sound.callerEffect hs
      cases hissues : (s.caller n).issues with
      | false =>
        rw [heffect.worker hissues]
        exact hserved.1
      | true =>
        obtain ⟨-, hw | hw⟩ := heffect.wakes hissues
        · rw [hw]
          exact hserved.1
        · simp [hw]
    | worker =>
      intro hdone
      have hst := (workerEffect hs).done hdone
      rw [hstop] at hst
      cases hst
    | spurious t =>
      obtain ⟨-, rfl⟩ := h.sound.step_spurious hs
      simp
  · cases a with
    | caller n woken ready => exact fun hn => absurd hn (hpc n)
    | worker =>
      intro _ hst
      rw [hstop] at hst
      cases hst
    | call | spurious => trivial

/-- What a step does to the tasks. -/
theorem tasks_step (h : s.Unmoved) (hs : queueStep s a = some s') :
    (∃ tasks, s'.executed ++ s'.queue = s.executed ++ s.queue ++ tasks ∧ s'.enqueued = s.enqueued ++ tasks) ∨
      (∃ n waitFinish, s.caller n = .stopClear waitFinish) ∧ s'.executed = s.executed ∧ s'.queue = [] ∧
        s'.enqueued = s.enqueued := by
  obtain ⟨hs, -⟩ := step_of_queueStep hs
  cases a with
  | call n op =>
    obtain ⟨hidle, hs⟩ := step_call hs
    have heffect := callEffect hidle hs
    exact .inl ⟨[], by rw [heffect.executed, heffect.queue, List.append_nil], by rw [heffect.enqueued, List.append_nil]⟩
  | caller n woken ready =>
    have heffect := h.sound.callerEffect hs
    have hqueue := heffect.queue
    have henqueued := heffect.enqueued
    cases hpc : s.caller n with
    | stopClear waitFinish =>
      rw [hpc] at hqueue henqueued
      exact .inr ⟨⟨n, waitFinish, hpc⟩, heffect.executed, hqueue, by rw [henqueued]; exact List.append_nil _⟩
    | enqueuePush task =>
      rw [hpc] at hqueue henqueued
      refine .inl ⟨[task], ?_, henqueued⟩
      rw [heffect.executed, hqueue, List.append_assoc]
      rfl
    | moveQueue other =>
      have hmoves := h.moves n
      rw [hpc] at hmoves
      cases hmoves
    | _ =>
      rw [hpc] at hqueue henqueued
      refine .inl ⟨[], ?_, henqueued⟩
      rw [heffect.executed, hqueue, List.append_nil]
      rfl
  | worker =>
    have heffect := workerEffect hs
    exact .inl ⟨[], by rw [heffect.tasks, List.append_nil], by rw [heffect.enqueued, List.append_nil]⟩
  | spurious t =>
    obtain ⟨-, rfl⟩ := h.sound.step_spurious hs
    exact .inl ⟨[], (List.append_nil _).symm, (List.append_nil _).symm⟩

theorem InOrder.step (h : s.InOrder) (hun : s.Unmoved) (hasked : s.Asked) (hs : queueStep s a = some s')
    (hmono : s'.asked = false → s.asked = false) : s'.InOrder := by
  refine ⟨?_, fun hno => ?_, fun hno => served_step hun hasked (h.served (hmono hno)) hs (hmono hno)⟩
  · obtain ⟨tasks, htasks, henqueued⟩ | ⟨-, hexecuted, hqueue, henqueued⟩ := tasks_step hun hs
    · rw [htasks, henqueued]
      exact h.order.append_right tasks
    · rw [hexecuted, hqueue, henqueued, List.append_nil]
      exact (List.sublist_append_left _ _).trans h.order
  · obtain ⟨tasks, htasks, henqueued⟩ | ⟨⟨n, waitFinish, hpc⟩, -⟩ := tasks_step hun hs
    · rw [htasks, henqueued, h.kept (hmono hno)]
    · have hyes := hasked.caller n (by rw [hpc]; rfl)
      rw [hmono hno] at hyes
      cases hyes

/-- A stop that was requested stays so. -/
theorem asked_step (hsound : s.Sound) (hs : queueStep s a = some s') (hno : s'.asked = false) : s.asked = false := by
  obtain ⟨hs, -⟩ := step_of_queueStep hs
  cases a with
  | call n op =>
    obtain ⟨hidle, hs⟩ := step_call hs
    rw [(callEffect hidle hs).asked, Bool.or_eq_false_iff] at hno
    exact hno.1
  | caller n woken ready => rw [← (hsound.callerEffect hs).asked, hno]
  | worker => rw [← (workerEffect hs).asked, hno]
  | spurious t =>
    obtain ⟨-, rfl⟩ := hsound.step_spurious hs
    exact hno

/-- **Tasks are executed in the order in which they were enqueued, each once at most, and none is dropped before a
stop is requested.** -/
theorem inOrder (as : List (Action α)) :
    Runs.Each queueStep (fun _ _ s' => s'.InOrder) ({} : ProcessState α) as := by
  have hstep : ∀ (s : ProcessState α) a s', s.Unmoved ∧ s.Asked ∧ s.InOrder → queueStep s a = some s' →
      s'.Unmoved ∧ s'.Asked ∧ s'.InOrder := by
    rintro s a s' ⟨hun, hasked, horder⟩ hs
    exact ⟨hun.step hs, hasked.step hun.sound hs, horder.step hun hasked hs (asked_step hun.sound hs)⟩
  refine @Runs.each_of_meets _ _ _ _ (fun _ _ => True) _ (fun s a s' h _ hs => (hstep s a s' h hs).2.2)
    (fun s a s' h _ hs => hstep s a s' h hs) _ as ⟨.initial, ⟨?_, nofun⟩, ⟨List.Sublist.refl _, fun _ => rfl, ?_⟩⟩ ?_
  · intro n h
    cases h
  · refine fun _ => ⟨nofun, ?_⟩
    rintro ⟨hb, -⟩
    cases hb
  · exact Runs.meets_of_mem (fun _ _ => trivial) _

end ProcessState

end Mashroom.Network
