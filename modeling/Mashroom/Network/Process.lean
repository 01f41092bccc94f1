import Mathlib.Logic.Function.Basic
import Mashroom.Lib.Monitor
import Mashroom.Lib.Runs

/-!
# Network.Process — processes with a thread, and with a queue of tasks

`AbstractProcess` and `AbstractQueuableProcess` as steps of threads: the worker, which runs what `execute_process` gave
it and then the tasks of the queue, and any number of callers of the operations.  A step is what a thread does up to the
next place where another can interfere; `m` is a mutex that is not recursive.
-/

namespace Mashroom.Network

/-- The class of the process. -/
inductive ProcessKind where
  | abstract
  | queuable
  deriving DecidableEq

/-- The thread of the process, and those that call its operations. -/
inductive Tid where
  | worker
  | caller (n : ℕ)
  deriving DecidableEq

/-- The operations of a process on its mutex. -/
inductive Operation (α : Type) where
  | enqueue (task : α)
  | requestStop (waitFinish : Bool)
  /-- `ready`, and `busy` and `throw_if_ready_and_error`, that call `__ready__` as well -/
  | ready
  /-- `operator=(Process&&)`, of the process itself or of another that has a queue -/
  | moveAssign (same : Bool) (other : List α)

/-- Where the worker is. -/
inductive WorkerPc (α : Type) where
  /-- in the function that `execute_process` was given -/
  | first
  /-- `std::unique_lock lk(this->m)` -/
  | lock
  /-- `if(!queue.empty())` -/
  | top
  /-- in a task -/
  | running (task : α)
  /-- `lk.lock()` -/
  | relock
  /-- at the condition of `cv.wait` -/
  | pred
  /-- after the condition did not hold, before it is blocked -/
  | sleep
  /-- blocked in `cv.wait` -/
  | blocked
  /-- unblocked, before it has the mutex -/
  | wake
  /-- `while(!stop_requested())` -/
  | test
  | done

/-- Who calls `__ready__`. -/
inductive ReadyCaller where
  | alone
  /-- `queue_ready` in the condition of `cv.wait` -/
  | queueReady

/-- Where a caller is. -/
inductive CallerPc (α : Type) where
  | idle
  | enqueueLock (task : α)
  | enqueuePush (task : α)
  | enqueueNotify
  | enqueueUnlock
  | stopLock (waitFinish : Bool)
  | stopClear (waitFinish : Bool)
  | stopUnlock
  | stopNotify
  /-- `thread.request_stop()` -/
  | stopRequest
  /-- `queue_ready()`, at `queue.empty()` -/
  | stopPred
  | stopBlocked
  | stopWake
  | stopEnd
  /-- `future.wait_for(…)` of an `AbstractProcess` -/
  | stopWaitFor
  | readyLock (caller : ReadyCaller)
  | readyUnlock (caller : ReadyCaller)
  | moveLock (other : List α)
  | moveQueue (other : List α)
  /-- `AbstractProcess::operator=`, called by itself or by the assignment of the derived class -/
  | baseLock (derived : Bool)
  | baseUnlock (derived : Bool)
  | moveUnlock

/-- The worker is inside the mutex. -/
def WorkerPc.inside {α : Type} : WorkerPc α → Bool
  | .top | .pred | .sleep | .test => true
  | .first | .lock | .running _ | .relock | .blocked | .wake | .done => false

/-- The worker is at a lock of the mutex. -/
def WorkerPc.locks {α : Type} : WorkerPc α → Bool
  | .lock | .relock | .wake => true
  | .first | .top | .running _ | .pred | .sleep | .blocked | .test | .done => false

/-- The caller is inside the mutex. -/
def CallerPc.inside {α : Type} : CallerPc α → Bool
  | .enqueuePush _ | .enqueueNotify | .enqueueUnlock | .stopClear _ | .stopUnlock | .stopPred | .stopEnd
  | .readyLock .queueReady | .readyUnlock _ | .moveQueue _ | .baseLock true | .baseUnlock _ | .moveUnlock => true
  | .idle | .enqueueLock _ | .stopLock _ | .stopNotify | .stopRequest | .stopBlocked | .stopWake | .stopWaitFor
  | .readyLock .alone | .moveLock _ | .baseLock false => false

/-- The caller is at a lock of the mutex. -/
def CallerPc.locks {α : Type} : CallerPc α → Bool
  | .enqueueLock _ | .stopLock _ | .stopWake | .readyLock _ | .moveLock _ | .baseLock _ => true
  | .idle | .enqueuePush _ | .enqueueNotify | .enqueueUnlock | .stopClear _ | .stopUnlock | .stopNotify | .stopRequest
  | .stopPred | .stopBlocked | .stopEnd | .stopWaitFor | .readyUnlock _ | .moveQueue _ | .baseUnlock _
  | .moveUnlock => false

/-- A process and its threads.  What was enqueued and executed, and whether a stop was requested, is kept beside it. -/
structure ProcessState (α : Type) where
  queue : List α := []
  /-- the stop state of `thread` -/
  stop : Bool := false
  /-- `m` and `cv` -/
  monitor : Monitor Tid := {}
  worker : WorkerPc α := .first
  caller : ℕ → CallerPc α := fun _ => .idle
  enqueued : List α := []
  executed : List α := []
  /-- `request_stop` was called -/
  asked : Bool := false

namespace ProcessState

variable {α : Type}

def setCaller (s : ProcessState α) (n : ℕ) (pc : CallerPc α) : ProcessState α :=
  { s with caller := Function.update s.caller n pc }

def setWorker (s : ProcessState α) (pc : WorkerPc α) : ProcessState α := { s with worker := pc }

/-- A thread that is blocked gets on. -/
def wake (s : ProcessState α) : Tid → ProcessState α
  | .worker => s.setWorker .wake
  | .caller n => s.setCaller n .stopWake

/-- `cv.notify_one()`, by a caller that goes on to `pc`. -/
def notify (s : ProcessState α) (n : ℕ) (pc : CallerPc α) (woken : Option Tid) : Option (ProcessState α) :=
  (s.monitor.notifyOne woken).map fun m =>
    let s' := { s.setCaller n pc with monitor := m }
    woken.elim s' s'.wake

/-- A caller locks the mutex and goes on to `pc`. -/
def lockAs (s : ProcessState α) (n : ℕ) (pc : CallerPc α) : Option (ProcessState α) :=
  (s.monitor.lock (.caller n)).map fun m => { s.setCaller n pc with monitor := m }

/-- A caller unlocks the mutex and goes on to `pc`. -/
def unlockTo (s : ProcessState α) (n : ℕ) (pc : CallerPc α) : ProcessState α :=
  { s.setCaller n pc with monitor := s.monitor.unlock }

/-- A caller waits on the condition variable. -/
def waitAs (s : ProcessState α) (n : ℕ) : ProcessState α :=
  { s.setCaller n .stopBlocked with monitor := s.monitor.wait (.caller n) }

/-- The worker locks the mutex and goes on to `pc`. -/
def workerLock (s : ProcessState α) (pc : WorkerPc α) : Option (ProcessState α) :=
  (s.monitor.lock .worker).map fun m => { s.setWorker pc with monitor := m }

/-! ## The operations -/

/-- An operation is called. -/
def call (kind : ProcessKind) (s : ProcessState α) (n : ℕ) : Operation α → Option (ProcessState α)
  | .enqueue task =>
    match kind with
    | .abstract => none
    | .queuable => some (s.setCaller n (.enqueueLock task))
  | .requestStop waitFinish =>
    match kind with
    | .abstract => some { s.setCaller n (if waitFinish then .stopWaitFor else .stopRequest) with asked := true }
    | .queuable => some { s.setCaller n (.stopLock waitFinish) with asked := true }
  | .ready => some (s.setCaller n (.readyLock .alone))
  | .moveAssign same other =>
    match kind with
    | .abstract => some (s.setCaller n (.baseLock false))
    | .queuable => if same then some s else some (s.setCaller n (.moveLock other))

/-- What a caller does next.  Who is unblocked by a notification, and whether the future is ready, is given. -/
def callerStep (s : ProcessState α) (n : ℕ) (woken : Option Tid) (ready : Bool) : Option (ProcessState α) :=
  match s.caller n with
  | .idle => none
  | .enqueueLock task => s.lockAs n (.enqueuePush task)
  | .enqueuePush task =>
    some { s.setCaller n .enqueueNotify with queue := s.queue ++ [task], enqueued := s.enqueued ++ [task] }
  | .enqueueNotify => s.notify n .enqueueUnlock woken
  | .enqueueUnlock => some (s.unlockTo n .idle)
  | .stopLock waitFinish => s.lockAs n (.stopClear waitFinish)
  | .stopClear waitFinish => some { s.setCaller n (if waitFinish then .stopPred else .stopUnlock) with queue := [] }
  | .stopUnlock => some (s.unlockTo n .stopNotify)
  | .stopNotify => s.notify n .stopRequest woken
  | .stopRequest => some { s.setCaller n .idle with stop := true }
  | .stopPred => if s.queue = [] then some (s.setCaller n (.readyLock .queueReady)) else some (s.waitAs n)
  | .stopBlocked => none
  | .stopWake => s.lockAs n .stopPred
  | .stopEnd => some (s.unlockTo n .idle)
  | .stopWaitFor => some (s.setCaller n .stopRequest)
  | .readyLock caller => s.lockAs n (.readyUnlock caller)
  | .readyUnlock .alone => some (s.unlockTo n .idle)
  | .readyUnlock .queueReady => if ready then some (s.unlockTo n .stopEnd) else some (s.waitAs n)
  | .moveLock other => s.lockAs n (.moveQueue other)
  | .moveQueue other => some { s.setCaller n (.baseLock true) with queue := other }
  | .baseLock derived => s.lockAs n (.baseUnlock derived)
  | .baseUnlock derived => some (s.unlockTo n (if derived then .moveUnlock else .idle))
  | .moveUnlock => some (s.unlockTo n .idle)

/-- What the worker does next.  After its function an `AbstractProcess` is done. -/
def workerStep (kind : ProcessKind) (s : ProcessState α) : Option (ProcessState α) :=
  match s.worker with
  | .first =>
    match kind with
    | .abstract => some (s.setWorker .done)
    | .queuable => some (s.setWorker .lock)
  | .lock => s.workerLock .top
  | .top =>
    match s.queue with
    | [] => some (s.setWorker .pred)
    | task :: queue =>
      some { s.setWorker (.running task) with
        queue, executed := s.executed ++ [task], monitor := s.monitor.unlock }
  | .running _ => some (s.setWorker .relock)
  | .relock => s.workerLock .pred
  | .pred =>
    if s.queue ≠ [] ∨ s.stop = true then some (s.setWorker .test) else some (s.setWorker .sleep)
  | .sleep => some { s.setWorker .blocked with monitor := s.monitor.wait .worker }
  | .blocked => none
  | .wake => s.workerLock .pred
  | .test =>
    if s.stop then some { s.setWorker .done with monitor := s.monitor.unlock } else some (s.setWorker .top)
  | .done => none

/-- What happens next. -/
inductive Action (α : Type) where
  | call (n : ℕ) (op : Operation α)
  | caller (n : ℕ) (woken : Option Tid) (ready : Bool)
  | worker
  /-- a blocked thread gets on without a notification -/
  | spurious (t : Tid)

/-- One step. -/
def step (kind : ProcessKind) (s : ProcessState α) : Action α → Option (ProcessState α)
  | .call n op =>
    match s.caller n with
    | .idle => call kind s n op
    | _ => none
  | .caller n woken ready => s.callerStep n woken ready
  | .worker => s.workerStep kind
  | .spurious t => (s.monitor.notifyOne (some t)).map fun m => { s with monitor := m }.wake t

/-- The thread is inside the mutex. -/
def Inside (s : ProcessState α) : Tid → Prop
  | .worker => s.worker.inside = true
  | .caller n => (s.caller n).inside = true

/-- The thread is at a lock of the mutex. -/
def Locks (s : ProcessState α) : Tid → Prop
  | .worker => s.worker.locks = true
  | .caller n => (s.caller n).locks = true

end ProcessState

end Mashroom.Network
