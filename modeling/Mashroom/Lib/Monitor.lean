import Mathlib.Data.List.Basic
import Mathlib.Logic.Function.Basic

/-!
# Monitor — a mutex and a condition variable

The mutex has an owner, the condition variable the threads that are blocked on it.  A thread that waits gives the
mutex up and is blocked in one step.  Which threads are inside the mutex is up to what they do: `Guards` says that the
owner is the only one.
-/

/-- The owner of the mutex, and the threads blocked on the condition variable. -/
structure Monitor (τ : Type) where
  owner : Option τ := none
  waiters : List τ := []

namespace Monitor

variable {τ : Type}

/-- The mutex is locked, by a thread that may be blocked until it is free. -/
def lock (m : Monitor τ) (t : τ) : Option (Monitor τ) :=
  if m.owner = none then some { m with owner := some t } else none

def unlock (m : Monitor τ) : Monitor τ := { m with owner := none }

/-- The mutex is given up and the thread is blocked. -/
def wait (m : Monitor τ) (t : τ) : Monitor τ where
  owner := none
  waiters := t :: m.waiters

/-- One thread is unblocked, if one is blocked. -/
def notifyOne [DecidableEq τ] (m : Monitor τ) : Option τ → Option (Monitor τ)
  | none => if m.waiters = [] then some m else none
  | some t => if t ∈ m.waiters then some { m with waiters := m.waiters.erase t } else none

/-- The threads inside the mutex are its owner. -/
def Guards (m : Monitor τ) (inside : τ → Prop) : Prop := ∀ t, inside t ↔ m.owner = some t

section Lemmas

variable {m m' : Monitor τ} {t : τ} {inside inside' : τ → Prop}

theorem lock_eq_some (h : m.lock t = some m') : m.owner = none ∧ m' = { m with owner := some t } := by
  obtain ⟨howner, hm⟩ := Option.ite_none_right_eq_some.mp h
  exact ⟨howner, (Option.some.inj hm).symm⟩

/-- Nobody is unblocked only where nobody is blocked. -/
theorem notifyOne_none [DecidableEq τ] (h : m.notifyOne none = some m') : m.waiters = [] ∧ m' = m := by
  obtain ⟨hw, hm⟩ := Option.ite_none_right_eq_some.mp h
  exact ⟨hw, (Option.some.inj hm).symm⟩

theorem notifyOne_some [DecidableEq τ] (h : m.notifyOne (some t) = some m') :
    t ∈ m.waiters ∧ m' = { m with waiters := m.waiters.erase t } := by
  obtain ⟨hw, hm⟩ := Option.ite_none_right_eq_some.mp h
  exact ⟨hw, (Option.some.inj hm).symm⟩

/-- Two threads inside are one. -/
theorem Guards.unique (h : m.Guards inside) {u : τ} (ht : inside t) (hu : inside u) : t = u :=
  Option.some.inj (((h t).mp ht).symm.trans ((h u).mp hu))

/-- A thread gets inside. -/
theorem Guards.lock (h : m.Guards inside) (hl : m.lock t = some m')
    (hin : ∀ u, inside' u ↔ u = t ∨ inside u) : m'.Guards inside' := by
  obtain ⟨howner, rfl⟩ := lock_eq_some hl
  intro u
  rw [hin u, h u, howner]
  simp [eq_comm]

/-- The thread inside leaves. -/
theorem Guards.leave (h : m.Guards inside) (ht : inside t) (howner : m'.owner = none)
    (hin : ∀ u, inside' u ↔ u ≠ t ∧ inside u) : m'.Guards inside' := by
  intro u
  rw [hin u, howner]
  refine iff_of_false ?_ (by simp)
  rintro ⟨hne, hu⟩
  exact hne (h.unique hu ht)

/-- Nobody gets inside or leaves. -/
theorem Guards.keep (h : m.Guards inside) (howner : m'.owner = m.owner) (hin : ∀ u, inside' u ↔ inside u) :
    m'.Guards inside' := by
  intro u
  rw [hin u, howner, h u]

end Lemmas

end Monitor
