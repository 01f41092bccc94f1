import Mathlib.Data.List.Induction

/-!
# Moves — what a value is after it has been moved

A type is moved by its move constructor, in memory where the members that the constructor leaves out have some value,
and by its move assignment, to an object that has a value already.  Moves that do not keep a part of the value set that
part to what the memory or the object holds: such a part ends up as the last of these moves leaves it
(`Loses.run_eq`), and a value survives a sequence of moves exactly when that is what it was (`Loses.run_eq_self`).
-/

/-- The two move operations of a type.  What is moved comes last. -/
structure Moves (α : Type) where
  /-- `T(T&&)`, in memory -/
  construct : α → α → α
  /-- `operator=(T&&)`, of an object -/
  assign : α → α → α

/-- A move, to memory or to an object. -/
inductive Move (α : Type) where
  | construct (memory : α)
  | assign (this : α)

namespace Move

variable {α β : Type}

/-- The move of a member. -/
def map (f : α → β) : Move α → Move β
  | .construct memory => .construct (f memory)
  | .assign this => .assign (f this)

end Move

namespace Moves

variable {α β γ : Type}

def apply (m : Moves α) (x : α) : Move α → α
  | .construct memory => m.construct memory x
  | .assign this => m.assign this x

/-- A value after a sequence of moves. -/
def run (m : Moves α) (x : α) (ms : List (Move α)) : α := ms.foldl m.apply x

/-- The last move comes last. -/
theorem run_append_singleton (m : Moves α) (x : α) (ms : List (Move α)) (mv : Move α) :
    m.run x (ms ++ [mv]) = m.apply (m.run x ms) mv := by
  rw [run, List.foldl_append]
  rfl

/-- The moves of a type that loses nothing. -/
def keep : Moves α where
  construct _ other := other
  assign _ other := other

theorem run_keep (x : α) (ms : List (Move α)) : keep.run x ms = x := by
  induction ms with
  | nil => rfl
  | cons mv ms ih =>
    cases mv
    · exact ih
    · exact ih

/-- A member is moved by the moves of its type. -/
theorem run_member {m : Moves α} {m' : Moves β} {p : α → β}
    (hp : ∀ x mv, p (m.apply x mv) = m'.apply (p x) (mv.map p)) (x : α) (ms : List (Move α)) :
    p (m.run x ms) = m'.run (p x) (ms.map (Move.map p)) := by
  induction ms generalizing x with
  | nil => rfl
  | cons mv ms ih =>
    show p (m.run (m.apply x mv) ms) = m'.run (m'.apply (p x) (mv.map p)) (ms.map (Move.map p))
    rw [ih, hp]

/-- A move either keeps the value, or sets a part of it to `loss`; what was set before does not matter then. -/
structure Loses (m : Moves α) (set : γ → α → α) (loss : Move α → Option γ) : Prop where
  set_set : ∀ c c' x, set c (set c' x) = set c x
  apply : ∀ x mv, m.apply x mv = (loss mv).elim x fun c => set c x

/-- Setting a part changes nothing exactly when it is set to what it is. -/
theorem set_eq_self {set : γ → α → α} {get : α → γ} (hget : ∀ c x, get (set c x) = c) (hset : ∀ x, set (get x) x = x)
    {c : γ} {x : α} : set c x = x ↔ get x = c := by
  constructor
  · intro h
    rw [← h, hget]
  · intro h
    rw [← h, hset]

/-- What the moves leave in the part, if they do not keep it. -/
def lastLoss (loss : Move α → Option γ) (ms : List (Move α)) : Option γ := (ms.filterMap loss).getLast?

section Loses

variable {m : Moves α} {set : γ → α → α} {loss : Move α → Option γ}

/-- Only the last of the moves that do not keep the part matters. -/
theorem Loses.run_eq (h : m.Loses set loss) (x : α) (ms : List (Move α)) :
    m.run x ms = (lastLoss loss ms).elim x fun c => set c x := by
  induction ms using List.reverseRecOn with
  | nil => rfl
  | append_singleton ms mv ih =>
    rw [run_append_singleton, h.apply, ih, lastLoss, lastLoss, List.filterMap_append]
    cases hl : loss mv with
    | none => simp [hl]
    | some c =>
      cases hlast : (ms.filterMap loss).getLast? with
      | none => simp [hl]
      | some c' => simp [hl, h.set_set]

/-- The value is what it was exactly when the part was left as it was. -/
theorem Loses.run_eq_self (h : m.Loses set loss) (x : α) (ms : List (Move α)) :
    m.run x ms = x ↔ ∀ c ∈ lastLoss loss ms, set c x = x := by
  rw [h.run_eq]
  cases lastLoss loss ms with
  | none => simp
  | some c => simp

end Loses

end Moves
