import Mathlib.Algebra.BigOperators.Group.List.Basic
import Mathlib.Algebra.Order.Ring.Nat

/-!
# Program.UniqueValue — values of which one may be given

`contains_unique_value` goes through a range of values and counts each of them among the values that were given.  It
keeps one bit, whether one of them was there once, and stops where a second one is, or one that is there twice.  The
bit is the sum of the counts so far as long as that is at most one, so it stops where the sum exceeds one.
-/

namespace Mashroom

variable {α β γ : Type}

/-! ## The code -/

/-- The loop, where `count` gives the occurrences of a value: how far `iter` comes from the first of the values.  The
first `else` of the source belongs to the inner `if`, the second one to the outer. -/
def uniqueLoop (count : β → ℕ) : Bool → List β → ℕ
  | _, [] => 0
  | containsUnique, value :: values =>
    if count value = 1 then
      if containsUnique = false then uniqueLoop count true values + 1
      else 0
    else if 1 < count value then 0
    else uniqueLoop count containsUnique values + 1

/-- `contains_unique_value`: the position of the iterator that is returned, which is the length for the end. -/
def containsUniqueValue (equal : α → β → Bool) (check : List α) (unique : List β) : ℕ :=
  uniqueLoop (fun value => check.countP fun c => equal c value) false unique

/-- `contains_unique_value` with a converter. -/
def containsUniqueValueConverted (equal : α → γ → Bool) (check : List α) (unique : List β) (converter : β → γ) : ℕ :=
  uniqueLoop (fun value => check.countP fun c => equal c (converter value)) false unique

/-! ## What is returned -/

/-- The occurrences of all values. -/
def occurrences (count : β → ℕ) (values : List β) : ℕ := (values.map count).sum

/-- The end where the values have one occurrence at most, and otherwise the first position up to which they have
more. -/
structure FirstExceeding (count : β → ℕ) (values : List β) (p : ℕ) : Prop where
  le : p ≤ values.length
  end_iff : p = values.length ↔ occurrences count values ≤ 1
  before : ∀ q < p, occurrences count (values.take (q + 1)) ≤ 1
  exceeds : p < values.length → 1 < occurrences count (values.take (p + 1))

section Loop

variable {count : β → ℕ} {value : β} {values : List β} {p n : ℕ}

@[simp] theorem occurrences_nil : occurrences count [] = 0 := rfl

@[simp] theorem occurrences_cons : occurrences count (value :: values) = count value + occurrences count values := rfl

theorem occurrences_take_le (p : ℕ) : occurrences count (values.take p) ≤ occurrences count values := by
  induction values generalizing p with
  | nil => simp
  | cons value values ih =>
    cases p with
    | zero => exact Nat.zero_le _
    | succ p =>
      have hle := ih p
      rw [List.take_succ_cons, occurrences_cons, occurrences_cons]
      omega

/-- After values with `n` occurrences, the position `p` among those that are left is where they have more than one. -/
structure StopsAt (count : β → ℕ) (n : ℕ) (values : List β) (p : ℕ) : Prop where
  le : p ≤ values.length
  before : ∀ q < p, n + occurrences count (values.take (q + 1)) ≤ 1
  exceeds : p < values.length → 1 < n + occurrences count (values.take (p + 1))

/-- The loop stops at the first of the values that are left. -/
theorem StopsAt.here (h : 1 < n + count value) : StopsAt count n (value :: values) 0 where
  le := Nat.zero_le _
  before q hq := absurd hq (Nat.not_lt_zero q)
  exceeds _ := by
    simp only [List.take_succ_cons, List.take_zero, occurrences_cons, occurrences_nil]
    omega

/-- The loop passes a value, and stops at one after it. -/
theorem StopsAt.pass (hn : n + count value ≤ 1) (h : StopsAt count (n + count value) values p) :
    StopsAt count n (value :: values) (p + 1) where
  le := Nat.succ_le_succ h.le
  before q hq := by
    rw [List.take_succ_cons, occurrences_cons]
    cases q with
    | zero =>
      rw [List.take_zero, occurrences_nil]
      omega
    | succ q =>
      have hbefore := h.before q (by omega)
      omega
  exceeds hp := by
    have hexceeds := h.exceeds (Nat.lt_of_succ_lt_succ hp)
    rw [List.take_succ_cons, occurrences_cons]
    omega

/-- The bit is the number of occurrences so far. -/
theorem uniqueLoop_stopsAt (containsUnique : Bool) (values : List β) :
    StopsAt count containsUnique.toNat values (uniqueLoop count containsUnique values) := by
  induction values generalizing containsUnique with
  | nil => exact ⟨Nat.le_refl 0, fun q hq => absurd hq (Nat.not_lt_zero q), fun h => absurd h (Nat.not_lt_zero 0)⟩
  | cons value values ih =>
    rw [uniqueLoop]
    by_cases hone : count value = 1
    · rw [if_pos hone]
      cases containsUnique with
      | false =>
        have htrue := ih true
        rw [if_pos rfl]
        refine .pass (by rw [hone]; decide) ?_
        rwa [hone]
      | true =>
        rw [if_neg (by decide)]
        exact .here (by rw [hone]; decide)
    · rw [if_neg hone]
      by_cases hmore : 1 < count value
      · rw [if_pos hmore]
        exact .here (by omega)
      · have hzero : count value = 0 := by omega
        have hle : containsUnique.toNat ≤ 1 := Bool.toNat_le containsUnique
        rw [if_neg hmore]
        refine .pass (by omega) ?_
        rw [hzero, Nat.add_zero]
        exact ih containsUnique

/-- A position where a loop from the start stops is the first one to exceed. -/
theorem StopsAt.firstExceeding (h : StopsAt count 0 values p) : FirstExceeding count values p where
  le := h.le
  before q hq := by
    have hbefore := h.before q hq
    omega
  exceeds hp := by
    have hexceeds := h.exceeds hp
    omega
  end_iff := by
    constructor
    · rintro rfl
      cases hlength : values.length with
      | zero => simp [List.length_eq_zero_iff.mp hlength]
      | succ m =>
        have hbefore := h.before m (by omega)
        rw [← hlength, List.take_length] at hbefore
        omega
    · intro hsum
      by_contra hne
      have hexceeds := h.exceeds (Nat.lt_of_le_of_ne h.le hne)
      have hle : occurrences count (values.take (p + 1)) ≤ occurrences count values := occurrences_take_le (p + 1)
      omega

end Loop

/-- **Both overloads** return the end exactly where the values of the unique range occur once at most among the checked
ones, all together, and otherwise the first position up to which they occur more often. -/
theorem containsUniqueValue_firstExceeding :
    (∀ (equal : α → β → Bool) (check : List α) (unique : List β),
      FirstExceeding (fun value => check.countP fun c => equal c value) unique
        (containsUniqueValue equal check unique)) ∧
    ∀ (equal : α → γ → Bool) (check : List α) (unique : List β) (converter : β → γ),
      FirstExceeding (fun value => check.countP fun c => equal c (converter value)) unique
        (containsUniqueValueConverted equal check unique converter) :=
  ⟨fun _ _ unique => (uniqueLoop_stopsAt false unique).firstExceeding,
    fun _ _ unique _ => (uniqueLoop_stopsAt false unique).firstExceeding⟩

example : containsUniqueValue (fun c value : ℕ => c == value) [1, 3, 7] [2, 3, 4, 7, 1] = 3 := by decide

end Mashroom
