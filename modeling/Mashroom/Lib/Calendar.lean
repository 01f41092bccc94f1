import Mathlib.Data.Int.Basic
import Mathlib.Tactic.IntervalCases
import Mathlib.Tactic.Linarith

/-!
# Calendar — the proleptic Gregorian calendar

A year is any integer.  `dayNumber` counts the days of a date from a fixed one: the days before its year
(`daysBeforeYear`), before its month (`daysBeforeMonth`) and its own; `daysBeforeYear_succ` and
`daysBeforeMonth_succ` are its two steps.
-/

namespace Calendar

/-- A year with a 29 February: one in four, of the centuries one in four. -/
def IsLeap (y : ℤ) : Prop := y % 4 = 0 ∧ (y % 100 ≠ 0 ∨ y % 400 = 0)

instance : DecidablePred IsLeap := fun y => inferInstanceAs (Decidable (y % 4 = 0 ∧ (y % 100 ≠ 0 ∨ y % 400 = 0)))

/-- The days a year has more than a common one. -/
def leapDay (y : ℤ) : ℤ := if IsLeap y then 1 else 0

def yearLength (y : ℤ) : ℤ := 365 + leapDay y

/-- The length of month `m` of a year. -/
def monthLength (y m : ℤ) : ℤ :=
  if m = 2 then 28 + leapDay y else if m = 4 ∨ m = 6 ∨ m = 9 ∨ m = 11 then 30 else 31

/-- The days from the beginning of year 0 to the beginning of a year. -/
def daysBeforeYear (y : ℤ) : ℤ := 365 * y + (y + 3) / 4 - (y + 99) / 100 + (y + 399) / 400

/-- The days of a year before its month `k + 1`. -/
def daysBeforeMonth (y : ℤ) : ℕ → ℤ
  | 0 => 0
  | k + 1 => daysBeforeMonth y k + monthLength y (k + 1)

structure Date where
  year : ℤ
  month : ℤ
  day : ℤ
  deriving DecidableEq

namespace Date

/-- The date is one of the calendar. -/
structure Valid (d : Date) : Prop where
  month_pos : 1 ≤ d.month
  month_le : d.month ≤ 12
  day_pos : 1 ≤ d.day
  day_le : d.day ≤ monthLength d.year d.month

instance (d : Date) : Decidable d.Valid :=
  decidable_of_iff (1 ≤ d.month ∧ d.month ≤ 12 ∧ 1 ≤ d.day ∧ d.day ≤ monthLength d.year d.month)
    ⟨fun h => ⟨h.1, h.2.1, h.2.2.1, h.2.2.2⟩, fun h => ⟨h.month_pos, h.month_le, h.day_pos, h.day_le⟩⟩

/-- The number of the date in its year. -/
def dayOfYear (d : Date) : ℤ := daysBeforeMonth d.year (d.month - 1).toNat + d.day

/-- The number of the date among all days. -/
def dayNumber (d : Date) : ℤ := daysBeforeYear d.year + d.dayOfYear

end Date

section Lengths

theorem leapDay_nonneg (y : ℤ) : 0 ≤ leapDay y := by
  unfold leapDay
  split <;> decide

theorem leapDay_le_one (y : ℤ) : leapDay y ≤ 1 := by
  unfold leapDay
  split <;> decide

theorem leapDay_ne_zero {y : ℤ} : leapDay y ≠ 0 ↔ IsLeap y := by
  unfold leapDay
  split <;> simp_all

theorem leapDay_eq_one {y : ℤ} (h : IsLeap y) : leapDay y = 1 := if_pos h

theorem leapDay_eq_zero {y : ℤ} (h : ¬ IsLeap y) : leapDay y = 0 := if_neg h

/-- A year is as long as its leap day says. -/
theorem daysBeforeYear_succ (y : ℤ) : daysBeforeYear (y + 1) = daysBeforeYear y + yearLength y := by
  by_cases h : IsLeap y
  · rw [yearLength, leapDay_eq_one h]
    unfold daysBeforeYear
    unfold IsLeap at h
    omega
  · rw [yearLength, leapDay_eq_zero h]
    unfold daysBeforeYear
    unfold IsLeap at h
    omega

/-- A year that begins earlier is an earlier year. -/
theorem lt_of_daysBeforeYear_lt {y z : ℤ} (h : daysBeforeYear y < daysBeforeYear z) : y < z := by
  unfold daysBeforeYear at h
  omega

theorem daysBeforeMonth_succ (y : ℤ) (k : ℕ) :
    daysBeforeMonth y (k + 1) = daysBeforeMonth y k + monthLength y (k + 1) := rfl

/-- The months before March have no leap day before them, the others have that of the year. -/
theorem daysBeforeMonth_eq (y : ℤ) {k : ℕ} (hk : k ≤ 12) :
    daysBeforeMonth y k = [0, 31, 59, 90, 120, 151, 181, 212, 243, 273, 304, 334, 365].getD k 0 +
      if 2 ≤ k then leapDay y else 0 := by
  interval_cases k <;> simp [daysBeforeMonth, monthLength] <;> omega

/-- A day of a year that lies in one of its months. -/
theorem Date.valid_ofDay {y n : ℤ} {k : ℕ} (hk : k < 12) (h1 : daysBeforeMonth y k < n)
    (h2 : n ≤ daysBeforeMonth y (k + 1)) : Date.Valid ⟨y, k + 1, n - daysBeforeMonth y k⟩ := by
  rw [daysBeforeMonth_succ] at h2
  exact ⟨by simp, by simp only; omega, by simp only; omega, by simp only; omega⟩

theorem Date.dayOfYear_ofDay (y n : ℤ) (k : ℕ) : Date.dayOfYear ⟨y, k + 1, n - daysBeforeMonth y k⟩ = n := by
  rw [Date.dayOfYear, add_sub_cancel_right, Int.toNat_natCast, add_sub_cancel]

/-- Only 29 February depends on the year. -/
theorem Date.Valid.withYear {d : Date} (h : d.Valid) (y : ℤ) :
    Date.Valid { d with year := y } ↔ (d.month = 2 → d.day = 29 → IsLeap y) := by
  have h1 := h.month_pos
  have h2 := h.month_le
  have h3 := h.day_pos
  have h4 := h.day_le
  unfold monthLength at h4
  constructor
  · intro hv hm hd
    have h5 := hv.day_le
    simp only [monthLength, if_pos hm, hd] at h5
    rw [← leapDay_ne_zero]
    omega
  · intro hleap
    refine ⟨h1, h2, h3, ?_⟩
    show d.day ≤ monthLength y d.month
    unfold monthLength
    by_cases hm : d.month = 2
    · rw [if_pos hm] at h4 ⊢
      have h6 := leapDay_le_one d.year
      by_cases hd : d.day = 29
      · rw [leapDay_eq_one (hleap hm hd)]
        omega
      · have h7 := leapDay_nonneg y
        omega
    · rw [if_neg hm] at h4 ⊢
      exact h4

end Lengths

end Calendar
