import Mathlib.Data.List.Basic

/-!
# Shared — objects that share what they hold

Objects have numbers, in the order in which they are made; one is gone when it is destroyed, and may hold nothing while
it is there.  As many objects as the use count says hold the same thing (`useCount_le_one_iff`).
-/

/-- The objects made so far. -/
abbrev Objects (β : Type) := List (Option (Option β))

namespace Objects

variable {β : Type}

/-- The object `i` holds `b`. -/
def Holds (objs : Objects β) (i : ℕ) (b : β) : Prop := objs[i]? = some (some (some b))

/-- `use_count()` of a share of `b`. -/
def useCount [DecidableEq β] (objs : Objects β) (b : β) : ℕ := objs.count (some (some b))

variable {objs : Objects β} {i j : ℕ} {b : β} {x : Option (Option β)}

theorem holds_set_self (hi : i < objs.length) : Holds (objs.set i x) i b ↔ x = some (some b) := by
  unfold Holds
  rw [List.getElem?_set_self hi, Option.some.injEq]

theorem holds_set_ne (h : j ≠ i) : Holds (objs.set i x) j b ↔ objs.Holds j b := by
  unfold Holds
  rw [List.getElem?_set_ne h.symm]

theorem holds_concat : Holds (objs ++ [x]) j b ↔ objs.Holds j b ∨ j = objs.length ∧ x = some (some b) := by
  unfold Holds
  by_cases hj : j < objs.length
  · rw [List.getElem?_append_left hj]
    simp [Nat.ne_of_lt hj]
  · rw [List.getElem?_append_right (by omega), List.getElem?_eq_none (show objs.length ≤ j by omega)]
    by_cases hlen : j = objs.length
    · subst hlen
      simp
    · rw [List.getElem?_eq_none (by simp; omega)]
      simp [hlen]

theorem Holds.lt (h : objs.Holds i b) : i < objs.length := by
  by_contra hi
  rw [Holds, List.getElem?_eq_none (by omega)] at h
  cases h

/-- The use count is one when no other object holds the same. -/
theorem useCount_le_one_iff [DecidableEq β] (h : objs.Holds i b) :
    objs.useCount b ≤ 1 ↔ ∀ j, objs.Holds j b → j = i := by
  have hi := h.lt
  have hget : objs[i] = some (some b) := by
    have h' : objs[i]? = some (some (some b)) := h
    rw [List.getElem?_eq_getElem hi] at h'
    exact Option.some.inj h'
  have hcount : (objs.set i none).count (some (some b)) = objs.useCount b - 1 := by
    rw [List.count_set hi, hget]
    simp [useCount]
  have hpos : 0 < objs.useCount b := List.count_pos_iff.mpr (hget ▸ List.getElem_mem hi)
  have hzero : objs.useCount b ≤ 1 ↔ some (some b) ∉ objs.set i none := by
    rw [← List.count_eq_zero, hcount]
    omega
  rw [hzero]
  constructor
  · intro hnot j hj
    by_contra hne
    exact hnot (List.mem_of_getElem? ((holds_set_ne hne).mpr hj))
  · intro hall hmem
    obtain ⟨j, hj⟩ := List.mem_iff_getElem?.mp hmem
    have hj : Holds (objs.set i none) j b := hj
    by_cases hne : j = i
    · subst hne
      exact absurd ((holds_set_self hi).mp hj) (by simp)
    · exact hne (hall j ((holds_set_ne hne).mp hj))

end Objects
