import Mathlib.Order.RelClasses
import Mathlib.Data.List.Basic

/-!
# SortedSets — intersection and difference of sorted lists

`std::set_intersection` and `std::set_difference` walk two sorted ranges side by side.  Where both have every element
once, they select what is in the second one and what is not.
-/

namespace SortedSets

variable {α : Type} {lt : α → α → Prop} {a b x : α} {as bs : List α}

section Order

variable [IsStrictTotalOrder α lt]

/-- What comes before a sorted list is not in it. -/
theorem notMem_of_lt (hbs : (b :: bs).Pairwise lt) (h : lt a b) : a ∉ b :: bs := by
  intro ha
  obtain rfl | ha := List.mem_cons.mp ha
  · exact irrefl a h
  · exact irrefl a (trans_of lt h (List.rel_of_pairwise_cons hbs ha))

/-- The head of a sorted list is not in the rest. -/
theorem ne_of_mem_tail (has : (a :: as).Pairwise lt) (hx : x ∈ as) : x ≠ a := by
  rintro rfl
  exact irrefl x (List.rel_of_pairwise_cons has hx)

/-- Elements that come in neither order are the same. -/
theorem eq_of_not_lt (h : ¬ lt a b) (h' : ¬ lt b a) : a = b := by
  obtain h'' | rfl | h'' := trichotomous_of lt a b
  · exact absurd h'' h
  · rfl
  · exact absurd h'' h'

end Order

section Walk

variable (lt) [DecidableRel lt]

/-- `std::set_intersection` -/
def setIntersection : List α → List α → List α
  | [], _ => []
  | _, [] => []
  | a :: as, b :: bs =>
    if lt a b then setIntersection as (b :: bs)
    else if lt b a then setIntersection (a :: as) bs
    else a :: setIntersection as bs
termination_by as bs => as.length + bs.length

/-- `std::set_difference` -/
def setDifference : List α → List α → List α
  | [], _ => []
  | as, [] => as
  | a :: as, b :: bs =>
    if lt a b then a :: setDifference as (b :: bs)
    else if lt b a then setDifference (a :: as) bs
    else setDifference as bs
termination_by as bs => as.length + bs.length

variable {lt} [DecidableEq α] [IsStrictTotalOrder α lt]

/-- **The intersection is what is in the second list.** -/
theorem setIntersection_eq (has : as.Pairwise lt) (hbs : bs.Pairwise lt) :
    setIntersection lt as bs = as.filter (· ∈ bs) := by
  fun_induction setIntersection lt as bs with
  | case1 bs => rfl
  | case2 as => simp
  | case3 a as b bs h ih =>
    rw [ih has.tail hbs, List.filter_cons_of_neg (by simpa using notMem_of_lt hbs h)]
  | case4 a as b bs h h' ih =>
    rw [ih has hbs.tail]
    refine List.filter_congr fun x hx => ?_
    have hne : x ≠ b := fun heq => notMem_of_lt has h' (heq ▸ hx)
    simp [hne]
  | case5 a as b bs h h' ih =>
    obtain rfl := eq_of_not_lt h h'
    rw [ih has.tail hbs.tail, List.filter_cons_of_pos (by simp)]
    refine congrArg _ (List.filter_congr fun x hx => ?_)
    simp [ne_of_mem_tail has hx]

/-- **The difference is what is not in the second list.** -/
theorem setDifference_eq (has : as.Pairwise lt) (hbs : bs.Pairwise lt) :
    setDifference lt as bs = as.filter (· ∉ bs) := by
  fun_induction setDifference lt as bs with
  | case1 bs => rfl
  | case2 as => simp
  | case3 a as b bs h ih =>
    rw [ih has.tail hbs, List.filter_cons_of_pos (by simpa using notMem_of_lt hbs h)]
  | case4 a as b bs h h' ih =>
    rw [ih has hbs.tail]
    refine List.filter_congr fun x hx => ?_
    have hne : x ≠ b := fun heq => notMem_of_lt has h' (heq ▸ hx)
    simp [hne]
  | case5 a as b bs h h' ih =>
    obtain rfl := eq_of_not_lt h h'
    rw [ih has.tail hbs.tail, List.filter_cons_of_neg (by simp)]
    refine List.filter_congr fun x hx => ?_
    simp [ne_of_mem_tail has hx]

end Walk

end SortedSets
