import Mathlib.Data.List.Induction
import Mathlib.Data.List.Pairwise

/-!
# KeepFirst — sets that tell their elements apart by a relation of their own

A set takes two elements for the same where they are equivalent under its order, or equal for its comparison.  What is
inserted where the same is there is lost.  So a set keeps all that was inserted, up to a relation `R`, exactly where it
takes nothing for the same that `R` tells apart (`keeps_iff`).
-/

namespace KeepFirst

variable {α : Type*} (same : α → α → Prop) [DecidableRel same]

/-- Insertion, which does nothing where the same is there. -/
def insert (s : List α) (x : α) : List α := if ∃ y ∈ s, same x y then s else s ++ [x]

/-- The set of the elements of a list. -/
def insertAll (xs : List α) : List α := xs.foldl (insert same) []

/-- There is one element of `s` for each of `xs`, and only one. -/
structure OneForEach (R : α → α → Prop) (xs s : List α) : Prop where
  subset : s ⊆ xs
  exists_mem : ∀ x ∈ xs, ∃ y ∈ s, R x y
  pairwise : s.Pairwise fun x y => ¬ R x y

variable {same} {s xs : List α} {x y : α}

theorem insert_of_mem (hy : y ∈ s) (h : same x y) : insert same s x = s := if_pos ⟨y, hy, h⟩

theorem insert_of_notMem (h : ∀ y ∈ s, ¬ same x y) : insert same s x = s ++ [x] :=
  if_neg fun ⟨y, hy, hs⟩ => h y hy hs

/-- Of two elements that are the same the first is held. -/
theorem insertAll_pair (h : same y x) : insertAll same [x, y] = [x] := by
  have hone : insert same [] x = [x] := insert_of_notMem fun z hz => (List.not_mem_nil hz).elim
  rw [insertAll, List.foldl_cons, hone]
  exact insert_of_mem List.mem_cons_self h

/-- A set that holds one element for each of `xs` holds one for each of `xs` and the next. -/
theorem OneForEach.insert (hs : Equivalence same) (h : OneForEach same xs s) :
    OneForEach same (xs ++ [x]) (insert same s x) := by
  by_cases hx : ∃ y ∈ s, same x y
  · obtain ⟨y, hy, hxy⟩ := hx
    rw [insert_of_mem hy hxy]
    refine ⟨fun z hz => List.mem_append_left _ (h.subset hz), ?_, h.pairwise⟩
    intro z hz
    rcases List.mem_append.mp hz with hz | hz
    · exact h.exists_mem z hz
    · obtain rfl := List.mem_singleton.mp hz
      exact ⟨y, hy, hxy⟩
  · push Not at hx
    rw [insert_of_notMem hx]
    refine ⟨?_, ?_, ?_⟩
    · intro z hz
      rcases List.mem_append.mp hz with hz | hz
      · exact List.mem_append_left _ (h.subset hz)
      · exact List.mem_append_right _ hz
    · intro z hz
      rcases List.mem_append.mp hz with hz | hz
      · obtain ⟨y, hy, hzy⟩ := h.exists_mem z hz
        exact ⟨y, List.mem_append_left _ hy, hzy⟩
      · obtain rfl := List.mem_singleton.mp hz
        exact ⟨z, List.mem_append_right _ hz, hs.refl z⟩
    · rw [List.pairwise_append]
      refine ⟨h.pairwise, List.pairwise_singleton _ _, ?_⟩
      intro y hy z hz hyz
      obtain rfl := List.mem_singleton.mp hz
      exact hx y hy (hs.symm hyz)

/-- **One for each**: the set of the elements of a list holds one of those that are the same. -/
theorem insertAll_oneForEach (hs : Equivalence same) (xs : List α) : OneForEach same xs (insertAll same xs) := by
  induction xs using List.reverseRecOn with
  | nil => exact ⟨List.Subset.refl _, fun _ hx => (List.not_mem_nil hx).elim, List.Pairwise.nil⟩
  | append_singleton xs x ih =>
    rw [insertAll, List.foldl_append]
    exact ih.insert hs

/-- What is held is the first of those that are the same. -/
theorem mem_insertAll_iff (hs : Equivalence same) {xs : List α} {x : α} :
    x ∈ insertAll same xs ↔ xs.find? (fun y => same x y) = some x := by
  induction xs using List.reverseRecOn generalizing x with
  | nil => simp [insertAll]
  | append_singleton xs z ih =>
    have hall := insertAll_oneForEach hs xs
    have hstep : insertAll same (xs ++ [z]) = insert same (insertAll same xs) z := by
      rw [insertAll, List.foldl_append]
      rfl
    rw [hstep, List.find?_append]
    by_cases hz : ∃ y ∈ insertAll same xs, same z y
    · obtain ⟨y, hy, hzy⟩ := hz
      rw [insert_of_mem hy hzy, ih]
      cases hfind : xs.find? fun y => same x y with
      | some w => rw [Option.some_or]
      | none =>
        -- the last one is not held, and is not the first of its kind
        refine iff_of_false (by simp) fun h => ?_
        obtain ⟨-, hxz⟩ : same x z ∧ z = x := by simpa using h
        have hno := List.find?_eq_none.mp hfind y (hall.subset hy)
        exact hno (decide_eq_true (hxz ▸ hzy))
    · push Not at hz
      rw [insert_of_notMem hz, List.mem_append, List.mem_singleton, ih]
      cases hfind : xs.find? fun y => same x y with
      | some w =>
        rw [Option.some_or]
        refine or_iff_left fun hxz => ?_
        have hxw : same x w := by simpa using List.find?_some hfind
        obtain ⟨y, hy, hwy⟩ := hall.exists_mem w (List.mem_of_find?_eq_some hfind)
        exact hz y hy (hxz ▸ hs.trans hxw hwy)
      | none =>
        rw [Option.none_or]
        constructor
        · rintro (h | rfl)
          · cases h
          · simp [hs.refl x]
        · intro h
          obtain ⟨-, hxz⟩ : same x z ∧ z = x := by simpa using h
          exact .inr hxz.symm

/-- Each element has one that stands for it up to `R`, which tells apart at least what the set does, exactly where `R`
tells apart no more among the elements of the list. -/
theorem exists_mem_iff {R : α → α → Prop} (hs : Equivalence same) (hR : Equivalence R)
    (hle : ∀ ⦃x y⦄, R x y → same x y) :
    (∀ x ∈ xs, ∃ y ∈ insertAll same xs, R x y) ↔ ∀ x ∈ xs, ∀ y ∈ xs, same x y → R x y := by
  have hall := insertAll_oneForEach hs xs
  constructor
  · intro h x hx y hy hxy
    obtain ⟨x', hx', hRx⟩ := h x hx
    obtain ⟨y', hy', hRy⟩ := h y hy
    -- the two that stand for `x` and `y` are the same, and so there is only one
    have hsame : same x' y' := hs.trans (hs.symm (hle hRx)) (hs.trans hxy (hle hRy))
    have heq : x' = y' := by
      by_contra hne
      have : Std.Symm fun x y => ¬ same x y := ⟨fun _ _ hxy hyx => hxy (hs.symm hyx)⟩
      exact hall.pairwise.forall hx' hy' hne hsame
    subst heq
    exact hR.trans hRx (hR.symm hRy)
  · intro h x hx
    obtain ⟨y, hy, hxy⟩ := hall.exists_mem x hx
    exact ⟨y, hy, h x hx y (hall.subset hy) hxy⟩

/-- **Nothing is lost** up to `R`, nor held twice, exactly where `R` tells apart no more than the set does. -/
theorem keeps_iff {R : α → α → Prop} (hs : Equivalence same) (hR : Equivalence R)
    (hle : ∀ ⦃x y⦄, R x y → same x y) :
    OneForEach R xs (insertAll same xs) ↔ ∀ x ∈ xs, ∀ y ∈ xs, same x y → R x y := by
  have hall := insertAll_oneForEach hs xs
  rw [← exists_mem_iff hs hR hle]
  exact ⟨fun h => h.exists_mem, fun h => ⟨hall.subset, h, hall.pairwise.imp fun hne hxy => hne (hle hxy)⟩⟩

end KeepFirst
