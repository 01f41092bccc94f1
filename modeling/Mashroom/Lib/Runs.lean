import Mathlib.Data.List.Basic

/-!
# Runs — what holds at the steps of a system

A system steps by a partial function of its state and of what is done; a run is a list of what is done, and ends where
a step cannot be taken.  What a step does exactly when it meets a condition, every step of a run does exactly when
they all meet it (`each_iff_meets`), as long as steps that meet it keep an invariant.
-/

namespace Runs

section Steps

variable {σ α : Type} (step : σ → α → Option σ)

/-- The state at the end of a run. -/
def run (s : σ) : List α → Option σ
  | [] => some s
  | a :: as => (step s a).bind fun s' => run s' as

/-- Every step that the run takes is related to the states before and after it. -/
def Each (R : σ → α → σ → Prop) (s : σ) : List α → Prop
  | [] => True
  | a :: as => ∀ s', step s a = some s' → R s a s' ∧ Each R s' as

/-- Every step that the run takes meets a condition, in the state before it. -/
abbrev Meets (C : σ → α → Prop) : σ → List α → Prop := Each step fun s a _ => C s a

variable {step}

theorem run_cons (s : σ) (a : α) (as : List α) : run step s (a :: as) = (step s a).bind fun s' => run step s' as := rfl

theorem run_append (s : σ) (as bs : List α) :
    run step s (as ++ bs) = (run step s as).bind fun s' => run step s' bs := by
  induction as generalizing s with
  | nil => rfl
  | cons a as ih =>
    rw [List.cons_append, run_cons, run_cons, Option.bind_assoc]
    exact congrArg _ (funext ih)

/-- A relation of the states and what is done that holds of the empty run, and of a run with one step more before it. -/
theorem run_induction {R : σ → List α → σ → Prop} (hnil : ∀ s, R s [] s)
    (hcons : ∀ s a t as s', step s a = some t → R t as s' → R s (a :: as) s') {s s' : σ} {as : List α}
    (h : run step s as = some s') : R s as s' := by
  induction as generalizing s with
  | nil =>
    obtain rfl := Option.some.inj h
    exact hnil s
  | cons a as ih =>
    rw [run_cons] at h
    obtain ⟨t, ht, h⟩ := Option.bind_eq_some_iff.mp h
    exact hcons s a t as s' ht (ih h)

/-- Where every state that has not got there has a step that keeps an invariant and lowers a measure, a run gets
there. -/
theorem exists_run {I G : σ → Prop} (μ : σ → ℕ)
    (hstep : ∀ s, I s → ¬ G s → ∃ a s', step s a = some s' ∧ I s' ∧ μ s' < μ s) {s : σ} (hs : I s) :
    ∃ as s', run step s as = some s' ∧ I s' ∧ G s' := by
  induction hn : μ s using Nat.strongRecOn generalizing s with
  | ind n ih =>
    by_cases hG : G s
    · exact ⟨[], s, rfl, hs, hG⟩
    · obtain ⟨a, t, ht, hI, hlt⟩ := hstep s hs hG
      obtain ⟨as, s', hrun, hs', hG'⟩ := ih (μ t) (hn ▸ hlt) hI rfl
      exact ⟨a :: as, s', by rw [run_cons, ht, Option.bind_some, hrun], hs', hG'⟩

/-- What the steps of a run are: those after its prefixes. -/
theorem each_iff {R : σ → α → σ → Prop} {s : σ} {as : List α} :
    Each step R s as ↔ ∀ before a after s' s'', as = before ++ a :: after → run step s before = some s' →
      step s' a = some s'' → R s' a s'' := by
  induction as generalizing s with
  | nil => simp [Each]
  | cons a as ih =>
    constructor
    · intro h before b after s' s'' heq hrun hstep
      cases before with
      | nil =>
        obtain ⟨rfl, rfl⟩ := List.cons.inj heq
        obtain rfl := Option.some.inj hrun
        exact (h s'' hstep).1
      | cons c before =>
        obtain ⟨rfl, rfl⟩ := List.cons.inj heq
        rw [run_cons] at hrun
        obtain ⟨t, ht, hrun⟩ := Option.bind_eq_some_iff.mp hrun
        exact ih.mp (h t ht).2 before b after s' s'' rfl hrun hstep
    · intro h s' hs'
      refine ⟨h [] a as s s' rfl rfl hs', ih.mpr fun before b after t t' heq hrun hstep => ?_⟩
      refine h (a :: before) b after t t' (by rw [heq]; rfl) ?_ hstep
      rw [run_cons, hs', Option.bind_some, hrun]

theorem each_append {R : σ → α → σ → Prop} {s : σ} {as bs : List α} :
    Each step R s (as ++ bs) ↔ Each step R s as ∧ ∀ s', run step s as = some s' → Each step R s' bs := by
  induction as generalizing s with
  | nil => exact ⟨fun h => ⟨trivial, fun s' hs' => Option.some.inj hs' ▸ h⟩, fun h => h.2 s rfl⟩
  | cons a as ih =>
    constructor
    · intro h
      refine ⟨fun s' hs' => ⟨(h s' hs').1, (ih.mp (h s' hs').2).1⟩, fun s' hrun => ?_⟩
      rw [run_cons] at hrun
      obtain ⟨t, ht, hrun⟩ := Option.bind_eq_some_iff.mp hrun
      exact (ih.mp (h t ht).2).2 s' hrun
    · intro h t ht
      refine ⟨(h.1 t ht).1, ih.mpr ⟨(h.1 t ht).2, fun s' hrun => h.2 s' ?_⟩⟩
      rw [run_cons, ht, Option.bind_some, hrun]

/-- An invariant of the steps that meet a condition holds at the end of a run whose steps meet it. -/
theorem invariant_run {C : σ → α → Prop} {I : σ → Prop} (hI : ∀ s a s', I s → C s a → step s a = some s' → I s')
    {s s' : σ} {as : List α} (hs : I s) (hC : Meets step C s as) (h : run step s as = some s') : I s' := by
  induction as generalizing s with
  | nil =>
    obtain rfl := Option.some.inj h
    exact hs
  | cons a as ih =>
    rw [run_cons] at h
    obtain ⟨t, ht, h⟩ := Option.bind_eq_some_iff.mp h
    exact ih (hI s a t hs (hC t ht).1 ht) (hC t ht).2 h

/-- How much the steps of a run count. -/
def count (step : σ → α → Option σ) (c : σ → α → ℕ) : σ → List α → ℕ
  | _, [] => 0
  | s, a :: as => c s a + (step s a).elim 0 fun s' => count step c s' as

/-- An invariant that counts what the steps count. -/
theorem counted_run {c : σ → α → ℕ} {I : ℕ → σ → Prop}
    (hI : ∀ n s a s', I n s → step s a = some s' → I (n + c s a) s') {n : ℕ} {s s' : σ} {as : List α} (hs : I n s)
    (h : run step s as = some s') : I (n + count step c s as) s' := by
  induction as generalizing s n with
  | nil =>
    obtain rfl := Option.some.inj h
    exact hs
  | cons a as ih =>
    rw [run_cons] at h
    obtain ⟨t, ht, h⟩ := Option.bind_eq_some_iff.mp h
    have hcount : count step c s (a :: as) = c s a + count step c t as := by rw [count, ht, Option.elim_some]
    rw [hcount, ← Nat.add_assoc]
    exact ih (hI n s a t hs ht) h

/-- A condition on what is done. -/
theorem meets_of_mem {C : α → Prop} {as : List α} (h : ∀ a ∈ as, C a) (s : σ) : Meets step (fun _ => C) s as := by
  refine each_iff.mpr fun before a after _ _ heq _ _ => h a ?_
  rw [heq]
  exact List.mem_append_right _ List.mem_cons_self

/-- What a step does when it meets a condition, the steps of a run do when they all meet it. -/
theorem each_of_meets {R : σ → α → σ → Prop} {C : σ → α → Prop} {I : σ → Prop}
    (hR : ∀ s a s', I s → C s a → step s a = some s' → R s a s')
    (hI : ∀ s a s', I s → C s a → step s a = some s' → I s') {s : σ} {as : List α} (hs : I s)
    (hC : Meets step C s as) : Each step R s as := by
  induction as generalizing s with
  | nil => trivial
  | cons a as ih =>
    intro s' hs'
    obtain ⟨ha, has⟩ := hC s' hs'
    exact ⟨hR s a s' hs ha hs', ih (hI s a s' hs ha hs') has⟩

/-- What a step does exactly when it meets a condition, the steps of a run do exactly when they all meet it. -/
theorem each_iff_meets {R : σ → α → σ → Prop} {C : σ → α → Prop} {I : σ → Prop}
    (hR : ∀ s a s', I s → step s a = some s' → (R s a s' ↔ C s a))
    (hI : ∀ s a s', I s → C s a → step s a = some s' → I s') {s : σ} (hs : I s) (as : List α) :
    Each step R s as ↔ Meets step C s as := by
  induction as generalizing s with
  | nil => exact Iff.rfl
  | cons a as ih =>
    refine forall₂_congr fun s' hs' => ?_
    have ha := hR s a s' hs hs'
    constructor
    · rintro ⟨hstep, hrest⟩
      exact ⟨ha.mp hstep, (ih (hI s a s' hs (ha.mp hstep) hs')).mp hrest⟩
    · rintro ⟨hstep, hrest⟩
      exact ⟨ha.mpr hstep, (ih (hI s a s' hs hstep hs')).mpr hrest⟩

end Steps

/-- A guarded step. -/
theorem guard_eq_some {σ : Type} {c : Prop} [Decidable c] {s s' : σ} (h : (if c then some s else none) = some s') :
    c ∧ s = s' := by
  obtain ⟨hc, hs⟩ := Option.ite_none_right_eq_some.mp h
  exact ⟨hc, Option.some.inj hs⟩

end Runs
