import Mathlib.Data.List.Chain
import Mathlib.Order.Basic

/-!
# DoWhile — loops that run their body before they test

`doWhile body cond fuel s` runs `do body while (cond)` from `s` for at most `fuel` passes: `none` when the
fuel runs out, `some (.error e)` when a pass fails, `some (.ok p)` when the loop ends, with `p` telling
whether the condition ended it or the body returned.  The rules are for every body and condition: more fuel
changes nothing, a measure bounds the passes of a loop without errors, an invariant keeps a loop going for
ever, and a loop over the items of a list folds its body over them.
-/

namespace DoWhile

/-- Where a pass through the body ends: at the condition (a `continue` included) or out of the loop. -/
inductive Pass (σ ρ : Type) where
  | next (s : σ)
  | leave (r : ρ)

variable {ε σ ρ α : Type}

/-- One turn of the loop: the body, then the condition.  `inl` goes round again, `inr` ends the loop. -/
def turn (body : σ → Except ε (Pass σ ρ)) (cond : σ → Except ε (Bool × σ)) (s : σ) :
    Except ε (σ ⊕ Pass σ ρ) :=
  match body s with
  | .error e => .error e
  | .ok (.leave r) => .ok (.inr (.leave r))
  | .ok (.next s') =>
    match cond s' with
    | .error e => .error e
    | .ok (true, s'') => .ok (.inl s'')
    | .ok (false, s'') => .ok (.inr (.next s''))

/-- `do body while (cond)` for at most `fuel` turns. -/
def doWhile (body : σ → Except ε (Pass σ ρ)) (cond : σ → Except ε (Bool × σ)) :
    ℕ → σ → Option (Except ε (Pass σ ρ))
  | 0, _ => none
  | n + 1, s =>
    match turn body cond s with
    | .error e => some (.error e)
    | .ok (.inl s') => doWhile body cond n s'
    | .ok (.inr p) => some (.ok p)

variable {body : σ → Except ε (Pass σ ρ)} {cond : σ → Except ε (Bool × σ)}

/-! ## One turn -/

theorem turn_again {s s' s'' : σ} (hb : body s = .ok (.next s')) (hc : cond s' = .ok (true, s'')) :
    turn body cond s = .ok (.inl s'') := by
  simp [turn, hb, hc]

theorem turn_exit {s s' s'' : σ} (hb : body s = .ok (.next s')) (hc : cond s' = .ok (false, s'')) :
    turn body cond s = .ok (.inr (.next s'')) := by
  simp [turn, hb, hc]

theorem doWhile_again {s s' : σ} (h : turn body cond s = .ok (.inl s')) (n : ℕ) :
    doWhile body cond (n + 1) s = doWhile body cond n s' := by
  simp [doWhile, h]

theorem doWhile_exit {s : σ} {p : Pass σ ρ} (h : turn body cond s = .ok (.inr p)) (n : ℕ) :
    doWhile body cond (n + 1) s = some (.ok p) := by
  simp [doWhile, h]

/-! ## Whole loops -/

/-- More fuel changes nothing. -/
theorem doWhile_mono {r : Except ε (Pass σ ρ)} :
    ∀ {n m : ℕ} {s : σ}, doWhile body cond n s = some r → n ≤ m → doWhile body cond m s = some r
  | 0, _, _, h, _ => by simp [doWhile] at h
  | n + 1, 0, _, _, hle => absurd hle (by omega)
  | n + 1, m + 1, s, h, hle => by
    cases ht : turn body cond s with
    | error e => simpa [doWhile, ht] using h
    | ok v =>
      cases v with
      | inl s' =>
        rw [doWhile_again ht] at h ⊢
        exact doWhile_mono h (by omega)
      | inr p => simpa [doWhile, ht] using h

/-- A loop each of whose turns ends it, or goes round again with a lower measure, ends without an error. -/
theorem doWhile_ends (I : σ → Prop) (μ : σ → ℕ)
    (hstep : ∀ s, I s → (∃ p, turn body cond s = .ok (.inr p)) ∨
      ∃ s', turn body cond s = .ok (.inl s') ∧ I s' ∧ μ s' < μ s) :
    ∀ n s, I s → μ s < n → ∃ p, doWhile body cond n s = some (.ok p) := by
  intro n
  induction n with
  | zero => intro s _ hμ; omega
  | succ n ih =>
    intro s hs hμ
    obtain ⟨p, hp⟩ | ⟨s', ht, hs', hlt⟩ := hstep s hs
    · exact ⟨p, doWhile_exit hp n⟩
    · rw [doWhile_again ht]
      exact ih s' hs' (by omega)

/-- A loop that goes round again from every state of an invariant, into the invariant, never ends. -/
theorem doWhile_diverges (I : σ → Prop)
    (hstep : ∀ s, I s → ∃ s', turn body cond s = .ok (.inl s') ∧ I s') :
    ∀ n s, I s → doWhile body cond n s = none := by
  intro n
  induction n with
  | zero => intro s _; rfl
  | succ n ih =>
    intro s hs
    obtain ⟨s', ht, hs'⟩ := hstep s hs
    rw [doWhile_again ht]
    exact ih s' hs'

/-- A body that fails fails the loop. -/
theorem doWhile_error {s : σ} {e : ε} (hb : body s = .error e) (n : ℕ) :
    doWhile body cond (n + 1) s = some (.error e) := by
  simp [doWhile, turn, hb]

/-- An error that neither the body nor the condition has is none of the loop. -/
theorem doWhile_error_ne {e : ε} (hb : ∀ s, body s ≠ .error e) (hc : ∀ s, cond s ≠ .error e) :
    ∀ n s, doWhile body cond n s ≠ some (.error e) := by
  intro n
  induction n with
  | zero => exact fun _ => nofun
  | succ n ih =>
    intro s h
    have hturn : turn body cond s ≠ .error e := by
      unfold turn
      split
      · rename_i e' he
        rintro ⟨⟩
        exact hb s he
      · exact nofun
      · split
        · rename_i e' he
          rintro ⟨⟩
          exact hc _ he
        · exact nofun
        · exact nofun
    cases ht : turn body cond s with
    | error e' =>
      simp only [doWhile, ht, Option.some.injEq, Except.error.injEq] at h
      exact hturn (ht.trans (congrArg Except.error h))
    | ok v =>
      cases v with
      | inl s' =>
        rw [doWhile_again ht] at h
        exact ih s' h
      | inr p => simp [doWhile, ht] at h

/-- **A loop over the items of a list folds its body over them.**  `place x b` is the state that stands at the
item `x` with `b` accumulated; `R x y` says that `y` comes after `x`. -/
theorem doWhile_foldlM {β : Type} (place : α → β → σ) {g : β → α → Except ε β} {R : α → α → Prop} {last : α}
    (hnext : ∀ x y b, R x y → cond (place x b) = .ok (true, place y b))
    (hlast : ∀ b, cond (place last b) = .ok (false, place last b)) :
    ∀ (xs : List α) (x : α) (n : ℕ) (b : β), xs.length < n → List.IsChain R (x :: xs) →
      (x :: xs).getLast? = some last →
      (∀ y ∈ x :: xs, ∀ b, body (place y b) = (fun b' => .next (place y b')) <$> g b y) →
      doWhile body cond n (place x b) = some ((fun b' => .next (place last b')) <$> (x :: xs).foldlM g b) := by
  intro xs
  induction xs with
  | nil =>
    intro x n b hn _ hl hbody
    obtain ⟨n, rfl⟩ : ∃ m, n = m + 1 := ⟨n - 1, by omega⟩
    obtain rfl : x = last := by simpa using hl
    have hb := hbody x (by simp) b
    rw [List.foldlM_cons]
    cases hg : g b x with
    | error e =>
      rw [hg] at hb
      exact doWhile_error hb n
    | ok b' =>
      rw [hg] at hb
      exact doWhile_exit (turn_exit hb (hlast b')) n
  | cons y ys ih =>
    intro x n b hn hc hl hbody
    obtain ⟨n, rfl⟩ : ∃ m, n = m + 1 := ⟨n - 1, by omega⟩
    obtain ⟨hxy, hc⟩ := List.isChain_cons_cons.mp hc
    have hb := hbody x (by simp) b
    rw [List.foldlM_cons]
    cases hg : g b x with
    | error e =>
      rw [hg] at hb
      exact doWhile_error hb n
    | ok b' =>
      rw [hg] at hb
      rw [doWhile_again (turn_again hb (hnext x y b' hxy))]
      exact ih y n b' (by simpa using hn) hc (by simpa using hl) fun z hz => hbody z (List.mem_cons_of_mem _ hz)

/-! ## Loops inside longer computations -/

/-- What a loop whose body never leaves comes to in a computation that may run out of fuel (`none`). -/
def fueled : Option (Except ε (Pass σ Empty)) → Except (Option ε) σ
  | none => .error none
  | some (.error e) => .error (some e)
  | some (.ok (.next s)) => .ok s

/-- A step without a loop in such a computation. -/
def checked (x : Except ε α) : Except (Option ε) α := x.mapError some

theorem fueled_eq_ok {r : Option (Except ε (Pass σ Empty))} {s : σ} :
    fueled r = .ok s ↔ r = some (.ok (.next s)) := by
  rcases r with - | (e | (s' | r))
  · simp [fueled]
  · simp [fueled]
  · simp [fueled]
  · exact r.elim

@[simp] theorem checked_ok (a : α) : checked (.ok a : Except ε α) = .ok a := rfl

@[simp] theorem checked_error (e : ε) : checked (.error e : Except ε α) = .error (some e) := rfl

theorem checked_eq_ok {x : Except ε α} {a : α} : checked x = .ok a ↔ x = .ok a := by
  cases x <;> simp

end DoWhile
