import Mathlib.Data.List.Basic
import Mathlib.Data.List.TakeWhile

/-!
# Pieces — what lies between separators

A list falls apart into pieces at the elements that are separators.  The pieces are the longest runs of other elements,
in their order (`exists_runs`): none is empty, none has a separator, and together they are the list without its
separators.
-/

namespace Pieces

variable {α : Type} (p : α → Bool)

/-- The pieces between the elements that `p` holds of. -/
def pieces (s : List α) : List (List α) :=
  match _hs : s.dropWhile p with
  | [] => []
  | c :: cs => (c :: cs.takeWhile fun c => !p c) :: pieces (cs.dropWhile fun c => !p c)
termination_by s.length
decreasing_by
  have h₁ := (List.dropWhile_suffix (l := cs) fun c => !p c).length_le
  have h₂ := (List.dropWhile_suffix (l := s) p).length_le
  rw [_hs, List.length_cons] at h₂
  omega

variable {p}

section Recursion

variable {s cs : List α} {c : α}

/-- A list of separators has no pieces. -/
theorem pieces_of_nil (h : s.dropWhile p = []) : pieces p s = [] := by
  rw [pieces]
  split
  · rfl
  · rename_i h'
    rw [h] at h'
    cases h'

/-- The first piece, and those after it. -/
theorem pieces_of_cons (h : s.dropWhile p = c :: cs) : pieces p s =
    (c :: cs.takeWhile fun c => !p c) :: pieces p (cs.dropWhile fun c => !p c) := by
  rw [pieces]
  split
  · rename_i h'
    rw [h] at h'
    cases h'
  · rename_i h'
    rw [h] at h'
    obtain ⟨rfl, rfl⟩ := List.cons.inj h'
    rfl

theorem not_of_dropWhile (h : s.dropWhile p = c :: cs) : p c = false := by
  have hne : s.dropWhile p ≠ [] := h ▸ List.cons_ne_nil c cs
  have hhead := List.head_dropWhile_not p hne
  simpa only [h, List.head_cons, Bool.not_eq_true] using hhead

/-- After a piece fewer elements are left. -/
theorem length_rest_lt (h : s.dropWhile p = c :: cs) : (cs.dropWhile fun c => !p c).length < s.length := by
  have h₁ := (List.dropWhile_suffix (l := cs) fun c => !p c).length_le
  have h₂ := (List.dropWhile_suffix (l := s) p).length_le
  rw [h, List.length_cons] at h₂
  omega

/-- A property of lists that the pieces of a list come from. -/
theorem pieces_induction {motive : List α → Prop} (blank : ∀ s, s.dropWhile p = [] → motive s)
    (piece : ∀ s c cs, s.dropWhile p = c :: cs → motive (cs.dropWhile fun c => !p c) → motive s) (s : List α) :
    motive s := by
  induction hn : s.length using Nat.strong_induction_on generalizing s with
  | _ n ih =>
    subst hn
    cases h : s.dropWhile p with
    | nil => exact blank s h
    | cons c cs => exact piece s c cs h (ih _ (length_rest_lt h) _ rfl)

end Recursion

/-! ## The pieces -/

/-- No piece is empty or has a separator. -/
theorem mem_pieces {s t : List α} (ht : t ∈ pieces p s) : t ≠ [] ∧ ∀ c ∈ t, p c = false := by
  induction s using pieces_induction (p := p) with
  | blank s h =>
    rw [pieces_of_nil h] at ht
    cases ht
  | piece s c cs h ih =>
    rw [pieces_of_cons h] at ht
    rcases List.mem_cons.mp ht with rfl | ht
    · refine ⟨List.cons_ne_nil _ _, fun d hd => ?_⟩
      rcases List.mem_cons.mp hd with rfl | hd
      · exact not_of_dropWhile h
      · simpa using List.mem_takeWhile_imp hd
    · exact ih ht

/-- Together the pieces are the list without its separators. -/
theorem flatten_pieces (s : List α) : (pieces p s).flatten = s.filter fun c => !p c := by
  have hseps : ∀ s : List α, (s.takeWhile p).filter (fun c => !p c) = [] := by
    intro s
    rw [List.filter_eq_nil_iff]
    intro c hc
    simpa using List.mem_takeWhile_imp hc
  induction s using pieces_induction (p := p) with
  | blank s h =>
    rw [pieces_of_nil h, List.flatten_nil]
    conv_rhs => rw [← List.takeWhile_append_dropWhile (p := p) (l := s)]
    rw [h, List.append_nil, hseps]
  | piece s c cs h ih =>
    have hc : (!p c) = true := by rw [not_of_dropWhile h]; rfl
    have hword : (cs.takeWhile fun c => !p c).filter (fun c => !p c) = cs.takeWhile fun c => !p c :=
      List.filter_eq_self.mpr fun d hd => List.mem_takeWhile_imp (p := fun c => !p c) hd
    rw [pieces_of_cons h, List.flatten_cons, ih]
    conv_rhs => rw [← List.takeWhile_append_dropWhile (p := p) (l := s)]
    rw [List.filter_append, hseps, List.nil_append, h, List.filter_cons_of_pos (p := fun c => !p c) hc]
    conv_rhs => rw [← List.takeWhile_append_dropWhile (p := fun c => !p c) (l := cs)]
    rw [List.filter_append, hword, List.cons_append]

/-! ## Their places -/

/-- The elements from position `b` to before `e` are no separators, and there is none to the left or to the right that
could be added. -/
structure MaximalRun (p : α → Bool) (s : List α) (b e : ℕ) : Prop where
  lt : b < e
  le : e ≤ s.length
  inside : ∀ i c, b ≤ i → i < e → s[i]? = some c → p c = false
  left : ∀ i c, i + 1 = b → s[i]? = some c → p c = true
  right : ∀ c, s[e]? = some c → p c = true

/-- The elements of a run. -/
def slice (s : List α) (r : ℕ × ℕ) : List α := (s.drop r.1).take (r.2 - r.1)

/-- The maximal runs that end before position `k`, all of them and in their order. -/
structure RunsTo (p : α → Bool) (s : List α) (k : ℕ) (runs : List (ℕ × ℕ)) : Prop where
  sorted : runs.Pairwise fun r r' => r.2 < r'.1
  mem_iff : ∀ b e, (b, e) ∈ runs ↔ MaximalRun p s b e ∧ e ≤ k
  boundary : 0 < k → ∀ c, s[k]? = some c → p c = true

section Runs

variable {s : List α} {k b e : ℕ} {runs : List (ℕ × ℕ)}

theorem MaximalRun.getElem (h : MaximalRun p s b e) {i : ℕ} (hb : b ≤ i) (he : i < e) :
    ∃ c, s[i]? = some c ∧ p c = false := by
  have hi : i < s.length := he.trans_le h.le
  exact ⟨s[i], List.getElem?_eq_getElem hi, h.inside i _ hb he (List.getElem?_eq_getElem hi)⟩

theorem RunsTo.zero : RunsTo p s 0 [] where
  sorted := List.Pairwise.nil
  mem_iff b e := by
    constructor
    · intro h
      cases h
    · rintro ⟨h, he⟩
      have hlt := h.lt
      omega
  boundary h := absurd h (Nat.lt_irrefl 0)

/-- No run goes beyond the position. -/
theorem RunsTo.le_of_lt {b' e' : ℕ} (h : RunsTo p s k runs) (hrun : MaximalRun p s b' e') (hk : k < e') : k ≤ b' := by
  by_contra hlt
  obtain ⟨c, hc, hword⟩ := hrun.getElem (i := k) (by omega) hk
  have hsep := h.boundary (by omega) c hc
  rw [hword] at hsep
  cases hsep

/-- Where only separators are left, there are no more runs. -/
theorem RunsTo.last (h : RunsTo p s k runs) (hk : k ≤ s.length)
    (hseps : ∀ i c, k ≤ i → s[i]? = some c → p c = true) : RunsTo p s s.length runs where
  sorted := h.sorted
  mem_iff b e := by
    rw [h.mem_iff]
    constructor
    · rintro ⟨hrun, -⟩
      exact ⟨hrun, hrun.le⟩
    · rintro ⟨hrun, -⟩
      refine ⟨hrun, ?_⟩
      by_contra hlt
      obtain ⟨c, hc, hword⟩ := hrun.getElem (Nat.le_refl b) hrun.lt
      have hsep := hseps b c (h.le_of_lt hrun (by omega)) hc
      rw [hword] at hsep
      cases hsep
  boundary _ c hc := hseps _ c hk hc

/-- The next run, after separators. -/
theorem RunsTo.next (h : RunsTo p s k runs) (hkb : k ≤ b) (hbe : b < e) (he : e ≤ s.length)
    (hseps : ∀ i c, k ≤ i → i < b → s[i]? = some c → p c = true)
    (hword : ∀ i c, b ≤ i → i < e → s[i]? = some c → p c = false)
    (hstop : ∀ c, s[e]? = some c → p c = true) : RunsTo p s e (runs ++ [(b, e)]) := by
  have hgap : 0 < k → k < b := by
    intro hk
    by_contra hlt
    have hlen : k < s.length := by omega
    have hsep := h.boundary hk _ (List.getElem?_eq_getElem hlen)
    rw [hword k _ (by omega) (by omega) (List.getElem?_eq_getElem hlen)] at hsep
    cases hsep
  have hrun : MaximalRun p s b e := by
    refine ⟨hbe, he, hword, fun i c hi hc => ?_, hstop⟩
    exact hseps i c (by omega) (by omega) hc
  refine ⟨?_, fun b' e' => ?_, fun _ => hstop⟩
  · rw [List.pairwise_append]
    refine ⟨h.sorted, List.pairwise_singleton _ _, fun r hr r' hr' => ?_⟩
    obtain rfl := List.mem_singleton.mp hr'
    obtain ⟨hrun', hle⟩ := (h.mem_iff r.1 r.2).mp hr
    have hlt := hrun'.lt
    show r.2 < b
    omega
  · rw [List.mem_append, List.mem_singleton, h.mem_iff, Prod.mk.injEq]
    constructor
    · rintro (⟨hrun', hle⟩ | ⟨rfl, rfl⟩)
      · exact ⟨hrun', by omega⟩
      · exact ⟨hrun, Nat.le_refl _⟩
    · rintro ⟨hrun', hle⟩
      by_cases hk : e' ≤ k
      · exact .inl ⟨hrun', hk⟩
      · refine .inr ?_
        have hkb' := h.le_of_lt hrun' (by omega)
        have hlt := hrun'.lt
        -- the run begins where the separators end, for it has none of them and cannot be made longer
        have hb : b' = b := by
          rcases Nat.lt_trichotomy b' b with hlt' | heq | hgt
          · obtain ⟨c, hc, hnot⟩ := hrun'.getElem (Nat.le_refl b') hlt
            have hsep := hseps b' c hkb' hlt' hc
            rw [hnot] at hsep
            cases hsep
          · exact heq
          · obtain ⟨c, hc, hnot⟩ := hrun.getElem (i := b' - 1) (by omega) (by omega)
            have hsep := hrun'.left (b' - 1) c (by omega) hc
            rw [hnot] at hsep
            cases hsep
        have he' : e' = e := by
          by_contra hne
          obtain ⟨c, hc, hnot⟩ := hrun.getElem (i := e') (by omega) (by omega)
          have hsep := hrun'.right c hc
          rw [hnot] at hsep
          cases hsep
        exact ⟨hb, he'⟩

/-- The elements of a list behind position `k`, by their positions. -/
theorem getElem?_of_takeWhile {q : α → Bool} {l rest : List α} (hl : s.drop k = l ++ rest) (hq : ∀ c ∈ l, q c = true) :
    ∀ i c, k ≤ i → i < k + l.length → s[i]? = some c → q c = true := by
  intro i c hk hi hc
  have hget : (s.drop k)[i - k]? = some c := by
    rw [List.getElem?_drop, Nat.add_sub_cancel' hk]
    exact hc
  rw [hl, List.getElem?_append_left (by omega)] at hget
  exact hq c (List.mem_of_getElem? hget)

theorem slice_of_drop {l rest : List α} (hl : s.drop k = l ++ rest) : slice s (k, k + l.length) = l := by
  rw [slice, hl, Nat.add_sub_cancel_left, List.take_left]

/-- The pieces that are left at position `k` are the runs that are left. -/
theorem RunsTo.rest (h : RunsTo p s k runs) (hk : k ≤ s.length) :
    ∃ more, pieces p (s.drop k) = more.map (slice s) ∧ RunsTo p s s.length (runs ++ more) := by
  induction hl : s.drop k using pieces_induction (p := p) generalizing k runs with
  | blank l hnil =>
    subst hl
    refine ⟨[], pieces_of_nil hnil, ?_⟩
    rw [List.append_nil]
    have hall : s.drop k = (s.drop k).takeWhile p ++ [] := by
      conv_lhs => rw [← List.takeWhile_append_dropWhile (p := p) (l := s.drop k)]
      rw [hnil]
    refine h.last hk fun i c hi hc => ?_
    have hlen : i < s.length := (List.getElem?_eq_some_iff.mp hc).1
    refine getElem?_of_takeWhile hall (fun c hc => List.mem_takeWhile_imp hc) i c hi ?_ hc
    rw [List.append_nil] at hall
    rw [← hall, List.length_drop]
    omega
  | piece l c cs hcons ih =>
    subst hl
    obtain ⟨word, hword⟩ : ∃ word, word = c :: cs.takeWhile fun c => !p c := ⟨_, rfl⟩
    obtain ⟨gap, hgap⟩ : ∃ gap, gap = (s.drop k).takeWhile p := ⟨_, rfl⟩
    have hsplit : s.drop k = gap ++ (word ++ cs.dropWhile fun c => !p c) := by
      rw [hword, List.cons_append, List.takeWhile_append_dropWhile, ← hcons, hgap, List.takeWhile_append_dropWhile]
    have hb : s.drop (k + gap.length) = word ++ cs.dropWhile fun c => !p c := by
      rw [← List.drop_drop, hsplit, List.drop_left]
    have he : s.drop (k + gap.length + word.length) = cs.dropWhile fun c => !p c := by
      rw [← List.drop_drop, hb, List.drop_left]
    have hlen : k + gap.length + word.length ≤ s.length := by
      have hlength := congrArg List.length hsplit
      rw [List.length_drop, List.length_append, List.length_append] at hlength
      omega
    have hpos : 0 < word.length := by rw [hword]; exact Nat.succ_pos _
    have hseps : ∀ c ∈ gap, p c = true := fun c hc => List.mem_takeWhile_imp (hgap ▸ hc)
    have hnone : ∀ d ∈ word, (!p d) = true := by
      intro d hd
      rw [hword] at hd
      rcases List.mem_cons.mp hd with rfl | hd
      · rw [not_of_dropWhile hcons]
        rfl
      · exact List.mem_takeWhile_imp (p := fun c => !p c) hd
    have hstop : ∀ d, s[k + gap.length + word.length]? = some d → p d = true := by
      intro d hd
      have hhead : (cs.dropWhile fun c => !p c).head? = some d := by
        rw [← he, List.head?_drop]
        exact hd
      obtain ⟨ds, hds⟩ := List.head?_eq_some_iff.mp hhead
      simpa using not_of_dropWhile hds
    have hnext := h.next (Nat.le_add_right k gap.length) (Nat.lt_add_of_pos_right hpos) hlen
      (getElem?_of_takeWhile hsplit hseps) (fun i d hi hlt hd => by
        simpa using getElem?_of_takeWhile hb hnone i d hi hlt hd) hstop
    obtain ⟨more, hmore, hruns⟩ := ih hnext hlen he
    refine ⟨(k + gap.length, k + gap.length + word.length) :: more, ?_, ?_⟩
    · rw [pieces_of_cons hcons, hmore, List.map_cons, slice_of_drop hb, hword]
    · rw [List.append_cons]
      exact hruns

/-- **The pieces are the maximal runs**, in their order. -/
theorem exists_runs (s : List α) : ∃ runs : List (ℕ × ℕ), pieces p s = runs.map (slice s) ∧
    (runs.Pairwise fun r r' => r.2 < r'.1) ∧ ∀ b e, (b, e) ∈ runs ↔ MaximalRun p s b e := by
  obtain ⟨runs, hpieces, hruns⟩ := (RunsTo.zero (p := p) (s := s)).rest (Nat.zero_le _)
  rw [List.drop_zero] at hpieces
  rw [List.nil_append] at hruns
  refine ⟨runs, hpieces, hruns.sorted, fun b e => ?_⟩
  rw [hruns.mem_iff]
  exact ⟨fun h => h.1, fun h => ⟨h, h.le⟩⟩

end Runs

end Pieces
