import Mathlib.Data.List.Basic
import Mathlib.Data.List.TakeWhile

/-!
# Regex — texts that are matched as a whole, and what their groups hold

A regular expression of characters, whose groups are numbered and whose repetitions are of one character.  `run` tries
the ways to match a front of a text in the order of a backtracking matcher, and `fullMatch` takes the first one that
leaves nothing.  What can be matched, and with which groups, is `Derives`; the matcher finds a derivation of the whole
text exactly where there is one (`fullMatch_eq_none`).
-/

inductive Regex where
  | text (t : List Char)
  | one (p : Char → Bool)
  | many (p : Char → Bool)
  | seq (r r' : Regex)
  | alt (r r' : Regex)
  | group (i : ℕ) (r : Regex)

namespace Regex

/-- What the groups hold, the outer ones first. -/
abbrev Groups := List (ℕ × List Char)

/-- What a group holds: nothing, where it has no part in the match. -/
def Groups.get (g : Groups) (i : ℕ) : List Char := ((g.find? fun p => p.1 = i).map Prod.snd).getD []

/-- One or more characters. -/
def some (p : Char → Bool) : Regex := .seq (.one p) (.many p)

/-- The expression, or nothing. -/
def opt (r : Regex) : Regex := .alt r (.text [])

/-- Up to `n` characters. -/
def upTo (p : Char → Bool) : ℕ → Regex
  | 0 => .text []
  | n + 1 => opt (.seq (.one p) (upTo p n))

/-! ## The matcher -/

/-- The ends of the text, from the one without the first `n` characters back to all of it. -/
def ends (s : List Char) : ℕ → List (List Char)
  | 0 => [s]
  | n + 1 => s.drop (n + 1) :: ends s n

/-- The ways to match a front of the text, each with its groups and with what is left. -/
def run : Regex → List Char → List (Groups × List Char)
  | .text t, s => if t <+: s then [([], s.drop t.length)] else []
  | .one _, [] => []
  | .one p, c :: s => if p c then [([], s)] else []
  | .many p, s => (ends s (s.takeWhile p).length).map fun rest => ([], rest)
  | .seq r r', s => (run r s).flatMap fun m => (run r' m.2).map fun m' => (m.1 ++ m'.1, m'.2)
  | .alt r r', s => run r s ++ run r' s
  | .group i r, s => (run r s).map fun m => ((i, s.take (s.length - m.2.length)) :: m.1, m.2)

/-- The groups of the first match of the whole text. -/
def fullMatch (r : Regex) (s : List Char) : Option Groups := ((run r s).find? fun m => m.2 = []).map Prod.fst

/-! ## What is matched -/

/-- The expression matches the text, and its groups hold these parts of it. -/
inductive Derives : Regex → List Char → Groups → Prop
  | text (t : List Char) : Derives (.text t) t []
  | one {p : Char → Bool} {c : Char} (h : p c = true) : Derives (.one p) [c] []
  | many {p : Char → Bool} {w : List Char} (h : ∀ c ∈ w, p c = true) : Derives (.many p) w []
  | seq {r r' : Regex} {w w' : List Char} {g g' : Groups} (h : Derives r w g) (h' : Derives r' w' g') :
      Derives (.seq r r') (w ++ w') (g ++ g')
  | left {r r' : Regex} {w : List Char} {g : Groups} (h : Derives r w g) : Derives (.alt r r') w g
  | right {r r' : Regex} {w : List Char} {g : Groups} (h : Derives r' w g) : Derives (.alt r r') w g
  | group {i : ℕ} {r : Regex} {w : List Char} {g : Groups} (h : Derives r w g) : Derives (.group i r) w ((i, w) :: g)

section Derives

variable {r r' : Regex} {p : Char → Bool} {t w : List Char} {g : Groups} {i : ℕ}

@[simp] theorem derives_text : Derives (.text t) w g ↔ w = t ∧ g = [] := by
  constructor
  · rintro ⟨⟩
    exact ⟨rfl, rfl⟩
  · rintro ⟨rfl, rfl⟩
    exact .text w

@[simp] theorem derives_one : Derives (.one p) w g ↔ (∃ c, p c = true ∧ w = [c]) ∧ g = [] := by
  constructor
  · rintro ⟨⟩
    exact ⟨⟨_, ‹_›, rfl⟩, rfl⟩
  · rintro ⟨⟨c, h, rfl⟩, rfl⟩
    exact .one h

@[simp] theorem derives_many : Derives (.many p) w g ↔ (∀ c ∈ w, p c = true) ∧ g = [] := by
  constructor
  · rintro ⟨⟩
    exact ⟨‹_›, rfl⟩
  · rintro ⟨h, rfl⟩
    exact .many h

theorem derives_seq : Derives (.seq r r') w g ↔
    ∃ w₁ g₁ w₂ g₂, Derives r w₁ g₁ ∧ Derives r' w₂ g₂ ∧ w = w₁ ++ w₂ ∧ g = g₁ ++ g₂ := by
  constructor
  · rintro ⟨⟩
    exact ⟨_, _, _, _, ‹_›, ‹_›, rfl, rfl⟩
  · rintro ⟨w₁, g₁, w₂, g₂, h, h', rfl, rfl⟩
    exact .seq h h'

theorem derives_alt : Derives (.alt r r') w g ↔ Derives r w g ∨ Derives r' w g := by
  constructor
  · intro h
    cases h with
    | left h => exact .inl h
    | right h => exact .inr h
  · rintro (h | h)
    · exact .left h
    · exact .right h

theorem derives_group : Derives (.group i r) w g ↔ ∃ g', Derives r w g' ∧ g = (i, w) :: g' := by
  constructor
  · rintro ⟨⟩
    exact ⟨_, ‹_›, rfl⟩
  · rintro ⟨g', h, rfl⟩
    exact .group h

theorem derives_some : Derives (some p) w g ↔ (w ≠ [] ∧ ∀ c ∈ w, p c = true) ∧ g = [] := by
  rw [some, derives_seq]
  constructor
  · rintro ⟨w₁, g₁, w₂, g₂, h, h', rfl, rfl⟩
    obtain ⟨⟨c, hc, rfl⟩, rfl⟩ := derives_one.mp h
    obtain ⟨hall, rfl⟩ := derives_many.mp h'
    exact ⟨⟨List.cons_ne_nil c w₂, List.forall_mem_cons.mpr ⟨hc, hall⟩⟩, rfl⟩
  · rintro ⟨⟨hne, hall⟩, rfl⟩
    obtain ⟨c, w, rfl⟩ := List.exists_cons_of_ne_nil hne
    obtain ⟨hc, hall⟩ := List.forall_mem_cons.mp hall
    exact ⟨[c], [], w, [], .one hc, .many hall, rfl, rfl⟩

theorem derives_opt : Derives (opt r) w g ↔ Derives r w g ∨ (w = [] ∧ g = []) := by
  rw [opt, derives_alt, derives_text]

theorem derives_upTo {n : ℕ} : Derives (upTo p n) w g ↔ (w.length ≤ n ∧ ∀ c ∈ w, p c = true) ∧ g = [] := by
  induction n generalizing w g with
  | zero =>
    rw [upTo, derives_text, Nat.le_zero, List.length_eq_zero_iff]
    constructor
    · rintro ⟨rfl, rfl⟩
      exact ⟨⟨rfl, fun _ hc => absurd hc List.not_mem_nil⟩, rfl⟩
    · rintro ⟨⟨hnil, -⟩, hg⟩
      exact ⟨hnil, hg⟩
  | succ n ih =>
    rw [upTo, derives_opt, derives_seq]
    constructor
    · rintro (⟨w₁, g₁, w₂, g₂, h, h', rfl, rfl⟩ | ⟨rfl, rfl⟩)
      · obtain ⟨⟨c, hc, rfl⟩, rfl⟩ := derives_one.mp h
        obtain ⟨⟨hlen, hall⟩, rfl⟩ := ih.mp h'
        exact ⟨⟨Nat.succ_le_succ hlen, List.forall_mem_cons.mpr ⟨hc, hall⟩⟩, rfl⟩
      · exact ⟨⟨Nat.zero_le _, fun _ hc => absurd hc List.not_mem_nil⟩, rfl⟩
    · rintro ⟨⟨hlen, hall⟩, rfl⟩
      cases w with
      | nil => exact .inr ⟨rfl, rfl⟩
      | cons c w =>
        obtain ⟨hc, hall⟩ := List.forall_mem_cons.mp hall
        exact .inl ⟨[c], [], w, [], .one hc, ih.mpr ⟨⟨Nat.le_of_succ_le_succ hlen, hall⟩, rfl⟩, rfl, rfl⟩

end Derives

/-! ## The matcher finds what is matched -/

section Run

variable {r : Regex} {s : List Char} {g : Groups}

theorem mem_ends {n : ℕ} {rest : List Char} : rest ∈ ends s n ↔ ∃ k ≤ n, rest = s.drop k := by
  induction n with
  | zero => simp [ends]
  | succ n ih =>
    rw [ends, List.mem_cons, ih]
    constructor
    · rintro (rfl | ⟨k, hk, rfl⟩)
      · exact ⟨n + 1, Nat.le_refl _, rfl⟩
      · exact ⟨k, by omega, rfl⟩
    · rintro ⟨k, hk, rfl⟩
      rcases Nat.lt_or_ge n k with hlt | hle
      · exact .inl (by rw [show k = n + 1 by omega])
      · exact .inr ⟨k, hle, rfl⟩

/-- The characters that a repetition can take. -/
theorem mem_ends_takeWhile {p : Char → Bool} {rest : List Char} :
    rest ∈ ends s (s.takeWhile p).length ↔ ∃ w, s = w ++ rest ∧ ∀ c ∈ w, p c = true := by
  rw [mem_ends]
  constructor
  · rintro ⟨k, hk, rfl⟩
    refine ⟨s.take k, (List.take_append_drop k s).symm, fun c hc => ?_⟩
    have htake : s.take k = (s.takeWhile p).take k := by
      conv_lhs => rw [← List.takeWhile_append_dropWhile (p := p) (l := s)]
      exact List.take_append_of_le_length hk
    rw [htake] at hc
    exact List.mem_takeWhile_imp (List.mem_of_mem_take hc)
  · rintro ⟨w, rfl, hw⟩
    refine ⟨w.length, ?_, (List.drop_left).symm⟩
    rw [List.takeWhile_append_of_pos hw, List.length_append]
    exact Nat.le_add_right _ _

/-- **The ways that are tried** are the derivations of a front of the text. -/
theorem mem_run {rest : List Char} : (g, rest) ∈ run r s ↔ ∃ w, s = w ++ rest ∧ Derives r w g := by
  induction r generalizing s g rest with
  | text t =>
    rw [run]
    constructor
    · intro h
      split at h
      · rename_i ht
        obtain ⟨u, rfl⟩ := ht
        obtain ⟨rfl, rfl⟩ := Prod.mk.inj (List.mem_singleton.mp h)
        exact ⟨t, by rw [List.drop_left], .text t⟩
      · cases h
    · rintro ⟨w, rfl, hw⟩
      obtain ⟨rfl, rfl⟩ := derives_text.mp hw
      rw [if_pos (List.prefix_append w rest), List.drop_left]
      exact List.mem_singleton_self _
  | one p =>
    constructor
    · intro h
      cases s with
      | nil => cases h
      | cons c s =>
        rw [run] at h
        split at h
        · rename_i hc
          obtain ⟨rfl, rfl⟩ := Prod.mk.inj (List.mem_singleton.mp h)
          exact ⟨[c], rfl, .one hc⟩
        · cases h
    · rintro ⟨w, rfl, hw⟩
      obtain ⟨⟨c, hc, rfl⟩, rfl⟩ := derives_one.mp hw
      rw [List.singleton_append, run, if_pos hc]
      exact List.mem_singleton_self _
  | many p =>
    rw [run, List.mem_map]
    constructor
    · rintro ⟨rest', hrest, heq⟩
      obtain ⟨rfl, rfl⟩ := Prod.mk.inj heq
      obtain ⟨w, hs, hw⟩ := mem_ends_takeWhile.mp hrest
      exact ⟨w, hs, .many hw⟩
    · rintro ⟨w, hs, hw⟩
      obtain ⟨hall, rfl⟩ := derives_many.mp hw
      exact ⟨rest, mem_ends_takeWhile.mpr ⟨w, hs, hall⟩, rfl⟩
  | seq r r' ih ih' =>
    rw [run, List.mem_flatMap]
    constructor
    · rintro ⟨⟨g₁, mid⟩, hm, hmap⟩
      obtain ⟨⟨g₂, rest'⟩, hm', heq⟩ := List.mem_map.mp hmap
      obtain ⟨rfl, rfl⟩ := Prod.mk.inj heq
      obtain ⟨w, rfl, hw⟩ := ih.mp hm
      obtain ⟨w', rfl, hw'⟩ := ih'.mp hm'
      exact ⟨w ++ w', (List.append_assoc _ _ _).symm, .seq hw hw'⟩
    · rintro ⟨w, rfl, hw⟩
      obtain ⟨w₁, g₁, w₂, g₂, h₁, h₂, rfl, rfl⟩ := derives_seq.mp hw
      refine ⟨(g₁, w₂ ++ rest), ih.mpr ⟨w₁, List.append_assoc _ _ _, h₁⟩, ?_⟩
      exact List.mem_map.mpr ⟨(g₂, rest), ih'.mpr ⟨w₂, rfl, h₂⟩, rfl⟩
  | alt r r' ih ih' =>
    rw [run, List.mem_append, ih, ih']
    constructor
    · rintro (⟨w, hs, hw⟩ | ⟨w, hs, hw⟩)
      · exact ⟨w, hs, .left hw⟩
      · exact ⟨w, hs, .right hw⟩
    · rintro ⟨w, hs, hw⟩
      rcases derives_alt.mp hw with hw | hw
      · exact .inl ⟨w, hs, hw⟩
      · exact .inr ⟨w, hs, hw⟩
  | group i r ih =>
    have hfront : ∀ w rest : List Char, (w ++ rest).take ((w ++ rest).length - rest.length) = w := by
      intro w rest
      rw [List.length_append, Nat.add_sub_cancel, List.take_left]
    rw [run, List.mem_map]
    constructor
    · rintro ⟨⟨g', rest'⟩, hm, heq⟩
      obtain ⟨rfl, rfl⟩ := Prod.mk.inj heq
      obtain ⟨w, rfl, hw⟩ := ih.mp hm
      refine ⟨w, rfl, ?_⟩
      rw [hfront]
      exact .group hw
    · rintro ⟨w, rfl, hgroup⟩
      obtain ⟨g', hw, rfl⟩ := derives_group.mp hgroup
      refine ⟨(g', rest), ih.mpr ⟨w, rfl, hw⟩, ?_⟩
      rw [hfront]

/-- The groups of a match are those of a derivation. -/
theorem derives_of_fullMatch (h : fullMatch r s = Option.some g) : Derives r s g := by
  obtain ⟨⟨g', rest⟩, hfind, rfl⟩ := Option.map_eq_some_iff.mp h
  have hrest : rest = [] := by simpa using List.find?_some hfind
  subst hrest
  obtain ⟨w, hs, hw⟩ := mem_run.mp (List.mem_of_find?_eq_some hfind)
  rw [hs, List.append_nil]
  exact hw

/-- A text that is derived is matched. -/
theorem fullMatch_of_derives (h : Derives r s g) : ∃ g', fullMatch r s = Option.some g' := by
  have hmem : (g, []) ∈ run r s := mem_run.mpr ⟨s, (List.append_nil s).symm, h⟩
  cases hfind : (run r s).find? fun m => m.2 = [] with
  | none =>
    have hno := List.find?_eq_none.mp hfind _ hmem
    simp at hno
  | some m => exact ⟨m.1, by rw [fullMatch, hfind]; rfl⟩

theorem fullMatch_eq_none : fullMatch r s = none ↔ ∀ g, ¬ Derives r s g := by
  constructor
  · intro h g hg
    obtain ⟨g', hg'⟩ := fullMatch_of_derives hg
    rw [h] at hg'
    cases hg'
  · intro h
    by_contra hne
    obtain ⟨g, hg⟩ := Option.ne_none_iff_exists'.mp hne
    exact h g (derives_of_fullMatch hg)

end Run

end Regex
