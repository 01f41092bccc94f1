import Mathlib.Algebra.Order.Field.Rat
import Mathlib.Tactic.Positivity
import Mashroom.Lib.Regex

/-!
# Decimal — decimal numbers as they are written

A decimal number is written as digits, with a minus sign before them or not, and with a point and more digits after
them or not.  Its value is exact.  `regex` matches these texts, and `read` gives the values back.
-/

structure Decimal where
  negative : Bool
  whole : List Char
  /-- the digits behind the point, or none -/
  frac : List Char
  whole_ne : whole ≠ []
  whole_digits : ∀ c ∈ whole, c.isDigit = true
  frac_digits : ∀ c ∈ frac, c.isDigit = true

namespace Decimal

def sign (negative : Bool) : List Char := if negative then ['-'] else []

/-- The point and the digits behind it. -/
def fraction (frac : List Char) : List Char := if frac = [] then [] else '.' :: frac

def text (d : Decimal) : List Char := sign d.negative ++ (d.whole ++ fraction d.frac)

/-- The number that digits stand for. -/
def number (digits : List Char) : ℕ := Nat.ofDigitChars 10 digits 0

/-- The value of digits before and behind the point. -/
def valueOf (negative : Bool) (whole frac : List Char) : ℚ :=
  (if negative then -1 else 1) * (number whole + number frac / 10 ^ frac.length)

def value (d : Decimal) : ℚ := valueOf d.negative d.whole d.frac

/-- The digits of a natural number. -/
def ofDigits (digits : List Char) (hne : digits ≠ []) (hdigits : digits.all Char.isDigit = true) : Decimal where
  negative := false
  whole := digits
  frac := []
  whole_ne := hne
  whole_digits := List.all_eq_true.mp hdigits
  frac_digits := fun _ hc => absurd hc List.not_mem_nil

/-! ## Texts -/

/-- `-?[0-9]+(?:\\.[0-9]+)?` -/
def regex : Regex :=
  .seq (.opt (.text ['-'])) (.seq (.some Char.isDigit) (.opt (.seq (.text ['.']) (.some Char.isDigit))))

theorem derives_sign {w : List Char} {g : Regex.Groups} :
    Regex.Derives (.opt (.text ['-'])) w g ↔ (∃ negative, w = sign negative) ∧ g = [] := by
  rw [Regex.derives_opt, Regex.derives_text]
  constructor
  · rintro (⟨rfl, rfl⟩ | ⟨rfl, rfl⟩)
    · exact ⟨⟨true, rfl⟩, rfl⟩
    · exact ⟨⟨false, rfl⟩, rfl⟩
  · rintro ⟨⟨negative, rfl⟩, rfl⟩
    cases negative
    · exact .inr ⟨rfl, rfl⟩
    · exact .inl ⟨rfl, rfl⟩

theorem derives_fraction {w : List Char} {g : Regex.Groups} :
    Regex.Derives (.opt (.seq (.text ['.']) (.some Char.isDigit))) w g ↔
      (∃ frac, (∀ c ∈ frac, c.isDigit = true) ∧ w = fraction frac) ∧ g = [] := by
  rw [Regex.derives_opt, Regex.derives_seq]
  constructor
  · rintro (⟨w₁, g₁, w₂, g₂, h₁, h₂, rfl, rfl⟩ | ⟨rfl, rfl⟩)
    · obtain ⟨rfl, rfl⟩ := Regex.derives_text.mp h₁
      obtain ⟨⟨hne, hdigits⟩, rfl⟩ := Regex.derives_some.mp h₂
      exact ⟨⟨w₂, hdigits, by rw [fraction, if_neg hne]; rfl⟩, rfl⟩
    · exact ⟨⟨[], fun _ hc => absurd hc List.not_mem_nil, rfl⟩, rfl⟩
  · rintro ⟨⟨frac, hdigits, rfl⟩, rfl⟩
    by_cases hne : frac = []
    · subst hne
      exact .inr ⟨rfl, rfl⟩
    · rw [fraction, if_neg hne]
      exact .inl ⟨['.'], [], frac, [], .text _, Regex.derives_some.mpr ⟨⟨hne, hdigits⟩, rfl⟩, rfl, rfl⟩

/-- The expression matches the texts of decimal numbers. -/
theorem derives_regex {w : List Char} {g : Regex.Groups} :
    Regex.Derives regex w g ↔ (∃ d : Decimal, w = d.text) ∧ g = [] := by
  rw [regex, Regex.derives_seq]
  constructor
  · rintro ⟨w₁, g₁, w₂, g₂, h₁, h₂, rfl, rfl⟩
    obtain ⟨⟨negative, rfl⟩, rfl⟩ := derives_sign.mp h₁
    obtain ⟨w₃, g₃, w₄, g₄, h₃, h₄, rfl, rfl⟩ := Regex.derives_seq.mp h₂
    obtain ⟨⟨hne, hdigits⟩, rfl⟩ := Regex.derives_some.mp h₃
    obtain ⟨⟨frac, hfrac, rfl⟩, rfl⟩ := derives_fraction.mp h₄
    exact ⟨⟨⟨negative, w₃, frac, hne, hdigits, hfrac⟩, rfl⟩, rfl⟩
  · rintro ⟨⟨d, rfl⟩, rfl⟩
    refine ⟨sign d.negative, [], _, [], derives_sign.mpr ⟨⟨_, rfl⟩, rfl⟩, ?_, rfl, rfl⟩
    exact Regex.derives_seq.mpr ⟨d.whole, [], fraction d.frac, [],
      Regex.derives_some.mpr ⟨⟨d.whole_ne, d.whole_digits⟩, rfl⟩,
      derives_fraction.mpr ⟨⟨d.frac, d.frac_digits, rfl⟩, rfl⟩, rfl, rfl⟩

theorem mem_text {d : Decimal} {c : Char} (h : c ∈ d.text) : c = '-' ∨ c = '.' ∨ c.isDigit = true := by
  rcases List.mem_append.mp h with h | h
  · unfold sign at h
    split at h
    · exact .inl (List.mem_singleton.mp h)
    · cases h
  · rcases List.mem_append.mp h with h | h
    · exact .inr (.inr (d.whole_digits c h))
    · unfold fraction at h
      split at h
      · cases h
      · rcases List.mem_cons.mp h with rfl | h
        · exact .inr (.inl rfl)
        · exact .inr (.inr (d.frac_digits c h))

/-! ## Values -/

/-- The value of a text, if it is one of a decimal number. -/
def read (s : List Char) : Option ℚ :=
  let negative : Bool := s.head? = some '-'
  let s := if negative then s.tail else s
  let whole := s.takeWhile Char.isDigit
  let frac := (s.dropWhile Char.isDigit).tail
  if whole = [] then none
  else if s = whole ++ fraction frac ∧ frac.all Char.isDigit then some (valueOf negative whole frac)
  else none

theorem head_fraction {frac : List Char} : ∀ c, (fraction frac).head? = some c → c.isDigit = false := by
  intro c h
  unfold fraction at h
  split at h
  · cases h
  · cases h
    decide

/-- What was written is read. -/
theorem read_text (d : Decimal) : read d.text = some d.value := by
  obtain ⟨negative, whole, frac, hne, hwhole, hfrac⟩ := d
  obtain ⟨c, cs, rfl⟩ := List.exists_cons_of_ne_nil hne
  have hc : c ≠ '-' := by
    rintro rfl
    exact absurd (hwhole '-' List.mem_cons_self) (by decide)
  have hstop : (fraction frac).takeWhile Char.isDigit = [] ∧
      (fraction frac).dropWhile Char.isDigit = fraction frac := by
    cases hf : fraction frac with
    | nil => exact ⟨rfl, rfl⟩
    | cons b bs =>
      have hb := head_fraction b (by rw [hf]; rfl)
      exact ⟨by rw [List.takeWhile_cons, hb]; rfl, by rw [List.dropWhile_cons, hb]; rfl⟩
  have htake : (c :: cs ++ fraction frac).takeWhile Char.isDigit = c :: cs := by
    rw [List.takeWhile_append_of_pos hwhole, hstop.1, List.append_nil]
  have hdrop : ((c :: cs ++ fraction frac).dropWhile Char.isDigit).tail = frac := by
    rw [List.dropWhile_append_of_pos hwhole, hstop.2]
    unfold fraction
    split
    · rename_i hnil
      exact hnil.symm
    · rfl
  have hall : frac.all Char.isDigit = true := List.all_eq_true.mpr hfrac
  cases negative with
  | false =>
    have hhead : (decide ((c :: cs ++ fraction frac).head? = some '-')) = false := by
      rw [List.cons_append, List.head?_cons]
      simpa using hc
    simp only [read, text, sign, Bool.false_eq_true, if_false, List.nil_append, hhead, htake, hdrop, hall, hne,
      and_self, if_true]
    rfl
  | true =>
    have hhead : (decide (('-' :: (c :: cs ++ fraction frac)).head? = some '-')) = true := by simp
    simp only [read, text, sign, if_true, List.singleton_append, hhead, List.tail_cons, htake, hdrop, hall, hne,
      and_self, if_false]
    rfl

end Decimal
