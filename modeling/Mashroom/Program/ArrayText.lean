import Mathlib.Algebra.Order.Ring.Int
import Mathlib.Algebra.Order.Ring.Pow
import Mashroom.Lib.Json
import Mashroom.Mapped

/-!
# Program.ArrayText — arrays of integers in the options

An option that takes an array is a JSON text.  `parse::Array<T>::parse` asks each element for a kind and converts what
it gets to `T`.  A signed `T` takes every signed integer, in its range or not.  An unsigned `T` lets a signed integer
pass that is positive, but then asks for the unsigned integer that it is not, and this throws.
-/

namespace Mashroom.Parse

/-! ## Integers in a JSON text -/

/-- The value of an integer in a JSON text: signed if it fits into 64 bits, else unsigned if it does, else floating. -/
def ofInteger (z : ℤ) : Json :=
  if -2 ^ 63 ≤ z ∧ z < 2 ^ 63 then .int64 z
  else if 0 ≤ z ∧ z < 2 ^ 64 then .uint64 z.toNat
  else .double z

/-! ## The code -/

/-- An integral type `ARRAY_T`, with its number of bits. -/
inductive IntegralType where
  | bool
  | signed (bits : ℕ) (h : 0 < bits ∧ bits ≤ 64)
  | unsigned (bits : ℕ) (h : 0 < bits ∧ bits ≤ 64)

/-- The values of the type. -/
def IntegralType.Holds : IntegralType → ℤ → Prop
  | .bool, z => z = 0 ∨ z = 1
  | .signed bits _, z => -2 ^ (bits - 1) ≤ z ∧ z < 2 ^ (bits - 1)
  | .unsigned bits _, z => 0 ≤ z ∧ z < 2 ^ bits

/-- `static_cast` of an integer to a signed type. -/
def castSigned (bits : ℕ) (z : ℤ) : ℤ := (z + 2 ^ (bits - 1)) % 2 ^ bits - 2 ^ (bits - 1)

/-- `static_cast` of an integer to an unsigned type. -/
def castUnsigned (bits : ℕ) (z : ℤ) : ℤ := z % 2 ^ bits

/-- `as_uint64`, which throws when the value is of another kind. -/
def asUint64 : Json → Except Fault ℕ
  | .uint64 n => .ok n
  | _ => .error .exception

/-- What is pushed back for a value, if it is not an error. -/
def parseElement : IntegralType → Json → Except Fault (Option ℤ)
  | .bool, .bool b => .ok (some b.toNat)
  | .bool, _ => .ok none
  | .signed bits _, .int64 z => .ok (some (castSigned bits z))
  | .signed _ _, _ => .ok none
  | .unsigned bits _, value =>
    if (∃ z ∈ value.asInt64, 0 < z) ∨ value.asUint64.isSome then do
      let n ← asUint64 value
      return some (castUnsigned bits n)
    else .ok none

/-- The loop over the elements. -/
def parseElements (T : IntegralType) : List Json → List ℤ → Except Fault (Option (List ℤ))
  | [], values => .ok (some values)
  | value :: elems, values => do
    match ← parseElement T value with
    | none => return none
    | some z => parseElements T elems (values ++ [z])

/-- `parse::Array<T>::parse`, with what `parse_json_from_buffer` gives if it succeeds. -/
def parseArray (parseJson : List Char → Option Json) (T : IntegralType) (input : List Char) :
    Except Fault (Option (List ℤ)) :=
  match (parseJson input).bind Json.asArray with
  | none => .ok none
  | some elems => parseElements T elems []

/-! ## What is wanted -/

/-- All integers that are listed, or an error when one of them is not a value of the type. -/
structure Exact (T : IntegralType) (zs : List ℤ) (r : Except Fault (Option (List ℤ))) : Prop where
  listed : (∀ z ∈ zs, T.Holds z) → r = .ok (some zs)
  rejected : (∃ z ∈ zs, ¬ T.Holds z) → r = .ok none

/-- An unsigned integer that is no signed one. -/
def IsUint64 (z : ℤ) : Prop := 2 ^ 63 ≤ z ∧ z < 2 ^ 64

instance (z : ℤ) : Decidable (IsUint64 z) := inferInstanceAs (Decidable (_ ∧ _))

/-- Where the integers that are listed are taken as wanted. -/
def IntegralType.TakesExactly : IntegralType → List ℤ → Prop
  | .bool, zs => zs = [] ∨ ∃ z ∈ zs, z ≠ 0 ∧ z ≠ 1
  | T@(.signed _ _), zs => (∀ z ∈ zs, T.Holds z) ∨ ∃ z ∈ zs, z < -2 ^ 63 ∨ 2 ^ 63 ≤ z
  | T@(.unsigned bits _), zs =>
    match zs.find? fun z => ¬ IsUint64 z with
    | none => zs = [] ∨ bits = 64
    | some z => (z ≤ 0 ∨ 2 ^ 64 ≤ z) ∧ ∃ z ∈ zs, ¬ T.Holds z

/-! ## Kinds and conversions -/

section Kinds

variable {z : ℤ}

theorem ofInteger_int64 (hlow : -2 ^ 63 ≤ z) (hhigh : z < 2 ^ 63) : ofInteger z = .int64 z := if_pos ⟨hlow, hhigh⟩

theorem ofInteger_uint64 (h : IsUint64 z) : ofInteger z = .uint64 z.toNat := by
  obtain ⟨hlow, hhigh⟩ := h
  rw [ofInteger, if_neg (by omega), if_pos (by omega)]

theorem ofInteger_double (h : z < -2 ^ 63 ∨ 2 ^ 64 ≤ z) : ofInteger z = .double z := by
  rw [ofInteger, if_neg (by omega), if_neg (by omega)]

theorem two_pow_eq {bits : ℕ} (h : 0 < bits) : (2 : ℤ) ^ bits = 2 * 2 ^ (bits - 1) := by
  obtain ⟨k, rfl⟩ : ∃ k, bits = k + 1 := ⟨bits - 1, by omega⟩
  rw [Nat.add_sub_cancel, pow_succ']

/-- The powers of two are those of 64 bits at most. -/
theorem two_pow_le {bits k : ℕ} (h : bits ≤ k) : (2 : ℤ) ^ bits ≤ 2 ^ k := pow_le_pow_right₀ (by decide) h

theorem castSigned_eq {bits : ℕ} (h : 0 < bits) (hlow : -2 ^ (bits - 1) ≤ z) (hhigh : z < 2 ^ (bits - 1)) :
    castSigned bits z = z := by
  have hpow := two_pow_eq h
  rw [castSigned, Int.emod_eq_of_lt (by omega) (by omega)]
  omega

theorem castUnsigned_eq {bits : ℕ} (hlow : 0 ≤ z) (hhigh : z < 2 ^ bits) : castUnsigned bits z = z :=
  Int.emod_eq_of_lt hlow hhigh

/-- The values of a signed type are signed integers of 64 bits. -/
theorem int64_of_holds {bits : ℕ} {h : 0 < bits ∧ bits ≤ 64} (hz : (IntegralType.signed bits h).Holds z) :
    -2 ^ 63 ≤ z ∧ z < 2 ^ 63 := by
  obtain ⟨hlow, hhigh⟩ := hz
  have hpow : (2 : ℤ) ^ (bits - 1) ≤ 2 ^ 63 := two_pow_le (by omega)
  omega

end Kinds

/-! ## Elements -/

section Elements

variable {bits : ℕ} {h : 0 < bits ∧ bits ≤ 64} {z : ℤ}

theorem parseElement_bool (z : ℤ) : parseElement .bool (ofInteger z) = .ok none := by
  unfold ofInteger
  split
  · rfl
  · split <;> rfl

/-- A signed type takes what is a signed integer. -/
theorem parseElement_signed (hlow : -2 ^ 63 ≤ z) (hhigh : z < 2 ^ 63) :
    parseElement (.signed bits h) (ofInteger z) = .ok (some (castSigned bits z)) := by
  rw [ofInteger_int64 hlow hhigh]
  rfl

theorem parseElement_signed_none (hz : z < -2 ^ 63 ∨ 2 ^ 63 ≤ z) :
    parseElement (.signed bits h) (ofInteger z) = .ok none := by
  rw [ofInteger, if_neg (by omega)]
  split <;> rfl

/-- An unsigned type takes what is no signed integer, but an unsigned one. -/
theorem parseElement_unsigned (hz : IsUint64 z) :
    parseElement (.unsigned bits h) (ofInteger z) = .ok (some (castUnsigned bits z)) := by
  have hnat : ((z.toNat : ℕ) : ℤ) = z := Int.toNat_of_nonneg (by unfold IsUint64 at hz; omega)
  rw [ofInteger_uint64 hz, parseElement, if_pos (by simp [Json.asUint64])]
  rw [asUint64, ok_bind, hnat]
  rfl

/-- A signed integer that is positive is let through, and throws. -/
theorem parseElement_unsigned_positive (hlow : 0 < z) (hhigh : z < 2 ^ 63) :
    parseElement (.unsigned bits h) (ofInteger z) = .error .exception := by
  rw [ofInteger_int64 (by omega) hhigh, parseElement, if_pos (by simp [Json.asInt64, hlow])]
  rfl

/-- Zero is an error, and so are negative integers and those beyond 64 bits. -/
theorem parseElement_unsigned_none (hz : z ≤ 0 ∨ 2 ^ 64 ≤ z) :
    parseElement (.unsigned bits h) (ofInteger z) = .ok none := by
  by_cases hint : -2 ^ 63 ≤ z ∧ z < 2 ^ 63
  · have hle : z ≤ 0 := by omega
    rw [ofInteger_int64 hint.1 hint.2, parseElement, if_neg (by simp [Json.asInt64, Json.asUint64, hle])]
  · rw [ofInteger_double (by omega), parseElement, if_neg (by simp [Json.asInt64, Json.asUint64])]

end Elements

/-! ## The loop -/

section Loop

variable {T : IntegralType} {cast : ℤ → ℤ} {zs before after values : List ℤ} {z : ℤ} {elems : List Json}

/-- The elements that are taken are pushed back one after the other. -/
theorem parseElements_append (hbefore : ∀ z ∈ before, parseElement T (ofInteger z) = .ok (some (cast z))) :
    parseElements T (before.map ofInteger ++ elems) values = parseElements T elems (values ++ before.map cast) := by
  induction before generalizing values with
  | nil => rw [List.map_nil, List.map_nil, List.nil_append, List.append_nil]
  | cons z before ih =>
    obtain ⟨hz, hbefore⟩ := List.forall_mem_cons.mp hbefore
    rw [List.map_cons, List.cons_append, parseElements, hz, ok_bind]
    dsimp only
    rw [ih hbefore, List.append_assoc, List.singleton_append, List.map_cons]

/-- All elements are taken. -/
theorem parseElements_all (hzs : ∀ z ∈ zs, parseElement T (ofInteger z) = .ok (some (cast z))) :
    parseElements T (zs.map ofInteger) [] = .ok (some (zs.map cast)) := by
  have happend : parseElements T (zs.map ofInteger ++ []) [] = parseElements T [] ([] ++ zs.map cast) :=
    parseElements_append hzs
  rw [List.append_nil, List.nil_append] at happend
  exact happend

/-- The first element that is not taken is an error. -/
theorem parseElements_none (hbefore : ∀ z ∈ before, parseElement T (ofInteger z) = .ok (some (cast z)))
    (hz : parseElement T (ofInteger z) = .ok none) :
    parseElements T ((before ++ z :: after).map ofInteger) [] = .ok none := by
  rw [List.map_append, parseElements_append hbefore, List.map_cons, parseElements, hz]
  rfl

/-- The first element that is not taken throws. -/
theorem parseElements_error {e : Fault} (hbefore : ∀ z ∈ before, parseElement T (ofInteger z) = .ok (some (cast z)))
    (hz : parseElement T (ofInteger z) = .error e) :
    parseElements T ((before ++ z :: after).map ofInteger) [] = .error e := by
  rw [List.map_append, parseElements_append hbefore, List.map_cons, parseElements, hz]
  rfl

end Loop

/-! ## Arrays -/

section Arrays

variable {T : IntegralType} {cast : ℤ → ℤ} {zs : List ℤ} {r : Except Fault (Option (List ℤ))}

/-- An error is what is wanted where one of the integers is not a value of the type. -/
theorem exact_none_iff (hr : r = .ok none) : Exact T zs r ↔ ∃ z ∈ zs, ¬ T.Holds z := by
  subst hr
  constructor
  · intro h
    by_contra hall
    push Not at hall
    cases h.listed hall
  · rintro ⟨z, hz, hnot⟩
    exact ⟨fun hall => absurd (hall z hz) hnot, fun _ => rfl⟩

/-- The integers after a conversion are what is wanted where all are values of the type. -/
theorem exact_some_iff (hcast : ∀ z, T.Holds z → cast z = z) (hr : r = .ok (some (zs.map cast))) :
    Exact T zs r ↔ ∀ z ∈ zs, T.Holds z := by
  subst hr
  constructor
  · intro h
    by_contra hnot
    push Not at hnot
    cases h.rejected hnot
  · intro hall
    refine ⟨fun _ => ?_, fun ⟨z, hz, hnot⟩ => absurd (hall z hz) hnot⟩
    rw [List.map_congr_left fun z hz => hcast z (hall z hz), List.map_id']

/-- An exception is never what is wanted. -/
theorem not_exact_error {e : Fault} (hr : r = .error e) : ¬ Exact T zs r := by
  subst hr
  intro h
  by_cases hall : ∀ z ∈ zs, T.Holds z
  · cases h.listed hall
  · push Not at hall
    cases h.rejected hall

/-- The first of the integers that a condition holds of. -/
theorem exists_first {p : ℤ → Prop} [DecidablePred p] (h : ∃ z ∈ zs, p z) :
    ∃ before z after, zs = before ++ z :: after ∧ p z ∧ ∀ z ∈ before, ¬ p z := by
  cases hfind : zs.find? fun z => decide (p z) with
  | none =>
    obtain ⟨z, hz, hp⟩ := h
    exact absurd hp (by simpa using List.find?_eq_none.mp hfind z hz)
  | some z =>
    obtain ⟨hp, before, after, rfl, hbefore⟩ := List.find?_eq_some_iff_append.mp hfind
    exact ⟨before, z, after, rfl, by simpa using hp, fun z hz => by simpa using hbefore z hz⟩

theorem exact_bool_iff :
    Exact .bool zs (parseElements .bool (zs.map ofInteger) []) ↔ IntegralType.bool.TakesExactly zs := by
  cases zs with
  | nil => exact iff_of_true ⟨fun _ => rfl, fun ⟨_, hz, _⟩ => absurd hz List.not_mem_nil⟩ (.inl rfl)
  | cons z zs =>
    have hnil : ∀ z ∈ ([] : List ℤ), parseElement .bool (ofInteger z) = .ok (some (id z)) :=
      fun _ hz => absurd hz List.not_mem_nil
    have hnone : parseElements .bool ((z :: zs).map ofInteger) [] = .ok none :=
      parseElements_none hnil (parseElement_bool z)
    rw [exact_none_iff hnone, IntegralType.TakesExactly]
    simp [IntegralType.Holds, not_or]

theorem exact_signed_iff (bits : ℕ) (h : 0 < bits ∧ bits ≤ 64) :
    Exact (.signed bits h) zs (parseElements (.signed bits h) (zs.map ofInteger) []) ↔
      (IntegralType.signed bits h).TakesExactly zs := by
  have hcast : ∀ z, (IntegralType.signed bits h).Holds z → castSigned bits z = z :=
    fun z hz => castSigned_eq h.1 hz.1 hz.2
  rw [IntegralType.TakesExactly]
  by_cases hout : ∃ z ∈ zs, z < -2 ^ 63 ∨ 2 ^ 63 ≤ z
  · obtain ⟨before, z, after, rfl, hz, hbefore⟩ := exists_first hout
    have hnone : parseElements (.signed bits h) ((before ++ z :: after).map ofInteger) [] = .ok none :=
      parseElements_none (fun z hz => parseElement_signed (by have := hbefore z hz; omega)
        (by have := hbefore z hz; omega)) (parseElement_signed_none hz)
    rw [exact_none_iff hnone]
    refine iff_of_true ⟨z, by simp, fun hholds => ?_⟩ (.inr hout)
    have hint := int64_of_holds hholds
    omega
  · push Not at hout
    have hsome := parseElements_all (T := .signed bits h) fun z hz => parseElement_signed (hout z hz).1 (hout z hz).2
    rw [exact_some_iff hcast hsome]
    refine ⟨.inl, fun htakes => htakes.resolve_right ?_⟩
    rintro ⟨z, hz, hbeyond⟩
    have hint := hout z hz
    omega

theorem exact_unsigned_iff (bits : ℕ) (h : 0 < bits ∧ bits ≤ 64) :
    Exact (.unsigned bits h) zs (parseElements (.unsigned bits h) (zs.map ofInteger) []) ↔
      (IntegralType.unsigned bits h).TakesExactly zs := by
  have hcast : ∀ z, (IntegralType.unsigned bits h).Holds z → castUnsigned bits z = z :=
    fun z hz => castUnsigned_eq hz.1 hz.2
  rw [IntegralType.TakesExactly]
  cases hfind : zs.find? fun z => ¬ IsUint64 z with
  | none =>
    have hall : ∀ z ∈ zs, IsUint64 z := fun z hz => by simpa using List.find?_eq_none.mp hfind z hz
    rw [exact_some_iff hcast (parseElements_all fun z hz => parseElement_unsigned (hall z hz))]
    constructor
    · intro hholds
      cases zs with
      | nil => exact .inl rfl
      | cons z zs =>
        right
        obtain ⟨hlow, -⟩ := hall z List.mem_cons_self
        have hhigh := (hholds z List.mem_cons_self).2
        by_contra hne
        have hpow : (2 : ℤ) ^ bits ≤ 2 ^ 63 := two_pow_le (by omega)
        omega
    · rintro (rfl | rfl) z hz
      · cases hz
      · obtain ⟨hlow, hhigh⟩ := hall z hz
        exact ⟨by omega, hhigh⟩
  | some z =>
    obtain ⟨hnot, before, after, rfl, hbefore⟩ := List.find?_eq_some_iff_append.mp hfind
    have htaken : ∀ z ∈ before, parseElement (.unsigned bits h) (ofInteger z) = .ok (some (castUnsigned bits z)) :=
      fun z hz => parseElement_unsigned (by simpa using hbefore z hz)
    by_cases hz : z ≤ 0 ∨ 2 ^ 64 ≤ z
    · rw [exact_none_iff (parseElements_none htaken (parseElement_unsigned_none hz))]
      exact ⟨fun hexists => ⟨hz, hexists⟩, fun htakes => htakes.2⟩
    · have hpositive : 0 < z ∧ z < 2 ^ 63 := by
        have hnot' : ¬ IsUint64 z := by simpa using hnot
        unfold IsUint64 at hnot'
        omega
      have herror : parseElements (.unsigned bits h) ((before ++ z :: after).map ofInteger) [] = .error .exception :=
        parseElements_error htaken (parseElement_unsigned_positive hpositive.1 hpositive.2)
      exact iff_of_false (not_exact_error herror) fun htakes => hz htakes.1

end Arrays

/-- **An array of integers is taken as wanted** by a signed type where all of them are in its range or one is no signed
integer of 64 bits, and by an unsigned type where the first integer that does not have exactly 64 bits is zero,
negative or larger and one of them is not in range, or where there is no such integer and the type has 64 bits or the
array is empty.  `bool` takes the empty array and rejects the others. -/
theorem parseArray_exact_iff (parseJson : List Char → Option Json) (T : IntegralType) (input : List Char) (zs : List ℤ)
    (hjson : parseJson input = some (.array (zs.map ofInteger))) :
    Exact T zs (parseArray parseJson T input) ↔ T.TakesExactly zs := by
  have hparse : parseArray parseJson T input = parseElements T (zs.map ofInteger) [] := by
    rw [parseArray, hjson]
    rfl
  rw [hparse]
  cases T with
  | bool => exact exact_bool_iff
  | signed bits h => exact exact_signed_iff bits h
  | unsigned bits h => exact exact_unsigned_iff bits h

/-- A reader of the text `[1,2]`. -/
def oneTwo (input : List Char) : Option Json :=
  if input = "[1,2]".toList then some (.array ([1, 2].map ofInteger)) else none

theorem parseArray_exact_oneTwo :
    Exact (.signed 16 (by decide)) [1, 2] (parseArray oneTwo (.signed 16 (by decide)) "[1,2]".toList) ↔
      (IntegralType.signed 16 (by decide)).TakesExactly [1, 2] :=
  parseArray_exact_iff oneTwo (.signed 16 (by decide)) "[1,2]".toList [1, 2] (if_pos rfl)

/-- Two numbers that each unsigned type has throw. -/
theorem parseArray_unsigned_throws :
    parseArray oneTwo (.unsigned 32 (by decide)) "[1,2]".toList = .error .exception ∧
      ¬ Exact (.unsigned 32 (by decide)) [1, 2] (parseArray oneTwo (.unsigned 32 (by decide)) "[1,2]".toList) := by
  have hthrows : parseArray oneTwo (.unsigned 32 (by decide)) "[1,2]".toList = .error .exception := rfl
  exact ⟨hthrows, not_exact_error hthrows⟩

end Mashroom.Parse
