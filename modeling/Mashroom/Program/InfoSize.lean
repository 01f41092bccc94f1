import Mathlib.Tactic.NormNum
import Mashroom.Lib.Decimal
import Mashroom.Mapped

/-!
# Program.InfoSize — amounts of memory in the options

An amount is a number and a unit.  `info_size` keeps a number only if it is infinite, where it means to keep it only if
it is not, and `info_size_unit` drops the infinite ones: it never has a value (`infoSizeUnit_none`), nor has
`lexical_cast`, which calls it on the unit without the number.  Every unit ends like a byte, which is asked for first:
all of them are one byte (`infoUnit_spelled`).
-/

namespace Mashroom.InfoSize

/-- A `double`, as far as it is told apart here. -/
inductive Double where
  | finite (q : ℚ)
  | infinite (negative : Bool)
  | nan
  deriving DecidableEq

namespace Double

/-- `value >= 0` -/
def nonneg : Double → Bool
  | .finite q => 0 ≤ q
  | .infinite negative => !negative
  | .nan => false

/-- `std::isinf` -/
def isinf : Double → Bool
  | .infinite _ => true
  | _ => false

def negative : Double → Bool
  | .finite q => q < 0
  | .infinite negative => negative
  | .nan => false

/-- The product. -/
def mul : Double → Double → Double
  | .finite q, .finite q' => .finite (q * q')
  | .nan, _ => .nan
  | _, .nan => .nan
  | x, y => if x = .finite 0 ∨ y = .finite 0 then .nan else .infinite (x.negative != y.negative)

end Double

/-- What the parser calls in OsterLib. -/
structure TextLib where
  /-- `iend_with`: the text ends with one of these, in capitals or not -/
  iendWith : List Char → List (List Char) → Bool
  /-- `from_chars<double>`, if it succeeds -/
  fromChars : List Char → Option Double

/-! ## The units -/

inductive InfoUnit where
  | byte
  | kilobyte
  | megabyte
  | gigabyte
  | terabyte
  deriving DecidableEq

/-- The arrays `to_match`. -/
def toMatch : InfoUnit → List (List Char)
  | .byte => ["b".toList, "byte".toList, "bytes".toList]
  | .kilobyte => ["kb".toList, "kilobyte".toList, "kilobytes".toList]
  | .megabyte => ["mb".toList, "megabyte".toList, "megabytes".toList]
  | .gigabyte => ["gb".toList, "gigabyte".toList, "gigabytes".toList]
  | .terabyte => ["tb".toList, "terabyte".toList, "terabytes".toList]

/-- The power of 1024 that a unit has in bytes. -/
def InfoUnit.power : InfoUnit → ℕ
  | .byte => 0
  | .kilobyte => 1
  | .megabyte => 2
  | .gigabyte => 3
  | .terabyte => 4

/-! ## The code -/

section Code

variable (lib : TextLib)

/-- `is_byte`, `is_kilobyte` and so on. -/
def isUnit (unit : InfoUnit) (str : List Char) : Bool := lib.iendWith str (toMatch unit)

/-- `info_unit`, in bytes. -/
def infoUnit (str : List Char) : Option ℚ :=
  if isUnit lib .byte str then some 1
  else if isUnit lib .kilobyte str then some (2 ^ 10)
  else if isUnit lib .megabyte str then some (2 ^ 20)
  else if isUnit lib .gigabyte str then some (2 ^ 30)
  else if isUnit lib .terabyte str then some (2 ^ 40)
  else none

/-- `info_size` -/
def infoSize (str : List Char) : Option Double :=
  match lib.fromChars str with
  | some value => if value.nonneg && value.isinf then some value else none
  | none => none

/-- `info_size_unit`: the number up to the first character that is no digit, and the unit from there. -/
def infoSizeUnit (str : List Char) : Option Double :=
  match infoUnit lib (str.dropWhile Char.isDigit) with
  | none => none
  | some unit =>
    match infoSize lib (str.takeWhile Char.isDigit) with
    | none => none
    | some size => if size.isinf then none else some (.mul (.finite unit) size)

/-- A letter `[a-zA-Z]`. -/
def isLetter (c : Char) : Bool := c.isUpper || c.isLower

/-- `^(-?(0|[1-9][0-9]*)(\\.[0-9]+)?)[ ]*([a-zA-Z]+)$` -/
def sizeRegex : Regex :=
  .seq
    (.group 1 (.seq (.opt (.text ['-'])) (.seq
      (.group 2 (.alt (.text ['0']) (.seq (.one fun c => c.isDigit && c ≠ '0') (.many Char.isDigit))))
      (.opt (.group 3 (.seq (.text ['.']) (.some Char.isDigit)))))))
    (.seq (.many fun c => c = ' ') (.group 4 (.some isLetter)))

/-- `lexical_cast<info_quantity>`, which throws what it does not accept. -/
def lexicalCast (input : List Char) : Except Fault Double :=
  match sizeRegex.fullMatch input with
  | none => .error .exception
  | some m =>
    match infoSize lib (m.get 1) with
    | none => .error .exception
    | some size =>
      match infoSizeUnit lib (m.get 4) with
      | none => .error .exception
      | some unit => .ok (unit.mul size)

end Code

/-! ## What is read -/

section Read

variable {lib : TextLib} {str input : List Char}

/-- Only what is infinite is a size. -/
theorem isinf_of_infoSize {size : Double} (h : infoSize lib str = some size) : size.isinf = true := by
  unfold infoSize at h
  split at h
  · split at h
    · rename_i hkept
      obtain rfl := Option.some.inj h
      exact (Bool.and_eq_true_iff.mp hkept).2
    · cases h
  · cases h

/-- **No text has a size and a unit.** -/
theorem infoSizeUnit_none (lib : TextLib) (str : List Char) : infoSizeUnit lib str = none := by
  unfold infoSizeUnit
  split
  · rfl
  · split
    · rfl
    · rename_i size hsize
      rw [if_pos (isinf_of_infoSize hsize)]

/-- **Every text is thrown out.** -/
theorem lexicalCast_throws (lib : TextLib) (input : List Char) : lexicalCast lib input = .error .exception := by
  unfold lexicalCast
  split
  · rfl
  · split
    · rfl
    · rw [infoSizeUnit_none]

end Read

/-! ## Amounts -/

/-- A unit as it can be written, in capitals or not. -/
def Spelled (unit : InfoUnit) (u : List Char) : Prop := u.map Char.toLower ∈ toMatch unit

instance (unit : InfoUnit) (u : List Char) : Decidable (Spelled unit u) := inferInstanceAs (Decidable (_ ∈ _))

/-- A number that is not negative, and a unit behind it. -/
structure IsAmount (input : List Char) (n : Decimal) (unit : InfoUnit) : Prop where
  nonneg : 0 ≤ n.value
  text : ∃ u, Spelled unit u ∧ input = n.text ++ u

/-- The number that a text begins with, the longest one, and what is behind it. -/
structure Leads (n : Decimal) (rest input : List Char) : Prop where
  text : input = n.text ++ rest
  longest : ∀ d : Decimal, d.text <+: input → d.text.length ≤ n.text.length

/-- A text with a negative number, without a number, or with another unit behind the number and spaces. -/
inductive Malformed (input : List Char) : Prop
  | negative (n : Decimal) (rest : List Char) (leads : Leads n rest input) (h : n.value < 0)
  | noNumber (h : ∀ n : Decimal, ¬ n.text <+: input)
  | noUnit (n : Decimal) (rest : List Char) (leads : Leads n rest input)
      (h : ∀ unit, ¬ Spelled unit (rest.dropWhile fun c => c = ' '))

/-- An amount is read as the bytes that it is, a natural one by `info_size_unit` as well, and a malformed text is
rejected: `cast` and `sizeUnit` are what the two say of the text. -/
structure ReadsAmounts (cast : Except Fault Double) (sizeUnit : Option Double) (input : List Char) : Prop where
  amount : ∀ n unit, IsAmount input n unit → cast = .ok (.finite (n.value * 1024 ^ unit.power))
  natural : ∀ n unit, IsAmount input n unit → n.frac = [] →
    sizeUnit = some (.finite (n.value * 1024 ^ unit.power))
  rejected : Malformed input → cast = .error .exception ∧ sizeUnit = none

section Amounts

variable {input : List Char} {n n' : Decimal} {unit unit' : InfoUnit} {u rest rest' : List Char}

/-- The names of the units are different. -/
theorem toMatch_disjoint : ∀ w ∈ toMatch unit, w ∈ toMatch unit' → unit = unit' := by
  cases unit <;> cases unit' <;> decide

/-- The first letter of a unit does not go on with a number. -/
theorem head_toMatch :
    ∀ w ∈ toMatch unit, w.head?.any (fun c => c != '-' && c != '.' && !c.isDigit && c != ' ') = true := by
  cases unit <;> decide

theorem toLower_isDigit {c : Char} (h : c.isDigit = true) : c.toLower = c := by
  have hnot : ¬ (c.val ≥ 'A'.val ∧ c.val ≤ 'Z'.val) := by
    rintro ⟨hge, -⟩
    have hle := (Char.isDigit_iff_toNat.mp h).2
    have hA : 'A'.toNat ≤ c.toNat := hge
    exact absurd (hA.trans hle) (by decide)
  exact dif_neg hnot

theorem head_spelled (h : Spelled unit u) :
    ∃ c cs, u = c :: cs ∧ c ≠ '-' ∧ c ≠ '.' ∧ c.isDigit = false ∧ c ≠ ' ' := by
  obtain ⟨c', hc', hall⟩ := (Option.any_eq_true _ _).mp (head_toMatch _ h)
  simp only [Bool.and_eq_true, bne_iff_ne, Bool.not_eq_true', and_assoc] at hall
  obtain ⟨hminus, hpoint, hdigit, hspace⟩ := hall
  obtain ⟨c, cs, rfl⟩ : ∃ c cs, u = c :: cs := List.exists_cons_of_ne_nil (by rintro rfl; cases hc')
  obtain rfl : c.toLower = c' := Option.some.inj hc'
  refine ⟨c, cs, rfl, ?_, ?_, ?_, ?_⟩
  · rintro rfl
    exact hminus rfl
  · rintro rfl
    exact hpoint rfl
  · by_contra hc
    rw [Bool.not_eq_false] at hc
    rw [toLower_isDigit hc, hc] at hdigit
    cases hdigit
  · rintro rfl
    exact hspace rfl

/-- The number of an amount is the longest one that the text begins with. -/
theorem leads_of_spelled (hu : Spelled unit u) : Leads n u (n.text ++ u) := by
  refine ⟨rfl, fun d hd => ?_⟩
  by_contra hlonger
  rw [Nat.not_le] at hlonger
  obtain ⟨c, cs, rfl, hminus, hpoint, hdigit, -⟩ := head_spelled hu
  -- the longer number goes on with the first letter of the unit
  obtain ⟨more, hmore⟩ := List.prefix_of_prefix_length_le (List.prefix_append n.text (c :: cs)) hd hlonger.le
  have hrest : more <+: c :: cs := (List.prefix_append_right_inj n.text).mp (hmore ▸ hd)
  have hc : c ∈ d.text := by
    rcases more with _ | ⟨c', more⟩
    · rw [List.append_nil] at hmore
      exact absurd hlonger (hmore ▸ lt_irrefl _)
    · obtain rfl : c' = c := (List.cons_prefix_cons.mp hrest).1
      exact hmore ▸ List.mem_append_right _ List.mem_cons_self
  rcases Decimal.mem_text hc with h | h | h
  · exact hminus h
  · exact hpoint h
  · exact absurd h (by rw [hdigit]; decide)

/-- A text begins with one number only. -/
theorem Leads.unique (h : Leads n rest input) (h' : Leads n' rest' input) : n.text = n'.text ∧ rest = rest' := by
  have hlength : n.text.length = n'.text.length :=
    le_antisymm (h'.longest n ⟨rest, h.text.symm⟩) (h.longest n' ⟨rest', h'.text.symm⟩)
  exact List.append_inj (h.text.symm.trans h'.text) hlength

theorem value_eq_of_text (h : n.text = n'.text) : n.value = n'.value :=
  Option.some.inj ((Decimal.read_text n).symm.trans ((congrArg Decimal.read h).trans (Decimal.read_text n')))

/-- An amount is so many bytes and no other number of them. -/
theorem IsAmount.unique (h : IsAmount input n unit) (h' : IsAmount input n' unit') :
    n.value = n'.value ∧ unit = unit' := by
  obtain ⟨-, u, hu, rfl⟩ := h
  obtain ⟨-, u', hu', htext⟩ := h'
  obtain ⟨hn, rfl⟩ := (leads_of_spelled hu).unique (htext ▸ leads_of_spelled hu')
  exact ⟨value_eq_of_text hn, toMatch_disjoint _ hu hu'⟩

/-- No amount is malformed. -/
theorem IsAmount.not_malformed (h : IsAmount input n unit) : ¬ Malformed input := by
  obtain ⟨hnonneg, u, hu, rfl⟩ := h
  have hleads := leads_of_spelled (n := n) hu
  intro hmal
  cases hmal with
  | negative n' rest leads hneg =>
    rw [← value_eq_of_text (hleads.unique leads).1] at hneg
    exact absurd hnonneg (not_le.mpr hneg)
  | noNumber hno => exact hno n (List.prefix_append _ _)
  | noUnit n' rest leads hno =>
    obtain rfl := (hleads.unique leads).2
    obtain ⟨c, cs, rfl, -, -, -, hspace⟩ := head_spelled hu
    exact hno unit (by rwa [List.dropWhile_cons_of_neg (by simpa using hspace)])

/-- What is asked for can be had of every text. -/
theorem exists_readsAmounts (input : List Char) : ∃ cast sizeUnit, ReadsAmounts cast sizeUnit input := by
  by_cases hamount : ∃ n unit, IsAmount input n unit
  · obtain ⟨n, unit, h⟩ := hamount
    refine ⟨.ok (.finite (n.value * 1024 ^ unit.power)), some (.finite (n.value * 1024 ^ unit.power)), ?_, ?_,
      fun hmal => absurd hmal h.not_malformed⟩
    · intro n' unit' h'
      obtain ⟨hn, rfl⟩ := h.unique h'
      rw [hn]
    · intro n' unit' h' _
      obtain ⟨hn, rfl⟩ := h.unique h'
      rw [hn]
  · exact ⟨.error .exception, none, fun n unit h => absurd ⟨n, unit, h⟩ hamount,
      fun n unit h => absurd ⟨n, unit, h⟩ hamount, fun _ => ⟨rfl, rfl⟩⟩

end Amounts

/-- **Amounts are read as they should be** from no text that is one: only what is to be rejected is taken right. -/
theorem readsAmounts_iff (lib : TextLib) (input : List Char) :
    ReadsAmounts (lexicalCast lib input) (infoSizeUnit lib input) input ↔ ¬ ∃ n unit, IsAmount input n unit := by
  constructor
  · rintro h ⟨n, unit, hamount⟩
    have hcast := h.amount n unit hamount
    rw [lexicalCast_throws] at hcast
    cases hcast
  · intro hno
    exact ⟨fun n unit hamount => absurd ⟨n, unit, hamount⟩ hno, fun n unit hamount => absurd ⟨n, unit, hamount⟩ hno,
      fun _ => ⟨lexicalCast_throws lib input, infoSizeUnit_none lib input⟩⟩

/-! ## Numbers and units -/

/-- Endings are compared without regard to capitals, and decimal numbers are read. -/
structure TextLib.Documented (lib : TextLib) : Prop where
  iendWith : ∀ str tails, lib.iendWith str tails = true ↔
    ∃ tail ∈ tails, tail.map Char.toLower <:+ str.map Char.toLower
  fromChars : ∀ d : Decimal, lib.fromChars d.text = some (.finite d.value)

section Documented

variable {lib : TextLib}

/-- No number that is written is a size. -/
theorem infoSize_text (hlib : lib.Documented) (d : Decimal) : infoSize lib d.text = none := by
  rw [infoSize, hlib.fromChars]
  simp [Double.isinf]

/-- Every unit ends with the letter or the word of a byte. -/
theorem byte_suffix (unit : InfoUnit) :
    ∀ u ∈ toMatch unit, ∃ tail ∈ toMatch .byte, tail.map Char.toLower <:+ u := by
  cases unit <;> decide

/-- **All units are one byte.** -/
theorem infoUnit_spelled (hlib : lib.Documented) {unit : InfoUnit} {u : List Char} (hu : Spelled unit u) :
    infoUnit lib u = some 1 := by
  have hbyte : isUnit lib .byte u = true := (hlib.iendWith _ _).mpr (byte_suffix unit _ hu)
  rw [infoUnit, if_pos hbyte]

end Documented

/-- Decimal numbers, and nothing else. -/
def TextLib.reference : TextLib where
  iendWith str tails := tails.any fun tail => tail.map Char.toLower <:+ str.map Char.toLower
  fromChars str := (Decimal.read str).map Double.finite

theorem TextLib.reference_documented : TextLib.reference.Documented where
  iendWith str tails := by simp [TextLib.reference]
  fromChars d := by
    show (Decimal.read d.text).map Double.finite = _
    rw [Decimal.read_text]
    rfl

/-- One kilobyte. -/
theorem readsAmounts_kilobyte : IsAmount "1kb".toList (.ofDigits ['1'] (by decide) (by decide)) .kilobyte ∧
    lexicalCast .reference "1kb".toList = .error .exception ∧ infoSizeUnit .reference "1kb".toList = none ∧
    ¬ ReadsAmounts (lexicalCast .reference "1kb".toList) (infoSizeUnit .reference "1kb".toList) "1kb".toList := by
  have hamount : IsAmount "1kb".toList (.ofDigits ['1'] (by decide) (by decide)) .kilobyte :=
    ⟨by with_unfolding_all decide, "kb".toList, by decide, rfl⟩
  have hthrows := lexicalCast_throws .reference "1kb".toList
  refine ⟨hamount, hthrows, infoSizeUnit_none _ _, fun h => ?_⟩
  have hcast := h.amount _ _ hamount
  rw [hthrows] at hcast
  cases hcast

end Mashroom.InfoSize
