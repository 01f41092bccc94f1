import Mashroom.Lib.Codec
import Mashroom.Lib.Format

/-!
# Words — formats of numbers, enumerations and containers

A number is a word of a fixed number of octets, with the highest octet first in one byte order and last in the other.
Signed numbers are words in two's complement, the values of an enumeration are their places in the list of all values,
a container is its count and its elements, and an optional value is a flag and the value.
-/

namespace Format

variable {α β : Type}

/-- A number of `k` octets. -/
def word (k : ℕ) : Format ℕ where
  serialize order n := if order then Codec.octets k n else (Codec.octets k n).reverse
  deserialize order buf :=
    if k ≤ buf.length then some (Codec.number (if order then buf.take k else (buf.take k).reverse)) else none
  serialSize _ := k

theorem word_law {k n : ℕ} (h : n < 256 ^ k) : (word k).Law n where
  size order := by
    cases order
    · exact (List.length_reverse).trans (Codec.octets_length k n)
    · exact Codec.octets_length k n
  reads order rest := by
    have hnumber : Codec.number (Codec.octets k n) = n := Codec.number_octets h
    cases order
    · have hlen : ((Codec.octets k n).reverse).length = k := by simp
      have htake : ((Codec.octets k n).reverse ++ rest).take k = _ := List.take_left' hlen
      simp [word, htake, hnumber]
    · have htake : (Codec.octets k n ++ rest).take k = _ := List.take_left' (Codec.octets_length k n)
      simp [word, htake, hnumber]

theorem word_deserialize {k : ℕ} {order : Bool} {buf : List UInt8} : (word k).deserialize order buf =
    if k ≤ buf.length then some (Codec.number (if order then buf.take k else (buf.take k).reverse)) else none := rfl

theorem word_fixed (k : ℕ) : (word k).Fixed k where
  length order n := by
    cases order
    · exact (List.length_reverse).trans (Codec.octets_length k n)
    · exact Codec.octets_length k n
  size _ := rfl
  reads order buf n h := by
    by_contra hlt
    rw [word_deserialize, if_neg hlt] at h
    cases h

/-- What is read as a number from `xs`, which comes before its octets: `xs` takes the place of the low octets in one
byte order, and in the other that of the high ones. -/
theorem word_deserialize_early {j k n : ℕ} {order : Bool} {xs rest : List UInt8} (hxs : xs.length = j)
    (hn : n < 256 ^ (k + j)) :
    (word (k + j)).deserialize order (xs ++ ((word (k + j)).serialize order n ++ rest)) =
      some (if order then Codec.number xs * 256 ^ k + n / 256 ^ j
        else n % 256 ^ k * 256 ^ j + Codec.number xs.reverse) := by
  have hsplit : n / 256 ^ j < 256 ^ k := Nat.div_lt_of_lt_mul (by rwa [← pow_add, Nat.add_comm])
  have hlen : k + j ≤ (xs ++ ((word (k + j)).serialize order n ++ rest)).length := by
    rw [List.length_append, List.length_append, (word_fixed _).length]
    omega
  rw [word_deserialize, if_pos hlen]
  cases order
  · have htake : (xs ++ ((Codec.octets (k + j) n).reverse ++ rest)).take (k + j) =
        xs ++ (Codec.octets k n).reverse := by
      rw [Nat.add_comm k j, Codec.octets_add j k, List.reverse_append, List.append_assoc, ← List.append_assoc xs]
      exact List.take_left' (by simp [hxs])
    show some (Codec.number ((xs ++ ((Codec.octets (k + j) n).reverse ++ rest)).take (k + j)).reverse) = some _
    rw [htake, List.reverse_append, List.reverse_reverse, Codec.number_append, Codec.number_octets_mod,
      List.length_reverse, hxs]
    rfl
  · have htake : (xs ++ (Codec.octets (k + j) n ++ rest)).take (k + j) = xs ++ Codec.octets k (n / 256 ^ j) := by
      rw [Codec.octets_add k j, List.append_assoc, ← List.append_assoc xs]
      exact List.take_left' (by simp [hxs, Nat.add_comm])
    show some (Codec.number ((xs ++ (Codec.octets (k + j) n ++ rest)).take (k + j))) = some _
    rw [htake, Codec.number_append, Codec.number_octets hsplit, Codec.octets_length]
    rfl

/-- A number of `k` octets in two's complement. -/
def signed (k : ℕ) : Format ℤ :=
  (word k).map (fun n => if 2 * n < 256 ^ k then n else n - 256 ^ k) fun z => (z % 256 ^ k).toNat

theorem signed_law {k : ℕ} {z : ℤ} (hlo : -256 ^ k ≤ 2 * z) (hhi : 2 * z < 256 ^ k) : (signed k).Law z := by
  have hpos : (0 : ℤ) < 256 ^ k := Int.pow_pos (by decide)
  have hcast : ((256 ^ k : ℕ) : ℤ) = 256 ^ k := Nat.cast_pow 256 k
  have hmod : ((z % 256 ^ k).toNat : ℤ) = z % 256 ^ k := Int.toNat_of_nonneg (Int.emod_nonneg z hpos.ne')
  refine map_law (word_law ?_) ?_
  · have hlt := Int.emod_lt_of_pos z hpos
    omega
  · by_cases hz : 0 ≤ z
    · have hself : z % 256 ^ k = z := Int.emod_eq_of_lt hz (by omega)
      rw [hself] at hmod ⊢
      rw [if_pos (by omega), hmod]
    · have hself : z % 256 ^ k = z + 256 ^ k := by
        rw [← Int.add_emod_right, Int.emod_eq_of_lt (by omega) (by omega)]
      rw [hself] at hmod ⊢
      rw [if_neg (by omega), hmod]
      omega

/-- One of the values of an enumeration, as a word of `k` octets. -/
def enumeration [DecidableEq α] (k : ℕ) (values : List α) : Format α where
  serialize order a := (word k).serialize order (values.idxOf a)
  deserialize order buf := (word k).deserialize order buf >>= fun n => values[n]?
  serialSize a := (word k).serialSize (values.idxOf a)

theorem enumeration_law [DecidableEq α] {k : ℕ} {values : List α} {a : α} (ha : a ∈ values)
    (hlen : values.length ≤ 256 ^ k) : (enumeration k values).Law a := by
  have hw : (word k).Law (values.idxOf a) := word_law ((List.idxOf_lt_length_iff.mpr ha).trans_le hlen)
  refine ⟨fun order => hw.size order, fun order rest => ?_⟩
  show ((word k).deserialize order ((word k).serialize order (values.idxOf a) ++ rest) >>= fun n => values[n]?) = _
  rw [hw.reads]
  exact List.getElem?_idxOf ha

theorem enumeration_fixed [DecidableEq α] (k : ℕ) (values : List α) : (enumeration k values).Fixed k where
  length order a := (word_fixed k).length order _
  size _ := rfl
  reads order buf a h := by
    obtain ⟨n, hn, -⟩ := Option.bind_eq_some_iff.mp h
    exact (word_fixed k).reads order buf n hn

/-- Two values. -/
def pair (f : Format α) (g : Format β) : Format (α × β) where
  serialize order p := serializeAll order [⟨f, p.1⟩, ⟨g, p.2⟩]
  deserialize order := front do
    return (← f.read order, ← g.read order)
  serialSize p := serialSizeAll [⟨f, p.1⟩, ⟨g, p.2⟩]

theorem pair_law {f : Format α} {g : Format β} {p : α × β} (hf : f.Law p.1) (hg : g.Law p.2) : (pair f g).Law p :=
  .of_fields (fun _ => rfl) fun _ => .cons hf <| .cons hg <| .nil

theorem pair_fixed {f : Format α} {g : Format β} {n m : ℕ} (hf : f.Fixed n) (hg : g.Fixed m) :
    (pair f g).Fixed (n + m) := by
  refine .of_fields (fun _ => rfl) (fun order p => ?_) (fun p => ?_) fun order =>
    .bind hf.atLeast.takes fun a => .bind hg.atLeast.takes fun b => .pure
  · show (f.serialize order p.1 ++ (g.serialize order p.2 ++ [])).length = n + m
    rw [List.append_nil, List.length_append, hf.length, hg.length]
  · exact congrArg₂ (· + ·) (hf.size p.1) (hg.size p.2)

theorem pair_atLeast {f : Format α} {g : Format β} {n m : ℕ} (hf : f.AtLeast n) (hg : g.AtLeast m) :
    (pair f g).AtLeast (n + m) := by
  refine .of_fields (fun _ => rfl) (fun p => ?_) fun order => .bind hf.takes fun a => .bind hg.takes fun b => .pure
  exact Nat.add_le_add (hf.size p.1) (hg.size p.2)

/-! ## Containers -/

/-- Reads `n` values. -/
def readMany (f : Format α) (order : Bool) : ℕ → Reader (List α)
  | 0 => pure []
  | n + 1 => do
    let a ← f.read order
    let as ← readMany f order n
    return a :: as

theorem Fields.many {f : Format α} {order : Bool} : ∀ {as : List α}, (∀ a ∈ as, f.Law a) →
    Fields (readMany f order as.length) (as.flatMap (f.serialize order)) (as.map f.serialSize).sum as
  | [], _ => .nil
  | a :: as, h => by
    have ih : Fields (readMany f order as.length) _ _ as := .many fun x hx => h x (List.mem_cons_of_mem a hx)
    refine .cons (h a List.mem_cons_self) ⟨ih.length, fun rest => ?_⟩
    show (readMany f order as.length (as.flatMap (f.serialize order) ++ rest)).bind
      (fun p => some (a :: p.1, p.2)) = _
    rw [ih.reads]
    rfl

/-- The number of elements, and the elements. -/
def counted (count : Format ℕ) (f : Format α) : Format (List α) where
  serialize order as := count.serialize order as.length ++ as.flatMap (f.serialize order)
  deserialize order := front do
    let n ← count.read order
    readMany f order n
  serialSize as := count.serialSize as.length + (as.map f.serialSize).sum

theorem counted_law {count : Format ℕ} {f : Format α} {as : List α} (hn : count.Law as.length)
    (h : ∀ a ∈ as, f.Law a) : (counted count f).Law as :=
  .of_fields (fun _ => rfl) fun _ => .cons hn (.many h)

/-- As many values are read as there should be, and each takes its octets. -/
theorem length_of_readMany {f : Format α} {order : Bool} {m : ℕ} (hf : f.AtLeast m) :
    ∀ {n : ℕ} {buf rest : List UInt8} {as : List α}, readMany f order n buf = some (as, rest) →
      as.length = n ∧ n * m ≤ buf.length
  | 0, buf, rest, as, h => by
    obtain ⟨rfl, -⟩ := Prod.mk.inj (Option.some.inj h)
    exact ⟨rfl, by omega⟩
  | n + 1, buf, rest, as, h => by
    obtain ⟨⟨a, mid⟩, hfirst, h⟩ := Option.bind_eq_some_iff.mp h
    obtain ⟨⟨as', rest'⟩, hrest, h⟩ := Option.bind_eq_some_iff.mp h
    obtain ⟨rfl, -⟩ := Prod.mk.inj (Option.some.inj h)
    obtain ⟨hcount, hlength⟩ := length_of_readMany hf hrest
    have htakes := hf.takes buf a mid hfirst
    refine ⟨congrArg (· + 1) hcount, ?_⟩
    rw [Nat.add_mul]
    omega

theorem counted_atLeast {count : Format ℕ} {f : Format α} {n : ℕ} (hcount : count.AtLeast n) :
    (counted count f).AtLeast n where
  size as := Nat.le_add_right_of_le (hcount.size as.length)
  reads order buf as h := by
    obtain ⟨⟨as', rest⟩, hread, -⟩ := Option.map_eq_some_iff.mp h
    obtain ⟨⟨k, mid⟩, hk, -⟩ := Option.bind_eq_some_iff.mp hread
    exact Nat.le_of_add_left_le (hcount.takes buf k mid hk)

/-- Whether there is a value, and the value. -/
def flagged (flag : Format Bool) (f : Format α) : Format (Option α) where
  serialize order v := flag.serialize order v.isSome ++ v.elim [] (f.serialize order)
  deserialize order := front do
    let there ← flag.read order
    if there then some <$> f.read order else return none
  serialSize v := flag.serialSize v.isSome + v.elim 0 f.serialSize

theorem flagged_atLeast {flag : Format Bool} {f : Format α} {n : ℕ} (hflag : flag.AtLeast n) :
    (flagged flag f).AtLeast n where
  size v := Nat.le_add_right_of_le (hflag.size v.isSome)
  reads order buf v h := by
    obtain ⟨⟨v', rest⟩, hread, -⟩ := Option.map_eq_some_iff.mp h
    obtain ⟨⟨there, mid⟩, hthere, -⟩ := Option.bind_eq_some_iff.mp hread
    exact Nat.le_of_add_left_le (hflag.takes buf there mid hthere)

theorem length_flagged_le {flag : Format Bool} {f : Format α} {n m : ℕ} {order : Bool} {v : Option α}
    (hflag : flag.Fixed n) (hf : f.Fixed m) : ((flagged flag f).serialize order v).length ≤ n + m := by
  show (flag.serialize order v.isSome ++ v.elim [] (f.serialize order)).length ≤ n + m
  rw [List.length_append, hflag.length]
  cases v with
  | none => exact Nat.le_add_right n m
  | some a => exact Nat.add_le_add_left (hf.length order a).le n

theorem flagged_law {flag : Format Bool} {f : Format α} {v : Option α} (hflag : ∀ b, flag.Law b)
    (h : ∀ a ∈ v, f.Law a) : (flagged flag f).Law v := by
  refine .of_fields (fun _ => rfl) fun order => .cons (hflag _) ?_
  cases v with
  | none => exact .nil
  | some a => exact .last (h a rfl) rfl

end Format
