import Mathlib.Data.List.Basic

/-!
# Format — three functions that should agree: how values are written, read and measured

A format writes a value in one of two byte orders, reads one from the front of a buffer, and tells the size of a value
without writing it.  Nothing makes the three agree; `Law f a` says that they do on the value `a`.  The format of a
record lists its fields three times, as `serialize`, `deserialize` and `serialSize` of them: where the lists are the
same, `Fields` puts the laws of the fields together.  A variant is the index of its alternative, and the alternative.
-/

/-- How the values of a type are written, read from the front of a buffer, and measured. -/
structure Format (α : Type) where
  serialize : Bool → α → List UInt8
  deserialize : Bool → List UInt8 → Option α
  serialSize : α → ℕ

namespace Format

variable {α β : Type}

/-- The value is written in as many octets as its size says, and read back from them, whatever comes after. -/
structure Law (f : Format α) (a : α) : Prop where
  size : ∀ order, (f.serialize order a).length = f.serialSize a
  reads : ∀ order rest, f.deserialize order (f.serialize order a ++ rest) = some a

/-! ## Records -/

/-- Reads from a buffer, and leaves the rest of it. -/
abbrev Reader (α : Type) := StateT (List UInt8) Option α

/-- Reads a field.  The next one starts after the size of the value. -/
def read (f : Format α) (order : Bool) : Reader α := fun buf => do
  let a ← f.deserialize order buf
  return (a, buf.drop (f.serialSize a))

/-- A field of a record, with the format of its type. -/
structure Field : Type 1 where
  {α : Type}
  format : Format α
  value : α

/-- `serialize(msg, buf, fields...)` -/
def serializeAll (order : Bool) : List Field → List UInt8
  | [] => []
  | x :: xs => x.format.serialize order x.value ++ serializeAll order xs

/-- `serial_size(fields...)` -/
def serialSizeAll : List Field → ℕ
  | [] => 0
  | x :: xs => x.format.serialSize x.value + serialSizeAll xs

/-- What is read from the front of the buffer. -/
def front (r : Reader α) (buf : List UInt8) : Option α := Prod.fst <$> r buf

/-- The octets `bs`, `n` of them, are what `r` reads the value `a` from. -/
structure Fields (r : Reader α) (bs : List UInt8) (n : ℕ) (a : α) : Prop where
  length : bs.length = n
  reads : ∀ rest, r (bs ++ rest) = some (a, rest)

section Fields

variable {f : Format α} {order : Bool} {x : α} {k : α → Reader β} {bs : List UInt8} {n : ℕ} {b : β}

theorem Fields.nil : Fields (pure b) [] 0 b where
  length := rfl
  reads _ := rfl

/-- One field more. -/
theorem Fields.cons (h : f.Law x) (hk : Fields (k x) bs n b) :
    Fields (f.read order >>= k) (f.serialize order x ++ bs) (f.serialSize x + n) b where
  length := by rw [List.length_append, h.size, hk.length]
  reads rest := by
    have hdrop : (f.serialize order x ++ (bs ++ rest)).drop (f.serialSize x) = bs ++ rest :=
      List.drop_left' (h.size order)
    have hread : f.read order (f.serialize order x ++ (bs ++ rest)) = some (x, bs ++ rest) := by
      rw [read, h.reads, Option.bind_eq_bind, Option.bind_some, hdrop]
      rfl
    rw [List.append_assoc]
    show (f.read order (f.serialize order x ++ (bs ++ rest))).bind (fun p => k p.1 p.2) = _
    rw [hread]
    exact hk.reads rest

/-- The last field. -/
theorem Fields.last (h : f.Law x) {g : α → β} (hg : g x = b) :
    Fields (g <$> f.read order) (f.serialize order x) (f.serialSize x) b where
  length := h.size order
  reads rest := by
    have hdrop : (f.serialize order x ++ rest).drop (f.serialSize x) = rest := List.drop_left' (h.size order)
    show (f.read order (f.serialize order x ++ rest)).bind (fun p => some (g p.1, p.2)) = _
    rw [read, h.reads, Option.bind_eq_bind, Option.bind_some, hdrop, ← hg]
    rfl

/-- A record whose fields are read as they are written and measured. -/
theorem Law.of_fields {f : Format β} {r : Bool → Reader β} (hr : ∀ order, f.deserialize order = front (r order))
    (h : ∀ order, Fields (r order) (f.serialize order b) (f.serialSize b) b) : f.Law b where
  size order := (h order).length
  reads order rest := by
    rw [hr, front, (h order).reads]
    rfl

end Fields

/-! ## Sizes -/

/-- All values have `n` octets, and are not read from fewer. -/
structure Fixed (f : Format α) (n : ℕ) : Prop where
  length : ∀ order a, (f.serialize order a).length = n
  size : ∀ a, f.serialSize a = n
  reads : ∀ order buf a, f.deserialize order buf = some a → n ≤ buf.length

/-- All values have `n` octets or more, and are not read from fewer. -/
structure AtLeast (f : Format α) (n : ℕ) : Prop where
  size : ∀ a, n ≤ f.serialSize a
  reads : ∀ order buf a, f.deserialize order buf = some a → n ≤ buf.length

/-- `n` octets or more are taken from the buffer. -/
def Takes (n : ℕ) (r : Reader α) : Prop := ∀ buf a rest, r buf = some (a, rest) → rest.length + n ≤ buf.length

section Sizes

variable {f : Format α} {order : Bool} {r : Reader α} {k : α → Reader β} {n m : ℕ} {buf rest : List UInt8} {a : α}

theorem Fixed.atLeast (h : f.Fixed n) : f.AtLeast n := ⟨fun a => Nat.le_of_eq (h.size a).symm, h.reads⟩

/-- What a field is read from, and where the next one is. -/
theorem read_eq_some : f.read order buf = some (a, rest) ↔
    f.deserialize order buf = some a ∧ rest = buf.drop (f.serialSize a) := by
  show (f.deserialize order buf).bind (fun a => some (a, buf.drop (f.serialSize a))) = _ ↔ _
  rw [Option.bind_eq_some_iff]
  constructor
  · rintro ⟨a', ha', h⟩
    obtain ⟨rfl, rfl⟩ := Prod.mk.inj (Option.some.inj h)
    exact ⟨ha', rfl⟩
  · rintro ⟨ha, rfl⟩
    exact ⟨a, ha, rfl⟩

theorem AtLeast.takes (h : f.AtLeast n) : Takes n (f.read order) := by
  intro buf a rest hread
  obtain ⟨ha, rfl⟩ := read_eq_some.mp hread
  have hsize := h.size a
  have hlength := h.reads order buf a ha
  rw [List.length_drop]
  omega

theorem Takes.pure : Takes 0 (Pure.pure a : Reader α) := by
  intro buf a' rest h
  obtain ⟨rfl, rfl⟩ := Prod.mk.inj (Option.some.inj h)
  exact Nat.le_refl _

/-- What the parts take, their sequence takes. -/
theorem Takes.bind (hr : Takes n r) (hk : ∀ a, Takes m (k a)) : Takes (n + m) (r >>= k) := by
  intro buf b rest h
  obtain ⟨⟨a, mid⟩, hfirst, hrest⟩ := Option.bind_eq_some_iff.mp h
  have hlength := hr buf a mid hfirst
  have hlength' := hk a mid b rest hrest
  omega

theorem Takes.front (hr : Takes n r) (h : front r buf = some a) : n ≤ buf.length := by
  obtain ⟨⟨a', rest⟩, hread, -⟩ := Option.map_eq_some_iff.mp h
  exact Nat.le_of_add_left_le (hr buf a' rest hread)

/-- A record has as many octets as its fields. -/
theorem AtLeast.of_fields {r : Bool → Reader α} (hr : ∀ order, f.deserialize order = Format.front (r order))
    (hsize : ∀ a, n ≤ f.serialSize a) (htakes : ∀ order, Takes n (r order)) : f.AtLeast n where
  size := hsize
  reads order buf a h := by
    rw [hr] at h
    exact (htakes order).front h

theorem Fixed.of_fields {r : Bool → Reader α} (hr : ∀ order, f.deserialize order = Format.front (r order))
    (hlength : ∀ order a, (f.serialize order a).length = n) (hsize : ∀ a, f.serialSize a = n)
    (htakes : ∀ order, Takes n (r order)) : f.Fixed n where
  length := hlength
  size := hsize
  reads := (AtLeast.of_fields hr (fun a => Nat.le_of_eq (hsize a).symm) htakes).reads

end Sizes

/-! ## Composition -/

/-- A value that is not written. -/
def empty (a : α) : Format α where
  serialize _ _ := []
  deserialize _ _ := some a
  serialSize _ := 0

theorem empty_law (a : α) : (empty a).Law a where
  size _ := rfl
  reads _ _ := rfl

/-- The format of a type that is written as another. -/
def map (f : Format α) (g : α → β) (h : β → α) : Format β where
  serialize order b := f.serialize order (h b)
  deserialize order buf := g <$> f.deserialize order buf
  serialSize b := f.serialSize (h b)

theorem map_law {f : Format α} {g : α → β} {h : β → α} {b : β} (hf : f.Law (h b)) (hgh : g (h b) = b) :
    (f.map g h).Law b where
  size order := hf.size order
  reads order rest := by
    show g <$> f.deserialize order (f.serialize order (h b) ++ rest) = _
    rw [hf.reads]
    exact congrArg some hgh

theorem map_fixed {f : Format α} {g : α → β} {h : β → α} {n : ℕ} (hf : f.Fixed n) : (f.map g h).Fixed n where
  length order b := hf.length order (h b)
  size b := hf.size (h b)
  reads order buf b hb := by
    obtain ⟨a, ha, -⟩ := Option.map_eq_some_iff.mp hb
    exact hf.reads order buf a ha

section Variant

variable {T : Type} [DecidableEq T] {A : T → Type}

/-- The index of an alternative.  The first one is `std::monostate`. -/
def variantIndex (tags : List T) (v : Option (Σ t, A t)) : ℕ := v.elim 0 fun p => tags.idxOf p.1 + 1

/-- Reads the alternative, if there is one of the index. -/
def readAlternative (alt : (t : T) → Format (A t)) (order : Bool) : Option T → Reader (Option (Σ t, A t))
  | none => failure
  | some t => (fun a => some ⟨t, a⟩) <$> (alt t).read order

/-- `std::variant` of `std::monostate` and the alternatives `tags`: the index, and the alternative. -/
def variant (index : Format ℕ) (tags : List T) (alt : (t : T) → Format (A t)) : Format (Option (Σ t, A t)) where
  serialize order v :=
    index.serialize order (variantIndex tags v) ++ v.elim [] fun p => (alt p.1).serialize order p.2
  deserialize order := front do
    let i ← index.read order
    if i = 0 then return none else readAlternative alt order tags[i - 1]?
  serialSize v := index.serialSize (variantIndex tags v) + v.elim 0 fun p => (alt p.1).serialSize p.2

theorem variant_law {index : Format ℕ} {tags : List T} {alt : (t : T) → Format (A t)} {v : Option (Σ t, A t)}
    (hi : index.Law (variantIndex tags v)) (ht : ∀ p ∈ v, p.1 ∈ tags) (h : ∀ p ∈ v, (alt p.1).Law p.2) :
    (variant index tags alt).Law v := by
  refine .of_fields (fun _ => rfl) fun order => .cons hi ?_
  cases v with
  | none => exact .nil
  | some p =>
    obtain ⟨t, a⟩ := p
    have hget : tags[tags.idxOf t]? = some t := List.getElem?_idxOf (ht _ rfl)
    have hindex : variantIndex tags (some ⟨t, a⟩ : Option (Σ t, A t)) = tags.idxOf t + 1 := rfl
    rw [hindex, if_neg (Nat.succ_ne_zero _), Nat.add_sub_cancel, hget]
    exact .last (h ⟨t, a⟩ rfl) rfl

end Variant

/-- `std::variant` of `std::monostate` and one alternative. -/
def orNothing (index : Format ℕ) (f : Format α) : Format (Option α) where
  serialize order v := index.serialize order (v.elim 0 fun _ => 1) ++ v.elim [] fun a => f.serialize order a
  deserialize order := front do
    let i ← index.read order
    if i = 0 then return none else if i = 1 then some <$> f.read order else failure
  serialSize v := index.serialSize (v.elim 0 fun _ => 1) + v.elim 0 fun a => f.serialSize a

theorem orNothing_law {index : Format ℕ} {f : Format α} {v : Option α} (hi : ∀ i ≤ 1, index.Law i)
    (h : ∀ a ∈ v, f.Law a) : (orNothing index f).Law v := by
  refine .of_fields (fun _ => rfl) fun order => ?_
  cases v with
  | none => exact .cons (hi 0 (by omega)) .nil
  | some a => exact .cons (hi 1 (Nat.le_refl 1)) (.last (h a rfl) rfl)

end Format
