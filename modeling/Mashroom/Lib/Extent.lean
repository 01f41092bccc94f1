import Mashroom.Lib.Format

/-!
# Extent — the least and the greatest size that a type declares

Beside the three functions of its format a type declares two numbers, between which the sizes of its values should lie.
Those of a record are sums over its fields, each with a list of fields of its own.  `Holds` says that the size of a
value lies between the two; `Holds.of_fields` is the rule for records, `Holds.alternative` the one for variants.
-/

/-- The sizes that a type declares, as `Min_serial_size` and `Max_serial_size`. -/
structure Extent where
  min : ℕ
  max : ℕ

namespace Extent

open Format

/-- `min_serial_size<...>()` -/
def minSerialSize : List Extent → ℕ
  | [] => 0
  | e :: es => e.min + minSerialSize es

/-- `max_serial_size<...>()` -/
def maxSerialSize : List Extent → ℕ
  | [] => 0
  | e :: es => e.max + maxSerialSize es

/-- The extent of a value that is not written. -/
def empty : Extent := ⟨0, 0⟩

/-- The size of a value lies between the two. -/
structure Holds {α : Type} (e : Extent) (f : Format α) (a : α) : Prop where
  least : e.min ≤ f.serialSize a
  greatest : f.serialSize a ≤ e.max

/-- The sizes of the fields lie within their extents. -/
inductive HoldsAll : List Extent → List Field → Prop
  | nil : HoldsAll [] []
  | cons {α : Type} {e : Extent} {f : Format α} {a : α} {es : List Extent} {xs : List Field} (h : e.Holds f a)
      (hs : HoldsAll es xs) : HoldsAll (e :: es) (⟨f, a⟩ :: xs)

section Fields

variable {α : Type} {e : Extent} {f : Format α} {a : α} {es : List Extent} {xs : List Field}

theorem HoldsAll.least (h : HoldsAll es xs) : minSerialSize es ≤ serialSizeAll xs := by
  induction h with
  | nil => exact Nat.le_refl 0
  | cons h _ ih => exact Nat.add_le_add h.least ih

theorem HoldsAll.greatest (h : HoldsAll es xs) : serialSizeAll xs ≤ maxSerialSize es := by
  induction h with
  | nil => exact Nat.le_refl 0
  | cons h _ ih => exact Nat.add_le_add h.greatest ih

/-- A record whose sums go over its fields. -/
theorem Holds.of_fields (hmin : e.min = minSerialSize es) (hmax : e.max = maxSerialSize es)
    (hsize : f.serialSize a = serialSizeAll xs) (h : HoldsAll es xs) : e.Holds f a where
  least := by
    rw [hmin, hsize]
    exact h.least
  greatest := by
    rw [hmax, hsize]
    exact h.greatest

theorem empty_holds (a : α) : empty.Holds (Format.empty a) a := ⟨Nat.le_refl 0, Nat.le_refl 0⟩

theorem map_holds {β : Type} {f : Format α} {g : α → β} {h : β → α} {b : β} (hf : e.Holds f (h b)) :
    e.Holds (f.map g h) b :=
  ⟨hf.least, hf.greatest⟩

end Fields

/-! ## Variants -/

/-- The extent of an index and one of the alternatives lies within that of the variant. -/
structure Covers (variant index : Extent) (alternatives : List Extent) : Prop where
  least : ∀ e ∈ alternatives, variant.min ≤ index.min + e.min
  greatest : ∀ e ∈ alternatives, index.max + e.max ≤ variant.max

/-- An index, followed by the fields of an alternative. -/
theorem Holds.alternative {α : Type} {variant index e : Extent} {alternatives es : List Extent} {f : Format α} {a : α}
    {x : Field} {xs : List Field} (hv : Covers variant index alternatives) (he : e ∈ alternatives)
    (hmin : e.min = minSerialSize es) (hmax : e.max = maxSerialSize es)
    (hsize : f.serialSize a = serialSizeAll (x :: xs)) (hx : index.Holds x.format x.value) (hs : HoldsAll es xs) :
    variant.Holds f a where
  least := calc
    variant.min ≤ index.min + e.min := hv.least e he
    _ ≤ x.format.serialSize x.value + serialSizeAll xs := Nat.add_le_add hx.least (hmin ▸ hs.least)
    _ = f.serialSize a := hsize.symm
  greatest := calc
    f.serialSize a = x.format.serialSize x.value + serialSizeAll xs := hsize
    _ ≤ index.max + e.max := Nat.add_le_add hx.greatest (hmax ▸ hs.greatest)
    _ ≤ variant.max := hv.greatest e he

/-- The least and the greatest of the alternatives, each after an index. -/
def leastAndGreatest (index : Extent) (alternatives : List Extent) : Extent where
  min := index.min + (alternatives.map min).foldr Nat.min ((alternatives.map min).headD 0)
  max := index.max + (alternatives.map max).foldr Nat.max 0

theorem foldr_min_le {d n : ℕ} : ∀ {ns : List ℕ}, n ∈ ns → ns.foldr Nat.min d ≤ n
  | m :: ns, h => by
    rcases List.mem_cons.mp h with rfl | h
    · exact Nat.min_le_left _ _
    · exact Nat.le_trans (Nat.min_le_right _ _) (foldr_min_le h)

theorem le_foldr_max {d n : ℕ} : ∀ {ns : List ℕ}, n ∈ ns → n ≤ ns.foldr Nat.max d
  | m :: ns, h => by
    rcases List.mem_cons.mp h with rfl | h
    · exact Nat.le_max_left _ _
    · exact Nat.le_trans (le_foldr_max h) (Nat.le_max_right _ _)

theorem leastAndGreatest_covers (index : Extent) (alternatives : List Extent) :
    Covers (leastAndGreatest index alternatives) index alternatives where
  least _ he := Nat.add_le_add_left (foldr_min_le (List.mem_map_of_mem he)) _
  greatest _ he := Nat.add_le_add_left (le_foldr_max (List.mem_map_of_mem he)) _

end Extent
