import Mathlib.Data.List.Nodup
import Mathlib.Data.List.Basic

/-!
# Keyed — sets whose elements are told apart by a key

A hash set that hashes and compares its elements by one of their parts holds at most one element for each key.
Inserting an element whose key is there does nothing; an element is looked up and erased by its key.
-/

/-- A set of elements, no two of which have the same key. -/
structure Keyed {α κ : Type} (key : α → κ) where
  entries : List α
  nodup : (entries.map key).Nodup

namespace Keyed

variable {α κ : Type} {key : α → κ}

instance : Membership α (Keyed key) := ⟨fun s a => a ∈ s.entries⟩

instance [DecidableEq α] (s : Keyed key) (a : α) : Decidable (a ∈ s) := inferInstanceAs (Decidable (a ∈ s.entries))

/-- The empty set. -/
def empty : Keyed key := ⟨[], List.nodup_nil⟩

/-- Two sets have the same elements. -/
def Same (s s' : Keyed key) : Prop := ∀ a, a ∈ s ↔ a ∈ s'

@[simp] theorem notMem_empty {a : α} : ¬ a ∈ (empty : Keyed key) := List.not_mem_nil

@[simp] theorem mem_entries {s : Keyed key} {a : α} : a ∈ s.entries ↔ a ∈ s := Iff.rfl

/-- Elements with the same key are the same. -/
theorem eq_of_key {s : Keyed key} {a b : α} (ha : a ∈ s) (hb : b ∈ s) (h : key a = key b) : a = b :=
  List.inj_on_of_nodup_map s.nodup ha hb h

variable [DecidableEq κ]

/-- The element with a key. -/
def find? (s : Keyed key) (k : κ) : Option α := s.entries.find? fun a => key a = k

/-- There is an element with a key. -/
def contains (s : Keyed key) (k : κ) : Bool := (s.find? k).isSome

/-- Insertion, which does nothing when the key is there. -/
def insert (s : Keyed key) (a : α) : Keyed key :=
  if h : key a ∈ s.entries.map key then s
  else ⟨a :: s.entries, List.nodup_cons.mpr ⟨h, s.nodup⟩⟩

/-- Removal of the element with a key. -/
def erase (s : Keyed key) (k : κ) : Keyed key :=
  ⟨s.entries.filter fun a => key a ≠ k, s.nodup.sublist (List.filter_sublist.map key)⟩

section Mem

variable {s : Keyed key} {a b : α} {k : κ}

theorem find?_mem (h : s.find? k = some a) : a ∈ s ∧ key a = k := by
  refine ⟨List.mem_of_find?_eq_some h, ?_⟩
  simpa using List.find?_some h

theorem find?_eq_some : s.find? k = some a ↔ a ∈ s ∧ key a = k := by
  refine ⟨find?_mem, ?_⟩
  rintro ⟨ha, rfl⟩
  cases hf : s.find? (key a) with
  | none =>
    have hno := List.find?_eq_none.mp hf a ha
    simp at hno
  | some b =>
    obtain ⟨hb, hk⟩ := find?_mem hf
    rw [eq_of_key hb ha hk]

theorem contains_iff : s.contains k = true ↔ ∃ a ∈ s, key a = k := by
  rw [contains, Option.isSome_iff_exists]
  simp only [find?_eq_some]

theorem contains_of_mem (h : a ∈ s) : s.contains (key a) = true := contains_iff.mpr ⟨a, h, rfl⟩

theorem find?_of_contains (h : s.contains k = true) : ∃ a ∈ s, s.find? k = some a := by
  obtain ⟨a, hf⟩ := Option.isSome_iff_exists.mp h
  exact ⟨a, (find?_mem hf).1, hf⟩

theorem mem_insert : b ∈ s.insert a ↔ b ∈ s ∨ (b = a ∧ s.contains (key a) = false) := by
  have hc : key a ∈ s.entries.map key ↔ s.contains (key a) = true := by
    rw [List.mem_map, contains_iff]
    rfl
  unfold insert
  split
  · rename_i h
    simp [hc.mp h]
  · rename_i h
    have hfalse : s.contains (key a) = false := by simpa [hc] using h
    rw [← mem_entries, List.mem_cons, hfalse, mem_entries, or_comm]
    simp

/-- An element under a key that is there is not inserted. -/
theorem insert_of_contains (h : s.contains (key a) = true) : s.insert a = s := by
  obtain ⟨b, hb, hkey⟩ := contains_iff.mp h
  exact dif_pos (List.mem_map.mpr ⟨b, hb, hkey⟩)

/-- The element that has the key after an insertion. -/
theorem contains_insert : (s.insert a).contains k = true ↔ s.contains k = true ∨ k = key a := by
  simp only [contains_iff, mem_insert]
  constructor
  · rintro ⟨b, hb | ⟨rfl, -⟩, rfl⟩
    · exact .inl ⟨b, hb, rfl⟩
    · exact .inr rfl
  · rintro (⟨b, hb, rfl⟩ | rfl)
    · exact ⟨b, .inl hb, rfl⟩
    · by_cases h : s.contains (key a) = true
      · obtain ⟨b, hb, hk⟩ := contains_iff.mp h
        exact ⟨b, .inl hb, hk⟩
      · exact ⟨a, .inr ⟨rfl, by simpa using h⟩, rfl⟩

theorem mem_erase : b ∈ s.erase k ↔ b ∈ s ∧ key b ≠ k := by
  rw [← mem_entries, erase, List.mem_filter, mem_entries]
  simp

theorem contains_erase {k' : κ} : (s.erase k).contains k' = true ↔ s.contains k' = true ∧ k' ≠ k := by
  simp only [contains_iff, mem_erase]
  constructor
  · rintro ⟨b, ⟨hb, hne⟩, rfl⟩
    exact ⟨⟨b, hb, rfl⟩, hne⟩
  · rintro ⟨⟨b, hb, rfl⟩, hne⟩
    exact ⟨b, ⟨hb, hne⟩, rfl⟩

/-- The set of one element. -/
theorem mem_insert_empty : b ∈ (empty : Keyed key).insert a ↔ b = a := by
  have hc : (empty : Keyed key).contains (key a) = false := rfl
  simp [mem_insert, hc]

end Mem

end Keyed
