import Mashroom.Lib.Dict

/-!
# MapKeys — dictionaries under other keys

The entries of a dictionary, each under the image of its key.  Under an injective map the two dictionaries are looked
up and changed alike.
-/

namespace Dict

variable {κ κ' ν : Type} {f : κ → κ'} {hf : Function.Injective f} {d : Dict κ ν} {k : κ} {v : ν}

/-- The entries, each under the image of its key. -/
def mapKeys (f : κ → κ') (hf : Function.Injective f) (d : Dict κ ν) : Dict κ' ν where
  entries := d.entries.map fun e => ⟨f e.1, e.2⟩
  nodupKeys := by
    have hkeys : (d.entries.map fun e => (⟨f e.1, e.2⟩ : Sigma fun _ : κ' => ν)).keys = d.entries.keys.map f := by
      simp [List.keys, Function.comp_def]
    rw [List.NodupKeys, hkeys]
    exact d.nodupKeys.map hf

theorem mem_mapKeys : f k ∈ d.mapKeys f hf ↔ k ∈ d := by
  simp only [AList.mem_keys, AList.keys, mapKeys, List.keys, List.map_map, List.mem_map, Function.comp_def, hf.eq_iff]

/-- A key of the dictionary is the image of one. -/
theorem exists_of_mem_mapKeys {e : Sigma fun _ : κ' => ν} (h : e ∈ (d.mapKeys f hf).entries) :
    ∃ e' ∈ d.entries, e = ⟨f e'.1, e'.2⟩ := by
  obtain ⟨e', he', rfl⟩ := List.mem_map.mp h
  exact ⟨e', he', rfl⟩

variable [DecidableEq κ] [DecidableEq κ']

theorem lookup_mapKeys : (d.mapKeys f hf).lookup (f k) = d.lookup k := by
  cases h : d.lookup k with
  | none => exact AList.lookup_eq_none.mpr fun hk => AList.lookup_eq_none.mp h (mem_mapKeys.mp hk)
  | some v => exact AList.mem_lookup_iff.mpr (List.mem_map.mpr ⟨_, AList.mem_lookup_iff.mp h, rfl⟩)

theorem mapKeys_insert : mapKeys f hf (d.insert k v) = (d.mapKeys f hf).insert (f k) v := by
  have h : ∀ l : List (Sigma fun _ : κ => ν),
      (l.kerase k).map (fun e => (⟨f e.1, e.2⟩ : Sigma fun _ : κ' => ν)) =
        (l.map fun e => (⟨f e.1, e.2⟩ : Sigma fun _ : κ' => ν)).kerase (f k) := by
    intro l
    induction l with
    | nil => rfl
    | cons e l ih =>
      by_cases he : k = e.1
      · simp [List.kerase_cons_eq, he]
      · have hne : f k ≠ f e.1 := fun heq => he (hf heq)
        simp [List.kerase_cons_ne, he, hne, ih]
  refine AList.ext ?_
  show (List.kinsert k v d.entries).map (fun e => (⟨f e.1, e.2⟩ : Sigma fun _ : κ' => ν)) =
    (d.entries.map fun e => (⟨f e.1, e.2⟩ : Sigma fun _ : κ' => ν)).kinsert (f k) v
  rw [List.kinsert_def, List.kinsert_def, List.map_cons, h]

variable [Inhabited ν] {g : ν → ν}

theorem get_mapKeys : (d.mapKeys f hf).get (f k) = d.get k := by rw [get, lookup_mapKeys, get]

theorem mapKeys_update : mapKeys f hf (d.update k g) = (d.mapKeys f hf).update (f k) g := by
  rw [update, mapKeys_insert, update, get_mapKeys]

end Dict
