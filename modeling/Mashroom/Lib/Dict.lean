import Mathlib.Data.List.AList
import Mathlib.Algebra.BigOperators.Group.Finset.Basic
import Mathlib.Tactic.Abel

/-!
# Dict — dictionaries whose absent keys have a default value

A dictionary is an association list without repeated keys.  `get` reads a key, absent keys giving the default of
the value type, and `update` is the effect of `d[k] = g(d[k])`.  `total` adds up a weight of the values; an update
adds to it what it adds to the one value.  `combineM` is the loop that goes through the entries of one dictionary
and changes another at their keys.  `Joins` says that a dictionary joins two others key by key; where the values
commute or associate, so do the dictionaries.
-/

/-- Dictionaries from `κ` to `ν`. -/
abbrev Dict (κ ν : Type) : Type := AList fun _ : κ => ν

namespace Dict

variable {κ ν : Type} [DecidableEq κ] [Inhabited ν]

/-- The value of a key. -/
def get (d : Dict κ ν) (k : κ) : ν := (d.lookup k).getD default

/-- `d[k] = g(d[k])` -/
def update (d : Dict κ ν) (k : κ) (g : ν → ν) : Dict κ ν := d.insert k (g (get d k))

/-- Both have the same keys, and related values. -/
def Agree (R : ν → ν → Prop) (d d' : Dict κ ν) : Prop := ∀ k, Option.Rel R (d.lookup k) (d'.lookup k)

section Get

variable {d : Dict κ ν} {k k' : κ} {g : ν → ν} {v : ν}

theorem get_insert : get (d.insert k v) k' = if k' = k then v else get d k' := by
  unfold get
  split
  · rename_i h
    rw [h, AList.lookup_insert]
    rfl
  · rename_i h
    rw [AList.lookup_insert_ne h]

theorem get_insert_self : get (d.insert k v) k = v := by simp [get_insert]

theorem get_insert_ne (h : k' ≠ k) : get (d.insert k v) k' = get d k' := by simp [get_insert, h]

theorem get_update : get (d.update k g) k' = if k' = k then g (get d k) else get d k' := get_insert

theorem get_of_mem (h : (⟨k, v⟩ : Sigma fun _ : κ => ν) ∈ d.entries) : get d k = v := by
  have hl : d.lookup k = some v := AList.mem_lookup_iff.mpr h
  rw [get, hl]
  rfl

theorem get_of_notMem (h : k ∉ d) : get d k = default := by
  rw [get, AList.lookup_eq_none.mpr h]
  rfl

theorem mem_update : k' ∈ d.update k g ↔ k' = k ∨ k' ∈ d := AList.mem_insert d

theorem lookup_of_mem (h : k ∈ d) : d.lookup k = some (get d k) := by
  obtain ⟨v, hv⟩ := Option.isSome_iff_exists.mp (AList.lookup_isSome.mpr h)
  rw [get, hv]
  rfl

theorem entry_of_mem (h : k ∈ d) : (⟨k, get d k⟩ : Sigma fun _ : κ => ν) ∈ d.entries :=
  AList.mem_lookup_iff.mp (lookup_of_mem h)

theorem mem_of_get_ne (h : get d k ≠ default) : k ∈ d := by
  by_contra hk
  exact h (get_of_notMem hk)

end Get

/-! ## The same entries, and joined entries -/

section Joins

variable {R : ν → ν → ν → Prop} {S : ν → ν → Prop} {a b c ab bc r r' : Dict κ ν}

/-- Dictionaries with the same keys agree when their values are related. -/
theorem agree_of_get (hmem : ∀ k, k ∈ r ↔ k ∈ r') (hget : ∀ k, S (get r k) (get r' k)) : Agree S r r' := by
  intro k
  by_cases hk : k ∈ r
  · rw [lookup_of_mem hk, lookup_of_mem ((hmem k).mp hk)]
    exact .some (hget k)
  · rw [AList.lookup_eq_none.mpr hk, AList.lookup_eq_none.mpr fun hk' => hk ((hmem k).mpr hk')]
    exact .none

/-- The keys of `r` are those of `a` and `b`, and each value of `r` is a join of the values there. -/
def Joins (R : ν → ν → ν → Prop) (a b r : Dict κ ν) : Prop :=
  ∀ k, (k ∈ r ↔ k ∈ a ∨ k ∈ b) ∧ R (get a k) (get b k) (get r k)

theorem Joins.comm (h : Joins R a b r) (h' : Joins R b a r')
    (hS : ∀ k, R (get a k) (get b k) (get r k) → R (get b k) (get a k) (get r' k) → S (get r k) (get r' k)) :
    Agree S r r' := by
  apply agree_of_get
  · intro k
    rw [(h k).1, (h' k).1, or_comm]
  · intro k
    exact hS k (h k).2 (h' k).2

theorem Joins.assoc (hab : Joins R a b ab) (h : Joins R ab c r) (hbc : Joins R b c bc) (h' : Joins R a bc r')
    (hS : ∀ k, R (get a k) (get b k) (get ab k) → R (get ab k) (get c k) (get r k) →
      R (get b k) (get c k) (get bc k) → R (get a k) (get bc k) (get r' k) → S (get r k) (get r' k)) :
    Agree S r r' := by
  apply agree_of_get
  · intro k
    rw [(h k).1, (hab k).1, (h' k).1, (hbc k).1, or_assoc]
  · intro k
    exact hS k (hab k).2 (h k).2 (hbc k).2 (h' k).2

end Joins

/-! ## Mapped values -/

section MapValues

variable {ν' : Type} [Inhabited ν'] {f : ν → ν'} {d : Dict κ ν} {k : κ} {v : ν}

/-- The same keys, with the images of their values. -/
def mapValues (f : ν → ν') (d : Dict κ ν) : Dict κ ν' where
  entries := d.entries.map fun e => ⟨e.1, f e.2⟩
  nodupKeys := by
    have hkeys : (d.entries.map fun e => (⟨e.1, f e.2⟩ : Sigma fun _ : κ => ν')).keys = d.entries.keys := by
      simp [List.keys, Function.comp_def]
    rw [List.NodupKeys, hkeys]
    exact d.nodupKeys

omit [DecidableEq κ] [Inhabited ν] [Inhabited ν'] in
theorem mem_mapValues : k ∈ d.mapValues f ↔ k ∈ d := by
  rw [AList.mem_keys, AList.mem_keys]
  simp [AList.keys, mapValues, List.keys, Function.comp_def]

omit [Inhabited ν] [Inhabited ν'] in
theorem lookup_mapValues : (d.mapValues f).lookup k = (d.lookup k).map f := by
  cases h : d.lookup k with
  | none =>
    rw [Option.map_none, AList.lookup_eq_none, mem_mapValues]
    exact AList.lookup_eq_none.mp h
  | some v =>
    rw [Option.map_some, ← Option.mem_def, AList.mem_lookup_iff]
    exact List.mem_map.mpr ⟨_, AList.mem_lookup_iff.mp h, rfl⟩

theorem get_mapValues (hf : f default = default) : (d.mapValues f).get k = f (d.get k) := by
  rw [get, lookup_mapValues, get]
  cases d.lookup k with
  | none => exact hf.symm
  | some v => rfl

omit [Inhabited ν] [Inhabited ν'] in
theorem mapValues_insert : mapValues f (d.insert k v) = (d.mapValues f).insert k (f v) := by
  have h : ∀ l : List (Sigma fun _ : κ => ν),
      (l.kerase k).map (fun e => (⟨e.1, f e.2⟩ : Sigma fun _ : κ => ν')) =
        (l.map fun e => (⟨e.1, f e.2⟩ : Sigma fun _ : κ => ν')).kerase k := by
    intro l
    induction l with
    | nil => rfl
    | cons e l ih => by_cases he : k = e.1 <;> simp [List.kerase_cons_eq, List.kerase_cons_ne, he, ih]
  refine AList.ext ?_
  show (List.kinsert k v d.entries).map (fun e => (⟨e.1, f e.2⟩ : Sigma fun _ : κ => ν')) =
    (d.entries.map fun e => (⟨e.1, f e.2⟩ : Sigma fun _ : κ => ν')).kinsert k (f v)
  rw [List.kinsert_def, List.kinsert_def, List.map_cons, h]

end MapValues

/-! ## Sums over the keys -/

section Total

variable {M : Type} [AddCommMonoid M]

/-- The sum of a weight over the entries. -/
def total (w : ν → M) (d : Dict κ ν) : M := ∑ k ∈ d.keys.toFinset, w (get d k)

variable {w : ν → M} {d : Dict κ ν} {k : κ} {g : ν → ν} {m : M}

/-- A weight that does not count the default value may be summed over more keys. -/
theorem total_eq_sum (hw : w default = 0) {s : Finset κ} (hs : d.keys.toFinset ⊆ s) :
    total w d = ∑ k ∈ s, w (get d k) := by
  apply Finset.sum_subset hs
  intro k _ hk
  rw [get_of_notMem (by simpa [AList.mem_keys] using hk), hw]

/-- What an update adds to the value of its key, it adds to the sum. -/
theorem total_update (hw : w default = 0) (hg : w (g (get d k)) = w (get d k) + m) :
    total w (d.update k g) = total w d + m := by
  have hkeys : (d.update k g).keys.toFinset ⊆ insert k d.keys.toFinset := by
    intro j hj
    have hj : j ∈ d.update k g := by simpa [AList.mem_keys] using hj
    simpa [AList.mem_keys] using mem_update.mp hj
  have hrest : ∑ j ∈ (insert k d.keys.toFinset).erase k, w (get (d.update k g) j) =
      ∑ j ∈ (insert k d.keys.toFinset).erase k, w (get d j) :=
    Finset.sum_congr rfl fun j hj => by rw [get_update, if_neg (Finset.ne_of_mem_erase hj)]
  rw [total_eq_sum hw hkeys, total_eq_sum hw (Finset.subset_insert k d.keys.toFinset),
    ← Finset.add_sum_erase _ _ (Finset.mem_insert_self k _), hrest, get_update, if_pos rfl, hg,
    ← Finset.add_sum_erase (insert k d.keys.toFinset) (fun j => w (get d j)) (Finset.mem_insert_self k _)]
  abel

end Total

/-! ## Entry by entry -/

section Combine

variable {ν' ε : Type}

/-- `for (k, v') in d'`, `d[k] = h(d[k], v')`, where `h` may fail. -/
def combineM (h : κ → ν → ν' → Except ε ν) (d : Dict κ ν) (d' : Dict κ ν') : Except ε (Dict κ ν) :=
  d'.entries.foldlM (fun acc e => (fun v => acc.insert e.1 v) <$> h e.1 (get acc e.1) e.2) d

variable {h : κ → ν → ν' → Except ε ν}

/-- The loop over distinct keys sets each of them once. -/
theorem foldlM_insert_spec : ∀ {l : List (Sigma fun _ : κ => ν')} {d r : Dict κ ν}, l.NodupKeys →
    l.foldlM (fun acc e => (fun v => acc.insert e.1 v) <$> h e.1 (get acc e.1) e.2) d = .ok r → ∀ k,
      (k ∉ l.keys → get r k = get d k) ∧ (∀ v', ⟨k, v'⟩ ∈ l → h k (get d k) v' = .ok (get r k)) ∧
        (k ∈ r ↔ k ∈ d ∨ k ∈ l.keys)
  | [], d, r, _, hr, k => by
    cases hr
    simp
  | ⟨j, v'⟩ :: l, d, r, hl, hr, k => by
    obtain ⟨hj, hl⟩ := List.nodupKeys_cons.mp hl
    rw [List.foldlM_cons] at hr
    cases hv : h j (get d j) v' with
    | error e => rw [hv] at hr; cases hr
    | ok v =>
      rw [hv] at hr
      change l.foldlM (fun acc e => (fun v => acc.insert e.1 v) <$> h e.1 (get acc e.1) e.2) (d.insert j v) = _ at hr
      obtain ⟨hout, hin, hmem⟩ := foldlM_insert_spec hl hr k
      by_cases hkj : k = j
      · subst hkj
        have hget : get r k = v := (hout hj).trans get_insert_self
        refine ⟨fun hk => absurd List.mem_cons_self hk, ?_, by simp [hmem]⟩
        intro v'' hmem'
        rcases List.mem_cons.mp hmem' with heq | hmem'
        · cases heq
          rw [hget, hv]
        · exact absurd (List.mem_keys_of_mem hmem') hj
      · rw [get_insert_ne hkj] at hout hin
        refine ⟨fun hk => hout fun hk' => hk (List.mem_cons_of_mem _ hk'), ?_, ?_⟩
        · intro v'' hmem'
          rcases List.mem_cons.mp hmem' with heq | hmem'
          · cases heq
            exact absurd rfl hkj
          · exact hin v'' hmem'
        · simp [hmem, hkj]

variable {d r : Dict κ ν} {d' : Dict κ ν'} {k : κ}

theorem combineM_get_of_notMem (hr : combineM h d d' = .ok r) (hk : k ∉ d') : get r k = get d k :=
  (foldlM_insert_spec d'.nodupKeys hr k).1 hk

theorem combineM_get_of_mem [Inhabited ν'] (hr : combineM h d d' = .ok r) (hk : k ∈ d') :
    h k (get d k) (get d' k) = .ok (get r k) := by
  obtain ⟨v', hv'⟩ := Option.isSome_iff_exists.mp (AList.lookup_isSome.mpr hk)
  have hmem := AList.mem_lookup_iff.mp hv'
  rw [get_of_mem hmem]
  exact (foldlM_insert_spec d'.nodupKeys hr k).2.1 v' hmem

theorem mem_combineM (hr : combineM h d d' = .ok r) : k ∈ r ↔ k ∈ d ∨ k ∈ d' :=
  (foldlM_insert_spec d'.nodupKeys hr k).2.2

/-- The loop has a result when each step has. -/
theorem combineM_exists (hh : ∀ e ∈ d'.entries, ∀ v, ∃ v', h e.1 v e.2 = .ok v') : ∃ r, combineM h d d' = .ok r := by
  unfold combineM
  generalize d'.entries = l at hh
  induction l generalizing d with
  | nil => exact ⟨d, rfl⟩
  | cons e l ih =>
    obtain ⟨v, hv⟩ := hh e (by simp) (get d e.1)
    rw [List.foldlM_cons, hv]
    exact ih fun e' he' => hh e' (List.mem_cons_of_mem _ he')

/-- The loop has the result that a loop with fewer failures has. -/
theorem combineM_of_ok {h' : κ → ν → ν' → Except ε ν} (hh : ∀ k v v' r, h k v v' = .ok r → h' k v v' = .ok r)
    (hr : combineM h d d' = .ok r) : combineM h' d d' = .ok r := by
  unfold combineM at hr ⊢
  generalize d'.entries = l at hr
  induction l generalizing d with
  | nil => exact hr
  | cons e l ih =>
    rw [List.foldlM_cons] at hr ⊢
    cases hv : h e.1 (get d e.1) e.2 with
    | error e => rw [hv] at hr; cases hr
    | ok v =>
      rw [hv] at hr
      rw [hh _ _ _ _ hv]
      exact ih hr

/-- The loop on mapped dictionaries, when each step is the mapped step. -/
theorem combineM_mapValues {μ μ' : Type} [Inhabited μ] {f : ν → μ} {f' : ν' → μ'}
    {h' : κ → μ → μ' → Except ε μ} (hf : f default = default)
    (hh : ∀ k v v', h' k (f v) (f' v') = f <$> h k v v') (d : Dict κ ν) (d' : Dict κ ν') :
    combineM h' (d.mapValues f) (d'.mapValues f') = mapValues f <$> combineM h d d' := by
  unfold combineM
  show (d'.entries.map fun e => (⟨e.1, f' e.2⟩ : Sigma fun _ : κ => μ')).foldlM
    (fun acc e => (fun v => acc.insert e.1 v) <$> h' e.1 (get acc e.1) e.2) (d.mapValues f) = _
  generalize d'.entries = l
  induction l generalizing d with
  | nil => rfl
  | cons e l ih =>
    rw [List.map_cons, List.foldlM_cons, List.foldlM_cons, get_mapValues hf, hh]
    cases h e.1 (get d e.1) e.2 with
    | error e => rfl
    | ok v =>
      have hv := ih (d.insert e.1 v)
      rw [mapValues_insert] at hv
      exact hv

end Combine

/-! ## One key of all entries, and entries set one after the other -/

section Entries

variable {β ι : Type} {f : ν → List β} {l : List (Sigma fun _ : κ => ν)} {k : κ} {v : ν}

omit [Inhabited ν] in
theorem flatMap_of_notMem (h : k ∉ l.keys) : (l.flatMap fun e => if e.1 = k then f e.2 else []) = [] := by
  refine List.flatMap_eq_nil_iff.mpr fun e he => if_neg ?_
  rintro rfl
  exact h (List.mem_keys_of_mem he)

omit [Inhabited ν] in
/-- Of all entries, only that of the key counts. -/
theorem flatMap_of_mem : ∀ {l : List (Sigma fun _ : κ => ν)}, l.NodupKeys → ⟨k, v⟩ ∈ l →
    (l.flatMap fun e => if e.1 = k then f e.2 else []) = f v
  | e :: l, hl, hmem => by
    obtain ⟨hnotMem, hl⟩ := List.nodupKeys_cons.mp hl
    rw [List.flatMap_cons]
    rcases List.mem_cons.mp hmem with rfl | hmem
    · rw [if_pos rfl, flatMap_of_notMem hnotMem, List.append_nil]
    · have hne : e.1 ≠ k := by
        rintro rfl
        have hkey := List.mem_keys_of_mem hmem
        exact hnotMem hkey
      rw [if_neg hne, List.nil_append, flatMap_of_mem hl hmem]

theorem flatMap_key (d : Dict κ ν) (hf : f default = []) :
    (d.entries.flatMap fun e => if e.1 = k then f e.2 else []) = f (get d k) := by
  by_cases hk : k ∈ d
  · exact flatMap_of_mem d.nodupKeys (entry_of_mem hk)
  · rw [get_of_notMem hk, hf]
    exact flatMap_of_notMem fun h => hk (AList.mem_keys.mpr h)

variable (key : ι → κ) (val : ι → ν)

/-- `d[key i] = val i` for every `i`, in turn. -/
def insertAll (d : Dict κ ν) (is : List ι) : Dict κ ν := is.foldl (fun d i => d.insert (key i) (val i)) d

variable {key val}

omit [Inhabited ν] in
/-- Where the keys are new and differ, nothing is overwritten. -/
theorem entries_insertAll : ∀ {is : List ι} {d : Dict κ ν}, (is.map key).Nodup → (∀ i ∈ is, key i ∉ d) →
    (insertAll key val d is).entries.Perm ((is.map fun i => ⟨key i, val i⟩) ++ d.entries)
  | [], _, _, _ => List.Perm.refl _
  | i :: is, d, hnodup, hnew => by
    rw [List.map_cons, List.nodup_cons] at hnodup
    have hrest : ∀ j ∈ is, key j ∉ d.insert (key i) (val i) := by
      intro j hj hmem
      rcases (AList.mem_insert _).mp hmem with heq | hmem
      · exact hnodup.1 (heq ▸ List.mem_map_of_mem hj)
      · exact hnew j (List.mem_cons_of_mem _ hj) hmem
    refine (entries_insertAll hnodup.2 hrest).trans ?_
    rw [AList.entries_insert_of_notMem (hnew i List.mem_cons_self)]
    exact List.perm_middle

omit [Inhabited ν] in
/-- What is overwritten is lost. -/
theorem exists_lost : ∀ {is : List ι} {d : Dict κ ν}, ∃ lost : List (Sigma fun _ : κ => ν),
    ((insertAll key val d is).entries ++ lost).Perm ((is.map fun i => ⟨key i, val i⟩) ++ d.entries)
  | [], d => ⟨[], List.Perm.of_eq (List.append_nil _)⟩
  | i :: is, d => by
    obtain ⟨lost, hlost⟩ := @exists_lost is (d.insert (key i) (val i))
    obtain ⟨old, hold⟩ := (List.kerase_sublist (key i) d.entries).exists_perm_append
    refine ⟨lost ++ old, ?_⟩
    rw [← List.append_assoc, List.map_cons, List.cons_append]
    refine (hlost.append_right old).trans ?_
    rw [AList.entries_insert, List.append_assoc, List.cons_append]
    exact List.perm_middle.trans ((hold.symm.append_left _).cons _)

omit [Inhabited ν] in
/-- What a key has in the end, it was given last. -/
theorem lookup_insertAll : ∀ {is : List ι} {d : Dict κ ν}, (insertAll key val d is).lookup k = some v →
    (∃ before i after, is = before ++ i :: after ∧ key i = k ∧ val i = v ∧ ∀ j ∈ after, key j ≠ k) ∨
      (d.lookup k = some v ∧ ∀ i ∈ is, key i ≠ k)
  | [], _, h => .inr ⟨h, by simp⟩
  | i :: is, d, h => by
    rcases @lookup_insertAll is _ h with ⟨before, j, after, rfl, hj, hv, hlast⟩ | ⟨hlookup, hnone⟩
    · exact .inl ⟨i :: before, j, after, rfl, hj, hv, hlast⟩
    · by_cases hi : key i = k
      · subst hi
        rw [AList.lookup_insert] at hlookup
        exact .inl ⟨[], i, is, rfl, rfl, Option.some.inj hlookup, hnone⟩
      · rw [AList.lookup_insert_ne (Ne.symm hi)] at hlookup
        refine .inr ⟨hlookup, fun j hj => ?_⟩
        rcases List.mem_cons.mp hj with rfl | hj
        · exact hi
        · exact hnone j hj

end Entries

/-! ## Values put at the end of the lists of their keys -/

section Push

variable {β : Type} {d : Dict κ (List β)} {l l' : List (κ × β)} {k : κ}

/-- `d[k].push_back(v)` for every pair, in turn. -/
def pushAll (d : Dict κ (List β)) (l : List (κ × β)) : Dict κ (List β) :=
  l.foldl (fun d e => d.update e.1 (· ++ [e.2])) d

theorem pushAll_append : pushAll d (l ++ l') = pushAll (pushAll d l) l' := List.foldl_append

theorem get_pushAll : get (pushAll d l) k = get d k ++ (l.filter fun e => e.1 = k).map Prod.snd := by
  induction l generalizing d with
  | nil => exact (List.append_nil _).symm
  | cons e l ih =>
    have hstep : pushAll d (e :: l) = pushAll (d.update e.1 (· ++ [e.2])) l := rfl
    rw [hstep, ih, get_update]
    by_cases he : e.1 = k
    · rw [if_pos he.symm, List.filter_cons_of_pos (by simpa using he), he, List.map_cons, List.append_assoc,
        List.singleton_append]
    · rw [if_neg (Ne.symm he), List.filter_cons_of_neg (by simpa using he)]

theorem mem_pushAll : k ∈ pushAll d l ↔ k ∈ d ∨ k ∈ l.map Prod.fst := by
  induction l generalizing d with
  | nil => simp [pushAll]
  | cons e l ih =>
    have hstep : pushAll d (e :: l) = pushAll (d.update e.1 (· ++ [e.2])) l := rfl
    rw [hstep, ih, mem_update, List.map_cons, List.mem_cons]
    tauto

end Push

end Dict
