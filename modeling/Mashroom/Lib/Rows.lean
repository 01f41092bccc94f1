import Mathlib.Data.List.MinMax
import Mathlib.Data.List.Perm.Subperm
import Mathlib.Order.Lattice

/-!
# Rows — sorted columns, merged row by row

Each row takes the first element of every column whose first element is at the least time there is.  Of so many rows as
the longest column has elements all elements are taken exactly where one column has every time of every other, as often
(`taken_iff_dominated`).
-/

namespace Rows

variable {α τ : Type} [LinearOrder τ] (time : α → τ)

/-- The least of the times of the first elements. -/
def front (cols : List (List α)) : Option τ := (cols.filterMap fun c => c.head?.map time).min?

/-- What a column has in a row. -/
def cell (t : τ) : List α → Option α
  | [] => none
  | a :: _ => if time a = t then some a else none

/-- What a column has after a row. -/
def rest (t : τ) : List α → List α
  | [] => []
  | a :: c => if time a = t then c else a :: c

/-- So many rows, as long as there are elements. -/
def rows : ℕ → List (List α) → List (τ × List (Option α))
  | 0, _ => []
  | n + 1, cols =>
    match front time cols with
    | none => []
    | some t => (t, cols.map (cell time t)) :: rows n (cols.map (rest time t))

omit [LinearOrder τ] in
/-- The elements of a column. -/
def column (i : ℕ) (rs : List (τ × List (Option α))) : List α := rs.filterMap fun r => r.2[i]?.join

omit [LinearOrder τ] in
theorem column_cons (i : ℕ) (r : τ × List (Option α)) (rs : List (τ × List (Option α))) :
    column i (r :: rs) = r.2[i]?.join.toList ++ column i rs := by
  simp only [column, List.filterMap_cons]
  cases r.2[i]?.join <;> rfl

variable {time} {cols : List (List α)} {c : List α} {t : τ} {n i : ℕ}

section Row

theorem cell_append_rest (t : τ) (c : List α) : (cell time t c).toList ++ rest time t c = c := by
  cases c with
  | nil => rfl
  | cons a c =>
    by_cases h : time a = t
    · simp [cell, rest, h]
    · simp [cell, rest, h]

theorem time_of_cell {a : α} (h : cell time t c = some a) : time a = t := by
  cases c with
  | nil => cases h
  | cons b c =>
    obtain ⟨hb, heq⟩ := Option.ite_none_right_eq_some.mp h
    rw [← Option.some.inj heq, hb]

theorem rest_suffix (t : τ) (c : List α) : rest time t c <:+ c := ⟨(cell time t c).toList, cell_append_rest t c⟩

/-- A row takes one element of a column at most. -/
theorem le_length_rest (h : n + 1 ≤ c.length) : n ≤ (rest time t c).length := by
  cases c with
  | nil => exact absurd h (Nat.not_succ_le_zero n)
  | cons a c =>
    by_cases ha : time a = t
    · have hrest : rest time t (a :: c) = c := if_pos ha
      rw [hrest]
      exact Nat.le_of_succ_le_succ h
    · have hrest : rest time t (a :: c) = a :: c := if_neg ha
      rw [hrest]
      exact le_trans (Nat.le_succ n) h

theorem front_eq_some : front time cols = some t ↔
    (∃ c ∈ cols, ∃ a ∈ c.head?, time a = t) ∧ ∀ c ∈ cols, ∀ a ∈ c.head?, t ≤ time a := by
  rw [front, List.min?_eq_some_iff]
  simp only [List.mem_filterMap, Option.map_eq_some_iff, forall_exists_index, and_imp, Option.mem_def]
  constructor
  · rintro ⟨hmem, hle⟩
    exact ⟨hmem, fun c hc a ha => hle _ c hc a ha rfl⟩
  · rintro ⟨hmem, hle⟩
    refine ⟨hmem, ?_⟩
    rintro _ c hc a ha rfl
    exact hle c hc a ha

theorem front_eq_none : front time cols = none ↔ ∀ c ∈ cols, c = [] := by
  rw [front, List.min?_eq_none_iff, List.filterMap_eq_nil_iff]
  refine forall₂_congr fun c _ => ?_
  cases c <;> simp

/-- As long as there is an element there is a least time. -/
theorem exists_front (hc : c ∈ cols) (h : n + 1 ≤ c.length) : ∃ t, front time cols = some t := by
  refine Option.ne_none_iff_exists'.mp fun hnone => ?_
  rw [front_eq_none.mp hnone c hc] at h
  exact Nat.not_succ_le_zero n h

/-- In a long enough column there is a first row, after which it is still long enough. -/
theorem exists_front_rest (hcols : ∃ c ∈ cols, n + 1 ≤ c.length) :
    ∃ t, front time cols = some t ∧ ∃ c ∈ cols.map (rest time t), n ≤ c.length := by
  obtain ⟨c, hc, hlength⟩ := hcols
  obtain ⟨t, ht⟩ : ∃ t, front time cols = some t := exists_front hc hlength
  exact ⟨t, ht, _, List.mem_map_of_mem hc, le_length_rest hlength⟩

/-- In sorted columns no element is before the least of the first ones. -/
theorem le_of_front (h : front time cols = some t) (hsorted : ∀ c ∈ cols, c.Pairwise fun a b => time a ≤ time b)
    (hc : c ∈ cols) {a : α} (ha : a ∈ c) : t ≤ time a := by
  have hle := (front_eq_some.mp h).2 c hc
  cases c with
  | nil => cases ha
  | cons b c =>
    rcases List.mem_cons.mp ha with rfl | ha
    · exact hle _ rfl
    · exact le_trans (hle b rfl) ((List.pairwise_cons.mp (hsorted _ hc)).1 a ha)

theorem sorted_rest (hsorted : ∀ c ∈ cols, c.Pairwise fun a b => time a ≤ time b) :
    ∀ c ∈ cols.map (rest time t), c.Pairwise fun a b => time a ≤ time b := by
  intro c hc
  obtain ⟨d, hd, rfl⟩ := List.mem_map.mp hc
  exact (hsorted d hd).sublist (rest_suffix t d).sublist

end Row

section Runs

theorem rows_succ (h : front time cols = some t) :
    rows time (n + 1) cols = (t, cols.map (cell time t)) :: rows time n (cols.map (rest time t)) := by
  simp only [rows, h]

theorem rows_of_front_none (h : front time cols = none) : rows time n cols = [] := by
  cases n with
  | zero => rfl
  | succ n => simp only [rows, h]

theorem length_rows_le : (rows time n cols).length ≤ n := by
  induction n generalizing cols with
  | zero => exact le_refl 0
  | succ n ih =>
    cases h : front time cols with
    | none =>
      rw [rows_of_front_none h]
      exact Nat.zero_le _
    | some t =>
      rw [rows_succ h]
      exact Nat.succ_le_succ ih

/-- What was taken of a column, followed by what is left, is the column. -/
theorem column_prefix : column i (rows time n cols) <+: cols[i]?.getD [] := by
  induction n generalizing cols with
  | zero => exact List.nil_prefix
  | succ n ih =>
    cases h : front time cols with
    | none =>
      rw [rows_of_front_none h]
      exact List.nil_prefix
    | some t =>
      have ih := @ih (cols.map (rest time t))
      rw [rows_succ h]
      cases hc : cols[i]? with
      | none =>
        simp only [List.getElem?_map, hc, Option.map_none, Option.getD_none] at ih
        rw [column_cons, List.getElem?_map, hc]
        exact ih
      | some c =>
        simp only [List.getElem?_map, hc, Option.map_some, Option.getD_some] at ih
        have hcolumn : column i ((t, cols.map (cell time t)) :: rows time n (cols.map (rest time t))) =
            (cell time t c).toList ++ column i (rows time n (cols.map (rest time t))) := by
          rw [column_cons, List.getElem?_map, hc, Option.map_some, Option.join_some]
        have hpre := (List.prefix_append_right_inj (cell time t c).toList).mpr ih
        rw [cell_append_rest] at hpre
        rw [hcolumn, Option.getD_some]
        exact hpre

/-- A row is the front of what is left of the columns. -/
theorem front_of_mem_rows {r : τ × List (Option α)} (h : r ∈ rows time n cols) :
    ∃ cols' : List (List α), cols'.length = cols.length ∧ front time cols' = some r.1 ∧
      r.2 = cols'.map (cell time r.1) := by
  induction n generalizing cols with
  | zero => cases h
  | succ n ih =>
    cases hf : front time cols with
    | none =>
      rw [rows_of_front_none hf] at h
      cases h
    | some t =>
      rw [rows_succ hf] at h
      rcases List.mem_cons.mp h with rfl | h
      · exact ⟨cols, rfl, hf, rfl⟩
      · obtain ⟨cols', hlen, hfront⟩ := ih h
        exact ⟨cols', by rw [hlen, List.length_map], hfront⟩

/-- The cells of a row are at its time. -/
theorem time_of_mem_rows {r : τ × List (Option α)} (h : r ∈ rows time n cols) {a : α} (ha : some a ∈ r.2) :
    time a = r.1 := by
  obtain ⟨cols', -, -, hcells⟩ := front_of_mem_rows h
  rw [hcells] at ha
  obtain ⟨c, -, hc⟩ := List.mem_map.mp ha
  exact time_of_cell hc

/-- A row has an element. -/
theorem exists_cell {r : τ × List (Option α)} (h : r ∈ rows time n cols) : ∃ a, some a ∈ r.2 := by
  obtain ⟨cols', -, hf, hcells⟩ := front_of_mem_rows h
  obtain ⟨⟨c, hc, a, ha, htime⟩, -⟩ := front_eq_some.mp hf
  refine ⟨a, ?_⟩
  rw [hcells]
  refine List.mem_map.mpr ⟨c, hc, ?_⟩
  cases c with
  | nil => cases ha
  | cons b c =>
    obtain rfl := Option.mem_some_iff.mp ha
    exact if_pos htime

theorem length_cells {r : τ × List (Option α)} (h : r ∈ rows time n cols) : r.2.length = cols.length := by
  obtain ⟨cols', hlen, -, hcells⟩ := front_of_mem_rows h
  rw [hcells, List.length_map, hlen]

/-- Rows of sorted columns follow each other in time. -/
theorem pairwise_rows (hsorted : ∀ c ∈ cols, c.Pairwise fun a b => time a ≤ time b) :
    (rows time n cols).Pairwise fun r r' => r.1 ≤ r'.1 := by
  induction n generalizing cols with
  | zero => exact List.Pairwise.nil
  | succ n ih =>
    cases hf : front time cols with
    | none =>
      rw [rows_of_front_none hf]
      exact List.Pairwise.nil
    | some t =>
      rw [rows_succ hf]
      refine List.Pairwise.cons (fun r hr => ?_) (ih (sorted_rest hsorted))
      obtain ⟨a, ha⟩ := exists_cell hr
      rw [← time_of_mem_rows hr ha]
      -- an element of a later row is an element of its column
      obtain ⟨j, hj⟩ := List.getElem?_of_mem ha
      have hmem : a ∈ column j (rows time n (cols.map (rest time t))) :=
        List.mem_filterMap.mpr ⟨r, hr, by rw [hj]; rfl⟩
      have hcol := column_prefix.subset hmem
      cases hc : cols[j]? with
      | none =>
        rw [List.getElem?_map, hc] at hcol
        cases hcol
      | some c =>
        rw [List.getElem?_map, hc] at hcol
        exact le_of_front hf hsorted (List.mem_of_getElem? hc) ((rest_suffix t c).subset hcol)

omit [LinearOrder τ] in
/-- The times of a column are times of rows. -/
theorem map_time_column {rs : List (τ × List (Option α))} (h : ∀ r ∈ rs, ∀ a, some a ∈ r.2 → time a = r.1) (i : ℕ) :
    ((column i rs).map time).Sublist (rs.map Prod.fst) := by
  induction rs with
  | nil => exact List.Sublist.refl _
  | cons r rs ih =>
    have ih := ih fun r hr => h r (List.mem_cons_of_mem _ hr)
    rw [column_cons]
    cases hcell : r.2[i]?.join with
    | none => exact ih.cons _
    | some a =>
      rw [Option.toList_some, List.singleton_append, List.map_cons, List.map_cons]
      have ha : some a ∈ r.2 := List.mem_of_getElem? (Option.join_eq_some_iff.mp hcell)
      rw [h r List.mem_cons_self a ha]
      exact ih.cons_cons _

omit [LinearOrder τ] in
/-- The times of as many rows as a column has elements are those of the column, when all of it was taken. -/
theorem map_time_eq {rs : List (τ × List (Option α))} (h : ∀ r ∈ rs, ∀ a, some a ∈ r.2 → time a = r.1)
    (hlength : rs.length ≤ (column i rs).length) : (column i rs).map time = rs.map Prod.fst :=
  (map_time_column h i).eq_of_length_le (by simpa using hlength)

end Runs

/-! ## A column with every time -/

section Dominated

/-- A column has every time of every column, as often. -/
def Dominates (time : α → τ) (c : List α) (cols : List (List α)) : Prop :=
  ∀ d ∈ cols, (d.map time).Subperm (c.map time)

/-- The least time is that of the first element of the column with every time. -/
theorem Dominates.head (hdom : Dominates time c cols) (hc : c ∈ cols)
    (hsorted : ∀ c ∈ cols, c.Pairwise fun a b => time a ≤ time b) (hf : front time cols = some t) :
    ∃ a d, c = a :: d ∧ time a = t := by
  obtain ⟨⟨d, hd, a, ha, rfl⟩, -⟩ := front_eq_some.mp hf
  have hmem : time a ∈ c.map time := (hdom d hd).subset (List.mem_map_of_mem (List.mem_of_mem_head? ha))
  cases c with
  | nil => cases hmem
  | cons b c =>
    refine ⟨b, c, rfl, le_antisymm ?_ ((front_eq_some.mp hf).2 _ hc b rfl)⟩
    rcases List.mem_cons.mp hmem with heq | hmem
    · rw [heq]
    · obtain ⟨b', hb', heq⟩ := List.mem_map.mp hmem
      rw [← heq]
      exact (List.pairwise_cons.mp (hsorted _ hc)).1 b' hb'

/-- A column that has every time has every time after a row. -/
theorem Dominates.rest (hdom : Dominates time c cols) (hc : c ∈ cols)
    (hsorted : ∀ c ∈ cols, c.Pairwise fun a b => time a ≤ time b) (hf : front time cols = some t) :
    Dominates time (rest time t c) (cols.map (Rows.rest time t)) := by
  obtain ⟨a, c, rfl, ha⟩ := hdom.head hc hsorted hf
  intro e he
  obtain ⟨d, hd, rfl⟩ := List.mem_map.mp he
  have hsub := hdom d hd
  rw [List.map_cons, ha] at hsub
  have hrest : Rows.rest time t (a :: c) = c := if_pos ha
  rw [hrest]
  cases d with
  | nil => exact List.nil_subperm
  | cons b d =>
    by_cases hb : time b = t
    · have hrest' : Rows.rest time t (b :: d) = d := if_pos hb
      rw [List.map_cons, hb] at hsub
      rw [hrest']
      exact (List.subperm_cons t).mp hsub
    · -- the time of the row is not in the column
      have hrest' : Rows.rest time t (b :: d) = b :: d := if_neg hb
      have hnotMem : t ∉ (b :: d).map time := by
        intro hmem
        obtain ⟨e, he, heq⟩ := List.mem_map.mp hmem
        have hle : time b ≤ time e := by
          rcases List.mem_cons.mp he with rfl | he
          · exact le_refl _
          · exact (List.pairwise_cons.mp (hsorted _ hd)).1 e he
        exact hb (le_antisymm (by rw [← heq]; exact hle) (le_of_front hf hsorted hd List.mem_cons_self))
      have herase := hsub.erase t
      rw [List.erase_of_not_mem hnotMem, List.erase_cons_head] at herase
      rw [hrest']
      exact herase

/-- Where a column has every time, all elements are taken by as many rows as it has elements. -/
theorem column_eq_of_dominates (hdom : Dominates time c cols) (hc : c ∈ cols)
    (hsorted : ∀ c ∈ cols, c.Pairwise fun a b => time a ≤ time b) (hn : c.length ≤ n) (i : ℕ) :
    column i (rows time n cols) = cols[i]?.getD [] := by
  have hnil : c = [] → ∀ i : ℕ, cols[i]?.getD [] = [] := by
    rintro rfl i
    cases hd : cols[i]? with
    | none => rfl
    | some d => exact List.map_eq_nil_iff.mp (List.subperm_nil.mp (hdom d (List.mem_of_getElem? hd)))
  induction n generalizing cols c with
  | zero => exact (hnil (List.eq_nil_of_length_eq_zero (Nat.le_zero.mp hn)) i).symm
  | succ n ih =>
    cases hf : front time cols with
    | none =>
      rw [rows_of_front_none hf, hnil (front_eq_none.mp hf c hc) i]
      rfl
    | some t =>
      have hdom' := hdom.rest hc hsorted hf
      obtain ⟨a, d, rfl, ha⟩ := hdom.head hc hsorted hf
      have hlength : (Rows.rest time t (a :: d)).length ≤ n := by
        have hrest : Rows.rest time t (a :: d) = d := if_pos ha
        rw [hrest]
        exact Nat.le_of_succ_le_succ hn
      have ih := ih hdom' (List.mem_map_of_mem hc) (sorted_rest hsorted) hlength (by
        intro hempty i
        cases he : (cols.map (Rows.rest time t))[i]? with
        | none => rfl
        | some e =>
          have hsub := hdom' e (List.mem_of_getElem? he)
          rw [hempty] at hsub
          exact List.map_eq_nil_iff.mp (List.subperm_nil.mp hsub))
      rw [rows_succ hf, column_cons, ih, List.getElem?_map, List.getElem?_map]
      cases cols[i]? with
      | none => rfl
      | some e => exact cell_append_rest t e

/-- **All elements are taken, in as many rows as the longest column has, exactly where one column has every time.** -/
theorem taken_iff_dominated (hsorted : ∀ c ∈ cols, c.Pairwise fun a b => time a ≤ time b)
    (hle : ∀ c ∈ cols, c.length ≤ n) (hlongest : ∃ c ∈ cols, c.length = n) :
    (∀ i, column i (rows time n cols) = cols[i]?.getD []) ↔ ∃ c ∈ cols, Dominates time c cols := by
  constructor
  · intro htaken
    obtain ⟨c, hc, hlength⟩ := hlongest
    obtain ⟨j, hj⟩ := List.getElem?_of_mem hc
    have hcells : ∀ r ∈ rows time n cols, ∀ a, some a ∈ r.2 → time a = r.1 := fun r hr a ha => time_of_mem_rows hr ha
    have hcolumn : column j (rows time n cols) = c := by rw [htaken j, hj, Option.getD_some]
    have htimes := map_time_eq (i := j) hcells (by rw [hcolumn, hlength]; exact length_rows_le)
    refine ⟨c, hc, fun d hd => ?_⟩
    obtain ⟨k, hk⟩ := List.getElem?_of_mem hd
    have hd' : column k (rows time n cols) = d := by rw [htaken k, hk, Option.getD_some]
    rw [← hcolumn, htimes, ← hd']
    exact (map_time_column hcells k).subperm
  · rintro ⟨c, hc, hdom⟩ i
    exact column_eq_of_dominates hdom hc hsorted (hle c hc) i

end Dominated

end Rows
