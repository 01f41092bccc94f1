import Mathlib.Tactic.MkIffOfInductiveProp
import Mashroom.Proc.WriteText

/-!
# Proc.Delivered — when the text files deliver the data

Rows are lost when no series has a time for each of them: there are only so many rows as the longest series has values.
Values go to the wrong column after an empty series, to the wrong time when they are within a second, and files of one
name, or below each other, are lost too.
-/

namespace Mashroom

open Rows

/-! ## Columns and series -/

section Aligned

variable {α : Type} {l : List (List α)}

/-- Empty series stand behind the others. -/
def Aligned (l : List (List α)) : Prop := l.Pairwise fun a b => a = [] → b = []

instance [DecidableEq α] : Decidable (Aligned l) := inferInstanceAs (Decidable (List.Pairwise _ _))

theorem aligned_cons {a : List α} : Aligned (a :: l) ↔ (∀ b ∈ l, a = [] → b = []) ∧ Aligned l := List.pairwise_cons

/-- Then each series has its column. -/
theorem Aligned.getElem? (h : Aligned l) (i : ℕ) : (l.filter (· ≠ []))[i]?.getD [] = l[i]?.getD [] := by
  induction l generalizing i with
  | nil => rfl
  | cons a l ih =>
    obtain ⟨ha, hl⟩ := aligned_cons.mp h
    by_cases hnil : a = []
    · have hall : ∀ b ∈ a :: l, b = [] := by
        intro b hb
        rcases List.mem_cons.mp hb with rfl | hb
        · exact hnil
        · exact ha b hb hnil
      rw [List.filter_eq_nil_iff.mpr (by simpa using hall)]
      cases hi : (a :: l)[i]? with
      | none => rfl
      | some b => exact (hall b (List.mem_of_getElem? hi)).symm
    · rw [List.filter_cons_of_pos (by simpa using hnil)]
      cases i with
      | zero => rfl
      | succ i => exact ih hl i

/-- The last series that is not empty has no column behind its own. -/
theorem exists_last (h : l.filter (· ≠ []) ≠ []) :
    ∃ i a, l[i]? = some a ∧ a ≠ [] ∧ (l.filter (· ≠ [])).length ≤ i + 1 := by
  induction l using List.reverseRecOn with
  | nil => exact absurd rfl h
  | append_singleton l b ih =>
    by_cases hb : b = []
    · have hfilter : (l ++ [b]).filter (· ≠ []) = l.filter (· ≠ []) := by simp [hb]
      rw [hfilter] at h ⊢
      obtain ⟨i, a, hi, ha, hle⟩ := ih h
      refine ⟨i, a, ?_, ha, hle⟩
      rw [List.getElem?_append_left (List.getElem?_eq_some_iff.mp hi).1, hi]
    · refine ⟨l.length, b, by simp, hb, ?_⟩
      exact le_trans (List.length_filter_le _ _) (by simp)

/-- Where no series is longer than its column, empty series stand behind the others. -/
theorem aligned_of_length_le (h : ∀ i : ℕ, (l[i]?.getD []).length ≤ ((l.filter (· ≠ []))[i]?.getD []).length) :
    Aligned l := by
  induction l with
  | nil => exact List.Pairwise.nil
  | cons a l ih =>
    by_cases ha : a = []
    · -- each series would need the column of the next
      have hnil : l.filter (· ≠ []) = [] := by
        by_contra hne
        obtain ⟨i, b, hi, hb, hle⟩ := exists_last hne
        have hlength := h (i + 1)
        rw [List.filter_cons_of_neg (by simpa using ha), List.getElem?_cons_succ, hi,
          List.getElem?_eq_none (by omega)] at hlength
        exact hb (List.eq_nil_of_length_eq_zero (Nat.le_zero.mp hlength))
      have hall : ∀ b ∈ l, b = [] := by simpa using hnil
      exact aligned_cons.mpr ⟨fun b hb _ => hall b hb,
        List.pairwise_of_forall_mem_list fun b _ c hc _ => hall c hc⟩
    · refine aligned_cons.mpr ⟨fun _ _ hnil => absurd hnil ha, ih fun i => ?_⟩
      have hlength := h (i + 1)
      rw [List.filter_cons_of_pos (by simpa using ha), List.getElem?_cons_succ, List.getElem?_cons_succ] at hlength
      exact hlength

end Aligned

/-! ## Rows and what is read of them -/

/-- A value as its row tells it, at whole seconds. -/
def wholeSeconds (v : ExtractedValue) : ExtractedValue :=
  { v with timeDate := v.timeDate.tdiv nsPerSecond * nsPerSecond }

section Whole

variable {v : ExtractedValue} {l l' : List ExtractedValue} {rs : List (ℤ × List (Option ExtractedValue))} {i : ℕ}

theorem wholeSeconds_eq_self : wholeSeconds v = v ↔ nsPerSecond ∣ v.timeDate := by
  constructor
  · intro h
    have htime := congrArg ExtractedValue.timeDate h
    exact ⟨v.timeDate.tdiv nsPerSecond, by rw [mul_comm]; exact htime.symm⟩
  · intro h
    rw [wholeSeconds, Int.tdiv_mul_cancel h]

theorem wholeSeconds_whole : nsPerSecond ∣ (wholeSeconds v).timeDate := dvd_mul_left _ _

/-- Only whole seconds are read as they were. -/
theorem whole_of_perm (h : (l.map wholeSeconds).Perm l) {v : ExtractedValue} (hv : v ∈ l) :
    nsPerSecond ∣ v.timeDate := by
  obtain ⟨w, -, rfl⟩ := List.mem_map.mp (h.mem_iff.mpr hv)
  exact wholeSeconds_whole

theorem valuesAt_map_textRowOf (h : ∀ r ∈ rs, ∀ v, some v ∈ r.2 → v.timeDate = r.1) :
    valuesAt i (rs.map textRowOf) = (column i rs).map wholeSeconds := by
  induction rs with
  | nil => rfl
  | cons r rs ih =>
    have ih := ih fun r hr => h r (List.mem_cons_of_mem _ hr)
    rw [column_cons, List.map_append, ← ih, valuesAt, List.map_cons, List.filterMap_cons]
    simp only [textRowOf, List.getElem?_map]
    cases hcell : r.2[i]? with
    | none => rfl
    | some c =>
      cases c with
      | none => rfl
      | some v =>
        have htime := h r List.mem_cons_self v (List.mem_of_getElem? hcell)
        simp only [Option.map_some, Option.join_some, Option.toList_some, List.map_cons, List.map_nil, wholeSeconds,
          htime]
        rfl

end Whole

/-! ## Sorted series -/

/-- The first time of a period. -/
def ExtractedValues.Opens (p : TimePeriod) (data : ExtractedValues) (t : ℤ) : Prop :=
  data.Time t ∧ ∀ u, data.Time u → p.getNextTp u = p.getNextTp t → t ≤ u

section Sorted

variable {p : TimePeriod} {data : ExtractedValues} {i : ℕ} {t : ℤ}

/-- Each series is sorted by time. -/
def ExtractedValues.Sorted (data : ExtractedValues) : Prop :=
  ∀ e ∈ data.entries, e.2.Pairwise fun v v' => v.timeDate ≤ v'.timeDate

/-- The rows take all values. -/
def ExtractedValues.Taken (data : ExtractedValues) : Prop :=
  ∀ i : ℕ, column i (dataRows data) = (getColumns data)[i]?.getD []

theorem ExtractedValues.Sorted.columns (h : data.Sorted) :
    ∀ c ∈ getColumns data, c.Pairwise fun v v' => v.timeDate ≤ v'.timeDate := by
  intro c hc
  obtain ⟨-, k, he⟩ := mem_getColumns.mp hc
  exact h _ he

theorem ExtractedValues.Sorted.rows (h : data.Sorted) : (dataRows data).Pairwise fun r r' => r.1 ≤ r'.1 :=
  pairwise_rows h.columns

theorem time_of_mem_dataRows {r : ℤ × List (Option ExtractedValue)} (h : r ∈ dataRows data) {v : ExtractedValue}
    (hv : some v ∈ r.2) : v.timeDate = r.1 := time_of_mem_rows h hv

/-- The time of a row is that of a value. -/
theorem time_of_row {r : ℤ × List (Option ExtractedValue)} (h : r ∈ dataRows data) : data.Time r.1 := by
  obtain ⟨v, hv⟩ := exists_cell h
  obtain ⟨j, hj⟩ := List.getElem?_of_mem hv
  have hmem : v ∈ column j (dataRows data) := List.mem_filterMap.mpr ⟨r, h, by rw [hj]; rfl⟩
  have hcol : v ∈ (getColumns data)[j]?.getD [] := column_prefix.subset hmem
  cases hc : (getColumns data)[j]? with
  | none =>
    rw [hc] at hcol
    cases hcol
  | some c =>
    rw [hc] at hcol
    obtain ⟨-, k, he⟩ := mem_getColumns.mp (List.mem_of_getElem? hc)
    exact ⟨_, he, v, hcol, time_of_mem_dataRows h hv⟩

/-- Where the rows take all values, each time has a row. -/
theorem ExtractedValues.Taken.exists_row (h : data.Taken) (ht : data.Time t) : ∃ r ∈ dataRows data, r.1 = t := by
  obtain ⟨e, he, v, hv, rfl⟩ := ht
  have hc : e.2 ∈ getColumns data := mem_getColumns.mpr ⟨List.ne_nil_of_mem hv, e.1, he⟩
  obtain ⟨j, hj⟩ := List.getElem?_of_mem hc
  have hcol : v ∈ column j (dataRows data) := by
    rw [h j, hj]
    exact hv
  obtain ⟨r, hr, hcell⟩ := List.mem_filterMap.mp hcol
  exact ⟨r, hr, (time_of_mem_dataRows hr (List.mem_of_getElem? (Option.join_eq_some_iff.mp hcell))).symm⟩

/-- The rows take all values exactly where one series has every time of every other, as often. -/
theorem taken_iff (h : data.Sorted) (hcols : getColumns data ≠ []) : data.Taken ↔
    ∃ e ∈ data.entries, ∀ e' ∈ data.entries,
      (e'.2.map ExtractedValue.timeDate).Subperm (e.2.map ExtractedValue.timeDate) := by
  refine (taken_iff_dominated h.columns (fun c => length_le_maxLength) (exists_longest hcols)).trans ?_
  constructor
  · rintro ⟨c, hc, hdom⟩
    obtain ⟨-, k, he⟩ := mem_getColumns.mp hc
    refine ⟨_, he, fun e' he' => ?_⟩
    by_cases hnil : e'.2 = []
    · rw [hnil]
      exact List.nil_subperm
    · exact hdom _ (mem_getColumns.mpr ⟨hnil, e'.1, he'⟩)
  · rintro ⟨e, he, hdom⟩
    obtain ⟨c, hc⟩ := List.exists_mem_of_ne_nil _ hcols
    obtain ⟨hne, k, hc⟩ := mem_getColumns.mp hc
    have hne' : e.2 ≠ [] := by
      intro hnil
      have hsub := hdom _ hc
      rw [hnil] at hsub
      exact hne (List.map_eq_nil_iff.mp (List.subperm_nil.mp hsub))
    refine ⟨e.2, mem_getColumns.mpr ⟨hne', e.1, he⟩, fun d hd => ?_⟩
    obtain ⟨-, k', hd⟩ := mem_getColumns.mp hd
    exact hdom _ hd

/-- A file begins at a time of the data, and each of its rows is in the period of that time. -/
theorem time_of_mem_rowsByFile {g : ℤ × List (ℤ × List (Option ExtractedValue))}
    (h : g ∈ rowsByFile p (dataRows data)) : data.Time g.1 ∧ ∀ r ∈ g.2, r ∈ dataRows data := by
  have hflat : (rowsByFile p (dataRows data)).flatMap Prod.snd = dataRows data := flatten_rowsByFile
  have hrows : ∀ r ∈ g.2, r ∈ dataRows data := by
    intro r hr
    rw [← hflat]
    exact List.mem_flatMap.mpr ⟨g, h, hr⟩
  obtain ⟨r, l, rfl⟩ := head_of_mem_rowsByFile h
  exact ⟨time_of_row (hrows r List.mem_cons_self), hrows⟩

/-- Files of one period are one. -/
theorem nextTp_inj_on (h : data.Sorted) {g g' : ℤ × List (ℤ × List (Option ExtractedValue))}
    (hg : g ∈ rowsByFile p (dataRows data)) (hg' : g' ∈ rowsByFile p (dataRows data))
    (heq : p.getNextTp g.1 = p.getNextTp g'.1) : g = g' := by
  obtain ⟨-, hpair⟩ := next_of_mem_rowsByFile (p := p) h.rows
  have hnodup : ((rowsByFile p (dataRows data)).map fun g => p.getNextTp g.1).Nodup := by
    refine List.pairwise_map.mpr (hpair.imp fun {g g'} hle => ?_)
    have := p.lt_next g'.1
    omega
  exact List.inj_on_of_nodup_map hnodup hg hg' heq

/-- Where each time has a row, the files begin at the first times of the periods. -/
theorem ExtractedValues.Taken.opens_iff (h : data.Taken) (hsorted : data.Sorted) :
    data.Opens p t ↔ ∃ g ∈ rowsByFile p (dataRows data), g.1 = t := by
  obtain ⟨hperiod, -⟩ := next_of_mem_rowsByFile (p := p) hsorted.rows
  have hflat : (rowsByFile p (dataRows data)).flatMap Prod.snd = dataRows data := flatten_rowsByFile
  have hfile : ∀ u, data.Time u → ∃ g ∈ rowsByFile p (dataRows data), g.1 ≤ u ∧ p.getNextTp u = p.getNextTp g.1 := by
    intro u hu
    obtain ⟨r, hr, rfl⟩ := h.exists_row hu
    rw [← hflat] at hr
    obtain ⟨g, hg, hr⟩ := List.mem_flatMap.mp hr
    exact ⟨g, hg, hperiod g hg r hr⟩
  constructor
  · rintro ⟨ht, hfirst⟩
    obtain ⟨g, hg, hle, hnext⟩ := hfile t ht
    exact ⟨g, hg, le_antisymm hle (hfirst _ (time_of_mem_rowsByFile hg).1 hnext.symm)⟩
  · rintro ⟨g, hg, rfl⟩
    refine ⟨(time_of_mem_rowsByFile hg).1, fun u hu hnext => ?_⟩
    obtain ⟨g', hg', hle, hnext'⟩ := hfile u hu
    rw [nextTp_inj_on hsorted hg hg' (hnext.symm.trans hnext')]
    exact hle

end Sorted

/-! ## The files -/

section Files

variable {table : ParameterTable} {props : SearchProperties} {p : TimePeriod} {outPath : Path} {f : FileName}
  {h : List HeaderLine} {data : ExtractedValues} {i : ℕ}

/-- The file of some rows. -/
def textFileOf (p : TimePeriod) (outPath : Path) (f : FileName) (h : List HeaderLine)
    (g : ℤ × List (ℤ × List (Option ExtractedValue))) : Sigma fun _ : Path => TextFile :=
  ⟨outputPath outPath f (roundByTimePeriod p g.1), { header := h, rows := g.2.map textRowOf }⟩

/-- The values in the files, if none is overwritten. -/
theorem flatMap_valuesAt (p : TimePeriod) (outPath : Path) (f : FileName) (h : List HeaderLine) (data : ExtractedValues)
    (i : ℕ) : (((rowsByFile p (dataRows data)).map (textFileOf p outPath f h)).flatMap fun e => valuesAt i e.2.rows) =
      (column i (dataRows data)).map wholeSeconds := by
  have hflat : (rowsByFile p (dataRows data)).flatMap Prod.snd = dataRows data := flatten_rowsByFile
  rw [← valuesAt_map_textRowOf fun r hr v => time_of_mem_dataRows hr, ← hflat, List.map_flatMap, valuesAt,
    List.filterMap_flatMap, hflat, List.flatMap_map]
  rfl

/-- Where the series are in their columns, a column is that of a series. -/
theorem getElem?_getColumns (h : Aligned (data.entries.map Sigma.snd)) (i : ℕ) :
    (getColumns data)[i]?.getD [] = ((data.entries[i]?).map Sigma.snd).getD [] := by
  rw [getColumns, h.getElem?, List.getElem?_map]

/-- The series are in their columns and the rows take all values, if as many are taken there as the series have. -/
theorem taken_of_length_le (hlen : ∀ (i : ℕ) e, data.entries[i]? = some e →
    e.2.length ≤ (column i (dataRows data)).length) : Aligned (data.entries.map Sigma.snd) ∧ data.Taken := by
  have hpre : ∀ i, column i (dataRows data) <+: (getColumns data)[i]?.getD [] := fun i => column_prefix
  have haligned : Aligned (data.entries.map Sigma.snd) := by
    refine aligned_of_length_le fun i => le_trans ?_ (hpre i).length_le
    rw [List.getElem?_map]
    cases he : data.entries[i]? with
    | none => exact Nat.zero_le _
    | some e => exact hlen i e he
  refine ⟨haligned, fun i => (hpre i).eq_of_length_le ?_⟩
  rw [getElem?_getColumns haligned]
  cases he : data.entries[i]? with
  | none => exact Nat.zero_le _
  | some e => exact hlen i e he

/-- Every file has a value of a series. -/
theorem exists_valuesAt {g : ℤ × List (ℤ × List (Option ExtractedValue))} (hg : g ∈ rowsByFile p (dataRows data)) :
    ∃ i < data.entries.length, valuesAt i (textFileOf p outPath f h g).2.rows ≠ [] := by
  obtain ⟨-, hrows⟩ := time_of_mem_rowsByFile hg
  obtain ⟨r, l, rfl⟩ := head_of_mem_rowsByFile hg
  have hr := hrows r List.mem_cons_self
  obtain ⟨v, hv⟩ := exists_cell hr
  obtain ⟨i, hi⟩ := List.getElem?_of_mem hv
  refine ⟨i, ?_, fun hnil => ?_⟩
  · -- a row has no more cells than there are series
    have hlen := length_cells hr
    have hi' := (List.getElem?_eq_some_iff.mp hi).1
    have hfilter : (getColumns data).length ≤ (data.entries.map Sigma.snd).length := List.length_filter_le _ _
    rw [List.length_map] at hfilter
    omega
  · simp only [textFileOf, List.map_cons, valuesAt, List.filterMap_cons, textRowOf, List.getElem?_map, hi,
      Option.map_some, Option.join_some] at hnil
    cases hnil

/-- **What it takes that each value is written once, in its column**: series in their columns, a row for each value,
whole seconds, and files of different names. -/
theorem of_once (honce : ∀ i e, data.entries[i]? = some e →
      ((textFiles p outPath f h ∅ (rowsByFile p (dataRows data))).entries.flatMap
        fun f => valuesAt i f.2.rows).Perm e.2) :
    Aligned (data.entries.map Sigma.snd) ∧ data.Taken ∧ (∀ t, data.Time t → nsPerSecond ∣ t) ∧
      ((rowsByFile p (dataRows data)).map fun g => roundByTimePeriod p g.1).Nodup := by
  obtain ⟨lost, hlost⟩ : ∃ lost, ((textFiles p outPath f h ∅ (rowsByFile p (dataRows data))).entries ++ lost).Perm
      ((rowsByFile p (dataRows data)).map (textFileOf p outPath f h) ++ []) := Dict.exists_lost
  rw [List.append_nil] at hlost
  have hwritten := fun i => hlost.flatMap_right fun e : Sigma fun _ : Path => TextFile => valuesAt i e.2.rows
  simp only [List.flatMap_append, flatMap_valuesAt] at hwritten
  -- the values of a series are as many as are written, and written values as many as are taken
  have hlength : ∀ (i : ℕ) e, data.entries[i]? = some e →
      e.2.length + (lost.flatMap fun e => valuesAt i e.2.rows).length = (column i (dataRows data)).length := by
    intro i e he
    have hperm := (hwritten i).length_eq
    rw [List.length_append, List.length_map, (honce i e he).length_eq] at hperm
    exact hperm
  obtain ⟨haligned, htaken⟩ : Aligned (data.entries.map Sigma.snd) ∧ data.Taken := by
    refine taken_of_length_le fun i e he => ?_
    rw [← hlength i e he]
    exact Nat.le_add_right _ _
  have hcolumn : ∀ (i : ℕ) e, data.entries[i]? = some e → column i (dataRows data) = e.2 := by
    intro i e he
    rw [htaken i, getElem?_getColumns haligned, he]
    rfl
  have hnone : lost = [] := by
    refine List.eq_nil_iff_forall_not_mem.mpr fun e he => ?_
    obtain ⟨g, hg, rfl⟩ := List.mem_map.mp (hlost.subset (List.mem_append_right _ he))
    obtain ⟨i, hi, hne⟩ := exists_valuesAt hg
    have hlen := hlength i _ (List.getElem?_eq_getElem hi)
    rw [hcolumn i _ (List.getElem?_eq_getElem hi)] at hlen
    have hempty : (lost.flatMap fun e => valuesAt i e.2.rows) = [] := List.eq_nil_of_length_eq_zero (by omega)
    exact hne (List.flatMap_eq_nil_iff.mp hempty _ he)
  rw [hnone, List.append_nil] at hlost
  refine ⟨haligned, htaken, ?_, ?_⟩
  · rintro t ⟨e, he, v, hv, rfl⟩
    obtain ⟨i, hi⟩ := List.getElem?_of_mem he
    have hperm := hwritten i
    rw [hnone, List.flatMap_nil, List.append_nil, hcolumn i e hi] at hperm
    exact whole_of_perm (hperm.symm.trans (honce i e hi)) hv
  · have hkeys := (List.perm_nodupKeys hlost).mp (AList.nodupKeys _)
    rw [List.NodupKeys, List.keys, List.map_map] at hkeys
    exact List.pairwise_map.mpr ((List.pairwise_map.mp hkeys).imp fun hne heq => hne (by simp [textFileOf, heq]))

/-- Files of different names are all there. -/
theorem entries_textFiles (hnodup : ((rowsByFile p (dataRows data)).map fun g => roundByTimePeriod p g.1).Nodup) :
    (textFiles p outPath f h ∅ (rowsByFile p (dataRows data))).entries.Perm
      ((rowsByFile p (dataRows data)).map (textFileOf p outPath f h)) := by
  have hpaths : ((rowsByFile p (dataRows data)).map fun g => outputPath outPath f (roundByTimePeriod p g.1)).Nodup :=
    List.pairwise_map.mpr ((List.pairwise_map.mp hnodup).imp fun hne heq => hne (outputPath_inj.mp heq))
  have hperm : (textFiles p outPath f h ∅ (rowsByFile p (dataRows data))).entries.Perm
      ((rowsByFile p (dataRows data)).map (textFileOf p outPath f h) ++ []) :=
    Dict.entries_insertAll hpaths fun g _ => AList.notMem_empty _
  rw [List.append_nil] at hperm
  exact hperm

/-- The rows of the files, at whole seconds. -/
theorem rowAt_textFiles (hwhole : ∀ t, data.Time t → nsPerSecond ∣ t)
    (hnodup : ((rowsByFile p (dataRows data)).map fun g => roundByTimePeriod p g.1).Nodup) {path : Path} {t : ℤ} :
    RowAt (textFiles p outPath f h ∅ (rowsByFile p (dataRows data))) path t ↔ ∃ g ∈ rowsByFile p (dataRows data),
      path = outputPath outPath f (roundByTimePeriod p g.1) ∧ ∃ r ∈ g.2, r.1 = t := by
  have hmem := fun e => (@entries_textFiles p outPath f h data hnodup).mem_iff (a := e)
  have htime : ∀ g ∈ rowsByFile p (dataRows data), ∀ r ∈ g.2, (textRowOf r).time * nsPerSecond = r.1 := by
    intro g hg r hr
    exact Int.tdiv_mul_cancel (hwhole _ (time_of_row ((time_of_mem_rowsByFile hg).2 r hr)))
  constructor
  · rintro ⟨e, he, rfl, row, hrow, rfl⟩
    obtain ⟨g, hg, rfl⟩ := List.mem_map.mp ((hmem e).mp he)
    obtain ⟨r, hr, rfl⟩ := List.mem_map.mp hrow
    exact ⟨g, hg, rfl, r, hr, (htime g hg r hr).symm⟩
  · rintro ⟨g, hg, rfl, r, hr, rfl⟩
    exact ⟨_, (hmem _).mpr (List.mem_map_of_mem hg), rfl, _, List.mem_map_of_mem hr, htime g hg r hr⟩

/-- That is enough. -/
theorem delivers_of (hh : textHeader table props data.keys = .ok h) (hsorted : data.Sorted)
    (haligned : Aligned (data.entries.map Sigma.snd)) (htaken : data.Taken)
    (hwhole : ∀ t, data.Time t → nsPerSecond ∣ t)
    (hnodup : ((rowsByFile p (dataRows data)).map fun g => roundByTimePeriod p g.1).Nodup) :
    Delivers table props p data (textFiles p outPath f h ∅ (rowsByFile p (dataRows data))) := by
  have hentries := @entries_textFiles p outPath f h data hnodup
  obtain ⟨hperiod, -⟩ := next_of_mem_rowsByFile (p := p) hsorted.rows
  refine ⟨fun e he => ?_, fun i e he => ?_, ?_, ?_⟩
  · obtain ⟨g, -, rfl⟩ := List.mem_map.mp (hentries.subset he)
    exact hh
  · refine (hentries.flatMap_right _).trans ?_
    rw [flatMap_valuesAt, htaken i, getElem?_getColumns haligned, he]
    have hwhole' : ∀ v ∈ e.2, wholeSeconds v = v := fun v hv =>
      wholeSeconds_eq_self.mpr (hwhole _ ⟨e, List.mem_of_getElem? he, v, hv, rfl⟩)
    exact List.Perm.of_eq ((List.map_congr_left hwhole').trans (List.map_id' _))
  · intro path t path' t' hrow hrow'
    obtain ⟨g, hg, rfl, r, hr, rfl⟩ := (rowAt_textFiles hwhole hnodup).mp hrow
    obtain ⟨g', hg', rfl, r', hr', rfl⟩ := (rowAt_textFiles hwhole hnodup).mp hrow'
    rw [(hperiod g hg r hr).2, (hperiod g' hg' r' hr').2, outputPath_inj]
    constructor
    · intro heq
      rw [List.inj_on_of_nodup_map hnodup hg hg' heq]
    · intro heq
      rw [nextTp_inj_on hsorted hg hg' heq]
  · intro path t hrow
    obtain ⟨g, hg, rfl, r, hr, rfl⟩ := (rowAt_textFiles hwhole hnodup).mp hrow
    exact ⟨g.1, (hperiod g hg r hr).2.symm, by simp [outputPath]⟩

end Files

/-! ## Any series -/

/-- What the text files need of a data set, and of how it is written. -/
@[mk_iff]
structure ExtractedValues.Deliverable (table : ParameterTable) (stop : ℕ → Bool) (props : SearchProperties)
    (p : TimePeriod) (outPath : Path) (data : ExtractedValues) : Prop where
  names : props.Names
  headed : ∀ k ∈ data.keys, k.Headed table
  /-- no stop is asked for -/
  running : ∀ row < maxLength data, stop row = false
  aligned : Aligned (data.entries.map Sigma.snd)
  /-- one series has every time of every other, as often -/
  everyTime : ∃ e ∈ data.entries, ∀ e' ∈ data.entries,
    (e'.2.map ExtractedValue.timeDate).Subperm (e.2.map ExtractedValue.timeDate)
  whole : ∀ t, data.Time t → nsPerSecond ∣ t
  /-- files have different names -/
  apart : ∀ t u, data.Opens p t → data.Opens p u → roundByTimePeriod p t = roundByTimePeriod p u → t = u
  beside : outPath.absolute = true ∨ ∀ t u, data.Time t → data.Time u → p.getNextTp t = p.getNextTp u

/-- The series, as the writers sort them. -/
abbrev ExtractedValues.sortedBy (sort : SortByTime) (data : ExtractedValues) : ExtractedValues :=
  data.mapValues sort.sort

section Any

variable {table : ParameterTable} {stop : ℕ → Bool} {props : SearchProperties} {p : TimePeriod} {outPath : Path}
  {sort : SortByTime} {data : ExtractedValues} {t : ℤ}

theorem sorted_sortedBy : (data.sortedBy sort).Sorted := by
  intro e he
  obtain ⟨e, -, rfl⟩ := List.mem_map.mp he
  exact sort.sorted e.2

theorem keys_sortedBy : (data.sortedBy sort).keys = data.keys := by
  simp [Dict.mapValues, AList.keys, List.keys, Function.comp_def]

theorem time_sortedBy : (data.sortedBy sort).Time t ↔ data.Time t := by
  simp [ExtractedValues.Time, Dict.mapValues, (sort.perm _).mem_iff]

theorem opens_sortedBy : (data.sortedBy sort).Opens p t ↔ data.Opens p t := by
  simp only [ExtractedValues.Opens, time_sortedBy]

theorem maxLength_sortedBy : maxLength (data.sortedBy sort) = maxLength data := by
  simp only [maxLength, Dict.mapValues, List.map_map, Function.comp_def, (sort.perm _).length_eq]

theorem sort_eq_nil {l : List ExtractedValue} : sort.sort l = [] ↔ l = [] := by
  rw [← List.length_eq_zero_iff, (sort.perm l).length_eq, List.length_eq_zero_iff]

theorem aligned_sortedBy : Aligned ((data.sortedBy sort).entries.map Sigma.snd) ↔
    Aligned (data.entries.map Sigma.snd) := by
  simp only [Aligned, Dict.mapValues, List.map_map, List.pairwise_map, Function.comp_def, sort_eq_nil]

theorem everyTime_sortedBy : (∃ e ∈ (data.sortedBy sort).entries, ∀ e' ∈ (data.sortedBy sort).entries,
      (e'.2.map ExtractedValue.timeDate).Subperm (e.2.map ExtractedValue.timeDate)) ↔
    ∃ e ∈ data.entries, ∀ e' ∈ data.entries,
      (e'.2.map ExtractedValue.timeDate).Subperm (e.2.map ExtractedValue.timeDate) := by
  have hperm : ∀ l : List ExtractedValue,
      ((sort.sort l).map ExtractedValue.timeDate).Perm (l.map ExtractedValue.timeDate) := fun l => (sort.perm l).map _
  simp only [Dict.mapValues, List.mem_map, exists_exists_and_eq_and, forall_exists_index, and_imp,
    forall_apply_eq_imp_iff₂, (hperm _).subperm_left, (hperm _).subperm_right]

/-- The order in which values came does not matter. -/
theorem deliverable_sortedBy : (data.sortedBy sort).Deliverable table stop props p outPath ↔
    data.Deliverable table stop props p outPath := by
  simp only [ExtractedValues.deliverable_iff, keys_sortedBy, time_sortedBy, opens_sortedBy, maxLength_sortedBy,
    aligned_sortedBy, everyTime_sortedBy]

theorem delivers_sortedBy {files : Files TextFile} :
    Delivers table props p (data.sortedBy sort) files ↔ Delivers table props p data files := by
  have honce : ∀ {i : ℕ} {l : List ExtractedValue},
      (∀ e, (data.sortedBy sort).entries[i]? = some e → l.Perm e.2) ↔
        ∀ e, data.entries[i]? = some e → l.Perm e.2 := by
    intro i l
    simp only [Dict.mapValues, List.getElem?_map]
    cases data.entries[i]? with
    | none => simp
    | some e => simp [(sort.perm e.2).congr_right]
  constructor
  · intro h
    exact ⟨by simpa only [keys_sortedBy] using h.headed, fun i => honce.mp (h.once i), h.periods, h.named⟩
  · intro h
    exact ⟨by simpa only [keys_sortedBy] using h.headed, fun i => honce.mpr (h.once i), h.periods, h.named⟩

/-- There is nothing to write where there is no value. -/
theorem getColumns_eq_nil : getColumns (data.sortedBy sort) = [] ↔ ∀ t, ¬ data.Time t := by
  constructor
  · rintro h t ⟨e, he, v, hv, -⟩
    have hmem : sort.sort e.2 ∈ getColumns (data.sortedBy sort) := by
      refine mem_getColumns.mpr ⟨fun hnil => ?_, e.1, List.mem_map_of_mem he⟩
      rw [sort_eq_nil.mp hnil] at hv
      cases hv
    rw [h] at hmem
    cases hmem
  · intro h
    refine List.eq_nil_iff_forall_not_mem.mpr fun c hc => ?_
    obtain ⟨hne, k, he⟩ := mem_getColumns.mp hc
    obtain ⟨v, hv⟩ := List.exists_mem_of_ne_nil _ hne
    exact h _ (time_sortedBy.mp ⟨_, he, v, hv, rfl⟩)

end Any

/-! ## Delivery -/

section Delivered

variable {table : ParameterTable} {stop : ℕ → Bool} {props : SearchProperties} {p : TimePeriod} {outPath : Path}
  {sort : SortByTime} {data : ExtractedValues} {f : FileName} {h : List HeaderLine}

theorem deliverable_of_once (hsorted : data.Sorted) (hcols : getColumns data ≠ [])
    (hf : ∀ period, generateFilename .txt props period = .ok { f with period })
    (hh : textHeader table props data.keys = .ok h) (hstop : ∀ k < maxLength data, stop k = false)
    (hbeside : outPath.absolute = true ∨ (rowsByFile p (dataRows data)).length ≤ 1)
    (honce : ∀ i e, data.entries[i]? = some e →
      ((textFiles p outPath f h ∅ (rowsByFile p (dataRows data))).entries.flatMap fun f => valuesAt i f.2.rows).Perm
        e.2) :
    data.Deliverable table stop props p outPath := by
  obtain ⟨haligned, htaken, hwhole, hnodup⟩ := of_once honce
  have hnames := names_of_generateFilename (hf (.days 0))
  refine ⟨hnames, (textHeader_ok_iff hnames).mp ⟨h, hh⟩, hstop, haligned, (taken_iff hsorted hcols).mp htaken, hwhole,
    ?_, hbeside.imp_right ?_⟩
  · intro t u ht hu hround
    obtain ⟨g, hg, rfl⟩ := (htaken.opens_iff hsorted).mp ht
    obtain ⟨g', hg', rfl⟩ := (htaken.opens_iff hsorted).mp hu
    rw [List.inj_on_of_nodup_map hnodup hg hg' hround]
  · intro hlength t u ht hu
    obtain ⟨hperiod, -⟩ := next_of_mem_rowsByFile (p := p) hsorted.rows
    have hflat : (rowsByFile p (dataRows data)).flatMap Prod.snd = dataRows data := flatten_rowsByFile
    obtain ⟨r, hr, rfl⟩ := htaken.exists_row ht
    obtain ⟨r', hr', rfl⟩ := htaken.exists_row hu
    rw [← hflat] at hr hr'
    obtain ⟨g, hg, hr⟩ := List.mem_flatMap.mp hr
    obtain ⟨g', hg', hr'⟩ := List.mem_flatMap.mp hr'
    rw [(hperiod g hg r hr).2, (hperiod g' hg' r' hr').2]
    match hgs : rowsByFile p (dataRows data) with
    | [] =>
      rw [hgs] at hg
      cases hg
    | [_] =>
      rw [hgs] at hg hg'
      rw [List.mem_singleton.mp hg, List.mem_singleton.mp hg']
    | _ :: _ :: _ =>
      rw [hgs] at hlength
      exact absurd (Nat.le_of_succ_le_succ hlength) (Nat.not_succ_le_zero _)

theorem delivers_of_deliverable (hd : data.Deliverable table stop props p outPath) (hsorted : data.Sorted)
    (hcols : getColumns data ≠ []) (hh : textHeader table props data.keys = .ok h) :
    (outPath.absolute = true ∨ (rowsByFile p (dataRows data)).length ≤ 1) ∧
      Delivers table props p data (textFiles p outPath f h ∅ (rowsByFile p (dataRows data))) := by
  have htaken := (taken_iff hsorted hcols).mpr hd.everyTime
  obtain ⟨-, hpair⟩ := next_of_mem_rowsByFile (p := p) hsorted.rows
  refine ⟨hd.beside.imp_right fun hone => ?_, delivers_of hh hsorted hd.aligned htaken hd.whole ?_⟩
  · -- a second file would be of another period
    match hgs : rowsByFile p (dataRows data) with
    | [] => exact Nat.zero_le 1
    | [_] => exact le_refl 1
    | g :: g' :: gs =>
      rw [hgs] at hpair
      have hle := (List.pairwise_cons.mp hpair).1 g' List.mem_cons_self
      have hg : g ∈ rowsByFile p (dataRows data) := by simp [hgs]
      have hg' : g' ∈ rowsByFile p (dataRows data) := by simp [hgs]
      have heq := hone _ _ (time_of_mem_rowsByFile hg).1 (time_of_mem_rowsByFile hg').1
      have := p.lt_next g'.1
      omega
  · refine List.pairwise_map.mpr (hpair.imp_of_mem fun {g g'} hg hg' hle hround => ?_)
    have heq := hd.apart g.1 g'.1 ((htaken.opens_iff hsorted).mpr ⟨g, hg, rfl⟩)
      ((htaken.opens_iff hsorted).mpr ⟨g', hg', rfl⟩) hround
    have := p.lt_next g.1
    omega

/-- The files of a data set that can be delivered. -/
theorem exists_files (hd : (data.sortedBy sort).Deliverable table stop props p outPath)
    (hcols : getColumns (data.sortedBy sort) ≠ []) : ∃ f h,
      writeTxtFile table stop props p outPath sort data =
        .ok (textFiles p outPath f h ∅ (rowsByFile p (dataRows (data.sortedBy sort)))) ∧
      Delivers table props p (data.sortedBy sort)
        (textFiles p outPath f h ∅ (rowsByFile p (dataRows (data.sortedBy sort)))) := by
  obtain ⟨f, hf⟩ := generateFilename_of_names hd.names .txt
  obtain ⟨h, hh⟩ := (textHeader_ok_iff hd.names).mpr hd.headed
  obtain ⟨hbeside, hdelivers⟩ := delivers_of_deliverable hd sorted_sortedBy hcols hh
  exact ⟨f, h, writeTxtFile_iff.mpr (.inr ⟨hcols, f, h, hf, hh, hd.running, hbeside, rfl⟩), hdelivers⟩

/-- **The text files deliver the data exactly where there is no value, or: the files can be named and headed, nothing
asks to stop, no empty series stands before another, one series has every time of every other, all times are whole
seconds, and the files of the periods have different names, and lie beside each other.** -/
theorem delivered_iff_deliverable (table : ParameterTable) (stop : ℕ → Bool) (props : SearchProperties) (p : TimePeriod)
    (outPath : Path) (sort : SortByTime) (data : ExtractedValues) :
    (∃ files, writeTxtFile table stop props p outPath sort data = .ok files ∧ Delivers table props p data files) ↔
      (∀ t, ¬ data.Time t) ∨ data.Deliverable table stop props p outPath := by
  have hsorted : (data.sortedBy sort).Sorted := sorted_sortedBy
  rw [← @deliverable_sortedBy table stop props p outPath sort data, ← @getColumns_eq_nil sort data]
  refine (exists_congr fun files => and_congr_right' (@delivers_sortedBy table props p sort data files).symm).trans ?_
  constructor
  · rintro ⟨files, hok, hd⟩
    rcases writeTxtFile_iff.mp hok with ⟨hcols, -⟩ | ⟨hcols, f, h, hf, hh, hstop, hbeside, rfl⟩
    · exact .inl hcols
    · exact .inr (deliverable_of_once hsorted hcols hf hh hstop hbeside hd.once)
  · intro hor
    by_cases hcols : getColumns (data.sortedBy sort) = []
    · refine ⟨∅, writeTxtFile_iff.mpr (.inl ⟨hcols, rfl⟩), ?_⟩
      have hempty := getColumns_eq_nil.mp hcols
      refine ⟨by simp, fun i e he => ?_, ?_, ?_⟩
      · have hnil : e.2 = [] := by
          refine List.eq_nil_iff_forall_not_mem.mpr fun v hv => ?_
          exact hempty _ (time_sortedBy.mp ⟨e, List.mem_of_getElem? he, v, hv, rfl⟩)
        rw [hnil]
        exact List.Perm.refl _
      · rintro path t path' t' ⟨e, he, -⟩
        cases he
      · rintro path t ⟨e, he, -⟩
        cases he
    · obtain ⟨f, h, hok, hd⟩ := exists_files (hor.resolve_left hcols) hcols
      exact ⟨_, hok, hd⟩

end Delivered

/-! ## A row that is lost -/

/-- Two series, each with a value at a time of its own. -/
def interleavedValues : ExtractedValues :=
  AList.insert (seriesAt 246) [⟨0, 1⟩] (AList.insert (seriesAt 247) [⟨nsPerSecond, 2⟩] ∅)

theorem headed_interleavedValues : ∀ k ∈ interleavedValues.keys, k.Headed windTable := by
  have hkeys : interleavedValues.keys = [seriesAt 246, seriesAt 247] := rfl
  intro k hk
  rw [hkeys] at hk
  simp only [List.mem_cons, List.not_mem_nil, or_false] at hk
  rcases hk with rfl | rfl
  · exact ⟨98, 228, 246, ['1', '0', '0', 'u'], rfl, rfl, by decide⟩
  · exact ⟨98, 228, 247, ['1', '0', '0', 'v'], rfl, rfl, by decide⟩

/-- There is one row, for the value of one of the series. -/
theorem row_lost : ∃ files,
    writeTxtFile windTable (fun _ => false) searchedProps .day ⟨true, []⟩ .insertion interleavedValues = .ok files ∧
      ¬ Delivers windTable searchedProps .day interleavedValues files := by
  have hnames : searchedProps.Names := ⟨rfl, rfl, rfl⟩
  obtain ⟨f, hf⟩ := generateFilename_of_names hnames .txt
  obtain ⟨h, hh⟩ := (textHeader_ok_iff hnames).mpr headed_interleavedValues
  refine ⟨_, writeTxtFile_iff.mpr (.inr ⟨by decide, f, h, hf, hh, fun _ _ => rfl, .inl rfl, rfl⟩), fun hd => ?_⟩
  obtain ⟨-, htaken, -⟩ := of_once ((@delivers_sortedBy _ _ _ .insertion _ _).mpr hd).once
  exact absurd (htaken 1) (by decide)

end Mashroom
