import Mashroom.Proc.Delivered
import Mashroom.Proc.ReadText

/-!
# Proc.Restored — when the text files are read back as they were written

Beyond what the files must deliver, each series needs a value, since a series without one has no column; its centre
must be the one searched for, which the header names instead; and its forecast must have nothing that the lines of its
kind do not tell, or that is read wrong: a period in two octets.
-/

namespace Mashroom

open Rows

/-! ## Properties that are read as they are -/

/-- A forecast whose lines tell all of it. -/
structure TimeForecast.Plain (t : TimeForecast) : Prop where
  counts : ¬ t.isIntervaled → t.N = 65535 ∧ t.NAvgAccMissed = 0
  doubled : t.octetDoubled → t.P1 = 0
  unique : t.octetDoubled ∨ t.isUniqueValue → t.P2 = 0

/-- The header tells all of the properties of a series. -/
structure ExtractDataProperties.Restorable (props : SearchProperties) (k : ExtractDataProperties) : Prop where
  center : k.cmn.center = props.center
  fcst : k.add.fcst.Plain

section Reread

variable {t : TimeForecast} {k : ExtractDataProperties} {props : SearchProperties} {searched : TableCode}

/-- Of a number that was shifted to the second octet, the first has nothing. -/
theorem shifted_and (n : ℕ) : (n <<< 8 ||| 0) % 2 ^ 16 &&& 127 = 0 := by
  rw [Nat.or_zero, Nat.shiftLeft_eq, show 127 = 2 ^ 7 - 1 from rfl, Nat.and_two_pow_sub_one_eq_mod]
  omega

theorem TimeForecast.reread_eq_self : t.reread = t ↔ t.Plain := by
  constructor
  · intro h
    have hP2 : t.octetDoubled ∨ t.isUniqueValue → t.P2 = 0 := by
      intro hu
      rw [← h]
      exact if_pos hu
    refine ⟨fun hint => ?_, fun hd => ?_, hP2⟩
    · have hN : t.N = 65535 := by
        rw [← h]
        exact if_neg hint
      have hmissed : t.NAvgAccMissed = 0 := by
        rw [← h]
        exact if_neg hint
      exact ⟨hN, hmissed⟩
    · have hP1 : t.P1 = (t.P1 <<< 8 ||| t.P2) % 2 ^ 16 &&& 127 := by
        have heq := congrArg TimeForecast.P1 h
        simp only [reread, if_pos hd] at heq
        exact heq.symm
      rw [hP1, hP2 (.inl hd), shifted_and]
  · rintro ⟨hcounts, hdoubled, hunique⟩
    have hN : (if t.isIntervaled then t.N else 65535) = t.N := by
      split
      · rfl
      · exact (hcounts ‹_›).1.symm
    have hmissed : (if t.isIntervaled then t.NAvgAccMissed else 0) = t.NAvgAccMissed := by
      split
      · rfl
      · exact (hcounts ‹_›).2.symm
    have hP2 : (if t.octetDoubled ∨ t.isUniqueValue then 0 else t.P2) = t.P2 := by
      split
      · exact (hunique ‹_›).symm
      · rfl
    have hP1 : (if t.octetDoubled then (t.P1 <<< 8 ||| t.P2) % 2 ^ 16 &&& 127 else t.P1) = t.P1 := by
      split
      · rw [hdoubled ‹_›, hunique (.inl ‹_›)]
        rfl
      · rfl
    rw [reread, hN, hmissed, hP1, hP2]

/-- What was read twice is plain. -/
theorem TimeForecast.plain_reread_reread : t.reread.reread.Plain where
  counts hint := ⟨if_neg hint, if_neg hint⟩
  doubled hd := by
    have hd' : t.octetDoubled := hd
    have hP2 : t.reread.P2 = 0 := if_pos (.inl hd')
    have hP1 : t.reread.reread.P1 = (t.reread.P1 <<< 8 ||| t.reread.P2) % 2 ^ 16 &&& 127 := if_pos hd'
    rw [hP1, hP2, shifted_and]
  unique hu := if_pos hu

theorem ExtractDataProperties.reread_reread_reread :
    ((k.reread searched).reread searched).reread searched = (k.reread searched).reread searched := by
  have hfcst : k.add.fcst.reread.reread.reread = k.add.fcst.reread.reread :=
    TimeForecast.reread_eq_self.mpr TimeForecast.plain_reread_reread
  simp only [reread, hfcst]

theorem ExtractDataProperties.reread_eq_self (h : props.center = some searched) :
    k.reread searched = k ↔ k.Restorable props := by
  constructor
  · intro heq
    have hcenter := congrArg (fun k => k.cmn.center) heq
    have hfcst := congrArg (fun k => k.add.fcst) heq
    exact ⟨by rw [h]; exact hcenter.symm, TimeForecast.reread_eq_self.mp hfcst⟩
  · rintro ⟨hcenter, hfcst⟩
    have hfcst := TimeForecast.reread_eq_self.mpr hfcst
    obtain ⟨⟨fcst, level⟩, ⟨center, tableVersion, parameter⟩⟩ := k
    simp only [reread, hfcst]
    rw [← h, ← hcenter]

/-- Properties that are all read from some of them are read as they are. -/
theorem reread_of_subset {keys : List ExtractDataProperties}
    (h : keys ⊆ keys.map (ExtractDataProperties.reread searched)) : ∀ k ∈ keys, k.reread searched = k := by
  intro k hk
  obtain ⟨k₁, hk₁, rfl⟩ := List.mem_map.mp (h hk)
  obtain ⟨k₂, -, rfl⟩ := List.mem_map.mp (h hk₁)
  exact ExtractDataProperties.reread_reread_reread

end Reread

/-! ## What is read -/

/-- What was read, together, is the data: its series, each with its values. -/
structure Restores (data : ExtractedValues) (reads : List ExtractedValues) : Prop where
  series : ∀ k, k ∈ data ↔ ∃ r ∈ reads, k ∈ r
  values : ∀ k, (reads.flatMap fun r => r.get k).Perm (data.get k)

/-- `read_txt_file` on every file. -/
def readAll (table : ParameterTable) (text : ValueText) (files : Files TextFile) :
    Except Fault (List ExtractedValues) :=
  files.entries.mapM fun f => readTxtFile table text (f.2.lines text)

/-- The values of rows, under the properties of their columns. -/
def rowsRead (keys : List ExtractDataProperties) (rows : List TextRow) : ExtractedValues :=
  Dict.pushAll ∅ (rows.flatMap (rowPairs keys))

section Read

variable {keys : List ExtractDataProperties} {rows : List TextRow} {r : TextRow} {k : ExtractDataProperties} {i : ℕ}

theorem mem_rowsRead : k ∈ rowsRead keys rows ↔ ∃ r ∈ rows, k ∈ (rowPairs keys r).map Prod.fst := by
  rw [rowsRead, Dict.mem_pushAll, List.map_flatMap, List.mem_flatMap]
  exact or_iff_right (AList.notMem_empty k)

theorem mem_keys_of_rowPairs (h : k ∈ (rowPairs keys r).map Prod.fst) : k ∈ keys := by
  obtain ⟨e, he, rfl⟩ := List.mem_map.mp h
  obtain ⟨kc, hkc, he⟩ := List.mem_filterMap.mp he
  obtain ⟨v, -, rfl⟩ := Option.map_eq_some_iff.mp he
  exact (List.of_mem_zip hkc).1

theorem valuesAt_cons : valuesAt i (r :: rows) =
    (r.cells[i]?.join.map fun value => ({ timeDate := r.time * nsPerSecond, value } : ExtractedValue)).toList ++
      valuesAt i rows := by
  simp only [valuesAt, List.filterMap_cons]
  cases r.cells[i]?.join <;> rfl

/-- The value of a row under the properties of a column is the one in the column. -/
theorem filter_rowPairs (hkeys : keys.Nodup) (hi : keys[i]? = some k) :
    ((rowPairs keys r).filter fun e => e.1 = k).map Prod.snd =
      (r.cells[i]?.join.map fun value => ({ timeDate := r.time * nsPerSecond, value } : ExtractedValue)).toList := by
  obtain ⟨time, cells⟩ := r
  induction keys generalizing i cells with
  | nil => cases hi
  | cons k₀ keys ih =>
    obtain ⟨hk₀, hkeys⟩ := List.nodup_cons.mp hkeys
    cases cells with
    | nil => rfl
    | cons c cells =>
      have hcons : rowPairs (k₀ :: keys) ⟨time, c :: cells⟩ =
          (c.map fun value => (k₀, ({ timeDate := time * nsPerSecond, value } : ExtractedValue))).toList ++
            rowPairs keys ⟨time, cells⟩ := by
        simp only [rowPairs, List.zip_cons_cons, List.filterMap_cons]
        cases c <;> rfl
      rw [hcons, List.filter_append, List.map_append]
      cases i with
      | zero =>
        obtain rfl : k₀ = k := Option.some.inj hi
        have hnone : (rowPairs keys ⟨time, cells⟩).filter (fun e => e.1 = k₀) = [] := by
          refine List.filter_eq_nil_iff.mpr fun e he heq => hk₀ ?_
          rw [← of_decide_eq_true heq]
          exact mem_keys_of_rowPairs (List.mem_map_of_mem he)
        rw [hnone, List.map_nil, List.append_nil]
        cases c <;> simp
      | succ i =>
        have hmem : k ∈ keys := List.mem_of_getElem? hi
        have hne : k₀ ≠ k := by
          rintro rfl
          exact hk₀ hmem
        rw [ih hkeys hi]
        cases c <;> simp [hne]

/-- Under the properties of a column what is read is what stands in it. -/
theorem get_rowsRead (hkeys : keys.Nodup) (hi : keys[i]? = some k) : (rowsRead keys rows).get k = valuesAt i rows := by
  rw [rowsRead, Dict.get_pushAll, show Dict.get (∅ : ExtractedValues) k = [] from rfl, List.nil_append]
  induction rows with
  | nil => rfl
  | cons r rows ih =>
    rw [List.flatMap_cons, List.filter_append, List.map_append, ih, filter_rowPairs hkeys hi, valuesAt_cons]

end Read

/-! ## What was written, read -/

section Written

variable {table : ParameterTable} {text : ValueText} {stop : ℕ → Bool} {props : SearchProperties} {p : TimePeriod}
  {outPath : Path} {sort : SortByTime} {data : ExtractedValues} {f : FileName} {h : List HeaderLine}
  {searched : TableCode} {reads : List ExtractedValues}

/-- The files have the header, and a cell in each row for each series that is not empty. -/
theorem of_mem_textFiles {e : Sigma fun _ : Path => TextFile}
    (he : e ∈ (textFiles p outPath f h ∅ (rowsByFile p (dataRows data))).entries) :
    e.2.header = h ∧ ∀ row ∈ e.2.rows, row.cells.length = (getColumns data).length := by
  obtain ⟨lost, hlost⟩ : ∃ lost, ((textFiles p outPath f h ∅ (rowsByFile p (dataRows data))).entries ++ lost).Perm
      ((rowsByFile p (dataRows data)).map (textFileOf p outPath f h) ++ []) := Dict.exists_lost
  rw [List.append_nil] at hlost
  obtain ⟨g, hg, rfl⟩ := List.mem_map.mp (hlost.subset (List.mem_append_left _ he))
  refine ⟨rfl, fun row hrow => ?_⟩
  obtain ⟨r, hr, rfl⟩ := List.mem_map.mp hrow
  exact (List.length_map _).trans (length_cells ((time_of_mem_rowsByFile hg).2 r hr))

/-- A column for each series means that none is empty. -/
theorem length_le_getColumns : data.keys.length ≤ (getColumns data).length ↔ ∀ e ∈ data.entries, e.2 ≠ [] := by
  have hkeys : data.keys.length = (data.entries.map Sigma.snd).length := by
    rw [AList.keys, List.keys, List.length_map, List.length_map]
  have hle : (getColumns data).length ≤ (data.entries.map Sigma.snd).length := List.length_filter_le _ _
  have heq : (getColumns data).length = (data.entries.map Sigma.snd).length ↔
      ∀ c ∈ data.entries.map Sigma.snd, decide (c ≠ []) = true := List.length_filter_eq_length_iff
  rw [hkeys, hle.ge_iff_eq, heq]
  simp only [List.forall_mem_map, decide_eq_true_eq]

/-- The keys of sorted series, by position. -/
theorem getElem?_keys {i : ℕ} {e : Sigma fun _ : ExtractDataProperties => List ExtractedValue}
    (h : data.entries[i]? = some e) : data.keys[i]? = some e.1 := by
  rw [AList.keys, List.keys, List.getElem?_map, h]
  rfl

/-- Each file, if it is read, is read by its rows. -/
theorem of_readAll (hfits : HeaderFits props data.keys) (hprops : props.center = some searched)
    (hh : textHeader table props data.keys = .ok h)
    (hread : readAll table text (textFiles p outPath f h ∅ (rowsByFile p (dataRows data))) = .ok reads) :
    reads = (textFiles p outPath f h ∅ (rowsByFile p (dataRows data))).entries.map (fun e =>
      rowsRead (data.keys.map (ExtractDataProperties.reread searched)) e.2.rows) ∧
    ∀ e ∈ (textFiles p outPath f h ∅ (rowsByFile p (dataRows data))).entries, ∀ row ∈ e.2.rows,
      data.keys.length ≤ row.cells.length := by
  have hfile : ∀ e ∈ (textFiles p outPath f h ∅ (rowsByFile p (dataRows data))).entries, ∀ r,
      readTxtFile table text (e.2.lines text) = .ok r → (∀ row ∈ e.2.rows, data.keys.length ≤ row.cells.length) ∧
        r = rowsRead (data.keys.map (ExtractDataProperties.reread searched)) e.2.rows := by
    intro e he r hr
    obtain ⟨hheader, -⟩ := of_mem_textFiles he
    exact of_readTxtFile hfits hprops (by rw [hheader]; exact hh) hr
  refine ⟨eq_map_of_mapM hread fun e he r hr => (hfile e he r hr).2, fun e he => ?_⟩
  obtain ⟨r, hr⟩ := mapM_ok_iff.mp ⟨reads, hread⟩ e he
  exact (hfile e he r hr).1

/-- Where the files are read as the data, the series are not empty, and their properties are read as they are. -/
theorem of_restores (hfits : HeaderFits props data.keys) (hprops : props.center = some searched)
    (hh : textHeader table props data.keys = .ok h) (hentries : data.entries ≠ [])
    (hread : readAll table text (textFiles p outPath f h ∅ (rowsByFile p (dataRows data))) = .ok reads)
    (hrest : Restores data reads) : (∀ e ∈ data.entries, e.2 ≠ []) ∧ ∀ k ∈ data.keys, k.reread searched = k := by
  obtain ⟨hreads, hcells⟩ := of_readAll hfits hprops hh hread
  -- each series is under the properties of a column of a row
  have hrow : ∀ k ∈ data.keys, ∃ e ∈ (textFiles p outPath f h ∅ (rowsByFile p (dataRows data))).entries,
      ∃ row ∈ e.2.rows, k ∈ data.keys.map (ExtractDataProperties.reread searched) := by
    intro k hk
    obtain ⟨r, hr, hkr⟩ := (hrest.series k).mp (AList.mem_keys.mpr hk)
    rw [hreads] at hr
    obtain ⟨e, he, rfl⟩ := List.mem_map.mp hr
    obtain ⟨row, hrow, hpair⟩ := mem_rowsRead.mp hkr
    exact ⟨e, he, row, hrow, mem_keys_of_rowPairs hpair⟩
  refine ⟨?_, reread_of_subset fun k hk => ?_⟩
  · obtain ⟨e₀, he₀⟩ := List.exists_mem_of_ne_nil _ hentries
    obtain ⟨e, he, row, hrow, -⟩ := hrow e₀.1 (List.mem_keys_of_mem he₀)
    have hlength := hcells e he row hrow
    rw [(of_mem_textFiles he).2 row hrow] at hlength
    exact length_le_getColumns.mp hlength
  · obtain ⟨-, -, -, -, hmem⟩ := hrow k hk
    exact hmem

/-- What is read of the files under the properties of a series is what stands in its column. -/
theorem flatMap_get {files : Files TextFile} {i : ℕ} {e : Sigma fun _ : ExtractDataProperties => List ExtractedValue}
    (hi : data.entries[i]? = some e) :
    ((files.entries.map fun f => rowsRead data.keys f.2.rows).flatMap fun r => r.get e.1) =
      files.entries.flatMap fun f => valuesAt i f.2.rows := by
  rw [List.flatMap_map]
  exact congrArg (files.entries.flatMap ·) (funext fun f => get_rowsRead data.nodupKeys (getElem?_keys hi))

/-- Files that deliver the data, read by their rows, restore it. -/
theorem restores_of_delivers {files : Files TextFile} (hd : Delivers table props p data files)
    (hne : ∀ e ∈ data.entries, e.2 ≠ []) :
    Restores data (files.entries.map fun f => rowsRead data.keys f.2.rows) := by
  have hseries : ∀ k, k ∈ data ↔ ∃ r ∈ files.entries.map fun f => rowsRead data.keys f.2.rows, k ∈ r := by
    intro k
    constructor
    · intro hk
      obtain ⟨i, hi⟩ := List.getElem?_of_mem (Dict.entry_of_mem hk)
      have hperm := hd.once i _ hi
      rw [← flatMap_get hi] at hperm
      obtain ⟨v, hv⟩ := List.exists_mem_of_ne_nil _ (hne _ (List.mem_of_getElem? hi))
      obtain ⟨r, hr, hv⟩ := List.mem_flatMap.mp (hperm.mem_iff.mpr hv)
      refine ⟨r, hr, ?_⟩
      by_contra hkr
      rw [Dict.get_of_notMem hkr] at hv
      cases hv
    · rintro ⟨r, hr, hkr⟩
      obtain ⟨f, -, rfl⟩ := List.mem_map.mp hr
      obtain ⟨row, -, hpair⟩ := mem_rowsRead.mp hkr
      exact AList.mem_keys.mpr (mem_keys_of_rowPairs hpair)
  refine ⟨hseries, fun k => ?_⟩
  by_cases hk : k ∈ data
  · obtain ⟨i, hi⟩ := List.getElem?_of_mem (Dict.entry_of_mem hk)
    rw [flatMap_get hi]
    exact hd.once i _ hi
  · have hnil : ∀ r ∈ files.entries.map (fun f => rowsRead data.keys f.2.rows), r.get k = [] :=
      fun r hr => Dict.get_of_notMem fun hkr => hk ((hseries k).mpr ⟨r, hr, hkr⟩)
    rw [List.flatMap_eq_nil_iff.mpr hnil, Dict.get_of_notMem hk]
    exact List.Perm.refl _

theorem restores_sortedBy : Restores (data.sortedBy sort) reads ↔ Restores data reads := by
  have hget : ∀ k, (Dict.get (data.sortedBy sort) k).Perm (data.get k) := by
    intro k
    rw [Dict.get_mapValues (sort_eq_nil.mpr rfl)]
    exact sort.perm _
  constructor
  · rintro ⟨hseries, hvalues⟩
    exact ⟨fun k => Dict.mem_mapValues.symm.trans (hseries k), fun k => (hvalues k).trans (hget k)⟩
  · rintro ⟨hseries, hvalues⟩
    exact ⟨fun k => Dict.mem_mapValues.trans (hseries k), fun k => (hvalues k).trans (hget k).symm⟩

theorem entries_sortedBy_eq_nil : (data.sortedBy sort).entries = [] ↔ data.entries = [] := List.map_eq_nil_iff

theorem nonempty_sortedBy : (∀ e ∈ (data.sortedBy sort).entries, e.2 ≠ []) ↔ ∀ e ∈ data.entries, e.2 ≠ [] := by
  simp only [Dict.mapValues, List.forall_mem_map, ne_eq, sort_eq_nil]

/-- Where the files are read as the data, the data is one that can be delivered, and read. -/
theorem restorable_of_restores (hfits : HeaderFits props data.keys) (hentries : data.entries ≠ [])
    {files : Files TextFile} (hok : writeTxtFile table stop props p outPath sort data = .ok files)
    (hread : readAll table text files = .ok reads) (hrest : Restores data reads) :
    (∀ e ∈ data.entries, e.2 ≠ []) ∧ data.Deliverable table stop props p outPath ∧
      ∀ k ∈ data.keys, k.Restorable props := by
  rw [← @keys_sortedBy sort data] at hfits ⊢
  rw [← @restores_sortedBy sort data] at hrest
  rw [ne_eq, ← @entries_sortedBy_eq_nil sort data] at hentries
  rw [← @nonempty_sortedBy sort data, ← @deliverable_sortedBy table stop props p outPath sort data]
  rcases writeTxtFile_iff.mp hok with ⟨-, rfl⟩ | ⟨hcols, f, h, hf, hh, hstop, hbeside, rfl⟩
  · -- nothing was written
    obtain ⟨e, he⟩ := List.exists_mem_of_ne_nil _ hentries
    cases hread
    obtain ⟨r, hr, -⟩ := (hrest.series e.1).mp (AList.mem_keys.mpr (List.mem_keys_of_mem he))
    cases hr
  · obtain ⟨searched, hprops⟩ := Option.isSome_iff_exists.mp (names_of_generateFilename (hf (.days 0))).1
    obtain ⟨hne, hreread⟩ := of_restores hfits hprops hh hentries hread hrest
    have hmap : (data.sortedBy sort).keys.map (ExtractDataProperties.reread searched) = (data.sortedBy sort).keys :=
      (List.map_congr_left hreread).trans (List.map_id' _)
    obtain ⟨hreads, -⟩ := of_readAll hfits hprops hh hread
    rw [hmap] at hreads
    refine ⟨hne, deliverable_of_once sorted_sortedBy hcols hf hh hstop hbeside fun i e hi => ?_,
      fun k hk => (ExtractDataProperties.reread_eq_self hprops).mp (hreread k hk)⟩
    have hvalues := hrest.values e.1
    rw [hreads, flatMap_get hi, Dict.get_of_mem (List.mem_of_getElem? hi)] at hvalues
    exact hvalues

theorem restores_nil (hentries : data.entries = []) : Restores data [] := by
  have hnot : ∀ k, k ∉ data := by
    intro k
    rw [AList.mem_keys, AList.keys, hentries]
    exact List.not_mem_nil
  refine ⟨fun k => by simp [hnot k], fun k => ?_⟩
  rw [Dict.get_of_notMem (hnot k)]
  exact List.Perm.refl _

/-- Where nothing is read there is no series. -/
theorem entries_eq_nil_of_restores (h : Restores data []) : data.entries = [] := by
  by_contra hentries
  obtain ⟨e, he⟩ := List.exists_mem_of_ne_nil _ hentries
  obtain ⟨r, hr, -⟩ := (h.series e.1).mp (AList.mem_keys.mpr (List.mem_keys_of_mem he))
  cases hr

/-- Data that can be delivered, and read, is restored. -/
theorem exists_restores (hfits : HeaderFits props data.keys) (hentries : data.entries ≠ [])
    (hne : ∀ e ∈ data.entries, e.2 ≠ []) (hd : data.Deliverable table stop props p outPath)
    (hrestorable : ∀ k ∈ data.keys, k.Restorable props) :
    ∃ files reads, writeTxtFile table stop props p outPath sort data = .ok files ∧
      readAll table text files = .ok reads ∧ Restores data reads := by
  have hcols : getColumns (data.sortedBy sort) ≠ [] := by
    intro hnil
    obtain ⟨e, he⟩ := List.exists_mem_of_ne_nil _ hentries
    obtain ⟨v, hv⟩ := List.exists_mem_of_ne_nil _ (hne e he)
    exact getColumns_eq_nil.mp hnil _ ⟨e, he, v, hv, rfl⟩
  obtain ⟨searched, hprops⟩ := Option.isSome_iff_exists.mp hd.names.1
  rw [← @keys_sortedBy sort data] at hfits hrestorable
  have hheaded : ∀ k ∈ (data.sortedBy sort).keys, k.Headed table := by
    rw [keys_sortedBy]
    exact hd.headed
  rw [← @nonempty_sortedBy sort data] at hne
  obtain ⟨f, h, hok, hdelivers⟩ := exists_files (deliverable_sortedBy.mpr hd) hcols
  refine ⟨_, _, hok, mapM_of_forall fun e he => ?_, restores_sortedBy.mp (restores_of_delivers hdelivers hne)⟩
  refine readTxtFile_of_reread hfits hprops hheaded (hdelivers.headed e he)
    (fun k hk => (ExtractDataProperties.reread_eq_self hprops).mpr (hrestorable k hk)) fun row hrow => ?_
  rw [(of_mem_textFiles he).2 row hrow]
  exact length_le_getColumns.mpr hne

end Written

/-- **The text files are read back as the data exactly where there is no series, or: no series is empty, the data can be
delivered, and the header tells all of the properties of each series.** -/
theorem restored_iff_restorable (table : ParameterTable) (text : ValueText) (stop : ℕ → Bool) (props : SearchProperties)
    (p : TimePeriod) (outPath : Path) (sort : SortByTime) (data : ExtractedValues)
    (hfits : HeaderFits props data.keys) :
    (∃ files reads, writeTxtFile table stop props p outPath sort data = .ok files ∧
        readAll table text files = .ok reads ∧ Restores data reads) ↔
      data.entries = [] ∨ ((∀ e ∈ data.entries, e.2 ≠ []) ∧ data.Deliverable table stop props p outPath ∧
        ∀ k ∈ data.keys, k.Restorable props) := by
  constructor
  · rintro ⟨files, reads, hok, hread, hrest⟩
    by_cases hentries : data.entries = []
    · exact .inl hentries
    · exact .inr (restorable_of_restores hfits hentries hok hread hrest)
  · intro hor
    by_cases hentries : data.entries = []
    · exact ⟨∅, [], if_pos hentries, rfl, restores_nil hentries⟩
    · obtain ⟨hne, hd, hrestorable⟩ := hor.resolve_left hentries
      exact exists_restores hfits hentries hne hd hrestorable

/-- Two series of one day. -/
def steadyValues : ExtractedValues :=
  AList.insert (seriesAt 246) [⟨0, 1⟩, ⟨60 * 60 * nsPerSecond, 2⟩]
    (AList.insert (seriesAt 247) [⟨0, 3⟩, ⟨60 * 60 * nsPerSecond, -1 / 2⟩] ∅)

theorem fits_seriesAt {parameter : ℕ} (h : parameter < 2 ^ 8) : (seriesAt parameter).Fits where
  cmn := ⟨by simp [seriesAt], by simp [seriesAt], by simpa [seriesAt] using h⟩
  fcst := ⟨by simp [seriesAt], by simp [seriesAt]⟩
  level := ⟨by simp [seriesAt]⟩

theorem deliverable_steadyValues :
    steadyValues.Deliverable windTable (fun _ => false) searchedProps .day ⟨true, []⟩ := by
  have hentries : steadyValues.entries = [⟨seriesAt 246, [⟨0, 1⟩, ⟨60 * 60 * nsPerSecond, 2⟩]⟩,
      ⟨seriesAt 247, [⟨0, 3⟩, ⟨60 * 60 * nsPerSecond, -1 / 2⟩]⟩] := rfl
  have hkeys : steadyValues.keys = interleavedValues.keys := rfl
  have htime : ∀ t, steadyValues.Time t → t = 0 ∨ t = 60 * 60 * nsPerSecond := by
    rintro t ⟨e, he, v, hv, rfl⟩
    rw [hentries] at he
    simp only [List.mem_cons, List.not_mem_nil, or_false] at he
    rcases he with rfl | rfl
    · simp only [List.mem_cons, List.not_mem_nil, or_false] at hv
      rcases hv with rfl | rfl
      · exact .inl rfl
      · exact .inr rfl
    · simp only [List.mem_cons, List.not_mem_nil, or_false] at hv
      rcases hv with rfl | rfl
      · exact .inl rfl
      · exact .inr rfl
  have hday : ∀ t, steadyValues.Time t → TimePeriod.day.getNextTp t = nsPerDay := by
    intro t ht
    rcases htime t ht with rfl | rfl
    · decide
    · decide
  refine ⟨⟨rfl, rfl, rfl⟩, by rw [hkeys]; exact headed_interleavedValues, fun _ _ => rfl, by decide,
    ⟨_, List.mem_cons_self, fun e' he' => ?_⟩, fun t ht => ?_, fun t u ht hu _ => ?_, .inl rfl⟩
  · rw [hentries] at he'
    simp only [List.mem_cons, List.not_mem_nil, or_false] at he'
    rcases he' with rfl | rfl
    · exact List.Subperm.refl _
    · exact List.Subperm.refl _
  · rcases htime t ht with rfl | rfl
    · exact dvd_zero _
    · exact dvd_mul_left _ _
  · have hnext := (hday t ht.1).trans (hday u hu.1).symm
    exact le_antisymm (ht.2 u hu.1 hnext.symm) (hu.2 t ht.1 hnext)

theorem keys_steadyValues : steadyValues.keys = [seriesAt 246, seriesAt 247] := rfl

theorem headerFits_steadyValues : HeaderFits searchedProps steadyValues.keys := by
  refine ⟨by simp [searchedProps], ?_, by rw [keys_steadyValues]; simp⟩
  rw [keys_steadyValues]
  simp only [List.forall_mem_cons, List.not_mem_nil, false_implies, implies_true, and_true]
  exact ⟨fits_seriesAt (by decide), fits_seriesAt (by decide)⟩

theorem restorable_steadyValues : ∀ k ∈ steadyValues.keys, k.Restorable searchedProps := by
  rw [keys_steadyValues]
  simp only [List.forall_mem_cons, List.not_mem_nil, false_implies, implies_true, and_true]
  exact ⟨⟨rfl, by decide, by decide, by decide⟩, ⟨rfl, by decide, by decide, by decide⟩⟩

/-- The two series are read back. -/
theorem restored_steadyValues : ∃ files reads,
    writeTxtFile windTable (fun _ => false) searchedProps .day ⟨true, []⟩ .insertion steadyValues = .ok files ∧
      readAll windTable fractionText files = .ok reads ∧ Restores steadyValues reads :=
  (restored_iff_restorable windTable fractionText (fun _ => false) searchedProps .day ⟨true, []⟩ .insertion
    steadyValues headerFits_steadyValues).mpr (.inr ⟨by decide, deliverable_steadyValues, restorable_steadyValues⟩)

/-! ## A forecast that is not read back -/

/-- A series whose period, 300 hours, is in two octets. -/
def longForecast : ExtractedValues :=
  AList.insert { seriesAt 246 with add := { fcst := { P1 := 1, P2 := 44, tf := 1, tri := 10 }, level := ⟨1, 0, 0⟩ } }
    [⟨0, 1⟩] ∅

/-- The period is read back as another one. -/
theorem forecast_not_restored : ¬ ∃ files reads,
    writeTxtFile windTable (fun _ => false) searchedProps .day ⟨true, []⟩ .insertion longForecast = .ok files ∧
      readAll windTable fractionText files = .ok reads ∧ Restores longForecast reads := by
  rintro ⟨files, reads, hok, hread, hrest⟩
  have hkeys : longForecast.keys = [{ seriesAt 246 with
    add := { fcst := { P1 := 1, P2 := 44, tf := 1, tri := 10 }, level := ⟨1, 0, 0⟩ } }] := rfl
  have hfits : HeaderFits searchedProps longForecast.keys := by
    refine ⟨by simp [searchedProps], ?_, by rw [hkeys]; simp⟩
    rw [hkeys]
    simp only [List.forall_mem_cons, List.not_mem_nil, false_implies, implies_true, and_true]
    exact ⟨(fits_seriesAt (by decide)).cmn, ⟨by simp, by simp⟩, ⟨by simp⟩⟩
  obtain ⟨-, -, hrestorable⟩ := restorable_of_restores hfits (by decide) hok hread hrest
  obtain ⟨-, hplain⟩ := hrestorable _ (by rw [hkeys]; exact List.mem_cons_self)
  exact absurd (hplain.doubled rfl) (by decide)

end Mashroom
