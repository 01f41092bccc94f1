import Mashroom.Lib.Rows
import Mashroom.Proc.TextHeader

/-!
# Proc.WriteText — the text files of extracted data

The writer merges the sorted series row by row: a row is at the least time that is left, and takes a value of each
series that has one at that time.  A row at or after the end of the file's period begins a new file.  There are as many
rows as the longest series has values, and the path of a new file is put behind that of the last one.
-/

namespace Mashroom

open Rows

/-- A row: its time in whole seconds, and a value or `NaN` for each series that is not empty. -/
structure TextRow where
  time : ℤ
  cells : List (Option ℚ)
  deriving DecidableEq

structure TextFile where
  header : List HeaderLine
  rows : List TextRow
  deriving DecidableEq, Inhabited

/-! ## The writer -/

/-- `utc_tp::max()` -/
def utcMax : ℤ := 2 ^ 63 - 1

/-- What the loop over the rows carries: `col_vals_` from the positions in `rows` on, the path and the end of the
file. -/
structure TextLocals where
  cols : List (List ExtractedValue)
  outName : Path
  fileEnd : ℤ
  files : Files TextFile

section Writer

variable (table : ParameterTable) (stop : ℕ → Bool) (props : SearchProperties) (p : TimePeriod) (outPath : Path)
  (keys : List ExtractDataProperties)

/-- A new file for a row at the time: `out_f_name` is never cleared. -/
def openTextFile (tp : ℤ) (s : TextLocals) : Except Fault TextLocals := do
  let dir := s.outName.join (generateDirectory outPath (roundByTimePeriod p tp))
  let f ← generateFilename .txt props (roundByTimePeriod p tp)
  let outName := dir.join ⟨false, [.file f]⟩
  let files ← makeAndOpenFile s.files outName default
  let header ← textHeader table props keys
  return { s with outName, fileEnd := p.getNextTp tp, files := files.insert outName { header, rows := [] } }

def appendRow (files : Files TextFile) (path : Path) (row : TextRow) : Files TextFile :=
  files.update path fun f => { f with rows := f.rows ++ [row] }

/-- The line of a row: `time_point_cast` truncates to seconds. -/
def textRowOf (r : ℤ × List (Option ExtractedValue)) : TextRow where
  time := r.1.tdiv nsPerSecond
  cells := r.2.map (Option.map ExtractedValue.value)

/-- One turn of the loop over the rows. -/
def textRow (row : ℕ) (s : TextLocals) : Except Fault TextLocals := do
  if stop row then .error .exception
  else
    let tp := (front ExtractedValue.timeDate s.cols).getD utcMax
    let s ← if s.fileEnd ≤ tp ∨ row = 0 then openTextFile table props p outPath keys tp s else .ok s
    return { s with
      cols := s.cols.map (rest ExtractedValue.timeDate tp)
      files := appendRow s.files s.outName (textRowOf (tp, s.cols.map (cell ExtractedValue.timeDate tp))) }

/-- So many turns from a row on. -/
def textRows : ℕ → ℕ → TextLocals → Except Fault TextLocals
  | 0, _, s => .ok s
  | n + 1, row, s => do
    let s ← textRow table stop props p outPath keys row s
    textRows n (row + 1) s

/-- The series that are not empty. -/
def getColumns (data : ExtractedValues) : List (List ExtractedValue) := (data.entries.map Sigma.snd).filter (· ≠ [])

def maxLength (data : ExtractedValues) : ℕ := (data.entries.map fun e => e.2.length).foldr max 0

def writeTxtFile (sort : SortByTime) (result : ExtractedValues) : Except Fault (Files TextFile) :=
  if result.entries = [] then .ok ∅
  else do
    let data := result.mapValues sort.sort
    let cols := getColumns data
    let tp := (front ExtractedValue.timeDate cols).getD utcMax
    let s ← textRows table stop props p outPath data.keys (maxLength data) 0
      { cols, outName := ⟨false, []⟩, fileEnd := p.getNextTp tp, files := ∅ }
    return s.files

end Writer

/-! ## What the files hold -/

/-- The values of a column, at the times of their rows. -/
def valuesAt (i : ℕ) (rows : List TextRow) : List ExtractedValue :=
  rows.filterMap fun r => r.cells[i]?.join.map fun value => { timeDate := r.time * nsPerSecond, value }

/-- A row of a file, at its time. -/
def RowAt (files : Files TextFile) (path : Path) (t : ℤ) : Prop :=
  ∃ f ∈ files.entries, f.1 = path ∧ ∃ r ∈ f.2.rows, r.time * nsPerSecond = t

/-- The files deliver the data: each value once, in the column of its series and a row of its time; the rows of one
period are in one file, which is named after a time of the period. -/
structure Delivers (table : ParameterTable) (props : SearchProperties) (p : TimePeriod) (data : ExtractedValues)
    (files : Files TextFile) : Prop where
  headed : ∀ f ∈ files.entries, textHeader table props data.keys = .ok f.2.header
  once : ∀ i e, data.entries[i]? = some e → (files.entries.flatMap fun f => valuesAt i f.2.rows).Perm e.2
  periods : ∀ path t path' t', RowAt files path t → RowAt files path' t' →
    (path = path' ↔ p.getNextTp t = p.getNextTp t')
  named : ∀ path t, RowAt files path t →
    ∃ u, p.getNextTp u = p.getNextTp t ∧ .period (roundByTimePeriod p u) ∈ path.parts

/-! ## Rows by file -/

/-- The rows of a file that ends at a time, and those of the files after it, with the time each begins at. -/
def splitRows {β : Type} (p : TimePeriod) : ℤ → List (ℤ × β) → List (ℤ × β) × List (ℤ × List (ℤ × β))
  | _, [] => ([], [])
  | e, r :: rs =>
    if e ≤ r.1 then
      let g := splitRows p (p.getNextTp r.1) rs
      ([], (r.1, r :: g.1) :: g.2)
    else
      let g := splitRows p e rs
      (r :: g.1, g.2)

/-- The rows of each file. -/
def rowsByFile {β : Type} (p : TimePeriod) : List (ℤ × β) → List (ℤ × List (ℤ × β))
  | [] => []
  | r :: rs =>
    let g := splitRows p (p.getNextTp r.1) rs
    (r.1, r :: g.1) :: g.2

section SplitRows

variable {β : Type} {p : TimePeriod} {e : ℤ} {r : ℤ × β} {rs : List (ℤ × β)}

theorem splitRows_of_le (h : e ≤ r.1) : splitRows p e (r :: rs) = ([], rowsByFile p (r :: rs)) := if_pos h

theorem splitRows_of_lt (h : r.1 < e) :
    splitRows p e (r :: rs) = (r :: (splitRows p e rs).1, (splitRows p e rs).2) := if_neg (not_le.mpr h)

/-- No row is left out. -/
theorem flatten_splitRows : (splitRows p e rs).1 ++ (splitRows p e rs).2.flatMap Prod.snd = rs := by
  induction rs generalizing e with
  | nil => rfl
  | cons r rs ih =>
    by_cases h : e ≤ r.1
    · rw [splitRows_of_le h, rowsByFile, List.nil_append, List.flatMap_cons, List.cons_append, ih]
    · rw [splitRows_of_lt (not_le.mp h), List.cons_append, ih]

theorem flatten_rowsByFile : (rowsByFile p rs).flatMap Prod.snd = rs := by
  cases rs with
  | nil => rfl
  | cons r rs => rw [rowsByFile, List.flatMap_cons, List.cons_append, flatten_splitRows]

/-- A file begins with its first row. -/
theorem head_of_mem_splitRows {g : ℤ × List (ℤ × β)} (h : g ∈ (splitRows p e rs).2) : ∃ r l, g = (r.1, r :: l) := by
  induction rs generalizing e with
  | nil => cases h
  | cons r rs ih =>
    by_cases he : e ≤ r.1
    · rw [splitRows_of_le he] at h
      rcases List.mem_cons.mp h with rfl | h
      · exact ⟨r, _, rfl⟩
      · exact ih h
    · rw [splitRows_of_lt (not_le.mp he)] at h
      exact ih h

theorem head_of_mem_rowsByFile {g : ℤ × List (ℤ × β)} (h : g ∈ rowsByFile p rs) : ∃ r l, g = (r.1, r :: l) := by
  cases rs with
  | nil => cases h
  | cons r rs =>
    rcases List.mem_cons.mp h with rfl | h
    · exact ⟨r, _, rfl⟩
    · exact head_of_mem_splitRows h

/-- The rows of a file are of its period, from its first time on, and those of the next files of later periods. -/
theorem next_of_mem_splitRows {s : ℤ} (hs : p.getNextTp s = e) (hle : ∀ r ∈ rs, s ≤ r.1)
    (hsorted : rs.Pairwise fun r r' => r.1 ≤ r'.1) :
    (∀ r ∈ (splitRows p e rs).1, s ≤ r.1 ∧ p.getNextTp r.1 = e) ∧
      (∀ g ∈ (splitRows p e rs).2, e ≤ g.1 ∧ ∀ r ∈ g.2, g.1 ≤ r.1 ∧ p.getNextTp r.1 = p.getNextTp g.1) ∧
      (splitRows p e rs).2.Pairwise fun g g' => p.getNextTp g.1 ≤ g'.1 := by
  induction rs generalizing s e with
  | nil => exact ⟨by simp [splitRows], by simp [splitRows], List.Pairwise.nil⟩
  | cons r rs ih =>
    obtain ⟨hr, hsorted⟩ := List.pairwise_cons.mp hsorted
    by_cases he : e ≤ r.1
    · obtain ⟨hown, hlater, hpair⟩ := ih rfl hr hsorted
      rw [splitRows_of_le he, rowsByFile]
      refine ⟨by simp, fun g hg => ?_, List.Pairwise.cons (fun g hg => (hlater g hg).1) hpair⟩
      rcases List.mem_cons.mp hg with rfl | hg
      · refine ⟨he, fun r' hr' => ?_⟩
        rcases List.mem_cons.mp hr' with rfl | hr'
        · exact ⟨le_refl _, rfl⟩
        · exact hown r' hr'
      · obtain ⟨hstart, hperiod⟩ := hlater g hg
        have := p.lt_next r.1
        exact ⟨by omega, hperiod⟩
    · rw [not_le] at he
      obtain ⟨hown, hlater, hpair⟩ := ih hs (fun r' hr' => hle r' (List.mem_cons_of_mem _ hr')) hsorted
      rw [splitRows_of_lt he]
      refine ⟨fun r' hr' => ?_, hlater, hpair⟩
      rcases List.mem_cons.mp hr' with rfl | hr'
      · refine ⟨hle _ List.mem_cons_self, ?_⟩
        rw [← hs]
        exact p.next_eq s _ (hle _ List.mem_cons_self) (by rw [hs]; exact he)
      · exact hown r' hr'

/-- In sorted rows, each file has rows of one period, and no two files those of the same. -/
theorem next_of_mem_rowsByFile (hsorted : rs.Pairwise fun r r' => r.1 ≤ r'.1) :
    (∀ g ∈ rowsByFile p rs, ∀ r ∈ g.2, g.1 ≤ r.1 ∧ p.getNextTp r.1 = p.getNextTp g.1) ∧
      (rowsByFile p rs).Pairwise fun g g' => p.getNextTp g.1 ≤ g'.1 := by
  cases rs with
  | nil => exact ⟨by simp [rowsByFile], List.Pairwise.nil⟩
  | cons r rs =>
    obtain ⟨hr, hsorted⟩ := List.pairwise_cons.mp hsorted
    obtain ⟨hown, hlater, hpair⟩ := next_of_mem_splitRows (p := p) rfl hr hsorted
    refine ⟨fun g hg r' hr' => ?_, List.Pairwise.cons (fun g hg => (hlater g hg).1) hpair⟩
    rcases List.mem_cons.mp hg with rfl | hg
    · rcases List.mem_cons.mp hr' with rfl | hr'
      · exact ⟨le_refl _, rfl⟩
      · exact hown r' hr'
    · exact (hlater g hg).2 r' hr'

end SplitRows

/-! ## The loop -/

section Loop

variable {table : ParameterTable} {stop : ℕ → Bool} {props : SearchProperties} {p : TimePeriod} {outPath : Path}
  {keys : List ExtractDataProperties} {f : FileName} {h : List HeaderLine} {s : TextLocals} {row n : ℕ} {t : ℤ}

/-- The path of the next file: an absolute directory replaces the path of the last file. -/
theorem nextName_eq (hpath : outPath.absolute = true ∨ s.outName = ⟨false, []⟩) (r : TimePeriodRounded) :
    (s.outName.join (generateDirectory outPath r)).join ⟨false, [.file { f with period := r }]⟩ =
      outputPath outPath f r := by
  obtain ⟨absolute, parts⟩ := outPath
  rcases hpath with habs | hname
  · obtain rfl : absolute = true := habs
    simp [Path.join, generateDirectory, outputPath]
  · cases absolute <;> simp [hname, Path.join, generateDirectory, outputPath]

/-- Under a relative directory the path of the next file is below that of the last one. -/
theorem nextName_below (hpath : outPath.absolute = false) (r : TimePeriodRounded) (g : FileName) :
    ((s.outName.join (generateDirectory outPath r)).join ⟨false, [.file g]⟩).Below s.outName := by
  obtain ⟨absolute, parts⟩ := outPath
  obtain rfl : absolute = false := hpath
  have hjoin : (s.outName.join (generateDirectory ⟨false, parts⟩ r)).join ⟨false, [.file g]⟩ =
      { s.outName with parts := s.outName.parts ++ (parts ++ [.period r, .file g]) } := by
    simp [Path.join, generateDirectory]
  rw [hjoin]
  refine ⟨rfl, List.prefix_append _ _, fun heq => ?_⟩
  have hparts := congrArg Path.parts heq
  simp at hparts

theorem openTextFile_ok (hf : ∀ period, generateFilename .txt props period = .ok { f with period })
    (hh : textHeader table props keys = .ok h) (hpath : outPath.absolute = true ∨ s.outName = ⟨false, []⟩)
    (hnamed : s.files.Named outPath f) :
    openTextFile table props p outPath keys t s = .ok { s with
      outName := outputPath outPath f (roundByTimePeriod p t)
      fileEnd := p.getNextTp t
      files := s.files.insert (outputPath outPath f (roundByTimePeriod p t)) { header := h, rows := [] } } := by
  simp only [openTextFile, hf, hh, ok_bind, pure_eq_ok, nextName_eq hpath, makeAndOpenFile_of_named hnamed,
    AList.insert_insert]

theorem openTextFile_error (hf : ∀ period, generateFilename .txt props period = .ok { f with period })
    (hpath : outPath.absolute = false) (hmem : s.outName ∈ s.files) :
    openTextFile table props p outPath keys t s = .error .exception := by
  have hopen : ∀ r g, makeAndOpenFile s.files ((s.outName.join (generateDirectory outPath r)).join ⟨false, [.file g]⟩)
      (default : TextFile) = .error .exception :=
    fun r g => if_pos ⟨s.outName, AList.mem_keys.mp hmem, nextName_below hpath r g⟩
  simp only [openTextFile, hf, ok_bind, hopen, error_bind]

/-- A file can only be begun with a name and a header. -/
theorem names_of_openTextFile {s' : TextLocals} (h : openTextFile table props p outPath keys t s = .ok s') :
    props.Names ∧ ∃ h, textHeader table props keys = .ok h := by
  obtain ⟨name, hname, h⟩ := bind_eq_ok.mp h
  obtain ⟨files, -, h⟩ := bind_eq_ok.mp h
  obtain ⟨header, hheader, -⟩ := bind_eq_ok.mp h
  exact ⟨names_of_generateFilename hname, header, hheader⟩

theorem textRow_of_lt (hstop : stop row = false) (hrow : row ≠ 0) (ht : front ExtractedValue.timeDate s.cols = some t)
    (hlt : t < s.fileEnd) : textRow table stop props p outPath keys row s = .ok { s with
      cols := s.cols.map (rest ExtractedValue.timeDate t)
      files := appendRow s.files s.outName (textRowOf (t, s.cols.map (cell ExtractedValue.timeDate t))) } := by
  have hcond : ¬ (s.fileEnd ≤ t ∨ row = 0) := by omega
  simp only [textRow, hstop, ht, Option.getD_some, if_neg hcond, ok_bind, Bool.false_eq_true, if_false]
  rfl

theorem textRow_of_le (hstop : stop row = false) (ht : front ExtractedValue.timeDate s.cols = some t)
    (hle : s.fileEnd ≤ t ∨ row = 0) : textRow table stop props p outPath keys row s =
      openTextFile table props p outPath keys t s >>= fun s => .ok { s with
        cols := s.cols.map (rest ExtractedValue.timeDate t)
        files := appendRow s.files s.outName (textRowOf (t, s.cols.map (cell ExtractedValue.timeDate t))) } := by
  simp only [textRow, hstop, ht, Option.getD_some, if_pos hle, Bool.false_eq_true, if_false]
  rfl

theorem appendRow_insert {files : Files TextFile} {path : Path} {c : TextFile} {r : TextRow} :
    appendRow (files.insert path c) path r = files.insert path { c with rows := c.rows ++ [r] } := by
  rw [appendRow, Dict.update, Dict.get_insert_self, AList.insert_insert]

/-- A row that begins a file is its first. -/
theorem textRow_begins (hf : ∀ period, generateFilename .txt props period = .ok { f with period })
    (hh : textHeader table props keys = .ok h) (hstop : stop row = false)
    (ht : front ExtractedValue.timeDate s.cols = some t) (hle : s.fileEnd ≤ t ∨ row = 0)
    (hpath : outPath.absolute = true ∨ s.outName = ⟨false, []⟩) (hnamed : s.files.Named outPath f) :
    textRow table stop props p outPath keys row s = .ok {
      cols := s.cols.map (rest ExtractedValue.timeDate t)
      outName := outputPath outPath f (roundByTimePeriod p t)
      fileEnd := p.getNextTp t
      files := s.files.insert (outputPath outPath f (roundByTimePeriod p t))
        { header := h, rows := [textRowOf (t, s.cols.map (cell ExtractedValue.timeDate t))] } } := by
  rw [textRow_of_le hstop ht hle, openTextFile_ok hf hh hpath hnamed, ok_bind, appendRow_insert]
  rfl

/-- The first turn begins a file, which takes a name and a header. -/
theorem names_of_textRows {s' : TextLocals} (hn : n ≠ 0) (ht : front ExtractedValue.timeDate s.cols = some t)
    (h : textRows table stop props p outPath keys n 0 s = .ok s') :
    props.Names ∧ ∃ h, textHeader table props keys = .ok h := by
  obtain ⟨n, rfl⟩ := Nat.exists_eq_succ_of_ne_zero hn
  obtain ⟨s₁, hs₁, -⟩ := bind_eq_ok.mp h
  by_cases hstop : stop 0 = true
  · rw [textRow, if_pos hstop] at hs₁
    cases hs₁
  · rw [Bool.not_eq_true] at hstop
    rw [textRow_of_le hstop ht (.inr rfl)] at hs₁
    obtain ⟨s₂, hs₂, -⟩ := bind_eq_ok.mp hs₁
    exact names_of_openTextFile hs₂

/-- The files of the rows, each over those of the same name before it. -/
def textFiles (p : TimePeriod) (outPath : Path) (f : FileName) (h : List HeaderLine) (files : Files TextFile)
    (gs : List (ℤ × List (ℤ × List (Option ExtractedValue)))) : Files TextFile :=
  Dict.insertAll (fun g => outputPath outPath f (roundByTimePeriod p g.1))
    (fun g => { header := h, rows := g.2.map textRowOf }) files gs

/-- No stop is asked for before the rows. -/
theorem stop_iff : (∀ k < n + 1, stop (row + k) = false) ↔ stop row = false ∧ ∀ k < n, stop (row + 1 + k) = false := by
  rw [Nat.forall_lt_succ_left, Nat.add_zero]
  simp only [Nat.add_assoc, Nat.add_comm 1]

/-- The turns after the first: what is left of the columns goes to the file that is open, and to new ones. -/
theorem textRows_iff (hf : ∀ period, generateFilename .txt props period = .ok { f with period })
    (hh : textHeader table props keys = .ok h) (hrow : row ≠ 0) {files : Files TextFile} {c : TextFile}
    (hfiles : s.files = files.insert s.outName c) (hnamed : s.files.Named outPath f)
    (hcols : ∃ c ∈ s.cols, n ≤ c.length) {files' : Files TextFile} :
    (∃ s', textRows table stop props p outPath keys n row s = .ok s' ∧ s'.files = files') ↔
      (∀ k < n, stop (row + k) = false) ∧
      (outPath.absolute = true ∨ (splitRows p s.fileEnd (rows ExtractedValue.timeDate n s.cols)).2 = []) ∧
      files' = textFiles p outPath f h (files.insert s.outName { c with
        rows := c.rows ++ (splitRows p s.fileEnd (rows ExtractedValue.timeDate n s.cols)).1.map textRowOf })
        (splitRows p s.fileEnd (rows ExtractedValue.timeDate n s.cols)).2 := by
  induction n generalizing row s files c with
  | zero =>
    simp only [textRows, rows, splitRows, List.map_nil, List.append_nil, ← hfiles]
    constructor
    · rintro ⟨s', hs', rfl⟩
      cases hs'
      exact ⟨by simp, .inr trivial, rfl⟩
    · rintro ⟨-, -, rfl⟩
      exact ⟨s, rfl, rfl⟩
  | succ n ih =>
    obtain ⟨t, ht, hcols⟩ : ∃ t, front ExtractedValue.timeDate s.cols = some t ∧
        ∃ c ∈ s.cols.map (rest ExtractedValue.timeDate t), n ≤ c.length := exists_front_rest hcols
    rw [rows_succ ht, stop_iff]
    by_cases hstop : stop row = true
    · have herror : textRow table stop props p outPath keys row s = .error .exception := if_pos hstop
      simp [textRows, herror, hstop]
    · rw [Bool.not_eq_true] at hstop
      by_cases hle : s.fileEnd ≤ t
      · rw [splitRows_of_le hle]
        cases habs : outPath.absolute with
        | false =>
          have herror : textRow table stop props p outPath keys row s = .error .exception := by
            rw [textRow_of_le hstop ht (.inl hle), openTextFile_error hf habs (by rw [hfiles]; simp), error_bind]
          simp [textRows, herror, rowsByFile]
        | true =>
          rw [textRows, textRow_begins hf hh hstop ht (.inl hle) (.inl habs) hnamed, ok_bind,
            ih (Nat.succ_ne_zero row) rfl hnamed.insert hcols]
          simp only [habs, true_or, true_and, hstop, rowsByFile, List.map_nil, List.append_nil, ← hfiles]
          rfl
      · rw [not_le] at hle
        rw [splitRows_of_lt hle, textRows, textRow_of_lt hstop hrow ht hle, ok_bind,
          ih (Nat.succ_ne_zero row) (by rw [hfiles, appendRow_insert]) ?_ hcols]
        · simp only [hstop, true_and, List.map_cons, List.append_assoc, List.singleton_append]
        · intro q hq
          rw [hfiles, appendRow_insert, AList.mem_insert] at hq
          refine hnamed q ?_
          rw [hfiles, AList.mem_insert]
          exact hq

/-- All turns, of which the first begins a file. -/
theorem textRows_iff_of_header (hf : ∀ period, generateFilename .txt props period = .ok { f with period })
    (hh : textHeader table props keys = .ok h) (hn : n ≠ 0) (hfiles : s.files = ∅) (hname : s.outName = ⟨false, []⟩)
    (hcols : ∃ c ∈ s.cols, n ≤ c.length) {files' : Files TextFile} :
    (∃ s', textRows table stop props p outPath keys n 0 s = .ok s' ∧ s'.files = files') ↔
      (∀ k < n, stop k = false) ∧
      (outPath.absolute = true ∨ (rowsByFile p (rows ExtractedValue.timeDate n s.cols)).length ≤ 1) ∧
      files' = textFiles p outPath f h ∅ (rowsByFile p (rows ExtractedValue.timeDate n s.cols)) := by
  obtain ⟨n, rfl⟩ := Nat.exists_eq_succ_of_ne_zero hn
  obtain ⟨t, ht, hcols⟩ : ∃ t, front ExtractedValue.timeDate s.cols = some t ∧
      ∃ c ∈ s.cols.map (rest ExtractedValue.timeDate t), n ≤ c.length := exists_front_rest hcols
  have hstops : (∀ k < n + 1, stop (0 + k) = false) ↔ stop 0 = false ∧ ∀ k < n, stop (0 + 1 + k) = false := stop_iff
  simp only [Nat.zero_add] at hstops
  rw [rows_succ ht, hstops]
  by_cases hstop : stop 0 = true
  · have herror : textRow table stop props p outPath keys 0 s = .error .exception := if_pos hstop
    simp [textRows, herror, hstop]
  · rw [Bool.not_eq_true] at hstop
    have hnamed : s.files.Named outPath f := by
      rw [hfiles]
      exact Files.named_empty
    rw [textRows, textRow_begins hf hh hstop ht (.inr rfl) (.inr hname) hnamed, ok_bind,
      textRows_iff hf hh (Nat.succ_ne_zero 0) rfl hnamed.insert hcols]
    simp only [hstop, true_and, rowsByFile, List.length_cons, Nat.succ_le_succ_iff, Nat.le_zero,
      List.length_eq_zero_iff, ← hfiles]
    rfl

end Loop

/-! ## All of the writer -/

section Columns

variable {data : ExtractedValues}

theorem mem_getColumns {c : List ExtractedValue} : c ∈ getColumns data ↔ c ≠ [] ∧ ∃ k, ⟨k, c⟩ ∈ data.entries := by
  simp only [getColumns, List.mem_filter, List.mem_map, decide_eq_true_eq]
  constructor
  · rintro ⟨⟨e, he, rfl⟩, hne⟩
    exact ⟨hne, e.1, he⟩
  · rintro ⟨hne, k, he⟩
    exact ⟨⟨_, he, rfl⟩, hne⟩

theorem length_le_maxLength {c : List ExtractedValue} (h : c ∈ getColumns data) : c.length ≤ maxLength data := by
  obtain ⟨-, k, he⟩ := mem_getColumns.mp h
  unfold maxLength
  generalize data.entries = l at he
  induction l with
  | nil => cases he
  | cons e l ih =>
    rcases List.mem_cons.mp he with rfl | he
    · exact le_max_left _ _
    · exact le_trans (ih he) (le_max_right _ _)

/-- Some series is the longest. -/
theorem exists_maxLength (h : maxLength data ≠ 0) : ∃ e ∈ data.entries, e.2.length = maxLength data := by
  unfold maxLength at h ⊢
  generalize data.entries = l at h
  induction l with
  | nil => exact absurd rfl h
  | cons e l ih =>
    rw [List.map_cons, List.foldr_cons] at h ⊢
    rcases le_total ((l.map fun e => e.2.length).foldr max 0) e.2.length with hle | hle
    · exact ⟨e, List.mem_cons_self, (max_eq_left hle).symm⟩
    · rw [max_eq_right hle] at h ⊢
      obtain ⟨e', he', heq⟩ := ih h
      exact ⟨e', List.mem_cons_of_mem _ he', heq⟩

/-- The longest of the series that are not empty. -/
theorem exists_longest (h : getColumns data ≠ []) : ∃ c ∈ getColumns data, c.length = maxLength data := by
  obtain ⟨c, hc⟩ := List.exists_mem_of_ne_nil _ h
  have hlength := length_le_maxLength hc
  have hpos := List.length_pos_iff.mpr (mem_getColumns.mp hc).1
  have hne : maxLength data ≠ 0 := by omega
  obtain ⟨e, he, heq⟩ := exists_maxLength hne
  refine ⟨e.2, mem_getColumns.mpr ⟨fun hnil => ?_, e.1, he⟩, heq⟩
  rw [hnil] at heq
  exact hne heq.symm

theorem maxLength_of_empty (h : getColumns data = []) : maxLength data = 0 := by
  have hnil : ∀ e ∈ data.entries, e.2 = [] := by
    intro e he
    by_contra hne
    have hmem : e.2 ∈ getColumns data := mem_getColumns.mpr ⟨hne, e.1, he⟩
    rw [h] at hmem
    cases hmem
  unfold maxLength
  generalize data.entries = l at hnil
  induction l with
  | nil => rfl
  | cons e l ih =>
    rw [List.map_cons, List.foldr_cons, ih fun e he => hnil e (List.mem_cons_of_mem _ he),
      hnil e List.mem_cons_self]
    rfl

end Columns

section Whole

variable {table : ParameterTable} {stop : ℕ → Bool} {props : SearchProperties} {p : TimePeriod} {outPath : Path}
  {sort : SortByTime} {result : ExtractedValues}

/-- The rows of sorted series. -/
def dataRows (data : ExtractedValues) : List (ℤ × List (Option ExtractedValue)) :=
  rows ExtractedValue.timeDate (maxLength data) (getColumns data)

/-- **What is written**: nothing where there are no values; else the rows, by file, where the files can be named and
headed, no stop is asked for, and the directory is absolute or one file is enough. -/
theorem writeTxtFile_iff {files : Files TextFile} :
    writeTxtFile table stop props p outPath sort result = .ok files ↔
      (getColumns (result.mapValues sort.sort) = [] ∧ files = ∅) ∨
      (getColumns (result.mapValues sort.sort) ≠ [] ∧ ∃ f h,
        (∀ period, generateFilename .txt props period = .ok { f with period }) ∧
        textHeader table props (result.mapValues sort.sort).keys = .ok h ∧
        (∀ k < maxLength (result.mapValues sort.sort), stop k = false) ∧
        (outPath.absolute = true ∨ (rowsByFile p (dataRows (result.mapValues sort.sort))).length ≤ 1) ∧
        files = textFiles p outPath f h ∅ (rowsByFile p (dataRows (result.mapValues sort.sort)))) := by
  unfold writeTxtFile
  by_cases hempty : result.entries = []
  · have hcols : getColumns (result.mapValues sort.sort) = [] := by
      simp [getColumns, Dict.mapValues, hempty]
    rw [if_pos hempty]
    simp only [hcols, Except.ok.injEq, true_and, ne_eq, not_true_eq_false, false_and, or_false]
    exact eq_comm
  · rw [if_neg hempty]
    generalize result.mapValues sort.sort = data
    simp only [bind_eq_ok, pure_eq_ok, Except.ok.injEq]
    by_cases hcols : getColumns data = []
    · simp only [hcols, maxLength_of_empty hcols, textRows, Except.ok.injEq, exists_eq_left', true_and, ne_eq,
        not_true_eq_false, false_and, or_false]
      exact eq_comm
    · simp only [hcols, false_and, false_or, ne_eq, not_false_eq_true, true_and]
      obtain ⟨c, hc, hlength⟩ := exists_longest hcols
      have hpos := List.length_pos_iff.mpr (mem_getColumns.mp hc).1
      have hn : maxLength data ≠ 0 := by omega
      constructor
      · intro hok
        obtain ⟨t, ht⟩ : ∃ t, front ExtractedValue.timeDate (getColumns data) = some t :=
          exists_front hc (Nat.succ_le_of_lt hpos)
        obtain ⟨hnames, h, hh⟩ : props.Names ∧ ∃ h, textHeader table props data.keys = .ok h := by
          obtain ⟨s, hs, -⟩ := hok
          exact names_of_textRows hn ht hs
        obtain ⟨f, hf⟩ := generateFilename_of_names hnames .txt
        exact ⟨f, h, hf, hh, (textRows_iff_of_header hf hh hn rfl rfl ⟨c, hc, hlength.ge⟩).mp hok⟩
      · rintro ⟨f, h, hf, hh, hok⟩
        exact (textRows_iff_of_header hf hh hn rfl rfl ⟨c, hc, hlength.ge⟩).mpr hok

end Whole

end Mashroom
