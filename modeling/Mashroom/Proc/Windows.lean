import Mashroom.Proc.Output

/-!
# Proc.Windows — the JSON and the binary files of extracted data

Both writers go through the periods from the least time on, and write to each file the values between the ends of its
period, both included.  They stop at the latest of the first times of the series.  The data is partitioned over the
files exactly where no value is at the end of a period or later than that of the latest first time
(`partitioned_iff_windowable`).
-/

namespace Mashroom

/-- What a file holds: series under their properties. -/
abbrev WindowFile := List (ExtractDataProperties × List ExtractedValue)

/-! ## The writers -/

/-- The values from `std::lower_bound` to `std::upper_bound`. -/
def window (lower upper : ℤ) (values : List ExtractedValue) : List ExtractedValue :=
  (values.takeWhile fun v => v.timeDate ≤ upper).dropWhile fun v => v.timeDate < lower

def jsonContent (data : ExtractedValues) (lower upper : ℤ) : WindowFile :=
  data.entries.map fun e => (e.1, window lower upper e.2)

/-- Series without values in the period are left out. -/
def binContent (data : ExtractedValues) (lower upper : ℤ) : WindowFile :=
  (jsonContent data lower upper).filter fun e => e.2 ≠ []

/-- The path of the file whose first time is given, from an `out_f_name` that was cleared. -/
def windowPath (format : OutputDataFileFormats) (props : SearchProperties) (p : TimePeriod) (outPath : Path) (tp : ℤ) :
    Except Fault Path := do
  let dir := Path.join ⟨false, []⟩ (generateDirectory outPath (roundByTimePeriod p tp))
  let f ← generateFilename format props (roundByTimePeriod p tp)
  return dir.join ⟨false, [.file f]⟩

/-- The loop over the periods: `upper_bound_time` is always the next time point of `lower_bound_time`. -/
def windowLoop (format : OutputDataFileFormats) (props : SearchProperties) (p : TimePeriod) (outPath : Path)
    (content : ℤ → ℤ → WindowFile) (maxTime lower : ℤ) (files : Files WindowFile) :
    Except Fault (Files WindowFile) :=
  if maxTime < lower then .ok files
  else do
    let path ← windowPath format props p outPath lower
    let files ← makeAndOpenFile files path (content lower (p.getNextTp lower))
    windowLoop format props p outPath content maxTime (p.getNextTp lower) files
termination_by (maxTime + 1 - lower).toNat
decreasing_by
  have := p.lt_next lower
  omega

/-- The first times of the series that are not empty. -/
def fronts (data : ExtractedValues) : List ℤ := data.entries.filterMap fun e => e.2.head?.map (·.timeDate)

/-- From the least to the greatest of the first times, when there is one. -/
def writeWindows (format : OutputDataFileFormats) (props : SearchProperties) (p : TimePeriod) (outPath : Path)
    (content : ℤ → ℤ → WindowFile) (data : ExtractedValues) : Except Fault (Files WindowFile) :=
  match (fronts data).min?, (fronts data).max? with
  | some minTime, some maxTime => windowLoop format props p outPath content maxTime minTime ∅
  | _, _ => .ok ∅

def writeJsonFile (sort : SortByTime) (props : SearchProperties) (p : TimePeriod) (outPath : Path)
    (result : ExtractedValues) : Except Fault (Files WindowFile) :=
  let data := result.mapValues sort.sort
  writeWindows .json props p outPath (jsonContent data) data

def writeBinFile (sort : SortByTime) (props : SearchProperties) (p : TimePeriod) (outPath : Path)
    (result : ExtractedValues) : Except Fault (Files WindowFile) :=
  if result.entries = [] then .ok ∅
  else
    let data := result.mapValues sort.sort
    writeWindows .bin props p outPath (binContent data) data

/-! ## What the files hold -/

/-- The values of a series in a file. -/
def valuesOf (k : ExtractDataProperties) (w : WindowFile) : List ExtractedValue :=
  w.flatMap fun e => if e.1 = k then e.2 else []

/-- The values of a series in all files. -/
def foundIn (files : Files WindowFile) (k : ExtractDataProperties) : List ExtractedValue :=
  files.entries.flatMap fun f => valuesOf k f.2

/-- The file of a path holds a value. -/
def HeldAt (files : Files WindowFile) (path : Path) (v : ExtractedValue) : Prop :=
  ∃ f ∈ files.entries, f.1 = path ∧ ∃ k, v ∈ valuesOf k f.2

/-- The files partition the data: each value is in one of them, those of one period in one file, which is named after a
time of the period. -/
structure Partitions (p : TimePeriod) (data : ExtractedValues) (files : Files WindowFile) : Prop where
  once : ∀ k, (foundIn files k).Perm (data.get k)
  periods : ∀ path v path' v', HeldAt files path v → HeldAt files path' v' →
    (path = path' ↔ p.getNextTp v.timeDate = p.getNextTp v'.timeDate)
  named : ∀ path v, HeldAt files path v →
    ∃ u, p.getNextTp u = p.getNextTp v.timeDate ∧ .period (roundByTimePeriod p u) ∈ path.parts

/-- No value is at the end of a period, or later than the period of the latest first time, and no later file is named as
the first one. -/
structure Windowed (p : TimePeriod) (data : ExtractedValues) (minTime maxTime : ℤ) : Prop where
  inside : ∀ t, data.Time t → t < p.getNextTp maxTime
  between : ∀ t, data.Time t → ∀ u, minTime ≤ u → p.getNextTp u ≠ t
  named : ∀ u, minTime ≤ u → p.getNextTp u ≤ maxTime →
    roundByTimePeriod p (p.getNextTp u) ≠ roundByTimePeriod p minTime

/-! ## The windows of sorted series -/

section Window

variable {lower upper : ℤ} {values : List ExtractedValue}

/-- In a sorted series the window is what lies between its ends. -/
theorem window_eq_filter (h : values.Pairwise fun v v' => v.timeDate ≤ v'.timeDate) :
    window lower upper values = values.filter fun v => lower ≤ v.timeDate ∧ v.timeDate ≤ upper := by
  induction values with
  | nil => rfl
  | cons v values ih =>
    obtain ⟨hv, htail⟩ := List.pairwise_cons.mp h
    have ih := ih htail
    unfold window at ih ⊢
    by_cases hu : v.timeDate ≤ upper
    · rw [List.takeWhile_cons_of_pos (by simpa using hu)]
      by_cases hl : v.timeDate < lower
      · rw [List.dropWhile_cons_of_pos (by simpa using hl), ih, List.filter_cons_of_neg (by simp; omega)]
      · rw [List.dropWhile_cons_of_neg (by simpa using hl), List.filter_cons_of_pos (by simp; omega)]
        congr 1
        rw [← ih]
        -- what follows is not before the window either
        cases values with
        | nil => rfl
        | cons w values =>
          have hw := hv w List.mem_cons_self
          by_cases hwu : w.timeDate ≤ upper
          · rw [List.takeWhile_cons_of_pos (by simpa using hwu), List.dropWhile_cons_of_neg (by simp; omega)]
          · rw [List.takeWhile_cons_of_neg (by simpa using hwu), List.dropWhile_nil]
    · rw [List.takeWhile_cons_of_neg (by simpa using hu), List.dropWhile_nil]
      refine (List.filter_eq_nil_iff.mpr fun w hw => ?_).symm
      rcases List.mem_cons.mp hw with rfl | hw
      · simp [hu]
      · have := hv w hw
        simp only [decide_eq_true_eq]
        omega

theorem mem_window (h : values.Pairwise fun v v' => v.timeDate ≤ v'.timeDate) {v : ExtractedValue} :
    v ∈ window lower upper values ↔ v ∈ values ∧ lower ≤ v.timeDate ∧ v.timeDate ≤ upper := by
  rw [window_eq_filter h, List.mem_filter, decide_eq_true_eq]

end Window

section Content

variable {data : ExtractedValues} {k : ExtractDataProperties} {lower upper : ℤ}

theorem valuesOf_jsonContent : valuesOf k (jsonContent data lower upper) = window lower upper (data.get k) := by
  rw [valuesOf, jsonContent, List.flatMap_map]
  exact @Dict.flatMap_key _ _ _ _ _ (window lower upper) k data rfl

/-- Leaving empty series out leaves no value out. -/
theorem valuesOf_binContent : valuesOf k (binContent data lower upper) = window lower upper (data.get k) := by
  rw [← valuesOf_jsonContent, valuesOf, valuesOf, binContent]
  generalize jsonContent data lower upper = w
  induction w with
  | nil => rfl
  | cons e w ih =>
    by_cases he : e.2 = []
    · rw [List.filter_cons_of_neg (by simpa using he), ih, List.flatMap_cons, he, ite_self, List.nil_append]
    · rw [List.filter_cons_of_pos (by simpa using he), List.flatMap_cons, ih, List.flatMap_cons]

end Content

/-! ## The first times of the windows -/

/-- The values of `lower_bound_time`. -/
def windowStarts (p : TimePeriod) (maxTime lower : ℤ) : List ℤ :=
  if maxTime < lower then [] else lower :: windowStarts p maxTime (p.getNextTp lower)
termination_by (maxTime + 1 - lower).toNat
decreasing_by
  have := p.lt_next lower
  omega

section Starts

variable {p : TimePeriod} {maxTime lower t u : ℤ}

theorem windowStarts_of_lt (h : maxTime < lower) : windowStarts p maxTime lower = [] := by
  rw [windowStarts, if_pos h]

theorem windowStarts_of_le (h : lower ≤ maxTime) :
    windowStarts p maxTime lower = lower :: windowStarts p maxTime (p.getNextTp lower) := by
  rw [windowStarts, if_neg (not_lt.mpr h)]

/-- What holds of an empty run of windows, and of one window more, holds of all. -/
theorem windowStarts_induction {P : ℤ → Prop} (hnil : ∀ lower, maxTime < lower → P lower)
    (hcons : ∀ lower, lower ≤ maxTime → P (p.getNextTp lower) → P lower) (lower : ℤ) : P lower := by
  by_cases h : maxTime < lower
  · exact hnil lower h
  · exact hcons lower (not_lt.mp h) (windowStarts_induction hnil hcons (p.getNextTp lower))
termination_by (maxTime + 1 - lower).toNat
decreasing_by
  have := p.lt_next lower
  omega

theorem mem_windowStarts : t ∈ windowStarts p maxTime lower ↔
    t ≤ maxTime ∧ (t = lower ∨ ∃ u, lower ≤ u ∧ p.getNextTp u = t) := by
  induction lower using @windowStarts_induction p maxTime with
  | hnil lower h =>
    rw [windowStarts_of_lt h]
    refine iff_of_false (by simp) ?_
    rintro ⟨hle, rfl | ⟨u, hu, rfl⟩⟩
    · omega
    · have := p.lt_next u
      omega
  | hcons lower h ih =>
    rw [windowStarts_of_le h, List.mem_cons, ih]
    constructor
    · rintro (rfl | ⟨hle, rfl | ⟨u, hu, rfl⟩⟩)
      · exact ⟨h, .inl rfl⟩
      · exact ⟨hle, .inr ⟨lower, le_refl lower, rfl⟩⟩
      · exact ⟨hle, .inr ⟨u, le_trans (p.lt_next lower).le hu, rfl⟩⟩
    · rintro ⟨hle, rfl | ⟨u, hu, rfl⟩⟩
      · exact .inl rfl
      · right
        refine ⟨hle, ?_⟩
        -- the period of `u` is the first one, or a later one
        by_cases hlt : u < p.getNextTp lower
        · exact .inl (p.next_eq lower u hu hlt)
        · exact .inr ⟨u, not_lt.mp hlt, rfl⟩

theorem le_of_mem_windowStarts (h : t ∈ windowStarts p maxTime lower) : lower ≤ t := by
  obtain ⟨-, rfl | ⟨u, hu, rfl⟩⟩ := mem_windowStarts.mp h
  · exact le_refl _
  · exact le_trans hu (p.lt_next u).le

/-- Each window begins when those before it have ended. -/
theorem pairwise_windowStarts : (windowStarts p maxTime lower).Pairwise fun t u => p.getNextTp t ≤ u := by
  induction lower using @windowStarts_induction p maxTime with
  | hnil lower h =>
    rw [windowStarts_of_lt h]
    exact List.Pairwise.nil
  | hcons lower h ih =>
    rw [windowStarts_of_le h]
    exact List.Pairwise.cons (fun t ht => le_of_mem_windowStarts ht) ih

/-- Windows of one period are one. -/
theorem eq_of_next_eq (ht : t ∈ windowStarts p maxTime lower) (hu : u ∈ windowStarts p maxTime lower)
    (h : p.getNextTp t = p.getNextTp u) : t = u := by
  have hnodup : ((windowStarts p maxTime lower).map p.getNextTp).Nodup := by
    refine List.pairwise_map.mpr (pairwise_windowStarts.imp fun {t u} hle => ?_)
    have := p.lt_next u
    omega
  exact List.inj_on_of_nodup_map hnodup ht hu h

/-- Every time from the first on, up to the end of the period of the last, is in the period of a window. -/
theorem exists_start (ht : lower ≤ t) (hmax : t < p.getNextTp maxTime) (hlower : lower ≤ maxTime) :
    ∃ u ∈ windowStarts p maxTime lower, u ≤ t ∧ t < p.getNextTp u := by
  revert ht hlower
  induction lower using @windowStarts_induction p maxTime with
  | hnil lower h => intro _ hlower; omega
  | hcons lower h ih =>
    intro ht _
    rw [windowStarts_of_le h]
    by_cases hlt : t < p.getNextTp lower
    · exact ⟨lower, List.mem_cons_self, ht, hlt⟩
    · have hle : p.getNextTp lower ≤ maxTime := by
        by_contra hmax'
        rw [p.next_eq lower maxTime h (not_le.mp hmax')] at hmax
        exact hlt hmax
      obtain ⟨u, hu, hin⟩ := ih (not_lt.mp hlt) hle
      exact ⟨u, List.mem_cons_of_mem _ hu, hin⟩

end Starts

/-! ## The loop -/

section Loop

variable {format : OutputDataFileFormats} {props : SearchProperties} {p : TimePeriod} {outPath : Path} {f : FileName}
  {content : ℤ → ℤ → WindowFile} {maxTime lower : ℤ}

theorem windowPath_eq (hf : ∀ period, generateFilename format props period = .ok { f with period }) (tp : ℤ) :
    windowPath format props p outPath tp = .ok (outputPath outPath f (roundByTimePeriod p tp)) := by
  simp only [windowPath, hf, ok_bind, pure_eq_ok]
  obtain ⟨absolute, parts⟩ := outPath
  cases absolute <;> simp [Path.join, generateDirectory, outputPath]

/-- The files of the windows, each over those of the same name before it. -/
def windowFiles (p : TimePeriod) (outPath : Path) (f : FileName) (content : ℤ → ℤ → WindowFile)
    (files : Files WindowFile) (starts : List ℤ) : Files WindowFile :=
  Dict.insertAll (fun t => outputPath outPath f (roundByTimePeriod p t)) (fun t => content t (p.getNextTp t)) files
    starts

theorem windowLoop_eq (hf : ∀ period, generateFilename format props period = .ok { f with period })
    {files : Files WindowFile} (hfiles : files.Named outPath f) :
    windowLoop format props p outPath content maxTime lower files =
      .ok (windowFiles p outPath f content files (windowStarts p maxTime lower)) := by
  induction lower using @windowStarts_induction p maxTime generalizing files with
  | hnil lower h =>
    rw [windowLoop, if_pos h, windowStarts_of_lt h]
    rfl
  | hcons lower h ih =>
    rw [windowLoop, if_neg (not_lt.mpr h), windowPath_eq hf, ok_bind, makeAndOpenFile_of_named hfiles, ok_bind,
      ih hfiles.insert, windowStarts_of_le h]
    rfl

/-- Without the properties that name the files there is no file. -/
theorem names_of_windowLoop {files files' : Files WindowFile} (hle : lower ≤ maxTime)
    (h : windowLoop format props p outPath content maxTime lower files = .ok files') : props.Names := by
  rw [windowLoop, if_neg (not_lt.mpr hle)] at h
  obtain ⟨path, hpath, -⟩ := bind_eq_ok.mp h
  obtain ⟨name, hname, -⟩ := bind_eq_ok.mp hpath
  exact names_of_generateFilename hname

end Loop

/-! ## The partition -/

section Partition

variable {p : TimePeriod} {outPath : Path} {f : FileName} {content : ℤ → ℤ → WindowFile} {data : ExtractedValues}
  {minTime maxTime : ℤ}

/-- The files of the windows do not overwrite each other. -/
def Apart (p : TimePeriod) (starts : List ℤ) : Prop := (starts.map (roundByTimePeriod p)).Nodup

theorem apart_of_named (h : ∀ u, minTime ≤ u → p.getNextTp u ≤ maxTime →
    roundByTimePeriod p (p.getNextTp u) ≠ roundByTimePeriod p minTime) :
    Apart p (windowStarts p maxTime minTime) := by
  refine List.pairwise_map.mpr (pairwise_windowStarts.imp_of_mem fun {t u} ht hu hle heq => ?_)
  have hlt : t < u := lt_of_lt_of_le (p.lt_next t) hle
  obtain ⟨-, rfl | ⟨v, hv, rfl⟩⟩ := mem_windowStarts.mp ht
  · obtain ⟨humax, rfl | ⟨w, hw, rfl⟩⟩ := mem_windowStarts.mp hu
    · exact lt_irrefl _ hlt
    · exact h w hw humax heq.symm
  · obtain ⟨-, rfl | ⟨w, -, rfl⟩⟩ := mem_windowStarts.mp hu
    · have := p.lt_next v
      omega
    · exact absurd (p.round_next v w heq) hlt.ne

theorem entries_windowFiles {starts : List ℤ} (h : Apart p starts) :
    (windowFiles p outPath f content ∅ starts).entries.Perm
      (starts.map fun t => ⟨outputPath outPath f (roundByTimePeriod p t), content t (p.getNextTp t)⟩) := by
  have hnodup : (starts.map fun t => outputPath outPath f (roundByTimePeriod p t)).Nodup := by
    refine List.pairwise_map.mpr ((List.pairwise_map.mp h).imp fun {t u} hne heq => hne ?_)
    exact outputPath_inj.mp heq
  have hperm : (windowFiles p outPath f content ∅ starts).entries.Perm
      ((starts.map fun t => ⟨outputPath outPath f (roundByTimePeriod p t), content t (p.getNextTp t)⟩) ++
        (∅ : Files WindowFile).entries) := Dict.entries_insertAll hnodup fun t _ => AList.notMem_empty _
  rw [show (∅ : Files WindowFile).entries = [] from rfl, List.append_nil] at hperm
  exact hperm

/-- The series are sorted, and each file holds the windows of the series. -/
structure Holds (data : ExtractedValues) (content : ℤ → ℤ → WindowFile) : Prop where
  sorted : ∀ k, (data.get k).Pairwise fun v v' => v.timeDate ≤ v'.timeDate
  window : ∀ k lower upper, valuesOf k (content lower upper) = window lower upper (data.get k)

theorem Holds.mem_valuesOf (h : Holds data content) {k : ExtractDataProperties} {v : ExtractedValue} {lower upper : ℤ} :
    v ∈ valuesOf k (content lower upper) ↔ v ∈ data.get k ∧ lower ≤ v.timeDate ∧ v.timeDate ≤ upper := by
  rw [h.window, mem_window (h.sorted k)]

/-- What is found in files that do not overwrite each other is found in the windows. -/
theorem foundIn_windowFiles (h : Holds data content) {starts : List ℤ} (hapart : Apart p starts)
    (k : ExtractDataProperties) :
    (foundIn (windowFiles p outPath f content ∅ starts) k).Perm
      (starts.flatMap fun t => window t (p.getNextTp t) (data.get k)) := by
  refine ((entries_windowFiles hapart).flatMap_right _).trans ?_
  rw [List.flatMap_map]
  simp only [h.window]
  exact List.Perm.refl _

theorem heldAt_windowFiles (h : Holds data content) {starts : List ℤ} (hapart : Apart p starts) {path : Path}
    {v : ExtractedValue} : HeldAt (windowFiles p outPath f content ∅ starts) path v ↔
      ∃ t ∈ starts, path = outputPath outPath f (roundByTimePeriod p t) ∧ t ≤ v.timeDate ∧
        v.timeDate ≤ p.getNextTp t ∧ ∃ k, v ∈ data.get k := by
  have hperm := @entries_windowFiles p outPath f content starts hapart
  constructor
  · rintro ⟨e, he, rfl, k, hv⟩
    obtain ⟨t, ht, rfl⟩ := List.mem_map.mp (hperm.mem_iff.mp he)
    obtain ⟨hdata, hle, hle'⟩ := h.mem_valuesOf.mp hv
    exact ⟨t, ht, rfl, hle, hle', k, hdata⟩
  · rintro ⟨t, ht, rfl, hle, hle', k, hdata⟩
    exact ⟨_, hperm.mem_iff.mpr (List.mem_map.mpr ⟨t, ht, rfl⟩), rfl, k, h.mem_valuesOf.mpr ⟨hdata, hle, hle'⟩⟩

/-- Where no value is at the end of a period, the windows divide the values. -/
theorem flatMap_window {values : List ExtractedValue}
    (hsorted : values.Pairwise fun v v' => v.timeDate ≤ v'.timeDate)
    (hinside : ∀ v ∈ values, v.timeDate < p.getNextTp maxTime) {lower : ℤ}
    (hbetween : ∀ v ∈ values, ∀ u, lower ≤ u → p.getNextTp u ≠ v.timeDate)
    (hlower : lower ≤ maxTime ∨ lower = p.getNextTp maxTime) :
    ((windowStarts p maxTime lower).flatMap fun t => window t (p.getNextTp t) values).Perm
      (values.filter fun v => lower ≤ v.timeDate) := by
  revert hbetween hlower
  induction lower using @windowStarts_induction p maxTime with
  | hnil lower h =>
    intro _ hlower
    have hend : lower = p.getNextTp maxTime := hlower.resolve_left (not_le.mpr h)
    rw [windowStarts_of_lt h, List.filter_eq_nil_iff.mpr]
    · exact List.Perm.refl _
    · intro v hv
      have := hinside v hv
      simp only [decide_eq_true_eq, not_le]
      omega
  | hcons lower h ih =>
    intro hbetween _
    have hnext : p.getNextTp lower ≤ maxTime ∨ p.getNextTp lower = p.getNextTp maxTime := by
      by_cases hlt : maxTime < p.getNextTp lower
      · exact .inr (p.next_eq lower maxTime h hlt).symm
      · exact .inl (not_lt.mp hlt)
    have ih := ih (fun v hv u hu => hbetween v hv u (le_trans (p.lt_next lower).le hu)) hnext
    rw [windowStarts_of_le h, List.flatMap_cons, window_eq_filter hsorted]
    refine (ih.append_left _).trans ?_
    refine List.Perm.trans ?_ (List.filter_append_perm (fun v => decide (v.timeDate < p.getNextTp lower)) _)
    rw [List.filter_filter, List.filter_filter]
    refine List.Perm.append (List.Perm.of_eq (List.filter_congr fun v hv => ?_))
      (List.Perm.of_eq (List.filter_congr fun v _ => ?_))
    · have := hbetween v hv lower (le_refl lower)
      rw [← Bool.decide_and, decide_eq_decide]
      omega
    · have := p.lt_next lower
      rw [← decide_not, ← Bool.decide_and, decide_eq_decide]
      omega

/-- The windows partition the values. -/
theorem Windowed.partitions (hw : Windowed p data minTime maxTime) (h : Holds data content)
    (hmin : ∀ t, data.Time t → minTime ≤ t) (hle : minTime ≤ maxTime) :
    Partitions p data (windowFiles p outPath f content ∅ (windowStarts p maxTime minTime)) := by
  have hapart := apart_of_named hw.named
  have htime : ∀ {k v}, v ∈ data.get k → data.Time v.timeDate :=
    fun {k v} hv => ExtractedValues.time_iff.mpr ⟨k, v, hv, rfl⟩
  -- a value is in the period of the window that holds it
  have hperiod : ∀ {t} {v : ExtractedValue}, t ∈ windowStarts p maxTime minTime → data.Time v.timeDate →
      t ≤ v.timeDate → v.timeDate ≤ p.getNextTp t → p.getNextTp v.timeDate = p.getNextTp t := by
    intro t v ht hv hle hle'
    have hne := hw.between _ hv t (le_of_mem_windowStarts ht)
    exact p.next_eq t _ hle (lt_of_le_of_ne hle' (Ne.symm hne))
  refine ⟨fun k => ?_, ?_, ?_⟩
  · refine (foundIn_windowFiles h hapart k).trans ((flatMap_window (h.sorted k) (fun v hv => hw.inside _ (htime hv))
      (fun v hv u hu => hw.between _ (htime hv) u hu) (.inl hle)).trans ?_)
    rw [List.filter_eq_self.mpr]
    intro v hv
    exact decide_eq_true (hmin _ (htime hv))
  · intro path v path' v' hheld hheld'
    obtain ⟨t, ht, rfl, hle, hle', k, hv⟩ := (heldAt_windowFiles h hapart).mp hheld
    obtain ⟨t', ht', rfl, hlt, hlt', k', hv'⟩ := (heldAt_windowFiles h hapart).mp hheld'
    rw [hperiod ht (htime hv) hle hle', hperiod ht' (htime hv') hlt hlt', outputPath_inj]
    constructor
    · intro heq
      rw [List.inj_on_of_nodup_map hapart ht ht' heq]
    · intro heq
      rw [eq_of_next_eq ht ht' heq]
  · intro path v hheld
    obtain ⟨t, ht, rfl, hle, hle', k, hv⟩ := (heldAt_windowFiles h hapart).mp hheld
    exact ⟨t, (hperiod ht (htime hv) hle hle').symm, by simp [outputPath]⟩

/-- The file of the first window is not overwritten where the values at the least time are found. -/
theorem named_of_partitions
    (hpart : Partitions p data (windowFiles p outPath f content ∅ (windowStarts p maxTime minTime)))
    (h : Holds data content) (hmin : data.Time minTime) {u : ℤ} (hu : minTime ≤ u) (hmax : p.getNextTp u ≤ maxTime) :
    roundByTimePeriod p (p.getNextTp u) ≠ roundByTimePeriod p minTime := by
  intro hround
  obtain ⟨k, v, hv, htime⟩ := ExtractedValues.time_iff.mp hmin
  obtain ⟨e, he, hve⟩ := List.mem_flatMap.mp ((hpart.once k).mem_iff.mpr hv)
  rcases Dict.lookup_insertAll (AList.mem_lookup_iff.mpr he) with
    ⟨before, t, after, hstarts, hkey, hval, hlast⟩ | ⟨hempty, -⟩
  · have hmem : t ∈ windowStarts p maxTime minTime := by
      rw [hstarts]
      exact List.mem_append_right _ List.mem_cons_self
    rw [← hval] at hve
    obtain ⟨-, hle, -⟩ := h.mem_valuesOf.mp hve
    -- the window that holds a value at the least time is the first
    have ht : t = minTime := by
      have := le_of_mem_windowStarts hmem
      omega
    have hlt := lt_of_le_of_lt hu (p.lt_next u)
    have hpair := @pairwise_windowStarts p maxTime minTime
    have hnext : p.getNextTp u ∈ windowStarts p maxTime minTime := mem_windowStarts.mpr ⟨hmax, .inr ⟨u, hu, rfl⟩⟩
    rw [hstarts] at hpair hnext
    rcases List.mem_append.mp hnext with hbefore | hafter
    · have hle' := (List.pairwise_append.mp hpair).2.2 _ hbefore t List.mem_cons_self
      have := p.lt_next (p.getNextTp u)
      omega
    · rcases List.mem_cons.mp hafter with heq | hafter
      · omega
      · exact hlast _ hafter (by rw [← hkey, ht, hround])
  · cases hempty

/-- No value is in two windows. -/
theorem not_two_windows (hpart : Partitions p data (windowFiles p outPath f content ∅ (windowStarts p maxTime minTime)))
    (h : Holds data content) (hapart : Apart p (windowStarts p maxTime minTime)) {k : ExtractDataProperties}
    {v : ExtractedValue} (hv : v ∈ data.get k) {t u : ℤ} (ht : t ∈ windowStarts p maxTime minTime)
    (hu : u ∈ windowStarts p maxTime minTime) (hlt : t < u) (hle : t ≤ v.timeDate) (hle' : v.timeDate ≤ p.getNextTp t)
    (hge : u ≤ v.timeDate) (hge' : v.timeDate ≤ p.getNextTp u) : False := by
  have hperm := (foundIn_windowFiles h hapart k).symm.trans (hpart.once k)
  obtain ⟨before, after, hstarts⟩ := List.append_of_mem ht
  have hmem : u ∈ after := by
    have hpair := @pairwise_windowStarts p maxTime minTime
    rw [hstarts] at hu hpair
    rcases List.mem_append.mp hu with hbefore | hu
    · have := (List.pairwise_append.mp hpair).2.2 _ hbefore t List.mem_cons_self
      have := p.lt_next u
      omega
    · rcases List.mem_cons.mp hu with rfl | hu
      · exact absurd hlt (lt_irrefl _)
      · exact hu
  obtain ⟨between, last, rfl⟩ := List.append_of_mem hmem
  have hcount := hperm.count_eq v
  have hone : ∀ {t}, t ≤ v.timeDate → v.timeDate ≤ p.getNextTp t →
      (window t (p.getNextTp t) (data.get k)).count v = (data.get k).count v := by
    intro t hle hle'
    rw [window_eq_filter (h.sorted k), List.count_filter (by simpa using ⟨hle, hle'⟩)]
  have hpos := List.count_pos_iff.mpr hv
  rw [hstarts] at hcount
  simp only [List.flatMap_append, List.flatMap_cons, List.count_append, hone hle hle', hone hge hge'] at hcount
  omega

/-- Where the windows partition the values, none is at the end of a period. -/
theorem Windowed.of_partitions
    (hpart : Partitions p data (windowFiles p outPath f content ∅ (windowStarts p maxTime minTime)))
    (h : Holds data content) (hmin : data.Time minTime) (hmax : data.Time maxTime) (hle : minTime ≤ maxTime) :
    Windowed p data minTime maxTime := by
  have hnamed := fun u hu hnext => named_of_partitions hpart h hmin (u := u) hu hnext
  have hapart := apart_of_named hnamed
  have hinside : ∀ t, data.Time t → t < p.getNextTp maxTime := by
    intro t ht
    obtain ⟨k, v, hv, rfl⟩ := ExtractedValues.time_iff.mp ht
    obtain ⟨u, hu, hwin⟩ := List.mem_flatMap.mp
      (((foundIn_windowFiles h hapart k).symm.trans (hpart.once k)).mem_iff.mpr hv)
    obtain ⟨-, huv, hvu⟩ := (mem_window (h.sorted k)).mp hwin
    have humax := (mem_windowStarts.mp hu).1
    have hnext := TimePeriod.next_mono (p := p) humax
    refine lt_of_le_of_ne (le_trans hvu hnext) fun heq => ?_
    -- the last window holds the latest first time too, which is in its period
    obtain ⟨k', v', hv', htime⟩ := ExtractedValues.time_iff.mp hmax
    have hlast : p.getNextTp u = p.getNextTp maxTime := le_antisymm hnext (by rw [← heq]; exact hvu)
    have hheld : HeldAt (windowFiles p outPath f content ∅ (windowStarts p maxTime minTime)) _ v :=
      (heldAt_windowFiles h hapart).mpr ⟨u, hu, rfl, huv, hvu, k, hv⟩
    have hheld' : HeldAt (windowFiles p outPath f content ∅ (windowStarts p maxTime minTime)) _ v' :=
      (heldAt_windowFiles h hapart).mpr ⟨u, hu, rfl, by rw [htime]; exact humax,
        by rw [htime, hlast]; exact (p.lt_next maxTime).le, k', hv'⟩
    have hsame := (hpart.periods _ _ _ _ hheld hheld').mp rfl
    have := p.lt_next v.timeDate
    rw [hsame, htime] at this
    omega
  refine ⟨hinside, fun t ht u hu hnext => ?_, hnamed⟩
  have hend := hinside t ht
  have hut := p.lt_next u
  obtain ⟨k, v, hv, rfl⟩ := ExtractedValues.time_iff.mp ht
  obtain ⟨s, hs, hsu, hus⟩ := exists_start hu (show u < p.getNextTp maxTime by omega) hle
  have hperiod := p.next_eq s u hsu hus
  by_cases htmax : v.timeDate ≤ maxTime
  · -- the window that ends at the value, and the one that begins there
    have hstart : v.timeDate ∈ windowStarts p maxTime minTime := mem_windowStarts.mpr ⟨htmax, .inr ⟨u, hu, hnext⟩⟩
    exact not_two_windows hpart h hapart hv hs hstart (by omega) (by omega) (by omega) (le_refl _) (p.lt_next _).le
  · by_cases humax : u ≤ maxTime
    · have := p.next_eq u maxTime humax (by omega)
      omega
    · have := p.next_eq maxTime u (by omega) (by omega)
      omega

end Partition

/-! ## The two writers -/

section Writers

variable {sort : SortByTime} {format : OutputDataFileFormats} {props : SearchProperties} {p : TimePeriod}
  {outPath : Path} {content : ℤ → ℤ → WindowFile} {data : ExtractedValues}

theorem mem_fronts {t : ℤ} : t ∈ fronts data ↔ ∃ e ∈ data.entries, ∃ v ∈ e.2.head?, v.timeDate = t := by
  simp [fronts, List.mem_filterMap, Option.map_eq_some_iff]

/-- The least of the first times of sorted series is the least time. -/
theorem le_of_fronts_min (h : Holds data content) {minTime : ℤ} (hmin : (fronts data).min? = some minTime) {t : ℤ}
    (ht : data.Time t) : minTime ≤ t := by
  obtain ⟨k, v, hv, rfl⟩ := ExtractedValues.time_iff.mp ht
  have hentry := ExtractedValues.entry_of_mem hv
  have hsorted := h.sorted k
  cases hvalues : data.get k with
  | nil => rw [hvalues] at hv; cases hv
  | cons w values =>
    rw [hvalues] at hv hsorted
    have hfront : w.timeDate ∈ fronts data := mem_fronts.mpr ⟨_, hentry, w, by simp [hvalues], rfl⟩
    refine le_trans ((List.min?_eq_some_iff.mp hmin).2 _ hfront) ?_
    rcases List.mem_cons.mp hv with rfl | hv
    · exact le_refl _
    · exact (List.pairwise_cons.mp hsorted).1 v hv

theorem time_of_mem_fronts {t : ℤ} (h : t ∈ fronts data) : data.Time t := by
  obtain ⟨e, he, v, hv, rfl⟩ := mem_fronts.mp h
  exact ⟨e, he, v, List.mem_of_mem_head? hv, rfl⟩

/-- Without a first time there is no value, and no file is needed. -/
theorem partitions_empty (h : fronts data = []) : Partitions p data ∅ where
  once k := by
    cases hvalues : data.get k with
    | nil => exact List.Perm.refl _
    | cons v values =>
      have hv : v ∈ data.get k := by
        rw [hvalues]
        exact List.mem_cons_self
      have hfront : v.timeDate ∈ fronts data :=
        mem_fronts.mpr ⟨_, ExtractedValues.entry_of_mem hv, v, by simp [hvalues], rfl⟩
      rw [h] at hfront
      cases hfront
  periods := by
    rintro path v path' v' ⟨e, he, -⟩
    cases he
  named := by
    rintro path v ⟨e, he, -⟩
    cases he

/-- What is written, when it is: nothing without a first time, else the files of the windows. -/
theorem writeWindows_eq_ok {files : Files WindowFile}
    (h : writeWindows format props p outPath content data = .ok files) :
    files = ∅ ∨ ∃ minTime maxTime f, (fronts data).min? = some minTime ∧ (fronts data).max? = some maxTime ∧
      props.Names ∧ files = windowFiles p outPath f content ∅ (windowStarts p maxTime minTime) := by
  cases hmin : (fronts data).min? with
  | none =>
    simp only [writeWindows, hmin, Except.ok.injEq] at h
    exact .inl h.symm
  | some minTime =>
    cases hmax : (fronts data).max? with
    | none =>
      rw [List.max?_eq_none_iff.mp hmax] at hmin
      cases hmin
    | some maxTime =>
      have hle := (List.min?_eq_some_iff.mp hmin).2 _ (List.max?_eq_some_iff.mp hmax).1
      simp only [writeWindows, hmin, hmax] at h
      have hnames := names_of_windowLoop hle h
      obtain ⟨f, hf⟩ := generateFilename_of_names hnames format
      rw [windowLoop_eq hf Files.named_empty] at h
      exact .inr ⟨minTime, maxTime, f, rfl, rfl, hnames, (Except.ok.inj h).symm⟩

/-- There is a file for each window at most, and it holds the window. -/
theorem of_windowFiles {f : FileName} {starts : List ℤ} :
    (windowFiles p outPath f content ∅ starts).entries.length ≤ starts.length ∧
      ∀ e ∈ (windowFiles p outPath f content ∅ starts).entries, ∃ t ∈ starts, e.2 = content t (p.getNextTp t) := by
  obtain ⟨lost, hlost⟩ := @Dict.exists_lost _ _ _ _ (fun t => outputPath outPath f (roundByTimePeriod p t))
    (fun t => content t (p.getNextTp t)) starts ∅
  rw [show (∅ : Files WindowFile).entries = [] from rfl, List.append_nil] at hlost
  constructor
  · have hlength := hlost.length_eq
    rw [List.length_append, List.length_map] at hlength
    exact Nat.le_of_add_right_le hlength.le
  · intro e he
    obtain ⟨t, ht, rfl⟩ := List.mem_map.mp (hlost.subset (List.mem_append_left _ he))
    exact ⟨t, ht, rfl⟩

/-- The windows partition sorted series exactly where no value is at the end of a period. -/
theorem writeWindows_partitions_iff (h : Holds data content) :
    (∃ files, writeWindows format props p outPath content data = .ok files ∧ Partitions p data files) ↔
      ∀ minTime ∈ (fronts data).min?, ∀ maxTime ∈ (fronts data).max?,
        props.Names ∧ Windowed p data minTime maxTime := by
  cases hmin : (fronts data).min? with
  | none =>
    have hnil := List.min?_eq_none_iff.mp hmin
    exact iff_of_true ⟨∅, by simp [writeWindows, hmin], partitions_empty hnil⟩ (by simp)
  | some minTime =>
    cases hmax : (fronts data).max? with
    | none =>
      rw [List.max?_eq_none_iff.mp hmax] at hmin
      cases hmin
    | some maxTime =>
      have hmemMax := (List.max?_eq_some_iff.mp hmax).1
      have hle := (List.min?_eq_some_iff.mp hmin).2 _ hmemMax
      have htimeMin := time_of_mem_fronts (List.min?_eq_some_iff.mp hmin).1
      have hwrite : writeWindows format props p outPath content data =
          windowLoop format props p outPath content maxTime minTime ∅ := by
        simp only [writeWindows, hmin, hmax]
      have hloop : ∀ {f : FileName}, (∀ period, generateFilename format props period = .ok { f with period }) →
          windowLoop format props p outPath content maxTime minTime ∅ =
            .ok (windowFiles p outPath f content ∅ (windowStarts p maxTime minTime)) :=
        fun hf => windowLoop_eq hf Files.named_empty
      rw [hwrite]
      constructor
      · rintro ⟨files, hfiles, hpart⟩ m hm M hM
        obtain rfl := Option.mem_some_iff.mp hm
        obtain rfl := Option.mem_some_iff.mp hM
        have hnames := names_of_windowLoop hle hfiles
        obtain ⟨f, hf⟩ := generateFilename_of_names hnames format
        rw [hloop hf] at hfiles
        obtain rfl := Except.ok.inj hfiles
        exact ⟨hnames, .of_partitions hpart h htimeMin (time_of_mem_fronts hmemMax) hle⟩
      · intro hcond
        obtain ⟨hnames, hw⟩ := hcond minTime rfl maxTime rfl
        obtain ⟨f, hf⟩ := generateFilename_of_names hnames format
        exact ⟨_, hloop hf, hw.partitions h (fun t ht => le_of_fronts_min h hmin ht) hle⟩

/-- The first time of each series. -/
def firstTimes (data : ExtractedValues) : List ℤ := data.entries.filterMap fun e => (e.2.map (·.timeDate)).min?

theorem head?_sort (sort : SortByTime) (values : List ExtractedValue) :
    (sort.sort values).head?.map (·.timeDate) = (values.map (·.timeDate)).min? := by
  have hperm := sort.perm values
  have hsorted := sort.sorted values
  cases hvalues : sort.sort values with
  | nil =>
    rw [hvalues] at hperm
    rw [List.nil_perm.mp hperm]
    rfl
  | cons v rest =>
    rw [hvalues] at hperm hsorted
    refine (List.min?_eq_some_iff.mpr ⟨List.mem_map_of_mem (hperm.mem_iff.mp List.mem_cons_self), ?_⟩).symm
    intro t ht
    obtain ⟨w, hw, rfl⟩ := List.mem_map.mp ht
    rcases List.mem_cons.mp (hperm.mem_iff.mpr hw) with rfl | hw
    · exact le_refl _
    · exact (List.pairwise_cons.mp hsorted).1 w hw

theorem fronts_sort : fronts (data.mapValues sort.sort) = firstTimes data := by
  simp only [fronts, firstTimes, Dict.mapValues, List.filterMap_map]
  exact List.filterMap_congr fun e _ => head?_sort sort e.2

theorem sort_nil (sort : SortByTime) : sort.sort [] = [] := List.perm_nil.mp (sort.perm [])

theorem get_sort (k : ExtractDataProperties) : (data.mapValues sort.sort).get k = sort.sort (data.get k) :=
  Dict.get_mapValues (sort_nil sort)

theorem time_sort {t : ℤ} : ExtractedValues.Time (data.mapValues sort.sort) t ↔ data.Time t := by
  rw [ExtractedValues.time_iff, ExtractedValues.time_iff]
  simp only [get_sort, (sort.perm _).mem_iff]

theorem partitions_sort {files : Files WindowFile} :
    Partitions p (data.mapValues sort.sort) files ↔ Partitions p data files := by
  have honce : (∀ k, (foundIn files k).Perm ((data.mapValues sort.sort).get k)) ↔
      ∀ k, (foundIn files k).Perm (data.get k) := by
    refine forall_congr' fun k => ?_
    rw [get_sort]
    exact ⟨fun h => h.trans (sort.perm _), fun h => h.trans (sort.perm _).symm⟩
  exact ⟨fun ⟨h, h', h''⟩ => ⟨honce.mp h, h', h''⟩, fun ⟨h, h', h''⟩ => ⟨honce.mpr h, h', h''⟩⟩

theorem windowed_sort {minTime maxTime : ℤ} :
    Windowed p (data.mapValues sort.sort) minTime maxTime ↔ Windowed p data minTime maxTime := by
  constructor
  · rintro ⟨hinside, hbetween, hnamed⟩
    exact ⟨fun t ht => hinside t (time_sort.mpr ht), fun t ht => hbetween t (time_sort.mpr ht), hnamed⟩
  · rintro ⟨hinside, hbetween, hnamed⟩
    exact ⟨fun t ht => hinside t (time_sort.mp ht), fun t ht => hbetween t (time_sort.mp ht), hnamed⟩

theorem holds_jsonContent : Holds (data.mapValues sort.sort) (jsonContent (data.mapValues sort.sort)) where
  sorted k := by
    rw [get_sort]
    exact sort.sorted _
  window _ _ _ := valuesOf_jsonContent

theorem holds_binContent : Holds (data.mapValues sort.sort) (binContent (data.mapValues sort.sort)) where
  sorted k := by
    rw [get_sort]
    exact sort.sorted _
  window _ _ _ := valuesOf_binContent

/-- The properties name the files, and the values are inside the periods up to that of the latest first time; unless
there is no value. -/
def Windowable (props : SearchProperties) (p : TimePeriod) (data : ExtractedValues) : Prop :=
  ∀ minTime ∈ (firstTimes data).min?, ∀ maxTime ∈ (firstTimes data).max?,
    props.Names ∧ Windowed p data minTime maxTime

theorem writeJsonFile_partitions_iff :
    (∃ files, writeJsonFile sort props p outPath data = .ok files ∧ Partitions p data files) ↔
      Windowable props p data := by
  have hiff := @writeWindows_partitions_iff .json props p outPath _ _ (@holds_jsonContent sort data)
  simp only [fronts_sort, partitions_sort, windowed_sort] at hiff
  exact hiff

theorem writeBinFile_eq : writeBinFile sort props p outPath data =
    writeWindows .bin props p outPath (binContent (data.mapValues sort.sort)) (data.mapValues sort.sort) := by
  unfold writeBinFile
  split
  · rename_i hempty
    have hfronts : fronts (data.mapValues sort.sort) = [] := by
      rw [fronts_sort, firstTimes, hempty]
      rfl
    simp [writeWindows, hfronts]
  · rfl

theorem writeBinFile_partitions_iff :
    (∃ files, writeBinFile sort props p outPath data = .ok files ∧ Partitions p data files) ↔
      Windowable props p data := by
  have hiff := @writeWindows_partitions_iff .bin props p outPath _ _ (@holds_binContent sort data)
  simp only [fronts_sort, partitions_sort, windowed_sort] at hiff
  rw [writeBinFile_eq]
  exact hiff

/-- **The JSON and the binary files partition the data exactly where no value is at the end of a period, or later than
the period of the latest of the first times of the series.** -/
theorem partitioned_iff_windowable (sort : SortByTime) (props : SearchProperties) (p : TimePeriod) (outPath : Path)
    (data : ExtractedValues) :
    ((∃ files, writeJsonFile sort props p outPath data = .ok files ∧ Partitions p data files) ↔
      Windowable props p data) ∧
    ((∃ files, writeBinFile sort props p outPath data = .ok files ∧ Partitions p data files) ↔
      Windowable props p data) :=
  ⟨writeJsonFile_partitions_iff, writeBinFile_partitions_iff⟩

end Writers

/-! ## Values that are lost, and values that are written twice -/

/-- A series that begins on one day and ends two days later. -/
def lostValues : ExtractedValues :=
  AList.insert (seriesAt 246) [⟨0, 1⟩, ⟨2 * nsPerDay, 2⟩] ∅

/-- A series with a value at midnight, and one that begins an hour later. -/
def doubledValues : ExtractedValues :=
  AList.insert (seriesAt 246) [⟨0, 1⟩, ⟨nsPerDay, 2⟩]
    (AList.insert (seriesAt 247) [⟨nsPerDay + 60 * 60 * nsPerSecond, 3⟩] ∅)

/-- Neither is partitioned over files of a day. -/
theorem not_partitioned (outPath : Path) (data : ExtractedValues) (hdata : data = lostValues ∨ data = doubledValues) :
    ¬ (∃ files, writeJsonFile .insertion searchedProps .day outPath data = .ok files ∧ Partitions .day data files) ∧
    ¬ (∃ files, writeBinFile .insertion searchedProps .day outPath data = .ok files ∧ Partitions .day data files) := by
  have hnot : ¬ Windowable searchedProps .day data := by
    intro h
    obtain rfl | rfl := hdata
    · obtain ⟨-, hw⟩ := h 0 (by decide) 0 (by decide)
      have := hw.inside (2 * nsPerDay) ⟨_, List.mem_cons_self, ⟨2 * nsPerDay, 2⟩, by simp, rfl⟩
      exact absurd this (by decide)
    · obtain ⟨-, hw⟩ := h 0 (by decide) (nsPerDay + 60 * 60 * nsPerSecond) (by decide)
      exact hw.between nsPerDay ⟨_, List.mem_cons_self, ⟨nsPerDay, 2⟩, by simp, rfl⟩ 0 (le_refl _) (by decide)
  exact ⟨fun h => hnot (writeJsonFile_partitions_iff.mp h), fun h => hnot (writeBinFile_partitions_iff.mp h)⟩

/-- A value two days later is lost, and one at midnight is written twice. -/
theorem values_lost_and_doubled :
    (¬ ∃ files, writeJsonFile .insertion searchedProps .day ⟨true, []⟩ lostValues = .ok files ∧
      Partitions .day lostValues files) ∧
    (¬ ∃ files, writeBinFile .insertion searchedProps .day ⟨true, []⟩ lostValues = .ok files ∧
      Partitions .day lostValues files) ∧
    (¬ ∃ files, writeJsonFile .insertion searchedProps .day ⟨true, []⟩ doubledValues = .ok files ∧
      Partitions .day doubledValues files) ∧
    ¬ ∃ files, writeBinFile .insertion searchedProps .day ⟨true, []⟩ doubledValues = .ok files ∧
      Partitions .day doubledValues files :=
  ⟨(not_partitioned _ _ (.inl rfl)).1, (not_partitioned _ _ (.inl rfl)).2, (not_partitioned _ _ (.inr rfl)).1,
    (not_partitioned _ _ (.inr rfl)).2⟩

end Mashroom
