import Mashroom.Data.Merge
import Mashroom.Data.Views

/-!
# Data.Reading — reading the strings of the views

The containers find a path by its text, and for that they read the strings that their keys refer to.  A view of the
pair or of the local path of a call is no longer readable after the call: `ViewStore.Reading` has the operations with
the strings they read, `.dangling` where one of them is gone.  A call that has a result makes the store by text
(`runReading_eq_ok`).  A path that has been recorded cannot be found again (`indexed_iff_unrecorded`), and a store with
a path in its indexes cannot be merged (`merge_disjoint_iff`).
-/

namespace Mashroom

/-! ## Live strings -/

/-- The strings that can be read: those of keys, and during `add_data` of a file the local path of the call. -/
def Owner.live (call : Option ℕ) : Owner → Bool
  | key _ _ => true
  | file n => call = some n
  | pair _ => false

theorem Owner.isKey_of_live {o : Owner} (h : o.live none = true) : o.IsKey := by
  cases o with
  | key call text => trivial
  | file n => simp [live] at h
  | pair n => simp [live] at h

namespace ViewStore

namespace Reading

variable {τ κ : Type} [DecidableEq κ] (hash : Storage → UInt64)

/-- A lookup compares the path with the keys of its hash, and reads their strings. -/
def readable (call : Option ℕ) (byPath : Views) (path : Storage) : Bool :=
  byPath.entries.all fun e => hash e.1 != hash path || e.2.1.live call

/-! ## The operations -/

/-- `byPath[path]` -/
def subscript (call : Option ℕ) (byPath : Views) (path : Storage) (owner : Owner) (g : List ℤ → List ℤ) :
    Except Fault Views :=
  if readable hash call byPath path then .ok (ViewStore.subscript byPath path owner g) else .error .dangling

/-- `add_data_lambda` -/
def addPosition (call : ℕ) (index : Dict κ Views) (key : κ) (file : Storage) (pos : ℤ) :
    Except Fault (Dict κ Views) :=
  if key ∈ index then do
    let byPath ← subscript hash (some call) (index.get key) file (.file call) (· ++ [pos])
    return index.insert key byPath
  else return index.insert key (ViewStore.subscript ∅ file (.pair call) (· ++ [pos]))

def record (call : ℕ) (d : ViewStore τ) (file : Storage) (msg : GribMsgDataInfo) : Except Fault (ViewStore τ) := do
  let positions := ViewStore.subscript d.positions file (.key call file) (· ++ [msg.bufPos])
  let byCommonData ← addPosition hash call d.byCommonData msg.key file msg.bufPos
  let byForecast ← addPosition hash call d.byForecast msg.tUnit file msg.bufPos
  let byGrid ← addPosition hash call d.byGrid msg.gridData file msg.bufPos
  let byLevel ← addPosition hash call d.byLevel msg.level file msg.bufPos
  return { d with positions, byCommonData, byForecast, byGrid, byLevel }

def addMsg (call : ℕ) (file : Storage) (d : ViewStore τ) (msg : GribMsgDataInfo) : Except Fault (ViewStore τ) :=
  match msg.err with
  | none => .error .indeterminate
  | some err => if err = .noneErr then record hash call d file msg else .ok d

/-- `add_data(path,grib_msg)` -/
def addFile (call : ℕ) (d : ViewStore τ) (path : List UInt8) (gribMsg : List GribMsgDataInfo) :
    Except Fault (ViewStore τ) :=
  let file := Storage.file path
  gribMsg.foldlM (addMsg hash call file)
    { d with positions := ViewStore.subscript d.positions file (.key call file) fun _ => [] }

/-- The paths under one key.  The view in the merged store is read for both lookups. -/
def mergePaths (positions this data : Views) : Except Fault Views :=
  data.entries.foldlM (fun acc e =>
    if e.2.1.live none then do
      let acc ← subscript hash none acc e.1 e.2.1 fun _ => e.2.2
      if e.1 ∈ positions then return acc else .error .element
    else .error .dangling) this

/-- `add_data_and_paths`, for one index. -/
def mergeIndex (positions : Views) (this data : Dict κ Views) : Except Fault (Dict κ Views) :=
  Dict.combineM (fun _ byPath pathPos => mergePaths hash positions byPath pathPos) this data

/-- `add_data(other)` -/
def merge [DecidableEq τ] (call : ℕ) (d other : ViewStore τ) : Except Fault (ViewStore τ) := do
  let positions := other.positions.entries.foldl
    (fun acc e => ViewStore.subscript acc e.1 (.key call e.1) fun _ => e.2.2) d.positions
  let byCommonData ← mergeIndex hash positions d.byCommonData other.byCommonData
  let byDate ← mergeIndex hash positions d.byDate other.byDate
  let byGrid ← mergeIndex hash positions d.byGrid other.byGrid
  let byForecast ← mergeIndex hash positions d.byForecast other.byForecast
  let byLevel ← mergeIndex hash positions d.byLevel other.byLevel
  return { positions, byCommonData, byDate, byGrid, byForecast, byLevel }

end Reading

end ViewStore

/-- The store the calls of a script make, reading the strings they need.  The calls are numbered as in
`runViews`. -/
def Script.runReading (hash : Storage → UInt64) (τ : Type) [DecidableEq τ] :
    Script → ℕ → Except Fault (ViewStore τ × ℕ)
  | empty, n => .ok ({}, n)
  | addFile s path gribMsg, n => do
    let (d, n) ← s.runReading hash τ n
    let d ← ViewStore.Reading.addFile hash n d path gribMsg
    return (d, n + 1)
  | merge s other, n => do
    let (d, n) ← s.runReading hash τ n
    let (e, n) ← other.runReading hash τ n
    let d ← ViewStore.Reading.merge hash n d e
    return (d, n + 1)

/-! ## What is read makes no difference -/

namespace ViewStore.Reading

variable {τ κ : Type} [DecidableEq κ] {hash : Storage → UInt64}

theorem subscript_eq_ok {call : Option ℕ} {byPath r : Views} {path : Storage} {owner : Owner} {g : List ℤ → List ℤ}
    (h : subscript hash call byPath path owner g = .ok r) :
    readable hash call byPath path = true ∧ r = ViewStore.subscript byPath path owner g := by
  unfold subscript at h
  split at h
  · rename_i hread
    exact ⟨hread, (Except.ok.inj h).symm⟩
  · cases h

theorem addPosition_eq_ok {call : ℕ} {index r : Dict κ Views} {key : κ} {file : Storage} {pos : ℤ}
    (h : addPosition hash call index key file pos = .ok r) : r = ViewStore.addPosition call index key file pos := by
  unfold addPosition at h
  unfold ViewStore.addPosition
  split at h
  · rename_i hk
    obtain ⟨byPath, hbyPath, h⟩ := bind_eq_ok.mp h
    rw [if_pos hk, ← (subscript_eq_ok hbyPath).2]
    exact (Except.ok.inj h).symm
  · rename_i hk
    rw [if_neg hk]
    exact (Except.ok.inj h).symm

theorem record_eq_ok {call : ℕ} {d r : ViewStore τ} {file : Storage} {msg : GribMsgDataInfo}
    (h : record hash call d file msg = .ok r) : r = d.record call file msg := by
  obtain ⟨byCommonData, h1, h⟩ := bind_eq_ok.mp h
  obtain ⟨byForecast, h2, h⟩ := bind_eq_ok.mp h
  obtain ⟨byGrid, h3, h⟩ := bind_eq_ok.mp h
  obtain ⟨byLevel, h4, h⟩ := bind_eq_ok.mp h
  rw [ViewStore.record, ← addPosition_eq_ok h1, ← addPosition_eq_ok h2, ← addPosition_eq_ok h3,
    ← addPosition_eq_ok h4]
  exact (Except.ok.inj h).symm

theorem addMsg_eq_ok {call : ℕ} {d r : ViewStore τ} {file : Storage} {msg : GribMsgDataInfo}
    (h : addMsg hash call file d msg = .ok r) : d.addMsg call file msg = .ok r := by
  unfold addMsg at h
  unfold ViewStore.addMsg
  cases he : msg.err with
  | none =>
    rw [he] at h
    cases h
  | some err =>
    rw [he] at h
    dsimp only at h ⊢
    split at h
    · rename_i hn
      rw [if_pos hn, record_eq_ok h]
    · rename_i hn
      rw [if_neg hn, h]

theorem foldlM_addMsg_eq_ok {call : ℕ} {file : Storage} {msgs : List GribMsgDataInfo} {d r : ViewStore τ}
    (h : msgs.foldlM (addMsg hash call file) d = .ok r) : msgs.foldlM (ViewStore.addMsg call file) d = .ok r := by
  induction msgs generalizing d with
  | nil => exact h
  | cons msg msgs ih =>
    rw [List.foldlM_cons] at h ⊢
    obtain ⟨d1, h1, h⟩ := bind_eq_ok.mp h
    rw [addMsg_eq_ok h1]
    exact ih h

theorem addFile_eq_ok {call : ℕ} {d r : ViewStore τ} {path : List UInt8} {msgs : List GribMsgDataInfo}
    (h : addFile hash call d path msgs = .ok r) : d.addFile call path msgs = .ok r := foldlM_addMsg_eq_ok h

theorem mergePaths_eq_ok {positions this data r : Views} (h : mergePaths hash positions this data = .ok r) :
    ViewStore.mergePaths positions this data = .ok r := by
  unfold mergePaths at h
  unfold ViewStore.mergePaths
  generalize data.entries = l at h
  induction l generalizing this with
  | nil => exact h
  | cons e l ih =>
    rw [List.foldlM_cons] at h ⊢
    obtain ⟨acc, hacc, h⟩ := bind_eq_ok.mp h
    split at hacc
    · obtain ⟨acc', hsub, hacc⟩ := bind_eq_ok.mp hacc
      split at hacc
      · rename_i hp
        cases hacc
        rw [if_pos hp, ← (subscript_eq_ok hsub).2]
        exact ih h
      · cases hacc
    · cases hacc

theorem mergeIndex_eq_ok {positions : Views} {this data r : Dict κ Views}
    (h : mergeIndex hash positions this data = .ok r) : ViewStore.mergeIndex positions this data = .ok r :=
  Dict.combineM_of_ok (fun _ _ _ _ => mergePaths_eq_ok) h

theorem merge_eq_ok [DecidableEq τ] {call : ℕ} {d e r : ViewStore τ} (h : merge hash call d e = .ok r) :
    d.merge call e = .ok r := by
  obtain ⟨byCommonData, h1, h⟩ := bind_eq_ok.mp h
  obtain ⟨byDate, h2, h⟩ := bind_eq_ok.mp h
  obtain ⟨byGrid, h3, h⟩ := bind_eq_ok.mp h
  obtain ⟨byForecast, h4, h⟩ := bind_eq_ok.mp h
  obtain ⟨byLevel, h5, h⟩ := bind_eq_ok.mp h
  simp only [ViewStore.merge, mergeIndex_eq_ok h1, mergeIndex_eq_ok h2, mergeIndex_eq_ok h3, mergeIndex_eq_ok h4,
    mergeIndex_eq_ok h5, ok_bind]
  exact h

end ViewStore.Reading

namespace Script

variable {τ : Type} [DecidableEq τ] {hash : Storage → UInt64}

/-- **A run that can read all its strings makes the store by text.** -/
theorem runReading_eq_ok : ∀ {s : Script} {n : ℕ} {r : ViewStore τ × ℕ},
    s.runReading hash τ n = .ok r → s.runViews τ n = .ok r
  | empty, n, r, h => h
  | addFile s path gribMsg, n, r, h => by
    obtain ⟨⟨d, n'⟩, hs, h⟩ := bind_eq_ok.mp h
    obtain ⟨d', hd, h⟩ := bind_eq_ok.mp h
    simp only [runViews, runReading_eq_ok hs, ok_bind, ViewStore.Reading.addFile_eq_ok hd]
    exact h
  | merge s other, n, r, h => by
    obtain ⟨⟨d, n'⟩, hs, h⟩ := bind_eq_ok.mp h
    obtain ⟨⟨e, n''⟩, ho, h⟩ := bind_eq_ok.mp h
    obtain ⟨d', hd, h⟩ := bind_eq_ok.mp h
    simp only [runViews, runReading_eq_ok hs, runReading_eq_ok ho, ok_bind, ViewStore.Reading.merge_eq_ok hd]
    exact h

end Script

/-! ## Stores without views -/

namespace ViewStore

variable {τ κ : Type} [DecidableEq κ] {d e r : ViewStore τ} {hash : Storage → UInt64} {call : ℕ}

/-- No path is in an index. -/
def Bare [DecidableEq τ] (d : ViewStore τ) : Prop := AllViews (fun _ => False) d

theorem entries_eq_nil {v : Views} (h : AllOwners (fun _ => False) v) : v.entries = [] := by
  refine List.eq_nil_iff_forall_not_mem.mpr fun e he => ?_
  exact h e.1 e.2 (AList.mem_lookup_iff.mpr he)

namespace Reading

/-- Of paths that are merged, every view is read. -/
theorem live_of_mergePaths {positions this data r : Views} (h : mergePaths hash positions this data = .ok r) :
    AllOwners (fun o => o.live none = true) data := by
  intro p x hx
  have hmem := AList.mem_lookup_iff.mp hx
  unfold mergePaths at h
  generalize data.entries = l at h hmem
  induction l generalizing this with
  | nil => exact absurd hmem List.not_mem_nil
  | cons e l ih =>
    rw [List.foldlM_cons] at h
    obtain ⟨acc, hacc, h⟩ := bind_eq_ok.mp h
    split at hacc
    · rename_i hlive
      obtain rfl | hmem := List.mem_cons.mp hmem
      · exact hlive
      · exact ih h hmem
    · cases hacc

theorem live_of_mergeIndex {positions : Views} {this data r : Dict κ Views}
    (h : mergeIndex hash positions this data = .ok r) : AllIn (fun o => o.live none = true) data := by
  intro k
  by_cases hk : k ∈ data
  · exact live_of_mergePaths (Dict.combineM_get_of_mem h hk)
  · rw [Dict.get_of_notMem hk]
    exact allOwners_empty

variable [DecidableEq τ]

/-- A merge merges each index, with the positions merged before. -/
theorem views_merge (h : merge hash call d e = .ok r) : ∃ positions,
    (∀ q : IndexedBy, mergeIndex hash positions (q.views d) (q.views e) = .ok (q.views r)) ∧
      mergeIndex hash positions d.byDate e.byDate = .ok r.byDate := by
  obtain ⟨byCommonData, h1, h⟩ := bind_eq_ok.mp h
  obtain ⟨byDate, h2, h⟩ := bind_eq_ok.mp h
  obtain ⟨byGrid, h3, h⟩ := bind_eq_ok.mp h
  obtain ⟨byForecast, h4, h⟩ := bind_eq_ok.mp h
  obtain ⟨byLevel, h5, h⟩ := bind_eq_ok.mp h
  cases h
  refine ⟨_, fun q => ?_, h2⟩
  cases q
  · exact h1
  · exact h4
  · exact h3
  · exact h5

/-- Of a store that is merged, every view is read. -/
theorem live_of_merge (h : merge hash call d e = .ok r) : AllViews (fun o => o.live none = true) e := by
  obtain ⟨positions, hindex, hdate⟩ := views_merge h
  exact ⟨fun q => live_of_mergeIndex (hindex q), live_of_mergeIndex hdate⟩

theorem bare_of_merge (h : merge hash call d e = .ok r) (he : Labelled e) : e.Bare := by
  refine ((live_of_merge h).and he.views).mono ?_
  rintro o ⟨hlive, hkey⟩
  exact hkey (Owner.isKey_of_live hlive)

omit [DecidableEq τ] in
variable (hash) in
theorem exists_mergeIndex (positions : Views) (this : Dict κ Views) {data : Dict κ Views}
    (h : AllIn (fun _ => False) data) : ∃ r, mergeIndex hash positions this data = .ok r := by
  refine Dict.combineM_exists fun entry hentry byPath => ⟨byPath, ?_⟩
  have hentries := entries_eq_nil (h entry.1)
  rw [Dict.get_of_mem hentry] at hentries
  rw [mergePaths, hentries]
  rfl

variable (hash call d) in
/-- A store without views is merged into any other: nothing is read. -/
theorem exists_merge (he : e.Bare) : ∃ r, merge hash call d e = .ok r := by
  unfold merge
  generalize e.positions.entries.foldl _ d.positions = positions
  have hindex := fun q : IndexedBy => exists_mergeIndex hash positions (q.views d) (he.index q)
  obtain ⟨byCommonData, h1⟩ := hindex .common
  obtain ⟨byDate, h2⟩ := exists_mergeIndex hash positions d.byDate he.byDate
  obtain ⟨byGrid, h3⟩ := hindex .grid
  obtain ⟨byForecast, h4⟩ := hindex .forecast
  obtain ⟨byLevel, h5⟩ := hindex .level
  change mergeIndex hash positions d.byCommonData e.byCommonData = _ at h1
  change mergeIndex hash positions d.byGrid e.byGrid = _ at h3
  change mergeIndex hash positions d.byForecast e.byForecast = _ at h4
  change mergeIndex hash positions d.byLevel e.byLevel = _ at h5
  simp only [h1, h2, h3, h4, h5, ok_bind]
  exact ⟨_, rfl⟩

end Reading

/-! ## The indexes and the positions -/

section Indexed

variable [DecidableEq τ]

/-- Each path can be found in each index, which lists the positions recorded for it. -/
structure Indexed (hash : Storage → UInt64) (d : ViewStore τ) : Prop where
  readable : ∀ (q : IndexedBy) (k : q.Key) (p : Storage), Reading.readable hash none ((q.views d).get k) p = true
  listed : d.erase.Indexed

/-- Nothing is recorded. -/
structure Blank (d : ViewStore τ) : Prop where
  bare : d.Bare
  positions : ∀ p, d.erase.positions.get p = []

omit [DecidableEq τ] in
theorem index_erase (q : IndexedBy) (d : ViewStore τ) : q.index d.erase = eraseIndex (q.views d) := by
  cases q <;> rfl

theorem Blank.indexed (hd : Blank d) : Indexed hash d where
  readable q k p := by
    rw [Reading.readable, entries_eq_nil (hd.bare.index q k)]
    rfl
  listed q p := by
    rw [hd.positions, index_erase, Mashroom.listed, Dict.total]
    refine Finset.sum_eq_zero fun k _ => ?_
    rw [get_eraseIndex, Dict.get_of_notMem]
    · rfl
    · rw [mem_eraseViews, ← AList.lookup_eq_none, Option.eq_none_iff_forall_not_mem]
      exact fun x hx => hd.bare.index q k p x hx

/-- A view that can be found is of a key. -/
theorem isKey_of_readable {v : Views} {p : Storage} {x : Owner × List ℤ} (hx : v.lookup p = some x)
    (h : Reading.readable hash none v p = true) : x.1.IsKey := by
  have hmem := List.all_eq_true.mp h ⟨p, x⟩ (AList.mem_lookup_iff.mp hx)
  exact Owner.isKey_of_live (by simpa using hmem)

variable (hash call) in
theorem blank_addFile (path : List UInt8) {msgs : List GribMsgDataInfo} (hd : Blank d)
    (h : ∀ msg ∈ msgs, ∃ err, msg.err = some err ∧ err ≠ .noneErr) :
    ∃ r, Reading.addFile hash call d path msgs = .ok r ∧ Blank r := by
  have hfold : ∀ r : ViewStore τ, msgs.foldlM (Reading.addMsg hash call (.file path)) r = .ok r := by
    intro r
    induction msgs with
    | nil => rfl
    | cons msg msgs ih =>
      obtain ⟨⟨err, herr, hne⟩, hmsgs⟩ := List.forall_mem_cons.mp h
      have hmsg : Reading.addMsg hash call (.file path) r msg = .ok r := by
        simp only [Reading.addMsg, herr, if_neg hne]
      rw [List.foldlM_cons, hmsg]
      exact ih hmsgs
  refine ⟨_, hfold _, ⟨fun q => ?_, hd.bare.byDate⟩, fun p => ?_⟩
  · rw [views_positions]
    exact hd.bare.index q
  · simp only [erase, eraseViews_subscript, Dict.get_update]
    split
    · rfl
    · exact hd.positions p

variable (hash call) in
theorem blank_merge (hd : Blank d) (he : Blank e) : ∃ r, Reading.merge hash call d e = .ok r ∧ Blank r := by
  obtain ⟨r, hr⟩ := Reading.exists_merge d hash call he.bare
  have hviews := Reading.merge_eq_ok hr
  have herase : d.erase.merge e.erase = .ok r.erase := by
    rw [erase_merge call, hviews]
    rfl
  refine ⟨r, hr, allViews_merge hviews hd.bare he.bare, fun p => ?_⟩
  rw [(DataStruct.positions_merge herase).1]
  split
  · exact he.positions p
  · exact hd.positions p

end Indexed

end ViewStore

namespace Script

open ViewStore

variable {τ : Type} [DecidableEq τ] {hash : Storage → UInt64}

/-- Every message that a call is given has an error. -/
def Unrecorded (s : Script) : Prop := ∀ (t : Script) (path : List UInt8) (gribMsg : List GribMsgDataInfo),
  addFile t path gribMsg ∈ s.stages → ∀ msg ∈ gribMsg, ∃ err, msg.err = some err ∧ err ≠ .noneErr

theorem Unrecorded.stage {s t : Script} (hs : s.Unrecorded) (ht : t ∈ s.stages) : t.Unrecorded :=
  fun u path gribMsg hu => hs u path gribMsg (stages_subset ht _ hu)

variable (τ hash) in
theorem Unrecorded.run : ∀ {s : Script}, s.Unrecorded → ∀ n,
    ∃ (d : ViewStore τ) (n' : ℕ), s.runReading hash τ n = .ok (d, n') ∧ Blank d
  | empty, _, n => ⟨{}, n, rfl, allViews_empty, fun _ => rfl⟩
  | addFile s path gribMsg, hs, n => by
    obtain ⟨d, n', hrun, hd⟩ := (hs.stage (List.mem_cons_of_mem _ s.self_mem_stages)).run n
    obtain ⟨r, hr, hblank⟩ := blank_addFile hash n' path hd (hs s path gribMsg List.mem_cons_self)
    refine ⟨r, n' + 1, ?_, hblank⟩
    simp only [runReading, hrun, ok_bind, hr, pure_eq_ok]
  | merge s other, hs, n => by
    obtain ⟨d, n', hrun, hd⟩ :=
      (hs.stage (List.mem_cons_of_mem _ (List.mem_append_left other.stages s.self_mem_stages))).run n
    obtain ⟨e, n'', hrun', he⟩ :=
      (hs.stage (List.mem_cons_of_mem _ (List.mem_append_right s.stages other.self_mem_stages))).run n'
    obtain ⟨r, hr, hblank⟩ := blank_merge hash n'' hd he
    refine ⟨r, n'' + 1, ?_, hblank⟩
    simp only [runReading, hrun, hrun', ok_bind, hr, pure_eq_ok]

omit [DecidableEq τ] in
theorem err_of_foldlM {call : ℕ} {file : Storage} {msgs : List GribMsgDataInfo} {d r : ViewStore τ}
    (h : msgs.foldlM (ViewStore.addMsg call file) d = .ok r) : ∀ msg ∈ msgs, ∃ err, msg.err = some err := by
  induction msgs generalizing d with
  | nil => simp
  | cons msg msgs ih =>
    rw [List.foldlM_cons] at h
    obtain ⟨d1, h1, h⟩ := bind_eq_ok.mp h
    refine List.forall_mem_cons.mpr ⟨?_, ih h⟩
    cases he : msg.err with
    | none =>
      rw [ViewStore.addMsg, he] at h1
      cases h1
    | some err => exact ⟨err, rfl⟩

variable (τ hash) in
/-- **Every store on the way is reached and indexed exactly when nothing is recorded**: every message of every call has
an error. -/
theorem indexed_iff_unrecorded (s : Script) :
    (∀ t ∈ s.stages, ∀ n, ∃ (d : ViewStore τ) (n' : ℕ), t.runReading hash τ n = .ok (d, n') ∧ Indexed hash d) ↔
      s.Unrecorded := by
  constructor
  · intro h t path gribMsg ht msg hmsg
    obtain ⟨d, n', hrun, hd⟩ := h _ ht 0
    have hviews := runReading_eq_ok hrun
    obtain ⟨r, -, hadd⟩ := runViews_addFile hviews
    obtain ⟨err, herr⟩ := err_of_foldlM hadd msg hmsg
    refine ⟨err, herr, ?_⟩
    rintro rfl
    obtain ⟨k, x, hx⟩ := exists_view hadd hmsg herr
    exact (run_labelled hviews).views.index .common k _ x hx (isKey_of_readable hx (hd.readable .common k _))
  · intro hs t ht n
    obtain ⟨d, n', hrun, hd⟩ := (hs.stage ht).run τ hash n
    exact ⟨d, n', hrun, hd.indexed⟩

/-! ### One file -/

/-- A hash of the text of a path. -/
def textHash (p : Storage) : UInt64 := p.path.foldl (fun h x => 31 * h + x.toUInt64) 0

/-- The lookup of the file of one message reads the string of a pair that is gone; so does a second message with its
properties in the same call. -/
theorem oneFile_not_found :
    (∃ d n, (addFile .empty [97] [firstMessage]).runReading textHash ℕ 0 = .ok (d, n) ∧
      d.erase.positions.get (.file [97]) = [0] ∧ ¬ Indexed textHash d) ∧
    (addFile .empty [97] [firstMessage, firstMessage]).runReading textHash ℕ 0 = .error .dangling := by
  refine ⟨⟨_, _, rfl, by decide, fun h => ?_⟩, rfl⟩
  exact absurd (h.readable .common firstMessage.key (.file [97])) (by decide)

end Script

/-! ## Merging stores that share no path -/

namespace ViewStore

variable {τ : Type} [DecidableEq τ] {a b c : ViewStore τ} {hash : Storage → UInt64} {call : ℕ}

/-- The store is made by calls of `add_data` that can read their strings. -/
def Reachable (hash : Storage → UInt64) (a : ViewStore τ) : Prop :=
  ∃ (s : Script) (n n' : ℕ), s.runReading hash τ n = .ok (a, n')

/-- No path is a path of both stores. -/
def PathsDisjoint (a b : ViewStore τ) : Prop := DataStruct.PathsDisjoint a.erase b.erase

/-- The merge joins the two stores, and so does the merge in the other order. -/
def MergesEither (hash : Storage → UInt64) (call : ℕ) (a b : ViewStore τ) : Prop :=
  ∃ ab ba, Reading.merge hash call a b = .ok ab ∧ Reading.merge hash call b a = .ok ba ∧
    DataStruct.Joins a.erase b.erase ab.erase ∧ DataStruct.Same ab.erase ba.erase

/-- The merges of three stores in either grouping are equal. -/
def MergesGrouped (hash : Storage → UInt64) (call : ℕ) (a b c : ViewStore τ) : Prop :=
  ∃ ab bc abc abc', Reading.merge hash call a b = .ok ab ∧ Reading.merge hash call b c = .ok bc ∧
    Reading.merge hash (call + 1) ab c = .ok abc ∧ Reading.merge hash (call + 1) a bc = .ok abc' ∧
      DataStruct.Same abc.erase abc'.erase

theorem Reachable.labelled (ha : Reachable hash a) : Labelled a := by
  obtain ⟨s, n, n', hs⟩ := ha
  exact Script.run_labelled (Script.runReading_eq_ok hs)

theorem Reachable.erase (ha : Reachable hash a) : DataStruct.Reachable a.erase := by
  obtain ⟨s, n, n', hs⟩ := ha
  refine ⟨s, ?_⟩
  rw [Script.run_erase s n, Script.runReading_eq_ok hs]
  rfl

/-- Where the strings can be read, the merge is that of the stores by text. -/
theorem merge_erase {r : ViewStore τ} (h : Reading.merge hash call a b = .ok r) :
    a.erase.merge b.erase = .ok r.erase := by
  rw [erase_merge call, Reading.merge_eq_ok h]
  rfl

theorem bare_merge {r : ViewStore τ} (h : Reading.merge hash call a b = .ok r) (ha : a.Bare) (hb : b.Bare) : r.Bare :=
  allViews_merge (Reading.merge_eq_ok h) ha hb

theorem mergesEither_iff (ha : Reachable hash a) (hb : Reachable hash b) (hab : PathsDisjoint a b) :
    MergesEither hash call a b ↔ a.Bare ∧ b.Bare := by
  constructor
  · rintro ⟨ab, ba, h, h', -⟩
    exact ⟨Reading.bare_of_merge h' ha.labelled, Reading.bare_of_merge h hb.labelled⟩
  · rintro ⟨hbare, hbare'⟩
    obtain ⟨ab, h⟩ := Reading.exists_merge a hash call hbare'
    obtain ⟨ba, h'⟩ := Reading.exists_merge b hash call hbare
    obtain ⟨r, r', hr, hr', hjoins, hsame, -⟩ := DataStruct.merge_disjoint ha.erase hb.erase hab
    obtain rfl := Except.ok.inj (hr.symm.trans (merge_erase h))
    obtain rfl := Except.ok.inj (hr'.symm.trans (merge_erase h'))
    exact ⟨ab, ba, h, h', hjoins, hsame⟩

theorem mergesGrouped_of_bare (ha : Reachable hash a) (hb : Reachable hash b) (hc : Reachable hash c)
    (hab : PathsDisjoint a b) (hac : PathsDisjoint a c) (hbc : PathsDisjoint b c) (hbare : b.Bare) (hbare' : c.Bare) :
    MergesGrouped hash call a b c := by
  obtain ⟨ab, h⟩ := Reading.exists_merge a hash call hbare
  obtain ⟨bc, hm⟩ := Reading.exists_merge b hash call hbare'
  obtain ⟨abc, h1⟩ := Reading.exists_merge ab hash (call + 1) hbare'
  obtain ⟨abc', h2⟩ := Reading.exists_merge a hash (call + 1) (bare_merge hm hbare hbare')
  obtain ⟨r, -, hr, -, -, -, hthree⟩ := DataStruct.merge_disjoint ha.erase hb.erase hab
  obtain ⟨rm, r1, r2, hrm, hr1, hr2, hsame⟩ := hthree c.erase hc.erase hac hbc
  obtain rfl := Except.ok.inj (hr.symm.trans (merge_erase h))
  obtain rfl := Except.ok.inj (hrm.symm.trans (merge_erase hm))
  obtain rfl := Except.ok.inj (hr1.symm.trans (merge_erase h1))
  obtain rfl := Except.ok.inj (hr2.symm.trans (merge_erase h2))
  exact ⟨ab, bc, abc, abc', h, hm, h1, h2, hsame⟩

/-- **Stores without a common path are merged to their join, in either order and three of them in any grouping, exactly
when no path is in an index of them.** -/
theorem merge_disjoint_iff (call : ℕ) (ha : Reachable hash a) (hb : Reachable hash b) (hab : PathsDisjoint a b) :
    (MergesEither hash call a b ↔ a.Bare ∧ b.Bare) ∧
      ∀ c, Reachable hash c → PathsDisjoint a c → PathsDisjoint b c →
        (MergesEither hash call a b ∧ MergesGrouped hash call a b c ↔ a.Bare ∧ b.Bare ∧ c.Bare) := by
  refine ⟨mergesEither_iff ha hb hab, fun c hc hac hbc => ?_⟩
  rw [mergesEither_iff ha hb hab, and_assoc]
  refine and_congr_right fun _ => and_congr_right fun hbare => ⟨?_, ?_⟩
  · rintro ⟨ab, bc, abc, abc', -, hm, -⟩
    exact Reading.bare_of_merge hm hc.labelled
  · exact mergesGrouped_of_bare ha hb hc hab hac hbc hbare

/-- The store of a file of one message. -/
def oneFile (path : List UInt8) : ViewStore ℕ :=
  ViewStore.record 0 { positions := subscript ∅ (.file path) (.key 0 (.file path)) fun _ => [] } (.file path)
    Script.firstMessage

theorem mem_oneFile {path : List UInt8} {p : Storage} : p ∈ (oneFile path).erase.positions ↔ p = .file path := by
  simp only [oneFile, record, erase, eraseViews_subscript, Dict.mem_update]
  have hempty : p ∉ eraseViews ∅ := AList.notMem_empty p
  simp [hempty]

theorem oneFile_disjoint {path path' : List UInt8} (h : path ≠ path') :
    PathsDisjoint (oneFile path) (oneFile path') := by
  intro p hp hp'
  rw [mem_oneFile] at hp hp'
  rw [hp] at hp'
  injection hp'
  contradiction

theorem merge_disjoint_iff_files :
    (MergesEither Script.textHash 1 (oneFile [97]) (oneFile [98]) ↔ (oneFile [97]).Bare ∧ (oneFile [98]).Bare) ∧
      ∀ c, Reachable Script.textHash c → PathsDisjoint (oneFile [97]) c → PathsDisjoint (oneFile [98]) c →
        (MergesEither Script.textHash 1 (oneFile [97]) (oneFile [98]) ∧
            MergesGrouped Script.textHash 1 (oneFile [97]) (oneFile [98]) c ↔
          (oneFile [97]).Bare ∧ (oneFile [98]).Bare ∧ c.Bare) :=
  merge_disjoint_iff 1 ⟨.addFile .empty [97] [Script.firstMessage], 0, 1, rfl⟩
    ⟨.addFile .empty [98] [Script.firstMessage], 0, 1, rfl⟩ (oneFile_disjoint (by decide))

/-- The views of the merged store are read, and their strings are gone. -/
theorem oneFile_not_merged :
    Reachable Script.textHash (oneFile [97]) ∧ Reachable Script.textHash (oneFile [98]) ∧
      PathsDisjoint (oneFile [97]) (oneFile [98]) ∧
      Reading.merge Script.textHash 1 (oneFile [97]) (oneFile [98]) = .error .dangling ∧
      ¬ MergesEither Script.textHash 1 (oneFile [97]) (oneFile [98]) := by
  have hmerge : Reading.merge Script.textHash 1 (oneFile [97]) (oneFile [98]) = .error .dangling := rfl
  refine ⟨⟨.addFile .empty [97] [Script.firstMessage], 0, 1, rfl⟩,
    ⟨.addFile .empty [98] [Script.firstMessage], 0, 1, rfl⟩, oneFile_disjoint (by decide), hmerge, ?_⟩
  rintro ⟨ab, ba, h, -⟩
  cases hmerge.symm.trans h

end ViewStore

end Mashroom
