import Mashroom.Data.Indexed

/-!
# Data.Views — the strings that the paths in the indexes refer to

The keys of `positions_` are paths of their own; the paths in the indexes are views of strings that live elsewhere.
`ViewStore` is a store with the owner of each of these strings, which the operations do not look at (`run_erase`).
A view is made of the path at hand: of the local path of a call of `add_data`, of the copy in the pair that is
inserted, or of a view of the merged store; of a key of `positions_` it is never made (`run_labelled`).  So a store
refers to its own strings only as long as its indexes are empty (`views_owned_iff`).
-/

namespace Mashroom

/-- Where a string lives. -/
inductive Owner where
  /-- in a key of `positions_`, which a call made of the path `text` -/
  | key (call : ℕ) (text : Storage)
  /-- in `file`, the local path of a call -/
  | file (call : ℕ)
  /-- in the pair that a call makes for an insertion, until the end of the statement -/
  | pair (call : ℕ)
  deriving DecidableEq

instance : Inhabited Owner := ⟨.file 0⟩

/-- Positions by the text of a path, each with the owner of the string. -/
abbrev Views := Dict Storage (Owner × List ℤ)

/-- A store, with the owners of its strings. -/
structure ViewStore (τ : Type) where
  positions : Views := ∅
  byCommonData : Dict CommonDataProperties Views := ∅
  byDate : Dict τ Views := ∅
  byGrid : Dict GridInfo Views := ∅
  byForecast : Dict TimeForecast Views := ∅
  byLevel : Dict Level Views := ∅

namespace ViewStore

variable {τ κ : Type} [DecidableEq κ]

/-! ## The operations -/

/-- `byPath[path]`, the positions there changed by `g`: a path that is there stays, a new one lives in `owner`. -/
def subscript (byPath : Views) (path : Storage) (owner : Owner) (g : List ℤ → List ℤ) : Views :=
  match byPath.lookup path with
  | some v => byPath.insert path (v.1, g v.2)
  | none => byPath.insert path (owner, g [])

/-- `add_data_lambda`: under a key that is there a new view is made of the local path, under a new key of the path
in the pair. -/
def addPosition (call : ℕ) (index : Dict κ Views) (key : κ) (file : Storage) (pos : ℤ) : Dict κ Views :=
  if key ∈ index then index.insert key (subscript (index.get key) file (.file call) (· ++ [pos]))
  else index.insert key (subscript ∅ file (.pair call) (· ++ [pos]))

def record (call : ℕ) (d : ViewStore τ) (file : Storage) (msg : GribMsgDataInfo) : ViewStore τ :=
  { d with
    positions := subscript d.positions file (.key call file) (· ++ [msg.bufPos])
    byCommonData := addPosition call d.byCommonData msg.key file msg.bufPos
    byForecast := addPosition call d.byForecast msg.tUnit file msg.bufPos
    byGrid := addPosition call d.byGrid msg.gridData file msg.bufPos
    byLevel := addPosition call d.byLevel msg.level file msg.bufPos }

def addMsg (call : ℕ) (file : Storage) (d : ViewStore τ) (msg : GribMsgDataInfo) : Except Fault (ViewStore τ) :=
  match msg.err with
  | none => .error .indeterminate
  | some err => if err = .noneErr then .ok (d.record call file msg) else .ok d

/-- `add_data(path,grib_msg)` -/
def addFile (call : ℕ) (d : ViewStore τ) (path : List UInt8) (gribMsg : List GribMsgDataInfo) :
    Except Fault (ViewStore τ) :=
  let file := Storage.file path
  gribMsg.foldlM (addMsg call file)
    { d with positions := subscript d.positions file (.key call file) fun _ => [] }

/-- The paths under one key: a new view is a copy of the view in the merged store. -/
def mergePaths (positions this data : Views) : Except Fault Views :=
  data.entries.foldlM (fun acc e =>
    if e.1 ∈ positions then .ok (subscript acc e.1 e.2.1 fun _ => e.2.2) else .error .element) this

/-- `add_data_and_paths`, for one index. -/
def mergeIndex (positions : Views) (this data : Dict κ Views) : Except Fault (Dict κ Views) :=
  Dict.combineM (fun _ byPath pathPos => mergePaths positions byPath pathPos) this data

/-- `add_data(other)` -/
def merge [DecidableEq τ] (call : ℕ) (d other : ViewStore τ) : Except Fault (ViewStore τ) := do
  let positions := other.positions.entries.foldl (fun acc e => subscript acc e.1 (.key call e.1) fun _ => e.2.2)
    d.positions
  let byCommonData ← mergeIndex positions d.byCommonData other.byCommonData
  let byDate ← mergeIndex positions d.byDate other.byDate
  let byGrid ← mergeIndex positions d.byGrid other.byGrid
  let byForecast ← mergeIndex positions d.byForecast other.byForecast
  let byLevel ← mergeIndex positions d.byLevel other.byLevel
  return { positions, byCommonData, byDate, byGrid, byForecast, byLevel }

end ViewStore

/-- The store the calls of a script make.  The calls are numbered from `n` on; with the store goes the next
number. -/
def Script.runViews (τ : Type) [DecidableEq τ] : Script → ℕ → Except Fault (ViewStore τ × ℕ)
  | empty, n => .ok ({}, n)
  | addFile s path gribMsg, n => do
    let (d, n) ← s.runViews τ n
    let d ← d.addFile n path gribMsg
    return (d, n + 1)
  | merge s other, n => do
    let (d, n) ← s.runViews τ n
    let (e, n) ← other.runViews τ n
    let d ← d.merge n e
    return (d, n + 1)

/-! ## Without the owners -/

namespace ViewStore

variable {τ κ : Type} [DecidableEq κ]

/-- The positions without the owners. -/
def eraseViews (v : Views) : Positions := v.mapValues Prod.snd

def eraseIndex (index : Dict κ Views) : Index κ := index.mapValues eraseViews

/-- The store without the owners. -/
def erase (d : ViewStore τ) : DataStruct τ where
  positions := eraseViews d.positions
  byCommonData := eraseIndex d.byCommonData
  byDate := eraseIndex d.byDate
  byGrid := eraseIndex d.byGrid
  byForecast := eraseIndex d.byForecast
  byLevel := eraseIndex d.byLevel

theorem mem_eraseViews {v : Views} {p : Storage} : p ∈ eraseViews v ↔ p ∈ v := Dict.mem_mapValues

theorem eraseViews_subscript (v : Views) (p : Storage) (o : Owner) (g : List ℤ → List ℤ) :
    eraseViews (subscript v p o g) = (eraseViews v).update p g := by
  rw [Dict.update, Dict.get, eraseViews, eraseViews, Dict.lookup_mapValues, subscript]
  cases v.lookup p <;> exact Dict.mapValues_insert

theorem get_eraseIndex (index : Dict κ Views) (k : κ) : (eraseIndex index).get k = eraseViews (index.get k) :=
  Dict.get_mapValues rfl

theorem eraseIndex_addPosition (call : ℕ) (index : Dict κ Views) (k : κ) (file : Storage) (pos : ℤ) :
    eraseIndex (addPosition call index k file pos) = DataStruct.addPosition (eraseIndex index) k file pos := by
  rw [DataStruct.addPosition, Dict.update, get_eraseIndex, addPosition]
  split
  · rw [eraseIndex, Dict.mapValues_insert, eraseViews_subscript]
    rfl
  · rename_i hk
    rw [eraseIndex, Dict.mapValues_insert, eraseViews_subscript, Dict.get_of_notMem hk]
    rfl

theorem erase_addMsg (call : ℕ) (file : Storage) (d : ViewStore τ) (msg : GribMsgDataInfo) :
    DataStruct.addMsg file d.erase msg = erase <$> addMsg call file d msg := by
  rw [DataStruct.addMsg, addMsg]
  cases msg.err with
  | none => rfl
  | some err =>
    dsimp only
    split
    · refine congrArg Except.ok ?_
      simp only [erase, record, DataStruct.record, eraseViews_subscript, eraseIndex_addPosition]
    · rfl

theorem erase_addFile (call : ℕ) (d : ViewStore τ) (path : List UInt8) (msgs : List GribMsgDataInfo) :
    d.erase.addFile path msgs = erase <$> d.addFile call path msgs := by
  have hfold : ∀ (msgs : List GribMsgDataInfo) (d : ViewStore τ),
      msgs.foldlM (DataStruct.addMsg (.file path)) d.erase = erase <$> msgs.foldlM (addMsg call (.file path)) d := by
    intro msgs
    induction msgs with
    | nil => exact fun _ => rfl
    | cons msg msgs ih =>
      intro d
      rw [List.foldlM_cons, List.foldlM_cons, erase_addMsg call]
      cases addMsg call (.file path) d msg with
      | error e => rfl
      | ok d' => exact ih d'
  rw [addFile, ← hfold, DataStruct.addFile]
  simp only [erase, eraseViews_subscript]
  rfl

theorem erase_mergePaths (positions this data : Views) :
    DataStruct.mergePaths (eraseViews positions) (eraseViews this) (eraseViews data) =
      eraseViews <$> mergePaths positions this data := by
  unfold DataStruct.mergePaths Dict.combineM mergePaths
  simp only [mem_eraseViews]
  show (data.entries.map fun e => (⟨e.1, e.2.2⟩ : Sigma fun _ : Storage => List ℤ)).foldlM _ _ = _
  generalize data.entries = l
  induction l generalizing this with
  | nil => rfl
  | cons e l ih =>
    rw [List.map_cons, List.foldlM_cons, List.foldlM_cons]
    by_cases hp : e.1 ∈ positions
    · simp only [if_pos hp]
      have hsub := ih (subscript this e.1 e.2.1 fun _ => e.2.2)
      rw [eraseViews_subscript] at hsub
      exact hsub
    · simp only [if_neg hp]
      rfl

theorem erase_mergeIndex (positions : Views) (this data : Dict κ Views) :
    DataStruct.mergeIndex (eraseViews positions) (eraseIndex this) (eraseIndex data) =
      eraseIndex <$> mergeIndex positions this data := by
  have hpaths : ∀ (_ : κ) (v v' : Views), DataStruct.mergePaths (eraseViews positions) (eraseViews v) (eraseViews v') =
      eraseViews <$> mergePaths positions v v' := fun _ v v' => erase_mergePaths positions v v'
  have hdefault : eraseViews default = default := rfl
  exact Dict.combineM_mapValues hdefault hpaths this data

theorem erase_mergePositions (call : ℕ) (this data : Views) :
    Dict.combineM (fun _ _ ps => (.ok ps : Except Fault (List ℤ))) (eraseViews this) (eraseViews data) =
      .ok (eraseViews (data.entries.foldl (fun acc e => subscript acc e.1 (.key call e.1) fun _ => e.2.2) this)) := by
  unfold Dict.combineM
  show (data.entries.map fun e => (⟨e.1, e.2.2⟩ : Sigma fun _ : Storage => List ℤ)).foldlM _ _ = _
  generalize data.entries = l
  induction l generalizing this with
  | nil => rfl
  | cons e l ih =>
    rw [List.map_cons, List.foldlM_cons, List.foldl_cons, ← ih, eraseViews_subscript]
    rfl

theorem erase_merge [DecidableEq τ] (call : ℕ) (d e : ViewStore τ) :
    d.erase.merge e.erase = erase <$> d.merge call e := by
  rw [DataStruct.merge, merge]
  simp only [erase, erase_mergePositions call, ok_bind, erase_mergeIndex]
  generalize e.positions.entries.foldl _ d.positions = positions
  cases mergeIndex positions d.byCommonData e.byCommonData with
  | error _ => rfl
  | ok _ =>
  cases mergeIndex positions d.byDate e.byDate with
  | error _ => rfl
  | ok _ =>
  cases mergeIndex positions d.byGrid e.byGrid with
  | error _ => rfl
  | ok _ =>
  cases mergeIndex positions d.byForecast e.byForecast with
  | error _ => rfl
  | ok _ => cases mergeIndex positions d.byLevel e.byLevel <;> rfl

end ViewStore

namespace Script

variable {τ : Type} [DecidableEq τ]

/-- **The owners change nothing**: without them, the calls make the store they made. -/
theorem run_erase : ∀ (s : Script) (n : ℕ), s.run τ = (fun r => r.1.erase) <$> s.runViews τ n
  | empty, n => rfl
  | addFile s path gribMsg, n => by
    rw [run, runViews, run_erase s n]
    cases s.runViews τ n with
    | error e => rfl
    | ok r =>
      show r.1.erase.addFile path gribMsg = _
      rw [ViewStore.erase_addFile r.2]
      show _ = (fun r => r.1.erase) <$> (r.1.addFile r.2 path gribMsg >>= fun d => .ok (d, r.2 + 1))
      cases r.1.addFile r.2 path gribMsg <;> rfl
  | merge s other, n => by
    rw [run, runViews, run_erase s n]
    cases s.runViews τ n with
    | error e => rfl
    | ok r =>
      show (other.run τ >>= fun e => r.1.erase.merge e) = _
      rw [run_erase other r.2]
      show _ = (fun r => r.1.erase) <$> (other.runViews τ r.2 >>= fun e =>
        r.1.merge e.2 e.1 >>= fun d => .ok (d, e.2 + 1))
      cases other.runViews τ r.2 with
      | error e => rfl
      | ok e =>
        show r.1.erase.merge e.1.erase = _
        rw [ViewStore.erase_merge e.2]
        show _ = (fun r => r.1.erase) <$> (r.1.merge e.2 e.1 >>= fun d => .ok (d, e.2 + 1))
        cases r.1.merge e.2 e.1 <;> rfl

end Script

/-! ## The owners in a store -/

/-- An index of a store with owners. -/
def IndexedBy.views {τ : Type} (d : ViewStore τ) : (q : IndexedBy) → Dict q.Key Views
  | common => d.byCommonData
  | forecast => d.byForecast
  | grid => d.byGrid
  | level => d.byLevel

namespace ViewStore

variable {τ κ : Type} [DecidableEq κ] {P : Owner → Prop}

/-- The owners of the paths. -/
def AllOwners (P : Owner → Prop) (v : Views) : Prop := ∀ p x, v.lookup p = some x → P x.1

/-- The owners of the paths under all keys of an index. -/
def AllIn (P : Owner → Prop) (index : Dict κ Views) : Prop := ∀ k, AllOwners P (index.get k)

/-- The owners of the views in a store. -/
structure AllViews [DecidableEq τ] (P : Owner → Prop) (d : ViewStore τ) : Prop where
  index : ∀ q : IndexedBy, AllIn P (q.views d)
  byDate : AllIn P d.byDate

theorem lookup_subscript (v : Views) (p : Storage) (o : Owner) (g : List ℤ → List ℤ) (p' : Storage) :
    (subscript v p o g).lookup p' =
      if p' = p then some ((v.lookup p).elim o Prod.fst, g ((v.lookup p).elim [] Prod.snd)) else v.lookup p' := by
  unfold subscript
  by_cases hp : p' = p
  · rw [if_pos hp, hp]
    cases v.lookup p <;> exact AList.lookup_insert _
  · rw [if_neg hp]
    cases v.lookup p <;> exact AList.lookup_insert_ne hp

/-- A new path is owned by `o`; what was there stays. -/
theorem allOwners_subscript {v : Views} {p : Storage} {o : Owner} {g : List ℤ → List ℤ} (hv : AllOwners P v)
    (ho : P o) : AllOwners P (subscript v p o g) := by
  intro p' x hx
  rw [lookup_subscript] at hx
  split at hx
  · obtain rfl := Option.some.inj hx
    cases h : v.lookup p with
    | none => exact ho
    | some y => exact hv p y h
  · exact hv p' x hx

theorem allOwners_empty : AllOwners P ∅ := by
  intro p x hx
  rw [AList.lookup_empty] at hx
  cases hx

theorem allViews_empty [DecidableEq τ] : AllViews P ({} : ViewStore τ) := by
  refine ⟨fun q => ?_, fun k => allOwners_empty⟩
  cases q <;> exact fun k => allOwners_empty

theorem allIn_addPosition {call : ℕ} {index : Dict κ Views} {key : κ} {file : Storage} {pos : ℤ}
    (h : AllIn P index) (hfile : P (.file call)) (hpair : P (.pair call)) :
    AllIn P (addPosition call index key file pos) := by
  intro k
  unfold addPosition
  split <;> rw [Dict.get_insert] <;> split
  · exact allOwners_subscript (h key) hfile
  · exact h k
  · exact allOwners_subscript allOwners_empty hpair
  · exact h k

theorem allOwners_mergePaths {positions this data r : Views} (h : mergePaths positions this data = .ok r)
    (hthis : AllOwners P this) (hdata : AllOwners P data) : AllOwners P r := by
  refine foldlM_keeps h hthis fun e he this r hstep hthis => ?_
  split at hstep
  · cases hstep
    exact allOwners_subscript hthis (hdata e.1 e.2 (AList.mem_lookup_iff.mpr he))
  · cases hstep

theorem allIn_mergeIndex {positions : Views} {this data r : Dict κ Views} (h : mergeIndex positions this data = .ok r)
    (hthis : AllIn P this) (hdata : AllIn P data) : AllIn P r := by
  intro k
  by_cases hk : k ∈ data
  · exact allOwners_mergePaths (Dict.combineM_get_of_mem h hk) (hthis k) (hdata k)
  · rw [Dict.combineM_get_of_notMem h hk]
    exact hthis k

section Operations

variable {d e r : ViewStore τ} {call : ℕ} {file : Storage}

theorem addMsg_eq_ok {msg : GribMsgDataInfo} (h : addMsg call file d msg = .ok r) :
    r = if msg.err = some .noneErr then d.record call file msg else d := by
  unfold addMsg at h
  cases he : msg.err with
  | none => rw [he] at h; cases h
  | some err =>
    rw [he] at h
    dsimp only at h
    split at h
    · rename_i hn
      rw [if_pos (by rw [hn])]
      exact (Except.ok.inj h).symm
    · rename_i hn
      rw [if_neg (by simpa using hn)]
      exact (Except.ok.inj h).symm

theorem views_record (msg : GribMsgDataInfo) (q : IndexedBy) :
    q.views (d.record call file msg) = addPosition call (q.views d) (q.key msg) file msg.bufPos := by
  cases q <;> rfl

theorem views_positions (positions : Views) (q : IndexedBy) : q.views { d with positions } = q.views d := by
  cases q <;> rfl

variable [DecidableEq τ]

/-- The views that a call makes are owned by its local path and by its pairs. -/
theorem allViews_foldlM {msgs : List GribMsgDataInfo} (h : msgs.foldlM (addMsg call file) d = .ok r)
    (hd : AllViews P d) (hP : ∀ msg ∈ msgs, msg.err = some .noneErr → P (.file call) ∧ P (.pair call)) :
    AllViews P r := by
  refine foldlM_keeps h hd fun msg hmsg d d₁ h1 hd => ?_
  rw [addMsg_eq_ok h1]
  split
  · rename_i he
    refine ⟨fun q => ?_, hd.byDate⟩
    rw [views_record]
    exact allIn_addPosition (hd.index q) (hP msg hmsg he).1 (hP msg hmsg he).2
  · exact hd

theorem allViews_addFile {path : List UInt8} {msgs : List GribMsgDataInfo} (h : d.addFile call path msgs = .ok r)
    (hd : AllViews P d) (hP : ∀ msg ∈ msgs, msg.err = some .noneErr → P (.file call) ∧ P (.pair call)) :
    AllViews P r := by
  refine allViews_foldlM h ⟨fun q => ?_, hd.byDate⟩ hP
  rw [views_positions]
  exact hd.index q

/-- The views of a merged store keep their owners. -/
theorem allViews_merge (h : d.merge call e = .ok r) (hd : AllViews P d) (he : AllViews P e) : AllViews P r := by
  simp only [merge, bind_eq_ok] at h
  obtain ⟨byCommonData, h1, byDate, h2, byGrid, h3, byForecast, h4, byLevel, h5, h⟩ := h
  cases h
  refine ⟨fun q => ?_, allIn_mergeIndex h2 hd.byDate he.byDate⟩
  cases q
  · exact allIn_mergeIndex h1 (hd.index .common) (he.index .common)
  · exact allIn_mergeIndex h4 (hd.index .forecast) (he.index .forecast)
  · exact allIn_mergeIndex h3 (hd.index .grid) (he.index .grid)
  · exact allIn_mergeIndex h5 (hd.index .level) (he.index .level)

omit [DecidableEq τ] in
/-- After a call with a message without an error, some view is in the index by common data. -/
theorem exists_view {path : List UInt8} {msgs : List GribMsgDataInfo} (h : d.addFile call path msgs = .ok r)
    {msg : GribMsgDataInfo} (hmsg : msg ∈ msgs) (hmsg' : msg.err = some .noneErr) :
    ∃ k x, (r.byCommonData.get k).lookup (.file path) = some x := by
  by_contra hr
  push Not at hr
  have herase : d.erase.addFile path msgs = .ok r.erase := by
    rw [erase_addFile call, h]
    rfl
  have hnone : ∀ k, (r.erase.byCommonData.get k).get (.file path) = [] := by
    intro k
    apply Dict.get_of_notMem
    rw [erase, get_eraseIndex, mem_eraseViews, ← AList.lookup_eq_none, Option.eq_none_iff_forall_not_mem]
    exact hr k
  have hlisted := (DataStruct.addFile_eq_ok herase).2 .common (.file path)
  have hzero : listed r.erase.byCommonData (.file path) = 0 := by
    rw [listed, Dict.total]
    exact Finset.sum_eq_zero fun k _ => by rw [hnone k]; rfl
  have hadded : DataStruct.added (.file path) msgs (.file path) ≠ [] := by
    rw [DataStruct.added, if_pos rfl]
    exact List.ne_nil_of_mem (List.mem_map_of_mem (List.mem_filter.mpr ⟨hmsg, by simpa using hmsg'⟩))
  have hsum := hlisted.symm.trans hzero
  rw [add_eq_zero] at hsum
  exact hadded (by simpa using hsum.2)

end Operations

end ViewStore

/-! ## The owners in a run -/

/-- The string lives in a key of some `positions_`. -/
def Owner.IsKey : Owner → Prop
  | key _ _ => True
  | file _ | pair _ => False

namespace ViewStore

variable {τ : Type} [DecidableEq τ] {d e r : ViewStore τ} {call : ℕ}

/-- Every path in the indexes refers to a string in a key of `positions_` of the same store. -/
def Owned (d : ViewStore τ) : Prop := AllViews (fun o => ∃ p x, d.positions.lookup p = some x ∧ o = x.1) d

/-- The strings of `positions_` live in keys, those of the indexes do not. -/
structure Labelled (d : ViewStore τ) : Prop where
  keys : AllOwners Owner.IsKey d.positions
  views : AllViews (fun o => ¬ o.IsKey) d

theorem AllViews.mono {P Q : Owner → Prop} (h : AllViews P d) (hPQ : ∀ o, P o → Q o) : AllViews Q d where
  index q k p x hx := hPQ _ (h.index q k p x hx)
  byDate k p x hx := hPQ _ (h.byDate k p x hx)

theorem AllViews.and {P Q : Owner → Prop} (h : AllViews P d) (h' : AllViews Q d) : AllViews (fun o => P o ∧ Q o) d where
  index q k p x hx := ⟨h.index q k p x hx, h'.index q k p x hx⟩
  byDate k p x hx := ⟨h.byDate k p x hx, h'.byDate k p x hx⟩

/-- A labelled store refers to its own strings only when its indexes are empty. -/
theorem Labelled.owned_iff (h : Labelled d) : Owned d ↔ AllViews (fun _ => False) d := by
  constructor
  · intro ho
    refine (ho.and h.views).mono ?_
    rintro o ⟨⟨p, x, hx, rfl⟩, hkey⟩
    exact hkey (h.keys p x hx)
  · intro hf
    exact hf.mono fun o ho => ho.elim

omit [DecidableEq τ] in
theorem allOwners_foldlM {file : Storage} {msgs : List GribMsgDataInfo} (h : msgs.foldlM (addMsg call file) d = .ok r)
    (hd : AllOwners Owner.IsKey d.positions) : AllOwners Owner.IsKey r.positions := by
  refine foldlM_keeps (I := fun d => AllOwners Owner.IsKey d.positions) h hd fun msg _ d d₁ h1 hd => ?_
  rw [addMsg_eq_ok h1]
  split
  · exact allOwners_subscript hd trivial
  · exact hd

theorem labelled_addFile {path : List UInt8} {msgs : List GribMsgDataInfo} (h : d.addFile call path msgs = .ok r)
    (hd : Labelled d) : Labelled r where
  keys := allOwners_foldlM h (allOwners_subscript hd.keys trivial)
  views := allViews_addFile h hd.views fun _ _ _ => ⟨id, id⟩

theorem labelled_merge (h : d.merge call e = .ok r) (hd : Labelled d) (he : Labelled e) : Labelled r := by
  refine ⟨?_, allViews_merge h hd.views he.views⟩
  simp only [merge, bind_eq_ok] at h
  obtain ⟨_, -, _, -, _, -, _, -, _, -, h⟩ := h
  cases h
  dsimp only
  have hkeys := hd.keys
  generalize e.positions.entries = l
  generalize d.positions = positions at hkeys
  induction l generalizing positions with
  | nil => exact hkeys
  | cons e l ih => exact ih _ (allOwners_subscript hkeys trivial)

end ViewStore

namespace Script

open ViewStore

variable {τ : Type} [DecidableEq τ]

theorem runViews_addFile {s : Script} {path : List UInt8} {gribMsg : List GribMsgDataInfo} {n n' : ℕ} {d : ViewStore τ}
    (h : (addFile s path gribMsg).runViews τ n = .ok (d, n')) :
    ∃ r, s.runViews τ n = .ok r ∧ r.1.addFile r.2 path gribMsg = .ok d := by
  obtain ⟨r, hr, h⟩ := bind_eq_ok.mp h
  obtain ⟨d', hd', h⟩ := bind_eq_ok.mp h
  cases h
  exact ⟨r, hr, hd'⟩

theorem runViews_merge {s other : Script} {n n' : ℕ} {d : ViewStore τ}
    (h : (merge s other).runViews τ n = .ok (d, n')) :
    ∃ r e, s.runViews τ n = .ok r ∧ other.runViews τ r.2 = .ok e ∧ r.1.merge e.2 e.1 = .ok d := by
  obtain ⟨r, hr, h⟩ := bind_eq_ok.mp h
  obtain ⟨e, he, h⟩ := bind_eq_ok.mp h
  obtain ⟨d', hd', h⟩ := bind_eq_ok.mp h
  cases h
  exact ⟨r, e, hr, he, hd'⟩

/-- **No path in an index ever refers to a string in `positions_`**, in whatever store the calls make. -/
theorem run_labelled : ∀ {s : Script} {n n' : ℕ} {d : ViewStore τ}, s.runViews τ n = .ok (d, n') → Labelled d
  | empty, n, n', d, h => by
    cases h
    exact ⟨allOwners_empty, allViews_empty⟩
  | addFile s path gribMsg, n, n', d, h => by
    obtain ⟨r, hr, hd⟩ := runViews_addFile h
    exact labelled_addFile hd (run_labelled hr)
  | merge s other, n, n', d, h => by
    obtain ⟨r, e, hr, he, hd⟩ := runViews_merge h
    exact labelled_merge hd (run_labelled hr) (run_labelled he)

variable (τ) in
/-- Of the calls that return, none is given a message without an error. -/
def Silent (s : Script) : Prop := ∀ (t : Script) (path : List UInt8) (gribMsg : List GribMsgDataInfo),
  addFile t path gribMsg ∈ s.stages → (∃ n r, (addFile t path gribMsg).runViews τ n = .ok r) →
    ∀ msg ∈ gribMsg, msg.err ≠ some .noneErr

theorem stages_subset : ∀ {s t : Script}, t ∈ s.stages → ∀ u ∈ t.stages, u ∈ s.stages
  | empty, t, ht, u, hu => by
    obtain rfl := List.mem_singleton.mp ht
    exact hu
  | addFile s path gribMsg, t, ht, u, hu => by
    rcases List.mem_cons.mp ht with rfl | ht
    · exact hu
    · exact List.mem_cons_of_mem _ (stages_subset ht u hu)
  | merge s other, t, ht, u, hu => by
    rcases List.mem_cons.mp ht with rfl | ht
    · exact hu
    · refine List.mem_cons_of_mem _ (List.mem_append.mpr ?_)
      exact (List.mem_append.mp ht).imp (fun ht => stages_subset ht u hu) fun ht => stages_subset ht u hu

theorem Silent.stage {s t : Script} (hs : s.Silent τ) (ht : t ∈ s.stages) : t.Silent τ :=
  fun u path gribMsg hu => hs u path gribMsg (stages_subset ht _ hu)

/-- Silent calls leave the indexes empty. -/
theorem Silent.run : ∀ {s : Script} {n n' : ℕ} {d : ViewStore τ}, s.Silent τ → s.runViews τ n = .ok (d, n') →
    AllViews (fun _ => False) d
  | empty, n, n', d, hs, h => by
    cases h
    exact allViews_empty
  | addFile s path gribMsg, n, n', d, hs, h => by
    have hmsgs := hs s path gribMsg List.mem_cons_self ⟨n, _, h⟩
    obtain ⟨r, hr, hd⟩ := runViews_addFile h
    have hempty := Silent.run (hs.stage (List.mem_cons_of_mem _ s.self_mem_stages)) hr
    exact allViews_addFile hd hempty fun msg hmsg herr => absurd herr (hmsgs msg hmsg)
  | merge s other, n, n', d, hs, h => by
    obtain ⟨r, e, hr, he, hd⟩ := runViews_merge h
    have hleft := List.mem_cons_of_mem (merge s other) (List.mem_append_left other.stages s.self_mem_stages)
    have hright := List.mem_cons_of_mem (merge s other) (List.mem_append_right s.stages other.self_mem_stages)
    exact allViews_merge hd (Silent.run (hs.stage hleft) hr) (Silent.run (hs.stage hright) he)

/-- **The stores on the way refer to their own strings only exactly when no call that returns is given a message
without an error**: the indexes of all of them are empty then. -/
theorem views_owned_iff (s : Script) :
    (∀ t ∈ s.stages, ∀ (n n' : ℕ) (d : ViewStore τ), t.runViews τ n = .ok (d, n') → Owned d) ↔ s.Silent τ := by
  constructor
  · rintro howned t path gribMsg ht ⟨n, ⟨d, n'⟩, hrun⟩ msg hmsg hnone
    have hempty := (run_labelled hrun).owned_iff.mp (howned _ ht n n' d hrun)
    obtain ⟨r, -, hd⟩ := runViews_addFile hrun
    obtain ⟨k, x, hx⟩ := exists_view hd hmsg hnone
    exact hempty.index .common k (.file path) x hx
  · intro hs t ht n n' d hrun
    exact (run_labelled hrun).owned_iff.mpr (Silent.run (hs.stage ht) hrun)

/-! ### A view of a path that is gone -/

/-- The view in the index of a file of one message refers to the pair it was inserted with, and after a merge it
still does. -/
theorem oneFile_not_owned :
    (∃ d n, (addFile .empty [97] [firstMessage]).runViews ℕ 0 = .ok (d, n) ∧
      (d.byCommonData.get firstMessage.key).lookup (.file [97]) = some (.pair 0, [0]) ∧ ¬ Owned d) ∧
    ∃ d n, (merge .empty (addFile .empty [97] [firstMessage])).runViews ℕ 0 = .ok (d, n) ∧
      (d.byCommonData.get firstMessage.key).lookup (.file [97]) = some (.pair 0, [0]) ∧ ¬ Owned d := by
  have hpair : ∀ (s : Script) (n : ℕ) (d : ViewStore ℕ), s.runViews ℕ 0 = .ok (d, n) →
      (d.byCommonData.get firstMessage.key).lookup (.file [97]) = some (.pair 0, [0]) → ¬ Owned d := by
    intro s n d h hview howned
    obtain ⟨p, x, hx, howner⟩ := howned.index .common firstMessage.key (.file [97]) _ hview
    have hkey := (run_labelled h).keys p x hx
    rw [← howner] at hkey
    exact hkey
  exact ⟨⟨_, _, rfl, rfl, hpair (.addFile .empty [97] [firstMessage]) _ _ rfl rfl⟩,
    ⟨_, _, rfl, rfl, hpair (.merge .empty (.addFile .empty [97] [firstMessage])) _ _ rfl rfl⟩⟩

end Script

end Mashroom
