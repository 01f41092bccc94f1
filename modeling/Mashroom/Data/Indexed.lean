import Mathlib.Algebra.Order.BigOperators.Group.Finset
import Mathlib.Algebra.Order.Group.Multiset
import Mashroom.Data.DataStruct

/-!
# Data.Indexed — do the indexes list what is recorded?

A store is `Indexed` when each of its four indexes lists, over all keys, exactly the positions recorded for each
path.  Adding a file keeps this when nothing was recorded for its path before: the old entries of the indexes
stay.  A merge keeps it when the merged store lists a path under every key under which the store had it.
`Script.indexed_iff_fits` says so for every run of calls, with the paths compared by text: what the strings of the
code's views do to it is in `Data.Reading`.
-/

namespace Mashroom

variable {τ : Type}

/-- The positions an index lists for a path, over all keys. -/
def listed {κ : Type} [DecidableEq κ] (index : Index κ) (p : Storage) : Multiset ℤ :=
  Dict.total (fun byPath => (byPath.get p : Multiset ℤ)) index

namespace DataStruct

/-- Each index lists, for each path, the positions recorded for it, each as often as it is recorded. -/
def Indexed (d : DataStruct τ) : Prop := ∀ (q : IndexedBy) (p : Storage), listed (q.index d) p = d.positions.get p

/-- The paths in the indexes are paths of the store. -/
def PathsKnown (d : DataStruct τ) : Prop :=
  ∀ (q : IndexedBy) (k : q.Key) (p : Storage), p ∈ (q.index d).get k → p ∈ d.positions

/-! ## Adding a file -/

section AddFile

variable {d d' : DataStruct τ} {file p : Storage}

theorem listed_addPosition {κ : Type} [DecidableEq κ] (index : Index κ) (key : κ) (pos : ℤ) :
    listed (addPosition index key file pos) p = listed index p + if p = file then {pos} else 0 := by
  refine Dict.total_update rfl ?_
  rw [Dict.get_update]
  split
  · rename_i h
    rw [h, ← Multiset.coe_add]
    rfl
  · rw [add_zero]

theorem mem_addPosition {κ : Type} [DecidableEq κ] {index : Index κ} {key k : κ} {pos : ℤ}
    (h : p ∈ (addPosition index key file pos).get k) : p = file ∨ p ∈ index.get k := by
  rw [addPosition, Dict.get_update] at h
  split at h
  · rename_i hk
    rw [hk]
    exact Dict.mem_update.mp h
  · exact .inr h

/-- The positions that the messages add for a path. -/
def added (file : Storage) (msgs : List GribMsgDataInfo) (p : Storage) : List ℤ :=
  if p = file then (msgs.filter fun msg => msg.err = some .noneErr).map GribMsgDataInfo.bufPos else []

theorem added_cons (msg : GribMsgDataInfo) (msgs : List GribMsgDataInfo) :
    added file (msg :: msgs) p =
      (if msg.err = some .noneErr ∧ p = file then [msg.bufPos] else []) ++ added file msgs p := by
  unfold added
  by_cases hp : p = file <;> by_cases he : msg.err = some .noneErr <;> simp [hp, he]

/-- What a turn does with a message that has an error code. -/
theorem addMsg_eq_ok {msg : GribMsgDataInfo} (h : addMsg file d msg = .ok d') :
    d' = if msg.err = some .noneErr then d.record file msg else d := by
  unfold addMsg at h
  cases he : msg.err with
  | none => rw [he] at h; cases h
  | some err =>
    rw [he] at h
    dsimp only at h
    by_cases hn : err = .noneErr
    · rw [if_pos hn] at h
      rw [if_pos (by rw [hn])]
      exact (Except.ok.inj h).symm
    · rw [if_neg hn] at h
      rw [if_neg (by simpa using hn)]
      exact (Except.ok.inj h).symm

theorem positions_record (msg : GribMsgDataInfo) :
    (d.record file msg).positions.get p = d.positions.get p ++ if p = file then [msg.bufPos] else [] := by
  rw [record, Dict.get_update]
  split
  · rename_i h
    rw [h]
  · rw [List.append_nil]

/-- The messages of a file are appended to the positions of its path, and listed in each index. -/
theorem foldlM_addMsg {msgs : List GribMsgDataInfo} (h : msgs.foldlM (addMsg file) d = .ok d') :
    (∀ p, d'.positions.get p = d.positions.get p ++ added file msgs p) ∧
      ∀ (q : IndexedBy) p, listed (q.index d') p = listed (q.index d) p + (added file msgs p : Multiset ℤ) := by
  induction msgs generalizing d with
  | nil =>
    cases h
    simp [added]
  | cons msg msgs ih =>
    rw [List.foldlM_cons] at h
    obtain ⟨d1, h1, h⟩ := bind_eq_ok.mp h
    obtain ⟨hpos, hlist⟩ := ih h
    obtain rfl := addMsg_eq_ok h1
    by_cases he : msg.err = some .noneErr
    · refine ⟨?_, ?_⟩
      · intro p
        rw [hpos, if_pos he, positions_record, added_cons, List.append_assoc]
        simp [he]
      · intro q p
        rw [hlist, if_pos he, IndexedBy.index_record, listed_addPosition, added_cons, ← Multiset.coe_add, add_assoc]
        by_cases hp : p = file <;> simp [he, hp]
    · refine ⟨?_, ?_⟩
      · intro p
        rw [hpos, if_neg he, added_cons]
        simp [he]
      · intro q p
        rw [hlist, if_neg he, added_cons]
        simp [he]

theorem pathsKnown_foldlM {msgs : List GribMsgDataInfo} (h : msgs.foldlM (addMsg file) d = .ok d')
    (hfile : file ∈ d.positions) (hd : PathsKnown d) : PathsKnown d' := by
  refine (foldlM_keeps (I := fun d => file ∈ d.positions ∧ PathsKnown d) h ⟨hfile, hd⟩ ?_).2
  rintro msg - d d₁ h1 ⟨hfile, hd⟩
  rw [addMsg_eq_ok h1]
  split
  · refine ⟨Dict.mem_update.mpr (.inl rfl), fun q k p hp => ?_⟩
    rw [IndexedBy.index_record] at hp
    exact Dict.mem_update.mpr ((mem_addPosition hp).imp_right (hd q k p))
  · exact ⟨hfile, hd⟩

theorem byDate_foldlM {msgs : List GribMsgDataInfo} (h : msgs.foldlM (addMsg file) d = .ok d') :
    d'.byDate = d.byDate := by
  refine foldlM_keeps (I := fun d₁ => d₁.byDate = d.byDate) h rfl fun msg _ d₁ d₂ h1 hd => ?_
  rw [addMsg_eq_ok h1, ← hd]
  split <;> rfl

variable {path : List UInt8} {msgs : List GribMsgDataInfo}

/-- After a file is added, exactly its messages are recorded for its path, and each index lists them besides what
it listed before. -/
theorem addFile_eq_ok (h : d.addFile path msgs = .ok d') :
    (∀ p, d'.positions.get p = (if p = .file path then [] else d.positions.get p) ++ added (.file path) msgs p) ∧
      ∀ (q : IndexedBy) p,
        listed (q.index d') p = listed (q.index d) p + (added (.file path) msgs p : Multiset ℤ) := by
  obtain ⟨hpos, hlist⟩ := foldlM_addMsg h
  refine ⟨?_, ?_⟩
  · intro p
    rw [hpos, Dict.get_insert]
  · intro q p
    rw [hlist, IndexedBy.index_positions]

theorem pathsKnown_addFile (h : d.addFile path msgs = .ok d') (hd : PathsKnown d) : PathsKnown d' := by
  apply pathsKnown_foldlM h (Dict.mem_update (g := fun _ => []).mpr (.inl rfl))
  intro q k p hp
  rw [IndexedBy.index_positions] at hp
  exact (AList.mem_insert _).mpr (.inr (hd q k p hp))

/-- Adding a file to an indexed store gives an indexed one exactly when nothing was recorded for its path. -/
theorem indexed_addFile_iff (h : d.addFile path msgs = .ok d') (hd : Indexed d) :
    Indexed d' ↔ d.positions.get (.file path) = [] := by
  obtain ⟨hpos, hlist⟩ := addFile_eq_ok h
  constructor
  · intro hd'
    have hfile := hd' .common (.file path)
    rw [hlist, hpos, hd, if_pos rfl, List.nil_append, add_eq_right] at hfile
    simpa using hfile
  · intro hnone q p
    rw [hlist, hpos, hd, ← Multiset.coe_add]
    by_cases hp : p = .file path
    · rw [if_pos hp, hp, hnone]
    · rw [if_neg hp]

end AddFile

/-! ## Merging a store -/

section Merge

variable {d e d' : DataStruct τ} {p : Storage}

/-- The merged store lists its paths under every key under which the store had a position of them. -/
def MergeFits (d e : DataStruct τ) : Prop :=
  ∀ p ∈ e.positions, ∀ (q : IndexedBy) (k : q.Key), ((q.index d).get k).get p ≠ [] → p ∈ (q.index e).get k

/-- The positions of a path that stay listed where the merged store does not list the path. -/
def kept (d e : DataStruct τ) (q : IndexedBy) (p : Storage) : Multiset ℤ :=
  ∑ k ∈ (q.index d).keys.toFinset,
    if p ∈ (q.index e).get k then 0 else (((q.index d).get k).get p : Multiset ℤ)

theorem kept_eq_zero_iff {q : IndexedBy} :
    kept d e q p = 0 ↔ ∀ k, ((q.index d).get k).get p ≠ [] → p ∈ (q.index e).get k := by
  rw [kept, Finset.sum_eq_zero_iff]
  constructor
  · intro h k hne
    by_contra hp
    have hk : k ∈ q.index d := by
      by_contra hk
      rw [Dict.get_of_notMem hk] at hne
      exact hne rfl
    have hz := h k (by simpa [AList.mem_keys] using hk)
    rw [if_neg hp] at hz
    exact hne (by simpa using hz)
  · intro h k _
    split
    · rfl
    · rename_i hp
      by_contra hne
      exact hp (h k (by simpa using hne))

variable [DecidableEq τ]

/-- For each path the positions are those of the merged store, if it has the path. -/
theorem positions_merge (h : d.merge e = .ok d') :
    (d'.positions.get p = if p ∈ e.positions then e.positions.get p else d.positions.get p) ∧
      (p ∈ d'.positions ↔ p ∈ d.positions ∨ p ∈ e.positions) := by
  simp only [merge, bind_eq_ok] at h
  obtain ⟨positions, hp, _, -, _, -, _, -, _, -, _, -, h⟩ := h
  cases h
  refine ⟨?_, Dict.mem_combineM hp⟩
  split
  · rename_i hmem
    exact (Except.ok.inj (Dict.combineM_get_of_mem hp hmem)).symm
  · rename_i hmem
    exact Dict.combineM_get_of_notMem hp hmem

theorem mergePaths_get {positions this data r : Positions} (h : mergePaths positions this data = .ok r) :
    (r.get p = if p ∈ data then data.get p else this.get p) ∧ (p ∈ r ↔ p ∈ this ∨ p ∈ data) := by
  refine ⟨?_, Dict.mem_combineM h⟩
  split
  · rename_i hmem
    have hget := Dict.combineM_get_of_mem h hmem
    split at hget
    · exact (Except.ok.inj hget).symm
    · cases hget
  · rename_i hmem
    exact Dict.combineM_get_of_notMem h hmem

/-- Under each key, a path has the positions of the merged store, if that lists the path there. -/
theorem index_merge_get (h : d.merge e = .ok d') (q : IndexedBy) (k : q.Key) :
    (((q.index d').get k).get p =
      if p ∈ (q.index e).get k then ((q.index e).get k).get p else ((q.index d).get k).get p) ∧
      (p ∈ (q.index d').get k ↔ p ∈ (q.index d).get k ∨ p ∈ (q.index e).get k) := by
  have hq := q.index_merge h
  by_cases hk : k ∈ q.index e
  · exact mergePaths_get (Dict.combineM_get_of_mem hq hk)
  · rw [Dict.combineM_get_of_notMem hq hk, Dict.get_of_notMem hk]
    have hp : p ∉ (default : Positions) := AList.notMem_empty p
    simp [hp]

theorem pathsKnown_merge (h : d.merge e = .ok d') (hd : PathsKnown d) (he : PathsKnown e) : PathsKnown d' :=
  fun q k p hp => (positions_merge h).2.mpr (((index_merge_get h q k).2.mp hp).imp (hd q k p) (he q k p))

/-- After a merge an index lists what the merged store lists, and what is kept. -/
theorem listed_merge (h : d.merge e = .ok d') (q : IndexedBy) :
    listed (q.index d') p = listed (q.index e) p + kept d e q p := by
  let s := (q.index d').keys.toFinset ∪ ((q.index d).keys.toFinset ∪ (q.index e).keys.toFinset)
  have hsum : ∀ i : Index q.Key, i.keys.toFinset ⊆ s →
      listed i p = ∑ k ∈ s, ((i.get k).get p : Multiset ℤ) := fun i hi => Dict.total_eq_sum rfl hi
  have hkept : kept d e q p =
      ∑ k ∈ s, if p ∈ (q.index e).get k then 0 else (((q.index d).get k).get p : Multiset ℤ) := by
    apply Finset.sum_subset
    · intro k hk
      exact Finset.mem_union_right _ (Finset.mem_union_left _ hk)
    · intro k _ hk
      rw [Dict.get_of_notMem (d := q.index d) (by simpa [AList.mem_keys] using hk)]
      split <;> rfl
  rw [hsum _ Finset.subset_union_left,
    hsum (q.index e) (Finset.subset_union_right.trans Finset.subset_union_right), hkept, ← Finset.sum_add_distrib]
  apply Finset.sum_congr rfl
  intro k _
  rw [(index_merge_get h q k).1]
  by_cases hp : p ∈ (q.index e).get k
  · rw [if_pos hp, if_pos hp, add_zero]
  · rw [if_neg hp, if_neg hp, Dict.get_of_notMem hp]
    exact (zero_add _).symm

/-- A path that the merged store does not have keeps what it had. -/
theorem listed_merge_unknown (h : d.merge e = .ok d') (he : PathsKnown e) (hp : p ∉ e.positions) (q : IndexedBy) :
    listed (q.index d') p = listed (q.index d) p := by
  have hnone : ∀ k, p ∉ (q.index e).get k := fun k hk => hp (he q k p hk)
  have hzero : listed (q.index e) p = 0 := by
    rw [listed, Dict.total]
    exact Finset.sum_eq_zero fun k _ => by rw [Dict.get_of_notMem (hnone k)]; rfl
  rw [listed_merge h, hzero, zero_add]
  exact Finset.sum_congr rfl fun k _ => if_neg (hnone k)

/-- A merge of indexed stores gives an indexed one exactly when it fits. -/
theorem indexed_merge_iff (h : d.merge e = .ok d') (hd : Indexed d) (he : Indexed e) (hk : PathsKnown e) :
    Indexed d' ↔ MergeFits d e := by
  constructor
  · intro hd' p hp q
    rw [← kept_eq_zero_iff]
    have hlist := hd' q p
    rw [listed_merge h, he, (positions_merge h).1, if_pos hp, add_eq_left] at hlist
    exact hlist
  · intro hfits q p
    by_cases hp : p ∈ e.positions
    · rw [listed_merge h, he, (positions_merge h).1, if_pos hp, kept_eq_zero_iff.mpr (hfits p hp q), add_zero]
    · rw [listed_merge_unknown h hk hp, hd, (positions_merge h).1, if_neg hp]

/-- A store whose indexes name its own paths can be merged into every store: no path is missing among the
positions. -/
theorem merge_exists (d : DataStruct τ) (he : PathsKnown e) (ht : e.byDate = ∅) :
    ∃ d', d.merge e = .ok d' ∧ (d.byDate = ∅ → d'.byDate = ∅) := by
  obtain ⟨positions, hpos⟩ : ∃ r, Dict.combineM (fun _ _ ps => (.ok ps : Except Fault (List ℤ))) d.positions
      e.positions = .ok r := Dict.combineM_exists fun entry _ _ => ⟨entry.2, rfl⟩
  have hindex : ∀ q : IndexedBy, ∃ r, mergeIndex positions (q.index d) (q.index e) = .ok r := by
    intro q
    refine Dict.combineM_exists fun entry hentry byPath => Dict.combineM_exists fun pe hpe _ => ⟨pe.2, ?_⟩
    have hp : pe.1 ∈ (q.index e).get entry.1 := by
      rw [Dict.get_of_mem hentry]
      exact AList.mem_keys.mpr (List.mem_keys_of_mem hpe)
    exact if_pos ((Dict.mem_combineM hpos).mpr (.inr (he q _ _ hp)))
  obtain ⟨byCommonData, h1⟩ := hindex .common
  obtain ⟨byForecast, h2⟩ := hindex .forecast
  obtain ⟨byGrid, h3⟩ := hindex .grid
  obtain ⟨byLevel, h4⟩ := hindex .level
  refine ⟨{ positions, byCommonData, byDate := d.byDate, byGrid, byForecast, byLevel }, ?_, id⟩
  have h5 : mergeIndex positions d.byDate e.byDate = .ok d.byDate := by
    rw [ht]
    rfl
  simp only [merge, hpos, ok_bind, h5]
  change mergeIndex positions d.byCommonData e.byCommonData = _ at h1
  change mergeIndex positions d.byForecast e.byForecast = _ at h2
  change mergeIndex positions d.byGrid e.byGrid = _ at h3
  change mergeIndex positions d.byLevel e.byLevel = _ at h4
  rw [h1, h2, h3, h4]
  rfl

end Merge

end DataStruct

/-! ## Runs of calls -/

/-- A store and the calls that made it: of the empty store, by `add_data` of a file, or by `add_data` of another
store that was made so. -/
inductive Script where
  | empty
  | addFile (s : Script) (path : List UInt8) (gribMsg : List GribMsgDataInfo)
  | merge (s other : Script)

namespace Script

open DataStruct

variable (τ : Type) [DecidableEq τ]

/-- The store the calls make. -/
def run : Script → Except Fault (DataStruct τ)
  | empty => .ok {}
  | addFile s path gribMsg => do
    let d ← s.run
    d.addFile path gribMsg
  | merge s other => do
    let d ← s.run
    let e ← other.run
    d.merge e

/-- The stores on the way, the merged ones included. -/
def stages : Script → List Script
  | empty => [empty]
  | addFile s path gribMsg => addFile s path gribMsg :: s.stages
  | merge s other => merge s other :: (s.stages ++ other.stages)

theorem self_mem_stages (s : Script) : s ∈ s.stages := by
  cases s <;> simp [stages]

/-- Each file is added where nothing is recorded for its path, and each merge fits. -/
def Fits : Script → Prop
  | empty => True
  | addFile s path gribMsg => s.Fits ∧ ∀ d d', s.run τ = .ok d → d.addFile path gribMsg = .ok d' →
      d.positions.get (.file path) = []
  | merge s other => s.Fits ∧ other.Fits ∧ ∀ d e, s.run τ = .ok d → other.run τ = .ok e → MergeFits d e

variable {τ}

/-- Every store that the calls make names its own paths, and has no dates. -/
theorem run_pathsKnown : ∀ {s : Script} {d : DataStruct τ}, s.run τ = .ok d → PathsKnown d ∧ d.byDate = ∅
  | empty, d, h => by
    cases h
    refine ⟨fun q k p hp => absurd hp ?_, rfl⟩
    cases q <;> exact AList.notMem_empty p
  | addFile s path gribMsg, d, h => by
    obtain ⟨d0, h0, h⟩ := bind_eq_ok.mp h
    obtain ⟨hk, ht⟩ := run_pathsKnown h0
    exact ⟨pathsKnown_addFile h hk, (byDate_foldlM h).trans ht⟩
  | merge s other, d, h => by
    obtain ⟨d0, h0, h⟩ := bind_eq_ok.mp h
    obtain ⟨e, he, h⟩ := bind_eq_ok.mp h
    obtain ⟨hk, ht⟩ := run_pathsKnown h0
    obtain ⟨hke, hte⟩ := run_pathsKnown he
    obtain ⟨d', hd', ht'⟩ := merge_exists d0 hke hte
    cases h.symm.trans hd'
    exact ⟨pathsKnown_merge h hk hke, ht' ht⟩

/-- By text, every store on the way is indexed exactly when each file is added where nothing is recorded for its path
and each merge fits. -/
theorem indexed_iff_fits : ∀ s : Script,
    (∀ t ∈ s.stages, ∀ d : DataStruct τ, t.run τ = .ok d → Indexed d) ↔ s.Fits τ
  | empty => by
    refine iff_of_true (fun t ht d h => ?_) trivial
    obtain rfl := List.mem_singleton.mp ht
    cases h
    intro q p
    cases q <;> rfl
  | addFile s path gribMsg => by
    rw [stages, List.forall_mem_cons, indexed_iff_fits s, Fits, and_comm]
    apply and_congr_right
    intro hfits
    have hs : ∀ d : DataStruct τ, s.run τ = .ok d → Indexed d := (indexed_iff_fits s).mpr hfits s s.self_mem_stages
    constructor
    · intro h d d' h0 h1
      exact (indexed_addFile_iff h1 (hs d h0)).mp (h d' (bind_eq_ok.mpr ⟨d, h0, h1⟩))
    · intro h d' hrun
      obtain ⟨d, h0, h1⟩ := bind_eq_ok.mp hrun
      exact (indexed_addFile_iff h1 (hs d h0)).mpr (h d d' h0 h1)
  | merge s other => by
    rw [stages, List.forall_mem_cons, List.forall_mem_append, indexed_iff_fits s, indexed_iff_fits other, Fits,
      and_comm, and_assoc]
    apply and_congr_right
    intro hfits
    apply and_congr_right
    intro hfits'
    have hs : ∀ d : DataStruct τ, s.run τ = .ok d → Indexed d := (indexed_iff_fits s).mpr hfits s s.self_mem_stages
    have ho : ∀ d : DataStruct τ, other.run τ = .ok d → Indexed d :=
      (indexed_iff_fits other).mpr hfits' other other.self_mem_stages
    constructor
    · intro h d e h0 he
      obtain ⟨d', h1, -⟩ := merge_exists d (run_pathsKnown he).1 (run_pathsKnown he).2
      exact (indexed_merge_iff h1 (hs d h0) (ho e he) (run_pathsKnown he).1).mp
        (h d' (bind_eq_ok.mpr ⟨d, h0, bind_eq_ok.mpr ⟨e, he, h1⟩⟩))
    · intro h d' hrun
      obtain ⟨d, h0, hrun⟩ := bind_eq_ok.mp hrun
      obtain ⟨e, he, h1⟩ := bind_eq_ok.mp hrun
      exact (indexed_merge_iff h1 (hs d h0) (ho e he) (run_pathsKnown he).1).mpr (h d e h0 he)

/-! ### The same file twice -/

/-- A message without an error, at the start of a file. -/
def firstMessage : GribMsgDataInfo where
  gridData := .monostate
  date := 0
  bufPos := 0
  tUnit := { P1 := 0, P2 := 0, tf := 0, tri := 0 }
  center := 0
  level := { levelType := 0, octet11 := 0, octet12 := 0 }
  msgSz := 51
  parameter := 0
  tableVersion := 0
  err := some .noneErr

/-- A file of one message, added twice. -/
def readded : Script := .addFile (.addFile .empty [97] [firstMessage]) [97] [firstMessage]

/-- One position is recorded, and listed twice. -/
example : (fun d => (d.positions.get (.file [97]), listed d.byCommonData (.file [97]))) <$> readded.run ℕ =
    .ok ([0], {0, 0}) := by decide

end Script

end Mashroom
