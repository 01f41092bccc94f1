import Mathlib.Data.Nat.Bitwise
import Mashroom.Lib.MapKeys
import Mashroom.Data.DataStruct

/-!
# Data.Hashes — the hashes of the keys of the indexes

An index is a hash table, so a key is found where its hash is the one that it was inserted with.  The hashes of the
common properties, of a forecast and of a level are of all that is compared.  That of a grid is of its type and of the
text where `this` is, and `this` is the functor: the grid is not looked at.  So equal grids have one hash where the
same is read there (`hashes_of_equal`).  The hashes that keys have apart from the pointers to them are used, as in
`DataStruct`.
-/

namespace Mashroom

/-! ## Hashes and comparisons -/

/-- `std::hash<uint64_t>`, `std::hash<std::string_view>` and `boost::hash_combine` -/
structure KeyHash where
  nat64 : ℕ → ℕ
  text : List UInt8 → ℕ
  combine : ℕ → ℕ → ℕ

/-- The text at an address: the octets up to the first that is zero. -/
def cString (memory : List UInt8) : Except Fault (List UInt8) :=
  if 0 ∈ memory then .ok (memory.takeWhile (· ≠ 0)) else .error .outside

/-- What the hash has for an optional octet. -/
def octetOr255 (x : Option ℕ) : ℕ := x.getD 255

namespace CommonDataProperties

variable (a b : CommonDataProperties)

/-- `operator==` -/
def eq : Bool := a.center = b.center ∧ a.tableVersion = b.tableVersion ∧ a.parameter = b.parameter

/-- `hash` -/
def hash : ℕ := (octetOr255 a.center <<< 56 ||| octetOr255 a.tableVersion <<< 48) ||| octetOr255 a.parameter <<< 40

end CommonDataProperties

namespace TimeForecast

variable (a b : TimeForecast)

/-- `operator==` -/
def eq : Bool :=
  a.N = b.N ∧ a.NAvgAccMissed = b.NAvgAccMissed ∧ a.P1 = b.P1 ∧ a.P2 = b.P2 ∧ a.tf = b.tf ∧ a.tri = b.tri

/-- `std::hash<TimeForecast>` -/
def hash (h : KeyHash) : ℕ := [a.N, a.NAvgAccMissed, a.P1, a.P2, a.tf, a.tri].foldl h.combine 0

end TimeForecast

namespace Level

variable (a b : Level)

/-- `operator==` -/
def eq : Bool := a.octet11 = b.octet11 ∧ a.octet12 = b.octet12 ∧ a.levelType = b.levelType

/-- `std::hash<Level>` -/
def hash : ℕ := (a.levelType <<< 16 ||| a.octet11 <<< 8) ||| a.octet12

end Level

/-- `operator==` of a grid definition: all the members of its two parts are compared. -/
def GridDefinition.eq {B A : Type} [DecidableEq B] [DecidableEq A] (d d' : GridDefinition B A) : Bool :=
  d.base = d'.base ∧ d.additional = d'.additional

namespace GridInfo

/-- The two visitors of `operator==`.  Definitions of different types have no `==`. -/
def visitEq : GridInfo → GridInfo → Bool
  | monostate, monostate => true
  | latLon d, latLon d' => d.eq d'
  | rotatedLatLon d, rotatedLatLon d' => d.eq d'
  | stretchedLatLon d, stretchedLatLon d' => d.eq d'
  | stretchedAndRotatedLatLon d, stretchedAndRotatedLatLon d' => d.eq d'
  | gaussian d, gaussian d' => d.eq d'
  | rotatedGaussianLatLon d, rotatedGaussianLatLon d' => d.eq d'
  | stretchedGaussianLatLon d, stretchedGaussianLatLon d' => d.eq d'
  | stretchedRotatedGaussianLatLon d, stretchedRotatedGaussianLatLon d' => d.eq d'
  | lambert d, lambert d' => d.eq d'
  | obliqueLambertConformal d, obliqueLambertConformal d' => d.eq d'
  | utm d, utm d' => d.eq d'
  | albersEqualArea d, albersEqualArea d' => d.eq d'
  | spaceView d, spaceView d' => d.eq d'
  | gnomonic d, gnomonic d' => d.eq d'
  | sphericalHarmonicCoefficients d, sphericalHarmonicCoefficients d' => d.eq d'
  | rotatedSphericalHarmonicCoefficients d, rotatedSphericalHarmonicCoefficients d' => d.eq d'
  | stretchedSphericalHarmonicCoefficients d, stretchedSphericalHarmonicCoefficients d' => d.eq d'
  | stretchedRotatedSphericalHarmonicCoefficients d, stretchedRotatedSphericalHarmonicCoefficients d' => d.eq d'
  | polarStereographProj d, polarStereographProj d' => d.eq d'
  | millersCylindr _, millersCylindr _ => true
  | simplePolyconic d, simplePolyconic d' => d.eq d'
  | mercator d, mercator d' => d.eq d'
  | _, _ => false

/-- `operator==` -/
def eq (a b : GridInfo) : Bool := if a.type ≠ b.type then false else visitEq a b

/-- `std::hash<GridInfo>`, of which the octets of the memory from the functor on are `memory`. -/
def hash (h : KeyHash) (memory : List UInt8) (a : GridInfo) : Except Fault ℕ := do
  let t ← cString memory
  return h.nat64 (a.type.octet <<< 7) ^^^ (h.text t >>> 1)

end GridInfo

namespace IndexedBy

/-- The comparison of the keys of an index. -/
def eq : (q : IndexedBy) → q.Key → q.Key → Bool
  | common => CommonDataProperties.eq
  | forecast => TimeForecast.eq
  | grid => GridInfo.eq
  | level => Level.eq

/-- The hash of a key of an index. -/
def hash (h : KeyHash) (memory : List UInt8) : (q : IndexedBy) → q.Key → Except Fault ℕ
  | common, k => .ok (CommonDataProperties.hash k)
  | forecast, k => .ok (TimeForecast.hash k h)
  | grid, k => GridInfo.hash h memory k
  | level, k => .ok (Level.hash k)

end IndexedBy

/-! ## The indexes as hash tables -/

/-- The positions of messages under a key and the hash that it was inserted with. -/
abbrev HashIndex (κ : Type) := Index (ℕ × κ)

/-- A message for which `add_data_lambda` is called, with the octets of the memory from the functor on when the key is
looked up and when it is inserted. -/
structure HashedMsg where
  file : Storage
  msg : GribMsgDataInfo
  found : List UInt8
  inserted : List UInt8

namespace IndexedBy

variable (q : IndexedBy) (h : KeyHash)

/-- `add_data_lambda` -/
def addData (index : HashIndex q.Key) (m : HashedMsg) : Except Fault (HashIndex q.Key) := do
  let x ← q.hash h m.found (q.key m.msg)
  if (x, q.key m.msg) ∈ index then
    return DataStruct.addPosition index (x, q.key m.msg) m.file m.msg.bufPos
  else
    let y ← q.hash h m.inserted (q.key m.msg)
    if (y, q.key m.msg) ∈ index then return index
    else return index.insert (y, q.key m.msg) ((∅ : Positions).insert m.file [m.msg.bufPos])

/-- The index after a run of messages. -/
def addAll (ms : List HashedMsg) : Except Fault (HashIndex q.Key) := ms.foldlM (q.addData h) ∅

/-- No two entries have equal keys. -/
def OneEntryEach (index : HashIndex q.Key) : Prop :=
  ∀ e ∈ index.entries, ∀ e' ∈ index.entries, q.eq e.1.2 e'.1.2 = true → e = e'

end IndexedBy

/-! ## Comparisons -/

theorem CommonDataProperties.eq_iff {a b : CommonDataProperties} : a.eq b = true ↔ a = b := by
  cases a
  cases b
  simp [eq]

theorem TimeForecast.eq_iff {a b : TimeForecast} : a.eq b = true ↔ a = b := by
  cases a
  cases b
  simp [eq]

theorem Level.eq_iff {a b : Level} : a.eq b = true ↔ a = b := by
  cases a
  cases b
  simp only [eq, decide_eq_true_eq, mk.injEq]
  tauto

theorem GridDefinition.eq_iff {B A : Type} [DecidableEq B] [DecidableEq A] {d d' : GridDefinition B A} :
    d.eq d' = true ↔ d = d' := by
  cases d
  cases d'
  simp [eq]

namespace GridInfo

variable {a b : GridInfo}

theorem visitEq_refl (a : GridInfo) : a.visitEq a = true := by
  cases a <;> simp [visitEq, GridDefinition.eq]

theorem eq_of_visitEq (h : a.visitEq b = true) : a = b := by
  unfold visitEq at h
  split at h
  -- `operator==` of this type compares nothing, and there is nothing to compare
  case h_21 d d' =>
    cases d
    cases d'
    rfl
  all_goals first | rfl | exact congrArg _ (GridDefinition.eq_iff.mp h) | cases h

theorem eq_iff : a.eq b = true ↔ a = b := by
  unfold eq
  constructor
  · intro h
    split at h
    · cases h
    · exact eq_of_visitEq h
  · rintro rfl
    rw [if_neg (not_not.mpr rfl)]
    exact visitEq_refl a

end GridInfo

theorem IndexedBy.eq_iff {q : IndexedBy} {k k' : q.Key} : q.eq k k' = true ↔ k = k' := by
  cases q
  · exact CommonDataProperties.eq_iff
  · exact TimeForecast.eq_iff
  · exact GridInfo.eq_iff
  · exact Level.eq_iff

/-! ## What a hash depends on -/

/-- The same is read at the two places, as far as the hash of a grid has it. -/
def SameText (h : KeyHash) (memory memory' : List UInt8) : Prop :=
  ∃ t t', cString memory = .ok t ∧ cString memory' = .ok t' ∧ h.text t >>> 1 = h.text t' >>> 1

theorem GridInfo.hash_eq_iff {h : KeyHash} {memory memory' : List UInt8} {a : GridInfo} :
    (∃ x, a.hash h memory = .ok x ∧ a.hash h memory' = .ok x) ↔ SameText h memory memory' := by
  simp only [GridInfo.hash, bind_eq_ok, pure_eq_ok, Except.ok.injEq]
  constructor
  · rintro ⟨x, ⟨t, ht, hx⟩, t', ht', hx'⟩
    exact ⟨t, t', ht, ht', Nat.xor_right_injective (hx.trans hx'.symm)⟩
  · rintro ⟨t, t', ht, ht', heq⟩
    exact ⟨_, ⟨t, ht, rfl⟩, t', ht', by rw [heq]⟩

namespace IndexedBy

variable {q : IndexedBy} {h : KeyHash}

/-- Equal keys have one hash, but equal grids where the same is read. -/
theorem hash_eq_iff {memory memory' : List UInt8} {k k' : q.Key} (hk : q.eq k k' = true) :
    (∃ x, q.hash h memory k = .ok x ∧ q.hash h memory' k' = .ok x) ↔ (q = .grid → SameText h memory memory') := by
  obtain rfl := eq_iff.mp hk
  cases q
  · exact iff_of_true ⟨_, rfl, rfl⟩ nofun
  · exact iff_of_true ⟨_, rfl, rfl⟩ nofun
  · exact GridInfo.hash_eq_iff.trans ⟨fun hs _ => hs, fun hs => hs rfl⟩
  · exact iff_of_true ⟨_, rfl, rfl⟩ nofun

/-! ## An index whose keys have one hash each -/

/-- A key under its hash. -/
def tag {κ : Type} (x : κ → ℕ) (k : κ) : ℕ × κ := (x k, k)

theorem tag_injective {κ : Type} (x : κ → ℕ) : Function.Injective (tag x) := fun _ _ heq => congrArg Prod.snd heq

/-- The hash of the message's key is `x` of it, when it is looked up and when it is inserted. -/
structure HashedBy (q : IndexedBy) (h : KeyHash) (x : q.Key → ℕ) (m : HashedMsg) : Prop where
  found : q.hash h m.found (q.key m.msg) = .ok (x (q.key m.msg))
  inserted : q.hash h m.inserted (q.key m.msg) = .ok (x (q.key m.msg))

variable {x : q.Key → ℕ} {m : HashedMsg} {ms : List HashedMsg}

/-- A key that has one hash is added as where keys are compared only. -/
theorem addData_tagged (hm : HashedBy q h x m) (d : Index q.Key) :
    q.addData h (d.mapKeys (tag x) (tag_injective x)) m =
      .ok (Dict.mapKeys (tag x) (tag_injective x) (DataStruct.addPosition d (q.key m.msg) m.file m.msg.bufPos)) := by
  have hmem : (x (q.key m.msg), q.key m.msg) ∈ d.mapKeys (tag x) (tag_injective x) ↔ q.key m.msg ∈ d :=
    Dict.mem_mapKeys
  unfold addData DataStruct.addPosition
  rw [hm.found, hm.inserted, Dict.mapKeys_update]
  by_cases hk : q.key m.msg ∈ d
  · show ite _ _ _ = _
    rw [if_pos (hmem.mpr hk)]
    rfl
  · show ite _ _ (ite _ _ _) = _
    rw [if_neg (mt hmem.mp hk), if_neg (mt hmem.mp hk), Dict.update, Dict.get_mapKeys, Dict.get_of_notMem hk]
    rfl

/-- **The hash table is the index** of `DataStruct`, each key under its hash. -/
theorem addAll_tagged (hms : ∀ m ∈ ms, HashedBy q h x m) :
    q.addAll h ms = .ok (Dict.mapKeys (tag x) (tag_injective x)
      (ms.foldl (fun d m => DataStruct.addPosition d (q.key m.msg) m.file m.msg.bufPos) ∅)) := by
  have hrun : ∀ d : Index q.Key, ms.foldlM (q.addData h) (d.mapKeys (tag x) (tag_injective x)) =
      .ok (Dict.mapKeys (tag x) (tag_injective x)
        (ms.foldl (fun d m => DataStruct.addPosition d (q.key m.msg) m.file m.msg.bufPos) d)) := by
    induction ms with
    | nil => exact fun _ => rfl
    | cons m ms ih =>
      intro d
      obtain ⟨hm, hms⟩ := List.forall_mem_cons.mp hms
      rw [List.foldlM_cons, addData_tagged hm, List.foldl_cons]
      exact ih hms _
  exact hrun ∅

theorem oneEntryEach_mapKeys (d : Index q.Key) : q.OneEntryEach (d.mapKeys (tag x) (tag_injective x)) := by
  intro e he e' he' heq
  obtain ⟨e, hmem, rfl⟩ := Dict.exists_of_mem_mapKeys he
  obtain ⟨e', hmem', rfl⟩ := Dict.exists_of_mem_mapKeys he'
  have hkey : e.1 = e'.1 := eq_iff.mp heq
  rw [List.NodupKeys.eq_of_fst_eq d.nodupKeys hmem hmem' hkey]

end IndexedBy

/-- The places that are read for a message. -/
def HashedMsg.memories (m : HashedMsg) : List (List UInt8) := [m.found, m.inserted]

/-- Wherever equal grids are looked up or inserted, the same is read. -/
def SameTexts (h : KeyHash) (ms : List HashedMsg) : Prop :=
  ∀ m ∈ ms, ∀ m' ∈ ms, GridInfo.eq m.msg.gridData m'.msg.gridData = true →
    ∀ memory ∈ m.memories, ∀ memory' ∈ m'.memories, SameText h memory memory'

namespace IndexedBy

variable {q : IndexedBy} {h : KeyHash} {ms : List HashedMsg}

/-- The keys of the messages have one hash each. -/
theorem exists_hashedBy (hs : q = .grid → SameTexts h ms) : ∃ x, ∀ m ∈ ms, HashedBy q h x m := by
  have hkey : ∀ k, ∃ n, ∀ m ∈ ms, q.key m.msg = k → ∀ memory ∈ m.memories, q.hash h memory k = .ok n := by
    intro k
    by_cases hm : ∃ m ∈ ms, q.key m.msg = k
    · obtain ⟨m, hm, rfl⟩ := hm
      have hpair : ∀ m' ∈ ms, q.key m'.msg = q.key m.msg → ∀ memory ∈ m'.memories,
          ∃ n, q.hash h m.found (q.key m.msg) = .ok n ∧ q.hash h memory (q.key m.msg) = .ok n := by
        intro m' hm' hk memory hmemory
        refine (hash_eq_iff (eq_iff.mpr rfl)).mpr fun hq => ?_
        subst hq
        exact hs rfl m hm m' hm' (GridInfo.eq_iff.mpr hk.symm) _ List.mem_cons_self _ hmemory
      obtain ⟨n, hn, -⟩ := hpair m hm rfl _ List.mem_cons_self
      refine ⟨n, fun m' hm' hk memory hmemory => ?_⟩
      obtain ⟨n', hn', hmem⟩ := hpair m' hm' hk memory hmemory
      rw [hmem, ← hn', hn]
    · exact ⟨0, fun m hmem hk => absurd ⟨m, hmem, hk⟩ hm⟩
  choose x hx using hkey
  exact ⟨x, fun m hm => ⟨hx _ m hm rfl _ List.mem_cons_self, hx _ m hm rfl _ (by simp [HashedMsg.memories])⟩⟩

end IndexedBy

/-- **Equal keys have one hash**, but equal grids where the same is read at the functor; and where it is, a run of
messages makes no two entries for equal keys. -/
theorem hashes_of_equal (h : KeyHash) (q : IndexedBy) :
    (∀ (memory memory' : List UInt8) (k k' : q.Key), q.eq k k' = true →
      ((∃ x, q.hash h memory k = .ok x ∧ q.hash h memory' k' = .ok x) ↔
        (q = .grid → SameText h memory memory'))) ∧
    ∀ ms, (q = .grid → SameTexts h ms) → ∃ index, q.addAll h ms = .ok index ∧ q.OneEntryEach index := by
  refine ⟨fun _ _ _ _ => IndexedBy.hash_eq_iff, fun ms hs => ?_⟩
  obtain ⟨x, hx⟩ := IndexedBy.exists_hashedBy hs
  exact ⟨_, IndexedBy.addAll_tagged hx, IndexedBy.oneEntryEach_mapKeys _⟩

/-- Hashes that tell texts of different lengths apart. -/
def KeyHash.lengths : KeyHash where
  nat64 n := n
  text t := 2 * t.length
  combine seed n := 31 * seed + n

/-- A message without a grid, read where `memory` is behind the functor. -/
def HashedMsg.ungridded (memory : List UInt8) : HashedMsg where
  file := .file []
  msg := {
    gridData := .monostate
    date := 0
    bufPos := 0
    tUnit := { P1 := 0, P2 := 0, tf := 1, tri := 0 }
    center := 7
    level := { levelType := 1, octet11 := 0, octet12 := 0 }
    msgSz := 0
    parameter := 11
    tableVersion := 2
    err := some .noneErr }
  found := memory
  inserted := memory

/-- One grid has two hashes, and two entries. -/
theorem hashes_of_equal_differ :
    GridInfo.hash .lengths [0] .monostate = .ok (255 <<< 7) ∧
    GridInfo.hash .lengths [1, 0] .monostate = .ok (255 <<< 7 ^^^ 1) ∧
    ∃ index, IndexedBy.grid.addAll .lengths [.ungridded [0], .ungridded [1, 0]] = .ok index ∧
      ¬ IndexedBy.grid.OneEntryEach index := by
  refine ⟨rfl, rfl, _, rfl, fun h => ?_⟩
  have heq := h _ List.mem_cons_self _ (List.mem_cons_of_mem _ List.mem_cons_self) rfl
  have hne : (255 <<< 7 ^^^ 1 : ℕ) ≠ 255 <<< 7 := by decide
  exact hne (congrArg (fun e => e.1.1) heq)

end Mashroom
