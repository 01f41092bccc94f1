import Mashroom.Lib.Codec
import Mashroom.Data.Indexed

/-!
# Data.Serialize — a store written to octets, and read back

`DataStruct.serialize` writes the six dictionaries of a store one after the other.  `DataStruct.deserialize` reads
the positions and then calls `deserializeAndCheckPaths` for each index, which ends without a `return` unless
something in the buffer is not read back: on the octets of a store it has no result (`deserialize_serialize`).  The
serializers of OsterLib are a `Serializer`.
-/

namespace Mashroom

/-- `SerializationEC`, other than `NONE`. -/
inductive SerializationEC where
  | unmatchedType
  | fileReadingError
  | other (code : ℕ)
  deriving DecidableEq

/-- The serializers of the single values.  With a path goes the time of its last check, which is not modelled. -/
structure Serializer (τ : Type) where
  /-- `size_t` -/
  size : Codec SerializationEC ℕ
  /-- `ptrdiff_t` -/
  offset : Codec SerializationEC ℤ
  /-- `uint8_t` -/
  octet : Codec SerializationEC ℕ
  /-- `uint16_t` -/
  short : Codec SerializationEC ℕ
  /-- `bool` -/
  flag : Codec SerializationEC Bool
  path : Codec SerializationEC Storage
  grid : Codec SerializationEC GridInfo
  time : Codec SerializationEC τ
  /-- `TimeSequence()` -/
  defaultTime : τ

namespace Serializer

variable {τ : Type} (s : Serializer τ)

/-- `Serialize<Grib1CommonDataProperties>` -/
def common : Codec SerializationEC CommonDataProperties :=
  (Codec.pair (.option s.flag s.octet) (.pair (.option s.flag s.octet) (.option s.flag s.octet))).map
    (fun p => { center := p.1, tableVersion := p.2.1, parameter := p.2.2 })
    fun c => (c.center, c.tableVersion, c.parameter)

/-- `Serialize<TimeForecast>` -/
def forecast : Codec SerializationEC TimeForecast :=
  (Codec.pair s.short (.pair s.octet (.pair s.octet (.pair s.octet (.pair s.octet s.octet))))).map
    (fun p => {
      N := p.1, NAvgAccMissed := p.2.1, P1 := p.2.2.1, P2 := p.2.2.2.1, tf := p.2.2.2.2.1, tri := p.2.2.2.2.2 })
    fun t => (t.N, t.NAvgAccMissed, t.P1, t.P2, t.tf, t.tri)

/-- `Serialize<Level>` -/
def level : Codec SerializationEC Level :=
  (Codec.pair s.octet (.pair s.octet s.octet)).map
    (fun p => { levelType := p.1, octet11 := p.2.1, octet12 := p.2.2 }) fun l => (l.levelType, l.octet11, l.octet12)

def positions : Codec SerializationEC Positions := .dict s.size s.path (.list s.size s.offset)

def index {κ : Type} [DecidableEq κ] (key : Codec SerializationEC κ) : Codec SerializationEC (Index κ) :=
  .dict s.size key s.positions

/-- Single values are read back as they were written. -/
structure Documented : Prop where
  size : ∀ n < 2 ^ 64, s.size.ReadsBack n
  offset : ∀ z, -2 ^ 63 ≤ z → z < 2 ^ 63 → s.offset.ReadsBack z
  octet : ∀ n < 256, s.octet.ReadsBack n
  flag : ∀ b, s.flag.ReadsBack b
  path : ∀ p : Storage, p.path.length < 2 ^ 64 → s.path.ReadsBack p

end Serializer

/-! ## The code -/

namespace DataStruct

variable {τ : Type}

/-- `Serialize<DataStruct>` -/
def serialize [DecidableEq τ] (s : Serializer τ) (d : DataStruct τ) : List UInt8 :=
  s.positions.encode d.positions ++ (s.index s.common).encode d.byCommonData ++ (s.index s.time).encode d.byDate ++
    (s.index s.grid).encode d.byGrid ++ (s.index s.forecast).encode d.byForecast ++
    (s.index s.level).encode d.byLevel

section Helper

variable {κ : Type} [DecidableEq κ]

/-- What a turn of the loop does with `pair_tmp`: the paths under its key are attached if they are among the
positions, and nothing is done for a null key. -/
def attach (positions : Positions) (pairTmp : Option κ × Positions) (toDeserialize : Index κ) :
    Except (SerializationEC × Index κ) (Index κ) :=
  match pairTmp.1 with
  | none => .ok toDeserialize
  | some key => pairTmp.2.entries.foldlM (fun acc e =>
      if e.1 ∈ positions then .ok (acc.update key fun values => values.insert e.1 e.2)
      else .error (.fileReadingError, acc.update key id)) toDeserialize

/-- The turns of the loop that are left.  Each reads the whole index from the start of the buffer; `pair_tmp` is
never assigned.  What follows the last turn is the end of the function, without a `return`. -/
def checkPaths (index : Codec SerializationEC (Index κ)) (positions : Positions) (pairTmp : Option κ × Positions)
    (buf : List UInt8) : ℕ → Index κ → Except Fault (SerializationEC × Index κ)
  | 0, _ => .error .noReturn
  | n + 1, toDeserialize =>
    match index.decode buf with
    | .error err => .ok (err, toDeserialize)
    | .ok toDeserialize =>
      match attach positions pairTmp toDeserialize with
      | .error r => .ok r
      | .ok toDeserialize => checkPaths index positions pairTmp buf n toDeserialize

/-- `deserialize_and_check_paths`, on an empty container: the error, and the container.  `key` is a key made
without arguments. -/
def deserializeAndCheckPaths (s : Serializer τ) (index : Codec SerializationEC (Index κ)) (key : Option κ)
    (positions : Positions) (buf : List UInt8) : Except Fault (SerializationEC × Index κ) :=
  match s.size.decode buf with
  | .error err => .ok (err, ∅)
  | .ok sz => checkPaths index positions (key, ∅) buf sz ∅

end Helper

/-- `buf.subspan(n)` -/
def subspan (buf : List UInt8) (n : ℕ) : Except Fault (List UInt8) :=
  if n ≤ buf.length then .ok (buf.drop n) else .error .element

/-- `Deserialize<DataStruct>`, into a store `msg`: the error if there is one, and the store.  What
`deserialize_and_check_paths` returns is not looked at. -/
def deserialize [DecidableEq τ] (s : Serializer τ) (msg : DataStruct τ) (buf : List UInt8) :
    Except Fault (Option SerializationEC × DataStruct τ) :=
  match s.positions.decode buf with
  | .error err => .ok (some err, msg)
  | .ok positions => do
    let buf ← subspan buf (s.positions.size positions)
    let (_, byCommonData) ← deserializeAndCheckPaths s (s.index s.common) none positions buf
    let buf ← subspan buf ((s.index s.common).size byCommonData)
    let (_, byDate) ← deserializeAndCheckPaths s (s.index s.time) (some s.defaultTime) positions buf
    let buf ← subspan buf ((s.index s.time).size byDate)
    let (_, byGrid) ← deserializeAndCheckPaths s (s.index s.grid) none positions buf
    let buf ← subspan buf ((s.index s.grid).size byGrid)
    let (_, byForecast) ← deserializeAndCheckPaths s (s.index s.forecast) none positions buf
    let buf ← subspan buf ((s.index s.forecast).size byForecast)
    let (_, byLevel) ← deserializeAndCheckPaths s (s.index s.level) none positions buf
    return (none, { positions, byCommonData, byDate, byGrid, byForecast, byLevel })

/-! ## What a store must fit -/

/-- The numbers of a key are octets. -/
structure KeyFits (c : CommonDataProperties) : Prop where
  center : ∀ x ∈ c.center, x < 256
  tableVersion : ∀ x ∈ c.tableVersion, x < 256
  parameter : ∀ x ∈ c.parameter, x < 256

/-- The paths and positions are values of the machine types. -/
structure PositionsFit (ps : Positions) : Prop where
  length : ps.entries.length < 2 ^ 64
  path : ∀ e ∈ ps.entries, e.1.path.length < 2 ^ 64
  count : ∀ e ∈ ps.entries, e.2.length < 2 ^ 64
  offset : ∀ e ∈ ps.entries, ∀ z ∈ e.2, -2 ^ 63 ≤ z ∧ z < 2 ^ 63

/-- So are the positions of a store and the index by common data, which are read before anything else. -/
structure MachineSized (d : DataStruct τ) : Prop where
  positions : PositionsFit d.positions
  length : d.byCommonData.entries.length < 2 ^ 64
  key : ∀ e ∈ d.byCommonData.entries, KeyFits e.1
  byPath : ∀ e ∈ d.byCommonData.entries, PositionsFit e.2

section ReadsBack

variable {s : Serializer τ}

theorem positions_readsBack (hs : s.Documented) {ps : Positions} (h : PositionsFit ps) : s.positions.ReadsBack ps :=
  Codec.dict_readsBack (hs.size _ h.length) (fun e he => hs.path e.1 (h.path e he)) fun e he =>
    Codec.list_readsBack (hs.size _ (h.count e he)) fun z hz =>
      hs.offset z (h.offset e he z hz).1 (h.offset e he z hz).2

theorem common_readsBack (hs : s.Documented) {c : CommonDataProperties} (h : KeyFits c) : s.common.ReadsBack c := by
  have hopt : ∀ o : Option ℕ, (∀ x ∈ o, x < 256) → (Codec.option s.flag s.octet).ReadsBack o := fun o ho =>
    Codec.option_readsBack hs.flag fun x hx => hs.octet x (ho x hx)
  refine Codec.map_readsBack ?_ rfl
  exact Codec.pair_readsBack (hopt _ h.center) (Codec.pair_readsBack (hopt _ h.tableVersion) (hopt _ h.parameter))

theorem byCommonData_readsBack (hs : s.Documented) {d : DataStruct τ} (h : MachineSized d) :
    (s.index s.common).ReadsBack d.byCommonData :=
  Codec.dict_readsBack (hs.size _ h.length) (fun e he => common_readsBack hs (h.key e he)) fun e he =>
    positions_readsBack hs (h.byPath e he)

end ReadsBack

/-! ## Reading a store back -/

section RoundTrip

variable {s : Serializer τ}

section Helper

variable {κ : Type} [DecidableEq κ] {index : Codec SerializationEC (Index κ)} {positions : Positions}
  {buf : List UInt8} {d : Index κ}

/-- While the index is read back, no turn of the loop returns. -/
theorem checkPaths_noReturn (h : index.decode buf = .ok d) : ∀ (n : ℕ) (toDeserialize : Index κ),
    checkPaths index positions (none, ∅) buf n toDeserialize = .error .noReturn
  | 0, _ => rfl
  | n + 1, toDeserialize => by
    rw [checkPaths, h]
    exact checkPaths_noReturn h n d

theorem deserializeAndCheckPaths_noReturn {n : ℕ} (hn : s.size.decode buf = .ok n) (h : index.decode buf = .ok d) :
    deserializeAndCheckPaths s index none positions buf = .error .noReturn := by
  rw [deserializeAndCheckPaths, hn]
  exact checkPaths_noReturn h n ∅

end Helper

theorem subspan_encode {ε α : Type} (c : Codec ε α) (a : α) (rest : List UInt8) :
    subspan (c.encode a ++ rest) (c.size a) = .ok rest := by
  have hlen : c.size a ≤ (c.encode a ++ rest).length := by
    rw [List.length_append]
    exact Nat.le_add_right ..
  rw [subspan, if_pos hlen, Codec.drop_size]

variable [DecidableEq τ] {d : DataStruct τ}

variable (s d) in
/-- The octets of a store start with its positions and the index by common data. -/
theorem serialize_eq : ∃ rest, serialize s d =
    s.positions.encode d.positions ++ ((s.index s.common).encode d.byCommonData ++ rest) := by
  refine ⟨(s.index s.time).encode d.byDate ++ ((s.index s.grid).encode d.byGrid ++
    ((s.index s.forecast).encode d.byForecast ++ (s.index s.level).encode d.byLevel)), ?_⟩
  simp only [serialize, List.append_assoc]

/-- On the octets of a store, the first index is read to the end of the function, and nothing is returned. -/
theorem deserialize_serialize (hs : s.Documented) (hd : MachineSized d) (msg : DataStruct τ) :
    deserialize s msg (serialize s d) = .error .noReturn := by
  obtain ⟨rest, hrest⟩ := serialize_eq s d
  have hread := byCommonData_readsBack hs hd rest
  have hcount : s.size.decode ((s.index s.common).encode d.byCommonData ++ rest) =
      .ok d.byCommonData.entries.length := Codec.dict_count (hs.size _ hd.length) rest
  rw [hrest, deserialize, positions_readsBack hs hd.positions]
  simp only [subspan_encode, ok_bind, deserializeAndCheckPaths_noReturn hcount hread, error_bind]

/-- The same entries, whatever their order. -/
structure Same (d e : DataStruct τ) : Prop where
  positions : Dict.Agree Eq d.positions e.positions
  byCommonData : Dict.Agree (Dict.Agree Eq) d.byCommonData e.byCommonData
  byDate : Dict.Agree (Dict.Agree Eq) d.byDate e.byDate
  byGrid : Dict.Agree (Dict.Agree Eq) d.byGrid e.byGrid
  byForecast : Dict.Agree (Dict.Agree Eq) d.byForecast e.byForecast
  byLevel : Dict.Agree (Dict.Agree Eq) d.byLevel e.byLevel

/-- The octets of the store `d` are read into the store `msg` without an error, which is then the same as `d`. -/
def RoundTrips (s : Serializer τ) (msg d : DataStruct τ) : Prop :=
  ∃ d', deserialize s msg (serialize s d) = .ok (none, d') ∧ Same d' d

/-- **No store is read back from its octets**, whatever store they are read into. -/
theorem not_roundTrips (hs : s.Documented) (hd : MachineSized d) (msg : DataStruct τ) : ¬ RoundTrips s msg d := by
  rintro ⟨d', hd', -⟩
  rw [deserialize_serialize hs hd] at hd'
  cases hd'

end RoundTrip

end DataStruct

/-! ### A store of one message -/

namespace PathType

def octet : PathType → ℕ
  | directory => 0
  | file => 1
  | host => 2

def ofOctet : ℕ → PathType
  | 0 => directory
  | 1 => file
  | _ => host

end PathType

theorem toSigned_toUnsigned {z : ℤ} (h : -2 ^ 63 ≤ z) (h' : z < 2 ^ 63) : toSigned 64 (toUnsigned 64 z) = z := by
  unfold toSigned toUnsigned
  rw [Int.toNat_of_nonneg (Int.emod_nonneg _ (by norm_num)), Int.bmod_def]
  push_cast
  rw [Int.emod_emod_of_dvd _ dvd_rfl]
  split <;> omega

namespace Serializer

/-- Big-endian words, and a path as its kind and its characters.  Of the grids only the absent one is read back. -/
def reference : Serializer ℕ where
  size := .word (.other 0) 8
  offset := (Codec.word (.other 0) 8).map (fun n => toSigned 64 n) (toUnsigned 64)
  octet := .word (.other 0) 1
  short := .word (.other 0) 2
  flag := (Codec.word (.other 0) 1).map (fun n => n != 0) Bool.toNat
  path := (Codec.pair (.word (.other 0) 1) (.list (.word (.other 0) 8) (.word (.other 0) 1))).map
    (fun p => { path := p.2.map UInt8.ofNat, type := .ofOctet p.1 }) fun p => (p.type.octet, p.path.map UInt8.toNat)
  grid := (Codec.word (.other 0) 1).map (fun _ => .monostate) fun g => if g = .monostate then 0 else 1
  time := .word (.other 0) 8
  defaultTime := 0

theorem reference_documented : reference.Documented where
  size n hn := Codec.word_readsBack _ (hn.trans_eq (by norm_num))
  offset z h h' := by
    refine Codec.map_readsBack (Codec.word_readsBack _ ?_) (toSigned_toUnsigned h h')
    unfold toUnsigned
    omega
  octet n hn := Codec.word_readsBack _ (hn.trans_eq (by norm_num))
  flag b := by
    refine Codec.map_readsBack (Codec.word_readsBack _ ?_) ?_
    · cases b <;> decide
    · cases b <;> rfl
  path p hp := by
    refine Codec.map_readsBack (Codec.pair_readsBack (Codec.word_readsBack _ ?_)
      (Codec.list_readsBack (Codec.word_readsBack _ ?_) fun n hn => Codec.word_readsBack _ ?_)) ?_
    · show p.type.octet < 256 ^ 1
      cases p.type <;> decide
    · rw [List.length_map]
      exact hp.trans_eq (by norm_num)
    · obtain ⟨b, -, rfl⟩ := List.mem_map.mp hn
      exact b.toNat_lt
    · have hpath : (p.path.map UInt8.toNat).map UInt8.ofNat = p.path := by
        rw [List.map_map]
        exact (List.map_congr_left fun b _ => UInt8.ofNat_toNat).trans (List.map_id _)
      have htype : PathType.ofOctet p.type.octet = p.type := by
        cases p.type <;> rfl
      rw [hpath, htype]

end Serializer

namespace DataStruct

/-- The store of a file of one message. -/
def oneMessage : DataStruct ℕ := (record {} (.file [97]) Script.firstMessage)

/-- The one path with its one position. -/
theorem onePath_fit : PositionsFit oneMessage.positions := by
  have hpath : ∀ e ∈ oneMessage.positions.entries, e = ⟨.file [97], [0]⟩ := fun e he => List.mem_singleton.mp he
  constructor
  · decide
  · intro e he
    rw [hpath e he]
    decide
  · intro e he
    rw [hpath e he]
    decide
  · intro e he z hz
    rw [hpath e he] at hz
    obtain rfl := List.mem_singleton.mp hz
    decide

theorem oneMessage_machineSized : MachineSized oneMessage := by
  have hkey : ∀ e ∈ oneMessage.byCommonData.entries, e = ⟨Script.firstMessage.key, oneMessage.positions⟩ :=
    fun e he => List.mem_singleton.mp he
  refine ⟨onePath_fit, by decide, ?_, ?_⟩
  · intro e he
    rw [hkey e he]
    exact ⟨by simp [Script.firstMessage, GribMsgDataInfo.key], by simp [Script.firstMessage, GribMsgDataInfo.key],
      by simp [Script.firstMessage, GribMsgDataInfo.key]⟩
  · intro e he
    rw [hkey e he]
    exact onePath_fit

/-- The store is made by a call, and what is written of it is not read back. -/
theorem oneMessage_not_read :
    (∃ s : Script, s.run ℕ = .ok oneMessage) ∧ ¬ RoundTrips Serializer.reference {} oneMessage := by
  refine ⟨⟨.addFile .empty [97] [Script.firstMessage], rfl⟩, ?_⟩
  rintro ⟨d', hd', -⟩
  rw [deserialize_serialize Serializer.reference_documented oneMessage_machineSized] at hd'
  cases hd'

theorem not_roundTrips_oneMessage : ¬ RoundTrips Serializer.reference oneMessage oneMessage :=
  not_roundTrips Serializer.reference_documented oneMessage_machineSized oneMessage

end DataStruct

end Mashroom
