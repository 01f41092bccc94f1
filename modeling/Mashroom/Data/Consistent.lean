import Mashroom.Data.Indexed

/-!
# Data.Consistent — the error field of a message, and what is indexed for it

The constructor of a message stores a code in `err_` when the lengths of the sections do not add up, and stores
nothing when they do: `err_` then has the bits its storage had before.  Here these bits are a number that comes
with each message.  `addFileHeld` is `addFile` on such messages, and agrees with it on those that have a code
(`addFile_settled`).
-/

namespace Mashroom

open Layout

/-- The numbers of the enumerators. -/
def Code.value : Code → ℕ
  | .noneErr => 0
  | .openErrorX1 => 1
  | .badFileX1 => 3
  | .dataEmptyX1 => 5
  | .readPosX1 => 6
  | .lenUnconsistX1 => 8
  | .missEndSectionX1 => 9

/-- What `err_` holds after the constructor, when its storage held `storage`. -/
def errHeld (storage : UInt32) : Option Code → ℕ
  | some err => err.value
  | none => storage.toNat

namespace Layout

/-- The sections and the end mark add up to the length in section 0. -/
def Consistent (f : File) (p : ℕ) : Prop :=
  8 + len1 f p + len2 f p + len3 f p + len4 f p + 4 = len0 f p

instance (f : File) (p : ℕ) : Decidable (Consistent f p) := inferInstanceAs (Decidable (_ = _))

theorem errHeld_message {f : File} {p : ℕ} (storage : UInt32) :
    errHeld storage (message f p).err = Code.noneErr.value ↔ Consistent f p ∧ storage = 0 := by
  by_cases hc : Consistent f p
  · rw [show (message f p).err = none from if_neg (not_not.mpr hc)]
    simp only [errHeld, Code.value, hc, true_and]
    exact UInt32.toNat_inj (b := 0)
  · rw [show (message f p).err = some .lenUnconsistX1 from if_pos hc]
    simp [errHeld, Code.value, hc]

end Layout

/-- The constructor on storage whose `err_` held `storage` leaves `NONE_ERR` there exactly for a consistent
message. -/
def NoneErrIffConsistent (f : File) (p : ℕ) (storage : UInt32) : Prop :=
  ∃ m, Message.make f p = .ok m ∧ (errHeld storage m.err = Code.noneErr.value ↔ Consistent f p)

theorem noneErrIffConsistent_iff (f : File) (p : ℕ) (storage : UInt32) :
    NoneErrIffConsistent f p storage ↔ Readable f p ∧ (Consistent f p → storage = 0) := by
  constructor
  · rintro ⟨m, hm, hiff⟩
    obtain ⟨hread, rfl⟩ := Message.make_eq_ok.mp hm
    exact ⟨hread, fun hc => ((errHeld_message storage).mp (hiff.mpr hc)).2⟩
  · rintro ⟨hread, hstorage⟩
    refine ⟨message f p, Message.make_eq hread, ?_⟩
    rw [errHeld_message]
    exact ⟨And.left, fun hc => ⟨hc, hstorage hc⟩⟩

/-! ## Adding a file -/

namespace DataStruct

variable {τ : Type}

/-- One turn of the loop over the messages, each with what the storage of its `err_` held. -/
def addMsgHeld (file : Storage) (d : DataStruct τ) (msg : GribMsgDataInfo × UInt32) : DataStruct τ :=
  if errHeld msg.2 msg.1.err = Code.noneErr.value then d.record file msg.1 else d

/-- `add_data(path,grib_msg)` -/
def addFileHeld (d : DataStruct τ) (path : List UInt8) (gribMsg : List (GribMsgDataInfo × UInt32)) : DataStruct τ :=
  let file := Storage.file path
  gribMsg.foldl (addMsgHeld file) { d with positions := d.positions.insert file [] }

/-- The message with a code where its storage had one by chance. -/
def settled (msg : GribMsgDataInfo × UInt32) : GribMsgDataInfo :=
  { msg.1 with
    err := some (if errHeld msg.2 msg.1.err = Code.noneErr.value then .noneErr else .lenUnconsistX1) }

theorem addMsg_settled (file : Storage) (d : DataStruct τ) (msg : GribMsgDataInfo × UInt32) :
    addMsg file d (settled msg) = .ok (addMsgHeld file d msg) := by
  unfold addMsg addMsgHeld settled
  by_cases h : errHeld msg.2 msg.1.err = Code.noneErr.value
  · simp only [if_pos h]
    rfl
  · simp only [if_neg h]
    rfl

/-- What `addFileHeld` does is what `addFile` does once every message has its code. -/
theorem addFile_settled (d : DataStruct τ) (path : List UInt8) (msgs : List (GribMsgDataInfo × UInt32)) :
    d.addFile path (msgs.map settled) = .ok (d.addFileHeld path msgs) := by
  simp only [addFile, addFileHeld]
  generalize { d with positions := d.positions.insert (.file path) [] } = d
  induction msgs generalizing d with
  | nil => rfl
  | cons msg msgs ih =>
    rw [List.map_cons, List.foldlM_cons, addMsg_settled, ok_bind, ih]
    rfl

end DataStruct

/-- A message of a file as the loop over it keeps it, and what the storage of its `err_` held. -/
structure KeptMsg (f : File) where
  pos : ℕ
  grid : GridInfo
  storage : UInt32
  info : GribMsgDataInfo
  readable : Readable f pos
  read : GribMsgDataInfo.read (HGrib1.reader f pos) (message f pos) grid = .ok info

namespace KeptMsg

variable {f : File} (k : KeptMsg f)

theorem pos_and_err_info : k.info.bufPos = k.pos ∧ k.info.err = (message f k.pos).err := by
  have h := k.read
  simp only [GribMsgDataInfo.read, bind_eq_ok] at h
  obtain ⟨_, -, _, -, _, -, _, -, _, -, _, -, _, -, _, -, h⟩ := h
  rw [← Except.ok.inj h]
  exact ⟨rfl, rfl⟩

theorem bufPos_info : k.info.bufPos = k.pos := k.pos_and_err_info.1

theorem err_info : k.info.err = (message f k.pos).err := k.pos_and_err_info.2

/-- What the loop passes on. -/
def entry : GribMsgDataInfo × UInt32 := (k.info, k.storage)

theorem err_settled : (DataStruct.settled k.entry).err = some .noneErr ↔ Consistent f k.pos ∧ k.storage = 0 := by
  rw [← errHeld_message, ← err_info]
  simp only [DataStruct.settled, entry, Option.some.injEq]
  by_cases h : errHeld k.storage k.info.err = Code.noneErr.value
  · simp [h]
  · simp [h]

end KeptMsg

section Indexing

variable {τ : Type} {f : File}

/-- The positions of the consistent ones among the messages. -/
def consistentPositions (ms : List (KeptMsg f)) : List ℤ :=
  (ms.filter fun k => Consistent f k.pos).map fun k => k.pos

/-- The path gets the positions of exactly the consistent messages, and each index lists them, besides what it
listed before; the other paths keep theirs. -/
def IndexesConsistent (d : DataStruct τ) (path : List UInt8) (ms : List (KeptMsg f)) : Prop :=
  let d' := d.addFileHeld path (ms.map KeptMsg.entry)
  let new := fun p => if p = .file path then consistentPositions ms else []
  (∀ p, d'.positions.get p = (if p = .file path then [] else d.positions.get p) ++ new p) ∧
    ∀ (q : IndexedBy) p, listed (q.index d') p = listed (q.index d) p + (new p : Multiset ℤ)

/-- The positions that the messages add. -/
theorem added_entries (file : Storage) (ms : List (KeptMsg f)) (p : Storage) :
    DataStruct.added file ((ms.map KeptMsg.entry).map DataStruct.settled) p =
      if p = file then consistentPositions (ms.filter fun k => k.storage = 0) else [] := by
  have hpos : ∀ k : KeptMsg f, (DataStruct.settled k.entry).bufPos = k.pos := fun k => k.bufPos_info
  have hfilter : ∀ k : KeptMsg f, decide ((DataStruct.settled k.entry).err = some .noneErr) =
      (decide (Consistent f k.pos) && decide (k.storage = 0)) := by
    intro k
    rw [← Bool.decide_and, decide_eq_decide]
    exact k.err_settled
  unfold DataStruct.added consistentPositions
  rw [List.map_map, List.filter_map, List.map_map, List.filter_filter]
  simp only [Function.comp_def, hpos, hfilter]

/-- `addFileHeld` indexes exactly the consistent messages when the storage of each of them held `NONE_ERR`. -/
theorem indexesConsistent_iff (d : DataStruct τ) (path : List UInt8) (ms : List (KeptMsg f)) :
    IndexesConsistent d path ms ↔ ∀ k ∈ ms, Consistent f k.pos → k.storage = 0 := by
  obtain ⟨hpos, hlist⟩ := DataStruct.addFile_eq_ok (DataStruct.addFile_settled d path (ms.map KeptMsg.entry))
  simp only [added_entries] at hpos hlist
  have hcomm : consistentPositions (ms.filter fun k => k.storage = 0) =
      ((ms.filter fun k => Consistent f k.pos).filter fun k => k.storage = 0).map fun k => (k.pos : ℤ) := by
    rw [consistentPositions, List.filter_comm]
  constructor
  · rintro ⟨h, -⟩ k hk hc
    have hself := h (.file path)
    rw [hpos, hcomm] at hself
    simp only [if_true, List.nil_append] at hself
    have hlen := congrArg List.length hself
    simp only [consistentPositions, List.length_map] at hlen
    have hall := List.length_filter_eq_length_iff.mp hlen
    simpa using hall k (List.mem_filter.mpr ⟨hk, by simpa using hc⟩)
  · intro h
    have hsame : (ms.filter fun k => Consistent f k.pos).filter (fun k => k.storage = 0) =
        ms.filter fun k => Consistent f k.pos := by
      refine List.filter_eq_self.mpr fun k hk => ?_
      obtain ⟨hk, hc⟩ := List.mem_filter.mp hk
      simpa using h k hk (by simpa using hc)
    rw [hcomm, hsame] at hpos hlist
    exact ⟨hpos, hlist⟩

/-- **`err_` is `NONE_ERR` exactly for the consistent messages, and exactly these are indexed**, when the storage of
every consistent message held `NONE_ERR` before, and not otherwise. -/
theorem noneErr_consistent_iff (f : File) :
    (∀ p storage, NoneErrIffConsistent f p storage ↔ Readable f p ∧ (Consistent f p → storage = 0)) ∧
      ∀ (d : DataStruct τ) (path : List UInt8) (ms : List (KeptMsg f)),
        IndexesConsistent d path ms ↔ ∀ k ∈ ms, Consistent f k.pos → k.storage = 0 :=
  ⟨noneErrIffConsistent_iff f, indexesConsistent_iff⟩

end Indexing

/-! ## A consistent message that is not indexed -/

/-- A message of four values, on storage that was filled with ones. -/
def filledStorage : KeptMsg (assemble [flagsSection 0, octetsSection [1, 2, 3, 4]]) where
  pos := 0
  grid := .monostate
  storage := 0xFFFFFFFF
  info := infoAt (assemble [flagsSection 0, octetsSection [1, 2, 3, 4]]) 0 .monostate
  readable := by decide
  read := GribMsgDataInfo.read_reader (by decide) _

/-- The message is consistent, its `err_` is not `NONE_ERR`, and it is not indexed. -/
theorem filledStorage_not_indexed :
    Consistent (assemble [flagsSection 0, octetsSection [1, 2, 3, 4]]) filledStorage.pos ∧
      ¬ NoneErrIffConsistent (assemble [flagsSection 0, octetsSection [1, 2, 3, 4]]) filledStorage.pos
        filledStorage.storage ∧
      ((({} : DataStruct ℕ).addFileHeld [97] [filledStorage.entry]).positions.get (.file [97]) = []) ∧
      ¬ IndexesConsistent ({} : DataStruct ℕ) [97] [filledStorage] := by
  have hc : Consistent (assemble [flagsSection 0, octetsSection [1, 2, 3, 4]]) filledStorage.pos := by decide
  refine ⟨hc, ?_, by decide, ?_⟩
  · rw [noneErrIffConsistent_iff]
    exact fun h => absurd (h.2 hc) (by decide)
  · rw [indexesConsistent_iff]
    exact fun h => absurd (h filledStorage (List.mem_singleton.mpr rfl) hc) (by decide)

end Mashroom
