import Mashroom.Data.Merge

/-!
# Data.Malformed — buffers that are no store

A buffer is well-formed when the positions and then five indexes can be read from it, one after the other, and the
indexes name no other paths than the positions do.  Of the others, `deserialize` turns down those whose positions
cannot be read (`rejects_iff`), and no more: what is wrong in an index is not reported.
-/

namespace Mashroom

namespace DataStruct

variable {τ : Type} [DecidableEq τ] (s : Serializer τ)

/-- An index that names no other paths than `positions` does is read from the front of the buffer; after it, the
buffer goes on with `rest`. -/
def ReadsIndex {κ : Type} [DecidableEq κ] (index : Codec SerializationEC (Index κ)) (positions : Positions)
    (buf rest : List UInt8) : Prop :=
  ∃ d, index.decode buf = .ok d ∧ (∀ k, ∀ p ∈ d.get k, p ∈ positions) ∧ subspan buf (index.size d) = .ok rest

/-- The buffer starts with the six sections of a store. -/
def WellFormed (buf : List UInt8) : Prop :=
  ∃ positions common dates grids forecasts levels rest, s.positions.decode buf = .ok positions ∧
    subspan buf (s.positions.size positions) = .ok common ∧
    ReadsIndex (s.index s.common) positions common dates ∧ ReadsIndex (s.index s.time) positions dates grids ∧
    ReadsIndex (s.index s.grid) positions grids forecasts ∧
    ReadsIndex (s.index s.forecast) positions forecasts levels ∧
    ReadsIndex (s.index s.level) positions levels rest

/-- The positions cannot be read. -/
def PositionsUnreadable (buf : List UInt8) : Prop := ∃ err, s.positions.decode buf = .error err

/-- The call returns an error code, and the store `msg` is the one it was. -/
def Rejects (msg : DataStruct τ) (buf : List UInt8) : Prop := ∃ err, deserialize s msg buf = .ok (some err, msg)

variable {s} {msg : DataStruct τ} {buf : List UInt8}

/-- Once the positions are read, no error code is returned. -/
theorem deserialize_eq_ok {positions : Positions} {r : Option SerializationEC × DataStruct τ}
    (hp : s.positions.decode buf = .ok positions) (h : deserialize s msg buf = .ok r) : r.1 = none := by
  rw [deserialize, hp] at h
  simp only [bind_eq_ok] at h
  obtain ⟨_, -, _, -, _, -, _, -, _, -, _, -, _, -, _, -, _, -, _, -, h⟩ := h
  cases h
  rfl

/-- An error code is returned exactly when the positions cannot be read. -/
theorem rejects_iff : Rejects s msg buf ↔ PositionsUnreadable s buf := by
  constructor
  · rintro ⟨err, h⟩
    cases hp : s.positions.decode buf with
    | error err => exact ⟨err, hp⟩
    | ok positions => cases deserialize_eq_ok hp h
  · rintro ⟨err, hp⟩
    refine ⟨err, ?_⟩
    rw [deserialize, hp]

/-- **A buffer that is no store is turned down, with the store as it was, exactly when its positions cannot be
read.** -/
theorem rejects_malformed_iff (s : Serializer τ) (msg : DataStruct τ) (buf : List UInt8) :
    (¬ WellFormed s buf → Rejects s msg buf) ↔ WellFormed s buf ∨ PositionsUnreadable s buf := by
  rw [rejects_iff, or_iff_not_imp_left]

/-- In a well-formed buffer of a store, the index by common data names paths of the store. -/
theorem wellFormed_serialize {d : DataStruct τ} (hs : s.Documented) (hd : MachineSized d)
    (h : WellFormed s (serialize s d)) : ∀ k, ∀ p ∈ d.byCommonData.get k, p ∈ d.positions := by
  obtain ⟨rest, hrest⟩ := serialize_eq s d
  obtain ⟨positions, common, _, _, _, _, _, hp, hc, ⟨index, hi, hknown, -⟩, -⟩ := h
  rw [hrest, positions_readsBack hs hd.positions] at hp
  obtain rfl := Except.ok.inj hp
  rw [hrest, subspan_encode] at hc
  obtain rfl := Except.ok.inj hc
  rw [byCommonData_readsBack hs hd] at hi
  obtain rfl := Except.ok.inj hi
  exact hknown

/-! ### An index of an unknown path, and five indexes cut off -/

/-- No positions, and the indexes of a store of one message. -/
def unknownPath : DataStruct ℕ := { oneMessage with positions := ∅ }

theorem unknownPath_machineSized : MachineSized unknownPath where
  positions := by
    constructor
    · decide
    all_goals
      intro e he
      exact absurd he List.not_mem_nil
  length := oneMessage_machineSized.length
  key := oneMessage_machineSized.key
  byPath := oneMessage_machineSized.byPath

theorem unknownPath_malformed : ¬ WellFormed Serializer.reference (serialize Serializer.reference unknownPath) := by
  intro h
  have hknown := wellFormed_serialize Serializer.reference_documented unknownPath_machineSized h
  exact AList.notMem_empty _ (hknown Script.firstMessage.key (.file [97]) (by decide))

/-- No positions, and of each index only the number of its entries, which is one. -/
def onlyCounts : List UInt8 := Codec.octets 8 0 ++ (List.replicate 5 (Codec.octets 8 1)).flatten

theorem onlyCounts_malformed : ¬ WellFormed Serializer.reference onlyCounts := by
  rintro ⟨positions, common, _, _, _, _, _, hp, hc, ⟨index, hi, -⟩, -⟩
  have hpositions : Serializer.reference.positions.decode onlyCounts = .ok ∅ := rfl
  obtain rfl := Except.ok.inj (hpositions.symm.trans hp)
  have hcommon : subspan onlyCounts (Serializer.reference.positions.size ∅) = .ok (onlyCounts.drop 8) := rfl
  obtain rfl := Except.ok.inj (hcommon.symm.trans hc)
  cases hi

/-- Five indexes that are cut off replace the store by an empty one without an error, and an index of an unknown
path ends the call without a result. -/
theorem malformed_not_rejected :
    (¬ WellFormed Serializer.reference onlyCounts ∧
      deserialize Serializer.reference oneMessage onlyCounts = .ok (none, {})) ∧
    (¬ WellFormed Serializer.reference (serialize Serializer.reference unknownPath) ∧
      deserialize Serializer.reference oneMessage (serialize Serializer.reference unknownPath) = .error .noReturn) ∧
    ¬ ∀ (msg : DataStruct ℕ) (buf : List UInt8), ¬ WellFormed Serializer.reference buf →
      Rejects Serializer.reference msg buf := by
  refine ⟨⟨onlyCounts_malformed, rfl⟩, ⟨unknownPath_malformed, ?_⟩, ?_⟩
  · exact deserialize_serialize Serializer.reference_documented unknownPath_machineSized oneMessage
  · intro h
    obtain ⟨err, herr⟩ := h oneMessage onlyCounts onlyCounts_malformed
    have hnone : deserialize Serializer.reference oneMessage onlyCounts = .ok (none, {}) := rfl
    cases hnone.symm.trans herr

end DataStruct

end Mashroom
