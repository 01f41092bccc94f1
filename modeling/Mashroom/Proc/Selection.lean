import Mathlib.Data.List.Sort
import Mashroom.Grib1.Values
import Mashroom.Proc.Extract

/-!
# Proc.Selection — which messages the extraction takes

`Layout.Matches` says that a message satisfies every property of a search, `Layout.Passes` that it gets through
the filters of the scan.  Over a file of well-formed messages the scan adds an entry for each message that
passes (`extractScan_chain`), and the jumps to positions add one for each position (`extract_positions_eq_scan`).
-/

namespace Mashroom

open Layout DoWhile

namespace Layout

section Predicates

variable (lib : OsterLib) (props : SearchProperties) (pos : Coord) (f : File) (p : ℕ)

/-- The message has every property that is set, and its grid contains the position. -/
structure Matches : Prop where
  center : ∀ c ∈ props.center, centerAt f p = c
  parameter : props.parameters = [] ∨ { param := parameterAt f p, tVer := tableAt f p } ∈ props.parameters
  forecast : ∀ t ∈ props.fcstUnit, forecastAt f p = t
  level : ∀ l ∈ props.level, levelAt f p = l
  gridType : ∀ t ∈ props.gridType, hasGds f p = true ∧ RepresentationType.ofOctet (gridOctet f p) = some t
  date : props.fromDate ≤ refTime f p ∧ refTime f p ≤ props.toDate
  contains : posInGrid pos (gridAt lib f p) = true

instance : Decidable (Matches lib props pos f p) :=
  decidable_of_iff ((∀ c ∈ props.center, centerAt f p = c) ∧
      (props.parameters = [] ∨ { param := parameterAt f p, tVer := tableAt f p } ∈ props.parameters) ∧
      (∀ t ∈ props.fcstUnit, forecastAt f p = t) ∧ (∀ l ∈ props.level, levelAt f p = l) ∧
      (∀ t ∈ props.gridType, hasGds f p = true ∧ RepresentationType.ofOctet (gridOctet f p) = some t) ∧
      (props.fromDate ≤ refTime f p ∧ refTime f p ≤ props.toDate) ∧ posInGrid pos (gridAt lib f p) = true)
    ⟨fun ⟨h1, h2, h3, h4, h5, h6, h7⟩ => ⟨h1, h2, h3, h4, h5, h6, h7⟩,
      fun h => ⟨h.center, h.parameter, h.forecast, h.level, h.gridType, h.date, h.contains⟩⟩

/-- The message gets through the filters of the scan and has a grid. -/
structure Passes : Prop where
  center : ∀ c ∈ props.center, centerAt f p = c
  parameter : props.parameters = [] ∨ { param := parameterAt f p, tVer := tableAt f p } ∈ props.parameters
  forecast : ∀ t ∈ props.fcstUnit, forecastAt f p = t
  gridType : ∀ t ∈ props.gridType, t = (gridAt lib f p).type ∧
    (props.fromDate ≤ refTime f p ∧ refTime f p ≤ props.toDate) ∧ posInGrid pos (gridAt lib f p) = true
  grid : (gridAt lib f p).hasGrid = true

instance : Decidable (Passes lib props pos f p) :=
  decidable_of_iff ((∀ c ∈ props.center, centerAt f p = c) ∧
      (props.parameters = [] ∨ { param := parameterAt f p, tVer := tableAt f p } ∈ props.parameters) ∧
      (∀ t ∈ props.fcstUnit, forecastAt f p = t) ∧
      (∀ t ∈ props.gridType, t = (gridAt lib f p).type ∧
        (props.fromDate ≤ refTime f p ∧ refTime f p ≤ props.toDate) ∧ posInGrid pos (gridAt lib f p) = true) ∧
      (gridAt lib f p).hasGrid = true)
    ⟨fun ⟨h1, h2, h3, h4, h5⟩ => ⟨h1, h2, h3, h4, h5⟩,
      fun h => ⟨h.center, h.parameter, h.forecast, h.gridType, h.grid⟩⟩

/-- The key of the message. -/
def keyAt : CommonDataProperties where
  center := some (centerAt f p)
  tableVersion := some (tableAt f p)
  parameter := some (parameterAt f p)

/-- The value of the message at the position. -/
def valueAt : Except Fault ℚ := do
  let n ← valueByRaw lib pos (gridAt lib f p)
  (message f p).extractValue lib f n

/-- What the scan does not ask of a message that passes: the level, and without a grid type the dates and the
position. -/
structure Unasked : Prop where
  level : ∀ l ∈ props.level, levelAt f p = l
  untyped : props.gridType = none →
    (props.fromDate ≤ refTime f p ∧ refTime f p ≤ props.toDate) ∧ posInGrid pos (gridAt lib f p) = true

end Predicates

section Predicates

variable {lib : OsterLib} {props : SearchProperties} {pos : Coord} {f : File} {p : ℕ}

/-- Only a plain latitude/longitude grid contains a position, and its type is what section 2 says. -/
theorem posInGrid_gridAt (h : posInGrid pos (gridAt lib f p) = true) :
    hasGds f p = true ∧ RepresentationType.ofOctet (gridOctet f p) = some (gridAt lib f p).type ∧
      (gridAt lib f p).hasGrid = true := by
  cases hgrid : gridAt lib f p with
  | latLon d =>
    unfold gridAt at hgrid
    split at hgrid
    · rename_i hg
      refine ⟨hg, ?_, rfl⟩
      split at hgrid
      · rename_i grid he
        subst hgrid
        unfold GridInfo.emplaceById at he
        split at he
        case h_3 ho => exact ho
        case h_1 => cases he
        case h_2 => cases he
        all_goals
          generalize readDefinition _ _ = r at he
          cases r <;> cases he
      · cases hgrid
    · cases hgrid
  | _ => rw [hgrid] at h; cases h

/-- A message matches when it passes and has what the scan does not ask. -/
theorem matches_iff_passes : Matches lib props pos f p ↔ Passes lib props pos f p ∧ Unasked lib props pos f p := by
  constructor
  · intro h
    obtain ⟨-, hoctet, hgrid⟩ := posInGrid_gridAt h.contains
    refine ⟨⟨h.center, h.parameter, h.forecast, fun t ht => ⟨?_, h.date, h.contains⟩, hgrid⟩,
      h.level, fun _ => ⟨h.date, h.contains⟩⟩
    exact Option.some.inj ((h.gridType t ht).2.symm.trans hoctet)
  · rintro ⟨h, hl, hu⟩
    obtain ⟨hdate, hcont⟩ : (props.fromDate ≤ refTime f p ∧ refTime f p ≤ props.toDate) ∧
        posInGrid pos (gridAt lib f p) = true := by
      cases ht : props.gridType with
      | none => exact hu ht
      | some t => exact (h.gridType t ht).2
    obtain ⟨hgds, hoctet, -⟩ := posInGrid_gridAt hcont
    exact ⟨h.center, h.parameter, h.forecast, hl, fun t ht => ⟨hgds, (h.gridType t ht).1 ▸ hoctet⟩, hdate, hcont⟩

/-- With a grid type and without a level, the scan asks for everything. -/
theorem passes_iff_matches {t : RepresentationType} (ht : props.gridType = some t) (hl : props.level = none) :
    Passes lib props pos f p ↔ Matches lib props pos f p := by
  rw [matches_iff_passes]
  refine (and_iff_left_of_imp fun _ => ⟨by simp [hl], by simp [ht]⟩).symm

end Predicates

end Layout

/-! ## One message -/

/-- The entry of the message is added to the result. -/
def addEntry (lib : OsterLib) (pos : Coord) (f : File) (result : ExtractedData) (p : ℕ) :
    Except Fault ExtractedData := do
  let value ← valueAt lib pos f p
  return result.update (keyAt f p) (· ++ [{ timeDate := refTime f p, value }])

/-- What a turn of the scan does with the message at a position. -/
def scanStep (lib : OsterLib) (props : SearchProperties) (pos : Coord) (f : File) (s : ExtractLocals) (p : ℕ) :
    Except Fault ExtractLocals := do
  let result ← if Passes lib props pos f p then addEntry lib pos f s.result p else .ok s.result
  return { result, polls := s.polls + 1 }

section Message

variable {lib : OsterLib} {props : SearchProperties} {pos : Coord} {stop : ℕ → Bool} {f : File} {p : ℕ}

theorem extractInfo_reader (hw : WellFormed f p) :
    extractInfo lib (HGrib1.reader f p) (message f p) = .ok (infoAt f p (gridAt lib f p)) := by
  simp only [extractInfo, Message.section2?, HGrib1.reader_file, Message.section1Flags_message hw, ok_bind, pure_eq_ok]
  by_cases hg : hasGds f p = true
  · rw [if_pos hg]
    show ((message f p).section2.defineGrid lib f >>= fun grid => GribMsgDataInfo.read _ _ grid) = _
    rw [defineGrid_message hw hg, ok_bind, GribMsgDataInfo.read_reader hw]
  · rw [if_neg hg]
    show GribMsgDataInfo.read _ _ GridInfo.monostate = _
    rw [GribMsgDataInfo.read_reader hw, gridAt, if_neg hg]

/-- The filters skip a message that has a grid exactly when it does not pass. -/
theorem extractSkips_infoAt (lib : OsterLib) (f : File) (p : ℕ) (hpos : props.position = some pos) :
    ∃ skips, extractSkips props (infoAt f p (gridAt lib f p)) = .ok skips ∧
      ((gridAt lib f p).hasGrid = true → (skips = false ↔ Passes lib props pos f p)) := by
  by_cases hc : Differs props.center (centerAt f p)
  · exact ⟨true, if_pos hc, fun _ => iff_of_false (by decide) fun h => not_differs.mpr h.center hc⟩
  by_cases hq : props.skipsParameter (infoAt f p (gridAt lib f p))
  · refine ⟨true, ?_, fun _ => iff_of_false (by decide) fun h => SearchProperties.not_skipsParameter.mpr h.parameter hq⟩
    rw [extractSkips, if_neg (by exact hc), if_pos hq]
  by_cases ht : Differs props.fcstUnit (forecastAt f p)
  · refine ⟨true, ?_, fun _ => iff_of_false (by decide) fun h => not_differs.mpr h.forecast ht⟩
    rw [extractSkips, if_neg (by exact hc), if_neg hq, if_pos (by exact ht)]
  have hcenter := not_differs.mp hc
  have hparameter := SearchProperties.not_skipsParameter.mp hq
  have hforecast := not_differs.mp ht
  cases hg : props.gridType with
  | none =>
    have hskips : extractSkips props (infoAt f p (gridAt lib f p)) = .ok false := by
      rw [extractSkips, if_neg (by exact hc), if_neg hq, if_neg (by exact ht), hg]
    refine ⟨false, hskips, fun hgrid => iff_of_true rfl ?_⟩
    exact ⟨hcenter, hparameter, hforecast, by simp [hg], hgrid⟩
  | some t =>
    have hskips : extractSkips props (infoAt f p (gridAt lib f p)) =
        if (gridAt lib f p).hasGrid = false then .ok true
        else if t ≠ (gridAt lib f p).type then .ok true
        else if props.toDate < refTime f p ∨ refTime f p < props.fromDate then .ok true
        else .ok (!posInGrid pos (gridAt lib f p)) := by
      rw [extractSkips, if_neg (by exact hc), if_neg hq, if_neg (by exact ht), hg, hpos]
      rfl
    have hpass : Passes lib props pos f p ↔ (t = (gridAt lib f p).type ∧
        (props.fromDate ≤ refTime f p ∧ refTime f p ≤ props.toDate) ∧ posInGrid pos (gridAt lib f p) = true) ∧
          (gridAt lib f p).hasGrid = true :=
      ⟨fun h => ⟨h.gridType t hg, h.grid⟩, fun h => ⟨hcenter, hparameter, hforecast, by simpa [hg] using h.1, h.2⟩⟩
    rw [hpass, hskips]
    split_ifs with h1 h2 h3
    · exact ⟨true, rfl, fun h => by rw [h1] at h; cases h⟩
    · exact ⟨true, rfl, fun _ => iff_of_false (by decide) fun h => h2 h.1.1⟩
    · exact ⟨true, rfl, fun _ => iff_of_false (by decide) fun h => by omega⟩
    · refine ⟨_, rfl, ?_⟩
      intro h
      rw [Bool.not_eq_false']
      exact ⟨fun hin => ⟨⟨not_not.mp h2, by omega, hin⟩, h⟩, fun h => h.1.2.2⟩

theorem extractAt_message (hpos : props.position = some pos) :
    extractAt lib props f (message f p) (gridAt lib f p) = valueAt lib pos f p := by
  rw [extractAt, hpos]
  rfl

theorem emit_message (hpos : props.position = some pos) (result : ExtractedData) :
    emit lib props f (message f p) (infoAt f p (gridAt lib f p)) result =
      if (gridAt lib f p).hasGrid = true then addEntry lib pos f result p else .ok result := by
  rw [emit, show (infoAt f p (gridAt lib f p)).gridData = gridAt lib f p from rfl, extractAt_message hpos]
  rfl

/-- A turn of the scan at a well-formed message, when no stop is requested. -/
theorem scanBody_message (hw : WellFormed f p) (hpos : props.position = some pos) (hstop : ∀ k, stop k = false)
    (s : ExtractLocals) : scanBody lib props stop (HGrib1.reader f p, s) =
      (fun s' => .next (HGrib1.reader f p, s')) <$> scanStep lib props pos f s p := by
  obtain ⟨skips, hskips, hpass⟩ := extractSkips_infoAt lib f p hpos
  simp only [scanBody, HGrib1.reader_msg, HGrib1.reader_file, HGrib1.messageLength_message hw.readable, ok_bind,
    if_neg hw.len0_pos, hstop, extractInfo_reader hw, hskips, emit_message hpos, scanStep]
  by_cases hg : (gridAt lib f p).hasGrid = true
  · cases skips with
    | true =>
      have hn : ¬ Passes lib props pos f p := fun h => by simpa using (hpass hg).mpr h
      rw [if_neg hn]
      rfl
    | false =>
      rw [if_pos hg, if_pos ((hpass hg).mp rfl)]
      cases addEntry lib pos f s.result p <;> rfl
  · rw [if_neg hg, if_neg fun h : Passes lib props pos f p => hg h.grid]
    cases skips <;> rfl

end Message

/-! ## A file -/

section File

variable {lib : OsterLib} {props : SearchProperties} {pos : Coord} {stop : ℕ → Bool} {f : File} {h : HGrib1}
  {ps : List ℕ}

theorem foldlM_scanStep (ps : List ℕ) (s : ExtractLocals) :
    ExtractLocals.result <$> ps.foldlM (scanStep lib props pos f) s =
      (ps.filter (Passes lib props pos f)).foldlM (addEntry lib pos f) s.result := by
  induction ps generalizing s with
  | nil => rfl
  | cons p ps ih =>
    by_cases hp : Passes lib props pos f p
    · rw [List.filter_cons_of_pos (by simpa using hp), List.foldlM_cons, List.foldlM_cons]
      simp only [scanStep, if_pos hp]
      cases addEntry lib pos f s.result p with
      | error e => rfl
      | ok result => exact ih { result, polls := s.polls + 1 }
    · rw [List.filter_cons_of_neg (by simpa using hp), List.foldlM_cons]
      simp only [scanStep, if_neg hp, ok_bind]
      exact ih { s with polls := s.polls + 1 }

/-- **The scan adds an entry for each message that passes**, in file order, and returns `NONE`. -/
theorem extractScan_chain (ho : HGrib1.openGrib (some f) = .ok (.noneErr, h)) (hc : Chain (WellFormed f) f 0 ps)
    (hpos : props.position = some pos) (hstop : ∀ k, stop k = false) {fuel : ℕ} (hfuel : ps.length ≤ fuel)
    (refData : ExtractedData) : extractScan lib props stop fuel (some f) refData =
      some ((fun r => (.none, r)) <$> (ps.filter (Passes lib props pos f)).foldlM (addEntry lib pos f) refData) := by
  obtain ⟨hr, rfl⟩ := HGrib1.openGrib_some ho
  obtain ⟨q, -, hloop, -⟩ := doWhile_chain (scanBody lib props stop) (scanStep lib props pos f)
    (fun q hq => hq.readable) (fun q b hq => scanBody_message hq hpos hstop b) hc
    { result := refData, polls := 0 } hfuel
  simp only [extractScan, ho, ne_eq, not_true_eq_false, if_false, if_neg (HGrib1.fileSize_reader hr), hloop]
  rw [← foldlM_scanStep ps { result := refData, polls := 0 }]
  cases ps.foldlM (scanStep lib props pos f) { result := refData, polls := 0 } <;> rfl

/-- The jumps to the positions of well-formed messages that have a grid add an entry for each. -/
theorem positionsLoop_message (hpos : props.position = some pos) (hstop : ∀ k, stop k = false) :
    ∀ (qs : List ℕ) (x : ℕ) (s : ExtractLocals),
      (∀ q ∈ qs, WellFormed f q ∧ (gridAt lib f q).hasGrid = true ∧ q < 2 ^ 63) →
      positionsLoop lib props stop (qs.map Nat.cast) (HGrib1.reader f x) s =
        (fun r => (.none, r)) <$> qs.foldlM (addEntry lib pos f) s.result
  | [], _, _, _ => rfl
  | q :: qs, x, s, hq => by
    obtain ⟨⟨hw, hg, hq63⟩, hqs⟩ := List.forall_mem_cons.mp hq
    have hlt : q < f.length := by
      have := hw.readable.flags
      omega
    have hu : toUnsigned 64 (q : ℤ) = q := by
      unfold toUnsigned
      omega
    have hset : (HGrib1.reader f x).setMessage q = .ok (true, HGrib1.reader f q) := by
      rw [HGrib1.setMessage_reader, hu, if_pos hlt, Message.make_eq hw.readable]
      rfl
    rw [List.map_cons, positionsLoop, if_neg (by omega), hset, List.foldlM_cons]
    simp only [ok_bind, Bool.not_true, Bool.false_eq_true, if_false, HGrib1.reader_msg, HGrib1.reader_file,
      HGrib1.messageLength_message hw.readable, if_neg hw.len0_pos, hstop, extractInfo_reader hw, emit_message hpos,
      if_pos hg]
    cases addEntry lib pos f s.result q with
    | error e => rfl
    | ok result => exact positionsLoop_message hpos hstop qs q { result, polls := s.polls + 1 } hqs

/-- The positions of a chain of well-formed messages ascend. -/
theorem chain_ascending (hc : Chain (WellFormed f) f 0 ps) : ps.Pairwise (· < ·) := by
  apply List.isChain_iff_pairwise.mp
  apply hc.isChain.imp
  rintro x y ⟨hx, -, rfl⟩
  have := hx.len0_pos
  omega

/-- The ascending list of the positions of the messages that match is that of the messages that pass. -/
theorem positions_eq (hc : Chain (WellFormed f) f 0 ps) {t : RepresentationType} (ht : props.gridType = some t)
    (hl : props.level = none) {positions : List ℤ} (hasc : positions.Pairwise (· < ·))
    (hmem : ∀ z, z ∈ positions ↔ ∃ p ∈ ps, z = p ∧ Matches lib props pos f p) :
    positions = (ps.filter (Passes lib props pos f)).map Nat.cast := by
  have hmap : ((ps.filter (Passes lib props pos f)).map (Nat.cast : ℕ → ℤ)).Pairwise (· < ·) :=
    List.pairwise_map.mpr (((chain_ascending hc).filter _).imp fun h => by exact_mod_cast h)
  apply hasc.eq_of_mem_iff hmap
  intro z
  simp only [hmem, List.mem_map, List.mem_filter, decide_eq_true_eq, passes_iff_matches ht hl]
  exact ⟨fun ⟨p, hp, hz, hm⟩ => ⟨p, ⟨hp, hm⟩, hz.symm⟩, fun ⟨p, ⟨hp, hm⟩, hz⟩ => ⟨p, hp, hz.symm, hm⟩⟩

/-- **The jumps to the positions of the matching messages do what the scan does**: they have the same outcome,
result and all. -/
theorem extract_positions_eq_scan (ho : HGrib1.openGrib (some f) = .ok (.noneErr, h))
    (hc : Chain (WellFormed f) f 0 ps) (hpos : props.position = some pos) {t : RepresentationType}
    (ht : props.gridType = some t) (hl : props.level = none) (hstop : ∀ k, stop k = false) {positions : List ℤ}
    (hptr : ∀ z ∈ positions, z < 2 ^ 63) (hasc : positions.Pairwise (· < ·))
    (hmem : ∀ z, z ∈ positions ↔ ∃ p ∈ ps, z = p ∧ Matches lib props pos f p) {fuel : ℕ} (hfuel : ps.length ≤ fuel)
    (refData : ExtractedData) : extractScan lib props stop fuel (some f) refData =
      some (extractPositions lib props stop (some f) refData positions) := by
  have hlist := positions_eq hc ht hl hasc hmem
  obtain ⟨hr, rfl⟩ := HGrib1.openGrib_some ho
  rw [extractScan_chain ho hc hpos hstop hfuel]
  simp only [extractPositions, ho, ok_bind, if_neg (HGrib1.fileSize_reader hr)]
  rw [hlist, positionsLoop_message hpos hstop]
  intro q hq
  obtain ⟨hqs, hpass⟩ := List.mem_filter.mp hq
  have hlt : (q : ℤ) < 2 ^ 63 := hptr q (hlist ▸ List.mem_map_of_mem hq)
  exact ⟨hc.forall_mem q hqs, (of_decide_eq_true hpass).grid, by exact_mod_cast hlt⟩

/-! ## What the scan takes -/

/-- The times of the entries under a key. -/
def times (data : ExtractedData) (key : CommonDataProperties) : List ℤ :=
  (data.get key).map ExtractedValue.timeDate

@[simp] theorem times_empty (key : CommonDataProperties) : times ∅ key = [] := rfl

theorem times_foldlM_addEntry {qs : List ℕ} {r r' : ExtractedData}
    (h : qs.foldlM (addEntry lib pos f) r = .ok r') (key : CommonDataProperties) :
    times r' key = times r key ++ (qs.filter fun q => keyAt f q = key).map (refTime f) := by
  induction qs generalizing r with
  | nil =>
    cases h
    simp
  | cons q qs ih =>
    rw [List.foldlM_cons] at h
    obtain ⟨r1, h1, h⟩ := bind_eq_ok.mp h
    obtain ⟨value, -, h1⟩ := bind_eq_ok.mp h1
    cases h1
    rw [ih h, times, times, Dict.get_update]
    by_cases hk : keyAt f q = key
    · rw [if_pos hk.symm, List.filter_cons_of_pos (by simpa using hk), List.map_append, List.map_cons,
        List.append_assoc, hk]
      rfl
    · rw [if_neg (fun hk' => hk hk'.symm), List.filter_cons_of_neg (by simpa using hk)]

/-- The entries of all messages can be added when each has a value. -/
theorem foldlM_addEntry_defined (qs : List ℕ) (r : ExtractedData) :
    Defined (qs.foldlM (addEntry lib pos f) r) ↔ ∀ q ∈ qs, Defined (valueAt lib pos f q) := by
  induction qs generalizing r with
  | nil => simp [Defined]
  | cons q qs ih =>
    rw [List.foldlM_cons, List.forall_mem_cons, addEntry]
    cases valueAt lib pos f q with
    | error e => simp [Defined]
    | ok value =>
      simp only [ok_bind, pure_eq_ok, ih]
      exact (and_iff_right (Defined.ok value)).symm

/-- The scan adds, under each key, one entry for each matching message with that key, in file order and with the
reference time of the message, and nothing else. -/
def SelectsMatches (lib : OsterLib) (props : SearchProperties) (stop : ℕ → Bool) (pos : Coord) (f : File)
    (ps : List ℕ) (fuel : ℕ) (refData : ExtractedData) : Prop :=
  ∃ r, extractScan lib props stop fuel (some f) refData = some (.ok (.none, r)) ∧ ∀ key,
    times r key = times refData key ++
      (ps.filter fun p => Matches lib props pos f p ∧ keyAt f p = key).map (refTime f)

/-- A scan that takes a message which passes takes one that matches. -/
theorem unasked_of_selectsMatches (ho : HGrib1.openGrib (some f) = .ok (.noneErr, h))
    (hc : Chain (WellFormed f) f 0 ps) (hpos : props.position = some pos) (hstop : ∀ k, stop k = false) {fuel : ℕ}
    (hfuel : ps.length ≤ fuel) {refData : ExtractedData}
    (hsel : SelectsMatches lib props stop pos f ps fuel refData) {p : ℕ} (hp : p ∈ ps)
    (hpass : Passes lib props pos f p) : Unasked lib props pos f p ∧ Defined (valueAt lib pos f p) := by
  obtain ⟨r, hrun, htimes⟩ := hsel
  rw [extractScan_chain ho hc hpos hstop hfuel] at hrun
  have hfold : (ps.filter (Passes lib props pos f)).foldlM (addEntry lib pos f) refData = .ok r := by
    cases hr : (ps.filter (Passes lib props pos f)).foldlM (addEntry lib pos f) refData with
    | error e => rw [hr] at hrun; cases hrun
    | ok r' => rw [hr] at hrun; cases hrun; rfl
  refine ⟨?_, (foldlM_addEntry_defined _ _).mp ⟨r, hfold⟩ p (List.mem_filter.mpr ⟨hp, decide_eq_true hpass⟩)⟩
  -- both lists of times have one element for each message taken, and the messages that match are among these
  have hlen := congrArg List.length ((times_foldlM_addEntry hfold (keyAt f p)).symm.trans (htimes (keyAt f p)))
  rw [List.filter_filter, List.length_append, List.length_append, List.length_map, List.length_map,
    Nat.add_left_cancel_iff] at hlen
  have hsub := List.monotone_filter_right ps (p := fun q => decide (Matches lib props pos f q ∧ keyAt f q = keyAt f p))
    (q := fun q => decide (keyAt f q = keyAt f p) && decide (Passes lib props pos f q)) (fun q hq => by
      simp only [decide_eq_true_eq, Bool.and_eq_true] at hq ⊢
      exact ⟨hq.2, (matches_iff_passes.mp hq.1).1⟩)
  have heq := hsub.eq_of_length hlen.symm
  have hmem : p ∈ ps.filter fun q => decide (Matches lib props pos f q ∧ keyAt f q = keyAt f p) := by
    rw [heq]
    exact List.mem_filter.mpr ⟨hp, by simpa using hpass⟩
  exact (matches_iff_passes.mp (of_decide_eq_true (List.mem_filter.mp hmem).2).1).2

/-- **The scan takes exactly the messages that match**, each once and with its own reference time, exactly when
every message that passes its filters also has what they do not ask, and a value at the position. -/
theorem extractScan_selects_iff (ho : HGrib1.openGrib (some f) = .ok (.noneErr, h))
    (hc : Chain (WellFormed f) f 0 ps) (hpos : props.position = some pos) (hstop : ∀ k, stop k = false) {fuel : ℕ}
    (hfuel : ps.length ≤ fuel) (refData : ExtractedData) :
    SelectsMatches lib props stop pos f ps fuel refData ↔
      ∀ p ∈ ps, Passes lib props pos f p → Unasked lib props pos f p ∧ Defined (valueAt lib pos f p) := by
  refine ⟨fun hsel p hp hpass => unasked_of_selectsMatches ho hc hpos hstop hfuel hsel hp hpass, ?_⟩
  intro hall
  have hdef : ∀ q ∈ ps.filter (Passes lib props pos f), Defined (valueAt lib pos f q) := by
    intro q hq
    obtain ⟨hq, hpass⟩ := List.mem_filter.mp hq
    exact (hall q hq (of_decide_eq_true hpass)).2
  obtain ⟨r, hr⟩ := (foldlM_addEntry_defined _ refData).mpr hdef
  refine ⟨r, by rw [extractScan_chain ho hc hpos hstop hfuel, hr]; rfl, ?_⟩
  intro key
  rw [times_foldlM_addEntry hr, List.filter_filter]
  congr 2
  apply List.filter_congr
  intro p hp
  rw [← Bool.decide_and, decide_eq_decide, matches_iff_passes]
  exact ⟨fun ⟨hk, hpass⟩ => ⟨⟨hpass, (hall p hp hpass).1⟩, hk⟩, fun ⟨⟨hpass, _⟩, hk⟩ => ⟨hk, hpass⟩⟩

end File

/-! ## Searches in small files -/

/-- A search for the north-western corner of the grid of `latLonSection`, at any time. -/
def cornerSearch (level : Option Level) : SearchProperties where
  parameters := []
  fromDate := -2 ^ 63
  toDate := 2 ^ 63
  position := some { lat := 1, lon := 0 }
  gridType := some .latLonGridEquidistCylindr
  center := none
  fcstUnit := none
  level

/-- The message of four values twice. -/
def twoGrids : File := Message.gridValues ++ Message.gridValues

theorem chain_twoGrids : Chain (WellFormed twoGrids) twoGrids 0 [0, 87] := by
  set_option maxRecDepth 4000 in
  exact .cons (by decide) (.last (by decide) (by decide))

theorem openGrib_twoGrids : HGrib1.openGrib (some twoGrids) = .ok (.noneErr, HGrib1.reader twoGrids 0) := by
  set_option maxRecDepth 4000 in decide

/-- The jumps to both messages do what the scan does. -/
theorem extract_positions_eq_scan_twice :
    extractScan .reference (cornerSearch none) (fun _ => false) 2 (some twoGrids) ∅ =
      some (extractPositions .reference (cornerSearch none) (fun _ => false) (some twoGrids) ∅ [0, 87]) :=
  extract_positions_eq_scan openGrib_twoGrids chain_twoGrids rfl rfl rfl (fun _ => rfl) (by decide) (by decide)
    (fun z => by
      have h0 : Matches .reference (cornerSearch none) { lat := 1, lon := 0 } twoGrids 0 := by
        set_option maxRecDepth 4000 in with_unfolding_all decide
      have h1 : Matches .reference (cornerSearch none) { lat := 1, lon := 0 } twoGrids 87 := by
        set_option maxRecDepth 4000 in with_unfolding_all decide
      simp [h0, h1])
    le_rfl ∅

/-- The theorem at the two messages, for a search with a level. -/
theorem extractScan_selects_iff_twice :
    SelectsMatches .reference (cornerSearch (some { levelType := 0, octet11 := 0, octet12 := 0 })) (fun _ => false)
        { lat := 1, lon := 0 } twoGrids [0, 87] 2 ∅ ↔
      ∀ p ∈ [0, 87], Passes .reference (cornerSearch (some { levelType := 0, octet11 := 0, octet12 := 0 }))
          { lat := 1, lon := 0 } twoGrids p →
        Unasked .reference (cornerSearch (some { levelType := 0, octet11 := 0, octet12 := 0 }))
          { lat := 1, lon := 0 } twoGrids p ∧ Defined (valueAt .reference { lat := 1, lon := 0 } twoGrids p) :=
  extractScan_selects_iff openGrib_twoGrids chain_twoGrids rfl (fun _ => rfl) le_rfl ∅

/-- The corner has a value in the message of four values. -/
theorem valueAt_gridValues : Defined (valueAt .reference { lat := 1, lon := 0 } Message.gridValues 0) := by
  have hraw : valueByRaw .reference { lat := 1, lon := 0 } (gridAt .reference Message.gridValues 0) = .ok (1 : ℕ) := by
    with_unfolding_all decide
  rw [valueAt, hraw, ok_bind, Message.extractValue_message (by decide) (by decide),
    if_neg (by decide), if_neg (by decide), show (message Message.gridValues 0).rawValue
      Message.gridValues (bitsPerValue Message.gridValues 0) (1 : ℕ) = .ok 1 by decide]
  exact .ok _

/-- **The level is not asked for**: a message of level type 0 is taken by a search for level type 100. -/
theorem level_not_asked :
    (HGrib1.openGrib (some Message.gridValues) = .ok (.noneErr, HGrib1.reader Message.gridValues 0) ∧
        WellFormed Message.gridValues 0 ∧ (levelAt Message.gridValues 0).levelType = 0) ∧
      (∃ r, extractScan .reference (cornerSearch (some { levelType := 100, octet11 := 0, octet12 := 0 }))
          (fun _ => false) 1 (some Message.gridValues) ∅ = some (.ok (.none, r)) ∧
        times r (keyAt Message.gridValues 0) = [refTime Message.gridValues 0]) ∧
      ¬ SelectsMatches .reference (cornerSearch (some { levelType := 100, octet11 := 0, octet12 := 0 }))
        (fun _ => false) { lat := 1, lon := 0 } Message.gridValues [0] 1 ∅ := by
  have ho : HGrib1.openGrib (some Message.gridValues) = .ok (.noneErr, HGrib1.reader Message.gridValues 0) := by
    set_option maxRecDepth 4000 in decide
  have hw : WellFormed Message.gridValues 0 := by decide
  have hc : Chain (WellFormed Message.gridValues) Message.gridValues 0 [0] := .last hw (by decide)
  have hpass : Passes .reference (cornerSearch (some { levelType := 100, octet11 := 0, octet12 := 0 }))
      { lat := 1, lon := 0 } Message.gridValues 0 := by with_unfolding_all decide
  refine ⟨⟨ho, hw, by decide⟩, ?_, ?_⟩
  · obtain ⟨r, hr⟩ := (foldlM_addEntry_defined [0] ∅).mpr (by simpa using valueAt_gridValues)
    refine ⟨r, ?_, ?_⟩
    · refine (extractScan_chain ho hc rfl (fun _ => rfl) le_rfl ∅).trans ?_
      rw [List.filter_cons_of_pos (by simpa using hpass), List.filter_nil, hr]
      rfl
    · rw [times_foldlM_addEntry hr]
      simp
  · intro hsel
    have hlevel := (unasked_of_selectsMatches ho hc rfl (fun _ => rfl) le_rfl hsel (by simp) hpass).1.level
    exact absurd (hlevel _ rfl) (by decide)

end Mashroom
