import Mashroom.Lib.Words
import Mashroom.Network.Parts
import Mashroom.Network.Reference
import Mashroom.Proc.Restored
import Mashroom.Proc.Windows

/-!
# Proc.Binary — the binary files of extracted data, and how they are read

A file is the type and the format of the data, the grid, the position, and the series.  The grid and the position are
written as they are searched for, with a flag before each that says whether there is one; they are read without.  So the
number of series is read two octets early, and of a file no more series are read than there are multiples of 2^16 in
their number (`count_of_readBin`).
-/

namespace Mashroom

namespace Network.OsterFormats

open Format

variable {τ π : Type}

/-! ## The formats -/

section Formats

variable (o : OsterFormats τ π)

def additionalProperties : Format AdditionalExtractDataProperties where
  serialize order a := serializeAll order [⟨o.timeForecast, a.fcst⟩, ⟨o.level, a.level⟩]
  deserialize order := front do
    return { fcst := ← o.timeForecast.read order, level := ← o.level.read order }
  serialSize a := serialSizeAll [⟨o.timeForecast, a.fcst⟩, ⟨o.level, a.level⟩]

def extractDataProperties : Format ExtractDataProperties where
  serialize order k := serializeAll order [⟨o.commonDataProperties, k.cmn⟩, ⟨o.additionalProperties, k.add⟩]
  deserialize order := front do
    return { cmn := ← o.commonDataProperties.read order, add := ← o.additionalProperties.read order }
  serialSize k := serialSizeAll [⟨o.commonDataProperties, k.cmn⟩, ⟨o.additionalProperties, k.add⟩]

def extractedValue : Format ExtractedValue where
  serialize order v := serializeAll order [⟨o.time, v.timeDate⟩, ⟨o.float, v.value⟩]
  deserialize order := front do
    return { timeDate := ← o.time.read order, value := ← o.float.read order }
  serialSize v := serialSizeAll [⟨o.time, v.timeDate⟩, ⟨o.float, v.value⟩]

/-- A series: its properties and its values. -/
def series : Format (ExtractDataProperties × List ExtractedValue) :=
  pair o.extractDataProperties (o.vector o.extractedValue)

/-- A vector of series, and a map of them. -/
def windowFile : Format WindowFile := o.vector o.series

end Formats

/-- How OsterLib writes: numbers by their octets, an optional value as a flag and the value, a container as the number
of its elements and the elements. -/
structure Layout (o : OsterFormats τ π) : Prop where
  u8 : o.u8.Fixed 1
  u16 : o.u16.Fixed 2
  u32 : o.u32.Fixed 4
  u64 : o.u64 = (word 8).map .ofNat UInt64.toNat
  int : o.int.Fixed 4
  float : o.float.Fixed 4
  flag : o.flag.Fixed 1
  representationType : o.representationType.Fixed 1
  time : o.time.Fixed 8
  coord : ∃ n, 2 ≤ n ∧ o.coord.Fixed n
  optional : ∀ {α : Type} (f : Format α), o.optional f = flagged o.flag f
  vector : ∀ {α : Type} (f : Format α), o.vector f = counted o.nat64 f

end Network.OsterFormats

open Network Format

section Code

variable {τ π : Type} (o : OsterFormats τ π) (order : Bool)

/-! ## The code -/

/-- What `write_bin_file` writes to a file.  `TIME_SERIES` and `GRIB_v1` are 0. -/
def binOctets (props : SearchProperties) (content : WindowFile) : List UInt8 :=
  serializeAll order [⟨o.nat8, 0⟩, ⟨o.int, 0⟩, ⟨o.optional o.representationType, props.gridType⟩,
    ⟨o.optional o.coord, props.position⟩, ⟨o.windowFile, content⟩]

/-- The fields of a file, as they are read. -/
def binReader : Reader WindowFile := do
  let type ← o.nat8.read order
  let fmt ← o.int.read order
  if fmt = 0 ∧ type = 0 then
    let _ ← o.representationType.read order
    let _ ← o.coord.read order
    o.windowFile.read order
  else failure

/-- A map of the series. -/
def WindowFile.toMap (content : WindowFile) : ExtractedValues :=
  (content.map fun e => (⟨e.1, e.2⟩ : Sigma fun _ : ExtractDataProperties => List ExtractedValue)).toAList

/-- `read_bin_file`.  All of its exceptions are one. -/
def readBinFile (buf : List UInt8) : Except Fault ExtractedValues :=
  match front (binReader o order) buf with
  | some values => .ok (WindowFile.toMap values)
  | none => .error .exception

/-- `read_bin_file` on every file of `write_bin_file`. -/
def readBinFiles (props : SearchProperties) (files : Files WindowFile) : Except Fault (List ExtractedValues) :=
  files.entries.mapM fun f => readBinFile o order (binOctets o order props f.2)

/-- The files are written, every one of them can be read, and what is read is the data. -/
def BinRestored (sort : SortByTime) (props : SearchProperties) (p : TimePeriod) (outPath : Path)
    (data : ExtractedValues) : Prop :=
  ∃ files reads, writeBinFile sort props p outPath data = .ok files ∧ readBinFiles o order props files = .ok reads ∧
    Restores data reads

end Code

/-! ## The sizes of the parts -/

namespace Network.OsterFormats.Layout

variable {τ π : Type} {o : OsterFormats τ π} (ho : o.Layout)

include ho

theorem nat8 : o.nat8.Fixed 1 := map_fixed ho.u8

theorem nat16 : o.nat16.Fixed 2 := map_fixed ho.u16

theorem nat32 : o.nat32.Fixed 4 := map_fixed ho.u32

theorem nat64 : o.nat64.Fixed 8 := map_fixed (ho.u64 ▸ map_fixed (word_fixed 8))

theorem timeForecast : o.timeForecast.Fixed 10 := by
  have h8 : ∀ order, Takes 1 (o.nat8.read order) := fun _ => ho.nat8.atLeast.takes
  refine .of_fields (fun _ => rfl) (fun order t => ?_) (fun t => ?_) fun order =>
    .bind ho.nat16.atLeast.takes fun _ => .bind (h8 order) fun _ => .bind (h8 order) fun _ => .bind (h8 order) fun _ =>
      .bind (h8 order) fun _ => .bind ho.nat32.atLeast.takes fun _ => .pure
  · simp only [OsterFormats.timeForecast, serializeAll, List.length_append, ho.nat8.length, ho.nat16.length,
      ho.nat32.length, List.length_nil]
  · simp only [OsterFormats.timeForecast, serialSizeAll, ho.nat8.size, ho.nat16.size, ho.nat32.size]

theorem level : o.level.Fixed 3 := by
  have h8 : ∀ order, Takes 1 (o.nat8.read order) := fun _ => ho.nat8.atLeast.takes
  refine .of_fields (fun _ => rfl) (fun order l => ?_) (fun l => ?_) fun order =>
    .bind (h8 order) fun _ => .bind (h8 order) fun _ => .bind (h8 order) fun _ => .pure
  · simp only [OsterFormats.level, serializeAll, List.length_append, ho.nat8.length, List.length_nil]
  · simp only [OsterFormats.level, serialSizeAll, ho.nat8.size]

theorem additionalProperties : o.additionalProperties.Fixed 13 := by
  refine .of_fields (fun _ => rfl) (fun order a => ?_) (fun a => ?_) fun order =>
    .bind ho.timeForecast.atLeast.takes fun _ => .bind ho.level.atLeast.takes fun _ => .pure
  · simp only [OsterFormats.additionalProperties, serializeAll, List.length_append, ho.timeForecast.length,
      ho.level.length, List.length_nil]
  · simp only [OsterFormats.additionalProperties, serialSizeAll, ho.timeForecast.size, ho.level.size]

theorem extractedValue : o.extractedValue.Fixed 12 := by
  refine .of_fields (fun _ => rfl) (fun order v => ?_) (fun v => ?_) fun order =>
    .bind ho.time.atLeast.takes fun _ => .bind ho.float.atLeast.takes fun _ => .pure
  · simp only [OsterFormats.extractedValue, serializeAll, List.length_append, ho.time.length, ho.float.length,
      List.length_nil]
  · simp only [OsterFormats.extractedValue, serialSizeAll, ho.time.size, ho.float.size]

theorem optional_atLeast {α : Type} (f : Format α) : (o.optional f).AtLeast 1 := by
  rw [ho.optional]
  exact flagged_atLeast ho.flag.atLeast

theorem length_optional_le {order : Bool} (v : Option ℕ) : ((o.optional o.nat8).serialize order v).length ≤ 2 := by
  rw [ho.optional]
  exact length_flagged_le ho.flag ho.nat8

theorem commonDataProperties : o.commonDataProperties.AtLeast 3 := by
  refine .of_fields (fun _ => rfl) (fun c => ?_) fun order =>
    .bind (ho.optional_atLeast _).takes fun _ => .bind (ho.optional_atLeast _).takes fun _ =>
      .bind (ho.optional_atLeast _).takes fun _ => .pure
  have hsize := (ho.optional_atLeast o.nat8).size
  have hcenter := hsize c.center
  have hversion := hsize c.tableVersion
  have hparameter := hsize c.parameter
  simp only [OsterFormats.commonDataProperties, serialSizeAll]
  omega

theorem extractDataProperties : o.extractDataProperties.AtLeast 16 := by
  refine .of_fields (fun _ => rfl) (fun k => ?_) fun order =>
    .bind ho.commonDataProperties.takes fun _ => .bind ho.additionalProperties.atLeast.takes fun _ => .pure
  have hcommon := ho.commonDataProperties.size k.cmn
  simp only [OsterFormats.extractDataProperties, serialSizeAll, ho.additionalProperties.size]
  omega

theorem series : o.series.AtLeast 24 := by
  have hvector : (o.vector o.extractedValue).AtLeast 8 := by
    rw [ho.vector]
    exact counted_atLeast ho.nat64.atLeast
  exact pair_atLeast ho.extractDataProperties hvector

/-- The properties have 19 octets at most, the number of values 8, and a value 12. -/
theorem length_series_le {order : Bool} (e : ExtractDataProperties × List ExtractedValue) :
    (o.series.serialize order e).length ≤ 27 + e.2.length * 12 := by
  obtain ⟨⟨add, cmn⟩, values⟩ := e
  have hcenter := @length_optional_le _ _ _ ho order cmn.center
  have hversion := @length_optional_le _ _ _ ho order cmn.tableVersion
  have hparameter := @length_optional_le _ _ _ ho order cmn.parameter
  have hvalues : (values.flatMap (o.extractedValue.serialize order)).length = values.length * 12 := by
    rw [List.length_flatMap, List.map_congr_left fun v _ => ho.extractedValue.length order v, List.map_const',
      List.sum_replicate_nat]
  simp only [OsterFormats.series, pair, OsterFormats.extractDataProperties, OsterFormats.commonDataProperties,
    ho.vector, counted, serializeAll, List.length_append, List.length_nil, ho.additionalProperties.length,
    ho.nat64.length, hvalues]
  omega

theorem length_windowFile_le {order : Bool} {content : WindowFile} (h : ∀ e ∈ content, e.2.length < 2 ^ 16) :
    (content.flatMap (o.series.serialize order)).length ≤ content.length * (27 + 65535 * 12) := by
  induction content with
  | nil => exact Nat.zero_le _
  | cons e content ih =>
    obtain ⟨he, hrest⟩ := List.forall_mem_cons.mp h
    have ih := ih hrest
    have hseries := @length_series_le _ _ _ ho order e
    rw [List.flatMap_cons, List.length_append, List.length_cons]
    omega

end Network.OsterFormats.Layout

/-! ## What is read of a file -/

section Read

variable {τ π : Type} {o : OsterFormats τ π} {order : Bool} {props : SearchProperties} {content values : WindowFile}
  {r : ExtractedValues}

/-- The series are read where the octets of four plain fields end. -/
theorem of_binReader (ho : o.Layout) {n : ℕ} (hcoord : o.coord.Fixed n) {buf rest : List UInt8}
    (h : binReader o order buf = some (values, rest)) :
    o.windowFile.deserialize order (buf.drop (6 + n)) = some values := by
  obtain ⟨⟨type, buf₁⟩, htype, h⟩ := Option.bind_eq_some_iff.mp h
  obtain ⟨⟨fmt, buf₂⟩, hfmt, h⟩ := Option.bind_eq_some_iff.mp h
  obtain ⟨-, rfl⟩ := read_eq_some.mp htype
  obtain ⟨-, rfl⟩ := read_eq_some.mp hfmt
  by_cases hcase : fmt = 0 ∧ type = 0
  · simp only [if_pos hcase] at h
    obtain ⟨⟨grid, buf₃⟩, hgrid, h⟩ := Option.bind_eq_some_iff.mp h
    obtain ⟨⟨pos, buf₄⟩, hpos, h⟩ := Option.bind_eq_some_iff.mp h
    obtain ⟨-, rfl⟩ := read_eq_some.mp hgrid
    obtain ⟨-, rfl⟩ := read_eq_some.mp hpos
    obtain ⟨hvalues, -⟩ := read_eq_some.mp h
    simp only [ho.nat8.size, ho.int.size, ho.representationType.size, hcoord.size, List.drop_drop] at hvalues
    exact hvalues
  · simp only [if_neg hcase] at h
    cases h

/-- There the last two octets of the position are left. -/
theorem drop_binOctets (ho : o.Layout) {n : ℕ} (hn : 2 ≤ n) (hcoord : o.coord.Fixed n) (hprops : props.Names) :
    ∃ xs, xs.length = 2 ∧
      (binOctets o order props content).drop (6 + n) = xs ++ o.windowFile.serialize order content := by
  obtain ⟨-, hgrid, hpos⟩ := hprops
  obtain ⟨grid, hgrid⟩ := Option.isSome_iff_exists.mp hgrid
  obtain ⟨pos, hpos⟩ := Option.isSome_iff_exists.mp hpos
  have hlength := hcoord.length order pos
  have hbefore : (o.nat8.serialize order 0 ++ (o.int.serialize order 0 ++ (o.flag.serialize order true ++
      (o.representationType.serialize order grid ++ o.flag.serialize order true)))).length = 8 := by
    simp only [List.length_append, ho.nat8.length, ho.int.length, ho.flag.length, ho.representationType.length]
  have hoctets : binOctets o order props content = (o.nat8.serialize order 0 ++ (o.int.serialize order 0 ++
      (o.flag.serialize order true ++ (o.representationType.serialize order grid ++ o.flag.serialize order true)))) ++
        (o.coord.serialize order pos ++ o.windowFile.serialize order content) := by
    simp only [binOctets, serializeAll, ho.optional, flagged, hgrid, hpos, Option.isSome_some, Option.elim_some,
      List.append_assoc, List.append_nil]
  refine ⟨(o.coord.serialize order pos).drop (n - 2), by rw [List.length_drop, hlength]; omega, ?_⟩
  rw [hoctets, List.drop_append, hbefore, List.drop_eq_nil_of_le (by rw [hbefore]; omega), List.nil_append,
    List.drop_append, hlength, show 6 + n - 8 = n - 2 by omega, show n - 2 - n = 0 by omega, List.drop_zero]

/-- The number of series is read two octets early. -/
theorem of_readBinFile (ho : o.Layout) (hprops : props.Names)
    (h : readBinFile o order (binOctets o order props content) = .ok r) :
    ∃ xs values, xs.length = 2 ∧ r = WindowFile.toMap values ∧
      o.windowFile.deserialize order (xs ++ o.windowFile.serialize order content) = some values := by
  unfold readBinFile at h
  split at h
  · rename_i values hfront
    obtain rfl := Except.ok.inj h
    obtain ⟨⟨values', rest⟩, hread, rfl⟩ := Option.map_eq_some_iff.mp hfront
    obtain ⟨n, hn, hcoord⟩ := ho.coord
    obtain ⟨xs, hxs, hdrop⟩ := @drop_binOctets _ _ o order props content ho n hn hcoord hprops
    have hvalues := of_binReader ho hcoord hread
    rw [hdrop] at hvalues
    exact ⟨xs, values', hxs, rfl, hvalues⟩
  · cases h

/-- No number of series that is read early fits what was written, unless it is the number of multiples of 2^16. -/
theorem count_of_early {n c : ℕ} {xs : List UInt8} (hc : c < 2 ^ 32)
    (hn : n = if order then Codec.number xs * 256 ^ 6 + c / 256 ^ 2
      else c % 256 ^ 6 * 256 ^ 2 + Codec.number xs.reverse)
    (hfits : n * 24 ≤ 2 + c * (27 + 65535 * 12)) : n = c / 2 ^ 16 := by
  cases order with
  | false =>
    rw [if_neg Bool.false_ne_true, Nat.mod_eq_of_lt (by omega)] at hn
    omega
  | true =>
    rw [if_pos rfl] at hn
    omega

/-- What is read of a count, wherever it is read. -/
theorem nat64_deserialize (ho : o.Layout) {buf : List UInt8} {n : ℕ} :
    o.nat64.deserialize order buf = some n ↔ (word 8).deserialize order buf = some n := by
  have hdes : o.nat64.deserialize order buf =
      ((word 8).deserialize order buf).map fun n => (UInt64.ofNat n).toNat := by
    rw [OsterFormats.nat64, ho.u64]
    cases hword : (word 8).deserialize order buf with
    | none => simp only [Format.map, hword]; rfl
    | some n => simp only [Format.map, hword]; rfl
  rw [hdes, word_deserialize]
  split
  · rename_i hlen
    have hlt : ∀ bs : List UInt8, bs.length = 8 → (UInt64.ofNat (Codec.number bs)).toNat = Codec.number bs := by
      intro bs hbs
      have hnumber := Codec.number_lt bs
      rw [hbs] at hnumber
      exact UInt64.toNat_ofNat_of_lt hnumber
    rw [Option.map_some, hlt]
    cases order <;> simp [hlen]
  · rfl

/-- Of a file no more series are read than there are multiples of 2^16 in their number. -/
theorem count_of_readBin (ho : o.Layout) (hprops : props.Names) (hcount : content.length < 2 ^ 32)
    (hvalues : ∀ e ∈ content, e.2.length < 2 ^ 16) (h : readBinFile o order (binOctets o order props content) = .ok r) :
    r.entries.length ≤ content.length / 2 ^ 16 := by
  obtain ⟨xs, values, hxs, rfl, hread⟩ := of_readBinFile ho hprops h
  rw [OsterFormats.windowFile, ho.vector] at hread
  obtain ⟨⟨values', rest⟩, hcounted, rfl⟩ := Option.map_eq_some_iff.mp hread
  obtain ⟨⟨n, mid⟩, hfirst, hmany⟩ := Option.bind_eq_some_iff.mp hcounted
  obtain ⟨hn, rfl⟩ := read_eq_some.mp hfirst
  obtain ⟨hlength, hfits⟩ := length_of_readMany ho.series hmany
  -- what the number of series is read from, and what is left after it
  have hwritten : (counted o.nat64 o.series).serialize order content =
      (word 8).serialize order content.length ++ content.flatMap (o.series.serialize order) := by
    have hc : (UInt64.ofNat content.length).toNat = content.length :=
      UInt64.toNat_ofNat_of_lt (lt_trans hcount (by decide))
    show o.nat64.serialize order content.length ++ _ = _
    rw [OsterFormats.nat64, ho.u64]
    show (word 8).serialize order (UInt64.ofNat content.length).toNat ++ _ = _
    rw [hc]
  have hbody := @OsterFormats.Layout.length_windowFile_le _ _ _ ho order content hvalues
  rw [nat64_deserialize ho, hwritten, word_deserialize_early (k := 6) hxs (by omega), Option.some_inj] at hn
  rw [hwritten, List.length_drop, ho.nat64.size, List.length_append, List.length_append, hxs,
    (word_fixed 8).length] at hfits
  have hn' := count_of_early hcount hn.symm (by omega)
  refine (Codec.length_toAList_le _).trans ?_
  rw [List.length_map, hlength, hn']

end Read

/-! ## What is read back -/

/-- Data of fewer than 2^32 series, with fewer than 2^16 values of a series in a period; and of the series or of the
periods there are fewer than 2^16. -/
structure ExtractedValues.Moderate (p : TimePeriod) (data : ExtractedValues) : Prop where
  series : data.entries.length < 2 ^ 32
  values : ∀ e ∈ data.entries, ∀ t,
    (e.2.filter fun v => t ≤ v.timeDate ∧ v.timeDate ≤ p.getNextTp t).length < 2 ^ 16
  few : data.entries.length < 2 ^ 16 ∨ ∀ minTime ∈ (firstTimes data).min?, ∀ maxTime ∈ (firstTimes data).max?,
    (windowStarts p maxTime minTime).length < 2 ^ 16

section Restored

variable {τ π : Type} {o : OsterFormats τ π} {order : Bool} {sort : SortByTime} {props : SearchProperties}
  {p : TimePeriod} {outPath : Path} {data : ExtractedValues} {reads : List ExtractedValues}

/-- Where so few series are read of each file, some series is not read. -/
theorem not_restores_of_few (hentries : data.entries ≠ [])
    (hreads : ∀ r ∈ reads, r.entries.length ≤ data.entries.length / 2 ^ 16)
    (hfew : data.entries.length < 2 ^ 16 ∨ reads.length < 2 ^ 16) : ¬ Restores data reads := by
  intro h
  have hsubset : data.keys ⊆ reads.flatMap AList.keys := by
    intro k hk
    obtain ⟨r, hr, hkr⟩ := (h.series k).mp (AList.mem_keys.mpr hk)
    exact List.mem_flatMap.mpr ⟨r, hr, AList.mem_keys.mp hkr⟩
  have hkeys := (data.nodupKeys.subperm hsubset).length_le
  have hsum : ∀ l : List ExtractedValues, (∀ r ∈ l, r.entries.length ≤ data.entries.length / 2 ^ 16) →
      (l.flatMap AList.keys).length ≤ l.length * (data.entries.length / 2 ^ 16) := by
    intro l hl
    induction l with
    | nil => exact Nat.zero_le _
    | cons r l ih =>
      obtain ⟨hr, hl⟩ := List.forall_mem_cons.mp hl
      have hr' : r.keys.length = r.entries.length := List.length_map _
      rw [List.flatMap_cons, List.length_append, List.length_cons, Nat.add_mul, hr']
      have := ih hl
      omega
  have hlength : data.keys.length = data.entries.length := List.length_map _
  have hle := hlength ▸ hkeys.trans (hsum reads hreads)
  have hpos := List.length_pos_iff.mpr hentries
  rcases hfew with hseries | hfiles
  · rw [Nat.div_eq_of_lt hseries] at hle
    omega
  · have hmul : reads.length * (data.entries.length / 2 ^ 16) ≤ 65535 * (data.entries.length / 2 ^ 16) :=
      Nat.mul_le_mul_right _ (by omega)
    omega

/-- A file has no more series than the data, and no more values of a series than its period. -/
theorem of_binContent (hmod : data.Moderate p) {t : ℤ} :
    (binContent (data.mapValues sort.sort) t (p.getNextTp t)).length ≤ data.entries.length ∧
      ∀ e ∈ binContent (data.mapValues sort.sort) t (p.getNextTp t), e.2.length < 2 ^ 16 := by
  constructor
  · refine (List.length_filter_le _ _).trans ?_
    rw [jsonContent, List.length_map, Dict.mapValues, List.length_map]
  · intro e he
    obtain ⟨e', he', rfl⟩ := List.mem_map.mp (List.mem_filter.mp he).1
    obtain ⟨e'', he'', rfl⟩ := List.mem_map.mp he'
    show (window t (p.getNextTp t) (sort.sort e''.2)).length < 2 ^ 16
    rw [window_eq_filter (sort.sorted _), ((sort.perm e''.2).filter _).length_eq]
    exact hmod.values e'' he'' t

theorem not_binRestored (ho : o.Layout) (hmod : data.Moderate p) (hentries : data.entries ≠ []) :
    ¬ BinRestored o order sort props p outPath data := by
  rintro ⟨files, reads, hok, hread, hrest⟩
  rw [writeBinFile_eq] at hok
  have hlength := (mapM_eq_ok.mp hread).length_eq
  rcases writeWindows_eq_ok hok with rfl | ⟨minTime, maxTime, f, hmin, hmax, hprops, rfl⟩
  · obtain rfl := List.length_eq_zero_iff.mp hlength.symm
    exact hentries (entries_eq_nil_of_restores hrest)
  · rw [fronts_sort] at hmin hmax
    refine not_restores_of_few hentries (fun r hr => ?_) (hmod.few.imp_right fun hfew => ?_) hrest
    · obtain ⟨e, he, hr⟩ := exists_of_mapM hread r hr
      obtain ⟨t, -, ht⟩ := of_windowFiles.2 e he
      obtain ⟨hcount, hvalues⟩ := @of_binContent sort p data hmod t
      rw [← ht] at hcount hvalues
      exact (count_of_readBin ho hprops (lt_of_le_of_lt hcount hmod.series) hvalues hr).trans
        (Nat.div_le_div_right hcount)
    · rw [← hlength]
      exact lt_of_le_of_lt of_windowFiles.1 (hfew minTime hmin maxTime hmax)

end Restored

/-! ## Formats with this layout -/

/-- The exponent of the highest binary place of a positive number. -/
def binaryExponent (q : ℚ) : ℤ :=
  let e : ℤ := q.num.natAbs.log2 - q.den.log2
  if (2 : ℚ) ^ e ≤ q then e else e - 1

/-- The bits of a floating point number: its sign, its exponent in excess, and the places after the highest. -/
def floatBits (expBits fracBits : ℕ) (q : ℚ) : ℕ :=
  if q = 0 then 0
  else
    let e := binaryExponent |q|
    (if q < 0 then 2 ^ (expBits + fracBits) else 0) + (e + (2 ^ (expBits - 1) - 1)).toNat * 2 ^ fracBits +
      ⌊(|q| / 2 ^ e - 1) * 2 ^ fracBits⌋.toNat

/-- The number of such bits.  No bits are a special value. -/
def floatOfBits (expBits fracBits n : ℕ) : ℚ :=
  let exponent := n / 2 ^ fracBits % 2 ^ expBits
  let e : ℤ := exponent - (2 ^ (expBits - 1) - 1 : ℕ)
  let m : ℚ := (n % 2 ^ fracBits : ℕ) / 2 ^ fracBits
  (if n < 2 ^ (expBits + fracBits) then 1 else -1) * if exponent = 0 then m * 2 ^ (e + 1) else (1 + m) * 2 ^ e

example : floatBits 8 23 1 = 0x3F800000 ∧ floatBits 11 52 45 = 0x4046800000000000 ∧
    floatOfBits 8 23 0x3F800000 = 1 ∧ floatOfBits 11 52 0x4046800000000000 = 45 := by with_unfolding_all decide

/-- `float` and `double` by their bits, a position by its two coordinates, containers counted in 8 octets. -/
def fileFormats : OsterFormats UInt64 UInt64 :=
  let double := (word 8).map (floatOfBits 11 52) (floatBits 11 52)
  { reference with
    float := (word 4).map (floatOfBits 8 23) (floatBits 8 23)
    double
    coord := (pair double double).map (fun p => ⟨p.1, p.2⟩) fun c => (c.lat, c.lon)
    vector := counted (((word 8).map .ofNat UInt64.toNat).map UInt64.toNat .ofNat) }

theorem fileFormats_layout : fileFormats.Layout where
  u8 := map_fixed (word_fixed 1)
  u16 := map_fixed (word_fixed 2)
  u32 := map_fixed (word_fixed 4)
  u64 := rfl
  int := map_fixed (word_fixed 4)
  float := map_fixed (word_fixed 4)
  flag := enumeration_fixed 1 _
  representationType := enumeration_fixed 1 _
  time := map_fixed (word_fixed 8)
  coord := ⟨16, by decide, map_fixed (pair_fixed (map_fixed (word_fixed 8)) (map_fixed (word_fixed 8)))⟩
  optional _ := rfl
  vector _ := rfl

theorem moderate_steadyValues : steadyValues.Moderate .day where
  series := by decide
  values e he t := by
    have hlength : ∀ e ∈ steadyValues.entries, e.2.length ≤ 2 := by decide
    exact lt_of_le_of_lt ((List.length_filter_le _ _).trans (hlength e he)) (by decide)
  few := .inl (by decide)

/-- Two series of one day are not read back. -/
theorem steadyValues_lost : ¬ BinRestored fileFormats true .insertion searchedProps .day ⟨true, []⟩ steadyValues :=
  not_binRestored fileFormats_layout moderate_steadyValues (List.cons_ne_nil _ _)

/-- **The binary files are read back as the data where there is no series**; of moderate data, only there. -/
theorem binRestored_iff {τ π : Type} (o : OsterFormats τ π) (order : Bool) (sort : SortByTime)
    (props : SearchProperties) (p : TimePeriod) (outPath : Path) (data : ExtractedValues) (ho : o.Layout) :
    (data.entries = [] → BinRestored o order sort props p outPath data) ∧
      (data.Moderate p → (BinRestored o order sort props p outPath data ↔ data.entries = [])) := by
  have hrestored : data.entries = [] → BinRestored o order sort props p outPath data := fun hentries =>
    ⟨∅, [], if_pos hentries, rfl, restores_nil hentries⟩
  refine ⟨hrestored, fun hmod => ⟨fun h => ?_, hrestored⟩⟩
  by_contra hentries
  exact not_binRestored ho hmod hentries h

/-- Of no series nothing is lost; two series are lost in either byte order. -/
theorem binRestored_iff_fileFormats :
    BinRestored fileFormats true .insertion searchedProps .day ⟨true, []⟩ ∅ ∧
      ¬ BinRestored fileFormats false .insertion searchedProps .day ⟨true, []⟩ steadyValues := by
  refine ⟨(binRestored_iff fileFormats true .insertion searchedProps .day ⟨true, []⟩ ∅ fileFormats_layout).1 rfl,
    fun h => ?_⟩
  have hnil := ((binRestored_iff fileFormats false .insertion searchedProps .day ⟨true, []⟩ steadyValues
    fileFormats_layout).2 moderate_steadyValues).mp h
  exact absurd hnil (List.cons_ne_nil _ _)

end Mashroom
