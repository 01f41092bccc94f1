import Mashroom.Grib1.Throws
import Mashroom.Grib1.Walk
import Mashroom.Proc.Index

/-!
# Proc.Reads — what the two loops over a file read

Both loops read the same of each message.  They have a result exactly when there is a walk through the file on which
everything can be read (`FileReads`), and then fold what is read; they throw nothing.
-/

namespace Mashroom

open Layout DoWhile

variable (lib : OsterLib)

/-! ## What is read of a message -/

/-- What both loops read of the message at a position. -/
def readInfo (f : File) (p : ℕ) : Except Fault GribMsgDataInfo := do
  let grid ← (message f p).section2.defineGrid lib f
  GribMsgDataInfo.read (HGrib1.reader f p) (message f p) grid

/-- It is at that position. -/
theorem bufPos_readInfo {f : File} {p : ℕ} {info : GribMsgDataInfo} (h : readInfo lib f p = .ok info) :
    info.bufPos = p := by
  obtain ⟨grid, -, h⟩ := bind_eq_ok.mp h
  simp only [GribMsgDataInfo.read, bind_eq_ok] at h
  obtain ⟨date, -, len, -, msgSz, -, parameter, -, tUnit, -, center, -, tableVersion, -, level, -, h⟩ := h
  cases h
  rfl

theorem indexBody_reader_eq (f : File) (q : ℕ) (b : List GribMsgDataInfo) : indexBody lib (HGrib1.reader f q, b) =
    (fun info => .next (HGrib1.reader f q, b ++ [info])) <$> readInfo lib f q := by
  simp only [indexBody, HGrib1.reader_msg, HGrib1.reader_file, readInfo]
  cases (message f q).section2.defineGrid lib f with
  | error e => rfl
  | ok grid =>
    simp only [ok_bind]
    cases GribMsgDataInfo.read (HGrib1.reader f q) (message f q) grid <;> rfl

/-- What the integrity process makes of what it reads. -/
def coreUpd (props : SearchProperties) {δ : Type} (addInfo : δ → GribMsgDataInfo → δ) (data : δ)
    (read : GribMsgDataInfo) : δ :=
  let info := { read with err := some .noneErr }
  if coreSkips props info then data else addInfo data info

theorem coreBody_reader_eq (props : SearchProperties) {δ : Type} (addInfo : δ → GribMsgDataInfo → δ) (f : File) (q : ℕ)
    (b : δ) : coreBody lib props addInfo (HGrib1.reader f q, b) =
      (fun info => .next (HGrib1.reader f q, coreUpd props addInfo b info)) <$> readInfo lib f q := by
  simp only [coreBody, HGrib1.reader_msg, HGrib1.reader_file, readInfo]
  cases (message f q).section2.defineGrid lib f with
  | error e => rfl
  | ok grid =>
    simp only [ok_bind]
    cases GribMsgDataInfo.read (HGrib1.reader f q) (message f q) grid with
    | error e => rfl
    | ok info =>
      show (if _ then _ else _) = Except.ok (Pass.next (_, coreUpd props addInfo b info))
      unfold coreUpd
      split
      · rename_i h
        rw [if_pos h]
        rfl
      · rename_i h
        rw [if_neg h]
        rfl

/-! ## What is read of a file -/

/-- The messages on the way through a file, and what is read of them. -/
def FileReads (f : File) (reads : List GribMsgDataInfo) : Prop :=
  ∃ ps, Walk (Readable f) f 0 ps ∧ List.Forall₂ (fun p read => readInfo lib f p = .ok read) ps reads

/-- The file is refused when it is opened, or its messages can be read up to its end. -/
def FileEnds (octets : Option File) : Prop :=
  ∃ err h, HGrib1.openGrib octets = .ok (err, h) ∧ (err = .noneErr → ∃ f ps, octets = some f ∧
    Walk (fun p => Readable f p ∧ Defined (readInfo lib f p)) f 0 ps)

section FileReads

variable {lib} {f : File} {reads : List GribMsgDataInfo}

theorem exists_reads_iff : (∃ reads, FileReads lib f reads) ↔
    ∃ ps, Walk (fun p => Readable f p ∧ Defined (readInfo lib f p)) f 0 ps := by
  constructor
  · rintro ⟨reads, ps, hwalk, hreads⟩
    refine ⟨ps, hwalk.mono fun q hq => ⟨hwalk.forall_mem q hq, ?_⟩⟩
    exact mapM_ok_iff.mp ⟨reads, mapM_eq_ok.mpr hreads⟩ q hq
  · rintro ⟨ps, hwalk⟩
    obtain ⟨reads, hreads⟩ := mapM_ok_iff.mpr fun q hq => (hwalk.forall_mem q hq).2
    exact ⟨reads, ps, hwalk.mono fun q hq => (hwalk.forall_mem q hq).1, mapM_eq_ok.mp hreads⟩

/-- What is read of the messages that a scan reaches. -/
theorem FileReads.mem_iff (h : FileReads lib f reads) {read : GribMsgDataInfo} :
    read ∈ reads ↔ ∃ p, Visited f p ∧ readInfo lib f p = .ok read := by
  obtain ⟨ps, hwalk, hreads⟩ := h
  constructor
  · intro hmem
    obtain ⟨i, hi, rfl⟩ := List.getElem_of_mem hmem
    have hlen : i < ps.length := hreads.length_eq ▸ hi
    exact ⟨ps[i], hwalk.mem_iff_visited.mp (List.getElem_mem hlen), List.Forall₂.get hreads hlen hi⟩
  · rintro ⟨p, hp, hread⟩
    obtain ⟨i, hi, rfl⟩ := List.getElem_of_mem (hwalk.mem_iff_visited.mpr hp)
    have hlen : i < reads.length := hreads.length_eq ▸ hi
    have hget : readInfo lib f ps[i] = .ok reads[i] := List.Forall₂.get hreads hi hlen
    rw [hread] at hget
    rw [Except.ok.inj hget]
    exact List.getElem_mem hlen

/-- No two of them are at one position. -/
theorem FileReads.nodup_bufPos (h : FileReads lib f reads) : (reads.map GribMsgDataInfo.bufPos).Nodup := by
  obtain ⟨ps, hwalk, hreads⟩ := h
  have hpos : reads.map GribMsgDataInfo.bufPos = ps.map Nat.cast := by
    clear hwalk
    induction hreads with
    | nil => rfl
    | cons hq _ ih => rw [List.map_cons, List.map_cons, ih, bufPos_readInfo lib hq]
  rw [hpos]
  exact hwalk.nodup.map Nat.cast_injective

end FileReads

/-! ## The two loops -/

theorem foldl_append_singleton {ι : Type} (l : List ι) (b : List ι) : l.foldl (fun b i => b ++ [i]) b = b ++ l := by
  induction l generalizing b with
  | nil => simp
  | cons a l ih => simp [ih]

section Loops

variable {lib} {f : File} {h : HGrib1} (ho : HGrib1.openGrib (some f) = .ok (.noneErr, h))

include ho

/-- What `process_file` returns. -/
theorem reads_of_processFile {fuel : ℕ} {r : HGrib1 × List GribMsgDataInfo}
    (hr : fueled (processFile lib fuel h) = .ok r) : FileReads lib f r.2 := by
  obtain ⟨hreadable, rfl⟩ := HGrib1.openGrib_some ho
  obtain ⟨ps, reads, q, hwalk, hreads, heq⟩ := walk_of_doWhile
    (fun q b _ => indexBody_reader_eq lib f q b) hreadable (fueled_eq_ok.mp hr)
  cases heq
  refine ⟨ps, hwalk, ?_⟩
  rwa [foldl_append_singleton, List.nil_append]

theorem processFile_of_reads {reads : List GribMsgDataInfo} (hr : FileReads lib f reads) :
    ∃ n, ∀ fuel, n ≤ fuel → ∃ h', fueled (processFile lib fuel h) = .ok (h', reads) := by
  obtain ⟨-, rfl⟩ := HGrib1.openGrib_some ho
  obtain ⟨ps, hwalk, hreads⟩ := hr
  refine ⟨ps.length, fun fuel hfuel => ?_⟩
  obtain ⟨q, hq⟩ := doWhile_of_walk (fun q b _ => indexBody_reader_eq lib f q b) hwalk hreads (b := []) hfuel
  rw [foldl_append_singleton, List.nil_append] at hq
  exact ⟨_, fueled_eq_ok.mpr hq⟩

/-- What the loop of the integrity process adds. -/
theorem reads_of_coreLoop {props : SearchProperties} {δ : Type} {addInfo : δ → GribMsgDataInfo → δ} {fuel : ℕ}
    {data : δ}
    {r : HGrib1 × δ} (hr : fueled (coreLoop lib props addInfo fuel h data) = .ok r) :
    ∃ reads, FileReads lib f reads ∧ r.2 = reads.foldl (coreUpd props addInfo) data := by
  obtain ⟨hreadable, rfl⟩ := HGrib1.openGrib_some ho
  obtain ⟨ps, reads, q, hwalk, hreads, heq⟩ := walk_of_doWhile
    (fun q b _ => coreBody_reader_eq lib props addInfo f q b) hreadable (fueled_eq_ok.mp hr)
  cases heq
  exact ⟨reads, ⟨ps, hwalk, hreads⟩, rfl⟩

theorem coreLoop_of_reads {reads : List GribMsgDataInfo} (hr : FileReads lib f reads) (props : SearchProperties)
    {δ : Type}
    (addInfo : δ → GribMsgDataInfo → δ) :
    ∃ n, ∀ fuel, n ≤ fuel → ∀ data, ∃ r, fueled (coreLoop lib props addInfo fuel h data) = .ok r := by
  obtain ⟨-, rfl⟩ := HGrib1.openGrib_some ho
  obtain ⟨ps, hwalk, hreads⟩ := hr
  refine ⟨ps.length, fun fuel hfuel data => ?_⟩
  obtain ⟨q, hq⟩ := doWhile_of_walk (fun q b _ => coreBody_reader_eq lib props addInfo f q b) hwalk hreads (b := data)
    hfuel
  exact ⟨_, fueled_eq_ok.mpr hq⟩

end Loops

/-- `process_file` throws nothing. -/
theorem processFile_quiet {fuel : ℕ} {h : HGrib1} :
    fueled (processFile lib fuel h) ≠ .error (some .exception) := by
  have hloop : ∀ fuel (s : HGrib1 × List GribMsgDataInfo),
      doWhile (indexBody lib) advance fuel s ≠ some (.error .exception) := by
    intro fuel
    refine doWhile_error_ne (fun s => ?_) (fun s => ?_) fuel
    · unfold indexBody
      split
      · exact nofun
      · rename_i msg hm
        exact Quiet.bind defineGrid_quiet fun _ => Quiet.bind (GribMsgDataInfo.read_quiet hm) fun _ => .ok _
    · exact Quiet.map HGrib1.nextMessage_quiet
  intro hf
  have hfuel := hloop fuel (h, [])
  unfold processFile fueled at hf
  split at hf <;> simp_all

end Mashroom
