import Mashroom.Data.Properties
import Mashroom.Grib1.Scan

/-!
# Proc.Index — the loops that collect what the messages of a file are

`processFile` of the index process keeps every message of a file, `coreLoop` of the integrity process hands the
ones that pass its filters on.  Both read the grid of a message without asking whether it has section 2.
-/

namespace Mashroom

open DoWhile

variable (lib : OsterLib)

/-- The body of `process_file`. -/
def indexBody (s : HGrib1 × List GribMsgDataInfo) : Except Fault (Pass (HGrib1 × List GribMsgDataInfo) Empty) :=
  match s.1.msg with
  | none => .ok (.next s)
  | some msg => do
    let grid ← msg.section2.defineGrid lib s.1.file
    let info ← GribMsgDataInfo.read s.1 msg grid
    return .next (s.1, s.2 ++ [info])

/-- `process_file`, for at most `fuel` turns of its loop. -/
def processFile (fuel : ℕ) (h : HGrib1) : Option (Except Fault (Pass (HGrib1 × List GribMsgDataInfo) Empty)) :=
  doWhile (indexBody lib) advance fuel (h, [])

section Integrity

variable (props : SearchProperties) {δ : Type} (addInfo : δ → GribMsgDataInfo → δ)

/-- The filters of the integrity process, each a `continue` of the loop. -/
def coreSkips (info : GribMsgDataInfo) : Prop :=
  Differs props.center info.center ∨ props.skipsParameter info ∨ Differs props.fcstUnit info.tUnit ∨
    (∃ t ∈ props.gridType, info.gridData.hasGrid = false ∨ t ≠ info.gridData.type) ∨
    (∃ pos ∈ props.position, info.gridData.hasGrid = false ∨ posInGrid pos info.gridData = false) ∨
    (props.toDate < info.date ∨ info.date < props.fromDate)

instance (info : GribMsgDataInfo) : Decidable (coreSkips props info) := inferInstanceAs (Decidable (_ ∨ _))

/-- The body of the loop over a file in `Integrity::__process_core__`.  A `continue` goes to the condition. -/
def coreBody (s : HGrib1 × δ) : Except Fault (Pass (HGrib1 × δ) Empty) :=
  match s.1.msg with
  | none => .ok (.next s)
  | some msg => do
    let grid ← msg.section2.defineGrid lib s.1.file
    -- the error code is not passed on, and keeps its default
    let info := { ← GribMsgDataInfo.read s.1 msg grid with err := some .noneErr }
    if coreSkips props info then return .next s else return .next (s.1, addInfo s.2 info)

/-- The loop over a file in `Integrity::__process_core__`, for at most `fuel` turns. -/
def coreLoop (fuel : ℕ) (h : HGrib1) (data : δ) : Option (Except Fault (Pass (HGrib1 × δ) Empty)) :=
  doWhile (coreBody lib props addInfo) advance fuel (h, data)

end Integrity

/-! ## The bodies do not move the reader -/

theorem indexBody_reader {s s' : HGrib1 × List GribMsgDataInfo} (h : indexBody lib s = .ok (.next s')) :
    s'.1 = s.1 := by
  unfold indexBody at h
  split at h
  · cases h
    rfl
  · obtain ⟨grid, -, h⟩ := bind_eq_ok.mp h
    obtain ⟨info, -, h⟩ := bind_eq_ok.mp h
    cases h
    rfl

theorem coreBody_reader {props : SearchProperties} {δ : Type} {addInfo : δ → GribMsgDataInfo → δ}
    {s s' : HGrib1 × δ} (h : coreBody lib props addInfo s = .ok (.next s')) : s'.1 = s.1 := by
  unfold coreBody at h
  split at h
  · cases h
    rfl
  · obtain ⟨grid, -, h⟩ := bind_eq_ok.mp h
    obtain ⟨info, -, h⟩ := bind_eq_ok.mp h
    dsimp only at h
    split at h <;> cases h <;> rfl

end Mashroom
