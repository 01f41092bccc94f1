import Mathlib.Data.Rat.Floor
import Mashroom.Proc.Json

/-!
# Proc.GridJson — grids in JSON

The object of a grid has its representation type and, as "grid data", the object of its definition.  No definition is
written: the value that its object should be put into is null, and `as_object` throws.  What is missing where a
definition is read keeps its value, and a definition that cannot be read is passed over; so an object of a grid is
refused only where a reader throws (`grid_json`).  The latitude/longitude and Gaussian grids are modelled; the other
definitions have readers and writers of their own.
-/

namespace Mashroom

/-! ## Values of one kind -/

namespace Json

/-- `if_bool` -/
def asBool : Json → Option Bool
  | .bool b => some b
  | _ => none

/-- `if_double` -/
def asDouble : Json → Option ℚ
  | .double q => some q
  | _ => none

end Json

/-- `as_object`, `as_bool` and the like, which throw where a value is of another kind. -/
def jsonAs {α : Type} (read : Json → Option α) (j : Json) : Except Fault α :=
  match read j with
  | some a => .ok a
  | none => .error .exception

/-- The kinds of the numbers of a grid. -/
inductive JsonKind where
  | double
  | uint64

namespace JsonKind

def Value : JsonKind → Type
  | double => ℚ
  | uint64 => ℕ

def read : (k : JsonKind) → Json → Option k.Value
  | double => Json.asDouble
  | uint64 => Json.asUint64

end JsonKind

/-- The members of an object. -/
abbrev JsonMembers := List (List Char × Json)

/-- The member is there, and is a `bool`. -/
def memberBool (obj : JsonMembers) (name : String) : Option Bool := (Json.member? obj name.toList).bind Json.asBool

/-! ## What is written -/

/-- The conversion of a floating point value to a 64 bit integer. -/
def ratToInt64 (q : ℚ) : Except Fault ℤ :=
  let z := q.num.tdiv q.den
  if -2 ^ 63 ≤ z ∧ z < 2 ^ 63 then .ok z else .error .arithmetic

/-- The same to one without a sign. -/
def ratToUint64 (q : ℚ) : Except Fault ℕ :=
  let z := q.num.tdiv q.den
  if 0 ≤ z ∧ z < 2 ^ 64 then .ok z.toNat else .error .arithmetic

/-- `to_json(ScanMode)`: a new member is null, and `as_bool` throws. -/
def ScanMode.toJson (val : ScanMode) : Except Fault Json := do
  let _ ← jsonAs Json.asBool .null
  let _ ← jsonAs Json.asBool .null
  let _ ← jsonAs Json.asBool .null
  return .object [("scan -i direction".toList, .bool val.pointsSubIDir),
    ("scan +j direction".toList, .bool val.pointsSubJDir),
    ("adjacent consec j-dir pts".toList, .bool val.adjPointsJDir)]

/-- `to_json(GridBase<LAT_LON_GRID_EQUIDIST_CYLINDR>)`.  The scan mode is written for the flags, too. -/
def LatLonBase.toJson (val : LatLonBase) : Except Fault Json := do
  let dx ← ratToUint64 val.dx
  let dy ← ratToUint64 val.dy
  let scanMode ← val.scanMode.toJson
  let flags ← val.scanMode.toJson
  return .object [("lat1".toList, .double val.y1), ("lon1".toList, .double val.x1), ("lat2".toList, .double val.y2),
    ("lon2".toList, .double val.x2), ("dx".toList, .uint64 dx), ("dy".toList, .uint64 dy),
    ("ny".toList, .uint64 val.ny), ("nx".toList, .uint64 val.nx), ("scan mode".toList, scanMode),
    ("resolution component flags".toList, flags)]

/-- `to_json(GridBase<GAUSSIAN>)` -/
def GaussianBase.toJson (val : GaussianBase) : Except Fault Json := do
  let scanMode ← val.scanMode.toJson
  let flags ← val.scanMode.toJson
  return .object [("lat1".toList, .double val.y1), ("lon1".toList, .double val.x1), ("lat2".toList, .double val.y2),
    ("lon2".toList, .double val.x2), ("increment".toList, .uint64 val.directionIncrement), ("N".toList, .uint64 val.N),
    ("ny".toList, .uint64 val.ny), ("nx".toList, .uint64 (toUnsigned 64 val.nx)), ("scan mode".toList, scanMode),
    ("resolution component flags".toList, flags)]

def NoAdditional.toJson (_ : NoAdditional) : Except Fault Json := return .object []

/-- The longitude is written over the latitude. -/
def Rotation.toJson (val : Rotation) : Except Fault Json := do
  let _ ← ratToInt64 val.yp
  let xp ← ratToInt64 val.xp
  return .object [("SP lat".toList, .int64 xp), ("rot angle (ibmf)".toList, .double val.ang)]

def Stretching.toJson (val : Stretching) : Except Fault Json := do
  let ysp ← ratToInt64 val.ysp
  let xsp ← ratToInt64 val.xsp
  return .object [("lat pole stretch, mm".toList, .int64 ysp), ("lon pole stretch, mm".toList, .int64 xsp),
    ("stretch factor (ibmf)".toList, .double val.sFactor)]

/-- The reference to the object of the rotation is written through after another member was added to the object that
it is in. -/
def RotationStretching.toJson (val : RotationStretching) : Except Fault Json := do
  let _ ← ratToInt64 val.rot.yp
  let _ ← ratToInt64 val.rot.xp
  .error .dangling

/-- `to_json(GridDefinition)`: a new value is null, and `as_object` throws. -/
def GridDefinition.toJson {B A : Type} (base : B → Except Fault Json) (additional : A → Except Fault Json)
    (val : GridDefinition B A) : Except Fault Json := do
  let obj ← jsonAs Json.asObject .null
  let base ← base val.base
  let additional ← additional val.additional
  return .object (obj ++ [("base".toList, base), ("additional".toList, additional)])

/-- The writers and the readers of the other definitions. -/
structure OtherGrids where
  toJson : GridInfo → Except Fault Json
  fromJson : RepresentationType → JsonMembers → Except Fault GridInfo

/-- The object of a grid. -/
def gridObject (type : RepresentationType) (data : Json) : Json :=
  .object [("representation type".toList, .uint64 type.octet), ("grid data".toList, data)]

namespace GridInfo

variable (others : OtherGrids)

/-- `to_json_variant` -/
def dataToJson : GridInfo → Except Fault Json
  | monostate => return .object []
  | latLon d => d.toJson LatLonBase.toJson NoAdditional.toJson
  | rotatedLatLon d => d.toJson LatLonBase.toJson Rotation.toJson
  | stretchedLatLon d => d.toJson LatLonBase.toJson Stretching.toJson
  | stretchedAndRotatedLatLon d => d.toJson LatLonBase.toJson RotationStretching.toJson
  | gaussian d => d.toJson GaussianBase.toJson NoAdditional.toJson
  | rotatedGaussianLatLon d => d.toJson GaussianBase.toJson Rotation.toJson
  | stretchedGaussianLatLon d => d.toJson GaussianBase.toJson Stretching.toJson
  | stretchedRotatedGaussianLatLon d => d.toJson GaussianBase.toJson RotationStretching.toJson
  | g => others.toJson g

/-- `to_json(GridInfo)` -/
def toJson (val : GridInfo) : Except Fault Json := gridObject val.type <$> val.dataToJson others

end GridInfo

/-! ## What is read -/

/-- `if(obj.contains(name)) result.member = obj.at(name).as_kind();` -/
structure JsonField (B : Type) where
  name : String
  kind : JsonKind
  set : kind.Value → B → B

/-- One such statement. -/
def JsonField.fromJson {B : Type} (obj : JsonMembers) (result : B) (f : JsonField B) : Except Fault B :=
  match Json.member? obj f.name.toList with
  | none => .ok result
  | some j => (fun v => f.set v result) <$> jsonAs f.kind.read j

/-- What the memory of new objects held, where a member has no initial value. -/
structure NewGrids where
  latLon : LatLonBase
  rotation : Rotation
  stretching : Stretching
  rotationStretching : RotationStretching
  scanMode : ScanMode
  flags : ResolutionComponentFlags

/-- `from_json<ScanMode>`.  A member that cannot be read is passed over. -/
def ScanMode.fromJson (new : ScanMode) (val : Json) : Option ScanMode := do
  let obj ← val.asObject
  return {
    pointsSubIDir := (memberBool obj "scan -i direction").getD new.pointsSubIDir
    pointsSubJDir := (memberBool obj "scan +j direction").getD new.pointsSubJDir
    adjPointsJDir := (memberBool obj "adjacent consec j-dir pts").getD new.adjPointsJDir }

/-- Where "has direction" is there, "scan -i direction" is read, and throws if it cannot be. -/
def givenDirectionFromJson (new : Bool) (obj : JsonMembers) : Except Fault Bool :=
  match memberBool obj "has direction" with
  | some _ => memberAt obj "scan -i direction".toList >>= jsonAs Json.asBool
  | none => .ok new

/-- `from_json<ResolutionComponentFlags>` -/
def ResolutionComponentFlags.fromJson (new : ResolutionComponentFlags) (val : Json) :
    Except Fault (Option ResolutionComponentFlags) :=
  match val.asObject with
  | none => .ok none
  | some obj => do
    let givenDirection ← givenDirectionFromJson new.givenDirection obj
    return some {
      givenDirection
      earthSpheroidal := (memberBool obj "has direction").getD new.earthSpheroidal
      gridDirectionUvComp := (memberBool obj "UV-comp grid direction").getD new.gridDirectionUvComp }

section Read

variable (narrow : ℚ → ℚ) (lib : OsterLib) (new : NewGrids)

/-- The flags of a base, which are passed over where they are no object, for a `return` is missing. -/
def resolutionFromJson {B : Type} (setFlags : ResolutionComponentFlags → B → B) (obj : JsonMembers) (result : B) :
    Except Fault (Option B) :=
  match Json.member? obj "resolution component flags".toList with
  | none => .ok (some result)
  | some j =>
    (fun flags => some ((setFlags <$> flags).getD id result)) <$> ResolutionComponentFlags.fromJson new.flags j

/-- What `from_json` of a base does after its numbers. -/
def flagsFromJson {B : Type} (setScanMode : ScanMode → B → B) (setFlags : ResolutionComponentFlags → B → B)
    (obj : JsonMembers) (result : B) : Except Fault (Option B) :=
  match Json.member? obj "scan mode".toList with
  | none => resolutionFromJson new setFlags obj result
  | some j =>
    match ScanMode.fromJson new.scanMode j with
    | none => .ok none
    | some scanMode => resolutionFromJson new setFlags obj (setScanMode scanMode result)

/-- `from_json` of a base: its numbers, then its flags. -/
def baseFromJson {B : Type} (initial : B) (fields : List (JsonField B)) (setScanMode : ScanMode → B → B)
    (setFlags : ResolutionComponentFlags → B → B) (val : Json) : Except Fault (Option B) :=
  match val.asObject with
  | none => .ok none
  | some obj => do
    let result ← fields.foldlM (JsonField.fromJson obj) initial
    flagsFromJson new setScanMode setFlags obj result

/-- The numbers of `GridBase<LAT_LON_GRID_EQUIDIST_CYLINDR>`.  `narrow` is the conversion to `float`. -/
def LatLonBase.jsonFields : List (JsonField LatLonBase) := [
  ⟨"lat1", .double, fun q b => { b with y1 := narrow q }⟩,
  ⟨"lon1", .double, fun q b => { b with x1 := narrow q }⟩,
  ⟨"lat2", .double, fun q b => { b with y2 := narrow q }⟩,
  ⟨"lon2", .double, fun q b => { b with x2 := narrow q }⟩,
  ⟨"dx", .uint64, fun (n : ℕ) b => { b with dx := narrow n }⟩,
  ⟨"dy", .uint64, fun (n : ℕ) b => { b with dy := narrow n }⟩,
  ⟨"ny", .uint64, fun (n : ℕ) b => { b with ny := n % 2 ^ 16 }⟩,
  -- `result.ny` again
  ⟨"nx", .uint64, fun (n : ℕ) b => { b with ny := n % 2 ^ 16 }⟩]

/-- `from_json<GridBase<LAT_LON_GRID_EQUIDIST_CYLINDR>>` -/
def LatLonBase.fromJson : Json → Except Fault (Option LatLonBase) :=
  baseFromJson new new.latLon (jsonFields narrow) (fun scanMode b => { b with scanMode })
    fun flags b => { b with resolutionAndComponentFlags := flags }

/-- The initial values of `GridBase<GAUSSIAN>`. -/
def GaussianBase.initial : GaussianBase where
  y1 := lib.undefined
  x1 := -lib.undefined
  y2 := -lib.undefined
  x2 := lib.undefined
  ny := 0
  nx := 0
  directionIncrement := 0
  N := 0
  scanMode := .ofOctet 0
  resolutionAndComponentFlags := .ofOctet 0

def GaussianBase.jsonFields : List (JsonField GaussianBase) := [
  ⟨"lat1", .double, fun q b => { b with y1 := narrow q }⟩,
  ⟨"lon1", .double, fun q b => { b with x1 := narrow q }⟩,
  ⟨"lat2", .double, fun q b => { b with y2 := narrow q }⟩,
  ⟨"lon2", .double, fun q b => { b with x2 := narrow q }⟩,
  ⟨"increment", .uint64, fun (n : ℕ) b => { b with directionIncrement := n % 2 ^ 16 }⟩,
  ⟨"N", .uint64, fun (n : ℕ) b => { b with N := n % 2 ^ 16 }⟩,
  ⟨"ny", .uint64, fun (n : ℕ) b => { b with ny := n % 2 ^ 16 }⟩,
  -- `result.ny` again
  ⟨"nx", .uint64, fun (n : ℕ) b => { b with ny := n % 2 ^ 16 }⟩]

/-- `from_json<GridBase<GAUSSIAN>>` -/
def GaussianBase.fromJson : Json → Except Fault (Option GaussianBase) :=
  baseFromJson new (initial lib) (jsonFields narrow) (fun scanMode b => { b with scanMode })
    fun flags b => { b with resolutionAndComponentFlags := flags }

/-- `from_json_grid_addition`, for a new addition.  It reads what the type of the *base* has, which is nothing. -/
def additionFromJson {A : Type} (addition : A) (val : Json) : Option A := (fun _ => addition) <$> val.asObject

/-- The base of a definition, which is kept where none is there. -/
def definitionBase {B : Type} (base : Json → Except Fault (Option B)) (result : B) (obj : JsonMembers) :
    Except Fault (Option B) :=
  match Json.member? obj "base".toList with
  | none => .ok (some result)
  | some j => base j

/-- The additional part of a definition, which is kept where none is there, or no "mod". -/
def definitionAdditional {A : Type} (result : A) (obj : JsonMembers) : Option A :=
  match Json.member? obj "additional".toList, (Json.member? obj "mod".toList).bind Json.asUint64 with
  | some j, some _ => additionFromJson result j
  | _, _ => some result

/-- `from_json<GridDefinition>`, for a new definition. -/
def GridDefinition.fromJson {B A : Type} (base : Json → Except Fault (Option B)) (result : GridDefinition B A)
    (obj : JsonMembers) : Except Fault (Option (GridDefinition B A)) := do
  let base ← definitionBase base result.base obj
  return do
    let base ← base
    let additional ← definitionAdditional result.additional obj
    return { base, additional }

/-- `init_grid_data` for a new definition, which is kept where none can be read. -/
def initGridData {B A : Type} (make : GridDefinition B A → GridInfo) (base : Json → Except Fault (Option B))
    (grid : GridDefinition B A) (data : JsonMembers) : Except Fault GridInfo :=
  (fun read => make (read.getD grid)) <$> GridDefinition.fromJson base grid data

namespace GridInfo

variable (others : OtherGrids)

/-- The alternative of a type, read. -/
def dataFromJson (data : JsonMembers) : RepresentationType → Except Fault GridInfo
  | .undefGrid => .ok monostate
  | .latLonGridEquidistCylindr => initGridData latLon (LatLonBase.fromJson narrow new) ⟨new.latLon, {}⟩ data
  | .rotatedLatLon => initGridData rotatedLatLon (LatLonBase.fromJson narrow new) ⟨new.latLon, new.rotation⟩ data
  | .stretchedLatLon => initGridData stretchedLatLon (LatLonBase.fromJson narrow new) ⟨new.latLon, new.stretching⟩ data
  | .stretchedAndRotatedLatLon =>
    initGridData stretchedAndRotatedLatLon (LatLonBase.fromJson narrow new) ⟨new.latLon, new.rotationStretching⟩ data
  | .gaussian => initGridData gaussian (GaussianBase.fromJson narrow lib new) ⟨.initial lib, {}⟩ data
  | .rotatedGaussianLatLon =>
    initGridData rotatedGaussianLatLon (GaussianBase.fromJson narrow lib new) ⟨.initial lib, new.rotation⟩ data
  | .stretchedGaussianLatLon =>
    initGridData stretchedGaussianLatLon (GaussianBase.fromJson narrow lib new) ⟨.initial lib, new.stretching⟩ data
  | .stretchedRotatedGaussianLatLon =>
    initGridData stretchedRotatedGaussianLatLon (GaussianBase.fromJson narrow lib new)
      ⟨.initial lib, new.rotationStretching⟩ data
  | r => others.fromJson r data

/-- `from_json<GridInfo>` -/
def fromJson (val : Json) : Except Fault (Option GridInfo) :=
  match val.asObject with
  | none => .ok none
  | some obj =>
    match (Json.member? obj "representation type".toList).bind Json.asUint64,
      (Json.member? obj "grid data".toList).bind Json.asObject with
    | some n, some data =>
      -- the cast to the type takes the lowest octet
      match RepresentationType.ofOctet (n % 2 ^ 8) with
      | none => .ok none
      | some r =>
        match dataFromJson narrow lib new others data r with
        | .error .exception => .ok none
        | grid => some <$> grid
    | _, _ => .ok none

end GridInfo

end Read

/-! ## Where a reader throws -/

/-- A computation throws where `p` holds, and has a result where it does not. -/
structure ThrowsIff {α : Type} (x : Except Fault α) (p : Prop) : Prop where
  throws : p → x = .error .exception
  defined : ¬ p → Defined x

namespace ThrowsIff

variable {α β : Type} {x : Except Fault α} {g : α → Except Fault β} {p q : Prop}

theorem congr (h : ThrowsIff x p) (hpq : p ↔ q) : ThrowsIff x q := propext hpq ▸ h

theorem ok (a : α) (h : ¬ p) : ThrowsIff (.ok a : Except Fault α) p := ⟨fun hp => absurd hp h, fun _ => .ok a⟩

theorem bind (h : ThrowsIff x p) (hg : ∀ a, ThrowsIff (g a) q) : ThrowsIff (x >>= g) (p ∨ q) := by
  by_cases hp : p
  · rw [h.throws hp]
    exact ⟨fun _ => rfl, fun hpq => absurd (.inl hp) hpq⟩
  · obtain ⟨a, rfl⟩ := h.defined hp
    exact (hg a).congr (or_iff_right hp).symm

theorem map (h : ThrowsIff x p) (g : α → β) : ThrowsIff (g <$> x) p := by
  refine ⟨fun hp => by rw [h.throws hp]; rfl, fun hp => ?_⟩
  obtain ⟨a, rfl⟩ := h.defined hp
  exact .ok (g a)

end ThrowsIff

theorem jsonAs_throwsIff {α : Type} (read : Json → Option α) (j : Json) :
    ThrowsIff (jsonAs read j) (read j = none) := by
  unfold jsonAs
  cases read j with
  | none => exact ⟨fun _ => rfl, fun h => absurd rfl h⟩
  | some a => exact .ok a nofun

/-- A number is there, and is none of its kind. -/
def IllTyped (obj : JsonMembers) (f : String × JsonKind) : Prop :=
  ∃ j, Json.member? obj f.1.toList = some j ∧ f.2.read j = none

/-- "has direction" is a `bool` and "scan -i direction", among the flags, is none, and a scan mode that is there is an
object. -/
structure FlagsThrow (obj : JsonMembers) : Prop where
  scanMode : ∀ j, Json.member? obj "scan mode".toList = some j → j.asObject ≠ none
  flags : ∃ j members, Json.member? obj "resolution component flags".toList = some j ∧ j.asObject = some members ∧
    memberBool members "has direction" ≠ none ∧ memberBool members "scan -i direction" = none

/-- The reader of a base throws. -/
def BaseThrows (fields : List (String × JsonKind)) (obj : JsonMembers) : Prop :=
  (∃ f ∈ fields, IllTyped obj f) ∨ FlagsThrow obj

/-- The reader of a definition throws. -/
def DataThrows (fields : List (String × JsonKind)) (data : JsonMembers) : Prop :=
  ∃ j obj, Json.member? data "base".toList = some j ∧ j.asObject = some obj ∧ BaseThrows fields obj

/-- The name and the kind. -/
def JsonField.signature {B : Type} (f : JsonField B) : String × JsonKind := (f.name, f.kind)

section Throws

variable {obj : JsonMembers}

theorem JsonField.fromJson_throwsIff {B : Type} (result : B) (f : JsonField B) :
    ThrowsIff (f.fromJson obj result) (IllTyped obj f.signature) := by
  unfold JsonField.fromJson IllTyped signature
  cases hj : Json.member? obj f.name.toList with
  | none => exact .ok _ (by simp)
  | some j => exact ((jsonAs_throwsIff _ j).map _).congr (by simp)

theorem fields_throwsIff {B : Type} (fields : List (JsonField B)) (initial : B) :
    ThrowsIff (fields.foldlM (JsonField.fromJson obj) initial)
      (∃ f ∈ fields.map JsonField.signature, IllTyped obj f) := by
  induction fields generalizing initial with
  | nil => exact .ok _ (by simp)
  | cons f fields ih =>
    rw [List.foldlM_cons]
    exact ((f.fromJson_throwsIff initial).bind ih).congr (by simp)

theorem givenDirectionFromJson_throwsIff (new : Bool) : ThrowsIff (givenDirectionFromJson new obj)
    (memberBool obj "has direction" ≠ none ∧ memberBool obj "scan -i direction" = none) := by
  unfold givenDirectionFromJson
  cases memberBool obj "has direction" with
  | none => exact .ok _ fun h => h.1 rfl
  | some b =>
    have hat : ThrowsIff (memberAt obj "scan -i direction".toList >>= jsonAs Json.asBool)
        (memberBool obj "scan -i direction" = none) := by
      unfold memberAt memberBool
      cases Json.member? obj "scan -i direction".toList with
      | none => exact ⟨fun _ => rfl, fun h => absurd rfl h⟩
      | some j => exact jsonAs_throwsIff Json.asBool j
    exact hat.congr (and_iff_right nofun).symm

theorem ResolutionComponentFlags.fromJson_throwsIff (new : ResolutionComponentFlags) (val : Json) :
    ThrowsIff (fromJson new val) (∃ members, val.asObject = some members ∧
      memberBool members "has direction" ≠ none ∧ memberBool members "scan -i direction" = none) := by
  unfold fromJson
  cases val.asObject with
  | none => exact .ok _ (by simp)
  | some members =>
    refine ((givenDirectionFromJson_throwsIff new.givenDirection).map _).congr ?_
    simp only [Option.some.injEq, exists_eq_left']

theorem ScanMode.fromJson_eq_none {new : ScanMode} {val : Json} : fromJson new val = none ↔ val.asObject = none := by
  unfold fromJson
  cases val.asObject with
  | none => exact iff_of_true rfl rfl
  | some members => exact iff_of_false nofun nofun

variable {B : Type} {new : NewGrids} {setScanMode : ScanMode → B → B} {setFlags : ResolutionComponentFlags → B → B}

theorem resolutionFromJson_throwsIff (result : B) : ThrowsIff (resolutionFromJson new setFlags obj result)
    (∃ j members, Json.member? obj "resolution component flags".toList = some j ∧ j.asObject = some members ∧
      memberBool members "has direction" ≠ none ∧ memberBool members "scan -i direction" = none) := by
  unfold resolutionFromJson
  cases Json.member? obj "resolution component flags".toList with
  | none => exact .ok _ (by simp)
  | some j =>
    refine ((ResolutionComponentFlags.fromJson_throwsIff new.flags j).map _).congr ?_
    simp only [Option.some.injEq, exists_and_left, exists_eq_left']

theorem flagsFromJson_throwsIff (result : B) :
    ThrowsIff (flagsFromJson new setScanMode setFlags obj result) (FlagsThrow obj) := by
  cases hscan : Json.member? obj "scan mode".toList with
  | none =>
    simp only [flagsFromJson, hscan]
    refine (resolutionFromJson_throwsIff result).congr ⟨fun h => ⟨fun j hj => ?_, h⟩, FlagsThrow.flags⟩
    cases hscan.symm.trans hj
  | some j =>
    simp only [flagsFromJson, hscan]
    cases hmode : ScanMode.fromJson new.scanMode j with
    | none => exact .ok _ fun h => h.scanMode j hscan (ScanMode.fromJson_eq_none.mp hmode)
    | some scanMode =>
      refine (resolutionFromJson_throwsIff _).congr ⟨fun h => ⟨fun j' hj' hobject => ?_, h⟩, FlagsThrow.flags⟩
      cases hscan.symm.trans hj'
      cases (ScanMode.fromJson_eq_none.mpr hobject).symm.trans hmode

theorem baseFromJson_throwsIff {initial : B} {fields : List (JsonField B)} (val : Json) :
    ThrowsIff (baseFromJson new initial fields setScanMode setFlags val)
      (∃ obj, val.asObject = some obj ∧ BaseThrows (fields.map JsonField.signature) obj) := by
  unfold baseFromJson
  cases val.asObject with
  | none => exact .ok _ (by simp)
  | some obj =>
    refine ((fields_throwsIff fields initial).bind flagsFromJson_throwsIff).congr ?_
    simp only [Option.some.injEq, exists_eq_left', BaseThrows]

theorem definitionBase_throwsIff {base : Json → Except Fault (Option B)} {result : B}
    {fields : List (String × JsonKind)}
    (hbase : ∀ val, ThrowsIff (base val) (∃ obj, val.asObject = some obj ∧ BaseThrows fields obj)) :
    ThrowsIff (definitionBase base result obj) (DataThrows fields obj) := by
  unfold definitionBase DataThrows
  cases Json.member? obj "base".toList with
  | none => exact .ok _ (by simp)
  | some j =>
    refine (hbase j).congr ?_
    simp only [Option.some.injEq, exists_and_left, exists_eq_left']

/-- Only the reader of the base throws. -/
theorem initGridData_throwsIff {A : Type} {make : GridDefinition B A → GridInfo} {base : Json → Except Fault (Option B)}
    {grid : GridDefinition B A} {fields : List (String × JsonKind)}
    (hbase : ∀ val, ThrowsIff (base val) (∃ obj, val.asObject = some obj ∧ BaseThrows fields obj)) :
    ThrowsIff (initGridData make base grid obj) (DataThrows fields obj) :=
  ((definitionBase_throwsIff hbase).map _).map _

end Throws

/-! ## The object of a grid -/

/-- The names and kinds of the numbers of the types whose base is that of a latitude/longitude or a Gaussian grid. -/
def RepresentationType.jsonFields : RepresentationType → Option (List (String × JsonKind))
  | latLonGridEquidistCylindr | rotatedLatLon | stretchedLatLon | stretchedAndRotatedLatLon => some
    [("lat1", .double), ("lon1", .double), ("lat2", .double), ("lon2", .double), ("dx", .uint64), ("dy", .uint64),
      ("ny", .uint64), ("nx", .uint64)]
  | gaussian | rotatedGaussianLatLon | stretchedGaussianLatLon | stretchedRotatedGaussianLatLon => some
    [("lat1", .double), ("lon1", .double), ("lat2", .double), ("lon2", .double), ("increment", .uint64),
      ("N", .uint64), ("ny", .uint64), ("nx", .uint64)]
  | _ => none

/-- A value is the object of a grid of a type, with the members of its definition. -/
def IsGrid (val : Json) (r : RepresentationType) (data : JsonMembers) : Prop :=
  ∃ obj n, val.asObject = some obj ∧ (Json.member? obj "representation type".toList).bind Json.asUint64 = some n ∧
    (Json.member? obj "grid data".toList).bind Json.asObject = some data ∧
    RepresentationType.ofOctet (n % 2 ^ 8) = some r

/-- The type in the object is that of the base of a grid: a modified grid would be read as one that is not. -/
theorem isGrid_gridObject (r : RepresentationType) (data : JsonMembers) :
    IsGrid (gridObject r (.object data)) r data := by
  have hoctet : r.octet % 2 ^ 8 = r.octet := by cases r <;> rfl
  exact ⟨_, r.octet, rfl, rfl, rfl, by rw [hoctet, r.ofOctet_octet]⟩

section Grid

variable {narrow : ℚ → ℚ} {lib : OsterLib} {new : NewGrids} {others : OtherGrids} {data : JsonMembers}
  {r : RepresentationType} {fields : List (String × JsonKind)} {val : Json}

theorem dataFromJson_throwsIff (hr : r.jsonFields = some fields) :
    ThrowsIff (GridInfo.dataFromJson narrow lib new others data r) (DataThrows fields data) := by
  have hlatLon : ∀ val, ThrowsIff (LatLonBase.fromJson narrow new val)
      (∃ obj, val.asObject = some obj ∧ BaseThrows ((LatLonBase.jsonFields narrow).map JsonField.signature) obj) :=
    baseFromJson_throwsIff
  have hgaussian : ∀ val, ThrowsIff (GaussianBase.fromJson narrow lib new val)
      (∃ obj, val.asObject = some obj ∧ BaseThrows ((GaussianBase.jsonFields narrow).map JsonField.signature) obj) :=
    baseFromJson_throwsIff
  cases r
  all_goals first
    | cases hr
      exact initGridData_throwsIff hlatLon
    | cases hr
      exact initGridData_throwsIff hgaussian
    | cases hr

/-- Where the reader of a definition throws, the object is refused. -/
theorem fromJson_of_isGrid (hr : r.jsonFields = some fields) (h : IsGrid val r data) :
    GridInfo.fromJson narrow lib new others val = .ok none ↔ DataThrows fields data := by
  obtain ⟨obj, n, hobj, hn, hdata, hof⟩ := h
  have hthrows : ThrowsIff (GridInfo.dataFromJson narrow lib new others data r) (DataThrows fields data) :=
    dataFromJson_throwsIff hr
  simp only [GridInfo.fromJson, hobj, hn, hdata, hof]
  by_cases hp : DataThrows fields data
  · rw [hthrows.throws hp]
    exact iff_of_true rfl hp
  · obtain ⟨grid, hgrid⟩ := hthrows.defined hp
    rw [hgrid]
    exact iff_of_false nofun hp

theorem fromJson_of_not_isGrid (h : ¬ ∃ r data, IsGrid val r data) :
    GridInfo.fromJson narrow lib new others val = .ok none := by
  unfold GridInfo.fromJson
  split
  · rfl
  · rename_i obj hobj
    split
    · rename_i n data hn hdata
      split
      · rfl
      · rename_i r hof
        exact absurd ⟨r, data, obj, n, hobj, hn, hdata, hof⟩ h
    · rfl

theorem toJson_throws {grid : GridInfo} (h : grid.type = .latLonGridEquidistCylindr ∨ grid.type = .gaussian) :
    grid.toJson others = .error .exception := by
  cases grid
  all_goals first
    | rfl
    | exact h.elim nofun nofun

end Grid

/-- **Grids in JSON**: none of these grids is written; what is no object of a grid is refused, and an object of one is
refused exactly where a number of its base is of another kind or the direction among its flags cannot be read. -/
theorem grid_json (narrow : ℚ → ℚ) (lib : OsterLib) (new : NewGrids) (others : OtherGrids) :
    (∀ grid : GridInfo, grid.type = .latLonGridEquidistCylindr ∨ grid.type = .gaussian →
      grid.toJson others = .error .exception) ∧
    (∀ val, (¬ ∃ r data, IsGrid val r data) → GridInfo.fromJson narrow lib new others val = .ok none) ∧
    ∀ val r data fields, r.jsonFields = some fields → IsGrid val r data →
      (GridInfo.fromJson narrow lib new others val = .ok none ↔ DataThrows fields data) :=
  ⟨fun _ => toJson_throws, fun _ => fromJson_of_not_isGrid, fun _ _ _ _ => fromJson_of_isGrid⟩

/-- A grid of one point. -/
def GridInfo.point : GridInfo := .latLon {
  base := {
    y1 := 0
    x1 := 0
    y2 := 0
    x2 := 0
    dy := 0
    dx := 0
    ny := 1
    nx := 1
    scanMode := .ofOctet 0
    resolutionAndComponentFlags := .ofOctet 0 }
  additional := {} }

/-- A grid is not written, and an object where all is missing is read as a new grid. -/
theorem grid_json_fails : IsGrid (gridObject GridInfo.point.type (.object [])) .latLonGridEquidistCylindr [] ∧
    ∀ (narrow : ℚ → ℚ) (lib : OsterLib) (new : NewGrids) (others : OtherGrids),
      GridInfo.point.toJson others = .error .exception ∧
      GridInfo.fromJson narrow lib new others (gridObject GridInfo.point.type (.object [])) =
        .ok (some (.latLon ⟨new.latLon, {}⟩)) :=
  ⟨isGrid_gridObject _ _, fun _ _ _ _ => ⟨rfl, rfl⟩⟩

end Mashroom
