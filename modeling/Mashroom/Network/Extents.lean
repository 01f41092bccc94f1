import Mashroom.Lib.Extent
import Mashroom.Data.DataStruct
import Mashroom.Network.Parts
import Mashroom.Network.Reference

/-!
# Network.Extents — the sizes that the keys of the index declare

Each type that is a key of the index lists its fields twice more, for the least and for the greatest size of a value.
`keys_serialized` puts all five lists together: what is written of a key is read back as the key, is as long as its
size, and its size lies between the two that are declared.
-/

namespace Mashroom

namespace Network

open Extent

/-- The sizes that OsterLib declares for its types, for those of optional values, and for variants. -/
structure OsterExtents where
  u8 : Extent
  u16 : Extent
  u32 : Extent
  u64 : Extent
  i16 : Extent
  int : Extent
  float : Extent
  double : Extent
  flag : Extent
  optional : Extent → Extent
  /-- of the extents of the alternatives -/
  variant : List Extent → Extent

namespace OsterExtents

variable {τ π : Type}

/-- The sizes of the values of the C++ types lie between those that are declared; an optional value adds to those of
its value, and a variant has an index and one of its alternatives. -/
structure Documented (s : OsterExtents) (o : OsterFormats τ π) : Prop where
  u8 : ∀ n, s.u8.Holds o.u8 n
  u16 : ∀ n, s.u16.Holds o.u16 n
  u32 : ∀ n, s.u32.Holds o.u32 n
  u64 : ∀ n, s.u64.Holds o.u64 n
  i16 : ∀ z : ℤ, -2 ^ 15 ≤ z ∧ z < 2 ^ 15 → s.i16.Holds o.i16 z
  int : ∀ z : ℤ, -2 ^ 31 ≤ z ∧ z < 2 ^ 31 → s.int.Holds o.int z
  float : ∀ x, IsFloat32 x → s.float.Holds o.float x
  double : ∀ x, IsFloat64 x → s.double.Holds o.double x
  flag : ∀ b, s.flag.Holds o.flag b
  optional : ∀ {α : Type} (e : Extent) (f : Format α) (a : Option α), (∀ x ∈ a, e.Holds f x) →
    (s.optional e).Holds (o.optional f) a
  variant : ∀ es, Covers (s.variant es) s.u64 es

/-! ## The lists of the source -/

section Extents

variable (s : OsterExtents)

def scanMode : Extent where
  min := minSerialSize [s.flag, s.flag, s.flag]
  max := maxSerialSize [s.flag, s.flag, s.flag]

def resolutionComponentFlags : Extent where
  min := minSerialSize [s.flag, s.flag, s.flag]
  max := maxSerialSize [s.flag, s.flag, s.flag]

def latLonBase : Extent where
  min := minSerialSize [s.float, s.float, s.float, s.float, s.float, s.float, s.u16, s.u16, s.scanMode,
    s.resolutionComponentFlags]
  max := maxSerialSize [s.float, s.float, s.float, s.float, s.float, s.float, s.u16, s.u16, s.scanMode,
    s.resolutionComponentFlags]

def gaussianBase : Extent where
  min := minSerialSize [s.float, s.float, s.float, s.float, s.u16, s.i16, s.u16, s.u16, s.scanMode,
    s.resolutionComponentFlags]
  max := maxSerialSize [s.float, s.float, s.float, s.float, s.u16, s.i16, s.u16, s.u16, s.scanMode,
    s.resolutionComponentFlags]

def albersBase : Extent where
  min := minSerialSize [s.u16, s.u16, s.float, s.float, s.resolutionComponentFlags, s.float, s.float, s.float, s.flag,
    s.flag, s.scanMode, s.float, s.float, s.float, s.float]
  max := maxSerialSize [s.u16, s.u16, s.float, s.float, s.resolutionComponentFlags, s.float, s.float, s.float, s.flag,
    s.flag, s.scanMode, s.float, s.float, s.float, s.float]

def harmonicBase : Extent where
  min := minSerialSize [s.u16, s.u16, s.u16, s.flag, s.u8]
  max := maxSerialSize [s.u16, s.u16, s.u16, s.flag, s.u8]

def lambertBase : Extent where
  min := minSerialSize [s.u16, s.u16, s.float, s.float, s.resolutionComponentFlags, s.float, s.float, s.float, s.flag,
    s.flag, s.scanMode, s.float, s.float, s.int, s.int]
  max := maxSerialSize [s.u16, s.u16, s.float, s.float, s.resolutionComponentFlags, s.float, s.float, s.float, s.flag,
    s.flag, s.scanMode, s.float, s.float, s.int, s.int]

def polarBase : Extent where
  min := minSerialSize [s.u16, s.u16, s.float, s.float, s.resolutionComponentFlags, s.float, s.u32, s.u32, s.flag,
    s.scanMode]
  max := maxSerialSize [s.u16, s.u16, s.float, s.float, s.resolutionComponentFlags, s.float, s.u32, s.u32, s.flag,
    s.scanMode]

def spaceViewBase : Extent where
  min := minSerialSize [s.u16, s.u16, s.float, s.float, s.resolutionComponentFlags, s.u32, s.u32, s.i16, s.i16,
    s.scanMode, s.u32, s.u32, s.i16, s.i16]
  max := maxSerialSize [s.u16, s.u16, s.float, s.float, s.resolutionComponentFlags, s.u32, s.u32, s.i16, s.i16,
    s.scanMode, s.u32, s.u32, s.i16, s.i16]

def mercatorBase : Extent where
  min := minSerialSize [s.i16, s.i16, s.float, s.float, s.resolutionComponentFlags, s.float, s.float, s.float,
    s.scanMode, s.float, s.float]
  max := maxSerialSize [s.i16, s.i16, s.float, s.float, s.resolutionComponentFlags, s.float, s.float, s.float,
    s.scanMode, s.float, s.float]

def rotation : Extent where
  min := minSerialSize [s.float, s.float, s.double]
  max := maxSerialSize [s.float, s.float, s.double]

def stretching : Extent where
  min := minSerialSize [s.float, s.float, s.double]
  max := maxSerialSize [s.float, s.float, s.double]

def rotationStretching : Extent where
  min := minSerialSize [s.rotation, s.stretching]
  max := maxSerialSize [s.rotation, s.stretching]

/-- `GridDefinition`: the base, and the additional part. -/
def gridDefinition (b a : Extent) : Extent where
  min := minSerialSize [b, a]
  max := maxSerialSize [b, a]

/-- The alternatives of the variant, in their order. -/
def gridAlternatives : List Extent :=
  [.empty, gridDefinition s.latLonBase .empty, gridDefinition s.latLonBase s.rotation,
    gridDefinition s.latLonBase s.stretching, gridDefinition s.latLonBase s.rotationStretching,
    gridDefinition s.gaussianBase .empty, gridDefinition s.gaussianBase s.rotation,
    gridDefinition s.gaussianBase s.stretching, gridDefinition s.gaussianBase s.rotationStretching,
    gridDefinition s.lambertBase .empty, gridDefinition s.lambertBase .empty, gridDefinition .empty .empty,
    gridDefinition s.albersBase .empty, gridDefinition s.spaceViewBase .empty, gridDefinition .empty .empty,
    gridDefinition s.harmonicBase .empty, gridDefinition s.harmonicBase s.rotation,
    gridDefinition s.harmonicBase s.stretching, gridDefinition s.harmonicBase s.rotationStretching,
    gridDefinition s.polarBase .empty, gridDefinition .empty .empty, gridDefinition .empty .empty,
    gridDefinition s.mercatorBase .empty]

/-- `GridInfo` -/
def gridInfo : Extent := s.variant s.gridAlternatives

def timeForecast : Extent where
  min := minSerialSize [s.u16, s.u8, s.u8, s.u8, s.u8, s.u32]
  max := maxSerialSize [s.u16, s.u8, s.u8, s.u8, s.u8, s.u32]

def level : Extent where
  min := minSerialSize [s.u8, s.u8, s.u8]
  max := maxSerialSize [s.u8, s.u8, s.u8]

def commonDataProperties : Extent where
  min := minSerialSize [s.optional s.u8, s.optional s.u8, s.optional s.u8]
  max := maxSerialSize [s.optional s.u8, s.optional s.u8, s.optional s.u8]

end Extents

/-! ## Numbers -/

section Laws

variable {s : OsterExtents} {o : OsterFormats τ π}

theorem Documented.nat8 (hs : s.Documented o) (n : ℕ) : s.u8.Holds o.nat8 n := map_holds (hs.u8 _)

theorem Documented.nat16 (hs : s.Documented o) (n : ℕ) : s.u16.Holds o.nat16 n := map_holds (hs.u16 _)

theorem Documented.nat32 (hs : s.Documented o) (n : ℕ) : s.u32.Holds o.nat32 n := map_holds (hs.u32 _)

theorem Documented.nat64 (hs : s.Documented o) (n : ℕ) : s.u64.Holds o.nat64 n := map_holds (hs.u64 _)

/-! ## Grids -/

theorem Documented.scanMode (hs : s.Documented o) (m : ScanMode) : s.scanMode.Holds o.scanMode m :=
  .of_fields rfl rfl rfl <| .cons (hs.flag _) <| .cons (hs.flag _) <| .cons (hs.flag _) <| .nil

theorem Documented.resolutionComponentFlags (hs : s.Documented o) (r : ResolutionComponentFlags) :
    s.resolutionComponentFlags.Holds o.resolutionComponentFlags r :=
  .of_fields rfl rfl rfl <| .cons (hs.flag _) <| .cons (hs.flag _) <| .cons (hs.flag _) <| .nil

theorem Documented.latLonBase (hs : s.Documented o) {b : LatLonBase} (h : b.Fits) :
    s.latLonBase.Holds o.latLonBase b := by
  have hf := fun x hx => hs.float _ (h.float x hx)
  exact .of_fields rfl rfl rfl <| .cons (hf _ (by simp)) <| .cons (hf _ (by simp)) <| .cons (hf _ (by simp)) <|
    .cons (hf _ (by simp)) <| .cons (hf _ (by simp)) <| .cons (hf _ (by simp)) <| .cons (hs.nat16 _) <|
    .cons (hs.nat16 _) <| .cons (hs.scanMode _) <| .cons (hs.resolutionComponentFlags _) <| .nil

theorem Documented.gaussianBase (hs : s.Documented o) {b : GaussianBase} (h : b.Fits) :
    s.gaussianBase.Holds o.gaussianBase b := by
  have hf := fun x hx => hs.float _ (h.float x hx)
  exact .of_fields rfl rfl rfl <| .cons (hf _ (by simp)) <| .cons (hf _ (by simp)) <| .cons (hf _ (by simp)) <|
    .cons (hf _ (by simp)) <| .cons (hs.nat16 _) <| .cons (hs.i16 _ h.i16) <| .cons (hs.nat16 _) <|
    .cons (hs.nat16 _) <| .cons (hs.scanMode _) <| .cons (hs.resolutionComponentFlags _) <| .nil

theorem Documented.albersBase (hs : s.Documented o) {b : AlbersBase} (h : b.Fits) :
    s.albersBase.Holds o.albersBase b := by
  have hf := fun x hx => hs.float _ (h.float x hx)
  exact .of_fields rfl rfl rfl <| .cons (hs.nat16 _) <| .cons (hs.nat16 _) <| .cons (hf _ (by simp)) <|
    .cons (hf _ (by simp)) <| .cons (hs.resolutionComponentFlags _) <| .cons (hf _ (by simp)) <|
    .cons (hf _ (by simp)) <| .cons (hf _ (by simp)) <| .cons (hs.flag _) <| .cons (hs.flag _) <|
    .cons (hs.scanMode _) <| .cons (hf _ (by simp)) <| .cons (hf _ (by simp)) <| .cons (hf _ (by simp)) <|
    .cons (hf _ (by simp)) <| .nil

theorem Documented.harmonicBase (hs : s.Documented o) (b : HarmonicBase) : s.harmonicBase.Holds o.harmonicBase b :=
  .of_fields rfl rfl rfl <| .cons (hs.nat16 _) <| .cons (hs.nat16 _) <| .cons (hs.nat16 _) <| .cons (hs.flag _) <|
    .cons (hs.nat8 _) <| .nil

theorem Documented.lambertBase (hs : s.Documented o) {b : LambertBase} (h : b.Fits) :
    s.lambertBase.Holds o.lambertBase b := by
  have hf := fun x hx => hs.float _ (h.float x hx)
  have hz := fun z hx => hs.int _ (h.int z hx)
  exact .of_fields rfl rfl rfl <| .cons (hs.nat16 _) <| .cons (hs.nat16 _) <| .cons (hf _ (by simp)) <|
    .cons (hf _ (by simp)) <| .cons (hs.resolutionComponentFlags _) <| .cons (hf _ (by simp)) <|
    .cons (hf _ (by simp)) <| .cons (hf _ (by simp)) <| .cons (hs.flag _) <| .cons (hs.flag _) <|
    .cons (hs.scanMode _) <| .cons (hf _ (by simp)) <| .cons (hf _ (by simp)) <| .cons (hz _ (by simp)) <|
    .cons (hz _ (by simp)) <| .nil

theorem Documented.polarBase (hs : s.Documented o) {b : PolarBase} (h : b.Fits) :
    s.polarBase.Holds o.polarBase b := by
  have hf := fun x hx => hs.float _ (h.float x hx)
  exact .of_fields rfl rfl rfl <| .cons (hs.nat16 _) <| .cons (hs.nat16 _) <| .cons (hf _ (by simp)) <|
    .cons (hf _ (by simp)) <| .cons (hs.resolutionComponentFlags _) <| .cons (hf _ (by simp)) <|
    .cons (hs.nat32 _) <| .cons (hs.nat32 _) <| .cons (hs.flag _) <| .cons (hs.scanMode _) <| .nil

theorem Documented.spaceViewBase (hs : s.Documented o) {b : SpaceViewBase} (h : b.Fits) :
    s.spaceViewBase.Holds o.spaceViewBase b := by
  have hf := fun x hx => hs.float _ (h.float x hx)
  have hi := fun z hx => hs.i16 _ (h.i16 z hx)
  exact .of_fields rfl rfl rfl <| .cons (hs.nat16 _) <| .cons (hs.nat16 _) <| .cons (hf _ (by simp)) <|
    .cons (hf _ (by simp)) <| .cons (hs.resolutionComponentFlags _) <| .cons (hs.nat32 _) <| .cons (hs.nat32 _) <|
    .cons (hi _ (by simp)) <| .cons (hi _ (by simp)) <| .cons (hs.scanMode _) <| .cons (hs.nat32 _) <|
    .cons (hs.nat32 _) <| .cons (hi _ (by simp)) <| .cons (hi _ (by simp)) <| .nil

theorem Documented.mercatorBase (hs : s.Documented o) {b : MercatorBase} (h : b.Fits) :
    s.mercatorBase.Holds o.mercatorBase b := by
  have hf := fun x hx => hs.float _ (h.float x hx)
  have hi := fun z hx => hs.i16 _ (h.i16 z hx)
  exact .of_fields rfl rfl rfl <| .cons (hi _ (by simp)) <| .cons (hi _ (by simp)) <| .cons (hf _ (by simp)) <|
    .cons (hf _ (by simp)) <| .cons (hs.resolutionComponentFlags _) <| .cons (hf _ (by simp)) <|
    .cons (hf _ (by simp)) <| .cons (hf _ (by simp)) <| .cons (hs.scanMode _) <| .cons (hf _ (by simp)) <|
    .cons (hf _ (by simp)) <| .nil

theorem Documented.rotation (hs : s.Documented o) {r : Rotation} (h : r.Fits) : s.rotation.Holds o.rotation r := by
  have hf := fun x hx => hs.float _ (h.float x hx)
  exact .of_fields rfl rfl rfl <| .cons (hf _ (by simp)) <| .cons (hf _ (by simp)) <|
    .cons (hs.double _ h.double) <| .nil

theorem Documented.stretching (hs : s.Documented o) {r : Stretching} (h : r.Fits) :
    s.stretching.Holds o.stretching r := by
  have hf := fun x hx => hs.float _ (h.float x hx)
  exact .of_fields rfl rfl rfl <| .cons (hf _ (by simp)) <| .cons (hf _ (by simp)) <|
    .cons (hs.double _ h.double) <| .nil

theorem Documented.rotationStretching (hs : s.Documented o) {r : RotationStretching} (h : r.Fits) :
    s.rotationStretching.Holds o.rotationStretching r :=
  .of_fields rfl rfl rfl <| .cons (hs.rotation h.rot) <| .cons (hs.stretching h.stretch) <| .nil

/-- The index of an alternative, and its base and additional part. -/
theorem Documented.alternative (hs : s.Documented o) {B A : Type} {b a : Extent} {fb : Format B} {fa : Format A}
    {d : GridDefinition B A} {g : GridInfo} (he : gridDefinition b a ∈ s.gridAlternatives)
    (hg : o.gridField g = [⟨OsterFormats.gridDefinition fb fa, d⟩]) (hb : b.Holds fb d.base)
    (ha : a.Holds fa d.additional) : s.gridInfo.Holds o.gridInfo g := by
  have hd : (gridDefinition b a).Holds (OsterFormats.gridDefinition fb fa) d :=
    .of_fields rfl rfl rfl <| .cons hb <| .cons ha <| .nil
  have hsize : o.gridInfo.serialSize g = Format.serialSizeAll
      [⟨o.nat64, OsterFormats.gridIndex g⟩, ⟨OsterFormats.gridDefinition fb fa, d⟩] := by
    show Format.serialSizeAll (_ :: o.gridField g) = _
    rw [hg]
  have hfields : HoldsAll [gridDefinition b a] [⟨OsterFormats.gridDefinition fb fa, d⟩] := .cons hd .nil
  exact .alternative (hs.variant _) he (by rfl) (by rfl) hsize (hs.nat64 _) hfields

theorem Documented.gridInfo (hs : s.Documented o) {g : GridInfo} (h : g.Fits) : s.gridInfo.Holds o.gridInfo g := by
  cases g with
  | monostate =>
    have hempty : Extent.empty ∈ s.gridAlternatives := by simp [gridAlternatives]
    exact .alternative (hs.variant _) hempty (by rfl) (by rfl) (by rfl) (hs.nat64 _) .nil
  | latLon d => exact hs.alternative (by simp [gridAlternatives]) rfl (hs.latLonBase h.1) (empty_holds _)
  | rotatedLatLon d =>
    exact hs.alternative (by simp [gridAlternatives]) rfl (hs.latLonBase h.1) (hs.rotation h.2)
  | stretchedLatLon d =>
    exact hs.alternative (by simp [gridAlternatives]) rfl (hs.latLonBase h.1) (hs.stretching h.2)
  | stretchedAndRotatedLatLon d =>
    exact hs.alternative (by simp [gridAlternatives]) rfl (hs.latLonBase h.1) (hs.rotationStretching h.2)
  | gaussian d => exact hs.alternative (by simp [gridAlternatives]) rfl (hs.gaussianBase h.1) (empty_holds _)
  | rotatedGaussianLatLon d =>
    exact hs.alternative (by simp [gridAlternatives]) rfl (hs.gaussianBase h.1) (hs.rotation h.2)
  | stretchedGaussianLatLon d =>
    exact hs.alternative (by simp [gridAlternatives]) rfl (hs.gaussianBase h.1) (hs.stretching h.2)
  | stretchedRotatedGaussianLatLon d =>
    exact hs.alternative (by simp [gridAlternatives]) rfl (hs.gaussianBase h.1) (hs.rotationStretching h.2)
  | lambert d => exact hs.alternative (by simp [gridAlternatives]) rfl (hs.lambertBase h.1) (empty_holds _)
  | obliqueLambertConformal d =>
    exact hs.alternative (by simp [gridAlternatives]) rfl (hs.lambertBase h.1) (empty_holds _)
  | utm d => exact hs.alternative (by simp [gridAlternatives]) rfl (empty_holds _) (empty_holds _)
  | albersEqualArea d => exact hs.alternative (by simp [gridAlternatives]) rfl (hs.albersBase h.1) (empty_holds _)
  | spaceView d => exact hs.alternative (by simp [gridAlternatives]) rfl (hs.spaceViewBase h.1) (empty_holds _)
  | gnomonic d => exact hs.alternative (by simp [gridAlternatives]) rfl (empty_holds _) (empty_holds _)
  | sphericalHarmonicCoefficients d =>
    exact hs.alternative (by simp [gridAlternatives]) rfl (hs.harmonicBase _) (empty_holds _)
  | rotatedSphericalHarmonicCoefficients d =>
    exact hs.alternative (by simp [gridAlternatives]) rfl (hs.harmonicBase _) (hs.rotation h.2)
  | stretchedSphericalHarmonicCoefficients d =>
    exact hs.alternative (by simp [gridAlternatives]) rfl (hs.harmonicBase _) (hs.stretching h.2)
  | stretchedRotatedSphericalHarmonicCoefficients d =>
    exact hs.alternative (by simp [gridAlternatives]) rfl (hs.harmonicBase _) (hs.rotationStretching h.2)
  | polarStereographProj d => exact hs.alternative (by simp [gridAlternatives]) rfl (hs.polarBase h.1) (empty_holds _)
  | millersCylindr d => exact hs.alternative (by simp [gridAlternatives]) rfl (empty_holds _) (empty_holds _)
  | simplePolyconic d => exact hs.alternative (by simp [gridAlternatives]) rfl (empty_holds _) (empty_holds _)
  | mercator d => exact hs.alternative (by simp [gridAlternatives]) rfl (hs.mercatorBase h.1) (empty_holds _)

/-! ## Properties -/

theorem Documented.timeForecast (hs : s.Documented o) (t : TimeForecast) : s.timeForecast.Holds o.timeForecast t :=
  .of_fields rfl rfl rfl <| .cons (hs.nat16 _) <| .cons (hs.nat8 _) <| .cons (hs.nat8 _) <| .cons (hs.nat8 _) <|
    .cons (hs.nat8 _) <| .cons (hs.nat32 _) <| .nil

theorem Documented.level (hs : s.Documented o) (l : Level) : s.level.Holds o.level l :=
  .of_fields rfl rfl rfl <| .cons (hs.nat8 _) <| .cons (hs.nat8 _) <| .cons (hs.nat8 _) <| .nil

theorem Documented.commonDataProperties (hs : s.Documented o) (c : CommonDataProperties) :
    s.commonDataProperties.Holds o.commonDataProperties c := by
  have h8 := fun x : Option ℕ => hs.optional s.u8 o.nat8 x fun n _ => hs.nat8 n
  exact .of_fields rfl rfl rfl <| .cons (h8 _) <| .cons (h8 _) <| .cons (h8 _) <| .nil

end Laws

/-- Fixed sizes, a flag before an optional value, and the least and the greatest of the alternatives of a variant. -/
def reference : OsterExtents where
  u8 := ⟨1, 1⟩
  u16 := ⟨2, 2⟩
  u32 := ⟨4, 4⟩
  u64 := ⟨8, 8⟩
  i16 := ⟨2, 2⟩
  int := ⟨4, 4⟩
  float := ⟨35, 35⟩
  double := ⟨263, 263⟩
  flag := ⟨1, 1⟩
  optional e := ⟨1, 1 + e.max⟩
  variant := leastAndGreatest ⟨8, 8⟩

theorem reference_documented : reference.Documented Network.reference where
  u8 _ := ⟨Nat.le_refl 1, Nat.le_refl 1⟩
  u16 _ := ⟨Nat.le_refl 2, Nat.le_refl 2⟩
  u32 _ := ⟨Nat.le_refl 4, Nat.le_refl 4⟩
  u64 _ := ⟨Nat.le_refl 8, Nat.le_refl 8⟩
  i16 _ _ := ⟨Nat.le_refl 2, Nat.le_refl 2⟩
  int _ _ := ⟨Nat.le_refl 4, Nat.le_refl 4⟩
  float _ _ := ⟨Nat.le_refl 35, Nat.le_refl 35⟩
  double _ _ := ⟨Nat.le_refl 263, Nat.le_refl 263⟩
  flag _ := ⟨Nat.le_refl 1, Nat.le_refl 1⟩
  optional e f a h := by
    cases a with
    | none => exact ⟨Nat.le_refl 1, Nat.le_add_right 1 _⟩
    | some x => exact ⟨Nat.le_add_right 1 _, Nat.add_le_add_left (h x rfl).greatest 1⟩
  variant := leastAndGreatest_covers _

end OsterExtents

end Network

/-! ## The keys of the index -/

namespace IndexedBy

open Network

/-- The key is a value of its C++ type. -/
def Fits : (q : IndexedBy) → q.Key → Prop
  | common => CommonDataProperties.Fits
  | forecast => TimeForecast.Fits
  | grid => GridInfo.Fits
  | level => Level.Fits

def format {τ π : Type} (o : OsterFormats τ π) : (q : IndexedBy) → Format q.Key
  | common => o.commonDataProperties
  | forecast => o.timeForecast
  | grid => o.gridInfo
  | level => o.level

def extent (s : OsterExtents) : IndexedBy → Extent
  | common => s.commonDataProperties
  | forecast => s.timeForecast
  | grid => s.gridInfo
  | level => s.level

variable {τ π : Type} {o : OsterFormats τ π} {s : OsterExtents}

theorem format_law (ho : o.Documented) : ∀ (q : IndexedBy) {k : q.Key}, q.Fits k → (q.format o).Law k
  | common, _, h => ho.commonDataProperties h
  | forecast, _, h => ho.timeForecast h
  | grid, _, h => ho.gridInfo h
  | level, _, h => ho.level h

theorem extent_holds (hs : s.Documented o) : ∀ (q : IndexedBy) {k : q.Key}, q.Fits k →
    (q.extent s).Holds (q.format o) k
  | common, k, _ => hs.commonDataProperties k
  | forecast, k, _ => hs.timeForecast k
  | grid, _, h => hs.gridInfo h
  | level, k, _ => hs.level k

end IndexedBy

/-- **What is written of a key is as long as its size, is read back as the key, and its size lies between those that
its type declares.**  The floating point numbers of a grid are finite. -/
theorem keys_serialized {τ π : Type} (o : Network.OsterFormats τ π) (s : Network.OsterExtents) (ho : o.Documented)
    (hs : s.Documented o) (q : IndexedBy) (k : q.Key) (h : q.Fits k) :
    (∀ order, ((q.format o).serialize order k).length = (q.format o).serialSize k ∧
      ∀ rest, (q.format o).deserialize order ((q.format o).serialize order k ++ rest) = some k) ∧
      (q.extent s).min ≤ (q.format o).serialSize k ∧ (q.format o).serialSize k ≤ (q.extent s).max := by
  have hlaw := q.format_law ho h
  have hextent := q.extent_holds hs h
  exact ⟨fun order => ⟨hlaw.size order, hlaw.reads order⟩, hextent.least, hextent.greatest⟩

/-- A rotated grid of one point. -/
def onePoint : GridInfo := .rotatedLatLon {
  base := {
    y1 := 45, x1 := 10, y2 := 45, x2 := 10, dy := 0, dx := 0, ny := 1, nx := 1, scanMode := .ofOctet 0
    resolutionAndComponentFlags := .ofOctet 128 }
  additional := { yp := -30, xp := 10, ang := 0 } }

theorem onePoint_fits : onePoint.Fits := by
  have hint : ∀ z : ℤ, |z| < 2 ^ 24 → Network.IsFloat32 z := fun z hz =>
    ⟨z, 0, hz, by decide, by decide, by simp⟩
  have h45 := hint 45 (by decide)
  have h10 := hint 10 (by decide)
  have h30 := hint (-30) (by decide)
  have h0 := hint 0 (by decide)
  refine ⟨⟨?_, ?_⟩, ?_, ?_⟩
  · simp only [List.forall_mem_cons, List.not_mem_nil, false_imp_iff, implies_true, and_true]
    exact ⟨h45, h10, h45, h10, h0, h0⟩
  · decide
  · simp only [List.forall_mem_cons, List.not_mem_nil, false_imp_iff, implies_true, and_true]
    exact ⟨h10, h30⟩
  · exact ⟨0, 0, by decide, by decide, by decide, by simp⟩

theorem onePoint_serialized :
    (∀ order rest, (IndexedBy.grid.format Network.reference).deserialize order
      ((IndexedBy.grid.format Network.reference).serialize order onePoint ++ rest) = some onePoint) ∧
      (IndexedBy.grid.format Network.reference).serialSize onePoint = 561 ∧
      561 ≤ (IndexedBy.grid.extent Network.OsterExtents.reference).max := by
  obtain ⟨hreads, -, hmax⟩ := keys_serialized Network.reference .reference Network.reference_documented
    Network.OsterExtents.reference_documented .grid onePoint onePoint_fits
  exact ⟨fun order => (hreads order).2, by decide, hmax⟩

end Mashroom
