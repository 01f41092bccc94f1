import Mashroom.Grib1.Section

/-!
# Grib1.Decoded — what the readers of a grid give

Where its octets are in the file, each reader gives what its accessors make of them: `decoded` is that value, with no
check, and `read_ok` says so.
-/

namespace Mashroom

/-! ## Accessors -/

section Accessors

variable (lib : OsterLib) (f : File) (p g : ℕ)

def int2Of : ℤ := lib.int2 (Octets.octet f p) (Octets.octet f (p + 1))

def int3Of : ℤ := lib.int3 (Octets.octet f p) (Octets.octet f (p + 1)) (Octets.octet f (p + 2))

def signed2Of : ℤ := lib.signedBytes [Octets.octet f p, Octets.octet f (p + 1)]

def signed3Of : ℤ := lib.signedBytes [Octets.octet f p, Octets.octet f (p + 1), Octets.octet f (p + 2)]

def ibmOf : ℚ :=
  lib.ibm2flt (Octets.octet f p) (Octets.octet f (p + 1)) (Octets.octet f (p + 2)) (Octets.octet f (p + 3))

/-- The resolution and component flags, octet 17. -/
def modeOf : ℕ := Octets.octet f (g + 16)

def latLonDxOf : ℤ := if modeOf f g ≠ 0 then int2Of lib f (g + 23) else 0

def latLonDyOf : ℤ := if modeOf f g ≠ 0 then int2Of lib f (g + 25) else 0

def polarNxOf : ℕ := if modeOf f g &&& 128 ≠ 0 then Octets.be f (g + 6) 2 else 0

def polarNyOf : ℕ := if modeOf f g &&& 128 ≠ 0 then Octets.be f (g + 8) 2 else 0

def mercDxOf : ℤ := if modeOf f g &&& 128 ≠ 0 then int3Of lib f (g + 28) else 0

def mercDyOf : ℤ := if modeOf f g &&& 128 ≠ 0 then int3Of lib f (g + 31) else 0

theorem milli_inj {a b : ℤ} : milli a = milli b ↔ a = b := by
  rw [milli, milli, div_left_inj' (by norm_num), Int.cast_inj]

variable {lib f p g}

theorem int2At_ok (h : p + 2 ≤ f.length) : int2At lib f p = .ok (int2Of lib f p) := by
  simp (disch := omega) only [int2At, octet_ok, ok_bind, pure_eq_ok, int2Of]

theorem int3At_ok (h : p + 3 ≤ f.length) : int3At lib f p = .ok (int3Of lib f p) := by
  simp (disch := omega) only [int3At, octet_ok, ok_bind, pure_eq_ok, int3Of]

theorem signed2At_ok (h : p + 2 ≤ f.length) : signed2At lib f p = .ok (signed2Of lib f p) := by
  simp (disch := omega) only [signed2At, octet_ok, ok_bind, pure_eq_ok, signed2Of]

theorem signed3At_ok (h : p + 3 ≤ f.length) : signed3At lib f p = .ok (signed3Of lib f p) := by
  simp (disch := omega) only [signed3At, octet_ok, ok_bind, pure_eq_ok, signed3Of]

theorem ibmAt_ok (h : p + 4 ≤ f.length) : ibmAt lib f p = .ok (ibmOf lib f p) := by
  simp (disch := omega) only [ibmAt, octet_ok, ok_bind, pure_eq_ok, ibmOf]

theorem ite_ok {c : Prop} [Decidable c] {α : Type} (a b : α) :
    (if c then .ok a else .ok b : Except Fault α) = .ok (if c then a else b) := by
  split <;> rfl

theorem gdsLatLonDx_ok (h : g + 28 ≤ f.length) : gdsLatLonDx lib f g = .ok (latLonDxOf lib f g) := by
  simp (disch := omega) only [gdsLatLonDx, octet_ok, int2At_ok, ok_bind, pure_eq_ok, ite_ok]
  rfl

theorem gdsLatLonDy_ok (h : g + 28 ≤ f.length) : gdsLatLonDy lib f g = .ok (latLonDyOf lib f g) := by
  simp (disch := omega) only [gdsLatLonDy, octet_ok, int2At_ok, ok_bind, pure_eq_ok, ite_ok]
  rfl

theorem gdsPolarNx_ok (h : g + 17 ≤ f.length) : gdsPolarNx f g = .ok (polarNxOf f g) := by
  simp (disch := omega) only [gdsPolarNx, octet_ok, readBytes_ok, ok_bind, pure_eq_ok, ite_ok]
  rfl

theorem gdsPolarNy_ok (h : g + 17 ≤ f.length) : gdsPolarNy f g = .ok (polarNyOf f g) := by
  simp (disch := omega) only [gdsPolarNy, octet_ok, readBytes_ok, ok_bind, pure_eq_ok, ite_ok]
  rfl

theorem gdsMercDx_ok (h : g + 34 ≤ f.length) : gdsMercDx lib f g = .ok (mercDxOf lib f g) := by
  simp (disch := omega) only [gdsMercDx, octet_ok, int3At_ok, ok_bind, pure_eq_ok, ite_ok]
  rfl

theorem gdsMercDy_ok (h : g + 34 ≤ f.length) : gdsMercDy lib f g = .ok (mercDyOf lib f g) := by
  simp (disch := omega) only [gdsMercDy, octet_ok, int3At_ok, ok_bind, pure_eq_ok, ite_ok]
  rfl

end Accessors

/-! ## Bases and additional parts -/

section Bases

variable (lib : OsterLib) (f : File) (g : ℕ)

def LatLonBase.decoded : LatLonBase where
  nx := Octets.be f (g + 6) 2
  ny := Octets.be f (g + 8) 2
  y1 := milli (int3Of lib f (g + 10))
  x1 := milli (int3Of lib f (g + 13))
  resolutionAndComponentFlags := .ofOctet (modeOf f g)
  y2 := milli (int3Of lib f (g + 17))
  x2 := milli (int3Of lib f (g + 20))
  dy := milli (latLonDyOf lib f g)
  dx := milli (latLonDxOf lib f g)
  scanMode := .ofOctet (Octets.octet f (g + 27))

def GaussianBase.decoded : GaussianBase where
  y1 := milli (int3Of lib f (g + 10))
  x1 := milli (int3Of lib f (g + 13))
  y2 := milli (int3Of lib f (g + 17))
  x2 := milli (int3Of lib f (g + 20))
  nx := toSigned 16 (Octets.be f (g + 6) 2)
  ny := Octets.be f (g + 8) 2
  directionIncrement := toUnsigned 16 (latLonDxOf lib f g)
  N := Octets.be f (g + 25) 2
  scanMode := .ofOctet (Octets.octet f (g + 27))
  resolutionAndComponentFlags := .ofOctet (modeOf f g)

def AlbersBase.decoded : AlbersBase where
  nx := Octets.be f (g + 6) 2
  ny := Octets.be f (g + 8) 2
  y1 := milli (int3Of lib f (g + 10))
  x1 := milli (int3Of lib f (g + 13))
  resolutionAndComponentFlags := .ofOctet (modeOf f g)
  LoV := milli (int3Of lib f (g + 17))
  Dy := milli (int3Of lib f (g + 23))
  Dx := milli (int3Of lib f (g + 20))
  isSouthPole := !(Octets.octet f (g + 26) &&& 128 == 0)
  isBipolar := Octets.octet f (g + 26) &&& 64 == 1
  scanMode := .ofOctet (Octets.octet f (g + 27))
  latin1 := milli (int3Of lib f (g + 28))
  latin2 := milli (int3Of lib f (g + 31))
  latitudeSouthPole := milli (int3Of lib f (g + 34))
  longitudeSouthPole := milli (int3Of lib f (g + 37))

def HarmonicBase.decoded : HarmonicBase where
  J := Octets.be f (g + 6) 2
  K := Octets.be f (g + 8) 2
  M := Octets.be f (g + 10) 2
  representationType := Octets.octet f (g + 12) != 0
  repMode := Octets.octet f (g + 13)

def LambertBase.decoded : LambertBase where
  nx := Octets.be f (g + 6) 2
  ny := Octets.be f (g + 8) 2
  y1 := milli (int3Of lib f (g + 10))
  x1 := milli (int3Of lib f (g + 13))
  resolutionAndComponentFlags := .ofOctet (modeOf f g)
  LoV := int3Of lib f (g + 17)
  dx := milli (int3Of lib f (g + 20))
  dy := milli (int3Of lib f (g + 23))
  isSouthPole := !(Octets.octet f (g + 26) &&& 128 == 0)
  isBipolar := Octets.octet f (g + 26) &&& 64 == 1
  scanMode := .ofOctet (Octets.octet f (g + 27))
  latin1 := int3Of lib f (g + 28)
  latin2 := int3Of lib f (g + 31)
  latitudeSouthPole := int3Of lib f (g + 34)
  longitudeSouthPole := int3Of lib f (g + 37)

def PolarBase.decoded : PolarBase where
  nx := polarNxOf f g
  ny := polarNyOf f g
  y1 := milli (int3Of lib f (g + 10))
  x1 := milli (int3Of lib f (g + 13))
  resolutionAndComponentFlags := .ofOctet (modeOf f g)
  LoV := milli (int3Of lib f (g + 17))
  dx := toUnsigned 32 (int3Of lib f (g + 20))
  dy := toUnsigned 32 (int3Of lib f (g + 23))
  isSouthPole := Octets.octet f (g + 26) &&& 128 == 0
  scanMode := .ofOctet (modeOf f g)

def SpaceViewBase.decoded : SpaceViewBase where
  nx := polarNxOf f g
  ny := polarNyOf f g
  y := milli (int3Of lib f (g + 10))
  x := milli (int3Of lib f (g + 13))
  resolutionAndComponentFlags := .ofOctet (modeOf f g)
  dx := Octets.be f (g + 17) 3
  dy := Octets.be f (g + 20) 3
  xp := toSigned 16 (signed2Of lib f (g + 23))
  yp := toSigned 16 (signed2Of lib f (g + 25))
  scanMode := .ofOctet (Octets.octet f (g + 27))
  orientation := Octets.be f (g + 28) 3
  nr := Octets.be f (g + 31) 3
  Xo := toSigned 16 (signed2Of lib f (g + 34))
  Yo := toSigned 16 (signed2Of lib f (g + 36))

def MercatorBase.decoded : MercatorBase where
  nx := toSigned 16 (Octets.be f (g + 6) 2)
  ny := toSigned 16 (mercDyOf lib f g)
  y1 := int3Of lib f (g + 10)
  x1 := int3Of lib f (g + 13)
  resolutionAndComponentFlags := .ofOctet (modeOf f g)
  y2 := int3Of lib f (g + 17)
  x2 := int3Of lib f (g + 20)
  latin := int3Of lib f (g + 23)
  scanMode := .ofOctet (Octets.octet f (g + 27))
  dy := mercDyOf lib f g
  dx := mercDxOf lib f g

def Rotation.decoded : Rotation where
  yp := lib.toFloat (signed3Of lib f (g + 32))
  xp := lib.toFloat (signed3Of lib f (g + 32 + 3))
  ang := ibmOf lib f (g + 32 + 6)

def Stretching.decoded : Stretching where
  ysp := lib.toFloat (signed3Of lib f (g + 32))
  xsp := lib.toFloat (signed3Of lib f (g + 32 + 3))
  sFactor := ibmOf lib f (g + 32 + 6)

def RotationStretching.decoded : RotationStretching where
  rot := Rotation.decoded lib f g
  stretch := Stretching.decoded lib f g

variable {lib f g}

theorem LatLonBase.read_ok (h : g + 28 ≤ f.length) : LatLonBase.read lib f g = .ok (LatLonBase.decoded lib f g) := by
  simp (disch := omega) only [LatLonBase.read, readBytes_ok, int3At_ok, octet_ok, gdsLatLonDy_ok, gdsLatLonDx_ok,
    ok_bind, pure_eq_ok]
  rfl

theorem GaussianBase.read_ok (h : g + 28 ≤ f.length) :
    GaussianBase.read lib f g = .ok (GaussianBase.decoded lib f g) := by
  simp (disch := omega) only [GaussianBase.read, readBytes_ok, int3At_ok, octet_ok, gdsLatLonDx_ok, ok_bind,
    pure_eq_ok]
  rfl

theorem AlbersBase.read_ok (h : g + 40 ≤ f.length) : AlbersBase.read lib f g = .ok (AlbersBase.decoded lib f g) := by
  simp (disch := omega) only [AlbersBase.read, readBytes_ok, int3At_ok, octet_ok, ok_bind, pure_eq_ok]
  rfl

theorem HarmonicBase.read_ok (h : g + 14 ≤ f.length) : HarmonicBase.read f g = .ok (HarmonicBase.decoded f g) := by
  simp (disch := omega) only [HarmonicBase.read, readBytes_ok, octet_ok, ok_bind, pure_eq_ok]
  rfl

theorem LambertBase.read_ok (h : g + 40 ≤ f.length) :
    LambertBase.read lib f g = .ok (LambertBase.decoded lib f g) := by
  simp (disch := omega) only [LambertBase.read, readBytes_ok, int3At_ok, octet_ok, ok_bind, pure_eq_ok]
  rfl

theorem PolarBase.read_ok (h : g + 27 ≤ f.length) : PolarBase.read lib f g = .ok (PolarBase.decoded lib f g) := by
  simp (disch := omega) only [PolarBase.read, gdsPolarNx_ok, gdsPolarNy_ok, int3At_ok, octet_ok, ok_bind, pure_eq_ok]
  rfl

theorem SpaceViewBase.read_ok (h : g + 38 ≤ f.length) :
    SpaceViewBase.read lib f g = .ok (SpaceViewBase.decoded lib f g) := by
  simp (disch := omega) only [SpaceViewBase.read, gdsPolarNx_ok, gdsPolarNy_ok, readBytes_ok, int3At_ok, signed2At_ok,
    octet_ok, ok_bind, pure_eq_ok]
  rfl

theorem MercatorBase.read_ok (h : g + 34 ≤ f.length) :
    MercatorBase.read lib f g = .ok (MercatorBase.decoded lib f g) := by
  simp (disch := omega) only [MercatorBase.read, gdsMercDx_ok, gdsMercDy_ok, readBytes_ok, int3At_ok, octet_ok,
    ok_bind, pure_eq_ok]
  rfl

theorem Rotation.read_ok (h : g + 42 ≤ f.length) : Rotation.read lib f g = .ok (Rotation.decoded lib f g) := by
  simp (disch := omega) only [Rotation.read, additionalBeginByte, signed3At_ok, ibmAt_ok, ok_bind, pure_eq_ok]
  rfl

theorem Stretching.read_ok (h : g + 42 ≤ f.length) : Stretching.read lib f g = .ok (Stretching.decoded lib f g) := by
  simp (disch := omega) only [Stretching.read, additionalBeginByte, signed3At_ok, ibmAt_ok, ok_bind, pure_eq_ok]
  rfl

theorem RotationStretching.read_ok (h : g + 42 ≤ f.length) :
    RotationStretching.read lib f g = .ok (RotationStretching.decoded lib f g) := by
  rw [RotationStretching.read, Rotation.read_ok h, ok_bind, Stretching.read_ok h]
  rfl

theorem readDefinition_ok {B A : Type} (b : B) (a : A) : readDefinition (.ok b) (.ok a) = .ok ⟨b, a⟩ := rfl

end Bases

/-! ## The variant -/

namespace GridInfo

variable (lib : OsterLib) (f : File) (g : ℕ)

def decoded : RepresentationType → GridInfo
  | .undefGrid => monostate
  | .latLonGridEquidistCylindr => latLon ⟨LatLonBase.decoded lib f g, {}⟩
  | .rotatedLatLon => rotatedLatLon ⟨LatLonBase.decoded lib f g, Rotation.decoded lib f g⟩
  | .stretchedLatLon => stretchedLatLon ⟨LatLonBase.decoded lib f g, Stretching.decoded lib f g⟩
  | .stretchedAndRotatedLatLon =>
    stretchedAndRotatedLatLon ⟨LatLonBase.decoded lib f g, RotationStretching.decoded lib f g⟩
  | .gaussian => gaussian ⟨GaussianBase.decoded lib f g, {}⟩
  | .rotatedGaussianLatLon => rotatedGaussianLatLon ⟨GaussianBase.decoded lib f g, Rotation.decoded lib f g⟩
  | .stretchedGaussianLatLon => stretchedGaussianLatLon ⟨GaussianBase.decoded lib f g, Stretching.decoded lib f g⟩
  | .stretchedRotatedGaussianLatLon =>
    stretchedRotatedGaussianLatLon ⟨GaussianBase.decoded lib f g, RotationStretching.decoded lib f g⟩
  | .lambert => lambert ⟨LambertBase.decoded lib f g, {}⟩
  | .obliqueLambertConformal => obliqueLambertConformal ⟨LambertBase.decoded lib f g, {}⟩
  | .utm => utm ⟨{}, {}⟩
  | .albersEqualArea => albersEqualArea ⟨AlbersBase.decoded lib f g, {}⟩
  | .spaceView => spaceView ⟨SpaceViewBase.decoded lib f g, {}⟩
  | .gnomonic => gnomonic ⟨{}, {}⟩
  | .sphericalHarmonicCoefficients => sphericalHarmonicCoefficients ⟨HarmonicBase.decoded f g, {}⟩
  | .rotatedSphericalHarmonicCoefficients =>
    rotatedSphericalHarmonicCoefficients ⟨HarmonicBase.decoded f g, Rotation.decoded lib f g⟩
  | .stretchedSphericalHarmonicCoefficients =>
    stretchedSphericalHarmonicCoefficients ⟨HarmonicBase.decoded f g, Stretching.decoded lib f g⟩
  | .stretchedRotatedSphericalHarmonicCoefficients =>
    stretchedRotatedSphericalHarmonicCoefficients ⟨HarmonicBase.decoded f g, RotationStretching.decoded lib f g⟩
  | .polarStereographProj => polarStereographProj ⟨PolarBase.decoded lib f g, {}⟩
  | .millersCylindr => millersCylindr ⟨{}, {}⟩
  | .simplePolyconic => simplePolyconic ⟨{}, {}⟩
  | .mercator => mercator ⟨MercatorBase.decoded lib f g, {}⟩

variable {lib f g}

/-- A grid whose octets are all in the file is read. -/
theorem emplaceById_ok {id : ℕ} {r : RepresentationType} (hr : RepresentationType.ofOctet id = some r)
    (h : g + gridOctets r ≤ f.length) : emplaceById lib f g id = .ok (decoded lib f g r) := by
  cases r <;> simp only [gridOctets] at h <;>
    simp (disch := omega) only [emplaceById, hr, LatLonBase.read_ok, GaussianBase.read_ok, LambertBase.read_ok,
      AlbersBase.read_ok, SpaceViewBase.read_ok, HarmonicBase.read_ok, PolarBase.read_ok, MercatorBase.read_ok,
      Rotation.read_ok, Stretching.read_ok, RotationStretching.read_ok, readDefinition_ok] <;> rfl

theorem emplaceById_defined {id : ℕ} (h : ∀ r, RepresentationType.ofOctet id = some r → g + gridOctets r ≤ f.length) :
    Defined (emplaceById lib f g id) := by
  cases hr : RepresentationType.ofOctet id with
  | none =>
    rw [emplaceById, hr]
    exact .ok _
  | some r => exact ⟨_, emplaceById_ok hr (h r hr)⟩

end GridInfo

/-- A section whose octets are all in the file gives the grid of its type. -/
theorem GridDescriptionSection.defineGrid_ok {lib : OsterLib} {f : File} {g : ℕ} {r : RepresentationType}
    (hr : RepresentationType.ofOctet (Octets.octet f (g + 5)) = some r) (hlen : g + gridOctets r ≤ f.length) :
    defineGrid ⟨some g⟩ lib f = .ok (GridInfo.decoded lib f g r) := by
  have hsize : 6 ≤ gridOctets r := by cases r <;> decide
  rw [defineGrid, getRepresentationType, deref_some, ok_bind, octet_ok (by omega), ok_bind, ok_bind,
    GridInfo.emplaceById_ok hr hlen]

end Mashroom
