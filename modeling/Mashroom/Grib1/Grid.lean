import Mathlib.Data.Rat.Floor
import Mashroom.OsterLib
import Mashroom.Grib1.Tables

/-!
# Grib1.Grid — the grid of a grid description section

`GridInfo` is the variant of the source: no grid, or one of 22 grid definitions, each a base read from octet 7
on and an additional part (rotation, stretching) after it.  `GridInfo.emplaceById` reads it from the section at
an offset.  `posInGrid` and `valueByRaw` have a meaning for the plain latitude/longitude grid only: for the
other alternatives the source has no such `const` member, and its visitor falls through.
-/

namespace Mashroom

/-! ## Octet accessors -/

section Accessors

variable (lib : OsterLib) (f : File)

/-- `INT2` of the two octets at `p`. -/
def int2At (p : ℕ) : Except Fault ℤ := do
  let a ← octet f p
  let b ← octet f (p + 1)
  return lib.int2 a b

/-- `INT3` of the three octets at `p`. -/
def int3At (p : ℕ) : Except Fault ℤ := do
  let a ← octet f p
  let b ← octet f (p + 1)
  let c ← octet f (p + 2)
  return lib.int3 a b c

/-- `read_bytes<2,true>` at `p`. -/
def signed2At (p : ℕ) : Except Fault ℤ := do
  let a ← octet f p
  let b ← octet f (p + 1)
  return lib.signedBytes [a, b]

/-- `read_bytes<3,true>` at `p`. -/
def signed3At (p : ℕ) : Except Fault ℤ := do
  let a ← octet f p
  let b ← octet f (p + 1)
  let c ← octet f (p + 2)
  return lib.signedBytes [a, b, c]

/-- `ibm2flt` of the four octets at `p`. -/
def ibmAt (p : ℕ) : Except Fault ℚ := do
  let a ← octet f p
  let b ← octet f (p + 1)
  let c ← octet f (p + 2)
  let d ← octet f (p + 3)
  return lib.ibm2flt a b c d

/-- A value in thousandths. -/
def milli (z : ℤ) : ℚ := z / 1000

/-- `GDS_LatLon_dx`: `INT2` of octets 24-25 unless the mode octet is zero. -/
def gdsLatLonDx (g : ℕ) : Except Fault ℤ := do
  let mode ← octet f (g + 16)
  if mode ≠ 0 then int2At lib f (g + 23) else return 0

/-- `GDS_LatLon_dy`: `INT2` of octets 26-27 unless the mode octet is zero. -/
def gdsLatLonDy (g : ℕ) : Except Fault ℤ := do
  let mode ← octet f (g + 16)
  if mode ≠ 0 then int2At lib f (g + 25) else return 0

/-- `GDS_Polar_nx`: octets 7-8 when bit 1 of the mode octet is set. -/
def gdsPolarNx (g : ℕ) : Except Fault ℕ := do
  let mode ← octet f (g + 16)
  if mode &&& 128 ≠ 0 then readBytes f (g + 6) 2 else return 0

/-- `GDS_Polar_ny`: octets 9-10 when bit 1 of the mode octet is set. -/
def gdsPolarNy (g : ℕ) : Except Fault ℕ := do
  let mode ← octet f (g + 16)
  if mode &&& 128 ≠ 0 then readBytes f (g + 8) 2 else return 0

/-- `GDS_Merc_dx`: `INT3` of octets 29-31 when bit 1 of the mode octet is set. -/
def gdsMercDx (g : ℕ) : Except Fault ℤ := do
  let mode ← octet f (g + 16)
  if mode &&& 128 ≠ 0 then int3At lib f (g + 28) else return 0

/-- `GDS_Merc_dy`: `INT3` of octets 32-34 when bit 1 of the mode octet is set. -/
def gdsMercDy (g : ℕ) : Except Fault ℤ := do
  let mode ← octet f (g + 16)
  if mode &&& 128 ≠ 0 then int3At lib f (g + 31) else return 0

end Accessors

/-! ## Base parts -/

/-- `GridBase<LAT_LON_GRID_EQUIDIST_CYLINDR>` -/
structure LatLonBase where
  y1 : ℚ
  x1 : ℚ
  y2 : ℚ
  x2 : ℚ
  dy : ℚ
  dx : ℚ
  ny : ℕ
  nx : ℕ
  scanMode : ScanMode
  resolutionAndComponentFlags : ResolutionComponentFlags
  deriving DecidableEq

/-- `GridBase<GAUSSIAN>` -/
structure GaussianBase where
  y1 : ℚ
  x1 : ℚ
  y2 : ℚ
  x2 : ℚ
  ny : ℕ
  nx : ℤ
  directionIncrement : ℕ
  N : ℕ
  scanMode : ScanMode
  resolutionAndComponentFlags : ResolutionComponentFlags
  deriving DecidableEq

/-- `GridBase<ALBERS_EQUAL_AREA>` -/
structure AlbersBase where
  y1 : ℚ
  x1 : ℚ
  LoV : ℚ
  latin1 : ℚ
  latin2 : ℚ
  Dy : ℚ
  Dx : ℚ
  latitudeSouthPole : ℚ
  longitudeSouthPole : ℚ
  ny : ℕ
  nx : ℕ
  isSouthPole : Bool
  isBipolar : Bool
  scanMode : ScanMode
  resolutionAndComponentFlags : ResolutionComponentFlags
  deriving DecidableEq

/-- `GridBase<SPHERICAL_HARMONIC_COEFFICIENTS>` -/
structure HarmonicBase where
  J : ℕ
  K : ℕ
  M : ℕ
  representationType : Bool
  repMode : TableCode
  deriving DecidableEq

/-- `GridBase<LAMBERT>` -/
structure LambertBase where
  nx : ℕ
  ny : ℕ
  y1 : ℚ
  x1 : ℚ
  resolutionAndComponentFlags : ResolutionComponentFlags
  LoV : ℚ
  dx : ℚ
  dy : ℚ
  isSouthPole : Bool
  isBipolar : Bool
  scanMode : ScanMode
  latin1 : ℚ
  latin2 : ℚ
  latitudeSouthPole : ℤ
  longitudeSouthPole : ℤ
  deriving DecidableEq

/-- `GridBase<POLAR_STEREOGRAPH_PROJ>` -/
structure PolarBase where
  nx : ℕ
  ny : ℕ
  y1 : ℚ
  x1 : ℚ
  resolutionAndComponentFlags : ResolutionComponentFlags
  LoV : ℚ
  dx : ℕ
  dy : ℕ
  isSouthPole : Bool
  scanMode : ScanMode
  deriving DecidableEq

/-- `GridBase<SPACE_VIEW>` -/
structure SpaceViewBase where
  nx : ℕ
  ny : ℕ
  y : ℚ
  x : ℚ
  resolutionAndComponentFlags : ResolutionComponentFlags
  dx : ℕ
  dy : ℕ
  xp : ℤ
  yp : ℤ
  scanMode : ScanMode
  orientation : ℕ
  nr : ℕ
  Xo : ℤ
  Yo : ℤ
  deriving DecidableEq

/-- `GridBase<MERCATOR>` -/
structure MercatorBase where
  nx : ℤ
  ny : ℤ
  y1 : ℚ
  x1 : ℚ
  resolutionAndComponentFlags : ResolutionComponentFlags
  y2 : ℚ
  x2 : ℚ
  latin : ℚ
  scanMode : ScanMode
  dy : ℚ
  dx : ℚ
  deriving DecidableEq

/-- The bases of the gnomonic, Miller, polyconic and UTM grids, which hold nothing. -/
structure EmptyBase where
  deriving DecidableEq

section Readers

variable (lib : OsterLib) (f : File) (g : ℕ)

def LatLonBase.read : Except Fault LatLonBase := do
  let nx ← readBytes f (g + 6) 2
  let ny ← readBytes f (g + 8) 2
  let y1 ← int3At lib f (g + 10)
  let x1 ← int3At lib f (g + 13)
  let mode ← octet f (g + 16)
  let y2 ← int3At lib f (g + 17)
  let x2 ← int3At lib f (g + 20)
  let dy ← gdsLatLonDy lib f g
  let dx ← gdsLatLonDx lib f g
  let scan ← octet f (g + 27)
  return {
    nx, ny
    y1 := milli y1
    x1 := milli x1
    resolutionAndComponentFlags := .ofOctet mode
    y2 := milli y2
    x2 := milli x2
    dy := milli dy
    dx := milli dx
    scanMode := .ofOctet scan }

def GaussianBase.read : Except Fault GaussianBase := do
  let y1 ← int3At lib f (g + 10)
  let x1 ← int3At lib f (g + 13)
  let y2 ← int3At lib f (g + 17)
  let x2 ← int3At lib f (g + 20)
  let nx ← readBytes f (g + 6) 2
  let ny ← readBytes f (g + 8) 2
  let dx ← gdsLatLonDx lib f g
  let n ← readBytes f (g + 25) 2
  let scan ← octet f (g + 27)
  let mode ← octet f (g + 16)
  return {
    y1 := milli y1
    x1 := milli x1
    y2 := milli y2
    x2 := milli x2
    nx := toSigned 16 nx
    ny
    directionIncrement := toUnsigned 16 dx
    N := n
    scanMode := .ofOctet scan
    resolutionAndComponentFlags := .ofOctet mode }

def AlbersBase.read : Except Fault AlbersBase := do
  let nx ← readBytes f (g + 6) 2
  let ny ← readBytes f (g + 8) 2
  let y1 ← int3At lib f (g + 10)
  let x1 ← int3At lib f (g + 13)
  let mode ← octet f (g + 16)
  let lov ← int3At lib f (g + 17)
  let dy ← int3At lib f (g + 23)
  let dx ← int3At lib f (g + 20)
  let centre ← octet f (g + 26)
  let scan ← octet f (g + 27)
  let latin1 ← int3At lib f (g + 28)
  let latin2 ← int3At lib f (g + 31)
  let latSP ← int3At lib f (g + 34)
  let lonSP ← int3At lib f (g + 37)
  return {
    nx, ny
    y1 := milli y1
    x1 := milli x1
    resolutionAndComponentFlags := .ofOctet mode
    LoV := milli lov
    Dy := milli dy
    Dx := milli dx
    isSouthPole := !(centre &&& 128 == 0)
    -- `(ptr[26]&64)==1`, which no octet satisfies
    isBipolar := centre &&& 64 == 1
    scanMode := .ofOctet scan
    latin1 := milli latin1
    latin2 := milli latin2
    latitudeSouthPole := milli latSP
    longitudeSouthPole := milli lonSP }

def HarmonicBase.read : Except Fault HarmonicBase := do
  let j ← readBytes f (g + 6) 2
  let k ← readBytes f (g + 8) 2
  let m ← readBytes f (g + 10) 2
  let type ← octet f (g + 12)
  let mode ← octet f (g + 13)
  return { J := j, K := k, M := m, representationType := type != 0, repMode := mode }

def LambertBase.read : Except Fault LambertBase := do
  let nx ← readBytes f (g + 6) 2
  let ny ← readBytes f (g + 8) 2
  let y1 ← int3At lib f (g + 10)
  let x1 ← int3At lib f (g + 13)
  let mode ← octet f (g + 16)
  let lov ← int3At lib f (g + 17)
  let dx ← int3At lib f (g + 20)
  let dy ← int3At lib f (g + 23)
  let centre ← octet f (g + 26)
  let scan ← octet f (g + 27)
  let latin1 ← int3At lib f (g + 28)
  let latin2 ← int3At lib f (g + 31)
  let latSP ← int3At lib f (g + 34)
  let lonSP ← int3At lib f (g + 37)
  return {
    nx, ny
    y1 := milli y1
    x1 := milli x1
    resolutionAndComponentFlags := .ofOctet mode
    LoV := lov
    dx := milli dx
    dy := milli dy
    isSouthPole := !(centre &&& 128 == 0)
    isBipolar := centre &&& 64 == 1
    scanMode := .ofOctet scan
    latin1 := latin1
    latin2 := latin2
    latitudeSouthPole := latSP
    longitudeSouthPole := lonSP }

def PolarBase.read : Except Fault PolarBase := do
  let nx ← gdsPolarNx f g
  let ny ← gdsPolarNy f g
  let y1 ← int3At lib f (g + 10)
  let x1 ← int3At lib f (g + 13)
  let mode ← octet f (g + 16)
  let lov ← int3At lib f (g + 17)
  let dx ← int3At lib f (g + 20)
  let dy ← int3At lib f (g + 23)
  let centre ← octet f (g + 26)
  return {
    nx, ny
    y1 := milli y1
    x1 := milli x1
    resolutionAndComponentFlags := .ofOctet mode
    LoV := milli lov
    dx := toUnsigned 32 dx
    dy := toUnsigned 32 dy
    isSouthPole := centre &&& 128 == 0
    -- the scan mode is read from the resolution octet
    scanMode := .ofOctet mode }

def SpaceViewBase.read : Except Fault SpaceViewBase := do
  let nx ← gdsPolarNx f g
  let ny ← gdsPolarNy f g
  let y ← int3At lib f (g + 10)
  let x ← int3At lib f (g + 13)
  let mode ← octet f (g + 16)
  let dx ← readBytes f (g + 17) 3
  let dy ← readBytes f (g + 20) 3
  let xp ← signed2At lib f (g + 23)
  let yp ← signed2At lib f (g + 25)
  let scan ← octet f (g + 27)
  let orientation ← readBytes f (g + 28) 3
  let nr ← readBytes f (g + 31) 3
  let xo ← signed2At lib f (g + 34)
  let yo ← signed2At lib f (g + 36)
  return {
    nx, ny
    y := milli y
    x := milli x
    resolutionAndComponentFlags := .ofOctet mode
    dx, dy
    xp := toSigned 16 xp
    yp := toSigned 16 yp
    scanMode := .ofOctet scan
    orientation, nr
    Xo := toSigned 16 xo
    Yo := toSigned 16 yo }

def MercatorBase.read : Except Fault MercatorBase := do
  let nx ← readBytes f (g + 6) 2
  -- the row count is read from the increment
  let ny ← gdsMercDy lib f g
  let y1 ← int3At lib f (g + 10)
  let x1 ← int3At lib f (g + 13)
  let mode ← octet f (g + 16)
  let y2 ← int3At lib f (g + 17)
  let x2 ← int3At lib f (g + 20)
  let latin ← int3At lib f (g + 23)
  let scan ← octet f (g + 27)
  let dy ← gdsMercDy lib f g
  let dx ← gdsMercDx lib f g
  return {
    nx := toSigned 16 nx
    ny := toSigned 16 ny
    y1, x1
    resolutionAndComponentFlags := .ofOctet mode
    y2, x2, latin
    scanMode := .ofOctet scan
    dy, dx }

end Readers

/-! ## Additional parts -/

/-- `GridAdditional<_,NONE>` -/
structure NoAdditional where
  deriving DecidableEq

/-- `GridAdditional<_,ROTATION>` -/
structure Rotation where
  yp : ℚ
  xp : ℚ
  ang : ℚ
  deriving DecidableEq

/-- `GridAdditional<_,STRETCHING>` -/
structure Stretching where
  ysp : ℚ
  xsp : ℚ
  sFactor : ℚ
  deriving DecidableEq

/-- `GridAdditional<_,ROTATION_STRETCHING>` -/
structure RotationStretching where
  rot : Rotation
  stretch : Stretching
  deriving DecidableEq

section Readers

variable (lib : OsterLib) (f : File) (g : ℕ)

/-- The additional part starts at `begin_byte()`, which for every base that has one is 32. -/
def additionalBeginByte : ℕ := 6 + 26

def Rotation.read : Except Fault Rotation := do
  let yp ← signed3At lib f (g + additionalBeginByte)
  let xp ← signed3At lib f (g + additionalBeginByte + 3)
  let ang ← ibmAt lib f (g + additionalBeginByte + 6)
  return { yp := lib.toFloat yp, xp := lib.toFloat xp, ang }

def Stretching.read : Except Fault Stretching := do
  let ysp ← signed3At lib f (g + additionalBeginByte)
  let xsp ← signed3At lib f (g + additionalBeginByte + 3)
  let sFactor ← ibmAt lib f (g + additionalBeginByte + 6)
  return { ysp := lib.toFloat ysp, xsp := lib.toFloat xsp, sFactor }

/-- Both parts are read from the same octets. -/
def RotationStretching.read : Except Fault RotationStretching := do
  let rot ← Rotation.read lib f g
  let stretch ← Stretching.read lib f g
  return { rot, stretch }

end Readers

/-! ## The variant -/

/-- `GridDefinitionBase`: a base part and an additional part. -/
structure GridDefinition (B A : Type) where
  base : B
  additional : A
  deriving DecidableEq

/-- A grid definition is its base read, then its additional part. -/
def readDefinition {B A : Type} (base : Except Fault B) (additional : Except Fault A) :
    Except Fault (GridDefinition B A) := do
  let base ← base
  let additional ← additional
  return { base, additional }

/-- `GridInfo`: no grid, or a grid definition. -/
inductive GridInfo where
  | monostate
  | latLon (d : GridDefinition LatLonBase NoAdditional)
  | rotatedLatLon (d : GridDefinition LatLonBase Rotation)
  | stretchedLatLon (d : GridDefinition LatLonBase Stretching)
  | stretchedAndRotatedLatLon (d : GridDefinition LatLonBase RotationStretching)
  | gaussian (d : GridDefinition GaussianBase NoAdditional)
  | rotatedGaussianLatLon (d : GridDefinition GaussianBase Rotation)
  | stretchedGaussianLatLon (d : GridDefinition GaussianBase Stretching)
  | stretchedRotatedGaussianLatLon (d : GridDefinition GaussianBase RotationStretching)
  | lambert (d : GridDefinition LambertBase NoAdditional)
  | obliqueLambertConformal (d : GridDefinition LambertBase NoAdditional)
  | utm (d : GridDefinition EmptyBase NoAdditional)
  | albersEqualArea (d : GridDefinition AlbersBase NoAdditional)
  | spaceView (d : GridDefinition SpaceViewBase NoAdditional)
  | gnomonic (d : GridDefinition EmptyBase NoAdditional)
  | sphericalHarmonicCoefficients (d : GridDefinition HarmonicBase NoAdditional)
  | rotatedSphericalHarmonicCoefficients (d : GridDefinition HarmonicBase Rotation)
  | stretchedSphericalHarmonicCoefficients (d : GridDefinition HarmonicBase Stretching)
  | stretchedRotatedSphericalHarmonicCoefficients (d : GridDefinition HarmonicBase RotationStretching)
  | polarStereographProj (d : GridDefinition PolarBase NoAdditional)
  | millersCylindr (d : GridDefinition EmptyBase NoAdditional)
  | simplePolyconic (d : GridDefinition EmptyBase NoAdditional)
  | mercator (d : GridDefinition MercatorBase NoAdditional)
  deriving DecidableEq

namespace GridInfo

/-- `GridInfo::type`: the representation type of the *base*, so a modified grid reports the plain one. -/
def type : GridInfo → RepresentationType
  | monostate => .undefGrid
  | latLon _ | rotatedLatLon _ | stretchedLatLon _ | stretchedAndRotatedLatLon _ => .latLonGridEquidistCylindr
  | gaussian _ | rotatedGaussianLatLon _ | stretchedGaussianLatLon _ | stretchedRotatedGaussianLatLon _ =>
    .gaussian
  | lambert _ | obliqueLambertConformal _ => .lambert
  | utm _ => .utm
  | albersEqualArea _ => .albersEqualArea
  | spaceView _ => .spaceView
  | gnomonic _ => .gnomonic
  | sphericalHarmonicCoefficients _ | rotatedSphericalHarmonicCoefficients _
  | stretchedSphericalHarmonicCoefficients _ | stretchedRotatedSphericalHarmonicCoefficients _ =>
    .sphericalHarmonicCoefficients
  | polarStereographProj _ => .polarStereographProj
  | millersCylindr _ => .millersCylindr
  | simplePolyconic _ => .simplePolyconic
  | mercator _ => .mercator

/-- `GridInfo::has_grid` -/
def hasGrid : GridInfo → Bool
  | monostate => false
  | _ => true

section Read

variable (lib : OsterLib) (f : File) (g : ℕ)

/-- `emplace_by_id(id,buffer)`: an octet that names no alternative leaves the variant without a grid. -/
def emplaceById (id : ℕ) : Except Fault GridInfo :=
  match RepresentationType.ofOctet id with
  | none | some .undefGrid => return monostate
  | some .latLonGridEquidistCylindr => latLon <$> readDefinition (LatLonBase.read lib f g) (.ok {})
  | some .rotatedLatLon => rotatedLatLon <$> readDefinition (LatLonBase.read lib f g) (Rotation.read lib f g)
  | some .stretchedLatLon => stretchedLatLon <$> readDefinition (LatLonBase.read lib f g) (Stretching.read lib f g)
  | some .stretchedAndRotatedLatLon =>
    stretchedAndRotatedLatLon <$> readDefinition (LatLonBase.read lib f g) (RotationStretching.read lib f g)
  | some .gaussian => gaussian <$> readDefinition (GaussianBase.read lib f g) (.ok {})
  | some .rotatedGaussianLatLon =>
    rotatedGaussianLatLon <$> readDefinition (GaussianBase.read lib f g) (Rotation.read lib f g)
  | some .stretchedGaussianLatLon =>
    stretchedGaussianLatLon <$> readDefinition (GaussianBase.read lib f g) (Stretching.read lib f g)
  | some .stretchedRotatedGaussianLatLon =>
    stretchedRotatedGaussianLatLon <$> readDefinition (GaussianBase.read lib f g) (RotationStretching.read lib f g)
  | some .lambert => lambert <$> readDefinition (LambertBase.read lib f g) (.ok {})
  | some .obliqueLambertConformal => obliqueLambertConformal <$> readDefinition (LambertBase.read lib f g) (.ok {})
  | some .utm => utm <$> readDefinition (.ok {}) (.ok {})
  | some .albersEqualArea => albersEqualArea <$> readDefinition (AlbersBase.read lib f g) (.ok {})
  | some .spaceView => spaceView <$> readDefinition (SpaceViewBase.read lib f g) (.ok {})
  | some .gnomonic => gnomonic <$> readDefinition (.ok {}) (.ok {})
  | some .sphericalHarmonicCoefficients =>
    sphericalHarmonicCoefficients <$> readDefinition (HarmonicBase.read f g) (.ok {})
  | some .rotatedSphericalHarmonicCoefficients =>
    rotatedSphericalHarmonicCoefficients <$> readDefinition (HarmonicBase.read f g) (Rotation.read lib f g)
  | some .stretchedSphericalHarmonicCoefficients =>
    stretchedSphericalHarmonicCoefficients <$> readDefinition (HarmonicBase.read f g) (Stretching.read lib f g)
  | some .stretchedRotatedSphericalHarmonicCoefficients =>
    stretchedRotatedSphericalHarmonicCoefficients <$>
      readDefinition (HarmonicBase.read f g) (RotationStretching.read lib f g)
  | some .polarStereographProj => polarStereographProj <$> readDefinition (PolarBase.read lib f g) (.ok {})
  | some .millersCylindr => millersCylindr <$> readDefinition (.ok {}) (.ok {})
  | some .simplePolyconic => simplePolyconic <$> readDefinition (.ok {}) (.ok {})
  | some .mercator => mercator <$> readDefinition (MercatorBase.read lib f g) (.ok {})

end Read

end GridInfo

/-! ## The length of a section -/

/-- `begin_byte() + section_size()`: the octets a section with the grid must have. -/
def gridOctets : RepresentationType → ℕ
  | .undefGrid | .utm | .gnomonic | .millersCylindr | .simplePolyconic => 6
  | .latLonGridEquidistCylindr | .gaussian | .sphericalHarmonicCoefficients | .polarStereographProj => 6 + 26
  | .rotatedLatLon | .stretchedLatLon | .rotatedGaussianLatLon | .stretchedGaussianLatLon
  | .rotatedSphericalHarmonicCoefficients | .stretchedSphericalHarmonicCoefficients => 6 + (26 + 10)
  | .stretchedAndRotatedLatLon | .stretchedRotatedGaussianLatLon
  | .stretchedRotatedSphericalHarmonicCoefficients => 6 + (26 + 20)
  | .lambert | .obliqueLambertConformal | .albersEqualArea | .mercator => 6 + 36
  | .spaceView => 6 + 38

/-! ## Positions -/

/-- The member `pos_in_grid` of the plain latitude/longitude grid. -/
def LatLonBase.posInGrid (b : LatLonBase) (pos : Coord) : Bool :=
  !(decide (pos.lat < b.y2) || decide (b.y1 < pos.lat) || decide (pos.lon < b.x1) || decide (b.x2 < pos.lon))

/-- The conversion of a floating point value to `int`, towards zero. -/
def ratToInt (q : ℚ) : Except Fault ℤ := cInt (q.num.tdiv q.den)

/-- The member `value_by_raw` of the plain latitude/longitude grid.  A zero increment makes the quotient
infinite or not a number, which has no conversion to `int`. -/
def LatLonBase.valueByRaw (b : LatLonBase) (pos : Coord) : Except Fault ℤ :=
  if b.dx = 0 ∨ b.dy = 0 then .error .arithmetic
  else
    ratToInt ((if b.x2 < b.x1 then pos.lon - b.x2 else pos.lon - b.x1) / b.dx + 1 +
      b.nx * (if b.y2 < b.y1 then b.y1 - pos.lat else pos.lat - b.y1) / b.dy)

/-- `pos_in_grid` -/
def posInGrid (pos : Coord) : GridInfo → Bool
  | .latLon d => d.base.posInGrid pos
  | _ => false

/-- `value_by_raw`: `INT_MIN` for a grid without the member. -/
def valueByRaw (lib : OsterLib) (pos : Coord) (grid : GridInfo) : Except Fault ℤ :=
  if lib.isCorrectPos pos then
    match grid with
    | .latLon d => d.base.valueByRaw pos
    | _ => .ok (-2 ^ 31)
  else ratToInt lib.undefined

end Mashroom
