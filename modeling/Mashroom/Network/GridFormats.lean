import Mashroom.Network.Formats

/-!
# Network.GridFormats — how grids are written

The bases and the additional parts list their fields; `GridInfo` is the index of its alternative, and the grid
definition.
-/

namespace Mashroom

open Network

/-! ## The values of the C++ types -/

structure LatLonBase.Fits (b : LatLonBase) : Prop where
  float : ∀ x ∈ [b.y1, b.x1, b.y2, b.x2, b.dy, b.dx], IsFloat32 x
  nat16 : ∀ n ∈ [b.ny, b.nx], n < 2 ^ 16

structure GaussianBase.Fits (b : GaussianBase) : Prop where
  float : ∀ x ∈ [b.y1, b.x1, b.y2, b.x2], IsFloat32 x
  nat16 : ∀ n ∈ [b.ny, b.directionIncrement, b.N], n < 2 ^ 16
  i16 : -2 ^ 15 ≤ b.nx ∧ b.nx < 2 ^ 15

structure AlbersBase.Fits (b : AlbersBase) : Prop where
  float : ∀ x ∈ [b.y1, b.x1, b.LoV, b.Dx, b.Dy, b.latin1, b.latin2, b.latitudeSouthPole,
    b.longitudeSouthPole], IsFloat32 x
  nat16 : ∀ n ∈ [b.nx, b.ny], n < 2 ^ 16

structure HarmonicBase.Fits (b : HarmonicBase) : Prop where
  nat8 : b.repMode < 2 ^ 8
  nat16 : ∀ n ∈ [b.J, b.K, b.M], n < 2 ^ 16

structure LambertBase.Fits (b : LambertBase) : Prop where
  float : ∀ x ∈ [b.y1, b.x1, b.LoV, b.dx, b.dy, b.latin1, b.latin2], IsFloat32 x
  nat16 : ∀ n ∈ [b.nx, b.ny], n < 2 ^ 16
  int : ∀ z ∈ [b.latitudeSouthPole, b.longitudeSouthPole], -2 ^ 31 ≤ z ∧ z < 2 ^ 31

structure PolarBase.Fits (b : PolarBase) : Prop where
  float : ∀ x ∈ [b.y1, b.x1, b.LoV], IsFloat32 x
  nat16 : ∀ n ∈ [b.nx, b.ny], n < 2 ^ 16
  nat32 : ∀ n ∈ [b.dx, b.dy], n < 2 ^ 32

structure SpaceViewBase.Fits (b : SpaceViewBase) : Prop where
  float : ∀ x ∈ [b.y, b.x], IsFloat32 x
  nat16 : ∀ n ∈ [b.nx, b.ny], n < 2 ^ 16
  nat32 : ∀ n ∈ [b.dx, b.dy, b.orientation, b.nr], n < 2 ^ 32
  i16 : ∀ z ∈ [b.xp, b.yp, b.Xo, b.Yo], -2 ^ 15 ≤ z ∧ z < 2 ^ 15

structure MercatorBase.Fits (b : MercatorBase) : Prop where
  float : ∀ x ∈ [b.y1, b.x1, b.y2, b.x2, b.latin, b.dy, b.dx], IsFloat32 x
  i16 : ∀ z ∈ [b.nx, b.ny], -2 ^ 15 ≤ z ∧ z < 2 ^ 15

structure Rotation.Fits (r : Rotation) : Prop where
  float : ∀ x ∈ [r.xp, r.yp], IsFloat32 x
  double : IsFloat64 r.ang

structure Stretching.Fits (r : Stretching) : Prop where
  float : ∀ x ∈ [r.xsp, r.ysp], IsFloat32 x
  double : IsFloat64 r.sFactor

structure RotationStretching.Fits (r : RotationStretching) : Prop where
  rot : r.rot.Fits
  stretch : r.stretch.Fits

/-- Both parts are values of their types. -/
def GridDefinition.Fits {B A : Type} (base : B → Prop) (additional : A → Prop) (d : GridDefinition B A) : Prop :=
  base d.base ∧ additional d.additional

def GridInfo.Fits : GridInfo → Prop
  | .monostate => True
  | .latLon d => d.Fits LatLonBase.Fits fun _ => True
  | .rotatedLatLon d => d.Fits LatLonBase.Fits Rotation.Fits
  | .stretchedLatLon d => d.Fits LatLonBase.Fits Stretching.Fits
  | .stretchedAndRotatedLatLon d => d.Fits LatLonBase.Fits RotationStretching.Fits
  | .gaussian d => d.Fits GaussianBase.Fits fun _ => True
  | .rotatedGaussianLatLon d => d.Fits GaussianBase.Fits Rotation.Fits
  | .stretchedGaussianLatLon d => d.Fits GaussianBase.Fits Stretching.Fits
  | .stretchedRotatedGaussianLatLon d => d.Fits GaussianBase.Fits RotationStretching.Fits
  | .lambert d | .obliqueLambertConformal d => d.Fits LambertBase.Fits fun _ => True
  | .utm _ | .gnomonic _ | .millersCylindr _ | .simplePolyconic _ => True
  | .albersEqualArea d => d.Fits AlbersBase.Fits fun _ => True
  | .spaceView d => d.Fits SpaceViewBase.Fits fun _ => True
  | .sphericalHarmonicCoefficients d => d.Fits HarmonicBase.Fits fun _ => True
  | .rotatedSphericalHarmonicCoefficients d => d.Fits HarmonicBase.Fits Rotation.Fits
  | .stretchedSphericalHarmonicCoefficients d => d.Fits HarmonicBase.Fits Stretching.Fits
  | .stretchedRotatedSphericalHarmonicCoefficients d => d.Fits HarmonicBase.Fits RotationStretching.Fits
  | .polarStereographProj d => d.Fits PolarBase.Fits fun _ => True
  | .mercator d => d.Fits MercatorBase.Fits fun _ => True

namespace Network

open Format

namespace OsterFormats

section Formats

variable {τ π : Type} (o : OsterFormats τ π)

def scanMode : Format ScanMode where
  serialize order m := serializeAll order [⟨o.flag, m.pointsSubIDir⟩, ⟨o.flag, m.pointsSubJDir⟩,
    ⟨o.flag, m.adjPointsJDir⟩]
  deserialize order := front do
    return {
      pointsSubIDir := ← o.flag.read order
      pointsSubJDir := ← o.flag.read order
      adjPointsJDir := ← o.flag.read order }
  serialSize m := serialSizeAll [⟨o.flag, m.pointsSubIDir⟩, ⟨o.flag, m.pointsSubJDir⟩, ⟨o.flag, m.adjPointsJDir⟩]

def resolutionComponentFlags : Format ResolutionComponentFlags where
  serialize order r := serializeAll order [⟨o.flag, r.givenDirection⟩, ⟨o.flag, r.earthSpheroidal⟩,
    ⟨o.flag, r.gridDirectionUvComp⟩]
  deserialize order := front do
    return {
      givenDirection := ← o.flag.read order
      earthSpheroidal := ← o.flag.read order
      gridDirectionUvComp := ← o.flag.read order }
  serialSize r := serialSizeAll [⟨o.flag, r.givenDirection⟩, ⟨o.flag, r.earthSpheroidal⟩,
    ⟨o.flag, r.gridDirectionUvComp⟩]

def latLonBase : Format LatLonBase where
  serialize order b := serializeAll order [⟨o.float, b.y1⟩, ⟨o.float, b.x1⟩, ⟨o.float, b.y2⟩, ⟨o.float, b.x2⟩,
    ⟨o.float, b.dy⟩, ⟨o.float, b.dx⟩, ⟨o.nat16, b.ny⟩, ⟨o.nat16, b.nx⟩, ⟨o.scanMode, b.scanMode⟩,
    ⟨o.resolutionComponentFlags, b.resolutionAndComponentFlags⟩]
  deserialize order := front do
    return {
      y1 := ← o.float.read order
      x1 := ← o.float.read order
      y2 := ← o.float.read order
      x2 := ← o.float.read order
      dy := ← o.float.read order
      dx := ← o.float.read order
      ny := ← o.nat16.read order
      nx := ← o.nat16.read order
      scanMode := ← o.scanMode.read order
      resolutionAndComponentFlags := ← o.resolutionComponentFlags.read order }
  serialSize b := serialSizeAll [⟨o.float, b.y1⟩, ⟨o.float, b.x1⟩, ⟨o.float, b.y2⟩, ⟨o.float, b.x2⟩,
    ⟨o.float, b.dy⟩, ⟨o.float, b.dx⟩, ⟨o.nat16, b.ny⟩, ⟨o.nat16, b.nx⟩, ⟨o.scanMode, b.scanMode⟩,
    ⟨o.resolutionComponentFlags, b.resolutionAndComponentFlags⟩]

def gaussianBase : Format GaussianBase where
  serialize order b := serializeAll order [⟨o.float, b.y1⟩, ⟨o.float, b.x1⟩, ⟨o.float, b.y2⟩, ⟨o.float, b.x2⟩,
    ⟨o.nat16, b.ny⟩, ⟨o.i16, b.nx⟩, ⟨o.nat16, b.directionIncrement⟩, ⟨o.nat16, b.N⟩, ⟨o.scanMode, b.scanMode⟩,
    ⟨o.resolutionComponentFlags, b.resolutionAndComponentFlags⟩]
  deserialize order := front do
    return {
      y1 := ← o.float.read order
      x1 := ← o.float.read order
      y2 := ← o.float.read order
      x2 := ← o.float.read order
      ny := ← o.nat16.read order
      nx := ← o.i16.read order
      directionIncrement := ← o.nat16.read order
      N := ← o.nat16.read order
      scanMode := ← o.scanMode.read order
      resolutionAndComponentFlags := ← o.resolutionComponentFlags.read order }
  serialSize b := serialSizeAll [⟨o.float, b.y1⟩, ⟨o.float, b.x1⟩, ⟨o.float, b.y2⟩, ⟨o.float, b.x2⟩,
    ⟨o.nat16, b.ny⟩, ⟨o.i16, b.nx⟩, ⟨o.nat16, b.directionIncrement⟩, ⟨o.nat16, b.N⟩, ⟨o.scanMode, b.scanMode⟩,
    ⟨o.resolutionComponentFlags, b.resolutionAndComponentFlags⟩]

def albersBase : Format AlbersBase where
  serialize order b := serializeAll order [⟨o.nat16, b.nx⟩, ⟨o.nat16, b.ny⟩, ⟨o.float, b.y1⟩, ⟨o.float, b.x1⟩,
    ⟨o.resolutionComponentFlags, b.resolutionAndComponentFlags⟩, ⟨o.float, b.LoV⟩, ⟨o.float, b.Dx⟩,
    ⟨o.float, b.Dy⟩, ⟨o.flag, b.isSouthPole⟩, ⟨o.flag, b.isBipolar⟩, ⟨o.scanMode, b.scanMode⟩,
    ⟨o.float, b.latin1⟩, ⟨o.float, b.latin2⟩, ⟨o.float, b.latitudeSouthPole⟩, ⟨o.float, b.longitudeSouthPole⟩]
  deserialize order := front do
    return {
      nx := ← o.nat16.read order
      ny := ← o.nat16.read order
      y1 := ← o.float.read order
      x1 := ← o.float.read order
      resolutionAndComponentFlags := ← o.resolutionComponentFlags.read order
      LoV := ← o.float.read order
      Dx := ← o.float.read order
      Dy := ← o.float.read order
      isSouthPole := ← o.flag.read order
      isBipolar := ← o.flag.read order
      scanMode := ← o.scanMode.read order
      latin1 := ← o.float.read order
      latin2 := ← o.float.read order
      latitudeSouthPole := ← o.float.read order
      longitudeSouthPole := ← o.float.read order }
  serialSize b := serialSizeAll [⟨o.nat16, b.nx⟩, ⟨o.nat16, b.ny⟩, ⟨o.float, b.y1⟩, ⟨o.float, b.x1⟩,
    ⟨o.resolutionComponentFlags, b.resolutionAndComponentFlags⟩, ⟨o.float, b.LoV⟩, ⟨o.float, b.Dx⟩,
    ⟨o.float, b.Dy⟩, ⟨o.flag, b.isSouthPole⟩, ⟨o.flag, b.isBipolar⟩, ⟨o.scanMode, b.scanMode⟩,
    ⟨o.float, b.latin1⟩, ⟨o.float, b.latin2⟩, ⟨o.float, b.latitudeSouthPole⟩, ⟨o.float, b.longitudeSouthPole⟩]

def harmonicBase : Format HarmonicBase where
  serialize order b := serializeAll order [⟨o.nat16, b.J⟩, ⟨o.nat16, b.K⟩, ⟨o.nat16, b.M⟩,
    ⟨o.flag, b.representationType⟩, ⟨o.nat8, b.repMode⟩]
  deserialize order := front do
    return {
      J := ← o.nat16.read order
      K := ← o.nat16.read order
      M := ← o.nat16.read order
      representationType := ← o.flag.read order
      repMode := ← o.nat8.read order }
  serialSize b := serialSizeAll [⟨o.nat16, b.J⟩, ⟨o.nat16, b.K⟩, ⟨o.nat16, b.M⟩, ⟨o.flag, b.representationType⟩,
    ⟨o.nat8, b.repMode⟩]

def lambertBase : Format LambertBase where
  serialize order b := serializeAll order [⟨o.nat16, b.nx⟩, ⟨o.nat16, b.ny⟩, ⟨o.float, b.y1⟩, ⟨o.float, b.x1⟩,
    ⟨o.resolutionComponentFlags, b.resolutionAndComponentFlags⟩, ⟨o.float, b.LoV⟩, ⟨o.float, b.dx⟩,
    ⟨o.float, b.dy⟩, ⟨o.flag, b.isSouthPole⟩, ⟨o.flag, b.isBipolar⟩, ⟨o.scanMode, b.scanMode⟩,
    ⟨o.float, b.latin1⟩, ⟨o.float, b.latin2⟩, ⟨o.int, b.latitudeSouthPole⟩, ⟨o.int, b.longitudeSouthPole⟩]
  deserialize order := front do
    return {
      nx := ← o.nat16.read order
      ny := ← o.nat16.read order
      y1 := ← o.float.read order
      x1 := ← o.float.read order
      resolutionAndComponentFlags := ← o.resolutionComponentFlags.read order
      LoV := ← o.float.read order
      dx := ← o.float.read order
      dy := ← o.float.read order
      isSouthPole := ← o.flag.read order
      isBipolar := ← o.flag.read order
      scanMode := ← o.scanMode.read order
      latin1 := ← o.float.read order
      latin2 := ← o.float.read order
      latitudeSouthPole := ← o.int.read order
      longitudeSouthPole := ← o.int.read order }
  serialSize b := serialSizeAll [⟨o.nat16, b.nx⟩, ⟨o.nat16, b.ny⟩, ⟨o.float, b.y1⟩, ⟨o.float, b.x1⟩,
    ⟨o.resolutionComponentFlags, b.resolutionAndComponentFlags⟩, ⟨o.float, b.LoV⟩, ⟨o.float, b.dx⟩,
    ⟨o.float, b.dy⟩, ⟨o.flag, b.isSouthPole⟩, ⟨o.flag, b.isBipolar⟩, ⟨o.scanMode, b.scanMode⟩,
    ⟨o.float, b.latin1⟩, ⟨o.float, b.latin2⟩, ⟨o.int, b.latitudeSouthPole⟩, ⟨o.int, b.longitudeSouthPole⟩]

def polarBase : Format PolarBase where
  serialize order b := serializeAll order [⟨o.nat16, b.nx⟩, ⟨o.nat16, b.ny⟩, ⟨o.float, b.y1⟩, ⟨o.float, b.x1⟩,
    ⟨o.resolutionComponentFlags, b.resolutionAndComponentFlags⟩, ⟨o.float, b.LoV⟩, ⟨o.nat32, b.dx⟩,
    ⟨o.nat32, b.dy⟩, ⟨o.flag, b.isSouthPole⟩, ⟨o.scanMode, b.scanMode⟩]
  deserialize order := front do
    return {
      nx := ← o.nat16.read order
      ny := ← o.nat16.read order
      y1 := ← o.float.read order
      x1 := ← o.float.read order
      resolutionAndComponentFlags := ← o.resolutionComponentFlags.read order
      LoV := ← o.float.read order
      dx := ← o.nat32.read order
      dy := ← o.nat32.read order
      isSouthPole := ← o.flag.read order
      scanMode := ← o.scanMode.read order }
  serialSize b := serialSizeAll [⟨o.nat16, b.nx⟩, ⟨o.nat16, b.ny⟩, ⟨o.float, b.y1⟩, ⟨o.float, b.x1⟩,
    ⟨o.resolutionComponentFlags, b.resolutionAndComponentFlags⟩, ⟨o.float, b.LoV⟩, ⟨o.nat32, b.dx⟩,
    ⟨o.nat32, b.dy⟩, ⟨o.flag, b.isSouthPole⟩, ⟨o.scanMode, b.scanMode⟩]

def spaceViewBase : Format SpaceViewBase where
  serialize order b := serializeAll order [⟨o.nat16, b.nx⟩, ⟨o.nat16, b.ny⟩, ⟨o.float, b.y⟩, ⟨o.float, b.x⟩,
    ⟨o.resolutionComponentFlags, b.resolutionAndComponentFlags⟩, ⟨o.nat32, b.dx⟩, ⟨o.nat32, b.dy⟩, ⟨o.i16, b.xp⟩,
    ⟨o.i16, b.yp⟩, ⟨o.scanMode, b.scanMode⟩, ⟨o.nat32, b.orientation⟩, ⟨o.nat32, b.nr⟩, ⟨o.i16, b.Xo⟩,
    ⟨o.i16, b.Yo⟩]
  deserialize order := front do
    return {
      nx := ← o.nat16.read order
      ny := ← o.nat16.read order
      y := ← o.float.read order
      x := ← o.float.read order
      resolutionAndComponentFlags := ← o.resolutionComponentFlags.read order
      dx := ← o.nat32.read order
      dy := ← o.nat32.read order
      xp := ← o.i16.read order
      yp := ← o.i16.read order
      scanMode := ← o.scanMode.read order
      orientation := ← o.nat32.read order
      nr := ← o.nat32.read order
      Xo := ← o.i16.read order
      Yo := ← o.i16.read order }
  serialSize b := serialSizeAll [⟨o.nat16, b.nx⟩, ⟨o.nat16, b.ny⟩, ⟨o.float, b.y⟩, ⟨o.float, b.x⟩,
    ⟨o.resolutionComponentFlags, b.resolutionAndComponentFlags⟩, ⟨o.nat32, b.dx⟩, ⟨o.nat32, b.dy⟩, ⟨o.i16, b.xp⟩,
    ⟨o.i16, b.yp⟩, ⟨o.scanMode, b.scanMode⟩, ⟨o.nat32, b.orientation⟩, ⟨o.nat32, b.nr⟩, ⟨o.i16, b.Xo⟩,
    ⟨o.i16, b.Yo⟩]

def mercatorBase : Format MercatorBase where
  serialize order b := serializeAll order [⟨o.i16, b.nx⟩, ⟨o.i16, b.ny⟩, ⟨o.float, b.y1⟩, ⟨o.float, b.x1⟩,
    ⟨o.resolutionComponentFlags, b.resolutionAndComponentFlags⟩, ⟨o.float, b.y2⟩, ⟨o.float, b.x2⟩,
    ⟨o.float, b.latin⟩, ⟨o.scanMode, b.scanMode⟩, ⟨o.float, b.dy⟩, ⟨o.float, b.dx⟩]
  deserialize order := front do
    return {
      nx := ← o.i16.read order
      ny := ← o.i16.read order
      y1 := ← o.float.read order
      x1 := ← o.float.read order
      resolutionAndComponentFlags := ← o.resolutionComponentFlags.read order
      y2 := ← o.float.read order
      x2 := ← o.float.read order
      latin := ← o.float.read order
      scanMode := ← o.scanMode.read order
      dy := ← o.float.read order
      dx := ← o.float.read order }
  serialSize b := serialSizeAll [⟨o.i16, b.nx⟩, ⟨o.i16, b.ny⟩, ⟨o.float, b.y1⟩, ⟨o.float, b.x1⟩,
    ⟨o.resolutionComponentFlags, b.resolutionAndComponentFlags⟩, ⟨o.float, b.y2⟩, ⟨o.float, b.x2⟩,
    ⟨o.float, b.latin⟩, ⟨o.scanMode, b.scanMode⟩, ⟨o.float, b.dy⟩, ⟨o.float, b.dx⟩]

def rotation : Format Rotation where
  serialize order r := serializeAll order [⟨o.float, r.xp⟩, ⟨o.float, r.yp⟩, ⟨o.double, r.ang⟩]
  deserialize order := front do
    return { xp := ← o.float.read order, yp := ← o.float.read order, ang := ← o.double.read order }
  serialSize r := serialSizeAll [⟨o.float, r.xp⟩, ⟨o.float, r.yp⟩, ⟨o.double, r.ang⟩]

def stretching : Format Stretching where
  serialize order r := serializeAll order [⟨o.float, r.xsp⟩, ⟨o.float, r.ysp⟩, ⟨o.double, r.sFactor⟩]
  deserialize order := front do
    return { xsp := ← o.float.read order, ysp := ← o.float.read order, sFactor := ← o.double.read order }
  serialSize r := serialSizeAll [⟨o.float, r.xsp⟩, ⟨o.float, r.ysp⟩, ⟨o.double, r.sFactor⟩]

def rotationStretching : Format RotationStretching where
  serialize order r := serializeAll order [⟨o.rotation, r.rot⟩, ⟨o.stretching, r.stretch⟩]
  deserialize order := front do
    return { rot := ← o.rotation.read order, stretch := ← o.stretching.read order }
  serialSize r := serialSizeAll [⟨o.rotation, r.rot⟩, ⟨o.stretching, r.stretch⟩]

/-- `GridDefinition`: the base, and the additional part. -/
def gridDefinition {B A : Type} (b : Format B) (a : Format A) : Format (GridDefinition B A) where
  serialize order d := serializeAll order [⟨b, d.base⟩, ⟨a, d.additional⟩]
  deserialize order := front do
    return { base := ← b.read order, additional := ← a.read order }
  serialSize d := serialSizeAll [⟨b, d.base⟩, ⟨a, d.additional⟩]

/-- The index of the alternative in the variant. -/
def gridIndex : GridInfo → ℕ
  | .monostate => 0
  | .latLon _ => 1
  | .rotatedLatLon _ => 2
  | .stretchedLatLon _ => 3
  | .stretchedAndRotatedLatLon _ => 4
  | .gaussian _ => 5
  | .rotatedGaussianLatLon _ => 6
  | .stretchedGaussianLatLon _ => 7
  | .stretchedRotatedGaussianLatLon _ => 8
  | .lambert _ => 9
  | .obliqueLambertConformal _ => 10
  | .utm _ => 11
  | .albersEqualArea _ => 12
  | .spaceView _ => 13
  | .gnomonic _ => 14
  | .sphericalHarmonicCoefficients _ => 15
  | .rotatedSphericalHarmonicCoefficients _ => 16
  | .stretchedSphericalHarmonicCoefficients _ => 17
  | .stretchedRotatedSphericalHarmonicCoefficients _ => 18
  | .polarStereographProj _ => 19
  | .millersCylindr _ => 20
  | .simplePolyconic _ => 21
  | .mercator _ => 22

/-- The alternative, if there is one. -/
def gridField : GridInfo → List Field
  | .monostate => []
  | .latLon d => [⟨gridDefinition o.latLonBase (empty {}), d⟩]
  | .rotatedLatLon d => [⟨gridDefinition o.latLonBase o.rotation, d⟩]
  | .stretchedLatLon d => [⟨gridDefinition o.latLonBase o.stretching, d⟩]
  | .stretchedAndRotatedLatLon d => [⟨gridDefinition o.latLonBase o.rotationStretching, d⟩]
  | .gaussian d => [⟨gridDefinition o.gaussianBase (empty {}), d⟩]
  | .rotatedGaussianLatLon d => [⟨gridDefinition o.gaussianBase o.rotation, d⟩]
  | .stretchedGaussianLatLon d => [⟨gridDefinition o.gaussianBase o.stretching, d⟩]
  | .stretchedRotatedGaussianLatLon d => [⟨gridDefinition o.gaussianBase o.rotationStretching, d⟩]
  | .lambert d => [⟨gridDefinition o.lambertBase (empty {}), d⟩]
  | .obliqueLambertConformal d => [⟨gridDefinition o.lambertBase (empty {}), d⟩]
  | .utm d => [⟨gridDefinition (empty {}) (empty {}), d⟩]
  | .albersEqualArea d => [⟨gridDefinition o.albersBase (empty {}), d⟩]
  | .spaceView d => [⟨gridDefinition o.spaceViewBase (empty {}), d⟩]
  | .gnomonic d => [⟨gridDefinition (empty {}) (empty {}), d⟩]
  | .sphericalHarmonicCoefficients d => [⟨gridDefinition o.harmonicBase (empty {}), d⟩]
  | .rotatedSphericalHarmonicCoefficients d => [⟨gridDefinition o.harmonicBase o.rotation, d⟩]
  | .stretchedSphericalHarmonicCoefficients d => [⟨gridDefinition o.harmonicBase o.stretching, d⟩]
  | .stretchedRotatedSphericalHarmonicCoefficients d => [⟨gridDefinition o.harmonicBase o.rotationStretching, d⟩]
  | .polarStereographProj d => [⟨gridDefinition o.polarBase (empty {}), d⟩]
  | .millersCylindr d => [⟨gridDefinition (empty {}) (empty {}), d⟩]
  | .simplePolyconic d => [⟨gridDefinition (empty {}) (empty {}), d⟩]
  | .mercator d => [⟨gridDefinition o.mercatorBase (empty {}), d⟩]

/-- The alternative of an index. -/
def readGrid (order : Bool) : ℕ → Reader GridInfo
  | 0 => return .monostate
  | 1 => return .latLon (← (gridDefinition o.latLonBase (empty {})).read order)
  | 2 => return .rotatedLatLon (← (gridDefinition o.latLonBase o.rotation).read order)
  | 3 => return .stretchedLatLon (← (gridDefinition o.latLonBase o.stretching).read order)
  | 4 => return .stretchedAndRotatedLatLon (← (gridDefinition o.latLonBase o.rotationStretching).read order)
  | 5 => return .gaussian (← (gridDefinition o.gaussianBase (empty {})).read order)
  | 6 => return .rotatedGaussianLatLon (← (gridDefinition o.gaussianBase o.rotation).read order)
  | 7 => return .stretchedGaussianLatLon (← (gridDefinition o.gaussianBase o.stretching).read order)
  | 8 => return .stretchedRotatedGaussianLatLon (← (gridDefinition o.gaussianBase o.rotationStretching).read order)
  | 9 => return .lambert (← (gridDefinition o.lambertBase (empty {})).read order)
  | 10 => return .obliqueLambertConformal (← (gridDefinition o.lambertBase (empty {})).read order)
  | 11 => return .utm (← (gridDefinition (empty {}) (empty {})).read order)
  | 12 => return .albersEqualArea (← (gridDefinition o.albersBase (empty {})).read order)
  | 13 => return .spaceView (← (gridDefinition o.spaceViewBase (empty {})).read order)
  | 14 => return .gnomonic (← (gridDefinition (empty {}) (empty {})).read order)
  | 15 => return .sphericalHarmonicCoefficients (← (gridDefinition o.harmonicBase (empty {})).read order)
  | 16 => return .rotatedSphericalHarmonicCoefficients (← (gridDefinition o.harmonicBase o.rotation).read order)
  | 17 => return .stretchedSphericalHarmonicCoefficients (← (gridDefinition o.harmonicBase o.stretching).read order)
  | 18 => do
    let d ← (gridDefinition o.harmonicBase o.rotationStretching).read order
    return .stretchedRotatedSphericalHarmonicCoefficients d
  | 19 => return .polarStereographProj (← (gridDefinition o.polarBase (empty {})).read order)
  | 20 => return .millersCylindr (← (gridDefinition (empty {}) (empty {})).read order)
  | 21 => return .simplePolyconic (← (gridDefinition (empty {}) (empty {})).read order)
  | 22 => return .mercator (← (gridDefinition o.mercatorBase (empty {})).read order)
  | _ => failure

/-- `GridInfo` -/
def gridInfo : Format GridInfo where
  serialize order g := serializeAll order (⟨o.nat64, gridIndex g⟩ :: o.gridField g)
  deserialize order := front do
    let i ← o.nat64.read order
    o.readGrid order i
  serialSize g := serialSizeAll (⟨o.nat64, gridIndex g⟩ :: o.gridField g)

end Formats

/-! ## The laws -/

section Laws

variable {τ π : Type} {o : OsterFormats τ π}

theorem Documented.scanMode (ho : o.Documented) (m : ScanMode) : o.scanMode.Law m :=
  .of_fields (fun _ => rfl) fun _ => .cons (ho.flag _) <| .cons (ho.flag _) <| .cons (ho.flag _) <| .nil

theorem Documented.resolutionComponentFlags (ho : o.Documented) (r : ResolutionComponentFlags) :
    o.resolutionComponentFlags.Law r :=
  .of_fields (fun _ => rfl) fun _ => .cons (ho.flag _) <| .cons (ho.flag _) <| .cons (ho.flag _) <| .nil

theorem Documented.latLonBase (ho : o.Documented) {b : LatLonBase} (h : b.Fits) : o.latLonBase.Law b := by
  have hf := fun x hx => ho.float _ (h.float x hx)
  have h16 := fun n hx => ho.nat16 (h.nat16 n hx)
  exact .of_fields (fun _ => rfl) fun _ => .cons (hf _ (by simp)) <| .cons (hf _ (by simp)) <|
    .cons (hf _ (by simp)) <| .cons (hf _ (by simp)) <| .cons (hf _ (by simp)) <| .cons (hf _ (by simp)) <|
    .cons (h16 _ (by simp)) <| .cons (h16 _ (by simp)) <| .cons (ho.scanMode _) <|
    .cons (ho.resolutionComponentFlags _) <| .nil

theorem Documented.gaussianBase (ho : o.Documented) {b : GaussianBase} (h : b.Fits) : o.gaussianBase.Law b := by
  have hf := fun x hx => ho.float _ (h.float x hx)
  have h16 := fun n hx => ho.nat16 (h.nat16 n hx)
  exact .of_fields (fun _ => rfl) fun _ => .cons (hf _ (by simp)) <| .cons (hf _ (by simp)) <|
    .cons (hf _ (by simp)) <| .cons (hf _ (by simp)) <| .cons (h16 _ (by simp)) <| .cons (ho.i16 _ h.i16) <|
    .cons (h16 _ (by simp)) <| .cons (h16 _ (by simp)) <| .cons (ho.scanMode _) <|
    .cons (ho.resolutionComponentFlags _) <| .nil

theorem Documented.albersBase (ho : o.Documented) {b : AlbersBase} (h : b.Fits) : o.albersBase.Law b := by
  have hf := fun x hx => ho.float _ (h.float x hx)
  have h16 := fun n hx => ho.nat16 (h.nat16 n hx)
  exact .of_fields (fun _ => rfl) fun _ => .cons (h16 _ (by simp)) <| .cons (h16 _ (by simp)) <|
    .cons (hf _ (by simp)) <| .cons (hf _ (by simp)) <| .cons (ho.resolutionComponentFlags _) <|
    .cons (hf _ (by simp)) <| .cons (hf _ (by simp)) <| .cons (hf _ (by simp)) <| .cons (ho.flag _) <|
    .cons (ho.flag _) <| .cons (ho.scanMode _) <| .cons (hf _ (by simp)) <| .cons (hf _ (by simp)) <|
    .cons (hf _ (by simp)) <| .cons (hf _ (by simp)) <| .nil

theorem Documented.harmonicBase (ho : o.Documented) {b : HarmonicBase} (h : b.Fits) : o.harmonicBase.Law b := by
  have h16 := fun n hx => ho.nat16 (h.nat16 n hx)
  exact .of_fields (fun _ => rfl) fun _ => .cons (h16 _ (by simp)) <| .cons (h16 _ (by simp)) <|
    .cons (h16 _ (by simp)) <| .cons (ho.flag _) <| .cons (ho.nat8 h.nat8) <| .nil

theorem Documented.lambertBase (ho : o.Documented) {b : LambertBase} (h : b.Fits) : o.lambertBase.Law b := by
  have hf := fun x hx => ho.float _ (h.float x hx)
  have h16 := fun n hx => ho.nat16 (h.nat16 n hx)
  have hz := fun z hx => ho.int _ (h.int z hx)
  exact .of_fields (fun _ => rfl) fun _ => .cons (h16 _ (by simp)) <| .cons (h16 _ (by simp)) <|
    .cons (hf _ (by simp)) <| .cons (hf _ (by simp)) <| .cons (ho.resolutionComponentFlags _) <|
    .cons (hf _ (by simp)) <| .cons (hf _ (by simp)) <| .cons (hf _ (by simp)) <| .cons (ho.flag _) <|
    .cons (ho.flag _) <| .cons (ho.scanMode _) <| .cons (hf _ (by simp)) <| .cons (hf _ (by simp)) <|
    .cons (hz _ (by simp)) <| .cons (hz _ (by simp)) <| .nil

theorem Documented.polarBase (ho : o.Documented) {b : PolarBase} (h : b.Fits) : o.polarBase.Law b := by
  have hf := fun x hx => ho.float _ (h.float x hx)
  have h16 := fun n hx => ho.nat16 (h.nat16 n hx)
  have h32 := fun n hx => ho.nat32 (h.nat32 n hx)
  exact .of_fields (fun _ => rfl) fun _ => .cons (h16 _ (by simp)) <| .cons (h16 _ (by simp)) <|
    .cons (hf _ (by simp)) <| .cons (hf _ (by simp)) <| .cons (ho.resolutionComponentFlags _) <|
    .cons (hf _ (by simp)) <| .cons (h32 _ (by simp)) <| .cons (h32 _ (by simp)) <| .cons (ho.flag _) <|
    .cons (ho.scanMode _) <| .nil

theorem Documented.spaceViewBase (ho : o.Documented) {b : SpaceViewBase} (h : b.Fits) :
    o.spaceViewBase.Law b := by
  have hf := fun x hx => ho.float _ (h.float x hx)
  have h16 := fun n hx => ho.nat16 (h.nat16 n hx)
  have h32 := fun n hx => ho.nat32 (h.nat32 n hx)
  have hi := fun z hx => ho.i16 _ (h.i16 z hx)
  exact .of_fields (fun _ => rfl) fun _ => .cons (h16 _ (by simp)) <| .cons (h16 _ (by simp)) <|
    .cons (hf _ (by simp)) <| .cons (hf _ (by simp)) <| .cons (ho.resolutionComponentFlags _) <|
    .cons (h32 _ (by simp)) <| .cons (h32 _ (by simp)) <| .cons (hi _ (by simp)) <| .cons (hi _ (by simp)) <|
    .cons (ho.scanMode _) <| .cons (h32 _ (by simp)) <| .cons (h32 _ (by simp)) <| .cons (hi _ (by simp)) <|
    .cons (hi _ (by simp)) <| .nil

theorem Documented.mercatorBase (ho : o.Documented) {b : MercatorBase} (h : b.Fits) : o.mercatorBase.Law b := by
  have hf := fun x hx => ho.float _ (h.float x hx)
  have hi := fun z hx => ho.i16 _ (h.i16 z hx)
  exact .of_fields (fun _ => rfl) fun _ => .cons (hi _ (by simp)) <| .cons (hi _ (by simp)) <|
    .cons (hf _ (by simp)) <| .cons (hf _ (by simp)) <| .cons (ho.resolutionComponentFlags _) <|
    .cons (hf _ (by simp)) <| .cons (hf _ (by simp)) <| .cons (hf _ (by simp)) <| .cons (ho.scanMode _) <|
    .cons (hf _ (by simp)) <| .cons (hf _ (by simp)) <| .nil

theorem Documented.rotation (ho : o.Documented) {r : Rotation} (h : r.Fits) : o.rotation.Law r := by
  have hf := fun x hx => ho.float _ (h.float x hx)
  exact .of_fields (fun _ => rfl) fun _ => .cons (hf _ (by simp)) <| .cons (hf _ (by simp)) <|
    .cons (ho.double _ h.double) <| .nil

theorem Documented.stretching (ho : o.Documented) {r : Stretching} (h : r.Fits) : o.stretching.Law r := by
  have hf := fun x hx => ho.float _ (h.float x hx)
  exact .of_fields (fun _ => rfl) fun _ => .cons (hf _ (by simp)) <| .cons (hf _ (by simp)) <|
    .cons (ho.double _ h.double) <| .nil

theorem Documented.rotationStretching (ho : o.Documented) {r : RotationStretching} (h : r.Fits) :
    o.rotationStretching.Law r :=
  .of_fields (fun _ => rfl) fun _ => .cons (ho.rotation h.rot) <| .cons (ho.stretching h.stretch) <| .nil

theorem gridDefinition_law {B A : Type} {b : Format B} {a : Format A} {d : GridDefinition B A} (hb : b.Law d.base)
    (ha : a.Law d.additional) : (gridDefinition b a).Law d :=
  .of_fields (fun _ => rfl) fun _ => .cons hb <| .cons ha <| .nil

theorem gridIndex_lt (g : GridInfo) : gridIndex g < 2 ^ 64 := by
  have h : gridIndex g ≤ 22 := by
    cases g <;> simp [gridIndex]
  omega

/-- Every alternative is read as the one it was written as. -/
theorem Documented.gridInfo (ho : o.Documented) {g : GridInfo} (h : g.Fits) : o.gridInfo.Law g := by
  refine .of_fields (fun _ => rfl) fun order => .cons (ho.nat64 (gridIndex_lt g)) ?_
  cases g with
  | monostate => exact .nil
  | latLon d => exact .cons (gridDefinition_law (ho.latLonBase h.1) (empty_law _)) .nil
  | rotatedLatLon d => exact .cons (gridDefinition_law (ho.latLonBase h.1) (ho.rotation h.2)) .nil
  | stretchedLatLon d => exact .cons (gridDefinition_law (ho.latLonBase h.1) (ho.stretching h.2)) .nil
  | stretchedAndRotatedLatLon d =>
    exact .cons (gridDefinition_law (ho.latLonBase h.1) (ho.rotationStretching h.2)) .nil
  | gaussian d => exact .cons (gridDefinition_law (ho.gaussianBase h.1) (empty_law _)) .nil
  | rotatedGaussianLatLon d => exact .cons (gridDefinition_law (ho.gaussianBase h.1) (ho.rotation h.2)) .nil
  | stretchedGaussianLatLon d => exact .cons (gridDefinition_law (ho.gaussianBase h.1) (ho.stretching h.2)) .nil
  | stretchedRotatedGaussianLatLon d =>
    exact .cons (gridDefinition_law (ho.gaussianBase h.1) (ho.rotationStretching h.2)) .nil
  | lambert d => exact .cons (gridDefinition_law (ho.lambertBase h.1) (empty_law _)) .nil
  | obliqueLambertConformal d => exact .cons (gridDefinition_law (ho.lambertBase h.1) (empty_law _)) .nil
  | utm d => exact .cons (gridDefinition_law (empty_law _) (empty_law _)) .nil
  | albersEqualArea d => exact .cons (gridDefinition_law (ho.albersBase h.1) (empty_law _)) .nil
  | spaceView d => exact .cons (gridDefinition_law (ho.spaceViewBase h.1) (empty_law _)) .nil
  | gnomonic d => exact .cons (gridDefinition_law (empty_law _) (empty_law _)) .nil
  | sphericalHarmonicCoefficients d => exact .cons (gridDefinition_law (ho.harmonicBase h.1) (empty_law _)) .nil
  | rotatedSphericalHarmonicCoefficients d =>
    exact .cons (gridDefinition_law (ho.harmonicBase h.1) (ho.rotation h.2)) .nil
  | stretchedSphericalHarmonicCoefficients d =>
    exact .cons (gridDefinition_law (ho.harmonicBase h.1) (ho.stretching h.2)) .nil
  | stretchedRotatedSphericalHarmonicCoefficients d =>
    exact .cons (gridDefinition_law (ho.harmonicBase h.1) (ho.rotationStretching h.2)) .nil
  | polarStereographProj d => exact .cons (gridDefinition_law (ho.polarBase h.1) (empty_law _)) .nil
  | millersCylindr d => exact .cons (gridDefinition_law (empty_law _) (empty_law _)) .nil
  | simplePolyconic d => exact .cons (gridDefinition_law (empty_law _) (empty_law _)) .nil
  | mercator d => exact .cons (gridDefinition_law (ho.mercatorBase h.1) (empty_law _)) .nil

end Laws

end OsterFormats

end Network

end Mashroom
