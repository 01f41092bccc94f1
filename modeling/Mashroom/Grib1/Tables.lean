import Mashroom.Mapped

/-!
# Grib1.Tables — the code tables

Code tables 6, 7 and 8 of the grid description section.  The tables whose octet is only compared and passed
on (originating centre, level type, unit of time, time range indicator, spectral representation mode) are kept
as the octet itself: C++ casts any octet to them.
-/

namespace Mashroom

/-- An octet read as an enumeration that is only compared and passed on. -/
abbrev TableCode := ℕ

/-- Code table 6. -/
inductive RepresentationType where
  | latLonGridEquidistCylindr
  | mercator
  | gnomonic
  | lambert
  | gaussian
  | polarStereographProj
  | utm
  | simplePolyconic
  | albersEqualArea
  | millersCylindr
  | rotatedLatLon
  | obliqueLambertConformal
  | rotatedGaussianLatLon
  | stretchedLatLon
  | stretchedGaussianLatLon
  | stretchedAndRotatedLatLon
  | stretchedRotatedGaussianLatLon
  | sphericalHarmonicCoefficients
  | rotatedSphericalHarmonicCoefficients
  | stretchedSphericalHarmonicCoefficients
  | stretchedRotatedSphericalHarmonicCoefficients
  | spaceView
  | undefGrid
  deriving DecidableEq

namespace RepresentationType

/-- The representation type of an octet, if it is one of the table's. -/
def ofOctet : ℕ → Option RepresentationType
  | 0 => some latLonGridEquidistCylindr
  | 1 => some mercator
  | 2 => some gnomonic
  | 3 => some lambert
  | 4 => some gaussian
  | 5 => some polarStereographProj
  | 6 => some utm
  | 7 => some simplePolyconic
  | 8 => some albersEqualArea
  | 9 => some millersCylindr
  | 10 => some rotatedLatLon
  | 13 => some obliqueLambertConformal
  | 14 => some rotatedGaussianLatLon
  | 20 => some stretchedLatLon
  | 24 => some stretchedGaussianLatLon
  | 30 => some stretchedAndRotatedLatLon
  | 34 => some stretchedRotatedGaussianLatLon
  | 50 => some sphericalHarmonicCoefficients
  | 60 => some rotatedSphericalHarmonicCoefficients
  | 70 => some stretchedSphericalHarmonicCoefficients
  | 80 => some stretchedRotatedSphericalHarmonicCoefficients
  | 90 => some spaceView
  | 255 => some undefGrid
  | _ => none

/-- The octet of a representation type. -/
def octet : RepresentationType → ℕ
  | latLonGridEquidistCylindr => 0
  | mercator => 1
  | gnomonic => 2
  | lambert => 3
  | gaussian => 4
  | polarStereographProj => 5
  | utm => 6
  | simplePolyconic => 7
  | albersEqualArea => 8
  | millersCylindr => 9
  | rotatedLatLon => 10
  | obliqueLambertConformal => 13
  | rotatedGaussianLatLon => 14
  | stretchedLatLon => 20
  | stretchedGaussianLatLon => 24
  | stretchedAndRotatedLatLon => 30
  | stretchedRotatedGaussianLatLon => 34
  | sphericalHarmonicCoefficients => 50
  | rotatedSphericalHarmonicCoefficients => 60
  | stretchedSphericalHarmonicCoefficients => 70
  | stretchedRotatedSphericalHarmonicCoefficients => 80
  | spaceView => 90
  | undefGrid => 255

theorem ofOctet_octet (r : RepresentationType) : ofOctet r.octet = some r := by
  cases r <;> rfl

end RepresentationType

/-- `is_representation`, a table of 255 entries: the octet 255 is past its end. -/
def isRepresentation (o : ℕ) : Except Fault Bool :=
  if o < 255 then .ok (RepresentationType.ofOctet o).isSome else .error .element

/-- Code table 7. -/
structure ResolutionComponentFlags where
  givenDirection : Bool
  earthSpheroidal : Bool
  gridDirectionUvComp : Bool
  deriving DecidableEq

def ResolutionComponentFlags.ofOctet (o : ℕ) : ResolutionComponentFlags where
  givenDirection := o &&& 1 != 0
  earthSpheroidal := o &&& 2 != 0
  gridDirectionUvComp := o &&& 16 != 0

/-- Code table 8. -/
structure ScanMode where
  pointsSubIDir : Bool
  pointsSubJDir : Bool
  adjPointsJDir : Bool
  deriving DecidableEq

def ScanMode.ofOctet (o : ℕ) : ScanMode where
  pointsSubIDir := o &&& 1 != 0
  pointsSubJDir := o &&& 2 != 0
  adjPointsJDir := o &&& 4 != 0

end Mashroom
