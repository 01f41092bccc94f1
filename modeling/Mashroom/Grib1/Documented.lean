import Mathlib.Data.Nat.Bitwise
import Mashroom.Grib1.Decoded
import Mashroom.Grib1.Message

/-!
# Grib1.Documented — the grid as it is documented

The comments on the fields of a grid name its octets, counted from one; for a latitude/longitude and a Gaussian grid,
where they do not, the comments on the accessors do.  Signs, flag bits and scales are those of GRIB1: latitudes,
longitudes and coordinates are signs and magnitudes, everything else is unsigned; bit 1 of an octet is its most
significant one; an angle is given in thousandths of a degree, and a floating point field holds it in degrees; an
increment counts only when bit 1 of octet 17 says that it is given.
-/

namespace Mashroom

/-! ## Signs and magnitudes -/

/-- The number that `w + 1` bits hold as a sign and a magnitude. -/
def signMagnitude (w v : ℕ) : ℤ := (if 2 ^ w ≤ v then -1 else 1) * (v % 2 ^ w : ℕ)

section SignMagnitude

variable {w v : ℕ}

theorem signMagnitude_of_lt (h : v < 2 ^ w) : signMagnitude w v = v := by
  rw [signMagnitude, if_neg (by omega), Nat.mod_eq_of_lt h, one_mul]

theorem signMagnitude_of_le (h : 2 ^ w ≤ v) : signMagnitude w v = -(v % 2 ^ w : ℕ) := by
  rw [signMagnitude, if_pos h, neg_one_mul]

theorem signMagnitude_eq_zero : signMagnitude w v = 0 ↔ v % 2 ^ w = 0 := by
  rw [signMagnitude]
  split <;> omega

theorem signMagnitude_eq_self : signMagnitude w v = v ↔ v < 2 ^ w := by
  refine ⟨fun h => ?_, signMagnitude_of_lt⟩
  by_contra hle
  have hpos := Nat.two_pow_pos w
  rw [signMagnitude_of_le (not_lt.mp hle)] at h
  omega

theorem abs_signMagnitude_lt : |signMagnitude w v| < 2 ^ w := by
  have hlt : ((v % 2 ^ w : ℕ) : ℤ) < 2 ^ w := by exact_mod_cast Nat.mod_lt v (Nat.two_pow_pos w)
  rw [abs_lt, signMagnitude]
  split <;> constructor <;> omega

end SignMagnitude

/-- `INT2`, `INT3` and `read_bytes<n,true>` read signs and magnitudes. -/
structure OsterLib.ReadsSigned (lib : OsterLib) : Prop where
  int2_eq : ∀ a b, lib.int2 a b = signMagnitude2 a b
  int3_eq : ∀ a b c, lib.int3 a b c = signMagnitude3 a b c
  signed2_eq : ∀ a b, lib.signedBytes [a, b] = signMagnitude2 a b
  signed3_eq : ∀ a b c, lib.signedBytes [a, b, c] = signMagnitude3 a b c

theorem OsterLib.reference_readsSigned : OsterLib.reference.ReadsSigned :=
  ⟨fun _ _ => rfl, fun _ _ _ => rfl, fun _ _ => rfl, fun _ _ _ => rfl⟩

/-! ## The octets of a section -/

namespace Documented

variable (f : File) (g : ℕ)

/-- The unsigned number in `n` octets from octet `i` on. -/
def unsigned (i n : ℕ) : ℕ := Octets.be f (g + (i - 1)) n

/-- The sign and magnitude in `n` octets from octet `i` on. -/
def signed (i n : ℕ) : ℤ := signMagnitude (8 * n - 1) (unsigned f g i n)

/-- The angle in the three octets from octet `i` on. -/
def degrees (i : ℕ) : ℚ := milli (signed f g i 3)

/-- Bit `k` of octet `i`. -/
def flag (i k : ℕ) : Bool := Octets.octet f (g + (i - 1)) / 2 ^ (8 - k) % 2 == 1

/-- An increment, `0` when it is not given. -/
def increment (i n : ℕ) : ℕ := if flag f g 17 1 then unsigned f g i n else 0

/-- Code table 7. -/
def resolution : ResolutionComponentFlags where
  givenDirection := flag f g 17 1
  earthSpheroidal := flag f g 17 2
  gridDirectionUvComp := flag f g 17 5

/-- Code table 8. -/
def scan : ScanMode where
  pointsSubIDir := flag f g 28 1
  pointsSubJDir := flag f g 28 2
  adjPointsJDir := flag f g 28 3

/-- A floating point number of the form of a reference value. -/
def ibm (i : ℕ) : ℚ :=
  ibmFloat (unsigned f g i 1) (unsigned f g (i + 1) 1) (unsigned f g (i + 2) 1) (unsigned f g (i + 3) 1)

/-- Di and Dj: octets 24-25 and 26-27. -/
def latLon : LatLonBase where
  nx := unsigned f g 7 2
  ny := unsigned f g 9 2
  y1 := degrees f g 11
  x1 := degrees f g 14
  resolutionAndComponentFlags := resolution f g
  y2 := degrees f g 18
  x2 := degrees f g 21
  dx := milli (increment f g 24 2)
  dy := milli (increment f g 26 2)
  scanMode := scan f g

def gaussian : GaussianBase where
  nx := unsigned f g 7 2
  ny := unsigned f g 9 2
  y1 := degrees f g 11
  x1 := degrees f g 14
  resolutionAndComponentFlags := resolution f g
  y2 := degrees f g 18
  x2 := degrees f g 21
  directionIncrement := increment f g 24 2
  N := unsigned f g 26 2
  scanMode := scan f g

/-- The grid lengths are in metres. -/
def albers : AlbersBase where
  nx := unsigned f g 7 2
  ny := unsigned f g 9 2
  y1 := degrees f g 11
  x1 := degrees f g 14
  resolutionAndComponentFlags := resolution f g
  LoV := degrees f g 18
  Dx := unsigned f g 21 3
  Dy := unsigned f g 24 3
  isSouthPole := flag f g 27 1
  isBipolar := flag f g 27 2
  scanMode := scan f g
  latin1 := degrees f g 29
  latin2 := degrees f g 32
  latitudeSouthPole := degrees f g 35
  longitudeSouthPole := degrees f g 38

/-- The southern pole is kept in thousandths of a degree. -/
def lambert : LambertBase where
  nx := unsigned f g 7 2
  ny := unsigned f g 9 2
  y1 := degrees f g 11
  x1 := degrees f g 14
  resolutionAndComponentFlags := resolution f g
  LoV := degrees f g 18
  dx := unsigned f g 21 3
  dy := unsigned f g 24 3
  isSouthPole := flag f g 27 1
  isBipolar := flag f g 27 2
  scanMode := scan f g
  latin1 := degrees f g 29
  latin2 := degrees f g 32
  latitudeSouthPole := signed f g 35 3
  longitudeSouthPole := signed f g 38 3

def harmonic : HarmonicBase where
  J := unsigned f g 7 2
  K := unsigned f g 9 2
  M := unsigned f g 11 2
  representationType := unsigned f g 13 1 != 0
  repMode := unsigned f g 14 1

def polar : PolarBase where
  nx := unsigned f g 7 2
  ny := unsigned f g 9 2
  y1 := degrees f g 11
  x1 := degrees f g 14
  resolutionAndComponentFlags := resolution f g
  LoV := degrees f g 18
  dx := unsigned f g 21 3
  dy := unsigned f g 24 3
  isSouthPole := flag f g 27 1
  scanMode := scan f g

def spaceView : SpaceViewBase where
  nx := unsigned f g 7 2
  ny := unsigned f g 9 2
  y := degrees f g 11
  x := degrees f g 14
  resolutionAndComponentFlags := resolution f g
  dx := unsigned f g 18 3
  dy := unsigned f g 21 3
  xp := signed f g 24 2
  yp := signed f g 26 2
  scanMode := scan f g
  orientation := unsigned f g 29 3
  nr := unsigned f g 32 3
  Xo := signed f g 35 2
  Yo := signed f g 37 2

/-- The comments give the octets of Di to `dy` and those of Dj to `dx`. -/
def mercator : MercatorBase where
  nx := unsigned f g 7 2
  ny := unsigned f g 9 2
  y1 := degrees f g 11
  x1 := degrees f g 14
  resolutionAndComponentFlags := resolution f g
  y2 := degrees f g 18
  x2 := degrees f g 21
  latin := degrees f g 24
  scanMode := scan f g
  dy := increment f g 29 3
  dx := increment f g 32 3

/-- Octets 33-42. -/
def rotation : Rotation where
  yp := degrees f g 33
  xp := degrees f g 36
  ang := ibm f g 39

/-- Octets `i` to `i + 9`. -/
def stretching (i : ℕ) : Stretching where
  ysp := degrees f g i
  xsp := degrees f g (i + 3)
  sFactor := ibm f g (i + 6)

/-- The stretching follows the rotation, in octets 43-52. -/
def rotationStretching : RotationStretching where
  rot := rotation f g
  stretch := stretching f g 43

end Documented

open Documented

/-- The grid that the octets of the section at `g` document. -/
def GridInfo.documented (f : File) (g : ℕ) : RepresentationType → GridInfo
  | .undefGrid => monostate
  | .latLonGridEquidistCylindr => latLon ⟨Documented.latLon f g, {}⟩
  | .rotatedLatLon => rotatedLatLon ⟨Documented.latLon f g, rotation f g⟩
  | .stretchedLatLon => stretchedLatLon ⟨Documented.latLon f g, stretching f g 33⟩
  | .stretchedAndRotatedLatLon => stretchedAndRotatedLatLon ⟨Documented.latLon f g, rotationStretching f g⟩
  | .gaussian => gaussian ⟨Documented.gaussian f g, {}⟩
  | .rotatedGaussianLatLon => rotatedGaussianLatLon ⟨Documented.gaussian f g, rotation f g⟩
  | .stretchedGaussianLatLon => stretchedGaussianLatLon ⟨Documented.gaussian f g, stretching f g 33⟩
  | .stretchedRotatedGaussianLatLon =>
    stretchedRotatedGaussianLatLon ⟨Documented.gaussian f g, rotationStretching f g⟩
  | .lambert => lambert ⟨Documented.lambert f g, {}⟩
  | .obliqueLambertConformal => obliqueLambertConformal ⟨Documented.lambert f g, {}⟩
  | .utm => utm ⟨{}, {}⟩
  | .albersEqualArea => albersEqualArea ⟨albers f g, {}⟩
  | .spaceView => spaceView ⟨Documented.spaceView f g, {}⟩
  | .gnomonic => gnomonic ⟨{}, {}⟩
  | .sphericalHarmonicCoefficients => sphericalHarmonicCoefficients ⟨Documented.harmonic f g, {}⟩
  | .rotatedSphericalHarmonicCoefficients =>
    rotatedSphericalHarmonicCoefficients ⟨Documented.harmonic f g, rotation f g⟩
  | .stretchedSphericalHarmonicCoefficients =>
    stretchedSphericalHarmonicCoefficients ⟨Documented.harmonic f g, stretching f g 33⟩
  | .stretchedRotatedSphericalHarmonicCoefficients =>
    stretchedRotatedSphericalHarmonicCoefficients ⟨Documented.harmonic f g, rotationStretching f g⟩
  | .polarStereographProj => polarStereographProj ⟨polar f g, {}⟩
  | .millersCylindr => millersCylindr ⟨{}, {}⟩
  | .simplePolyconic => simplePolyconic ⟨{}, {}⟩
  | .mercator => mercator ⟨Documented.mercator f g, {}⟩

/-! ## Readers and octets -/

section Octets

theorem signMagnitude2_eq {a b : ℕ} (ha : a < 256) (hb : b < 256) :
    signMagnitude2 a b = signMagnitude 15 (a * 256 + b) := by
  have hsign : 128 ≤ a ↔ 2 ^ 15 ≤ a * 256 + b := by omega
  have hmagnitude : a % 128 * 256 + b = (a * 256 + b) % 2 ^ 15 := by omega
  simp only [signMagnitude2, signMagnitude, hsign, hmagnitude]

theorem signMagnitude3_eq {a b c : ℕ} (ha : a < 256) (hb : b < 256) (hc : c < 256) :
    signMagnitude3 a b c = signMagnitude 23 ((a * 256 + b) * 256 + c) := by
  have hsign : 128 ≤ a ↔ 2 ^ 23 ≤ (a * 256 + b) * 256 + c := by omega
  have hmagnitude : (a % 128 * 256 + b) * 256 + c = ((a * 256 + b) * 256 + c) % 2 ^ 23 := by omega
  simp only [signMagnitude3, signMagnitude, hsign, hmagnitude]

/-- A mask of one bit tests the bit. -/
theorem mask_eq_flag (f : File) (g i k : ℕ) :
    (Octets.octet f (g + (i - 1)) &&& 2 ^ (8 - k) != 0) = flag f g i k := by
  rw [flag, Nat.and_two_pow, Nat.testBit_eq_decide_div_mod_eq]
  by_cases h : Octets.octet f (g + (i - 1)) / 2 ^ (8 - k) % 2 = 1
  · simp [h]
  · simp [h]

/-- The masked bit is never the number 1. -/
theorem mask_bipolar (f : File) (g : ℕ) : (Octets.octet f (g + 26) &&& 64 == 1) = false := by
  have h := Nat.and_two_pow (Octets.octet f (g + 26)) 6
  rw [show (2 : ℕ) ^ 6 = 64 from rfl] at h
  rw [h]
  cases (Octets.octet f (g + 26)).testBit 6 <;> rfl

variable {lib : OsterLib} (hlib : lib.ReadsSigned) {f : File} {g : ℕ}

include hlib

theorem int2Of_eq (p : ℕ) : int2Of lib f p = signMagnitude 15 (Octets.be f p 2) := by
  rw [int2Of, hlib.int2_eq, signMagnitude2_eq (Octets.octet_lt ..) (Octets.octet_lt ..)]
  simp only [Octets.be, Nat.zero_mul, Nat.zero_add, Nat.add_zero]

theorem int3Of_eq (p : ℕ) : int3Of lib f p = signMagnitude 23 (Octets.be f p 3) := by
  rw [int3Of, hlib.int3_eq, signMagnitude3_eq (Octets.octet_lt ..) (Octets.octet_lt ..) (Octets.octet_lt ..)]
  simp only [Octets.be, Nat.zero_mul, Nat.zero_add, Nat.add_zero]

theorem signed2Of_eq (p : ℕ) : signed2Of lib f p = signMagnitude 15 (Octets.be f p 2) := by
  rw [signed2Of, hlib.signed2_eq, signMagnitude2_eq (Octets.octet_lt ..) (Octets.octet_lt ..)]
  simp only [Octets.be, Nat.zero_mul, Nat.zero_add, Nat.add_zero]

end Octets

section Flags

variable (f : File) (g : ℕ)

/-- The bits of octet 17 that are read are those of code table 7. -/
def ResolutionRead : Prop :=
  flag f g 17 8 = flag f g 17 1 ∧ flag f g 17 7 = flag f g 17 2 ∧ flag f g 17 4 = flag f g 17 5

/-- The bits of octet 28 that are read are those of code table 8. -/
def ScanRead : Prop :=
  flag f g 28 8 = flag f g 28 1 ∧ flag f g 28 7 = flag f g 28 2 ∧ flag f g 28 6 = flag f g 28 3

variable {f g}

theorem resolution_eq_iff : ResolutionComponentFlags.ofOctet (modeOf f g) = resolution f g ↔ ResolutionRead f g := by
  have h1 : (modeOf f g &&& 1 != 0) = flag f g 17 8 := mask_eq_flag f g 17 8
  have h2 : (modeOf f g &&& 2 != 0) = flag f g 17 7 := mask_eq_flag f g 17 7
  have h3 : (modeOf f g &&& 16 != 0) = flag f g 17 4 := mask_eq_flag f g 17 4
  simp only [ResolutionComponentFlags.ofOctet, resolution, ResolutionComponentFlags.mk.injEq, h1, h2, h3,
    ResolutionRead]

theorem scan_eq_iff : ScanMode.ofOctet (Octets.octet f (g + 27)) = scan f g ↔ ScanRead f g := by
  have h1 : (Octets.octet f (g + 27) &&& 1 != 0) = flag f g 28 8 := mask_eq_flag f g 28 8
  have h2 : (Octets.octet f (g + 27) &&& 2 != 0) = flag f g 28 7 := mask_eq_flag f g 28 7
  have h3 : (Octets.octet f (g + 27) &&& 4 != 0) = flag f g 28 6 := mask_eq_flag f g 28 6
  simp only [ScanMode.ofOctet, scan, ScanMode.mk.injEq, h1, h2, h3, ScanRead]

theorem given_iff : modeOf f g &&& 128 ≠ 0 ↔ flag f g 17 1 = true := by
  have h : (modeOf f g &&& 128 != 0) = flag f g 17 1 := mask_eq_flag f g 17 1
  rw [← h, bne_iff_ne]

theorem southPole_eq : (!(Octets.octet f (g + 26) &&& 128 == 0)) = flag f g 27 1 := mask_eq_flag f g 27 1

end Flags

section Values

/-- A number is its thousandth only when it is zero. -/
theorem eq_milli_iff {z : ℤ} : (z : ℚ) = milli z ↔ z = 0 := by
  rw [milli, eq_div_iff (by norm_num), mul_right_eq_self₀, Int.cast_eq_zero]
  norm_num

theorem milli_signMagnitude_eq_iff {w v : ℕ} : milli (signMagnitude w v) = v ↔ v = 0 := by
  constructor
  · intro h
    by_cases hv : v < 2 ^ w
    · rw [signMagnitude_of_lt hv, eq_comm] at h
      have := eq_milli_iff.mp (by exact_mod_cast h)
      exact_mod_cast this
    · rw [signMagnitude_of_le (not_lt.mp hv), milli, div_eq_iff (by norm_num)] at h
      have h0 : -((v % 2 ^ w : ℕ) : ℤ) = v * 1000 := by exact_mod_cast h
      omega
  · rintro rfl
    simp [signMagnitude, milli]

theorem toSigned_natCast_eq_iff {v : ℕ} (h : v < 2 ^ 16) : toSigned 16 v = v ↔ v < 2 ^ 15 := by
  rw [toSigned, Int.bmod_eq_iff (by norm_num)]
  constructor <;> intro h' <;> omega

theorem toSigned_signMagnitude (v : ℕ) : toSigned 16 (signMagnitude 15 v) = signMagnitude 15 v := by
  have hmod := Nat.mod_lt v (show 0 < 2 ^ 15 by norm_num)
  refine Int.bmod_eq_of_le ?_ ?_ <;> rw [signMagnitude] <;> split <;> omega

theorem toUnsigned_signMagnitude_eq_iff {v : ℕ} (h : v < 2 ^ 16) :
    toUnsigned 16 (signMagnitude 15 v) = v ↔ v < 2 ^ 15 ∨ v = 49152 := by
  rw [toUnsigned, signMagnitude]
  split <;> omega

theorem toUnsigned_signMagnitude_eq_zero {v : ℕ} : toUnsigned 16 (signMagnitude 15 v) = 0 ↔ v % 2 ^ 15 = 0 := by
  have hmod := Nat.mod_lt v (show 0 < 2 ^ 15 by norm_num)
  rw [toUnsigned, signMagnitude]
  split <;> omega

end Values

/-! ## Increments -/

section Increments

variable {lib : OsterLib} (hlib : lib.ReadsSigned) {f : File} {g : ℕ}

/-- A two-octet increment that is given has no sign bit; one that is not given is zero, or octet 17 is. -/
def IncrementRead (f : File) (g i : ℕ) : Prop :=
  (flag f g 17 1 = true → unsigned f g i 2 < 2 ^ 15) ∧
  (flag f g 17 1 = false → modeOf f g ≠ 0 → unsigned f g i 2 % 2 ^ 15 = 0)

/-- The two grid lengths of a Mercator grid, read in each other's place, are the same and have no sign bit. -/
def MercatorLengthsRead (f : File) (g : ℕ) : Prop :=
  flag f g 17 1 = true → unsigned f g 29 3 = unsigned f g 32 3 ∧ unsigned f g 32 3 < 2 ^ 23

theorem unsigned_two_lt (f : File) (g i : ℕ) : unsigned f g i 2 < 2 ^ 16 := Octets.be_lt f _ 2

theorem modeOf_ne_zero (h : flag f g 17 1 = true) : modeOf f g ≠ 0 := by
  intro h0
  have := given_iff.mpr h
  rw [h0] at this
  exact this rfl

theorem gated_eq_iff (i : ℕ) :
    (if modeOf f g ≠ 0 then signMagnitude 15 (unsigned f g i 2) else 0) = (increment f g i 2 : ℕ) ↔
      IncrementRead f g i := by
  rw [increment, IncrementRead]
  cases hflag : flag f g 17 1 with
  | true =>
    rw [if_pos (modeOf_ne_zero hflag)]
    simp [signMagnitude_eq_self]
  | false =>
    by_cases h0 : modeOf f g = 0
    · simp [h0]
    · simp [h0, signMagnitude_eq_zero]

theorem gated_unsigned_eq_iff (i : ℕ) :
    toUnsigned 16 (if modeOf f g ≠ 0 then signMagnitude 15 (unsigned f g i 2) else 0) = increment f g i 2 ↔
      IncrementRead f g i ∨ flag f g 17 1 = true ∧ unsigned f g i 2 = 49152 := by
  rw [increment, IncrementRead]
  cases hflag : flag f g 17 1 with
  | true =>
    rw [if_pos (modeOf_ne_zero hflag)]
    simp [toUnsigned_signMagnitude_eq_iff (unsigned_two_lt f g i)]
  | false =>
    by_cases h0 : modeOf f g = 0
    · simp [h0, toUnsigned]
    · simp [h0, toUnsigned_signMagnitude_eq_zero]

theorem swapped_iff {u v : ℕ} (hv : v < 2 ^ 24) :
    signMagnitude 23 v = u ∧ signMagnitude 23 u = v ↔ u = v ∧ v < 2 ^ 23 := by
  constructor
  · rintro ⟨h1, h2⟩
    by_cases hlt : v < 2 ^ 23
    · rw [signMagnitude_of_lt hlt] at h1
      omega
    · rw [signMagnitude_of_le (not_lt.mp hlt)] at h1
      have h0 : u = 0 := by omega
      rw [h0, signMagnitude_of_lt (by norm_num)] at h2
      omega
  · rintro ⟨rfl, h⟩
    rw [signMagnitude_of_lt h]
    exact ⟨rfl, rfl⟩

include hlib

theorem latLonDx_eq_iff : latLonDxOf lib f g = (increment f g 24 2 : ℕ) ↔ IncrementRead f g 24 := by
  rw [latLonDxOf, int2Of_eq hlib]
  exact gated_eq_iff 24

theorem latLonDy_eq_iff : latLonDyOf lib f g = (increment f g 26 2 : ℕ) ↔ IncrementRead f g 26 := by
  rw [latLonDyOf, int2Of_eq hlib]
  exact gated_eq_iff 26

theorem directionIncrement_eq_iff : toUnsigned 16 (latLonDxOf lib f g) = increment f g 24 2 ↔
    IncrementRead f g 24 ∨ flag f g 17 1 = true ∧ unsigned f g 24 2 = 49152 := by
  rw [latLonDxOf, int2Of_eq hlib]
  exact gated_unsigned_eq_iff 24

theorem mercLengths_eq_iff :
    (mercDyOf lib f g = (increment f g 29 3 : ℕ) ∧ mercDxOf lib f g = (increment f g 32 3 : ℕ)) ↔
      MercatorLengthsRead f g := by
  simp only [mercDyOf, mercDxOf, given_iff, int3Of_eq hlib, increment, MercatorLengthsRead]
  cases flag f g 17 1 with
  | true =>
    simp only [if_true, true_imp_iff]
    exact swapped_iff (Octets.be_lt f _ 3)
  | false => simp

end Increments

/-! ## Bases -/

section Bases

variable {lib : OsterLib} (hlib : lib.ReadsSigned) {f : File} {g : ℕ}

/-- Only one projection centre is used, and the grid lengths are zero. -/
def ConicRead (f : File) (g : ℕ) : Prop :=
  flag f g 27 2 = false ∧ unsigned f g 21 3 = 0 ∧ unsigned f g 24 3 = 0

include hlib

theorem latLon_eq_iff : LatLonBase.decoded lib f g = Documented.latLon f g ↔
    ResolutionRead f g ∧ ScanRead f g ∧ IncrementRead f g 24 ∧ IncrementRead f g 26 := by
  simp only [LatLonBase.decoded, Documented.latLon, LatLonBase.mk.injEq, degrees, signed, unsigned, int3Of_eq hlib,
    milli_inj, latLonDx_eq_iff hlib, latLonDy_eq_iff hlib, resolution_eq_iff, scan_eq_iff, Nat.reduceSub,
    Nat.reduceMul, true_and]
  exact ⟨fun ⟨h26, h24, hs, hr⟩ => ⟨hr, hs, h24, h26⟩, fun ⟨hr, hs, h24, h26⟩ => ⟨h26, h24, hs, hr⟩⟩

theorem gaussian_eq_iff : GaussianBase.decoded lib f g = Documented.gaussian f g ↔
    ResolutionRead f g ∧ ScanRead f g ∧ unsigned f g 7 2 < 2 ^ 15 ∧
      (IncrementRead f g 24 ∨ flag f g 17 1 = true ∧ unsigned f g 24 2 = 49152) := by
  have hnx := toSigned_natCast_eq_iff (unsigned_two_lt f g 7)
  simp only [unsigned, Nat.reduceSub] at hnx
  simp only [GaussianBase.decoded, Documented.gaussian, GaussianBase.mk.injEq, degrees, signed, unsigned,
    int3Of_eq hlib, directionIncrement_eq_iff hlib, resolution_eq_iff, scan_eq_iff, hnx, Nat.reduceSub, Nat.reduceMul,
    true_and]
  exact ⟨fun ⟨hn, hi, hs, hr⟩ => ⟨hr, hs, hn, hi⟩, fun ⟨hr, hs, hn, hi⟩ => ⟨hn, hi, hs, hr⟩⟩

theorem albers_eq_iff : AlbersBase.decoded lib f g = albers f g ↔
    ResolutionRead f g ∧ ScanRead f g ∧ ConicRead f g := by
  simp only [AlbersBase.decoded, albers, AlbersBase.mk.injEq, degrees, signed, unsigned, int3Of_eq hlib,
    milli_signMagnitude_eq_iff, southPole_eq, mask_bipolar, resolution_eq_iff, scan_eq_iff, ConicRead, Nat.reduceSub,
    Nat.reduceMul, true_and, eq_comm (a := false)]
  exact ⟨fun ⟨hy, hx, hb, hs, hr⟩ => ⟨hr, hs, hb, hx, hy⟩, fun ⟨hr, hs, hb, hx, hy⟩ => ⟨hy, hx, hb, hs, hr⟩⟩

theorem lambert_eq_iff : LambertBase.decoded lib f g = Documented.lambert f g ↔
    ResolutionRead f g ∧ ScanRead f g ∧ ConicRead f g ∧ signed f g 18 3 = 0 ∧ signed f g 29 3 = 0 ∧
      signed f g 32 3 = 0 := by
  simp only [LambertBase.decoded, Documented.lambert, LambertBase.mk.injEq, degrees, signed, unsigned, int3Of_eq hlib,
    milli_signMagnitude_eq_iff, eq_milli_iff, southPole_eq, mask_bipolar, resolution_eq_iff, scan_eq_iff, ConicRead,
    Nat.reduceSub, Nat.reduceMul, true_and, eq_comm (a := false)]
  constructor
  · rintro ⟨hr, hlov, hx, hy, hb, hs, h1, h2, -⟩
    exact ⟨hr, hs, ⟨hb, hx, hy⟩, hlov, h1, h2⟩
  · rintro ⟨hr, hs, ⟨hb, hx, hy⟩, hlov, h1, h2⟩
    exact ⟨hr, hlov, hx, hy, hb, hs, h1, h2, trivial⟩

theorem spaceView_eq_iff : SpaceViewBase.decoded lib f g = Documented.spaceView f g ↔
    ResolutionRead f g ∧ ScanRead f g ∧ (flag f g 17 1 = false → unsigned f g 7 2 = 0 ∧ unsigned f g 9 2 = 0) := by
  simp only [SpaceViewBase.decoded, Documented.spaceView, SpaceViewBase.mk.injEq, degrees, signed, unsigned,
    int3Of_eq hlib, signed2Of_eq hlib, toSigned_signMagnitude, polarNxOf, polarNyOf, given_iff, resolution_eq_iff,
    scan_eq_iff, Nat.reduceSub, Nat.reduceMul, true_and]
  cases flag f g 17 1 with
  | true =>
    simp only [if_true, true_and]
    exact ⟨fun ⟨hr, hs, _⟩ => ⟨hr, hs, nofun⟩, fun ⟨hr, hs, _⟩ => ⟨hr, hs, trivial⟩⟩
  | false =>
    simp only [Bool.false_eq_true, if_false, true_imp_iff]
    constructor
    · rintro ⟨hx, hy, hr, hs, -⟩
      exact ⟨hr, hs, hx.symm, hy.symm⟩
    · rintro ⟨hr, hs, hx, hy⟩
      exact ⟨hx.symm, hy.symm, hr, hs, trivial⟩

theorem mercator_eq_iff : MercatorBase.decoded lib f g = Documented.mercator f g ↔
    ResolutionRead f g ∧ ScanRead f g ∧ unsigned f g 7 2 < 2 ^ 15 ∧ MercatorLengthsRead f g ∧
      toSigned 16 (increment f g 29 3 : ℕ) = unsigned f g 9 2 ∧ ∀ i ∈ [11, 14, 18, 21, 24], signed f g i 3 = 0 := by
  have hnx := toSigned_natCast_eq_iff (unsigned_two_lt f g 7)
  have hlengths := mercLengths_eq_iff hlib (f := f) (g := g)
  have hcast : ∀ (z : ℤ) (n : ℕ), (z : ℚ) = n ↔ z = n := fun z n => by exact_mod_cast Iff.rfl
  simp only [unsigned, Nat.reduceSub] at hnx
  simp only [MercatorBase.decoded, Documented.mercator, MercatorBase.mk.injEq, degrees, signed, unsigned,
    int3Of_eq hlib, eq_milli_iff, hnx, hcast, ← hlengths, resolution_eq_iff, scan_eq_iff, List.forall_mem_cons,
    Nat.reduceSub, Nat.reduceMul]
  constructor
  · rintro ⟨hn, hny, hy1, hx1, hr, hy2, hx2, hlat, hs, hdy, hdx⟩
    exact ⟨hr, hs, hn, ⟨hdy, hdx⟩, by rw [← hdy, hny], hy1, hx1, hy2, hx2, hlat, nofun⟩
  · rintro ⟨hr, hs, hn, ⟨hdy, hdx⟩, hny, hy1, hx1, hy2, hx2, hlat, -⟩
    exact ⟨hn, by rw [hdy, hny], hy1, hx1, hr, hy2, hx2, hlat, hs, hdy, hdx⟩

omit hlib in
theorem harmonic_eq : HarmonicBase.decoded f g = Documented.harmonic f g := by
  simp only [HarmonicBase.decoded, Documented.harmonic, unsigned, Octets.be, Nat.reduceSub, Nat.zero_mul, Nat.zero_add,
    Nat.add_zero]

omit hlib in
theorem polar_ne : PolarBase.decoded lib f g ≠ polar f g := by
  intro h
  have hpole : (Octets.octet f (g + 26) &&& 128 == 0) = flag f g 27 1 := congrArg PolarBase.isSouthPole h
  rw [← southPole_eq] at hpole
  cases hb : (Octets.octet f (g + 26) &&& 128 == 0) <;> rw [hb] at hpole <;> cases hpole

end Bases

/-! ## The variant -/

namespace GridInfo

/-- The section at `g` gives a grid of its type in octet 6, with the value that is documented in every field. -/
def AsDocumented (lib : OsterLib) (f : File) (g : ℕ) (r : RepresentationType) : Prop :=
  ∃ grid, GridDescriptionSection.defineGrid ⟨some g⟩ lib f = .ok grid ∧ grid.type = r ∧ grid = documented f g r

/-- When the octets of a section are read as they are documented. -/
def DocumentedWhen (f : File) (g : ℕ) : RepresentationType → Prop
  | .undefGrid | .utm | .gnomonic | .millersCylindr | .simplePolyconic | .sphericalHarmonicCoefficients => True
  | .latLonGridEquidistCylindr =>
    ResolutionRead f g ∧ ScanRead f g ∧ IncrementRead f g 24 ∧ IncrementRead f g 26
  | .gaussian =>
    ResolutionRead f g ∧ ScanRead f g ∧ unsigned f g 7 2 < 2 ^ 15 ∧
      (IncrementRead f g 24 ∨ flag f g 17 1 = true ∧ unsigned f g 24 2 = 49152)
  | .albersEqualArea => ResolutionRead f g ∧ ScanRead f g ∧ ConicRead f g
  | .lambert =>
    ResolutionRead f g ∧ ScanRead f g ∧ ConicRead f g ∧ signed f g 18 3 = 0 ∧ signed f g 29 3 = 0 ∧
      signed f g 32 3 = 0
  | .spaceView =>
    ResolutionRead f g ∧ ScanRead f g ∧ (flag f g 17 1 = false → unsigned f g 7 2 = 0 ∧ unsigned f g 9 2 = 0)
  | .mercator =>
    ResolutionRead f g ∧ ScanRead f g ∧ unsigned f g 7 2 < 2 ^ 15 ∧ MercatorLengthsRead f g ∧
      toSigned 16 (increment f g 29 3 : ℕ) = unsigned f g 9 2 ∧ ∀ i ∈ [11, 14, 18, 21, 24], signed f g i 3 = 0
  -- the pole flag of a polar grid is inverted, and a modified grid has the type of its base
  | _ => False

/-- **A grid is decoded as it is documented** exactly when its octets avoid the masks, signs, scales and octets that the
code takes for others; a polar stereographic, an oblique Lambert and every rotated or stretched grid never is. -/
theorem asDocumented_iff {lib : OsterLib} (hlib : lib.ReadsSigned) {f : File} {g : ℕ} {r : RepresentationType}
    (hr : RepresentationType.ofOctet (Octets.octet f (g + 5)) = some r) (hlen : g + gridOctets r ≤ f.length) :
    AsDocumented lib f g r ↔ DocumentedWhen f g r := by
  have hsplit : AsDocumented lib f g r ↔ (decoded lib f g r).type = r ∧ decoded lib f g r = documented f g r := by
    rw [AsDocumented, GridDescriptionSection.defineGrid_ok hr hlen]
    constructor
    · rintro ⟨grid, ⟨⟩, htype, hgrid⟩
      exact ⟨htype, hgrid⟩
    · rintro ⟨htype, hgrid⟩
      exact ⟨_, rfl, htype, hgrid⟩
  rw [hsplit]
  cases r <;> simp only [decoded, documented, type, latLon.injEq, gaussian.injEq, albersEqualArea.injEq, lambert.injEq,
    spaceView.injEq, mercator.injEq, polarStereographProj.injEq, sphericalHarmonicCoefficients.injEq,
    GridDefinition.mk.injEq, true_and, and_true, reduceCtorEq, false_and]
  case latLonGridEquidistCylindr => exact latLon_eq_iff hlib
  case gaussian => exact gaussian_eq_iff hlib
  case albersEqualArea => exact albers_eq_iff hlib
  case lambert => exact lambert_eq_iff hlib
  case spaceView => exact spaceView_eq_iff hlib
  case mercator => exact mercator_eq_iff hlib
  case sphericalHarmonicCoefficients => exact iff_of_true harmonic_eq trivial
  case polarStereographProj => exact iff_of_false polar_ne not_false
  all_goals rfl
/-- A section whose octet 17 has the bit of the increments at both ends. -/
theorem asDocumented_iff_bothEnds :
    AsDocumented OsterLib.reference (latLonSection.set 16 129) 0 .latLonGridEquidistCylindr :=
  (asDocumented_iff OsterLib.reference_readsSigned rfl (by decide)).mpr
    ⟨⟨by decide, by decide, by decide⟩, ⟨by decide, by decide, by decide⟩, ⟨by decide, by decide⟩, by decide, by decide⟩

/-- The increments of this section are given, and the grid says that they are not. -/
theorem latLonSection_misread :
    ¬ AsDocumented OsterLib.reference latLonSection 0 .latLonGridEquidistCylindr := by
  rintro ⟨grid, hdefine, -, rfl⟩
  rw [GridDescriptionSection.defineGrid_ok rfl (by decide)] at hdefine
  have hbase := (latLon.inj (Except.ok.inj hdefine))
  rw [GridDefinition.mk.injEq, latLon_eq_iff OsterLib.reference_readsSigned] at hbase
  exact absurd hbase.1.1.1 (by decide)

end GridInfo

end Mashroom
