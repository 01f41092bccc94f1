import Mashroom.Grib1.Section

/-!
# Grib1.Levels — what octets 11 and 12 of a level mean

Two tables of the source say for each type of level how many numbers octets 11 and 12 hold: `2` in the first is one
number in both octets, `1` in both tables is one number in each.  `convert_level` gives a number its unit.
-/

namespace Mashroom

/-- Code table 3. -/
inductive LevelsTags where
  | groundOrWaterSurface
  | cloudBaseLevel
  | levelOfCloudTops
  | levelOf0cIsotherm
  | levelOfAdiabaticCondensationLiftedFromSurface
  | maximumWindLevel
  | tropopause
  | nominalTopOfAtmosphere
  | seaBottom
  | isothermalLevel
  | isobaricSurface
  | layerBetweenTwoIsobaricSurfaces
  | meanSeaLevel
  | specifiedAltitudeAboveMeanSeaLevel
  | layerBetweenTwoSpecifiedAltitudes
  | specifiedHeightLevelAboveGround
  | layerBetweenTwoSpecifiedHeightLevels
  | sigmaLevel
  | layerBetweenTwoSigmaLevels
  | hybridLevel
  | layerBetweenTwoHybridLevels
  | depthBelowLandSurface
  | layerBetweenTwoDepthsBelowLand
  | isentropicThetaLevel
  | layerBetweenTwoIsentropicLevels
  | levelAtSpecifiedPressureDifference
  | layerBetweenTwoLevelsAtSpecifiedPressureDifFromGroundToLevel
  | potentialVorticitySurface
  | etaLevel
  | layerBetweenTwoEtaLevels
  | layerBetweenTwoIsobaricSurfacesHp
  | specifiedHeightLevelAboveGroundHp
  | satelliteSpectralBand
  | layerBetweenTwoSigmaLevelsHp
  | layerBetweenTwoIsobaricSurfacesMp
  | depthBelowSeaLevel
  | entireAtmosphere
  | entireOcean
  | isobaricSurfaceHp
  deriving DecidableEq

/-- The tag of a type octet, if it is one of the table's. -/
def LevelsTags.ofOctet : ℕ → Option LevelsTags
  | 1 => some groundOrWaterSurface
  | 2 => some cloudBaseLevel
  | 3 => some levelOfCloudTops
  | 4 => some levelOf0cIsotherm
  | 5 => some levelOfAdiabaticCondensationLiftedFromSurface
  | 6 => some maximumWindLevel
  | 7 => some tropopause
  | 8 => some nominalTopOfAtmosphere
  | 9 => some seaBottom
  | 20 => some isothermalLevel
  | 100 => some isobaricSurface
  | 101 => some layerBetweenTwoIsobaricSurfaces
  | 102 => some meanSeaLevel
  | 103 => some specifiedAltitudeAboveMeanSeaLevel
  | 104 => some layerBetweenTwoSpecifiedAltitudes
  | 105 => some specifiedHeightLevelAboveGround
  | 106 => some layerBetweenTwoSpecifiedHeightLevels
  | 107 => some sigmaLevel
  | 108 => some layerBetweenTwoSigmaLevels
  | 109 => some hybridLevel
  | 110 => some layerBetweenTwoHybridLevels
  | 111 => some depthBelowLandSurface
  | 112 => some layerBetweenTwoDepthsBelowLand
  | 113 => some isentropicThetaLevel
  | 114 => some layerBetweenTwoIsentropicLevels
  | 115 => some levelAtSpecifiedPressureDifference
  | 116 => some layerBetweenTwoLevelsAtSpecifiedPressureDifFromGroundToLevel
  | 117 => some potentialVorticitySurface
  | 119 => some etaLevel
  | 120 => some layerBetweenTwoEtaLevels
  | 121 => some layerBetweenTwoIsobaricSurfacesHp
  | 125 => some specifiedHeightLevelAboveGroundHp
  | 127 => some satelliteSpectralBand
  | 128 => some layerBetweenTwoSigmaLevelsHp
  | 141 => some layerBetweenTwoIsobaricSurfacesMp
  | 160 => some depthBelowSeaLevel
  | 200 => some entireAtmosphere
  | 201 => some entireOcean
  | 210 => some isobaricSurfaceHp
  | _ => none

/-! ## The tables -/

/-- `levels_11_octets` -/
def levels11Octets : List ℕ :=
  List.replicate 20 0 ++
  [1, 0, 0, 0, 0] ++
  List.replicate 75 0 ++
  [2, 1, 0, 2, 1,
   2, 1, 2, 1, 2,
   1, 2, 1, 2, 1,
   2, 1, 1, 0, 2,
   1, 1, 0, 0, 0,
   2, 0, 2, 1, 0] ++
  List.replicate 10 0 ++
  [0, 1, 0, 0, 0] ++
  List.replicate 15 0 ++
  [2, 0, 0, 0, 0] ++
  List.replicate 45 0 ++
  [2, 0, 0, 0, 0] ++
  List.replicate 40 0

/-- `levels_12_octets` -/
def levels12Octets : List ℕ :=
  List.replicate 100 0 ++
  [0, 1, 0, 0, 1,
   0, 1, 0, 1, 0,
   1, 0, 1, 0, 1,
   0, 1, 0, 0, 0,
   1, 1, 0, 0, 0,
   0, 0, 0, 1, 0] ++
  List.replicate 10 0 ++
  [0, 1, 0, 0, 0] ++
  List.replicate 110 0

/-- The entry of a table at an index, which must be inside it. -/
def tableEntry (table : List ℕ) (i : ℕ) : Except Fault ℕ :=
  match table[i]? with
  | some n => .ok n
  | none => .error .element

theorem levels11Octets_length : levels11Octets.length = 255 := by
  simp only [levels11Octets, List.length_append, List.length_replicate, List.length_cons, List.length_nil]

/-! ## Values -/

/-- `level_value_t`: quantities are in their SI units. -/
inductive LevelValue where
  | monostate
  | int (z : ℤ)
  | float (q : ℚ)
  | length (q : ℚ)
  | pressure (q : ℚ)
  | temperature (q : ℚ)
  | vorticity (q : ℚ)
  deriving DecidableEq

/-- `convert_level<11>` -/
def convertLevel11 (octet10 : TableCode) (octetValue : ℤ) : LevelValue :=
  match LevelsTags.ofOctet octet10 with
  | some .isobaricSurface => .pressure (octetValue * 100)
  | some .layerBetweenTwoIsobaricSurfaces => .pressure (octetValue * 1000)
  | some .specifiedAltitudeAboveMeanSeaLevel => .length octetValue
  | some .layerBetweenTwoSpecifiedAltitudes => .length (octetValue * 100)
  | some .specifiedHeightLevelAboveGround => .length octetValue
  | some .layerBetweenTwoSpecifiedHeightLevels => .length (octetValue * 100)
  | some .sigmaLevel => .float (10000 * octetValue)
  | some .layerBetweenTwoSigmaLevels => .float (100 * octetValue)
  | some .hybridLevel | some .layerBetweenTwoHybridLevels => .int octetValue
  | some .depthBelowLandSurface | some .layerBetweenTwoDepthsBelowLand => .length (octetValue / 100)
  | some .isentropicThetaLevel => .temperature octetValue
  | some .layerBetweenTwoIsentropicLevels => .temperature (475 - octetValue)
  | some .levelAtSpecifiedPressureDifference
  | some .layerBetweenTwoLevelsAtSpecifiedPressureDifFromGroundToLevel => .pressure (octetValue * 100)
  -- the value of the octets is not used
  | some .potentialVorticitySurface => .vorticity (1 / 1000000000)
  | some .etaLevel => .float (10000 * octetValue)
  | some .layerBetweenTwoEtaLevels => .float (100 * octetValue)
  | some .layerBetweenTwoIsobaricSurfacesHp => .pressure ((1100 - octetValue) * 100)
  | some .specifiedHeightLevelAboveGroundHp => .length (octetValue / 100)
  | some .satelliteSpectralBand => .float octetValue
  | some .layerBetweenTwoSigmaLevelsHp => .float (1000 * (11 / 10 - octetValue))
  | some .layerBetweenTwoIsobaricSurfacesMp => .pressure (1000 * octetValue)
  | some .depthBelowSeaLevel => .length octetValue
  | some .isothermalLevel => .temperature (100 * octetValue)
  | some .isobaricSurfaceHp => .pressure octetValue
  | _ => .monostate

/-- `convert_level<12>` -/
def convertLevel12 (octet10 : TableCode) (octetValue : ℤ) : LevelValue :=
  match LevelsTags.ofOctet octet10 with
  | some .layerBetweenTwoIsobaricSurfaces => .pressure (octetValue * 1000)
  | some .layerBetweenTwoSpecifiedAltitudes => .length (octetValue * 100)
  | some .layerBetweenTwoSpecifiedHeightLevels => .length (octetValue * 100)
  | some .layerBetweenTwoSigmaLevels => .float (100 * octetValue)
  | some .layerBetweenTwoHybridLevels => .int octetValue
  | some .layerBetweenTwoDepthsBelowLand => .length (octetValue / 100)
  | some .layerBetweenTwoIsentropicLevels => .temperature (475 - octetValue)
  | some .layerBetweenTwoLevelsAtSpecifiedPressureDifFromGroundToLevel => .pressure (octetValue * 100)
  | some .layerBetweenTwoEtaLevels => .float (100 * octetValue)
  | some .layerBetweenTwoIsobaricSurfacesHp => .pressure ((1100 - octetValue) * 100)
  | some .layerBetweenTwoSigmaLevelsHp => .float (1000 * (11 / 10 - octetValue))
  | some .layerBetweenTwoIsobaricSurfacesMp => .pressure ((1100 - octetValue) * 100)
  | _ => .monostate

namespace Level

/-- The types whose entry of `levels_11_octets` is 2. -/
def boundedTypes : List ℕ := [100, 103, 105, 107, 109, 111, 113, 115, 119, 125, 127, 160, 210]

/-- `is_bounded`: `levels_11_octets` has 255 entries, the type 255 is past its end. -/
def isBounded (levelType : TableCode) : Except Fault Bool :=
  if levelType < 255 then .ok (decide (levelType ∈ boundedTypes)) else .error .element

/-- `get_top_bound` -/
def getTopBound (l : Level) : Except Fault LevelValue := do
  if ← isBounded l.levelType then return convertLevel11 l.levelType l.octet11
  else .error .exception

/-- `get_bottom_bound` -/
def getBottomBound (l : Level) : Except Fault LevelValue := do
  if ← isBounded l.levelType then return convertLevel12 l.levelType l.octet12
  else .error .exception

/-- `get_level_height`: the type is looked up a second time, and `2` is there the entry of a bounded level. -/
def getLevelHeight (l : Level) : Except Fault LevelValue := do
  if ← isBounded l.levelType then .error .exception
  else
    let octets ← tableEntry levels11Octets l.levelType
    if octets = 2 then return convertLevel11 l.levelType (toSigned 16 (l.octet11 <<< 8 ||| l.octet12 : ℕ))
    else return convertLevel11 l.levelType l.octet11

/-! ## The meaning the tables give -/

/-- The octets are two separate levels. -/
def Separate (levelType : TableCode) : Prop :=
  levels11Octets[levelType]? = some 1 ∧ levels12Octets[levelType]? = some 1

/-- The octets are one number. -/
def Joined (levelType : TableCode) : Prop := levels11Octets[levelType]? = some 2

instance (t : TableCode) : Decidable (Separate t) := inferInstanceAs (Decidable (_ ∧ _))

instance (t : TableCode) : Decidable (Joined t) := inferInstanceAs (Decidable (_ = _))

/-- What is asked of a level is answered as the tables say, and no table is read outside its bounds. -/
structure Tabled (l : Level) : Prop where
  separate : Separate l.levelType → isBounded l.levelType = .ok true ∧
    l.getTopBound = .ok (convertLevel11 l.levelType l.octet11) ∧
    l.getBottomBound = .ok (convertLevel12 l.levelType l.octet12)
  joined : Joined l.levelType → isBounded l.levelType = .ok false ∧
    l.getLevelHeight = .ok (convertLevel11 l.levelType (256 * l.octet11 + l.octet12))
  inside : isBounded l.levelType ≠ .error .element ∧ l.getTopBound ≠ .error .element ∧
    l.getBottomBound ≠ .error .element ∧ l.getLevelHeight ≠ .error .element

theorem mem_boundedTypes {t : TableCode} : t ∈ boundedTypes ↔ levels11Octets[t]? = some 2 := by
  have h : boundedTypes = (levels11Octets.zipIdx.filter (·.1 = 2)).map (·.2) := by decide
  rw [h]
  simp [List.mem_zipIdx_iff_getElem?]

/-- `is_bounded` compares the entry with `2`. -/
theorem isBounded_eq (t : TableCode) :
    isBounded t = (fun n => decide (n = 2)) <$> tableEntry levels11Octets t := by
  unfold isBounded tableEntry
  split
  · rename_i ht
    have hlt : t < levels11Octets.length := by rwa [levels11Octets_length]
    simp only [mem_boundedTypes, List.getElem?_eq_getElem hlt, Option.some.injEq]
    rfl
  · rename_i ht
    rw [List.getElem?_eq_none (by rw [levels11Octets_length]; exact Nat.le_of_not_lt ht)]
    rfl

/-- Levels whose octets are one number are the bounded ones, and no others. -/
theorem isBounded_iff_joined {t : TableCode} : isBounded t = .ok true ↔ Joined t := by
  rw [isBounded_eq, tableEntry, Joined]
  cases levels11Octets[t]? <;> simp

theorem isBounded_of_not_joined {t : TableCode} (ht : t < 255) (h : ¬ Joined t) : isBounded t = .ok false := by
  have hb : isBounded t = .ok (decide (t ∈ boundedTypes)) := if_pos ht
  cases hd : decide (t ∈ boundedTypes) with
  | true => exact absurd (isBounded_iff_joined.mp (hb.trans (by rw [hd]))) h
  | false => rw [hb, hd]

theorem not_tabled_of_joined {l : Level} (h : Joined l.levelType) : ¬ Tabled l := by
  intro ht
  have hb := (ht.joined h).1
  rw [isBounded_iff_joined.mpr h] at hb
  cases hb

/-- **The octets of a level are read as the tables say exactly for the types of the tables that have neither two
levels nor one number in two octets.** -/
theorem tabled_iff (l : Level) : Tabled l ↔ l.levelType < 255 ∧ ¬ Separate l.levelType ∧ ¬ Joined l.levelType := by
  constructor
  · intro h
    refine ⟨?_, ?_, fun hj => not_tabled_of_joined hj h⟩
    · by_contra hge
      exact h.inside.1 (if_neg hge)
    · intro hs
      have hj := isBounded_iff_joined.mp (h.separate hs).1
      rw [Joined, hs.1] at hj
      cases hj
  · rintro ⟨ht, hs, hj⟩
    have hb := isBounded_of_not_joined ht hj
    have hlt : l.levelType < levels11Octets.length := by
      rw [levels11Octets_length]
      exact ht
    refine ⟨fun h => absurd h hs, fun h => absurd h hj, ?_, ?_, ?_, ?_⟩
    · rw [hb]
      nofun
    · rw [getTopBound, hb]
      nofun
    · rw [getBottomBound, hb]
      nofun
    · rw [getLevelHeight, hb, ok_bind, tableEntry, List.getElem?_eq_getElem hlt]
      simp only [Bool.false_eq_true, if_false, ok_bind]
      split <;> nofun

/-- The isobaric surface of 1000 hPa is taken for a layer between two. -/
theorem isobaric_surface_bounded :
    isBounded 100 = .ok true ∧ getLevelHeight ⟨100, 3, 232⟩ = .error .exception ∧ ¬ Tabled ⟨100, 3, 232⟩ :=
  ⟨by decide, by decide, not_tabled_of_joined (by decide)⟩

end Level

end Mashroom
