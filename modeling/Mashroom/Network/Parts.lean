import Mashroom.Network.GridFormats

/-!
# Network.Parts — how the properties of data are written

What is searched for, and what is found, as parts of the messages of both sides.
-/

namespace Mashroom

open Network

/-- `find_data_info::details::Additional` -/
structure FoundAdditional (τ : Type) where
  grid : Option GridInfo
  ts : τ
  lvl : Option Level
  fcst : Option TimeForecast
  deriving DecidableEq

/-- `FoundSublimedDataInfo<TIME_SERIES,GRIB_v1>` -/
structure FoundSublimedDataInfo (τ : Type) where
  add : FoundAdditional τ
  cmn : CommonDataProperties
  deriving DecidableEq

/-! ## The values of the C++ types -/

structure TimeForecast.Fits (t : TimeForecast) : Prop where
  nat16 : t.N < 2 ^ 16
  nat8 : ∀ n ∈ [t.NAvgAccMissed, t.P1, t.P2, t.tf, t.tri], n < 2 ^ 8

structure Level.Fits (l : Level) : Prop where
  nat8 : ∀ n ∈ [l.levelType, l.octet11, l.octet12], n < 2 ^ 8

structure SearchParamTableVersion.Fits (p : SearchParamTableVersion) : Prop where
  nat8 : ∀ n ∈ [p.param, p.tVer], n < 2 ^ 8

structure CommonDataProperties.Fits (c : CommonDataProperties) : Prop where
  center : ∀ n ∈ c.center, n < 2 ^ 8
  tableVersion : ∀ n ∈ c.tableVersion, n < 2 ^ 8
  parameter : ∀ n ∈ c.parameter, n < 2 ^ 8

structure SearchProperties.Fits (p : SearchProperties) : Prop where
  count : p.parameters.length < 2 ^ 64
  nodup : p.parameters.Nodup
  parameters : ∀ x ∈ p.parameters, x.Fits
  time : ∀ t ∈ [p.fromDate, p.toDate], -2 ^ 63 ≤ t ∧ t < 2 ^ 63
  position : ∀ pos ∈ p.position, IsFloat64 pos.lat ∧ IsFloat64 pos.lon
  center : ∀ n ∈ p.center, n < 2 ^ 8
  fcstUnit : ∀ t ∈ p.fcstUnit, t.Fits
  level : ∀ l ∈ p.level, l.Fits

structure FoundAdditional.Fits {τ : Type} (a : FoundAdditional τ) : Prop where
  grid : ∀ g ∈ a.grid, g.Fits
  lvl : ∀ l ∈ a.lvl, l.Fits
  fcst : ∀ t ∈ a.fcst, t.Fits

structure FoundSublimedDataInfo.Fits {τ : Type} (i : FoundSublimedDataInfo τ) : Prop where
  add : i.add.Fits
  cmn : i.cmn.Fits

namespace Network

open Format

namespace OsterFormats

section Formats

variable {τ π : Type} (o : OsterFormats τ π)

/-- The time range indicator is an enumeration without an underlying type, which has four octets. -/
def timeForecast : Format TimeForecast where
  serialize order t := serializeAll order [⟨o.nat16, t.N⟩, ⟨o.nat8, t.NAvgAccMissed⟩, ⟨o.nat8, t.P1⟩,
    ⟨o.nat8, t.P2⟩, ⟨o.nat8, t.tf⟩, ⟨o.nat32, t.tri⟩]
  deserialize order := front do
    return {
      N := ← o.nat16.read order
      NAvgAccMissed := ← o.nat8.read order
      P1 := ← o.nat8.read order
      P2 := ← o.nat8.read order
      tf := ← o.nat8.read order
      tri := ← o.nat32.read order }
  serialSize t := serialSizeAll [⟨o.nat16, t.N⟩, ⟨o.nat8, t.NAvgAccMissed⟩, ⟨o.nat8, t.P1⟩,
    ⟨o.nat8, t.P2⟩, ⟨o.nat8, t.tf⟩, ⟨o.nat32, t.tri⟩]

def level : Format Level where
  serialize order l := serializeAll order [⟨o.nat8, l.levelType⟩, ⟨o.nat8, l.octet11⟩, ⟨o.nat8, l.octet12⟩]
  deserialize order := front do
    return {
      levelType := ← o.nat8.read order
      octet11 := ← o.nat8.read order
      octet12 := ← o.nat8.read order }
  serialSize l := serialSizeAll [⟨o.nat8, l.levelType⟩, ⟨o.nat8, l.octet11⟩, ⟨o.nat8, l.octet12⟩]

def searchParamTableVersion : Format SearchParamTableVersion where
  serialize order p := serializeAll order [⟨o.nat8, p.param⟩, ⟨o.nat8, p.tVer⟩]
  deserialize order := front do
    return { param := ← o.nat8.read order, tVer := ← o.nat8.read order }
  serialSize p := serialSizeAll [⟨o.nat8, p.param⟩, ⟨o.nat8, p.tVer⟩]

def commonDataProperties : Format CommonDataProperties where
  serialize order c := serializeAll order [⟨o.optional o.nat8, c.center⟩, ⟨o.optional o.nat8, c.tableVersion⟩,
    ⟨o.optional o.nat8, c.parameter⟩]
  deserialize order := front do
    return {
      center := ← (o.optional o.nat8).read order
      tableVersion := ← (o.optional o.nat8).read order
      parameter := ← (o.optional o.nat8).read order }
  serialSize c := serialSizeAll [⟨o.optional o.nat8, c.center⟩, ⟨o.optional o.nat8, c.tableVersion⟩,
    ⟨o.optional o.nat8, c.parameter⟩]

def searchProperties : Format SearchProperties where
  serialize order p := serializeAll order [⟨o.unorderedSet o.searchParamTableVersion, p.parameters⟩,
    ⟨o.optional o.timeForecast, p.fcstUnit⟩, ⟨o.optional o.nat8, p.center⟩, ⟨o.time, p.fromDate⟩,
    ⟨o.time, p.toDate⟩, ⟨o.optional o.representationType, p.gridType⟩, ⟨o.optional o.coord, p.position⟩,
    ⟨o.optional o.level, p.level⟩]
  deserialize order := front do
    return {
      parameters := ← (o.unorderedSet o.searchParamTableVersion).read order
      fcstUnit := ← (o.optional o.timeForecast).read order
      center := ← (o.optional o.nat8).read order
      fromDate := ← o.time.read order
      toDate := ← o.time.read order
      gridType := ← (o.optional o.representationType).read order
      position := ← (o.optional o.coord).read order
      level := ← (o.optional o.level).read order }
  serialSize p := serialSizeAll [⟨o.unorderedSet o.searchParamTableVersion, p.parameters⟩,
    ⟨o.optional o.timeForecast, p.fcstUnit⟩, ⟨o.optional o.nat8, p.center⟩, ⟨o.time, p.fromDate⟩,
    ⟨o.time, p.toDate⟩, ⟨o.optional o.representationType, p.gridType⟩, ⟨o.optional o.coord, p.position⟩,
    ⟨o.optional o.level, p.level⟩]

def foundAdditional : Format (FoundAdditional τ) where
  serialize order a := serializeAll order [⟨o.timeSequence, a.ts⟩, ⟨o.sharedPtr o.timeForecast, a.fcst⟩,
    ⟨o.sharedPtr o.gridInfo, a.grid⟩, ⟨o.sharedPtr o.level, a.lvl⟩]
  deserialize order := front do
    return {
      ts := ← o.timeSequence.read order
      fcst := ← (o.sharedPtr o.timeForecast).read order
      grid := ← (o.sharedPtr o.gridInfo).read order
      lvl := ← (o.sharedPtr o.level).read order }
  serialSize a := serialSizeAll [⟨o.timeSequence, a.ts⟩, ⟨o.sharedPtr o.timeForecast, a.fcst⟩,
    ⟨o.sharedPtr o.gridInfo, a.grid⟩, ⟨o.sharedPtr o.level, a.lvl⟩]

def foundSublimedDataInfo : Format (FoundSublimedDataInfo τ) where
  serialize order i := serializeAll order [⟨o.commonDataProperties, i.cmn⟩, ⟨o.foundAdditional, i.add⟩]
  deserialize order := front do
    return { cmn := ← o.commonDataProperties.read order, add := ← o.foundAdditional.read order }
  serialSize i := serialSizeAll [⟨o.commonDataProperties, i.cmn⟩, ⟨o.foundAdditional, i.add⟩]

end Formats

/-! ## The laws -/

section Laws

variable {τ π : Type} {o : OsterFormats τ π}

theorem Documented.timeForecast (ho : o.Documented) {t : TimeForecast} (h : t.Fits) : o.timeForecast.Law t := by
  have h8 := fun n hx => ho.nat8 (h.nat8 n hx)
  exact .of_fields (fun _ => rfl) fun _ => .cons (ho.nat16 h.nat16) <| .cons (h8 _ (by simp)) <|
    .cons (h8 _ (by simp)) <| .cons (h8 _ (by simp)) <| .cons (h8 _ (by simp)) <|
    .cons (ho.nat32 ((h.nat8 _ (by simp)).trans (by decide))) <| .nil

theorem Documented.level (ho : o.Documented) {l : Level} (h : l.Fits) : o.level.Law l := by
  have h8 := fun n hx => ho.nat8 (h.nat8 n hx)
  exact .of_fields (fun _ => rfl) fun _ => .cons (h8 _ (by simp)) <| .cons (h8 _ (by simp)) <|
    .cons (h8 _ (by simp)) <| .nil

theorem Documented.searchParamTableVersion (ho : o.Documented) {p : SearchParamTableVersion} (h : p.Fits) :
    o.searchParamTableVersion.Law p := by
  have h8 := fun n hx => ho.nat8 (h.nat8 n hx)
  exact .of_fields (fun _ => rfl) fun _ => .cons (h8 _ (by simp)) <| .cons (h8 _ (by simp)) <| .nil

/-- An optional octet. -/
theorem Documented.optionalNat8 (ho : o.Documented) {x : Option ℕ} (h : ∀ n ∈ x, n < 2 ^ 8) :
    (o.optional o.nat8).Law x :=
  ho.optional _ _ fun n hn => ho.nat8 (h n hn)

theorem Documented.commonDataProperties (ho : o.Documented) {c : CommonDataProperties} (h : c.Fits) :
    o.commonDataProperties.Law c :=
  .of_fields (fun _ => rfl) fun _ => .cons (ho.optionalNat8 h.center) <| .cons (ho.optionalNat8 h.tableVersion) <|
    .cons (ho.optionalNat8 h.parameter) <| .nil

theorem Documented.searchProperties (ho : o.Documented) {p : SearchProperties} (h : p.Fits) :
    o.searchProperties.Law p := by
  have hparameters := ho.unorderedSet o.searchParamTableVersion _ h.count h.nodup fun x hx =>
    ho.searchParamTableVersion (h.parameters x hx)
  have hfcst := ho.optional o.timeForecast _ fun t ht => ho.timeForecast (h.fcstUnit t ht)
  have htime := fun t ht => ho.time t (h.time t ht)
  have hgrid := ho.optional o.representationType p.gridType fun r _ => ho.representationType r
  have hposition := ho.optional o.coord _ fun pos hpos => ho.coord pos (h.position pos hpos).1 (h.position pos hpos).2
  have hlevel := ho.optional o.level _ fun l hl => ho.level (h.level l hl)
  exact .of_fields (fun _ => rfl) fun _ => .cons hparameters <| .cons hfcst <| .cons (ho.optionalNat8 h.center) <|
    .cons (htime _ (by simp)) <| .cons (htime _ (by simp)) <| .cons hgrid <| .cons hposition <| .cons hlevel <| .nil

theorem Documented.foundAdditional (ho : o.Documented) {a : FoundAdditional τ} (h : a.Fits) :
    o.foundAdditional.Law a := by
  have hfcst := ho.sharedPtr o.timeForecast _ fun t ht => ho.timeForecast (h.fcst t ht)
  have hgrid := ho.sharedPtr o.gridInfo _ fun g hg => ho.gridInfo (h.grid g hg)
  have hlvl := ho.sharedPtr o.level _ fun l hl => ho.level (h.lvl l hl)
  exact .of_fields (fun _ => rfl) fun _ => .cons (ho.timeSequence _) <| .cons hfcst <| .cons hgrid <| .cons hlvl <|
    .nil

theorem Documented.foundSublimedDataInfo (ho : o.Documented) {i : FoundSublimedDataInfo τ} (h : i.Fits) :
    o.foundSublimedDataInfo.Law i :=
  .of_fields (fun _ => rfl) fun _ => .cons (ho.commonDataProperties h.cmn) <| .cons (ho.foundAdditional h.add) <| .nil

end Laws

end OsterFormats

end Network

end Mashroom
