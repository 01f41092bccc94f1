import Mashroom.Proc.Json

/-!
# Proc.KeyJson — what becomes of forecasts and levels in JSON

A forecast is read back with its first period in place of the second one, which is not always written, and with the
counts only where its indicator is one of an interval (`forecast_json_iff`).  The three values of a level are all
read as its first octet, and its type is never set; and a value that cannot be read is passed over
(`level_json`).  This is so whether the object is read as it was written or from its text.
-/

namespace Mashroom

/-- A value as it was written, or as it is read from its text. -/
def passed (text : Bool) (j : Json) : Json := if text then j.reread else j

/-- What the conversions of OsterLib write for a value they read as this value. -/
structure JsonLib.ReadsBack (lib : JsonLib) (text : Bool) : Prop where
  nat8 : ∀ n < 2 ^ 8, lib.nat8.fromJson (passed text (lib.nat8.toJson n)) = some n
  uint64 : ∀ n < 2 ^ 8, lib.nat8.fromJson (passed text (.uint64 n)) = some n
  nat16 : ∀ n < 2 ^ 16, lib.nat16.fromJson (passed text (lib.nat16.toJson n)) = some n
  timeFrame : ∀ n < 2 ^ 8, lib.timeFrame.fromJson (passed text (lib.timeFrame.toJson n)) = some n
  timeRangeIndicator : ∀ n < 2 ^ 8,
    lib.timeRangeIndicator.fromJson (passed text (lib.timeRangeIndicator.toJson n)) = some n
  levelsTags : ∀ n < 2 ^ 8, lib.levelsTags.fromJson (passed text (lib.levelsTags.toJson n)) = some n

/-- An object has the members that were written. -/
theorem passed_object (text : Bool) (members : List (List Char × Json)) :
    ∃ members', passed text (.object members) = .object members' ∧
      ∀ name, Json.member? members' name = (Json.member? members name).map (passed text) := by
  cases text with
  | false =>
    refine ⟨members, rfl, fun name => ?_⟩
    cases Json.member? members name <;> rfl
  | true =>
    refine ⟨Json.rereadMembers members, ?_, fun name => Json.member?_reread members name⟩
    rw [passed, if_pos rfl, Json.reread]

/-! ## Forecasts -/

section Forecast

variable {lib : JsonLib} {text : Bool} {t : TimeForecast}

/-- What is read for a forecast. -/
def TimeForecast.readBack (t : TimeForecast) : TimeForecast where
  N := if t.isIntervaled then t.N else 65535
  NAvgAccMissed := if t.isIntervaled then t.NAvgAccMissed else 0
  P1 := t.P1
  P2 := if t.octetDoubled ∨ t.isUniqueValue then 0 else t.P1
  tf := t.tf
  tri := t.tri

/-- The members of the object. -/
structure ForecastMembers (lib : JsonLib) (t : TimeForecast) (members : List (List Char × Json)) : Prop where
  tf : Json.member? members "time frame".toList = some (lib.timeFrame.toJson t.tf)
  tri : Json.member? members "time range indicator".toList = some (lib.timeRangeIndicator.toJson t.tri)
  P1 : Json.member? members "P1".toList = some (.uint64 t.P1)
  P2 : ¬ t.octetDoubled → Json.member? members "P2".toList = some (.uint64 t.P2)
  N : t.isIntervaled → Json.member? members "N avg/acc".toList = some (lib.nat16.toJson t.N)
  missed : t.isIntervaled → Json.member? members "N missed".toList = some (lib.nat8.toJson t.NAvgAccMissed)

theorem TimeForecast.toJson_members (lib : JsonLib) (t : TimeForecast) :
    ∃ members, t.toJson lib = .object members ∧ ForecastMembers lib t members := by
  refine ⟨_, rfl, ?_⟩
  by_cases hi : t.isIntervaled <;> by_cases hd : t.octetDoubled ∧ t.isUniqueValue
  · rw [if_pos hi, if_pos hd]
    exact ⟨rfl, rfl, rfl, fun h => absurd hd.1 h, fun _ => rfl, fun _ => rfl⟩
  · rw [if_pos hi, if_neg hd]
    exact ⟨rfl, rfl, rfl, fun _ => rfl, fun _ => rfl, fun _ => rfl⟩
  · rw [if_neg hi, if_pos hd]
    exact ⟨rfl, rfl, rfl, fun h => absurd hd.1 h, fun h => absurd h hi, fun h => absurd h hi⟩
  · rw [if_neg hi, if_neg hd]
    exact ⟨rfl, rfl, rfl, fun _ => rfl, fun h => absurd h hi, fun h => absurd h hi⟩

/-- The counts are read where both are written. -/
theorem TimeForecast.countsFromJson_eq {members : List (List Char × Json)} {jN jMissed : Json} {n missed : ℕ}
    (fcst : TimeForecast) (hN : Json.member? members "N avg/acc".toList = some jN)
    (hmissed : Json.member? members "N missed".toList = some jMissed) (hn : lib.nat16.fromJson jN = some n)
    (hm : lib.nat8.fromJson jMissed = some missed) :
    countsFromJson lib members fcst = some { fcst with N := n, NAvgAccMissed := missed } := by
  unfold countsFromJson
  simp only [hN, hmissed, hn, hm, Option.bind_eq_bind, Option.bind_some]
  rfl

/-- The counts that are read, or those of a new forecast where the indicator is none of an interval; whatever is read
after them. -/
theorem TimeForecast.counts_readBack {written members : List (List Char × Json)} (hl : lib.ReadsBack text) (ht : t.Fits)
    (hmembers : ForecastMembers lib t written)
    (hlookup : ∀ name, Json.member? members name = (Json.member? written name).map (passed text))
    (next : TimeForecast → Option TimeForecast) :
    (if t.isIntervaled then
      (countsFromJson lib members { P1 := 0, P2 := 0, tf := t.tf, tri := t.tri }).bind next
    else next { P1 := 0, P2 := 0, tf := t.tf, tri := t.tri }) = next { t.readBack with P1 := 0, P2 := 0 } := by
  by_cases hi : t.isIntervaled
  · have hcounts : countsFromJson lib members { P1 := 0, P2 := 0, tf := t.tf, tri := t.tri } = _ := countsFromJson_eq _
      ((hlookup _).trans (congrArg _ (hmembers.N hi))) ((hlookup _).trans (congrArg _ (hmembers.missed hi)))
      (hl.nat16 _ ht.nat16) (hl.nat8 _ (ht.nat8 _ (by simp)))
    rw [if_pos hi, hcounts, readBack, if_pos hi, if_pos hi]
    rfl
  · rw [if_neg hi, readBack, if_neg hi, if_neg hi]

/-- **What is read back** of a forecast. -/
theorem TimeForecast.fromJson_toJson (hl : lib.ReadsBack text) (ht : t.Fits) :
    fromJson lib (passed text (t.toJson lib)) = some t.readBack := by
  obtain ⟨written, hwritten, hmembers⟩ := t.toJson_members lib
  obtain ⟨members, hobject, hlookup⟩ := passed_object text written
  have hnat8 : ∀ n ∈ [t.NAvgAccMissed, t.P1, t.P2, t.tf, t.tri], n < 2 ^ 8 := ht.nat8
  have htf : lib.timeFrame.fromJson (passed text (lib.timeFrame.toJson t.tf)) = some t.tf :=
    hl.timeFrame _ (hnat8 _ (by simp))
  have htri : lib.timeRangeIndicator.fromJson (passed text (lib.timeRangeIndicator.toJson t.tri)) = some t.tri :=
    hl.timeRangeIndicator _ (hnat8 _ (by simp))
  have hP1 : lib.nat8.fromJson (passed text (.uint64 t.P1)) = some t.P1 := hl.uint64 _ (hnat8 _ (by simp))
  rw [hwritten, hobject]
  unfold fromJson
  simp only [Json.asObject, hlookup, hmembers.tf, hmembers.tri, hmembers.P1, Option.map_some, Option.bind_eq_bind,
    Option.bind_some, htf, htri, hP1]
  refine (counts_readBack hl ht hmembers hlookup _).trans ?_
  -- the first period is read, and again in the place of the second one
  split
  · rename_i hread
    have hP2 : Json.member? written "P2".toList = some (.uint64 t.P2) := hmembers.P2 hread.1
    have hnot : ¬ (t.octetDoubled ∨ t.isUniqueValue) := not_or.mpr hread
    rw [hP2, readBack, if_neg hnot]
    rfl
  · rename_i hread
    have hor : t.octetDoubled ∨ t.isUniqueValue := by_contra fun hnone => hread (not_or.mp hnone)
    rw [readBack, if_pos hor]
    rfl

theorem TimeForecast.readBack_eq_iff : t.readBack = t ↔ (¬ t.isIntervaled → t.N = 65535 ∧ t.NAvgAccMissed = 0) ∧
    t.P2 = if t.octetDoubled ∨ t.isUniqueValue then 0 else t.P1 := by
  have hfields : t.readBack = t ↔ t.readBack.N = t.N ∧ t.readBack.NAvgAccMissed = t.NAvgAccMissed ∧
      t.readBack.P2 = t.P2 := by
    constructor
    · intro h
      rw [h]
      exact ⟨rfl, rfl, rfl⟩
    · rintro ⟨hN, hmissed, hP2⟩
      cases t
      simp only [readBack] at hN hmissed hP2 ⊢
      rw [hN, hmissed, hP2]
  rw [hfields]
  by_cases hi : t.isIntervaled
  · simp only [readBack, hi, if_true, not_true, false_implies, true_and]
    exact eq_comm
  · simp only [readBack, hi, if_false, not_false_iff, true_implies, and_assoc]
    rw [eq_comm (a := 65535), eq_comm (a := 0), eq_comm (a := ite _ _ _)]

end Forecast

/-- **A forecast is read back** exactly where its second period is the first, or none where only the first is read, and
the counts are those of a new forecast where they are not read. -/
theorem forecast_json_iff {lib : JsonLib} {text : Bool} (hl : lib.ReadsBack text) {t : TimeForecast} (ht : t.Fits) :
    TimeForecast.fromJson lib (passed text (t.toJson lib)) = some t ↔
      (¬ t.isIntervaled → t.N = 65535 ∧ t.NAvgAccMissed = 0) ∧
        t.P2 = if t.octetDoubled ∨ t.isUniqueValue then 0 else t.P1 := by
  rw [TimeForecast.fromJson_toJson hl ht, Option.some_inj, TimeForecast.readBack_eq_iff]

theorem reference_readsBack : JsonLib.reference.ReadsBack true := by
  have hnumber : ∀ n < 2 ^ 16, JsonLib.number.fromJson (passed true (JsonLib.number.toJson n)) = some n := by
    intro n hn
    have hlt : n < 2 ^ 63 := lt_trans hn (by decide)
    have hread : passed true (.uint64 n) = .int64 n := by
      rw [passed, if_pos rfl, Json.reread, if_pos hlt]
    show (Json.asInt64 (passed true (.uint64 n))).map Int.toNat = some n
    rw [hread]
    rfl
  have hoctet : ∀ n < 2 ^ 8, JsonLib.number.fromJson (passed true (JsonLib.number.toJson n)) = some n :=
    fun n hn => hnumber n (lt_trans hn (by decide))
  exact ⟨hoctet, hoctet, hnumber, hoctet, hoctet, hoctet⟩

/-- From the analysis to the hour `P2`. -/
def TimeForecast.upTo (P2 : ℕ) : TimeForecast := { P1 := 0, P2, tf := 1, tri := 2 }

theorem TimeForecast.upTo_fits {P2 : ℕ} (h : P2 < 2 ^ 8) : (upTo P2).Fits := by
  refine ⟨show 65535 < 2 ^ 16 by decide, ?_⟩
  simpa [upTo] using h

theorem forecast_json_upTo :
    TimeForecast.fromJson .reference (passed true ((TimeForecast.upTo 6).toJson .reference)) = some (.upTo 6) ↔
    (¬ (TimeForecast.upTo 6).isIntervaled → (TimeForecast.upTo 6).N = 65535 ∧ (TimeForecast.upTo 6).NAvgAccMissed = 0) ∧
      (TimeForecast.upTo 6).P2 = if (TimeForecast.upTo 6).octetDoubled ∨ (TimeForecast.upTo 6).isUniqueValue then 0
        else (TimeForecast.upTo 6).P1 :=
  forecast_json_iff reference_readsBack (TimeForecast.upTo_fits (by decide))

/-- A forecast of six hours is read back as an analysis. -/
theorem forecast_json_changed :
    TimeForecast.fromJson .reference (passed true ((TimeForecast.upTo 6).toJson .reference)) = some (.upTo 0) ∧
      TimeForecast.upTo 0 ≠ .upTo 6 :=
  ⟨TimeForecast.fromJson_toJson reference_readsBack (TimeForecast.upTo_fits (by decide)), by decide⟩

/-! ## Levels -/

section Level

/-- What is read of a member that is there, or `octet` where it cannot be read. -/
def octetOr (octet : ℕ) (read : Option ℕ) : ℕ := read.getD octet

/-- `from_json<Level>` up to its `return`: the octets of the result, whose type is never set.  Only the first `if` asks
whether the members are there, and all three values are set as the first octet. -/
def Level.readOctets (lib : JsonLib) (val : Json) : Except Fault (Option (ℕ × ℕ)) :=
  match val.asObject with
  | none => .ok none
  | some members => do
    let octet11 :=
      match Json.member? members "11".toList, Json.member? members "12".toList, Json.member? members "tag".toList with
      | some j, some _, some _ => octetOr 0 (lib.nat8.fromJson j)
      | _, _, _ => 0
    let octet11 := octetOr octet11 (lib.nat8.fromJson (← memberAt members "12".toList))
    let octet11 := octetOr octet11 (lib.levelsTags.fromJson (← memberAt members "tag".toList))
    return some (octet11, 0)

/-- The level that is read where its type, which is never set, happens to be `tag`. -/
def Level.readAs (lib : JsonLib) (tag : TableCode) (val : Json) : Except Fault (Option Level) := do
  let octets ← readOctets lib val
  return octets.map fun o => { levelType := tag, octet11 := o.1, octet12 := o.2 }

/-- The level is read back from what is written for it, whatever its type happens to be. -/
def Level.ReadBack (lib : JsonLib) (text : Bool) (l : Level) : Prop :=
  ∃ j, l.toJson lib = .ok j ∧ ∀ tag, readAs lib tag (passed text j) = .ok (some l)

/-- A member of an object that cannot be read for a level. -/
def Level.Malformed (lib : JsonLib) (members : List (List Char × Json)) : Prop :=
  (Json.member? members "11".toList).bind lib.nat8.fromJson = none ∨
    (Json.member? members "12".toList).bind lib.nat8.fromJson = none ∨
    (Json.member? members "tag".toList).bind lib.levelsTags.fromJson = none

/-- Nothing is read: there is an error, or an exception. -/
def Level.Refused (read : Except Fault (Option Level)) : Prop := read = .ok none ∨ read = .error .exception

variable {lib : JsonLib} {text : Bool} {l : Level} {members : List (List Char × Json)} {j : Json}

/-- The reader without the type is the reader, which copies it. -/
theorem Level.fromJson_eq (val : Json) : fromJson val =
    match readOctets lib val with
    | .ok none => .ok none
    | .ok (some _) => .error .indeterminate
    | .error f => .error f := by
  unfold fromJson readOctets
  cases val.asObject with
  | none => rfl
  | some members =>
    simp only []
    cases memberAt members "12".toList with
    | error f => rfl
    | ok j =>
      cases memberAt members "tag".toList with
      | error f => rfl
      | ok j' => rfl

/-- With its last two members an object is read: the tag comes last, where it can be read. -/
theorem Level.readOctets_of_some {j12 jtag : Json} (h12 : Json.member? members "12".toList = some j12)
    (htag : Json.member? members "tag".toList = some jtag) :
    ∃ octet11, readOctets lib (.object members) = .ok (some (octetOr octet11 (lib.levelsTags.fromJson jtag), 0)) := by
  simp only [readOctets, Json.asObject, memberAt, h12, htag]
  exact ⟨_, rfl⟩

/-- Without one of them `at` throws. -/
theorem Level.readOctets_of_none
    (h : Json.member? members "12".toList = none ∨ Json.member? members "tag".toList = none) :
    readOctets lib (.object members) = .error .exception := by
  simp only [readOctets, Json.asObject, memberAt]
  cases h12 : Json.member? members "12".toList with
  | none => rfl
  | some j =>
    rw [h.resolve_left (by rw [h12]; exact Option.some_ne_none j)]
    rfl

/-- An object is refused where it does not have both. -/
theorem Level.refused_iff {tag : TableCode} : Refused (readAs lib tag (.object members)) ↔
    Json.member? members "12".toList = none ∨ Json.member? members "tag".toList = none := by
  constructor
  · intro h
    by_contra hnone
    obtain ⟨h12, htag⟩ := not_or.mp hnone
    obtain ⟨j12, h12⟩ := Option.ne_none_iff_exists'.mp h12
    obtain ⟨jtag, htag⟩ := Option.ne_none_iff_exists'.mp htag
    obtain ⟨octet11, hread⟩ : ∃ octet11, readOctets lib (.object members) = .ok (some (octet11, 0)) :=
      (readOctets_of_some h12 htag).imp' _ fun _ h => h
    rw [readAs, hread] at h
    rcases h with h | h <;> cases h
  · intro h
    rw [readAs, readOctets_of_none h]
    exact .inr rfl

theorem Level.toJson_members (hj : l.toJson lib = .ok j) : ∃ members, j = .object members ∧
    Json.member? members "12".toList = some (lib.nat8.toJson l.octet12) ∧
    Json.member? members "tag".toList = some (lib.levelsTags.toJson l.levelType) := by
  obtain ⟨bounded, -, hj⟩ := bind_eq_ok.mp hj
  obtain rfl := Except.ok.inj hj
  exact ⟨_, rfl, rfl, rfl⟩

/-- What is read of a level: its tag in the place of the first octet, and no second octet. -/
theorem Level.readOctets_toJson (hl : lib.ReadsBack text) (htag : l.levelType < 2 ^ 8) (hj : l.toJson lib = .ok j) :
    readOctets lib (passed text j) = .ok (some (l.levelType, 0)) := by
  obtain ⟨written, rfl, h12, hwritten⟩ := toJson_members hj
  obtain ⟨members, hobject, hlookup⟩ := passed_object text written
  obtain ⟨octet11, hread⟩ : ∃ octet11, readOctets lib (.object members) =
      .ok (some (octetOr octet11 (lib.levelsTags.fromJson (passed text (lib.levelsTags.toJson l.levelType))), 0)) :=
    readOctets_of_some ((hlookup _).trans (congrArg _ h12)) ((hlookup _).trans (congrArg _ hwritten))
  rw [hobject, hread, hl.levelsTags _ htag]
  rfl

/-- A level that is read has the type that happens to be there. -/
theorem Level.type_of_readAs {tag : TableCode} {val : Json} (h : readAs lib tag val = .ok (some l)) :
    l.levelType = tag := by
  obtain ⟨octets, -, h⟩ := bind_eq_ok.mp h
  obtain ⟨o, -, rfl⟩ := Option.map_eq_some_iff.mp (Except.ok.inj h)
  rfl

theorem Level.not_readBack : ¬ ReadBack lib text l := by
  rintro ⟨j, -, h⟩
  have hzero := type_of_readAs (h 0)
  have hone := type_of_readAs (h 1)
  rw [hzero] at hone
  cases hone

end Level

/-- **No level is read back**: its type is not read, and of its octets there is the tag only.  An object with a member
that cannot be read is refused where this is the second octet or the tag and is not there, and else is read. -/
theorem level_json {lib : JsonLib} {text : Bool} (hl : lib.ReadsBack text) :
    (∀ l, ¬ Level.ReadBack lib text l) ∧
    (∀ (l : Level) j tag, l.Fits → l.toJson lib = .ok j → Level.readAs lib tag (passed text j) =
      .ok (some { levelType := tag, octet11 := l.levelType, octet12 := 0 })) ∧
    ∀ members tag, Level.Malformed lib members → (Level.Refused (Level.readAs lib tag (.object members)) ↔
      Json.member? members "12".toList = none ∨ Json.member? members "tag".toList = none) := by
  refine ⟨fun _ => Level.not_readBack, ?_, fun _ _ _ => Level.refused_iff⟩
  intro l j tag hfits hj
  rw [Level.readAs, Level.readOctets_toJson hl (hfits.nat8 _ (by simp)) hj]
  rfl

theorem level_json_reference :
    (∀ l, ¬ Level.ReadBack .reference true l) ∧
    (∀ (l : Level) j tag, l.Fits → l.toJson .reference = .ok j → Level.readAs .reference tag (passed true j) =
      .ok (some { levelType := tag, octet11 := l.levelType, octet12 := 0 })) ∧
    ∀ members tag, Level.Malformed .reference members →
      (Level.Refused (Level.readAs .reference tag (.object members)) ↔
        Json.member? members "12".toList = none ∨ Json.member? members "tag".toList = none) :=
  level_json reference_readsBack

/-- The level of 850 hPa. -/
def Level.isobaric : Level := { levelType := 100, octet11 := 3, octet12 := 82 }

/-- An object without the first octet, and with a second one that is no number. -/
def levelMembers : List (List Char × Json) := [("12".toList, .string []), ("tag".toList, .int64 100)]

/-- The level is read with its type as the first octet and without the second one, and the object is read as a level. -/
theorem level_json_changed :
    (∃ j, Level.isobaric.toJson .reference = .ok j ∧
      ∀ tag, Level.readAs .reference tag (passed true j) ≠ .ok (some .isobaric)) ∧
    Level.Malformed .reference levelMembers ∧
    Level.readAs .reference 100 (.object levelMembers) =
      .ok (some { levelType := 100, octet11 := 100, octet12 := 0 }) := by
  refine ⟨⟨_, rfl, ?_⟩, .inl rfl, rfl⟩
  intro tag h
  have hread : Level.readOctets .reference (passed true _) = .ok (some (100, 0)) :=
    Level.readOctets_toJson (l := .isobaric) reference_readsBack (by decide) rfl
  rw [Level.readAs, hread] at h
  cases h

end Mashroom
