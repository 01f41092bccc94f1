import Mathlib.Tactic.NormNum
import Mashroom.Lib.Decimal
import Mashroom.Lib.TextStream
import Mashroom.Mapped
import Mashroom.OsterLib

/-!
# Program.CoordText — positions in the options

A position is written with its latitude before its longitude, or after it.  One expression matches both, with groups 2
and 3 for the numbers of the first way and 5 and 6 for those of the second.  Both overloads of `lexical_cast` take the
groups of the first way right.  Of the second way the one for an optional position takes groups 2 and 3, too, which are
empty, and the other one takes the longitude for the latitude (`castCoord_lonLat`, `castOptional_lonLat`).
-/

namespace Mashroom.CoordText

/-- `boost::lexical_cast` to a latitude or a longitude, without a value where it throws. -/
structure Boost where
  lexicalCast : List Char → Option ℚ

/-- Decimal numbers are read, and nothing is no number. -/
structure Boost.Documented (boost : Boost) : Prop where
  decimal : ∀ d : Decimal, boost.lexicalCast d.text = some d.value
  nothing : boost.lexicalCast [] = none

/-! ## The code -/

/-- The expression for both ways to write a position.  The whole text is matched, so that the anchors in the source
change nothing. -/
def coordRegex : Regex :=
  .alt
    (.group 1 (.seq (.text "lat".toList) (.seq (.group 2 Decimal.regex)
      (.seq (.text "-lon".toList) (.group 3 Decimal.regex)))))
    (.group 4 (.seq (.text "lon".toList) (.seq (.group 5 Decimal.regex)
      (.seq (.text "-lat".toList) (.group 6 Decimal.regex)))))

section Code

variable (lib : OsterLib) (boost : Boost)

/-- `lexical_cast<Lat>` and `lexical_cast<Lon>` of a group. -/
def castNumber (s : List Char) : Except Fault ℚ :=
  match boost.lexicalCast s with
  | some q => .ok q
  | none => .error .exception

/-- `lexical_cast<std::optional<Coord>>` -/
def castOptional (input : List Char) : Except Fault (Option Coord) :=
  match coordRegex.fullMatch input with
  | some m => do
    let lat ← castNumber boost (m.get 2)
    let lon ← castNumber boost (m.get 3)
    return if lib.isCorrectPos ⟨lat, lon⟩ then some ⟨lat, lon⟩ else none
  | none => .ok none

/-- The numbers that `lexical_cast<Coord>` assigns to `lat_` and `lon_`. -/
def castGroups (m : Regex.Groups) : Except Fault Coord :=
  if m.get 1 ≠ [] then do
    let lat ← castNumber boost (m.get 2)
    let lon ← castNumber boost (m.get 3)
    return ⟨lat, lon⟩
  else do
    let lat ← castNumber boost (m.get 5)
    let lon ← castNumber boost (m.get 6)
    return ⟨lat, lon⟩

/-- `lexical_cast<Coord>` -/
def castCoord (input : List Char) : Except Fault Coord :=
  match coordRegex.fullMatch input with
  | some m => do
    let coord ← castGroups boost m
    if lib.isCorrectPos coord then return coord else .error .exception
  | none => .error .exception

end Code

/-! ## The two ways -/

/-- The latitude before the longitude. -/
def latLon (lat lon : Decimal) : List Char := "lat".toList ++ (lat.text ++ ("-lon".toList ++ lon.text))

/-- The longitude before the latitude. -/
def lonLat (lon lat : Decimal) : List Char := "lon".toList ++ (lon.text ++ ("-lat".toList ++ lat.text))

section Match

variable {s : List Char} {g : Regex.Groups} {lat lon : Decimal}

/-- What the groups of one of the ways hold. -/
theorem derives_way {i : ℕ} {before between : List Char} :
    Regex.Derives (.group i (.seq (.text before) (.seq (.group (i + 1) Decimal.regex)
        (.seq (.text between) (.group (i + 2) Decimal.regex))))) s g ↔
      ∃ a b : Decimal, s = before ++ (a.text ++ (between ++ b.text)) ∧
        g = [(i, s), (i + 1, a.text), (i + 2, b.text)] := by
  rw [Regex.derives_group]
  constructor
  · rintro ⟨g', h, rfl⟩
    obtain ⟨w₁, g₁, w₂, g₂, h₁, h₂, rfl, rfl⟩ := Regex.derives_seq.mp h
    obtain ⟨rfl, rfl⟩ := Regex.derives_text.mp h₁
    obtain ⟨w₃, g₃, w₄, g₄, h₃, h₄, rfl, rfl⟩ := Regex.derives_seq.mp h₂
    obtain ⟨g₅, h₅, rfl⟩ := Regex.derives_group.mp h₃
    obtain ⟨⟨a, rfl⟩, rfl⟩ := Decimal.derives_regex.mp h₅
    obtain ⟨w₆, g₆, w₇, g₇, h₆, h₇, rfl, rfl⟩ := Regex.derives_seq.mp h₄
    obtain ⟨rfl, rfl⟩ := Regex.derives_text.mp h₆
    obtain ⟨g₈, h₈, rfl⟩ := Regex.derives_group.mp h₇
    obtain ⟨⟨b, rfl⟩, rfl⟩ := Decimal.derives_regex.mp h₈
    exact ⟨a, b, rfl, rfl⟩
  · rintro ⟨a, b, rfl, rfl⟩
    refine ⟨[(i + 1, a.text), (i + 2, b.text)], ?_, rfl⟩
    have ha : Regex.Derives (.group (i + 1) Decimal.regex) a.text [(i + 1, a.text)] :=
      .group (Decimal.derives_regex.mpr ⟨⟨a, rfl⟩, rfl⟩)
    have hb : Regex.Derives (.group (i + 2) Decimal.regex) b.text [(i + 2, b.text)] :=
      .group (Decimal.derives_regex.mpr ⟨⟨b, rfl⟩, rfl⟩)
    exact .seq (.text before) (.seq ha (.seq (.text between) hb))

/-- What is matched, and with which groups. -/
theorem derives_coordRegex : Regex.Derives coordRegex s g ↔
    (∃ lat lon, s = latLon lat lon ∧ g = [(1, s), (2, lat.text), (3, lon.text)]) ∨
      ∃ lon lat, s = lonLat lon lat ∧ g = [(4, s), (5, lon.text), (6, lat.text)] := by
  rw [coordRegex, Regex.derives_alt, derives_way, derives_way]
  rfl

/-- The numbers of a text are those between its words, in either way. -/
theorem texts_inj {a b a' b' : Decimal} {t : List Char}
    (h : a.text ++ ('-' :: 'l' :: t ++ b.text) = a'.text ++ ('-' :: 'l' :: t ++ b'.text)) :
    a.text = a'.text ∧ b.text = b'.text := by
  have hl : ∀ d : Decimal, 'l' ∉ d.text ++ ['-'] := by
    intro d hmem
    rcases List.mem_append.mp hmem with hmem | hmem
    · rcases Decimal.mem_text hmem with h | h | h <;> exact absurd h (by decide)
    · exact absurd (List.mem_singleton.mp hmem) (by decide)
  have hsplit : (a.text ++ ['-']) ++ 'l' :: (t ++ b.text) = (a'.text ++ ['-']) ++ 'l' :: (t ++ b'.text) := by
    simpa using h
  obtain ⟨htext, hrest⟩ := TextStream.append_cons_inj (hl a) (hl a') hsplit
  exact ⟨List.append_cancel_right htext, List.append_cancel_left hrest⟩

theorem latLon_ne_lonLat {a b a' b' : Decimal} : latLon a b ≠ lonLat a' b' := by
  intro h
  have hsecond := congrArg (fun s => s[1]?) h
  exact absurd hsecond (by simp [latLon, lonLat])

/-- The groups of a text in the first way. -/
theorem fullMatch_latLon (lat lon : Decimal) : coordRegex.fullMatch (latLon lat lon) =
    some [(1, latLon lat lon), (2, lat.text), (3, lon.text)] := by
  obtain ⟨g, hg⟩ := Regex.fullMatch_of_derives (derives_coordRegex.mpr (.inl ⟨lat, lon, rfl, rfl⟩))
  rw [hg]
  rcases derives_coordRegex.mp (Regex.derives_of_fullMatch hg) with ⟨a, b, h, rfl⟩ | ⟨a, b, h, -⟩
  · obtain ⟨hlat, hlon⟩ := texts_inj (List.append_cancel_left h)
    rw [hlat, hlon]
  · exact absurd h latLon_ne_lonLat

/-- The groups of a text in the second way. -/
theorem fullMatch_lonLat (lon lat : Decimal) : coordRegex.fullMatch (lonLat lon lat) =
    some [(4, lonLat lon lat), (5, lon.text), (6, lat.text)] := by
  obtain ⟨g, hg⟩ := Regex.fullMatch_of_derives (derives_coordRegex.mpr (.inr ⟨lon, lat, rfl, rfl⟩))
  rw [hg]
  rcases derives_coordRegex.mp (Regex.derives_of_fullMatch hg) with ⟨a, b, h, -⟩ | ⟨a, b, h, rfl⟩
  · exact absurd h.symm latLon_ne_lonLat
  · obtain ⟨hlon, hlat⟩ := texts_inj (List.append_cancel_left h)
    rw [hlon, hlat]

end Match

/-! ## What is read -/

section Read

variable {lib : OsterLib} {boost : Boost}

/-- A text in neither way is read by neither overload. -/
theorem casts_of_none {input : List Char} (h : coordRegex.fullMatch input = none) :
    castCoord lib boost input = .error .exception ∧ castOptional lib boost input = .ok none := by
  simp only [castCoord, castOptional, h, and_self]

variable (hb : boost.Documented) (lat lon : Decimal)

include hb

theorem castNumber_text (d : Decimal) : castNumber boost d.text = .ok d.value := by
  rw [castNumber, hb.decimal]

theorem castNumber_nil : castNumber boost [] = .error .exception := by
  rw [castNumber, hb.nothing]

/-- The first way is read as it is written, by both overloads. -/
theorem castCoord_latLon : castCoord lib boost (latLon lat lon) =
    if lib.isCorrectPos ⟨lat.value, lon.value⟩ then .ok ⟨lat.value, lon.value⟩ else .error .exception := by
  have hgroups : castGroups boost [(1, latLon lat lon), (2, lat.text), (3, lon.text)] =
      .ok ⟨lat.value, lon.value⟩ := by
    have hne : Regex.Groups.get [(1, latLon lat lon), (2, lat.text), (3, lon.text)] 1 ≠ [] :=
      List.cons_ne_nil 'l' _
    rw [castGroups, if_pos hne]
    show castNumber boost lat.text >>= (fun q => castNumber boost lon.text >>= fun q' => _) = _
    rw [castNumber_text hb, ok_bind, castNumber_text hb]
    rfl
  simp only [castCoord, fullMatch_latLon, hgroups, ok_bind, pure_eq_ok]

theorem castOptional_latLon : castOptional lib boost (latLon lat lon) =
    .ok (if lib.isCorrectPos ⟨lat.value, lon.value⟩ then some ⟨lat.value, lon.value⟩ else none) := by
  simp only [castOptional, fullMatch_latLon]
  show castNumber boost lat.text >>= (fun q => castNumber boost lon.text >>= fun q' => _) = _
  rw [castNumber_text hb, ok_bind, castNumber_text hb]
  rfl

/-- Of the second way the longitude becomes the latitude, -/
theorem castCoord_lonLat : castCoord lib boost (lonLat lon lat) =
    if lib.isCorrectPos ⟨lon.value, lat.value⟩ then .ok ⟨lon.value, lat.value⟩ else .error .exception := by
  have hgroups : castGroups boost [(4, lonLat lon lat), (5, lon.text), (6, lat.text)] =
      .ok ⟨lon.value, lat.value⟩ := by
    rw [castGroups, if_neg (by simp [Regex.Groups.get])]
    show castNumber boost lon.text >>= (fun q => castNumber boost lat.text >>= fun q' => _) = _
    rw [castNumber_text hb, ok_bind, castNumber_text hb]
    rfl
  simp only [castCoord, fullMatch_lonLat, hgroups, ok_bind, pure_eq_ok]

/-- and the other overload reads a number from nothing. -/
theorem castOptional_lonLat : castOptional lib boost (lonLat lon lat) = .error .exception := by
  simp only [castOptional, fullMatch_lonLat]
  show castNumber boost [] >>= (fun q => _) = _
  rw [castNumber_nil hb]
  rfl

/-- The texts that are accepted by both overloads or by neither. -/
theorem accept_iff (input : List Char) :
    ((∃ c, castCoord lib boost input = .ok c) ↔ ∃ c, castOptional lib boost input = .ok (some c)) ↔
      ∀ lon lat, input = lonLat lon lat → lib.isCorrectPos ⟨lon.value, lat.value⟩ = false := by
  cases hmatch : coordRegex.fullMatch input with
  | none =>
    obtain ⟨hcoord, hoptional⟩ := casts_of_none hmatch
    rw [hcoord, hoptional]
    refine iff_of_true (by simp) ?_
    rintro lon lat rfl
    rw [fullMatch_lonLat] at hmatch
    cases hmatch
  | some g =>
    rcases derives_coordRegex.mp (Regex.derives_of_fullMatch hmatch) with ⟨lat, lon, rfl, -⟩ | ⟨lon, lat, rfl, -⟩
    · rw [castCoord_latLon hb, castOptional_latLon hb]
      refine iff_of_true ?_ fun _ _ h => absurd h latLon_ne_lonLat
      cases lib.isCorrectPos ⟨lat.value, lon.value⟩ <;> simp
    · rw [castCoord_lonLat hb, castOptional_lonLat hb]
      constructor
      · rintro h lon' lat' heq
        obtain ⟨hlon, hlat⟩ := texts_inj (List.append_cancel_left heq)
        have hvalue : ∀ {d d' : Decimal}, d.text = d'.text → d.value = d'.value := fun {d d'} htext => by
          have hread := hb.decimal d
          rw [htext, hb.decimal d'] at hread
          exact (Option.some.inj hread).symm
        rw [← hvalue hlon, ← hvalue hlat]
        by_contra hcorrect
        rw [Bool.not_eq_false] at hcorrect
        rw [hcorrect, if_pos rfl] at h
        obtain ⟨c, hc⟩ := h.mp ⟨_, rfl⟩
        cases hc
      · intro h
        rw [h lon lat rfl]
        simp

end Read

/-- **A position with the latitude first** is read as it is written.  With the longitude first it never is as an
optional one, and else only where both numbers are the same.  The overloads accept the same texts but those with the
longitude first that are correct the other way round. -/
theorem cast_iff (lib : OsterLib) {boost : Boost} (hb : boost.Documented) :
    (∀ lat lon : Decimal, lib.isCorrectPos ⟨lat.value, lon.value⟩ = true →
      castCoord lib boost (latLon lat lon) = .ok ⟨lat.value, lon.value⟩ ∧
      castOptional lib boost (latLon lat lon) = .ok (some ⟨lat.value, lon.value⟩) ∧
      (castCoord lib boost (lonLat lon lat) = .ok ⟨lat.value, lon.value⟩ ↔ lat.value = lon.value) ∧
      castOptional lib boost (lonLat lon lat) ≠ .ok (some ⟨lat.value, lon.value⟩)) ∧
    ∀ input, ((∃ c, castCoord lib boost input = .ok c) ↔ ∃ c, castOptional lib boost input = .ok (some c)) ↔
      ∀ lon lat, input = lonLat lon lat → lib.isCorrectPos ⟨lon.value, lat.value⟩ = false := by
  refine ⟨fun lat lon hcorrect => ⟨?_, ?_, ?_, ?_⟩, accept_iff hb⟩
  · rw [castCoord_latLon hb, if_pos hcorrect]
  · rw [castOptional_latLon hb, if_pos hcorrect]
  · rw [castCoord_lonLat hb]
    constructor
    · intro h
      split at h
      · have hlat := congrArg Coord.lat (Except.ok.inj h)
        exact hlat.symm
      · cases h
    · intro heq
      rw [heq] at hcorrect ⊢
      rw [if_pos hcorrect]
  · rw [castOptional_lonLat hb]
    simp

/-- Decimal numbers, and nothing else. -/
def Boost.reference : Boost := ⟨Decimal.read⟩

theorem Boost.reference_documented : Boost.reference.Documented := ⟨Decimal.read_text, rfl⟩

theorem cast_reference :
    (∀ lat lon : Decimal, OsterLib.reference.isCorrectPos ⟨lat.value, lon.value⟩ = true →
      castCoord .reference .reference (latLon lat lon) = .ok ⟨lat.value, lon.value⟩ ∧
      castOptional .reference .reference (latLon lat lon) = .ok (some ⟨lat.value, lon.value⟩) ∧
      (castCoord .reference .reference (lonLat lon lat) = .ok ⟨lat.value, lon.value⟩ ↔ lat.value = lon.value) ∧
      castOptional .reference .reference (lonLat lon lat) ≠ .ok (some ⟨lat.value, lon.value⟩)) ∧
    ∀ input, ((∃ c, castCoord .reference .reference input = .ok c) ↔
        ∃ c, castOptional .reference .reference input = .ok (some c)) ↔
      ∀ lon lat, input = lonLat lon lat → OsterLib.reference.isCorrectPos ⟨lon.value, lat.value⟩ = false :=
  cast_iff .reference Boost.reference_documented

/-- The natural numbers 30 and 60. -/
def thirty : Decimal := .ofDigits ['3', '0'] (by decide) (by decide)

def sixty : Decimal := .ofDigits ['6', '0'] (by decide) (by decide)

/-- The text `lon30-lat60`, read as a position at 30 degrees north and as none. -/
theorem cast_lon30_lat60 : lonLat thirty sixty = "lon30-lat60".toList ∧
    OsterLib.reference.isCorrectPos ⟨sixty.value, thirty.value⟩ = true ∧
    castCoord .reference .reference (lonLat thirty sixty) = .ok ⟨30, 60⟩ ∧
    castOptional .reference .reference (lonLat thirty sixty) = .error .exception ∧
    castCoord .reference .reference (lonLat thirty sixty) ≠ .ok ⟨sixty.value, thirty.value⟩ := by
  have hthirty : thirty.value = 30 := by with_unfolding_all decide
  have hsixty : sixty.value = 60 := by with_unfolding_all decide
  have hcorrect : ∀ lat lon : ℚ, -90 ≤ lat ∧ lat ≤ 90 ∧ -180 ≤ lon ∧ lon ≤ 360 →
      OsterLib.reference.isCorrectPos ⟨lat, lon⟩ = true := fun lat lon h => decide_eq_true h
  have hcoord : castCoord .reference .reference (lonLat thirty sixty) = .ok ⟨30, 60⟩ := by
    rw [castCoord_lonLat Boost.reference_documented, hthirty, hsixty, if_pos (hcorrect _ _ (by norm_num))]
  refine ⟨rfl, ?_, hcoord, castOptional_lonLat Boost.reference_documented _ _, ?_⟩
  · rw [hthirty, hsixty]
    exact hcorrect _ _ (by norm_num)
  · rw [hcoord, hthirty, hsixty]
    simp

end Mashroom.CoordText
