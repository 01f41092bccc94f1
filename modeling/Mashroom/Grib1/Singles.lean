import Mashroom.Lib.BinaryFormat
import Mashroom.Grib1.Documented
import Mashroom.Grib1.LatLon
import Mashroom.Grib1.Points

/-!
# Grib1.Singles — numbers of values in floating point

The members of a grid are of the type `float`, and `value_by_raw` computes with them in the type of the position,
`float` or a wider one: every operation is rounded.  Rounding keeps the order, so that the last corner still has the
largest number, and it is this corner's number, rounded four times on the way, that decides whether all positions inside
are numbered within the points (`indexesIn_iff`, `numbered_iff`).
-/

namespace Mashroom

open BinaryFormat

namespace LatLonBase

/-- The members as the constructor leaves them.  `float(z)` is exact for two or three octets, and the quotient by 1000
is rounded (`round_round_div`). -/
def single (b : LatLonBase) : LatLonBase :=
  { b with
    y1 := binary32.round b.y1
    x1 := binary32.round b.x1
    y2 := binary32.round b.y2
    x2 := binary32.round b.x2
    dy := binary32.round b.dy
    dx := binary32.round b.dx }

/-- The member `value_by_raw`, where the coordinates of a position are of the type `t`. -/
def valueByRawIn (t : BinaryFormat) (b : LatLonBase) (pos : Coord) : Except Fault ℤ :=
  if b.dx = 0 ∨ b.dy = 0 then .error .arithmetic
  else
    let column := t.round (t.round (if b.x2 < b.x1 then pos.lon - b.x2 else pos.lon - b.x1) / b.dx)
    let rows := t.round (b.nx * t.round (if b.y2 < b.y1 then b.y1 - pos.lat else pos.lat - b.y1))
    ratToInt (t.round (t.round (column + 1) + t.round (rows / b.dy)))

section Flat

variable (t : BinaryFormat) (b : LatLonBase) (pos : Coord)

/-- The columns before a position. -/
def columnIn : ℚ := t.round (t.round (pos.lon - b.x1) / b.dx)

/-- The values in the rows before a position. -/
def rowsIn : ℚ := t.round (t.round (b.nx * t.round (b.y1 - pos.lat)) / b.dy)

/-- The number of the value at a position, before its fraction is cut off. -/
def flatIn : ℚ := t.round (t.round (b.columnIn t pos + 1) + b.rowsIn t pos)

/-- Every position inside the grid, with coordinates of the type, has a number between 1 and `N`. -/
def IndexesIn (N : ℕ) : Prop :=
  ∀ pos : Coord, t.Represents pos.lat → t.Represents pos.lon → b.posInGrid pos = true →
    ∃ n, b.valueByRawIn t pos = .ok n ∧ 1 ≤ n ∧ n ≤ N

/-- The steps lead from the first corner to the last, and the number of the last corner is within `N`. -/
structure SteppedIn (N : ℕ) : Prop where
  dx : b.dx ≠ 0
  dy : b.dy ≠ 0
  east : 0 < b.dx ∨ b.x1 = b.x2
  south : 0 < b.dy ∨ b.y1 = b.y2 ∨ b.nx = 0
  last : b.flatIn t ⟨b.y2, b.x2⟩ < N + 1
  int : b.flatIn t ⟨b.y2, b.x2⟩ < 2 ^ 31

/-- The corners are numbers of the type `float`, two of them are not closer than rounded thousandths are, and the steps
are not longer than two octets in thousandths. -/
structure Singles : Prop where
  x1 : binary32.Represents b.x1
  x2 : binary32.Represents b.x2
  y1 : binary32.Represents b.y1
  y2 : binary32.Represents b.y2
  columns : b.x1 < b.x2 → 2 ^ (-16 : ℤ) ≤ b.x2 - b.x1
  rows : b.y2 < b.y1 → 2 ^ (-16 : ℤ) ≤ b.y1 - b.y2
  dx : |b.dx| ≤ 2 ^ (6 : ℤ)
  dy : |b.dy| ≤ 2 ^ (6 : ℤ)

end Flat

section Inside

variable {t : BinaryFormat} {b : LatLonBase} {pos : Coord} {N : ℕ}

/-- Inside a grid, the position is numbered from the north-west corner. -/
theorem valueByRawIn_inside (hin : b.posInGrid pos = true) (hdx : b.dx ≠ 0) (hdy : b.dy ≠ 0) :
    b.valueByRawIn t pos = ratToInt (b.flatIn t pos) := by
  obtain ⟨hs, hn, hw, he⟩ := posInGrid_iff.mp hin
  have hlat : (if b.y2 < b.y1 then b.y1 - pos.lat else pos.lat - b.y1) = b.y1 - pos.lat := by
    split
    · rfl
    · linarith
  rw [valueByRawIn, if_neg (not_or.mpr ⟨hdx, hdy⟩), if_neg (not_lt.mpr (hw.trans he)), hlat]
  rfl

/-- A number below one is not rounded to one or more. -/
theorem ratToInt_lt_one {q : ℚ} {n : ℤ} (h : q < 1) (hn : ratToInt q = .ok n) : n < 1 := by
  by_cases h0 : 0 ≤ q
  · rw [ratToInt_of_nonneg h0] at hn
    rw [(cInt_eq_ok.mp hn).1, Int.floor_lt]
    exact_mod_cast h
  · have hnum : q.num < 0 := Rat.num_neg.mpr (not_le.mp h0)
    have hneg := Int.tdiv_nonneg (neg_nonneg.mpr hnum.le) (Int.natCast_nonneg q.den)
    rw [Int.neg_tdiv] at hneg
    rw [(cInt_eq_ok.mp hn).1]
    omega

/-- A number between 1 and `N` is what a rational from 1 on and below `N + 1` is cut to. -/
theorem exists_ratToInt_iff {q : ℚ} :
    (∃ n, ratToInt q = .ok n ∧ 1 ≤ n ∧ n ≤ N) ↔ 1 ≤ q ∧ q < N + 1 ∧ q < 2 ^ 31 := by
  constructor
  · rintro ⟨n, hn, h1, hN⟩
    have hone : 1 ≤ q := by
      by_contra hlt
      have := ratToInt_lt_one (not_le.mp hlt) hn
      omega
    rw [ratToInt_of_nonneg (by linarith), cInt_eq_ok] at hn
    obtain ⟨rfl, -, hlt⟩ := hn
    refine ⟨hone, ?_, ?_⟩
    · exact_mod_cast Int.floor_le_iff.mp hN
    · exact_mod_cast Int.floor_lt.mp hlt
  · rintro ⟨hone, hN, hlt⟩
    have hfloor : ⌊q⌋ < 2 ^ 31 := Int.floor_lt.mpr (by exact_mod_cast hlt)
    have h1 : 1 ≤ ⌊q⌋ := Int.le_floor.mpr (by exact_mod_cast hone)
    refine ⟨⌊q⌋, ?_, h1, Int.floor_le_iff.mpr (by exact_mod_cast hN)⟩
    rw [ratToInt_of_nonneg (by linarith)]
    exact cInt_ok (by linarith) hfloor

/-! ## The last corner -/

theorem SteppedIn.column (h : b.SteppedIn t N) (hin : b.posInGrid pos = true) :
    0 ≤ b.columnIn t pos ∧ b.columnIn t pos ≤ b.columnIn t ⟨b.y2, b.x2⟩ := by
  obtain ⟨-, -, hw, he⟩ := posInGrid_iff.mp hin
  rcases h.east with hdx | hx
  · refine ⟨round_nonneg (div_nonneg (round_nonneg (by linarith)) hdx.le), round_mono ?_⟩
    exact div_le_div_of_nonneg_right (round_mono (by linarith)) hdx.le
  · rw [columnIn, columnIn, show pos.lon - b.x1 = 0 by linarith, show b.x2 - b.x1 = 0 by linarith, round_zero,
      zero_div, round_zero]
    exact ⟨le_rfl, le_rfl⟩

theorem SteppedIn.rows (h : b.SteppedIn t N) (hin : b.posInGrid pos = true) :
    0 ≤ b.rowsIn t pos ∧ b.rowsIn t pos ≤ b.rowsIn t ⟨b.y2, b.x2⟩ := by
  obtain ⟨hs, hn, -, -⟩ := posInGrid_iff.mp hin
  rcases h.south with hdy | hy | hnx
  · have hlat : 0 ≤ t.round (b.y1 - pos.lat) := round_nonneg (by linarith)
    refine ⟨round_nonneg (div_nonneg (round_nonneg (mul_nonneg b.nx.cast_nonneg hlat)) hdy.le), round_mono ?_⟩
    refine div_le_div_of_nonneg_right (round_mono ?_) hdy.le
    exact mul_le_mul_of_nonneg_left (round_mono (by linarith)) b.nx.cast_nonneg
  · rw [rowsIn, rowsIn, show b.y1 - pos.lat = 0 by linarith, show b.y1 - b.y2 = 0 by linarith, round_zero, mul_zero,
      round_zero, zero_div, round_zero]
    exact ⟨le_rfl, le_rfl⟩
  · rw [rowsIn, rowsIn, hnx, Nat.cast_zero, zero_mul, zero_mul, round_zero, zero_div, round_zero]
    exact ⟨le_rfl, le_rfl⟩

/-- No position inside has a larger number than the last corner. -/
theorem SteppedIn.flat_le (h : b.SteppedIn t N) (hin : b.posInGrid pos = true) :
    b.flatIn t pos ≤ b.flatIn t ⟨b.y2, b.x2⟩ :=
  round_mono (add_le_add (round_mono (by linarith [(h.column hin).2])) (h.rows hin).2)

section Wider

variable (ht : binary32.Wider t)

include ht

theorem represents_one : t.Represents 1 :=
  (represents_two_zpow (e := 0) (t := binary32) (by decide)).wider ht

theorem SteppedIn.one_le_flat (h : b.SteppedIn t N) (hin : b.posInGrid pos = true) : 1 ≤ b.flatIn t pos := by
  have hone : 1 ≤ t.round (b.columnIn t pos + 1) :=
    le_round (represents_one ht) (by linarith [(h.column hin).1])
  exact le_round (represents_one ht) (by linarith [(h.rows hin).1])

theorem SteppedIn.indexesIn (h : b.SteppedIn t N) : b.IndexesIn t N := by
  intro pos _ _ hin
  rw [valueByRawIn_inside hin h.dx h.dy]
  have hle := h.flat_le hin
  exact exists_ratToInt_iff.mpr ⟨h.one_le_flat ht hin, hle.trans_lt h.last, hle.trans_lt h.int⟩

/-! ## The other corners -/

/-- What the numbers of the positions inside say of one of them. -/
theorem IndexesIn.flat (h : b.IndexesIn t N) (pos : Coord) (hlat : binary32.Represents pos.lat)
    (hlon : binary32.Represents pos.lon) (hin : b.posInGrid pos = true) :
    b.dx ≠ 0 ∧ b.dy ≠ 0 ∧ 1 ≤ b.flatIn t pos ∧ b.flatIn t pos < N + 1 ∧ b.flatIn t pos < 2 ^ 31 := by
  obtain ⟨n, hn, hrange⟩ := h pos (hlat.wider ht) (hlon.wider ht) hin
  have hstep : ¬ (b.dx = 0 ∨ b.dy = 0) := by
    intro h0
    rw [valueByRawIn, if_pos h0] at hn
    cases hn
  obtain ⟨hdx, hdy⟩ := not_or.mp hstep
  rw [valueByRawIn_inside hin hdx hdy] at hn
  exact ⟨hdx, hdy, exists_ratToInt_iff.mp ⟨n, hn, hrange⟩⟩

/-- A distance between corners, divided by a negative step, is not rounded away. -/
theorem round_div_le {d step : ℚ} (hd : 2 ^ (-16 : ℤ) ≤ d) (hneg : step < 0) (hstep : |step| ≤ 2 ^ (6 : ℤ)) :
    t.round (d / step) ≤ -2 ^ (-22 : ℤ) := by
  refine round_le ((represents_two_zpow (t := binary32) (by decide)).wider ht).neg ?_
  rw [abs_of_neg hneg] at hstep
  rw [div_le_iff_of_neg hneg]
  norm_num at hd hstep ⊢
  linarith

/-- What is that far below one is not rounded to one. -/
theorem round_lt_one {q : ℚ} (h : q ≤ 1 - 2 ^ (-22 : ℤ)) : t.round q < 1 := by
  have hrep : binary32.Represents (1 - 2 ^ (-22 : ℤ)) := ⟨2 ^ 22 - 1, -22, by decide, by decide, by norm_num⟩
  refine (round_le (hrep.wider ht) h).trans_lt ?_
  norm_num

/-- The numbers of three corners give back the steps. -/
theorem IndexesIn.stepped (hb : b.Singles) (h : b.IndexesIn t N) (hx : b.x1 ≤ b.x2) (hy : b.y2 ≤ b.y1) :
    b.SteppedIn t N := by
  have hone : t.round (0 + 1) = 1 := by rw [zero_add, round_of_represents (represents_one ht)]
  have hne := h.flat ht ⟨b.y1, b.x2⟩ hb.y1 hb.x2 (posInGrid_iff.mpr ⟨hy, le_rfl, hx, le_rfl⟩)
  have hsw := h.flat ht ⟨b.y2, b.x1⟩ hb.y2 hb.x1 (posInGrid_iff.mpr ⟨le_rfl, hy, le_rfl, hx⟩)
  have hse := h.flat ht ⟨b.y2, b.x2⟩ hb.y2 hb.x2 (posInGrid_iff.mpr ⟨le_rfl, hy, hx, le_rfl⟩)
  obtain ⟨hdx, hdy, hcolumn, -, -⟩ := hne
  obtain ⟨-, -, hrows, -, -⟩ := hsw
  obtain ⟨-, -, -, hlast, hint⟩ := hse
  refine ⟨hdx, hdy, ?_, ?_, hlast, hint⟩
  · by_contra hno
    rw [not_or, not_lt] at hno
    have hneg : b.dx < 0 := lt_of_le_of_ne hno.1 hdx
    have hd := le_round ((represents_two_zpow (t := binary32) (e := -16) (by decide)).wider ht)
      (hb.columns (lt_of_le_of_ne hx hno.2))
    have hcol := round_div_le ht hd hneg hb.dx
    rw [flatIn, rowsIn, sub_self, round_zero, mul_zero, round_zero, zero_div, round_zero, add_zero] at hcolumn
    rw [round_of_represents (represents_round _)] at hcolumn
    exact absurd (round_lt_one ht (q := b.columnIn t ⟨b.y1, b.x2⟩ + 1) (by
      rw [columnIn]
      linarith)) (not_lt.mpr hcolumn)
  · by_contra hno
    rw [not_or, not_or, not_lt] at hno
    obtain ⟨hle, hne, hnx⟩ := hno
    have hneg : b.dy < 0 := lt_of_le_of_ne hle hdy
    have hd := le_round ((represents_two_zpow (t := binary32) (e := -16) (by decide)).wider ht)
      (hb.rows (lt_of_le_of_ne hy (Ne.symm hne)))
    have hone_le : (1 : ℚ) ≤ b.nx := by exact_mod_cast Nat.one_le_iff_ne_zero.mpr hnx
    have hprod : (2 : ℚ) ^ (-16 : ℤ) ≤ b.nx * t.round (b.y1 - b.y2) :=
      hd.trans (le_mul_of_one_le_left (le_trans (two_zpow_pos _).le hd) hone_le)
    have hrow := round_div_le ht
      (le_round ((represents_two_zpow (t := binary32) (e := -16) (by decide)).wider ht) hprod) hneg hb.dy
    rw [flatIn, columnIn, sub_self, round_zero, zero_div, round_zero, hone] at hrows
    exact absurd (round_lt_one ht (q := 1 + b.rowsIn t ⟨b.y2, b.x1⟩) (by
      rw [rowsIn]
      linarith)) (not_lt.mpr hrows)

/-- **All positions inside a grid have numbers up to `N` exactly if there are none, or the steps lead to the last
corner and this one has such a number.** -/
theorem indexesIn_iff (hb : b.Singles) : b.IndexesIn t N ↔ b.x2 < b.x1 ∨ b.y1 < b.y2 ∨ b.SteppedIn t N := by
  constructor
  · intro h
    by_cases hx : b.x1 ≤ b.x2
    · by_cases hy : b.y2 ≤ b.y1
      · exact .inr (.inr (h.stepped ht hb hx hy))
      · exact .inr (.inl (not_le.mp hy))
    · exact .inl (not_le.mp hx)
  · rintro (hx | hy | h)
    · intro pos _ _ hin
      obtain ⟨-, -, hw, he⟩ := posInGrid_iff.mp hin
      exact absurd (hw.trans he) (not_le.mpr hx)
    · intro pos _ _ hin
      obtain ⟨hs, hn, -, -⟩ := posInGrid_iff.mp hin
      exact absurd (hs.trans hn) (not_le.mpr hy)
    · exact h.indexesIn ht

/-- What is computed for a position inside a grid of this size stays far below the largest `float`. -/
theorem flatIn_bounded (hin : b.posInGrid pos = true) (hx : b.x2 - b.x1 ≤ 2 ^ (15 : ℤ))
    (hy : b.y1 - b.y2 ≤ 2 ^ (15 : ℤ)) (hnx : b.nx ≤ 2 ^ 16) (hdx : 2 ^ (-10 : ℤ) ≤ |b.dx|)
    (hdy : 2 ^ (-10 : ℤ) ≤ |b.dy|) :
    |b.columnIn t pos| ≤ 2 ^ (25 : ℤ) ∧ |t.round (b.nx * t.round (b.y1 - pos.lat))| ≤ 2 ^ (31 : ℤ) ∧
      |b.rowsIn t pos| ≤ 2 ^ (41 : ℤ) ∧ |b.flatIn t pos| ≤ 2 ^ (42 : ℤ) := by
  obtain ⟨hs, hn, hw, he⟩ := posInGrid_iff.mp hin
  have hpower : ∀ e : ℤ, -149 ≤ e → t.Represents (2 ^ e) := fun e he =>
    (represents_two_zpow (t := binary32) he).wider ht
  have hquot : ∀ (d step : ℚ) (e : ℤ), |d| ≤ 2 ^ e → 2 ^ (-10 : ℤ) ≤ |step| → |d / step| ≤ 2 ^ (e + 10) := by
    intro d step e hd hstep
    rw [abs_div, div_le_iff₀ ((two_zpow_pos _).trans_le hstep)]
    refine hd.trans ?_
    have hmul := mul_le_mul_of_nonneg_left hstep (two_zpow_pos (e + 10)).le
    rwa [← zpow_add₀ two_ne_zero, show e + 10 + -10 = e by ring] at hmul
  have hlon : |t.round (pos.lon - b.x1)| ≤ 2 ^ (15 : ℤ) :=
    abs_round_le (hpower _ (by decide)) (abs_le.mpr ⟨by linarith [two_zpow_pos 15], by linarith⟩)
  have hlat : |t.round (b.y1 - pos.lat)| ≤ 2 ^ (15 : ℤ) :=
    abs_round_le (hpower _ (by decide)) (abs_le.mpr ⟨by linarith [two_zpow_pos 15], by linarith⟩)
  have hcolumn : |b.columnIn t pos| ≤ 2 ^ (25 : ℤ) := abs_round_le (hpower _ (by decide)) (hquot _ _ 15 hlon hdx)
  have hprod : |t.round (b.nx * t.round (b.y1 - pos.lat))| ≤ 2 ^ (31 : ℤ) := by
    refine abs_round_le (hpower _ (by decide)) ?_
    have hnx' : (b.nx : ℚ) ≤ 2 ^ (16 : ℤ) := by exact_mod_cast hnx
    rw [abs_mul, Nat.abs_cast, show (31 : ℤ) = 16 + 15 by rfl, zpow_add₀ two_ne_zero]
    exact mul_le_mul hnx' hlat (abs_nonneg _) (two_zpow_pos _).le
  have hrows : |b.rowsIn t pos| ≤ 2 ^ (41 : ℤ) := abs_round_le (hpower _ (by decide)) (hquot _ _ 31 hprod hdy)
  have hnext : |t.round (b.columnIn t pos + 1)| ≤ 2 ^ (26 : ℤ) := by
    refine abs_round_le (hpower _ (by decide)) ((abs_add_le _ _).trans ?_)
    norm_num at hcolumn ⊢
    linarith
  refine ⟨hcolumn, hprod, hrows, abs_round_le (hpower _ (by decide)) ((abs_add_le _ _).trans ?_)⟩
  norm_num at hnext hrows ⊢
  linarith

end Wider

end Inside

end LatLonBase

/-! ## The grid of a section -/

section Thousandths

variable {z z' : ℤ}

/-- The conversion of three octets to `float` is exact. -/
theorem round_intCast (hz : |z| < 2 ^ 23) : binary32.round z = z :=
  round_of_represents (represents_intCast (by decide) (hz.le.trans (by decide)))

/-- A thousandth is not rounded away. -/
theorem le_round_milli (h : 0 < z) : 2 ^ (-10 : ℤ) ≤ binary32.round (milli z) := by
  have hz : (1 : ℚ) ≤ z := by exact_mod_cast h
  refine le_round (represents_two_zpow (by decide)) ?_
  rw [milli]
  norm_num
  linarith

theorem round_milli_le_neg (h : z < 0) : 2 ^ (-10 : ℤ) ≤ -binary32.round (milli z) := by
  have hz : (z : ℚ) ≤ -1 := by exact_mod_cast Int.le_sub_one_of_lt h
  refine le_neg.mp (round_le (represents_two_zpow (by decide)).neg ?_)
  rw [milli]
  norm_num
  linarith

theorem round_milli_pos (h : 0 < z) : 0 < binary32.round (milli z) := (two_zpow_pos _).trans_le (le_round_milli h)

theorem round_milli_neg (h : z < 0) : binary32.round (milli z) < 0 :=
  neg_pos.mp ((two_zpow_pos _).trans_le (round_milli_le_neg h))

theorem round_milli_zero : binary32.round (milli 0) = 0 := by
  rw [milli, Int.cast_zero, zero_div, round_zero]

theorem round_milli_pos_iff : 0 < binary32.round (milli z) ↔ 0 < z := by
  refine ⟨fun h => ?_, round_milli_pos⟩
  rcases lt_trichotomy z 0 with hz | rfl | hz
  · exact absurd h (round_milli_neg hz).le.not_gt
  · rw [round_milli_zero] at h
    exact absurd h (lt_irrefl 0)
  · exact hz

theorem round_milli_ne_zero_iff : binary32.round (milli z) ≠ 0 ↔ z ≠ 0 := by
  constructor
  · rintro h rfl
    exact h round_milli_zero
  · intro hz
    rcases lt_or_gt_of_ne hz with hz | hz
    · exact (round_milli_neg hz).ne
    · exact (round_milli_pos hz).ne'

theorem abs_round_milli_sub_le (hz : |z| < 2 ^ 23) : |binary32.round (milli z) - milli z| ≤ 2 ^ (-10 : ℤ) / 2 := by
  refine abs_round_sub_le (by decide) ?_
  have hz' : |(z : ℚ)| ≤ 2 ^ 23 := by exact_mod_cast hz.le
  rw [milli, abs_div]
  norm_num [binary32] at hz' ⊢
  linarith

/-- Two numbers of thousandths are still apart when they are rounded. -/
theorem round_milli_sub (hz : |z| < 2 ^ 23) (hz' : |z'| < 2 ^ 23) (h : z < z') :
    2 ^ (-16 : ℤ) ≤ binary32.round (milli z') - binary32.round (milli z) := by
  have hone : (1 : ℚ) ≤ z' - z := by exact_mod_cast Int.sub_pos.mpr h
  have hmilli : milli z' - milli z = (z' - z) / 1000 := by rw [milli, milli, sub_div]
  have hl := abs_le.mp (abs_round_milli_sub_le hz)
  have hr := abs_le.mp (abs_round_milli_sub_le hz')
  norm_num at hl hr ⊢
  linarith

theorem round_milli_lt_iff (hz : |z| < 2 ^ 23) (hz' : |z'| < 2 ^ 23) :
    binary32.round (milli z) < binary32.round (milli z') ↔ z < z' := by
  constructor
  · intro h
    by_contra hle
    have hmilli : milli z' ≤ milli z :=
      div_le_div_of_nonneg_right (by exact_mod_cast not_lt.mp hle) (by norm_num)
    exact absurd h (not_lt.mpr (round_mono hmilli))
  · intro h
    have hsub := round_milli_sub hz hz' h
    have hpos := two_zpow_pos (-16)
    linarith

theorem round_milli_eq_iff (hz : |z| < 2 ^ 23) (hz' : |z'| < 2 ^ 23) :
    binary32.round (milli z) = binary32.round (milli z') ↔ z = z' := by
  constructor
  · intro h
    rcases lt_trichotomy z z' with hlt | heq | hlt
    · exact absurd h ((round_milli_lt_iff hz hz').mpr hlt).ne
    · exact heq
    · exact absurd h ((round_milli_lt_iff hz' hz).mpr hlt).ne'
  · rintro rfl
    rfl

/-- The quotient of the constructor is rounded once. -/
theorem round_round_div (hz : |z| < 2 ^ 23) : binary32.round (binary32.round z / 1000) = binary32.round (milli z) := by
  rw [round_intCast hz]
  rfl

theorem abs_round_milli_le {n : ℕ} (hz : |z| ≤ 1000 * 2 ^ n) : |binary32.round (milli z)| ≤ 2 ^ (n : ℤ) := by
  have hz' : |(z : ℚ)| ≤ 1000 * 2 ^ n := by exact_mod_cast hz
  refine abs_round_le (represents_two_zpow ?_) ?_
  · exact le_trans (by decide) (Int.natCast_nonneg n)
  · rw [milli, abs_div, zpow_natCast, abs_of_pos (by norm_num : (0 : ℚ) < 1000), div_le_iff₀ (by norm_num), mul_comm]
    exact hz'

end Thousandths

namespace Gds

variable (t : BinaryFormat) (lib : OsterLib) (s : File)

/-- The steps of the grid in the section are given and lead from its first corner to its last, and the number of the
last corner is one of its points.  The corners and steps are in thousandths, as they stand in the octets. -/
structure Stepped : Prop where
  given : modeOf s 0 ≠ 0
  di : int2Of lib s 23 ≠ 0
  dj : int2Of lib s 25 ≠ 0
  east : 0 < int2Of lib s 23 ∨ int3Of lib s 13 = int3Of lib s 20
  south : 0 < int2Of lib s 25 ∨ int3Of lib s 10 = int3Of lib s 17 ∨ ni s = 0
  last : (LatLonBase.decoded lib s 0).single.flatIn t
    ⟨binary32.round (milli (int3Of lib s 17)), binary32.round (milli (int3Of lib s 20))⟩ < points s + 1
  int : (LatLonBase.decoded lib s 0).single.flatIn t
    ⟨binary32.round (milli (int3Of lib s 17)), binary32.round (milli (int3Of lib s 20))⟩ < 2 ^ 31

/-- Every position inside the decoded grid, with coordinates of the type, has the number of one of its points. -/
def Numbered : Prop :=
  ∃ d, GridDescriptionSection.defineGrid ⟨some 0⟩ lib s = .ok (.latLon d) ∧
    ∀ pos : Coord, t.Represents pos.lat → t.Represents pos.lon →
      posInGrid pos (.latLon { d with base := d.base.single }) = true →
        ∃ n, d.base.single.valueByRawIn t pos = .ok n ∧ 1 ≤ n ∧ n ≤ points s

variable {t lib s}

section Documented

variable (hlib : lib.ReadsSigned)

include hlib

theorem abs_int3Of_lt (p : ℕ) : |int3Of lib s p| < 2 ^ 23 := by
  rw [int3Of_eq hlib]
  exact abs_signMagnitude_lt

theorem abs_int2Of_lt (p : ℕ) : |int2Of lib s p| < 2 ^ 15 := by
  rw [int2Of_eq hlib]
  exact abs_signMagnitude_lt

theorem abs_latLonDxOf_lt : |latLonDxOf lib s 0| < 2 ^ 15 := by
  rw [latLonDxOf]
  split
  · exact abs_int2Of_lt hlib _
  · decide

theorem abs_latLonDyOf_lt : |latLonDyOf lib s 0| < 2 ^ 15 := by
  rw [latLonDyOf]
  split
  · exact abs_int2Of_lt hlib _
  · decide

/-- The members of the decoded grid. -/
theorem singles_decoded : (LatLonBase.decoded lib s 0).single.Singles where
  x1 := represents_round _
  x2 := represents_round _
  y1 := represents_round _
  y2 := represents_round _
  columns h := round_milli_sub (abs_int3Of_lt hlib _) (abs_int3Of_lt hlib _)
    ((round_milli_lt_iff (abs_int3Of_lt hlib _) (abs_int3Of_lt hlib _)).mp h)
  rows h := round_milli_sub (abs_int3Of_lt hlib _) (abs_int3Of_lt hlib _)
    ((round_milli_lt_iff (abs_int3Of_lt hlib _) (abs_int3Of_lt hlib _)).mp h)
  dx := abs_round_milli_le (n := 6) ((abs_latLonDxOf_lt hlib).le.trans (by decide))
  dy := abs_round_milli_le (n := 6) ((abs_latLonDyOf_lt hlib).le.trans (by decide))

/-- Nothing that `value_by_raw` computes for a position inside is beyond the largest `float`. -/
theorem decoded_bounded (ht : binary32.Wider t) {pos : Coord}
    (hin : (LatLonBase.decoded lib s 0).single.posInGrid pos = true)
    (hdx : latLonDxOf lib s 0 ≠ 0) (hdy : latLonDyOf lib s 0 ≠ 0) :
    |(LatLonBase.decoded lib s 0).single.flatIn t pos| ≤ 2 ^ (42 : ℤ) := by
  have hstep : ∀ {z : ℤ}, z ≠ 0 → 2 ^ (-10 : ℤ) ≤ |binary32.round (milli z)| := by
    intro z hz
    rcases lt_or_gt_of_ne hz with hz | hz
    · exact (round_milli_le_neg hz).trans (neg_le_abs _)
    · exact (le_round_milli hz).trans (le_abs_self _)
  have hcorner : ∀ p, |binary32.round (milli (int3Of lib s p))| ≤ 2 ^ (14 : ℤ) := fun p =>
    abs_round_milli_le (n := 14) ((abs_int3Of_lt hlib p).le.trans (by decide))
  have hdistance : ∀ p q, binary32.round (milli (int3Of lib s p)) - binary32.round (milli (int3Of lib s q)) ≤
      2 ^ (15 : ℤ) := by
    intro p q
    have hp := (abs_le.mp (hcorner p)).2
    have hq := (abs_le.mp (hcorner q)).1
    norm_num at hp hq ⊢
    linarith
  exact (LatLonBase.flatIn_bounded ht hin (hdistance _ _) (hdistance _ _) (Octets.be_lt s 6 2).le (hstep hdx)
    (hstep hdy)).2.2.2

theorem steppedIn_iff : (LatLonBase.decoded lib s 0).single.SteppedIn t (points s) ↔ Stepped t lib s := by
  by_cases hmode : modeOf s 0 = 0
  · have hdx : (LatLonBase.decoded lib s 0).single.dx = 0 := by
      show binary32.round (milli (latLonDxOf lib s 0)) = 0
      rw [latLonDxOf, if_neg (not_not.mpr hmode), round_milli_zero]
    exact ⟨fun h => absurd hdx h.dx, fun h => absurd hmode h.given⟩
  · have hdx : (LatLonBase.decoded lib s 0).single.dx = binary32.round (milli (int2Of lib s 23)) :=
      congrArg (fun z => binary32.round (milli z)) (if_pos hmode)
    have hdy : (LatLonBase.decoded lib s 0).single.dy = binary32.round (milli (int2Of lib s 25)) :=
      congrArg (fun z => binary32.round (milli z)) (if_pos hmode)
    have heast : 0 < binary32.round (milli (int2Of lib s 23)) ∨
        binary32.round (milli (int3Of lib s 13)) = binary32.round (milli (int3Of lib s 20)) ↔
        0 < int2Of lib s 23 ∨ int3Of lib s 13 = int3Of lib s 20 :=
      or_congr round_milli_pos_iff (round_milli_eq_iff (abs_int3Of_lt hlib _) (abs_int3Of_lt hlib _))
    have hsouth : 0 < binary32.round (milli (int2Of lib s 25)) ∨
        binary32.round (milli (int3Of lib s 10)) = binary32.round (milli (int3Of lib s 17)) ∨ ni s = 0 ↔
        0 < int2Of lib s 25 ∨ int3Of lib s 10 = int3Of lib s 17 ∨ ni s = 0 :=
      or_congr round_milli_pos_iff
        (or_congr (round_milli_eq_iff (abs_int3Of_lt hlib _) (abs_int3Of_lt hlib _)) Iff.rfl)
    constructor
    · rintro ⟨h1, h2, h3, h4, h5, h6⟩
      rw [hdx] at h1 h3
      rw [hdy] at h2 h4
      exact ⟨hmode, round_milli_ne_zero_iff.mp h1, round_milli_ne_zero_iff.mp h2, heast.mp h3, hsouth.mp h4, h5, h6⟩
    · rintro ⟨-, h1, h2, h3, h4, h5, h6⟩
      refine ⟨?_, ?_, ?_, ?_, h5, h6⟩
      · rw [hdx]
        exact round_milli_ne_zero_iff.mpr h1
      · rw [hdy]
        exact round_milli_ne_zero_iff.mpr h2
      · rw [hdx]
        exact heast.mpr h3
      · rw [hdy]
        exact hsouth.mpr h4

end Documented

theorem defineGrid_section (h : HasPoints s) (h0 : Octets.octet s 5 = 0) :
    GridDescriptionSection.defineGrid ⟨some 0⟩ lib s = .ok (.latLon ⟨LatLonBase.decoded lib s 0, {}⟩) := by
  refine GridDescriptionSection.defineGrid_ok (r := .latLonGridEquidistCylindr) ?_ ?_
  · rw [Nat.zero_add, h0]
    rfl
  · rw [Nat.zero_add]
    exact h.size

/-- **The positions inside the grid of a section are all numbered within its points exactly if there are none, or the
steps are given and lead to the last corner, and this one has the number of a point.** -/
theorem numbered_iff (hlib : lib.ReadsSigned) (ht : binary32.Wider t) (h : HasPoints s)
    (h0 : Octets.octet s 5 = 0) : Numbered t lib s ↔
      int3Of lib s 20 < int3Of lib s 13 ∨ int3Of lib s 10 < int3Of lib s 17 ∨ Stepped t lib s := by
  have hdef : Numbered t lib s ↔ (LatLonBase.decoded lib s 0).single.IndexesIn t (points s) := by
    constructor
    · rintro ⟨d, hd, hn⟩
      rw [defineGrid_section h h0] at hd
      cases hd
      exact hn
    · exact fun hn => ⟨_, defineGrid_section h h0, hn⟩
  rw [hdef, LatLonBase.indexesIn_iff ht (singles_decoded hlib), steppedIn_iff hlib]
  exact or_congr (round_milli_lt_iff (abs_int3Of_lt hlib _) (abs_int3Of_lt hlib _))
    (or_congr (round_milli_lt_iff (abs_int3Of_lt hlib _) (abs_int3Of_lt hlib _)) Iff.rfl)

theorem numbered_iff_latLonSection :
    Numbered binary64 OsterLib.reference latLonSection ↔
      int3Of OsterLib.reference latLonSection 20 < int3Of OsterLib.reference latLonSection 13 ∨
      int3Of OsterLib.reference latLonSection 10 < int3Of OsterLib.reference latLonSection 17 ∨
      Stepped binary64 OsterLib.reference latLonSection :=
  numbered_iff OsterLib.reference_readsSigned ⟨by decide, by decide⟩ (by decide) (by decide)

/-- The section of the same points without increments. -/
def noIncrementsSection : List UInt8 :=
  lengthPrefixed
    [0, 255, 0, 0, 2, 0, 2, 0, 3, 232, 0, 0, 0, 0, 0, 0, 0, 0, 3, 232, 255, 255, 255, 255, 0, 0, 0, 0, 0]

/-- Where the increments are not given, the number of a position is divided by zero. -/
theorem noIncrements_divides :
    HasPoints noIncrementsSection ∧ Octets.octet noIncrementsSection 5 = 0 ∧
      (LatLonBase.decoded OsterLib.reference noIncrementsSection 0).single.posInGrid ⟨1, 0⟩ = true ∧
      (LatLonBase.decoded OsterLib.reference noIncrementsSection 0).single.valueByRawIn binary32 ⟨1, 0⟩ =
        .error .arithmetic ∧
      ¬ Numbered binary32 OsterLib.reference noIncrementsSection := by
  have hp : HasPoints noIncrementsSection := by decide
  have h0 : Octets.octet noIncrementsSection 5 = 0 := by decide
  have hin : (LatLonBase.decoded OsterLib.reference noIncrementsSection 0).single.posInGrid ⟨1, 0⟩ = true := by
    with_unfolding_all decide
  have hdiv : (LatLonBase.decoded OsterLib.reference noIncrementsSection 0).single.valueByRawIn binary32 ⟨1, 0⟩ =
      .error .arithmetic := by
    refine if_pos (.inl ?_)
    with_unfolding_all decide
  refine ⟨hp, h0, hin, hdiv, ?_⟩
  rintro ⟨d, hd, hn⟩
  rw [defineGrid_section hp h0] at hd
  cases hd
  have hone : binary32.Represents 1 := represents_two_zpow (e := 0) (by decide)
  have hzero : binary32.Represents 0 := round_zero (t := binary32) ▸ represents_round 0
  obtain ⟨n, hvalue, -⟩ := hn ⟨1, 0⟩ hone hzero hin
  rw [hdiv] at hvalue
  cases hvalue

end Gds

end Mashroom
