import Mashroom.Grib1.Decoded
import Mashroom.Lib.RowMajor

/-!
# Grib1.LatLon — positions and boxes of latitude/longitude grids

`value_by_raw` flattens a position into the number of a value and rounds the result, not its row and column; here
in exact arithmetic, and in floating point in `Singles`.  `extendable` and `extend` join the boxes of two grids with
equal steps.
-/

namespace Mashroom

open RowMajor

namespace LatLonBase

/-- `extendable` -/
def extendable (b other : LatLonBase) : Bool :=
  if b.dx ≠ other.dx ∨ b.dy ≠ other.dy then false
  else !(decide (other.x2 < b.x1) || decide (b.x2 < other.x1) || decide (other.y2 < b.y1) || decide (b.y2 < other.y1))

/-- `extend`: the counts of points stay as they are. -/
def extend (b other : LatLonBase) : LatLonBase :=
  { b with
    x1 := if other.x1 < b.x1 then other.x1 else b.x1
    y2 := if other.y2 < b.y2 then other.y2 else b.y2
    x2 := if b.x2 < other.x2 then other.x2 else b.x2
    y1 := if b.y1 < other.y1 then other.y1 else b.y1 }

/-- The column of a position. -/
def col (b : LatLonBase) (pos : Coord) : ℚ := (pos.lon - b.x1) / b.dx

/-- The row of a position, from the north. -/
def row (b : LatLonBase) (pos : Coord) : ℚ := (b.y1 - pos.lat) / b.dy

/-- The counts of points agree with the corners and the steps. -/
structure Consistent (b : LatLonBase) : Prop where
  columns : (b.nx - 1 : ℚ) * b.dx = b.x2 - b.x1
  rows : (b.ny - 1 : ℚ) * b.dy = b.y1 - b.y2

/-- The second grid reaches beyond the first on no side. -/
structure Within (other b : LatLonBase) : Prop where
  west : b.x1 ≤ other.x1
  east : other.x2 ≤ b.x2
  north : other.y1 ≤ b.y1
  south : b.y2 ≤ other.y2

instance (b : LatLonBase) : Decidable b.Consistent :=
  decidable_of_iff ((b.nx - 1 : ℚ) * b.dx = b.x2 - b.x1 ∧ (b.ny - 1 : ℚ) * b.dy = b.y1 - b.y2)
    ⟨fun h => ⟨h.1, h.2⟩, fun h => ⟨h.columns, h.rows⟩⟩

end LatLonBase

namespace GridInfo

/-- `GridInfo::extendable_by`: only the plain latitude/longitude grid has the member it asks for. -/
def extendableBy (grid other : GridInfo) : Bool :=
  if grid.type ≠ other.type then false
  else
    match grid, other with
    | latLon d, latLon e => d.base.extendable e.base
    | _, _ => false

/-- `GridInfo::extend` -/
def extend (grid other : GridInfo) : Bool × GridInfo :=
  if grid.extendableBy other then
    match grid, other with
    | latLon d, latLon e => (true, latLon { d with base := d.base.extend e.base })
    | _, _ => (false, grid)
  else (false, grid)

@[simp] theorem extendableBy_latLon (d e : GridDefinition LatLonBase NoAdditional) :
    (latLon d).extendableBy (latLon e) = d.base.extendable e.base := if_neg (not_not.mpr rfl)

end GridInfo

/-! ## Positions -/

section Positions

variable {b : LatLonBase} {pos : Coord}

theorem LatLonBase.posInGrid_iff :
    b.posInGrid pos = true ↔ b.y2 ≤ pos.lat ∧ pos.lat ≤ b.y1 ∧ b.x1 ≤ pos.lon ∧ pos.lon ≤ b.x2 := by
  simp only [LatLonBase.posInGrid, Bool.not_eq_true', Bool.or_eq_false_iff, decide_eq_false_iff_not, not_lt, and_assoc]

theorem ratToInt_of_nonneg {q : ℚ} (h : 0 ≤ q) : ratToInt q = cInt ⌊q⌋ := by
  rw [ratToInt, Int.tdiv_eq_ediv_of_nonneg (Rat.num_nonneg.mpr h), Rat.floor_def']

/-- Inside a grid, the position is flattened from the north-west corner. -/
theorem LatLonBase.valueByRaw_inside (hin : b.posInGrid pos = true) (hdx : b.dx ≠ 0) (hdy : b.dy ≠ 0) :
    b.valueByRaw pos = ratToInt (b.col pos + b.nx * b.row pos + 1) := by
  obtain ⟨hs, hn, hw, he⟩ := posInGrid_iff.mp hin
  have hlat : (if b.y2 < b.y1 then b.y1 - pos.lat else pos.lat - b.y1) = b.y1 - pos.lat := by
    split
    · rfl
    · linarith
  rw [valueByRaw, if_neg (not_or.mpr ⟨hdx, hdy⟩), if_neg (not_lt.mpr (hw.trans he)), hlat, col, row]
  congr 1
  ring

/-- **Inside a grid with positive steps, `value_by_raw` is the number of the cell of the position exactly if the parts
of a cell left over, of the column and of the row times the length of a row, are less than a cell, and the number is an
`int`.** -/
theorem LatLonBase.valueByRaw_eq_iff (hdx : 0 < b.dx) (hdy : 0 < b.dy) (hin : b.posInGrid pos = true) :
    b.valueByRaw pos = .ok (1 + ⌊b.row pos⌋ * b.nx + ⌊b.col pos⌋) ↔
      Int.fract (b.col pos) + b.nx * Int.fract (b.row pos) < 1 ∧
      1 + ⌊b.row pos⌋ * b.nx + ⌊b.col pos⌋ < 2 ^ 31 := by
  obtain ⟨hs, hn, hw, he⟩ := posInGrid_iff.mp hin
  have hcol : 0 ≤ b.col pos := div_nonneg (sub_nonneg.mpr hw) hdx.le
  have hrow : 0 ≤ b.row pos := div_nonneg (sub_nonneg.mpr hn) hdy.le
  have hflat : 0 ≤ b.col pos + b.nx * b.row pos := add_nonneg hcol (mul_nonneg b.nx.cast_nonneg hrow)
  have hidx : 0 ≤ ⌊b.col pos + b.nx * b.row pos⌋ := Int.floor_nonneg.mpr hflat
  rw [valueByRaw_inside hin hdx.ne' hdy.ne', ratToInt_of_nonneg (by linarith), Int.floor_add_one, cInt_eq_ok,
    ← floor_flat_eq_iff]
  constructor
  · rintro ⟨heq, -, hlt⟩
    have hcell : ⌊b.col pos + b.nx * b.row pos⌋ = ⌊b.col pos⌋ + b.nx * ⌊b.row pos⌋ := by linarith
    exact ⟨hcell, by linarith⟩
  · rintro ⟨hcell, hlt⟩
    have heq : 1 + ⌊b.row pos⌋ * (b.nx : ℤ) + ⌊b.col pos⌋ = ⌊b.col pos + b.nx * b.row pos⌋ + 1 := by linarith
    exact ⟨heq, by linarith, by linarith⟩

/-- The grid of two by two points between 0 and 1 degree, in the default scanning mode. -/
def squareGrid : LatLonBase where
  y1 := 1
  x1 := 0
  y2 := 0
  x2 := 1
  dy := 1
  dx := 1
  ny := 2
  nx := 2
  scanMode := { pointsSubIDir := false, pointsSubJDir := false, adjPointsJDir := false }
  resolutionAndComponentFlags := { givenDirection := true, earthSpheroidal := false, gridDirectionUvComp := false }

theorem LatLonBase.valueByRaw_eq_iff_corner :
    squareGrid.valueByRaw ⟨0, 1⟩ =
        .ok (1 + ⌊squareGrid.row ⟨0, 1⟩⌋ * squareGrid.nx + ⌊squareGrid.col ⟨0, 1⟩⌋) ↔
      Int.fract (squareGrid.col ⟨0, 1⟩) + squareGrid.nx * Int.fract (squareGrid.row ⟨0, 1⟩) < 1 ∧
      1 + ⌊squareGrid.row ⟨0, 1⟩⌋ * squareGrid.nx + ⌊squareGrid.col ⟨0, 1⟩⌋ < 2 ^ 31 :=
  LatLonBase.valueByRaw_eq_iff (by decide) (by decide) (by decide)

/-- The middle of the square is in the first cell and is given the number of the second. -/
theorem squareGrid_middle :
    squareGrid.Consistent ∧ squareGrid.posInGrid ⟨1 / 2, 1 / 2⟩ = true ∧
      squareGrid.valueByRaw ⟨1 / 2, 1 / 2⟩ = .ok 2 ∧
      squareGrid.valueByRaw ⟨1 / 2, 1 / 2⟩ ≠
        .ok (1 + ⌊squareGrid.row ⟨1 / 2, 1 / 2⟩⌋ * squareGrid.nx + ⌊squareGrid.col ⟨1 / 2, 1 / 2⟩⌋) := by
  have hvalue : squareGrid.valueByRaw ⟨1 / 2, 1 / 2⟩ = .ok 2 := by with_unfolding_all decide
  have hcell : 1 + ⌊squareGrid.row ⟨1 / 2, 1 / 2⟩⌋ * squareGrid.nx + ⌊squareGrid.col ⟨1 / 2, 1 / 2⟩⌋ = 1 := by
    with_unfolding_all decide
  refine ⟨by with_unfolding_all decide, by with_unfolding_all decide, hvalue, ?_⟩
  rw [hvalue, hcell]
  nofun

end Positions

/-! ## Boxes -/

namespace LatLonBase

variable {a b : LatLonBase}

theorem extendable_iff : a.extendable b = true ↔
    (a.dx = b.dx ∧ a.dy = b.dy) ∧ (a.x1 ≤ b.x2 ∧ b.x1 ≤ a.x2) ∧ a.y1 ≤ b.y2 ∧ b.y1 ≤ a.y2 := by
  unfold extendable
  split
  · rename_i h
    exact ⟨nofun, fun hs => absurd h (by rw [hs.1.1, hs.1.2]; simp)⟩
  · rename_i h
    have hs : a.dx = b.dx ∧ a.dy = b.dy := by simpa using h
    simp only [Bool.not_eq_true', Bool.or_eq_false_iff, decide_eq_false_iff_not, not_lt, hs.1, hs.2, true_and,
      and_assoc]

/-- The comparisons of `extendable` are the same from both sides. -/
theorem extendable_comm (a b : LatLonBase) : a.extendable b = b.extendable a := by
  rw [Bool.eq_iff_iff, extendable_iff, extendable_iff]
  exact ⟨fun ⟨⟨h1, h2⟩, ⟨h3, h4⟩, h5, h6⟩ => ⟨⟨h1.symm, h2.symm⟩, ⟨h4, h3⟩, h6, h5⟩,
    fun ⟨⟨h1, h2⟩, ⟨h3, h4⟩, h5, h6⟩ => ⟨⟨h1.symm, h2.symm⟩, ⟨h4, h3⟩, h6, h5⟩⟩

/-- Two boxes share a position exactly if none is empty and they overlap along both axes. -/
theorem meet_iff : (∃ pos, a.posInGrid pos = true ∧ b.posInGrid pos = true) ↔
    (a.x1 ≤ a.x2 ∧ b.x1 ≤ b.x2 ∧ a.x1 ≤ b.x2 ∧ b.x1 ≤ a.x2) ∧
      a.y2 ≤ a.y1 ∧ b.y2 ≤ b.y1 ∧ a.y2 ≤ b.y1 ∧ b.y2 ≤ a.y1 := by
  constructor
  · rintro ⟨pos, ha, hb⟩
    obtain ⟨h1, h2, h3, h4⟩ := posInGrid_iff.mp ha
    obtain ⟨h5, h6, h7, h8⟩ := posInGrid_iff.mp hb
    exact ⟨⟨h3.trans h4, h7.trans h8, h3.trans h8, h7.trans h4⟩, h1.trans h2, h5.trans h6, h1.trans h6, h5.trans h2⟩
  · rintro ⟨⟨hx1, hx2, hx3, hx4⟩, hy1, hy2, hy3, hy4⟩
    refine ⟨⟨max a.y2 b.y2, max a.x1 b.x1⟩, posInGrid_iff.mpr ?_, posInGrid_iff.mpr ?_⟩
    · exact ⟨le_max_left _ _, max_le hy1 hy4, le_max_left _ _, max_le hx1 hx4⟩
    · exact ⟨le_max_right _ _, max_le hy3 hy2, le_max_right _ _, max_le hx3 hx2⟩

/-- Both grids lie on one parallel. -/
def OnOneParallel (a b : LatLonBase) : Prop :=
  (a.y1 = a.y2 ∧ b.y1 = a.y1 ∧ b.y2 = a.y1) ∧ a.x1 ≤ a.x2 ∧ b.x1 ≤ b.x2

/-- One of the boxes is empty, or one lies north of the other. -/
def Apart (a b : LatLonBase) : Prop :=
  a.x2 < a.x1 ∨ b.x2 < b.x1 ∨ a.y1 < a.y2 ∨ b.y1 < b.y2 ∨ b.y1 < a.y2 ∨ a.y1 < b.y2

section Meet

variable (hx : a.x1 ≤ b.x2 ∧ b.x1 ≤ a.x2)

include hx

/-- Boxes that `extendable` finds to overlap share a position only if they are on one parallel. -/
theorem meet_iff_onOneParallel (hy : a.y1 ≤ b.y2 ∧ b.y1 ≤ a.y2) :
    (∃ pos, a.posInGrid pos = true ∧ b.posInGrid pos = true) ↔ a.OnOneParallel b := by
  rw [meet_iff]
  constructor
  · rintro ⟨⟨hx1, hx2, -, -⟩, hy1, hy2, hy3, hy4⟩
    exact ⟨⟨by linarith, by linarith, by linarith⟩, hx1, hx2⟩
  · rintro ⟨⟨h1, h2, h3⟩, hx1, hx2⟩
    exact ⟨⟨hx1, hx2, hx⟩, by linarith, by linarith, by linarith, by linarith⟩

theorem meet_iff_not_apart :
    (∃ pos, a.posInGrid pos = true ∧ b.posInGrid pos = true) ↔ ¬ a.Apart b := by
  rw [meet_iff, Apart]
  simp only [not_or, not_lt]
  exact ⟨fun ⟨⟨h1, h2, _⟩, h3, h4, h5, h6⟩ => ⟨h1, h2, h3, h4, h5, h6⟩,
    fun ⟨h1, h2, h3, h4, h5, h6⟩ => ⟨⟨h1, h2, hx⟩, h3, h4, h5, h6⟩⟩

end Meet

theorem posInGrid_extend {pos : Coord} (h : a.posInGrid pos = true ∨ b.posInGrid pos = true) :
    (a.extend b).posInGrid pos = true := by
  rw [posInGrid_iff, posInGrid_iff] at h
  refine posInGrid_iff.mpr ⟨?_, ?_, ?_, ?_⟩ <;> simp only [extend] <;> split <;> rcases h with h | h <;> linarith

/-- The extended grid has the counts and steps of the first one, so it is consistent only if it has its box. -/
theorem extend_consistent_iff (ha : a.Consistent) : (a.extend b).Consistent ↔ b.Within a := by
  constructor
  · intro h
    have hcol := h.columns.symm.trans ha.columns
    have hrow := h.rows.symm.trans ha.rows
    simp only [extend] at hcol hrow
    -- a side that was moved would make the box larger than the steps allow
    split at hcol <;> split at hcol <;> split at hrow <;> split at hrow <;>
      exact ⟨by linarith, by linarith, by linarith, by linarith⟩
  · intro h
    have hx1 : ¬ b.x1 < a.x1 := not_lt.mpr h.west
    have hx2 : ¬ a.x2 < b.x2 := not_lt.mpr h.east
    have hy1 : ¬ a.y1 < b.y1 := not_lt.mpr h.north
    have hy2 : ¬ b.y2 < a.y2 := not_lt.mpr h.south
    have he : a.extend b = a := by simp only [extend, if_neg hx1, if_neg hx2, if_neg hy1, if_neg hy2]
    rwa [he]

end LatLonBase

namespace GridInfo

variable {d e : GridDefinition LatLonBase NoAdditional}

/-- `extendable_by` says whether the steps are equal and the boxes share a position, from both sides. -/
structure Compared (d e : GridDefinition LatLonBase NoAdditional) : Prop where
  boxes : (latLon d).extendableBy (latLon e) = true ↔ (d.base.dx = e.base.dx ∧ d.base.dy = e.base.dy) ∧
    ∃ pos, posInGrid pos (latLon d) = true ∧ posInGrid pos (latLon e) = true
  symm : (latLon d).extendableBy (latLon e) = (latLon e).extendableBy (latLon d)

/-- **`extendable_by` is right exactly for grids with other steps or with longitudes apart, for two on one parallel, and
for those that it refuses and that share no position.** -/
theorem compared_iff : Compared d e ↔
    (d.base.dx ≠ e.base.dx ∨ d.base.dy ≠ e.base.dy) ∨ (e.base.x2 < d.base.x1 ∨ d.base.x2 < e.base.x1) ∨
      d.base.OnOneParallel e.base ∨ (e.base.y2 < d.base.y1 ∨ d.base.y2 < e.base.y1) ∧ d.base.Apart e.base := by
  have hboxes : Compared d e ↔ (d.base.extendable e.base = true ↔ (d.base.dx = e.base.dx ∧ d.base.dy = e.base.dy) ∧
      ∃ pos, d.base.posInGrid pos = true ∧ e.base.posInGrid pos = true) := by
    constructor
    · intro h
      have := h.boxes
      rwa [extendableBy_latLon] at this
    · intro h
      refine ⟨by rw [extendableBy_latLon]; exact h, ?_⟩
      rw [extendableBy_latLon, extendableBy_latLon, LatLonBase.extendable_comm]
  rw [hboxes, LatLonBase.extendable_iff]
  by_cases hs : d.base.dx = e.base.dx ∧ d.base.dy = e.base.dy
  swap
  · exact iff_of_true (iff_of_false (fun h => hs h.1) fun h => hs h.1) (.inl (not_and_or.mp hs))
  have hs' : ¬ (d.base.dx ≠ e.base.dx ∨ d.base.dy ≠ e.base.dy) := not_or.mpr ⟨not_not.mpr hs.1, not_not.mpr hs.2⟩
  rw [and_iff_right hs, and_iff_right hs, or_iff_right hs']
  by_cases hx : d.base.x1 ≤ e.base.x2 ∧ e.base.x1 ≤ d.base.x2
  swap
  · have hmeet : ¬ ∃ pos, d.base.posInGrid pos = true ∧ e.base.posInGrid pos = true :=
      fun hm => hx (LatLonBase.meet_iff.mp hm).1.2.2
    refine iff_of_true (iff_of_false (fun h => hx h.1) hmeet) (.inl ?_)
    rwa [not_and_or, not_le, not_le] at hx
  have hx' : ¬ (e.base.x2 < d.base.x1 ∨ d.base.x2 < e.base.x1) := not_or.mpr ⟨not_lt.mpr hx.1, not_lt.mpr hx.2⟩
  rw [and_iff_right hx, or_iff_right hx']
  by_cases hy : d.base.y1 ≤ e.base.y2 ∧ e.base.y1 ≤ d.base.y2
  · have hy' : ¬ (e.base.y2 < d.base.y1 ∨ d.base.y2 < e.base.y1) := not_or.mpr ⟨not_lt.mpr hy.1, not_lt.mpr hy.2⟩
    rw [iff_true_left hy, LatLonBase.meet_iff_onOneParallel hx hy, or_iff_left fun h => hy' h.1]
  · -- refused: right exactly if the boxes share nothing; on one parallel they would be accepted
    have hpar : ¬ d.base.OnOneParallel e.base := fun h => hy ⟨by linarith [h.1.2.2], by linarith [h.1.1, h.1.2.1]⟩
    have hy' : e.base.y2 < d.base.y1 ∨ d.base.y2 < e.base.y1 := by rwa [not_and_or, not_le, not_le] at hy
    rw [iff_false_left hy, LatLonBase.meet_iff_not_apart hx, not_not, or_iff_right hpar, and_iff_right hy']

/-- Two grids that share the square between 0 and 1 degree are refused. -/
theorem square_refused :
    (latLon ⟨squareGrid, {}⟩).extendableBy (latLon ⟨squareGrid, {}⟩) = false ∧
      posInGrid ⟨0, 0⟩ (latLon ⟨squareGrid, {}⟩) = true ∧
      ¬ Compared ⟨squareGrid, {}⟩ ⟨squareGrid, {}⟩ := by
  have hno : (latLon ⟨squareGrid, {}⟩).extendableBy (latLon ⟨squareGrid, {}⟩) = false := by decide
  have hin : posInGrid ⟨0, 0⟩ (latLon ⟨squareGrid, {}⟩) = true := by decide
  refine ⟨hno, hin, fun h => ?_⟩
  have := h.boxes.mpr ⟨⟨rfl, rfl⟩, _, hin, hin⟩
  rw [hno] at this
  cases this

/-- After `extend` the first grid covers both, and it is consistent. -/
def Joined (d e : GridDefinition LatLonBase NoAdditional) : Prop :=
  ∃ x, (latLon d).extend (latLon e) = (true, latLon x) ∧
    (∀ pos, posInGrid pos (latLon d) = true ∨ posInGrid pos (latLon e) = true → posInGrid pos (latLon x) = true) ∧
    x.base.Consistent

theorem extend_latLon (h : (latLon d).extendableBy (latLon e) = true) :
    (latLon d).extend (latLon e) = (true, latLon { d with base := d.base.extend e.base }) := if_pos h

/-- **Extending a consistent grid covers both grids, and the result is consistent exactly if the other reaches beyond it
on no side.** -/
theorem joined_iff (h : (latLon d).extendableBy (latLon e) = true) (hd : d.base.Consistent) :
    Joined d e ↔ e.base.Within d.base := by
  rw [← LatLonBase.extend_consistent_iff hd]
  constructor
  · rintro ⟨x, hx, -, hc⟩
    rw [extend_latLon h] at hx
    cases hx
    exact hc
  · exact fun hc => ⟨_, extend_latLon h, fun pos => LatLonBase.posInGrid_extend, hc⟩

/-- Two points on the equator, from `x` degrees on. -/
def equatorGrid (x : ℚ) : GridDefinition LatLonBase NoAdditional :=
  ⟨{ squareGrid with y1 := 0, ny := 1, x1 := x, x2 := x + 1 }, {}⟩

theorem joined_iff_equator :
    Joined (equatorGrid 0) (equatorGrid 0) ↔ (equatorGrid 0).base.Within (equatorGrid 0).base :=
  joined_iff (by with_unfolding_all decide) (by with_unfolding_all decide)

/-- Extended by its neighbour, a grid of two points has the box of three. -/
theorem equator_inconsistent :
    (latLon (equatorGrid 0)).extendableBy (latLon (equatorGrid 1)) = true ∧ (equatorGrid 0).base.Consistent ∧
      (equatorGrid 1).base.Consistent ∧ ¬ Joined (equatorGrid 0) (equatorGrid 1) := by
  have hext : (latLon (equatorGrid 0)).extendableBy (latLon (equatorGrid 1)) = true := by with_unfolding_all decide
  refine ⟨hext, by with_unfolding_all decide, by with_unfolding_all decide, ?_⟩
  rintro ⟨x, hx, -, hc⟩
  rw [extend_latLon hext] at hx
  cases hx
  exact absurd hc (by with_unfolding_all decide)

end GridInfo

end Mashroom
