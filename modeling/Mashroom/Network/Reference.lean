import Mathlib.Data.Rat.Floor
import Mashroom.Lib.Words
import Mashroom.Network.Formats

/-!
# Network.Reference — formats that agree as the documentation says

Words in network or host order, counted containers and flagged options.  The floating point types are written in fixed
point, wide enough for all of their values; the types of OsterLib that have no members here are a word.
-/

namespace Mashroom.Network

open Format

/-- A number in fixed point, with `scale` binary places. -/
def fixedPoint (k scale : ℕ) : Format ℚ := (signed k).map (fun z => z / 2 ^ scale) fun x => ⌊x * 2 ^ scale⌋

theorem fixedPoint_law {k scale p : ℕ} {hi : ℤ} {x : ℚ} (h : IsFloat p (-scale) hi x)
    (hk : p + (hi + scale).toNat + 1 ≤ 8 * k) : (fixedPoint k scale).Law x := by
  obtain ⟨m, e, hm, hlo, hhi, rfl⟩ := h
  obtain ⟨j, hj⟩ : ∃ j : ℕ, e + scale = j := Int.eq_ofNat_of_zero_le (by omega)
  -- the number of units in the last binary place
  have hx : (m * 2 ^ e : ℚ) * 2 ^ scale = ((m * 2 ^ j : ℤ) : ℚ) := by
    rw [mul_assoc, ← zpow_natCast, ← zpow_add₀ two_ne_zero, hj]
    push_cast
    rw [zpow_natCast]
  have hbound : 2 * |m * 2 ^ j| < 256 ^ k := by
    have hpow : (2 : ℤ) ^ p * 2 ^ j * 2 ≤ 256 ^ k := by
      rw [← pow_add, ← pow_succ, show (256 : ℤ) = 2 ^ 8 from rfl, ← pow_mul]
      exact pow_le_pow_right₀ (by decide) (by omega)
    have hj' : (0 : ℤ) < 2 ^ j := by positivity
    rw [abs_mul, abs_of_pos hj']
    nlinarith
  have habs := abs_le.mp (le_refl |m * 2 ^ j|)
  refine map_law (signed_law ?_ ?_) ?_
  · rw [hx, Int.floor_intCast]
    omega
  · rw [hx, Int.floor_intCast]
    omega
  · show ((⌊(m * 2 ^ e : ℚ) * 2 ^ scale⌋ : ℤ) : ℚ) / 2 ^ scale = _
    rw [hx, Int.floor_intCast, ← hx]
    field_simp

/-- The representation types by their octets.  Octets that are none are not written. -/
def representationTypes : List RepresentationType :=
  (List.range 256).map fun n => (RepresentationType.ofOctet n).getD .latLonGridEquidistCylindr

theorem mem_representationTypes (r : RepresentationType) : r ∈ representationTypes := by
  refine List.mem_map.mpr ?_
  cases r
  case undefGrid => exact ⟨255, by decide, rfl⟩
  all_goals decide

def reference : OsterFormats UInt64 UInt64 where
  u8 := (word 1).map .ofNat UInt8.toNat
  u16 := (word 2).map .ofNat UInt16.toNat
  u32 := (word 4).map .ofNat UInt32.toNat
  u64 := (word 8).map .ofNat UInt64.toNat
  i16 := signed 2
  int := signed 4
  float := fixedPoint 35 149
  double := fixedPoint 263 1074
  flag := enumeration 1 [false, true]
  representationType := enumeration 1 representationTypes
  status := enumeration 4 [.ready, .suspended, .inactive]
  transaction := enumeration 4 [.accept, .decline, .cancel]
  process := enumeration 1 [.nothing, .search, .extract, .prepare, .sending]
  string := counted (word 8) ((word 1).map .ofNat UInt8.toNat)
  time := signed 8
  coord := (pair (fixedPoint 263 1074) (fixedPoint 263 1074)).map (fun p => ⟨p.1, p.2⟩) fun c => (c.lat, c.lon)
  timeSequence := (word 8).map .ofNat UInt64.toNat
  timePeriod := (word 8).map .ofNat UInt64.toNat
  vector := counted (word 8)
  unorderedSet := counted (word 8)
  optional := flagged (enumeration 1 [false, true])
  sharedPtr := flagged (enumeration 1 [false, true])

/-- The formats agree on all values. -/
theorem reference_documented : reference.Documented where
  u8 n := map_law (word_law n.toNat_lt) (UInt8.ofNat_toNat)
  u16 n := map_law (word_law n.toNat_lt) (UInt16.ofNat_toNat)
  u32 n := map_law (word_law n.toNat_lt) (UInt32.ofNat_toNat)
  u64 n := map_law (word_law n.toNat_lt) (UInt64.ofNat_toNat)
  i16 z h := signed_law (by omega) (by omega)
  int z h := signed_law (by omega) (by omega)
  float x h := fixedPoint_law h (by decide)
  double x h := fixedPoint_law h (by decide)
  flag b := enumeration_law (by cases b <;> decide) (by decide)
  representationType r := enumeration_law (mem_representationTypes r) (by simp [representationTypes])
  status s := enumeration_law (by cases s <;> decide) (by decide)
  transaction t := enumeration_law (by cases t <;> decide) (by decide)
  process p := enumeration_law (by cases p <;> decide) (by decide)
  string s h := counted_law (word_law h) fun b _ => map_law (word_law b.toNat_lt) UInt8.ofNat_toNat
  time t h := signed_law (by omega) (by omega)
  coord c hlat hlon := map_law (pair_law (fixedPoint_law hlat (by decide)) (fixedPoint_law hlon (by decide))) rfl
  timeSequence t := map_law (word_law t.toNat_lt) UInt64.ofNat_toNat
  timePeriod t := map_law (word_law t.toNat_lt) UInt64.ofNat_toNat
  vector f as h hf := counted_law (word_law h) hf
  unorderedSet f as h _ hf := counted_law (word_law h) hf
  optional f a hf := flagged_law (fun b => enumeration_law (by cases b <;> decide) (by decide)) hf
  sharedPtr f a hf := flagged_law (fun b => enumeration_law (by cases b <;> decide) (by decide)) hf

end Mashroom.Network
