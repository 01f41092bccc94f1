import Mathlib.Algebra.BigOperators.Group.List.Basic
import Mashroom.Grib1.Message

/-!
# Grib1.Points — the number of points of a grid

A latitude/longitude or Gaussian grid is regular, with `Ni * Nj` points, or thinned: then `Ni` is all ones and a list
in the section counts the points of each row.  `nxny` is run here on the octets of one section alone, so that every
octet it reads outside the section is a read outside the file (`nxny_embed` puts the section back into a file).
-/

namespace Mashroom

/-! ## The octets of a section -/

namespace Gds

variable (s : File)

/-- Octets 7-8, the points along a parallel. -/
def ni : ℕ := Octets.be s 6 2

/-- Octets 9-10, the points along a meridian. -/
def nj : ℕ := Octets.be s 8 2

/-- The number of vertical coordinates, octet 4. -/
def nv : ℕ := Octets.octet s 3

/-- Octet 5: the octet where the vertical coordinates or, without any, the counts start; `255` when neither is there. -/
def pv : ℕ := Octets.octet s 4

/-- The section of a latitude/longitude or a Gaussian grid. -/
structure HasPoints : Prop where
  length : Octets.be s 0 3 = s.length
  size : gridOctets .latLonGridEquidistCylindr ≤ s.length
  type : Octets.octet s 5 = 0 ∨ Octets.octet s 5 = 4

/-- The section has a list of `n` counts. -/
structure HasCounts (n : ℕ) : Prop where
  given : pv s ≠ 255
  start : 1 ≤ nv s * 4 + pv s
  inside : nv s * 4 + pv s - 1 + n * 2 ≤ s.length

instance : Decidable (HasPoints s) :=
  decidable_of_iff (Octets.be s 0 3 = s.length ∧ gridOctets .latLonGridEquidistCylindr ≤ s.length ∧
      (Octets.octet s 5 = 0 ∨ Octets.octet s 5 = 4))
    ⟨fun h => ⟨h.1, h.2.1, h.2.2⟩, fun h => ⟨h.length, h.size, h.type⟩⟩

instance (n : ℕ) : Decidable (HasCounts s n) :=
  decidable_of_iff (pv s ≠ 255 ∧ 1 ≤ nv s * 4 + pv s ∧ nv s * 4 + pv s - 1 + n * 2 ≤ s.length)
    ⟨fun h => ⟨h.1, h.2.1, h.2.2⟩, fun h => ⟨h.given, h.start, h.inside⟩⟩

/-- The `n` two-octet numbers from offset `p`. -/
def counts (p n : ℕ) : List ℕ := (List.range n).map fun i => Octets.be s (p + i * 2) 2

/-- The number of points along the parallels of a grid: of a thinned one without its list it is not known. -/
def rowPoints : Option ℕ :=
  if ni s ≠ 65535 then some (ni s * nj s)
  else if HasCounts s (nj s) then some (counts s (nv s * 4 + pv s - 1) (nj s)).sum
  else none

/-- The number of points of a grid whose rows or columns may be thinned: of a thinned one without its list it counts
none. -/
def points : ℕ :=
  if ni s = 65535 then if HasCounts s (nj s) then (counts s (nv s * 4 + pv s - 1) (nj s)).sum else 0
  else if nj s = 65535 then if HasCounts s (ni s) then (counts s (nv s * 4 + pv s - 1) (ni s)).sum else 0
  else ni s * nj s

/-- `nxny` reads no octet outside the section, and its result is the number of points if that is known. -/
def Counted : Prop :=
  ∃ n, GridDescriptionSection.nxny ⟨some 0⟩ s = .ok n ∧ ∀ m, rowPoints s = some m → n = m

end Gds

open Gds

/-! ## The rows of a thinned grid -/

section Rows

variable {f : File}

theorem octetAt_eq_ok {z : ℤ} {v : ℕ} (h : octetAt f z = .ok v) : 0 ≤ z ∧ z < f.length := by
  unfold octetAt at h
  split at h
  · have := (octet_eq_ok.mp h).1
    omega
  · cases h

theorem counts_succ (p n : ℕ) : counts f p (n + 1) = counts f p n ++ [Octets.be f (p + n * 2) 2] := by
  rw [counts, List.range_succ, List.map_append]
  rfl

theorem sumRows_ok {g p n : ℕ} (h : g + p + n * 2 ≤ f.length) : sumRows f g p n = .ok (counts f (g + p) n).sum := by
  induction n with
  | zero => rfl
  | succ n ih =>
    have hhi : octetAt f (g + (p + n * 2)) = .ok (Octets.octet f (g + p + n * 2)) := by
      rw [show (g + (p + n * 2) : ℤ) = ((g + p + n * 2 : ℕ) : ℤ) by push_cast; omega, octetAt_natCast,
        octet_ok (by omega)]
    have hlo : octetAt f (g + (p + n * 2 + 1)) = .ok (Octets.octet f (g + p + n * 2 + 1)) := by
      rw [show (g + (p + n * 2 + 1) : ℤ) = ((g + p + n * 2 + 1 : ℕ) : ℤ) by push_cast; omega, octetAt_natCast,
        octet_ok (by omega)]
    rw [sumRows, ih (by omega), ok_bind, hhi, ok_bind, hlo, ok_bind, counts_succ, List.sum_append, List.sum_singleton,
      pure_eq_ok]
    simp [Octets.be]

/-- The rows can be summed only where all their counts are in the file. -/
theorem sumRows_inside {g n v : ℕ} {pl : ℤ} (h : sumRows f g pl n = .ok v) :
    n = 0 ∨ 0 ≤ g + pl ∧ g + pl + n * 2 ≤ f.length := by
  induction n generalizing v with
  | zero => exact .inl rfl
  | succ n ih =>
    obtain ⟨isum, hs, h⟩ := bind_eq_ok.mp h
    obtain ⟨hi, hhi, h⟩ := bind_eq_ok.mp h
    obtain ⟨lo, hlo, -⟩ := bind_eq_ok.mp h
    have h1 := (octetAt_eq_ok hhi).1
    have h2 := (octetAt_eq_ok hlo).2
    have h3 := ih hs
    right
    omega

end Rows

/-! ## `nxny` -/

section Nxny

variable {s : File}

/-- On the section of such a grid, `nxny` multiplies the dimensions and then sums the rows of a thinned grid. -/
theorem nxny_eq (h : HasPoints s) :
    GridDescriptionSection.nxny ⟨some 0⟩ s = (do
      let _ ← cInt (ni s * nj s)
      if ni s = 65535 then
        let pl ← GridDescriptionSection.getPL s 0
        sumRows s 0 pl (nj s)
      else return 0) := by
  have hsize := h.size
  simp only [gridOctets] at hsize
  have h5 : octet s 5 = .ok (Octets.octet s 5) := octet_ok (by omega)
  have h6 : readBytes s 6 2 = .ok (ni s) := readBytes_ok (by omega)
  have h8 : readBytes s 8 2 = .ok (nj s) := readBytes_ok (by omega)
  have hrep : isRepresentation (Octets.octet s 5) = .ok true := by
    rcases h.type with h | h <;> rw [h] <;> rfl
  rw [GridDescriptionSection.nxny, GridDescriptionSection.getRepresentationType, deref_some, ok_bind, Nat.zero_add, h5,
    ok_bind, ok_bind, hrep, ok_bind, if_pos ⟨rfl, h.type⟩, Nat.zero_add, h6, ok_bind, Nat.zero_add, h8, ok_bind]

theorem getPL_eq (h : HasPoints s) :
    GridDescriptionSection.getPL s 0 = .ok (if pv s = 255 then -1 else nv s * 4 + pv s - 1) := by
  have hsize := h.size
  simp only [gridOctets] at hsize
  have h4 : octet s 4 = .ok (pv s) := octet_ok (by omega)
  have h3 : octet s 3 = .ok (nv s) := octet_ok (by omega)
  simp only [GridDescriptionSection.getPL, Nat.zero_add, h4, h3, ok_bind]
  split <;> rfl

theorem nxny_regular (h : HasPoints s) (hni : ni s ≠ 65535) {n : ℕ}
    (hn : GridDescriptionSection.nxny ⟨some 0⟩ s = .ok n) : n = 0 := by
  rw [nxny_eq h] at hn
  obtain ⟨_, -, hn⟩ := bind_eq_ok.mp hn
  rw [if_neg hni] at hn
  cases hn
  rfl

/-- The rows of a thinned grid are summed where their list is in the section and the product with `65535` fits. -/
theorem nxny_thinned (h : HasPoints s) (hni : ni s = 65535) (hc : HasCounts s (nj s)) (hnj : nj s ≤ 32768) :
    GridDescriptionSection.nxny ⟨some 0⟩ s = .ok (counts s (nv s * 4 + pv s - 1) (nj s)).sum := by
  have hprod : cInt (ni s * nj s) = .ok (ni s * nj s : ℤ) := by
    refine cInt_eq_ok.mpr ⟨rfl, ?_, ?_⟩ <;> rw [hni] <;> omega
  have hstart := hc.start
  have hin := hc.inside
  have hpl : ((nv s : ℤ) * 4 + pv s - 1) = ((nv s * 4 + pv s - 1 : ℕ) : ℤ) := by omega
  rw [nxny_eq h, hprod, ok_bind, if_pos hni, getPL_eq h, ok_bind, if_neg hc.given, hpl, sumRows_ok (by omega),
    Nat.zero_add]

theorem thinned_of_nxny (h : HasPoints s) (hni : ni s = 65535) {n : ℕ}
    (hn : GridDescriptionSection.nxny ⟨some 0⟩ s = .ok n) : nj s = 0 ∨ HasCounts s (nj s) ∧ nj s ≤ 32768 := by
  rw [nxny_eq h] at hn
  obtain ⟨_, hprod, hn⟩ := bind_eq_ok.mp hn
  obtain ⟨-, -, hlt⟩ := cInt_eq_ok.mp hprod
  rw [hni] at hlt
  rw [if_pos hni, getPL_eq h, ok_bind] at hn
  rcases sumRows_inside hn with h0 | ⟨hlo, hhi⟩
  · exact .inl h0
  · by_cases hpv : pv s = 255
    · rw [if_pos hpv] at hlo
      omega
    · rw [if_neg hpv] at hlo hhi
      exact .inr ⟨⟨hpv, by omega, by omega⟩, by omega⟩

theorem counted_regular (h : HasPoints s) (hni : ni s ≠ 65535) : Counted s ↔ ni s = 0 ∨ nj s = 0 := by
  have hp : rowPoints s = some (ni s * nj s) := if_pos hni
  rw [← Nat.mul_eq_zero]
  constructor
  · rintro ⟨n, hn, hm⟩
    rw [← hm _ hp, nxny_regular h hni hn]
  · intro h0
    have hprod : cInt (ni s * nj s) = .ok 0 := by
      rw [show (ni s * nj s : ℤ) = 0 by exact_mod_cast h0]
      rfl
    refine ⟨0, by rw [nxny_eq h, hprod, ok_bind, if_neg hni]; rfl, fun m hm => ?_⟩
    rw [hp, h0] at hm
    exact Option.some.inj hm

theorem counted_thinned (h : HasPoints s) (hni : ni s = 65535) :
    Counted s ↔ nj s = 0 ∨ HasCounts s (nj s) ∧ nj s ≤ 32768 := by
  constructor
  · rintro ⟨n, hn, -⟩
    exact thinned_of_nxny h hni hn
  · intro hcase
    by_cases hc : HasCounts s (nj s)
    · have hnj : nj s ≤ 32768 := by omega
      refine ⟨_, nxny_thinned h hni hc hnj, fun m hm => ?_⟩
      rw [rowPoints, if_neg (not_not.mpr hni), if_pos hc] at hm
      exact Option.some.inj hm
    · have h0 : nj s = 0 := hcase.resolve_right fun h => hc h.1
      have hprod : cInt (ni s * nj s) = .ok 0 := by
        rw [h0, Nat.cast_zero, mul_zero]
        rfl
      refine ⟨0, ?_, fun m hm => ?_⟩
      · rw [nxny_eq h, hprod, ok_bind, if_pos hni, getPL_eq h, ok_bind, h0]
        rfl
      · rw [rowPoints, if_neg (not_not.mpr hni), if_neg hc] at hm
        cases hm

/-- **`nxny` is right for a regular grid only if it has no points, and for a thinned one if its rows are listed in the
section and are at most 32768.** -/
theorem counted_iff (h : HasPoints s) :
    Counted s ↔ (ni s ≠ 65535 → ni s = 0 ∨ nj s = 0) ∧
      (ni s = 65535 → nj s = 0 ∨ HasCounts s (nj s) ∧ nj s ≤ 32768) := by
  by_cases hni : ni s = 65535
  · rw [counted_thinned h hni]
    exact ⟨fun hc => ⟨fun hne => absurd hni hne, fun _ => hc⟩, fun hc => hc.2 hni⟩
  · rw [counted_regular h hni]
    exact ⟨fun hc => ⟨fun _ => hc, fun he => absurd he hni⟩, fun hc => hc.1 hni⟩

theorem counted_iff_latLonSection :
    Counted latLonSection ↔ (ni latLonSection ≠ 65535 → ni latLonSection = 0 ∨ nj latLonSection = 0) ∧
      (ni latLonSection = 65535 →
        nj latLonSection = 0 ∨ HasCounts latLonSection (nj latLonSection) ∧ nj latLonSection ≤ 32768) :=
  counted_iff (by decide)

/-- The regular grid of two by two points is said to have none. -/
theorem latLonSection_uncounted :
    HasPoints latLonSection ∧ rowPoints latLonSection = some 4 ∧
      GridDescriptionSection.nxny ⟨some 0⟩ latLonSection = .ok 0 ∧ ¬ Counted latLonSection := by
  have h4 : rowPoints latLonSection = some 4 := by decide
  have h0 : GridDescriptionSection.nxny ⟨some 0⟩ latLonSection = .ok 0 := by decide
  refine ⟨by decide, h4, h0, ?_⟩
  rintro ⟨n, hn, hm⟩
  rw [h0] at hn
  cases hn
  exact absurd (hm 4 h4) (by decide)

end Nxny

/-! ## The section in a file -/

section Embed

variable {pre s post : File}

theorem octet_embed {p v : ℕ} (h : octet s p = .ok v) : octet (pre ++ s ++ post) (pre.length + p) = .ok v := by
  obtain ⟨hlt, rfl⟩ := octet_eq_ok.mp h
  rw [octet_ok (by simp only [List.length_append]; omega), Octets.octet_middle hlt]

theorem octetAt_embed {z : ℤ} {v : ℕ} (h : octetAt s z = .ok v) :
    octetAt (pre ++ s ++ post) (pre.length + z) = .ok v := by
  obtain ⟨p, rfl⟩ := Int.eq_ofNat_of_zero_le (octetAt_eq_ok h).1
  rw [← Nat.cast_add, octetAt_natCast]
  rw [octetAt_natCast] at h
  exact octet_embed h

theorem readBytes_embed {p n v : ℕ} (h : readBytes s p n = .ok v) :
    readBytes (pre ++ s ++ post) (pre.length + p) n = .ok v := by
  induction n generalizing v with
  | zero => exact h
  | succ n ih =>
    obtain ⟨hi, hhi, h⟩ := bind_eq_ok.mp h
    obtain ⟨lo, hlo, h⟩ := bind_eq_ok.mp h
    rw [readBytes, ih hhi, ok_bind, Nat.add_assoc, octet_embed hlo]
    exact h

theorem sumRows_embed {pl : ℤ} {n v : ℕ} (h : sumRows s 0 pl n = .ok v) :
    sumRows (pre ++ s ++ post) pre.length pl n = .ok v := by
  induction n generalizing v with
  | zero => exact h
  | succ n ih =>
    obtain ⟨isum, hs, h⟩ := bind_eq_ok.mp h
    obtain ⟨hi, hhi, h⟩ := bind_eq_ok.mp h
    obtain ⟨lo, hlo, h⟩ := bind_eq_ok.mp h
    rw [Nat.cast_zero, zero_add] at hhi hlo
    rw [sumRows, ih hs, ok_bind, octetAt_embed hhi, ok_bind, octetAt_embed hlo]
    exact h

theorem getPL_embed {pl : ℤ} (h : GridDescriptionSection.getPL s 0 = .ok pl) :
    GridDescriptionSection.getPL (pre ++ s ++ post) pre.length = .ok pl := by
  obtain ⟨pv, hpv, h⟩ := bind_eq_ok.mp h
  rw [Nat.zero_add] at hpv
  rw [GridDescriptionSection.getPL, octet_embed hpv, ok_bind]
  split at h
  · rename_i h255
    rw [if_pos h255]
    exact h
  · rename_i h255
    obtain ⟨nv, hnv, h⟩ := bind_eq_ok.mp h
    rw [Nat.zero_add] at hnv
    rw [if_neg h255, octet_embed hnv]
    exact h

/-- **What `nxny` gives on the section alone it gives on every file the section is in.** -/
theorem nxny_embed {n : ℕ} (h : GridDescriptionSection.nxny ⟨some 0⟩ s = .ok n) :
    GridDescriptionSection.nxny ⟨some pre.length⟩ (pre ++ s ++ post) = .ok n := by
  obtain ⟨rep, hrep, h⟩ := bind_eq_ok.mp h
  obtain ⟨g, hg, h⟩ := bind_eq_ok.mp h
  obtain ⟨known, hknown, h⟩ := bind_eq_ok.mp h
  cases hg
  have hrep' : GridDescriptionSection.getRepresentationType ⟨some pre.length⟩ (pre ++ s ++ post) = .ok rep :=
    octet_embed (p := 5) (by simpa [GridDescriptionSection.getRepresentationType] using hrep)
  rw [GridDescriptionSection.nxny, hrep', ok_bind, deref_some, ok_bind, hknown, ok_bind]
  split at h
  · rename_i hc
    obtain ⟨ix, hix, h⟩ := bind_eq_ok.mp h
    obtain ⟨iy, hiy, h⟩ := bind_eq_ok.mp h
    obtain ⟨prod, hprod, h⟩ := bind_eq_ok.mp h
    rw [Nat.zero_add] at hix hiy
    rw [if_pos hc, readBytes_embed hix, ok_bind, readBytes_embed hiy, ok_bind, hprod, ok_bind]
    split at h
    · rename_i hthin
      obtain ⟨pl, hpl, h⟩ := bind_eq_ok.mp h
      rw [if_pos hthin, getPL_embed hpl, ok_bind]
      exact sumRows_embed h
    · rename_i hthin
      rw [if_neg hthin]
      exact h
  · cases h

end Embed

end Mashroom
