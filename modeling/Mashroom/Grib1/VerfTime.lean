import Mashroom.Grib1.AddTime

/-!
# Grib1.VerfTime — the verification time of a product

`verf_time` adds to the reference time of a product definition section the increment that its time range indicator asks
for.  The octets keep the year, the increment and so every `int` small: where the reference time is one of the calendar,
`add_time` has a result, and the verification time is the increment away (`verfTime_shifts`).
-/

namespace Mashroom

open Calendar

/-- `dtime`, where the indicator is `tr` and the periods are `p1` and `p2`. -/
def timeIncrement (tr p1 p2 : ℕ) : ℤ :=
  let dtime : ℤ := p1
  let dtime := if tr = 10 then (p1 : ℤ) * 256 + p2 else dtime
  let dtime := if 1 < tr ∧ tr < 6 then (p2 : ℤ) else dtime
  if tr = 6 ∨ tr = 7 then -(p1 : ℤ) else dtime

/-- `verf_time`: what it returns, and what its arguments point to then. -/
def verfTime (f : File) (pds : ℕ) : Except Fault (ℤ × DateTime) := do
  let yearOfCentury ← octet f (pds + 12)
  let century ← octet f (pds + 24)
  let month ← octet f (pds + 13)
  let day ← octet f (pds + 14)
  let hour ← octet f (pds + 15)
  let p1 ← octet f (pds + 18)
  let tr ← octet f (pds + 20)
  let unit ← octet f (pds + 17)
  let p2 ← octet f (pds + 19)
  let t : DateTime := ⟨⟨yearOfCentury + 100 * (century - 1), month, day⟩, hour⟩
  let dtime := timeIncrement tr p1 p2
  if dtime = 0 then return (0, t) else addTime t dtime unit

/-- The reference time of a section. -/
def referenceDate (f : File) (pds : ℕ) : DateTime where
  year := Octets.octet f (pds + 12) + 100 * (Octets.octet f (pds + 24) - 1)
  month := Octets.octet f (pds + 13)
  day := Octets.octet f (pds + 14)
  hour := Octets.octet f (pds + 15)

/-- The increment of a section. -/
def incrementAt (f : File) (pds : ℕ) : ℤ :=
  timeIncrement (Octets.octet f (pds + 20)) (Octets.octet f (pds + 18)) (Octets.octet f (pds + 19))

/-! ## Increments of octets -/

section Increments

variable {t : DateTime} {n : ℤ}

theorem timeIncrement_bounds {tr p1 p2 : ℕ} (h1 : p1 < 256) (h2 : p2 < 256) :
    -255 ≤ timeIncrement tr p1 p2 ∧ timeIncrement tr p1 p2 ≤ 65535 := by
  unfold timeIncrement
  dsimp only
  split_ifs <;> omega

/-- A time of the calendar, with a year that the octets can give. -/
structure DateTime.Given (t : DateTime) : Prop where
  valid : t.Valid
  year_ge : -100 ≤ t.year
  year_le : t.year ≤ 25655

theorem dayOfYear_bounds {d : Date} (h : d.Valid) : 1 ≤ d.dayOfYear ∧ d.dayOfYear ≤ 366 := by
  have h1 := h.month_pos
  have h2 := h.month_le
  have h3 := h.day_pos
  obtain ⟨k, hk⟩ := Int.eq_ofNat_of_zero_le (show 0 ≤ d.month - 1 by omega)
  have hbefore := daysBeforeMonth_monthjday d.year (show k ≤ 12 by omega)
  have hafter := daysBeforeMonth_monthjday d.year (show k + 1 ≤ 12 by omega)
  have hlow : 0 ≤ monthjday.getD k 0 := monthjday_mono (Nat.zero_le k) (by omega)
  have hhigh : monthjday.getD (k + 1) 0 ≤ 365 := monthjday_mono (show k + 1 ≤ 12 by omega) le_rfl
  have hday := h.day_le
  rw [show d.month = k + 1 by omega] at hday
  have hsucc := daysBeforeMonth_succ d.year k
  have hleap := leap_zero_or_one d.year
  rw [Date.dayOfYear, hk, Int.toNat_natCast]
  split_ifs at hbefore hafter <;> omega

/-- So many days more or less lead to no overflow. -/
theorem addDays_given (h : t.Given) (hlow : -40000 ≤ n) (hhigh : n ≤ 70000) : Defined (addDays t n) := by
  obtain ⟨h1, h366⟩ := dayOfYear_bounds h.valid.date
  have hfrom := h.year_ge
  have hto := h.year_le
  have hyear : -100 * 365 - 100 ≤ daysBeforeYear t.year ∧ daysBeforeYear t.year ≤ 366 * 25656 := by
    unfold daysBeforeYear
    omega
  have hends : daysBeforeYear (-2 ^ 31) < -10 ^ 9 ∧ (10 : ℤ) ^ 9 < daysBeforeYear (2 ^ 31) := by decide
  refine addDays_defined h.valid.date ⟨by omega, by omega⟩ ⟨by omega, by omega⟩ ?_ ?_
  · rw [Date.dayNumber]
    omega
  · rw [Date.dayNumber]
    omega

/-- So many hours more or less lead to no overflow. -/
theorem addHours_given (h : t.Given) (hlow : -10000 ≤ n) (hhigh : n ≤ 800000) : Defined (addHours t n) := by
  have h0 := h.valid.hour_nonneg
  have h24 := h.valid.hour_lt
  have hdiv := Int.mul_tdiv_add_tmod (n + t.hour) 24
  have hlt := Int.tmod_lt_of_pos (n + t.hour) (show (0 : ℤ) < 24 by norm_num)
  have hgt := Int.lt_tmod_of_pos (n + t.hour) (show (0 : ℤ) < 24 by norm_num)
  have hgiven (hour : ℤ) (h0 : 0 ≤ hour) (h24 : hour < 24) : DateTime.Given { t with hour } :=
    ⟨⟨h.valid.date, h0, h24⟩, h.year_ge, h.year_le⟩
  rw [addHours, cInt_ok (by omega) (by omega), ok_bind]
  dsimp only
  split
  · exact addDays_given (hgiven _ (by omega) (by omega)) (by omega) (by omega)
  · exact addDays_given (hgiven _ (by omega) (by omega)) (by omega) (by omega)

theorem monthsBack_given {y : ℤ} (hy : -100 ≤ y ∧ y ≤ 25655) (hlow : -1000 ≤ n) (hhigh : n ≤ 70000) :
    ∃ r, monthsBack y n = .ok r ∧ 0 ≤ r.2 ∧ r.2 ≤ 70000 ∧ 12 * r.1 + r.2 = 12 * y + n := by
  have hspec := monthsBack_spec y n
  unfold monthsBack at hspec ⊢
  split at hspec
  · rename_i hneg
    have hdiv := Int.mul_tdiv_add_tmod (-n) 12
    have hlt := Int.tmod_lt_of_pos (-n) (show (0 : ℤ) < 12 by norm_num)
    have hge := Int.tmod_nonneg 12 (show 0 ≤ -n by omega)
    rw [if_pos hneg, cInt_ok (by omega) (by omega), ok_bind, cInt_ok (by omega) (by omega), ok_bind,
      cInt_ok (by omega) (by omega), ok_bind, cInt_ok (by omega) (by omega), ok_bind,
      cInt_ok (by omega) (by omega), ok_bind]
    refine ⟨_, rfl, ?_, ?_, ?_⟩ <;> dsimp only <;> omega
  · rename_i hpos
    rw [if_neg hpos]
    exact ⟨_, rfl, by dsimp only; omega, hhigh, rfl⟩

/-- So many months more or less lead to no overflow. -/
theorem addMonths_given (h : t.Given) (hlow : -1000 ≤ n) (hhigh : n ≤ 70000) : Defined (addMonths t n) := by
  have h1 := h.valid.date.month_pos
  have h12 := h.valid.date.month_le
  have hfrom := h.year_ge
  have hto := h.year_le
  obtain ⟨⟨y, m⟩, hback, hm0, hm, hsum⟩ := monthsBack_given ⟨hfrom, hto⟩ hlow hhigh
  dsimp only at hm0 hm hsum
  have hdiv := Int.mul_tdiv_add_tmod (m + (t.month - 1)) 12
  have hlt := Int.tmod_lt_of_pos (m + (t.month - 1)) (show (0 : ℤ) < 12 by norm_num)
  have hge := Int.tmod_nonneg 12 (show 0 ≤ m + (t.month - 1) by omega)
  obtain ⟨k, hk⟩ := Int.eq_ofNat_of_zero_le hge
  have hafter := monthjdayAt_eq_ok (show 1 + (k : ℤ) = (k + 1 : ℕ) by omega) (by omega)
  have hbefore := monthjdayAt_eq_ok (show 1 + (k : ℤ) - 1 = k by omega) (by omega)
  rw [addMonths, hback, ok_bind]
  dsimp only
  rw [cInt_ok (by omega) (by omega), ok_bind, cInt_ok (by omega) (by omega), ok_bind, hk, hafter, ok_bind, hbefore,
    ok_bind]
  exact .ok _

/-- So many of a unit of hours are not too many hours. -/
theorem addTime_hours_given (h : t.Given) {u : TimeFrame} {hours : ℤ} (hu : u.hours? n = some hours) (hlow : -255 ≤ n)
    (hhigh : n ≤ 65535) : Defined (addTime t n u.code) := by
  have hdiv := Int.mul_tdiv_add_tmod n 60
  have hlt := Int.tmod_lt_of_pos n (show (0 : ℤ) < 60 by norm_num)
  have hgt := Int.lt_tmod_of_pos n (show (0 : ℤ) < 60 by norm_num)
  have hdiv' := Int.mul_tdiv_add_tmod (n.tdiv 60) 60
  have hlt' := Int.tmod_lt_of_pos (n.tdiv 60) (show (0 : ℤ) < 60 by norm_num)
  have hgt' := Int.lt_tmod_of_pos (n.tdiv 60) (show (0 : ℤ) < 60 by norm_num)
  have hmul (k : ℤ) (h1 : 1 ≤ k) (h12 : k ≤ 12) (he : toHours n u.code = (·, TimeFrame.hour.code) <$> cInt (n * k))
      (ha : addTime t n u.code = toHours n u.code >>= fun carried =>
        if carried.2 = TimeFrame.hour.code then addHours t carried.1
        else if carried.2 = TimeFrame.day.code then addDays t carried.1
        else return (1, t)) : Defined (addTime t n u.code) := by
    have hk : -255 * 12 ≤ n * k ∧ n * k ≤ 65535 * 12 := by constructor <;> nlinarith
    rw [ha, he, cInt_ok (by omega) (by omega)]
    exact addHours_given (n := n * k) h (by omega) (by omega)
  cases u <;> simp only [TimeFrame.hours?, Option.some.injEq, reduceCtorEq] at hu
  case second => exact addHours_given (n := (n.tdiv 60).tdiv 60) h (by omega) (by omega)
  case minute => exact addHours_given (n := n.tdiv 60) h (by omega) (by omega)
  case hour => exact addHours_given (n := n) h (by omega) (by omega)
  case hours3 => exact hmul 3 (by norm_num) (by norm_num) rfl rfl
  case hours6 => exact hmul 6 (by norm_num) (by norm_num) rfl rfl
  case hours12 => exact hmul 12 (by norm_num) (by norm_num) rfl rfl

end Increments

/-! ## The verification time -/

section Shifts

variable {t t' : DateTime} {n : ℤ} {u : TimeFrame}

/-- No time is no step. -/
theorem shifts_zero (h : t.Valid) (u : TimeFrame) : u.Shifts t 0 t := by
  refine ⟨fun hours hhours => ?_, fun _ => ⟨by rw [add_zero], rfl⟩, fun _ => ⟨by rw [add_zero], ?_, rfl⟩⟩
  · have hzero : hours = 0 := by
      cases u <;> simp only [TimeFrame.hours?, Option.some.injEq, reduceCtorEq] at hhours <;> exact hhours.symm
    rw [hzero, add_zero]
  · exact (min_eq_left h.date.day_le).symm

/-- A unit is one of hours, or the day, or the month. -/
theorem carried_cases (hu : u ∈ TimeFrame.carried) (n : ℤ) :
    u = .day ∨ u = .month ∨ u ≠ .day ∧ u ≠ .month ∧ ∃ hours, u.hours? n = some hours := by
  simp only [TimeFrame.carried, List.mem_cons, List.not_mem_nil, or_false] at hu
  obtain rfl | rfl | rfl | rfl | rfl | rfl | rfl | rfl := hu
  case inr.inr.inr.inr.inr.inr.inl => exact .inl rfl
  case inr.inr.inr.inr.inr.inr.inr => exact .inr (.inl rfl)
  all_goals exact .inr (.inr ⟨by decide, by decide, _, rfl⟩)

/-- What `add_time` makes of a time and an increment that octets give. -/
theorem addTime_given (h : t.Given) (hu : u ∈ TimeFrame.carried) (hlow : -255 ≤ n) (hhigh : n ≤ 65535) :
    ∃ t', addTime t n u.code = .ok (0, t') ∧ t'.Valid ∧ u.Shifts t n t' := by
  have hhour := h.valid.hour_nonneg
  have h24 := h.valid.hour_lt
  obtain rfl | rfl | ⟨hday, hmonth, hours, hhours⟩ := carried_cases hu n
  · obtain ⟨⟨r, t'⟩, hval⟩ := addDays_given h (by omega : -40000 ≤ n) (by omega)
    obtain ⟨hzero, hvalid, hnumber, hsame⟩ := (addDays_spec h.valid.date n).of_eq_ok hval
    dsimp only at hzero hvalid hnumber hsame
    refine ⟨t', hval.trans (by rw [hzero]), ⟨hvalid, by omega, by omega⟩, nofun, fun _ => ⟨hnumber, hsame⟩, nofun⟩
  · obtain ⟨⟨r, t'⟩, hval⟩ := addMonths_given h (by omega : -1000 ≤ n) (by omega)
    obtain ⟨hzero, hvalid, hnumber, hend, hsame⟩ := (addMonths_spec h.valid.date n).of_eq_ok hval
    dsimp only at hzero hvalid hnumber hend hsame
    refine ⟨t', hval.trans (by rw [hzero]), ⟨hvalid, by omega, by omega⟩, nofun, nofun, fun _ => ?_⟩
    exact ⟨hnumber, hend, hsame⟩
  · obtain ⟨⟨r, t'⟩, hval⟩ := addTime_hours_given h hhours hlow hhigh
    obtain ⟨hzero, hvalid, hnumber⟩ := (addTime_hours hhours h.valid.date).of_eq_ok hval
    dsimp only at hzero hvalid hnumber
    refine ⟨t', hval.trans (by rw [hzero]), hvalid, fun hours' hhours' => ?_, fun hu => absurd hu hday,
      fun hu => absurd hu hmonth⟩
    obtain rfl := Option.some.inj (hhours.symm.trans hhours')
    exact hnumber

end Shifts

/-- **The verification time is the increment away from the reference time**, and one of the calendar, with whatever
octets a section gives its reference time, its indicator and its periods: no `int` overflows on the way. -/
theorem verfTime_shifts {f : File} {pds : ℕ} (hlen : pds + 25 ≤ f.length) (ht : (referenceDate f pds).Valid)
    {u : TimeFrame} (hu : u ∈ TimeFrame.carried) (hunit : (Octets.octet f (pds + 17) : ℤ) = u.code) :
    ∃ t', verfTime f pds = .ok (0, t') ∧ t'.Valid ∧ u.Shifts (referenceDate f pds) (incrementAt f pds) t' := by
  have hoctet (k : ℕ) (hk : k < 25) : octet f (pds + k) = .ok (Octets.octet f (pds + k)) := if_pos (by omega)
  have hyear := Octets.octet_lt f (pds + 12)
  have hcentury := Octets.octet_lt f (pds + 24)
  have hgiven : (referenceDate f pds).Given := by
    refine ⟨ht, ?_, ?_⟩ <;> dsimp only [referenceDate] <;> omega
  have hbounds : -255 ≤ incrementAt f pds ∧ incrementAt f pds ≤ 65535 :=
    timeIncrement_bounds (Octets.octet_lt f (pds + 18)) (Octets.octet_lt f (pds + 19))
  have hverf : verfTime f pds =
      if incrementAt f pds = 0 then .ok (0, referenceDate f pds)
      else addTime (referenceDate f pds) (incrementAt f pds) u.code := by
    rw [verfTime, hoctet 12 (by norm_num), hoctet 24 (by norm_num), hoctet 13 (by norm_num), hoctet 14 (by norm_num),
      hoctet 15 (by norm_num), hoctet 18 (by norm_num), hoctet 20 (by norm_num), hoctet 17 (by norm_num),
      hoctet 19 (by norm_num), ← hunit]
    rfl
  by_cases hzero : incrementAt f pds = 0
  · rw [hverf, if_pos hzero, hzero]
    exact ⟨_, rfl, ht, shifts_zero ht u⟩
  · rw [hverf, if_neg hzero]
    exact addTime_given hgiven hu hbounds.1 hbounds.2

/-- A section of 1 February 2020, 18 hours, whose product is an average up to 30 hours later. -/
def averageSection : File :=
  [0, 0, 28, 0, 0, 0, 0, 0, 0, 0, 0, 0, 20, 2, 1, 18, 0, 1, 0, 30, 3, 0, 0, 0, 21, 0, 0, 0]

/-- The theorem for that section. -/
theorem verfTime_shifts_average : ∃ t', verfTime averageSection 0 = .ok (0, t') ∧ t'.Valid ∧
    TimeFrame.hour.Shifts (referenceDate averageSection 0) (incrementAt averageSection 0) t' :=
  verfTime_shifts (by decide) (by decide) (by decide) (by decide)

end Mashroom
