import Mashroom.Lib.Calendar
import Mashroom.Mapped

/-!
# Grib1.AddTime — the time of a forecast

`add_time` moves a date and an hour by a number of units, on which it works with a table of the days before each month
and with loops over whole years.  The `int`s of the source must not overflow: where one does, the run has no meaning.
-/

namespace Mashroom

open Calendar

/-- Code table 4. -/
inductive TimeFrame where
  | minute
  | hour
  | day
  | month
  | year
  | decade
  | normal
  | century
  | hours3
  | hours6
  | hours12
  | quarterHour
  | halfHour
  | second
  | indifferent
  deriving DecidableEq

/-- The value of the enumerator. -/
def TimeFrame.code : TimeFrame → ℤ
  | minute => 0
  | hour => 1
  | day => 2
  | month => 3
  | year => 4
  | decade => 5
  | normal => 6
  | century => 7
  | hours3 => 10
  | hours6 => 11
  | hours12 => 12
  | quarterHour => 13
  | halfHour => 14
  | second => 254
  | indifferent => 255

/-- What the arguments `year`, `month`, `day` and `hour` point to. -/
structure DateTime extends Date where
  hour : ℤ
  deriving DecidableEq

/-- The values of an `int`. -/
def InInt (z : ℤ) : Prop := -2 ^ 31 ≤ z ∧ z < 2 ^ 31

instance : DecidablePred InInt := fun z => inferInstanceAs (Decidable (-2 ^ 31 ≤ z ∧ z < 2 ^ 31))

def leap (year : ℤ) : ℤ :=
  if year.tmod 4 ≠ 0 then 0
  else if year.tmod 100 ≠ 0 then 1
  else if year.tmod 400 = 0 then 1 else 0

/-- `monthjday`: the days of a common year before each month. -/
def monthjday : List ℤ := [0, 31, 59, 90, 120, 151, 181, 212, 243, 273, 304, 334, 365]

/-- An entry of `monthjday`. -/
def monthjdayAt (i : ℤ) : Except Fault ℤ :=
  if 0 ≤ i ∧ i < 13 then .ok (monthjday.getD i.toNat 0) else .error .element

/-- `FEB29` -/
def feb29 : ℤ := 31 + 29

/-- The loop `while(dtime<1)`, back over the years before. -/
def yearsBack (y dtime : ℤ) : Except Fault (ℤ × ℤ) :=
  if dtime < 1 then
    if InInt (y - 1) ∧ InInt (dtime + (365 + leap (y - 1))) then yearsBack (y - 1) (dtime + (365 + leap (y - 1)))
    else .error .arithmetic
  else .ok (y, dtime)
termination_by (1 - dtime).toNat
decreasing_by
  have : 0 ≤ leap (y - 1) := by
    unfold leap
    split_ifs <;> decide
  omega

/-- The loop `while(dtime>365+leap(y))`, over the years that are full. -/
def yearsForward (y dtime : ℤ) : Except Fault (ℤ × ℤ) :=
  if 365 + leap y < dtime then
    if InInt (dtime - (365 + leap y)) ∧ InInt (y + 1) then yearsForward (y + 1) (dtime - (365 + leap y))
    else .error .arithmetic
  else .ok (y, dtime)
termination_by dtime.toNat
decreasing_by
  have : 0 ≤ leap y := by
    unfold leap
    split_ifs <;> decide
  omega

/-- The loop `for(i=11;monthjday[i]>=dtime;--i)` from the index `i` on. -/
def monthIndex (dtime : ℤ) : ℕ → Except Fault ℕ
  | 0 => if dtime ≤ monthjday.getD 0 0 then .error .element else .ok 0
  | i + 1 => if dtime ≤ monthjday.getD (i + 1) 0 then monthIndex dtime i else .ok (i + 1)

/-- The month and the day of day `dtime` of the year `y`. -/
def monthAndDay (y dtime : ℤ) : Except Fault (ℤ × ℤ) :=
  if leap y ≠ 0 ∧ dtime = feb29 then .ok (2, 29)
  else do
    let dtime ← (if leap y ≠ 0 ∧ feb29 < dtime then cInt (dtime - 1) else .ok dtime)
    let i ← monthIndex dtime 11
    let d ← cInt (dtime - monthjday.getD i 0)
    return (i + 1, d)

/-- The branch for `DAY`. -/
def addDays (t : DateTime) (dtime : ℤ) : Except Fault (ℤ × DateTime) := do
  let before ← monthjdayAt (t.month - 1)
  let jday ← cInt (t.day + before)
  let jday ← (if leap t.year ≠ 0 ∧ 2 < t.month then cInt (jday + 1) else .ok jday)
  let dtime ← cInt (dtime + jday)
  let (y, dtime) ← yearsBack t.year dtime
  let (y, dtime) ← yearsForward y dtime
  let (m, d) ← monthAndDay y dtime
  return (0, { t with year := y, month := m, day := d })

/-- The branch for `HOUR`, which goes on with the days. -/
def addHours (t : DateTime) (dtime : ℤ) : Except Fault (ℤ × DateTime) := do
  let dtime ← cInt (dtime + t.hour)
  let hour := dtime.tmod 24
  let dtime := dtime.tdiv 24
  if hour < 0 then addDays { t with hour := hour + 24 } (dtime - 1)
  else addDays { t with hour } dtime

/-- A negative number of months as years back and a number that is not negative. -/
def monthsBack (y dtime : ℤ) : Except Fault (ℤ × ℤ) :=
  if dtime < 0 then do
    let months ← cInt (-dtime)
    let i ← cInt (months.tdiv 12 + 1)
    let y ← cInt (y - i)
    let months ← cInt (i * 12)
    let dtime ← cInt (dtime + months)
    return (y, dtime)
  else .ok (y, dtime)

/-- The branch for `MONTH`. -/
def addMonths (t : DateTime) (dtime : ℤ) : Except Fault (ℤ × DateTime) := do
  let (y, dtime) ← monthsBack t.year dtime
  let dtime ← cInt (dtime + (t.month - 1))
  let y ← cInt (y + dtime.tdiv 12)
  let m := 1 + dtime.tmod 12
  let after ← monthjdayAt m
  let before ← monthjdayAt (m - 1)
  let daysInMonth := if m = 2 ∧ leap y ≠ 0 then after - before + 1 else after - before
  return (0, { t with year := y, month := m, day := if daysInMonth < t.day then daysInMonth else t.day })

/-- The branches for `YEAR`, `DECADE`, `CENTURY` and `NORMAL`, units of `years` years. -/
def addYears (t : DateTime) (years dtime : ℤ) : Except Fault (ℤ × DateTime) := do
  let n ← cInt (years * dtime)
  let y ← cInt (t.year + n)
  return (0, { t with year := y })

/-- A count of one of the units below a day as a count of hours; other units stay. -/
def toHours (dtime unit : ℤ) : Except Fault (ℤ × ℤ) :=
  let (dtime, unit) := if unit = TimeFrame.second.code then (dtime.tdiv 60, TimeFrame.minute.code) else (dtime, unit)
  let (dtime, unit) := if unit = TimeFrame.minute.code then (dtime.tdiv 60, TimeFrame.hour.code) else (dtime, unit)
  if unit = TimeFrame.hours3.code then (·, TimeFrame.hour.code) <$> cInt (dtime * 3)
  else if unit = TimeFrame.hours6.code then (·, TimeFrame.hour.code) <$> cInt (dtime * 6)
  else if unit = TimeFrame.hours12.code then (·, TimeFrame.hour.code) <$> cInt (dtime * 12)
  else .ok (dtime, unit)

/-- `add_time`: what it returns, and what its arguments point to then. -/
def addTime (t : DateTime) (dtime unit : ℤ) : Except Fault (ℤ × DateTime) :=
  if unit = TimeFrame.year.code then addYears t 1 dtime
  else if unit = TimeFrame.decade.code then addYears t 10 dtime
  else if unit = TimeFrame.century.code then addYears t 100 dtime
  else if unit = TimeFrame.normal.code then addYears t 30 dtime
  else if unit = TimeFrame.month.code then addMonths t dtime
  else do
    let (dtime, unit) ← toHours dtime unit
    if unit = TimeFrame.hour.code then addHours t dtime
    else if unit = TimeFrame.day.code then addDays t dtime
    else return (1, t)

/-! ## Results up to overflow -/

/-- The run has a value with the property, unless an `int` overflows. -/
def UpToOverflow {α : Type} (x : Except Fault α) (P : α → Prop) : Prop :=
  x = .error .arithmetic ∨ ∃ a, x = .ok a ∧ P a

namespace UpToOverflow

variable {α β : Type} {x : Except Fault α} {P : α → Prop} {Q : β → Prop} {g : α → Except Fault β}

theorem ok {a : α} (h : P a) : UpToOverflow (.ok a) P := .inr ⟨a, rfl, h⟩

theorem cInt {z : ℤ} {P : ℤ → Prop} (h : P z) : UpToOverflow (cInt z) P := by
  unfold Mashroom.cInt
  split
  · exact .inr ⟨z, rfl, h⟩
  · exact .inl rfl

theorem bind (hx : UpToOverflow x P) (hg : ∀ a, P a → UpToOverflow (g a) Q) : UpToOverflow (x >>= g) Q := by
  rcases hx with rfl | ⟨a, rfl, ha⟩
  · exact .inl rfl
  · exact hg a ha

theorem map {f : α → β} (hx : UpToOverflow x P) (hf : ∀ a, P a → Q (f a)) : UpToOverflow (f <$> x) Q := by
  rcases hx with rfl | ⟨a, rfl, ha⟩
  · exact .inl rfl
  · exact .inr ⟨f a, rfl, hf a ha⟩

theorem ite {c : Prop} [Decidable c] {y z : Except Fault α} (hy : c → UpToOverflow y P) (hz : ¬ c → UpToOverflow z P) :
    UpToOverflow (if c then y else z) P := by
  split
  · exact hy ‹_›
  · exact hz ‹_›

theorem mono {P' : α → Prop} (h : UpToOverflow x P) (hP : ∀ a, P a → P' a) : UpToOverflow x P' := by
  rcases h with h | ⟨a, ha, hp⟩
  · exact .inl h
  · exact .inr ⟨a, ha, hP a hp⟩

theorem of_eq_ok {a : α} (h : UpToOverflow x P) (ha : x = .ok a) : P a := by
  subst ha
  obtain h | ⟨b, hb, hp⟩ := h
  · cases h
  · cases hb
    exact hp

end UpToOverflow

/-! ## Years and months -/

theorem leap_eq (y : ℤ) : leap y = leapDay y := by
  have hmod : ∀ k, y.tmod k = 0 ↔ y % k = 0 := fun k => by
    rw [← Int.dvd_iff_tmod_eq_zero, Int.dvd_iff_emod_eq_zero]
  by_cases h : IsLeap y
  · rw [leapDay_eq_one h, leap]
    simp only [ne_eq, hmod]
    unfold IsLeap at h
    split_ifs <;> omega
  · rw [leapDay_eq_zero h, leap]
    simp only [ne_eq, hmod]
    unfold IsLeap at h
    split_ifs <;> omega

theorem yearsBack_spec (y dtime : ℤ) : UpToOverflow (yearsBack y dtime) fun r =>
    1 ≤ r.2 ∧ daysBeforeYear r.1 + r.2 = daysBeforeYear y + dtime := by
  fun_induction yearsBack y dtime with
  | case1 y dtime _ _ ih =>
    refine ih.mono fun r hr => ⟨hr.1, ?_⟩
    have hyear := daysBeforeYear_succ (y - 1)
    rw [sub_add_cancel, yearLength, ← leap_eq] at hyear
    linarith [hr.2]
  | case2 => exact .inl rfl
  | case3 y dtime h => exact .ok ⟨not_lt.mp h, rfl⟩

theorem yearsForward_spec (y : ℤ) {dtime : ℤ} (h1 : 1 ≤ dtime) : UpToOverflow (yearsForward y dtime) fun r =>
    (1 ≤ r.2 ∧ r.2 ≤ yearLength r.1) ∧ daysBeforeYear r.1 + r.2 = daysBeforeYear y + dtime := by
  fun_induction yearsForward y dtime with
  | case1 y dtime h _ ih =>
    refine (ih (by linarith)).mono fun r hr => ⟨hr.1, ?_⟩
    have hyear := daysBeforeYear_succ y
    rw [yearLength, ← leap_eq] at hyear
    linarith [hr.2]
  | case2 => exact .inl rfl
  | case3 y dtime h =>
    rw [leap_eq] at h
    exact .ok ⟨⟨h1, not_lt.mp h⟩, rfl⟩

theorem daysBeforeMonth_monthjday (y : ℤ) {k : ℕ} (hk : k ≤ 12) :
    daysBeforeMonth y k = monthjday.getD k 0 + if 2 ≤ k then leap y else 0 := by
  rw [leap_eq]
  exact daysBeforeMonth_eq y hk

/-- The loop stops at the month the day is in. -/
theorem monthIndex_spec {n : ℤ} (h0 : 0 < n) : ∀ {i : ℕ}, n ≤ monthjday.getD (i + 1) 0 →
    ∃ k ≤ i, monthIndex n i = .ok k ∧ monthjday.getD k 0 < n ∧ n ≤ monthjday.getD (k + 1) 0
  | 0, h => ⟨0, le_rfl, if_neg (not_le.mpr h0), h0, h⟩
  | i + 1, h => by
    by_cases hi : n ≤ monthjday.getD (i + 1) 0
    · obtain ⟨k, hk, hval, hk1, hk2⟩ := monthIndex_spec h0 hi
      exact ⟨k, by omega, by rw [monthIndex, if_pos hi, hval], hk1, hk2⟩
    · exact ⟨i + 1, le_rfl, by rw [monthIndex, if_neg hi], not_le.mp hi, h⟩

/-- The table ascends. -/
theorem monthjday_mono {j k : ℕ} (hj : j ≤ k) (hk : k ≤ 12) : monthjday.getD j 0 ≤ monthjday.getD k 0 := by
  have h : ∀ k ≤ 12, ∀ j ≤ k, monthjday.getD j 0 ≤ monthjday.getD k 0 := by decide
  exact h k hk j hj

theorem leap_zero_or_one (y : ℤ) : leap y = 0 ∨ leap y = 1 := by
  have h0 := leapDay_nonneg y
  have h1 := leapDay_le_one y
  rw [leap_eq]
  omega

/-- The day `n` of a year counted without a 29 February. -/
def commonDay (y n : ℤ) : ℤ := n - if feb29 < n then leap y else 0

section CommonDay

variable {y n : ℤ} {k : ℕ}

theorem commonDay_ok (hn : n ≤ yearLength y) :
    (if leap y ≠ 0 ∧ feb29 < n then cInt (n - 1) else .ok n) = .ok (commonDay y n) := by
  have h60 : feb29 = 60 := rfl
  have hleap := leap_zero_or_one y
  rw [yearLength, ← leap_eq] at hn
  unfold commonDay
  split_ifs with hc hlt hlt
  · rw [cInt_ok (by omega) (by omega), show leap y = 1 by omega]
  · exact absurd hc.2 hlt
  · rw [show leap y = 0 by by_contra hne; exact hc ⟨hne, hlt⟩, sub_zero]
  · rw [sub_zero]

theorem commonDay_range (h1 : 1 ≤ n) (hn : n ≤ yearLength y) : 0 < commonDay y n ∧ commonDay y n ≤ 365 := by
  have h60 : feb29 = 60 := rfl
  have hleap := leap_zero_or_one y
  rw [yearLength, ← leap_eq] at hn
  unfold commonDay
  split <;> omega

/-- But for the 60th day of a year, the month is after February exactly when the day is. -/
theorem march_iff (hk : k ≤ 11) (hday : n ≠ feb29) (h1 : monthjday.getD k 0 < commonDay y n)
    (h2 : commonDay y n ≤ monthjday.getD (k + 1) 0) : 2 ≤ k ↔ feb29 < n := by
  have h60 : feb29 = 60 := rfl
  have h59 : monthjday.getD 2 0 = 59 := rfl
  have hleap1 := leap_zero_or_one y
  unfold commonDay at h1 h2
  constructor
  · intro hmarch
    have := monthjday_mono hmarch (by omega)
    split at h1 <;> omega
  · intro hmarch
    by_contra hlt
    have := monthjday_mono (show k + 1 ≤ 2 by omega) (by omega)
    rw [if_pos hmarch] at h2
    omega

/-- The days before a month differ from the table's by the leap day that was taken out. -/
theorem commonDay_sub (hk : k ≤ 11) (hmarch : leap y ≠ 0 → (2 ≤ k ↔ feb29 < n)) :
    commonDay y n - monthjday.getD k 0 = n - daysBeforeMonth y k := by
  rw [daysBeforeMonth_monthjday y (show k ≤ 12 by omega), commonDay]
  by_cases hne : leap y = 0
  · simp only [hne, ite_self]
    ring
  · simp only [hmarch hne]
    ring

theorem le_daysBeforeMonth (hk : k ≤ 11) (hmarch : leap y ≠ 0 → (2 ≤ k ↔ feb29 < n)) (hday : leap y ≠ 0 → n ≠ feb29)
    (h2 : commonDay y n ≤ monthjday.getD (k + 1) 0) : n ≤ daysBeforeMonth y (k + 1) := by
  have h60 : feb29 = 60 := rfl
  have hleap := leap_zero_or_one y
  rw [daysBeforeMonth_monthjday y (show k + 1 ≤ 12 by omega)]
  unfold commonDay at h2
  by_cases hne : leap y = 0
  · simp only [hne, ite_self] at h2 ⊢
    linarith
  · have := hmarch hne
    have := hday hne
    split at h2 <;> split <;> omega

end CommonDay

/-- Here no `int` overflows. -/
theorem monthAndDay_spec (y : ℤ) {n : ℤ} (h1 : 1 ≤ n) (hn : n ≤ yearLength y) :
    ∃ r, monthAndDay y n = .ok r ∧ Date.Valid ⟨y, r.1, r.2⟩ ∧ Date.dayOfYear ⟨y, r.1, r.2⟩ = n := by
  unfold monthAndDay
  by_cases hother : leap y ≠ 0 ∧ n = feb29
  · obtain ⟨hleap, hday⟩ := hother
    rw [if_pos ⟨hleap, hday⟩]
    rw [leap_eq, leapDay_ne_zero] at hleap
    refine ⟨_, rfl, ⟨by norm_num, by norm_num, by norm_num, ?_⟩, ?_⟩
    · simp [monthLength, leapDay_eq_one hleap]
    · rw [hday]
      rfl
  · have hday : leap y ≠ 0 → n ≠ feb29 := fun hleap h => hother ⟨hleap, h⟩
    have hrange := commonDay_range h1 hn
    obtain ⟨k, hk, hval, hk1, hk2⟩ := monthIndex_spec hrange.1 (i := 11) hrange.2
    have hfrom : 0 ≤ monthjday.getD k 0 := monthjday_mono (Nat.zero_le k) (by omega)
    have hmarch : leap y ≠ 0 → (2 ≤ k ↔ feb29 < n) := fun hleap => march_iff hk (hday hleap) hk1 hk2
    have hmonth := commonDay_sub hk hmarch
    have hlast := le_daysBeforeMonth hk hmarch hday hk2
    rw [if_neg hother, commonDay_ok hn, ok_bind, hval, ok_bind, cInt_ok (by omega) (by omega), hmonth]
    exact ⟨_, rfl, Date.valid_ofDay (by omega) (by linarith) hlast, Date.dayOfYear_ofDay y n k⟩

/-! ## Days, hours and months -/

/-- An hour of a day of the calendar. -/
structure DateTime.Valid (t : DateTime) : Prop where
  date : t.toDate.Valid
  hour_nonneg : 0 ≤ t.hour
  hour_lt : t.hour < 24

instance (t : DateTime) : Decidable t.Valid :=
  decidable_of_iff (t.toDate.Valid ∧ 0 ≤ t.hour ∧ t.hour < 24)
    ⟨fun h => ⟨h.1, h.2.1, h.2.2⟩, fun h => ⟨h.date, h.hour_nonneg, h.hour_lt⟩⟩

/-- The number of the hour among all hours. -/
def DateTime.hourNumber (t : DateTime) : ℤ := 24 * t.dayNumber + t.hour

/-- The number of the month among all months. -/
def DateTime.monthNumber (t : DateTime) : ℤ := 12 * t.year + t.month - 1

theorem monthjdayAt_eq_ok {m : ℤ} {k : ℕ} (h : m = k) (hk : k < 13) : monthjdayAt m = .ok (monthjday.getD k 0) := by
  subst h
  rw [monthjdayAt, if_pos ⟨by omega, by omega⟩, Int.toNat_natCast]

/-- The table and the leap day added after February give the number of the date in its year. -/
theorem dayOfYear_eq {d : Date} (h : d.Valid) :
    d.dayOfYear = d.day + monthjday.getD (d.month - 1).toNat 0 + if leap d.year ≠ 0 ∧ 2 < d.month then 1 else 0 := by
  have h1 := h.month_pos
  have h2 := h.month_le
  have hleap := leap_zero_or_one d.year
  have hmarch : 2 ≤ (d.month - 1).toNat ↔ 2 < d.month := by omega
  rw [Date.dayOfYear, daysBeforeMonth_monthjday d.year (by omega)]
  simp only [hmarch]
  rcases hleap with hl | hl <;> simp only [hl] <;> split_ifs <;> omega

/-- The table and the leap day count the days of the year; here no `int` overflows. -/
theorem addDays_eq {t : DateTime} (h : t.toDate.Valid) (dtime : ℤ) : addDays t dtime = (do
    let dtime ← cInt (dtime + t.dayOfYear)
    let (y, dtime) ← yearsBack t.year dtime
    let (y, dtime) ← yearsForward y dtime
    let (m, d) ← monthAndDay y dtime
    return (0, { t with year := y, month := m, day := d })) := by
  have h1 := h.month_pos
  have h2 := h.month_le
  have h3 := h.day_pos
  have h4 : t.day ≤ 31 := by
    have := h.day_le
    have := leapDay_le_one t.year
    unfold monthLength at *
    split_ifs at * <;> omega
  obtain ⟨k, hk⟩ := Int.eq_ofNat_of_zero_le (show 0 ≤ t.month - 1 by omega)
  have h5 : 0 ≤ monthjday.getD k 0 := monthjday_mono (Nat.zero_le k) (by omega)
  have h6 : monthjday.getD k 0 ≤ 365 := monthjday_mono (show k ≤ 12 by omega) le_rfl
  have hday := dayOfYear_eq h
  rw [hk, Int.toNat_natCast] at hday
  rw [addDays, monthjdayAt_eq_ok hk (by omega), ok_bind, cInt_ok (by omega) (by omega), ok_bind, hday]
  by_cases hc : leap t.year ≠ 0 ∧ 2 < t.month
  · rw [if_pos hc, if_pos hc, cInt_ok (by omega) (by omega), ok_bind]
  · rw [if_neg hc, if_neg hc, ok_bind, add_zero]

theorem addDays_spec {t : DateTime} (h : t.toDate.Valid) (dtime : ℤ) : UpToOverflow (addDays t dtime) fun r =>
    r.1 = 0 ∧ r.2.toDate.Valid ∧ r.2.dayNumber = t.dayNumber + dtime ∧ r.2.hour = t.hour := by
  rw [addDays_eq h]
  refine .bind (.cInt rfl) fun n hn => ?_
  refine .bind (yearsBack_spec t.year n) fun ⟨y, back⟩ hback => ?_
  refine .bind (yearsForward_spec y hback.1) fun ⟨y', n'⟩ hr => ?_
  obtain ⟨⟨m, d⟩, hval, hvalid, hday⟩ := monthAndDay_spec y' hr.1.1 hr.1.2
  simp only [hval, ok_bind]
  refine .ok ⟨rfl, hvalid, ?_, rfl⟩
  have hnumber : daysBeforeYear y' + Date.dayOfYear ⟨y', m, d⟩ = t.dayNumber + dtime := by
    rw [hday, hr.2, hback.2, ← hn, Date.dayNumber]
    ring
  exact hnumber

/-- A run that goes back stays in the years of an `int` when the day it is for does. -/
theorem yearsBack_defined {y dtime : ℤ} (hy : InInt y) (hn : InInt dtime)
    (hday : daysBeforeYear (-2 ^ 31) < daysBeforeYear y + dtime) :
    ∃ r, yearsBack y dtime = .ok r ∧ InInt r.1 ∧ InInt r.2 := by
  fun_induction yearsBack y dtime with
  | case1 y dtime _ hin ih =>
    have hyear := daysBeforeYear_succ (y - 1)
    rw [sub_add_cancel, yearLength, ← leap_eq] at hyear
    exact ih hin.1 hin.2 (by linarith)
  | case2 y dtime hlt hout =>
    have hless : daysBeforeYear (-2 ^ 31) < daysBeforeYear y := by linarith
    have hleap0 := leapDay_nonneg (y - 1)
    have hleap1 := leapDay_le_one (y - 1)
    rw [← leap_eq] at hleap0 hleap1
    have hpast := lt_of_daysBeforeYear_lt hless
    unfold InInt at hy hn hout
    omega
  | case3 y dtime _ => exact ⟨_, rfl, hy, hn⟩

theorem yearsForward_defined {y dtime : ℤ} (hy : InInt y) (h1 : 1 ≤ dtime) (hn : dtime < 2 ^ 31)
    (hday : daysBeforeYear y + dtime ≤ daysBeforeYear (2 ^ 31)) : Defined (yearsForward y dtime) := by
  fun_induction yearsForward y dtime with
  | case1 y dtime hlt hin ih =>
    have hyear := daysBeforeYear_succ y
    rw [yearLength, ← leap_eq] at hyear
    exact ih hin.2 (by linarith) hin.1.2 (by linarith)
  | case2 y dtime hlt hout =>
    have hyear := daysBeforeYear_succ y
    rw [yearLength, ← leap_eq] at hyear
    have hless : daysBeforeYear (y + 1) < daysBeforeYear (2 ^ 31) := by linarith
    have hfuture := lt_of_daysBeforeYear_lt hless
    have hleap0 := leapDay_nonneg y
    rw [← leap_eq] at hleap0
    unfold InInt at hy hout
    omega
  | case3 => exact .ok _

/-- Days are added without overflow when their sum with the day of the year and the year of the result are `int`s. -/
theorem addDays_defined {t : DateTime} (h : t.toDate.Valid) {dtime : ℤ} (hy : InInt t.year)
    (hsum : InInt (dtime + t.dayOfYear)) (hfrom : daysBeforeYear (-2 ^ 31) < t.dayNumber + dtime)
    (hto : t.dayNumber + dtime ≤ daysBeforeYear (2 ^ 31)) : Defined (addDays t dtime) := by
  have hday : daysBeforeYear t.year + (dtime + t.dayOfYear) = t.dayNumber + dtime := by
    rw [Date.dayNumber]
    ring
  rw [addDays_eq h, cInt_ok hsum.1 hsum.2, ok_bind]
  obtain ⟨⟨y, back⟩, hback, hyear, hcount⟩ := yearsBack_defined hy hsum (by rw [hday]; exact hfrom)
  have hspec := (yearsBack_spec t.year (dtime + t.dayOfYear)).of_eq_ok hback
  simp only [hback, ok_bind]
  obtain ⟨⟨y', n⟩, hn⟩ := yearsForward_defined hyear hspec.1 hcount.2 (by rw [hspec.2, hday]; exact hto)
  have hspec' := (yearsForward_spec y hspec.1).of_eq_ok hn
  obtain ⟨⟨m, d⟩, hval, -, -⟩ := monthAndDay_spec y' hspec'.1.1 hspec'.1.2
  simp only [hn, hval, ok_bind]
  exact .ok _

/-- Days are added to an hour of a day. -/
theorem addDays_atHour {t : DateTime} (h : t.toDate.Valid) {hour : ℤ} (h0 : 0 ≤ hour) (h24 : hour < 24) (dtime : ℤ) :
    UpToOverflow (addDays { t with hour } dtime) fun r =>
      r.1 = 0 ∧ r.2.Valid ∧ r.2.hourNumber = 24 * (t.dayNumber + dtime) + hour := by
  refine (addDays_spec (t := { t with hour }) h dtime).mono fun r hr => ?_
  obtain ⟨hzero, hvalid, hday, hhour⟩ := hr
  refine ⟨hzero, ⟨hvalid, by rw [hhour]; exact h0, by rw [hhour]; exact h24⟩, ?_⟩
  rw [DateTime.hourNumber, hday, hhour]

theorem addHours_spec {t : DateTime} (h : t.toDate.Valid) (dtime : ℤ) : UpToOverflow (addHours t dtime) fun r =>
    r.1 = 0 ∧ r.2.Valid ∧ r.2.hourNumber = t.hourNumber + dtime := by
  refine .bind (.cInt rfl) fun n hn => ?_
  have hdiv := Int.mul_tdiv_add_tmod n 24
  have hlt : n.tmod 24 < 24 := Int.tmod_lt_of_pos n (by norm_num)
  have hgt : -24 < n.tmod 24 := by
    have := Int.lt_tmod_of_pos n (show (0 : ℤ) < 24 by norm_num)
    exact this
  refine .ite (fun hneg => ?_) fun hneg => ?_
  · refine (addDays_atHour h (by omega) (by omega) _).mono fun r hr => ⟨hr.1, hr.2.1, ?_⟩
    rw [hr.2.2, DateTime.hourNumber]
    omega
  · refine (addDays_atHour h (by omega) hlt _).mono fun r hr => ⟨hr.1, hr.2.1, ?_⟩
    rw [hr.2.2, DateTime.hourNumber]
    omega

theorem monthsBack_spec (y dtime : ℤ) : UpToOverflow (monthsBack y dtime) fun r =>
    0 ≤ r.2 ∧ 12 * r.1 + r.2 = 12 * y + dtime := by
  refine .ite (fun hneg => ?_) fun hneg => .ok ⟨not_lt.mp hneg, rfl⟩
  refine .bind (.cInt rfl) fun months hmonths => ?_
  refine .bind (.cInt rfl) fun i hi => ?_
  refine .bind (.cInt rfl) fun y' hy => ?_
  refine .bind (.cInt rfl) fun back hback => ?_
  refine .bind (.cInt rfl) fun dtime' hdtime => .ok ⟨?_, ?_⟩
  · have hdiv := Int.mul_tdiv_add_tmod months 12
    have hlt := Int.tmod_lt_of_pos months (show (0 : ℤ) < 12 by norm_num)
    simp only
    omega
  · simp only
    omega

/-- The table and the leap day of February give the length of a month. -/
theorem monthLength_monthjday (y : ℤ) {k : ℕ} (hk : k < 12) : monthLength y (k + 1) =
    if (k + 1 : ℤ) = 2 ∧ leap y ≠ 0 then monthjday.getD (k + 1) 0 - monthjday.getD k 0 + 1
    else monthjday.getD (k + 1) 0 - monthjday.getD k 0 := by
  have h0 := daysBeforeMonth_monthjday y (show k ≤ 12 by omega)
  have h1 := daysBeforeMonth_monthjday y (show k + 1 ≤ 12 by omega)
  have hsucc := daysBeforeMonth_succ y k
  have hleap0 := leapDay_nonneg y
  have hleap1 := leapDay_le_one y
  rw [← leap_eq] at hleap0 hleap1
  split_ifs at h0 h1 ⊢ <;> omega

/-- The month that many months on, the day brought back to the end of the month. -/
theorem addMonths_spec {t : DateTime} (h : t.toDate.Valid) (dtime : ℤ) : UpToOverflow (addMonths t dtime) fun r =>
    r.1 = 0 ∧ r.2.toDate.Valid ∧ r.2.monthNumber = t.monthNumber + dtime ∧
      r.2.day = min t.day (monthLength r.2.year r.2.month) ∧ r.2.hour = t.hour := by
  have h1 := h.month_pos
  refine .bind (monthsBack_spec t.year dtime) fun back hback => ?_
  refine .bind (.cInt rfl) fun n hn => ?_
  refine .bind (.cInt rfl) fun y hy => ?_
  have hn0 : 0 ≤ n := by linarith [hback.1]
  have hdiv := Int.mul_tdiv_add_tmod n 12
  have hlt := Int.tmod_lt_of_pos n (show (0 : ℤ) < 12 by norm_num)
  obtain ⟨k, hk⟩ := Int.eq_ofNat_of_zero_le (Int.tmod_nonneg 12 hn0)
  have hk12 : k < 12 := by omega
  have hafter := monthjdayAt_eq_ok (show (1 + k : ℤ) = (k + 1 : ℕ) by omega) (by omega)
  have hbefore := monthjdayAt_eq_ok (show (1 + k - 1 : ℤ) = k by omega) (by omega)
  simp only [hk, hafter, hbefore, ok_bind]
  rw [add_comm 1 (k : ℤ), ← monthLength_monthjday y hk12]
  have hday : (if monthLength y (k + 1) < t.day then monthLength y (k + 1) else t.day) =
      min t.day (monthLength y (k + 1)) := by
    split <;> omega
  rw [hday]
  refine .ok ⟨rfl, ⟨by simp only; omega, by simp only; omega, ?_, min_le_right ..⟩, ?_, rfl, rfl⟩
  · have hpos : 1 ≤ monthLength y (k + 1) := by
      have := leapDay_nonneg y
      unfold monthLength
      split_ifs <;> omega
    exact le_min h.day_pos hpos
  · simp only [DateTime.monthNumber]
    omega

/-! ## The units -/

/-- The hours that so many of a unit of hours are, of minutes and seconds the whole hours. -/
def TimeFrame.hours? (n : ℤ) : TimeFrame → Option ℤ
  | second => some ((n.tdiv 60).tdiv 60)
  | minute => some (n.tdiv 60)
  | hour => some n
  | hours3 => some (n * 3)
  | hours6 => some (n * 6)
  | hours12 => some (n * 12)
  | _ => none

/-- The second time is so many of the unit after the first: in hours, in days at the same hour, or in months, where a
day that the month does not have gives way to its last. -/
def TimeFrame.Shifts (u : TimeFrame) (t : DateTime) (n : ℤ) (t' : DateTime) : Prop :=
  (∀ hours, u.hours? n = some hours → t'.hourNumber = t.hourNumber + hours) ∧
  (u = day → t'.dayNumber = t.dayNumber + n ∧ t'.hour = t.hour) ∧
  (u = month → t'.monthNumber = t.monthNumber + n ∧ t'.day = min t.day (monthLength t'.year t'.month) ∧
    t'.hour = t.hour)

theorem toHours_spec {u : TimeFrame} {dtime hours : ℤ} (hu : u.hours? dtime = some hours) :
    UpToOverflow (toHours dtime u.code) (· = (hours, TimeFrame.hour.code)) := by
  have hmul : ∀ k, dtime * k = hours →
      UpToOverflow ((·, TimeFrame.hour.code) <$> cInt (dtime * k)) (· = (hours, TimeFrame.hour.code)) := by
    rintro k rfl
    exact .map (P := (· = dtime * k)) (.cInt rfl) fun a ha => by rw [ha]
  cases u <;> simp only [TimeFrame.hours?, Option.some.injEq, reduceCtorEq] at hu
  case second | minute | hour => exact .ok (by rw [← hu])
  case hours3 => exact hmul 3 hu
  case hours6 => exact hmul 6 hu
  case hours12 => exact hmul 12 hu

/-- A unit of hours is added as hours. -/
theorem addTime_hours {u : TimeFrame} {t : DateTime} {dtime hours : ℤ} (hu : u.hours? dtime = some hours)
    (ht : t.toDate.Valid) : UpToOverflow (addTime t dtime u.code) fun r =>
      r.1 = 0 ∧ r.2.Valid ∧ r.2.hourNumber = t.hourNumber + hours := by
  have hsplit : addTime t dtime u.code = (do
      let (dtime, unit) ← toHours dtime u.code
      if unit = TimeFrame.hour.code then addHours t dtime
      else if unit = TimeFrame.day.code then addDays t dtime
      else return (1, t)) := by
    cases u <;> first | rfl | exact absurd hu (by simp [TimeFrame.hours?])
  rw [hsplit]
  refine .bind (toHours_spec hu) ?_
  rintro _ rfl
  exact addHours_spec ht hours

/-- The units that are added as hours, days or months. -/
def TimeFrame.carried : List TimeFrame := [second, minute, hour, hours3, hours6, hours12, day, month]

/-- **The carries are exact.** From every date and hour of the calendar, and for every count in either direction, a
unit that is added as hours, days or months gives a date and an hour of the calendar, and it is that many units away,
unless an `int` overflows. -/
theorem addTime_shifts {t : DateTime} (ht : t.Valid) (dtime : ℤ) {u : TimeFrame} (hu : u ∈ TimeFrame.carried)
    (hno : addTime t dtime u.code ≠ .error .arithmetic) :
    ∃ t', addTime t dtime u.code = .ok (0, t') ∧ t'.Valid ∧ u.Shifts t dtime t' := by
  suffices h : UpToOverflow (addTime t dtime u.code) fun r => r.1 = 0 ∧ r.2.Valid ∧ u.Shifts t dtime r.2 by
    obtain h | ⟨⟨r, t'⟩, hval, h0, hvalid, hshift⟩ := h
    · exact absurd h hno
    · exact ⟨t', by rw [hval, show r = 0 from h0], hvalid, hshift⟩
  by_cases hday : u = .day
  · subst hday
    refine (addDays_spec ht.date dtime).mono fun r ⟨h0, hvalid, hnumber, hhour⟩ => ?_
    exact ⟨h0, ⟨hvalid, by rw [hhour]; exact ht.hour_nonneg, by rw [hhour]; exact ht.hour_lt⟩,
      nofun, fun _ => ⟨hnumber, hhour⟩, nofun⟩
  by_cases hmonth : u = .month
  · subst hmonth
    refine (addMonths_spec ht.date dtime).mono fun r ⟨h0, hvalid, hnumber, hend, hhour⟩ => ?_
    exact ⟨h0, ⟨hvalid, by rw [hhour]; exact ht.hour_nonneg, by rw [hhour]; exact ht.hour_lt⟩,
      nofun, nofun, fun _ => ⟨hnumber, hend, hhour⟩⟩
  obtain ⟨hours, hhours⟩ : ∃ hours, u.hours? dtime = some hours := by
    simp only [TimeFrame.carried, List.mem_cons, List.not_mem_nil, or_false] at hu
    rcases hu with rfl | rfl | rfl | rfl | rfl | rfl | rfl | rfl <;> first | exact ⟨_, rfl⟩ | contradiction
  refine (addTime_hours hhours ht.date).mono fun r ⟨h0, hvalid, hnumber⟩ => ⟨h0, hvalid, ?_, ?_, ?_⟩
  · intro hours' hhours'
    rw [hhours, Option.some.injEq] at hhours'
    rw [hnumber, hhours']
  · exact fun h => absurd h hday
  · exact fun h => absurd h hmonth

/-- 366 days back from noon of 1 March 2000. -/
theorem addTime_shifts_march : ∃ t', addTime ⟨⟨2000, 3, 1⟩, 12⟩ (-366) TimeFrame.day.code = .ok (0, t') ∧ t'.Valid ∧
    TimeFrame.day.Shifts ⟨⟨2000, 3, 1⟩, 12⟩ (-366) t' := by
  refine addTime_shifts (by decide) (-366) (by decide) ?_
  obtain ⟨r, hr⟩ : Defined (addDays ⟨⟨2000, 3, 1⟩, 12⟩ (-366)) :=
    addDays_defined (by decide) (by decide) (by decide) (by decide) (by decide)
  rw [show addTime _ _ TimeFrame.day.code = addDays _ _ from rfl, hr]
  exact nofun

/-! ## Years -/

/-- The years that a unit of years stands for. -/
def yearsIn (unit : ℤ) : Option ℤ :=
  if unit = TimeFrame.year.code then some 1
  else if unit = TimeFrame.decade.code then some 10
  else if unit = TimeFrame.century.code then some 100
  else if unit = TimeFrame.normal.code then some 30
  else none

theorem addTime_years {unit years : ℤ} (h : yearsIn unit = some years) (t : DateTime) (dtime : ℤ) :
    addTime t dtime unit = addYears t years dtime := by
  unfold yearsIn at h
  unfold addTime
  split_ifs at h ⊢ <;> first | contradiction | rw [Option.some.inj h]

/-- A unit that is not one of years gives a date of the calendar or changes nothing. -/
theorem addTime_other {unit : ℤ} (h : yearsIn unit = none) {t : DateTime} (ht : t.toDate.Valid) (dtime : ℤ) :
    UpToOverflow (addTime t dtime unit) fun r => (r.1 = 0 → r.2.toDate.Valid) ∧ (r.1 ≠ 0 → r.2 = t) := by
  have hsuccess : ∀ {r : ℤ × DateTime}, r.1 = 0 → r.2.toDate.Valid →
      (r.1 = 0 → r.2.toDate.Valid) ∧ (r.1 ≠ 0 → r.2 = t) := fun h0 hvalid => ⟨fun _ => hvalid, fun hne => absurd h0 hne⟩
  have hunits : UpToOverflow (toHours dtime unit) fun _ => True := by
    unfold toHours
    generalize (if unit = TimeFrame.second.code then _ else _ : ℤ × ℤ) = p
    obtain ⟨n, unit⟩ := p
    dsimp only
    generalize (if unit = TimeFrame.minute.code then _ else _ : ℤ × ℤ) = p
    obtain ⟨n, unit⟩ := p
    have hmap : ∀ z, UpToOverflow ((·, TimeFrame.hour.code) <$> cInt z) fun _ => True := fun z =>
      .map (P := fun _ => True) (.cInt trivial) fun _ _ => trivial
    exact .ite (fun _ => hmap _) fun _ => .ite (fun _ => hmap _) fun _ => .ite (fun _ => hmap _) fun _ => .ok trivial
  unfold yearsIn at h
  unfold addTime
  split_ifs at h ⊢ with h1 h2 h3 h4 h5
  · exact (addMonths_spec ht dtime).mono fun r hr => hsuccess hr.1 hr.2.1
  refine .bind hunits fun ⟨n, unit'⟩ _ => ?_
  refine .ite (fun _ => ?_) fun _ => .ite (fun _ => ?_) fun _ => ?_
  · exact (addHours_spec ht n).mono fun r hr => hsuccess hr.1 hr.2.1.date
  · exact (addDays_spec ht n).mono fun r hr => hsuccess hr.1 hr.2.1
  · exact .ok ⟨nofun, fun _ => rfl⟩

/-- `add_time` gives a date of the calendar when it succeeds and changes nothing when it fails. -/
def KeepsDates (t : DateTime) (dtime unit : ℤ) : Prop :=
  ∀ r t', addTime t dtime unit = .ok (r, t') → (r = 0 → t'.toDate.Valid) ∧ (r ≠ 0 → t' = t)

/-- **A unit of years can lead from 29 February into a common year.** Every other date, unit and count gives a date of
the calendar. -/
theorem keepsDates_iff {t : DateTime} (ht : t.toDate.Valid) (dtime unit : ℤ) : KeepsDates t dtime unit ↔
    ∀ years, yearsIn unit = some years → t.month = 2 → t.day = 29 → InInt (years * dtime) →
      InInt (t.year + years * dtime) → IsLeap (t.year + years * dtime) := by
  cases hunit : yearsIn unit with
  | none =>
    refine iff_of_true (fun r t' hval => ?_) nofun
    exact (addTime_other hunit ht dtime).of_eq_ok hval
  | some years =>
    rw [KeepsDates, addTime_years hunit]
    constructor
    · rintro h _ ⟨⟩ hmonth hday hn hy
      have hval : addYears t years dtime = .ok (0, { t with year := t.year + years * dtime }) := by
        rw [addYears, cInt_ok hn.1 hn.2, ok_bind, cInt_ok hy.1 hy.2]
        rfl
      exact (ht.withYear _).mp ((h 0 _ hval).1 rfl) hmonth hday
    · intro h r t' hval
      obtain ⟨n, hn, y, hy, hres⟩ : ∃ n, cInt (years * dtime) = .ok n ∧ ∃ y, cInt (t.year + n) = .ok y ∧
          (0, { t with year := y }) = (r, t') := by
        simpa [addYears, bind_eq_ok] using hval
      obtain ⟨rfl, hinN⟩ := cInt_eq_ok.mp hn
      obtain ⟨rfl, hinY⟩ := cInt_eq_ok.mp hy
      obtain ⟨rfl, rfl⟩ := Prod.mk.inj hres
      exact ⟨fun _ => (ht.withYear _).mpr fun hm hd => h years rfl hm hd hinN hinY, fun hne => absurd rfl hne⟩

/-- A year on from 29 February 2020. -/
theorem keepsDates_iff_leapDay : KeepsDates ⟨⟨2020, 2, 29⟩, 0⟩ 4 TimeFrame.year.code :=
  (keepsDates_iff (by decide) 4 TimeFrame.year.code).mpr (by rintro _ ⟨⟩; decide)

theorem leapDay_nextYear : ¬ KeepsDates ⟨⟨2020, 2, 29⟩, 0⟩ 1 TimeFrame.year.code := by
  intro h
  have hvalid := (h 0 ⟨⟨2021, 2, 29⟩, 0⟩ (by decide)).1 rfl
  exact absurd hvalid (by decide)

end Mashroom
