import FilterConsole.Calendar
import FilterConsole.Toml.Instant
import Mathlib.Tactic.IntervalCases

/-! Dates and their day numbers. The rule of the calendar is the step from one date to the next; day numbers count these
steps from 1970-01-01 in both directions, and every number has its date. -/

namespace FilterConsole

namespace Date

/-- The days of the date's month. Leap years come again after 400 years. -/
def monthLength (d : Date) : Nat := daysInMonth (d.year % 400).toNat d.month

structure Valid (d : Date) : Prop where
  month : 1 ≤ d.month ∧ d.month ≤ 12
  day : 1 ≤ d.day ∧ d.day ≤ d.monthLength

def next (d : Date) : Date :=
  if d.day < d.monthLength then { d with day := d.day + 1 }
  else if d.month < 12 then { d with month := d.month + 1, day := 1 }
  else ⟨d.year + 1, 1, 1⟩

/-- The date is `n` days after 1970-01-01. -/
inductive IsDay : Date → Int → Prop where
  | epoch : IsDay ⟨1970, 1, 1⟩ 0
  | next {d : Date} {n : Int} (h : IsDay d n) : IsDay d.next (n + 1)
  | previous {d : Date} {n : Int} (hd : d.Valid) (h : IsDay d.next (n + 1)) : IsDay d n

variable {d : Date} {n : Int}

theorem isLeapYear_iff (year : Int) :
    isLeapYear (year % 400).toNat = true ↔ year % 4 = 0 ∧ (year % 100 ≠ 0 ∨ year % 400 = 0) := by
  simp only [isLeapYear, Bool.and_eq_true, Bool.or_eq_true, beq_iff_eq, bne_iff_ne]
  omega

theorem monthLength_february (h : d.month = 2) :
    d.monthLength = 28 ∧ ¬ (d.year % 4 = 0 ∧ (d.year % 100 ≠ 0 ∨ d.year % 400 = 0)) ∨
      d.monthLength = 29 ∧ d.year % 4 = 0 ∧ (d.year % 100 ≠ 0 ∨ d.year % 400 = 0) := by
  rw [monthLength, daysInMonth, h, ← isLeapYear_iff]
  by_cases hleap : isLeapYear (d.year % 400).toNat = true
  · simp [hleap]
  · simp [hleap]

theorem monthLength_of_ne (h : d.month ≠ 2) :
    d.monthLength = 30 ∧ (d.month = 4 ∨ d.month = 6 ∨ d.month = 9 ∨ d.month = 11) ∨
      d.monthLength = 31 ∧ ¬ (d.month = 4 ∨ d.month = 6 ∨ d.month = 9 ∨ d.month = 11) := by
  have hlength : d.monthLength = if d.month = 4 ∨ d.month = 6 ∨ d.month = 9 ∨ d.month = 11 then 30 else 31 := by
    simp [monthLength, daysInMonth, h, or_assoc]
  split at hlength
  · next hshort => exact .inl ⟨hlength, hshort⟩
  · next hlong => exact .inr ⟨hlength, hlong⟩

theorem monthLength_pos (d : Date) : 1 ≤ d.monthLength := by
  by_cases hfeb : d.month = 2
  · have hlength := monthLength_february hfeb
    omega
  · have hlength := monthLength_of_ne hfeb
    omega

theorem next_cases (h : d.Valid) :
    (d.day < d.monthLength ∧ d.next = ⟨d.year, d.month, d.day + 1⟩) ∨
      (d.day = d.monthLength ∧ d.month < 12 ∧ d.next = ⟨d.year, d.month + 1, 1⟩) ∨
      (d.day = d.monthLength ∧ d.month = 12 ∧ d.next = ⟨d.year + 1, 1, 1⟩) := by
  have hmonth := h.month.2
  have hday := h.day.2
  rw [next]
  by_cases hlast : d.day < d.monthLength
  · exact .inl ⟨hlast, if_pos hlast⟩
  · rw [if_neg hlast]
    by_cases hyear : d.month < 12
    · exact .inr (.inl ⟨by omega, hyear, if_pos hyear⟩)
    · exact .inr (.inr ⟨by omega, by omega, if_neg hyear⟩)

theorem valid_next (h : d.Valid) : d.next.Valid := by
  obtain ⟨hday, hnext⟩ | ⟨-, hmonth, hnext⟩ | ⟨-, -, hnext⟩ := next_cases h <;> rw [hnext]
  · exact ⟨h.month, Nat.le_add_left .., hday⟩
  · exact ⟨⟨Nat.le_add_left .., hmonth⟩, le_rfl, monthLength_pos _⟩
  · exact ⟨⟨le_rfl, Nat.le_add_left ..⟩, le_rfl, monthLength_pos _⟩

theorem dayNumber_eq (h : 1 ≤ d.day) :
    d.dayNumber =
      let year := if d.month ≤ 2 then d.year - 1 else d.year
      let month := if d.month ≤ 2 then d.month + 9 else d.month - 3
      365 * year + year / 4 - year / 100 + year / 400 + ((153 * month + 2) / 5 : Nat) + d.day - 719469 := by
  rw [dayNumber]
  dsimp only
  generalize (if d.month ≤ 2 then d.year - 1 else d.year) = year
  generalize (if d.month ≤ 2 then d.month + 9 else d.month - 3) = month
  simp only [daysPerEra]
  omega

theorem dayNumber_next (h : d.Valid) : d.next.dayNumber = d.dayNumber + 1 := by
  have hlow := h.month.1
  rw [dayNumber_eq h.day.1, dayNumber_eq (valid_next h).day.1]
  obtain ⟨-, hnext⟩ | ⟨hlast, hmonth, hnext⟩ | ⟨hlast, hmonth, hnext⟩ := next_cases h
  all_goals
    rw [hnext]
    dsimp only
  · omega
  · by_cases hfeb : d.month = 2
    · -- The year of the count ends with February.
      have hlength := monthLength_february hfeb
      rw [hfeb, if_neg (by decide), if_neg (by decide), if_pos (by decide), if_pos (by decide)]
      omega
    · have hlength := monthLength_of_ne hfeb
      clear hnext h
      generalize d.month = month at *
      interval_cases month <;> simp only [Nat.reduceAdd, Nat.reduceLeDiff, Nat.reduceSub, if_false, if_true] <;> omega
  · have hlength := monthLength_of_ne (d := d) (by omega)
    simp only [hmonth, Nat.reduceAdd, Nat.reduceLeDiff, Nat.reduceSub, if_true, if_false]
    omega

end Date

section Era

variable {century cycle year month day m n s : Nat}

theorem century_of_day (hcentury : century < 4) (hs : s < 36524 ∨ s = 36524 ∧ century = 3) :
    (36524 * century + s) / 36524 - (36524 * century + s) / 146096 = century := by
  omega

/-- The year of the era of a day, the `m`-th of its year. Its three corrections undo the leap days before it. -/
theorem yearOfEra_eq (hcentury : century < 4) (hcycle : cycle < 25) (hyear : year < 4)
    (hm : m < 365 ∨ m = 365 ∧ year = 3 ∧ (cycle < 24 ∨ century = 3))
    (hn : n = 36524 * century + (1461 * cycle + 365 * year + m)) :
    (n - n / 1460 + n / 36524 - n / 146096) / 365 = 100 * century + 4 * cycle + year := by
  have hcenturies : n / 36524 - n / 146096 = century := hn ▸ century_of_day hcentury (by omega)
  have hcycles : n / 1460 = 25 * century + cycle + (24 * century + cycle + 365 * year + m) / 1460 := by omega
  have hle : (24 * century + cycle + 365 * year + m) / 1460 ≤ m := by omega
  have hge : m ≤ (24 * century + cycle + 365 * year + m) / 1460 + 364 := by omega
  generalize (24 * century + cycle + 365 * year + m) / 1460 = carry at *
  have hsum : n - n / 1460 + n / 36524 - n / 146096 = n - n / 1460 + century := by omega
  rw [hsum, hcycles]
  omega

theorem exists_century (h : n < 146097) :
    ∃ century s, century < 4 ∧ (s < 36524 ∨ s = 36524 ∧ century = 3) ∧ n = 36524 * century + s := by
  by_cases hlast : n = 146096
  · exact ⟨3, 36524, by omega⟩
  · exact ⟨n / 36524, n % 36524, by omega⟩

theorem exists_year (h : s < 36524 ∨ s = 36524 ∧ century = 3) :
    ∃ cycle year m, cycle < 25 ∧ year < 4 ∧ (m < 365 ∨ m = 365 ∧ year = 3 ∧ (cycle < 24 ∨ century = 3)) ∧
      s = 1461 * cycle + 365 * year + m := by
  by_cases hlast : s % 1461 = 1460
  · exact ⟨s / 1461, 3, 365, by omega⟩
  · exact ⟨s / 1461, s % 1461 / 365, s % 1461 % 365, by omega⟩

/-- The months from March on take turns in a cycle of five, which 153 days last. -/
theorem exists_month (h : m ≤ 365) :
    ∃ month day, month < 12 ∧ m = (153 * month + 2) / 5 + day ∧
      (day < 30 ∨ day = 30 ∧ ¬ (month = 1 ∨ month = 3 ∨ month = 6 ∨ month = 8)) := by
  refine ⟨(5 * m + 2) / 153, m - (153 * ((5 * m + 2) / 153) + 2) / 5, by omega, by omega, ?_⟩
  have hmonth : (5 * m + 2) / 153 < 12 := by omega
  generalize hquotient : (5 * m + 2) / 153 = month at *
  interval_cases month <;> omega

theorem month_eq (hmonth : month < 12) (hyear : (153 * month + 2) / 5 + day ≤ 365)
    (hday : day < 30 ∨ day = 30 ∧ ¬ (month = 1 ∨ month = 3 ∨ month = 6 ∨ month = 8)) :
    (5 * ((153 * month + 2) / 5 + day) + 2) / 153 = month := by
  interval_cases month <;> omega

end Era

/-- A date as it is counted from March on: the era of 400 years, the century of the era, the cycle of four years in
that, the year of the cycle, the month and the day, all from zero. -/
structure EraDate where
  era : Int
  century : Nat
  cycle : Nat
  year : Nat
  month : Nat
  day : Nat

namespace EraDate

variable {p : EraDate}

def yearOfEra (p : EraDate) : Nat := 100 * p.century + 4 * p.cycle + p.year

def date (p : EraDate) : Date :=
  let month := if p.month < 10 then p.month + 3 else p.month - 9
  { year := p.era * 400 + p.yearOfEra + (if month ≤ 2 then 1 else 0)
    month
    day := p.day + 1 }

def dayOfYear (p : EraDate) : Nat := (153 * p.month + 2) / 5 + p.day

def dayOfEra (p : EraDate) : Nat := 36524 * p.century + (1461 * p.cycle + 365 * p.year + p.dayOfYear)

def dayNumber (p : EraDate) : Int := p.era * 146097 + p.dayOfEra - 719468

structure Valid (p : EraDate) : Prop where
  century : p.century < 4
  cycle : p.cycle < 25
  year : p.year < 4
  month : p.month < 12
  day : p.day < p.date.monthLength

/-- January and February are at the end of a year of the count. -/
theorem date_cases (h : p.month < 12) :
    (p.month < 10 ∧ p.date.month = p.month + 3 ∧ p.date.year = p.era * 400 + p.yearOfEra) ∨
      (10 ≤ p.month ∧ p.date.month + 9 = p.month ∧ p.date.year = p.era * 400 + p.yearOfEra + 1) := by
  by_cases hmonth : p.month < 10
  · have hdate : p.date = ⟨p.era * 400 + p.yearOfEra, p.month + 3, p.day + 1⟩ := by simp [date, hmonth]
    rw [hdate]
    exact .inl ⟨hmonth, rfl, rfl⟩
  · have hearly : p.month - 9 ≤ 2 := by omega
    have hdate : p.date = ⟨p.era * 400 + p.yearOfEra + 1, p.month - 9, p.day + 1⟩ := by simp [date, hmonth, hearly]
    rw [hdate]
    exact .inr ⟨Nat.le_of_not_lt hmonth, Nat.sub_add_cancel (by omega), rfl⟩

/-- The last day of February makes a year of the count longer by one. -/
theorem day_lt_iff (hcentury : p.century < 4) (hcycle : p.cycle < 25) (hyear : p.year < 4) (hmonth : p.month < 12) :
    p.day < p.date.monthLength ↔
      (p.day < 30 ∨ p.day = 30 ∧ ¬ (p.month = 1 ∨ p.month = 3 ∨ p.month = 6 ∨ p.month = 8)) ∧
        (p.dayOfYear < 365 ∨ p.dayOfYear = 365 ∧ p.year = 3 ∧ (p.cycle < 24 ∨ p.century = 3)) := by
  have hdate := date_cases hmonth
  rw [dayOfYear]
  by_cases hfeb : p.month = 11
  · have hlength := Date.monthLength_february (d := p.date) (by omega)
    have hyears : p.yearOfEra = 100 * p.century + 4 * p.cycle + p.year := rfl
    rw [hfeb]
    omega
  · have hlength := Date.monthLength_of_ne (d := p.date) (by omega)
    omega

theorem Valid.date (h : p.Valid) : p.date.Valid := by
  have hmonth := h.month
  have hdate := date_cases hmonth
  exact ⟨by omega, Nat.le_add_left .., h.day⟩

theorem ofDayNumber_dayNumber (h : p.Valid) : Date.ofDayNumber p.dayNumber = p.date := by
  obtain ⟨hcentury, hcycle, hyear, hmonth, hday⟩ := h
  obtain ⟨hshort, hlength⟩ := (day_lt_iff hcentury hcycle hyear hmonth).mp hday
  have hlt : p.dayOfEra < 146097 := by
    rw [dayOfEra]
    omega
  have hera : (p.dayNumber + 719468) / daysPerEra = p.era := by
    rw [dayNumber, daysPerEra]
    omega
  have hrest : ((p.dayNumber + 719468) % daysPerEra).toNat = p.dayOfEra := by
    rw [dayNumber, daysPerEra]
    omega
  have hyears : (p.dayOfEra - p.dayOfEra / 1460 + p.dayOfEra / 36524 - p.dayOfEra / 146096) / 365 = p.yearOfEra :=
    yearOfEra_eq hcentury hcycle hyear hlength rfl
  have hdays : p.dayOfEra - (365 * p.yearOfEra + p.yearOfEra / 4 - p.yearOfEra / 100) = p.dayOfYear := by
    rw [dayOfEra, yearOfEra]
    omega
  have hmonths : (5 * p.dayOfYear + 2) / 153 = p.month :=
    month_eq hmonth (show p.dayOfYear ≤ 365 by omega) hshort
  rw [Date.ofDayNumber, hera, hrest, hyears, hdays, hmonths, dayOfYear, Nat.add_sub_cancel_left]
  rfl

theorem dayNumber_date (h : p.Valid) : p.date.dayNumber = p.dayNumber := by
  have hcentury := h.century
  have hcycle := h.cycle
  have hyear := h.year
  have hmonth := h.month
  have hday : p.date.day = p.day + 1 := rfl
  rw [Date.dayNumber_eq h.date.day.1, dayNumber, dayOfEra, dayOfYear]
  dsimp only
  obtain ⟨hm, hmonths, hyears⟩ | ⟨hm, hmonths, hyears⟩ := date_cases hmonth
  · rw [if_neg (by omega), if_neg (by omega), hmonths, hyears, yearOfEra]
    omega
  · rw [if_pos (by omega), if_pos (by omega), hmonths, hyears, yearOfEra]
    omega

theorem exists_dayNumber (n : Int) : ∃ p : EraDate, p.Valid ∧ p.dayNumber = n := by
  have hlt : ((n + 719468) % 146097).toNat < 146097 := by omega
  obtain ⟨century, s, hcentury, hs, hrest⟩ := exists_century hlt
  obtain ⟨cycle, year, m, hcycle, hyear, hm, rfl⟩ := exists_year hs
  obtain ⟨month, day, hmonth, rfl, hday⟩ := exists_month (m := m) (by omega)
  let p : EraDate := ⟨(n + 719468) / 146097, century, cycle, year, month, day⟩
  refine ⟨p, ⟨hcentury, hcycle, hyear, hmonth, (day_lt_iff hcentury hcycle hyear hmonth).mpr ⟨hday, hm⟩⟩, ?_⟩
  have hp : p.dayOfEra = ((n + 719468) % 146097).toNat := hrest.symm
  rw [dayNumber, hp]
  dsimp only [p]
  omega

theorem exists_of_year (year : Int) :
    ∃ (era : Int) (century cycle y : Nat), century < 4 ∧ cycle < 25 ∧ y < 4 ∧
      year = era * 400 + (100 * century + 4 * cycle + y : Nat) :=
  ⟨year / 400, (year % 400 / 100).toNat, (year % 100 / 4).toNat, (year % 4).toNat, by omega⟩

theorem exists_date {d : Date} (h : d.Valid) : ∃ p : EraDate, p.Valid ∧ p.date = d := by
  obtain ⟨⟨hlow, hhigh⟩, hday, hlength⟩ := h
  obtain ⟨era, century, cycle, y, hcentury, hcycle, hy, hyear⟩ :=
    exists_of_year (if d.month ≤ 2 then d.year - 1 else d.year)
  let p : EraDate := ⟨era, century, cycle, y, if d.month ≤ 2 then d.month + 9 else d.month - 3, d.day - 1⟩
  have hyears : p.era * 400 + p.yearOfEra = if d.month ≤ 2 then d.year - 1 else d.year := hyear.symm
  have hmonths : p.month = if d.month ≤ 2 then d.month + 9 else d.month - 3 := rfl
  have hmonth : p.month < 12 := by
    rw [hmonths]
    split <;> omega
  have hfirst : p.date.year = d.year ∧ p.date.month = d.month := by
    have hcases := date_cases hmonth
    by_cases hm : d.month ≤ 2
    · rw [if_pos hm] at hyears hmonths
      omega
    · rw [if_neg hm] at hyears hmonths
      omega
  have hlast : p.date.day = d.day := Nat.sub_add_cancel hday
  have hp : p.date = d := Date.mk.injEq .. |>.mpr ⟨hfirst.1, hfirst.2, hlast⟩
  refine ⟨p, ⟨hcentury, hcycle, hy, hmonth, ?_⟩, hp⟩
  rw [hp]
  exact Nat.sub_one_lt_of_le hday hlength

end EraDate

namespace Date

variable {d : Date} {n : Int}

theorem valid_ofDayNumber (n : Int) : (ofDayNumber n).Valid := by
  obtain ⟨p, hp, rfl⟩ := EraDate.exists_dayNumber n
  rw [EraDate.ofDayNumber_dayNumber hp]
  exact hp.date

theorem dayNumber_ofDayNumber (n : Int) : (ofDayNumber n).dayNumber = n := by
  obtain ⟨p, hp, rfl⟩ := EraDate.exists_dayNumber n
  rw [EraDate.ofDayNumber_dayNumber hp, EraDate.dayNumber_date hp]

theorem ofDayNumber_dayNumber (h : d.Valid) : ofDayNumber d.dayNumber = d := by
  obtain ⟨p, hp, rfl⟩ := EraDate.exists_date h
  rw [EraDate.dayNumber_date hp, EraDate.ofDayNumber_dayNumber hp]

theorem next_ofDayNumber (n : Int) : (ofDayNumber n).next = ofDayNumber (n + 1) := by
  have hvalid := valid_ofDayNumber n
  rw [← ofDayNumber_dayNumber (valid_next hvalid), dayNumber_next hvalid, dayNumber_ofDayNumber]

theorem IsDay.valid_and_dayNumber (h : IsDay d n) : d.Valid ∧ d.dayNumber = n := by
  induction h with
  | epoch => exact ⟨⟨by decide, by decide⟩, rfl⟩
  | next _ ih =>
    obtain ⟨hvalid, rfl⟩ := ih
    exact ⟨valid_next hvalid, dayNumber_next hvalid⟩
  | previous hd _ ih =>
    have hnumber := ih.2
    rw [dayNumber_next hd] at hnumber
    exact ⟨hd, (Int.add_left_inj 1).mp hnumber⟩

theorem isDay_ofDayNumber (n : Int) : IsDay (ofDayNumber n) n := by
  induction n with
  | zero => exact .epoch
  | succ n ih =>
    rw [← next_ofDayNumber]
    exact ih.next
  | pred n ih =>
    refine .previous (valid_ofDayNumber _) ?_
    rw [next_ofDayNumber, Int.sub_add_cancel]
    exact ih

/-- Steps from the epoch lead to the dates that there are, each with its number. -/
theorem isDay_iff : IsDay d n ↔ d.Valid ∧ d.dayNumber = n := by
  refine ⟨IsDay.valid_and_dayNumber, ?_⟩
  rintro ⟨hvalid, rfl⟩
  have hday := isDay_ofDayNumber d.dayNumber
  rwa [ofDayNumber_dayNumber hvalid] at hday

end Date

end FilterConsole
