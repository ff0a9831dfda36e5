import DocumentReplication.Time.Calendar

/-!
Counting days and taking the count apart are inverse: every count is the count of the date it is
taken apart into, and that date exists. An era is taken apart into centuries, into cycles of four
years and into years that begin in March; only the last of these can be a day longer.
-/

namespace DocumentReplication.CalendarDate

/-- The day of a year that begins in March, counted from 0. -/
def ofMarchYear (year day : Int) : CalendarDate :=
  let month := (5 * day + 2) / 153
  let calendarMonth := if month < 10 then month + 3 else month - 9
  ⟨if calendarMonth ≤ 2 then year + 1 else year, calendarMonth.toNat,
    (day - (153 * month + 2) / 5 + 1).toNat⟩

variable {year day era dayOfEra days : Int}

/-- Where a day lies in its era. The last cycle of a century lacks the leap day, unless the century
is the last of the era. -/
structure EraPosition (dayOfEra century cycle year day : Int) : Prop where
  century_bound : 0 ≤ century ∧ century ≤ 3
  cycle_bound : 0 ≤ cycle ∧ cycle ≤ 24
  year_bound : 0 ≤ year ∧ year ≤ 3
  day_bound : 0 ≤ day ∧ day ≤ 365
  sum : dayOfEra = 36524 * century + 1461 * cycle + 365 * year + day
  leapDay : day = 365 → year = 3 ∧ (cycle ≤ 23 ∨ century = 3)

theorem exists_position (lower : 0 ≤ dayOfEra) (upper : dayOfEra < 146097) :
    ∃ century cycle year day, EraPosition dayOfEra century cycle year day := by
  -- The last day of the era, and of a leap cycle, would begin a fifth part if it were not cut off.
  let century := min (dayOfEra / 36524) 3
  let dayOfCentury := dayOfEra - 36524 * century
  let cycle := min (dayOfCentury / 1461) 24
  let dayOfCycle := dayOfCentury - 1461 * cycle
  let year := min (dayOfCycle / 365) 3
  have centuryRange : 0 ≤ dayOfCentury ∧ dayOfCentury ≤ 36524 ∧
      (dayOfCentury = 36524 → century = 3) := by omega
  have cycleRange : 0 ≤ dayOfCycle ∧ dayOfCycle ≤ 1460 ∧
      (dayOfCycle = 1460 → cycle ≤ 23 ∨ century = 3) := by omega
  exact ⟨century, cycle, year, dayOfCycle - 365 * year, by omega, by omega, by omega, by omega,
    by omega, by omega⟩

namespace EraPosition

variable {century cycle : Int}

theorem yearOfEra (position : EraPosition dayOfEra century cycle year day) :
    (dayOfEra - dayOfEra / 1460 + dayOfEra / 36524 - dayOfEra / 146096) / 365 =
      100 * century + 4 * cycle + year := by
  obtain ⟨centuryBound, cycleBound, yearBound, dayBound, rfl, leapDay⟩ := position
  generalize whole : 36524 * century + 1461 * cycle + 365 * year + day = count
  generalize carried : (24 * century + cycle + 365 * year + day) / 1460 = carry
  have cycles : count / 1460 = 25 * century + cycle + carry := by omega
  have centuries : count / 36524 = century + count / 146096 := by
    have rest : 0 ≤ count - 36524 * century ∧ count - 36524 * century ≤ 36524 ∧
        (count - 36524 * century = 36524 → century = 3) := by
      clear cycles carried
      omega
    clear cycles carried whole
    omega
  have within : 0 ≤ day - carry ∧ day - carry ≤ 364 := by omega
  rw [cycles, centuries]
  omega

theorem dayOfYear (position : EraPosition dayOfEra century cycle year day) :
    dayOfEra - (365 * (100 * century + 4 * cycle + year) +
      (100 * century + 4 * cycle + year) / 4 - (100 * century + 4 * cycle + year) / 100) = day := by
  obtain ⟨centuryBound, cycleBound, yearBound, dayBound, rfl, leapDay⟩ := position
  omega

theorem leap (position : EraPosition dayOfEra century cycle year day) (last : day = 365)
    (era : Int) : isLeap (100 * century + 4 * cycle + year + era * 400 + 1) = true := by
  obtain ⟨centuryBound, cycleBound, yearBound, dayBound, rfl, leapDay⟩ := position
  obtain ⟨rfl, early⟩ := leapDay last
  simp only [isLeap, Bool.and_eq_true, Bool.or_eq_true, beq_iff_eq, bne_iff_ne]
  refine ⟨by omega, ?_⟩
  rcases early with below | rfl
  · exact .inl (by omega)
  · by_cases century : (100 * 3 + 4 * cycle + 3 + era * 400 + 1) % 100 = 0
    · exact .inr (by omega)
    · exact .inl century

end EraPosition

theorem era_ediv (era : Int) (lower : 0 ≤ year) (upper : year < 400) :
    (year + era * 400) / 400 = era ∧ (year + era * 400) % 400 = year := by
  omega

theorem exists_marchYear (days : Int) :
    ∃ year day, ofDays days = ofMarchYear year day ∧ 0 ≤ day ∧ day ≤ 365 ∧
      (day = 365 → isLeap (year + 1) = true) ∧
      days = year / 400 * 146097 + (year % 400 * 365 + year % 400 / 4 - year % 400 / 100 + day) -
        epochDay := by
  have lower : 0 ≤ (days + epochDay) % 146097 := Int.emod_nonneg _ (by decide)
  have upper : (days + epochDay) % 146097 < 146097 := Int.emod_lt_of_pos _ (by decide)
  obtain ⟨century, cycle, year, day, position⟩ := exists_position lower upper
  have total := Int.mul_ediv_add_emod (days + epochDay) 146097
  have yearOfEra := position.yearOfEra
  have dayOfYear := position.dayOfYear
  have yearRange : 0 ≤ 100 * century + 4 * cycle + year ∧ 100 * century + 4 * cycle + year < 400 := by
    have bounds := And.intro position.century_bound (And.intro position.cycle_bound
      position.year_bound)
    clear total yearOfEra dayOfYear position
    omega
  obtain ⟨whole, part⟩ := era_ediv ((days + epochDay) / 146097) yearRange.1 yearRange.2
  refine ⟨100 * century + 4 * cycle + year + (days + epochDay) / 146097 * 400, day, ?_,
    position.day_bound.1, position.day_bound.2, fun last => position.leap last _, ?_⟩
  · simp only [ofDays, yearOfEra, dayOfYear, ofMarchYear]
  · rw [whole, part]
    clear yearOfEra yearRange whole part position
    generalize (100 * century + 4 * cycle + year) / 4 = leaps at *
    generalize (100 * century + 4 * cycle + year) / 100 = missing at *
    generalize 100 * century + 4 * cycle + year = number at *
    generalize (days + epochDay) / 146097 = era at *
    generalize (days + epochDay) % 146097 = dayOfEra at *
    omega

theorem toDays_ofMarchYear (lower : 0 ≤ day) (upper : day ≤ 365) :
    (ofMarchYear year day).toDays =
      year / 400 * 146097 + (year % 400 * 365 + year % 400 / 4 - year % 400 / 100 + day) -
        epochDay := by
  have months : 0 ≤ (5 * day + 2) / 153 ∧ (5 * day + 2) / 153 ≤ 11 := by omega
  by_cases early : (5 * day + 2) / 153 < 10
  · have late : ¬(5 * day + 2) / 153 + 3 ≤ 2 := by omega
    have month : ¬((5 * day + 2) / 153 + 3).toNat ≤ 2 := by omega
    simp only [ofMarchYear, toDays, monthFromMarch, if_pos early, if_neg late, if_neg month]
    omega
  · have winter : (5 * day + 2) / 153 - 9 ≤ 2 := by omega
    have month : ((5 * day + 2) / 153 - 9).toNat ≤ 2 := by omega
    simp only [ofMarchYear, toDays, monthFromMarch, if_neg early, if_pos winter, if_pos month]
    omega

theorem exists_ofMarchYear (lower : 0 ≤ day) (upper : day ≤ 365)
    (leapDay : day = 365 → isLeap (year + 1) = true) : (ofMarchYear year day).Exists := by
  generalize monthOf : (5 * day + 2) / 153 = month
  have months : month = 0 ∨ month = 1 ∨ month = 2 ∨ month = 3 ∨ month = 4 ∨ month = 5 ∨ month = 6 ∨
      month = 7 ∨ month = 8 ∨ month = 9 ∨ month = 10 ∨ month = 11 := by omega
  simp only [Exists, ofMarchYear, monthOf]
  rcases months with rfl | rfl | rfl | rfl | rfl | rfl | rfl | rfl | rfl | rfl | rfl | rfl
  case inr.inr.inr.inr.inr.inr.inr.inr.inr.inr.inr =>
    by_cases leap : isLeap (year + 1) = true
    · simp [daysInMonth, leap]
      omega
    · have short : day ≠ 365 := fun last => leap (leapDay last)
      simp [daysInMonth, leap]
      omega
  all_goals
    simp [daysInMonth]
    omega

/-- Counting the days of the date that a count stands for gives the count back. -/
theorem toDays_ofDays (days : Int) : (ofDays days).toDays = days := by
  obtain ⟨year, day, same, lower, upper, -, sum⟩ := exists_marchYear days
  rw [same, toDays_ofMarchYear lower upper, ← sum]

theorem exists_ofDays (days : Int) : (ofDays days).Exists := by
  obtain ⟨year, day, same, lower, upper, leapDay, -⟩ := exists_marchYear days
  rw [same]
  exact exists_ofMarchYear lower upper leapDay

/-- A date no earlier than the year -262143 and no later than the year 262142. -/
theorem year_ofDays (lower : -96465292 ≤ days) (upper : days ≤ 95026236) :
    -262143 ≤ (ofDays days).year ∧ (ofDays days).year ≤ 262142 := by
  obtain ⟨year, day, same, first, last, -, sum⟩ := exists_marchYear days
  rw [same]
  simp only [epochDay] at sum
  have before : year ≤ -262145 ∨ year = -262144 ∨ -262143 ≤ year := by omega
  have after : year ≤ 262141 ∨ year = 262142 ∨ 262143 ≤ year := by omega
  have start : -262144 ≤ year := by omega
  have stop : year ≤ 262142 := by omega
  simp only [ofMarchYear]
  by_cases early : (5 * day + 2) / 153 < 10
  · have late : ¬(5 * day + 2) / 153 + 3 ≤ 2 := by omega
    simp only [if_pos early, if_neg late]
    rcases before with below | rfl | above <;> omega
  · have winter : (5 * day + 2) / 153 - 9 ≤ 2 := by omega
    simp only [if_neg early, if_pos winter]
    rcases after with below | rfl | above <;> omega

end DocumentReplication.CalendarDate
