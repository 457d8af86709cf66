import Columnar.Calendar

namespace Columnar.Calendar

/-- The first day of a year in an era of 400 years. Years start in March. -/
def yearStart (year : Nat) : Nat := year * 365 + year / 4 - year / 100

/-- A day is in a year of an era, so many days behind the start of the year. Only a year that ends with a leap day
has more than 365 days. -/
structure InEra (day era : Int) (year dayOfYear : Nat) : Prop where
  year_lt : year < 400
  dayOfYear_le : dayOfYear ≤ 365
  leap : dayOfYear = 365 → (year + 1) % 4 = 0 ∧ ((year + 1) % 100 ≠ 0 ∨ (year + 1) % 400 = 0)
  day_eq : day = era * 146097 + (yearStart year + dayOfYear : Nat) - 719468

/-- Months count from March. -/
def monthStart (month : Nat) : Nat := (153 * month + 2) / 5

variable {day era : Int} {year dayOfYear : Nat}

theorem inRange_iff : inRange day = true ↔ -96465292 ≤ day ∧ day ≤ 95026236 := by
  have first : firstDay = -96465292 := by decide
  have last : lastDay = 95026236 := by decide
  rw [inRange, Bool.and_eq_true, decide_eq_true_eq, decide_eq_true_eq, first, last]

/-- An era falls into centuries, leap cycles, years and days. -/
theorem exists_parts {dayOfEra : Nat} (within : dayOfEra < 146097) :
    ∃ century cycle year day, century < 4 ∧ cycle < 25 ∧ year < 4 ∧ day ≤ 365 ∧
      (day = 365 → year = 3 ∧ (cycle < 24 ∨ century = 3)) ∧
      dayOfEra = 36524 * century + 1461 * cycle + 365 * year + day := by
  by_cases last : dayOfEra = 146096
  · exact ⟨3, 24, 3, 365, by omega⟩
  · refine ⟨dayOfEra / 36524, dayOfEra % 36524 / 1461, min 3 (dayOfEra % 36524 % 1461 / 365),
      dayOfEra % 36524 % 1461 - 365 * min 3 (dayOfEra % 36524 % 1461 / 365), ?_⟩
    omega

theorem yearStart_parts {century cycle part : Nat} (centuryLt : century < 4) (cycleLt : cycle < 25)
    (partLt : part < 4) :
    yearStart (100 * century + 4 * cycle + part) = 36524 * century + 1461 * cycle + 365 * part := by
  have quads : (100 * century + 4 * cycle + part) / 4 = 25 * century + cycle := by omega
  have hundreds : (100 * century + 4 * cycle + part) / 100 = century := by omega
  rw [yearStart, quads, hundreds]
  omega

theorem exists_inEra (day : Int) : ∃ era year dayOfYear, InEra day era year dayOfYear := by
  have within : ((day + 719468) % 146097).toNat < 146097 := by omega
  obtain ⟨century, cycle, part, rest, centuryLt, cycleLt, partLt, restLe, leap, parts⟩ := exists_parts within
  refine ⟨(day + 719468) / 146097, 100 * century + 4 * cycle + part, rest, by omega, restLe, ?_, ?_⟩
  · intro last
    obtain ⟨rfl, inside⟩ := leap last
    omega
  · rw [yearStart_parts centuryLt cycleLt partLt, ← parts]
    omega

/-- The year of a day in its era, told from the number of the day. -/
theorem InEra.yearOfEra (inEra : InEra day era year dayOfYear) {dayOfEra : Nat}
    (place : dayOfEra = yearStart year + dayOfYear) :
    (dayOfEra - dayOfEra / 1460 + dayOfEra / 36524 - dayOfEra / 146096) / 365 = year := by
  obtain ⟨yearLt, le, leap, _⟩ := inEra
  have parts : year = 100 * (year / 100) + 4 * (year % 100 / 4) + year % 4 := by omega
  have centuryLt : year / 100 < 4 := by omega
  have cycleLt : year % 100 / 4 < 25 := by omega
  have partLt : year % 4 < 4 := by omega
  have last : dayOfYear = 365 → year % 4 = 3 ∧ (year % 100 / 4 < 24 ∨ year / 100 = 3) := by omega
  rw [parts, yearStart_parts centuryLt cycleLt partLt] at place
  generalize year / 100 = century at parts centuryLt last place
  generalize year % 100 / 4 = cycle at parts cycleLt last place
  generalize year % 4 = part at parts partLt last place
  subst parts
  by_cases final : dayOfYear = 365 ∧ cycle = 24
  · obtain ⟨rfl, rfl⟩ := final
    obtain ⟨rfl, rfl⟩ : part = 3 ∧ century = 3 := by omega
    subst place
    rfl
  · have hundreds : dayOfEra / 36524 = century := by omega
    have eras : dayOfEra / 146096 = 0 := by omega
    have quads : dayOfEra / 1460 =
        25 * century + cycle + (24 * century + cycle + 365 * part + dayOfYear) / 1460 := by omega
    have atMost : (24 * century + cycle + 365 * part + dayOfYear) / 1460 ≤ 1 := by omega
    have late : (24 * century + cycle + 365 * part + dayOfYear) / 1460 = 1 → part = 3 ∧ 0 < dayOfYear := by omega
    rw [eras, hundreds, quads]
    rcases Nat.le_one_iff_eq_zero_or_eq_one.mp atMost with none | one
    · omega
    · omega

/-- The month of a day of the year, counted from March. -/
def monthOf (dayOfYear : Nat) : Nat := (5 * dayOfYear + 2) / 153

/-- The number by which a month counted from March is known. -/
def calendarMonth (month : Nat) : Nat := if month < 10 then month + 3 else month - 9

theorem monthOf_spec (le : dayOfYear ≤ 365) : monthOf dayOfYear < 12 ∧ monthStart (monthOf dayOfYear) ≤ dayOfYear ∧
    dayOfYear < monthStart (monthOf dayOfYear + 1) := by
  unfold monthStart monthOf
  omega

theorem calendarMonth_spec {month : Nat} (within : month < 12) :
    1 ≤ calendarMonth month ∧ calendarMonth month ≤ 12 ∧ (calendarMonth month + 9) % 12 = month := by
  unfold calendarMonth
  split <;> omega

theorem monthLength_of_ne {month : Nat} (other : month ≠ 2) (year : Int) :
    monthLength year month = monthLength 0 month := by
  rw [monthLength, monthLength, if_neg other, if_neg other]

/-- The year by which a day of an era is known: January and February are of the next one. -/
def calendarYear (era : Int) (year dayOfYear : Nat) : Int :=
  era * 400 + year + if calendarMonth (monthOf dayOfYear) ≤ 2 then 1 else 0

namespace InEra

variable (inEra : InEra day era year dayOfYear)

include inEra

theorem place_lt : yearStart year + dayOfYear < 146097 := by
  obtain ⟨yearLt, le, leap, _⟩ := inEra
  unfold yearStart
  omega

theorem dateOf_eq : dateOf day = (calendarYear era year dayOfYear, calendarMonth (monthOf dayOfYear),
    dayOfYear - monthStart (monthOf dayOfYear) + 1) := by
  have bounded := inEra.place_lt
  have shifted : day + 719468 = era * 146097 + (yearStart year + dayOfYear : Nat) := by
    have := inEra.day_eq
    omega
  have eras : (day + 719468).fdiv 146097 = era := by
    rw [Int.fdiv_eq_ediv_of_nonneg _ (by decide)]
    omega
  have days : (day + 719468 - era * 146097).toNat = yearStart year + dayOfYear := by omega
  have years := inEra.yearOfEra rfl
  have rest : yearStart year + dayOfYear - (365 * year + year / 4 - year / 100) = dayOfYear := by
    rw [yearStart, Nat.mul_comm 365, Nat.add_sub_cancel_left]
  simp only [dateOf, eras, days, years, rest]
  rfl

theorem dayOf_eq : dayOf (calendarYear era year dayOfYear) (calendarMonth (monthOf dayOfYear))
    (dayOfYear - monthStart (monthOf dayOfYear) + 1) = day := by
  obtain ⟨within, starts, _⟩ := monthOf_spec inEra.dayOfYear_le
  obtain ⟨_, _, month⟩ := calendarMonth_spec within
  have marchYear : (if calendarMonth (monthOf dayOfYear) ≤ 2 then calendarYear era year dayOfYear - 1
      else calendarYear era year dayOfYear) = era * 400 + year := by
    unfold calendarYear
    split <;> omega
  have yearLt := inEra.year_lt
  have eras : (era * 400 + year).fdiv 400 = era := by
    rw [Int.fdiv_eq_ediv_of_nonneg _ (by decide)]
    omega
  have years : (era * 400 + year - era * 400).toNat = year := by omega
  have days : monthStart (monthOf dayOfYear) + (dayOfYear - monthStart (monthOf dayOfYear) + 1) - 1 =
    dayOfYear := by omega
  simp only [dayOf, marchYear, eras, years, month]
  rw [← monthStart, days, inEra.day_eq, yearStart]

/-- The months are as long as the days of the year make them. -/
theorem day_le_monthLength : dayOfYear - monthStart (monthOf dayOfYear) + 1 ≤
    monthLength (calendarYear era year dayOfYear) (calendarMonth (monthOf dayOfYear)) := by
  obtain ⟨yearLt, le, leap, _⟩ := inEra
  obtain ⟨within, starts, ends⟩ := monthOf_spec le
  have leapYear : dayOfYear = 365 → isLeapYear (era * 400 + year + 1) = true := by
    intro last
    obtain ⟨quad, hundred⟩ := leap last
    simp only [isLeapYear, Bool.and_eq_true, Bool.or_eq_true, decide_eq_true_eq]
    omega
  unfold calendarYear
  generalize monthOf dayOfYear = month at within starts ends
  by_cases february : month = 11
  · subst february
    change dayOfYear - 337 + 1 ≤ if isLeapYear (era * 400 + year + 1) then 29 else 28
    by_cases last : dayOfYear = 365
    · rw [leapYear last, if_pos rfl]
      omega
    · split <;> omega
  · have each : ∀ month < 11, calendarMonth month ≠ 2 ∧
        monthStart (month + 1) - monthStart month = monthLength 0 (calendarMonth month) := by decide
    obtain ⟨other, length⟩ := each month (by omega)
    rw [monthLength_of_ne other, ← length]
    omega

/-- The days that the calendar covers are those of its years. -/
theorem year_within (covered : inRange day = true) :
    firstYear ≤ calendarYear era year dayOfYear ∧ calendarYear era year dayOfYear ≤ lastYear := by
  have months : calendarMonth (monthOf dayOfYear) ≤ 2 ↔ 306 ≤ dayOfYear := by
    have := inEra.dayOfYear_le
    unfold calendarMonth monthOf
    split <;> omega
  obtain ⟨yearLt, le, leap, place⟩ := inEra
  rw [yearStart] at place
  rw [inRange_iff] at covered
  rw [firstYear, lastYear, calendarYear]
  -- The last year of the calendar is in era 655.
  rcases (by omega : era < 655 ∨ era = 655 ∨ 655 < era) with before | rfl | after
  all_goals split <;> omega

/-- A day that the calendar covers is the one of its date. -/
theorem dayOf?_eq (covered : inRange day = true) : dayOf? (calendarYear era year dayOfYear)
    (calendarMonth (monthOf dayOfYear)) (dayOfYear - monthStart (monthOf dayOfYear) + 1) = some day := by
  obtain ⟨first, last⟩ := inEra.year_within covered
  obtain ⟨within, _, _⟩ := monthOf_spec inEra.dayOfYear_le
  obtain ⟨positive, twelve, _⟩ := calendarMonth_spec within
  rw [dayOf?, if_pos ⟨first, last, positive, twelve, Nat.succ_pos _, inEra.day_le_monthLength⟩, inEra.dayOf_eq]

end InEra

/-- The date of a day that the calendar covers is one of the calendar, and the day is told by it. -/
theorem dateOf_spec (covered : inRange day = true) : ∃ year month dayOfMonth,
    dateOf day = (year, month, dayOfMonth) ∧
    1 ≤ month ∧ month ≤ 12 ∧ 1 ≤ dayOfMonth ∧ dayOfMonth ≤ 31 ∧ dayOf? year month dayOfMonth = some day := by
  obtain ⟨era, year, dayOfYear, inEra⟩ := exists_inEra day
  obtain ⟨within, starts, ends⟩ := monthOf_spec inEra.dayOfYear_le
  obtain ⟨positive, twelve, _⟩ := calendarMonth_spec within
  refine ⟨_, _, _, inEra.dateOf_eq, positive, twelve, Nat.succ_pos _, ?_, inEra.dayOf?_eq covered⟩
  unfold monthStart at *
  omega

end Columnar.Calendar
