namespace Columnar

/-- A point of the calendar: days since 1970-01-01, seconds of the day, and nanoseconds. During a leap second the
nanoseconds count on past 999999999. -/
structure Moment where
  day : Int
  second : Nat
  nano : Nat
  deriving DecidableEq, Repr

namespace Calendar

def isLeapYear (year : Int) : Bool := year % 4 = 0 && (year % 100 ≠ 0 || year % 400 = 0)

def monthLength (year : Int) (month : Nat) : Nat :=
  if month = 2 then (if isLeapYear year then 29 else 28)
  else if month = 4 ∨ month = 6 ∨ month = 9 ∨ month = 11 then 30
  else 31

/-- Days from 1970-01-01 to a date of the proleptic Gregorian calendar. Years are counted from March, in eras of
400, so that the leap day is the last day of its year. -/
def dayOf (year : Int) (month day : Nat) : Int :=
  let marchYear := if month ≤ 2 then year - 1 else year
  let era := marchYear.fdiv 400
  let yearOfEra := (marchYear - era * 400).toNat
  let dayOfYear := (153 * ((month + 9) % 12) + 2) / 5 + day - 1
  let dayOfEra := yearOfEra * 365 + yearOfEra / 4 - yearOfEra / 100 + dayOfYear
  era * 146097 + dayOfEra - 719468

/-- Year, month and day of a day number. -/
def dateOf (day : Int) : Int × Nat × Nat :=
  let shifted := day + 719468
  let era := shifted.fdiv 146097
  let dayOfEra := (shifted - era * 146097).toNat
  let yearOfEra := (dayOfEra - dayOfEra / 1460 + dayOfEra / 36524 - dayOfEra / 146096) / 365
  let dayOfYear := dayOfEra - (365 * yearOfEra + yearOfEra / 4 - yearOfEra / 100)
  let marchMonth := (5 * dayOfYear + 2) / 153
  let month := if marchMonth < 10 then marchMonth + 3 else marchMonth - 9
  let year := era * 400 + yearOfEra + if month ≤ 2 then 1 else 0
  (year, month, dayOfYear - (153 * marchMonth + 2) / 5 + 1)

def firstYear : Int := -262143

def lastYear : Int := 262142

def firstDay : Int := dayOf firstYear 1 1

def lastDay : Int := dayOf lastYear 12 31

/-- The day number of a date that exists, in the years the calendar covers. -/
def dayOf? (year : Int) (month day : Nat) : Option Int :=
  if firstYear ≤ year ∧ year ≤ lastYear ∧ 1 ≤ month ∧ month ≤ 12 ∧ 1 ≤ day ∧ day ≤ monthLength year month then
    some (dayOf year month day)
  else none

def inRange (day : Int) : Bool := firstDay ≤ day && day ≤ lastDay

end Calendar

namespace Moment

def midnight (day : Int) : Moment := ⟨day, 0, 0⟩

/-- Microseconds since 1970-01-01 00:00:00, cut toward zero. -/
def micros (moment : Moment) : Int :=
  ((moment.day * 86400 + moment.second) * 1000000000 + moment.nano).tdiv 1000

/-- The moment that many microseconds after 1970-01-01 00:00:00, if the calendar covers it. -/
def ofMicros? (micros : Int) : Option Moment :=
  let day := micros.fdiv 86400000000
  let rest := (micros - day * 86400000000).toNat
  if Calendar.inRange day then some ⟨day, rest / 1000000, rest % 1000000 * 1000⟩ else none

/-- By day, then by second, then by nanosecond. -/
def compare (a b : Moment) : Ordering :=
  (Ord.compare a.day b.day).then ((Ord.compare a.second b.second).then (Ord.compare a.nano b.nano))

end Moment

end Columnar
