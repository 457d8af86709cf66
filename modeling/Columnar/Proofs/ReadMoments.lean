import Columnar.Calendar.Pattern
import Columnar.Proofs.CalendarDays

namespace Columnar

/-- A moment of the calendar. -/
structure Moment.Covered (moment : Moment) : Prop where
  day : Calendar.inRange moment.day = true
  second_lt : moment.second < 86400

namespace Calendar

open Text

variable {text rest : List Char} {fields next : Fields} {piece : Piece} {pieces : List Piece} {year : Int}
  {month day : Nat} {moment : Moment}

theorem day_le_of_monthLength (within : day ≤ monthLength year month) : day ≤ 31 := by
  unfold monthLength at within
  split at within
  · split at within <;> omega
  · split at within <;> omega

/-- A day of a year in the calendar is one that it covers. The years start in March, so the first of them is January
and February only, and the last one ends with December. -/
theorem inRange_of_march {march : Int} {dayOfYear : Nat} (first : -262144 ≤ march) (last : march ≤ 262142)
    (short : dayOfYear ≤ 367) (start : march = -262144 → 306 ≤ dayOfYear)
    (ends : march = 262142 → dayOfYear ≤ 305) :
    inRange (march / 400 * 146097 + (yearStart (march - march / 400 * 400).toNat + dayOfYear : Nat) - 719468) =
      true := by
  have within : (march - march / 400 * 400).toNat < 400 := by omega
  have parts : march = march / 400 * 400 + (march - march / 400 * 400).toNat := by omega
  generalize march / 400 = era at *
  generalize (march - era * 400).toNat = year at *
  rw [inRange_iff, yearStart]
  rcases (by omega : era = -656 ∨ (-656 < era ∧ era < 655) ∨ era = 655) with rfl | inside | rfl
  · rcases (by omega : year = 256 ∨ 257 ≤ year) with rfl | later
    · have := start parts
      omega
    · omega
  · omega
  · rcases (by omega : year = 142 ∨ year ≤ 141) with rfl | earlier
    · have := ends parts
      omega
    · omega

/-- The dates of the calendar's years are days that it covers. -/
theorem inRange_of_dayOf? {found : Int} (read : dayOf? year month day = some found) : inRange found = true := by
  unfold dayOf? at read
  split at read
  next within =>
    obtain ⟨first, last, january, december, start, length⟩ := within
    have short := day_le_of_monthLength length
    rw [firstYear] at first
    rw [lastYear] at last
    cases read
    rw [dayOf, Int.fdiv_eq_ediv_of_nonneg _ (by decide)]
    by_cases early : month ≤ 2
    · have late : 10 ≤ (month + 9) % 12 ∧ (month + 9) % 12 ≤ 11 := by omega
      rw [if_pos early]
      exact inRange_of_march (by omega) (by omega) (by omega) (by omega) (by omega)
    · have soon : (month + 9) % 12 ≤ 9 := by omega
      rw [if_neg early]
      exact inRange_of_march (by omega) (by omega) (by omega) (by omega) (by omega)
  next => cases read

/-- The time of a day, or a leap second of it. -/
structure Fields.Timely (fields : Fields) : Prop where
  hour_le : fields.hour ≤ 23
  minute_le : fields.minute ≤ 59
  second_le : fields.second ≤ 60

theorem Fields.timely_default : Fields.Timely {} := ⟨Nat.zero_le _, Nat.zero_le _, Nat.zero_le _⟩

theorem readBounded_le {least greatest n : Nat} (read : readBounded least greatest text = some (n, rest)) :
    n ≤ greatest := by
  obtain ⟨_, bounds⟩ := Option.filter_eq_some_iff.mp read
  exact (of_decide_eq_true bounds).2

/-- No piece reads a time that no day has. -/
theorem readPiece_timely (read : readPiece fields text piece = some (next, rest)) (timely : fields.Timely) :
    next.Timely := by
  obtain ⟨hour, minute, second⟩ := timely
  cases piece with
  | year | month | day =>
    obtain ⟨_, _, same⟩ := Option.map_eq_some_iff.mp read
    cases same
    exact ⟨hour, minute, second⟩
  | hour =>
    obtain ⟨_, found, same⟩ := Option.map_eq_some_iff.mp read
    cases same
    exact ⟨readBounded_le found, minute, second⟩
  | minute =>
    obtain ⟨_, found, same⟩ := Option.map_eq_some_iff.mp read
    cases same
    exact ⟨hour, readBounded_le found, second⟩
  | second =>
    obtain ⟨_, found, same⟩ := Option.map_eq_some_iff.mp read
    cases same
    exact ⟨hour, minute, readBounded_le found⟩
  | fraction =>
    dsimp only [readPiece] at read
    split at read
    · obtain ⟨_, _, same⟩ := Option.map_eq_some_iff.mp read
      cases same
      exact ⟨hour, minute, second⟩
    · cases read
      exact ⟨hour, minute, second⟩
  | blank =>
    cases read
    exact ⟨hour, minute, second⟩
  | mark c =>
    dsimp only [readPiece] at read
    split at read
    · split at read
      · cases read
        exact ⟨hour, minute, second⟩
      · cases read
    · cases read

theorem readPieces_timely (read : readPieces pieces fields text = some next) (timely : fields.Timely) :
    next.Timely := by
  induction pieces generalizing fields text with
  | nil =>
    unfold readPieces at read
    split at read
    · cases read
      exact timely
    · cases read
  | cons piece pieces ih =>
    obtain ⟨⟨fields, rest⟩, first, read⟩ := Option.bind_eq_some_iff.mp read
    exact ih read (readPiece_timely first timely)

theorem Fields.moment?_covered (timely : fields.Timely) (read : fields.moment? = some moment) : moment.Covered := by
  obtain ⟨hour, minute, second⟩ := timely
  obtain ⟨day, found, same⟩ := Option.map_eq_some_iff.mp read
  have covered := inRange_of_dayOf? found
  dsimp only at same
  split at same
  · cases same
    exact ⟨covered, by dsimp only; omega⟩
  · cases same
    exact ⟨covered, by dsimp only; omega⟩

theorem readDate?_inRange {day : Int} (read : readDate? text = some day) : inRange day = true := by
  obtain ⟨fields, _, found⟩ := Option.bind_eq_some_iff.mp read
  exact inRange_of_dayOf? found

/-- What is read as a moment is one of the calendar. -/
theorem parseMoment?_covered (read : parseMoment? text = some moment) : moment.Covered := by
  unfold parseMoment? at read
  split at read
  next found =>
    cases read
    obtain ⟨pieces, _, found⟩ := List.exists_of_findSome?_eq_some found
    obtain ⟨fields, readFields, found⟩ := Option.bind_eq_some_iff.mp found
    exact Fields.moment?_covered (readPieces_timely readFields Fields.timely_default) found
  next =>
    obtain ⟨day, found, same⟩ := Option.map_eq_some_iff.mp read
    cases same
    exact ⟨readDate?_inRange found, Nat.zero_lt_succ _⟩

/-- What is read as a date is a day of the calendar. -/
theorem parseDate?_inRange {day : Int} (read : parseDate? text = some day) : inRange day = true := by
  unfold parseDate? at read
  split at read
  next found =>
    cases read
    exact readDate?_inRange found
  next =>
    obtain ⟨moment, found, same⟩ := Option.map_eq_some_iff.mp read
    cases same
    exact (parseMoment?_covered found).day

end Calendar

end Columnar
