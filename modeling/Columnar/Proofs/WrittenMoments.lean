import Columnar.Calendar.Pattern
import Columnar.Proofs.CalendarDays
import Columnar.Proofs.Numerals

namespace Columnar.Calendar

open Text

variable {text rest found : List Char} {fields next : Fields} {pieces : List Piece} {day : Int}
  {n most least greatest : Nat}

/-- Digits are read as a number, if there are no more that could be read. -/
theorem readNumber_append (digits : ∀ c ∈ found, isDigit c = true) (some : found ≠ []) (le : found.length ≤ most)
    (ends : found.length = most ∨ ∀ c ∈ rest.head?, isDigit c = false) :
    readNumber most (found ++ rest) = .some (digitsValue found, rest) := by
  have behind : (rest.take (most - found.length)).takeWhile isDigit = [] := by
    rcases ends with full | stop
    · rw [full, Nat.sub_self, List.take_zero, List.takeWhile_nil]
    · cases rest with
      | nil => rw [List.take_nil, List.takeWhile_nil]
      | cons c more =>
        cases most - found.length with
        | zero => rfl
        | succ left => rw [List.take_succ_cons, List.takeWhile_cons_of_neg (by simp [stop c rfl])]
  have taken : ((found ++ rest).take most).takeWhile isDigit = found := by
    rw [List.take_append, List.take_of_length_le le, List.takeWhile_append_of_pos digits, behind, List.append_nil]
  have filled : found.isEmpty = false := by simp [some]
  rw [readNumber, taken, filled, List.drop_left]
  rfl

theorem readBounded_paddedDigits (small : n < 100) (lower : least ≤ n) (upper : n ≤ greatest) (rest : List Char) :
    readBounded least greatest (paddedDigits 2 n ++ rest) = some (n, rest) := by
  have width : (paddedDigits 2 n).length = 2 := length_paddedDigits (by decide) small
  have solid := (solid_paddedDigits 2 n).skipBlanks_append (paddedDigits_ne_nil 2 n) rest
  have number : readNumber 2 (paddedDigits 2 n ++ rest) = some (digitsValue (paddedDigits 2 n), rest) :=
    readNumber_append (fun _ => isDigit_of_mem_paddedDigits) (paddedDigits_ne_nil 2 n) (Nat.le_of_eq width)
      (.inl width)
  rw [readBounded, solid, number, digitsValue_paddedDigits]
  simp [lower, upper]

theorem solid_printYear (year : Int) : Solid (printYear year) := by
  unfold printYear
  split
  · exact (solid_paddedDigits 4 _).cons (by decide)
  · split
    · exact (solid_paddedDigits 4 _).cons (by decide)
    · exact solid_paddedDigits 4 _

theorem printYear_ne_nil (year : Int) : printYear year ≠ [] := by
  unfold printYear
  split
  · nofun
  · split
    · nofun
    · exact paddedDigits_ne_nil 4 _

/-- A year is read to its last digit, whether it has a sign or not. -/
theorem readYear_printYear (year : Int) (ends : ∀ c ∈ rest.head?, isDigit c = false) :
    readYear (printYear year ++ rest) = some (year, rest) := by
  have digits (n : Nat) : ∀ c ∈ paddedDigits 4 n, isDigit c = true := fun _ => isDigit_of_mem_paddedDigits
  have signed (n : Nat) : readLongNumber (paddedDigits 4 n ++ rest) = some (n, rest) := by
    have long : (paddedDigits 4 n).length ≤ (paddedDigits 4 n ++ rest).length := by
      rw [List.length_append]
      exact Nat.le_add_right _ _
    rw [readLongNumber, readNumber_append (digits n) (paddedDigits_ne_nil 4 n) long (.inr ends),
      digitsValue_paddedDigits]
  unfold printYear
  split
  next negative =>
    rw [List.cons_append, readYear, signed]
    simp only [Option.map_some, Option.some.injEq, Prod.mk.injEq, and_true]
    omega
  next natural =>
    split
    next large =>
      rw [List.cons_append, readYear, signed]
      simp only [Option.map_some, Option.some.injEq, Prod.mk.injEq, and_true]
      omega
    next small =>
      have width : (paddedDigits 4 year.natAbs).length = 4 := length_paddedDigits (by decide) (by omega)
      have number : readNumber 4 (paddedDigits 4 year.natAbs ++ rest) =
          some (digitsValue (paddedDigits 4 year.natAbs), rest) :=
        readNumber_append (digits year.natAbs) (paddedDigits_ne_nil 4 _) (Nat.le_of_eq width) (.inl width)
      have first : ∀ c ∈ (paddedDigits 4 year.natAbs ++ rest).head?, isDigit c = true := fun c first =>
        digits _ c (mem_of_head?_append (paddedDigits_ne_nil 4 _) first)
      unfold readYear
      split
      next same => exact absurd (first '-' (by rw [same]; rfl)) (by decide)
      next same => exact absurd (first '+' (by rw [same]; rfl)) (by decide)
      next =>
        rw [number, digitsValue_paddedDigits]
        simp only [Option.map_some, Option.some.injEq, Prod.mk.injEq, and_true]
        omega

theorem readNanos_digits (digits : ∀ c ∈ found, isDigit c = true) (some : found ≠ []) (short : found.length ≤ 9) :
    readNanos found = .some (digitsValue found * 10 ^ (9 - found.length), []) := by
  have whole : found.takeWhile isDigit = found := List.takeWhile_eq_self_iff.mpr digits
  have filled : found.isEmpty = false := by simp [some]
  rw [readNanos, whole, filled, List.take_of_length_le short, List.drop_length]
  rfl

theorem readPieces_cons {piece : Piece} (read : readPiece fields text piece = some (next, rest))
    (pieces : List Piece) : readPieces (piece :: pieces) fields text = readPieces pieces next rest := by
  rw [readPieces, read, Option.bind_some]

theorem readPiece_mark (fields : Fields) (c : Char) (rest : List Char) :
    readPiece fields (c :: rest) (.mark c) = some (fields, rest) := by
  rw [readPiece, if_pos rfl]

/-- A date is read back, and what stands behind it is left. -/
theorem readPieces_date (year : Int) {month dayOfMonth : Nat} (january : 1 ≤ month) (december : month ≤ 12)
    (first : 1 ≤ dayOfMonth) (last : dayOfMonth ≤ 31) (pieces : List Piece) (fields : Fields) (rest : List Char) :
    readPieces (datePieces ++ pieces) fields
        (printYear year ++ '-' :: paddedDigits 2 month ++ '-' :: paddedDigits 2 dayOfMonth ++ rest) =
      readPieces pieces { fields with year := year, month := month, day := dayOfMonth } rest := by
  simp only [List.append_assoc, List.cons_append, datePieces, List.nil_append]
  have solid := (solid_printYear year).skipBlanks_append (printYear_ne_nil year)
  have years (more : List Char) : readPiece fields (printYear year ++ '-' :: more) .year =
      some ({ fields with year := year }, '-' :: more) := by
    rw [readPiece, solid, readYear_printYear year (by rintro _ ⟨⟩; decide), Option.map_some]
  rw [readPieces_cons (years _), readPieces_cons (readPiece_mark _ _ _)]
  have months (fields : Fields) (more : List Char) : readPiece fields (paddedDigits 2 month ++ more) .month =
      some ({ fields with month := month }, more) := by
    rw [readPiece, readBounded_paddedDigits (by omega) january december, Option.map_some]
  rw [readPieces_cons (months _ _), readPieces_cons (readPiece_mark _ _ _)]
  have days (fields : Fields) (more : List Char) : readPiece fields (paddedDigits 2 dayOfMonth ++ more) .day =
      some ({ fields with day := dayOfMonth }, more) := by
    rw [readPiece, readBounded_paddedDigits (by omega) first last, Option.map_some]
  rw [readPieces_cons (days _ _)]

/-- Nanoseconds are read back; no fraction stands for none. -/
theorem readPiece_printNanos {nano : Nat} (small : nano < 1000000000) (none : fields.nano = 0) :
    readPiece fields (printNanos nano) .fraction = some ({ fields with nano := nano }, []) := by
  have fraction (width n : Nat) (some : 0 < width) (short : width ≤ 9) (below : n < 10 ^ width) :
      readPiece fields ('.' :: paddedDigits width n) .fraction =
        .some ({ fields with nano := n * 10 ^ (9 - width) }, []) := by
    have length : (paddedDigits width n).length = width := length_paddedDigits some below
    rw [readPiece, readNanos_digits (fun _ => isDigit_of_mem_paddedDigits) (paddedDigits_ne_nil _ _)
      (by omega), length, digitsValue_paddedDigits, Option.map_some]
  unfold printNanos
  split
  next zero =>
    rw [readPiece, zero, ← none]
    nofun
  next =>
    split
    next millis =>
      have same : nano / 1000000 * 10 ^ (9 - 3) = nano := by omega
      rw [fraction 3 _ (by decide) (by decide) (by omega), same]
    next =>
      split
      next micros =>
        have same : nano / 1000 * 10 ^ (9 - 6) = nano := by omega
        rw [fraction 6 _ (by decide) (by decide) (by omega), same]
      next => rw [fraction 9 _ (by decide) (by decide) small, Nat.sub_self, Nat.pow_zero, Nat.mul_one]

/-- The time of a day is read back. -/
theorem readPieces_clock {second nano : Nat} (within : second < 86400) (small : nano < 1000000000)
    (none : fields.nano = 0) : readPieces clockPieces fields (printClock second nano) = some { fields with
      hour := second / 3600, minute := second / 60 % 60, second := second % 60, nano := nano } := by
  have whole : nano / 1000000000 = 0 := by omega
  have rest : nano % 1000000000 = nano := by omega
  simp only [printClock, clockPieces, whole, rest, Nat.add_zero, List.append_assoc, List.cons_append]
  have hours (fields : Fields) (more : List Char) :
      readPiece fields (paddedDigits 2 (second / 3600) ++ more) .hour =
      some ({ fields with hour := second / 3600 }, more) := by
    rw [readPiece, readBounded_paddedDigits (by omega) (Nat.zero_le _) (by omega), Option.map_some]
  rw [readPieces_cons (hours _ _), readPieces_cons (readPiece_mark _ _ _)]
  have minutes (fields : Fields) (more : List Char) :
      readPiece fields (paddedDigits 2 (second / 60 % 60) ++ more) .minute =
      some ({ fields with minute := second / 60 % 60 }, more) := by
    rw [readPiece, readBounded_paddedDigits (by omega) (Nat.zero_le _) (by omega), Option.map_some]
  rw [readPieces_cons (minutes _ _), readPieces_cons (readPiece_mark _ _ _)]
  have seconds (fields : Fields) (more : List Char) :
      readPiece fields (paddedDigits 2 (second % 60) ++ more) .second =
      some ({ fields with second := second % 60 }, more) := by
    rw [readPiece, readBounded_paddedDigits (by omega) (Nat.zero_le _) (by omega), Option.map_some]
  rw [readPieces_cons (seconds _ _)]
  dsimp only
  rw [readPieces_cons (readPiece_printNanos small (by exact none)), readPieces]
  rfl

theorem solid_printDate (day : Int) : Solid (printDate day) :=
  ((solid_printYear _).append ((solid_paddedDigits 2 _).cons (by decide))).append
    ((solid_paddedDigits 2 _).cons (by decide))

theorem solid_printNanos (nano : Nat) : Solid (printNanos nano) := by
  unfold printNanos
  split
  · exact fun c member => nomatch member
  · split
    · exact (solid_paddedDigits 3 _).cons (by decide)
    · split
      · exact (solid_paddedDigits 6 _).cons (by decide)
      · exact (solid_paddedDigits 9 _).cons (by decide)

theorem solid_printClock (second nano : Nat) : Solid (printClock second nano) :=
  (((solid_paddedDigits 2 _).append ((solid_paddedDigits 2 _).cons (by decide))).append
    ((solid_paddedDigits 2 _).cons (by decide))).append (solid_printNanos _)

theorem trim_printMoment (moment : Moment) : trim (printMoment moment) = printMoment moment := by
  have dated : printDate moment.day ≠ [] := by simp [printDate]
  have timed : printClock moment.second moment.nano ≠ [] := by simp [printClock]
  exact (solid_printDate _).trim_between (solid_printClock _ _) dated timed [' ']

/-- The written date of a day that the calendar covers is read as that day. -/
theorem parseDate?_printDate (covered : inRange day = true) : parseDate? (printDate day) = some day := by
  obtain ⟨year, month, dayOfMonth, date, january, december, first, last, found⟩ := dateOf_spec covered
  have read := readPieces_date year january december first last [] {} []
  rw [List.append_nil, List.append_nil] at read
  have whole : readDate? (printDate day) = some day := by
    rw [readDate?, printDate, date]
    dsimp only
    rw [read]
    exact found
  rw [parseDate?, whole]

theorem readPiece_space (fields : Fields) (second nano : Nat) :
    readPiece fields (' ' :: printClock second nano) .blank = some (fields, printClock second nano) := by
  have solid : skipBlanks (printClock second nano) = printClock second nano := by
    rw [printClock, List.append_assoc, List.append_assoc]
    exact (solid_paddedDigits 2 _).skipBlanks_append (paddedDigits_ne_nil 2 _) _
  rw [readPiece, skipBlanks, List.dropWhile_cons_of_pos (by decide), ← skipBlanks, solid]

/-- The written form of a moment that the calendar covers, without a leap second, is read as that moment. -/
theorem parseMoment?_printMoment {moment : Moment} (covered : inRange moment.day = true)
    (within : moment.second < 86400) (small : moment.nano < 1000000000) :
    parseMoment? (printMoment moment) = some moment := by
  obtain ⟨year, month, dayOfMonth, date, january, december, first, last, found⟩ := dateOf_spec covered
  obtain ⟨day, second, nano⟩ := moment
  dsimp only at *
  have date : readPieces (datePieces ++ [.blank] ++ clockPieces) {} (printMoment ⟨day, second, nano⟩) =
      some ⟨year, month, dayOfMonth, second / 3600, second / 60 % 60, second % 60, nano⟩ := by
    rw [List.append_assoc, printMoment, printDate, date]
    dsimp only
    rw [readPieces_date year january december first last, List.singleton_append,
      readPieces_cons (readPiece_space _ _ _), readPieces_clock within small rfl]
  have time : second / 3600 * 60 + second / 60 % 60 = second / 60 := by omega
  have seconds : second / 60 * 60 + second % 60 = second := by omega
  have read : (readPieces (datePieces ++ [.blank] ++ clockPieces) {} (printMoment ⟨day, second, nano⟩)).bind
      Fields.moment? = some ⟨day, second, nano⟩ := by
    rw [date, Option.bind_some, Fields.moment?, Fields.day?, found, Option.map_some]
    dsimp only
    rw [if_neg (by omega), time, seconds]
  rw [parseMoment?, momentPieces, List.findSome?_cons, read]

end Columnar.Calendar
