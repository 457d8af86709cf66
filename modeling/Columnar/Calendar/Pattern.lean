import Columnar.Calendar
import Columnar.Text.Blank
import Columnar.Text.Numeral

namespace Columnar.Calendar

open Text

/-- A piece of the written form of a date or time. -/
inductive Piece where
  | year | month | day | hour | minute | second
  /-- A point and at least one digit, or nothing. -/
  | fraction
  /-- White space of any length, also none. -/
  | blank
  | mark (c : Char)
  deriving DecidableEq, Repr

/-- The fields a written form names. -/
structure Fields where
  year : Int := 0
  month : Nat := 0
  day : Nat := 0
  hour : Nat := 0
  minute : Nat := 0
  second : Nat := 0
  nano : Nat := 0
  deriving Repr

/-- At least one and at most `most` digits. -/
def readNumber (most : Nat) (text : List Char) : Option (Nat × List Char) :=
  let found := (text.take most).takeWhile isDigit
  if found.isEmpty then none else some (digitsValue found, text.drop found.length)

/-- A number of any length. -/
def readLongNumber (text : List Char) : Option (Nat × List Char) := readNumber text.length text

/-- A year of at most four digits, or of any number of them behind a sign. -/
def readYear : List Char → Option (Int × List Char)
  | '-' :: rest => (readLongNumber rest).map fun (n, rest) => (-(n : Int), rest)
  | '+' :: rest => (readLongNumber rest).map fun (n, rest) => ((n : Int), rest)
  | text => (readNumber 4 text).map fun (n, rest) => ((n : Int), rest)

/-- Two digits at most, with a value in the given bounds. -/
def readBounded (least greatest : Nat) (text : List Char) : Option (Nat × List Char) :=
  (readNumber 2 (skipBlanks text)).filter fun (n, _) => least ≤ n ∧ n ≤ greatest

/-- The nanoseconds behind a point; digits after the ninth count for nothing. -/
def readNanos (text : List Char) : Option (Nat × List Char) :=
  let found := text.takeWhile isDigit
  if found.isEmpty then none
  else some (digitsValue (found.take 9) * 10 ^ (9 - found.length), text.drop found.length)

/-- Reads one piece. White space in front of a number is skipped. -/
def readPiece (fields : Fields) (text : List Char) : Piece → Option (Fields × List Char)
  | .year => (readYear (skipBlanks text)).map fun (n, rest) => ({ fields with year := n }, rest)
  | .month => (readBounded 1 12 text).map fun (n, rest) => ({ fields with month := n }, rest)
  | .day => (readBounded 1 31 text).map fun (n, rest) => ({ fields with day := n }, rest)
  | .hour => (readBounded 0 23 text).map fun (n, rest) => ({ fields with hour := n }, rest)
  | .minute => (readBounded 0 59 text).map fun (n, rest) => ({ fields with minute := n }, rest)
  | .second => (readBounded 0 60 text).map fun (n, rest) => ({ fields with second := n }, rest)
  | .fraction => match text with
    | '.' :: rest => (readNanos rest).map fun (n, rest) => ({ fields with nano := n }, rest)
    | _ => some (fields, text)
  | .blank => some (fields, skipBlanks text)
  | .mark c => match text with
    | d :: rest => if c = d then some (fields, rest) else none
    | [] => none

/-- Reads a text that the pieces use up. -/
def readPieces : List Piece → Fields → List Char → Option Fields
  | [], fields, text => if text.isEmpty then some fields else none
  | piece :: pieces, fields, text =>
    (readPiece fields text piece).bind fun (fields, rest) => readPieces pieces fields rest

def datePieces : List Piece := [.year, .mark '-', .month, .mark '-', .day]

def clockPieces : List Piece := [.hour, .mark ':', .minute, .mark ':', .second, .fraction]

/-- The written forms of a moment; the first is the one it is printed in. -/
def momentPieces : List (List Piece) :=
  [datePieces ++ [.blank] ++ clockPieces, datePieces ++ [.mark 'T'] ++ clockPieces,
    [.year, .month, .day, .hour, .minute, .second]]

def Fields.day? (fields : Fields) : Option Int := dayOf? fields.year fields.month fields.day

/-- Second sixty is the leap second behind second fifty-nine. -/
def Fields.moment? (fields : Fields) : Option Moment :=
  fields.day?.map fun day =>
    let minutes := fields.hour * 60 + fields.minute
    if fields.second = 60 then ⟨day, minutes * 60 + 59, 1000000000 + fields.nano⟩
    else ⟨day, minutes * 60 + fields.second, fields.nano⟩

/-- A date alone. -/
def readDate? (text : List Char) : Option Int := (readPieces datePieces {} text).bind Fields.day?

/-- A moment in any of its written forms; a date alone is its midnight. -/
def parseMoment? (text : List Char) : Option Moment :=
  match momentPieces.findSome? fun pieces => (readPieces pieces {} text).bind Fields.moment? with
  | some moment => some moment
  | none => (readDate? text).map Moment.midnight

/-- A date, or the date of a moment. -/
def parseDate? (text : List Char) : Option Int :=
  match readDate? text with
  | some day => some day
  | none => (parseMoment? text).map Moment.day

/-- At least four digits; outside of 0 to 9999 the sign is written too. -/
def printYear (year : Int) : List Char :=
  if year < 0 then '-' :: paddedDigits 4 year.natAbs
  else if 9999 < year then '+' :: paddedDigits 4 year.natAbs
  else paddedDigits 4 year.natAbs

def printDate (day : Int) : List Char :=
  let (year, month, dayOfMonth) := dateOf day
  printYear year ++ '-' :: paddedDigits 2 month ++ '-' :: paddedDigits 2 dayOfMonth

/-- Nothing, or a point and three, six or nine digits. -/
def printNanos (nano : Nat) : List Char :=
  if nano = 0 then []
  else if nano % 1000000 = 0 then '.' :: paddedDigits 3 (nano / 1000000)
  else if nano % 1000 = 0 then '.' :: paddedDigits 6 (nano / 1000)
  else '.' :: paddedDigits 9 nano

def printClock (second nano : Nat) : List Char :=
  paddedDigits 2 (second / 3600) ++ ':' :: paddedDigits 2 (second / 60 % 60)
    ++ ':' :: paddedDigits 2 (second % 60 + nano / 1000000000) ++ printNanos (nano % 1000000000)

def printMoment (moment : Moment) : List Char :=
  printDate moment.day ++ ' ' :: printClock moment.second moment.nano

end Columnar.Calendar
