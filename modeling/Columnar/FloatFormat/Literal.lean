import Columnar.FloatFormat.Rounding
import Columnar.Text.Numeral

namespace Columnar.FloatFormat

open Text

/-- ASCII letters in lower case, everything else as it is. -/
def lowerAscii (text : List Char) : List Char :=
  text.map fun c => if 'A' ≤ c && c ≤ 'Z' then Char.ofNat (c.toNat + 32) else c

/-- An exponent that has reached this bound takes in no more digits. Only a literal with more digits than that could
make up for such an exponent. -/
def exponentBound : Nat := 0x10000

/-- The size of an exponent. -/
def exponentValue (digits : List Char) : Nat :=
  digits.foldl (fun n c => if n < exponentBound then 10 * n + digitValue c else n) 0

/-- The exponent part of a literal: nothing, or `e`, at most one sign and at least one digit. -/
def parseExponent? : List Char → Option Int
  | [] => some 0
  | c :: rest =>
    let (sign, digits) := splitSign rest
    if (c = 'e' || c = 'E') && !digits.isEmpty && digits.all isDigit then
      some (if sign = some true then -(exponentValue digits : Int) else exponentValue digits)
    else none

/-- A literal without sign: digits with at most one point and at least one digit, then an exponent. -/
def parseMagnitude? (format : FloatFormat) (text : List Char) : Option Nat :=
  let whole := text.takeWhile isDigit
  let afterWhole := text.dropWhile isDigit
  let (fraction, rest) := match afterWhole with
    | '.' :: tail => (tail.takeWhile isDigit, tail.dropWhile isDigit)
    | tail => ([], tail)
  if whole.isEmpty && fraction.isEmpty then none
  else (parseExponent? rest).map fun exponent =>
    format.ofDecimal (digitsValue (whole ++ fraction)) (whole.length + fraction.length) (exponent - fraction.length)

/-- Reads a literal to the nearest value of the format. Infinity and NaN are words in any case of letters. -/
def parse? (format : FloatFormat) (text : List Char) : Option Nat :=
  let (sign, rest) := splitSign text
  let word := lowerAscii rest
  let magnitude :=
    if word = "inf".toList || word = "infinity".toList then some format.infinity
    else if word = "nan".toList then some format.nan
    else format.parseMagnitude? rest
  magnitude.map fun bits => if sign = some true then format.signBit + bits else bits

end Columnar.FloatFormat
