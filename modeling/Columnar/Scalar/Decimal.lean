import Columnar.Text.Numeral

namespace Columnar.Decimal

open Text

/-- Decimal values have nine digits after the point. -/
def places : Nat := 9

def unit : Nat := 10 ^ places

def width : Nat := 16

def greatest : Nat := 2 ^ (8 * width - 1) - 1

/-- Splits a text at its first point; without one the second part is empty. -/
def splitPoint (text : List Char) : List Char × List Char :=
  (text.takeWhile (· ≠ '.'), (text.dropWhile (· ≠ '.')).drop 1)

/-- Why a text stands for no decimal value. -/
inductive Refusal where
  | malformed
  /-- A check has found the value too great. -/
  | tooGreat
  /-- A step that nothing checks had no room for its outcome. -/
  | overflow
  deriving DecidableEq, Repr

/-- Numbers that the stored width can hold. -/
def Fits (v : Int) : Prop := -(greatest : Int) - 1 ≤ v ∧ v ≤ greatest

instance (v : Int) : Decidable (Fits v) := inferInstanceAs (Decidable (_ ∧ _))

def checked (v : Int) : Except Refusal Int := if Fits v then .ok v else .error .tooGreat

def unchecked (v : Int) : Except Refusal Int := if Fits v then .ok v else .error .overflow

/-- What the last of some digits behind the point counts, as a multiple of the unit. -/
def lastPlace (digits : Nat) : Except Refusal Int :=
  if places < digits then .error .overflow else unchecked (10 ^ (places - digits))

/-- The value of the digits in front of the point and behind it. The room for either part, for the multiple of the
first one and for the sum is checked; nothing looks after the other steps. -/
def combine (negative : Bool) (whole fraction : List Char) : Except Refusal Int := do
  let front ← checked (digitsValue whole)
  let back ← checked (digitsValue fraction)
  let back ← unchecked (back * (← lastPlace fraction.length))
  let front ← checked (front * unit)
  let value ← checked (front + back)
  if negative then unchecked (-value) else return value

/-- Reads digits with at most one point behind at most one sign, as a multiple of the unit. -/
def parse (text : List Char) : Except Refusal Int :=
  let (sign, rest) := splitSign text
  let (whole, fraction) := splitPoint rest
  if whole.isEmpty && fraction.isEmpty || places < fraction.length || !whole.all isDigit || !fraction.all
    isDigit then
    .error .malformed
  else combine (sign = some true) whole fraction

def parse? (text : List Char) : Option Int := (parse text).toOption

/-- Zeros at the end of the fraction are not written, nor is a point behind which nothing would stand. -/
def print (unscaled : Int) : List Char :=
  let whole := digits (unscaled.natAbs / unit)
  let fraction := ((paddedDigits places (unscaled.natAbs % unit)).reverse.dropWhile (· = '0')).reverse
  (if unscaled < 0 then ['-'] else []) ++ if fraction.isEmpty then whole else whole ++ '.' :: fraction

end Columnar.Decimal
