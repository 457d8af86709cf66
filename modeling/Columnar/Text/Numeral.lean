import Columnar.Arithmetic

namespace Columnar.Text

def isDigit (c : Char) : Bool := '0' ≤ c && c ≤ '9'

def digitValue (c : Char) : Nat := c.toNat - 48

def digitChar (n : Nat) : Char := Char.ofNat (48 + n)

/-- The number a digit string stands for; the empty one stands for zero. -/
def digitsValue (digits : List Char) : Nat := digits.foldl (fun n c => 10 * n + digitValue c) 0

/-- Decimal digits of a number, at least one. -/
def digits (n : Nat) : List Char :=
  if n < 10 then [digitChar n] else digits (n / 10) ++ [digitChar (n % 10)]

/-- Decimal digits with zeros in front up to a width. -/
def paddedDigits (width n : Nat) : List Char :=
  List.replicate (width - (digits n).length) '0' ++ digits n

def signedDigits (v : Int) : List Char :=
  if v < 0 then '-' :: digits v.natAbs else digits v.natAbs

def parseNat? (text : List Char) : Option Nat :=
  if text.isEmpty || !text.all isDigit then none else some (digitsValue text)

def splitSign : List Char → Option Bool × List Char
  | '-' :: rest => (some true, rest)
  | '+' :: rest => (some false, rest)
  | text => (none, text)

/-- A string of digits behind at most one sign. -/
def parseInt? (text : List Char) : Option Int :=
  match splitSign text with
  | (some true, rest) => (parseNat? rest).map fun n => -(n : Int)
  | (_, rest) => (parseNat? rest).map fun n => (n : Int)

/-- As `parseInt?`, without a minus sign even in front of zero. -/
def parseUnsigned? (text : List Char) : Option Int :=
  match splitSign text with
  | (some true, _) => none
  | (_, rest) => (parseNat? rest).map fun n => (n : Int)

end Columnar.Text
