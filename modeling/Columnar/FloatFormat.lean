import Columnar.Arithmetic

namespace Columnar

/-- A binary interchange format: one sign bit, then an exponent field, then a fraction field. A value of the format
is the number whose binary digits are these fields. -/
structure FloatFormat where
  exponentBits : Nat
  fractionBits : Nat
  deriving DecidableEq, Repr

namespace FloatFormat

def single : FloatFormat := ⟨8, 23⟩

def double : FloatFormat := ⟨11, 52⟩

/-- What a bit pattern stands for; a finite value is `± significand * 2 ^ exponent`. -/
inductive Value where
  | nan
  | infinite (negative : Bool)
  | finite (negative : Bool) (significand : Nat) (exponent : Int)
  deriving DecidableEq, Repr

variable (format : FloatFormat)

/-- The pattern without its sign bit. -/
def magnitude (bits : Nat) : Nat := bits % 2 ^ (format.exponentBits + format.fractionBits)

def isNegative (bits : Nat) : Bool := bits / 2 ^ (format.exponentBits + format.fractionBits) % 2 = 1

/-- The pattern of positive infinity: magnitudes above it are not numbers. -/
def infinity : Nat := (2 ^ format.exponentBits - 1) * 2 ^ format.fractionBits

def signBit : Nat := 2 ^ (format.exponentBits + format.fractionBits)

/-- The quiet NaN without a payload. -/
def nan : Nat := format.infinity + 2 ^ (format.fractionBits - 1)

def isNaN (bits : Nat) : Bool := format.infinity < format.magnitude bits

/-- The exponent of the least significant digit of the smallest values. -/
def leastExponent : Int := 2 - 2 ^ (format.exponentBits - 1) - format.fractionBits

def decode (bits : Nat) : Value :=
  let magnitude := format.magnitude bits
  let field := magnitude / 2 ^ format.fractionBits
  let fraction := magnitude % 2 ^ format.fractionBits
  if format.infinity < magnitude then .nan
  else if magnitude = format.infinity then .infinite (format.isNegative bits)
  else if field = 0 then .finite (format.isNegative bits) fraction format.leastExponent
  else .finite (format.isNegative bits) (2 ^ format.fractionBits + fraction)
    (format.leastExponent + (field - 1 : Nat))

/-- Orders all values that are numbers as they lie on the line; both zeros have the same place. -/
def place (bits : Nat) : Int :=
  if format.isNegative bits then -(format.magnitude bits : Int) else format.magnitude bits

/-- The order of the values. NaN is not comparable, not even with itself. -/
def compare (a b : Nat) : Option Ordering :=
  if format.isNaN a || format.isNaN b then none else some (Ord.compare (format.place a) (format.place b))

end FloatFormat

end Columnar
