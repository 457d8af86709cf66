import Columnar.FloatFormat

namespace Columnar

/-- The integer nearest to a quotient; a tie goes to the even one. -/
def roundDiv (num den : Nat) : Nat :=
  let quotient := num / den
  match Ord.compare (2 * (num % den)) den with
  | .lt => quotient
  | .gt => quotient + 1
  | .eq => if quotient % 2 = 0 then quotient else quotient + 1

/-- The exponent of the leading binary digit of a positive quotient. -/
def log2Quotient (num den : Nat) : Int :=
  let estimate : Int := (num.log2 : Int) - den.log2
  if num * 2 ^ (-estimate).toNat < den * 2 ^ estimate.toNat then estimate - 1 else estimate

namespace FloatFormat

/-- The bits of the value nearest to a non-negative quotient; a tie goes to the even pattern, and what lies beyond
the greatest value by half a step or more is infinity. A significand that rounds up to the next power of two carries
into the exponent field, since the fields are adjacent. -/
def ofQuotient (format : FloatFormat) (num den : Nat) : Nat :=
  if num = 0 then 0
  else
    let exponent := max format.leastExponent (log2Quotient num den - format.fractionBits)
    let significand := roundDiv (num * 2 ^ (-exponent).toNat) (den * 2 ^ exponent.toNat)
    min format.infinity ((exponent - format.leastExponent).toNat * 2 ^ format.fractionBits + significand)

/-- The value of the format nearest to a natural number. -/
def ofNat (format : FloatFormat) (n : Nat) : Nat := format.ofQuotient n 1

/-- The bits of the product of two finite positive values. -/
def multiply (format : FloatFormat) (a b : Nat) : Nat :=
  match format.decode a, format.decode b with
  | .finite _ m p, .finite _ n q => format.ofQuotient (m * n * 2 ^ (p + q).toNat) (2 ^ (-(p + q)).toNat)
  | _, _ => format.nan

/-- The bits of the quotient of two finite positive values. -/
def divide (format : FloatFormat) (a b : Nat) : Nat :=
  match format.decode a, format.decode b with
  | .finite _ m p, .finite _ n q => format.ofQuotient (m * 2 ^ (p - q).toNat) (n * 2 ^ (q - p).toNat)
  | _, _ => format.nan

/-- The bits of the value nearest to `digits * 10 ^ exponent`, where `count` is the number of digits. An exponent
far outside the range of the format is settled without computing the power. -/
def ofDecimal (format : FloatFormat) (digits count : Nat) (exponent : Int) : Nat :=
  let reach : Int := 2 ^ format.exponentBits + format.fractionBits
  if digits = 0 then 0
  else if reach < exponent then format.infinity
  else if exponent + count < -reach then 0
  else format.ofQuotient (digits * 10 ^ exponent.toNat) (10 ^ (-exponent).toNat)

end FloatFormat

end Columnar
