import Columnar.FloatFormat.Rounding
import Columnar.Text.Numeral

namespace Columnar.FloatFormat

open Text

/-- A finite value that is not negative, with so many digits behind the point. The exact value is rounded, and a tie
goes to the even digit. -/
def printFixed (format : FloatFormat) (places bits : Nat) : List Char :=
  match format.decode bits with
  | .finite _ significand exponent =>
    let scaled := roundDiv (significand * 2 ^ exponent.toNat * 10 ^ places) (2 ^ (-exponent).toNat)
    digits (scaled / 10 ^ places) ++ '.' :: paddedDigits places (scaled % 10 ^ places)
  | .infinite _ => "inf".toList
  | .nan => "NaN".toList

end Columnar.FloatFormat
