import Columnar.FloatFormat
import Columnar.Text.Numeral

namespace Columnar.FloatFormat

open Text

/-- Compares `a * 10 ^ i` with `n * 2 ^ j`. -/
def compareScaled (a : Nat) (i : Int) (n : Nat) (j : Int) : Ordering :=
  Ord.compare (a * 10 ^ i.toNat * 2 ^ (-j).toNat) (n * 2 ^ j.toNat * 10 ^ (-i).toNat)

/-- Whether a decimal lies among the reals that round to `significand * 2 ^ exponent`. The bounds are halfway to the
neighbours and belong to the value when its significand is even; below a power of two the neighbour is half as
far. -/
def readsBack (significand : Nat) (exponent : Int) (narrowBelow : Bool) (digits : Nat) (scale : Int) : Bool :=
  let lower := compareScaled digits scale (4 * significand - if narrowBelow then 1 else 2) (exponent - 2)
  let upper := compareScaled digits scale (4 * significand + 2) (exponent - 2)
  let closed := significand % 2 = 0
  (lower = .gt || closed && lower = .eq) && (upper = .lt || closed && upper = .eq)

/-- The decimal of `count` digits that reads back and lies nearest; of two equally near ones the greater. The value
lies below `10 ^ top`. -/
def nearestDecimal? (significand : Nat) (exponent : Int) (narrowBelow : Bool) (top : Int) (count : Nat) :
    Option (Nat × Int) :=
  let scale := top - count
  let below := significand * 2 ^ exponent.toNat * 10 ^ (-scale).toNat / (10 ^ scale.toNat * 2 ^ (-exponent).toNat)
  let fits := fun digits => readsBack significand exponent narrowBelow digits scale
  match fits below, fits (below + 1) with
  | true, true =>
    if compareScaled (2 * below + 1) scale (2 * significand) exponent = .gt then some (below, scale)
    else some (below + 1, scale)
  | true, false => some (below, scale)
  | false, true => some (below + 1, scale)
  | false, false => none

/-- The least power of ten above a value, searched upwards from an estimate that is not too high. -/
def decimalTop (significand : Nat) (exponent : Int) : Int :=
  let estimate := (((significand.log2 : Int) + exponent) * 30103 - 100000).fdiv 100000
  match [estimate, estimate + 1, estimate + 2].find? fun top => compareScaled 1 top significand exponent = .gt with
  | some top => top
  | none => estimate + 3

/-- The fewest digits that read back to a positive value, and the power of ten of their last one. Seventeen digits
serve for the widest format; the exact value stands behind them. -/
def shortestDigits (significand : Nat) (exponent : Int) (narrowBelow : Bool) : Nat × Int :=
  let top := decimalTop significand exponent
  match (List.range' 1 17).findSome? (nearestDecimal? significand exponent narrowBelow top) with
  | some found => found
  | none => (significand * 2 ^ exponent.toNat * 5 ^ (-exponent).toNat, min exponent 0)

/-- Writes `digits * 10 ^ scale` without an exponent and without zeros after the last digit of the fraction. -/
def positional (number : Nat) (scale : Int) : List Char :=
  if 0 ≤ scale then digits (number * 10 ^ scale.toNat)
  else
    let places := scale.natAbs
    let whole := digits (number / 10 ^ places)
    let fraction := (paddedDigits places (number % 10 ^ places)).reverse.dropWhile (· = '0') |>.reverse
    if fraction.isEmpty then whole else whole ++ '.' :: fraction

/-- The text of a value: the fewest digits that identify it, never an exponent. Minus zero keeps its sign. -/
def print (format : FloatFormat) (bits : Nat) : List Char :=
  let magnitude := format.magnitude bits
  let narrowBelow := magnitude % 2 ^ format.fractionBits = 0 && 2 ^ format.fractionBits < magnitude
  match format.decode bits with
  | .nan => "NaN".toList
  | .infinite negative => (if negative then ['-'] else []) ++ "inf".toList
  | .finite negative significand exponent =>
    let text := if significand = 0 then ['0'] else
      let (number, scale) := shortestDigits significand exponent narrowBelow
      positional number scale
    (if negative then ['-'] else []) ++ text

end Columnar.FloatFormat
