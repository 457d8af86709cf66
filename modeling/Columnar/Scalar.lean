import Columnar.Bytes
import Columnar.Calendar
import Columnar.ColumnType
import Columnar.FloatFormat

namespace Columnar

def FloatKind.format : FloatKind → FloatFormat
  | .single => .single
  | .double => .double

/-- One value of a column, of a zone map bound or of a predicate operand. Floats are kept as their bits, decimals as
multiples of 10⁻⁹, dates as days since 1970-01-01. -/
inductive Scalar where
  | null
  | boolean (value : Bool)
  | integer (kind : IntKind) (value : Int)
  | float (kind : FloatKind) (bits : Nat)
  | decimal (unscaled : Int)
  | date (day : Int)
  | datetime (moment : Moment)
  | bytes (value : Bytes)
  deriving DecidableEq, Repr

namespace Scalar

/-- The name of the type of a value, or of its kind where several types share it. -/
def kindName : Scalar → String
  | null => "null"
  | boolean _ => "boolean"
  | integer kind _ => kind.name
  | float kind _ => kind.name
  | decimal _ => "decimal"
  | date _ => "date"
  | datetime _ => "datetime"
  | bytes _ => "bytes"

def isNull : Scalar → Bool
  | null => true
  | _ => false

/-- Lexicographic order of byte strings; a proper initial piece comes first. -/
def compareBytes : Bytes → Bytes → Ordering
  | [], [] => .eq
  | [], _ :: _ => .lt
  | _ :: _, [] => .gt
  | a :: as, b :: bs => (Ord.compare a.toNat b.toNat).then (compareBytes as bs)

/-- The null value comes before every other; values of different types are not comparable, nor is a float that is
not a number. -/
def compare : Scalar → Scalar → Option Ordering
  | null, null => some .eq
  | null, _ => some .lt
  | _, null => some .gt
  | boolean a, boolean b => some (Ord.compare a.toNat b.toNat)
  | integer kind a, integer other b => if kind = other then some (Ord.compare a b) else none
  | float kind a, float other b => if kind = other then kind.format.compare a b else none
  | decimal a, decimal b => some (Ord.compare a b)
  | date a, date b => some (Ord.compare a b)
  | datetime a, datetime b => some (a.compare b)
  | bytes a, bytes b => some (compareBytes a b)
  | _, _ => none

/-- Equality of values: zeros of either sign are one value, and a float that is not a number equals nothing. -/
def eqv : Scalar → Scalar → Bool
  | float kind a, float other b => kind = other && kind.format.compare a b = some .eq
  | a, b => a = b

end Scalar

end Columnar
