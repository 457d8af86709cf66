import Columnar.Scalar
import Columnar.Scalar.Error

namespace Columnar.Scalar

/-- The stored form of a value; nothing is stored for null. Numbers are little-endian, datetimes are
microseconds. -/
def storage : Scalar → Bytes
  | null => []
  | boolean value => [if value then 1 else 0]
  | integer kind value => Bytes.ofInt kind.width value
  | float kind bits => Bytes.ofNat kind.width bits
  | decimal unscaled => Bytes.ofInt 16 unscaled
  | date day => Bytes.ofInt 4 day
  | datetime moment => Bytes.ofInt 8 moment.micros
  | bytes value => value

/-- Reads a value of a type from bytes of the right width; byte strings are taken as they are. -/
def ofBytes (type : ColumnType) (stored : Bytes) : Except ValueError Scalar :=
  match type with
  | .boolean => .ok (boolean (Bytes.toNat stored ≠ 0))
  | .integer .unsigned => .ok (integer .unsigned (Bytes.toNat stored))
  | .integer kind => .ok (integer kind (Bytes.toInt stored))
  | .float kind => .ok (float kind (Bytes.toNat stored))
  | .decimal => .ok (decimal (Bytes.toInt stored))
  | .date =>
    let day := Bytes.toInt stored
    if Calendar.inRange day then .ok (date day) else .error (.dateOutOfRange day)
  | .datetime =>
    match Moment.ofMicros? (Bytes.toInt stored) with
    | some moment => .ok (datetime moment)
    | none => .error (.datetimeOutOfRange (Bytes.toInt stored))
  | .text _ => .ok (bytes stored)
  | .array | .sketch | .object => .error (.noScalarStorage type)

def ofStorage (type : ColumnType) (stored : Bytes) : Except ValueError Scalar :=
  match type.fixedSize? with
  | some size => if stored.length = size then ofBytes type stored else .error (.wrongWidth type size stored.length)
  | none => ofBytes type stored

end Columnar.Scalar
