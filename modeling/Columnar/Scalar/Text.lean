import Columnar.Calendar.Pattern
import Columnar.FloatFormat.Literal
import Columnar.FloatFormat.Shortest
import Columnar.Scalar
import Columnar.Scalar.Decimal
import Columnar.Scalar.Error
import Columnar.Text.Utf8

namespace Columnar.Scalar

open Text

def parseBoolean? (text : List Char) : Option Bool :=
  if ["1", "true", "TRUE", "True"].any (·.toList = text) then some true
  else if ["0", "false", "FALSE", "False"].any (·.toList = text) then some false
  else none

/-- A number the width can hold; only signed kinds take a minus sign. -/
def parseInteger? (kind : IntKind) (text : List Char) : Option Int :=
  (if kind = .unsigned then parseUnsigned? text else parseInt? text).filter fun v => kind.Fits v

/-- Cuts a byte string to a length, or fills it up with zeros. -/
def resize (length : Nat) (bytes : Bytes) : Bytes :=
  bytes.take length ++ List.replicate (length - bytes.length) 0

/-- The value a text stands for. Byte strings are taken as they are, of every other type white space around the text
is dropped. A declared length, where it is not zero, is the length of every `char` value. -/
def parse (type : ColumnType) (text : String) (length : Nat) : Except ValueError Scalar :=
  let trimmed := trim text.toList
  let checked := fun (found : Option Scalar) =>
    match found with
    | some value => Except.ok value
    | none => .error (.invalidLiteral type text)
  match type with
  | .boolean => checked ((parseBoolean? trimmed).map boolean)
  | .integer kind => checked ((parseInteger? kind trimmed).map (integer kind))
  | .float kind => checked ((kind.format.parse? trimmed).map (float kind))
  | .decimal => checked ((Decimal.parse? trimmed).map decimal)
  | .date => checked ((Calendar.parseDate? trimmed).map date)
  | .datetime => checked ((Calendar.parseMoment? trimmed).map datetime)
  | .text .char =>
    let encoded := encodeUtf8 text.toList
    .ok (bytes (if length = 0 then encoded else resize length encoded))
  | .text _ => .ok (bytes (encodeUtf8 text.toList))
  | .array | .sketch | .object => .error (.noTextualForm type)

def print : Scalar → String
  | null => "NULL"
  | boolean value => if value then "true" else "false"
  | integer _ value => String.ofList (signedDigits value)
  | float kind bits => String.ofList (kind.format.print bits)
  | decimal unscaled => String.ofList (Decimal.print unscaled)
  | date day => String.ofList (Calendar.printDate day)
  | datetime moment => String.ofList (Calendar.printMoment moment)
  | bytes value => String.ofList (decodeUtf8Lossy value)

end Columnar.Scalar
