import Columnar.ColumnMeta
import Columnar.Cursor
import Columnar.Scalar.Text

namespace Columnar

def Error.boundNotText (number : Nat) : Error := corruption s!"zone map {number} bound is not valid utf8"

namespace ZoneMap

def readBound (type : ColumnType) (length : Nat) (name text : String) : Except Error Scalar :=
  ((Scalar.parse type text length).mapError Error.ofValue).mapError (Error.note s!"zone map {name}")

/-- The least and the greatest value of the summarised rows. Null is the least value, and if all rows are null it is
also the greatest. -/
def bounds (zone : ZoneMap) (type : ColumnType) (length : Nat) : Except Error (Scalar × Scalar) := do
  let min ← if zone.hasNull then pure .null else readBound type length "min" zone.min
  let max ← if zone.hasNull && !zone.hasValue then pure .null else readBound type length "max" zone.max
  return (min, max)

/-- The text of a bound behind its length. -/
def readText (number : Nat) : Read String := do
  match Text.decodeUtf8? (← Read.prefixed) with
  | some text => return String.ofList text
  | none => throw (.boundNotText number)

/-- A zone map in an index page: three flags in a byte, then both bounds. -/
def read (number : Nat) : Read ZoneMap := do
  let flags ← Read.natural 1
  let min ← readText number
  let max ← readText number
  return { min, max, hasNull := flags.testBit 0, hasValue := flags.testBit 1, passAll := flags.testBit 2 }

def readFrom (number : Nat) : Nat → Read (List ZoneMap)
  | 0 => pure []
  | count + 1 => do
    let first ← read number
    return first :: (← readFrom (number + 1) count)

def ofBody (body : Bytes) (count : Nat) : Except Error (List ZoneMap) :=
  (Read.start (readFrom 0 count) body).map (·.1)

end ZoneMap

end Columnar
