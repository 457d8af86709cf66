import Columnar.Error
import Columnar.Scalar.Text
import Columnar.Sink

namespace Columnar

/-- A place in a column that is not stored: all its rows have one value, and there is no end of them. -/
structure ConstantCursor where
  value : Scalar
  ordinal : Nat := 0
  deriving DecidableEq, Repr

namespace Error

def nullDefault (type : ColumnType) : Error := internal s!"NULL default for a non-nullable {type.name} column"

def arrayDefault : Error := unsupported "array columns cannot have a default value"

def noDefault (type : ColumnType) : Error := internal s!"non-nullable {type.name} column without a default value"

end Error

namespace ConstantCursor

def nullText : String := "NULL"

/-- The value a default stands for. Sketches and objects are taken as they are. -/
def valueOf (type : ColumnType) (length : Nat) (text : String) : Except Error Scalar :=
  match type with
  | .array => .error .arrayDefault
  | .sketch | .object => .ok (.bytes (Text.encodeUtf8 text.toList))
  | type => ((Scalar.parse type text length).mapError Error.ofValue).mapError
      (Error.note s!"invalid default value for {type.name} column")

/-- The column of a default. Without one all rows are null, which the column has to allow. -/
def ofDefault (default : Option String) (nullable : Bool) (type : ColumnType) (length : Nat) :
    Except Error ConstantCursor :=
  match default with
  | none => if nullable then .ok ⟨.null, 0⟩ else .error (.noDefault type)
  | some text =>
    if text = nullText then if nullable then .ok ⟨.null, 0⟩ else .error (.nullDefault type)
    else (valueOf type length text).map (⟨·, 0⟩)

def seek (ordinal : Nat) (cursor : ConstantCursor) : ConstantCursor := { cursor with ordinal }

def next {σ : Type} [Sink σ] (count : Nat) : Action (ConstantCursor × σ) RowsRead := do
  let cursor := (← get).1
  Action.onSecond (Sink.pushRepeated cursor.value count)
  Action.onFirst (set { cursor with ordinal := cursor.ordinal + count })
  return ⟨count, cursor.value.isNull && 0 < count⟩

end ConstantCursor

end Columnar
