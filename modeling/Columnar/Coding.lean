import Columnar.ColumnMeta
import Columnar.Error

namespace Columnar

/-- A layout of page values that fits the type of their column. -/
inductive Coding where
  /-- Values of one width, one after the other. -/
  | packed (width : Nat)
  /-- Byte strings behind their lengths. -/
  | strings
  /-- Booleans as runs of single bits. -/
  | bits
  /-- Words of the dictionary of the column, unless the page falls back to strings. -/
  | words
  deriving DecidableEq, Repr

namespace Error

def noCodec (type : ColumnType) : Error := unsupported s!"no codec for {type.name} columns"

def wrongEncoding (encoding : Encoding) (type : ColumnType) : Error :=
  unsupported s!"{encoding.title} encoding is not supported for {type.name} columns"

end Error

namespace Encoding

/-- Booleans are runs, texts come from a dictionary and all else is plain, where metadata names no encoding. -/
def forType (type : ColumnType) : Encoding → Encoding
  | default => if type = .boolean then rle else if type.isText then dict else plain
  | other => other

end Encoding

namespace Coding

/-- The layout of a column with a type and an encoding, where the two fit. -/
def resolve (type : ColumnType) (encoding : Encoding) : Except Error Coding :=
  if !type.hasCodec then .error (.noCodec type)
  else match encoding.forType type with
    | .plain => .ok (type.fixedSize?.elim strings packed)
    | .rle => if type = .boolean then .ok bits else .error (.wrongEncoding .rle type)
    | .dict => if type.isText then .ok words else .error (.wrongEncoding .dict type)
    | other => .error (.wrongEncoding other type)

def encoding : Coding → Encoding
  | packed _ | strings => .plain
  | bits => .rle
  | words => .dict

end Coding

end Columnar
