import Columnar.Arithmetic

namespace Columnar

/-- The integer widths a column can store. All are signed except `unsigned`. -/
inductive IntKind where
  | tiny | small | int | unsigned | big | large
  deriving DecidableEq, Repr

/-- The two binary floating point widths a column can store. -/
inductive FloatKind where
  | single | double
  deriving DecidableEq, Repr

/-- The byte-string types with a value codec. Only `char` has a declared length. -/
inductive TextKind where
  | char | varchar | string
  deriving DecidableEq, Repr

/-- Logical type of a column. Sketches and objects are stored by a format of their own. -/
inductive ColumnType where
  | boolean
  | integer (kind : IntKind)
  | float (kind : FloatKind)
  | decimal
  | date
  | datetime
  | text (kind : TextKind)
  | array
  | sketch
  | object
  deriving DecidableEq, Repr

namespace IntKind

def width : IntKind → Nat
  | tiny => 1
  | small => 2
  | int | unsigned => 4
  | big => 8
  | large => 16

def least (kind : IntKind) : Int :=
  match kind with
  | unsigned => 0
  | _ => -(2 ^ (8 * kind.width - 1))

def greatest (kind : IntKind) : Int :=
  match kind with
  | unsigned => 2 ^ (8 * kind.width) - 1
  | _ => 2 ^ (8 * kind.width - 1) - 1

def Fits (kind : IntKind) (v : Int) : Prop := kind.least ≤ v ∧ v ≤ kind.greatest

instance (kind : IntKind) (v : Int) : Decidable (kind.Fits v) := inferInstanceAs (Decidable (_ ∧ _))

def name : IntKind → String
  | tiny => "tinyint"
  | small => "smallint"
  | int => "int"
  | unsigned => "unsignedint"
  | big => "bigint"
  | large => "largeint"

end IntKind

namespace FloatKind

def width : FloatKind → Nat
  | single => 4
  | double => 8

def name : FloatKind → String
  | single => "float"
  | double => "double"

end FloatKind

def TextKind.name : TextKind → String
  | char => "char"
  | varchar => "varchar"
  | string => "string"

namespace ColumnType

def all : List ColumnType :=
  [boolean, integer .tiny, integer .small, integer .int, integer .unsigned, integer .big, integer .large,
    float .single, float .double, decimal, date, datetime, text .char, text .varchar, text .string, array,
    sketch, object]

def name : ColumnType → String
  | boolean => "boolean"
  | integer kind => kind.name
  | float kind => kind.name
  | decimal => "decimal"
  | date => "date"
  | datetime => "datetime"
  | text kind => kind.name
  | array => "array"
  | sketch => "hll"
  | object => "object"

/-- Tags count from one. -/
def tag (type : ColumnType) : Nat := all.idxOf type + 1

def ofTag? : Nat → Option ColumnType
  | 0 => none
  | index + 1 => all[index]?

def ofName? (name : String) : Option ColumnType := all.find? (·.name = name)

/-- Every type except the nested ones. -/
def isScalar (type : ColumnType) : Bool := type != array

/-- Width in bytes of a stored value, where all values of the type have the same. -/
def fixedSize? : ColumnType → Option Nat
  | boolean => some 1
  | integer kind => some kind.width
  | float kind => some kind.width
  | decimal => some 16
  | date => some 4
  | datetime => some 8
  | text _ | array | sketch | object => none

def isText : ColumnType → Bool
  | text _ => true
  | _ => false

def isVarSize : ColumnType → Bool
  | text _ | sketch | object => true
  | _ => false

def hasCodec (type : ColumnType) : Bool := type.fixedSize?.isSome || type.isText

end ColumnType

end Columnar
