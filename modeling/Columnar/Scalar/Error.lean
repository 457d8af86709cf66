import Columnar.ColumnType
import Columnar.Text.Quoted

namespace Columnar

inductive ValueErrorKind where
  | invalidColumnType | invalidValue
  deriving DecidableEq, Repr

/-- A column type or a value that cannot be interpreted. -/
structure ValueError where
  kind : ValueErrorKind
  text : String
  deriving DecidableEq, Repr

namespace ValueError

def unknownTag (tag : Nat) : ValueError := ⟨.invalidColumnType, s!"unknown column type tag: {tag}"⟩

def invalidLiteral (type : ColumnType) (text : String) : ValueError :=
  ⟨.invalidValue, s!"invalid {type.name} literal: {Text.quoted text}"⟩

def noTextualForm (type : ColumnType) : ValueError :=
  ⟨.invalidColumnType, s!"no textual form for {type.name} values"⟩

def wrongWidth (type : ColumnType) (expected actual : Nat) : ValueError :=
  ⟨.invalidValue, s!"expected {expected} bytes for a {type.name} value, got {actual}"⟩

def dateOutOfRange (days : Int) : ValueError := ⟨.invalidValue, s!"date out of range: {days} days"⟩

def datetimeOutOfRange (micros : Int) : ValueError := ⟨.invalidValue, s!"datetime out of range: {micros} us"⟩

def noScalarStorage (type : ColumnType) : ValueError :=
  ⟨.invalidColumnType, s!"no scalar storage for {type.name} values"⟩

end ValueError

def ColumnType.ofTag (tag : Nat) : Except ValueError ColumnType :=
  match ColumnType.ofTag? tag with
  | some type => .ok type
  | none => .error (.unknownTag tag)

end Columnar
