import Columnar.Action
import Columnar.Bytes
import Columnar.Scalar

namespace Columnar

/-- How many rows a read appended, and whether there is a null among them. -/
structure RowsRead where
  rows : Nat := 0
  hasNull : Bool := false
  deriving DecidableEq, Repr

def RowsRead.join (first second : RowsRead) : RowsRead :=
  ⟨first.rows + second.rows, first.hasNull || second.hasNull⟩

/-- A place that values are read into. -/
class Sink (σ : Type) where
  /-- Number of rows. -/
  length : σ → Nat
  /-- Appends so many values of one width, packed. -/
  pushFixed (values : Bytes) (count : Nat) : Action σ Unit
  /-- Appends one byte string. -/
  pushBytes (value : Bytes) : Action σ Unit
  pushNulls (count : Nat) : Action σ Unit
  /-- Appends a value so many times. -/
  pushRepeated (value : Scalar) (count : Nat) : Action σ Unit

def Sink.pushAll {σ : Type} [Sink σ] : List Bytes → Action σ Unit
  | [] => pure ()
  | value :: rest => do
    pushBytes value
    pushAll rest

end Columnar
