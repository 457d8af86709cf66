import Columnar.Sink.Buffers

/-! Rows as they are laid out: the bytes of all rows in one piece, and beside it a flag for each row where there may
be nulls. -/

namespace Columnar

/-- Values of one width, one behind the other. The slot of a null holds zeros, so that the values behind it stay in
place. -/
structure PackedColumn where
  type : ColumnType
  width : Nat
  bytes : Bytes := []
  nulls : Option (List Bool)
  deriving DecidableEq, Repr

/-- Byte strings, one behind the other. -/
structure FencedColumn where
  type : ColumnType
  bytes : Bytes := []
  /-- The places in front of all rows and behind each of them. -/
  fences : List Nat := [0]
  nulls : Option (List Bool)
  deriving DecidableEq, Repr

/-- A sink whose rows can be read back. -/
class Column (σ : Type) extends Sink σ where
  isNull (column : σ) (row : Nat) : Bool
  value (column : σ) (row : Nat) : Except Error Scalar
  clear (column : σ) : σ

instance : Column FixedBuffer where
  isNull := FixedBuffer.isNull
  value := FixedBuffer.value
  clear := FixedBuffer.clear

instance : Column BytesBuffer where
  isNull := BytesBuffer.isNull
  value := BytesBuffer.value
  clear := BytesBuffer.clear

/-- No flags yet, if there may be nulls. -/
def noFlags (nullable : Bool) : Option (List Bool) := if nullable then some [] else none

namespace PackedColumn

def create (type : ColumnType) (nullable : Bool) : Except Error PackedColumn :=
  match type.fixedSize? with
  | some width => .ok { type, width, nulls := noFlags nullable }
  | none => .error (.noFixedWidth type)

def length (column : PackedColumn) : Nat := column.bytes.length / column.width

/-- The stored bytes of a row; zeros stand for null. -/
def raw (column : PackedColumn) (row : Nat) : Bytes := (column.bytes.drop (row * column.width)).take column.width

def isNull (column : PackedColumn) (row : Nat) : Bool := column.nulls.any fun flags => flags.getD row false

def value (column : PackedColumn) (row : Nat) : Except Error Scalar :=
  if column.length ≤ row then .error (.noSuchRow row column.length)
  else if column.isNull row then .ok .null
  else (Scalar.ofStorage column.type (column.raw row)).mapError Error.ofValue

/-- Appends so many values that are not null. -/
def append (values : Bytes) (count : Nat) (column : PackedColumn) : PackedColumn :=
  { column with bytes := column.bytes ++ values, nulls := column.nulls.map (· ++ List.replicate count false) }

def pushFixed (values : Bytes) (count : Nat) : Action PackedColumn Unit := do
  let column ← get
  let size := Bytes.sizeFor column.width count values
  if values.length < size then throw (.shortValues size count column.type values.length)
  if column.nulls.isSome ∧ values.length < count * column.width then throw .outOfStorage
  modify (append (values.take size) count)

def pushBytes (value : Bytes) : Action PackedColumn Unit := do
  let column ← get
  if value.length ≠ column.width then throw (.bytesIntoColumn value.length column.type)
  pushFixed value 1

def pushNulls (count : Nat) : Action PackedColumn Unit := do
  let column ← get
  match column.nulls with
  | none => throw (.nullsIntoColumn count column.type)
  | some flags =>
    match Room.cut flags.length count with
    | some kept =>
      set { column with nulls := some (flags.take kept), bytes := column.bytes.take (kept * column.width) }
    | none =>
      set { column with
        nulls := some (flags ++ List.replicate count true)
        bytes := column.bytes ++ List.replicate (count * column.width) 0 }

def pushRepeated (value : Scalar) (count : Nat) : Action PackedColumn Unit := do
  let column ← get
  if value.isNull then pushNulls count
  else if value.storage.length ≠ column.width then throw (.valueDoesNotFit value column.type)
  else modify (append (List.replicate count value.storage).flatten count)

def clear (column : PackedColumn) : PackedColumn :=
  { column with bytes := [], nulls := column.nulls.map fun _ => [] }

instance : Column PackedColumn where
  length := length
  pushFixed := pushFixed
  pushBytes := pushBytes
  pushNulls := pushNulls
  pushRepeated := pushRepeated
  isNull := isNull
  value := value
  clear := clear

end PackedColumn

namespace FencedColumn

def create (type : ColumnType) (nullable : Bool) : FencedColumn := { type, nulls := noFlags nullable }

def length (column : FencedColumn) : Nat := column.fences.length - 1

def fence (column : FencedColumn) (row : Nat) : Nat := column.fences.getD row 0

/-- The bytes of a row; a null row has none. -/
def raw (column : FencedColumn) (row : Nat) : Bytes :=
  (column.bytes.drop (column.fence row)).take (column.fence (row + 1) - column.fence row)

def isNull (column : FencedColumn) (row : Nat) : Bool := column.nulls.any fun flags => flags.getD row false

def value (column : FencedColumn) (row : Nat) : Except Error Scalar :=
  if column.length ≤ row then .error (.noSuchRow row column.length)
  else if column.isNull row then .ok .null
  else .ok (.bytes (column.raw row))

/-- Appends a byte string. -/
def append (value : Bytes) (column : FencedColumn) : FencedColumn :=
  { column with
    bytes := column.bytes ++ value
    fences := column.fences ++ [(column.bytes ++ value).length]
    nulls := column.nulls.map (· ++ [false]) }

def appendEach (value : Bytes) : Nat → FencedColumn → FencedColumn
  | 0, column => column
  | count + 1, column => appendEach value count (column.append value)

def pushFixed (_ : Bytes) (count : Nat) : Action FencedColumn Unit := do
  throw (.fixedIntoColumn count (← get).type)

def pushNulls (count : Nat) : Action FencedColumn Unit := do
  let column ← get
  match column.nulls with
  | none => throw (.nullsIntoColumn count column.type)
  | some flags =>
    match Room.cut flags.length count with
    -- the bytes of the rows that are gone stay, in front of those of the next row
    | some kept => set { column with nulls := some (flags.take kept), fences := column.fences.take (kept + 1) }
    | none =>
      set { column with
        nulls := some (flags ++ List.replicate count true)
        fences := column.fences ++ List.replicate count column.bytes.length }

def pushRepeated (value : Scalar) (count : Nat) : Action FencedColumn Unit := do
  match value with
  | .null => pushNulls count
  | .bytes bytes => modify (appendEach bytes count)
  | other => throw (.valueDoesNotFit other (← get).type)

def clear (column : FencedColumn) : FencedColumn :=
  { column with bytes := [], fences := column.fences.take 1, nulls := column.nulls.map fun _ => [] }

instance : Column FencedColumn where
  length := length
  pushFixed := pushFixed
  pushBytes value := modify (append value)
  pushNulls := pushNulls
  pushRepeated := pushRepeated
  isNull := isNull
  value := value
  clear := clear

end FencedColumn

end Columnar
