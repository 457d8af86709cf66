import Columnar.Cursor
import Columnar.Scalar.Storage
import Columnar.Scalar.Text
import Columnar.Sink
import Columnar.Sink.Room

namespace Columnar

/-- Rows of values of one width. A row is its stored bytes, or nothing where it is null. -/
structure FixedBuffer where
  type : ColumnType
  width : Nat
  nullable : Bool
  rows : List (Option Bytes) := []
  /-- The number of bytes that fit into the storage. -/
  room : Nat := 0
  deriving DecidableEq, Repr

/-- Rows of byte strings. Bytes that no row has are not kept, as `FencedColumn` keeps them where rows are cut off. -/
structure BytesBuffer where
  type : ColumnType
  nullable : Bool
  rows : List (Option Bytes) := []
  /-- The number of places between rows that fit into the storage, those at both ends included. -/
  room : Nat := 1
  deriving DecidableEq, Repr

/-- Lengths of arrays as they come in, and the places where the arrays start and end that they are turned into. The
first entry is the place before all rows. -/
structure OffsetBuffer where
  type : ColumnType
  fences : List Nat := [0]
  /-- The number of entries that fit into the storage. -/
  room : Nat := 1
  deriving DecidableEq, Repr

namespace Error

def noFixedWidth (type : ColumnType) : Error := unsupported s!"{type.name} values have no fixed width"

def shortValues (needed count : Nat) (type : ColumnType) (found : Nat) : Error :=
  corruption s!"expected {needed} bytes for {count} {type.name} values, got {found}"

def bytesIntoColumn (size : Nat) (type : ColumnType) : Error :=
  internal s!"binary value of {size} bytes pushed into {type.name} column"

def nullsIntoColumn (count : Nat) (type : ColumnType) : Error :=
  internal s!"{count} nulls pushed into a non-nullable {type.name} column"

def valueDoesNotFit (value : Scalar) (type : ColumnType) : Error :=
  internal s!"value {value.print} does not fit a {type.name} column"

def noSuchRow (row rows : Nat) : Error := internal s!"row {row} out of {rows} rows"

def fixedIntoColumn (count : Nat) (type : ColumnType) : Error :=
  internal s!"{count} fixed width values pushed into a {type.name} column"

def lengthsType (type : ColumnType) : Error := corruption s!"array lengths cannot be stored as {type.name}"

def shortLengths (needed count found : Nat) : Error :=
  corruption s!"expected {needed} bytes for {count} array lengths, got {found}"

def negativeLength : Error := corruption "negative array length"

def bytesIntoLengths (size : Nat) : Error := internal s!"binary value of {size} bytes pushed into array lengths"

def nullLengths (count : Nat) : Error := internal s!"array lengths reported {count} nulls"

def missingLengths (row rows : Nat) : Error :=
  internal s!"cannot convert lengths up to row {row}, only {rows} rows present"

end Error

namespace Bytes

def pieces (width : Nat) : Nat → Bytes → List Bytes
  | 0, _ => []
  | count + 1, values => values.take width :: pieces width count (values.drop width)

/-- The number of bytes that so many values are said to have. It has 64 bits, so that the size of values that are
not there may come out smaller. -/
def sizeFor (width count : Nat) (values : Bytes) : Nat :=
  if count * width ≤ values.length then count * width else count * width % 2 ^ 64

/-- The number of values in so many bytes as they are said to have. -/
def countFor (width count : Nat) (values : Bytes) : Nat :=
  if count * width ≤ values.length then count else count * width % 2 ^ 64 / width

theorem sizeFor_of_le {width count : Nat} {values : Bytes} (enough : count * width ≤ values.length) :
    sizeFor width count values = count * width := if_pos enough

theorem sizeFor_of_lt {width count : Nat} (few : count * width < 2 ^ 64) (values : Bytes) :
    sizeFor width count values = count * width := by
  unfold sizeFor
  split
  · rfl
  · exact Nat.mod_eq_of_lt few

theorem countFor_of_le {width count : Nat} {values : Bytes} (enough : count * width ≤ values.length) :
    countFor width count values = count := if_pos enough

end Bytes

namespace FixedBuffer

def create (type : ColumnType) (nullable : Bool) : Except Error FixedBuffer :=
  match type.fixedSize? with
  | some width => .ok { type, width, nullable }
  | none => .error (.noFixedWidth type)

def reserve (more : Nat) (buffer : FixedBuffer) : FixedBuffer :=
  { buffer with
    room := Room.grow Room.leastBytes buffer.room (buffer.width * buffer.rows.length)
      (buffer.width * more % 2 ^ 64) }

def capacity (buffer : FixedBuffer) : Nat := buffer.room / buffer.width

def append (rows : List (Option Bytes)) : Action FixedBuffer Unit :=
  modify fun buffer => { buffer.reserve rows.length with rows := buffer.rows ++ rows }

def pushFixed (values : Bytes) (count : Nat) : Action FixedBuffer Unit := do
  let buffer ← get
  let size := Bytes.sizeFor buffer.width count values
  if values.length < size then throw (.shortValues size count buffer.type values.length)
  -- there is a flag for each of the values, also for those that are not there
  if buffer.nullable ∧ values.length < count * buffer.width then throw .outOfStorage
  append ((Bytes.pieces buffer.width (Bytes.countFor buffer.width count values) values).map some)

def pushBytes (value : Bytes) : Action FixedBuffer Unit := do
  let buffer ← get
  if value.length ≠ buffer.width then throw (.bytesIntoColumn value.length buffer.type)
  append [some value]

def pushNulls (count : Nat) : Action FixedBuffer Unit := do
  let buffer ← get
  if !buffer.nullable then throw (.nullsIntoColumn count buffer.type)
  match Room.cut buffer.rows.length count with
  | some kept => set { buffer with rows := buffer.rows.take kept }
  | none => append (List.replicate count none)

def pushRepeated (value : Scalar) (count : Nat) : Action FixedBuffer Unit := do
  let buffer ← get
  if value.isNull then pushNulls count
  else if value.storage.length ≠ buffer.width then throw (.valueDoesNotFit value buffer.type)
  else append (List.replicate count (some value.storage))

instance : Sink FixedBuffer where
  length buffer := buffer.rows.length
  pushFixed := pushFixed
  pushBytes := pushBytes
  pushNulls := pushNulls
  pushRepeated := pushRepeated

def isNull (buffer : FixedBuffer) (row : Nat) : Bool := buffer.rows[row]? = some none

/-- The stored bytes of a row; zeros stand for null. -/
def stored (buffer : FixedBuffer) (row : Nat) : Bytes :=
  (buffer.rows[row]?.join).getD (List.replicate buffer.width 0)

def nullCount (buffer : FixedBuffer) : Nat := buffer.rows.countP Option.isNone

def value (buffer : FixedBuffer) (row : Nat) : Except Error Scalar :=
  match buffer.rows[row]? with
  | none => .error (.noSuchRow row buffer.rows.length)
  | some none => .ok .null
  | some (some bytes) => (Scalar.ofStorage buffer.type bytes).mapError Error.ofValue

def clear (buffer : FixedBuffer) : FixedBuffer := { buffer with rows := [] }

end FixedBuffer

namespace BytesBuffer

def reserve (more : Nat) (buffer : BytesBuffer) : BytesBuffer :=
  { buffer with room := Room.grow Room.leastPlaces buffer.room (buffer.rows.length + 1) more }

def capacity (buffer : BytesBuffer) : Nat := buffer.room - 1

/-- Appends a byte string so many times, each time by itself. -/
def append (value : Bytes) (count : Nat) : Action BytesBuffer Unit :=
  modify fun buffer => { buffer with
    rows := buffer.rows ++ List.replicate count (some value)
    room := Room.growEach Room.leastPlaces buffer.room (buffer.rows.length + 1) count }

def pushFixed (_ : Bytes) (count : Nat) : Action BytesBuffer Unit := do
  throw (.fixedIntoColumn count (← get).type)

def pushNulls (count : Nat) : Action BytesBuffer Unit := do
  let buffer ← get
  if !buffer.nullable then throw (.nullsIntoColumn count buffer.type)
  match Room.cut buffer.rows.length count with
  | some kept => set { buffer with rows := buffer.rows.take kept }
  | none => set { buffer.reserve count with rows := buffer.rows ++ List.replicate count none }

def pushRepeated (value : Scalar) (count : Nat) : Action BytesBuffer Unit := do
  match value with
  | .null => pushNulls count
  | .bytes bytes => append bytes count
  | other => throw (.valueDoesNotFit other (← get).type)

instance : Sink BytesBuffer where
  length buffer := buffer.rows.length
  pushFixed := pushFixed
  pushBytes value := append value 1
  pushNulls := pushNulls
  pushRepeated := pushRepeated

def isNull (buffer : BytesBuffer) (row : Nat) : Bool := buffer.rows[row]? = some none

/-- The bytes of a row; a null row has none. -/
def stored (buffer : BytesBuffer) (row : Nat) : Bytes := (buffer.rows[row]?.join).getD []

def dataSize (buffer : BytesBuffer) : Nat := total (buffer.rows.map fun row => (row.getD []).length)

def value (buffer : BytesBuffer) (row : Nat) : Except Error Scalar :=
  match buffer.rows[row]? with
  | none => .error (.noSuchRow row buffer.rows.length)
  | some none => .ok .null
  | some (some bytes) => .ok (.bytes bytes)

def clear (buffer : BytesBuffer) : BytesBuffer := { buffer with rows := [] }

end BytesBuffer

namespace OffsetBuffer

/-- Lengths are integers of four or eight bytes. -/
def create (type : ColumnType) : Except Error OffsetBuffer :=
  if type = .integer .int ∨ type = .integer .unsigned ∨ type = .integer .big then .ok { type }
  else .error (.lengthsType type)

def width (buffer : OffsetBuffer) : Nat := if buffer.type = .integer .big then 8 else 4

def rows (buffer : OffsetBuffer) : Nat := buffer.fences.length - 1

def fence (buffer : OffsetBuffer) (row : Nat) : Nat := buffer.fences.getD row 0

def reserve (more : Nat) (buffer : OffsetBuffer) : OffsetBuffer :=
  { buffer with room := Room.grow Room.leastPlaces buffer.room buffer.fences.length more }

def capacity (buffer : OffsetBuffer) : Nat := buffer.room - 1

/-- Appends lengths one by one. -/
def append (lengths : List Nat) : Action OffsetBuffer Unit :=
  modify fun buffer => { buffer with
    fences := buffer.fences ++ lengths
    room := Room.growEach Room.leastPlaces buffer.room buffer.fences.length lengths.length }

/-- Appends rows without items that end where the rows before them end. -/
def appendEmpty (count : Nat) (buffer : OffsetBuffer) : OffsetBuffer :=
  { buffer.reserve count with fences := buffer.fences ++ List.replicate count (buffer.fence buffer.rows) }

def lengthOf (type : ColumnType) (stored : Bytes) : Int :=
  if type = .integer .unsigned then Bytes.toNat stored else Bytes.toInt stored

/-- The lengths in front of a negative one stay, although it fails. -/
def pushFixed (values : Bytes) (count : Nat) : Action OffsetBuffer Unit := do
  let buffer ← get
  let size := Bytes.sizeFor buffer.width count values
  if values.length < size then throw (.shortLengths size count values.length)
  let there := min count (values.length / buffer.width)
  let lengths := (Bytes.pieces buffer.width there values).map (lengthOf buffer.type)
  append ((lengths.takeWhile (0 ≤ ·)).map Int.toNat)
  if lengths.any (· < 0) then throw .negativeLength

def pushNulls (count : Nat) : Action OffsetBuffer Unit := throw (.nullLengths count)

def pushSame (stored : Bytes) : Nat → Action OffsetBuffer Unit
  | 0 => pure ()
  | count + 1 => do
    pushFixed stored 1
    pushSame stored count

def pushRepeated (value : Scalar) (count : Nat) : Action OffsetBuffer Unit :=
  if value.isNull then pushNulls count else pushSame value.storage count

instance : Sink OffsetBuffer where
  length := rows
  pushFixed := pushFixed
  pushBytes value := throw (.bytesIntoLengths value.length)
  pushNulls := pushNulls
  pushRepeated := pushRepeated

/-- The sums of sizes so far. They are cut to 64 bits as soon as it is known how many items there are. -/
def runningSums (sum : Nat) : List Nat → List Nat
  | [] => []
  | n :: rest => (sum + n) :: runningSums (sum + n) rest

/-- Turns the lengths of some rows into the places where the rows end. Until the items of the rows are there the
places are the full sums. -/
def convertLengths (start count : Nat) : Action OffsetBuffer Unit := do
  let buffer ← get
  if buffer.rows < start + count then throw (.missingLengths (start + count) buffer.rows)
  let before := buffer.fences.take (start + 1)
  let lengths := (buffer.fences.drop (start + 1)).take count
  set { buffer with
    fences := before ++ runningSums (buffer.fence start) lengths ++ buffer.fences.drop (start + 1 + count) }

/-- A place among so many items has 64 bits. That of an item that is there always fits them, so among items that 64
bits can count the places are the sums that wrap there. -/
def settled (items fence : Nat) : Nat := if fence ≤ items then fence else fence % 2 ^ 64

def settle (items : Nat) (buffer : OffsetBuffer) : OffsetBuffer :=
  { buffer with fences := buffer.fences.map (settled items) }

def clear (buffer : OffsetBuffer) : OffsetBuffer := { buffer with fences := buffer.fences.take 1 }

end OffsetBuffer

end Columnar
