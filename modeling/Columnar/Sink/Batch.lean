import Columnar.ColumnMeta
import Columnar.Sink.Buffers

namespace Columnar

/-- The rows of an array column apart from their items: the places between the rows, the null flags of a nullable
column, and for each finished row the stretch of items that belongs to it. -/
structure ArrayRows where
  offsets : OffsetBuffer
  flags : Option FixedBuffer
  bounds : List (Nat × Nat) := []
  deriving DecidableEq, Repr

/-- Rows read from a column of any type. -/
inductive Batch where
  | fixed (buffer : FixedBuffer)
  | bytes (buffer : BytesBuffer)
  | array (rows : ArrayRows) (items : Batch)
  deriving DecidableEq, Repr

namespace Error

def arrayChildren (columnId count : Nat) : Error := corruption s!"array column {columnId} has {count} children"

def fixedIntoArray (count : Nat) : Error := internal s!"{count} scalar values pushed into an array column"

def bytesIntoArray : Error := internal "binary value pushed into an array column"

def nullsIntoArray (count : Nat) : Error := internal s!"{count} nulls pushed into a non-nullable array column"

def valueIntoArray : Error := internal "array columns have no scalar default value"

def unreadRow (row rows : Nat) : Error := internal s!"row {row} out of {rows} read rows"

def noSuchItem (item items : Nat) : Error := internal s!"item {item} out of {items}"

def arrayValue : Error := internal "array rows have no scalar value, read them through the array view"

end Error

namespace ArrayRows

def isNullable (rows : ArrayRows) : Bool := rows.flags.isSome

def isNull (rows : ArrayRows) (row : Nat) : Bool :=
  rows.flags.any fun flags => (flags.stored row).head?.any (· ≠ 0)

/-- The first item behind the rows before the given one. -/
def itemOffset (rows : ArrayRows) (row : Nat) : Nat := rows.offsets.fence row

def length (rows : ArrayRows) : Nat := rows.offsets.rows

def onOffsets {α : Type} (step : Action OffsetBuffer α) : Action ArrayRows α :=
  Action.onPart ArrayRows.offsets (fun offsets rows => { rows with offsets }) step

def onFlags {α : Type} (flags : FixedBuffer) (step : Action FixedBuffer α) : Action ArrayRows α :=
  Action.onPart (fun _ => flags) (fun flags rows => { rows with flags := some flags }) step

/-- Null rows have no items. -/
def pushNulls (count : Nat) : Action ArrayRows Unit := do
  match (← get).flags with
  | none => throw (.nullsIntoArray count)
  | some flags =>
    onFlags flags (FixedBuffer.pushRepeated (.boolean true) count)
    modify fun rows =>
      let stop := rows.itemOffset rows.length
      { rows with
        offsets := rows.offsets.appendEmpty count
        bounds := rows.bounds ++ List.replicate count (stop, stop) }

instance : Sink ArrayRows where
  length := length
  pushFixed _ count := throw (.fixedIntoArray count)
  pushBytes _ := throw .bytesIntoArray
  pushNulls := pushNulls
  pushRepeated value count := if value.isNull then pushNulls count else throw .valueIntoArray

def stretches (rows : ArrayRows) (start count : Nat) : List (Nat × Nat) :=
  (List.range' start count).map fun row => (rows.itemOffset row, rows.itemOffset (row + 1))

/-- Finishes rows whose items have been read. With `rebuild` the rows before them are finished again. -/
def finish (start count : Nat) (rebuild : Bool) (rows : ArrayRows) : ArrayRows :=
  let first := if rebuild then 0 else min start rows.bounds.length
  { rows with bounds := rows.bounds.take first ++ rows.stretches first (start + count - first) }

def stretch (rows : ArrayRows) (row : Nat) : Except Error (Nat × Nat) :=
  match rows.bounds[row]? with
  | some found => .ok found
  | none => .error (.unreadRow row rows.bounds.length)

def lengths (rows : ArrayRows) : List Nat := rows.bounds.map fun (start, stop) => stop - start

/-- Appends `count` rows apart from their items, from stored lengths and from stored null flags where the rows have
any. The first `converted` lengths become places. Gives the place of the first item and that behind the last one. -/
def pushRows (lengths flags : Bytes) (count converted : Nat) : Action ArrayRows (Nat × Nat) := do
  let start := (← get).length
  onOffsets (Sink.pushFixed lengths count)
  onOffsets (OffsetBuffer.convertLengths start converted)
  if let some buffer := (← get).flags then onFlags buffer (Sink.pushFixed flags count)
  let rows ← get
  return (rows.itemOffset start, rows.itemOffset (start + count))

def reserve (more : Nat) (rows : ArrayRows) : ArrayRows :=
  { rows with offsets := rows.offsets.reserve more, flags := rows.flags.map (FixedBuffer.reserve more) }

def settle (items : Nat) (rows : ArrayRows) : ArrayRows := { rows with offsets := rows.offsets.settle items }

def clear (rows : ArrayRows) : ArrayRows :=
  { offsets := rows.offsets.clear, flags := rows.flags.map FixedBuffer.clear, bounds := [] }

end ArrayRows

namespace Batch

/-- A step on the rows themselves, by the kind of batch. The items of an array are not touched. -/
def onRows {α : Type} (fixedStep : Action FixedBuffer α) (bytesStep : Action BytesBuffer α)
    (arrayStep : Action ArrayRows α) : Action Batch α := fun batch =>
  match batch with
  | fixed buffer => Action.rewrap fixed (fixedStep buffer)
  | bytes buffer => Action.rewrap bytes (bytesStep buffer)
  | array rows items => Action.rewrap (array · items) (arrayStep rows)

def length : Batch → Nat
  | fixed buffer => Sink.length buffer
  | bytes buffer => Sink.length buffer
  | array rows _ => Sink.length rows

instance : Sink Batch where
  length := length
  pushFixed values count :=
    onRows (Sink.pushFixed values count) (Sink.pushFixed values count) (Sink.pushFixed values count)
  pushBytes value := onRows (Sink.pushBytes value) (Sink.pushBytes value) (Sink.pushBytes value)
  pushNulls count := onRows (Sink.pushNulls count) (Sink.pushNulls count) (Sink.pushNulls count)
  pushRepeated value count :=
    onRows (Sink.pushRepeated value count) (Sink.pushRepeated value count) (Sink.pushRepeated value count)

def capacity : Batch → Nat
  | fixed buffer => buffer.capacity
  | bytes buffer => buffer.capacity
  | array rows _ => rows.offsets.capacity

def reserve (more : Nat) : Batch → Batch
  | fixed buffer => fixed (buffer.reserve more)
  | bytes buffer => bytes (buffer.reserve more)
  | array rows items => array (rows.reserve more) items

/-- Makes room for so many rows in all. Tells whether the storage had to grow. -/
def ensureCapacity (rows : Nat) (batch : Batch) : Bool × Batch :=
  let roomy := if batch.capacity < rows then batch.reserve (rows - batch.length) else batch
  (roomy.capacity ≠ batch.capacity, roomy)

/-- Whether the room for so many rows in all is not more than storage can have. -/
def affords (rows : Nat) (batch : Batch) : Bool :=
  match (batch.ensureCapacity rows).2 with
  | fixed buffer => buffer.room < Room.limit && (!buffer.nullable || max rows buffer.rows.length < Room.limit)
  | bytes buffer => 8 * buffer.room < Room.limit
  | array rows _ => 8 * rows.offsets.room < Room.limit

/-- Appends array rows from stored lengths and null flags; a step appends their items. All rows are finished again
with `rebuild` or where the storage of the items had to grow. Gives the places of the items, and nothing for a batch
that has no arrays. -/
def pushRows (lengths flags : Bytes) (count converted : Nat) (rebuild : Bool) (pushItems : Action Batch Unit) :
    Action Batch (Option (Nat × Nat)) := fun batch =>
  match batch with
  | fixed _ | bytes _ => .ok none batch
  | array rows items =>
    match ArrayRows.pushRows lengths flags count converted rows with
    | .error error rows => .error error (array (rows.settle items.length) items)
    | .ok (first, stop) pushed =>
      let (grown, roomy) := items.ensureCapacity (stop % 2 ^ 64)
      match Room.outcome (items.affords (stop % 2 ^ 64)) (fun _ filled => stop ≤ filled.length)
        items (pushItems roomy) with
      | .error error items => .error error (array (pushed.settle items.length) items)
      | .ok _ items =>
        .ok (some (first, stop % 2 ^ 64))
          (array ((pushed.settle items.length).finish rows.length count (rebuild || grown)) items)

def type : Batch → ColumnType
  | fixed buffer => buffer.type
  | bytes buffer => buffer.type
  | array .. => .array

def isNullable : Batch → Bool
  | fixed buffer => buffer.nullable
  | bytes buffer => buffer.nullable
  | array rows _ => rows.isNullable

def isNull : Batch → Nat → Bool
  | fixed buffer, row => buffer.isNull row
  | bytes buffer, row => buffer.isNull row
  | array rows _, row => rows.isNull row

def value : Batch → Nat → Except Error Scalar
  | fixed buffer, row => buffer.value row
  | bytes buffer, row => buffer.value row
  | array .., _ => .error .arrayValue

def values (batch : Batch) : Except Error (List Scalar) := (List.range batch.length).mapM batch.value

def itemOf (items : Batch) (stretch : Nat × Nat) (index : Nat) : Except Error Scalar :=
  if index < stretch.2 - stretch.1 then items.value (stretch.1 + index)
  else .error (.noSuchItem index (stretch.2 - stretch.1))

def clear : Batch → Batch
  | fixed buffer => fixed buffer.clear
  | bytes buffer => bytes buffer.clear
  | array rows items => array rows.clear items.clear

def ofColumn : ColumnMeta → Except Error Batch
  | ⟨own, children⟩ =>
    match own.type with
    | .array =>
      match children with
      | item :: lengths :: rest => do
        let items ← ofColumn item
        let flags ← match rest with
          | [] => pure none
          | [_] => some <$> FixedBuffer.create .boolean false
          | _ => throw (.arrayChildren own.columnId children.length)
        let offsets ← OffsetBuffer.create lengths.own.type
        return array { offsets, flags } items
      | _ => .error (.arrayChildren own.columnId children.length)
    | type =>
      if type.isVarSize then .ok (bytes { type, nullable := own.isNullable })
      else fixed <$> FixedBuffer.create type own.isNullable

end Batch

end Columnar
