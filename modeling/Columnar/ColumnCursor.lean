import Columnar.ColumnReader
import Columnar.ConstantCursor
import Columnar.LeafCursor
import Columnar.Sink.Batch

namespace Columnar

/-- A place among the rows of an array column, apart from that among its items. -/
structure ArrayCursor where
  lengths : LeafCursor
  flags : Option LeafCursor
  /-- Number of items of the whole column. -/
  itemRows : Nat
  ordinal : Nat := 0
  deriving DecidableEq, Repr

/-- A place among the rows of a column. -/
inductive ColumnCursor where
  /-- The column has no rows. -/
  | empty
  | leaf (cursor : LeafCursor)
  | array (cursor : ArrayCursor) (items : ColumnCursor)
  | constant (cursor : ConstantCursor)
  deriving Repr

/-- What is known of some array rows before their items are read: how many they are, the place of their first item,
and how many items they have, in 64 bits. -/
structure ArrayRead where
  start : Nat
  rows : Nat
  firstItem : Nat
  items : Nat
  deriving DecidableEq, Repr

/-- The place behind the items. -/
def ArrayRead.stop (read : ArrayRead) : Nat := (read.firstItem + read.items) % 2 ^ 64

namespace Error

def lengthsNotPositioned : Error := internal "lengths iterator is not positioned"

def missingRowLengths (expected ordinal found : Nat) : Error :=
  corruption s!"lengths page holds {expected} rows before ordinal {ordinal}, read {found}"

def notArraySink : Error := internal "array column read into a non-array sink"

def lengthsWithNulls (file : String) : Error := internal s!"array lengths column {file} returned nulls"

def noFlagsInSink : Error := internal "nullable array read into a sink without null flags"

def flagsEnd (found expected : Nat) : Error :=
  corruption s!"array null flags ended after {found} of {expected} rows"

def itemsEnd (found expected : Nat) : Error := corruption s!"array items ended after {found} of {expected} items"

def seekInEmpty (ordinal : Nat) : Error := notFound s!"seek to ordinal {ordinal} of an empty column"

end Error

namespace ArrayCursor

def onLengths {α : Type} (step : Action (Session × LeafCursor) α) : Action (Session × ArrayCursor) α :=
  Action.onPart (fun (session, cursor) => (session, cursor.lengths))
    (fun (session, lengths) (_, cursor) => (session, { cursor with lengths })) step

def onFlags (step : Action (Session × LeafCursor) Unit) :
    Action (Session × ArrayCursor) Unit := fun (session, cursor) =>
  match cursor.flags with
  | none => .ok () (session, cursor)
  | some flags =>
    Action.rewrap (fun (session, flags) => (session, { cursor with flags := some flags })) (step (session, flags))

def seekFirst : Action (Session × ArrayCursor) Unit := do
  onLengths LeafCursor.seekFirst
  onFlags LeafCursor.seekFirst

/-- The number of items before a row that the lengths are at, in 64 bits. The lengths page knows how many come
before its first row; the lengths of the rows from there are added, and the lengths are at the row again. -/
def itemsBefore (ordinal : Nat) : Action (Session × ArrayCursor) Nat := do
  let lengths := (← get).2.lengths
  match lengths.page with
  | none => throw .lengthsNotPositioned
  | some page =>
    let rows := ordinal - page.first
    if rows = 0 then return page.firstItem
    let buffer ← Action.lift (OffsetBuffer.create lengths.reader.column.type)
    onLengths LeafCursor.seekPageStart
    let (read, buffer) ← onLengths fun (session, cursor) =>
      match LeafCursor.next rows (session, cursor, buffer) with
      | .ok read (session, cursor, buffer) => .ok (read, buffer) (session, cursor)
      | .error error (session, cursor, _) => .error error (session, cursor)
    if read.rows ≠ rows then throw (.missingRowLengths rows ordinal read.rows)
    return (page.firstItem + total (buffer.fences.drop 1)) % 2 ^ 64

/-- Moves to a row, or behind the last one, and gives the item to move to. -/
def seek (ordinal : Nat) : Action (Session × ArrayCursor) Nat := do
  onLengths (LeafCursor.seek ordinal)
  onFlags (LeafCursor.seek ordinal)
  let cursor := (← get).2
  if ordinal = cursor.lengths.reader.rows then return cursor.itemRows else itemsBefore ordinal

def readLengths (count : Nat) : Action (Session × ArrayCursor × ArrayRows) RowsRead :=
  Action.onPart (fun (session, cursor, rows) => (session, cursor.lengths, rows.offsets))
    (fun (session, lengths, offsets) (_, cursor, rows) => (session, { cursor with lengths }, { rows with offsets }))
    (LeafCursor.next count)

/-- Appends the null flags of rows, where the column has any. -/
def readFlags (count : Nat) : Action (Session × ArrayCursor × ArrayRows) Unit := fun (session, cursor, rows) =>
  match cursor.flags, rows.flags with
  | none, _ => .ok () (session, cursor, rows)
  | some _, none => .error .noFlagsInSink (session, cursor, rows)
  | some flags, some buffer =>
    match LeafCursor.next count (session, flags, buffer) with
    | .error error (session, flags, buffer) =>
      .error error (session, { cursor with flags := some flags }, { rows with flags := some buffer })
    | .ok read (session, flags, buffer) =>
      let state := (session, { cursor with flags := some flags }, { rows with flags := some buffer })
      if read.rows = count then .ok () state else .error (.flagsEnd read.rows count) state

def readRows (count : Nat) : Action (Session × ArrayCursor × ArrayRows) ArrayRead := do
  let start := (← get).2.2.length
  let lengths ← readLengths count
  if lengths.hasNull then throw (.lengthsWithNulls (← get).2.1.lengths.reader.file)
  Action.onSecond (Action.onSecond (ArrayRows.onOffsets (OffsetBuffer.convertLengths start lengths.rows)))
  if 0 < lengths.rows then readFlags lengths.rows
  let rows := (← get).2.2
  let firstItem := rows.itemOffset start
  return ⟨start, lengths.rows, firstItem, (rows.itemOffset (start + lengths.rows) - firstItem) % 2 ^ 64⟩

end ArrayCursor

namespace ColumnCursor

/-- A new cursor on a column. It has to be moved to a row before it reads. -/
def ofReader (options : CursorOptions) : ColumnReader → ColumnCursor
  | .leaf reader => if reader.rows = 0 then empty else leaf { reader, options }
  | .array items lengths flags =>
    if lengths.rows = 0 then empty
    else array
      { lengths := { reader := lengths, options }
        flags := flags.map fun reader => { reader, options }
        itemRows := items.rows }
      (ofReader options items)

def around {σ τ α : Type} (wrap : σ → ColumnCursor) (step : Action (τ × σ) α) (session : τ) (part : σ) :
    EStateM.Result Error (τ × ColumnCursor) α :=
  Action.rewrap (fun (session, part) => (session, wrap part)) (step (session, part))

def seekFirstFrom : ColumnCursor → Session → EStateM.Result Error (Session × ColumnCursor) Unit
  | empty, session => .ok () (session, empty)
  | leaf cursor, session => around leaf LeafCursor.seekFirst session cursor
  | constant cursor, session => .ok () (session, constant (cursor.seek 0))
  | array cursor items, session =>
    match ArrayCursor.seekFirst (session, cursor) with
    | .error error (session, cursor) => .error error (session, array cursor items)
    | .ok _ (session, cursor) =>
      match seekFirstFrom items session with
      | .error error (session, items) => .error error (session, array cursor items)
      | .ok _ (session, items) => .ok () (session, array { cursor with ordinal := 0 } items)

def seekFrom : ColumnCursor → (ordinal : Nat) → Session → EStateM.Result Error (Session × ColumnCursor) Unit
  | empty, ordinal, session =>
    if ordinal = 0 then .ok () (session, empty) else .error (.seekInEmpty ordinal) (session, empty)
  | leaf cursor, ordinal, session => around leaf (LeafCursor.seek ordinal) session cursor
  | constant cursor, ordinal, session => .ok () (session, constant (cursor.seek ordinal))
  | array cursor items, ordinal, session =>
    match ArrayCursor.seek ordinal (session, cursor) with
    | .error error (session, cursor) => .error error (session, array cursor items)
    | .ok item (session, cursor) =>
      match seekFrom items item session with
      | .error error (session, items) => .error error (session, array cursor items)
      | .ok _ (session, items) => .ok () (session, array { cursor with ordinal } items)

def seekFirst : Action (Session × ColumnCursor) Unit := fun (session, cursor) => cursor.seekFirstFrom session

/-- Moves to a row, or behind the last one. -/
def seek (ordinal : Nat) : Action (Session × ColumnCursor) Unit := fun (session, cursor) =>
  cursor.seekFrom ordinal session

/-- Moves to the first row of the page that is open; of an array column, to that of its lengths. A cursor without
pages stays where it is. -/
def seekPageStart : Action (Session × ColumnCursor) Unit := fun (session, cursor) =>
  match cursor with
  | empty | constant _ => .ok () (session, cursor)
  | leaf cursor => around leaf LeafCursor.seekPageStart session cursor
  | array parts _ =>
    match parts.lengths.page with
    | none => .error .noPageLoaded (session, cursor)
    | some page => cursor.seekFrom page.first session

def ordinal : ColumnCursor → Nat
  | empty => 0
  | leaf cursor => cursor.ordinal
  | array cursor _ => cursor.ordinal
  | constant cursor => cursor.ordinal

def bytesRead : ColumnCursor → Nat
  | empty | constant _ => 0
  | leaf cursor => cursor.bytesRead
  | array cursor items => items.bytesRead + cursor.lengths.bytesRead + cursor.flags.elim 0 LeafCursor.bytesRead

def pagesDecoded : ColumnCursor → Nat
  | empty | constant _ => 0
  | leaf cursor => cursor.pagesDecoded
  | array cursor items =>
    items.pagesDecoded + cursor.lengths.pagesDecoded + cursor.flags.elim 0 LeafCursor.pagesDecoded

abbrev NextResult := EStateM.Result Error (Session × ColumnCursor × Batch) RowsRead

/-- Finishes array rows whose items have been appended, and all rows before them where the storage of the items had
to grow. -/
def finishRows (read : ArrayRead) (grown : Bool) (session : Session) (cursor : ArrayCursor) (items : ColumnCursor)
    (rows : ArrayRows) (batch : Batch) : NextResult :=
  .ok ⟨read.rows, cursor.flags.isSome⟩
    (session, array { cursor with ordinal := cursor.ordinal + read.rows } items,
      .array ((rows.settle batch.length).finish read.start read.rows grown) batch)

def nextFrom : ColumnCursor → (count : Nat) → Session → Batch → NextResult
  | empty, _, session, batch => .ok {} (session, empty, batch)
  | leaf cursor, count, session, batch =>
    Action.rewrap (fun (session, cursor, batch) => (session, leaf cursor, batch))
      (LeafCursor.next count (session, cursor, batch))
  | constant cursor, count, session, batch =>
    Action.rewrap (fun (cursor, batch) => (session, constant cursor, batch))
      (ConstantCursor.next count (cursor, batch))
  | array cursor items, count, session, batch =>
    match batch with
    | .fixed _ | .bytes _ => .error .notArraySink (session, array cursor items, batch)
    | .array rows itemBatch =>
      match ArrayCursor.readRows count (session, cursor, rows) with
      | .error error (session, cursor, rows) =>
        .error error (session, array cursor items, .array (rows.settle itemBatch.length) itemBatch)
      | .ok read (session, cursor, rows) =>
        if read.rows = 0 then .ok {} (session, array cursor items, .array rows itemBatch)
        else if read.items = 0 then finishRows read false session cursor items rows itemBatch
        else
          let (grown, roomy) := itemBatch.ensureCapacity read.stop
          match Room.outcome (itemBatch.affords read.stop) (fun found _ => found.rows = read.items)
              (session, items, itemBatch) (nextFrom items read.items session roomy) with
          | .error error (session, items, itemBatch) =>
            .error error (session, array cursor items, .array (rows.settle itemBatch.length) itemBatch)
          | .ok found (session, items, itemBatch) =>
            if found.rows = read.items then finishRows read grown session cursor items rows itemBatch
            else
              .error (.itemsEnd found.rows read.items)
                (session, array cursor items, .array (rows.settle itemBatch.length) itemBatch)

/-- Appends up to `count` rows; fewer only at the end of the column. -/
def next (count : Nat) : Action (Session × ColumnCursor × Batch) RowsRead := fun (session, cursor, batch) =>
  cursor.nextFrom count session batch

/-- The rows that the zone maps leave; `rows` where the column has none. -/
def rowsByZones (keep : Predicate) (delete : Option Predicate) (rows : RowSet) : ColumnCursor →
    Action Session RowSet
  | leaf cursor =>
    if cursor.reader.indexes.zones.isSome then cursor.reader.pruneByZones keep delete else pure rows
  | empty | array .. | constant _ => pure rows

def rowsByFilters (keep : Predicate) (rows : RowSet) : ColumnCursor → Action Session RowSet
  | leaf cursor =>
    if cursor.reader.indexes.filters.isSome && keep.usesBloomFilter then cursor.reader.pruneByFilters keep rows
    else pure rows
  | empty | array .. | constant _ => pure rows

end ColumnCursor

end Columnar
