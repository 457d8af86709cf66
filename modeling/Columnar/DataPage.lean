import Columnar.NullMap
import Columnar.OrdinalIndex
import Columnar.Page
import Columnar.ValueCursor

namespace Columnar

/-- A data page and a place among its rows. Null rows have no value: `values` is at the value of the row or of the
next row that has one, `nulls` is at the row, and it is there only if some row is null. -/
@[ext]
structure DataPage where
  page : Nat
  first : Nat
  rows : Nat
  /-- Number of rows before the place. -/
  offset : Nat := 0
  firstItem : Nat
  /-- Length of the page body. -/
  size : Nat
  values : ValueCursor
  nulls : Option NullCursor
  rows_lt : rows < 2 ^ 32
  deriving Repr

instance : DecidableEq DataPage := fun _ _ => decidable_of_iff _ DataPage.ext_iff.symm

namespace Error

def wrongRows (span : PageSpan) (footer : DataFooter) : Error :=
  corruption (s!"page {span.page} holds rows [{footer.firstOrdinal}, +{footer.rows}), ordinal index expects "
    ++ s!"[{span.first}, {span.stop})")

def longNullMap (nullMap body : Nat) : Error :=
  corruption s!"null map of {nullMap} bytes in a page body of {body} bytes"

def seekBeyondPage (row rows : Nat) : Error := internal s!"seek to row {row} of a page of {rows} rows"

def nullMapEnds (left : Nat) : Error := corruption s!"null map ends {left} rows before the page does"

def missingValues (found expected : Nat) : Error :=
  corruption s!"page decoder returned {found} values, null map promises {expected}"

end Error

namespace DataPage

variable {σ : Type}

/-- The null map at the end of a page body, unless it has no nulls. -/
def readNulls (footer : DataFooter) (body : Bytes) : Except Error (Option NullCursor) := do
  if body.length < footer.nullMapSize then throw (.longNullMap footer.nullMapSize body.length)
  if footer.nullMapSize = 0 then return none
  let nulls ← NullCursor.ofBytes (body.drop (body.length - footer.nullMapSize)) footer.rows
  return if nulls.nullCount = 0 then none else some nulls

/-- Opens a page at its first row. It has to hold the rows that the ordinal index expects of it. -/
def ofPage (page : Page) (span : PageSpan) (coding : Coding) (dictionary : Action σ Dictionary) :
    Action σ DataPage := do
  let footer ← Action.lift page.dataFooter
  if footer.firstOrdinal ≠ span.first ∨ footer.rows ≠ span.rows then throw (.wrongRows span footer)
  let nulls ← Action.lift (readNulls footer page.body)
  let stored := page.body.take (page.body.length - footer.nullMapSize)
  let values ← PageValues.ofBytes coding stored (footer.rows - nulls.elim 0 NullCursor.nullCount) dictionary
  return {
    page := span.page, first := footer.firstOrdinal, rows := footer.rows, firstItem := footer.firstItem
    size := page.body.length, values := { values }, nulls, rows_lt := footer.rows_lt }

def hasNull (page : DataPage) : Bool := page.nulls.isSome

def contains (page : DataPage) (ordinal : Nat) : Bool := page.first ≤ ordinal && ordinal < page.first + page.rows

def remaining (page : DataPage) : Nat := page.rows - page.offset

def hasRemaining (page : DataPage) : Bool := page.offset < page.rows

def onValues {α : Type} (step : Action ValueCursor α) : Action DataPage α :=
  Action.onPart DataPage.values (fun values page => { page with values }) step

/-- Moves to a row. Backwards the nulls are counted from the start of the page. -/
def seek (row : Nat) : Action DataPage Unit := do
  let page ← get
  if page.rows < row then throw (.seekBeyondPage row page.rows)
  match page.nulls with
  | none => onValues (ValueCursor.seek row)
  | some nulls =>
    let back := row < nulls.position
    let (nulls, before) := if back then (nulls.rewind, 0) else (nulls, page.values.index)
    let passed := row - nulls.position
    let (skipped, nulls) := nulls.skip passed
    set { page with nulls := some nulls }
    onValues (ValueCursor.seek (before + passed - skipped))
  modify fun page => { page with offset := row }

variable [Sink σ]

/-- Appends values to the sink, all of which the page has to have. -/
def readValues (count : Nat) : Action (DataPage × σ) Unit := fun (page, sink) =>
  match ValueCursor.next count (page.values, sink) with
  | .error error (values, sink) => .error error ({ page with values }, sink)
  | .ok found (values, sink) =>
    if found = count then .ok () ({ page with values }, sink)
    else .error (.missingValues found count) ({ page with values }, sink)

def passNulls (rows : Nat) : Action (DataPage × σ) Unit :=
  Action.onFirst (modify fun page => { page with nulls := page.nulls.map fun nulls => (nulls.skip rows).2 })

/-- Appends runs of nulls and of values. Tells whether there was a null. -/
def readRuns : List NullRun → Action (DataPage × σ) Bool
  | [] => pure false
  | run :: rest => do
    passNulls run.length
    if run.isNull then Action.onSecond (Sink.pushNulls run.length) else readValues run.length
    let others ← readRuns rest
    return run.isNull || others

def next (count : Nat) : Action (DataPage × σ) RowsRead := do
  let page := (← get).1
  let rows := min count page.remaining
  let hasNull ← match page.nulls with
    | none => do
      readValues rows
      pure false
    | some nulls => do
      let runs := NullRun.take rows nulls.ahead
      let hasNull ← readRuns runs
      if NullRun.rows runs < rows then throw (.nullMapEnds (rows - NullRun.rows runs))
      pure hasNull
  Action.onFirst (modify fun page => { page with offset := page.offset + rows })
  return ⟨rows, hasNull⟩

end DataPage

end Columnar
