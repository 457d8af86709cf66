import Columnar.ColumnMeta
import Columnar.Cursor
import Columnar.RowSet

namespace Columnar

/-- A data page of a column: its number, the rows `first` up to `stop` that it holds, and where it is. -/
structure PageSpan where
  page : Nat
  first : Nat
  stop : Nat
  extent : Extent
  deriving DecidableEq, Repr

def PageSpan.rows (span : PageSpan) : Nat := span.stop - span.first

def PageSpan.contains (span : PageSpan) (ordinal : Nat) : Bool := span.first ≤ ordinal && ordinal < span.stop

/-- Where a data page is, and its first row. -/
structure PageStart where
  first : Nat
  extent : Extent
  deriving DecidableEq, Repr

/-- The data pages of a column in the order of their rows. -/
structure OrdinalIndex where
  pages : List PageStart
  rows : Nat
  deriving DecidableEq, Repr

namespace Error

def unorderedPages (first previous : Nat) : Error :=
  corruption s!"ordinal index entries out of order: {first} after {previous}"

def uncoveredRows (pages rows : Nat) : Error :=
  corruption s!"ordinal index with {pages} pages does not cover {rows} rows"

def beyondColumn (ordinal rows : Nat) : Error :=
  notFound s!"ordinal {ordinal} is beyond the {rows} rows of the column"

def noPageHolds (ordinal : Nat) : Error := notFound s!"no page holds ordinal {ordinal}"

def noDataPages : Error := notFound "column has no data pages"

end Error

namespace OrdinalIndex

/-- Page starts one after the other; each has to begin behind the one before it. -/
def readPages (previous : Option Nat) : Nat → Read (List PageStart)
  | 0 => pure []
  | count + 1 => do
    let first ← Read.natural 8
    let offset ← Read.natural 8
    let size ← Read.natural 4
    if let some before := previous.filter (first ≤ ·) then throw (.unorderedPages first before)
    return ⟨first, offset, size⟩ :: (← readPages (some first) count)

/-- The pages of a column have to begin with its first row, and none may begin behind its last one. -/
def ofPages (pages : List PageStart) (rows : Nat) : Except Error OrdinalIndex :=
  match pages.head?, pages.getLast? with
  | some first, some last =>
    if first.first = 0 ∧ last.first < rows then .ok ⟨pages, rows⟩ else .error (.uncoveredRows pages.length rows)
  | _, _ => if rows = 0 then .ok ⟨pages, rows⟩ else .error (.uncoveredRows pages.length rows)

def ofBody (body : Bytes) (count rows : Nat) : Except Error OrdinalIndex := do
  let (pages, _) ← Read.start (readPages none count) body
  ofPages pages rows

def ofSinglePage (extent : Extent) (rows : Nat) : Except Error OrdinalIndex := ofPages [⟨0, extent⟩] rows

/-- A page ends where the next one begins, the last one with the column. -/
def span? (index : OrdinalIndex) (page : Nat) : Option PageSpan :=
  index.pages[page]?.map fun start =>
    ⟨page, start.first, (index.pages[page + 1]?.map PageStart.first).getD index.rows, start.extent⟩

def spans (index : OrdinalIndex) : List PageSpan := (List.range index.pages.length).filterMap index.span?

/-- The page that holds a row: the last one that does not begin behind it. -/
def find (index : OrdinalIndex) (ordinal : Nat) : Except Error PageSpan :=
  if index.rows ≤ ordinal then .error (.beyondColumn ordinal index.rows)
  else
    match partitionPoint (fun page : PageStart => page.first ≤ ordinal) index.pages with
    | 0 => .error (.noPageHolds ordinal)
    | page + 1 =>
      match index.span? page with
      | some span => .ok span
      | none => .error (.noPageHolds ordinal)

def firstSpan (index : OrdinalIndex) : Except Error PageSpan :=
  match index.span? 0 with
  | some span => .ok span
  | none => .error .noDataPages

def nextSpan? (index : OrdinalIndex) (span : PageSpan) : Option PageSpan := index.span? (span.page + 1)

end OrdinalIndex

end Columnar
