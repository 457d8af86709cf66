import Columnar.LeafReader

namespace Columnar

/-- A place among the rows of a leaf, and the page that holds the row or the one before it. Reading starts with a
seek. -/
structure LeafCursor where
  reader : LeafReader
  options : CursorOptions := {}
  page : Option DataPage := none
  /-- Number of rows before the place. -/
  ordinal : Nat := 0
  seeked : Bool := false
  /-- The size of all page bodies read so far. -/
  bytesRead : Nat := 0
  pagesDecoded : Nat := 0
  deriving DecidableEq, Repr

namespace Error

def seekBeyondColumn (ordinal rows : Nat) (file : String) : Error :=
  notFound s!"seek to ordinal {ordinal} beyond the {rows} rows of {file}"

def noPageLoaded : Error := internal "seek to page start before any page was loaded"

def notSeeked (file : String) : Error := internal s!"next_batch on {file} before any seek"

end Error

namespace LeafCursor

/-- Opens a data page at its first row. The page before stays if this fails. -/
def loadPage (span : PageSpan) : Action (Session × LeafCursor) Unit := do
  let cursor := (← get).2
  let reader := cursor.reader
  let page ← Action.onFirst (Action.noting s!"could not read page {span.page} of {reader.file}"
    (reader.readPage cursor.options span.extent .data))
  Action.onSecond (modify fun cursor => { cursor with bytesRead := cursor.bytesRead + page.body.length })
  let opened ← Action.onFirst (DataPage.ofPage page span reader.coding (reader.dictionary cursor.options))
  Action.onSecond (modify fun cursor =>
    { cursor with pagesDecoded := cursor.pagesDecoded + 1, page := some opened })

def settle (ordinal : Nat) : Action (Session × LeafCursor) Unit :=
  Action.onSecond (modify fun cursor => { cursor with ordinal, seeked := true })

def seekFirst : Action (Session × LeafCursor) Unit := do
  let span ← Action.onFirst (← get).2.reader.firstSpan
  loadPage span
  settle 0

def seekInPage (ordinal : Nat) : Action (Session × LeafCursor) Unit := fun (session, cursor) =>
  match cursor.page with
  | none => .ok () (session, cursor)
  | some page =>
    Action.rewrap (fun page => (session, { cursor with page := some page }))
      (DataPage.seek (ordinal - page.first) page)

/-- Moves to a row, or behind the last one. A page is opened only if the one that is open does not hold the row. -/
def seek (ordinal : Nat) : Action (Session × LeafCursor) Unit := do
  let cursor := (← get).2
  let rows := cursor.reader.rows
  if rows < ordinal then throw (.seekBeyondColumn ordinal rows cursor.reader.file)
  let target := if ordinal = rows then ordinal - 1 else ordinal
  if 0 < rows ∧ !cursor.page.any (·.contains target) then
    let span ← Action.onFirst (cursor.reader.findSpan target)
    loadPage span
  seekInPage ordinal
  settle ordinal

def seekPageStart : Action (Session × LeafCursor) Unit := do
  match (← get).2.page with
  | none => throw .noPageLoaded
  | some page => seek page.first

/-- Opens the next page, where there is one. -/
def loadNextPage : Action (Session × LeafCursor) Bool := do
  let cursor := (← get).2
  match cursor.page with
  | none => return false
  | some page =>
    match ← Action.onFirst (cursor.reader.spanBehind page.page) with
    | none => return false
    | some span =>
      loadPage span
      return true

/-- Makes sure that the page has a row left; there is none behind the last page. -/
def hasRow : Action (Session × LeafCursor) Bool := do
  if (← get).2.page.any DataPage.hasRemaining then return true else loadNextPage

variable {σ : Type} [Sink σ]

def readPageRows (count : Nat) : Action (Session × LeafCursor × σ) RowsRead := fun (session, cursor, sink) =>
  match cursor.page with
  | none => .ok {} (session, cursor, sink)
  | some page =>
    Action.rewrap (fun (page, sink) => (session, { cursor with page := some page }, sink))
      (DataPage.next count (page, sink))

/-- Appends rows page by page. Each page gives a row, so as many steps as rows are enough. -/
def readRows : (steps count : Nat) → Action (Session × LeafCursor × σ) RowsRead
  | 0, _ => pure {}
  | steps + 1, count => do
    if count = 0 then return {}
    if !(← Action.onFirstTwo hasRow) then return {}
    let first ← readPageRows count
    Action.onFirstTwo (Action.onSecond (modify fun cursor =>
      { cursor with ordinal := cursor.ordinal + first.rows }))
    let others ← readRows steps (count - first.rows)
    return first.join others

/-- Appends up to `count` rows; fewer only at the end of the column. -/
def next (count : Nat) : Action (Session × LeafCursor × σ) RowsRead := do
  let cursor := (← get).2.1
  if !cursor.seeked then throw (.notSeeked cursor.reader.file)
  readRows count count

end LeafCursor

end Columnar
