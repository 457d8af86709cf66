import Columnar.Runs

namespace Columnar

/-- Rows in a row that are all null or all not. -/
structure NullRun where
  isNull : Bool
  length : Nat
  deriving DecidableEq, Repr

namespace NullRun

/-- Puts a run in front of others. An empty one leaves no trace, and equal neighbours become one. -/
def join (run : NullRun) (others : List NullRun) : List NullRun :=
  if run.length = 0 then others
  else match others with
    | [] => [run]
    | other :: rest => if other.isNull = run.isNull then ⟨run.isNull, run.length + other.length⟩ ::
      rest else run :: others

/-- The rows a run of bits stands for; a set bit is a null. -/
def ofBits : Run → List NullRun
  | .repeated value count => [⟨value = 1, count⟩]
  | .packed data => (Run.unpack 1 (8 * data.length) (Bytes.toNat data)).map fun bit => ⟨bit = 1, 1⟩

def take : Nat → List NullRun → List NullRun
  | _, [] => []
  | rows, run :: rest => if rows = 0 then [] else ⟨run.isNull, min run.length rows⟩ :: take (rows - run.length) rest

/-- What is left of some runs behind their first rows. -/
def drop : Nat → List NullRun → List NullRun
  | _, [] => []
  | rows, run :: rest =>
    if rows < run.length then ⟨run.isNull, run.length - rows⟩ :: rest else drop (rows - run.length) rest

def rows (runs : List NullRun) : Nat := total (runs.map NullRun.length)

def nulls (runs : List NullRun) : Nat := rows (runs.filter NullRun.isNull)

end NullRun

/-- A place in the null map of a page: all its runs, those from the place on, and how many rows lie before it. -/
structure NullCursor where
  runs : List NullRun
  ahead : List NullRun
  position : Nat
  deriving DecidableEq, Repr

def Error.shortNullMap (covered rows : Nat) : Error :=
  corruption s!"null map covers {covered} rows, page has {rows}"

namespace NullCursor

def ofBytes (stored : Bytes) (rows : Nat) : Except Error NullCursor := do
  let found := NullRun.take rows ((← Run.bitRuns stored).flatMap NullRun.ofBits)
  if NullRun.rows found < rows then throw (.shortNullMap (NullRun.rows found) rows)
  let runs := found.foldr NullRun.join []
  return ⟨runs, runs, 0⟩

def nullCount (cursor : NullCursor) : Nat := NullRun.nulls cursor.runs

/-- Passes rows, as far as there are any. Also gives the number of nulls among them. -/
def skip (count : Nat) (cursor : NullCursor) : Nat × NullCursor :=
  let passed := NullRun.take count cursor.ahead
  (NullRun.nulls passed, { cursor with
    ahead := NullRun.drop count cursor.ahead, position := cursor.position + NullRun.rows passed })

/-- The run that starts at the place, cut to `most` rows, and the place behind it. Nothing at the end. -/
def nextRun (most : Nat) (cursor : NullCursor) : Option NullRun × NullCursor :=
  match cursor.ahead with
  | [] => (none, cursor)
  | run :: _ => (some ⟨run.isNull, min run.length most⟩, (cursor.skip (min run.length most)).2)

def rewind (cursor : NullCursor) : NullCursor := ⟨cursor.runs, cursor.runs, 0⟩

end NullCursor

end Columnar
