import Columnar.Bytes
import Columnar.Error

namespace Columnar

/-- A position in stored data: how many bytes lie before it, and those that follow. -/
structure Cursor where
  position : Nat := 0
  rest : Bytes
  deriving Repr

/-- A step that reads from a cursor and moves it behind what it read. -/
abbrev Read := StateT Cursor (Except Error)

def Error.endOfPage (needed position left : Nat) : Error :=
  corruption s!"unexpected end of page: need {needed} bytes at {position}, have {left}"

namespace Read

def bytes (count : Nat) : Read Bytes := fun cursor =>
  if cursor.rest.length < count then .error (.endOfPage count cursor.position cursor.rest.length)
  else .ok (cursor.rest.take count, ⟨cursor.position + count, cursor.rest.drop count⟩)

/-- A number of the given width, least significant byte first. -/
def natural (width : Nat) : Read Nat := Bytes.toNat <$> bytes width

/-- A byte string behind its length in four bytes. -/
def prefixed : Read Bytes := do bytes (← natural 4)

def repeated {α : Type} (entry : Read α) : Nat → Read (List α)
  | 0 => pure []
  | count + 1 => do
    let first ← entry
    let others ← repeated entry count
    pure (first :: others)

def start {α : Type} (read : Read α) (stored : Bytes) : Except Error (α × Cursor) := read ⟨0, stored⟩

end Read

/-- Byte strings behind their lengths, up to the end of the data. -/
def Cursor.allPrefixed (cursor : Cursor) : Except Error (List Bytes) :=
  if cursor.rest.isEmpty then .ok []
  else
    match Read.prefixed cursor with
    | .error error => .error error
    | .ok (value, next) =>
      if next.rest.length < cursor.rest.length then (next.allPrefixed).map (value :: ·) else .ok [value]
termination_by cursor.rest.length

end Columnar
