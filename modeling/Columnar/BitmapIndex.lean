import Columnar.Action
import Columnar.Cursor
import Columnar.RowBitmap
import Columnar.RowSet
import Columnar.Scalar

namespace Columnar

/-- The distinct values of a column in order, and for each the rows that hold it. Where the column has nulls, one
more bitmap at the end has the null rows. -/
structure BitmapIndex where
  words : List Bytes
  bitmaps : List Bytes
  deriving DecidableEq, Repr

namespace Error

def bitmapCount (words bitmaps : Nat) : Error := corruption s!"bitmap index has {words} words but {bitmaps} bitmaps"

def unsortedWords : Error := corruption "bitmap index dictionary is not sorted"

def noSuchBitmap (ordinal bitmaps : Nat) : Error := notFound s!"bitmap {ordinal} out of {bitmaps} bitmaps"

def brokenBitmap (ordinal : Nat) (problem : RowBitmap.Problem) : Error :=
  corruption s!"bitmap {ordinal} cannot be decoded: {problem.text}"

def noWordFrom : Error := notFound "no dictionary value at or after the probe"

def noSuchWord (ordinal words : Nat) : Error := notFound s!"bitmap ordinal {ordinal} out of {words} values"

end Error

namespace BitmapIndex

def hasNull (index : BitmapIndex) : Bool := index.words.length < index.bitmaps.length

def sorted : List Bytes → Bool
  | a :: b :: rest => Scalar.compareBytes a b = .lt && sorted (b :: rest)
  | _ => true

def create (words bitmaps : List Bytes) : Except Error BitmapIndex :=
  if bitmaps.length = words.length ∨ bitmaps.length = words.length + 1 then
    if sorted words then .ok ⟨words, bitmaps⟩ else .error .unsortedWords
  else .error (.bitmapCount words.length bitmaps.length)

/-- Reads the body of an index page: words, or bitmaps, behind their lengths. -/
def entries (body : Bytes) (count : Nat) : Except Error (List Bytes) :=
  (Read.start (Read.repeated Read.prefixed count) body).map (·.1)

def bitmap (index : BitmapIndex) (ordinal : Nat) : Except Error RowBitmap :=
  match index.bitmaps[ordinal]? with
  | none => .error (.noSuchBitmap ordinal index.bitmaps.length)
  | some stored => (RowBitmap.ofBytes stored).mapError (Error.brokenBitmap ordinal)

/-- The number of words in front of a word, given or not. -/
def lowerBound (index : BitmapIndex) (word : Bytes) : Nat :=
  partitionPoint (fun other => Scalar.compareBytes other word = .lt) index.words

def seek (index : BitmapIndex) (word : Bytes) : Except Error (Nat × Bool) :=
  match index.words[index.lowerBound word]? with
  | none => .error .noWordFrom
  | some found => .ok (index.lowerBound word, found = word)

def rowsAt (index : BitmapIndex) (ordinal : Nat) : Except Error RowBitmap :=
  if index.words.length ≤ ordinal then .error (.noSuchWord ordinal index.words.length) else index.bitmap ordinal

def nullRows (index : BitmapIndex) : Except Error RowBitmap :=
  if index.hasNull then index.bitmap index.words.length else .ok {}

def unite (index : BitmapIndex) (rows : RowBitmap) : List Nat → Except Error RowBitmap
  | [] => .ok rows
  | ordinal :: rest => do index.unite (rows.union (← index.bitmap ordinal)) rest

def rowsBetween (index : BitmapIndex) (start stop : Nat) : Except Error RowBitmap :=
  index.unite {} (List.range' start (min stop index.words.length - start))

end BitmapIndex

/-- A place among the words of a bitmap index. -/
structure WordCursor where
  index : BitmapIndex
  ordinal : Nat := 0
  deriving DecidableEq, Repr

namespace WordCursor

def word? (cursor : WordCursor) : Option Bytes := cursor.index.words[cursor.ordinal]?

/-- Moves to the first word from the given one on. Where there is none the place stays. Tells whether it is that
word. -/
def seek (word : Bytes) : Action WordCursor Bool := do
  let cursor ← get
  let (ordinal, exact) ← Action.lift (cursor.index.seek word)
  set { cursor with ordinal }
  return exact

end WordCursor

end Columnar
