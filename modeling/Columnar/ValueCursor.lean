import Columnar.Coding
import Columnar.Dictionary
import Columnar.Runs
import Columnar.Sink

namespace Columnar

/-- The values of a page that are not null. -/
inductive PageValues where
  | packed (width : Nat) (data : Bytes)
  /-- Booleans, a byte each. -/
  | flags (values : Bytes)
  | strings (values : List Bytes)
  /-- Places of words in a dictionary. -/
  | coded (codes : List Nat) (dictionary : Dictionary)
  deriving DecidableEq, Repr

/-- A place among the values of a page: so many come before it. -/
structure ValueCursor where
  values : PageValues
  index : Nat := 0
  deriving DecidableEq, Repr

namespace Error

def brokenValue (size width : Nat) : Error :=
  corruption s!"plain page of {size} bytes is not a multiple of value width {width}"

def noBooleans : Error := corruption "empty boolean RLE page"

def booleanWidth (bits : Nat) : Error := corruption s!"boolean RLE bit width must be 1, got {bits}"

def dictionaryMode (mode : Nat) : Error := corruption s!"unknown dictionary page mode {mode}"

def noDictionaryMode : Error := corruption "empty dictionary data page"

def noDictionary : Error := internal "dictionary coded page decoded without a dictionary"

def noCodeWidth : Error := corruption "dictionary page misses its bit width"

def unknownCode (code words : Nat) : Error := corruption s!"dictionary code {code} out of {words} words"

def seekBeyondValues (index count : Nat) : Error := corruption s!"seek to value {index} in a page of {count} values"

end Error

namespace PageValues

variable {σ : Type}

def count : PageValues → Nat
  | packed width data => data.length / width
  | flags values => values.length
  | strings values => values.length
  | coded codes _ => codes.length

def ofPacked (width : Nat) (stored : Bytes) : Except Error PageValues :=
  if stored.length % width = 0 then .ok (packed width stored) else .error (.brokenValue stored.length width)

def ofStrings (stored : Bytes) : Except Error PageValues := strings <$> Cursor.allPrefixed ⟨0, stored⟩

/-- Booleans behind the width of a value, which is always one bit. -/
def ofBits (stored : Bytes) (count : Nat) : Except Error PageValues :=
  match stored with
  | [] => .error .noBooleans
  | width :: stream =>
    if width = 1 then (Run.decode 1 count stream).map fun found => flags (found.map UInt8.ofNat)
    else .error (.booleanWidth width.toNat)

/-- Codes behind their width. -/
def ofCodes (stored : Bytes) (count : Nat) (dictionary : Dictionary) : Except Error PageValues :=
  match stored with
  | [] => .error .noCodeWidth
  | width :: stream => (Run.decode width.toNat count stream).map (coded · dictionary)

/-- A page of a column with a dictionary says in its first byte whether it holds codes. Only then the dictionary is
asked for. -/
def ofWords (stored : Bytes) (count : Nat) (dictionary : Action σ Dictionary) : Action σ PageValues :=
  match stored with
  | [] => throw .noDictionaryMode
  | mode :: rest =>
    if mode = 0 then Action.lift (ofStrings rest)
    else if mode = 1 then do
      Action.lift (ofCodes rest count (← dictionary))
    else throw (.dictionaryMode mode.toNat)

/-- Reads the values of a page, at most `count` of those whose number the data does not give. -/
def ofBytes (coding : Coding) (stored : Bytes) (count : Nat) (dictionary : Action σ Dictionary) :
    Action σ PageValues :=
  match coding with
  | .packed width => Action.lift (ofPacked width stored)
  | .strings => Action.lift (ofStrings stored)
  | .bits => Action.lift (ofBits stored count)
  | .words => ofWords stored count dictionary

end PageValues

namespace ValueCursor

variable {σ : Type} [Sink σ]

def count (cursor : ValueCursor) : Nat := cursor.values.count

def seek (index : Nat) : Action ValueCursor Unit := do
  let cursor ← get
  if cursor.count < index then throw (.seekBeyondValues index cursor.count)
  set { cursor with index }

def pushWords (dictionary : Dictionary) : List Nat → Action σ Unit
  | [] => pure ()
  | code :: rest =>
    match dictionary.words[code]? with
    | none => throw (.unknownCode code dictionary.words.length)
    | some word => do
      Sink.pushBytes word
      pushWords dictionary rest

def push (values : PageValues) (index count : Nat) : Action σ Unit :=
  match values with
  | .packed width data => Sink.pushFixed ((data.drop (index * width)).take (count * width)) count
  | .flags values => Sink.pushFixed ((values.drop index).take count) count
  | .strings values => Sink.pushAll ((values.drop index).take count)
  | .coded codes dictionary => pushWords dictionary ((codes.drop index).take count)

def moveTo (index : Nat) : Action (ValueCursor × σ) Unit :=
  Action.onFirst (modify fun cursor => { cursor with index })

/-- Appends up to `count` values and passes them. Where the sink refuses them the place stays, except that booleans
are passed first. -/
def next (count : Nat) : Action (ValueCursor × σ) Nat := do
  let cursor := (← get).1
  let found := min count (cursor.count - cursor.index)
  match cursor.values with
  | .flags _ =>
    moveTo (cursor.index + found)
    Action.onSecond (push cursor.values cursor.index found)
  | _ =>
    Action.onSecond (push cursor.values cursor.index found)
    moveTo (cursor.index + found)
  return found

end ValueCursor

end Columnar
