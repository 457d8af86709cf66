import Columnar.Bytes

namespace Columnar

/-- Rows that share all but their low 16 bits, in ascending order. -/
structure RowChunk where
  /-- The bits that the rows share. -/
  key : Nat
  /-- The low bits of each row. -/
  rows : List Nat
  deriving DecidableEq, Repr

/-- A set of row numbers below 2³², in chunks. -/
structure RowBitmap where
  chunks : List RowChunk := []
  deriving DecidableEq, Repr

/-- Why a stored set of rows cannot be read. -/
inductive RowBitmap.Problem where
  | endsEarly
  | unknownCookie
  | tooManyChunks
  | rangeTooLong
  | outOfOrder (index : Nat)
  | duplicate (index : Nat)
  | wrongCount (expected found : Nat)
  deriving DecidableEq, Repr

namespace RowBitmap

def Problem.text : Problem → String
  | endsEarly => "failed to fill whole buffer"
  | unknownCookie => "unknown cookie value"
  | tooManyChunks => "size is greater than supported"
  | rangeTooLong => "invalid data"
  | outOfOrder index => s!"An element was out of order at index: {index}"
  | duplicate index => s!"Duplicate element found at index: {index}"
  | wrongCount expected found => s!"Expected cardinality was {expected} but was {found}"

def merge : List Nat → List Nat → List Nat
  | [], bs => bs
  | as, [] => as
  | a :: as, b :: bs =>
    if a < b then a :: merge as (b :: bs)
    else if b < a then b :: merge (a :: as) bs
    else a :: merge as bs
termination_by as bs => as.length + bs.length

/-- The place that a search by halving ends at: as long as more than one place is left, the key in the middle tells
on which side to go on. Where the keys ascend, it is the last place whose key is not greater than the one looked
for, or the first place of all. -/
def search (keys : List Nat) (key start count : Nat) : Nat :=
  if 1 < count then
    let middle := start + count / 2
    search keys key (if key < keys.getD middle 0 then start else middle) (count - count / 2)
  else start
termination_by count

/-- Merges a chunk with the one of its key, or puts it beside the place where the search for its key ends. A stored
set need not have its chunks in order, and then they are searched as if they were. -/
def insert (chunk : RowChunk) (chunks : List RowChunk) : List RowChunk :=
  let place := search (chunks.map RowChunk.key) chunk.key 0 chunks.length
  match chunks[place]? with
  | none => [chunk]
  | some found =>
    if found.key = chunk.key then chunks.set place ⟨found.key, merge found.rows chunk.rows⟩
    else if found.key < chunk.key then chunks.insertIdx (place + 1) chunk
    else chunks.insertIdx place chunk

def chunkSize : Nat := 0x10000

def toList (bitmap : RowBitmap) : List Nat :=
  bitmap.chunks.flatMap fun chunk => chunk.rows.map fun row => chunkSize * chunk.key + row

def count (bitmap : RowBitmap) : Nat := total (bitmap.chunks.map fun chunk => chunk.rows.length)

def absorb (a b : RowBitmap) : RowBitmap := ⟨b.chunks.foldl (fun chunks chunk => insert chunk chunks) a.chunks⟩

/-- The rows of both sets. The larger one takes in the smaller one. -/
def union (a b : RowBitmap) : RowBitmap := if a.count < b.count then b.absorb a else a.absorb b

def last? (bitmap : RowBitmap) : Option Nat := do
  let chunk ← bitmap.chunks.getLast?
  return chunkSize * chunk.key + (← chunk.rows.getLast?)

/-! A stored set starts with a cookie that tells whether there are chunks of ranges. Then the keys of all chunks
follow with their sizes, then the chunks. -/

abbrev Reader := StateT Bytes (Except Problem)

def take (count : Nat) : Reader Bytes := fun stored =>
  if stored.length < count then .error .endsEarly else .ok (stored.take count, stored.drop count)

def number (width : Nat) : Reader Nat := Bytes.toNat <$> take width

def numbers (width : Nat) : Nat → Bytes → List Nat
  | 0, _ => []
  | count + 1, stored => Bytes.toNat (stored.take width) :: numbers width count (stored.drop width)

def listLimit : Nat := 4096

/-- Rows have to be listed in ascending order; `index` counts them. -/
def checkOrder (index : Nat) : List Nat → Except Problem Unit
  | [] => .ok ()
  | [_] => .ok ()
  | a :: b :: rest =>
    if b < a then .error (.outOfOrder (index + 1))
    else if a = b then .error (.duplicate (index + 1))
    else checkOrder (index + 1) (b :: rest)

def readList (count : Nat) : Reader (List Nat) := do
  let rows := numbers 2 count (← take (2 * count))
  checkOrder 0 rows
  return rows

def readBits (count : Nat) : Reader (List Nat) := do
  let bits := Bytes.toNat (← take (chunkSize / 8))
  let rows := (List.range chunkSize).filter bits.testBit
  if rows.length ≠ count then throw (.wrongCount count rows.length)
  return rows

/-- The rows of ranges, each given by its first row and the number of rows behind that. -/
def unfoldRanges : List Nat → Except Problem (List Nat)
  | start :: more :: rest => do
    if chunkSize ≤ start + more then throw .rangeTooLong
    return merge (List.range' start (more + 1)) (← unfoldRanges rest)
  | _ => .ok []

def readRanges : Reader (List Nat) := do
  let count ← number 2
  unfoldRanges (numbers 2 (2 * count) (← take (4 * count)))

/-- The rows of a chunk, whose form depends on whether it consists of ranges and on its size. -/
def readRows (isRanges : Bool) (count : Nat) : Reader (List Nat) :=
  if isRanges then readRanges else if count ≤ listLimit then readList count else readBits count

/-- The chunks with the given keys and sizes. Those with a set bit consist of ranges. -/
def readChunks (rangeBits : Nat) (index : Nat) : List (Nat × Nat) → Reader (List RowChunk)
  | [] => pure []
  | (key, count) :: rest => do
    let rows ← readRows (rangeBits.testBit index) count
    return ⟨key, rows⟩ :: (← readChunks rangeBits (index + 1) rest)

/-- Number of chunks from which on a set with ranges says where each chunk starts. -/
def offsetThreshold : Nat := 4

/-- The number of chunks, which of them consist of ranges, and whether their offsets are stored. -/
def readHeader : Reader (Nat × Nat × Bool) := do
  let cookie ← number 4
  if cookie = 12346 then return (← number 4, 0, true)
  else if cookie % chunkSize = 12347 then
    let count := cookie / chunkSize + 1
    return (count, ← number ((count + 7) / 8), offsetThreshold ≤ count)
  else throw .unknownCookie

def pairs : List Nat → List (Nat × Nat)
  | key :: more :: rest => (key, more + 1) :: pairs rest
  | _ => []

def read : Reader RowBitmap := do
  let (count, rangeBits, hasOffsets) ← readHeader
  if chunkSize < count then throw .tooManyChunks
  let keys := pairs (numbers 2 (2 * count) (← take (4 * count)))
  if hasOffsets then discard (take (4 * count))
  return ⟨← readChunks rangeBits 0 keys⟩

/-- Reads a stored set; bytes behind it do not matter. -/
def ofBytes (stored : Bytes) : Except Problem RowBitmap := (read stored).map (·.1)

end RowBitmap

end Columnar
