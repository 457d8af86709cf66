import Columnar.Cursor
import Columnar.Hash
import Columnar.Scalar.Storage

namespace Columnar

/-- Tells values that a page certainly does not hold from others. The bits stand in blocks of 256; a value sets
eight bits of one block, one in each of its eight words. -/
structure BloomFilter where
  blocks : Bytes
  hasNull : Bool
  deriving DecidableEq, Repr

def Error.brokenBlocks (size : Nat) : Error :=
  corruption s!"bloom filter of {size} bytes is not a whole number of blocks"

namespace BloomFilter

def blockSize : Nat := 32

def salts : List Nat :=
  [0x47b6137b, 0x44974d91, 0x8824ad5b, 0xa2b7289d, 0x705495c7, 0x2df1424b, 0x9efc4947, 0x5c6bfb31]

def create (blocks : Bytes) (hasNull : Bool) : Except Error BloomFilter :=
  if blocks.isEmpty ∨ blocks.length % blockSize ≠ 0 then .error (.brokenBlocks blocks.length)
  else .ok ⟨blocks, hasNull⟩

def half : Nat := 0x100000000

/-- The block of a hash: its upper half, taken as a fraction of the number of blocks. -/
def blockOf (blocks hash : Nat) : Nat := hash / half * blocks / half

/-- The bits of a hash in its block, from the lower half of the hash. -/
def bitsOf (hash : Nat) : List Nat :=
  salts.zipIdx.map fun (salt, word) => 32 * word + hash * salt % half / (half / 32)

/-- All bits of a hash are set. -/
def holdsHash (filter : BloomFilter) (hash : Nat) : Bool :=
  let start := blockSize * blockOf (filter.blocks.length / blockSize) hash
  let block := Bytes.toNat ((filter.blocks.drop start).take blockSize)
  (bitsOf hash).all block.testBit

def mayHoldBytes (filter : BloomFilter) (stored : Bytes) : Bool := filter.holdsHash (Hash.ofBytes stored)

def mayHold (filter : BloomFilter) (value : Scalar) : Bool :=
  if value.isNull then filter.hasNull else filter.mayHoldBytes value.storage

/-- A filter in an index page: a byte that tells of nulls, then the blocks behind their length. -/
def read : Read BloomFilter := do
  let hasNull := (← Read.natural 1) ≠ 0
  create (← Read.prefixed) hasNull

def ofBody (body : Bytes) (count : Nat) : Except Error (List BloomFilter) :=
  (Read.start (Read.repeated read count) body).map (·.1)

end BloomFilter

end Columnar
