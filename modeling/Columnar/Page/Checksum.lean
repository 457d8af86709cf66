import Columnar.Bytes

namespace Columnar.Page

/-- The reflected generator polynomial of the 32-bit cyclic redundancy check. -/
def checksumPolynomial : BitVec 32 := 0xEDB88320#32

/-- Division by the polynomial takes in one bit. -/
def checksumBit (register : BitVec 32) : BitVec 32 :=
  if register.getLsbD 0 then (register >>> 1) ^^^ checksumPolynomial else register >>> 1

def checksumBits : Nat → BitVec 32 → BitVec 32
  | 0, register => register
  | count + 1, register => checksumBits count (checksumBit register)

/-- A byte is taken in from its least significant bit. -/
def checksumByte (register : BitVec 32) (b : UInt8) : BitVec 32 :=
  checksumBits 8 (register ^^^ b.toBitVec.setWidth 32)

/-- The cyclic redundancy check of a byte string; the register starts and ends inverted. -/
def checksum (bytes : Bytes) : Nat :=
  (bytes.foldl checksumByte 0xFFFFFFFF#32 ^^^ 0xFFFFFFFF#32).toNat

end Columnar.Page
