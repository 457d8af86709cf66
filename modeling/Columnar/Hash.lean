import Columnar.Bytes

namespace Columnar

/-- A 64 bit hash of byte strings: four lanes take in 32 bytes at a time, what is left is taken in by words of eight
and four bytes and by single bytes, and the outcome is stirred. All arithmetic wraps. -/
structure Hash where
  first : UInt64
  second : UInt64
  third : UInt64
  fourth : UInt64
  deriving DecidableEq, Repr

namespace Hash

def prime1 : UInt64 := 0x9E3779B185EBCA87
def prime2 : UInt64 := 0xC2B2AE3D27D4EB4F
def prime3 : UInt64 := 0x165667B19E3779F9
def prime4 : UInt64 := 0x85EBCA77C2B2AE63
def prime5 : UInt64 := 0x27D4EB2F165667C5

def rotate (word shift : UInt64) : UInt64 := word <<< shift ||| word >>> (64 - shift)

def round (lane input : UInt64) : UInt64 := rotate (lane + input * prime2) 31 * prime1

def merge (sum lane : UInt64) : UInt64 := (sum ^^^ round 0 lane) * prime1 + prime4

/-- The word of some bytes, least significant first. -/
def word (bytes : Bytes) : UInt64 := UInt64.ofNat (Bytes.toNat bytes)

def initial : Hash := ⟨prime1 + prime2, prime2, 0, 0 - prime1⟩

/-- Takes in 32 bytes. -/
def takeIn (hash : Hash) (stripe : Bytes) : Hash where
  first := round hash.first (word (stripe.take 8))
  second := round hash.second (word ((stripe.drop 8).take 8))
  third := round hash.third (word ((stripe.drop 16).take 8))
  fourth := round hash.fourth (word ((stripe.drop 24).take 8))

/-- Takes in stripes of 32 bytes as long as there are any; gives what is left. -/
def stripes (hash : Hash) (data : Bytes) : Hash × Bytes :=
  if 32 ≤ data.length then (hash.takeIn (data.take 32)).stripes (data.drop 32) else (hash, data)
termination_by data.length
decreasing_by simp only [List.length_drop]; omega

def collect (hash : Hash) : UInt64 :=
  let sum := rotate hash.first 1 + rotate hash.second 7 + rotate hash.third 12 + rotate hash.fourth 18
  merge (merge (merge (merge sum hash.first) hash.second) hash.third) hash.fourth

def takeBytes (sum : UInt64) : Bytes → UInt64
  | [] => sum
  | b :: rest => takeBytes (rotate (sum ^^^ b.toUInt64 * prime5) 11 * prime1) rest

/-- Takes in less than eight bytes. -/
def takeShort (sum : UInt64) (data : Bytes) : UInt64 :=
  if 4 ≤ data.length then
    takeBytes (rotate (sum ^^^ word (data.take 4) * prime1) 23 * prime2 + prime3) (data.drop 4)
  else takeBytes sum data

/-- Takes in what the lanes leave. -/
def takeRest (sum : UInt64) (data : Bytes) : UInt64 :=
  if 8 ≤ data.length then
    takeRest (rotate (sum ^^^ round 0 (word (data.take 8))) 27 * prime1 + prime4) (data.drop 8)
  else takeShort sum data
termination_by data.length
decreasing_by simp only [List.length_drop]; omega

def stir (sum : UInt64) : UInt64 :=
  let sum := (sum ^^^ sum >>> 33) * prime2
  let sum := (sum ^^^ sum >>> 29) * prime3
  sum ^^^ sum >>> 32

/-- The hash of a byte string. Short ones do without the lanes. -/
def ofBytes (data : Bytes) : Nat :=
  let (hash, rest) := initial.stripes data
  let start := if 32 ≤ data.length then hash.collect else prime5
  (stir (takeRest (start + UInt64.ofNat data.length) rest)).toNat

end Hash

end Columnar
