import Columnar.FloatFormat.Rounding
import Columnar.Text.Utf8

namespace Columnar.Json

/-- Why a document cannot be read. Of several reasons the leftmost one counts. -/
inductive Problem where
  /-- The text is not JSON. -/
  | malformed
  /-- The text ends inside the document. -/
  | truncated
  /-- A value is not of the kind that is expected at its place. -/
  | mismatch
  deriving DecidableEq, Repr

/-- Reads a value from the front of a text and leaves the rest. -/
abbrev Reader := StateT Bytes (Except Problem)

def isSpace (b : UInt8) : Bool := b = 0x20 || b = 0x0A || b = 0x09 || b = 0x0D

def skipSpace (input : Bytes) : Bytes := input.dropWhile isSpace

def isDigitByte (b : UInt8) : Bool := 0x30 ≤ b && b ≤ 0x39

def byteDigitsValue (digits : Bytes) : Nat := digits.foldl (fun n b => 10 * n + (b.toNat - 48)) 0

/-- The rest of the text behind a word that has to stand at its front. -/
def readWord : Bytes → Bytes → Except Problem Bytes
  | [], input => .ok input
  | _ :: _, [] => .error .truncated
  | w :: word, b :: rest => if w = b then readWord word rest else .error .malformed

def hexValue? (b : UInt8) : Option Nat :=
  if 0x30 ≤ b && b ≤ 0x39 then some (b.toNat - 48)
  else if 0x61 ≤ b && b ≤ 0x66 then some (b.toNat - 87)
  else if 0x41 ≤ b && b ≤ 0x46 then some (b.toNat - 55)
  else none

def readHex4 : Bytes → Except Problem Nat
  | a :: b :: c :: d :: _ =>
    match hexValue? a, hexValue? b, hexValue? c, hexValue? d with
    | some a, some b, some c, some d => .ok (((a * 16 + b) * 16 + c) * 16 + d)
    | _, _, _, _ => .error .malformed
  | _ => .error .truncated

/-- The character a letter behind a backslash stands for. -/
def escapedLetter? (b : UInt8) : Option UInt8 :=
  if b = 0x22 || b = 0x5C || b = 0x2F then some b
  else if b = 0x62 then some 0x08
  else if b = 0x66 then some 0x0C
  else if b = 0x6E then some 0x0A
  else if b = 0x72 then some 0x0D
  else if b = 0x74 then some 0x09
  else none

/-- What stands behind `\u`: a code unit, or a surrogate pair written as two of them. The count is that of the bytes
read. -/
def readUnicodeEscape (input : Bytes) : Except Problem (Bytes × Nat) := do
  let unit ← readHex4 input
  if 0xDC00 ≤ unit && unit ≤ 0xDFFF then throw .malformed
  else if unit < 0xD800 || 0xDFFF < unit then pure (Text.encodeUtf8 [Char.ofNat unit], 4)
  else
    match input.drop 4 with
    | [] => throw .truncated
    | backslash :: rest =>
      if backslash ≠ 0x5C then throw .malformed
      else match rest with
        | [] => throw .truncated
        | letter :: rest =>
          if letter ≠ 0x75 then throw .malformed
          else
            let second ← readHex4 rest
            if second < 0xDC00 || 0xDFFF < second then throw .malformed
            else pure (Text.encodeUtf8 [Char.ofNat ((unit - 0xD800) * 0x400 + (second - 0xDC00) + 0x10000)], 10)

/-- What stands behind a backslash, and how many bytes it takes. -/
def readEscape : Bytes → Except Problem (Bytes × Nat)
  | [] => .error .truncated
  | b :: rest =>
    match escapedLetter? b with
    | some c => .ok ([c], 1)
    | none =>
      if b = 0x75 then (readUnicodeEscape rest).map fun (piece, count) => (piece, count + 1) else .error .malformed

def readStringBytes : Bytes → Except Problem (Bytes × Bytes)
  | [] => .error .truncated
  | b :: rest =>
    if b = 0x22 then .ok ([], rest)
    else if b = 0x5C then do
      let (piece, count) ← readEscape rest
      let (text, rest) ← readStringBytes (rest.drop count)
      .ok (piece ++ text, rest)
    else if b < 0x20 then .error .malformed
    else do
      let (text, rest) ← readStringBytes rest
      .ok (b :: text, rest)
termination_by input => input.length
decreasing_by
  · simp only [List.length_drop, List.length_cons]; omega
  · simp

/-- A string behind its opening quote. Its bytes have to be text once the closing quote is reached. -/
def readString : Reader (List Char) := fun input => do
  let (bytes, rest) ← readStringBytes input
  match Text.decodeUtf8? bytes with
  | some text => .ok (text, rest)
  | none => .error .malformed

/-- The parts of a written number. -/
structure Numeral where
  negative : Bool
  whole : Bytes
  fraction : Option Bytes
  exponent : Option Int
  deriving Repr

/-- The exponent of a number, if there is one. `atEnd` is the problem of a number that stops short. -/
def readExponent (atEnd : Problem) : Bytes → Except Problem (Option Int × Bytes)
  | [] => .ok (none, [])
  | mark :: rest =>
    if mark ≠ 0x65 && mark ≠ 0x45 then .ok (none, mark :: rest)
    else
      let negative := rest.head? = some 0x2D
      let body := if negative || rest.head? = some 0x2B then rest.drop 1 else rest
      match body with
      | [] => .error atEnd
      | b :: _ =>
        if !isDigitByte b then .error .malformed
        else
          let value : Int := byteDigitsValue (body.takeWhile isDigitByte)
          .ok (some (if negative then -value else value), body.dropWhile isDigitByte)

def readFraction (atEnd : Problem) : Bytes → Except Problem (Option Bytes × Bytes)
  | [] => .ok (none, [])
  | point :: rest =>
    if point ≠ 0x2E then .ok (none, point :: rest)
    else match rest with
      | [] => .error atEnd
      | b :: _ =>
        if !isDigitByte b then .error .malformed
        else .ok (some (rest.takeWhile isDigitByte), rest.dropWhile isDigitByte)

/-- A number: no zeros in front, and a digit on both sides of the point. -/
def readNumeral (atEnd : Problem) (input : Bytes) : Except Problem (Numeral × Bytes) :=
  let negative := input.head? = some 0x2D
  let body := if negative then input.drop 1 else input
  match body with
  | [] => .error atEnd
  | b :: rest =>
    if !isDigitByte b || b = 0x30 && (rest.head?.map isDigitByte).getD false then .error .malformed
    else do
      let (fraction, rest) ← readFraction atEnd (body.dropWhile isDigitByte)
      let (exponent, rest) ← readExponent atEnd rest
      .ok (⟨negative, body.takeWhile isDigitByte, fraction, exponent⟩, rest)

/-- A number is either a natural number of at most 64 bits, written without point and exponent, or of no use
here. -/
inductive Number where
  | natural (value : Nat)
  | other
  deriving DecidableEq, Repr

/-- One more than the greatest number of 64 bits. -/
def Number.bound : Nat := 0x10000000000000000

/-- The longest run of digits that can be put behind those of a number below `Number.bound` without reaching it: the
number it leads to, and the digits that are left. -/
def Number.extend (value : Nat) : Bytes → Nat × Bytes
  | [] => (value, [])
  | digit :: rest =>
    let longer := byteDigitsValue [digit] + 10 * value
    if longer < Number.bound then Number.extend longer rest else (value, digit :: rest)

/-- A number as an integer of at most 64 bits and a power of ten. Digits that do not fit into the integer count as
zeros, and those behind the point are dropped. -/
def Numeral.scaled (numeral : Numeral) : Nat × Int :=
  let fraction := numeral.fraction.getD []
  let (whole, excess) := Number.extend 0 numeral.whole
  let (value, dropped) := Number.extend whole fraction
  (value, numeral.exponent.getD 0 + excess.length - (fraction.length - dropped.length : Nat))

def greatestPower : Nat := 308

/-- Whether a number is too great for the double format. The integer and the power of ten are each taken to the
nearest double before they are multiplied, so a number next to the greatest double can be too great as well. -/
def Numeral.overflows (numeral : Numeral) : Bool :=
  let format := FloatFormat.double
  let (value, exponent) := numeral.scaled
  if value = 0 || exponent < 0 then false
  else greatestPower < exponent ||
    format.multiply (format.ofNat value) (format.ofNat (10 ^ exponent.toNat)) = format.infinity

def Numeral.number (numeral : Numeral) : Number :=
  let value := byteDigitsValue numeral.whole
  if numeral.negative || numeral.fraction.isSome || numeral.exponent.isSome || Number.bound ≤ value then .other
  else .natural value

/-- A number that stays within the double format. -/
def readNumber : Reader Number := fun input => do
  let (numeral, rest) ← readNumeral .truncated input
  if numeral.overflows then .error .malformed else .ok (numeral.number, rest)

end Columnar.Json
