import Columnar.Json.Token

namespace Columnar.Json

def skipEscape : Bytes → Except Problem Nat
  | [] => .error .truncated
  | b :: rest =>
    if (escapedLetter? b).isSome then .ok 1
    else if b = 0x75 then (readHex4 rest).map fun _ => 5
    else .error .malformed

def skipString : Bytes → Except Problem Bytes
  | [] => .error .truncated
  | b :: rest =>
    if b = 0x22 then .ok rest
    else if b = 0x5C then do
      let count ← skipEscape rest
      skipString (rest.drop count)
    else if b < 0x20 then .error .malformed
    else skipString rest
termination_by input => input.length
decreasing_by
  · simp only [List.length_drop, List.length_cons]; omega
  · simp

/-- The kinds of brackets a value can stand in. -/
inductive Bracket where
  | list | object
  deriving DecidableEq, Repr

def Bracket.closing : Bracket → UInt8
  | list => 0x5D
  | object => 0x7D

def skipName (bracket : Bracket) (input : Bytes) : Except Problem Bytes :=
  match bracket with
  | .list => .ok input
  | .object =>
    match skipSpace input with
    | [] => .error .truncated
    | quote :: rest =>
      if quote ≠ 0x22 then .error .malformed
      else do
        let rest ← skipString rest
        match skipSpace rest with
        | [] => .error .truncated
        | b :: rest => if b = 0x3A then .ok rest else .error .malformed

/-- A value that is no list and no object, without regard to what it stands for. -/
def skipLeaf (input : Bytes) : Except Problem Bytes :=
  match input with
  | [] => .error .truncated
  | b :: rest =>
    if b = 0x6E then readWord [0x75, 0x6C, 0x6C] rest
    else if b = 0x74 then readWord [0x72, 0x75, 0x65] rest
    else if b = 0x66 then readWord [0x61, 0x6C, 0x73, 0x65] rest
    else if b = 0x2D || isDigitByte b then (readNumeral .malformed input).map (·.2)
    else if b = 0x22 then skipString rest
    else .error .malformed

mutual

/-- What follows a value that stands in the given brackets, innermost first, and then its brackets. Every step uses
up a byte, and `steps` bounds the bytes. -/
def skipValue (steps : Nat) (brackets : List Bracket) (input : Bytes) : Except Problem Bytes :=
  match steps with
  | 0 => .error .malformed
  | steps + 1 =>
    match skipSpace input with
    | [] => .error .truncated
    | b :: rest =>
      if b = 0x5B then skipOpening steps .list brackets rest
      else if b = 0x7B then skipOpening steps .object brackets rest
      else do
        let rest ← skipLeaf (b :: rest)
        skipBehind steps brackets rest

/-- Goes on behind an opening bracket. -/
def skipOpening (steps : Nat) (bracket : Bracket) (brackets : List Bracket) (input : Bytes) :
    Except Problem Bytes :=
  match steps with
  | 0 => .error .malformed
  | steps + 1 =>
    match skipSpace input with
    | [] => .error .truncated
    | b :: rest =>
      if b = bracket.closing then skipBehind steps brackets rest
      else do
        let rest ← skipName bracket (b :: rest)
        skipValue steps (bracket :: brackets) rest

/-- Goes on behind a value. -/
def skipBehind (steps : Nat) (brackets : List Bracket) (input : Bytes) : Except Problem Bytes :=
  match steps, brackets with
  | _, [] => .ok input
  | 0, _ => .error .malformed
  | steps + 1, bracket :: outer =>
    match skipSpace input with
    | [] => .error .truncated
    | b :: rest =>
      if b = 0x2C then do
        let rest ← skipName bracket rest
        skipValue steps (bracket :: outer) rest
      else if b = bracket.closing then skipBehind steps outer rest
      else .error .malformed

end

def skipAny (input : Bytes) : Except Problem Bytes := skipValue (2 * input.length + 2) [] input

end Columnar.Json
