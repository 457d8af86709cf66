import Columnar.Json.Token

namespace Columnar.Json

/-- A document as a tree. Members keep their order and may repeat a name. -/
inductive Value where
  | null
  | boolean (value : Bool)
  | number (value : Number)
  | string (text : List Char)
  | list (items : List Value)
  | object (members : List (List Char × Value))
  deriving Repr

def levels : Nat := 127

/-- Whether a list goes on, and the text from its next item or from behind its closing bracket. -/
def nextItem (first : Bool) (input : Bytes) : Except Problem (Bool × Bytes) :=
  match skipSpace input with
  | [] => .error .truncated
  | b :: rest =>
    if b = 0x5D then .ok (false, rest)
    else if first then .ok (true, b :: rest)
    else if b ≠ 0x2C then .error .malformed
    else match skipSpace rest with
      | [] => .error .truncated
      | b :: rest => if b = 0x5D then .error .malformed else .ok (true, b :: rest)

/-- The items of a list behind its opening bracket, up to its closing one. -/
def readItems {α : Type} (item : Reader α) (first : Bool) (input : Bytes) : Except Problem (List α × Bytes) :=
  match nextItem first input with
  | .error problem => .error problem
  | .ok (false, rest) => .ok ([], rest)
  | .ok (true, start) =>
    match item start with
    | .error problem => .error problem
    | .ok (value, rest) =>
      if rest.length < input.length then (readItems item false rest).map fun (values, rest) =>
        (value :: values, rest)
      else .error .malformed
termination_by input.length

/-- The name of the next member of an object, or nothing in front of the closing brace, which stays. -/
def readName (first : Bool) (input : Bytes) : Except Problem (Option (List Char) × Bytes) :=
  match skipSpace input with
  | [] => .error .truncated
  | b :: rest =>
    if b = 0x7D then .ok (none, b :: rest)
    else do
      let start ← if first then Except.ok (b :: rest)
        else if b = 0x2C then .ok (skipSpace rest)
        else .error .malformed
      match start with
      | [] => .error .truncated
      | quote :: rest =>
        if quote ≠ 0x22 then .error .malformed
        else (readString rest).map fun (name, rest) => (some name, rest)

/-- The colon behind a name. -/
def readColon (input : Bytes) : Except Problem Bytes :=
  match skipSpace input with
  | [] => .error .truncated
  | b :: rest => if b = 0x3A then .ok rest else .error .malformed

def readObjectEnd (input : Bytes) : Except Problem Bytes :=
  match skipSpace input with
  | [] => .error .truncated
  | b :: rest => if b = 0x7D then .ok rest else .error .malformed

/-- The members of an object behind its opening brace. A member is read into the state built from those before it,
and `start` says by its name how; the closing brace stays. -/
def readMembers {σ : Type} (start : σ → List Char → Except Problem (Reader σ)) (first : Bool) (state : σ)
    (input : Bytes) : Except Problem (σ × Bytes) :=
  match readName first input with
  | .error problem => .error problem
  | .ok (none, rest) => .ok (state, rest)
  | .ok (some name, rest) =>
    match start state name with
    | .error problem => .error problem
    | .ok read =>
      match (readColon rest).bind read with
      | .error problem => .error problem
      | .ok (state, rest) =>
        if rest.length < input.length then readMembers start false state rest else .error .malformed
termination_by input.length

def readValue : Nat → Reader Value
  | depth, input =>
    match skipSpace input with
    | [] => .error .truncated
    | b :: rest =>
      if b = 0x6E then (readWord [0x75, 0x6C, 0x6C] rest).map fun rest => (.null, rest)
      else if b = 0x74 then (readWord [0x72, 0x75, 0x65] rest).map fun rest => (.boolean true, rest)
      else if b = 0x66 then (readWord [0x61, 0x6C, 0x73, 0x65] rest).map fun rest => (.boolean false, rest)
      else if b = 0x2D || isDigitByte b then (readNumber (b :: rest)).map fun (value, rest) => (.number value, rest)
      else if b = 0x22 then (readString rest).map fun (text, rest) => (.string text, rest)
      else match depth with
        | 0 => .error .malformed
        | depth + 1 =>
          if b = 0x5B then (readItems (readValue depth) true rest).map fun (items, rest) => (.list items, rest)
          else if b = 0x7B then do
            let member := fun (members : List (List Char × Value)) name => Except.ok fun input =>
              (readValue depth input).map fun (value, rest) => ((name, value) :: members, rest)
            let (members, rest) ← readMembers member true [] rest
            let rest ← readObjectEnd rest
            .ok (.object members.reverse, rest)
          else .error .malformed

end Columnar.Json
