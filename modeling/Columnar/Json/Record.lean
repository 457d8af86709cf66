import Columnar.Json.Skip
import Columnar.Json.Value

namespace Columnar.Json

/-- Reads past a value that is not of the expected kind: a problem inside of a word, a number or a string comes
before the wrong kind. -/
def rejectValue {α : Type} (input : Bytes) : Except Problem α :=
  match skipSpace input with
  | [] => .error .truncated
  | b :: rest =>
    if b = 0x5B || b = 0x7B then .error .mismatch
    else if b = 0x2D || isDigitByte b then (readNumber (b :: rest)).bind fun _ => .error .mismatch
    else if b = 0x22 then (readString rest).bind fun _ => .error .mismatch
    else (skipLeaf (b :: rest)).bind fun _ => .error .mismatch

/-- A natural number below `2 ^ bits`. -/
def readNatural (bits : Nat) : Reader Nat := fun input =>
  match skipSpace input with
  | [] => .error .truncated
  | b :: rest =>
    if b = 0x2D || isDigitByte b then do
      match ← readNumber (b :: rest) with
      | (.natural value, rest) => if value < 2 ^ bits then .ok (value, rest) else .error .mismatch
      | (.other, _) => .error .mismatch
    else rejectValue (b :: rest)

def readBoolean : Reader Bool := fun input =>
  match skipSpace input with
  | [] => .error .truncated
  | b :: rest =>
    if b = 0x74 then (readWord [0x72, 0x75, 0x65] rest).map fun rest => (true, rest)
    else if b = 0x66 then (readWord [0x61, 0x6C, 0x73, 0x65] rest).map fun rest => (false, rest)
    else rejectValue (b :: rest)

def readText : Reader (List Char) := fun input =>
  match skipSpace input with
  | [] => .error .truncated
  | b :: rest => if b = 0x22 then readString rest else rejectValue (b :: rest)

def readNull : Reader Unit := fun input =>
  match skipSpace input with
  | [] => .error .truncated
  | b :: rest =>
    if b = 0x6E then (readWord [0x75, 0x6C, 0x6C] rest).map fun rest => ((), rest) else rejectValue (b :: rest)

def readOptional {α : Type} (value : Reader α) : Reader (Option α) := fun input =>
  if (skipSpace input).head? = some 0x6E then (readNull input).map fun (_, rest) => (none, rest)
  else (value input).map fun (found, rest) => (some found, rest)

/-- A list. Its items are read by `item?`, which is absent where no further level of brackets is allowed. -/
def readList {α : Type} (item? : Option (Reader α)) : Reader (List α) := fun input =>
  match skipSpace input with
  | [] => .error .truncated
  | b :: rest =>
    if b ≠ 0x5B then rejectValue (b :: rest)
    else match item? with
      | some item => readItems item true rest
      | none => .error .malformed

/-- One of several names, as a string or as the only member of an object whose value is `null`. -/
def readChoice {α : Type} (deeper : Bool) (choose : List Char → Option α) : Reader α := fun input =>
  let named := fun input => do
    let (name, rest) ← readText input
    match choose name with
    | some found => Except.ok (found, rest)
    | none => .error .mismatch
  match skipSpace input with
  | [] => .error .truncated
  | b :: rest =>
    if b = 0x22 then named (b :: rest)
    else if b = 0x7B && deeper then do
      let (found, rest) ← named rest
      let rest ← readColon rest
      let (_, rest) ← readNull rest
      let rest ← readObjectEnd rest
      .ok (found, rest)
    else .error .malformed

/-- A member of a record: its name, whether it has been read, and how it is read into what has been read before. -/
structure RecordField (σ : Type) where
  name : String
  present : σ → Bool
  read : σ → Reader σ

def readListEnd (input : Bytes) : Except Problem Bytes :=
  match skipSpace input with
  | [] => .error .truncated
  | b :: rest => if b = 0x5D then .ok rest else .error .malformed

/-- The members of a record by position. Later ones may be left out. -/
def readPositions {σ : Type} : List (RecordField σ) → Bool → σ → Bytes → Except Problem (σ × Bytes)
  | [], _, state, input => (readListEnd input).map fun rest => (state, rest)
  | field :: fields, first, state, input =>
    match nextItem first input with
    | .error problem => .error problem
    | .ok (false, rest) => .ok (state, rest)
    | .ok (true, start) =>
      match field.read state start with
      | .error problem => .error problem
      | .ok (state, rest) => readPositions fields false state rest

/-- How a member is read: under its name once, and past any name that no member has. -/
def startMember {σ : Type} (fields : List (RecordField σ)) (state : σ) (name : List Char) :
    Except Problem (Reader σ) :=
  match fields.find? fun field => field.name.toList = name with
  | none => .ok fun input => (skipAny input).map fun rest => (state, rest)
  | some field => if field.present state then .error .mismatch else .ok (field.read state)

/-- A record, as an object or as a list of its members in order. `finish` gives nothing where a member is missing
that has no default. The fields are absent where no further level of brackets is allowed. -/
def readRecord {σ α : Type} (fields? : Option (List (RecordField σ))) (blank : σ) (finish : σ → Option α) :
    Reader α :=
  fun input =>
    let finished := fun state rest =>
      match finish state with
      | some found => Except.ok (found, rest)
      | none => .error .mismatch
    match skipSpace input with
    | [] => .error .truncated
    | b :: rest =>
      if b ≠ 0x5B && b ≠ 0x7B then rejectValue (b :: rest)
      else match fields? with
        | none => .error .malformed
        | some fields =>
          if b = 0x5B then do
            let (state, rest) ← readPositions fields true blank rest
            finished state rest
          else do
            let (state, rest) ← readMembers (startMember fields) true blank rest
            let (found, rest) ← finished state rest
            (readObjectEnd rest).map fun rest => (found, rest)

/-- A whole document: nothing but white space follows the value. -/
def readDocument {α : Type} (value : Reader α) (input : Bytes) : Except Problem α := do
  let (found, rest) ← value input
  if (skipSpace rest).isEmpty then .ok found else .error .malformed

def Value.ofBytes : Bytes → Except Problem Value := readDocument (readValue levels)

end Columnar.Json
