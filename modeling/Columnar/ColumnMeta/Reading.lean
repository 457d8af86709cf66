import Columnar.ColumnMeta
import Columnar.Json.Record

namespace Columnar

open Json

namespace Extent

structure Draft where
  offset : Option Nat := none
  size : Option Nat := none

def fields : List (RecordField Draft) :=
  [⟨"offset", fun draft => draft.offset.isSome, fun draft => do return { draft with offset := ← readNatural 64 }⟩,
    ⟨"size", fun draft => draft.size.isSome, fun draft => do return { draft with size := ← readNatural 32 }⟩]

def Draft.finish (draft : Draft) : Option Extent := do return ⟨← draft.offset, ← draft.size⟩

end Extent

/-- The member of an object with the given name. Two of them are a mismatch. -/
def Json.Value.member? (name : String) (members : List (List Char × Value)) : Except Problem (Option Value) :=
  match members.filter fun entry => entry.1 = name.toList with
  | [] => .ok none
  | [entry] => .ok (some entry.2)
  | _ => .error .mismatch

/-- The members of a record in a tree, by name or by position. More positions than members are a mismatch. -/
def Json.Value.record (names : List String) : Value → Except Problem (List (Option Value))
  | .object members => names.mapM fun name => Value.member? name members
  | .list items =>
    if names.length < items.length then .error .mismatch
    else .ok ((List.range names.length).map fun index => items[index]?)
  | _ => .error .mismatch

def Json.Value.natural (bits : Nat) : Value → Except Problem Nat
  | .number (.natural value) => if value < 2 ^ bits then .ok value else .error .mismatch
  | _ => .error .mismatch

def Json.Value.truth : Value → Except Problem Bool
  | .boolean value => .ok value
  | _ => .error .mismatch

def Json.Value.text : Value → Except Problem String
  | .string value => .ok (String.ofList value)
  | _ => .error .mismatch

/-- A member without a default. -/
def Json.Value.required {α : Type} (read : Value → Except Problem α) : Option Value → Except Problem α
  | some value => read value
  | none => .error .mismatch

def Json.Value.orElse {α : Type} (default : α) (read : Value → Except Problem α) : Option Value → Except Problem α
  | some value => read value
  | none => .ok default

def Extent.ofValue (value : Value) : Except Problem Extent := do
  match ← value.record ["offset", "size"] with
  | [offset, size] => return ⟨← Value.required (Value.natural 64) offset, ← Value.required (Value.natural 32) size⟩
  | _ => throw .mismatch

def ZoneMap.ofValue (value : Value) : Except Problem ZoneMap := do
  match ← value.record ["min", "max", "has_null", "has_not_null", "pass_all"] with
  | [min, max, hasNull, hasValue, passAll] =>
    return {
      min := ← Value.orElse "" Value.text min
      max := ← Value.orElse "" Value.text max
      hasNull := ← Value.orElse false Value.truth hasNull
      hasValue := ← Value.orElse false Value.truth hasValue
      passAll := ← Value.orElse false Value.truth passAll }
  | _ => throw .mismatch

/-- The kinds of index by name. -/
inductive IndexKind where
  | ordinal | zoneMap | bitmap | bloomFilter | unknown
  deriving DecidableEq, Repr

def IndexKind.ofName (name : List Char) : IndexKind :=
  if name = "ordinal".toList then .ordinal
  else if name = "zone_map".toList then .zoneMap
  else if name = "bitmap".toList then .bitmap
  else if name = "bloom_filter".toList then .bloomFilter
  else .unknown

/-- The rest of an index once its kind is known. An unknown kind has members of any name, but no positions. -/
def IndexMeta.ofValue (kind : IndexKind) (value : Value) : Except Problem IndexMeta :=
  match kind with
  | .ordinal => do
    match ← value.record ["root_page", "is_root_data_page"] with
    | [root, single] =>
      return .ordinal (← Value.required Extent.ofValue root) (← Value.orElse false Value.truth single)
    | _ => throw .mismatch
  | .zoneMap => do
    match ← value.record ["segment_zone_map", "page_zone_maps"] with
    | [whole, pages] =>
      return .zoneMap (← Value.required ZoneMap.ofValue whole) (← Value.required Extent.ofValue pages)
    | _ => throw .mismatch
  | .bitmap => do
    match ← value.record ["dict_column", "bitmap_column"] with
    | [words, bitmaps] =>
      return .bitmap (← Value.required Extent.ofValue words) (← Value.required Extent.ofValue bitmaps)
    | _ => throw .mismatch
  | .bloomFilter => do
    match ← value.record ["bloom_filters"] with
    | [filters] => return .bloomFilter (← Value.required Extent.ofValue filters)
    | _ => throw .mismatch
  | .unknown =>
    match value with
    | .list (_ :: _) => .error .mismatch
    | _ => .ok .unknown

/-- What has been read of an index: its kind and its other members, last one first. -/
structure IndexDraft where
  kind : Option IndexKind := none
  members : List (List Char × Value) := []

/-- The kind may stand at any place among the members, so the others are kept as they are until all are read. -/
def IndexDraft.startMember (depth : Nat) (draft : IndexDraft) (name : List Char) :
    Except Problem (Reader IndexDraft) :=
  if name ≠ "kind".toList then
    .ok fun input => (readValue depth input).map fun (value, rest) =>
      ({ draft with members := (name, value) :: draft.members }, rest)
  else if draft.kind.isSome then .error .mismatch
  else .ok fun input => (readText input).map fun (name, rest) => ({ draft with kind := some (.ofName name) }, rest)

/-- An index as an object with a member `kind`, or as a list that starts with the kind. -/
def IndexMeta.read (depth : Nat) : Reader IndexMeta := fun input =>
  match skipSpace input with
  | [] => .error .truncated
  | b :: rest =>
    if b ≠ 0x5B && b ≠ 0x7B then rejectValue (b :: rest)
    else match depth with
      | 0 => .error .malformed
      | depth + 1 =>
        if b = 0x5B then
          match nextItem true rest with
          | .error problem => .error problem
          | .ok (false, _) => .error .mismatch
          | .ok (true, start) => do
            let (name, rest) ← readText start
            let (items, rest) ← readItems (readValue depth) false rest
            let found ← IndexMeta.ofValue (.ofName name) (.list items)
            .ok (found, rest)
        else do
          let (draft, rest) ← readMembers (IndexDraft.startMember depth) true {} rest
          match draft.kind with
          | none => .error .mismatch
          | some kind =>
            let rest ← readObjectEnd rest
            let found ← IndexMeta.ofValue kind (.object draft.members.reverse)
            .ok (found, rest)

namespace ColumnMeta

/-- What has been read of a column. -/
structure Draft where
  columnId : Option Nat := none
  type : Option ColumnType := none
  encoding : Option Encoding := none
  codec : Option Codec := none
  length : Option Nat := none
  isNullable : Option Bool := none
  rows : Option Nat := none
  indexes : Option (List IndexMeta) := none
  dictionary : Option (Option Extent) := none
  children : Option (List ColumnMeta) := none

/-- The members of a column. `depth` is the number of levels below it, and `child?` reads a column there. -/
def fields (depth : Nat) (child? : Option (Reader ColumnMeta)) : List (RecordField Draft) :=
  let deeper := depth ≠ 0
  let below := fun {α : Type} (value : α) => if deeper then some value else none
  [⟨"column_id", fun draft => draft.columnId.isSome, fun draft => do
      return { draft with columnId := ← readNatural 32 }⟩,
    ⟨"type", fun draft => draft.type.isSome, fun draft => do
      return { draft with type := ← readChoice deeper fun name => ColumnType.ofName? (String.ofList name) }⟩,
    ⟨"encoding", fun draft => draft.encoding.isSome, fun draft => do
      return { draft with encoding := ← readChoice deeper fun name => some (Encoding.ofName name) }⟩,
    ⟨"compression", fun draft => draft.codec.isSome, fun draft => do
      return { draft with codec := ← readChoice deeper fun name => some (Codec.ofName name) }⟩,
    ⟨"length", fun draft => draft.length.isSome, fun draft => do return { draft with length := ← readNatural 32 }⟩,
    ⟨"is_nullable", fun draft => draft.isNullable.isSome, fun draft => do
      return { draft with isNullable := ← readBoolean }⟩,
    ⟨"num_rows", fun draft => draft.rows.isSome, fun draft => do return { draft with rows := ← readNatural 64 }⟩,
    ⟨"indexes", fun draft => draft.indexes.isSome, fun draft => do
      return { draft with indexes := ← readList (below (IndexMeta.read (depth - 1))) }⟩,
    ⟨"dict_page", fun draft => draft.dictionary.isSome, fun draft => do
      let found ← readOptional (readRecord (below Extent.fields) {} Extent.Draft.finish)
      return { draft with dictionary := some found }⟩,
    ⟨"children", fun draft => draft.children.isSome, fun draft => do
      return { draft with children := ← readList child? }⟩]

/-- Identifier, type and number of rows have to be given. -/
def Draft.finish (draft : Draft) : Option ColumnMeta := do
  let own : LeafMeta := {
    columnId := ← draft.columnId
    type := ← draft.type
    encoding := draft.encoding.getD .default
    codec := draft.codec.getD .none
    length := draft.length.getD 0
    isNullable := draft.isNullable.getD false
    rows := ← draft.rows
    indexes := draft.indexes.getD []
    dictionary := draft.dictionary.getD none }
  return ⟨own, draft.children.getD []⟩

/-- A column with at most the given number of levels of brackets, its own included. -/
def read : Nat → Reader ColumnMeta
  | 0 => readRecord none ({} : Draft) Draft.finish
  | 1 => readRecord (some (fields 0 none)) {} Draft.finish
  | depth + 2 => readRecord (some (fields (depth + 1) (some (read depth)))) {} Draft.finish

def ofJson (document : Bytes) : Except Problem ColumnMeta := readDocument (read levels) document

end ColumnMeta

end Columnar
