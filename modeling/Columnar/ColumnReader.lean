import Columnar.Pruning

namespace Columnar

/-- A column that has been checked and can be read. An array column is read through its items, the lengths of its
rows, and its null flags where it has any. -/
inductive ColumnReader where
  | leaf (reader : LeafReader)
  | array (items : ColumnReader) (lengths : LeafReader) (flags : Option LeafReader)
  deriving Repr

namespace Error

def wrongChildren (column : LeafMeta) (file : String) (found expected : Nat) : Error :=
  let kind := if column.isNullable then "nullable" else "non-nullable"
  corruption s!"{kind} array column {column.columnId} of {file} has {found} children, expected {expected}"

def nestedChild (role : String) (columnId : Nat) (file : String) : Error :=
  corruption s!"array {role} column {columnId} of {file} must be scalar"

end Error

namespace ColumnReader

/-- A child of an array column that has to be a leaf. -/
def createLeaf (options : ReaderOptions) (column : LeafMeta) (file role : String) (key : LeafKey) :
    Except Error LeafReader :=
  if column.type = .array then .error (.nestedChild role column.columnId file)
  else LeafReader.create options column column.rows file key

/-- Checks the metadata of a column with so many rows. The rows of the children of an array are their own. -/
def create (options : ReaderOptions) (file : String) : (column : ColumnMeta) → (rows : Nat) → (key : LeafKey) →
    Except Error ColumnReader
  | ⟨own, children⟩, rows, key =>
    if own.type ≠ .array then leaf <$> LeafReader.create options own rows file key
    else match own.isNullable, children with
      | false, [item, lengths] => do
        let items ← create options file item item.own.rows (key ++ [.items])
        let lengths ← createLeaf options lengths.own file "lengths" (key ++ [.lengths])
        return array items lengths none
      | true, [item, lengths, flags] => do
        let items ← create options file item item.own.rows (key ++ [.items])
        let lengths ← createLeaf options lengths.own file "lengths" (key ++ [.lengths])
        let flags ← createLeaf options flags.own file "null flags" (key ++ [.flags])
        return array items lengths (some flags)
      | nullable, children =>
        .error (.wrongChildren own file children.length (if nullable then 3 else 2))

def rows : ColumnReader → Nat
  | leaf reader => reader.rows
  | array _ lengths _ => lengths.rows

def type : ColumnReader → ColumnType
  | leaf reader => reader.column.type
  | array .. => .array

def isNullable : ColumnReader → Bool
  | leaf reader => reader.column.isNullable
  | array _ _ flags => flags.isSome

def innermost : ColumnReader → LeafReader
  | leaf reader => reader
  | array items _ _ => items.innermost

def loadIndexes : ColumnReader → Action Session Unit
  | leaf reader => reader.loadIndexes
  | array .. => pure ()

/-- The rows that may fulfil a predicate and are not deleted, by the zone maps. Arrays have none. -/
def pruneByZones (keep : Predicate) (delete : Option Predicate) : ColumnReader → Action Session RowSet
  | leaf reader => reader.pruneByZones keep delete
  | array _ lengths _ => pure (.all lengths.rows)

/-- Leaves out rows that cannot fulfil a predicate, by the bloom filters. Arrays have none. -/
def pruneByFilters (keep : Predicate) (rows : RowSet) : ColumnReader → Action Session RowSet
  | leaf reader => reader.pruneByFilters keep rows
  | array .. => pure rows

def mayMatch (keep : Predicate) : ColumnReader → Except Error Bool
  | leaf reader => reader.mayMatch keep
  | array .. => .ok true

end ColumnReader

end Columnar
