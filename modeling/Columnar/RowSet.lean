import Columnar.Arithmetic

namespace Columnar

/-- Between two places in a list, where a test that holds up to some element begins to fail. -/
def searchPoint {α : Type} (test : α → Bool) (list : List α) (low high : Nat) : Nat :=
  if low < high then
    let middle := (low + high) / 2
    if list[middle]?.any test then searchPoint test list (middle + 1) high else searchPoint test list low middle
  else low
termination_by high - low

/-- The number of elements that fulfil a test, in a list where they stand in front of all others. -/
def partitionPoint {α : Type} (test : α → Bool) (list : List α) : Nat := searchPoint test list 0 list.length

/-- The rows from `start` up to `stop`, without `stop` itself. -/
structure RowRange where
  start : Nat
  stop : Nat
  deriving DecidableEq, Repr

/-- Rows of a column as ranges in ascending order. -/
structure RowSet where
  ranges : List RowRange := []
  deriving DecidableEq, Repr

namespace RowRange

def count (range : RowRange) : Nat := range.stop - range.start

def isEmpty (range : RowRange) : Bool := range.stop ≤ range.start

instance : Membership Nat RowRange := ⟨fun range row => range.start ≤ row ∧ row < range.stop⟩

instance (range : RowRange) (row : Nat) : Decidable (row ∈ range) :=
  inferInstanceAs (Decidable (range.start ≤ row ∧ row < range.stop))

theorem mem_iff {range : RowRange} {row : Nat} : row ∈ range ↔ range.start ≤ row ∧ row < range.stop := Iff.rfl

/-- The rows that two ranges share, where there are any. -/
def intersect? (a b : RowRange) : Option RowRange :=
  let common : RowRange := ⟨max a.start b.start, min a.stop b.stop⟩
  if common.isEmpty then none else some common

/-- A range grown over others that it overlaps or touches, given in their order. -/
def merge (range : RowRange) (met : List RowRange) : RowRange :=
  match met.head?, met.getLast? with
  | some first, some last => ⟨min range.start first.start, max range.stop last.stop⟩
  | _, _ => range

/-- The common parts of two lists of ranges. The range that ends first has nothing left to give. -/
def intersectAll : List RowRange → List RowRange → List RowRange
  | [], _ => []
  | _, [] => []
  | a :: as, b :: bs =>
    (a.intersect? b).toList ++ if a.stop ≤ b.stop then intersectAll as (b :: bs) else intersectAll (a :: as) bs
termination_by as bs => as.length + bs.length

def text (range : RowRange) : String := s!"[{range.start}, {range.stop})"

end RowRange

namespace RowSet

def empty : RowSet := {}

/-- The number of ranges that end before a range begins, with a gap between. -/
def countBefore (rows : RowSet) (range : RowRange) : Nat :=
  partitionPoint (fun other => other.stop < range.start) rows.ranges

/-- The number of ranges that do not begin behind a range, with a gap between. -/
def countNotBehind (rows : RowSet) (range : RowRange) : Nat :=
  partitionPoint (fun other => other.start ≤ range.stop) rows.ranges

/-- Adds a range in place of those that it overlaps or touches; an empty one adds nothing. -/
def add (range : RowRange) (rows : RowSet) : RowSet :=
  if range.isEmpty then rows
  else
    let met := (rows.ranges.take (rows.countNotBehind range)).drop (rows.countBefore range)
    ⟨rows.ranges.take (rows.countBefore range) ++ range.merge met :: rows.ranges.drop (rows.countNotBehind range)⟩

def single (range : RowRange) : RowSet := empty.add range

def all (count : Nat) : RowSet := single ⟨0, count⟩

def ofRanges (ranges : List RowRange) : RowSet := ranges.foldl (fun rows range => rows.add range) empty

def union (a b : RowSet) : RowSet := b.ranges.foldl (fun rows range => rows.add range) a

def intersection (a b : RowSet) : RowSet := ⟨RowRange.intersectAll a.ranges b.ranges⟩

instance : Membership Nat RowSet := ⟨fun rows row => ∃ range ∈ rows.ranges, row ∈ range⟩

instance (rows : RowSet) (row : Nat) : Decidable (row ∈ rows) :=
  inferInstanceAs (Decidable (∃ range ∈ rows.ranges, row ∈ range))

theorem mem_iff {rows : RowSet} {row : Nat} : row ∈ rows ↔ ∃ range ∈ rows.ranges, row ∈ range := Iff.rfl

/-- Looks for a row in the only range that can hold it: the first that goes on behind the row. -/
def contains (rows : RowSet) (row : Nat) : Bool :=
  rows.ranges[partitionPoint (fun range => range.stop ≤ row) rows.ranges]?.any fun range => range.start ≤ row

def count (rows : RowSet) : Nat := total (rows.ranges.map RowRange.count)

def isEmpty (rows : RowSet) : Bool := rows.ranges.isEmpty

def first? (rows : RowSet) : Option Nat := rows.ranges.head?.map RowRange.start

def stop? (rows : RowSet) : Option Nat := rows.ranges.getLast?.map RowRange.stop

def text (rows : RowSet) : String := "[" ++ ", ".intercalate (rows.ranges.map RowRange.text) ++ "]"

end RowSet

end Columnar
