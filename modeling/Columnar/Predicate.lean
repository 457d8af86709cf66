import Columnar.BloomFilter

namespace Columnar

inductive CompareOp where
  | eq | ne | lt | le | gt | ge
  /-- Equal to one of the operands. -/
  | oneOf
  | isNull | isNotNull
  deriving DecidableEq, Repr

/-- How the rows between two bounds relate to a predicate for deletion. -/
inductive DeleteVerdict where
  /-- No row is deleted. -/
  | none
  /-- All rows are deleted. -/
  | all
  | part
  deriving DecidableEq, Repr

/-- A condition on the values of a column. Between bounds, and for a bloom filter, `false` means that no row fulfils
it. A null lower bound tells of null rows, a null upper bound of nothing but null rows. -/
inductive Predicate where
  /-- Comparison with the first operand, or with all of them. -/
  | comparison (op : CompareOp) (operands : List Scalar)
  /-- Verdicts that are known beforehand. -/
  | fixed (keep : Bool) (verdict : DeleteVerdict)
  deriving DecidableEq, Repr

/-- `a` comes before `b`; values that cannot be compared come neither before nor behind each other. -/
def Scalar.isLt (a b : Scalar) : Bool := a.compare b = some .lt

def Scalar.isGt (a b : Scalar) : Bool := a.compare b = some .gt

def Scalar.isLe (a b : Scalar) : Bool := a.compare b = some .lt || a.compare b = some .eq

def Scalar.isGe (a b : Scalar) : Bool := a.compare b = some .gt || a.compare b = some .eq

def DeleteVerdict.of (all some : Bool) : DeleteVerdict := if all then .all else if some then .part else .none

namespace Predicate

def mayContain (min max value : Scalar) : Bool :=
  !value.isNull && (min.isNull || !value.isLt min) && !value.isGt max

/-- Rows between bounds that are not all null may fulfil a comparison with one value. -/
def compareMayMatch (op : CompareOp) (min max value : Scalar) : Bool :=
  match op with
  | .eq => mayContain min max value
  | .ne => !(min.eqv value && max.eqv value)
  | .lt => min.isNull || !min.isGe value
  | .le => min.isNull || !min.isGt value
  | .gt => !max.isLe value
  | .ge => !max.isLt value
  | .oneOf | .isNull | .isNotNull => true

def comparisonMayMatch (op : CompareOp) (operands : List Scalar) (min max : Scalar) : Bool :=
  match op with
  | .isNull => min.isNull
  | .isNotNull => !max.isNull
  | .oneOf => !max.isNull && operands.any (mayContain min max)
  | op =>
    if max.isNull then false
    else match operands with
      | [] => true
      | value :: _ => !value.isNull && compareMayMatch op min max value

def mayMatch (min max : Scalar) : Predicate → Bool
  | comparison op operands => comparisonMayMatch op operands min max
  | fixed keep _ => keep

/-- All rows between bounds that are not null fulfil a comparison with one value. -/
def compareMatchesAll (op : CompareOp) (min max value : Scalar) : Bool :=
  match op with
  | .eq => min.eqv value && max.eqv value
  | .ne => max.isLt value || min.isGt value
  | .lt => max.isLt value
  | .le => max.isLe value
  | .gt => min.isGt value
  | .ge => min.isGe value
  | .oneOf | .isNull | .isNotNull => false

def matchesAll (op : CompareOp) (operands : List Scalar) (min max : Scalar) : Bool :=
  match op with
  | .oneOf => min.eqv max && operands.any (·.eqv min)
  | op => operands.head?.any (compareMatchesAll op min max)

def comparisonVerdict (op : CompareOp) (operands : List Scalar) (min max : Scalar) : DeleteVerdict :=
  match op with
  | .isNull => .of max.isNull min.isNull
  | .isNotNull => .of (!min.isNull) (!max.isNull)
  | op =>
    .of (!min.isNull && !max.isNull && matchesAll op operands min max) (comparisonMayMatch op operands min max)

def verdict (min max : Scalar) : Predicate → DeleteVerdict
  | comparison op operands => comparisonVerdict op operands min max
  | fixed _ verdict => verdict

/-- Bloom filters can tell something about equality and about nulls. -/
def usesBloomFilter : Predicate → Bool
  | comparison op _ => op = .eq || op = .oneOf || op = .isNull
  | fixed .. => false

def mayMatchFilter (filter : BloomFilter) : Predicate → Bool
  | comparison .isNull _ => filter.hasNull
  | comparison .eq operands | comparison .oneOf operands => operands.any filter.mayHold
  | comparison .. | fixed .. => true

end Predicate

/-- What a condition of any kind says about bloom filters: whether they can tell anything about it, and of which of
them some row may fulfil it. -/
structure FilterTest where
  applies : Bool
  mayMatch : BloomFilter → Bool

def Predicate.filterTest (predicate : Predicate) : FilterTest :=
  ⟨predicate.usesBloomFilter, fun filter => predicate.mayMatchFilter filter⟩

instance : Coe Predicate FilterTest := ⟨Predicate.filterTest⟩

end Columnar
