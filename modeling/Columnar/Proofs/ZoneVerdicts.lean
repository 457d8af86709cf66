import Columnar.Proofs.Outcome
import Columnar.Proofs.ScalarOrder
import Columnar.ZoneMap

namespace Columnar

/-- How a value of a row has to relate to an operand. -/
def CompareOp.relates (op : CompareOp) (value operand : Scalar) : Bool :=
  match op with
  | .eq | .oneOf => value.eqv operand
  | .ne => !value.eqv operand
  | .lt => value.isLt operand
  | .le => value.isLe operand
  | .gt => value.isGt operand
  | .ge => value.isGe operand
  | .isNull | .isNotNull => false

/-- The value of a row fulfils a comparison. Null is in no relation to an operand, and nothing is to null. -/
def Predicate.fulfils (op : CompareOp) (operands : List Scalar) (value : Scalar) : Bool :=
  match op with
  | .isNull => value.isNull
  | .isNotNull => !value.isNull
  | .oneOf => !value.isNull && operands.any fun operand => !operand.isNull && op.relates value operand
  | op => !value.isNull && operands.head?.any fun operand => !operand.isNull && op.relates value operand

/-- What a zone map tells of a value holds: the flag is set, and the value is between the bounds where they can be
read and count. -/
structure ZoneMap.Covers (zone : ZoneMap) (type : ColumnType) (length : Nat) (value : Scalar) : Prop where
  hasNull : value.isNull = true → zone.hasNull = true
  hasValue : value.isNull = false → zone.hasValue = true
  between : value.isNull = false → zone.passAll = false → ∀ min max, zone.bounds type length = .ok (min, max) →
    min.isLe value = true ∧ value.isLe max = true

theorem ZoneMap.covers_of_bounds {zone : ZoneMap} {type : ColumnType} {length : Nat} {min max value : Scalar}
    (read : zone.bounds type length = .ok (min, max)) (null : value.isNull = true → zone.hasNull = true)
    (known : value.isNull = false → zone.hasValue = true ∧ min.isLe value = true ∧ value.isLe max = true) :
    zone.Covers type length value := by
  refine ⟨null, fun some => (known some).1, ?_⟩
  intro some _ least most same
  cases read.symm.trans same
  exact (known some).2

theorem ZoneMap.Covers.not_isEmpty {zone : ZoneMap} {type : ColumnType} {length : Nat} {value : Scalar}
    (covers : zone.Covers type length value) : zone.isEmpty = false := by
  rw [ZoneMap.isEmpty]
  cases null : value.isNull with
  | true => rw [covers.hasNull null, Bool.not_true, Bool.false_and]
  | false => rw [covers.hasValue null, Bool.not_true, Bool.and_false]

theorem ZoneMap.bounds_null {zone : ZoneMap} {type : ColumnType} {length : Nat} {min max : Scalar}
    (null : zone.hasNull = true) (read : zone.bounds type length = .ok (min, max)) : min = .null := by
  rw [bounds, if_pos null] at read
  obtain ⟨least, first, read⟩ := bind_eq_ok read
  split at read
  · obtain ⟨most, _, read⟩ := bind_eq_ok read
    cases first
    cases read
    rfl
  · obtain ⟨most, _, read⟩ := bind_eq_ok read
    cases first
    cases read
    rfl

namespace Predicate

variable {op : CompareOp} {operands : List Scalar} {min max value operand : Scalar}

/-- Where a value between the bounds equals the operand, so may the bounds hold it. -/
theorem mayContain_of_eqv (low : min.isLe value = true) (high : value.isLe max = true)
    (known : operand.isNull = false) (same : value.eqv operand = true) : mayContain min max operand = true := by
  obtain ⟨before, behind⟩ := Scalar.eqv_iff_isLe.mp same
  have above : operand.isLt min = false := Scalar.isLt_eq_false (Scalar.isLe_trans low before)
  have below : operand.isGt max = false := Scalar.isGt_eq_false (Scalar.isLe_trans behind high)
  rw [mayContain, known, above, below, Bool.not_false, Bool.or_true, Bool.and_self, Bool.and_self]

/-- Where some value between the bounds is in relation to the operand, the bounds do not rule it out. -/
theorem compareMayMatch_of_relates (low : min.isLe value = true) (high : value.isLe max = true)
    (known : operand.isNull = false) (relates : op.relates value operand = true) :
    compareMayMatch op min max operand = true := by
  cases op with
  | eq => exact mayContain_of_eqv low high known relates
  | ne =>
    -- Bounds that both equal the operand leave the value no other place.
    by_contra both
    have ends : min.eqv operand = true ∧ max.eqv operand = true := by simpa [compareMayMatch] using both
    have first := Scalar.isLe_trans (Scalar.eqv_iff_isLe.mp ends.1).2 low
    have last := Scalar.isLe_trans high (Scalar.eqv_iff_isLe.mp ends.2).1
    have same : value.eqv operand = true := Scalar.eqv_iff_isLe.mpr ⟨last, first⟩
    simp [CompareOp.relates, same] at relates
  | lt =>
    have least : min.isGe operand = false := Scalar.isGe_eq_false (Scalar.isLt_of_isLe_of_isLt low relates)
    simp [compareMayMatch, least]
  | le =>
    have least : min.isGt operand = false := Scalar.isGt_eq_false (Scalar.isLe_trans low relates)
    simp [compareMayMatch, least]
  | gt =>
    have above : operand.isLt value = true := Scalar.isGt_iff.mp relates
    have most : max.isLe operand = false := Scalar.isLe_eq_false (Scalar.isLt_of_isLt_of_isLe above high)
    simp [compareMayMatch, most]
  | ge =>
    have above : operand.isLe value = true := Scalar.isGe_iff.mp relates
    have most : max.isLt operand = false := Scalar.isLt_eq_false (Scalar.isLe_trans above high)
    simp [compareMayMatch, most]
  | _ => rfl

/-- A comparison that some value fulfils is not ruled out by bounds between which the value lies. -/
theorem comparisonMayMatch_of_between (null : value.isNull = true → min = .null)
    (between : value.isNull = false → min.isLe value = true ∧ value.isLe max = true)
    (meets : fulfils op operands value = true) : comparisonMayMatch op operands min max = true := by
  cases unknown : value.isNull with
  | true =>
    have least : min = .null := null unknown
    cases op <;> simp_all [fulfils, comparisonMayMatch, Scalar.isNull]
  | false =>
    obtain ⟨low, high⟩ := between unknown
    have known : value ≠ .null := by
      rintro rfl
      cases unknown
    have most : max.isNull = false := by
      rw [Bool.eq_false_iff, ne_eq, Scalar.isNull_iff]
      exact Scalar.ne_null_of_isLe known high
    cases op with
    | isNull => simp [fulfils, unknown] at meets
    | isNotNull => simp [comparisonMayMatch, most]
    | oneOf =>
      simp only [fulfils, unknown, Bool.not_false, Bool.true_and, List.any_eq_true, Bool.and_eq_true,
        Bool.not_eq_true'] at meets
      obtain ⟨operand, member, known, same⟩ := meets
      simp only [comparisonMayMatch, most, Bool.not_false, Bool.true_and, List.any_eq_true]
      exact ⟨operand, member, mayContain_of_eqv low high known same⟩
    | _ =>
      cases operands with
      | nil => simp [fulfils] at meets
      | cons operand rest =>
        simp only [fulfils, unknown, Bool.not_false, Bool.true_and, List.head?_cons, Option.any_some,
          Bool.and_eq_true, Bool.not_eq_true'] at meets
        obtain ⟨known, related⟩ := meets
        simp [comparisonMayMatch, most, known, compareMayMatch_of_relates low high known related]

/-- A comparison that some covered value fulfils is not ruled out by the bounds of the zone map. -/
theorem comparisonMayMatch_of_fulfils {zone : ZoneMap} {type : ColumnType} {length : Nat}
    (covers : zone.Covers type length value) (counts : zone.passAll = false)
    (read : zone.bounds type length = .ok (min, max)) (meets : fulfils op operands value = true) :
    comparisonMayMatch op operands min max = true := by
  have null : value.isNull = true → min = .null := fun null => ZoneMap.bounds_null (covers.hasNull null) read
  exact comparisonMayMatch_of_between null (fun known => covers.between known counts min max read) meets

end Predicate

end Columnar
