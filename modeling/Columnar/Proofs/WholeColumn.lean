import Columnar.Proofs.DeleteVerdicts

namespace Columnar

open Columnar.Action

/-- What a zone map tells of a page holds of some rows of the whole that another sums up: the flags of the page are
set there, and the bounds of the page, which count, lie between those of the whole if it has values. -/
structure ZoneMap.Encloses (whole zone : ZoneMap) (type : ColumnType) (length : Nat) : Prop where
  hasNull : zone.hasNull = true → whole.hasNull = true
  hasValue : zone.hasValue = true → whole.hasValue = true
  counts : zone.passAll = false
  within : zone.hasValue = true → ∀ min max lower upper, zone.bounds type length = .ok (min, max) →
    whole.bounds type length = .ok (lower, upper) → lower.isLe min = true ∧ min.isLe max = true ∧
    max.isLe upper = true

namespace ZoneMap.Encloses

variable {whole zone : ZoneMap} {type : ColumnType} {length : Nat} {min max lower upper : Scalar}

theorem not_isEmpty (encloses : whole.Encloses zone type length) (filled : zone.isEmpty = false) :
    whole.isEmpty = false := by
  cases null : zone.hasNull with
  | true => simp [ZoneMap.isEmpty, encloses.hasNull null]
  | false =>
    have some : zone.hasValue = true := by simpa [ZoneMap.isEmpty, null] using filled
    simp [ZoneMap.isEmpty, encloses.hasValue some]

/-- The bounds of a page that has rows lie between those of the whole, also if all its rows are null. -/
theorem ordered (encloses : whole.Encloses zone type length) (filled : zone.isEmpty = false)
    (read : zone.bounds type length = .ok (min, max)) (told : whole.bounds type length = .ok (lower, upper)) :
    lower.isLe min = true ∧ min.isLe max = true ∧ max.isLe upper = true := by
  cases some : zone.hasValue with
  | true => exact encloses.within some min max lower upper read told
  | false =>
    have null : zone.hasNull = true := by simpa [ZoneMap.isEmpty, some] using filled
    have least : lower = .null := ZoneMap.bounds_null (encloses.hasNull null) told
    have ends : zone.bounds type length = .ok (.null, .null) := by
      simp only [ZoneMap.bounds, null, some]
      rfl
    cases ends.symm.trans read
    subst least
    exact ⟨rfl, rfl, Scalar.isLe_iff.mpr (.inl rfl)⟩

end ZoneMap.Encloses

namespace Predicate

variable {op : CompareOp} {operands : List Scalar} {min max lower upper value : Scalar}

/-- Wider bounds may hold what narrower ones may. -/
theorem mayContain_widen (low : lower.isLe min = true) (high : max.isLe upper = true)
    (may : mayContain min max value = true) : mayContain lower upper value = true := by
  simp only [mayContain, Scalar.isGt_eq, Bool.and_eq_true, Bool.not_eq_true', Bool.or_eq_true] at may ⊢
  obtain ⟨⟨known, above⟩, below⟩ := may
  refine ⟨⟨known, ?_⟩, Scalar.isLt_eq_false_of_greater high below⟩
  rcases above with null | apart
  · exact .inl (Scalar.isNull_of_before low null)
  · exact .inr (Scalar.isLt_eq_false_of_less low apart)

/-- Wider bounds rule a comparison with a value out only if narrower ones do. -/
theorem compareMayMatch_widen (low : lower.isLe min = true) (order : min.isLe max = true)
    (high : max.isLe upper = true) (known : value.isNull = false) (may : compareMayMatch op min max value = true) :
    compareMayMatch op lower upper value = true := by
  cases op with
  | eq => exact mayContain_widen low high may
  | ne =>
    by_contra both
    obtain ⟨least, most⟩ : lower.eqv value = true ∧ upper.eqv value = true := by simpa [compareMayMatch] using both
    -- Bounds between two that equal the value equal it, too.
    have behind : value.isLe min = true := Scalar.isLe_trans (Scalar.eqv_iff_isLe.mp least).2 low
    have before : max.isLe value = true := Scalar.isLe_trans high (Scalar.eqv_iff_isLe.mp most).1
    have first : min.eqv value = true := Scalar.eqv_iff_isLe.mpr ⟨Scalar.isLe_trans order before, behind⟩
    have last : max.eqv value = true := Scalar.eqv_iff_isLe.mpr ⟨before, Scalar.isLe_trans behind order⟩
    simp [compareMayMatch, first, last] at may
  | lt =>
    by_contra outside
    obtain ⟨_, behind⟩ : lower.isNull = false ∧ value.isLe lower = true := by
      simpa [compareMayMatch, Scalar.isGe_eq] using outside
    have nearer : value.isLe min = true := Scalar.isLe_trans behind low
    have least : min.isNull = false := Scalar.isNull_of_isLe known nearer
    simp [compareMayMatch, Scalar.isGe_eq, least, nearer] at may
  | le =>
    simp only [compareMayMatch, Scalar.isGt_eq, Bool.or_eq_true, Bool.not_eq_true'] at may ⊢
    exact may.imp (Scalar.isNull_of_before low) (Scalar.isLt_eq_false_of_less low)
  | gt =>
    by_contra outside
    have nearer : max.isLe value = true := Scalar.isLe_trans high (by simpa [compareMayMatch] using outside)
    simp [compareMayMatch, nearer] at may
  | ge =>
    simp only [compareMayMatch, Bool.not_eq_true'] at may ⊢
    exact Scalar.isLt_eq_false_of_greater high may
  | oneOf | isNull | isNotNull => rfl

/-- Wider bounds rule a comparison out only if narrower ones do. -/
theorem comparisonMayMatch_widen (low : lower.isLe min = true) (order : min.isLe max = true)
    (high : max.isLe upper = true) (may : comparisonMayMatch op operands min max = true) :
    comparisonMayMatch op operands lower upper = true := by
  have some (known : max.isNull = false) : upper.isNull = false := Scalar.isNull_of_isLe known high
  cases op with
  | isNull => exact Scalar.isNull_of_before low may
  | isNotNull =>
    have known : max.isNull = false := by simpa [comparisonMayMatch] using may
    simp [comparisonMayMatch, some known]
  | oneOf =>
    simp only [comparisonMayMatch, Bool.and_eq_true, Bool.not_eq_true', List.any_eq_true] at may ⊢
    obtain ⟨known, operand, member, holds⟩ := may
    exact ⟨some known, operand, member, mayContain_widen low high holds⟩
  | _ =>
    have known : max.isNull = false := by
      by_contra null
      simp_all [comparisonMayMatch]
    cases operands with
    | nil => simp [comparisonMayMatch, some known]
    | cons operand rest =>
      simp only [comparisonMayMatch, known, some known, Bool.false_eq_true, if_false, Bool.and_eq_true,
        Bool.not_eq_true'] at may ⊢
      exact ⟨may.1, compareMayMatch_widen low order high may.1 may.2⟩

end Predicate

namespace LeafReader

variable {reader : LeafReader} {session after : Session} {op : CompareOp} {operands : List Scalar}

theorem admits_of_keeps {keep : Predicate} {delete : Option Predicate} {zone : ZoneMap}
    (kept : reader.keeps keep delete zone = true) : reader.Admits keep zone := by
  cases delete with
  | none => exact keeps_iff.mp kept
  | some delete => exact (keeps_some_iff.mp kept).1

/-- What the zone map of a page admits is not ruled out by one of the whole column that encloses it. -/
theorem mayMatch_of_admits {whole zone : ZoneMap} {pages : Extent}
    (stored : reader.indexes.zones = some (whole, pages))
    (encloses : whole.Encloses zone reader.column.type reader.column.length)
    (admits : reader.Admits (.comparison op operands) zone) :
    reader.mayMatch (.comparison op operands) ≠ .ok false := by
  intro ruledOut
  obtain ⟨filled, passes | ⟨min, max, read, may⟩⟩ := admits
  · rw [encloses.counts] at passes
    cases passes
  · simp only [mayMatch, stored, encloses.not_isEmpty filled, Bool.false_eq_true, if_false] at ruledOut
    split at ruledOut
    · cases ruledOut
    · obtain ⟨⟨lower, upper⟩, told, verdict⟩ := bind_eq_ok ruledOut
      obtain ⟨low, order, high⟩ := encloses.ordered filled read told
      have reached : (Predicate.comparison op operands).mayMatch lower upper = true :=
        Predicate.comparisonMayMatch_widen low order high may
      rw [reached] at verdict
      cases verdict

/-- Where the zone map of the whole column encloses those of its pages and rules a comparison out, pruning by those
of the pages leaves no row. -/
theorem pruneByZones_eq_empty {whole : ZoneMap} {pages : Extent} {delete : Option Predicate} {ranges : RowSet}
    (stored : reader.indexes.zones = some (whole, pages))
    (encloses : ∀ zones loaded, reader.access.loadZones pages session = .ok zones loaded →
      ∀ zone ∈ zones, whole.Encloses zone reader.column.type reader.column.length)
    (ruledOut : reader.mayMatch (.comparison op operands) = .ok false)
    (run : reader.pruneByZones (.comparison op operands) delete session = .ok ranges after) : ranges = .empty := by
  rcases Nat.eq_zero_or_pos reader.rows with none | some
  · simp only [pruneByZones, none, if_true] at run
    cases run
    rfl
  · obtain ⟨zones, first, index, second, kept, third, loads, _, _, picks, _, rfl⟩ :=
      pruneByZones_steps some stored run
    obtain ⟨rfl, _, _⟩ := keptPages_ok picks
    have dropped :
        (zones.zip index.spans).filter (fun page => reader.keeps (.comparison op operands) delete page.1) = [] := by
      refine List.filter_eq_nil_iff.mpr fun page member keeps => ?_
      have enclosed := encloses zones first loads page.1 (List.of_mem_zip member).1
      exact mayMatch_of_admits stored enclosed (admits_of_keeps keeps) ruledOut
    rw [dropped]
    rfl

end LeafReader

/-- The pages with zone maps, below a zone map that sums up both. -/
def summedReader : LeafReader :=
  { zonedReader with
    indexes := { zonedReader.indexes with
      zones := some ({ min := "1", max := "9", hasNull := true, hasValue := true }, ⟨0, 34⟩) } }

theorem summedReader_zones : ∃ loaded, summedReader.access.loadZones ⟨0, 34⟩ zonedSession =
    .ok [{ min := "1", max := "5", hasValue := true }, { max := "9", hasNull := true, hasValue := true }] loaded :=
  ⟨_, by cbv⟩

set_option maxRecDepth 2000 in
theorem summedReader_prune : ∃ ranges after,
    summedReader.pruneByZones (.comparison .gt [.integer .tiny 9]) none zonedSession = .ok ranges after :=
  ⟨_, _, by cbv⟩

/-- No row is greater than 9, which already the zone map of the column tells. -/
theorem LeafReader.pruneByZones_eq_empty_summed :
    summedReader.mayMatch (.comparison .gt [.integer .tiny 9]) = .ok false ∧ ∃ ranges after,
      summedReader.pruneByZones (.comparison .gt [.integer .tiny 9]) none zonedSession = .ok ranges after ∧
        ranges = .empty := by
  have ruledOut : summedReader.mayMatch (.comparison .gt [.integer .tiny 9]) = .ok false := by cbv
  obtain ⟨ranges, after, run⟩ := summedReader_prune
  obtain ⟨left, loads⟩ := summedReader_zones
  have bounds : ({ min := "1", max := "9", hasNull := true, hasValue := true } : ZoneMap).bounds
      (.integer .tiny) 0 =
      .ok (.null, .integer .tiny 9) := by cbv
  refine ⟨ruledOut, ranges, after, run, LeafReader.pruneByZones_eq_empty rfl ?_ ruledOut run⟩
  intro zones loaded read
  cases loads.symm.trans read
  intro zone member
  simp only [List.mem_cons, List.not_mem_nil, or_false] at member
  rcases member with rfl | rfl
  · refine ⟨by decide, by decide, rfl, fun _ min max lower upper page whole => ?_⟩
    have ends : ({ min := "1", max := "5", hasValue := true } : ZoneMap).bounds (.integer .tiny) 0 =
        .ok (.integer .tiny 1, .integer .tiny 5) := by cbv
    cases ends.symm.trans page
    cases bounds.symm.trans whole
    decide
  · refine ⟨by decide, by decide, rfl, fun _ min max lower upper page whole => ?_⟩
    have ends : ({ max := "9", hasNull := true, hasValue := true } : ZoneMap).bounds (.integer .tiny) 0 =
        .ok (.null, .integer .tiny 9) := by cbv
    cases ends.symm.trans page
    cases bounds.symm.trans whole
    decide

end Columnar
