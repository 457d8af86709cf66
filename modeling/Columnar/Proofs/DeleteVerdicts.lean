import Columnar.Proofs.ZonePruning

namespace Columnar

/-- Bounds sum up some rows: a null lower bound tells of a null row, a null upper bound of nothing but null rows,
and the other rows lie between what bounds there are. -/
structure SumsUp (min max : Scalar) (rows : Set Scalar) : Prop where
  nonempty : rows.Nonempty
  null_iff : min.isNull = true ↔ .null ∈ rows
  allNull_iff : max.isNull = true ↔ ∀ value ∈ rows, value.isNull = true
  low : min.isNull = false → ∀ value ∈ rows, value.isNull = false → min.isLe value = true
  high : ∀ value ∈ rows, value.isNull = false → value.isLe max = true

namespace SumsUp

variable {min max value : Scalar} {rows : Set Scalar}

theorem between (sums : SumsUp min max rows) (member : value ∈ rows) (known : value.isNull = false) :
    min.isLe value = true ∧ value.isLe max = true := by
  refine ⟨?_, sums.high value member known⟩
  cases null : min.isNull with
  | true =>
    rw [Scalar.isNull_iff.mp null]
    exact Scalar.isLe_iff.mpr (.inl rfl)
  | false => exact sums.low null value member known

theorem min_eq_null (sums : SumsUp min max rows) (member : value ∈ rows) (null : value.isNull = true) :
    min = .null := by
  rw [Scalar.isNull_iff.mp null] at member
  exact Scalar.isNull_iff.mp (sums.null_iff.mpr member)

theorem isNull_eq_false (sums : SumsUp min max rows) (known : min.isNull = false) (member : value ∈ rows) :
    value.isNull = false := by
  by_contra null
  have least := sums.min_eq_null member (by simpa using null)
  rw [least] at known
  cases known

theorem max_isNull (sums : SumsUp min max rows) (known : min.isNull = false) : max.isNull = false := by
  obtain ⟨value, member⟩ := sums.nonempty
  by_contra null
  have all := sums.allNull_iff.mp (by simpa using null) value member
  rw [sums.isNull_eq_false known member] at all
  cases all

end SumsUp

namespace DeleteVerdict

theorem of_eq_all {all some : Bool} : DeleteVerdict.of all some = .all ↔ all = true := by
  cases all <;> cases some <;> simp [DeleteVerdict.of]

theorem of_eq_none {all some : Bool} : DeleteVerdict.of all some = .none ↔ all = false ∧ some = false := by
  cases all <;> cases some <;> simp [DeleteVerdict.of]

end DeleteVerdict

namespace Predicate

/-- A comparison with null that takes every value for one on its side, as null comes before all of them. -/
def TakesAllPastNull (op : CompareOp) (operands : List Scalar) : Prop :=
  (op = .ne ∨ op = .gt ∨ op = .ge) ∧ operands.head? = some .null

/-- The verdict on bounds tells what becomes of the rows between them. -/
structure TellsOf (op : CompareOp) (operands : List Scalar) (min max : Scalar) (rows : Set Scalar) : Prop where
  all : comparisonVerdict op operands min max = .all → ∀ value ∈ rows, fulfils op operands value = true
  none : comparisonVerdict op operands min max = .none → ∀ value ∈ rows, fulfils op operands value = false
  mayMatch : comparisonVerdict op operands min max = .all → comparisonMayMatch op operands min max = true

variable {op : CompareOp} {operands : List Scalar} {min max value operand : Scalar} {rows : Set Scalar}

theorem comparisonMayMatch_of_sums (sums : SumsUp min max rows) (member : value ∈ rows)
    (meets : fulfils op operands value = true) : comparisonMayMatch op operands min max = true :=
  comparisonMayMatch_of_between (sums.min_eq_null member) (sums.between member) meets

theorem comparisonMayMatch_of_none (verdict : comparisonVerdict op operands min max = .none) :
    comparisonMayMatch op operands min max = false := by
  cases op <;> simp_all [comparisonVerdict, comparisonMayMatch, DeleteVerdict.of_eq_none]

/-- Bounds that are on the operand's side have all values between them there. -/
theorem relates_of_compareMatchesAll (low : min.isLe value = true) (high : value.isLe max = true)
    (bounds : compareMatchesAll op min max operand = true) : op.relates value operand = true := by
  cases op with
  | eq =>
    obtain ⟨least, most⟩ : min.eqv operand = true ∧ max.eqv operand = true :=
      by simpa [compareMatchesAll] using bounds
    have before := Scalar.isLe_trans high (Scalar.eqv_iff_isLe.mp most).1
    have behind := Scalar.isLe_trans (Scalar.eqv_iff_isLe.mp least).2 low
    exact Scalar.eqv_iff_isLe.mpr ⟨before, behind⟩
  | ne =>
    have sides : max.isLt operand = true ∨ min.isGt operand = true := by simpa [compareMatchesAll] using bounds
    have apart : value.eqv operand = false := by
      by_contra same
      obtain ⟨before, behind⟩ := Scalar.eqv_iff_isLe.mp (by simpa using same)
      rcases sides with above | below
      · have order := Scalar.isLe_eq_false (Scalar.isLt_of_isLe_of_isLt high above)
        simp [behind] at order
      · have order := Scalar.isLe_eq_false (Scalar.isLt_of_isLt_of_isLe (Scalar.isGt_iff.mp below) low)
        simp [before] at order
    simp [CompareOp.relates, apart]
  | lt =>
    have above : max.isLt operand = true := bounds
    exact Scalar.isLt_of_isLe_of_isLt high above
  | le =>
    have above : max.isLe operand = true := bounds
    exact Scalar.isLe_trans high above
  | gt =>
    have below : min.isGt operand = true := bounds
    exact Scalar.isGt_iff.mpr (Scalar.isLt_of_isLt_of_isLe (Scalar.isGt_iff.mp below) low)
  | ge =>
    have below : min.isGe operand = true := bounds
    exact Scalar.isGe_iff.mpr (Scalar.isLe_trans (Scalar.isGe_iff.mp below) low)
  | oneOf | isNull | isNotNull => cases bounds

/-- Null is on no other value's side but before it. -/
theorem operand_known (known : min.isNull = false) (known' : max.isNull = false)
    (bounds : compareMatchesAll op min max operand = true)
    (sound : ¬((op = .ne ∨ op = .gt ∨ op = .ge) ∧ operand = .null)) : operand.isNull = false := by
  by_contra null
  have null : operand = .null := Scalar.isNull_iff.mp (by simpa using null)
  subst null
  cases op with
  | eq | lt | le =>
    cases min <;> cases max <;>
      simp_all [compareMatchesAll, Scalar.eqv, Scalar.isLt, Scalar.isLe, Scalar.compare, Scalar.isNull]
  | ne | gt | ge => exact sound ⟨by simp, rfl⟩
  | oneOf | isNull | isNotNull => cases bounds

theorem fulfils_of_matchesAll (known : min.isNull = false) (known' : max.isNull = false)
    (some : value.isNull = false) (low : min.isLe value = true) (high : value.isLe max = true)
    (sound : ¬TakesAllPastNull op operands) (bounds : matchesAll op operands min max = true) :
    fulfils op operands value = true := by
  by_cases list : op = .oneOf
  · subst list
    obtain ⟨same, found⟩ : min.eqv max = true ∧ ∃ operand ∈ operands, operand.eqv min = true := by
      simpa [matchesAll] using bounds
    obtain ⟨operand, member, alike⟩ := found
    obtain ⟨before, behind⟩ := Scalar.eqv_iff_isLe.mp alike
    have reached : value.eqv operand = true := by
      refine Scalar.eqv_iff_isLe.mpr ⟨?_, Scalar.isLe_trans before low⟩
      exact Scalar.isLe_trans high (Scalar.isLe_trans (Scalar.eqv_iff_isLe.mp same).2 behind)
    have valued : operand.isNull = false := by
      rw [Bool.eq_false_iff, ne_eq, Scalar.isNull_iff] at known ⊢
      exact Scalar.ne_null_of_isLe known behind
    simp only [fulfils, some, Bool.not_false, Bool.true_and, List.any_eq_true, Bool.and_eq_true, Bool.not_eq_true']
    exact ⟨operand, member, valued, reached⟩
  · have first : operands.head?.any (compareMatchesAll op min max) = true := by
      cases op with
      | oneOf => exact absurd rfl list
      | _ => exact bounds
    cases operands with
    | nil => cases first
    | cons operand rest =>
      have side : compareMatchesAll op min max operand = true := first
      have valued : operand.isNull = false := by
        refine operand_known known known' side ?_
        rintro ⟨kind, rfl⟩
        exact sound ⟨kind, rfl⟩
      have related := relates_of_compareMatchesAll low high side
      cases op with
      | oneOf => exact absurd rfl list
      | isNull | isNotNull => cases side
      | _ => simp [fulfils, some, valued, related]

/-- A verdict that takes all rows for deleted is right, but for comparisons with null. -/
theorem fulfils_of_all (sums : SumsUp min max rows) (sound : ¬(TakesAllPastNull op operands ∧ min.isNull = false))
    (verdict : comparisonVerdict op operands min max = .all) (member : value ∈ rows) :
    fulfils op operands value = true := by
  by_cases null : op = .isNull
  · subst null
    have most : max.isNull = true := by simpa [comparisonVerdict, DeleteVerdict.of_eq_all] using verdict
    exact sums.allNull_iff.mp most value member
  · have verdict' : min.isNull = false ∧
      (op = .isNotNull ∨ max.isNull = false ∧ matchesAll op operands min max = true) := by
      cases op <;> simp_all [comparisonVerdict, DeleteVerdict.of_eq_all]
    obtain ⟨known, kind⟩ := verdict'
    have some := sums.isNull_eq_false known member
    obtain ⟨low, high⟩ := sums.between member some
    rcases kind with rfl | ⟨known', bounds⟩
    · simp [fulfils, some]
    · exact fulfils_of_matchesAll known known' some low high (fun slips => sound ⟨slips, known⟩) bounds

/-- No row fulfils a comparison with null. -/
theorem fulfils_eq_false_of_null (slips : TakesAllPastNull op operands) (value : Scalar) :
    fulfils op operands value = false := by
  obtain ⟨kinds, head⟩ := slips
  rcases kinds with rfl | rfl | rfl <;> simp [fulfils, head, Scalar.isNull]

theorem verdict_eq_all_of_null (slips : TakesAllPastNull op operands) (known : min.isNull = false)
    (known' : max.isNull = false) : comparisonVerdict op operands min max = .all := by
  obtain ⟨kinds, head⟩ := slips
  have behind : min.isGt .null = true ∧ min.isGe .null = true := by
    cases min with
    | null => cases known
    | _ => exact ⟨rfl, rfl⟩
  rcases kinds with rfl | rfl | rfl <;>
    simp [comparisonVerdict, DeleteVerdict.of_eq_all, known, known', matchesAll, head, compareMatchesAll, behind]

/-- The verdict on bounds that sum up some rows tells of these rows, exactly if it is not on a comparison that takes
all values past null. -/
theorem tellsOf_iff (sums : SumsUp min max rows) :
    TellsOf op operands min max rows ↔ ¬(TakesAllPastNull op operands ∧ min.isNull = false) := by
  constructor
  · rintro tells ⟨slips, known⟩
    obtain ⟨value, member⟩ := sums.nonempty
    have verdict := verdict_eq_all_of_null slips known (sums.max_isNull known)
    have deleted := tells.all verdict value member
    rw [fulfils_eq_false_of_null slips] at deleted
    cases deleted
  · intro sound
    refine ⟨fun verdict value member => fulfils_of_all sums sound verdict member, ?_, ?_⟩
    · intro verdict value member
      by_contra meets
      have seen := comparisonMayMatch_of_sums sums member (by simpa using meets)
      rw [comparisonMayMatch_of_none verdict] at seen
      cases seen
    · intro verdict
      obtain ⟨value, member⟩ := sums.nonempty
      exact comparisonMayMatch_of_sums sums member (fulfils_of_all sums sound verdict member)

/-- All rows between 1 and 5 are taken for greater than null, and none is. -/
theorem greaterThanNull_not_tellsOf :
    SumsUp (.integer .int 1) (.integer .int 5) {.integer .int 1, .integer .int 5} ∧
    ¬TellsOf .gt [.null] (.integer .int 1) (.integer .int 5) {.integer .int 1, .integer .int 5} := by
  have sums : SumsUp (.integer .int 1) (.integer .int 5) {.integer .int 1, .integer .int 5} := by
    constructor <;> simp [Scalar.isNull] <;> decide
  refine ⟨sums, fun tells => ?_⟩
  have deleted := tells.all (by decide) (.integer .int 1) (by simp)
  have kept : fulfils .gt [.null] (.integer .int 1) = false := by decide
  rw [kept] at deleted
  cases deleted

end Predicate

namespace LeafReader

open Session

variable {reader : LeafReader} {session after : Session} {keep delete : Predicate} {zone : ZoneMap}

/-- By the zone map of a page all its rows are deleted. -/
def Deletes (reader : LeafReader) (delete : Predicate) (zone : ZoneMap) : Prop :=
  zone.passAll = false ∧
    ∃ min max, zone.bounds reader.column.type reader.column.length = .ok (min, max) ∧ delete.verdict min max = .all

/-- The rows of the data page that holds a row, as the pages have been loaded. -/
def pageRows (reader : LeafReader) (session : Session) (row : Nat) : Set Nat :=
  {other | ∃ index, (session.loadedOf reader.access.key).ordinal = some index ∧
    ∃ span ∈ index.spans, row ∈ span.range ∧ other ∈ span.range}

theorem keeps_some_iff : reader.keeps keep (some delete) zone = true ↔ reader.Admits keep zone ∧
    ¬reader.Deletes delete zone := by
  rw [keeps, Admits, Deletes, Bool.and_eq_true, Bool.not_eq_true', decide_eq_true_eq, and_assoc]
  refine and_congr_right fun _ => ?_
  rw [keepsZone]
  cases zone.passAll with
  | true => simp [Except.toOption]
  | false =>
    cases bounds : zone.bounds reader.column.type reader.column.length with
    | error error => simp [bind, Except.bind, Except.toOption]
    | ok found =>
      obtain ⟨min, max⟩ := found
      simp [bind, Except.bind, Except.toOption, pure, Except.pure]

/-- Pruning leaves the rows of the pages that their zone maps let be kept. -/
theorem mem_pruneByZones {delete : Option Predicate} {whole : ZoneMap} {pages : Extent} {ranges : RowSet}
    (indexed : reader.Indexed session) (some : 0 < reader.rows)
    (stored : reader.indexes.zones = .some (whole, pages))
    (run : reader.pruneByZones keep delete session = .ok ranges after) (row : Nat) :
    row ∈ ranges ↔ row < reader.rows ∧ ∃ zone, reader.zoneOf after row = .some zone ∧
    reader.keeps keep delete zone = true := by
  obtain ⟨zones, index, summed, listed, ⟨valid, rows⟩, counts, rfl, _⟩ := pruneByZones_ok indexed some stored run
  rw [mem_keptPages, ← rows]
  constructor
  · rintro ⟨page, zone, span, there, found, kept, first, stop⟩
    obtain ⟨_, _, _, _, within⟩ := valid.span_spec found
    refine ⟨by omega, zone, ?_, kept⟩
    rw [zoneOf_eq summed listed valid found first stop, there]
  · rintro ⟨below, zone, there, kept⟩
    obtain ⟨page, other, span, holds, found, first, stop⟩ := exists_page valid counts below
    rw [zoneOf_eq summed listed valid found first stop] at there
    exact ⟨page, zone, span, there, found, kept, first, stop⟩

/-- Verdicts tell of the rows that are summed up, but for comparisons that take all values past null. By all others
a page that a predicate keeps is left out of the pruned rows only if all its rows fulfil the comparison. -/
theorem deleteVerdicts_tell (op : CompareOp) (operands : List Scalar) :
    (∀ min max rows, SumsUp min max rows → (Predicate.TellsOf op operands min max rows ↔
      ¬(Predicate.TakesAllPastNull op operands ∧ min.isNull = false))) ∧
    ∀ (reader : LeafReader) (session after : Session) (keep : Predicate) (whole : ZoneMap) (pages : Extent)
      (ranges : RowSet), reader.Indexed session → 0 < reader.rows → reader.indexes.zones = some (whole, pages) →
      reader.pruneByZones keep (some (.comparison op operands)) session = .ok ranges after →
      (∀ row, row ∈ ranges ↔ row < reader.rows ∧ ∃ zone, reader.zoneOf after row = some zone ∧
        reader.Admits keep zone ∧ ¬reader.Deletes (.comparison op operands) zone) ∧
      ∀ (values : Nat → Scalar) (row : Nat) (zone : ZoneMap), row < reader.rows →
        reader.zoneOf after row = some zone →
        (∀ min max, zone.passAll = false → zone.bounds reader.column.type reader.column.length = .ok (min, max) →
          SumsUp min max (values '' reader.pageRows after row) ∧
            ¬(Predicate.TakesAllPastNull op operands ∧ min.isNull = false)) →
        reader.Admits keep zone → row ∉ ranges →
        ∀ other ∈ reader.pageRows after row, Predicate.fulfils op operands (values other) = true := by
  refine ⟨fun min max rows sums => Predicate.tellsOf_iff sums, ?_⟩
  intro reader session after keep whole pages ranges indexed some stored run
  have members (row : Nat) : row ∈ ranges ↔ row < reader.rows ∧ ∃ zone, reader.zoneOf after row = .some zone ∧
      reader.Admits keep zone ∧ ¬reader.Deletes (.comparison op operands) zone := by
    simpa only [keeps_some_iff] using mem_pruneByZones indexed some stored run row
  refine ⟨members, ?_⟩
  intro values row zone below there sums admits dropped other member
  have deleted : reader.Deletes (.comparison op operands) zone := by
    by_contra spared
    exact dropped ((members row).mpr ⟨below, zone, there, admits, spared⟩)
  obtain ⟨counts, min, max, read, verdict⟩ := deleted
  obtain ⟨sums, sound⟩ := sums min max counts read
  exact Predicate.fulfils_of_all sums sound verdict (Set.mem_image_of_mem values member)

/-- Of the pages with values the first is left out, as all of its rows are less than 6. -/
theorem zonedReader_delete : ∃ after,
    zonedReader.pruneByZones (.comparison .isNotNull []) (some (.comparison .lt [.integer .tiny 6])) zonedSession =
        .ok ⟨[⟨2, 4⟩]⟩ after ∧
      zonedReader.zoneOf after 0 = some { min := "1", max := "5", hasValue := true } ∧
      (after.loadedOf zonedReader.access.key).ordinal = some ⟨[⟨0, ⟨0, 0⟩⟩, ⟨2, ⟨0, 0⟩⟩], 4⟩ := by
  refine ⟨_, by cbv, ?_, ?_⟩
  · cbv
  · cbv

theorem deleteVerdicts_tell_zoned : ∃ after,
    zonedReader.pruneByZones (.comparison .isNotNull []) (some (.comparison .lt [.integer .tiny 6])) zonedSession =
        .ok ⟨[⟨2, 4⟩]⟩ after ∧
      SumsUp (.integer .tiny 1) (.integer .tiny 5) (zonedRow '' zonedReader.pageRows after 0) ∧
      0 ∉ (⟨[⟨2, 4⟩]⟩ : RowSet) ∧ 1 ∈ zonedReader.pageRows after 0 ∧
      Predicate.fulfils .lt [.integer .tiny 6] (zonedRow 1) = true := by
  obtain ⟨after, run, summed, listed⟩ := zonedReader_delete
  have rows (other : Nat) : other ∈ zonedReader.pageRows after 0 ↔ other < 2 := by
    have spans : OrdinalIndex.spans ⟨[⟨0, ⟨0, 0⟩⟩, ⟨2, ⟨0, 0⟩⟩], 4⟩ =
      [⟨0, 0, 2, ⟨0, 0⟩⟩, ⟨1, 2, 4, ⟨0, 0⟩⟩] := by decide
    simp only [pageRows, listed, Set.mem_ofPred_eq, Option.some.injEq, exists_eq_left', spans, List.mem_cons,
      List.not_mem_nil, or_false, exists_eq_or_imp, exists_eq_left, PageSpan.range, RowRange.mem_iff]
    omega
  have known : ∀ value ∈ zonedRow '' zonedReader.pageRows after 0,
      value = .integer .tiny 1 ∨ value = .integer .tiny 5 := by
    rintro _ ⟨row, member, rfl⟩
    have below := (rows row).mp member
    have place : row = 0 ∨ row = 1 := by omega
    rcases place with rfl | rfl
    · exact .inl rfl
    · exact .inr rfl
  have sums : SumsUp (.integer .tiny 1) (.integer .tiny 5) (zonedRow '' zonedReader.pageRows after 0) := by
    refine ⟨⟨_, 0, (rows 0).mpr (by decide), rfl⟩, ?_, ?_, ?_, ?_⟩
    · refine iff_of_false (by decide) fun null => ?_
      rcases known _ null with same | same <;> cases same
    · refine iff_of_false (by decide) fun null => ?_
      cases null _ ⟨0, (rows 0).mpr (by decide), rfl⟩
    · intro _ value member _
      rcases known value member with rfl | rfl <;> decide
    · intro value member _
      rcases known value member with rfl | rfl <;> decide
  have indexed : zonedReader.Indexed zonedSession := by
    intro index held
    cases held
  obtain ⟨_, prunes⟩ := deleteVerdicts_tell .lt [.integer .tiny 6]
  obtain ⟨_, tell⟩ := prunes zonedReader zonedSession after _ _ _ _ indexed (by decide) rfl run
  have admits : zonedReader.Admits (.comparison .isNotNull []) { min := "1", max := "5", hasValue := true } :=
    ⟨by decide, .inr ⟨.integer .tiny 1, .integer .tiny 5, by cbv, by decide⟩⟩
  refine ⟨after, run, sums, by decide, (rows 1).mpr (by decide), ?_⟩
  refine tell zonedRow 0 _ (by decide) summed ?_ admits (by decide) 1 ((rows 1).mpr (by decide))
  intro min max _ read
  have bounds : ({ min := "1", max := "5", hasValue := true } : ZoneMap).bounds (.integer .tiny) 0 =
      .ok (.integer .tiny 1, .integer .tiny 5) := by cbv
  cases read.symm.trans bounds
  exact ⟨sums, by simp [Predicate.TakesAllPastNull]⟩

end LeafReader

end Columnar
