import Mathlib.Data.Set.Card
import Mathlib.Order.Interval.Finset.Nat
import Columnar.Proofs.RowSets

namespace Columnar

namespace RowRange

/-- The bounds are words of 64 bits. -/
def Fits (range : RowRange) : Prop := range.start < 2 ^ 64 ∧ range.stop < 2 ^ 64

theorem bounds_of_intersect? {a b common : RowRange} (found : a.intersect? b = some common) :
    common.start < common.stop ∧ common.start = max a.start b.start ∧ common.stop = min a.stop b.stop := by
  unfold intersect? at found
  dsimp only at found
  split at found
  · cases found
  · rename_i filled
    have order := filled_of_not_isEmpty filled
    cases found
    exact ⟨order, rfl, rfl⟩

theorem mem_intersect?_iff {a b : RowRange} {row : Nat} :
    (∃ common ∈ a.intersect? b, row ∈ common) ↔ row ∈ a ∧ row ∈ b := by
  have both : row ∈ (⟨max a.start b.start, min a.stop b.stop⟩ : RowRange) ↔ row ∈ a ∧ row ∈ b := by
    simp only [mem_iff]
    omega
  unfold intersect?
  dsimp only
  split
  · rename_i empty
    simp only [Option.mem_def, reduceCtorEq, false_and, exists_false, false_iff, ← both]
    exact not_mem_of_isEmpty empty row
  · simp [both]

/-- Each common part belongs to one range of either list. -/
theorem exists_of_mem_intersectAll {as bs : List RowRange} {common : RowRange}
    (member : common ∈ intersectAll as bs) : ∃ a ∈ as, ∃ b ∈ bs, a.intersect? b = some common := by
  fun_induction intersectAll as bs with
  | case1 => cases member
  | case2 => cases member
  | case3 a as b bs onLeft onRight =>
    rcases List.mem_append.mp member with here | later
    · exact ⟨a, List.mem_cons_self, b, List.mem_cons_self, Option.mem_toList.mp here⟩
    · split at later
      · obtain ⟨left, inLeft, right, inRight, found⟩ := onLeft later
        exact ⟨left, List.mem_cons_of_mem _ inLeft, right, inRight, found⟩
      · obtain ⟨left, inLeft, right, inRight, found⟩ := onRight later
        exact ⟨left, inLeft, right, List.mem_cons_of_mem _ inRight, found⟩

end RowRange

namespace RowSet

/-- Row sets that operations on words of 64 bits come to, each with the set of rows that the operations mean. -/
inductive Reached : RowSet → Set Nat → Prop
  | empty : Reached .empty ∅
  | single {range} : range.Fits → Reached (.single range) {row | row ∈ range}
  | add {rows meant range} : Reached rows meant → range.Fits →
      Reached (rows.add range) (meant ∪ {row | row ∈ range})
  | union {a b meant meant'} : Reached a meant → Reached b meant' → Reached (a.union b) (meant ∪ meant')
  | intersection {a b meant meant'} :
      Reached a meant → Reached b meant' → Reached (a.intersection b) (meant ∩ meant')

/-- The ranges are the canonical ones of a set of rows, among which each range that is added has its place, and the
observers tell of that set. -/
structure Describes (rows : RowSet) (meant : Set Nat) : Prop where
  canonical : rows.Canonical
  placed : ∀ range : RowRange, range.start < range.stop →
    rows.countBefore range ≤ rows.countNotBehind range ∧ rows.countNotBehind range ≤ rows.ranges.length
  mem : ∀ row, row ∈ rows ↔ row ∈ meant
  contains : ∀ row, rows.contains row = true ↔ row ∈ meant
  count : rows.count = meant.ncard
  count_lt : rows.count < 2 ^ 64
  first : ∀ row, rows.first? = some row ↔ IsLeast meant row
  stop : ∀ stop, rows.stop? = some stop ↔ ∃ row, IsGreatest meant row ∧ stop = row + 1

variable {rows other : RowSet} {first range : RowRange} {ranges rest : List RowRange} {row : Nat}

/-- The rows behind a gap lie behind it. -/
theorem lt_of_mem {bound : Nat} (gap : ∀ later ∈ rest, bound < later.start) (member : row ∈ (⟨rest⟩ : RowSet)) :
    bound < row := by
  obtain ⟨range, there, start, _⟩ := member
  have ahead := gap range there
  omega

theorem Canonical.mem_union (canonical : rows.Canonical) : row ∈ rows.union other ↔ row ∈ rows ∨ row ∈ other :=
  canonical.mem_foldl_add other.ranges

theorem Canonical.intersection (left : rows.Canonical) (right : other.Canonical) :
    (rows.intersection other).Canonical := by
  obtain ⟨as⟩ := rows
  obtain ⟨bs⟩ := other
  change Canonical ⟨RowRange.intersectAll as bs⟩
  fun_induction RowRange.intersectAll as bs with
  | case1 => exact canonical_empty
  | case2 => exact canonical_empty
  | case3 a as b bs onLeft onRight =>
    -- What comes later is part of a range behind the one that has ended.
    have joined {later : List RowRange} (canonical : Canonical ⟨later⟩)
        (ahead : ∀ next ∈ later, min a.stop b.stop < next.start) :
        Canonical ⟨(a.intersect? b).toList ++ later⟩ := by
      cases found : a.intersect? b with
      | none => exact canonical
      | some common =>
        obtain ⟨filled, _, stop⟩ := RowRange.bounds_of_intersect? found
        refine canonical_cons.mpr ⟨filled, ?_, canonical⟩
        rwa [stop]
    obtain ⟨_, gap, behind⟩ := canonical_cons.mp left
    obtain ⟨_, gap', behind'⟩ := canonical_cons.mp right
    split
    · rename_i order
      refine joined (onLeft behind right) ?_
      intro next member
      obtain ⟨range, there, other, _, part⟩ := RowRange.exists_of_mem_intersectAll member
      obtain ⟨_, start, _⟩ := RowRange.bounds_of_intersect? part
      have ahead := gap range there
      omega
    · rename_i order
      refine joined (onRight left behind') ?_
      intro next member
      obtain ⟨range, _, other, there, part⟩ := RowRange.exists_of_mem_intersectAll member
      obtain ⟨_, start, _⟩ := RowRange.bounds_of_intersect? part
      have ahead := gap' other there
      omega

/-- The range that ends first shares no row with what follows in the other list. -/
theorem mem_intersection (left : rows.Canonical) (right : other.Canonical) :
    row ∈ rows.intersection other ↔ row ∈ rows ∧ row ∈ other := by
  obtain ⟨as⟩ := rows
  obtain ⟨bs⟩ := other
  change row ∈ (⟨RowRange.intersectAll as bs⟩ : RowSet) ↔ _
  have joined {common : Option RowRange} {rest : List RowRange} :
      row ∈ (⟨common.toList ++ rest⟩ : RowSet) ↔ (∃ range ∈ common, row ∈ range) ∨ row ∈ (⟨rest⟩ : RowSet) := by
    simp only [mem_iff, List.mem_append, Option.mem_toList, Option.mem_def, or_and_right, exists_or]
  fun_induction RowRange.intersectAll as bs with
  | case1 bs => simp [mem_iff]
  | case2 as => simp [mem_iff]
  | case3 a as b bs onLeft onRight =>
    obtain ⟨_, gap, behind⟩ := canonical_cons.mp left
    obtain ⟨_, gap', behind'⟩ := canonical_cons.mp right
    rw [joined, RowRange.mem_intersect?_iff]
    split
    · rename_i order
      have passed : row ∈ a → row ∉ (⟨bs⟩ : RowSet) := by
        intro inside member
        have ahead := lt_of_mem gap' member
        rw [RowRange.mem_iff] at inside
        omega
      refine (or_congr_right (onLeft behind right)).trans ?_
      rw [mem_cons, mem_cons, or_and_right]
      exact or_congr_left (and_congr_right fun inside => (or_iff_left (passed inside)).symm)
    · rename_i order
      have passed : row ∈ b → row ∉ (⟨as⟩ : RowSet) := by
        intro inside member
        have ahead := lt_of_mem gap member
        rw [RowRange.mem_iff] at inside
        omega
      refine (or_congr_right (onRight left behind')).trans ?_
      rw [mem_cons, mem_cons, and_or_left]
      exact or_congr_left (and_congr_left fun inside => (or_iff_left (passed inside)).symm)

theorem Canonical.isLeast_start (canonical : Canonical ⟨first :: rest⟩) :
    IsLeast {row | row ∈ (⟨first :: rest⟩ : RowSet)} first.start := by
  obtain ⟨filled, gap, _⟩ := canonical_cons.mp canonical
  refine ⟨mem_cons.mpr (.inl ⟨le_rfl, filled⟩), ?_⟩
  intro row member
  rcases mem_cons.mp member with inside | later
  · exact inside.1
  · have past := lt_of_mem gap later
    omega

/-- The first range ends at the first row that is left out behind its start. -/
theorem Canonical.isLeast_stop (canonical : Canonical ⟨first :: rest⟩) :
    IsLeast {row | first.start ≤ row ∧ row ∉ (⟨first :: rest⟩ : RowSet)} first.stop := by
  obtain ⟨filled, gap, _⟩ := canonical_cons.mp canonical
  constructor
  · refine ⟨filled.le, ?_⟩
    intro member
    rcases mem_cons.mp member with inside | later
    · exact absurd inside.2 (Nat.lt_irrefl _)
    · exact absurd (lt_of_mem gap later) (Nat.lt_irrefl _)
  · rintro row ⟨reached, left⟩
    by_contra short
    exact left (mem_cons.mpr (.inl ⟨reached, Nat.lt_of_not_le short⟩))

/-- The later ranges hold the rows from the end of the first on. -/
theorem Canonical.mem_rest_iff (canonical : Canonical ⟨first :: rest⟩) :
    row ∈ (⟨rest⟩ : RowSet) ↔ first.stop ≤ row ∧ row ∈ (⟨first :: rest⟩ : RowSet) := by
  obtain ⟨_, gap, _⟩ := canonical_cons.mp canonical
  constructor
  · intro member
    exact ⟨(lt_of_mem gap member).le, mem_cons.mpr (.inr member)⟩
  · rintro ⟨passed, member⟩
    rcases mem_cons.mp member with inside | later
    · exact absurd inside.2 (Nat.not_lt.mpr passed)
    · exact later

/-- Canonical ranges are found again from their rows. -/
theorem Canonical.eq_of_mem_iff (left : rows.Canonical) (right : other.Canonical)
    (same : ∀ row, row ∈ rows ↔ row ∈ other) : rows = other := by
  obtain ⟨as⟩ := rows
  obtain ⟨bs⟩ := other
  induction as generalizing bs with
  | nil =>
    cases bs with
    | nil => rfl
    | cons b bs => exact absurd ((same b.start).mpr right.isLeast_start.1) not_mem_empty
  | cons a as ih =>
    cases bs with
    | nil => exact absurd ((same a.start).mp left.isLeast_start.1) not_mem_empty
    | cons b bs =>
      obtain ⟨_, _, behind⟩ := canonical_cons.mp left
      obtain ⟨_, _, behind'⟩ := canonical_cons.mp right
      have start : a.start = b.start := by
        have least := left.isLeast_start
        simp only [same] at least
        exact least.unique right.isLeast_start
      have stop : a.stop = b.stop := by
        have least := left.isLeast_stop
        simp only [same, start] at least
        exact least.unique right.isLeast_stop
      have tails : as = bs := by
        refine congrArg RowSet.ranges (ih behind bs behind' fun row => ?_)
        rw [left.mem_rest_iff, right.mem_rest_iff, stop, same]
      have heads : a = b := by
        cases a
        cases b
        cases start
        cases stop
        rfl
      rw [heads, tails]

/-- Only the first range that goes on behind a row can hold it. -/
theorem Canonical.contains_iff (canonical : rows.Canonical) : rows.contains row = true ↔ row ∈ rows := by
  have falls : Falls (fun range => range.stop ≤ row) rows.ranges := by
    refine canonical.ascending.imp fun order passed => ?_
    rw [decide_eq_true_eq] at *
    omega
  have place (index : Nat) (range : RowRange) (found : rows.ranges[index]? = some range) :
      index < partitionPoint (fun range => range.stop ≤ row) rows.ranges ↔ range.stop ≤ row := by
    rw [lt_partitionPoint falls found, decide_eq_true_eq]
  rw [contains]
  constructor
  · intro held
    cases found : rows.ranges[partitionPoint (fun range => range.stop ≤ row) rows.ranges]? with
    | none => simp [found] at held
    | some range =>
      have goesOn := mt (place _ range found).mpr (Nat.lt_irrefl _)
      rw [found, Option.any_some, decide_eq_true_eq] at held
      exact ⟨range, List.mem_of_getElem? found, held, by omega⟩
  · rintro ⟨range, member, start, stop⟩
    obtain ⟨index, found⟩ := List.mem_iff_getElem?.mp member
    obtain ⟨within, rfl⟩ := List.getElem?_eq_some_iff.mp found
    have reached := mt (place index _ found).mp (by omega)
    rw [List.getElem?_eq_getElem (by omega), Option.any_some, decide_eq_true_eq]
    rcases Nat.lt_or_eq_of_le (Nat.le_of_not_lt reached) with before | same
    · have order := List.pairwise_iff_getElem.mp canonical.ascending _ index (by omega) within before
      omega
    · simpa only [same] using start

theorem finite (rows : RowSet) : {row | row ∈ rows}.Finite := by
  obtain ⟨ranges⟩ := rows
  induction ranges with
  | nil => simp [mem_iff]
  | cons first rest ih =>
    have split : {row | row ∈ (⟨first :: rest⟩ : RowSet)} =
        Set.Ico first.start first.stop ∪ {row | row ∈ (⟨rest⟩ : RowSet)} := by
      ext row
      exact mem_cons
    rw [split]
    exact (Set.finite_Ico _ _).union ih

theorem Canonical.count_eq (canonical : rows.Canonical) : rows.count = {row | row ∈ rows}.ncard := by
  obtain ⟨ranges⟩ := rows
  induction ranges with
  | nil => simp [count, mem_iff, total]
  | cons first rest ih =>
    obtain ⟨filled, gap, behind⟩ := canonical_cons.mp canonical
    have split : {row | row ∈ (⟨first :: rest⟩ : RowSet)} =
        (Finset.Ico first.start first.stop : Set Nat) ∪ {row | row ∈ (⟨rest⟩ : RowSet)} := by
      ext row
      rw [Finset.coe_Ico]
      exact mem_cons
    have disjoint : Disjoint (Finset.Ico first.start first.stop : Set Nat) {row | row ∈ (⟨rest⟩ : RowSet)} := by
      rw [Set.disjoint_left]
      intro row inside member
      have past := lt_of_mem gap member
      rw [Finset.coe_Ico, Set.mem_Ico] at inside
      omega
    rw [split, Set.ncard_union_eq disjoint (Finset.finite_toSet _) (finite _), ← ih behind,
      Set.ncard_coe_finset, Nat.card_Ico]
    simp [count, total, RowRange.count]

theorem Canonical.first?_eq_some (canonical : rows.Canonical) : rows.first? = some row ↔
    IsLeast {row | row ∈ rows} row := by
  obtain ⟨ranges⟩ := rows
  cases ranges with
  | nil => simp [first?, IsLeast, mem_iff]
  | cons first rest =>
    have found : first? ⟨first :: rest⟩ = some first.start := rfl
    rw [found, Option.some.injEq]
    constructor
    · rintro rfl
      exact canonical.isLeast_start
    · exact canonical.isLeast_start.unique

/-- The last range ends behind the greatest row. -/
theorem Canonical.stop?_eq_some (canonical : rows.Canonical) {stop : Nat} :
    rows.stop? = some stop ↔ ∃ row, IsGreatest {row | row ∈ rows} row ∧ stop = row + 1 := by
  obtain ⟨ranges⟩ := rows
  rcases List.eq_nil_or_concat ranges with rfl | ⟨front, last, rfl⟩
  · simp [stop?, IsGreatest, mem_iff]
  · rw [List.concat_eq_append] at canonical ⊢
    have filled : last.start < last.stop := canonical.filled last (by simp)
    have greatest : IsGreatest {row | row ∈ (⟨front ++ [last]⟩ : RowSet)} (last.stop - 1) := by
      constructor
      · refine ⟨last, by simp, ?_⟩
        rw [RowRange.mem_iff]
        omega
      · rintro row ⟨range, member, _, below⟩
        rcases List.mem_append.mp member with before | here
        · have gap := (List.pairwise_append.mp canonical.apart).2.2 range before last (List.mem_singleton_self last)
          omega
        · cases List.mem_singleton.mp here
          omega
    have found : stop? ⟨front ++ [last]⟩ = some last.stop := by simp [stop?]
    rw [found, Option.some.injEq]
    constructor
    · rintro rfl
      exact ⟨last.stop - 1, greatest, by omega⟩
    · rintro ⟨row, other, rfl⟩
      have same := greatest.unique other
      omega

variable {a b c : RowSet} {meant meant' meant'' : Set Nat}

theorem Reached.canonical (reached : Reached rows meant) : rows.Canonical := by
  induction reached with
  | empty => exact canonical_empty
  | single => exact canonical_empty.add
  | add _ _ ih => exact ih.add
  | union _ _ ih ih' => exact ih.foldl_add _
  | intersection _ _ ih ih' => exact ih.intersection ih'

theorem Reached.mem_iff (reached : Reached rows meant) : row ∈ rows ↔ row ∈ meant := by
  induction reached with
  | empty => simp [not_mem_empty]
  | single => rw [RowSet.single, canonical_empty.mem_add, or_iff_right not_mem_empty, Set.mem_ofPred_eq]
  | add reached _ ih => rw [reached.canonical.mem_add, ih, Set.mem_union, Set.mem_ofPred_eq]
  | union left _ ih ih' => rw [left.canonical.mem_union, ih, ih', Set.mem_union]
  | intersection left right ih ih' =>
    rw [mem_intersection left.canonical right.canonical, ih, ih', Set.mem_inter_iff]

/-- No word is left behind the last row. -/
theorem Reached.lt_of_mem (reached : Reached rows meant) (member : row ∈ meant) : row < 2 ^ 64 - 1 := by
  have within {range : RowRange} (fits : range.Fits) (inside : row ∈ range) : row < 2 ^ 64 - 1 := by
    obtain ⟨_, stop⟩ := fits
    rw [RowRange.mem_iff] at inside
    omega
  induction reached with
  | empty => cases member
  | single fits => exact within fits member
  | add _ fits ih =>
    rcases member with member | inside
    · exact ih member
    · exact within fits inside
  | union _ _ ih ih' =>
    rcases member with member | member
    · exact ih member
    · exact ih' member
  | intersection _ _ ih _ => exact ih member.1

theorem Reached.describes (reached : Reached rows meant) : rows.Describes meant := by
  have canonical := reached.canonical
  have same : {row | row ∈ rows} = meant := by
    ext row
    exact reached.mem_iff
  have count : rows.count = meant.ncard := by rw [canonical.count_eq, same]
  refine ⟨canonical, fun range filled => ?_, fun row => reached.mem_iff, fun row => ?_, count, ?_, fun row => ?_,
    fun stop => ?_⟩
  · exact ⟨canonical.countBefore_le filled, partitionPoint_le (canonical.falls_start range.stop)⟩
  · rw [canonical.contains_iff, reached.mem_iff]
  · have words : meant ⊆ (Finset.range (2 ^ 64 - 1) : Set Nat) := by
      intro row member
      rw [Finset.coe_range, Set.mem_Iio]
      exact reached.lt_of_mem member
    have fewer := Set.ncard_le_ncard words (Finset.finite_toSet _)
    rw [Set.ncard_coe_finset, Finset.card_range] at fewer
    omega
  · rw [canonical.first?_eq_some, same]
  · rw [canonical.stop?_eq_some, same]

/-- Row sets that mean the same rows are the same. -/
theorem Reached.unique (first : Reached a meant) (second : Reached b meant) : a = b :=
  first.canonical.eq_of_mem_iff second.canonical fun _ => first.mem_iff.trans second.mem_iff.symm

/-- Row sets are sets of rows in canonical form, and the laws of sets are equations of their ranges. -/
theorem reached_laws (first : Reached a meant) (second : Reached b meant') (third : Reached c meant'') :
    a.Describes meant ∧ (a = b ↔ ∀ row, row ∈ a ↔ row ∈ b) ∧ (a = b ↔ meant = meant') ∧
      a.union b = b.union a ∧ a.intersection b = b.intersection a ∧
      (a.union b).union c = a.union (b.union c) ∧
      (a.intersection b).intersection c = a.intersection (b.intersection c) ∧
      a.union a = a ∧ a.intersection a = a ∧
      a.intersection (b.union c) = (a.intersection b).union (a.intersection c) ∧
      a.union (b.intersection c) = (a.union b).intersection (a.union c) := by
  have sameRows : a = b ↔ ∀ row, row ∈ a ↔ row ∈ b := by
    constructor
    · rintro rfl
      exact fun _ => Iff.rfl
    · exact first.canonical.eq_of_mem_iff second.canonical
  have sameMeant : a = b ↔ meant = meant' := by
    rw [sameRows, Set.ext_iff]
    exact forall_congr' fun row => iff_congr first.mem_iff second.mem_iff
  have meaning {rows other : RowSet} {set set' : Set Nat} (left : Reached rows set) (right : Reached other set')
      (same : set = set') : rows = other := left.unique (same ▸ right)
  refine ⟨first.describes, sameRows, sameMeant, ?_, ?_, ?_, ?_, ?_, ?_, ?_, ?_⟩
  · exact meaning (first.union second) (second.union first) (Set.union_comm _ _)
  · exact meaning (first.intersection second) (second.intersection first) (Set.inter_comm _ _)
  · exact meaning ((first.union second).union third) (first.union (second.union third)) (Set.union_assoc _ _ _)
  · exact meaning ((first.intersection second).intersection third) (first.intersection (second.intersection third))
      (Set.inter_assoc _ _ _)
  · exact meaning (first.union first) first (Set.union_self _)
  · exact meaning (first.intersection first) first (Set.inter_self _)
  · exact meaning (first.intersection (second.union third))
      ((first.intersection second).union (first.intersection third)) (Set.inter_union_distrib_left _ _ _)
  · exact meaning (first.union (second.intersection third)) ((first.union second).intersection (first.union third))
      (Set.union_inter_distrib_left _ _ _)

/-- Touching ranges, the last words, and a range that is the wrong way round. -/
theorem reached_laws_touching :
    Reached ((single ⟨0, 5⟩).add ⟨5, 8⟩) ({row | row ∈ (⟨0, 5⟩ : RowRange)} ∪ {row | row ∈ (⟨5, 8⟩ : RowRange)}) ∧
      Reached (single ⟨2, 2 ^ 64 - 1⟩) {row | row ∈ (⟨2, 2 ^ 64 - 1⟩ : RowRange)} ∧
      Reached (single ⟨7, 2⟩) {row | row ∈ (⟨7, 2⟩ : RowRange)} ∧
      ((single ⟨0, 5⟩).add ⟨5, 8⟩).Describes ({row | row ∈ (⟨0, 5⟩ : RowRange)}
        ∪ {row | row ∈ (⟨5, 8⟩ : RowRange)}) ∧
      ((single ⟨0, 5⟩).add ⟨5, 8⟩).union ((single ⟨2, 2 ^ 64 - 1⟩).intersection (single ⟨7, 2⟩)) =
        (((single ⟨0, 5⟩).add ⟨5, 8⟩).union (single ⟨2, 2 ^ 64 - 1⟩)).intersection
          (((single ⟨0, 5⟩).add ⟨5, 8⟩).union (single ⟨7, 2⟩)) := by
  have first : Reached ((single ⟨0, 5⟩).add ⟨5, 8⟩) _ :=
    .add (.single ⟨by decide, by decide⟩) ⟨by decide, by decide⟩
  have second : Reached (single ⟨2, 2 ^ 64 - 1⟩) _ := .single ⟨by decide, by decide⟩
  have third : Reached (single ⟨7, 2⟩) _ := .single ⟨by decide, by decide⟩
  obtain ⟨describes, _, _, _, _, _, _, _, _, _, spreads⟩ := reached_laws first second third
  exact ⟨first, second, third, describes, spreads⟩

end RowSet

end Columnar
