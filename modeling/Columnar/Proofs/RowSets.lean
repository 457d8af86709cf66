import Mathlib.Tactic.Common
import Columnar.RowSet

namespace Columnar

section PartitionPoint

/-- Once the test fails in a list, it fails for all that follows. -/
def Falls {α : Type} (test : α → Bool) (list : List α) : Prop :=
  list.Pairwise fun before behind => test behind = true → test before = true

variable {α : Type} {test : α → Bool} {list : List α}

/-- The search keeps the place where the test begins to fail between its bounds. -/
theorem searchPoint_eq {place low high : Nat}
    (parted : ∀ index element, list[index]? = some element → (test element = true ↔ index < place))
    (above : low ≤ place) (below : place ≤ high) (within : high ≤ list.length) :
    searchPoint test list low high = place := by
  fun_induction searchPoint test list low high with
  | case1 low high order middle holds ih =>
    have found : list[middle]? = some list[middle] := List.getElem?_eq_getElem (by omega)
    rw [found, Option.any_some] at holds
    have before := (parted middle _ found).mp holds
    exact ih before below within
  | case2 low high order middle fails ih =>
    have found : list[middle]? = some list[middle] := List.getElem?_eq_getElem (by omega)
    rw [found, Option.any_some] at fails
    have behind : ¬middle < place := fun before => fails ((parted middle _ found).mpr before)
    exact ih above (by omega) (by omega)
  | case3 low high order => omega

theorem test_iff_lt (falls : Falls test list) (index : Nat) (element : α)
    (found : list[index]? = some element) : test element = true ↔ index < (list.takeWhile test).length := by
  induction list generalizing index with
  | nil => cases found
  | cons first rest ih =>
    obtain ⟨ahead, later⟩ := List.pairwise_cons.mp falls
    cases holds : test first with
    | true =>
      rw [List.takeWhile_cons_of_pos holds, List.length_cons]
      cases index with
      | zero =>
        cases found
        exact iff_of_true holds (Nat.succ_pos _)
      | succ index =>
        rw [Nat.succ_lt_succ_iff]
        exact ih later index found
    | false =>
      have fails : ¬test first = true := by simp [holds]
      rw [List.takeWhile_cons_of_neg fails]
      refine iff_of_false ?_ (Nat.not_lt_zero _)
      cases index with
      | zero =>
        cases found
        exact fails
      | succ index => exact fun meets => fails (ahead element (List.mem_of_getElem? found) meets)

/-- The list is parted where the test fails first. -/
theorem partitionPoint_eq (falls : Falls test list) :
    partitionPoint test list = (list.takeWhile test).length :=
  searchPoint_eq (test_iff_lt falls) (Nat.zero_le _) (List.takeWhile_prefix test).length_le (Nat.le_refl _)

theorem partitionPoint_le (falls : Falls test list) :
    partitionPoint test list ≤ list.length := by
  rw [partitionPoint_eq falls]
  exact (List.takeWhile_prefix test).length_le

theorem lt_partitionPoint (falls : Falls test list) {index : Nat} {element : α}
    (found : list[index]? = some element) : index < partitionPoint test list ↔ test element = true := by
  rw [partitionPoint_eq falls]
  exact (test_iff_lt falls index element found).symm

theorem of_mem_take (falls : Falls test list) {element : α}
    (member : element ∈ list.take (partitionPoint test list)) : test element = true := by
  obtain ⟨index, found⟩ := List.mem_iff_getElem?.mp member
  rw [List.getElem?_take] at found
  split at found
  next before => exact (lt_partitionPoint falls found).mp before
  next => cases found

theorem of_mem_drop (falls : Falls test list) {element : α}
    (member : element ∈ list.drop (partitionPoint test list)) : test element = false := by
  obtain ⟨index, found⟩ := List.mem_iff_getElem?.mp member
  rw [List.getElem?_drop] at found
  by_contra meets
  have before := (lt_partitionPoint falls found).mpr (by simpa using meets)
  omega

end PartitionPoint

namespace RowRange

def hull (a b : RowRange) : RowRange := ⟨min a.start b.start, max a.stop b.stop⟩

/-- Puts a range between others. Ranges that it overlaps or touches become part of it, one after the other. -/
def insert (range : RowRange) : List RowRange → List RowRange
  | [] => [range]
  | next :: rest =>
    if next.stop < range.start then next :: insert range rest
    else if range.stop < next.start then range :: next :: rest
    else insert (range.hull next) rest

variable {range : RowRange} {ranges : List RowRange}

theorem not_mem_of_isEmpty (empty : range.isEmpty = true) (row : Nat) : row ∉ range := by
  intro member
  have order : range.stop ≤ range.start := of_decide_eq_true empty
  rw [mem_iff] at member
  omega

theorem filled_of_not_isEmpty (filled : ¬range.isEmpty = true) : range.start < range.stop := by
  have order : ¬range.stop ≤ range.start := by simpa [isEmpty] using filled
  omega

/-- The hull of ranges that overlap or touch has no other rows than they have. -/
theorem mem_hull {a b : RowRange} (left : ¬b.stop < a.start) (right : ¬a.stop < b.start) (row : Nat) :
    row ∈ a.hull b ↔ row ∈ a ∨ row ∈ b := by
  have bounds : row ∈ a.hull b ↔ min a.start b.start ≤ row ∧ row < max a.stop b.stop := Iff.rfl
  rw [bounds, mem_iff, mem_iff]
  omega

theorem mem_insert {row : Nat} :
    (∃ found ∈ range.insert ranges, row ∈ found) ↔ row ∈ range ∨ ∃ found ∈ ranges, row ∈ found := by
  induction ranges generalizing range with
  | nil => simp [insert]
  | cons next rest ih =>
    rw [insert]
    by_cases before : next.stop < range.start
    · simp only [before, if_true, List.mem_cons, exists_eq_or_imp, ih]
      exact or_left_comm
    · by_cases behind : range.stop < next.start
      · simp only [before, behind, if_true, if_false, List.mem_cons, exists_eq_or_imp]
      · simp only [before, behind, if_false, ih, mem_hull before behind, List.mem_cons, exists_eq_or_imp, or_assoc]

/-- What stands in front of a range and of others stands in front of all of them after the insertion. -/
theorem lt_start_of_mem_insert {bound : Nat} {found : RowRange}
    (ahead : bound < range.start) (others : ∀ other ∈ ranges, bound < other.start)
    (member : found ∈ range.insert ranges) : bound < found.start := by
  induction ranges generalizing range with
  | nil =>
    cases List.mem_singleton.mp member
    exact ahead
  | cons next rest ih =>
    have first : bound < next.start := others next List.mem_cons_self
    have later : ∀ other ∈ rest, bound < other.start := fun other there =>
      others other (List.mem_cons_of_mem _ there)
    rw [insert] at member
    split at member
    · rcases List.mem_cons.mp member with rfl | member
      · exact first
      · exact ih ahead later member
    · split at member
      · rcases List.mem_cons.mp member with rfl | member
        · exact ahead
        · exact others found member
      · have joined : bound < (range.hull next).start := Nat.lt_min.mpr ⟨ahead, first⟩
        exact ih joined later member

end RowRange

namespace RowSet

/-- The ranges hold rows and ascend, with at least one row left out between each two of them. -/
structure Canonical (rows : RowSet) : Prop where
  filled : ∀ range ∈ rows.ranges, range.start < range.stop
  apart : rows.ranges.Pairwise fun before behind => before.stop < behind.start

variable {rows : RowSet} {first range : RowRange} {ranges rest : List RowRange} {row : Nat}

theorem not_mem_empty : row ∉ empty := by
  simp [empty, mem_iff]

theorem mem_cons : row ∈ (⟨first :: rest⟩ : RowSet) ↔ row ∈ first ∨ row ∈ (⟨rest⟩ : RowSet) := by
  simp only [mem_iff, List.mem_cons, exists_eq_or_imp]

theorem canonical_empty : empty.Canonical := ⟨nofun, .nil⟩

theorem canonical_cons : Canonical ⟨first :: rest⟩ ↔
    first.start < first.stop ∧ (∀ later ∈ rest, first.stop < later.start) ∧ Canonical ⟨rest⟩ := by
  constructor
  · rintro ⟨filled, apart⟩
    obtain ⟨gap, apart⟩ := List.pairwise_cons.mp apart
    exact ⟨filled first List.mem_cons_self, gap, fun range there =>
      filled range (List.mem_cons_of_mem _ there), apart⟩
  · rintro ⟨filled, gap, others, apart⟩
    exact ⟨List.forall_mem_cons.mpr ⟨filled, others⟩, List.pairwise_cons.mpr ⟨gap, apart⟩⟩

theorem canonical_insert (canonical : Canonical ⟨ranges⟩) (filled : range.start < range.stop) :
    Canonical ⟨range.insert ranges⟩ := by
  induction ranges generalizing range with
  | nil => exact canonical_cons.mpr ⟨filled, nofun, canonical_empty⟩
  | cons next rest ih =>
    obtain ⟨order, gap, behind⟩ := canonical_cons.mp canonical
    rw [RowRange.insert]
    split
    · rename_i before
      exact canonical_cons.mpr ⟨order, fun later => RowRange.lt_start_of_mem_insert before gap, ih behind filled⟩
    · split
      · rename_i after
        refine canonical_cons.mpr ⟨filled, ?_, canonical⟩
        intro later member
        rcases List.mem_cons.mp member with rfl | member
        · exact after
        · have ahead := gap later member
          omega
      · have joined : (range.hull next).start < (range.hull next).stop := by
          simp only [RowRange.hull]
          omega
        exact ih behind joined

theorem Canonical.ascending (canonical : rows.Canonical) :
    rows.ranges.Pairwise fun before behind => before.start < behind.start ∧ before.stop < behind.stop := by
  refine canonical.apart.imp_of_mem fun first second gap => ?_
  have filled := canonical.filled _ first
  have filled' := canonical.filled _ second
  omega

/-- Ranges that end before a bound stand in front of all others. -/
theorem Canonical.falls_stop (canonical : rows.Canonical) (bound : Nat) :
    Falls (fun range => range.stop < bound) rows.ranges := by
  refine canonical.ascending.imp fun order passed => ?_
  rw [decide_eq_true_eq] at *
  omega

/-- Ranges that begin before a bound stand in front of all others. -/
theorem Canonical.falls_start (canonical : rows.Canonical) (bound : Nat) :
    Falls (fun range => range.start ≤ bound) rows.ranges := by
  refine canonical.ascending.imp fun order passed => ?_
  rw [decide_eq_true_eq] at *
  omega

/-- The ranges that a range overlaps or touches lie between those before it and those behind it. -/
theorem Canonical.countBefore_le (canonical : rows.Canonical) (filled : range.start < range.stop) :
    rows.countBefore range ≤ rows.countNotBehind range := by
  have within : rows.countBefore range ≤ rows.ranges.length := partitionPoint_le (canonical.falls_stop _)
  by_contra more
  have found := List.getElem?_eq_getElem (l := rows.ranges) (i := rows.countNotBehind range) (by omega)
  have ends := (lt_partitionPoint (canonical.falls_stop range.start) found).mp (Nat.lt_of_not_le more)
  have begins := mt (lt_partitionPoint (canonical.falls_start range.stop) found).mpr (Nat.lt_irrefl _)
  have holds := canonical.filled _ (List.mem_of_getElem? found)
  rw [decide_eq_true_eq] at ends begins
  omega

/-- A range grows over the first range that it meets before it does over the others. -/
theorem merge_cons {next : RowRange} {met : List RowRange}
    (ahead : ∀ later ∈ met, next.start ≤ later.start ∧ next.stop ≤ later.stop) :
    range.merge (next :: met) = (range.hull next).merge met := by
  cases met with
  | nil => rfl
  | cons second rest =>
    have start := (ahead second List.mem_cons_self).1
    have stop := (ahead _ (List.getLast_mem (List.cons_ne_nil second rest))).2
    simp only [RowRange.merge, RowRange.hull, List.head?_cons, List.getLast?_cons_cons,
      List.getLast?_eq_some_getLast (List.cons_ne_nil second rest), RowRange.mk.injEq]
    omega

/-- A range grows over the ranges that it meets one after the other. -/
theorem insert_met {met behind : List RowRange} (canonical : Canonical ⟨met ++ behind⟩)
    (filled : range.start < range.stop) (meets : ∀ other ∈ met, range.start ≤ other.stop ∧ other.start ≤ range.stop)
    (begins : ∀ other ∈ behind, range.stop < other.start) :
    range.insert (met ++ behind) = range.merge met :: behind := by
  induction met generalizing range with
  | nil =>
    cases behind with
    | nil => rfl
    | cons first rest =>
      have order := (canonical_cons.mp canonical).1
      have after := begins first List.mem_cons_self
      rw [List.nil_append, RowRange.insert, if_neg (by omega), if_pos after]
      rfl
  | cons first rest ih =>
    obtain ⟨order, gap, later⟩ := canonical_cons.mp canonical
    obtain ⟨left, right⟩ := meets first List.mem_cons_self
    have ahead : ∀ later ∈ rest, first.start ≤ later.start ∧ first.stop ≤ later.stop := by
      intro later member
      have apart := gap later (List.mem_append_left _ member)
      have holds := canonical.filled later (List.mem_cons_of_mem _ (List.mem_append_left _ member))
      omega
    rw [List.cons_append, RowRange.insert, if_neg (by omega), if_neg (by omega), merge_cons ahead]
    refine ih later ?_ ?_ ?_
    · simp only [RowRange.hull]
      omega
    · intro other member
      have touched := meets other (List.mem_cons_of_mem _ member)
      simp only [RowRange.hull]
      omega
    · intro other member
      have apart := gap other (List.mem_append_right _ member)
      have past := begins other member
      simp only [RowRange.hull]
      omega

theorem insert_append {before others : List RowRange} (ends : ∀ other ∈ before, other.stop < range.start) :
    range.insert (before ++ others) = before ++ range.insert others := by
  induction before with
  | nil => rfl
  | cons first rest ih =>
    have onward := ih fun other member => ends other (List.mem_cons_of_mem _ member)
    simp only [List.cons_append, RowRange.insert, ends first List.mem_cons_self, if_true, onward]

theorem canonical_append {before others : List RowRange} (canonical : Canonical ⟨before ++ others⟩) :
    Canonical ⟨others⟩ :=
  ⟨fun range member => canonical.filled range (List.mem_append_right _ member),
    (List.pairwise_append.mp canonical.apart).2.1⟩

/-- What is put in the place of the ranges that are met is what grows over them. -/
theorem Canonical.add_eq (canonical : rows.Canonical) (filled : range.start < range.stop) :
    rows.add range = ⟨range.insert rows.ranges⟩ := by
  have inside := canonical.countBefore_le filled
  have parts : rows.ranges = rows.ranges.take (rows.countBefore range) ++
      ((rows.ranges.take (rows.countNotBehind range)).drop (rows.countBefore range) ++
        rows.ranges.drop (rows.countNotBehind range)) := by
    rw [← List.append_assoc, ← Nat.min_eq_left inside, ← List.take_take, Nat.min_eq_left inside,
      List.take_append_drop, List.take_append_drop]
  have whole : Canonical ⟨rows.ranges⟩ := canonical
  rw [parts] at whole
  have notEmpty : ¬range.isEmpty = true := by simpa [RowRange.isEmpty] using filled
  have ends : ∀ other ∈ rows.ranges.take (rows.countBefore range),
      other.stop < range.start := fun other member => by
    simpa using of_mem_take (canonical.falls_stop range.start) member
  rw [add, if_neg notEmpty]
  conv_rhs => rw [parts, insert_append ends]
  rw [insert_met (canonical_append whole) filled]
  · intro other member
    have reached := of_mem_take (canonical.falls_start range.stop) (List.mem_of_mem_drop member)
    rw [List.drop_take] at member
    have left := of_mem_drop (canonical.falls_stop range.start) (List.mem_of_mem_take member)
    simpa using And.intro left reached
  · intro other member
    simpa using of_mem_drop (canonical.falls_start range.stop) member

theorem Canonical.add (canonical : rows.Canonical) : (rows.add range).Canonical := by
  cases empty : range.isEmpty with
  | true => rwa [RowSet.add, if_pos empty]
  | false =>
    have filled : range.start < range.stop := RowRange.filled_of_not_isEmpty (by simp [empty])
    rw [canonical.add_eq filled]
    exact canonical_insert canonical filled

theorem Canonical.mem_add (canonical : rows.Canonical) : row ∈ rows.add range ↔ row ∈ rows ∨ row ∈ range := by
  cases empty : range.isEmpty with
  | true =>
    rw [RowSet.add, if_pos empty]
    exact (or_iff_left (RowRange.not_mem_of_isEmpty empty row)).symm
  | false =>
    rw [canonical.add_eq (RowRange.filled_of_not_isEmpty (by simp [empty])), mem_iff, RowRange.mem_insert, or_comm]
    exact Iff.rfl

theorem Canonical.foldl_add (canonical : rows.Canonical) (ranges : List RowRange) :
    (ranges.foldl (fun rows range => rows.add range) rows).Canonical := by
  induction ranges generalizing rows with
  | nil => exact canonical
  | cons first rest ih => exact ih canonical.add

theorem Canonical.mem_foldl_add (canonical : rows.Canonical) (ranges : List RowRange) :
    row ∈ ranges.foldl (fun rows range => rows.add range) rows ↔ row ∈ rows ∨ row ∈ (⟨ranges⟩ : RowSet) := by
  induction ranges generalizing rows with
  | nil => exact (or_iff_left not_mem_empty).symm
  | cons first rest ih => rw [List.foldl_cons, ih canonical.add, canonical.mem_add, mem_cons, or_assoc]

/-- Ranges that are put together have the rows that some of them has. -/
theorem mem_ofRanges : row ∈ ofRanges ranges ↔ ∃ range ∈ ranges, row ∈ range := by
  rw [ofRanges, canonical_empty.mem_foldl_add, or_iff_right not_mem_empty]
  exact Iff.rfl

end RowSet

end Columnar
