import Columnar.Proofs.RowSetAlgebra
import Columnar.Proofs.ZonePruning

namespace Columnar

open Columnar.Action Session

/-- Where a test fails for all that follows once it fails, the elements in front of its first failure are those that
fulfil it. -/
theorem mem_takeWhile_iff {α : Type} {test : α → Bool} {list : List α} (falls : Falls test list) {element : α} :
    element ∈ list.takeWhile test ↔ element ∈ list ∧ test element = true := by
  induction list with
  | nil => simp
  | cons first rest ih =>
    obtain ⟨ahead, later⟩ := List.pairwise_cons.mp falls
    cases holds : test first with
    | true =>
      rw [List.takeWhile_cons_of_pos holds, List.mem_cons, List.mem_cons, ih later, or_and_right]
      refine or_congr_left (iff_self_and.mpr ?_)
      rintro rfl
      exact holds
    | false =>
      rw [List.takeWhile_cons_of_neg (by simp [holds])]
      refine iff_of_false List.not_mem_nil ?_
      rintro ⟨member, meets⟩
      rcases List.mem_cons.mp member with rfl | member
      · simp [holds] at meets
      · simp [holds] at ahead
        simp [ahead element member] at meets

namespace OrdinalIndex

/-- A page is one of those of the column. -/
def Lists (index : OrdinalIndex) (span : PageSpan) : Prop := index.span? span.page = some span

/-- A page and a range share a row. -/
def Meets (span : PageSpan) (range : RowRange) : Prop := span.first < range.stop ∧ range.start < span.stop

variable {index : OrdinalIndex} {span other : PageSpan} {taken walk : List PageSpan} {page stop : Nat}

theorem Lists.unique (listed : index.Lists span) (also : index.Lists other) (same : span.page = other.page) :
    span = other := by
  unfold Lists at listed
  rw [same] at listed
  exact Option.some.inj (listed.symm.trans also)

theorem lists_of_getElem? (found : index.spans[page]? = some span) : span.page = page ∧ index.Lists span := by
  rw [spans_getElem?] at found
  obtain ⟨start, _, rfl⟩ := span?_eq_some found
  exact ⟨rfl, found⟩

/-- The pages from that of a row on are those that end behind it, and the pages up to it those that do not begin
behind it. -/
theorem Lists.page_le_iff (valid : index.Valid) (listed : index.Lists span) (also : index.Lists other) {row : Nat}
    (first : span.first ≤ row) (stop : row < span.stop) :
    (span.page ≤ other.page ↔ row < other.stop) ∧ (other.page ≤ span.page ↔ other.first ≤ row) := by
  obtain ⟨_, start, ends, _⟩ := valid.span_spec listed
  obtain ⟨_, start', ends', filled, _⟩ := valid.span_spec also
  rcases Nat.lt_trichotomy span.page other.page with before | same | behind
  · have order := valid.startOf_mono (show span.page + 1 ≤ other.page from before)
    omega
  · rw [← listed.unique also same]
    omega
  · have order := valid.startOf_mono (show other.page + 1 ≤ span.page from behind)
    omega

theorem spans_ordered (index : OrdinalIndex) : index.spans.Pairwise fun span later => span.page < later.page := by
  rw [List.pairwise_iff_getElem]
  intro place behind inside within order
  obtain ⟨number, _⟩ := lists_of_getElem? (List.getElem?_eq_getElem inside)
  obtain ⟨number', _⟩ := lists_of_getElem? (List.getElem?_eq_getElem within)
  omega

theorem mem_drop_spans : span ∈ index.spans.drop page ↔ index.Lists span ∧ page ≤ span.page := by
  rw [List.mem_iff_getElem?]
  constructor
  · rintro ⟨place, found⟩
    rw [List.getElem?_drop] at found
    obtain ⟨number, listed⟩ := lists_of_getElem? found
    exact ⟨listed, by omega⟩
  · rintro ⟨listed, behind⟩
    refine ⟨span.page - page, ?_⟩
    rw [List.getElem?_drop, Nat.add_sub_cancel' behind, spans_getElem?]
    exact listed

theorem spansUpTo_ordered : (index.spansUpTo page stop).Pairwise fun span later => span.page < later.page :=
  index.spans_ordered.sublist ((List.takeWhile_sublist _).trans (List.drop_sublist _ _))

theorem mem_spansUpTo_iff (valid : index.Valid) :
    span ∈ index.spansUpTo page stop ↔ index.Lists span ∧ page ≤ span.page ∧ span.first < stop := by
  have falls : Falls (fun span : PageSpan => span.first < stop) (index.spans.drop page) := by
    refine (index.spans_ordered.sublist (List.drop_sublist _ _)).imp_of_mem fun first second order passed => ?_
    have listed := (mem_drop_spans.mp first).1
    obtain ⟨_, _, _, filled, _⟩ := valid.span_spec listed
    have begins := (listed.page_le_iff valid (mem_drop_spans.mp second).1 (Nat.le_refl _) filled).2
    rw [decide_eq_true_eq] at *
    omega
  rw [spansUpTo, mem_takeWhile_iff falls, mem_drop_spans, decide_eq_true_eq, and_assoc]

/-- A page that is walked again is the last one taken up before, so none is missed and none is taken up twice. -/
theorem mem_foldl_takeUp (held : ∀ span ∈ taken, index.Lists span) (walked : ∀ span ∈ walk, index.Lists span)
    (ordered : walk.Pairwise fun span later => span.page < later.page)
    (behind : ∀ span ∈ taken, ∀ later ∈ walk, span.page ≤ later.page) :
    span ∈ walk.foldl takeUp taken ↔ span ∈ taken ∨ span ∈ walk := by
  induction walk generalizing taken with
  | nil => simp
  | cons first rest ih =>
    obtain ⟨ahead, later⟩ := List.pairwise_cons.mp ordered
    obtain ⟨listed, others⟩ := List.forall_mem_cons.mp walked
    have known : ∀ span, span ∈ takeUp taken first ↔ span ∈ taken ∨ span = first := by
      intro span
      unfold takeUp
      split
      · simp
      · rename_i there
        obtain ⟨last, final, stays⟩ : ∃ last, taken.getLast? = some last ∧ first.page ≤ last.page := by
          cases final : taken.getLast? with
          | none => simp [final] at there
          | some last => exact ⟨last, rfl, by simpa [final] using there⟩
        have member := List.mem_of_getLast? final
        have same : last = first :=
          (held last member).unique listed (Nat.le_antisymm (behind last member first List.mem_cons_self) stays)
        refine (or_iff_left_of_imp ?_).symm
        rintro rfl
        rwa [← same]
    rw [List.foldl_cons, ih, known, List.mem_cons, or_assoc]
    · intro span member
      rcases (known span).mp member with member | rfl
      · exact held span member
      · exact listed
    · exact others
    · exact later
    · intro span member next among
      rcases (known span).mp member with member | rfl
      · exact behind span member next (List.mem_cons_of_mem _ among)
      · exact Nat.le_of_lt (ahead next among)

/-- The pages of a range are taken up behind those of the ranges before it. -/
theorem takeRange_spec (valid : index.Valid) {range : RowRange} (filled : range.start < range.stop)
    (held : ∀ span ∈ taken, index.Lists span) (ahead : ∀ span ∈ taken, span.first < range.start) :
    ∃ pages, index.takeRange index.rows taken range = .ok pages ∧
      ∀ span, span ∈ pages ↔ span ∈ taken ∨ index.Lists span ∧ Meets span range := by
  by_cases beyond : index.rows ≤ range.start
  · refine ⟨taken, by simp [takeRange, beyond], fun span => ?_⟩
    refine (or_iff_left ?_).symm
    rintro ⟨listed, _, stops⟩
    obtain ⟨_, _, _, _, within⟩ := valid.span_spec listed
    omega
  · obtain ⟨first, found, listed, begins, stops⟩ := valid.find_spec range.start (Nat.lt_of_not_le beyond)
    have filled' : range.isEmpty = false := by simpa [RowRange.isEmpty] using filled
    refine ⟨_, by simp only [takeRange, filled', beyond, found]; rfl, fun span => ?_⟩
    have walked {span : PageSpan} : span ∈ index.spansUpTo first.page range.stop ↔ index.Lists span ∧
        Meets span range := by
      rw [mem_spansUpTo_iff valid]
      refine and_congr_right fun known => ?_
      rw [(Lists.page_le_iff valid listed known begins stops).1, Meets, and_comm]
    rw [← walked]
    refine mem_foldl_takeUp held (fun span member => (walked.mp member).1) spansUpTo_ordered ?_
    intro before member later among
    have last := (Lists.page_le_iff valid listed (held before member) begins stops).2.mpr
      (Nat.le_of_lt (ahead before member))
    exact last.trans ((mem_spansUpTo_iff valid).mp among).2.1

/-- Over ranges in order, each takes up its pages behind those of the ranges before it. -/
theorem foldlM_takeRange_spec (valid : index.Valid) {ranges : List RowRange} (canonical : RowSet.Canonical ⟨ranges⟩)
    (held : ∀ span ∈ taken, index.Lists span) (ahead : ∀ span ∈ taken, ∀ range ∈ ranges, span.first < range.start) :
    ∃ pages, ranges.foldlM (index.takeRange index.rows) taken = .ok pages ∧
      ∀ span, span ∈ pages ↔ span ∈ taken ∨ index.Lists span ∧ ∃ range ∈ ranges, Meets span range := by
  induction ranges generalizing taken with
  | nil => exact ⟨taken, rfl, by simp⟩
  | cons first rest ih =>
    obtain ⟨filled, gap, later⟩ := RowSet.canonical_cons.mp canonical
    obtain ⟨next, took, known⟩ := takeRange_spec valid filled held fun span member =>
      ahead span member first List.mem_cons_self
    have heldNext : ∀ span ∈ next, index.Lists span := by
      intro span member
      rcases (known span).mp member with before | ⟨listed, _⟩
      · exact held span before
      · exact listed
    have aheadNext : ∀ span ∈ next, ∀ range ∈ rest, span.first < range.start := by
      intro span member range among
      rcases (known span).mp member with before | ⟨_, meets⟩
      · exact ahead span before range (List.mem_cons_of_mem _ among)
      · exact meets.1.trans (gap range among)
    obtain ⟨pages, taken, all⟩ := ih later heldNext aheadNext
    refine ⟨pages, by rw [List.foldlM_cons, took]; exact taken, fun span => ?_⟩
    rw [all, known]
    simp only [List.mem_cons, exists_eq_or_imp, and_or_left, or_assoc]

/-- The pages that are taken up are those that share a row with the set. -/
theorem spansOf_spec (valid : index.Valid) {rows : RowSet} (canonical : rows.Canonical) :
    ∃ pages, index.spansOf index.rows rows = .ok pages ∧
      ∀ span, span ∈ pages ↔ index.Lists span ∧ ∃ range ∈ rows.ranges, Meets span range := by
  have held : ∀ span ∈ ([] : List PageSpan), index.Lists span := by simp
  have ahead : ∀ span ∈ ([] : List PageSpan), ∀ range ∈ rows.ranges, span.first < range.start := by simp
  obtain ⟨pages, taken, all⟩ := foldlM_takeRange_spec valid canonical held ahead
  exact ⟨pages, taken, by simpa using all⟩

end OrdinalIndex

namespace LeafReader

variable {reader : LeafReader} {session after later : Session} {filters : List BloomFilter} {index : OrdinalIndex}
  {keep : FilterTest} {rows result : RowSet} {pages : Extent} {row : Nat}

/-- The bloom filters of a leaf and the list of its pages have been loaded, with a filter for each page. -/
structure Filtered (reader : LeafReader) (session : Session) (filters : List BloomFilter) (index : OrdinalIndex) :
    Prop where
  rooted : reader.indexes.ordinal.isSome
  summed : (session.loadedOf reader.access.key).filters = some filters
  listed : (session.loadedOf reader.access.key).ordinal = some index
  valid : index.Valid
  rows : index.rows = reader.rows
  counts : filters.length = index.pages.length

/-- The bloom filter of the data page that holds a row, as it has been loaded. -/
def filterOf (reader : LeafReader) (session : Session) (row : Nat) : Option BloomFilter := do
  let loaded := session.loadedOf reader.access.key
  let index ← loaded.ordinal
  let filters ← loaded.filters
  let span ← index.spans.find? fun span => span.first ≤ row && row < span.stop
  filters[span.page]?

/-- The filter of the page that holds a row lets the row pass. -/
def Passes (reader : LeafReader) (session : Session) (keep : FilterTest) (row : Nat) : Prop :=
  row < reader.rows ∧ ∃ filter, reader.filterOf session row = some filter ∧ keep.mayMatch filter = true

namespace Filtered

theorem of_loadedOf_eq (filtered : reader.Filtered session filters index)
    (same : later.loadedOf reader.access.key = session.loadedOf reader.access.key) :
    reader.Filtered later filters index :=
  { filtered with summed := same ▸ filtered.summed, listed := same ▸ filtered.listed }

theorem filterOf_eq (filtered : reader.Filtered session filters index) {span : PageSpan} (listed : index.Lists span)
    (first : span.first ≤ row) (stop : row < span.stop) : reader.filterOf session row = filters[span.page]? := by
  simp only [filterOf, filtered.summed, filtered.listed, bind, Option.bind,
    filtered.valid.find?_spans listed first stop]

theorem exists_filter (filtered : reader.Filtered session filters index) (below : row < reader.rows) :
    ∃ span filter, index.Lists span ∧ filters[span.page]? = some filter ∧ span.first ≤ row ∧ row < span.stop := by
  obtain ⟨span, _, listed, first, stop⟩ := filtered.valid.find_spec row (filtered.rows ▸ below)
  have inside : span.page < filters.length := by
    rw [filtered.counts, ← OrdinalIndex.span?_isSome, listed]
    rfl
  exact ⟨span, filters[span.page], listed, List.getElem?_eq_getElem inside, first, stop⟩

theorem passes_iff (filtered : reader.Filtered session filters index) :
    reader.Passes session keep row ↔
      ∃ span, index.Lists span ∧ filters[span.page]?.any keep.mayMatch = true ∧ span.first ≤ row ∧
        row < span.stop := by
  constructor
  · rintro ⟨below, filter, there, passes⟩
    obtain ⟨span, _, listed, _, first, stop⟩ := filtered.exists_filter below
    rw [filtered.filterOf_eq listed first stop] at there
    exact ⟨span, listed, by rw [there]; exact passes, first, stop⟩
  · rintro ⟨span, listed, matching, first, stop⟩
    obtain ⟨_, _, _, _, within⟩ := filtered.valid.span_spec listed
    obtain ⟨filter, there, passes⟩ := (Option.any_eq_true _ _).mp matching
    exact ⟨by rw [← filtered.rows]; omega, filter, by rw [filtered.filterOf_eq listed first stop, there], passes⟩

/-- With all loaded, the rows whose pages pass are left. A page that shares no row with the given ones adds none. -/
theorem passFilters_spec (filtered : reader.Filtered session filters index) (keep : FilterTest)
    (canonical : rows.Canonical) (later : Session) :
    ∃ result after, reader.passFilters keep rows filters index later = .ok result after ∧
      after.loaded = later.loaded ∧
      result.Canonical ∧ ∀ row, row ∈ result ↔ row ∈ rows ∧ reader.Passes session keep row := by
  obtain ⟨spans, found, member⟩ := OrdinalIndex.spansOf_spec filtered.valid canonical
  rw [filtered.rows] at found
  have run : ∃ after, reader.passFilters keep rows filters index later = .ok (rows.intersection (RowSet.ofRanges
      ((spans.filter fun span => filters[span.page]?.any keep.mayMatch).map PageSpan.range))) after ∧
        after.loaded = later.loaded := by
    simp only [passFilters, filtered.counts, ne_eq, not_true_eq_false, if_false, found]
    exact ⟨_, rfl, rfl⟩
  obtain ⟨after, run, kept⟩ := run
  have canonical' (ranges : List RowRange) : (RowSet.ofRanges ranges).Canonical :=
    RowSet.canonical_empty.foldl_add ranges
  refine ⟨_, after, run, kept, canonical.intersection (canonical' _), fun row => ?_⟩
  rw [RowSet.mem_intersection canonical (canonical' _), filtered.passes_iff, RowSet.mem_ofRanges]
  refine and_congr_right fun inside => ?_
  simp only [List.mem_map, List.mem_filter, member]
  constructor
  · rintro ⟨_, ⟨span, ⟨⟨listed, _⟩, matching⟩, rfl⟩, first, stop⟩
    exact ⟨span, listed, matching, first, stop⟩
  · rintro ⟨span, listed, matching, first, stop⟩
    obtain ⟨range, there, start, ends⟩ := inside
    have meets : OrdinalIndex.Meets span range := ⟨by omega, by omega⟩
    exact ⟨span.range, ⟨span, ⟨⟨listed, range, there, meets⟩, matching⟩, rfl⟩, first, stop⟩

/-- What has been loaded is not loaded again. -/
theorem pruneByFilters_eq (filtered : reader.Filtered session filters index) (some : 0 < reader.rows)
    (stored : reader.indexes.filters = .some pages) (applies : keep.applies = true) :
    reader.pruneByFilters keep rows session = reader.passFilters keep rows filters index session := by
  have loads : reader.access.loadFilters pages session = .ok filters session := by
    simp only [LeafAccess.loadFilters, once, bind_apply, get_apply, filtered.summed, pure_apply]
  have lists : reader.ordinalIndex session = .ok index session := by
    obtain ⟨⟨root, single⟩, rooted⟩ := Option.isSome_iff_exists.mp filtered.rooted
    simp only [ordinalIndex, rooted, LeafAccess.loadOrdinalIndex, once, bind_apply, get_apply, filtered.listed,
      pure_apply]
  simp only [pruneByFilters, Nat.pos_iff_ne_zero.mp some, if_false, stored, applies, Option.filter_some, if_true,
    bind_apply, loads, lists]

end Filtered

theorem loadFilters_ok {access : LeafAccess} {filters : List BloomFilter}
    (run : access.loadFilters pages session = .ok filters after) :
    after.loadedOf access.key = { session.loadedOf access.key with filters := some filters } := by
  have keeps := keepsLoaded_indexed access pages .filtersKind BloomFilter.ofBody fun filters =>
    s!"loaded bloom filter index of {access.file} [pages={filters.length}]"
  rcases once_ok keeps run with ⟨held, rfl⟩ | ⟨_, loaded⟩
  · rw [← held]
  · exact loaded

/-- Pruning that succeeds has loaded the filters and the list of pages. It loads the same for whatever rows are
given. -/
theorem pruneByFilters_loads (indexed : reader.Indexed session) (some : 0 < reader.rows)
    (stored : reader.indexes.filters = .some pages) (applies : keep.applies = true)
    (run : reader.pruneByFilters keep rows session = .ok result after) :
    ∃ filters index mid, reader.Filtered mid filters index ∧
      ∀ other, reader.pruneByFilters keep other session = reader.passFilters keep other filters index mid := by
  have same (rows : RowSet) : reader.pruneByFilters keep rows session = (do
      let filters ← reader.access.loadFilters pages
      let index ← reader.ordinalIndex
      reader.passFilters keep rows filters index : Action Session RowSet) session := by
    simp only [pruneByFilters, Nat.pos_iff_ne_zero.mp some, if_false, stored, applies, Option.filter_some, if_true]
  rw [same] at run
  obtain ⟨filters, first, loads, run⟩ := bind_ok run
  have held := loadFilters_ok loads
  have indexed' : reader.Indexed first := by
    intro index listed
    rw [held] at listed
    exact indexed index listed
  obtain ⟨index, mid, lists, run⟩ := bind_ok run
  obtain ⟨⟨valid, whole⟩, listed⟩ := ordinalIndex_ok indexed' lists
  refine ⟨filters, index, mid, ⟨?_, by rw [listed, held], by rw [listed], valid, whole, ?_⟩, fun other => ?_⟩
  · cases rooted : reader.indexes.ordinal with
    | none => simp [ordinalIndex, rooted] at lists
    | some root => rfl
  · by_contra counts
    simp [passFilters, counts] at run
  · rw [same, bind_apply, loads]
    dsimp only
    rw [bind_apply, lists]

/-- Pruning by bloom filters leaves exactly the given rows whose pages pass. So it narrows the rows, does nothing
when it is repeated, and narrows rows put together as it narrows each, from the start and whenever the leaf has been
loaded. -/
theorem pruneByFilters_exact {meant : Set Nat} (indexed : reader.Indexed session) (some : 0 < reader.rows)
    (stored : reader.indexes.filters = .some pages) (applies : keep.applies = true)
    (reached : RowSet.Reached rows meant) (run : reader.pruneByFilters keep rows session = .ok result after) :
    (∀ row < reader.rows, (reader.filterOf after row).isSome) ∧
      (∀ row, row ∈ result ↔ row ∈ meant ∧ row < reader.rows ∧
        ∃ filter, reader.filterOf after row = .some filter ∧ keep.mayMatch filter = true) ∧
      (∀ row ∈ result, row ∈ rows) ∧
      ∀ later, later = session ∨ later.loadedOf reader.access.key = after.loadedOf reader.access.key →
        (∃ last, reader.pruneByFilters keep result later = .ok result last) ∧
          ∀ other meant', RowSet.Reached other meant' → ∃ narrowed last last',
            reader.pruneByFilters keep other later = .ok narrowed last ∧
              reader.pruneByFilters keep (rows.union other) later = .ok (result.union narrowed) last' := by
  obtain ⟨filters, index, mid, filtered, eq⟩ := pruneByFilters_loads indexed some stored applies run
  rw [eq] at run
  obtain ⟨found, last, passed, left, canonical, _⟩ := filtered.passFilters_spec keep reached.canonical mid
  cases run.symm.trans passed
  have loaded : reader.Filtered after filters index := filtered.of_loadedOf_eq (by rw [loadedOf, left, ← loadedOf])
  have prunes {later : Session} (ready : later = session ∨
      later.loadedOf reader.access.key = after.loadedOf reader.access.key)
      {other : RowSet} (canonical : other.Canonical) : ∃ narrowed last,
        reader.pruneByFilters keep other later = .ok narrowed last ∧ narrowed.Canonical ∧
          ∀ row, row ∈ narrowed ↔ row ∈ other ∧ reader.Passes after keep row := by
    rcases ready with rfl | same
    · obtain ⟨narrowed, last, run, _, spec⟩ := loaded.passFilters_spec keep canonical mid
      exact ⟨narrowed, last, (eq other).trans run, spec⟩
    · obtain ⟨narrowed, last, run, _, spec⟩ := loaded.passFilters_spec keep canonical later
      exact ⟨narrowed, last, ((loaded.of_loadedOf_eq same).pruneByFilters_eq some stored applies).trans run, spec⟩
  obtain ⟨again, _, rerun, _, member⟩ := prunes (.inl rfl) reached.canonical
  cases (run.symm.trans (eq rows).symm).trans rerun
  refine ⟨fun row below => ?_, fun row => ?_, fun row inside => ((member row).mp inside).1,
    fun later ready => ⟨?_, ?_⟩⟩
  · obtain ⟨span, filter, listed, there, first, stop⟩ := loaded.exists_filter below
    rw [loaded.filterOf_eq listed first stop, there]
    rfl
  · rw [member, reached.mem_iff, Passes]
  · obtain ⟨narrowed, last, run, canonical', member'⟩ := prunes ready canonical
    have same : narrowed = result := by
      refine canonical'.eq_of_mem_iff canonical fun row => ?_
      rw [member', member, and_assoc, and_self]
    exact ⟨last, same ▸ run⟩
  · intro other meant' reached'
    obtain ⟨narrowed, last, run, canonical', member'⟩ := prunes ready reached'.canonical
    obtain ⟨both, last', run', canonical'', member''⟩ := prunes ready (reached.union reached').canonical
    have same : both = result.union narrowed := by
      refine canonical''.eq_of_mem_iff (canonical.foldl_add _) fun row => ?_
      rw [canonical.mem_union, member'', member, member', reached.canonical.mem_union, or_and_right]
    exact ⟨narrowed, last, last', run, same ▸ run'⟩

end LeafReader

/-- The filters of two pages, of which the second tells of nulls. -/
def filteredFilters : Page where
  body := 0 :: Bytes.ofNat 4 32 ++ List.replicate 32 0 ++ 1 :: Bytes.ofNat 4 32 ++ List.replicate 32 0
  footer := .index 2

def filteredReader : LeafReader where
  column := { columnId := 1, type := .integer .tiny, isNullable := true, rows := 4 }
  rows := 4
  access := { file := "filtered", options := { verifyChecksum := false } }
  coding := .packed 1
  indexes := { ordinal := some (⟨87, 53⟩, false), filters := some ⟨0, 87⟩ }

def filteredSession : Session where
  store := { image := filteredFilters.covered ++ [0, 0, 0, 0] ++ zonedPages.covered ++ [0, 0, 0, 0] }

/-- A row of the first page, and one of the second with rows behind the last. -/
def filteredRows : RowSet := (RowSet.single ⟨1, 2⟩).add ⟨3, 9⟩

theorem filteredReader_prune : ∃ after,
    filteredReader.pruneByFilters (Predicate.comparison .isNull []) filteredRows filteredSession =
      .ok (RowSet.single ⟨3, 4⟩) after :=
  ⟨_, by cbv⟩

theorem LeafReader.pruneByFilters_exact_filtered : ∃ after,
    filteredReader.Indexed filteredSession ∧ 0 < filteredReader.rows ∧
      RowSet.Reached filteredRows ({row | row ∈ (⟨1, 2⟩ : RowRange)} ∪ {row | row ∈ (⟨3, 9⟩ : RowRange)}) ∧
      filteredReader.pruneByFilters (Predicate.comparison .isNull []) filteredRows filteredSession =
        .ok (RowSet.single ⟨3, 4⟩) after ∧
      (filteredReader.filterOf after 1).isSome ∧ (filteredReader.filterOf after 3).isSome ∧
      ∃ last, filteredReader.pruneByFilters (Predicate.comparison .isNull []) (RowSet.single ⟨3, 4⟩) after =
        .ok (RowSet.single ⟨3, 4⟩) last := by
  obtain ⟨after, run⟩ := filteredReader_prune
  have indexed : filteredReader.Indexed filteredSession := nofun
  have some : 0 < filteredReader.rows := by decide
  have reached : RowSet.Reached filteredRows _ := .add (.single ⟨by decide, by decide⟩) ⟨by decide, by decide⟩
  obtain ⟨present, _, _, onward⟩ := LeafReader.pruneByFilters_exact indexed some rfl rfl reached run
  exact ⟨after, indexed, some, reached, run, present 1 (by decide), present 3 (by decide),
    (onward after (.inr rfl)).1⟩

end Columnar
