import Mathlib.Data.List.TakeWhile
import Mathlib.Tactic.Common
import Columnar.OrdinalIndex
import Columnar.Proofs.RowSets

namespace Columnar

theorem Read.bind_ok {α β : Type} {read : Read α} {next : α → Read β} {cursor rest : Cursor} {value : β}
    (run : (read >>= next) cursor = .ok (value, rest)) :
    ∃ found mid, read cursor = .ok (found, mid) ∧ next found mid = .ok (value, rest) := by
  change (read cursor >>= fun found => next found.1 found.2) = .ok (value, rest) at run
  cases first : read cursor with
  | ok found =>
    rw [first] at run
    exact ⟨found.1, found.2, rfl, run⟩
  | error error => simp [first, bind, Except.bind] at run

namespace OrdinalIndex

/-- The pages of a column begin with its first row, each behind the one before it, and none behind the last row. -/
structure Valid (index : OrdinalIndex) : Prop where
  ordered : index.pages.Pairwise fun page later => page.first < later.first
  starts : ∀ page ∈ index.pages.head?, page.first = 0
  within : ∀ page ∈ index.pages, page.first < index.rows
  covers : 0 < index.rows → index.pages ≠ []

theorem readPages_ordered {previous : Option Nat} {count : Nat} {cursor rest : Cursor} {pages : List PageStart}
    (read : readPages previous count cursor = .ok (pages, rest)) :
    pages.Pairwise (fun page later => page.first < later.first) ∧ ∀ before ∈ previous, ∀ page ∈ pages,
      before < page.first := by
  induction count generalizing previous cursor pages rest with
  | zero =>
    cases read
    exact ⟨List.Pairwise.nil, fun _ _ _ => nofun⟩
  | succ count ih =>
    obtain ⟨first, _, _, read⟩ := Read.bind_ok read
    obtain ⟨offset, _, _, read⟩ := Read.bind_ok read
    obtain ⟨size, _, _, read⟩ := Read.bind_ok read
    cases behind : previous.filter (first ≤ ·) with
    | some before =>
      simp only [behind] at read
      obtain ⟨_, _, failed, _⟩ := Read.bind_ok read
      cases failed
    | none =>
      simp only [behind] at read
      obtain ⟨others, _, more, done⟩ := Read.bind_ok read
      cases done
      obtain ⟨ordered, above⟩ := ih more
      have after : ∀ page ∈ others, first < page.first := above first rfl
      refine ⟨List.pairwise_cons.mpr ⟨after, ordered⟩, fun before held page member => ?_⟩
      have later : before < first := by
        simpa [Option.mem_def.mp held] using behind
      rcases List.mem_cons.mp member with rfl | member
      · exact later
      · exact Nat.lt_trans later (after page member)

theorem pairwise_le_getLast {pages : List PageStart}
    (ordered : pages.Pairwise fun page later => page.first < later.first) {last : PageStart}
    (found : pages.getLast? = some last) {page : PageStart} (member : page ∈ pages) : page.first ≤ last.first := by
  obtain ⟨before, rfl⟩ := List.getLast?_eq_some_iff.mp found
  rcases List.mem_append.mp member with earlier | same
  · exact Nat.le_of_lt ((List.pairwise_append.mp ordered).2.2 page earlier last List.mem_cons_self)
  · rw [List.mem_singleton.mp same]

theorem ofPages_valid {pages : List PageStart} {rows : Nat} {index : OrdinalIndex}
    (ordered : pages.Pairwise fun page later => page.first < later.first) (made : ofPages pages rows = .ok index) :
    index.Valid ∧ index.rows = rows := by
  unfold ofPages at made
  split at made
  · rename_i first last head final
    split at made
    · rename_i fits
      cases made
      refine ⟨⟨ordered, ?_, ?_, ?_⟩, rfl⟩
      · rintro page held
        cases head.symm.trans held
        exact fits.1
      · intro page member
        exact Nat.lt_of_le_of_lt (pairwise_le_getLast ordered final member) fits.2
      · rintro _ rfl
        cases head
    · cases made
  · rename_i missing
    split at made
    · rename_i none
      cases made
      cases pages with
      | nil =>
        exact ⟨⟨ordered, nofun, nofun, fun some => absurd some (by simp [none])⟩, rfl⟩
      | cons first rest =>
        exact absurd (List.getLast?_cons ..) (missing first _ rfl)
    · cases made

theorem ofBody_valid {body : Bytes} {count rows : Nat} {index : OrdinalIndex}
    (made : ofBody body count rows = .ok index) : index.Valid ∧ index.rows = rows := by
  unfold ofBody at made
  simp only [Read.start] at made
  cases read : readPages none count ⟨0, body⟩ with
  | error error => simp [read, bind, Except.bind] at made
  | ok found =>
    simp only [read, bind, Except.bind] at made
    exact ofPages_valid (readPages_ordered read).1 made

theorem ofSinglePage_valid {extent : Extent} {rows : Nat} {index : OrdinalIndex}
    (made : ofSinglePage extent rows = .ok index) : index.Valid ∧ index.rows = rows :=
  ofPages_valid (List.pairwise_singleton ..) made

/-- An index that is loaded from a root: from the index page there, or, if there is a single page, for the data page
there. -/
def Stems (root : Extent) (single : Bool) (rows : Nat) (index : OrdinalIndex) : Prop :=
  if single then ofSinglePage root rows = .ok index else ∃ body count, ofBody body count rows = .ok index

theorem Stems.valid {root : Extent} {single : Bool} {rows : Nat} {index : OrdinalIndex}
    (stems : Stems root single rows index) : index.Valid ∧ index.rows = rows := by
  unfold Stems at stems
  split at stems
  · exact ofSinglePage_valid stems
  · obtain ⟨body, count, made⟩ := stems
    exact ofBody_valid made

/-- The row that a page begins with; behind the last page, the number of rows. -/
def startOf (index : OrdinalIndex) (page : Nat) : Nat := (index.pages[page]?.map PageStart.first).getD index.rows

theorem span?_eq_some {index : OrdinalIndex} {page : Nat} {span : PageSpan} (found : index.span? page = some span) :
    ∃ start, index.pages[page]? = some start ∧ span =
      ⟨page, start.first, index.startOf (page + 1), start.extent⟩ := by
  obtain ⟨start, there, same⟩ := Option.map_eq_some_iff.mp found
  exact ⟨start, there, same.symm⟩

theorem firstSpan_eq_ok {index : OrdinalIndex} {span : PageSpan} (found : index.firstSpan = .ok span) :
    index.span? 0 = some span := by
  unfold firstSpan at found
  split at found
  · rename_i there
    cases found
    exact there
  · cases found

theorem span?_isSome {index : OrdinalIndex} {page : Nat} : (index.span? page).isSome ↔
    page < index.pages.length := by
  simp [span?]

theorem getElem?_filterMap_of_isSome {α β : Type} {f : α → Option β} {list : List α}
    (all : ∀ value ∈ list, (f value).isSome) (place : Nat) : (list.filterMap f)[place]? = list[place]?.bind f := by
  induction list generalizing place with
  | nil => rfl
  | cons first rest ih =>
    obtain ⟨found, same⟩ := Option.isSome_iff_exists.mp (all first List.mem_cons_self)
    rw [List.filterMap_cons_some same]
    cases place with
    | zero => exact same.symm
    | succ place => exact ih (fun value member => all value (List.mem_cons_of_mem _ member)) place

theorem spans_getElem? (index : OrdinalIndex) (page : Nat) : index.spans[page]? = index.span? page := by
  rw [spans, getElem?_filterMap_of_isSome fun page member => span?_isSome.mpr (List.mem_range.mp member)]
  by_cases there : page < index.pages.length
  · simp [there]
  · simp [there, span?]

section Valid

variable {index : OrdinalIndex} {page : Nat} {span : PageSpan}

theorem Valid.startOf_lt (valid : index.Valid) (there : page < index.pages.length) :
    index.startOf page < index.startOf (page + 1) := by
  have first := valid.within _ (List.getElem_mem there)
  by_cases last : page + 1 < index.pages.length
  · have order := List.pairwise_iff_getElem.mp valid.ordered page (page + 1) there last (Nat.lt_succ_self page)
    simpa [startOf, there, last] using order
  · simpa [startOf, there, last] using first

theorem Valid.startOf_le (valid : index.Valid) (page : Nat) : index.startOf page ≤ index.rows := by
  by_cases there : page < index.pages.length
  · simpa [startOf, there] using Nat.le_of_lt (valid.within _ (List.getElem_mem there))
  · simp [startOf, there]

theorem Valid.startOf_zero (valid : index.Valid) : index.startOf 0 = 0 := by
  cases stored : index.pages with
  | nil =>
    have none : index.rows = 0 := by
      by_contra some
      exact valid.covers (Nat.pos_of_ne_zero some) stored
    simp [startOf, stored, none]
  | cons first rest =>
    have start := valid.starts first (by simp [stored])
    simp [startOf, stored, start]

/-- A page has rows, and ends where the next one begins or with the column. -/
theorem Valid.span_spec (valid : index.Valid) (found : index.span? page = some span) :
    span.page = page ∧ span.first = index.startOf page ∧ span.stop = index.startOf (page + 1) ∧
      span.first < span.stop ∧ span.stop ≤ index.rows := by
  obtain ⟨start, there, rfl⟩ := span?_eq_some found
  obtain ⟨inside, _⟩ := List.getElem?_eq_some_iff.mp there
  have first : index.startOf page = start.first := by simp [startOf, there]
  refine ⟨rfl, first.symm, rfl, ?_, valid.startOf_le (page + 1)⟩
  rw [← first]
  exact valid.startOf_lt inside

theorem Valid.startOf_mono (valid : index.Valid) {page other : Nat} (order : page ≤ other) :
    index.startOf page ≤ index.startOf other := by
  induction order with
  | refl => exact Nat.le_refl _
  | @step other _ ih =>
    by_cases there : other < index.pages.length
    · exact ih.trans (Nat.le_of_lt (valid.startOf_lt there))
    · have rows : index.startOf (other + 1) = index.rows := by
        have beyond : ¬other + 1 < index.pages.length := by omega
        simp [startOf, beyond]
      rw [rows]
      exact valid.startOf_le page

/-- No page before one that holds a row holds it too. -/
theorem Valid.find?_spans (valid : index.Valid) (found : index.span? page = some span) {row : Nat}
    (first : span.first ≤ row) (stop : row < span.stop) :
    index.spans.find? (fun span => span.first ≤ row && row < span.stop) = some span := by
  obtain ⟨_, start, _⟩ := valid.span_spec found
  obtain ⟨inside, same⟩ := List.getElem?_eq_some_iff.mp ((index.spans_getElem? page).trans found)
  rw [List.find?_eq_some_iff_getElem]
  refine ⟨by simp [first, stop], page, inside, same, ?_⟩
  intro earlier before
  have there : index.span? earlier = some index.spans[earlier] := by
    rw [← spans_getElem?]
    exact List.getElem?_eq_getElem (before.trans inside)
  obtain ⟨_, _, ends, _⟩ := valid.span_spec there
  have order : index.startOf (earlier + 1) ≤ index.startOf page := valid.startOf_mono before
  have passed : ¬row < index.spans[earlier].stop := by omega
  simp [passed]

/-- Pages that begin at a row or before it stand in front of the others. -/
theorem Valid.falls (valid : index.Valid) (row : Nat) :
    Falls (fun page : PageStart => page.first ≤ row) index.pages :=
  valid.ordered.imp fun before behind => decide_eq_true ((Nat.le_of_lt before).trans (of_decide_eq_true behind))

/-- The row is on the page that is found for it. -/
theorem Valid.find_spec (valid : index.Valid) (row : Nat) (below : row < index.rows) :
    ∃ span, index.find row = .ok span ∧ index.span? span.page = some span ∧ span.first ≤ row ∧ row < span.stop := by
  have before {page : Nat} {start : PageStart} (found : index.pages[page]? = some start) :
      page < partitionPoint (fun page : PageStart => page.first ≤ row) index.pages ↔ start.first ≤ row :=
    (lt_partitionPoint (valid.falls row) found).trans decide_eq_true_iff
  have within := partitionPoint_le (valid.falls row)
  have nonempty : partitionPoint (fun page : PageStart => page.first ≤ row) index.pages ≠ 0 := by
    obtain ⟨first, rest, stored⟩ := List.exists_cons_of_ne_nil (valid.covers (Nat.zero_lt_of_lt below))
    have start := valid.starts first (by simp [stored])
    have head : index.pages[0]? = some first := by rw [stored]; rfl
    exact Nat.ne_of_gt ((before head).mpr (start ▸ Nat.zero_le row))
  obtain ⟨page, point⟩ := Nat.exists_eq_succ_of_ne_zero nonempty
  rw [point] at before within
  obtain ⟨span, found⟩ := Option.isSome_iff_exists.mp (span?_isSome.mpr within)
  obtain ⟨number, _, stop, _⟩ := valid.span_spec found
  obtain ⟨start, there, same⟩ := span?_eq_some found
  refine ⟨span, ?_, number ▸ found, ?_, ?_⟩
  · unfold find
    rw [if_neg (Nat.not_le_of_lt below), point]
    simp only [found]
  · rw [same]
    exact (before there).mp (Nat.lt_succ_self page)
  · rw [stop, startOf]
    cases next : index.pages[page + 1]? with
    | none => exact below
    | some start => exact Nat.lt_of_not_le fun early => Nat.lt_irrefl _ ((before next).mpr early)

end Valid

section Tiling

variable {index : OrdinalIndex} {page : Nat} {span : PageSpan} {α : Type} {f : PageSpan → List α}

/-- Where each page gives as many entries as it has rows, the pages before one give as many as there are rows before
it. -/
theorem Valid.length_before (valid : index.Valid) (sized : ∀ span ∈ index.spans, (f span).length = span.rows)
    {page : Nat} (within : page ≤ index.pages.length) :
    ((index.spans.take page).flatMap f).length = index.startOf page := by
  induction page with
  | zero => simp [valid.startOf_zero]
  | succ page ih =>
    obtain ⟨span, found⟩ := Option.isSome_iff_exists.mp (span?_isSome.mpr within)
    obtain ⟨_, first, stop, order, _⟩ := valid.span_spec found
    have listed : index.spans[page]? = some span := (index.spans_getElem? page).trans found
    rw [List.take_add_one, List.flatMap_append, List.length_append, ih (Nat.le_of_succ_le within), listed]
    have size := sized span (List.mem_of_getElem? listed)
    simp only [Option.toList_some, List.flatMap_cons, List.flatMap_nil, List.append_nil, size, PageSpan.rows]
    omega

theorem Valid.drop_startOf (valid : index.Valid) (sized : ∀ span ∈ index.spans, (f span).length = span.rows)
    {page : Nat} (within : page ≤ index.pages.length) :
    (index.spans.flatMap f).drop (index.startOf page) = (index.spans.drop page).flatMap f := by
  have parts : index.spans.flatMap f = (index.spans.take page).flatMap f ++ (index.spans.drop page).flatMap f := by
    rw [← List.flatMap_append, List.take_append_drop]
  rw [parts, List.drop_left' (valid.length_before sized within)]

theorem length_spans (index : OrdinalIndex) : index.spans.length = index.pages.length := by
  apply Nat.le_antisymm
  · rw [← List.getElem?_eq_none_iff, spans_getElem?]
    simp [span?]
  · by_contra short
    have missing := List.getElem?_eq_none (Nat.le_refl index.spans.length)
    rw [spans_getElem?, ← Option.not_isSome_iff_eq_none, span?_isSome] at missing
    exact missing (Nat.lt_of_not_le short)

/-- The pages of a column give as many entries as it has rows. -/
theorem Valid.length_flatMap (valid : index.Valid) (sized : ∀ span ∈ index.spans, (f span).length = span.rows) :
    (index.spans.flatMap f).length = index.rows := by
  have all := valid.length_before sized (Nat.le_refl _)
  rw [List.take_of_length_le (Nat.le_of_eq index.length_spans)] at all
  simpa [startOf] using all

/-- The entries from the first row of a page on are those of the page and those from its end on. -/
theorem Valid.drop_first (valid : index.Valid) (sized : ∀ span ∈ index.spans, (f span).length = span.rows)
    (found : index.span? page = some span) :
    (index.spans.flatMap f).drop span.first = f span ++ (index.spans.flatMap f).drop span.stop := by
  obtain ⟨_, first, stop, _⟩ := valid.span_spec found
  have inside : page < index.pages.length := span?_isSome.mp (by simp [found])
  have listed : page < index.spans.length := by rwa [index.length_spans]
  have same : index.spans[page] = span :=
    List.getElem_eq_iff listed |>.mpr ((index.spans_getElem? page).trans found)
  rw [first, stop, valid.drop_startOf sized (Nat.le_of_lt inside), valid.drop_startOf sized inside,
    List.drop_eq_getElem_cons listed, List.flatMap_cons, same]

end Tiling

end OrdinalIndex

end Columnar
