import Columnar.LeafCursor
import Columnar.Proofs.Intake
import Columnar.Proofs.Outcome
import Columnar.Proofs.PageSpans
import Columnar.Proofs.StoredLeaf

namespace Columnar

open Columnar.Action Session

namespace LeafReader

variable {reader : LeafReader} {image : Bytes} {index : OrdinalIndex} {span : PageSpan} {opened : DataPage}

/-- The rows of a data page as the segment holds them. All of them are missing where the page does not open. -/
def pageSlots (reader : LeafReader) (image : Bytes) (span : PageSpan) : List Slot :=
  match reader.openedIn image span with
  | .ok opened => opened.slots
  | .error _ => List.replicate span.rows .missing

/-- The rows of the leaf as the segment holds them. -/
def slots (reader : LeafReader) (image : Bytes) : List Slot :=
  match reader.indexIn image with
  | .ok index => index.spans.flatMap (reader.pageSlots image)
  | .error _ => List.replicate reader.rows .missing

theorem indexIn_valid (found : reader.indexIn image = .ok index) : index.Valid ∧ index.rows = reader.rows := by
  unfold indexIn at found
  split at found
  · cases found
  · exact OrdinalIndex.ofSinglePage_valid found
  · rename_i root _
    cases stored : reader.indexPageIn image root .ordinalRootKind with
    | error error => simp [stored, bind, Except.bind] at found
    | ok page =>
      simp only [stored, bind, Except.bind] at found
      exact OrdinalIndex.ofBody_valid found

theorem length_pageSlots (reader : LeafReader) (image : Bytes) (span : PageSpan) :
    (reader.pageSlots image span).length = span.rows := by
  unfold pageSlots
  split
  · rename_i opened found
    obtain ⟨_, sound, _, _, rows, _⟩ := openedIn_spec found
    rw [sound.length_slots, rows]
  · exact List.length_replicate

theorem slots_eq (found : reader.indexIn image = .ok index) :
    reader.slots image = index.spans.flatMap (reader.pageSlots image) := by
  simp only [slots, found]

theorem length_slots (reader : LeafReader) (image : Bytes) : (reader.slots image).length = reader.rows := by
  cases found : reader.indexIn image with
  | error error => simp [slots, found]
  | ok index =>
    obtain ⟨valid, rows⟩ := indexIn_valid found
    rw [slots_eq found, valid.length_flatMap fun span _ => length_pageSlots reader image span, rows]

/-- The rows from one of a page on: the others of the page, then those behind it. -/
theorem slots_drop (found : reader.indexIn image = .ok index) {page : Nat} (there : index.span? page = some span)
    {place : Nat} (from_ : span.first ≤ place) (upTo : place ≤ span.stop) :
    (reader.slots image).drop place =
      (reader.pageSlots image span).drop (place - span.first) ++ (reader.slots image).drop span.stop := by
  obtain ⟨valid, _⟩ := indexIn_valid found
  have tiles := valid.drop_first (fun span _ => length_pageSlots reader image span) there
  rw [← slots_eq found] at tiles
  have offset : place = span.first + (place - span.first) := by omega
  conv => lhs; rw [offset, ← List.drop_drop, tiles]
  rw [List.drop_append_of_le_length]
  rw [length_pageSlots, PageSpan.rows]
  omega

/-- Some rows from one of a page on: those of the page, then the others. -/
theorem slots_slice (found : reader.indexIn image = .ok index) {page : Nat} (there : index.span? page = some span)
    {place : Nat} (from_ : span.first ≤ place) (upTo : place ≤ span.stop) (count : Nat) :
    ((reader.slots image).drop place).take count =
      ((reader.pageSlots image span).drop (place - span.first)).take count ++
        ((reader.slots image).drop (place + min count (span.stop - place))).take
        (count - min count (span.stop - place)) := by
  have length : ((reader.pageSlots image span).drop (place - span.first)).length = span.stop - place := by
    rw [List.length_drop, length_pageSlots, PageSpan.rows]
    omega
  rw [slots_drop found there from_ upTo, List.take_append, length]
  rcases Nat.le_total count (span.stop - place) with few | many
  · simp [Nat.min_eq_left few, Nat.sub_eq_zero_of_le few]
  · rw [Nat.min_eq_right many, Nat.add_sub_cancel' upTo]

/-- The leaf has rows, and the segment holds all of them. -/
structure Whole (reader : LeafReader) (image : Bytes) : Prop where
  some : 0 < reader.rows
  full : .missing ∉ reader.slots image

/-- A sink takes no missing row. -/
theorem whole_of_taken {σ ρ : Type} [Sink σ] {intake : Intake σ ρ} {rows : List ρ}
    (taken : (reader.slots image).mapM intake.take = Option.some rows) (some : 0 < reader.rows) :
    reader.Whole image where
  some := some
  full missing := by
    rw [mapM_eq_none_of_mem _ missing rfl] at taken
    cases taken

theorem Whole.listed (whole : reader.Whole image) : ∃ index, reader.indexIn image = .ok index := by
  cases found : reader.indexIn image with
  | ok index => exact ⟨index, rfl⟩
  | error error =>
    refine absurd ?_ whole.full
    simp only [slots, found, List.mem_replicate, and_true]
    exact Nat.ne_of_gt whole.some

/-- Each page opens, and has the values in front of each of its rows. -/
theorem Whole.opens (whole : reader.Whole image) (found : reader.indexIn image = .ok index) {page : Nat}
    (there : index.span? page = Option.some span) :
    ∃ opened, reader.openedIn image span = .ok opened ∧ ∀ row, opened.valuesBefore row ≤ opened.values.count := by
  obtain ⟨valid, _⟩ := indexIn_valid found
  obtain ⟨_, _, _, order, _⟩ := valid.span_spec there
  have full : .missing ∉ reader.pageSlots image span := by
    intro missing
    have among := slots_drop found there (Nat.le_refl _) (Nat.le_of_lt order)
    rw [Nat.sub_self, List.drop_zero] at among
    refine whole.full (List.mem_of_mem_drop (i := span.first) ?_)
    rw [among]
    exact List.mem_append_left _ missing
  cases opens : reader.openedIn image span with
  | ok opened =>
    simp only [pageSlots, opens] at full
    exact ⟨opened, rfl, DataPage.valuesBefore_le full⟩
  | error error =>
    simp only [pageSlots, opens, List.mem_replicate, and_true, PageSpan.rows] at full
    omega

end LeafReader

namespace LeafCursor

variable {image : Bytes} {readers : List LeafReader} {reader : LeafReader}

/-- The cursor has a page of its leaf open, at a row of the column or behind the last row of the page. -/
structure Open (reader : LeafReader) (image : Bytes) (span : PageSpan) (place : Nat) (cursor : LeafCursor) :
    Prop where
  reader_eq : cursor.reader = reader
  span_eq : ∃ index, reader.indexIn image = .ok index ∧ index.span? span.page = some span
  page_eq : ∃ opened, reader.openedIn image span = .ok opened ∧
    cursor.page = some (opened.atRow (place - span.first)) ∧
    opened.valuesBefore (place - span.first) ≤ opened.values.count
  first_le : span.first ≤ place
  le_stop : place ≤ span.stop

theorem Open.of_page {span : PageSpan} {place : Nat} {cursor other : LeafCursor}
    (open_ : cursor.Open reader image span place) (reader_eq : other.reader = cursor.reader)
    (page_eq : other.page = cursor.page) : other.Open reader image span place where
  reader_eq := reader_eq.trans open_.reader_eq
  span_eq := open_.span_eq
  page_eq := by
    rw [page_eq]
    exact open_.page_eq
  first_le := open_.first_le
  le_stop := open_.le_stop

/-- Opening a page comes to what the segment holds of it. The page that was open stays if this fails. -/
theorem loadPage_settles {kind : StoreKind} {condition : LeafReader → Loaded → Prop} {session : Session}
    (holds : Holds kind condition image readers session) (member : reader ∈ readers)
    (told : reader.ToldWords image (condition reader)) {cursor : LeafCursor} (same : cursor.reader = reader)
    (span : PageSpan) : ∃ outcome mid bytes, Agree (Error.Near kind) outcome (reader.openedIn image span) ∧
      Holds kind condition image readers mid ∧
      loadPage span (session, cursor) = match outcome with
        | .ok opened => .ok () (mid,
          { cursor with bytesRead := bytes, pagesDecoded := cursor.pagesDecoded + 1, page := some opened })
        | .error error => .error error (mid, { cursor with bytesRead := bytes }) := by
  subst same
  have reads : Settles (Error.Near kind) (Holds kind condition image readers)
      (noting s!"could not read page {span.page} of {cursor.reader.file}"
        (cursor.reader.readPage cursor.options span.extent .data)) _ :=
    (LeafReader.settles_readPage member cursor.options span.extent .data).noting (Error.nearness kind) _
  have words : Settles (Error.Near kind) (Holds kind condition image readers)
      (cursor.reader.dictionary cursor.options) (cursor.reader.wordsIn image) :=
        LeafReader.settles_dictionary member told cursor.options
  obtain ⟨found, mid, agree, holding, run⟩ := reads session holds
  rw [loadPage, bind_apply, get_apply]
  dsimp only
  rw [bind_apply, onFirst, run, LeafReader.openedIn]
  cases stored : (cursor.reader.pageIn image span.extent .data).mapError
      (Error.note s!"could not read page {span.page} of {cursor.reader.file}") with
  | error error =>
    rw [stored] at agree
    cases found with
    | ok page => exact agree.elim
    | error error' => exact ⟨.error error', mid, cursor.bytesRead, agree, holding, rfl⟩
  | ok page =>
    rw [stored] at agree
    obtain rfl := agree.of_ok
    obtain ⟨opened, last, agree, held, run⟩ :=
      DataPage.settles_ofPage (Error.nearness kind) page span cursor.reader.coding words mid holding
    refine ⟨opened, last, cursor.bytesRead + page.body.length, agree, held, ?_⟩
    simp only [lift_ok, pure_apply, rewrap_ok, bind_apply, onSecond, modify_apply, onFirst, run]
    cases opened <;> rfl

theorem loadPage_meets {session : Session} (serves : Serves image readers session) (member : reader ∈ readers)
    {cursor : LeafCursor} (same : cursor.reader = reader) (span : PageSpan) :
    Meets (loadPage span (session, cursor)) (reader.openedIn image span).toOption fun opened _ after =>
      Serves image readers after.1 ∧ ∃ bytes, after.2 =
        { cursor with bytesRead := bytes, pagesDecoded := cursor.pagesDecoded + 1, page := some opened } := by
  obtain ⟨outcome, mid, bytes, agree, holds, run⟩ :=
    loadPage_settles serves.holds member LeafReader.Faithful.toldWords same span
  rw [run, ← agree.toOption_eq]
  cases outcome with
  | ok opened => exact ⟨opened, rfl, holds.serves, bytes, rfl⟩
  | error error => exact rfl

/-- A cursor on a page that has been opened is at its first row. -/
theorem Open.ofOpened {index : OrdinalIndex} (listed : reader.indexIn image = .ok index) {page : Nat}
    {span : PageSpan} (there : index.span? page = some span) {opened : DataPage}
    (found : reader.openedIn image span = .ok opened) {cursor : LeafCursor} (same : cursor.reader = reader)
    (held : cursor.page = some opened) : cursor.Open reader image span span.first := by
  obtain ⟨valid, _⟩ := LeafReader.indexIn_valid listed
  obtain ⟨number, _, _, order, _⟩ := valid.span_spec there
  obtain ⟨start, _⟩ := LeafReader.openedIn_spec found
  refine ⟨same, ⟨index, listed, number ▸ there⟩, ⟨opened, found, ?_, ?_⟩, Nat.le_refl _, Nat.le_of_lt order⟩
  · rw [Nat.sub_self, ← start, held]
  · rw [Nat.sub_self, DataPage.valuesBefore_zero]
    exact Nat.zero_le _

/-- What stands before a read: the cursor is behind the last row, or on a page that has its row, or the page with
its row does not open. -/
def Ahead (reader : LeafReader) (readers : List LeafReader) (image : Bytes) (place : Nat) (cursor : LeafCursor)
    (outcome : EStateM.Result Error (Session × LeafCursor) Bool) : Prop :=
  (place = reader.rows ∧ ∃ mid, outcome = .ok false (mid, cursor) ∧ Serves image readers mid) ∨
  (∃ mid after next, outcome = .ok true (mid, after) ∧ Serves image readers mid ∧
    after.Open reader image next place ∧
    place < next.stop ∧ after.seeked = cursor.seeked ∧ after.ordinal = cursor.ordinal) ∨
  ((∃ error after, outcome = .error error after) ∧ .missing ∈ ((reader.slots image).drop place).take 1)

/-- The page that begins with the row opens, or the row is missing. -/
theorem loadPage_ahead {session : Session} (serves : Serves image readers session) (member : reader ∈ readers)
    {index : OrdinalIndex} (listed : reader.indexIn image = .ok index) {page : Nat} {span : PageSpan}
    (there : index.span? page = some span) {cursor : LeafCursor} (same : cursor.reader = reader) :
    Ahead reader readers image span.first cursor
      ((do loadPage span; return true : Action (Session × LeafCursor) Bool) (session, cursor)) := by
  obtain ⟨valid, _⟩ := LeafReader.indexIn_valid listed
  obtain ⟨_, _, _, order, _⟩ := valid.span_spec there
  have loads := loadPage_meets serves member same span
  rw [bind_apply]
  cases opens : reader.openedIn image span with
  | ok opened =>
    rw [opens] at loads
    obtain ⟨_, ⟨last, after⟩, run, served, bytes, kept⟩ := loads.exists_ok
    obtain rfl : after = _ := kept
    rw [run]
    exact .inr (.inl ⟨last, _, span, rfl, served, Open.ofOpened listed there opens same rfl, order, rfl, rfl⟩)
  | error error =>
    rw [opens] at loads
    refine .inr (.inr ⟨?_, ?_⟩)
    · cases run : loadPage span (session, cursor) with
      | ok value after =>
        obtain ⟨_, none, _⟩ := loads.of_ok run
        cases none
      | error error after => exact ⟨error, after, rfl⟩
    · rw [LeafReader.slots_drop listed there (Nat.le_refl _) (Nat.le_of_lt order), LeafReader.pageSlots, opens,
        PageSpan.rows]
      obtain ⟨rows, more⟩ := Nat.exists_eq_succ_of_ne_zero (Nat.sub_ne_zero_of_lt order)
      simp [more, List.replicate_succ]

/-- Behind the last row of a page comes the next page. -/
theorem loadNextPage_ahead {session : Session} (serves : Serves image readers session) (member : reader ∈ readers)
    {cursor : LeafCursor} {span : PageSpan} (open_ : cursor.Open reader image span span.stop) :
    Ahead reader readers image span.stop cursor (loadNextPage (session, cursor)) := by
  obtain ⟨index, listed, there⟩ := open_.span_eq
  obtain ⟨opened, found, held, _⟩ := open_.page_eq
  obtain ⟨_, _, number, _⟩ := LeafReader.openedIn_spec found
  obtain ⟨valid, all⟩ := LeafReader.indexIn_valid listed
  obtain ⟨_, _, stop, _⟩ := valid.span_spec there
  have behind : Yields (Serves image readers) (cursor.reader.spanBehind span.page)
      (.ok (index.span? (span.page + 1))) := by
    have lists :
        Yields (Serves image readers) (reader.ordinalIndex >>= fun index => return index.span? (span.page + 1))
        (reader.indexIn image >>= fun index => .ok (index.span? (span.page + 1))) :=
      (LeafReader.yields_ordinalIndex member).bind fun index _ => Yields.pure _
    rw [listed] at lists
    rw [open_.reader_eq]
    exact lists
  obtain ⟨mid, serving, run⟩ := behind.run serves
  have number' : (opened.atRow (span.stop - span.first)).page = span.page := number
  rw [loadNextPage, bind_apply, get_apply]
  simp only [held]
  rw [bind_apply, number', onFirst, run]
  simp only [rewrap_ok]
  cases next : index.span? (span.page + 1) with
  | none =>
    refine .inl ⟨?_, mid, rfl, serving⟩
    have last : ¬span.page + 1 < index.pages.length := by
      rw [← OrdinalIndex.span?_isSome, next]
      simp
    rw [stop, ← all]
    simp [OrdinalIndex.startOf, last]
  | some behind =>
    have adjoins : span.stop = behind.first := by rw [stop, (valid.span_spec next).2.1]
    rw [adjoins]
    exact loadPage_ahead serving member listed next open_.reader_eq

theorem hasRow_ahead {session : Session} (serves : Serves image readers session) (member : reader ∈ readers)
    {cursor : LeafCursor} {span : PageSpan} {place : Nat} (open_ : cursor.Open reader image span place) :
    Ahead reader readers image place cursor (hasRow (session, cursor)) := by
  obtain ⟨opened, found, held, _⟩ := open_.page_eq
  obtain ⟨_, _, _, _, rows, _⟩ := LeafReader.openedIn_spec found
  have first := open_.first_le
  rw [PageSpan.rows] at rows
  rw [hasRow, bind_apply, get_apply]
  dsimp only
  by_cases inside : place < span.stop
  · have more : place - span.first < opened.rows := by omega
    have remaining : cursor.page.any DataPage.hasRemaining = true := by
      rw [held]
      exact decide_eq_true more
    rw [if_pos remaining]
    exact .inr (.inl ⟨session, cursor, span, rfl, serves, open_, inside, rfl, rfl⟩)
  · obtain rfl : place = span.stop := Nat.le_antisymm open_.le_stop (Nat.not_lt.mp inside)
    have past : ¬span.stop - span.first < opened.rows := by omega
    have done : ¬cursor.page.any DataPage.hasRemaining = true := by
      rw [held]
      exact fun remaining => past (of_decide_eq_true remaining)
    rw [if_neg done]
    exact loadNextPage_ahead serves member open_

/-- The cursor is at a row of its leaf, or behind the last one, and may read. -/
structure At (reader : LeafReader) (image : Bytes) (place : Nat) (cursor : LeafCursor) : Prop where
  seeked : cursor.seeked = true
  ordinal : cursor.ordinal = place
  on : ∃ span, cursor.Open reader image span place

theorem At.within {cursor : LeafCursor} {place : Nat} (at_ : cursor.At reader image place) :
    0 < reader.rows ∧ place ≤ reader.rows := by
  obtain ⟨span, on⟩ := at_.on
  obtain ⟨index, listed, there⟩ := on.span_eq
  obtain ⟨valid, rows⟩ := LeafReader.indexIn_valid listed
  obtain ⟨_, _, _, order, bound⟩ := valid.span_spec there
  have stop := on.le_stop
  omega

section Reading

variable {σ ρ : Type} [Sink σ] {intake : Intake σ ρ}

/-- The sink is given the values of the leaf as it takes them. -/
def Suits (intake : Intake σ ρ) (coding : Coding) : Prop := ∀ values : PageValues, values.InCoding coding →
    intake.Suits values

/-- What a read of up to `count` rows from a place comes to: the rows it appends, and what it tells of them. -/
def Delivers (intake : Intake σ ρ) (reader : LeafReader) (image : Bytes) (place count : Nat) (sink : σ)
    (more : List ρ) (read : RowsRead) (after : σ) : Prop :=
  intake.Grown sink more after ∧
    read = ⟨min count (reader.rows - place), (((reader.slots image).drop place).take count).any Slot.isNull⟩

theorem readPageRows_meets (suits : Suits intake reader.coding) {cursor : LeafCursor} {span : PageSpan}
    {place : Nat} (open_ : cursor.Open reader image span place) (session : Session) (count : Nat) {sink : σ}
    (fits : intake.Fits sink) : Meets (readPageRows count (session, cursor, sink))
      ((((reader.pageSlots image span).drop (place - span.first)).take count).mapM intake.take)
      fun more read after => after.1 = session ∧
        after.2.1.Open reader image span (place + min count (span.stop - place)) ∧
        after.2.1.seeked = cursor.seeked ∧ after.2.1.ordinal = cursor.ordinal ∧ intake.Grown sink more after.2.2 ∧
        read = ⟨min count (span.stop - place),
          (((reader.pageSlots image span).drop (place - span.first)).take count).any Slot.isNull⟩ := by
  obtain ⟨opened, found, held, enough⟩ := open_.page_eq
  obtain ⟨_, sound, _, _, rows, coding⟩ := LeafReader.openedIn_spec found
  have first := open_.first_le
  have stop := open_.le_stop
  rw [PageSpan.rows] at rows
  have slots : reader.pageSlots image span = opened.slots := by simp only [LeafReader.pageSlots, found]
  have left : min count (opened.rows - (place - span.first)) = min count (span.stop - place) := by omega
  simp only [readPageRows, held, slots]
  refine (Intake.next_meets (suits _ coding) sound count (by omega) enough fits).rewrap _ _ ?_
  rintro more read ⟨reached, after⟩ ⟨same, value, grown, told⟩
  rw [left] at same value told
  have offset : place + min count (span.stop - place) - span.first =
      place - span.first + min count (span.stop - place) := by
    omega
  refine ⟨rfl, ⟨open_.reader_eq, open_.span_eq, ⟨opened, found, ?_, ?_⟩, by omega, by omega⟩, rfl, rfl, grown, told⟩
  · rw [offset]
    exact congrArg some same
  · rw [offset]
    exact value

/-- A read appends the rows from the place on, page by page, and stops behind them. -/
theorem readRows_meets (suits : Suits intake reader.coding) (member : reader ∈ readers) {session : Session}
    (serves : Serves image readers session) {cursor : LeafCursor} {span : PageSpan} {place : Nat}
    (open_ : cursor.Open reader image span place) {steps count : Nat} (enough : count ≤ steps) {sink : σ}
    (fits : intake.Fits sink) :
    Meets (readRows steps count (session, cursor, sink))
      ((((reader.slots image).drop place).take count).mapM intake.take)
      fun more read after => Serves image readers after.1 ∧
        (∃ span, after.2.1.Open reader image span (place + min count (reader.rows - place))) ∧
        after.2.1.seeked = cursor.seeked ∧ after.2.1.ordinal = cursor.ordinal + min count (reader.rows - place) ∧
        Delivers intake reader image place count sink more read after.2.2 := by
  induction steps generalizing session cursor span place count sink with
  | zero =>
    obtain rfl : count = 0 := Nat.le_zero.mp enough
    refine ⟨[], rfl, serves, ⟨span, by simpa using open_⟩, rfl, by simp, Intake.Grown.refl fits, by simp⟩
  | succ steps ih =>
    rw [readRows]
    by_cases none : count = 0
    · subst none
      simp only [if_true]
      exact ⟨[], rfl, serves, ⟨span, by simpa using open_⟩, rfl, by simp, Intake.Grown.refl fits, by simp⟩
    · simp only [none, if_false]
      rw [bind_apply]
      rcases hasRow_ahead serves member open_ with ⟨rfl, mid, run, serving⟩ | ⟨mid, after, next, run, serving, on,
        inside, kept, at_⟩
        | ⟨⟨error, after, run⟩, missing⟩
      · have past : (reader.slots image).drop reader.rows = [] :=
          List.drop_eq_nil_of_le (Nat.le_of_eq (reader.length_slots image))
        simp only [onFirstTwo, run, rewrap_ok, Bool.not_false, if_true]
        rw [past, List.take_nil]
        exact ⟨[], rfl, serving, ⟨span, by simpa using open_⟩, rfl, by simp, Intake.Grown.refl fits, by simp [past]⟩
      · simp only [onFirstTwo, run, rewrap_ok, Bool.not_true, Bool.false_eq_true, if_false]
        obtain ⟨index, listed, there⟩ := on.span_eq
        have slice := LeafReader.slots_slice listed there on.first_le on.le_stop count
        rw [slice, mapM_append_some]
        refine (readPageRows_meets suits on mid count fits).bind ?_
        rintro more read ⟨_, reached, filled⟩ ⟨rfl, moved, seeked, ordinal, grown, rfl⟩
        obtain ⟨_, rows⟩ := LeafReader.indexIn_valid listed
        obtain ⟨_, _, _, _, bound⟩ := (LeafReader.indexIn_valid listed).1.span_spec there
        have positive : 0 < min count (next.stop - place) := by omega
        rw [bind_apply]
        dsimp only [onFirstTwo, onSecond, modify_apply, rewrap_ok]
        have passed : LeafCursor.Open reader image next (place + min count (next.stop - place))
            { reached with ordinal := reached.ordinal + min count (next.stop - place) } := moved.of_page rfl rfl
        have fewer : count - min count (next.stop - place) ≤ steps := by omega
        refine Meets.map ((ih serving passed fewer grown.1).andThen ?_) (more ++ ·) _ fun _ _ _ fit => fit
        rintro others read ⟨last, stopped, filled⟩ ⟨served, ⟨span, on⟩, still, behind, grownLater, rfl⟩
        have parts : min count (next.stop - place) +
            min (count - min count (next.stop - place)) (reader.rows - (place + min count (next.stop - place))) =
            min count (reader.rows - place) := by omega
        have started : reached.ordinal = cursor.ordinal := ordinal.trans at_
        refine ⟨_, _, rfl, served, ⟨span, ?_⟩, still.trans (seeked.trans kept), ?_, grown.trans grownLater, ?_⟩
        · rwa [Nat.add_assoc, parts] at on
        · rw [behind, ← parts, ← started, ← Nat.add_assoc]
        · rw [slice, List.any_append, RowsRead.join, ← parts]
      · have refused : .missing ∈ ((reader.slots image).drop place).take count := by
          have longer : ((reader.slots image).drop place).take 1 <+: ((reader.slots image).drop place).take count :=
            List.take_prefix_take_left (Nat.one_le_iff_ne_zero.mpr none)
          exact longer.subset missing
        rw [mapM_eq_none_of_mem intake.take refused rfl]
        simp only [onFirstTwo, run, rewrap_error]
        exact rfl

/-- A read appends the rows from the place on, as far as there are any and the sink takes them, and moves behind
them. -/
theorem next_meets (suits : Suits intake reader.coding) (member : reader ∈ readers) {session : Session}
    (serves : Serves image readers session) {cursor : LeafCursor} {place : Nat} (at_ : cursor.At reader image place)
    (count : Nat) {sink : σ} (fits : intake.Fits sink) :
    Meets (next count (session, cursor, sink)) ((((reader.slots image).drop place).take count).mapM intake.take)
      fun more read after => Serves image readers after.1 ∧
        after.2.1.At reader image (place + min count (reader.rows - place)) ∧
        Delivers intake reader image place count sink more read after.2.2 := by
  obtain ⟨span, on⟩ := at_.on
  rw [next, bind_apply, get_apply]
  simp only [at_.seeked, Bool.not_true, Bool.false_eq_true, if_false]
  refine (readRows_meets suits member serves on (Nat.le_refl count) fits).imp ?_
  rintro more read after ⟨served, on, seeked, ordinal, delivers⟩
  exact ⟨served, ⟨seeked.trans at_.seeked, by rw [ordinal, at_.ordinal], on⟩, delivers⟩

end Reading

/-- Where the first page comes from. -/
def firstOpened (reader : LeafReader) (image : Bytes) : Except Error DataPage := do
  reader.openedIn image (← (← reader.indexIn image).firstSpan)

theorem seekFirst_meets (member : reader ∈ readers) {session : Session} (serves : Serves image readers session)
    {cursor : LeafCursor} (same : cursor.reader = reader) :
    Meets (seekFirst (session, cursor)) (firstOpened reader image).toOption fun _ _ after =>
      Serves image readers after.1 ∧ after.2.At reader image 0 := by
  have finds : Yields (Serves image readers) cursor.reader.firstSpan
      (reader.indexIn image >>= OrdinalIndex.firstSpan) := by
    rw [same]
    exact (LeafReader.yields_ordinalIndex member).bind fun index _ => Yields.lift _
  rw [seekFirst, bind_apply, get_apply]
  dsimp only
  have parts : firstOpened reader image =
      (reader.indexIn image >>= OrdinalIndex.firstSpan) >>= reader.openedIn image := by
    rw [firstOpened]
    cases reader.indexIn image <;> rfl
  rw [parts, toOption_bind]
  refine (finds.meets_first serves cursor).known.bind ?_
  rintro _ span ⟨mid, left⟩ ⟨known, rfl, serving, kept⟩
  obtain rfl : cursor = left := kept.symm
  obtain ⟨index, listed, first⟩ := bind_eq_ok (toOption_eq_some known)
  have there : index.span? 0 = some span := OrdinalIndex.firstSpan_eq_ok first
  obtain ⟨valid, _⟩ := LeafReader.indexIn_valid listed
  have start : span.first = 0 := by rw [(valid.span_spec there).2.1, valid.startOf_zero]
  refine ((loadPage_meets serving member same span).known).andThen ?_
  rintro opened _ ⟨last, after⟩ ⟨known, served, bytes, loaded⟩
  obtain rfl : after = _ := loaded
  refine ⟨(), _, rfl, served, ⟨rfl, rfl, span, ?_⟩⟩
  rw [← start]
  exact Open.ofOpened listed there (toOption_eq_some known) same rfl

/-- The cursor has no page of its leaf open, or it is at some place of one. -/
structure Ready (reader : LeafReader) (image : Bytes) (cursor : LeafCursor) : Prop where
  reader_eq : cursor.reader = reader
  page : cursor.page = none ∨ ∃ span place, cursor.Open reader image span place

theorem At.ready {place : Nat} {cursor : LeafCursor} (at_ : cursor.At reader image place) :
    cursor.Ready reader image := by
  obtain ⟨span, on⟩ := at_.on
  exact ⟨on.reader_eq, .inr ⟨span, place, on⟩⟩

/-- From a page that is open to a row of it, or behind its last row. -/
theorem seekOpen_spec (whole : reader.Whole image) {cursor : LeafCursor} {span : PageSpan} {place : Nat}
    (on : cursor.Open reader image span place) (session : Session) (row : Nat) (first : span.first ≤ row)
    (stop : row ≤ span.stop) :
    ∃ after, (do seekInPage row; settle row : Action (Session × LeafCursor) Unit) (session, cursor) = .ok ()
      (session, after) ∧ after.At reader image row ∧ after.Open reader image span row := by
  obtain ⟨index, listed, there⟩ := on.span_eq
  obtain ⟨opened, opens, held, _⟩ := on.page_eq
  obtain ⟨other, opens', enough⟩ := whole.opens listed there
  cases opens.symm.trans opens'
  obtain ⟨_, sound, _, number, rows, _⟩ := LeafReader.openedIn_spec opens
  rw [PageSpan.rows] at rows
  have moved := sound.seek_atRow (place - span.first) (by omega) (enough (row - span.first))
  have number' : (opened.atRow (place - span.first)).first = span.first := number
  rw [bind_apply]
  simp only [seekInPage, held, number', moved, rewrap_ok]
  have reached :
      (⟨cursor.reader, cursor.options, some (opened.atRow (row - span.first)), row, true, cursor.bytesRead,
      cursor.pagesDecoded⟩ : LeafCursor).Open reader image span row :=
    ⟨on.reader_eq, on.span_eq, ⟨opened, opens, rfl, enough _⟩, first, stop⟩
  exact ⟨_, rfl, ⟨rfl, rfl, span, reached⟩, reached⟩

theorem seek_spec (whole : reader.Whole image) (member : reader ∈ readers) {session : Session}
    (serves : Serves image readers session) {cursor : LeafCursor} (ready : cursor.Ready reader image) {row : Nat}
    (within : row ≤ reader.rows) :
    ∃ mid after, seek row (session, cursor) = .ok () (mid, after) ∧ Serves image readers mid ∧
      after.At reader image row := by
  obtain ⟨same, page⟩ := ready
  have known : ¬cursor.reader.rows < row := by
    rw [same]
    exact Nat.not_lt.mpr within
  have some : 0 < cursor.reader.rows := same ▸ whole.some
  rw [seek, bind_apply, get_apply]
  simp only [known, if_false]
  -- behind the last row stands the page of the last row
  generalize chosen : (if row = cursor.reader.rows then row - 1 else row) = target
  have near : target ≤ row ∧ row ≤ target + 1 ∧ target < reader.rows := by
    rw [← same]
    split at chosen <;> omega
  by_cases held : cursor.page.any (·.contains target) = true
  · simp only [held, Bool.not_true, Bool.false_eq_true, and_false, if_false]
    rcases page with none | ⟨span, place, on⟩
    · simp [none] at held
    · obtain ⟨opened, opens, page, _⟩ := on.page_eq
      obtain ⟨_, _, _, number, rows, _⟩ := LeafReader.openedIn_spec opens
      rw [page, Option.any_some, DataPage.contains, Bool.and_eq_true, decide_eq_true_eq, decide_eq_true_eq] at held
      have bounds : opened.first ≤ target ∧ target < opened.first + opened.rows := held
      rw [PageSpan.rows] at rows
      obtain ⟨after, run, there, _⟩ := seekOpen_spec whole on session row (by omega) (by omega)
      exact ⟨session, after, run, serves, there⟩
  · simp only [some, held, Bool.not_false, and_self, if_true]
    obtain ⟨index, listed⟩ := whole.listed
    obtain ⟨valid, rows⟩ := LeafReader.indexIn_valid listed
    obtain ⟨span, found, there, first, stop⟩ := valid.find_spec target (by omega)
    obtain ⟨opened, opens, _⟩ := whole.opens listed there
    have finds : Yields (Serves image readers) (cursor.reader.findSpan target) (.ok span) := by
      have lists : Yields (Serves image readers) (reader.ordinalIndex >>= fun index => lift (index.find target))
          (reader.indexIn image >>= fun index => index.find target) :=
        (LeafReader.yields_ordinalIndex member).bind fun index _ => Yields.lift (index.find target)
      rw [listed] at lists
      rw [same, ← found]
      exact lists
    obtain ⟨mid, serving, run⟩ := finds.run serves
    have loads := loadPage_meets serving member same span
    rw [opens] at loads
    obtain ⟨_, ⟨last, after⟩, run', served, bytes, kept⟩ := loads.exists_ok
    obtain rfl : after = _ := kept
    have on : LeafCursor.Open reader image span span.first ⟨cursor.reader, cursor.options, Option.some opened,
        cursor.ordinal, cursor.seeked, bytes, cursor.pagesDecoded + 1⟩ := Open.ofOpened listed there opens same rfl
    obtain ⟨after, moved, at_, _⟩ := seekOpen_spec whole on last row (by omega) (by omega)
    refine ⟨last, after, ?_, served, at_⟩
    rw [bind_apply, onFirst, run]
    simp only [rewrap_ok]
    rw [bind_apply, run']
    exact moved

/-- There is no place beyond the end of the column. -/
theorem seek_beyond {cursor : LeafCursor} {row : Nat} (beyond : cursor.reader.rows < row) (session : Session) :
    seek row (session, cursor) =
      .error (.seekBeyondColumn row cursor.reader.rows cursor.reader.file) (session, cursor) := by
  rw [seek, bind_apply, get_apply]
  simp only [beyond, if_true]
  rfl

theorem seekFirst_spec (whole : reader.Whole image) (member : reader ∈ readers) {session : Session}
    (serves : Serves image readers session) {cursor : LeafCursor} (same : cursor.reader = reader) :
    ∃ mid after, seekFirst (session, cursor) = .ok () (mid, after) ∧ Serves image readers mid ∧
      after.At reader image 0 := by
  obtain ⟨index, listed⟩ := whole.listed
  obtain ⟨valid, rows⟩ := LeafReader.indexIn_valid listed
  have pages : 0 < index.pages.length := List.length_pos_iff.mpr (valid.covers (rows ▸ whole.some))
  obtain ⟨span, there⟩ := Option.isSome_iff_exists.mp (OrdinalIndex.span?_isSome.mpr pages)
  obtain ⟨opened, opens, _⟩ := whole.opens listed there
  have first : firstOpened reader image = .ok opened := by
    have start : index.firstSpan = .ok span := by rw [OrdinalIndex.firstSpan, there]
    simp only [firstOpened, listed, bind, Except.bind, start]
    exact opens
  have seeks := seekFirst_meets member serves same
  rw [first] at seeks
  obtain ⟨_, ⟨mid, after⟩, run, serving, at_⟩ := seeks.exists_ok
  exact ⟨mid, after, run, serving, at_⟩

theorem seekPageStart_of_none {cursor : LeafCursor} (none : cursor.page = none) (session : Session) :
    seekPageStart (session, cursor) = .error .noPageLoaded (session, cursor) := by
  rw [seekPageStart, bind_apply, get_apply]
  simp only [none]
  rfl

theorem seekPageStart_of_some {cursor : LeafCursor} {page : DataPage} (some : cursor.page = some page)
    (session : Session) : seekPageStart (session, cursor) = seek page.first (session, cursor) := by
  rw [seekPageStart, bind_apply, get_apply]
  simp only [some]

/-- The first row of the open page is the place to be at. -/
theorem seekPageStart_spec (whole : reader.Whole image) (member : reader ∈ readers) {session : Session}
    (serves : Serves image readers session) {cursor : LeafCursor} {place : Nat}
    (at_ : cursor.At reader image place) :
    ∃ page mid after, cursor.page = some page ∧ seekPageStart (session, cursor) = .ok () (mid, after) ∧
      Serves image readers mid ∧ after.At reader image page.first := by
  obtain ⟨span, on⟩ := at_.on
  obtain ⟨index, listed, there⟩ := on.span_eq
  obtain ⟨opened, opens, held, _⟩ := on.page_eq
  obtain ⟨_, _, _, number, _⟩ := LeafReader.openedIn_spec opens
  obtain ⟨valid, rows⟩ := LeafReader.indexIn_valid listed
  obtain ⟨_, _, _, order, bound⟩ := valid.span_spec there
  have within : (opened.atRow (place - span.first)).first ≤ reader.rows := by
    have same : (opened.atRow (place - span.first)).first = span.first := number
    omega
  obtain ⟨mid, after, run, serving, there⟩ := seek_spec whole member serves at_.ready within
  exact ⟨_, mid, after, held, (seekPageStart_of_some held session).trans run, serving, there⟩

end LeafCursor

end Columnar
