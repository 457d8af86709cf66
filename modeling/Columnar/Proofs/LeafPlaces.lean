import Columnar.Proofs.DataReads
import Columnar.Proofs.FilterPruning
import Columnar.Proofs.LeafHistory

namespace Columnar

open Columnar.Action Session

namespace DataPage

variable {opened page : DataPage}

theorem next_rows {σ : Type} [Sink σ] {count : Nat} {sink sink' : σ} {read : RowsRead} {after : DataPage}
    (run : next count (page, sink) = .ok read (after, sink')) : read.rows = min count page.remaining := by
  have rows : min count page.remaining = page.readable count := rfl
  rw [rows]
  cases stored : page.nulls with
  | none =>
    rw [next_noNulls stored] at run
    obtain ⟨_, ⟨_, _⟩, _, run⟩ := bind_ok run
    cases run
    rfl
  | some nulls =>
    rw [next_nulls stored] at run
    obtain ⟨_, ⟨_, _⟩, _, run⟩ := bind_ok run
    dsimp only at run
    split at run
    · cases run
    · cases run
      rfl

/-- A read moves the page on by the rows that it gives, and if it fails it does not. -/
theorem Within.next {σ : Type} [Sink σ] (sound : opened.Sound) (within : Within opened page) (count : Nat)
    (sink : σ) :
    match DataPage.next count (page, sink) with
    | .ok read (after, _) => Within opened after ∧ after.offset = page.offset + read.rows ∧
      read.rows = min count (opened.rows - page.offset)
    | .error _ (after, _) => Within opened after ∧ after.offset = page.offset := by
  have kept := within.after sound (.next count sink)
  obtain ⟨offset, nulls, index, rfl, known, place, value⟩ := within
  cases outcome : DataPage.next count (opened.placed offset nulls index, sink) with
  | ok read left =>
    obtain ⟨left, filled⟩ := left
    rw [PageCall.after_of_ok (PageCall.run_next_ok outcome)] at kept
    have rows : read.rows = min count (opened.rows - offset) := next_rows outcome
    refine ⟨kept, ?_, rows⟩
    cases stored : opened.nulls with
    | none => rw [(next_ok_noNulls stored outcome).1, rows]; rfl
    | some cursor => rw [(sound.next_ok_nulls stored value place outcome).1, rows]; rfl
  | error error left =>
    obtain ⟨left, filled⟩ := left
    rw [PageCall.after_of_error (PageCall.run_next_error outcome)] at kept
    refine ⟨kept, ?_⟩
    cases stored : opened.nulls with
    | none =>
      obtain ⟨_, same, _⟩ := next_error_noNulls stored outcome
      rw [same]
      rfl
    | some cursor =>
      obtain ⟨_, _, same, _⟩ := sound.next_error_nulls stored value place outcome
      rw [same]
      rfl

/-- A seek moves the page to its row, and if it fails it does not. -/
theorem Within.seek (sound : opened.Sound) (within : Within opened page) (row : Nat) :
    match DataPage.seek row page with
    | .ok _ after => Within opened after ∧ after.offset = row
    | .error _ after => Within opened after ∧ after.offset = page.offset := by
  have kept := within.after sound (.seek row)
  obtain ⟨offset, nulls, index, rfl, known, place, value⟩ := within
  by_cases inside : row ≤ opened.rows
  · have moved := sound.seek_placed offset nulls index inside
    split at moved
    · rw [PageCall.after_seek_ok moved] at kept
      rw [moved]
      exact ⟨kept, rfl⟩
    · rw [PageCall.after_seek_error moved] at kept
      rw [moved]
      exact ⟨kept, rfl⟩
  · have stays := @seek_placed_beyond opened offset nulls index row inside
    rw [PageCall.after_seek_error stays] at kept
    rw [stays]
    exact ⟨kept, rfl⟩

/-- The first row of a page can be sought from anywhere on it. -/
theorem Within.seek_zero (sound : opened.Sound) (within : Within opened page) :
    ∃ after, DataPage.seek 0 page = .ok () after ∧ Within opened after ∧ after.offset = 0 := by
  have moves := within.seek sound 0
  obtain ⟨offset, nulls, index, rfl, _, _, value⟩ := within
  have moved := sound.seek_placed offset nulls index (Nat.zero_le _)
  have there : opened.seekTarget nulls index 0 ≤ opened.values.count := by
    unfold seekTarget
    split
    · exact Nat.zero_le _
    · rename_i ahead
      simp only [not_or, Nat.not_lt] at ahead
      rw [Nat.le_zero.mp ahead.2, Nat.sub_self, Nat.add_zero]
      exact value
  rw [if_pos there] at moved
  rw [moved] at moves
  exact ⟨_, moved, moves⟩

end DataPage

namespace OrdinalIndex

variable {index : OrdinalIndex} {span next : PageSpan} {page start stop : Nat}

/-- The pages behind one that hold some of the rows between two places. -/
def holding (index : OrdinalIndex) (page start stop : Nat) : List PageSpan :=
  index.spans.filter fun span => page < span.page && (List.range' start (stop - start)).any span.contains

theorem mem_spans : span ∈ index.spans ↔ index.Lists span := by
  have whole := @mem_drop_spans index span 0
  rwa [List.drop_zero, and_iff_left (Nat.zero_le _)] at whole

/-- The pages behind one begin behind it. -/
theorem Lists.stop_le (valid : index.Valid) (listed : index.Lists span) (also : index.Lists next)
    (behind : span.page < next.page) : span.stop ≤ next.first := by
  obtain ⟨_, _, stops, _⟩ := valid.span_spec listed
  obtain ⟨_, starts, _⟩ := valid.span_spec also
  have order := valid.startOf_mono (show span.page + 1 ≤ next.page from behind)
  omega

/-- The page behind another adjoins it. -/
theorem Lists.adjoins (valid : index.Valid) (listed : index.Lists span)
    (there : index.span? (span.page + 1) = some next) :
    index.Lists next ∧ next.page = span.page + 1 ∧ next.first = span.stop ∧ next.first < next.stop := by
  obtain ⟨_, _, stops, _⟩ := valid.span_spec listed
  obtain ⟨number, starts, _, filled, _⟩ := valid.span_spec there
  exact ⟨by rwa [← number] at there, number, starts.trans stops.symm, filled⟩

/-- Where there is no page behind one, it ends with the column. -/
theorem Lists.ends (valid : index.Valid) (listed : index.Lists span) (none : index.span? (span.page + 1) = none) :
    span.stop = index.rows := by
  obtain ⟨_, _, stops, _⟩ := valid.span_spec listed
  have last : ¬span.page + 1 < index.pages.length := by
    rw [← span?_isSome, none]
    simp
  rw [stops, startOf, List.getElem?_eq_none (Nat.le_of_not_lt last)]
  rfl

/-- No page behind another begins in front of its end. -/
theorem Lists.spansUpTo_eq_nil (valid : index.Valid) (listed : index.Lists span) (within : stop ≤ span.stop) :
    index.spansUpTo (span.page + 1) stop = [] := by
  rw [List.eq_nil_iff_forall_not_mem]
  intro next member
  obtain ⟨also, behind, before⟩ := (mem_spansUpTo_iff valid).mp member
  have := listed.stop_le valid also behind
  omega

theorem spansUpTo_eq_cons (there : index.span? page = some span) (before : span.first < stop) :
    index.spansUpTo page stop = span :: index.spansUpTo (page + 1) stop := by
  obtain ⟨inside, rfl⟩ := List.getElem?_eq_some_iff.mp ((index.spans_getElem? _).trans there)
  rw [spansUpTo, List.drop_eq_getElem_cons inside, List.takeWhile_cons_of_pos (by simpa using before), spansUpTo]

/-- The page behind another is the only one that begins with the row at its end. -/
theorem Lists.spansUpTo_next (valid : index.Valid) (listed : index.Lists span)
    (there : index.span? (span.page + 1) = some next) :
    index.spansUpTo (span.page + 1) (span.stop + 1) = [next] := by
  obtain ⟨also, number, first, filled⟩ := listed.adjoins valid there
  rw [spansUpTo_eq_cons there (by omega), ← number, also.spansUpTo_eq_nil valid (by omega)]

theorem takeWhile_append_takeWhile {α : Type} {test other : α → Bool}
    (weaker : ∀ element, test element = true → other element = true) (list : List α) :
    list.takeWhile test ++ (list.drop (list.takeWhile test).length).takeWhile other = list.takeWhile other := by
  induction list with
  | nil => rfl
  | cons first rest ih =>
    cases holds : test first with
    | true =>
      rw [List.takeWhile_cons_of_pos holds, List.takeWhile_cons_of_pos (weaker first holds), List.length_cons,
        List.drop_succ_cons, List.cons_append, ih]
    | false =>
      rw [List.takeWhile_cons_of_neg (by simp [holds])]
      rfl

/-- The pages up to a row, and those that go on with them up to a later one. -/
theorem spansUpTo_append (index : OrdinalIndex) (page : Nat) {later : Nat} (order : stop ≤ later) :
    index.spansUpTo page stop ++ index.spansUpTo (page + (index.spansUpTo page stop).length) later =
      index.spansUpTo page later := by
  have weaker : ∀ span : PageSpan, decide (span.first < stop) = true → decide (span.first < later) = true := by
    intro span before
    rw [decide_eq_true_eq] at *
    omega
  have parts := takeWhile_append_takeWhile weaker (index.spans.drop page)
  rwa [List.drop_drop] at parts

/-- From a row of a page on, the pages up to another one are those behind it that hold some of the rows in
between. -/
theorem Lists.spansUpTo_eq_holding (valid : index.Valid) (listed : index.Lists span) (within : start ≤ span.stop) :
    index.spansUpTo (span.page + 1) stop = index.holding span.page start stop := by
  have : Std.Irrefl fun span later : PageSpan => span.page < later.page := ⟨fun _ => Nat.lt_irrefl _⟩
  have : Std.Antisymm fun span later : PageSpan => span.page < later.page :=
    ⟨fun _ _ before behind => absurd before (Nat.lt_asymm behind)⟩
  refine spansUpTo_ordered.eq_of_mem_iff (index.spans_ordered.filter _) fun next => ?_
  rw [mem_spansUpTo_iff valid, holding, List.mem_filter, mem_spans, Bool.and_eq_true, decide_eq_true_eq]
  refine and_congr_right fun also => and_congr_right fun behind => ?_
  obtain ⟨_, _, _, filled, _⟩ := valid.span_spec also
  have order := listed.stop_le valid also behind
  simp only [List.any_eq_true, List.mem_range'_1, PageSpan.contains, Bool.and_eq_true, decide_eq_true_eq]
  constructor
  · intro before
    exact ⟨next.first, by omega, by omega⟩
  · rintro ⟨row, between, holds⟩
    omega

end OrdinalIndex

namespace LeafCursor

variable {image : Bytes} {readers : List LeafReader} {reader : LeafReader} {index : OrdinalIndex}
  {span next : PageSpan} {cursor : LeafCursor} {page : DataPage} {pages more : List PageSpan}
  {start mid state : Session × LeafCursor}

/-- The cursor has a page of its leaf open, and the page is at the row where the cursor is. -/
structure Rests (reader : LeafReader) (image : Bytes) (index : OrdinalIndex) (span : PageSpan)
    (cursor : LeafCursor) : Prop where
  reader_eq : cursor.reader = reader
  listed : index.Lists span
  page_eq : ∃ opened page, reader.openedIn image span = .ok opened ∧ cursor.page = some page ∧
    DataPage.Within opened page ∧
    cursor.ordinal = span.first + page.offset

theorem Rests.page_spec (rests : cursor.Rests reader image index span) (open_ : cursor.page = some page) :
    page.page = span.page ∧ page.first = span.first ∧ page.rows = span.rows ∧
    cursor.ordinal = span.first + page.offset := by
  obtain ⟨opened, _, opens, same, ⟨_, _, _, rfl, _⟩, place⟩ := rests.page_eq
  cases open_.symm.trans same
  obtain ⟨_, _, number, first, rows, _⟩ := LeafReader.openedIn_spec opens
  exact ⟨number, first, rows, place⟩

theorem Rests.contains_eq (valid : index.Valid) (rests : cursor.Rests reader image index span) (row : Nat) :
    cursor.page.any (·.contains row) = span.contains row := by
  obtain ⟨_, page, _, open_, _⟩ := rests.page_eq
  obtain ⟨_, first, rows, _⟩ := rests.page_spec open_
  obtain ⟨_, _, _, filled, _⟩ := valid.span_spec rests.listed
  rw [open_, Option.any_some, DataPage.contains, PageSpan.contains, first, rows, PageSpan.rows,
    Nat.add_sub_cancel' (Nat.le_of_lt filled)]

theorem Rests.bounds (valid : index.Valid) (rests : cursor.Rests reader image index span) :
    span.first ≤ cursor.ordinal ∧ cursor.ordinal ≤ span.stop ∧ span.stop ≤ index.rows := by
  obtain ⟨opened, _, opens, _, ⟨offset, _, _, rfl, inside, _⟩, place⟩ := rests.page_eq
  obtain ⟨_, _, _, _, rows, _⟩ := LeafReader.openedIn_spec opens
  obtain ⟨_, _, _, filled, bound⟩ := valid.span_spec rests.listed
  rw [PageSpan.rows] at rows
  rw [DataPage.placed_offset] at place
  omega

theorem Rests.unique (rests : cursor.Rests reader image index span) (also : cursor.Rests reader image index next) :
    next = span := by
  obtain ⟨_, page, _, open_, _⟩ := rests.page_eq
  exact also.listed.unique rests.listed ((also.page_spec open_).1.symm.trans (rests.page_spec open_).1)

/-- On a page that has just been opened the first row comes next. -/
theorem Rests.ofOpened (listed : index.Lists span) {opened : DataPage}
    (opens : reader.openedIn image span = .ok opened) (same : cursor.reader = reader)
    (held : cursor.page = some opened) (ordinal : cursor.ordinal = span.first) :
    cursor.Rests reader image index span := by
  obtain ⟨start, _⟩ := LeafReader.openedIn_spec opens
  refine ⟨same, listed, opened, opened, opens, held, .ofStart start, ?_⟩
  rw [ordinal, start]
  rfl

/-- From a session and a cursor others have come about, with some data pages of the leaf opened on the way. -/
structure Visits (image : Bytes) (readers : List LeafReader) (pages : List PageSpan)
    (start state : Session × LeafCursor) : Prop where
  serves : Serves image readers state.1
  reader_eq : state.2.reader = start.2.reader
  options_eq : state.2.options = start.2.options
  decoded : state.2.pagesDecoded = start.2.pagesDecoded + pages.length
  takes : Takes (pages.map start.2.dataRead) start.1 state.1

theorem Visits.refl (serves : Serves image readers state.1) : Visits image readers [] state state :=
  ⟨serves, rfl, rfl, rfl, .refl _⟩

theorem Visits.trans (first : Visits image readers pages start mid) (second : Visits image readers more mid state) :
    Visits image readers (pages ++ more) start state where
  serves := second.serves
  reader_eq := second.reader_eq.trans first.reader_eq
  options_eq := second.options_eq.trans first.options_eq
  decoded := by rw [second.decoded, first.decoded, List.length_append, Nat.add_assoc]
  takes := by
    have read : mid.2.dataRead = start.2.dataRead := by
      funext span
      rw [dataRead, dataRead, first.reader_eq, first.options_eq]
    have both := first.takes.trans second.takes
    rwa [read, ← List.map_append] at both

/-- What a cursor has counted is told by its pages only. -/
theorem Visits.of_cursor {other : LeafCursor} (visits : Visits image readers pages start state)
    (reader_eq : other.reader = state.2.reader) (options_eq : other.options = state.2.options)
    (decoded : other.pagesDecoded = state.2.pagesDecoded) : Visits image readers pages start (state.1, other) where
  serves := visits.serves
  reader_eq := reader_eq.trans visits.reader_eq
  options_eq := options_eq.trans visits.options_eq
  decoded := decoded.trans visits.decoded
  takes := visits.takes

section Steps

variable (whole : reader.Whole image) (member : reader ∈ readers) (listed : reader.indexIn image = .ok index)
  {session : Session} (serves : Serves image readers session)

include member listed serves

/-- The list of the pages is at hand, and no data page is read for it. -/
theorem ordinalIndex_run :
    ∃ other, reader.ordinalIndex session = .ok index other ∧ Serves image readers other ∧
      Takes [] session other := by
  have yields := @LeafReader.yields_ordinalIndex image readers reader member
  rw [listed] at yields
  obtain ⟨other, serving, run⟩ := yields.run serves
  have takes := takes_ordinalIndex reader session (Takes.refl session)
  rw [leftBy_ok run] at takes
  exact ⟨other, run, serving, takes⟩

include whole

/-- A data page of a whole leaf is opened. -/
theorem loadPage_whole (same : cursor.reader = reader) (there : index.Lists span) :
    ∃ opened other bytes, reader.openedIn image span = .ok opened ∧
      (∀ row, opened.valuesBefore row ≤ opened.values.count) ∧
      loadPage span (session, cursor) = .ok () (other,
        { cursor with bytesRead := bytes, pagesDecoded := cursor.pagesDecoded + 1, page := some opened }) ∧
      Serves image readers other ∧ Takes [cursor.dataRead span] session other := by
  obtain ⟨opened, opens, enough⟩ := whole.opens listed there
  have loads := loadPage_meets serves member same span
  rw [opens] at loads
  obtain ⟨_, ⟨other, after⟩, run, serving, bytes, kept⟩ := loads.exists_ok
  obtain rfl : after = _ := kept
  have takes := takes_loadPage (Takes.refl session) cursor span
  rw [leftBy_ok run] at takes
  exact ⟨opened, other, bytes, opens, enough, run, serving, takes⟩

/-- What stands before a read: the cursor is behind the last row, or on a page that has its row. -/
theorem hasRow_rests (rests : cursor.Rests reader image index span) :
    (cursor.ordinal = reader.rows ∧ ∃ other, hasRow (session, cursor) = .ok false (other, cursor) ∧
        Visits image readers [] (session, cursor) (other, cursor)) ∨
      ∃ pages next other after, hasRow (session, cursor) = .ok true (other, after) ∧
        Visits image readers pages (session, cursor) (other, after) ∧ after.Rests reader image index next ∧
        after.ordinal = cursor.ordinal ∧ cursor.ordinal < next.stop ∧
        pages = index.spansUpTo (span.page + 1) (cursor.ordinal + 1) ∧ next.page = span.page + pages.length := by
  obtain ⟨valid, rows⟩ := LeafReader.indexIn_valid listed
  obtain ⟨first, inside, bound⟩ := rests.bounds valid
  obtain ⟨_, _, _, filled, _⟩ := valid.span_spec rests.listed
  obtain ⟨_, page, _, open_, _⟩ := rests.page_eq
  obtain ⟨number, _, many, place⟩ := rests.page_spec open_
  rw [PageSpan.rows] at many
  rw [hasRow, bind_apply, get_apply]
  dsimp only
  by_cases before : cursor.ordinal < span.stop
  · have remaining : cursor.page.any DataPage.hasRemaining = true := by
      rw [open_]
      exact decide_eq_true (by omega)
    rw [if_pos remaining]
    exact .inr ⟨[], span, session, cursor, rfl, .refl serves, rests, rfl, before,
      (rests.listed.spansUpTo_eq_nil valid before).symm, rfl⟩
  · have done : ¬cursor.page.any DataPage.hasRemaining = true := by
      rw [open_]
      exact fun remaining => by
        have := of_decide_eq_true remaining
        omega
    obtain ⟨other, run, serving, takes⟩ := ordinalIndex_run member listed serves
    have behind : cursor.reader.spanBehind page.page session = lift (.ok (index.span? (span.page + 1))) other := by
      rw [rests.reader_eq, LeafReader.spanBehind, bind_apply, run, number]
      rfl
    have ends : cursor.ordinal = span.stop := Nat.le_antisymm inside (Nat.not_lt.mp before)
    rw [if_neg done, loadNextPage_eq open_ behind]
    cases there : index.span? (span.page + 1) with
    | none =>
      refine .inl ⟨ends.trans ((rests.listed.ends valid there).trans rows), other, rfl, serving, rfl, rfl,
        rfl, takes⟩
    | some next =>
      obtain ⟨also, follows, adjoins, more⟩ := rests.listed.adjoins valid there
      obtain ⟨opened, last, bytes, opens, _, moved, served, read⟩ :=
        loadPage_whole whole member listed serving rests.reader_eq also
      have pages := rests.listed.spansUpTo_next valid there
      rw [← ends] at pages
      have moves : (do loadPage next; return true : Action (Session × LeafCursor) Bool) (other, cursor) =
          .ok true (last,
            { cursor with bytesRead := bytes, pagesDecoded := cursor.pagesDecoded + 1, page := some opened }) := by
        rw [bind_apply, moved]
        rfl
      exact .inr ⟨[next], next, last, _, moves, ⟨served, rfl, rfl, rfl, takes.trans read⟩,
        .ofOpened also opens rests.reader_eq rfl (ends.trans adjoins.symm), rfl, by omega, pages.symm, follows⟩

end Steps

section Reading

variable {σ : Type} [Sink σ]

/-- A read of the open page moves the cursor on by the rows that it gives once these are counted, and if it fails it
does not. -/
theorem readPageRows_rests (valid : index.Valid) (rests : cursor.Rests reader image index span) (session : Session)
    (count : Nat) (sink : σ) :
    match readPageRows count (session, cursor, sink) with
    | .ok read (other, after, _) => other = session ∧ read.rows = min count (span.stop - cursor.ordinal) ∧
      Rests reader image index span { after with ordinal := after.ordinal + read.rows } ∧
      ∃ page, after = { cursor with page }
    | .error _ (other, after, _) => other = session ∧ after.Rests reader image index span ∧
      ∃ page, after = { cursor with page } := by
  obtain ⟨opened, page, opens, open_, within, place⟩ := rests.page_eq
  obtain ⟨_, sound, _, _, rows, _⟩ := LeafReader.openedIn_spec opens
  obtain ⟨_, _, _, filled, _⟩ := valid.span_spec rests.listed
  rw [PageSpan.rows] at rows
  have moves := within.next sound count sink
  simp only [readPageRows, open_]
  cases run : DataPage.next count (page, sink) with
  | ok read left =>
    obtain ⟨left, rest⟩ := left
    rw [run] at moves
    obtain ⟨kept, moved, many⟩ := moves
    refine ⟨rfl, by omega, ⟨rests.reader_eq, rests.listed, opened, left, opens, rfl, kept, ?_⟩, some left, rfl⟩
    dsimp only
    omega
  | error error left =>
    obtain ⟨left, rest⟩ := left
    rw [run] at moves
    obtain ⟨kept, stays⟩ := moves
    refine ⟨rfl, ⟨rests.reader_eq, rests.listed, opened, left, opens, rfl, kept, ?_⟩, some left, rfl⟩
    dsimp only
    omega

/-- What a read does that succeeds from a page. It opens the pages behind that one up to the row where it ends. -/
structure Passes (reader : LeafReader) (readers : List LeafReader) (image : Bytes) (index : OrdinalIndex)
    (span : PageSpan) (count : Nat) (start : Session × LeafCursor) (read : RowsRead)
    (state : Session × LeafCursor) : Prop where
  rows : read.rows = min count (reader.rows - start.2.ordinal)
  ordinal : state.2.ordinal = start.2.ordinal + read.rows
  visits : Visits image readers (index.spansUpTo (span.page + 1) state.2.ordinal) start state
  rests : ∃ last, state.2.Rests reader image index last ∧
    last.page = span.page + (index.spansUpTo (span.page + 1) state.2.ordinal).length ∧
    (0 < read.rows → last.first < state.2.ordinal)

/-- Where nothing is left to read, no page is opened. -/
theorem Passes.nothing (valid : index.Valid) (rests : cursor.Rests reader image index span)
    {session other : Session} {count : Nat} (visits : Visits image readers [] (session, cursor) (other, cursor))
    (none : min count (reader.rows - cursor.ordinal) = 0) :
    Passes reader readers image index span count (session, cursor) {} (other, cursor) := by
  have pages : index.spansUpTo (span.page + 1) cursor.ordinal = [] :=
    rests.listed.spansUpTo_eq_nil valid (rests.bounds valid).2.1
  refine ⟨none.symm, rfl, ?_, span, rests, ?_, nofun⟩
  · rwa [pages]
  · rw [pages]
    rfl

/-- Some rows of a page, and then those that are left. -/
theorem Passes.onward (valid : index.Valid) (all : index.rows = reader.rows) {count : Nat} {first others : RowsRead}
    (visits : Visits image readers (index.spansUpTo (span.page + 1) (start.2.ordinal + 1)) start mid)
    (number : next.page = span.page + (index.spansUpTo (span.page + 1) (start.2.ordinal + 1)).length)
    (rests : mid.2.Rests reader image index next) (begun : next.first ≤ start.2.ordinal)
    (rows : first.rows = min count (next.stop - start.2.ordinal)) (some : 0 < first.rows)
    (ordinal : mid.2.ordinal = start.2.ordinal + first.rows)
    (later : Passes reader readers image index next (count - first.rows) mid others state) :
    Passes reader readers image index span count start (first.join others) state := by
  obtain ⟨_, inside, bound⟩ := rests.bounds valid
  obtain ⟨last, on, follows, behind⟩ := later.rests
  have left := later.rows
  have stop := later.ordinal
  have order : start.2.ordinal + 1 ≤ state.2.ordinal := by omega
  have pages := index.spansUpTo_append (span.page + 1) order
  have onward : span.page + 1 + (index.spansUpTo (span.page + 1) (start.2.ordinal + 1)).length =
    next.page + 1 := by omega
  rw [onward] at pages
  have many : (first.join others).rows = first.rows + others.rows := rfl
  refine ⟨?_, ?_, ?_, last, on, ?_, fun _ => ?_⟩
  · omega
  · omega
  · rw [← pages]
    exact visits.trans later.visits
  · rw [← pages, List.length_append]
    omega
  · rcases Nat.eq_zero_or_pos others.rows with none | more
    · have ended : index.spansUpTo (next.page + 1) state.2.ordinal = [] :=
        rests.listed.spansUpTo_eq_nil valid (by omega)
      rw [ended] at follows
      rw [on.listed.unique rests.listed follows]
      omega
    · exact behind more

variable (whole : reader.Whole image) (member : reader ∈ readers) (listed : reader.indexIn image = .ok index)
  {session : Session}

include whole member listed

/-- A read goes over the pages that have its rows, and stays on a page of the leaf, whether or not it succeeds. -/
theorem readRows_rests (serves : Serves image readers session) (rests : cursor.Rests reader image index span)
    {steps count : Nat} (enough : count ≤ steps) (sink : σ) :
    match readRows steps count (session, cursor, sink) with
    | .ok read (other, after, _) => Passes reader readers image index span count (session, cursor)
        read (other, after)
    | .error _ (other, after, _) => Serves image readers other ∧ ∃ last, after.Rests reader image index last := by
  obtain ⟨valid, all⟩ := LeafReader.indexIn_valid listed
  induction steps generalizing session cursor span count sink with
  | zero =>
    obtain rfl : count = 0 := Nat.le_zero.mp enough
    exact Passes.nothing valid rests (.refl serves) (Nat.zero_min _)
  | succ steps ih =>
    rw [readRows]
    by_cases none : count = 0
    · subst none
      exact Passes.nothing valid rests (.refl serves) (Nat.zero_min _)
    · simp only [none, if_false]
      rw [bind_apply]
      rcases hasRow_rests whole member listed serves rests with
        ⟨ends, other, run, visits⟩ | ⟨_, next, other, after, run, visits, on, same, before, rfl, number⟩
      · simp only [onFirstTwo, run, rewrap_ok, Bool.not_false, if_true]
        exact Passes.nothing valid rests visits (by rw [ends, Nat.sub_self, Nat.min_zero])
      · simp only [onFirstTwo, run, rewrap_ok, Bool.not_true, Bool.false_eq_true, if_false]
        rw [bind_apply]
        have begun := (on.bounds valid).1
        have first := readPageRows_rests valid on other count sink
        cases read : readPageRows count (other, after, sink) with
        | error error left =>
          obtain ⟨other, after, filled⟩ := left
          rw [read] at first
          obtain ⟨rfl, on, page, rfl⟩ := first
          exact ⟨visits.serves, next, on⟩
        | ok rows left =>
          obtain ⟨other, moved, filled⟩ := left
          rw [read] at first
          obtain ⟨rfl, many, on, page, rfl⟩ := first
          rw [same] at many begun
          have later := ih visits.serves on (show count - rows.rows ≤ steps by omega) filled
          dsimp only
          rw [bind_apply]
          dsimp only [onFirstTwo, onSecond, modify_apply, rewrap_ok] at later ⊢
          rw [bind_apply]
          cases rest : readRows steps (count - rows.rows)
              (other, { after with page, ordinal := after.ordinal + rows.rows }, filled) with
          | error error left =>
            obtain ⟨last, stopped, filled⟩ := left
            rw [rest] at later
            exact later
          | ok others left =>
            obtain ⟨last, stopped, filled⟩ := left
            rw [rest] at later
            have onward : Visits image readers (index.spansUpTo (span.page + 1) (cursor.ordinal + 1))
              (session, cursor) (other, { after with page, ordinal := after.ordinal + rows.rows }) :=
                visits.of_cursor rfl rfl rfl
            exact .onward valid all onward number on begun many (by omega) (congrArg (· + rows.rows) same) later

/-- So does a read of a cursor that may read. Any other fails and stays. -/
theorem next_rests (serves : Serves image readers session) (rests : cursor.Rests reader image index span)
    (count : Nat) (sink : σ) :
    match LeafCursor.next count (session, cursor, sink) with
    | .ok read (other, after, _) => Passes reader readers image index span count (session, cursor)
        read (other, after)
    | .error _ (other, after, _) => Serves image readers other ∧ ∃ last, after.Rests reader image index last := by
  rw [LeafCursor.next, bind_apply, get_apply]
  dsimp only
  cases seeked : cursor.seeked with
  | false => exact ⟨serves, span, rests⟩
  | true =>
    have reads := readRows_rests whole member listed serves rests (Nat.le_refl count) sink
    simp only [Bool.not_true, Bool.false_eq_true, if_false]
    cases run : readRows count count (session, cursor, sink) with
    | ok read left =>
      rw [run] at reads
      exact reads
    | error error left =>
      rw [run] at reads
      exact reads

end Reading

section Seeking

variable {session : Session} {row : Nat}

theorem seek_within (within : row ≤ cursor.reader.rows) : seek row (session, cursor) = (do
    if 0 < cursor.reader.rows ∧ !cursor.page.any (·.contains (seekRow cursor.reader row)) then
      let span ← onFirst (cursor.reader.findSpan (seekRow cursor.reader row))
      loadPage span
    seekInPage row
    settle row : Action (Session × LeafCursor) Unit) (session, cursor) := by
  rw [seek, bind_apply, get_apply]
  dsimp only
  rw [if_neg (Nat.not_lt.mpr within)]
  rfl

/-- On the page that is open a seek leads to its row, or it fails and stays. -/
theorem seekInPage_rests (rests : cursor.Rests reader image index span) (session : Session)
    (first : span.first ≤ row) :
    match (do seekInPage row; settle row : Action (Session × LeafCursor) Unit) (session, cursor) with
    | .ok _ (other, after) => other = session ∧ after.Rests reader image index span ∧
      ∃ page, after = { cursor with page, ordinal := row, seeked := true }
    | .error _ (other, after) => other = session ∧ after.Rests reader image index span ∧
      ∃ page, after = { cursor with page } := by
  obtain ⟨opened, page, opens, open_, within, place⟩ := rests.page_eq
  obtain ⟨_, sound, _⟩ := LeafReader.openedIn_spec opens
  obtain ⟨_, start, _⟩ := rests.page_spec open_
  have moves := within.seek sound (row - span.first)
  rw [bind_apply]
  simp only [seekInPage, open_, start]
  cases run : DataPage.seek (row - span.first) page with
  | ok value left =>
    rw [run] at moves
    obtain ⟨kept, moved⟩ := moves
    refine ⟨rfl, ⟨rests.reader_eq, rests.listed, opened, left, opens, rfl, kept, ?_⟩, some left, rfl⟩
    change row = span.first + left.offset
    omega
  | error error left =>
    rw [run] at moves
    obtain ⟨kept, stays⟩ := moves
    refine ⟨rfl, ⟨rests.reader_eq, rests.listed, opened, left, opens, rfl, kept, ?_⟩, some left, rfl⟩
    change cursor.ordinal = span.first + left.offset
    omega

variable (whole : reader.Whole image) (member : reader ∈ readers) (listed : reader.indexIn image = .ok index)
  (serves : Serves image readers session)

include member listed serves

/-- A seek to a row of the open page opens no other. -/
theorem seek_here (rests : cursor.Rests reader image index span) (within : row ≤ reader.rows)
    (holds : span.contains (seekRow reader row) = true) :
    match seek row (session, cursor) with
    | .ok _ (other, after) => after.ordinal = row ∧ after.Rests reader image index span ∧
      Visits image readers [] (session, cursor) (other, after)
    | .error _ (other, after) => Serves image readers other ∧ after.Rests reader image index span := by
  obtain ⟨valid, _⟩ := LeafReader.indexIn_valid listed
  have open_ := (rests.contains_eq valid (seekRow reader row)).trans holds
  have below : seekRow reader row ≤ row := by
    unfold seekRow
    split <;> omega
  have first : span.first ≤ row := by
    rw [PageSpan.contains, Bool.and_eq_true, decide_eq_true_eq] at holds
    omega
  have moves := seekInPage_rests rests session first
  obtain rfl := rests.reader_eq
  rw [seek_within within, if_neg (by simp [open_])]
  simp only
  split
  · rename_i run
    rw [run] at moves
    obtain ⟨rfl, on, page, rfl⟩ := moves
    exact ⟨rfl, on, serves, rfl, rfl, rfl, .refl _⟩
  · rename_i run
    rw [run] at moves
    obtain ⟨rfl, on, _⟩ := moves
    exact ⟨serves, on⟩

include whole

/-- A seek to a row that is not on the open page opens the page that holds it, and leads there. -/
theorem seek_elsewhere (same : cursor.reader = reader) (within : row ≤ reader.rows)
    (apart : cursor.page.any (·.contains (seekRow reader row)) = false) :
    ∃ span other after, seek row (session, cursor) = .ok () (other, after) ∧
      span.contains (seekRow reader row) = true ∧
      after.ordinal = row ∧ after.Rests reader image index span ∧
      Visits image readers [span] (session, cursor) (other, after) := by
  obtain ⟨valid, all⟩ := LeafReader.indexIn_valid listed
  have near := seekRow_near within whole.some
  obtain ⟨span, found, there, first, stop⟩ := valid.find_spec (seekRow reader row) (all ▸ near.1)
  obtain ⟨mid, run, serving, takes⟩ := ordinalIndex_run member listed serves
  obtain ⟨opened, other, bytes, opens, enough, loads, served, read⟩ :=
    loadPage_whole whole member listed serving same there
  obtain ⟨start, sound, _, number, rows, _⟩ := LeafReader.openedIn_spec opens
  rw [PageSpan.rows] at rows
  have finds : reader.findSpan (seekRow reader row) session = .ok span mid := by
    rw [LeafReader.findSpan, bind_apply, run]
    simp only [found, lift_ok, pure_apply]
  have moved := sound.seek_atRow 0 (show row - span.first ≤ opened.rows by omega) (enough _)
  rw [← start] at moved
  obtain ⟨kept, place⟩ : DataPage.Within opened (opened.atRow (row - span.first)) ∧ _ := by
    have moves := (DataPage.Within.ofStart start).seek sound (row - span.first)
    rwa [moved] at moves
  refine ⟨span, other, ⟨cursor.reader, cursor.options, some (opened.atRow (row - span.first)), row, true, bytes,
    cursor.pagesDecoded + 1⟩, ?_, ?_, rfl, ⟨same, there, opened, _, opens, rfl, kept, ?_⟩,
    served, rfl, rfl, rfl, takes.trans read⟩
  · subst same
    rw [seek_within within, if_pos ⟨whole.some, by simp [apart]⟩]
    simp only [bind_apply, onFirst, finds, rewrap_ok, loads, seekInPage, number, moved]
    rfl
  · rw [PageSpan.contains, decide_eq_true first, decide_eq_true stop, Bool.and_true]
  · change row = span.first + (row - span.first)
    omega

/-- A seek to the first row opens the first page. -/
theorem seekFirst_rests (same : cursor.reader = reader) :
    ∃ span other after, seekFirst (session, cursor) = .ok () (other, after) ∧ index.span? 0 = some span ∧
      after.ordinal = 0 ∧
      after.Rests reader image index span ∧ Visits image readers [span] (session, cursor) (other, after) := by
  obtain ⟨valid, all⟩ := LeafReader.indexIn_valid listed
  have pages : 0 < index.pages.length := List.length_pos_iff.mpr (valid.covers (all ▸ whole.some))
  obtain ⟨span, found⟩ := Option.isSome_iff_exists.mp (OrdinalIndex.span?_isSome.mpr pages)
  obtain ⟨number, first, _⟩ := valid.span_spec found
  have there : index.Lists span := by rwa [← number] at found
  obtain ⟨mid, run, serving, takes⟩ := ordinalIndex_run member listed serves
  obtain ⟨opened, other, bytes, opens, _, loads, served, read⟩ :=
    loadPage_whole whole member listed serving same there
  have finds : reader.firstSpan session = .ok span mid := by
    have start : index.firstSpan = .ok span := by rw [OrdinalIndex.firstSpan, found]
    rw [LeafReader.firstSpan, bind_apply, run]
    simp only [start, lift_ok, pure_apply]
  refine ⟨span, other, ⟨cursor.reader, cursor.options, some opened, 0, true, bytes, cursor.pagesDecoded + 1⟩,
    ?_, found, rfl, .ofOpened there opens same rfl ?_, served, rfl, rfl, rfl, takes.trans read⟩
  · subst same
    rw [seekFirst, bind_apply, get_apply]
    simp only [bind_apply, onFirst, finds, rewrap_ok, loads]
    rfl
  · rw [first, valid.startOf_zero]

end Seeking

/-- The cursor has no page open and may not read, or it is on a page of its leaf. -/
structure Placed (reader : LeafReader) (image : Bytes) (index : OrdinalIndex) (cursor : LeafCursor) : Prop where
  reader_eq : cursor.reader = reader
  place : cursor.page = none ∧ cursor.seeked = false ∨ ∃ span, cursor.Rests reader image index span

theorem Rests.placed (rests : cursor.Rests reader image index span) : cursor.Placed reader image index :=
  ⟨rests.reader_eq, .inr ⟨span, rests⟩⟩

section Outcomes

variable (whole : reader.Whole image) (member : reader ∈ readers) (listed : reader.indexIn image = .ok index)
  {session : Session} (serves : Serves image readers session)

include whole member listed serves

/-- A seek that succeeds leads to its row, and the page that is open then holds it. No other has been opened. -/
theorem Placed.seek_ok (placed : cursor.Placed reader image index) {row : Nat} {value : Unit}
    (run : seek row (session, cursor) = .ok value state) :
    row ≤ reader.rows ∧ state.2.ordinal = row ∧ ∃ span, state.2.Rests reader image index span ∧
      span.contains (seekRow reader row) = true ∧
      Visits image readers (if cursor.page.any (·.contains (seekRow reader row)) then [] else [span])
        (session, cursor) state := by
  obtain ⟨valid, _⟩ := LeafReader.indexIn_valid listed
  have within : row ≤ reader.rows := by
    by_contra beyond
    rw [seek_beyond (placed.reader_eq ▸ Nat.lt_of_not_le beyond) session] at run
    cases run
  cases holds : cursor.page.any (·.contains (seekRow reader row)) with
  | true =>
    obtain ⟨none, _⟩ | ⟨span, rests⟩ := placed.place
    · simp [none] at holds
    · have contains := (rests.contains_eq valid _).symm.trans holds
      have moves := seek_here member listed serves rests within contains
      rw [run] at moves
      obtain ⟨ordinal, on, visits⟩ := moves
      exact ⟨within, ordinal, span, on, contains, visits⟩
  | false =>
    obtain ⟨span, other, after, run', contains, ordinal, on, visits⟩ :=
      seek_elsewhere whole member listed serves placed.reader_eq within holds
    cases run.symm.trans run'
    exact ⟨within, ordinal, span, on, contains, visits⟩

/-- A read that succeeds does so from a page. -/
theorem Placed.next_ok {σ : Type} [Sink σ] (placed : cursor.Placed reader image index) {count : Nat}
    {sink filled : σ} {read : RowsRead} {mid : Session} {after : LeafCursor}
    (run : LeafCursor.next count (session, cursor, sink) = .ok read (mid, after, filled)) :
    ∃ span, cursor.Rests reader image index span ∧
      Passes reader readers image index span count (session, cursor) read (mid, after) := by
  obtain ⟨_, unseeked⟩ | ⟨span, rests⟩ := placed.place
  · rw [LeafCursor.next, bind_apply, get_apply] at run
    simp only [unseeked, Bool.not_false, if_true] at run
    cases run
  · have reads := next_rests whole member listed serves rests count sink
    rw [run] at reads
    exact ⟨span, rests, reads⟩

omit whole in
/-- The first row of the open page is always there to go to. -/
theorem Rests.pageStart_ok (rests : cursor.Rests reader image index span) :
    ∃ state, seekPageStart (session, cursor) = .ok () state ∧ state.2.ordinal = span.first ∧
      state.2.Rests reader image index span ∧ Visits image readers [] (session, cursor) state := by
  obtain ⟨valid, all⟩ := LeafReader.indexIn_valid listed
  obtain ⟨opened, page, opens, open_, within, place⟩ := rests.page_eq
  obtain ⟨_, sound, _⟩ := LeafReader.openedIn_spec opens
  obtain ⟨_, first, _⟩ := rests.page_spec open_
  obtain ⟨_, _, _, filled, bound⟩ := valid.span_spec rests.listed
  have target : seekRow reader span.first = span.first := if_neg (by omega)
  have here : cursor.page.any (·.contains (seekRow reader span.first)) = true := by
    rw [rests.contains_eq valid, target, PageSpan.contains, decide_eq_true (Nat.le_refl _), decide_eq_true filled,
      Bool.and_true]
  obtain ⟨left, moved, kept, stays⟩ := within.seek_zero sound
  refine ⟨(session, { cursor with page := some left, ordinal := span.first, seeked := true }), ?_, rfl,
    ⟨rests.reader_eq, rests.listed, opened, left, opens, rfl, kept, ?_⟩, serves, rfl, rfl, rfl, .refl _⟩
  · obtain rfl := rests.reader_eq
    rw [seekPageStart_of_some open_, first, seek_within (by omega), if_neg (by simp [here])]
    simp only [bind_apply, seekInPage, open_, first, Nat.sub_self, moved, rewrap_ok]
    rfl
  · rw [stays, Nat.add_zero]

end Outcomes

section Histories

variable (whole : reader.Whole image) (member : reader ∈ readers) (listed : reader.indexIn image = .ok index)

include whole member listed

theorem preserves_placed_seek (row : Nat) :
    Preserves (fun state => Serves image readers state.1 ∧ state.2.Placed reader image index) (seek row) := by
  obtain ⟨valid, _⟩ := LeafReader.indexIn_valid listed
  rintro ⟨session, cursor⟩ ⟨serves, placed⟩
  dsimp only at serves placed
  by_cases within : row ≤ reader.rows
  · cases holds : cursor.page.any (·.contains (seekRow reader row)) with
    | false =>
      obtain ⟨span, other, after, run, _, _, rests, visits⟩ :=
        seek_elsewhere whole member listed serves placed.reader_eq within holds
      rw [leftBy_ok run]
      exact ⟨visits.serves, rests.placed⟩
    | true =>
      obtain ⟨none, _⟩ | ⟨span, rests⟩ := placed.place
      · simp [none] at holds
      · have moves := seek_here member listed serves rests within ((rests.contains_eq valid _).symm.trans holds)
        cases run : seek row (session, cursor) with
        | ok value left =>
          rw [run] at moves
          rw [leftBy_ok run]
          exact ⟨moves.2.2.serves, moves.2.1.placed⟩
        | error error left =>
          rw [run] at moves
          rw [leftBy_error run]
          exact ⟨moves.1, moves.2.placed⟩
  · rw [leftBy_error (seek_beyond (placed.reader_eq ▸ Nat.lt_of_not_le within) session)]
    exact ⟨serves, placed⟩

theorem preserves_placed_next {σ : Type} [Sink σ] (count : Nat) :
    Preserves (fun state : Session × LeafCursor × σ => Serves image readers state.1 ∧
      state.2.1.Placed reader image index) (LeafCursor.next count) := by
  rintro ⟨session, cursor, sink⟩ ⟨serves, placed⟩
  dsimp only at serves placed
  obtain ⟨_, unseeked⟩ | ⟨span, rests⟩ := placed.place
  · have refused : LeafCursor.next count (session, cursor, sink) =
        .error (.notSeeked cursor.reader.file) (session, cursor, sink) := by
      rw [LeafCursor.next, bind_apply, get_apply]
      simp [unseeked]
    rw [leftBy_error refused]
    exact ⟨serves, placed⟩
  · have reads := next_rests whole member listed serves rests count sink
    cases run : LeafCursor.next count (session, cursor, sink) with
    | ok read left =>
      obtain ⟨other, after, filled⟩ := left
      rw [run] at reads
      obtain ⟨last, rests, _⟩ := reads.rests
      rw [leftBy_ok run]
      exact ⟨reads.visits.serves, rests.placed⟩
    | error error left =>
      obtain ⟨other, after, filled⟩ := left
      rw [run] at reads
      obtain ⟨served, last, rests⟩ := reads
      rw [leftBy_error run]
      exact ⟨served, rests.placed⟩

theorem preserves_placed_seekCall (call : SeekCall) :
    Preserves (fun state => Serves image readers state.1 ∧ state.2.Placed reader image index) call.run := by
  cases call with
  | first =>
    rintro ⟨session, cursor⟩ ⟨serves, placed⟩
    dsimp only at serves placed
    obtain ⟨span, other, after, run, _, _, rests, visits⟩ :=
      seekFirst_rests whole member listed serves placed.reader_eq
    rw [SeekCall.run, leftBy_ok run]
    exact ⟨visits.serves, rests.placed⟩
  | row ordinal => exact preserves_placed_seek whole member listed ordinal
  | pageStart => exact preserves_seekPageStart (preserves_placed_seek whole member listed)

theorem preserves_placed_readCall (call : ReadCall) :
    Preserves (fun state => Serves image readers state.1 ∧ state.2.Placed reader image index) call.run := by
  rintro ⟨session, cursor⟩ kept
  have left : leftBy call.run (session, cursor) =
      ((leftBy (LeafCursor.next call.count) (session, cursor, call.sink)).1,
        (leftBy (LeafCursor.next call.count) (session, cursor, call.sink)).2.1) := by
    simp only [leftBy, Action.run, ReadCall.run]
    cases LeafCursor.next call.count (session, cursor, call.sink) <;> rfl
  rw [left]
  exact preserves_placed_next whole member listed call.count (session, cursor, call.sink) kept

/-- Whatever a call comes to, the cursor is still on a page of its leaf. -/
theorem preserves_placed (call : CursorCall) :
    Preserves (fun state => Serves image readers state.1 ∧ state.2.Placed reader image index) call.run := by
  cases call with
  | seek call => exact preserves_placed_seekCall whole member listed call
  | read call => exact preserves_placed_readCall whole member listed call

/-- On a leaf whose segment holds all of its rows each history keeps a cursor on a page of the leaf. -/
theorem Reached.placed (reached : Reached image readers reader cursor) : cursor.Placed reader image index := by
  induction reached with
  | new options => exact ⟨rfl, .inl ⟨rfl, rfl⟩⟩
  | call serves _ call ih => exact (preserves_placed whole member listed call _ ⟨serves, ih⟩).2

end Histories

end LeafCursor

end Columnar
