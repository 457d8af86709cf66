import Columnar.Proofs.PagesNeeded
import Columnar.Proofs.PageWalks

namespace Columnar

open Columnar.Action Session

/-- How a cursor has come to its row: by a seek, or by reading the rows in front of it. -/
inductive Arrival where
  | sought
  | read
  deriving DecidableEq, Repr

namespace Arrival

/-- The row whose page is open: the one that comes next, or the last one that has been read. -/
def row : Arrival → Nat → Nat
  | sought, ordinal => ordinal
  | read, ordinal => ordinal - 1

/-- The open page of a cursor that has come to a row. -/
def OnPage (rows ordinal : Nat) (span : PageSpan) : Arrival → Prop
  | sought => ordinal < rows → span.contains ordinal = true
  | read => span.first < ordinal

variable {index : OrdinalIndex} {span : PageSpan} {rows ordinal : Nat} {arrival : Arrival}

theorem OnPage.contains_row (onPage : arrival.OnPage rows ordinal span) (within : ordinal ≤ span.stop)
    (below : ordinal < rows) : span.contains (arrival.row ordinal) = true := by
  cases arrival with
  | sought => exact onPage below
  | read =>
    have behind : span.first < ordinal := onPage
    rw [PageSpan.contains, Bool.and_eq_true, decide_eq_true_eq, decide_eq_true_eq, row]
    omega

/-- The open page does not hold the row that comes next exactly if the rows in front of that have been read and it
begins a page. -/
theorem OnPage.contains_eq_false_iff (valid : index.Valid) (listed : index.Lists span)
    (onPage : arrival.OnPage index.rows ordinal span) (within : ordinal ≤ span.stop)
    (below : ordinal < index.rows) :
    span.contains ordinal = false ↔ arrival = .read ∧ ∃ page ∈ index.spans, page.first = ordinal := by
  cases arrival with
  | sought =>
    have holds : span.contains ordinal = true := onPage below
    simp [holds]
  | read =>
    have behind : span.first < ordinal := onPage
    constructor
    · intro apart
      have ends : ordinal = span.stop := by
        simp only [PageSpan.contains, Bool.and_eq_false_iff, decide_eq_false_iff_not] at apart
        omega
      cases there : index.span? (span.page + 1) with
      | none =>
        have := listed.ends valid there
        omega
      | some next =>
        obtain ⟨also, _, first, _⟩ := listed.adjoins valid there
        exact ⟨rfl, next, OrdinalIndex.mem_spans.mpr also, first.trans ends.symm⟩
    · rintro ⟨_, page, member, rfl⟩
      obtain ⟨_, _, _, filled, _⟩ := valid.span_spec (OrdinalIndex.mem_spans.mp member)
      by_contra holds
      rw [Bool.not_eq_false] at holds
      have own : page.contains page.first = true := by
        rw [PageSpan.contains, decide_eq_true (Nat.le_refl _), decide_eq_true filled, Bool.and_true]
      obtain rfl := valid.eq_of_contains (OrdinalIndex.mem_spans.mpr listed) member holds own
      exact Nat.lt_irrefl _ behind

end Arrival

namespace LeafCursor

variable {image : Bytes} {readers : List LeafReader} {reader : LeafReader} {index : OrdinalIndex} {span : PageSpan}
  {cursor : LeafCursor} {arrival : Option Arrival}

/-- A cursor to which calls lead from a new one, all of which succeed, and how it has come to its row. Each call may
find another session that serves the leaves. A read without rows changes nothing about it. -/
inductive Led (image : Bytes) (readers : List LeafReader) (reader : LeafReader) : Option Arrival → LeafCursor → Prop
  | new (options : CursorOptions) : Led image readers reader none { reader, options }
  | seek {arrival : Option Arrival} {session mid : Session} {cursor after : LeafCursor} {value : Unit}
      (serves : Serves image readers session) (led : Led image readers reader arrival cursor) (call : SeekCall)
      (run : call.run (session, cursor) = .ok value (mid, after)) : Led image readers reader (some .sought) after
  | read {arrival : Option Arrival} {session mid : Session} {cursor after : LeafCursor} (call : ReadCall)
      {read : RowsRead} {filled : call.σ} (serves : Serves image readers session)
      (led : Led image readers reader arrival cursor)
      (run : next call.count (session, cursor, call.sink) = .ok read (mid, after, filled)) :
      Led image readers reader (if read.rows = 0 then arrival else some .read) after

/-- Where a cursor is, as it has come there: still without a page, or on the page of its row or of the row it has
read last. -/
def Come (reader : LeafReader) (image : Bytes) (index : OrdinalIndex) (cursor : LeafCursor) : Option Arrival → Prop
  | none => cursor.reader = reader ∧ cursor.page = none ∧ cursor.seeked = false
  | some arrival => ∃ span, cursor.Rests reader image index span ∧ arrival.OnPage reader.rows cursor.ordinal span

theorem Come.placed (come : Come reader image index cursor arrival) : cursor.Placed reader image index := by
  cases arrival with
  | none => exact ⟨come.1, .inl come.2⟩
  | some arrival =>
    obtain ⟨span, rests, _⟩ := come
    exact rests.placed

variable (whole : reader.Whole image) (member : reader ∈ readers) (listed : reader.indexIn image = .ok index)

include whole member listed

/-- A seek leads to the page of its row. -/
theorem Come.seek_row {session : Session} (serves : Serves image readers session)
    (placed : cursor.Placed reader image index) {row : Nat} {value : Unit} {state : Session × LeafCursor}
    (run : seek row (session, cursor) = .ok value state) : Come reader image index state.2 (some .sought) := by
  obtain ⟨within, rfl, span, rests, contains, _⟩ := placed.seek_ok whole member listed serves run
  refine ⟨span, rests, fun below => ?_⟩
  rwa [seekRow, if_neg (Nat.ne_of_lt below)] at contains

theorem Come.seek {session : Session} (serves : Serves image readers session)
    (placed : cursor.Placed reader image index) (call : SeekCall) {value : Unit} {state : Session × LeafCursor}
    (run : call.run (session, cursor) = .ok value state) : Come reader image index state.2 (some .sought) := by
  cases call with
  | first =>
    obtain ⟨valid, _⟩ := LeafReader.indexIn_valid listed
    obtain ⟨span, other, after, run', there, ordinal, rests, _⟩ :=
      seekFirst_rests whole member listed serves placed.reader_eq
    cases run.symm.trans run'
    obtain ⟨_, first, _, filled, _⟩ := valid.span_spec there
    rw [valid.startOf_zero] at first
    refine ⟨span, rests, fun _ => ?_⟩
    rw [PageSpan.contains, Bool.and_eq_true, decide_eq_true_eq, decide_eq_true_eq]
    dsimp only
    omega
  | row ordinal => exact Come.seek_row whole member listed serves placed run
  | pageStart =>
    rw [SeekCall.run] at run
    cases open_ : cursor.page with
    | none =>
      rw [seekPageStart_of_none open_] at run
      cases run
    | some page =>
      rw [seekPageStart_of_some open_] at run
      exact Come.seek_row whole member listed serves placed run

/-- A read leads to the page of its last row, or it changes nothing. -/
theorem Come.read {session mid : Session} {after : LeafCursor} (serves : Serves image readers session)
    (come : Come reader image index cursor arrival) (call : ReadCall) {read : RowsRead} {filled : call.σ}
    (run : next call.count (session, cursor, call.sink) = .ok read (mid, after, filled)) :
    Come reader image index after (if read.rows = 0 then arrival else some .read) := by
  obtain ⟨valid, _⟩ := LeafReader.indexIn_valid listed
  obtain ⟨span, rests, passes⟩ := come.placed.next_ok whole member listed serves run
  obtain ⟨last, on, follows, behind⟩ := passes.rests
  have moved := passes.ordinal
  dsimp only at moved follows
  split
  · rename_i none
    obtain same : after.ordinal = cursor.ordinal := by omega
    rw [same, rests.listed.spansUpTo_eq_nil valid (rests.bounds valid).2.1] at follows
    obtain rfl := on.listed.unique rests.listed follows
    cases arrival with
    | none =>
      obtain ⟨_, page, _⟩ := come
      obtain ⟨_, _, _, open_, _⟩ := rests.page_eq
      cases page.symm.trans open_
    | some arrival =>
      obtain ⟨other, rests', came⟩ := come
      obtain rfl := rests.unique rests'
      rw [← same] at came
      exact ⟨_, on, came⟩
  · rename_i some
    exact ⟨last, on, behind (Nat.pos_of_ne_zero some)⟩

/-- On a leaf whose segment holds all of its rows a cursor has come to its page as its calls tell. -/
theorem Led.come (led : Led image readers reader arrival cursor) : Come reader image index cursor arrival := by
  induction led with
  | new options => exact ⟨rfl, rfl, rfl⟩
  | seek serves _ call run ih => exact Come.seek whole member listed serves ih.placed call run
  | read call serves _ run ih => exact ih.read whole member listed serves call run

end LeafCursor

/-- Going to the start of a page, for a leaf of which a scan has delivered all rows. A cursor that calls have led to
a row, all of which succeeded, goes to the first row of the page that is open. This is the page of the row itself,
unless the rows in front of it have been read up to the end of a page: then it is still that page. A new cursor has
no page to go to the start of. -/
theorem LeafReader.pageStart_of_arrival {options : ReaderOptions} {column : ColumnMeta} {rows : Nat} {file : String}
    {key : LeafKey} {reader : LeafReader}
    (created : LeafReader.create options column.own rows file key = .ok reader) {fresh : Batch}
    (made : Batch.ofColumn column = .ok fresh) {image : Bytes} {readers : List LeafReader}
    (member : reader ∈ readers) {session : Session} (serves : Serves image readers session)
    {cursorOptions : CursorOptions} {started : Session × LeafCursor}
    (starts : LeafCursor.seekFirst (session, { reader, options := cursorOptions }) = .ok () started)
    {finished : Session × LeafCursor × Batch} (drains : LeafCursor.Drains (started.1, started.2, fresh) finished) :
    ∃ index, reader.indexIn image = .ok index ∧ ∀ cursor other, Serves image readers other →
      (LeafCursor.Led image readers reader none cursor →
        LeafCursor.seekPageStart (other, cursor) = .error .noPageLoaded (other, cursor)) ∧
      ∀ arrival, LeafCursor.Led image readers reader (some arrival) cursor → cursor.ordinal < rows →
        ∃ span ∈ index.spans, ∃ state, LeafCursor.seekPageStart (other, cursor) = .ok () state ∧
          state.2.ordinal = span.first ∧
          (∀ page ∈ index.spans, page.contains (arrival.row cursor.ordinal) = true ↔ page = span) ∧
          (span.contains cursor.ordinal = false ↔ arrival = .read ∧ ∃ page ∈ index.spans,
            page.first = cursor.ordinal) := by
  obtain ⟨rfl, some, _, delivered, taken⟩ := taken_of_scan created made member serves starts drains
  have whole := whole_of_taken taken some
  obtain ⟨index, listed⟩ := whole.listed
  obtain ⟨valid, all⟩ := indexIn_valid listed
  refine ⟨index, listed, fun cursor other serving => ⟨fun led => ?_, fun arrival led below => ?_⟩⟩
  · obtain ⟨_, none, _⟩ := led.come whole member listed
    rw [LeafCursor.seekPageStart, bind_apply, get_apply]
    simp only [none]
    rfl
  · obtain ⟨span, rests, came⟩ := led.come whole member listed
    have inside := (rests.bounds valid).2.1
    obtain ⟨state, run, start, _⟩ := rests.pageStart_ok member listed serving
    have among := OrdinalIndex.mem_spans.mpr rests.listed
    have holds := came.contains_row inside below
    rw [← all] at came below
    refine ⟨span, among, state, run, start, fun page also => ⟨valid.eq_of_contains among also holds, ?_⟩,
      came.contains_eq_false_iff valid rests.listed inside below⟩
    rintro rfl
    exact holds

/-- The two rows of the first page are read. -/
theorem splitReader_readPage : ∃ mid cursor read last after filled,
    LeafCursor.seekFirst (splitSession, { reader := splitReader }) = .ok () (mid, cursor) ∧
      LeafCursor.next 2 (mid, cursor, splitRows) = .ok read (last, after, filled) ∧ read.rows = 2 ∧
      after.ordinal = 2 :=
  ⟨_, _, _, _, _, _, by cbv, by cbv, by cbv, by cbv⟩

def splitIndex : OrdinalIndex := ⟨[⟨0, 0, 35⟩, ⟨2, 35, 35⟩], 4⟩

theorem splitReader_listed : splitReader.indexIn splitSession.store.image = .ok splitIndex := by
  cbv

theorem splitIndex_spans : splitIndex.spans = [⟨0, 0, 2, 0, 35⟩, ⟨1, 2, 4, 35, 35⟩] := by
  cbv

theorem splitReader_led {mid last : Session} {cursor after : LeafCursor} {read : RowsRead} {filled : Batch}
    (first : LeafCursor.seekFirst (splitSession, { reader := splitReader }) = .ok () (mid, cursor))
    (run : LeafCursor.next 2 (mid, cursor, splitRows) = .ok read (last, after, filled)) (rows : read.rows = 2) :
    Serves splitSession.store.image [splitReader] last ∧
      LeafCursor.Led splitSession.store.image [splitReader] splitReader (some .read) after := by
  have start : LeafCursor.Led splitSession.store.image [splitReader]
    splitReader none { reader := splitReader } := .new {}
  obtain ⟨_, _, _, first', _, _, rests, visits⟩ := LeafCursor.seekFirst_rests splitReader_whole List.mem_cons_self
    splitReader_listed splitSession_serves (start.come splitReader_whole List.mem_cons_self splitReader_listed).1
  cases first.symm.trans first'
  have led := LeafCursor.Led.read ⟨2, splitRows⟩ visits.serves (.seek splitSession_serves start .first first) run
  rw [if_neg (by omega)] at led
  obtain ⟨_, _, passes⟩ := rests.placed.next_ok splitReader_whole List.mem_cons_self splitReader_listed
    visits.serves run
  exact ⟨passes.visits.serves, led⟩

/-- Behind the rows of the first page the cursor goes to the start of the page that holds the last of them. -/
theorem LeafReader.pageStart_of_arrival_split :
    ∃ started finished, LeafCursor.seekFirst (splitSession, { reader := splitReader }) = .ok () started ∧
      LeafCursor.Drains (started.1, started.2, splitRows) finished ∧
      ∃ cursor, LeafCursor.Led splitSession.store.image [splitReader] splitReader (some .read) cursor ∧
        cursor.ordinal = 2 ∧ 2 < 4 ∧ ∃ span ∈ splitIndex.spans, ∃ state,
          LeafCursor.seekPageStart (splitSession, cursor) = .ok () state ∧ state.2.ordinal = span.first ∧
          (∀ page ∈ splitIndex.spans, page.contains 1 = true ↔ page = span) ∧ span.contains 2 = false := by
  obtain ⟨started, finished, starts, drains, _⟩ := splitReader_scan
  obtain ⟨mid, cursor, read, last, after, filled, first, reads, rows, ordinal⟩ := splitReader_readPage
  have led := (splitReader_led first reads rows).2
  obtain ⟨index, listed, calls⟩ :=
    LeafReader.pageStart_of_arrival splitReader_created splitColumn_made List.mem_cons_self
    splitSession_serves starts drains
  cases splitReader_listed.symm.trans listed
  obtain ⟨span, among, state, goes, start, unique, apart⟩ :=
    (calls after splitSession splitSession_serves).2 .read led (by omega)
  rw [ordinal] at unique apart
  refine ⟨started, finished, starts, drains, after, led, ordinal, by decide, span, among, state, goes, start,
    unique, ?_⟩
  exact apart.mpr ⟨rfl, ⟨1, 2, 4, 35, 35⟩, by simp [splitIndex_spans], rfl⟩

/-- The start of the page is not told by the row alone: with row 2 coming next, the first of its page, a cursor that
has read the rows in front of it goes back to row 0, and one that has been moved to it stays there. A new cursor
goes nowhere. -/
theorem splitReader_pageStart_by_arrival :
    (∃ started finished, LeafCursor.seekFirst (splitSession, { reader := splitReader }) = .ok () started ∧
      LeafCursor.Drains (started.1, started.2, splitRows) finished) ∧
    (∃ index, splitReader.indexIn splitSession.store.image = .ok index ∧
      ∃ span ∈ index.spans, span.contains 2 = true ∧ span.first = 2) ∧
    (∃ mid cursor read last after filled state,
      LeafCursor.seekFirst (splitSession, { reader := splitReader }) = .ok () (mid, cursor) ∧
      LeafCursor.next 2 (mid, cursor, splitRows) = .ok read (last, after, filled) ∧ after.ordinal = 2 ∧
      LeafCursor.seekPageStart (last, after) = .ok () state ∧ state.2.ordinal = 0) ∧
    (∃ mid after state, LeafCursor.seek 2 (splitSession, { reader := splitReader }) = .ok () (mid, after) ∧
      after.ordinal = 2 ∧ LeafCursor.seekPageStart (mid, after) = .ok () state ∧ state.2.ordinal = 2) ∧
    LeafCursor.seekPageStart (splitSession, { reader := splitReader }) =
      .error .noPageLoaded (splitSession, { reader := splitReader }) := by
  obtain ⟨started, finished, starts, drains, _⟩ := splitReader_scan
  refine ⟨⟨started, finished, starts, drains⟩,
    ⟨_, splitReader_listed, ⟨1, 2, 4, 35, 35⟩, by simp [splitIndex_spans], rfl, rfl⟩, ?_, ?_, rfl⟩
  · obtain ⟨mid, cursor, read, last, after, filled, first, reads, rows, ordinal⟩ := splitReader_readPage
    obtain ⟨serves, led⟩ := splitReader_led first reads rows
    obtain ⟨span, rests, behind⟩ := led.come splitReader_whole List.mem_cons_self splitReader_listed
    obtain ⟨state, goes, start, _⟩ := rests.pageStart_ok List.mem_cons_self splitReader_listed serves
    refine ⟨mid, cursor, read, last, after, filled, state, first, reads, ordinal, goes, ?_⟩
    have among := OrdinalIndex.mem_spans.mpr rests.listed
    simp only [Arrival.OnPage, ordinal] at behind
    simp only [splitIndex_spans, List.mem_cons, List.not_mem_nil, or_false] at among
    rcases among with rfl | rfl
    · exact start
    · exact absurd behind (by decide)
  · have closed : Option.any (·.contains (LeafCursor.seekRow splitReader 2))
      (LeafCursor.page { reader := splitReader }) =
      false := rfl
    obtain ⟨span, mid, after, run, contains, ordinal, rests, visits⟩ := LeafCursor.seek_elsewhere splitReader_whole
      List.mem_cons_self splitReader_listed splitSession_serves rfl (show 2 ≤ splitReader.rows by decide) closed
    obtain ⟨state, goes, start, _⟩ := rests.pageStart_ok List.mem_cons_self splitReader_listed visits.serves
    refine ⟨mid, after, state, run, ordinal, goes, ?_⟩
    have among := OrdinalIndex.mem_spans.mpr rests.listed
    simp only [splitIndex_spans, List.mem_cons, List.not_mem_nil, or_false] at among
    rcases among with rfl | rfl
    · cases contains
    · exact start

end Columnar
