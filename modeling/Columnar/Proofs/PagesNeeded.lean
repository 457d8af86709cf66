import Columnar.Proofs.LeafPlaces
import Columnar.Proofs.LeafScan

namespace Columnar

open Columnar.Action Session

/-- Up to the end of the column these are all of its pages. -/
theorem OrdinalIndex.Valid.spansUpTo_rows {index : OrdinalIndex} (valid : index.Valid) :
    index.spansUpTo 0 index.rows = index.spans := by
  rw [spansUpTo, List.drop_zero, List.takeWhile_eq_self_iff]
  intro span member
  obtain ⟨_, _, _, filled, bound⟩ := valid.span_spec (mem_spans.mp member)
  exact decide_eq_true (Nat.lt_of_lt_of_le filled bound)

/-- No page holds rows between a place and one that is not behind it. -/
theorem OrdinalIndex.holding_eq_nil (index : OrdinalIndex) (page : Nat) {start stop : Nat} (none : stop ≤ start) :
    index.holding page start stop = [] := by
  simp [holding, Nat.sub_eq_zero_of_le none]

/-- A leaf of which a scan has delivered all rows has rows, and a batch for its column takes all of them. -/
theorem LeafReader.taken_of_scan {options : ReaderOptions} {column : ColumnMeta} {rows : Nat} {file : String}
    {key : LeafKey} {reader : LeafReader}
    (created : LeafReader.create options column.own rows file key = .ok reader) {fresh : Batch}
    (made : Batch.ofColumn column = .ok fresh) {image : Bytes} {readers : List LeafReader}
    (member : reader ∈ readers) {session : Session} (serves : Serves image readers session)
    {cursorOptions : CursorOptions} {started : Session × LeafCursor}
    (starts : LeafCursor.seekFirst (session, { reader, options := cursorOptions }) = .ok () started)
    {finished : Session × LeafCursor × Batch} (drains : LeafCursor.Drains (started.1, started.2, fresh) finished) :
    reader.rows = rows ∧ 0 < reader.rows ∧
      LeafCursor.Suits (Batch.intake column.own.type column.own.isNullable) reader.coding ∧
      ∃ taken, (reader.slots image).mapM (Batch.intake column.own.type column.own.isNullable).take =
        some taken := by
  obtain ⟨_, count, _, resolved⟩ := create_spec created
  obtain ⟨flat, suits⟩ := suits_of_resolve resolved column.own.isNullable
  obtain ⟨_, fits, _⟩ := Batch.ofColumn_fits flat made
  obtain ⟨_, first, serving, at_⟩ := (LeafCursor.seekFirst_meets member serves rfl).of_ok starts
  obtain ⟨_, delivered, taken, _⟩ := drains.delivers suits member serving at_ fits
  exact ⟨count, at_.within.1, suits, delivered, by rwa [List.drop_zero] at taken⟩

namespace LeafCursor

variable {image : Bytes} {readers : List LeafReader} {reader : LeafReader} {index : OrdinalIndex} {span : PageSpan}
  {cursor : LeafCursor} {pages : List PageSpan} {start state : Session × LeafCursor}

/-- Some data pages have been opened on the way from a state to another one, one after the other: each of them has
been read, and no other data page. -/
structure Decodes (pages : List PageSpan) (start state : Session × LeafCursor) : Prop where
  decoded : state.2.pagesDecoded = start.2.pagesDecoded + pages.length
  takes : Takes (pages.map start.2.dataRead) start.1 state.1
  traced : start.1.store.kind = .plain →
    state.1.store.trace.filter readsData = (pages.map start.2.dataRead).reverse ++
      start.1.store.trace.filter readsData

theorem Visits.decodes (visits : Visits image readers pages start state) : Decodes pages start state :=
  ⟨visits.decoded, visits.takes, fun plain => visits.takes.trace plain⟩

section Calls

variable (whole : reader.Whole image) (member : reader ∈ readers) (listed : reader.indexIn image = .ok index)
  {session : Session} (serves : Serves image readers session)

include whole member listed serves

/-- A seek that succeeds opens the page of its row, unless that is open. -/
theorem Placed.seek_decodes (placed : cursor.Placed reader image index) {row : Nat} {value : Unit}
    (run : seek row (session, cursor) = .ok value state) :
    if cursor.page.any (·.contains (seekRow reader row)) then Decodes [] (session, cursor) state
    else ∃ span ∈ index.spans, span.contains (seekRow reader row) = true ∧
      Decodes [span] (session, cursor) state := by
  obtain ⟨_, _, span, rests, contains, visits⟩ := placed.seek_ok whole member listed serves run
  split
  · rename_i here
    rw [if_pos here] at visits
    exact visits.decodes
  · rename_i apart
    rw [if_neg apart] at visits
    exact ⟨span, OrdinalIndex.mem_spans.mpr rests.listed, contains, visits.decodes⟩

/-- A read that succeeds opens the pages behind the open one that hold its rows. -/
theorem Placed.next_decodes {σ : Type} [Sink σ] (placed : cursor.Placed reader image index) {count : Nat}
    {sink filled : σ} {read : RowsRead} {mid : Session} {after : LeafCursor}
    (run : next count (session, cursor, sink) = .ok read (mid, after, filled)) :
    ∃ page ∈ cursor.page,
      Decodes (index.holding page.page cursor.ordinal (min (cursor.ordinal + count) reader.rows))
      (session, cursor) (mid, after) := by
  obtain ⟨valid, rows⟩ := LeafReader.indexIn_valid listed
  obtain ⟨span, rests, passes⟩ := placed.next_ok whole member listed serves run
  obtain ⟨_, inside, bound⟩ := rests.bounds valid
  obtain ⟨_, page, _, open_, _⟩ := rests.page_eq
  obtain ⟨number, _⟩ := rests.page_spec open_
  have many := passes.rows
  have stop : after.ordinal = min (cursor.ordinal + count) reader.rows := by
    have moved := passes.ordinal
    dsimp only at moved many
    omega
  have opened := passes.visits.decodes
  dsimp only at opened
  rw [stop, rests.listed.spansUpTo_eq_holding valid inside, ← number] at opened
  exact ⟨page, open_, opened⟩

end Calls

/-- Reads one after the other open the pages behind the open one, each page once, up to the row where they end. -/
theorem runAll_reads_visits {type : ColumnType} {nullable : Bool} {rows : List (Option Bytes)}
    (taken : (reader.slots image).mapM (Batch.intake type nullable).take = some rows)
    (suits : Suits (Batch.intake type nullable) reader.coding) (whole : reader.Whole image)
    (member : reader ∈ readers) (listed : reader.indexIn image = .ok index) {session : Session}
    (serves : Serves image readers session) {place : Nat} (at_ : cursor.At reader image place)
    (rests : cursor.Rests reader image index span) {reads : List (Nat × Batch)}
    (fits : ∀ read ∈ reads, (Batch.intake type nullable).Fits read.2) :
    ∃ state, LeafCall.runAll (reads.map fun read => .read read.1 read.2) (session, cursor) = .ok () state ∧
      state.2.ordinal = min (cursor.ordinal + (reads.map Prod.fst).sum) reader.rows ∧
      Visits image readers (index.spansUpTo (span.page + 1) state.2.ordinal) (session, cursor) state := by
  obtain ⟨valid, all⟩ := LeafReader.indexIn_valid listed
  induction reads generalizing session cursor place span with
  | nil =>
    obtain ⟨_, inside, bound⟩ := rests.bounds valid
    refine ⟨(session, cursor), rfl, ?_, ?_⟩
    · simp only [List.map_nil, List.sum_nil]
      omega
    · rw [rests.listed.spansUpTo_eq_nil valid inside]
      exact .refl serves
  | cons read rest ih =>
    obtain ⟨mid, after, filled, run, serving, there, _⟩ :=
      next_of_taken taken suits member serves at_ read.1 (fits read List.mem_cons_self)
    have passes := next_rests whole member listed serves rests read.1 read.2
    rw [run] at passes
    obtain ⟨last, on, follows, _⟩ := passes.rests
    obtain ⟨state, runs, stop, visits⟩ := ih serving there on fun read among =>
      fits read (List.mem_cons_of_mem _ among)
    obtain ⟨_, inside, bound⟩ := rests.bounds valid
    have many := passes.rows
    have moved := passes.ordinal
    dsimp only at many moved follows
    rw [List.map_cons, List.map_cons, List.sum_cons]
    have order : after.ordinal ≤ state.2.ordinal := by omega
    refine ⟨state, ?_, by omega, ?_⟩
    · have step : (LeafCall.read read.1 read.2).run (session, cursor) = .ok () (mid, after) := by
        simp only [LeafCall.run, run]
      rw [LeafCall.runAll, bind_apply, step]
      exact runs
    · have pages := index.spansUpTo_append (span.page + 1) order
      have onward : span.page + 1 + (index.spansUpTo (span.page + 1) after.ordinal).length =
        last.page + 1 := by omega
      rw [onward] at pages
      rw [← pages]
      exact passes.visits.trans visits

end LeafCursor

/-- Data pages are read as needed. On a leaf of which a scan has delivered all rows, whatever has been called on a
cursor before: a seek that succeeds opens the page of its row, unless that is open, and a read that succeeds opens
the pages behind the open one that hold its rows. A scan with a new cursor opens each page once, whatever the sizes
of its reads are. -/
theorem LeafReader.pages_read_as_needed {options : ReaderOptions} {column : ColumnMeta} {rows : Nat} {file : String}
    {key : LeafKey} {reader : LeafReader}
    (created : LeafReader.create options column.own rows file key = .ok reader) {fresh : Batch}
    (made : Batch.ofColumn column = .ok fresh) {image : Bytes} {readers : List LeafReader}
    (member : reader ∈ readers) {session : Session} (serves : Serves image readers session)
    {cursorOptions : CursorOptions} {started : Session × LeafCursor}
    (starts : LeafCursor.seekFirst (session, { reader, options := cursorOptions }) = .ok () started)
    {finished : Session × LeafCursor × Batch} (drains : LeafCursor.Drains (started.1, started.2, fresh) finished) :
    ∃ index, reader.indexIn image = .ok index ∧
      (∀ cursor other, LeafCursor.Reached image readers reader cursor → Serves image readers other →
        (∀ ordinal state, LeafCursor.seek ordinal (other, cursor) = .ok () state →
          if cursor.page.any (·.contains (LeafCursor.seekRow reader ordinal)) then LeafCursor.Decodes []
            (other, cursor) state
          else ∃ span ∈ index.spans, span.contains (LeafCursor.seekRow reader ordinal) = true ∧
            LeafCursor.Decodes [span] (other, cursor) state) ∧
        ∀ (call : ReadCall) read mid after filled,
          LeafCursor.next call.count (other, cursor, call.sink) = .ok read (mid, after, filled) →
          (∃ page ∈ cursor.page, LeafCursor.Decodes
            (index.holding page.page cursor.ordinal (min (cursor.ordinal + call.count) rows)) (other, cursor)
            (mid, after)) ∧
          (call.count = 0 ∨ cursor.ordinal = rows → LeafCursor.Decodes [] (other, cursor) (mid, after))) ∧
      ∀ other, Serves image readers other → ∀ (cursorOptions : CursorOptions) (reads : List (Nat × Batch)),
        (∀ read ∈ reads, read.2.SameShape fresh) → rows ≤ (reads.map Prod.fst).sum →
        ∃ state, LeafCall.runAll (.toFirst :: reads.map fun read => .read read.1 read.2)
            (other, { reader, options := cursorOptions }) = .ok () state ∧
          state.2.ordinal = rows ∧ state.2.pagesDecoded = index.pages.length ∧
          LeafCursor.Decodes index.spans (other, { reader, options := cursorOptions }) state := by
  obtain ⟨rfl, some, suits, delivered, taken⟩ := taken_of_scan created made member serves starts drains
  have whole := whole_of_taken taken some
  obtain ⟨index, listed⟩ := whole.listed
  obtain ⟨valid, all⟩ := indexIn_valid listed
  obtain ⟨flat, _⟩ := suits_of_resolve (create_spec created).2.2.2 column.own.isNullable
  obtain ⟨_, _, shaped⟩ := Batch.ofColumn_fits flat made
  refine ⟨index, listed, fun cursor other reached serving => ⟨?_, ?_⟩, ?_⟩
  · intro ordinal state run
    exact (reached.placed whole member listed).seek_decodes whole member listed serving run
  · intro call read mid after filled run
    obtain ⟨page, open_, decodes⟩ :=
      (reached.placed whole member listed).next_decodes whole member listed serving run
    refine ⟨⟨page, open_, decodes⟩, fun none => ?_⟩
    rwa [index.holding_eq_nil page.page (by omega)] at decodes
  · intro other serving cursorOptions reads shapes enough
    have same : LeafCursor.reader { reader, options := cursorOptions } = reader := rfl
    obtain ⟨span, mid, after, run, there, start, rests, visits⟩ :=
      LeafCursor.seekFirst_rests whole member listed serving same
    obtain ⟨_, _, _, at_⟩ := (LeafCursor.seekFirst_meets member serving rfl).of_ok run
    obtain ⟨state, runs, stop, others⟩ :=
      LeafCursor.runAll_reads_visits taken suits whole member listed visits.serves at_ rests
        fun read among => shaped read.2 (shapes read among)
    obtain ⟨number, first, _, filled, bound⟩ := valid.span_spec there
    have ends : state.2.ordinal = index.rows := by
      rw [stop, start]
      omega
    have pages : [span] ++ index.spansUpTo (span.page + 1) state.2.ordinal = index.spans := by
      rw [ends, number, ← valid.spansUpTo_rows,
        OrdinalIndex.spansUpTo_eq_cons there (Nat.lt_of_lt_of_le filled bound)]
      rfl
    have decodes := (visits.trans others).decodes
    rw [pages] at decodes
    refine ⟨state, ?_, by rw [ends, all], ?_, decodes⟩
    · rw [LeafCall.runAll, bind_apply, LeafCall.run, run]
      exact runs
    · rw [decodes.decoded, index.length_spans]
      exact Nat.zero_add _

/-- A column of four small integers in two pages. -/
def splitColumn : ColumnMeta where
  own := { columnId := 1, type := .integer .tiny, rows := 4, indexes := [.ordinal ⟨70, 53⟩ false] }

/-- The pages that begin with the rows 0 and 2. -/
def splitPages : Page where
  body := [0, 2].flatMap fun first => Bytes.ofNat 8 first ++ Bytes.ofNat 8 (first / 2 * 35) ++ Bytes.ofNat 4 35
  footer := .index 2

/-- The checksums of the pages are left out. -/
def splitImage : Bytes :=
  Page.covered ⟨[5, 6], .data (.ofStored 0 2 0 0)⟩ ++ [0, 0, 0, 0] ++
    (Page.covered ⟨[7, 8], .data (.ofStored 2 2 0 0)⟩ ++ [0, 0, 0, 0]) ++ (splitPages.covered ++ [0, 0, 0, 0])

def splitSession : Session := { store := { image := splitImage } }

def splitReader : LeafReader where
  column := splitColumn.own
  rows := 4
  access := { file := "split", options := { verifyChecksum := false } }
  coding := .packed 1
  indexes := { ordinal := some (⟨70, 53⟩, false) }

def splitRows : Batch := .fixed { type := .integer .tiny, width := 1, nullable := false }

theorem splitSession_serves : Serves splitSession.store.image [splitReader] splitSession :=
  serves_of_fresh (.plain rfl) [] (by simp)

theorem splitReader_created :
    LeafReader.create { verifyChecksum := false } splitColumn.own 4 "split" [] = .ok splitReader := by
  cbv

theorem splitColumn_made : Batch.ofColumn splitColumn = .ok splitRows := by
  cbv

theorem splitReader_scan :
    ∃ started finished, LeafCursor.seekFirst (splitSession, { reader := splitReader }) = .ok () started ∧
      LeafCursor.Drains (started.1, started.2, splitRows) finished ∧
      finished.2.2.flatRows = [some [5], some [6], some [7], some [8]] :=
  ⟨_, _, by cbv, .more 3 (by decide) (by cbv) (by cbv) (.more 3 (by decide) (by cbv) (by cbv)
    (.done 3 (by decide) (by cbv) (by cbv))), by cbv⟩

theorem splitReader_whole : splitReader.Whole splitSession.store.image := by
  obtain ⟨_, _, starts, drains, _⟩ := splitReader_scan
  obtain ⟨_, some, _, _, taken⟩ := LeafReader.taken_of_scan splitReader_created splitColumn_made List.mem_cons_self
    splitSession_serves starts drains
  exact LeafReader.whole_of_taken taken some

/-- A seek to the last row opens the second page, and a scan by two, one and seven rows opens both pages once. -/
theorem LeafReader.pages_read_as_needed_split :
    ∃ started finished, LeafCursor.seekFirst (splitSession, { reader := splitReader }) = .ok () started ∧
      LeafCursor.Drains (started.1, started.2, splitRows) finished ∧
      ∃ index, splitReader.indexIn splitSession.store.image = .ok index ∧ index.pages.length = 2 ∧
        (∃ state, LeafCursor.seek 3 (splitSession, { reader := splitReader }) = .ok () state ∧
          ∃ span ∈ index.spans, span.contains 3 = true ∧
            LeafCursor.Decodes [span] (splitSession, { reader := splitReader }) state) ∧
        ∃ state, LeafCall.runAll [.toFirst, .read 2 splitRows, .read 1 splitRows, .read 7 splitRows]
            (splitSession, { reader := splitReader }) = .ok () state ∧
          state.2.ordinal = 4 ∧ state.2.pagesDecoded = index.pages.length := by
  obtain ⟨started, finished, starts, drains, _⟩ := splitReader_scan
  obtain ⟨index, listed, calls, scans⟩ := LeafReader.pages_read_as_needed splitReader_created splitColumn_made
    List.mem_cons_self splitSession_serves starts drains
  have pages : splitReader.indexIn splitSession.store.image = .ok ⟨[⟨0, 0, 35⟩, ⟨2, 35, 35⟩], 4⟩ := by cbv
  have ready : LeafCursor.Ready splitReader splitSession.store.image { reader := splitReader } := ⟨rfl, .inl rfl⟩
  obtain ⟨mid, after, run, _⟩ := LeafCursor.seek_spec splitReader_whole List.mem_cons_self splitSession_serves ready
    (show 3 ≤ splitReader.rows by decide)
  have seeks := (calls { reader := splitReader } splitSession (.new {}) splitSession_serves).1 3 (mid, after) run
  obtain ⟨last, runs, ordinal, decoded, _⟩ := scans splitSession splitSession_serves {}
    [(2, splitRows), (1, splitRows), (7, splitRows)] (by simp [splitRows, Batch.SameShape]) (by decide)
  refine ⟨started, finished, starts, drains, index, listed, ?_, ⟨_, run, seeks⟩, last, runs, ordinal, decoded⟩
  cases pages.symm.trans listed
  rfl

end Columnar
