import Mathlib
import Columnar.Proofs.LeafReads
import Columnar.Proofs.SinkIntakes

namespace Columnar

open Columnar.Action Session

namespace Batch

/-- Two batches for the same kind of flat rows, whatever rows they have. -/
def SameShape : Batch → Batch → Prop
  | fixed a, fixed b => a.type = b.type ∧ a.width = b.width ∧ a.nullable = b.nullable
  | bytes a, bytes b => a.type = b.type ∧ a.nullable = b.nullable
  | fixed _, _ | bytes _, _ | array .., _ => False

/-- A batch made for a flat column is empty and takes its rows, and so does any batch of its shape. -/
theorem ofColumn_fits {column : ColumnMeta} (flat : column.own.type ≠ .array) {fresh : Batch}
    (made : ofColumn column = .ok fresh) :
    fresh.flatRows = [] ∧ (intake column.own.type column.own.isNullable).Fits fresh ∧
      ∀ sink : Batch, sink.SameShape fresh → (intake column.own.type column.own.isNullable).Fits sink := by
  obtain ⟨own, children⟩ := column
  cases size : own.type.fixedSize? with
  | some width =>
    have notVar : own.type.isVarSize = false := by
      cases kind : own.type <;> simp [kind, ColumnType.fixedSize?] at size <;> rfl
    have buffer : Batch.fixed { type := own.type, width, nullable := own.isNullable } = fresh := by
      unfold ofColumn at made
      split at made
      · exact absurd ‹_› flat
      · simpa [notVar, FixedBuffer.create, size, Functor.map, Except.map] using made
    subst buffer
    rw [intake_eq_fixed size]
    refine ⟨rfl, ⟨_, ⟨rfl, rfl, rfl⟩, rfl⟩, fun sink shape => ?_⟩
    cases sink with
    | fixed buffer => exact ⟨buffer, shape, rfl⟩
    | bytes buffer => cases shape
    | array rows items => cases shape
  | none =>
    have varSize : own.type.isVarSize = true := by
      cases kind : own.type <;> simp [kind, ColumnType.fixedSize?] at size flat <;> rfl
    have buffer : Batch.bytes { type := own.type, nullable := own.isNullable } = fresh := by
      unfold ofColumn at made
      split at made
      · exact absurd ‹_› flat
      · simpa [varSize] using made
    subst buffer
    rw [intake_eq_bytes size]
    refine ⟨rfl, ⟨_, ⟨rfl, rfl⟩, rfl⟩, fun sink shape => ?_⟩
    cases sink with
    | fixed buffer => cases shape
    | bytes buffer => exact ⟨buffer, shape, rfl⟩
    | array rows items => cases shape

end Batch

theorem take_isNull {type : ColumnType} {nullable : Bool} {slot : Slot} {row : Option Bytes}
    (taken : (Batch.intake type nullable).take slot = some row) : slot.isNull = row.isNone := by
  cases size : type.fixedSize? with
  | some width =>
    rw [Batch.intake_eq_fixed size] at taken
    cases slot with
    | missing => cases taken
    | null =>
      have known : (if nullable then some none else none : Option (Option Bytes)) = some row := taken
      split at known <;> cases known
      rfl
    | value stored =>
      have known : (if stored.length = width then some (some stored) else none) = some row := taken
      split at known <;> cases known
      rfl
  | none =>
    rw [Batch.intake_eq_bytes size] at taken
    cases slot with
    | missing => cases taken
    | null =>
      have known : (if nullable then some none else none : Option (Option Bytes)) = some row := taken
      split at known <;> cases known
      rfl
    | value stored =>
      cases taken
      rfl

/-- A layout for the values of a type. -/
def Coding.For (type : ColumnType) : Coding → Prop
  | .packed width => type.fixedSize? = some width
  | .bits => type.fixedSize? = some 1
  | .strings | .words => type.fixedSize? = none ∧ type ≠ .array

theorem Coding.resolve_spec {type : ColumnType} {encoding : Encoding} {coding : Coding}
    (found : Coding.resolve type encoding = .ok coding) : coding.For type := by
  unfold Coding.resolve at found
  split at found
  · cases found
  · rename_i codec
    have notArray : type ≠ .array := by
      rintro rfl
      exact codec rfl
    split at found
    · cases found
      cases size : type.fixedSize? with
      | some width => exact size
      | none => exact ⟨size, notArray⟩
    · split at found
      · rename_i boolean
        cases found
        rw [boolean]
        rfl
      · cases found
    · split at found
      · rename_i text
        cases found
        refine ⟨?_, notArray⟩
        cases type <;> first | rfl | cases text
      · cases found
    · cases found

/-- A leaf that is checked keeps its metadata, and its layout fits its type. -/
theorem create_spec {options : ReaderOptions} {column : LeafMeta} {rows : Nat} {file : String} {key : LeafKey}
    {reader : LeafReader} (created : LeafReader.create options column rows file key = .ok reader) :
    reader.column = column ∧ reader.rows = rows ∧ reader.access.key = key ∧
      Coding.resolve column.type column.encoding = .ok reader.coding := by
  unfold LeafReader.create at created
  obtain ⟨coding, resolved, created⟩ := bind_eq_ok created
  dsimp only at created
  split at created
  · cases created
  · obtain ⟨indexes, _, created⟩ := bind_eq_ok created
    split at created
    · cases created
    · cases created
      refine ⟨rfl, rfl, rfl, ?_⟩
      cases found : Coding.resolve column.type column.encoding with
      | ok other => simpa [found, Except.mapError] using resolved
      | error error => simp [found, Except.mapError] at resolved

/-- The values of a leaf are of the kind that a batch for its rows takes. -/
theorem suits_of_resolve {type : ColumnType} {encoding : Encoding} {coding : Coding}
    (found : Coding.resolve type encoding = .ok coding) (nullable : Bool) :
    type ≠ .array ∧ LeafCursor.Suits (Batch.intake type nullable) coding := by
  have fits := Coding.resolve_spec found
  cases coding with
  | packed width =>
    refine ⟨(by rintro rfl; cases fits), fun values kind => ?_⟩
    rw [Batch.intake_eq_fixed fits]
    cases values <;> cases kind
    exact rfl
  | bits =>
    refine ⟨(by rintro rfl; cases fits), fun values kind => ?_⟩
    rw [Batch.intake_eq_fixed fits]
    cases values <;> cases kind
    exact rfl
  | strings =>
    refine ⟨fits.2, fun values kind => ?_⟩
    rw [Batch.intake_eq_bytes fits.1]
    cases values <;> cases kind
    exact rfl
  | words =>
    refine ⟨fits.2, fun values kind => ?_⟩
    rw [Batch.intake_eq_bytes fits.1]
    cases values <;> cases kind <;> exact rfl

/-- A call on a leaf. Each read has a batch of its own. -/
inductive LeafCall where
  | toFirst
  | toRow (ordinal : Nat)
  | toPageStart
  | read (count : Nat) (sink : Batch)

namespace LeafCall

/-- What a call does to the cursor. -/
def run : LeafCall → Action (Session × LeafCursor) Unit
  | toFirst => LeafCursor.seekFirst
  | toRow ordinal => LeafCursor.seek ordinal
  | toPageStart => LeafCursor.seekPageStart
  | read count sink => fun (session, cursor) =>
    match LeafCursor.next count (session, cursor, sink) with
    | .ok _ (session, cursor, _) => .ok () (session, cursor)
    | .error error (session, cursor, _) => .error error (session, cursor)

def runAll : List LeafCall → Action (Session × LeafCursor) Unit
  | [] => pure ()
  | call :: rest => do
    call.run
    runAll rest

/-- A call succeeds and does what it should, where the leaf has certain rows. There is no place beyond the end. -/
def Answers (rows : List (Option Bytes)) (state : Session × LeafCursor) : LeafCall → Prop
  | toFirst => ∃ after, LeafCursor.seekFirst state = .ok () after ∧ after.2.ordinal = 0
  | toRow ordinal =>
    if ordinal ≤ rows.length then ∃ after, LeafCursor.seek ordinal state = .ok () after ∧ after.2.ordinal = ordinal
    else ∃ error, LeafCursor.seek ordinal state = .error error state ∧ error.cause = .notFound
  | toPageStart => ∃ page after, state.2.page = some page ∧ LeafCursor.seekPageStart state = .ok () after ∧
    after.2.ordinal = page.first
  | read count sink => ∃ after, LeafCursor.next count (state.1, state.2, sink) =
      .ok ⟨((rows.drop state.2.ordinal).take count).length,
        ((rows.drop state.2.ordinal).take count).any Option.isNone⟩ after ∧
    after.2.2.flatRows = sink.flatRows ++ (rows.drop state.2.ordinal).take count ∧
    after.2.1.ordinal = min (state.2.ordinal + count) rows.length

/-- A call that moves to a row. -/
def opens : LeafCall → Bool
  | toFirst | toRow _ => true
  | toPageStart | read .. => false

/-- A read is into a batch of the shape of another. -/
def Shaped (fresh : Batch) : LeafCall → Prop
  | read _ sink => sink.SameShape fresh
  | toFirst | toRow _ | toPageStart => True

/-- A seek is to a row of a column with so many rows, or behind the last one. -/
def Within (rows : Nat) : LeafCall → Prop
  | toRow ordinal => ordinal ≤ rows
  | toFirst | toPageStart | read .. => True

end LeafCall

/-- Reads one after the other, up to one that finds no row. -/
inductive LeafCursor.Drains : Session × LeafCursor × Batch → Session × LeafCursor × Batch → Prop where
  | done {state after : Session × LeafCursor × Batch} (count : Nat) {read : RowsRead} (positive : 0 < count)
      (run : LeafCursor.next count state = .ok read after) (none : read.rows = 0) : Drains state after
  | more {state mid after : Session × LeafCursor × Batch} (count : Nat) {read : RowsRead} (positive : 0 < count)
      (run : LeafCursor.next count state = .ok read mid) (some : 0 < read.rows) (rest : Drains mid after) :
      Drains state after

section Scan

variable {image : Bytes} {readers : List LeafReader} {reader : LeafReader} {type : ColumnType} {nullable : Bool}

/-- Reads up to the end append all rows from the place on. -/
theorem LeafCursor.Drains.delivers (suits : LeafCursor.Suits (Batch.intake type nullable) reader.coding)
    (member : reader ∈ readers) {state after : Session × LeafCursor × Batch}
    (drains : LeafCursor.Drains state after) {place : Nat} (serves : Serves image readers state.1)
    (at_ : state.2.1.At reader image place) (fits : (Batch.intake type nullable).Fits state.2.2) :
    Serves image readers after.1 ∧ ∃ more, ((reader.slots image).drop place).mapM
      (Batch.intake type nullable).take = some more ∧
      (Batch.intake type nullable).Grown state.2.2 more after.2.2 := by
  induction drains generalizing place with
  | @done state after count read positive run none =>
    obtain ⟨more, expected, served, _, grown, told⟩ :=
      (LeafCursor.next_meets suits member serves at_ count fits).of_ok run
    refine ⟨served, more, ?_, grown⟩
    have past : reader.rows - place = 0 := by
      rw [told] at none
      have : min count (reader.rows - place) = 0 := none
      omega
    have empty : (reader.slots image).drop place = [] :=
      List.drop_eq_nil_of_le (by rw [reader.length_slots]; omega)
    rw [empty, List.take_nil] at expected
    rwa [empty]
  | @more state mid after count read positive run some rest ih =>
    obtain ⟨first, expected, served, at_, grown, _⟩ :=
      (LeafCursor.next_meets suits member serves at_ count fits).of_ok run
    obtain ⟨last, more, others, grownLater⟩ := ih served at_ grown.1
    refine ⟨last, first ++ more, ?_, grown.trans grownLater⟩
    have behind : ((reader.slots image).drop place).drop count =
        (reader.slots image).drop (place + min count (reader.rows - place)) := by
      rw [List.drop_drop]
      rcases Nat.le_total count (reader.rows - place) with inside | beyond
      · rw [Nat.min_eq_left inside]
      · have length := reader.length_slots image
        rw [List.drop_eq_nil_of_le (by omega), List.drop_eq_nil_of_le (by omega)]
    rw [← List.take_append_drop count ((reader.slots image).drop place), mapM_append_some, expected, behind, others]
    rfl

variable {rows : List (Option Bytes)}
  (taken : (reader.slots image).mapM (Batch.intake type nullable).take = some rows)

include taken

theorem length_of_taken : rows.length = reader.rows := by
  rw [← reader.length_slots image, ← List.length_map some, ← mapM_eq_some_iff.mp taken, List.length_map]

/-- On a leaf all of whose rows are taken a read appends the rows from the place on. -/
theorem LeafCursor.next_of_taken (suits : LeafCursor.Suits (Batch.intake type nullable) reader.coding)
    (member : reader ∈ readers) {session : Session} (serves : Serves image readers session) {cursor : LeafCursor}
    {place : Nat} (at_ : cursor.At reader image place) (count : Nat) {sink : Batch}
    (fits : (Batch.intake type nullable).Fits sink) :
    ∃ mid after filled, LeafCursor.next count (session, cursor, sink) =
        .ok ⟨((rows.drop place).take count).length, ((rows.drop place).take count).any Option.isNone⟩
          (mid, after, filled) ∧
      Serves image readers mid ∧ after.At reader image (min (place + count) rows.length) ∧
      (Batch.intake type nullable).Grown sink ((rows.drop place).take count) filled := by
  have reads := LeafCursor.next_meets suits member serves at_ count fits
  have part := mapM_slice taken place count
  rw [part] at reads
  obtain ⟨read, ⟨mid, after, filled⟩, run, serving, there, grown, told⟩ := reads.exists_ok
  have length := length_of_taken taken
  have bound := at_.within.2
  have stop : place + min count (reader.rows - place) = min (place + count) rows.length := by omega
  have many : min count (reader.rows - place) = ((rows.drop place).take count).length := by
    rw [List.length_take, List.length_drop, length]
  rw [stop] at there
  rw [many, any_of_mapM part fun slot row => take_isNull] at told
  exact ⟨mid, after, filled, by rw [run, told], serving, there, grown⟩

omit taken in
/-- A call that moves to a row of the column leads there, wherever the cursor is. -/
theorem LeafCall.run_of_ready (whole : reader.Whole image) (member : reader ∈ readers) {session : Session}
    (serves : Serves image readers session) {cursor : LeafCursor} (ready : cursor.Ready reader image)
    {call : LeafCall} (opens : call.opens) (within : call.Within reader.rows) :
    ∃ mid after place, call.run (session, cursor) = .ok () (mid, after) ∧ Serves image readers mid ∧
      after.At reader image place := by
  cases call with
  | toFirst =>
    obtain ⟨mid, after, run, serving, there⟩ := LeafCursor.seekFirst_spec whole member serves ready.reader_eq
    exact ⟨mid, after, 0, run, serving, there⟩
  | toRow ordinal =>
    obtain ⟨mid, after, run, serving, there⟩ := LeafCursor.seek_spec whole member serves ready within
    exact ⟨mid, after, ordinal, run, serving, there⟩
  | toPageStart => cases opens
  | read count sink => cases opens

/-- A call within the column leads from one place to another. -/
theorem LeafCall.run_of_at (suits : LeafCursor.Suits (Batch.intake type nullable) reader.coding)
    (whole : reader.Whole image) (member : reader ∈ readers) {session : Session}
    (serves : Serves image readers session) {cursor : LeafCursor} {place : Nat} (at_ : cursor.At reader image place)
    {call : LeafCall} (within : call.Within reader.rows)
    (fits : ∀ count sink, call = .read count sink → (Batch.intake type nullable).Fits sink) :
    ∃ mid after place, call.run (session, cursor) = .ok () (mid, after) ∧ Serves image readers mid ∧
      after.At reader image place := by
  cases call with
  | toFirst => exact run_of_ready whole member serves at_.ready rfl within
  | toRow ordinal => exact run_of_ready whole member serves at_.ready rfl within
  | toPageStart =>
    obtain ⟨page, mid, after, _, run, serving, there⟩ := LeafCursor.seekPageStart_spec whole member serves at_
    exact ⟨mid, after, page.first, run, serving, there⟩
  | read count sink =>
    obtain ⟨mid, after, filled, run, serving, there, _⟩ :=
      LeafCursor.next_of_taken taken suits member serves at_ count (fits count sink rfl)
    exact ⟨mid, after, _, by simp only [LeafCall.run, run], serving, there⟩

theorem LeafCall.runAll_of_at (suits : LeafCursor.Suits (Batch.intake type nullable) reader.coding)
    (whole : reader.Whole image) (member : reader ∈ readers) {session : Session}
    (serves : Serves image readers session) {cursor : LeafCursor} {place : Nat} (at_ : cursor.At reader image place)
    {calls : List LeafCall} (within : ∀ call ∈ calls, call.Within reader.rows)
    (fits : ∀ call ∈ calls, ∀ count sink, call = .read count sink → (Batch.intake type nullable).Fits sink) :
    ∃ mid after place, runAll calls (session, cursor) = .ok () (mid, after) ∧ Serves image readers mid ∧
      after.At reader image place := by
  induction calls generalizing session cursor place with
  | nil => exact ⟨session, cursor, place, rfl, serves, at_⟩
  | cons call rest ih =>
    obtain ⟨mid, after, next, run, serving, there⟩ := run_of_at taken suits whole member serves at_
      (within call List.mem_cons_self) (fits call List.mem_cons_self)
    rw [runAll, bind_apply, run]
    exact ih serving there (fun other among => within other (List.mem_cons_of_mem _ among))
      fun other among => fits other (List.mem_cons_of_mem _ among)

/-- A call that moves to a row answers as it should, wherever the cursor is. -/
theorem LeafCall.answers_of_ready (whole : reader.Whole image) (member : reader ∈ readers) {session : Session}
    (serves : Serves image readers session) {cursor : LeafCursor} (ready : cursor.Ready reader image)
    {call : LeafCall} (opens : call.opens) : call.Answers rows (session, cursor) := by
  cases call with
  | toFirst =>
    obtain ⟨mid, after, run, _, there⟩ := LeafCursor.seekFirst_spec whole member serves ready.reader_eq
    exact ⟨_, run, there.ordinal⟩
  | toRow ordinal =>
    rw [Answers, length_of_taken taken]
    split
    · rename_i within
      obtain ⟨mid, after, run, _, there⟩ := LeafCursor.seek_spec whole member serves ready within
      exact ⟨_, run, there.ordinal⟩
    · rename_i beyond
      exact ⟨_, LeafCursor.seek_beyond (by rw [ready.reader_eq]; exact Nat.lt_of_not_le beyond) session, rfl⟩
  | toPageStart => cases opens
  | read count sink => cases opens

/-- On a leaf all of whose rows are taken each call answers as it should from each place. -/
theorem LeafCall.answers_of_at (suits : LeafCursor.Suits (Batch.intake type nullable) reader.coding)
    (whole : reader.Whole image) (member : reader ∈ readers) {session : Session}
    (serves : Serves image readers session) {cursor : LeafCursor} {place : Nat} (at_ : cursor.At reader image place)
    {call : LeafCall} (fits : ∀ count sink, call = .read count sink → (Batch.intake type nullable).Fits sink) :
    call.Answers rows (session, cursor) := by
  cases call with
  | toFirst => exact answers_of_ready taken whole member serves at_.ready rfl
  | toRow ordinal => exact answers_of_ready taken whole member serves at_.ready rfl
  | toPageStart =>
    obtain ⟨page, mid, after, held, run, _, there⟩ := LeafCursor.seekPageStart_spec whole member serves at_
    exact ⟨page, _, held, run, there.ordinal⟩
  | read count sink =>
    obtain ⟨mid, after, filled, run, _, there, grown⟩ :=
      LeafCursor.next_of_taken taken suits member serves at_ count (fits count sink rfl)
    rw [← at_.ordinal] at run there grown
    refine ⟨(mid, after, filled), run, ?_, there.ordinal⟩
    rw [← Batch.intake_rows type nullable]
    exact grown.2

end Scan

/-- A full scan of a leaf delivers as many rows as the leaf has, and from then on every cursor that first seeks a
row answers every call as the scanned rows tell. -/
theorem LeafReader.reads_match_scan {options : ReaderOptions} {column : ColumnMeta} {rows : Nat} {file : String}
    {key : LeafKey} {reader : LeafReader}
    (created : LeafReader.create options column.own rows file key = .ok reader) {fresh : Batch}
    (made : Batch.ofColumn column = .ok fresh) {image : Bytes} {session : Session}
    (serves : Serves image [reader] session) {cursorOptions : CursorOptions} {started : Session × LeafCursor}
    (starts : LeafCursor.seekFirst (session, { reader, options := cursorOptions }) = .ok () started)
    {finished : Session × LeafCursor × Batch} (drains : LeafCursor.Drains (started.1, started.2, fresh) finished) :
    finished.2.2.flatRows.length = rows ∧ Serves image [reader] finished.1 ∧
      ∀ other, Serves image [reader] other → ∀ (cursorOptions : CursorOptions) (before : List LeafCall)
        (call : LeafCall), ((before ++ [call]).head?.any LeafCall.opens) →
        (∀ earlier ∈ before, earlier.Within rows) → (∀ any ∈ before ++ [call], any.Shaped fresh) →
        ∃ state, LeafCall.runAll before (other, { reader, options := cursorOptions }) = .ok () state ∧
          call.Answers finished.2.2.flatRows state := by
  obtain ⟨_, rfl, _, resolved⟩ := create_spec created
  obtain ⟨flat, suits⟩ := suits_of_resolve resolved column.own.isNullable
  obtain ⟨empty, fits, shaped⟩ := Batch.ofColumn_fits flat made
  have member : reader ∈ [reader] := List.mem_cons_self
  obtain ⟨_, first, serving, at_⟩ := (LeafCursor.seekFirst_meets member serves rfl).of_ok starts
  have some := at_.within.1
  obtain ⟨served, delivered, taken, _, grown⟩ := drains.delivers suits member serving at_ fits
  rw [List.drop_zero] at taken
  have found : finished.2.2.flatRows = delivered := by
    rw [Batch.intake_rows] at grown
    rw [grown, empty, List.nil_append]
  rw [found]
  have whole := LeafReader.whole_of_taken taken some
  refine ⟨length_of_taken taken, served, fun other serves cursorOptions before call opens within shapes => ?_⟩
  have takes : ∀ any ∈ before ++ [call], ∀ count sink, any = .read count sink →
      (Batch.intake column.own.type column.own.isNullable).Fits sink := by
    rintro _ among count sink rfl
    exact shaped sink (shapes _ among)
  have ready : LeafCursor.Ready reader image { reader, options := cursorOptions } := ⟨rfl, .inl rfl⟩
  cases before with
  | nil => exact ⟨_, rfl, LeafCall.answers_of_ready taken whole member serves ready opens⟩
  | cons start rest =>
    obtain ⟨mid, after, place, run, serving, there⟩ :=
      LeafCall.run_of_ready whole member serves ready opens (within start List.mem_cons_self)
    have onward : ∀ later ∈ rest, later.Within reader.rows := fun later among =>
      within later (List.mem_cons_of_mem _ among)
    obtain ⟨last, stopped, place, runs, served, there⟩ :=
      LeafCall.runAll_of_at taken suits whole member serving there
      onward fun later among => takes later (List.mem_cons_of_mem _ (List.mem_append_left _ among))
    refine ⟨(last, stopped), ?_, LeafCall.answers_of_at taken suits whole member served there
      (takes call (List.mem_append_right _ List.mem_cons_self))⟩
    rw [LeafCall.runAll, bind_apply, run]
    exact runs

/-- A column of three small integers, the second of which is null, in one page. -/
def smallColumn : ColumnMeta where
  own :=
    { columnId := 1, type := .integer .tiny, isNullable := true, rows := 3, indexes := [.ordinal ⟨0, 37⟩ true] }

def smallPage : Page := ⟨[5, 7, 3, 2], .data (.ofStored 0 3 2 0)⟩

/-- The checksum of the page is left out. -/
def smallSession : Session := { store := { image := smallPage.covered ++ [0, 0, 0, 0] } }

def smallReader : LeafReader where
  column := smallColumn.own
  rows := 3
  access := { file := "small", options := { verifyChecksum := false } }
  coding := .packed 1
  indexes := { ordinal := some (⟨0, 37⟩, true) }

def smallRows : Batch := .fixed { type := .integer .tiny, width := 1, nullable := true }

theorem smallSession_serves : Serves smallSession.store.image [smallReader] smallSession :=
  serves_of_fresh (.plain rfl) [] (by simp)

theorem smallReader_scan :
    ∃ started finished, LeafCursor.seekFirst (smallSession, { reader := smallReader }) = .ok () started ∧
      LeafCursor.Drains (started.1, started.2, smallRows) finished ∧
      finished.2.2.flatRows = [some [5], none, some [7]] :=
  ⟨_, _, by cbv, .more 2 (by decide) (by cbv) (by cbv) (.more 2 (by decide) (by cbv) (by cbv)
    (.done 2 (by decide) (by cbv) (by cbv))), by cbv⟩

theorem LeafReader.reads_match_scan_small :
    ∃ started finished, LeafCursor.seekFirst (smallSession, { reader := smallReader }) = .ok () started ∧
      LeafCursor.Drains (started.1, started.2, smallRows) finished ∧
      finished.2.2.flatRows = [some [5], none, some [7]] ∧
      ∃ state, LeafCall.runAll [.toRow 3, .toRow 1] (smallSession, { reader := smallReader }) = .ok () state ∧
        (LeafCall.read 5 smallRows).Answers finished.2.2.flatRows state := by
  obtain ⟨started, finished, starts, drains, rows⟩ := smallReader_scan
  have created : LeafReader.create { verifyChecksum := false } smallColumn.own 3 "small" [] =
    .ok smallReader := by cbv
  have made : Batch.ofColumn smallColumn = .ok smallRows := by cbv
  have matched := LeafReader.reads_match_scan created made smallSession_serves starts drains
  refine ⟨started, finished, starts, drains, rows, ?_⟩
  refine matched.2.2 smallSession smallSession_serves {} [.toRow 3, .toRow 1] (.read 5 smallRows) rfl ?_ ?_
  · simp [LeafCall.Within]
  · simp [LeafCall.Shaped, smallRows, Batch.SameShape]

/-- A cursor that has no page open has no page to go to the start of, although the leaf can be scanned. -/
theorem smallReader_pageStart_fails :
    (∃ started finished, LeafCursor.seekFirst (smallSession, { reader := smallReader }) = .ok () started ∧
      LeafCursor.Drains (started.1, started.2, smallRows) finished) ∧
    LeafCall.runAll [.toPageStart] (smallSession, { reader := smallReader }) =
      .error .noPageLoaded (smallSession, { reader := smallReader }) := by
  obtain ⟨started, finished, starts, drains, _⟩ := smallReader_scan
  exact ⟨⟨started, finished, starts, drains⟩, rfl⟩

end Columnar
