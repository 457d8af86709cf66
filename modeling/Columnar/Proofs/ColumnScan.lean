import Columnar.Proofs.ColumnSeeks
import Columnar.Proofs.CreatedColumns

namespace Columnar

open Columnar.Action Session

/-- A call on a column and the batch that it is read into. -/
inductive ColumnCall where
  | toFirst
  | toRow (ordinal : Nat)
  | read (count : Nat)
  /-- The rows that come are read into a batch of their own. -/
  | renew
  deriving DecidableEq, Repr

namespace ColumnCall

/-- What a call does to the cursor and the batch. -/
def run (fresh : Batch) : ColumnCall → Action (Session × ColumnCursor × Batch) Unit
  | toFirst => onFirstTwo ColumnCursor.seekFirst
  | toRow ordinal => onFirstTwo (ColumnCursor.seek ordinal)
  | read count => do
    let _ ← ColumnCursor.next count
    return ()
  | renew => modify fun (session, cursor, _) => (session, cursor, fresh)

def runAll (fresh : Batch) : List ColumnCall → Action (Session × ColumnCursor × Batch) Unit
  | [] => pure ()
  | call :: rest => do
    call.run fresh
    runAll fresh rest

/-- A call succeeds and does what it should, where the column has certain rows. -/
def Answers (rows : List RowValue) (state : Session × ColumnCursor × Batch) : ColumnCall → Prop
  | toFirst => ∃ after, onFirstTwo ColumnCursor.seekFirst state = .ok () after ∧ after.2.1.ordinal = 0
  | toRow ordinal => ∃ after, onFirstTwo (ColumnCursor.seek ordinal) state = .ok () after ∧
      after.2.1.ordinal = ordinal
  | read count => ∃ read after, ColumnCursor.next count state = .ok read after ∧
    read.rows = ((rows.drop state.2.1.ordinal).take count).length ∧
    after.2.2.rowValues = state.2.2.rowValues ++ (rows.drop state.2.1.ordinal).take count ∧
    after.2.1.ordinal = state.2.1.ordinal + read.rows
  | renew => True

/-- A call that moves to a row. -/
def opens : ColumnCall → Bool
  | toFirst | toRow _ => true
  | read _ | renew => false

/-- A seek is to a row of a column with so many rows, or behind the last one. -/
def Within (rows : Nat) : ColumnCall → Prop
  | toRow ordinal => ordinal ≤ rows
  | toFirst | read _ | renew => True

end ColumnCall

/-- Reads one after the other, up to one that finds no row. -/
inductive ColumnCursor.Drains : Session × ColumnCursor × Batch → Session × ColumnCursor × Batch → Prop where
  | done {state after : Session × ColumnCursor × Batch} (count : Nat) {read : RowsRead} (positive : 0 < count)
      (run : ColumnCursor.next count state = .ok read after) (none : read.rows = 0) : Drains state after
  | more {state mid after : Session × ColumnCursor × Batch} (count : Nat) {read : RowsRead} (positive : 0 < count)
      (run : ColumnCursor.next count state = .ok read mid) (some : 0 < read.rows) (rest : Drains mid after) :
      Drains state after

/-- What a full scan of a column delivers decides what every call comes to on a cursor that first seeks a row. -/
def ColumnReader.ScanDecides (reader : ColumnReader) (fresh : Batch) (image : Bytes) : Prop :=
  ∀ session, Serves image reader.leaves session → ∀ (options : CursorOptions) (started : Session × ColumnCursor),
    ColumnCursor.seekFirst (session, .ofReader options reader) = .ok () started →
    ∀ finished, ColumnCursor.Drains (started.1, started.2, fresh) finished →
      finished.2.2.rowValues.length = reader.rows ∧
      ∀ other, Serves image reader.leaves other → ∀ (options : CursorOptions) (before : List ColumnCall)
        (call : ColumnCall), ((before ++ [call]).head?.any ColumnCall.opens) →
        (∀ any ∈ before ++ [call], any.Within reader.rows) →
        ∃ state, ColumnCall.runAll fresh before (other, .ofReader options reader, fresh) = .ok () state ∧
          call.Answers finished.2.2.rowValues state

section Scan

variable {image : Bytes} {readers : List LeafReader} {reader : ColumnReader} (suited : reader.Suited)
  (members : ∀ leaf ∈ reader.leaves, leaf ∈ readers) (consistent : reader.Consistent image)

include suited members consistent

/-- Reads up to the end append all rows from the place on. -/
theorem ColumnCursor.Drains.delivers {state after : Session × ColumnCursor × Batch}
    (drains : ColumnCursor.Drains state after) {place : Nat} (serves : Serves image readers state.1)
    (at_ : state.2.1.At image reader place) (takes : reader.Takes state.2.2) :
    ∃ more, reader.slice image place (reader.rows - place) = some more ∧
      after.2.2.rowValues = state.2.2.rowValues ++ more := by
  induction drains generalizing place with
  | @done state after count read positive run none =>
    obtain ⟨more, taken, _, _, _, grown, told⟩ :=
      (at_.reads suited consistent.summable members _ serves count _ takes).of_ok run
    have length := ColumnReader.length_slice taken
    have past : reader.rows - place = 0 := by omega
    have empty : more = [] := List.length_eq_zero_iff.mp (by omega)
    rw [empty] at grown
    rw [past]
    exact ⟨[], at_.slice_zero, grown⟩
  | @more state mid after count read positive run some rest ih =>
    obtain ⟨first, taken, served, there, kept, grown, told⟩ :=
      (at_.reads suited consistent.summable members _ serves count _ takes).of_ok run
    obtain ⟨others, behind, grownLater⟩ := ih served there kept
    have length := ColumnReader.length_slice taken
    rw [ColumnReader.slice_min, ← length] at taken
    have parts : reader.rows - place = first.length + (reader.rows - (place + first.length)) := by omega
    refine ⟨first ++ others, ?_, ?_⟩
    · rw [parts]
      exact (ColumnReader.splits image reader _ _ _ _).mpr ⟨first, others, taken, behind, rfl⟩
    · rw [grownLater, grown, List.append_assoc]

variable {rows : List RowValue} (whole : reader.slice image 0 reader.rows = some rows)

include whole

/-- On a column all of whose rows are there a call answers as it should and leads to a place again. A cursor that is
not at a place yet has to seek a row first. -/
theorem ColumnCall.run_spec {fresh : Batch} (empty : reader.Takes fresh) {state : Session × ColumnCursor × Batch}
    (serves : Serves image readers state.1) (ready : state.2.1.Ready image reader) (takes : reader.Takes state.2.2)
    {call : ColumnCall} (placed : call.opens ∨ ∃ place, state.2.1.At image reader place)
    (within : call.Within reader.rows) :
    call.Answers rows state ∧ ∃ after, call.run fresh state = .ok () after ∧ Serves image readers after.1 ∧
      (∃ place, after.2.1.At image reader place) ∧ reader.Takes after.2.2 := by
  obtain ⟨session, cursor, sink⟩ := state
  cases call with
  | toFirst =>
    obtain ⟨mid, after, run, serving, there⟩ :=
      ColumnCursor.seekFirstFrom_spec consistent members whole serves ready
    have moved : onFirstTwo ColumnCursor.seekFirst (session, cursor, sink) = .ok () (mid, after, sink) := by
      rw [onFirstTwo, ColumnCursor.seekFirst]
      dsimp only
      rw [run]
      rfl
    exact ⟨⟨_, moved, there.ordinal_eq⟩, _, moved, serving, ⟨0, there⟩, takes⟩
  | toRow ordinal =>
    obtain ⟨mid, after, run, serving, there⟩ :=
      ColumnCursor.seekFrom_spec suited consistent members whole serves ready within
    have moved : onFirstTwo (ColumnCursor.seek ordinal) (session, cursor, sink) = .ok () (mid, after, sink) := by
      rw [onFirstTwo, ColumnCursor.seek]
      dsimp only
      rw [run]
      rfl
    exact ⟨⟨_, moved, there.ordinal_eq⟩, _, moved, serving, ⟨ordinal, there⟩, takes⟩
  | read count =>
    obtain opens | ⟨place, at_⟩ := placed
    · cases opens
    · have reads := at_.reads suited consistent.summable members _ serves count _ takes
      rw [ColumnReader.slice_of_whole whole at_.le_rows count] at reads
      obtain ⟨read, ⟨mid, after, filled⟩, run, serving, there, kept, grown, told⟩ := reads.exists_ok
      rw [← at_.ordinal_eq] at there grown told
      refine ⟨⟨read, (mid, after, filled), run, told, grown, ?_⟩, (mid, after, filled), ?_, serving,
        ⟨_, there⟩, kept⟩
      · rw [told]
        exact there.ordinal_eq
      · have reads : ColumnCursor.next count (session, cursor, sink) = .ok read (mid, after, filled) := run
        rw [ColumnCall.run, bind_apply, reads]
        rfl
  | renew =>
    obtain opens | ⟨place, at_⟩ := placed
    · cases opens
    · exact ⟨trivial, _, rfl, serves, ⟨place, at_⟩, empty⟩

theorem ColumnCall.runAll_spec {fresh : Batch} (empty : reader.Takes fresh) {state : Session × ColumnCursor × Batch}
    (serves : Serves image readers state.1) (ready : state.2.1.Ready image reader) (takes : reader.Takes state.2.2)
    {before : List ColumnCall} {call : ColumnCall}
    (placed : (before ++ [call]).head?.any ColumnCall.opens ∨ ∃ place, state.2.1.At image reader place)
    (within : ∀ any ∈ before ++ [call], any.Within reader.rows) :
    ∃ mid, runAll fresh before state = .ok () mid ∧ call.Answers rows mid := by
  induction before generalizing state with
  | nil =>
    obtain ⟨answers, _⟩ := run_spec suited members consistent whole empty serves ready takes placed
      (within call List.mem_cons_self)
    exact ⟨state, rfl, answers⟩
  | cons first rest ih =>
    obtain ⟨_, mid, run, serving, ⟨place, there⟩, kept⟩ :=
      run_spec suited members consistent whole empty serves ready takes
      placed (within first List.mem_cons_self)
    rw [runAll, bind_apply, run]
    exact ih serving there.ready kept (.inr ⟨place, there⟩) fun any among =>
      within any (List.mem_cons_of_mem _ among)

end Scan

/-- Where flags take a byte each, or are byte strings, a full scan decides what every call comes to. -/
theorem ColumnReader.scanDecides_of_flagSized {options : ReaderOptions} {file : String} {column : ColumnMeta}
    {rows : Nat} {key : LeafKey} {reader : ColumnReader}
    (created : create options file column rows key = .ok reader) {fresh : Batch}
    (made : Batch.ofColumn column = .ok fresh) {image : Bytes} (flags : reader.FlagsIn ColumnType.FlagSized)
    (consistent : reader.Consistent image) : reader.ScanDecides fresh image := by
  obtain ⟨suited, takes, empty⟩ := create_suited created made flags
  have members : ∀ leaf ∈ reader.leaves, leaf ∈ reader.leaves := fun _ member => member
  intro session serves options started starts finished drains
  obtain ⟨serving, at_⟩ :=
    ColumnCursor.seekFirstFrom_ok members serves (ColumnCursor.ofReader_ready options reader) starts
  obtain ⟨found, whole, grown⟩ := drains.delivers suited members consistent serving at_ takes
  rw [Nat.sub_zero] at whole
  have delivered : finished.2.2.rowValues = found := by rw [grown, empty, List.nil_append]
  rw [delivered]
  refine ⟨?_, fun other serves options before call opens within => ?_⟩
  · rw [ColumnReader.length_slice whole, Nat.sub_zero, Nat.min_self]
  · exact ColumnCall.runAll_spec suited members consistent whole takes serves
      (ColumnCursor.ofReader_ready options reader) takes (.inl opens) within

end Columnar
