import Columnar.Proofs.ArrayReads

namespace Columnar

open Columnar.Action Session

namespace ColumnReader

/-- The leaves of a column. -/
def leaves : ColumnReader → List LeafReader
  | leaf reader => [reader]
  | array items lengths flags => items.leaves ++ lengths :: flags.toList

theorem leaves_array {items : ColumnReader} {lengths : LeafReader} {flags : Option LeafReader}
    {readers : List LeafReader} (members : ∀ leaf ∈ (array items lengths flags).leaves, leaf ∈ readers) :
    (∀ leaf ∈ items.leaves, leaf ∈ readers) ∧ lengths ∈ readers ∧ ∀ reader ∈ flags, reader ∈ readers := by
  refine ⟨fun leaf among => members leaf (List.mem_append_left _ among),
    members lengths (List.mem_append_right _ List.mem_cons_self), fun reader held => ?_⟩
  exact members reader (List.mem_append_right _ (List.mem_cons_of_mem _ (Option.mem_toList.mpr held)))

/-- The values of the leaves are of the kind that a batch for the column takes. -/
def Suited : ColumnReader → Prop
  | leaf reader => LeafCursor.Suits (Batch.intake reader.column.type reader.column.isNullable) reader.coding
  | array items lengths flags => items.Suited ∧ OffsetBuffer.create lengths.column.type =
    .ok { type := lengths.column.type } ∧
    LeafCursor.Suits (OffsetBuffer.intake lengths.column.type) lengths.coding ∧
    ∀ reader ∈ flags, LeafCursor.Suits (FixedBuffer.intake .boolean 1 false) reader.coding

/-- A batch has the shape of the column, and its array rows have their items. -/
def Takes : ColumnReader → Batch → Prop
  | leaf reader, batch => (Batch.intake reader.column.type reader.column.isNullable).Fits batch
  | array items lengths flags, .array rows batch => items.Takes batch ∧ ∃ sizes nulls,
    rows.Counts lengths.column.type flags.isSome sizes nulls ∧ rows.bounds = ArrayRows.stretchesOf sizes ∧
    batch.rowValues.length = total sizes
  | array .., _ => False

end ColumnReader

namespace Batch

/-- Array rows are none of a flat column. -/
theorem not_fits_array {type : ColumnType} {nullable : Bool} {rows : ArrayRows} {items : Batch} :
    ¬(intake type nullable).Fits (array rows items) := by
  intro fits
  unfold intake at fits
  split at fits <;> obtain ⟨_, _, same⟩ := fits <;> cases same

/-- The rows of a flat batch. -/
theorem rowValues_of_fits {type : ColumnType} {nullable : Bool} {batch : Batch}
    (fits : (intake type nullable).Fits batch) : batch.rowValues = batch.flatRows.map .flat := by
  cases batch with
  | fixed buffer => rfl
  | bytes buffer => rfl
  | array rows items => exact absurd fits not_fits_array

theorem fits_reserve {type : ColumnType} {nullable : Bool} {batch : Batch}
    (fits : (intake type nullable).Fits batch) (more : Nat) : (intake type nullable).Fits (batch.reserve more) := by
  unfold intake at fits ⊢
  split at fits
  · obtain ⟨buffer, fits, rfl⟩ := fits
    exact ⟨buffer.reserve more, fits, rfl⟩
  · obtain ⟨buffer, fits, rfl⟩ := fits
    exact ⟨buffer.reserve more, fits, rfl⟩

theorem rowValues_reserve (batch : Batch) (more : Nat) : (batch.reserve more).rowValues = batch.rowValues := by
  cases batch with
  | fixed buffer => rfl
  | bytes buffer => rfl
  | array rows items =>
    have isNull (row : Nat) : (rows.reserve more).isNull row = rows.isNull row := by
      rw [ArrayRows.isNull, ArrayRows.isNull, ArrayRows.reserve]
      cases rows.flags <;> rfl
    simp only [reserve, rowValues, isNull]
    rfl

end Batch

namespace ColumnReader

variable {reader items : ColumnReader} {lengths : LeafReader} {flags : Option LeafReader}

theorem Takes.reserve {batch : Batch} (takes : reader.Takes batch) (more : Nat) :
    reader.Takes (batch.reserve more) := by
  cases reader with
  | leaf reader => exact Batch.fits_reserve takes more
  | array items lengths flags =>
    cases batch with
    | array rows inner =>
      obtain ⟨inside, sizes, nulls, counts, bounds, enough⟩ := takes
      exact ⟨inside, sizes, nulls, counts.reserve more, bounds, enough⟩
    | fixed buffer => cases takes
    | bytes buffer => cases takes

/-- Room in a batch changes none of its rows. -/
theorem Takes.ensureCapacity {batch : Batch} (takes : reader.Takes batch) (rows : Nat) :
    reader.Takes (batch.ensureCapacity rows).2 ∧ (batch.ensureCapacity rows).2.rowValues = batch.rowValues := by
  dsimp only [Batch.ensureCapacity]
  split
  · exact ⟨takes.reserve _, Batch.rowValues_reserve ..⟩
  · exact ⟨takes, rfl⟩

/-- All rows of a batch that takes those of a column can be read back. -/
theorem Takes.length {batch : Batch} (takes : reader.Takes batch) : batch.rowValues.length = batch.length := by
  cases reader with
  | leaf reader =>
    rw [Batch.rowValues_of_fits takes, List.length_map]
    cases batch with
    | fixed buffer | bytes buffer => rfl
    | array rows inner => exact absurd takes Batch.not_fits_array
  | array items lengths flags =>
    cases batch with
    | array rows inner =>
      obtain ⟨_, sizes, nulls, counts, bounds, _⟩ := takes
      rw [Batch.rowValues_array counts bounds, RowValue.length_rowsOf counts.length_nulls]
      exact counts.length.symm
    | fixed buffer => cases takes
    | bytes buffer => cases takes

/-- Array rows that are finished behind others, with their items behind those of the others. -/
theorem takes_finish {rows : ArrayRows} {batch : Batch} {sizes more : List Nat} {nulls told : List Bool}
    {before elements : List RowValue}
    (counts : rows.Counts lengths.column.type flags.isSome (sizes ++ more) (nulls ++ told))
    (bounds : rows.bounds = ArrayRows.stretchesOf sizes) (many : told.length = more.length)
    (inside : items.Takes batch) (same : batch.rowValues = before ++ elements)
    (enough : before.length = total sizes) (all : elements.length = total more) (grown : Bool) :
    (array items lengths flags).Takes (.array (rows.finish sizes.length more.length grown) batch) ∧
      (Batch.array (rows.finish sizes.length more.length grown) batch).rowValues =
        RowValue.rowsOf sizes nulls before ++ RowValue.rowsOf more told elements := by
  have finished : (rows.finish sizes.length more.length grown).Counts lengths.column.type flags.isSome
      (sizes ++ more) (nulls ++ told) := ⟨counts.type_eq, counts.fences, counts.length_nulls, counts.flags⟩
  have stretches := ArrayRows.finish_bounds counts bounds grown
  have numbers : nulls.length = sizes.length := by
    have sum := counts.length_nulls
    rw [List.length_append, List.length_append] at sum
    omega
  refine ⟨⟨inside, _, _, finished, stretches, ?_⟩, ?_⟩
  · rw [same, List.length_append, total_append, enough, all]
  · rw [Batch.rowValues_array finished stretches, same, RowValue.rowsOf_append numbers enough]

end ColumnReader

namespace ColumnCursor

/-- A cursor is at a row of its column, or behind the last one. The items of an array are at the first item of its
row. -/
inductive At (image : Bytes) : ColumnReader → (place : Nat) → ColumnCursor → Prop where
  | empty {reader : ColumnReader} (none : reader.rows = 0) : At image reader 0 empty
  | leaf {reader : LeafReader} {place : Nat} {cursor : LeafCursor} (at_ : cursor.At reader image place) :
    At image (.leaf reader) place (leaf cursor)
  | array {items : ColumnReader} {lengths : LeafReader} {flags : Option LeafReader} {place : Nat}
    {cursor : ArrayCursor} {inner : ColumnCursor} {before : List Nat}
      (placed : cursor.Placed lengths flags image place)
    (itemRows : cursor.itemRows = items.rows) (ordinal : cursor.ordinal = place)
    (known : lengths.sizesIn image 0 place = some before) (within : At image items (total before) inner) :
    At image (.array items lengths flags) place (array cursor inner)

variable {image : Bytes} {readers : List LeafReader} {reader : ColumnReader} {place : Nat} {cursor : ColumnCursor}

theorem At.ordinal_eq (at_ : cursor.At image reader place) : cursor.ordinal = place := by
  cases at_ with
  | empty none => rfl
  | leaf at_ => exact at_.ordinal
  | array placed itemRows ordinal known within => exact ordinal

theorem At.le_rows (at_ : cursor.At image reader place) : place ≤ reader.rows := by
  cases at_ with
  | empty none => exact Nat.zero_le _
  | leaf at_ => exact at_.within.2
  | array placed itemRows ordinal known within => exact placed.lengths.within.2

/-- No rows are there from each place on. -/
theorem At.slice_zero (at_ : cursor.At image reader place) : reader.slice image place 0 = some [] := by
  induction at_ with
  | empty none => exact ColumnReader.slice_start _
  | leaf at_ => rfl
  | array placed itemRows ordinal known within ih =>
    exact ColumnReader.slice_array_iff.mpr ⟨_, [], [], [], known, rfl, nullsIn_zero .., ih, rfl, rfl, rfl⟩

/-- A read has appended some rows from a place on, and the cursor is behind them. -/
structure Appended (image : Bytes) (readers : List LeafReader) (reader : ColumnReader) (place : Nat) (sink : Batch)
    (more : List RowValue) (read : RowsRead) (after : Session × ColumnCursor × Batch) : Prop where
  serves : Serves image readers after.1
  at_ : after.2.1.At image reader (place + more.length)
  takes : reader.Takes after.2.2
  grown : after.2.2.rowValues = sink.rowValues ++ more
  rows : read.rows = more.length

/-- A cursor appends the rows from a place on that the segment holds, and fails where it holds them only in part. -/
def Reads (image : Bytes) (readers : List LeafReader) (reader : ColumnReader) (place : Nat)
    (cursor : ColumnCursor) : Prop :=
  ∀ session, Serves image readers session → ∀ (count : Nat) (sink : Batch), reader.Takes sink →
    Meets (cursor.nextFrom count session sink) (reader.slice image place count)
      (Appended image readers reader place sink)

/-- A read into room that has been made for its rows finds all of them, or they are not all there. -/
theorem Reads.roomy (reads : Reads image readers reader place cursor) {session : Session}
    (serves : Serves image readers session) {batch : Batch} (takes : reader.Takes batch) (count stop : Nat)
    {run : NextResult} (outcome : Room.outcome (batch.affords stop) (fun found _ => found.rows = count)
      (session, cursor, batch) (cursor.nextFrom count session (batch.ensureCapacity stop).2) = run) :
    (∃ more found after, reader.slice image place count = some more ∧ more.length = count ∧ run = .ok found after ∧
      Appended image readers reader place batch more found after) ∨
    ((reader.slice image place count).filter fun more => more.length = count) = none ∧
      ((∃ error after, run = .error error after) ∨ ∃ found after, run = .ok found after ∧ found.rows ≠ count) := by
  obtain ⟨takesMore, same⟩ := takes.ensureCapacity stop
  have meets := reads session serves count _ takesMore
  have room := @Room.outcome_cases _ _ (batch.affords stop) (fun found _ => decide (found.rows = count))
    (session, cursor, batch) (cursor.nextFrom count session (batch.ensureCapacity stop).2)
  rw [outcome] at room
  cases next : cursor.nextFrom count session (batch.ensureCapacity stop).2 with
  | error error after =>
    rw [next] at meets room
    have refused : reader.slice image place count = none := meets
    refine .inr ⟨by rw [refused]; rfl, .inl ?_⟩
    obtain same | ⟨stopped, _⟩ := room
    · exact ⟨_, _, same⟩
    · exact ⟨_, _, stopped⟩
  | ok found after =>
    rw [next] at room
    obtain ⟨more, held, appended⟩ := meets.of_ok next
    rw [held]
    by_cases all : found.rows = count
    · obtain same' | ⟨_, short⟩ := room
      · exact .inl ⟨more, found, after, rfl, appended.rows.symm.trans all, same',
          { appended with grown := same ▸ appended.grown }⟩
      · exact absurd all (of_decide_eq_false (short _ _ rfl))
    · have fewer : more.length ≠ count := appended.rows ▸ all
      refine .inr ⟨Option.filter_some_neg (by simp [fewer]), ?_⟩
      obtain same | ⟨stopped, _⟩ := room
      · exact .inr ⟨found, after, same, all⟩
      · exact .inl ⟨_, _, stopped⟩

theorem empty_reads (none : reader.rows = 0) : Reads image readers reader 0 empty := by
  intro session serves count sink takes
  rw [ColumnReader.slice_min, none, Nat.sub_self, Nat.min_zero, ColumnReader.slice_start, nextFrom]
  exact ⟨[], rfl, serves, .empty none, takes, (List.append_nil _).symm, rfl⟩

theorem leaf_reads {reader : LeafReader}
    (suits : LeafCursor.Suits (Batch.intake reader.column.type reader.column.isNullable) reader.coding)
    (member : reader ∈ readers) {cursor : LeafCursor} (at_ : cursor.At reader image place) :
    Reads image readers (.leaf reader) place (leaf cursor) := by
  intro session serves count sink takes
  have reads := LeafCursor.next_meets suits member serves at_ count takes
  rw [nextFrom, ColumnReader.slice]
  cases run : LeafCursor.next count (session, cursor, sink) with
  | error error after =>
    rw [run] at reads
    exact congrArg (·.map (·.map RowValue.flat)) reads
  | ok read after =>
    obtain ⟨more, taken, served, there, ⟨kept, grown⟩, rfl⟩ := reads.of_ok run
    have many : more.length = min count (reader.rows - place) := by
      rw [Intake.length_cut taken, reader.length_slots]
    rw [← many] at there
    have flat : after.2.2.flatRows = sink.flatRows ++ more := by
      rw [Batch.intake_rows] at grown
      exact grown
    refine ⟨more.map .flat, congrArg (·.map (·.map RowValue.flat)) taken, served, .leaf ?_, kept, ?_, ?_⟩
    · rw [List.length_map]
      exact there
    · have shown := Batch.rowValues_of_fits kept
      rw [Batch.rowValues_of_fits takes, ← List.map_append, ← flat]
      exact shown
    · rw [List.length_map, many]

section Arrays

variable {items : ColumnReader} {lengths : LeafReader} {flags : Option LeafReader} {before : List Nat}

/-- The rows that follow, from what a read finds of them before it comes to their items. -/
theorem slice_array_of_known (known : lengths.sizesIn image 0 place = some before) (count : Nat) :
    (ColumnReader.array items lengths flags).slice image place count =
      (ArrayCursor.rowsIn image lengths flags place count).bind fun more =>
        ((items.slice image (total before) (total more.1)).filter fun elements =>
          elements.length = total more.1).map
          fun elements => RowValue.rowsOf more.1 more.2 elements := by
  ext values
  rw [ColumnReader.slice_array_iff]
  simp only [Option.bind_eq_some_iff, Option.map_eq_some_iff, Option.filter_eq_some_iff, decide_eq_true_eq]
  constructor
  · rintro ⟨other, sizes, nulls, elements, known', measured, told, inside, many, enough, rfl⟩
    cases known.symm.trans known'
    exact ⟨(sizes, nulls), ArrayCursor.rowsIn_eq_some.mpr ⟨measured, told, many⟩, elements, ⟨inside, enough⟩, rfl⟩
  · rintro ⟨⟨sizes, nulls⟩, found, elements, ⟨inside, enough⟩, rfl⟩
    obtain ⟨measured, told, many⟩ := ArrayCursor.rowsIn_eq_some.mp found
    exact ⟨before, sizes, nulls, elements, known, measured, told, inside, many, enough, rfl⟩

/-- Array rows have been appended behind others, but not their items. -/
structure Unfinished (image : Bytes) (items : ColumnReader) (lengths : LeafReader) (flags : Option LeafReader)
    (place : Nat) (before sizes more : List Nat) (nulls told : List Bool) (cursor : ArrayCursor)
    (rows : ArrayRows) : Prop where
  placed : cursor.Placed lengths flags image (place + more.length)
  itemRows : cursor.itemRows = items.rows
  ordinal : cursor.ordinal = place
  known : lengths.sizesIn image 0 (place + more.length) = some (before ++ more)
  counts : rows.Counts lengths.column.type flags.isSome (sizes ++ more) (nulls ++ told)
  bounds : rows.bounds = ArrayRows.stretchesOf sizes
  many : told.length = more.length

variable {sizes more : List Nat} {nulls told : List Bool} {parts : ArrayCursor} {rows : ArrayRows}
  {session : Session} {inner : ColumnCursor} {batch : Batch} {earlier elements : List RowValue}

/-- Whatever had to be done for the items, the rows are finished with them. -/
theorem Unfinished.finish (unfinished : Unfinished image items lengths flags place before sizes more nulls told
    parts rows) (serves : Serves image readers session) (at_ : inner.At image items (total before + total more))
    (inside : items.Takes batch) (same : batch.rowValues = earlier ++ elements)
    (enough : earlier.length = total sizes) (all : elements.length = total more) {sink : Batch}
    (shown : sink.rowValues = RowValue.rowsOf sizes nulls earlier) (grown : Bool) :
    ∃ read after, finishRows ⟨sizes.length, more.length, total sizes, total more⟩
        grown session parts inner rows batch = .ok read after ∧
      Appended image readers (.array items lengths flags) place sink (RowValue.rowsOf more told elements)
        read after := by
  obtain ⟨placed, itemRows, ordinal, known, counts, bounds, many⟩ := unfinished
  have there : total (sizes ++ more) ≤ batch.length := by
    rw [← inside.length, same, List.length_append, total_append, enough, all]
  rw [finishRows, counts.settle there]
  obtain ⟨takes, values⟩ := ColumnReader.takes_finish counts bounds many inside same enough all grown
  have length := RowValue.length_rowsOf many elements
  refine ⟨_, _, rfl, serves, ?_, takes, ?_, length.symm⟩
  · rw [length]
    refine .array ⟨placed.lengths, placed.flags⟩ itemRows ?_ known ?_
    · rw [ordinal]
    · rw [total_append]
      exact at_
  · rw [shown]
    exact values

/-- Nothing is left to be done for no rows. -/
theorem Unfinished.none (unfinished : Unfinished image items lengths flags place before sizes [] nulls []
    parts rows)
    (serves : Serves image readers session) (at_ : inner.At image items (total before)) (inside : items.Takes batch)
    (enough : batch.rowValues.length = total sizes) {sink : Batch}
    (shown : sink.rowValues = RowValue.rowsOf sizes nulls batch.rowValues) :
    Appended image readers (.array items lengths flags) place sink [] {}
      (session, array parts inner, .array rows batch) := by
  obtain ⟨placed, itemRows, ordinal, known, counts, bounds, _⟩ := unfinished
  rw [List.append_nil] at known
  rw [List.append_nil, List.append_nil] at counts
  refine ⟨serves, .array placed itemRows ordinal known at_, ⟨inside, sizes, nulls, counts, bounds, enough⟩, ?_, rfl⟩
  rw [shown, List.append_nil]
  exact Batch.rowValues_array counts bounds batch

theorem array_reads (suits : LeafCursor.Suits (OffsetBuffer.intake lengths.column.type) lengths.coding)
    (suits' : ∀ reader ∈ flags, LeafCursor.Suits (FixedBuffer.intake .boolean 1 false) reader.coding)
    (summable : lengths.Summable image) (member : lengths ∈ readers) (members : ∀ reader ∈ flags, reader ∈ readers)
    (placed : parts.Placed lengths flags image place) (itemRows : parts.itemRows = items.rows)
    (ordinal : parts.ordinal = place) (known : lengths.sizesIn image 0 place = some before)
    (within : inner.At image items (total before)) (reads : Reads image readers items (total before) inner) :
    Reads image readers (.array items lengths flags) place (array parts inner) := by
  intro session serves count sink takes
  cases sink with
  | fixed buffer => cases takes
  | bytes buffer => cases takes
  | array rows batch =>
    obtain ⟨inside, sizes, nulls, counts, bounds, enough⟩ := takes
    have shown := Batch.rowValues_array counts bounds batch
    have rowReads := ArrayCursor.readRows_meets suits suits' summable member members serves placed counts count
    rw [nextFrom, slice_array_of_known known count]
    cases run : ArrayCursor.readRows count (session, parts, rows) with
    | error error after =>
      rw [run] at rowReads
      exact congrArg (Option.bind · _) rowReads
    | ok read after =>
      obtain ⟨last, moved, filled⟩ := after
      obtain ⟨⟨more, told⟩, taken, served, there, kept, stayed, counted, unbound, many, rfl⟩ := rowReads.of_ok run
      have behind := LeafReader.sizesIn_behind known (ArrayCursor.rowsIn_eq_some.mp taken).1
      have unfinished : Unfinished image items lengths flags place before sizes more nulls told moved filled :=
        ⟨there, kept.trans itemRows, stayed.trans ordinal, behind, counted, unbound.trans bounds, many⟩
      rw [taken, Option.bind_some]
      dsimp only
      by_cases noRows : more.length = 0
      · obtain rfl := List.length_eq_zero_iff.mp noRows
        obtain rfl := List.length_eq_zero_iff.mp many
        rw [if_pos noRows, total, within.slice_zero]
        exact ⟨[], rfl, unfinished.none served within inside enough shown⟩
      · rw [if_neg noRows]
        by_cases noItems : total more = 0
        · have still : inner.At image items (total before + total more) := by
            rw [noItems]
            exact within
          obtain ⟨read, after, finished, appended⟩ :=
            unfinished.finish served still inside (List.append_nil _).symm enough noItems.symm shown false
          rw [if_pos noItems, finished, noItems, within.slice_zero]
          exact ⟨_, rfl, appended⟩
        · rw [if_neg noItems]
          generalize ArrayRead.stop _ = stop
          obtain ⟨elements, found, ⟨last, stopped, full⟩, held, length, itemRun, appended⟩ | ⟨refused, failed⟩ :=
            reads.roomy served inside (total more) stop rfl
          · obtain ⟨serving, stopped_at, filling, values, found_rows⟩ := appended
            rw [length] at stopped_at found_rows
            obtain ⟨read, after, finished, appended⟩ :=
              unfinished.finish serving stopped_at filling values enough length shown (batch.ensureCapacity stop).1
            rw [itemRun, held, Option.filter_some_pos (by simp [length])]
            dsimp only
            rw [if_pos found_rows, finished]
            exact ⟨_, rfl, appended⟩
          · rw [refused]
            obtain ⟨error, after, itemRun⟩ | ⟨found, after, itemRun, few⟩ := failed
            · rw [itemRun]
              exact rfl
            · rw [itemRun]
              dsimp only
              rw [if_neg few]
              exact rfl

end Arrays

/-- A read appends the rows from the place on, each with its items, and moves behind them. -/
theorem At.reads (suited : reader.Suited) (summable : reader.Summable image)
    (members : ∀ leaf ∈ reader.leaves, leaf ∈ readers) (at_ : cursor.At image reader place) :
    Reads image readers reader place cursor := by
  induction at_ with
  | empty none => exact empty_reads none
  | @leaf reader place cursor at_ => exact leaf_reads suited (members reader List.mem_cons_self) at_
  | array placed itemRows ordinal known within ih =>
    obtain ⟨suitedItems, _, suits, suits'⟩ := suited
    obtain ⟨inItems, member, members'⟩ := ColumnReader.leaves_array members
    exact array_reads suits suits' summable.2 member members' placed itemRows ordinal known within
      (ih suitedItems summable.1 inItems)

end ColumnCursor

end Columnar
