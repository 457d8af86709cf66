import Columnar.ColumnCursor
import Columnar.Proofs.ColumnSlices

namespace Columnar

open Columnar.Action Session

/-- The lengths of an array column are at a row, and so are the null flags. -/
structure ArrayCursor.Placed (lengths : LeafReader) (flags : Option LeafReader) (image : Bytes) (place : Nat)
    (cursor : ArrayCursor) : Prop where
  lengths : cursor.lengths.At lengths image place
  flags : Option.Rel (fun reader cursor => cursor.At reader image place) flags cursor.flags

namespace ArrayCursor

variable {image : Bytes} {readers : List LeafReader} {lengths : LeafReader} {flags : Option LeafReader}
  {place : Nat} {session : Session} {cursor : ArrayCursor} {rows : ArrayRows} {sizes : List Nat} {nulls : List Bool}

/-- Lengths are appended behind the places between rows. -/
theorem readLengths_meets (suits : LeafCursor.Suits (OffsetBuffer.intake lengths.column.type) lengths.coding)
    (member : lengths ∈ readers) (serves : Serves image readers session)
    (at_ : cursor.lengths.At lengths image place) (type : rows.offsets.type = lengths.column.type) (count : Nat) :
    Meets (readLengths count (session, cursor, rows)) (lengths.sizesIn image place count) fun more read after =>
      Serves image readers after.1 ∧ after.2.1.lengths.At lengths image (place + more.length) ∧
      after.2.1 = { cursor with lengths := after.2.1.lengths } ∧
      after.2.2 = { rows with offsets := after.2.2.offsets } ∧
      after.2.2.offsets.type = lengths.column.type ∧ after.2.2.offsets.fences = rows.offsets.fences ++ more ∧
      read = ⟨more.length, false⟩ := by
  refine ((LeafCursor.next_meets suits member serves at_ count type).known).rewrap _ _ ?_
  rintro more read ⟨last, moved, filled⟩ ⟨known, served, there, ⟨kept, grown⟩, told⟩
  have many : more.length = min count (lengths.rows - place) := by
    rw [Intake.length_cut known, lengths.length_slots]
  have noNull : (((lengths.slots image).drop place).take count).any Slot.isNull = false := by
    have told := any_of_mapM known (p := Slot.isNull) (q := fun _ => false) fun slot length taken => by
      cases slot with
      | null => cases taken
      | _ => rfl
    rw [told]
    simp
  rw [noNull, ← many] at told
  rw [← many] at there
  exact ⟨served, there, rfl, rfl, kept, grown, told⟩

/-- Rows without null flags are not null. -/
theorem readFlags_without (session : Session) (stored : cursor.flags = none) (held : rows.flags = none)
    (flagged : rows.Flagged false nulls) (count : Nat) :
      readFlags count (session, cursor, rows) = .ok () (session, cursor, rows) ∧
      rows.Flagged false (nulls ++ List.replicate count false) := by
  refine ⟨?_, ?_⟩
  · simp only [readFlags, stored]
  · simp only [ArrayRows.Flagged, held] at flagged ⊢
    rw [List.length_append, List.length_replicate, ← List.replicate_append_replicate, ← flagged]

/-- As many null flags are appended as are asked for. -/
theorem readFlags_stored {reader : LeafReader}
    (suits : LeafCursor.Suits (FixedBuffer.intake .boolean 1 false) reader.coding) (member : reader ∈ readers)
    (serves : Serves image readers session) {flags : LeafCursor} (stored : cursor.flags = some flags)
    (at_ : flags.At reader image place) {buffer : FixedBuffer} (held : rows.flags = some buffer)
    (flagged : rows.Flagged true nulls) (count : Nat) : Meets (readFlags count (session, cursor, rows))
      ((nullsIn image (some reader) place count).filter fun told => told.length = count) fun told _ after =>
      Serves image readers after.1 ∧
      Option.Rel (fun reader cursor => LeafCursor.At reader image (place + count) cursor) (some reader)
        after.2.1.flags ∧
      after.2.1 = { cursor with flags := after.2.1.flags } ∧ after.2.2 = { rows with flags := after.2.2.flags } ∧
      after.2.2.Flagged true (nulls ++ told) := by
  simp only [ArrayRows.Flagged, held] at flagged
  obtain ⟨fits, rfl⟩ := flagged
  have reads := LeafCursor.next_meets suits member serves at_ count fits
  simp only [readFlags, stored, held, nullsIn]
  cases run : LeafCursor.next count (session, flags, buffer) with
  | error error after =>
    rw [run] at reads
    have refused : (FixedBuffer.intake .boolean 1 false).cut (reader.slots image) place count = none := reads
    simp only [refused, Option.map_none, Option.filter_none]
    exact rfl
  | ok read after =>
    obtain ⟨last, moved, filled⟩ := after
    obtain ⟨more, known, served, there, ⟨kept, grown⟩, rfl⟩ := reads.of_ok run
    have taken : (FixedBuffer.intake .boolean 1 false).cut (reader.slots image) place count = some more := known
    have many : more.length = min count (reader.rows - place) := by
      rw [Intake.length_cut taken, reader.length_slots]
    rw [← many] at there
    simp only [taken, Option.map_some, ← many]
    by_cases all : more.length = count
    · rw [if_pos all, Option.filter_some_pos (by simp [all])]
      rw [all] at there
      refine ⟨_, rfl, served, .some there, rfl, rfl, kept, ?_⟩
      have appended : filled.rows = buffer.rows ++ more := grown
      rw [appended, List.map_append]
    · rw [if_neg all, Option.filter_some_neg (by simp [all])]
      exact rfl

theorem readFlags_meets (suits : ∀ reader ∈ flags,
    LeafCursor.Suits (FixedBuffer.intake .boolean 1 false) reader.coding)
    (members : ∀ reader ∈ flags, reader ∈ readers) (serves : Serves image readers session)
    (at_ : Option.Rel (fun reader cursor => LeafCursor.At reader image place cursor) flags cursor.flags)
    (flagged : rows.Flagged flags.isSome nulls) (count : Nat) :
    Meets (readFlags count (session, cursor, rows))
      ((nullsIn image flags place count).filter fun told => told.length = count) fun told _ after =>
      Serves image readers after.1 ∧
      Option.Rel (fun reader cursor => LeafCursor.At reader image (place + count) cursor) flags after.2.1.flags ∧
      after.2.1 = { cursor with flags := after.2.1.flags } ∧ after.2.2 = { rows with flags := after.2.2.flags } ∧
      after.2.2.Flagged flags.isSome (nulls ++ told) := by
  cases flags with
  | none =>
    cases stored : cursor.flags with
    | some other =>
      rw [stored] at at_
      cases at_
    | none =>
      obtain ⟨run, told⟩ := readFlags_without session stored flagged.flags_none flagged count
      rw [run, nullsIn, Option.filter_some_pos (by simp)]
      refine ⟨_, rfl, serves, ?_, rfl, rfl, told⟩
      rw [stored]
      exact .none
  | some reader =>
    cases stored : cursor.flags with
    | none =>
      rw [stored] at at_
      cases at_
    | some other =>
      rw [stored] at at_
      obtain ⟨at_⟩ := at_
      obtain ⟨buffer, held⟩ := flagged.exists_flags
      exact readFlags_stored (suits reader rfl) (members reader rfl) serves stored at_ held flagged count

/-- What a read finds of array rows before it comes to their items: their sizes and whether they are null. -/
def rowsIn (image : Bytes) (lengths : LeafReader) (flags : Option LeafReader) (place count : Nat) :
    Option (List Nat × List Bool) :=
  (lengths.sizesIn image place count).bind fun sizes =>
    ((nullsIn image flags place sizes.length).filter fun nulls => nulls.length = sizes.length).map (sizes, ·)

theorem rowsIn_eq_some {count : Nat} : rowsIn image lengths flags place count = some (sizes, nulls) ↔
    lengths.sizesIn image place count = some sizes ∧ nullsIn image flags place sizes.length = some nulls ∧
      nulls.length = sizes.length := by
  simp only [rowsIn, Option.bind_eq_some_iff, Option.map_eq_some_iff, Option.filter_eq_some_iff, decide_eq_true_eq,
    Prod.mk.injEq]
  constructor
  · rintro ⟨sizes, measured, nulls, ⟨told, many⟩, rfl, rfl⟩
    exact ⟨measured, told, many⟩
  · rintro ⟨measured, told, many⟩
    exact ⟨sizes, measured, nulls, ⟨told, many⟩, rfl, rfl⟩

/-- The places between rows and their null flags, once those that a read asks for are there. -/
theorem readFlags_counts_meets {more : List Nat} {type : ColumnType}
    (suits : ∀ reader ∈ flags, LeafCursor.Suits (FixedBuffer.intake .boolean 1 false) reader.coding)
    (members : ∀ reader ∈ flags, reader ∈ readers) (serves : Serves image readers session)
    (at_ : Option.Rel (fun reader cursor => LeafCursor.At reader image place cursor) flags cursor.flags)
    (fences : rows.offsets.fences = OffsetBuffer.fencesOf (sizes ++ more)) (kind : rows.offsets.type = type)
    (flagged : rows.Flagged flags.isSome nulls) (numbers : nulls.length = sizes.length) :
    Meets (readFlags more.length (session, cursor, rows))
      ((nullsIn image flags place more.length).filter fun told => told.length = more.length) fun told _ after =>
      Serves image readers after.1 ∧
      Option.Rel (fun reader cursor => LeafCursor.At reader image (place + more.length) cursor)
        flags after.2.1.flags ∧
      after.2.1 = { cursor with flags := after.2.1.flags } ∧ after.2.2.bounds = rows.bounds ∧
      after.2.2.Counts type flags.isSome (sizes ++ more) (nulls ++ told) ∧ told.length = more.length := by
  refine (readFlags_meets suits members serves at_ flagged more.length).known.imp ?_
  rintro told _ ⟨last, stopped, filled⟩ ⟨known, served, on, still, kept, flagged⟩
  dsimp only at on still kept flagged
  have many := of_decide_eq_true (Option.filter_eq_some_iff.mp known).2
  refine ⟨served, on, still, ?_, ⟨?_, ?_, ?_, flagged⟩, many⟩
  · rw [kept]
  · rw [kept, kind]
  · rw [kept, fences]
  · rw [List.length_append, List.length_append, numbers, many]

/-- What is told of rows that have been appended apart from their items. -/
theorem told_of_counts {more : List Nat} (state : Session × ArrayCursor × ArrayRows) {type : ColumnType}
    {nullable : Bool} (counts : state.2.2.Counts type nullable (sizes ++ more) nulls) (few : total more < 2 ^ 64) :
    (do
      let rows := (← get).2.2
      let firstItem := rows.itemOffset sizes.length
      let items := (rows.itemOffset (sizes.length + more.length) - firstItem) % 2 ^ 64
      return ⟨sizes.length, more.length, firstItem, items⟩ :
        Action (Session × ArrayCursor × ArrayRows) ArrayRead) state =
      .ok ⟨sizes.length, more.length, total sizes, total more⟩ state := by
  obtain ⟨first, stop⟩ := counts.itemOffset_ends
  rw [bind_apply, get_apply]
  simp only [first, stop, Nat.add_sub_cancel_left, Nat.mod_eq_of_lt few]
  rfl

/-- Rows are appended with their null flags, and what is told of them says where their items are. -/
theorem readRows_meets (suits : LeafCursor.Suits (OffsetBuffer.intake lengths.column.type) lengths.coding)
    (suits' : ∀ reader ∈ flags, LeafCursor.Suits (FixedBuffer.intake .boolean 1 false) reader.coding)
    (summable : lengths.Summable image) (member : lengths ∈ readers) (members : ∀ reader ∈ flags, reader ∈ readers)
    (serves : Serves image readers session) (placed : cursor.Placed lengths flags image place)
    (counts : rows.Counts lengths.column.type flags.isSome sizes nulls) (count : Nat) :
    Meets (readRows count (session, cursor, rows)) (rowsIn image lengths flags place count) fun more read after =>
      Serves image readers after.1 ∧ after.2.1.Placed lengths flags image (place + more.1.length) ∧
      after.2.1.itemRows = cursor.itemRows ∧ after.2.1.ordinal = cursor.ordinal ∧
      after.2.2.Counts lengths.column.type flags.isSome (sizes ++ more.1) (nulls ++ more.2) ∧
      after.2.2.bounds = rows.bounds ∧ more.2.length = more.1.length ∧
      read = ⟨sizes.length, more.1.length, total sizes, total more.1⟩ := by
  rw [readRows, bind_apply, get_apply, rowsIn]
  dsimp only
  rw [counts.length]
  refine (readLengths_meets suits member serves placed.lengths counts.type_eq count).known.bind ?_
  rintro more _ ⟨mid, reached, filled⟩ ⟨measured, serving, there, same, same', type, fences, rfl⟩
  have few := summable _ _ _ measured
  dsimp only at there same same' type fences
  have converted := OffsetBuffer.convertLengths_ok (fences.trans (congrArg (· ++ more) counts.fences))
  have unmoved : reached.flags = cursor.flags := by rw [same]
  have unfilled : filled.flags = rows.flags := by rw [same']
  simp only [Bool.false_eq_true, if_false]
  rw [bind_apply]
  dsimp only [onSecond, ArrayRows.onOffsets, onPart]
  rw [converted]
  dsimp only [rewrap_ok]
  generalize made :
    ({ filled with offsets := { filled.offsets with fences := OffsetBuffer.fencesOf (sizes ++ more) } } :
    ArrayRows) = fenced
  have fence : fenced.offsets.fences = OffsetBuffer.fencesOf (sizes ++ more) := by rw [← made]
  have kind : fenced.offsets.type = lengths.column.type := by
    rw [← made]
    exact type
  have bounds : fenced.bounds = rows.bounds := by rw [← made, same']
  have flagged : fenced.Flagged flags.isSome nulls := by
    have kept := counts.flags
    rw [← made]
    simpa only [ArrayRows.Flagged, unfilled] using kept
  have numbers := counts.length_nulls
  by_cases some : 0 < more.length
  · rw [if_pos some]
    have on := placed.flags
    rw [← unmoved] at on
    have reads := readFlags_counts_meets suits' members serving on fence kind flagged numbers
    refine Meets.map (reads.andThen ?_) (more, ·) _ fun _ _ _ fit => fit
    rintro told _ ⟨last, stopped, flagRows⟩ ⟨served, on, still, kept, counted, many⟩
    dsimp only at on still kept counted
    refine ⟨_, _, told_of_counts (last, stopped, flagRows) counted few, served, ⟨?_, on⟩, ?_, ?_, counted, ?_,
      many, rfl⟩
    · rw [still]
      exact there
    · rw [still, same]
    · rw [still, same]
    · rw [kept, bounds]
  · have none : more = [] := by
      rw [← List.length_eq_zero_iff]
      omega
    subst none
    rw [if_neg some, List.length_nil, nullsIn_zero, Option.filter_some_pos rfl]
    have counted : fenced.Counts lengths.column.type flags.isSome (sizes ++ []) (nulls ++ []) := by
      refine ⟨kind, fence, ?_, ?_⟩
      · rw [List.append_nil, List.append_nil, numbers]
      · rw [List.append_nil]
        exact flagged
    have told := told_of_counts (mid, reached, fenced) counted few
    rw [List.length_nil] at told
    rw [told]
    refine ⟨([], []), rfl, serving, ⟨there, ?_⟩, ?_, ?_, counted, bounds, rfl, rfl⟩
    · rw [unmoved]
      exact placed.flags
    · rw [same]
    · rw [same]

end ArrayCursor

end Columnar
