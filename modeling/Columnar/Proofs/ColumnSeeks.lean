import Columnar.Proofs.ColumnReads

namespace Columnar

open Columnar.Action Session

/-- Each page of lengths knows how many items come before its first row. -/
def LeafReader.Based (lengths : LeafReader) (image : Bytes) : Prop :=
  ∀ index, lengths.indexIn image = .ok index → ∀ (page : Nat) (span : PageSpan), index.span? page = some span →
    ∀ opened, lengths.openedIn image span = .ok opened → ∀ before,
      lengths.sizesIn image 0 span.first = some before →
      opened.firstItem = total before

/-- No items come before the only page. -/
theorem LeafReader.based_of_single {lengths : LeafReader} {image : Bytes} {rows : Nat} {extent : Extent}
    (listed : lengths.indexIn image = .ok { pages := [⟨0, extent⟩], rows }) {opened : DataPage}
    (opens : lengths.openedIn image ⟨0, 0, rows, extent⟩ = .ok opened) (none : opened.firstItem = 0) :
    lengths.Based image := by
  intro index found page span there other again before known
  cases listed.symm.trans found
  cases page with
  | zero =>
    cases there
    cases opens.symm.trans again
    cases known
    exact none
  | succ page => cases there

namespace ArrayCursor

variable {image : Bytes} {readers : List LeafReader} {lengths : LeafReader} {flags : Option LeafReader} {row : Nat}
  {session mid : Session} {cursor : ArrayCursor}

theorem onLengths_ok {α : Type} {step : Action (Session × LeafCursor) α} {value : α} {reached : LeafCursor}
    (run : step (session, cursor.lengths) = .ok value (mid, reached)) :
    onLengths step (session, cursor) = .ok value (mid, { cursor with lengths := reached }) := by
  rw [onLengths, onPart]
  dsimp only
  rw [run]
  rfl

/-- A step that succeeds on null flags succeeds on those that an array has. -/
theorem onFlags_spec (cursor : ArrayCursor) {step : Action (Session × LeafCursor) Unit}
    {before after : LeafReader → LeafCursor → Prop}
    (steps : ∀ reader ∈ flags, ∀ session cursor, Serves image readers session → before reader cursor →
      ∃ mid reached, step (session, cursor) = .ok () (mid, reached) ∧ Serves image readers mid ∧
        after reader reached)
    (serves : Serves image readers session) (ready : Option.Rel before flags cursor.flags) :
    ∃ mid reached, onFlags step (session, cursor) = .ok () (mid, { cursor with flags := reached }) ∧
      Serves image readers mid ∧ Option.Rel after flags reached := by
  cases flags with
  | none =>
    cases held : cursor.flags with
    | none =>
      refine ⟨session, none, ?_, serves, .none⟩
      rw [onFlags]
      dsimp only
      rw [held]
      dsimp only
      rw [← held]
    | some other =>
      rw [held] at ready
      cases ready
  | some reader =>
    cases held : cursor.flags with
    | none =>
      rw [held] at ready
      cases ready
    | some other =>
      rw [held] at ready
      obtain ⟨ready⟩ := ready
      obtain ⟨mid, reached, run, serving, there⟩ := steps reader rfl session other serves ready
      refine ⟨mid, some reached, ?_, serving, .some there⟩
      rw [onFlags]
      dsimp only
      rw [held]
      dsimp only
      rw [run]
      rfl

/-- The page that is open knows how many items come before its first row. -/
theorem itemsBefore_of_le {page : DataPage} (held : cursor.lengths.page = some page) (start : row ≤ page.first) :
    itemsBefore row (session, cursor) = .ok page.firstItem (session, cursor) := by
  rw [itemsBefore, bind_apply, get_apply]
  simp only [held, Nat.sub_eq_zero_of_le start, if_true]
  rfl

/-- Before a later row of the page come the items of the rows from its start, too. These are read again. -/
theorem itemsBefore_eq_ok_iff {page : DataPage} (held : cursor.lengths.page = some page) (inside : page.first < row)
    {item : Nat} {after : ArrayCursor} :
    itemsBefore row (session, cursor) = .ok item (mid, after) ↔
      ∃ empty back there read stopped filled, OffsetBuffer.create cursor.lengths.reader.column.type = .ok empty ∧
        LeafCursor.seek page.first (session, cursor.lengths) = .ok () (back, there) ∧
        LeafCursor.next (row - page.first) (back, there, empty) = .ok read (mid, stopped, filled) ∧
        read.rows = row - page.first ∧ item = (page.firstItem + total (filled.fences.drop 1)) % 2 ^ 64 ∧
        after = { cursor with lengths := stopped } := by
  have later : row - page.first ≠ 0 := by omega
  rw [itemsBefore, bind_apply, get_apply]
  simp only [held, later, if_false]
  constructor
  · intro run
    obtain ⟨empty, _, made, run⟩ := bind_ok run
    obtain ⟨created, rfl⟩ := lift_eq_ok made
    obtain ⟨_, _, starts, run⟩ := bind_ok run
    obtain ⟨⟨back, there⟩, moved, rfl⟩ := rewrap_eq_ok starts
    rw [LeafCursor.seekPageStart_of_some held] at moved
    obtain ⟨_, _, reads, run⟩ := bind_ok run
    obtain ⟨⟨last, stopped⟩, read, rfl⟩ := rewrap_eq_ok reads
    dsimp only at read
    split at read
    · rename_i _ next
      cases read
      dsimp only at run
      split at run
      · cases run
      · rename_i all
        cases run
        exact ⟨empty, back, there, _, stopped, _, created, moved, next, not_not.mp all, rfl, rfl⟩
    · cases read
  · rintro ⟨empty, back, there, read, stopped, filled, created, moved, next, all, rfl, rfl⟩
    have starts := onLengths_ok ((LeafCursor.seekPageStart_of_some held session).trans moved)
    rw [created, lift_ok, bind_apply, pure_apply]
    dsimp only
    rw [bind_apply, starts]
    simp only [bind_apply, onLengths, onPart, next, rewrap_ok, all, ne_eq, not_true_eq_false, if_false]
    rfl

/-- From the lengths page alone the number of items before the row of the lengths is known, and they are at it
again. -/
theorem itemsBefore_spec (cursor : ArrayCursor)
    (suits : LeafCursor.Suits (OffsetBuffer.intake lengths.column.type) lengths.coding)
    (typed : OffsetBuffer.create lengths.column.type = .ok { type := lengths.column.type })
    (whole : lengths.Whole image) (based : lengths.Based image) (summable : lengths.Summable image)
    (member : lengths ∈ readers) (serves : Serves image readers session) (at_ : cursor.lengths.At lengths image row)
    {before : List Nat} (known : lengths.sizesIn image 0 row = some before) :
    ∃ mid reached, itemsBefore row (session, cursor) =
      .ok (total before) (mid, { cursor with lengths := reached }) ∧
      Serves image readers mid ∧ reached.At lengths image row := by
  obtain ⟨span, on⟩ := at_.on
  obtain ⟨index, listed, there⟩ := on.span_eq
  obtain ⟨opened, opens, held, _⟩ := on.page_eq
  obtain ⟨_, _, _, number, _⟩ := LeafReader.openedIn_spec opens
  have first := on.first_le
  have bound := at_.within.2
  have base : (opened.atRow (row - span.first)).first = span.first := number
  rcases Nat.eq_or_lt_of_le first with rfl | inside
  · refine ⟨session, cursor.lengths, ?_, serves, at_⟩
    rw [itemsBefore_of_le held base.ge, ← based index listed _ span there opened opens before known]
    rfl
  · have few := summable _ _ _ known
    have parts : row = span.first + (row - span.first) := by omega
    rw [LeafReader.sizesIn, parts, Intake.cut_add, Nat.zero_add, Option.bind_eq_some_iff] at known
    obtain ⟨front, ahead, known⟩ := known
    obtain ⟨more, behind, rfl⟩ := Option.map_eq_some_iff.mp known
    have items := based index listed _ span there opened opens front ahead
    -- the lengths go to the start of their page, and from there to the row again
    obtain ⟨mid, reached, moved, serving, back⟩ :=
      LeafCursor.seek_spec whole member serves at_.ready (by omega : span.first ≤ _)
    have empty : (OffsetBuffer.intake lengths.column.type).Fits { type := lengths.column.type } := rfl
    have reads := LeafCursor.next_meets suits member serving back (row - span.first) empty
    have taken : (((lengths.slots image).drop span.first).take (row - span.first)).mapM
      (OffsetBuffer.intake lengths.column.type).take = some more := behind
    rw [taken] at reads
    obtain ⟨read, ⟨last, stopped, filled⟩, run, served, there, ⟨_, grown⟩, told⟩ := reads.exists_ok
    have count : min (row - span.first) (lengths.rows - span.first) = row - span.first := by omega
    rw [count] at there told
    rw [← parts] at there
    have fences : filled.fences = 0 :: more := grown
    refine ⟨last, stopped, (itemsBefore_eq_ok_iff held (base ▸ inside)).mpr ?_, served, there⟩
    rw [base]
    refine ⟨_, mid, reached, read, stopped, filled, on.reader_eq ▸ typed, moved, run, by rw [told], ?_, rfl⟩
    rw [total_append] at few
    rw [fences, List.drop_one, List.tail_cons, total_append, ← items]
    exact (Nat.mod_eq_of_lt (items ▸ few)).symm

/-- The lengths of an array column have no page open or are at some place of one, and so do the null flags. -/
structure Ready (lengths : LeafReader) (flags : Option LeafReader) (image : Bytes) (cursor : ArrayCursor) :
    Prop where
  lengths : cursor.lengths.Ready lengths image
  flags : Option.Rel (fun reader cursor => cursor.Ready reader image) flags cursor.flags

theorem Placed.ready {place : Nat} (placed : cursor.Placed lengths flags image place) :
    cursor.Ready lengths flags image := by
  obtain ⟨there, on⟩ := placed
  refine ⟨there.ready, ?_⟩
  generalize cursor.flags = held at on ⊢
  cases on with
  | none => exact .none
  | some at_ => exact .some at_.ready

/-- An array cursor that has gone to the first row is there with all its parts. -/
theorem seekFirst_ok (member : lengths ∈ readers) (members : ∀ reader ∈ flags, reader ∈ readers)
    (serves : Serves image readers session) (ready : cursor.Ready lengths flags image) {value : Unit}
    {after : Session × ArrayCursor} (run : seekFirst (session, cursor) = .ok value after) :
    Serves image readers after.1 ∧ after.2.Placed lengths flags image 0 ∧ after.2.itemRows = cursor.itemRows := by
  obtain ⟨_, _, first, rest⟩ := bind_ok run
  obtain ⟨⟨mid, reached⟩, moved, rfl⟩ := rewrap_eq_ok first
  obtain ⟨_, _, serving, there⟩ := (LeafCursor.seekFirst_meets member serves ready.lengths.reader_eq).of_ok moved
  have on := ready.flags
  rw [onFlags] at rest
  dsimp only at rest
  cases held : cursor.flags with
  | none =>
    rw [held] at rest on
    cases on
    cases rest
    exact ⟨serving, ⟨there, .none⟩, rfl⟩
  | some other =>
    rw [held] at rest on
    obtain ⟨ready⟩ := on
    obtain ⟨⟨last, stopped⟩, moved, rfl⟩ := rewrap_eq_ok rest
    obtain ⟨_, _, served, back⟩ := (LeafCursor.seekFirst_meets (members _ rfl) serving ready.reader_eq).of_ok moved
    exact ⟨served, ⟨there, .some back⟩, rfl⟩

section Seeking

variable (whole : lengths.Whole image) (whole' : ∀ reader ∈ flags, reader.Whole image) (member : lengths ∈ readers)
  (members : ∀ reader ∈ flags, reader ∈ readers) (serves : Serves image readers session)
  (ready : cursor.Ready lengths flags image)

include whole whole' member members serves ready

theorem seekFirst_spec : ∃ mid reached, seekFirst (session, cursor) = .ok () (mid, reached) ∧
    Serves image readers mid ∧ reached.Placed lengths flags image 0 ∧ reached.itemRows = cursor.itemRows := by
  obtain ⟨mid, reached, run, serving, there⟩ :=
    LeafCursor.seekFirst_spec whole member serves ready.lengths.reader_eq
  have steps : ∀ reader ∈ flags, ∀ session cursor, Serves image readers session → cursor.Ready reader image →
      ∃ mid reached, LeafCursor.seekFirst (session, cursor) = .ok () (mid, reached) ∧ Serves image readers mid ∧
        reached.At reader image 0 := fun reader held session cursor serves ready =>
    LeafCursor.seekFirst_spec (whole' reader held) (members reader held) serves ready.reader_eq
  obtain ⟨last, told, run', served, on⟩ := onFlags_spec { cursor with lengths := reached } steps serving ready.flags
  refine ⟨last, { cursor with lengths := reached, flags := told }, ?_, served, ⟨there, on⟩, rfl⟩
  rw [seekFirst, bind_apply, onLengths_ok run]
  exact run'

/-- The item to move to is found behind all items of the rows before. -/
theorem seek_spec (suits : LeafCursor.Suits (OffsetBuffer.intake lengths.column.type) lengths.coding)
    (typed : OffsetBuffer.create lengths.column.type = .ok { type := lengths.column.type })
    (based : lengths.Based image) (summable : lengths.Summable image) (within : row ≤ lengths.rows)
    (within' : ∀ reader ∈ flags, row ≤ reader.rows) {before : List Nat}
    (known : lengths.sizesIn image 0 row = some before)
    (ends : row = lengths.rows → total before = cursor.itemRows) :
    ∃ mid reached, seek row (session, cursor) = .ok (total before) (mid, reached) ∧ Serves image readers mid ∧
      reached.Placed lengths flags image row ∧ reached.itemRows = cursor.itemRows := by
  obtain ⟨mid, reached, run, serving, there⟩ := LeafCursor.seek_spec whole member serves ready.lengths within
  have steps : ∀ reader ∈ flags, ∀ session cursor, Serves image readers session → cursor.Ready reader image →
      ∃ mid reached, LeafCursor.seek row (session, cursor) = .ok () (mid, reached) ∧ Serves image readers mid ∧
        reached.At reader image row := fun reader held session cursor serves ready =>
    LeafCursor.seek_spec (whole' reader held) (members reader held) serves ready (within' reader held)
  obtain ⟨last, told, run', served, on⟩ := onFlags_spec { cursor with lengths := reached } steps serving ready.flags
  have same : reached.reader = lengths := there.ready.reader_eq
  rw [seek, bind_apply, onLengths_ok run]
  dsimp only
  rw [bind_apply, run']
  dsimp only
  rw [bind_apply, get_apply]
  dsimp only
  rw [same]
  by_cases all : row = lengths.rows
  · rw [if_pos all, ends all]
    exact ⟨last, _, rfl, served, ⟨there, on⟩, rfl⟩
  · rw [if_neg all]
    obtain ⟨final, again, found, kept, back⟩ := itemsBefore_spec { cursor with lengths := reached, flags := told }
      suits typed whole based summable member served there known
    exact ⟨final, _, found, kept, ⟨back, on⟩, rfl⟩

end Seeking

end ArrayCursor

/-- The lengths of all rows sum up to the number of items, which has 64 bits. Where some of them cannot be read, the
others do not come to more. -/
structure LeafReader.SumsTo (lengths : LeafReader) (image : Bytes) (items : Nat) : Prop where
  whole : ∀ sizes, lengths.sizesIn image 0 lengths.rows = some sizes → total sizes = items
  part : ∀ place count sizes, lengths.sizesIn image place count = some sizes → total sizes ≤ items
  counted : items < 2 ^ 64

theorem LeafReader.SumsTo.summable {lengths : LeafReader} {image : Bytes} {items : Nat}
    (sums : lengths.SumsTo image items) :
    lengths.Summable image := fun place count sizes known =>
      Nat.lt_of_le_of_lt (sums.part place count sizes known) sums.counted

/-- Of lengths that can all be read, only those of all rows have to be summed up. -/
theorem LeafReader.sumsTo_of_whole {lengths : LeafReader} {image : Bytes} {sizes : List Nat}
    (whole : lengths.sizesIn image 0 lengths.rows = some sizes) (counted : total sizes < 2 ^ 64) :
    lengths.SumsTo image (total sizes) where
  whole others known := by cases whole.symm.trans known; rfl
  part place count others known := by
    rw [sizesIn, ← lengths.length_slots image] at whole
    cases (Intake.cut_of_whole whole place count).symm.trans known
    exact total_le_of_sublist ((List.take_sublist ..).trans (List.drop_sublist ..))
  counted := counted

namespace ColumnReader

/-- The children of each array have as many rows as its lengths tell, and so do the pages of the lengths. -/
def Consistent (image : Bytes) : ColumnReader → Prop
  | leaf _ => True
  | array items lengths flags => items.Consistent image ∧ (∀ reader ∈ flags, reader.rows = lengths.rows) ∧
    lengths.SumsTo image items.rows ∧ lengths.Based image

theorem Consistent.summable {image : Bytes} {reader : ColumnReader} (consistent : reader.Consistent image) :
    reader.Summable image := by
  induction reader with
  | leaf reader => trivial
  | array items lengths flags ih => exact ⟨ih consistent.1, consistent.2.2.1.summable⟩

variable {image : Bytes} {items : ColumnReader} {lengths : LeafReader} {flags : Option LeafReader}
  {values : List RowValue}

theorem whole_of_slice {reader : LeafReader} (found : (leaf reader).slice image 0 reader.rows = some values)
    (some : 0 < reader.rows) : reader.Whole image := by
  obtain ⟨rows, taken, _⟩ := Option.map_eq_some_iff.mp found
  rw [← reader.length_slots image, Intake.cut_all] at taken
  exact LeafReader.whole_of_taken taken some

/-- Where all rows of an array column are there, so are those of its children. -/
theorem parts_of_slice (consistent : (array items lengths flags).Consistent image)
    (found : (array items lengths flags).slice image 0 lengths.rows = some values) :
    (∃ sizes, lengths.sizesIn image 0 lengths.rows = some sizes ∧ total sizes = items.rows) ∧
      (0 < lengths.rows → lengths.Whole image ∧ ∀ reader ∈ flags, reader.Whole image) ∧
      ∃ elements, items.slice image 0 items.rows = some elements := by
  obtain ⟨_, rows, sums, _⟩ := consistent
  obtain ⟨before, sizes, nulls, elements, known, measured, told, inside, many, enough, _⟩ :=
    slice_array_iff.mp found
  cases known
  have sum := sums.whole sizes measured
  have length : sizes.length = lengths.rows := by
    rw [Intake.length_cut measured, lengths.length_slots, Nat.sub_zero, Nat.min_self]
  refine ⟨⟨sizes, measured, sum⟩, fun some => ⟨?_, ?_⟩, elements, ?_⟩
  · rw [LeafReader.sizesIn, ← lengths.length_slots image, Intake.cut_all] at measured
    exact LeafReader.whole_of_taken measured some
  · rintro reader held
    cases flags with
    | none => cases held
    | some other =>
      cases held
      obtain ⟨stored, taken, _⟩ := Option.map_eq_some_iff.mp told
      have same := rows reader rfl
      rw [length, ← same, ← reader.length_slots image, Intake.cut_all] at taken
      exact LeafReader.whole_of_taken taken (same ▸ some)
  · rw [← sum]
    exact inside

end ColumnReader

namespace ColumnCursor

/-- A cursor on a column that has no page open yet, or some page of each leaf. -/
inductive Ready (image : Bytes) : ColumnReader → ColumnCursor → Prop where
  | empty {reader : ColumnReader} (none : reader.rows = 0) : Ready image reader empty
  | leaf {reader : LeafReader} {cursor : LeafCursor} (some : 0 < reader.rows) (ready : cursor.Ready reader image) :
    Ready image (.leaf reader) (leaf cursor)
  | array {items : ColumnReader} {lengths : LeafReader} {flags : Option LeafReader} {cursor : ArrayCursor}
    {inner : ColumnCursor} (some : 0 < lengths.rows) (ready : cursor.Ready lengths flags image)
    (itemRows : cursor.itemRows = items.rows) (inside : Ready image items inner) :
    Ready image (.array items lengths flags) (array cursor inner)

variable {image : Bytes} {readers : List LeafReader} {reader : ColumnReader} {place : Nat} {cursor : ColumnCursor}
  {session : Session} {values : List RowValue}

theorem At.ready (at_ : cursor.At image reader place) : cursor.Ready image reader := by
  induction at_ with
  | empty none => exact .empty none
  | leaf at_ => exact .leaf at_.within.1 at_.ready
  | array placed itemRows ordinal known within ih => exact .array placed.lengths.within.1 placed.ready itemRows ih

theorem ofReader_ready (options : CursorOptions) (reader : ColumnReader) :
    (ofReader options reader).Ready image reader := by
  induction reader with
  | leaf reader =>
    rw [ofReader]
    by_cases none : reader.rows = 0
    · rw [if_pos none]
      exact .empty none
    · rw [if_neg none]
      exact .leaf (Nat.pos_of_ne_zero none) ⟨rfl, .inl rfl⟩
  | array items lengths flags ih =>
    rw [ofReader]
    by_cases none : lengths.rows = 0
    · rw [if_pos none]
      exact .empty none
    · rw [if_neg none]
      refine .array (Nat.pos_of_ne_zero none) ⟨⟨rfl, .inl rfl⟩, ?_⟩ rfl ih
      cases flags with
      | none => exact .none
      | some reader => exact .some ⟨rfl, .inl rfl⟩

/-- A seek leads to each row of a column that is there as a whole, and to the place behind the last one. -/
theorem seekFrom_spec (suited : reader.Suited) (consistent : reader.Consistent image)
    (members : ∀ leaf ∈ reader.leaves, leaf ∈ readers) (whole : reader.slice image 0 reader.rows = some values)
    (serves : Serves image readers session) (ready : cursor.Ready image reader) {row : Nat}
    (within : row ≤ reader.rows) :
    ∃ mid after, cursor.seekFrom row session = .ok () (mid, after) ∧ Serves image readers mid ∧
      after.At image reader row := by
  induction ready generalizing session row values with
  | @empty reader none =>
    obtain rfl : row = 0 := by omega
    exact ⟨session, empty, rfl, serves, .empty none⟩
  | @leaf reader cursor some ready =>
    obtain ⟨mid, after, run, serving, there⟩ := LeafCursor.seek_spec (ColumnReader.whole_of_slice whole some)
      (members reader List.mem_cons_self) serves ready within
    refine ⟨mid, leaf after, ?_, serving, .leaf there⟩
    rw [seekFrom, around, run]
    rfl
  | @array items lengths flags cursor inner some ready itemRows inside ih =>
    obtain ⟨⟨sizes, measured, sum⟩, wholes, elements, wholeItems⟩ := ColumnReader.parts_of_slice consistent whole
    obtain ⟨wholeLengths, wholeFlags⟩ := wholes some
    obtain ⟨inner_consistent, flagRows, sums, based⟩ := consistent
    obtain ⟨suitedItems, typed, suits, _⟩ := suited
    obtain ⟨inItems, member, members'⟩ := ColumnReader.leaves_array members
    have within : row ≤ lengths.rows := within
    -- the lengths of the rows before the one to go to
    have parts : lengths.rows = row + (lengths.rows - row) := by omega
    have front := measured
    rw [LeafReader.sizesIn, parts, Intake.cut_add, Option.bind_eq_some_iff] at front
    obtain ⟨before, known, front⟩ := front
    obtain ⟨behind, _, rfl⟩ := Option.map_eq_some_iff.mp front
    rw [total_append] at sum
    have ends : row = lengths.rows → total before = cursor.itemRows := by
      rintro rfl
      have all : before = before ++ behind := Option.some.inj (known.symm.trans measured)
      rw [List.self_eq_append_right] at all
      rw [all, total, Nat.add_zero] at sum
      rw [sum, itemRows]
    obtain ⟨mid, reached, run, serving, placed, kept⟩ :=
      ArrayCursor.seek_spec wholeLengths wholeFlags member members' serves
      ready suits typed based sums.summable within (fun reader held => flagRows reader held ▸ within) known ends
    have inside : total before ≤ items.rows := by omega
    obtain ⟨last, after, run', served, there⟩ := ih suitedItems inner_consistent inItems wholeItems serving inside
    refine ⟨last, array { reached with ordinal := row } after, ?_, served,
      .array ⟨placed.lengths, placed.flags⟩ (kept.trans itemRows) rfl known there⟩
    simp only [seekFrom, run, run']

theorem seekFirstFrom_spec (consistent : reader.Consistent image) (members : ∀ leaf ∈ reader.leaves, leaf ∈ readers)
    (whole : reader.slice image 0 reader.rows = some values) (serves : Serves image readers session)
    (ready : cursor.Ready image reader) :
    ∃ mid after, cursor.seekFirstFrom session = .ok () (mid, after) ∧ Serves image readers mid ∧
      after.At image reader 0 := by
  induction ready generalizing session values with
  | empty none => exact ⟨session, empty, rfl, serves, .empty none⟩
  | @leaf reader cursor some ready =>
    obtain ⟨mid, after, run, serving, there⟩ := LeafCursor.seekFirst_spec (ColumnReader.whole_of_slice whole some)
      (members reader List.mem_cons_self) serves ready.reader_eq
    refine ⟨mid, leaf after, ?_, serving, .leaf there⟩
    rw [seekFirstFrom, around, run]
    rfl
  | @array items lengths flags cursor inner some ready itemRows inside ih =>
    obtain ⟨_, wholes, elements, wholeItems⟩ := ColumnReader.parts_of_slice consistent whole
    obtain ⟨wholeLengths, wholeFlags⟩ := wholes some
    obtain ⟨inItems, member, members'⟩ := ColumnReader.leaves_array members
    obtain ⟨mid, reached, run, serving, placed, kept⟩ :=
      ArrayCursor.seekFirst_spec wholeLengths wholeFlags member members' serves ready
    obtain ⟨last, after, run', served, there⟩ := ih consistent.1 inItems wholeItems serving
    refine ⟨last, array { reached with ordinal := 0 } after, ?_, served,
      .array ⟨placed.lengths, placed.flags⟩ (kept.trans itemRows) rfl rfl there⟩
    simp only [seekFirstFrom, run, run']

/-- A cursor that has gone to the first row is there, whatever the column holds. -/
theorem seekFirstFrom_ok (members : ∀ leaf ∈ reader.leaves, leaf ∈ readers) (serves : Serves image readers session)
    (ready : cursor.Ready image reader) {value : Unit} {after : Session × ColumnCursor}
    (run : cursor.seekFirstFrom session = .ok value after) : Serves image readers after.1 ∧
    after.2.At image reader 0 := by
  induction ready generalizing session after with
  | empty none =>
    cases run
    exact ⟨serves, .empty none⟩
  | @leaf reader cursor some ready =>
    obtain ⟨⟨mid, reached⟩, moved, rfl⟩ := rewrap_eq_ok run
    obtain ⟨_, _, serving, there⟩ :=
      (LeafCursor.seekFirst_meets (members reader List.mem_cons_self) serves ready.reader_eq).of_ok moved
    exact ⟨serving, .leaf there⟩
  | @array items lengths flags cursor inner some ready itemRows inside ih =>
    obtain ⟨inItems, member, members'⟩ := ColumnReader.leaves_array members
    rw [seekFirstFrom] at run
    cases first : ArrayCursor.seekFirst (session, cursor) with
    | error error mid => simp [first] at run
    | ok _ mid =>
      obtain ⟨serving, placed, kept⟩ := ArrayCursor.seekFirst_ok member members' serves ready first
      simp only [first] at run
      cases rest : inner.seekFirstFrom mid.1 with
      | error error last => simp [rest] at run
      | ok _ last =>
        obtain ⟨served, there⟩ := ih inItems serving rest
        simp only [rest] at run
        cases run
        exact ⟨served, .array ⟨placed.lengths, placed.flags⟩ (kept.trans itemRows) rfl rfl there⟩

end ColumnCursor

end Columnar
