import Columnar.Proofs.ColumnSeeks
import Columnar.Proofs.CreatedColumns
import Columnar.Proofs.LeafPlaces
import Columnar.Proofs.RefusedReads
import Columnar.Proofs.SeekPlaces

namespace Columnar

open Columnar.Action Session

namespace DataPage

variable {opened page : DataPage}

/-- A page in step with all its places has them where a seek to its row would take them. -/
theorem Within.eq_atRow (within : Within opened page) (aligned : page.Aligned) :
    page = opened.atRow page.offset := by
  obtain ⟨offset, nulls, index, rfl, _⟩ := within
  obtain ⟨inStep, rfl⟩ := placed_aligned_iff.mp aligned
  cases stored : opened.nulls with
  | none => simp only [atRow, placed, stored, Option.map_none]
  | some cursor =>
    obtain rfl : nulls = offset := inStep (by simp [stored])
    rfl

/-- Rows that have their values are read from the start of a page. If the sink refuses them, the page stays there
exactly if it has no null map, as the null map moves first. -/
theorem Sound.next_start_error {σ : Type} [Sink σ] (sound : opened.Sound)
    (noFlags : opened.values.values.areFlags = false) {count : Nat} (within : count ≤ opened.rows)
    (enough : opened.valuesBefore count ≤ opened.values.count) {sink rest : σ} {error : Error} {left : DataPage}
    (fails : next count (opened.atRow 0, sink) = .error error (left, rest)) :
    Within opened left ∧ left.offset = 0 ∧ (left.Aligned ↔ opened.nulls = none) := by
  have start : Within opened (opened.atRow 0) := ⟨0, 0, 0, rfl, Nat.zero_le _, Nat.zero_le _, Nat.zero_le _⟩
  have stays := start.next sound count sink
  have inStep := (opened.atRow_aligned 0).after_iff sound start (.next count sink)
  rw [fails] at stays
  rw [PageCall.after_of_error (PageCall.run_next_error fails)] at inStep
  refine ⟨stays.1, stays.2, inStep.trans ?_⟩
  cases stored : opened.nulls with
  | some nulls => exact iff_of_false (fun noSlip => noSlip ⟨⟨_, _, fails⟩, .inl (by simp [atRow, stored])⟩) nofun
  | none =>
    refine iff_of_true ?_ rfl
    rintro ⟨_, nulls | ⟨_, passes⟩⟩
    · simp [atRow, stored] at nulls
    have all : (opened.atRow 0).readable count = count := Nat.min_eq_left within
    rw [valuesBefore_of_noNulls stored within] at enough
    rw [next_noNulls (by simp [atRow, stored]), all] at fails
    rw [all, atRow, placed_values, valuesBefore_zero, ValueCursor.found,
      Nat.min_eq_left (by exact enough)] at passes
    obtain flags | ⟨_, _, pushed⟩ := passes
    · exact Bool.false_ne_true (noFlags.symm.trans flags)
    · rw [bind_apply, atRow, valuesBefore_zero, readValues_of_push (by exact enough) pushed] at fails
      cases fails

end DataPage

namespace LeafCursor

variable {image : Bytes} {reader : LeafReader} {span : PageSpan} {session mid : Session}
  {cursor after other : LeafCursor} {place : Nat}

/-- The open page holds its first row. -/
theorem Open.contains_first (on : cursor.Open reader image span place) {opened : DataPage}
    (opens : reader.openedIn image span = .ok opened) (row : Nat) :
    (opened.atRow row).contains (seekRow reader span.first) = true := by
  obtain ⟨index, listed, there⟩ := on.span_eq
  obtain ⟨valid, all⟩ := LeafReader.indexIn_valid listed
  obtain ⟨_, _, _, filled, bound⟩ := valid.span_spec there
  obtain ⟨_, _, _, number, rows, _⟩ := LeafReader.openedIn_spec opens
  have number' : (opened.atRow row).first = span.first := number
  have rows' : (opened.atRow row).rows = opened.rows := rfl
  rw [PageSpan.rows] at rows
  rw [seekRow, if_neg (by omega), DataPage.contains, number', rows', Bool.and_eq_true, decide_eq_true_eq,
    decide_eq_true_eq]
  omega

/-- The first row of the open page is always there to go to. -/
theorem Open.seek_first (on : cursor.Open reader image span place) {opened : DataPage}
    (opens : reader.openedIn image span = .ok opened) (session : Session) :
    seek span.first (session, cursor) = .ok ()
      (session, { cursor with page := some (opened.atRow 0), ordinal := span.first, seeked := true }) := by
  obtain ⟨index, listed, there⟩ := on.span_eq
  obtain ⟨_, opens', held, _⟩ := on.page_eq
  cases opens.symm.trans opens'
  obtain ⟨valid, all⟩ := LeafReader.indexIn_valid listed
  obtain ⟨_, _, _, filled, bound⟩ := valid.span_spec there
  obtain ⟨_, sound, _, number, _⟩ := LeafReader.openedIn_spec opens
  have number' : (opened.atRow (place - span.first)).first = span.first := number
  have moved := sound.seek_atRow (place - span.first) (Nat.zero_le _) (Nat.zero_le _)
  have here := on.contains_first opens (place - span.first)
  obtain rfl := on.reader_eq
  rw [seek_within (by omega), if_neg (by simp [held, here])]
  simp only [bind_apply, seekInPage, held, number', Nat.sub_self, moved, rewrap_ok]
  rfl

/-- A cursor that has gone back to the first row of the open page is at that row. -/
theorem Open.at_first (on : cursor.Open reader image span place) {opened : DataPage}
    (opens : reader.openedIn image span = .ok opened) :
    LeafCursor.Open reader image span span.first
      { cursor with page := some (opened.atRow 0), ordinal := span.first, seeked := true } :=
  ⟨on.reader_eq, on.span_eq, ⟨opened, opens, by rw [Nat.sub_self], by simp⟩, Nat.le_refl _,
    on.first_le.trans on.le_stop⟩

/-- A read that stays on the open page fails with what is left of that page. -/
theorem next_error_of_page {σ : Type} [Sink σ] {page : DataPage} (seeked : cursor.seeked = true)
    (held : cursor.page = some page) {count : Nat} (within : count ≤ page.remaining) {sink rest : σ} {error : Error}
    (fails : next count (session, cursor, sink) = .error error (mid, after, rest)) :
    ∃ left, DataPage.next count (page, sink) = .error error (left, rest) ∧
      after = { cursor with page := some left } := by
  rw [next, bind_apply, get_apply] at fails
  simp only [seeked, Bool.not_true, Bool.false_eq_true, if_false] at fails
  cases count with
  | zero => cases fails
  | succ more =>
    have remaining : cursor.page.any DataPage.hasRemaining = true := by
      rw [held]
      exact decide_eq_true (Nat.lt_of_sub_pos (Nat.lt_of_lt_of_le (Nat.succ_pos more) within))
    have row : hasRow (session, cursor) = .ok true (session, cursor) := by
      rw [hasRow, bind_apply, get_apply]
      simp only [remaining, if_true]
      rfl
    rw [readRows] at fails
    simp only [Nat.succ_ne_zero, if_false, bind_apply, onFirstTwo, row, rewrap_ok, Bool.not_true,
      Bool.false_eq_true, readPageRows, held] at fails
    rcases reads : DataPage.next (more + 1) (page, sink) with ⟨read, left, filled⟩ | ⟨error, left, filled⟩
    · have all : read.rows = more + 1 := (DataPage.next_rows reads).trans (Nat.min_eq_left within)
      simp only [reads, rewrap_ok, onSecond, modify_apply, all, Nat.sub_self] at fails
      cases more <;> cases fails
    · simp only [reads, rewrap_error] at fails
      cases fails
      exact ⟨left, rfl, rfl⟩

theorem pageFrom_aligned {page : DataPage} (found : pageFrom reader image place = .ok (some page)) :
    page.Aligned := by
  unfold pageFrom at found
  split at found
  · cases found
  · obtain ⟨span, _, opens⟩ := bind_eq_ok found
    obtain ⟨opened, _, same⟩ := bind_eq_ok opens
    cases same
    exact opened.atRow_aligned _

/-- A cursor whose page has come out of step does not go on as one at a row does. -/
theorem At.aligned_of_sameAhead (at_ : other.At reader image place) {left : DataPage}
    (held : after.page = some left) (more : left.hasRemaining = true) (same : SameAhead reader image after other) :
    left.Aligned := by
  have next := same.ahead (same.seeked.trans at_.seeked)
  rw [held, upNext, if_pos more, at_.upNext_eq] at next
  exact pageFrom_aligned next.symm

/-- After a read from the first row of a page that fails the cursor is still at that row exactly if the page has no
null map. -/
theorem At.next_error_sameAhead_iff {σ : Type} [Sink σ] (at_ : cursor.At reader image span.first)
    (on : cursor.Open reader image span span.first) (noFlags : reader.coding ≠ .bits) {opened : DataPage}
    (opens : reader.openedIn image span = .ok opened) {count : Nat} (within : count ≤ opened.rows)
    (enough : opened.valuesBefore count ≤ opened.values.count) {sink rest : σ} {error : Error}
    (fails : next count (session, cursor, sink) = .error error (mid, after, rest))
    (elsewhere : other.At reader image place) :
    SameAhead reader image after other ↔ opened.nulls = none ∧ place = span.first := by
  obtain ⟨_, opens', held, _⟩ := on.page_eq
  cases opens.symm.trans opens'
  rw [Nat.sub_self] at held
  obtain ⟨_, sound, _, _, _, coding⟩ := LeafReader.openedIn_spec opens
  obtain ⟨left, refused, rfl⟩ := next_error_of_page at_.seeked held within fails
  have plain : opened.values.values.areFlags = false :=
    Bool.eq_false_iff.mpr fun flags => noFlags (coding.areFlags_iff.mp flags)
  obtain ⟨kept, start, inStep⟩ := sound.next_start_error plain within enough refused
  have contains := on.contains_first opens 0
  rw [← inStep]
  by_cases aligned : left.Aligned
  · have same : left = opened.atRow 0 := start ▸ kept.eq_atRow aligned
    have back : LeafCursor.At reader image span.first { cursor with page := some left } :=
      ⟨at_.seeked, at_.ordinal, span, on.of_page rfl (same ▸ held.symm)⟩
    rw [and_iff_right aligned, eq_comm]
    exact back.sameAhead_iff elsewhere rfl (same ▸ contains)
  · refine iff_of_false (fun same => aligned ?_) fun both => aligned both.1
    obtain ⟨_, _, _, rfl, _⟩ := kept
    rw [DataPage.placed_offset] at start
    have more : 0 < opened.rows := by
      rw [DataPage.contains, Bool.and_eq_true, decide_eq_true_eq, decide_eq_true_eq] at contains
      have rows : (opened.atRow 0).rows = opened.rows := rfl
      omega
    exact elsewhere.aligned_of_sameAhead rfl (decide_eq_true (Nat.lt_of_le_of_lt (Nat.le_of_eq start) more)) same

end LeafCursor

namespace ArrayCursor

variable {image : Bytes} {readers : List LeafReader} {lengths : LeafReader} {session mid : Session}
  {cursor after : ArrayCursor} {row place : Nat} {error : Error}

/-- Where counting the items before a row leaves the lengths if it fails. They stay at the row if their type is not
one of lengths. Otherwise they have gone back to the first row of the page that holds the row, and they are still
there if no row of that page is null. If one is, they are at no row. -/
def CountLeavesAt (image : Bytes) (lengths : LeafReader) (row place : Nat) : Prop :=
  match OffsetBuffer.create lengths.column.type with
  | .error _ => place = row
  | .ok _ => ∃ page, LeafCursor.pageFrom lengths image row = .ok (some page) ∧ page.nulls = none ∧
      place = page.first

/-- Items cannot be counted because their lengths have another type, or because the rows from the start of the page
on cannot be read. -/
theorem itemsBefore_eq_error {page : DataPage} (held : cursor.lengths.page = some page) {back : Session}
    {there : LeafCursor} (moved : LeafCursor.seek page.first (session, cursor.lengths) = .ok () (back, there))
    (fails : itemsBefore row (session, cursor) = .error error (mid, after)) :
    (∃ refused, OffsetBuffer.create cursor.lengths.reader.column.type = .error refused) ∧ after = cursor ∨
      ∃ empty, OffsetBuffer.create cursor.lengths.reader.column.type = .ok empty ∧ page.first < row ∧
        ((∃ stopped filled, LeafCursor.next (row - page.first) (back, there, empty) =
            .error error (mid, stopped, filled) ∧ after = { cursor with lengths := stopped }) ∨
          ∃ read state, LeafCursor.next (row - page.first) (back, there, empty) = .ok read state ∧
            read.rows ≠ row - page.first) := by
  have starts := onLengths_ok ((LeafCursor.seekPageStart_of_some held session).trans moved)
  rw [itemsBefore, bind_apply, get_apply] at fails
  simp only [held] at fails
  by_cases start : row - page.first = 0
  · simp only [start, if_true] at fails
    cases fails
  · simp only [start, if_false] at fails
    rcases created : OffsetBuffer.create cursor.lengths.reader.column.type with refused | empty
    · rw [created] at fails
      cases fails
      exact .inl ⟨⟨_, rfl⟩, rfl⟩
    · refine .inr ⟨empty, rfl, by omega, ?_⟩
      rw [created, lift_ok, bind_apply, pure_apply] at fails
      dsimp only at fails
      rw [bind_apply, starts] at fails
      rcases next : LeafCursor.next (row - page.first) (back, there, empty) with ⟨read, last, stopped, filled⟩ |
        ⟨error, last, stopped, filled⟩
      · refine .inr ⟨read, _, rfl, ?_⟩
        intro all
        simp only [bind_apply, onLengths, onPart, next, rewrap_ok, all, ne_eq, not_true_eq_false, if_false] at fails
        cases fails
      · simp only [bind_apply, onLengths, onPart, next, rewrap_error] at fails
        cases fails
        exact .inl ⟨stopped, filled, rfl, rfl⟩

/-- Lengths are not stored as bits. -/
theorem coding_ne_bits {type : ColumnType} {coding : Coding}
    (suits : LeafCursor.Suits (OffsetBuffer.intake type) coding) : coding ≠ .bits := by
  intro bits
  have narrow : some (OffsetBuffer.widthOf type) = some 1 := suits (.flags []) (bits ▸ trivial)
  exact OffsetBuffer.widthOf_ne_one _ (Option.some.inj narrow)

/-- After the items before a row could not be counted, the lengths have the same rows ahead as at a place exactly if
they have been left there. -/
theorem itemsBefore_error_sameAhead_iff {encoding : Encoding}
    (resolved : Coding.resolve lengths.column.type encoding = .ok lengths.coding) (member : lengths ∈ readers)
    (serves : Serves image readers session) (at_ : cursor.lengths.At lengths image row) (below : row < lengths.rows)
    {page : DataPage} (open_ : cursor.lengths.page = some page) (contains : page.contains row = true)
    (fails : itemsBefore row (session, cursor) = .error error (mid, after)) {other : LeafCursor}
    (elsewhere : other.At lengths image place) :
    LeafCursor.SameAhead lengths image after.lengths other ↔ CountLeavesAt image lengths row place := by
  obtain ⟨span, on⟩ := at_.on
  obtain ⟨opened, opens, held, enough⟩ := on.page_eq
  obtain ⟨_, _, _, number, rows, _⟩ := LeafReader.openedIn_spec opens
  have next : LeafCursor.pageFrom lengths image row = .ok (some page) :=
    at_.upNext_eq.symm.trans (at_.upNext_of_contains open_ contains)
  cases open_.symm.trans held
  have base : (opened.atRow (row - span.first)).first = span.first := number
  have moved := on.seek_first opens session
  obtain ⟨⟨refused, created⟩, rfl⟩ | ⟨empty, created, inside, outcome⟩ :=
    itemsBefore_eq_error held (base ▸ moved) fails
  · rw [on.reader_eq] at created
    have target : LeafCursor.seekRow lengths row = row := if_neg (Nat.ne_of_lt below)
    rw [CountLeavesAt, created]
    dsimp only
    rw [eq_comm]
    exact at_.sameAhead_iff elsewhere open_ (target.symm ▸ contains)
  · rw [on.reader_eq] at created
    obtain ⟨rfl, size⟩ := OffsetBuffer.create_eq_ok created
    have suits : LeafCursor.Suits (OffsetBuffer.intake lengths.column.type) lengths.coding :=
      suits_lengths resolved size
    have begun := on.at_first opens
    have start : LeafCursor.At lengths image span.first
        { cursor.lengths with page := some (opened.atRow 0), ordinal := span.first, seeked := true } :=
      ⟨rfl, rfl, span, begun⟩
    rw [base] at inside outcome
    rw [PageSpan.rows] at rows
    have stop := on.le_stop
    have bound := at_.within.2
    obtain ⟨stopped, filled, refused, rfl⟩ | ⟨read, ⟨_, _, _⟩, run, fewer⟩ := outcome
    · rw [start.next_error_sameAhead_iff begun (coding_ne_bits suits) opens (by omega) enough refused elsewhere,
        CountLeavesAt, created]
      dsimp only
      have none : (opened.atRow (row - span.first)).nulls = none ↔ opened.nulls = none := by
        rw [DataPage.atRow, DataPage.placed_nulls, Option.map_eq_none_iff]
      constructor
      · rintro ⟨plain, rfl⟩
        exact ⟨_, next, none.mpr plain, base.symm⟩
      · rintro ⟨page, next', plain, rfl⟩
        cases next.symm.trans next'
        exact ⟨none.mp plain, base⟩
    · have fits : (OffsetBuffer.intake lengths.column.type).Fits { type := lengths.column.type } := rfl
      obtain ⟨_, _, _, _, _, rfl⟩ :=
        (LeafCursor.next_meets suits member serves start (row - span.first) fits).of_ok run
      exact absurd (Nat.min_eq_left (by omega)) fewer

end ArrayCursor

end Columnar
