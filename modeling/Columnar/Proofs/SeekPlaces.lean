import Columnar.Proofs.LeafHistory

namespace Columnar

open Columnar.Action Session

/-- One page alone holds a row. -/
theorem OrdinalIndex.Valid.find_eq {index : OrdinalIndex} (valid : index.Valid) {page : Nat} {span : PageSpan}
    (there : index.span? page = some span) {row : Nat} (first : span.first ≤ row) (stop : row < span.stop) :
    index.find row = .ok span := by
  obtain ⟨_, _, _, _, bound⟩ := valid.span_spec there
  obtain ⟨other, found, there', first', stop'⟩ := valid.find_spec row (Nat.lt_of_lt_of_le stop bound)
  rw [found, ← Option.some.inj ((valid.find?_spans there first stop).symm.trans
    (valid.find?_spans there' first' stop'))]

namespace LeafCursor

theorem Ready.held {image : Bytes} {reader : LeafReader} {cursor : LeafCursor} (ready : cursor.Ready reader image) :
    Held reader image cursor.page := by
  obtain none | ⟨span, place, on⟩ := ready.page
  · rw [none]
    exact held_none
  · obtain ⟨index, listed, there⟩ := on.span_eq
    obtain ⟨opened, opens, held, enough⟩ := on.page_eq
    obtain ⟨_, _, _, _, rows, _⟩ := LeafReader.openedIn_spec opens
    have first := on.first_le
    have stop := on.le_stop
    rw [PageSpan.rows] at rows
    rw [held]
    rintro page ⟨⟩
    exact ⟨index, span, opened, listed, there, opens, _, _, _, rfl, by omega, by omega, enough⟩

/-- The page with which a read from a row begins, at the row. There is none behind the last row. -/
def pageFrom (reader : LeafReader) (image : Bytes) (place : Nat) : Except Error (Option DataPage) :=
  if place = reader.rows then .ok none
  else do
    let span ← reader.indexIn image >>= (·.find place)
    let opened ← reader.openedIn image span
    return some (opened.atRow (place - span.first))

variable {image : Bytes} {readers : List LeafReader} {reader : LeafReader} {kind : StoreKind}
  {condition : LeafReader → Loaded → Prop} {session mid : Session} {cursor after : LeafCursor} {place ordinal : Nat}

theorem pageFrom_place (within : place ≤ reader.rows) {page : DataPage}
    (found : pageFrom reader image place = .ok (some page)) : page.first + page.offset = place := by
  unfold pageFrom at found
  split at found
  · cases found
  · obtain ⟨span, finds, opens⟩ := bind_eq_ok found
    obtain ⟨index, listed, finds⟩ := bind_eq_ok finds
    obtain ⟨opened, opened_, same⟩ := bind_eq_ok opens
    cases same
    obtain ⟨valid, rows⟩ := LeafReader.indexIn_valid listed
    obtain ⟨other, finds', _, first, _⟩ := valid.find_spec place (by omega)
    cases finds.symm.trans finds'
    obtain ⟨_, _, _, number, _⟩ := LeafReader.openedIn_spec opened_
    change opened.first + (place - span.first) = place
    omega

theorem At.upNext_eq (at_ : cursor.At reader image place) :
    upNext reader image cursor.page = pageFrom reader image place := by
  obtain ⟨span, on⟩ := at_.on
  obtain ⟨index, listed, there⟩ := on.span_eq
  obtain ⟨opened, opens, held, _⟩ := on.page_eq
  obtain ⟨_, _, number, _, rows, _⟩ := LeafReader.openedIn_spec opens
  obtain ⟨valid, all⟩ := LeafReader.indexIn_valid listed
  obtain ⟨_, _, stop, order, bound⟩ := valid.span_spec there
  have first := on.first_le
  rw [PageSpan.rows] at rows
  rw [held, upNext, pageFrom]
  by_cases inside : place < span.stop
  · have more : (opened.atRow (place - span.first)).hasRemaining = true := decide_eq_true (by
      change place - span.first < opened.rows
      omega)
    rw [if_pos more, if_neg (by omega), listed]
    simp only [bind, Except.bind, valid.find_eq there first inside, opens]
    rfl
  · obtain rfl : place = span.stop := Nat.le_antisymm on.le_stop (Nat.not_lt.mp inside)
    have done : ¬(opened.atRow (span.stop - span.first)).hasRemaining = true := by
      intro more
      have := of_decide_eq_true more
      change span.stop - span.first < opened.rows at this
      omega
    rw [if_neg done, pageBehind, listed]
    have number' : (opened.atRow (span.stop - span.first)).page = span.page := number
    simp only [bind, Except.bind, number']
    cases next : index.span? (span.page + 1) with
    | none =>
      have last : ¬span.page + 1 < index.pages.length := by
        rw [← OrdinalIndex.span?_isSome, next]
        simp
      have ends : span.stop = reader.rows := by
        rw [stop, ← all]
        simp [OrdinalIndex.startOf, last]
      rw [if_pos ends]
      rfl
    | some behind =>
      obtain ⟨_, start, _, order', bound'⟩ := valid.span_spec next
      have adjoins : behind.first = span.stop := by rw [stop, start]
      rw [if_neg (by omega)]
      simp only [valid.find_eq next (Nat.le_of_eq adjoins) (adjoins ▸ order')]
      rw [Option.mapM]
      cases opens' : reader.openedIn image behind with
      | error error => rfl
      | ok other =>
        have start := (LeafReader.openedIn_spec opens').1
        change Except.ok (some other) = Except.ok (some (other.atRow (span.stop - behind.first)))
        rw [adjoins, Nat.sub_self, ← start]

theorem seekPage_ne_none (some : 0 < reader.rows) : seekPage reader image cursor.page ordinal ≠ .ok none := by
  intro none
  unfold seekPage at none
  split at none
  · obtain ⟨_, _, opens⟩ := bind_eq_ok none
    obtain ⟨_, _, same⟩ := map_eq_ok opens
    cases same
  · rename_i here
    simp [Except.ok.inj none, some] at here

/-- The page of a seek, where the one that is open has everything at some row, has everything at some row too. -/
theorem seekPage_atRow (ready : cursor.Ready reader image) (within : ordinal ≤ reader.rows) {page : DataPage}
    (found : seekPage reader image cursor.page ordinal = .ok (some page)) :
    page.contains (seekRow reader ordinal) = true ∧ ∃ index span opened row, reader.indexIn image = .ok index ∧
      index.span? span.page = some span ∧ reader.openedIn image span = .ok opened ∧ page = opened.atRow row ∧
      row ≤ opened.rows := by
  obtain ⟨held', contains, open_ | ⟨start, _⟩⟩ := seekPage_spec ready.held within found
  · refine ⟨contains, ?_⟩
    obtain none | ⟨span, place, on⟩ := ready.page
    · rw [none] at open_
      cases open_
    · obtain ⟨index, listed, there⟩ := on.span_eq
      obtain ⟨opened, opens, held, _⟩ := on.page_eq
      obtain ⟨_, _, _, _, rows, _⟩ := LeafReader.openedIn_spec opens
      have first := on.first_le
      have stop := on.le_stop
      rw [PageSpan.rows] at rows
      exact ⟨index, span, opened, _, listed, there, opens, Option.some.inj (open_.symm.trans held), by omega⟩
  · obtain ⟨index, span, opened, listed, there, opens, offset, nulls, value, rfl, _⟩ := held' page rfl
    rw [DataPage.placed_atRow] at start
    exact ⟨contains, index, span, opened, 0, listed, there, opens, start, Nat.zero_le _⟩

/-- A seek that succeeds leads to its row, where the page that is open has everything at some row. -/
theorem Ready.seek_ok (member : reader ∈ readers) (told : reader.ToldOrdinal image (condition reader))
    (told' : reader.ToldWords image (condition reader)) (ready : cursor.Ready reader image) (some : 0 < reader.rows)
    (holds : Holds kind condition image readers session) {value : Unit}
    (run : seek ordinal (session, cursor) = .ok value (mid, after)) :
    Holds kind condition image readers mid ∧ after.At reader image ordinal ∧ ordinal ≤ reader.rows ∧
      ∃ page ∈ after.page, page.contains (seekRow reader ordinal) = true := by
  have within : ordinal ≤ reader.rows := by
    by_contra beyond
    rw [seek_beyond (ready.reader_eq ▸ Nat.lt_of_not_le beyond) session] at run
    cases run
  obtain ⟨outcome, last, bytes, pages, agree, holding, moves⟩ :=
    seek_settles member told told' holds ready.reader_eq within
  rw [moves] at run
  cases outcome with
  | error error => cases run
  | ok page =>
    have made := (agree.symm (Error.nearness kind)).of_ok
    cases page with
    | none => exact absurd made (seekPage_ne_none some)
    | some page =>
      obtain ⟨contains, index, span, opened, row, listed, there, opens, rfl, known⟩ :=
        seekPage_atRow ready within made
      obtain ⟨_, sound, _, number, rows, _⟩ := LeafReader.openedIn_spec opens
      have near := seekRow_near within some
      have bounds := contains
      rw [DataPage.contains, Bool.and_eq_true, decide_eq_true_eq, decide_eq_true_eq] at bounds
      have number' : (opened.atRow row).first = span.first := number
      have rows' : (opened.atRow row).rows = span.stop - span.first := rows
      rw [PageSpan.rows] at rows
      obtain ⟨_, ⟨last', moved⟩, first, rest⟩ := bind_ok run
      obtain ⟨left, inside, same⟩ := rewrap_eq_ok first
      cases same
      cases rest
      rw [number', DataPage.atRow, sound.seek_placed row row _ (by omega), DataPage.seekTarget_inStep _ fun _ =>
        rfl] at inside
      split at inside
      · rename_i enough
        cases inside
        refine ⟨holding, ⟨rfl, rfl, span, ready.reader_eq, ⟨index, listed, there⟩,
          ⟨opened, opens, rfl, enough⟩, by omega, by omega⟩, within, _, rfl, ?_⟩
        rw [← DataPage.atRow, DataPage.contains, Bool.and_eq_true, decide_eq_true_eq, decide_eq_true_eq]
        exact bounds
      · cases inside

/-- Reads go on from the row of a cursor that has the page of the row open. -/
theorem At.upNext_of_contains (here : after.At reader image ordinal) {page : DataPage}
    (open_ : after.page = some page) (contains : page.contains ordinal = true) :
    upNext reader image after.page = .ok (some page) := by
  obtain ⟨span, on⟩ := here.on
  obtain ⟨opened, opens, held, _⟩ := on.page_eq
  obtain ⟨_, _, _, number, _⟩ := LeafReader.openedIn_spec opens
  obtain rfl := Option.some.inj (held.symm.trans open_)
  have first := on.first_le
  rw [DataPage.contains, Bool.and_eq_true, decide_eq_true_eq, decide_eq_true_eq] at contains
  have more : (opened.atRow (ordinal - span.first)).hasRemaining = true := decide_eq_true (by
    change ordinal - span.first < opened.rows
    have below : ordinal < opened.first + opened.rows := contains.2
    omega)
  rw [open_, upNext, if_pos more]

/-- A cursor that has the page of its row open has the same rows ahead as another one exactly if that is at the row,
too. -/
theorem At.sameAhead_iff (here : after.At reader image ordinal) (at_ : cursor.At reader image place)
    {page : DataPage} (open_ : after.page = some page) (contains : page.contains (seekRow reader ordinal) = true) :
    SameAhead reader image after cursor ↔ ordinal = place := by
  have ahead : SameAhead reader image after cursor ↔
      pageFrom reader image ordinal = pageFrom reader image place := by
    rw [← here.upNext_eq, ← at_.upNext_eq]
    exact ⟨fun same => same.ahead here.seeked, fun same =>
      ⟨here.ready.reader_eq, at_.ready.reader_eq, here.seeked.trans at_.seeked.symm, fun _ => same⟩⟩
  rw [ahead]
  refine ⟨fun same => ?_, fun same => by rw [same]⟩
  by_cases ends : ordinal = reader.rows
  · have none : pageFrom reader image ordinal = .ok none := if_pos ends
    rw [none] at same
    unfold pageFrom at same
    split at same
    · rename_i ends'
      exact ends.trans ends'.symm
    · obtain ⟨_, _, opens⟩ := bind_eq_ok same.symm
      obtain ⟨_, _, same⟩ := bind_eq_ok opens
      cases same
  · rw [seekRow, if_neg ends] at contains
    have next : pageFrom reader image ordinal = .ok (some page) :=
      here.upNext_eq.symm.trans (here.upNext_of_contains open_ contains)
    exact (pageFrom_place here.within.2 next).symm.trans (pageFrom_place at_.within.2 (same.symm.trans next))

/-- A seek that succeeds leaves the rows ahead as they are exactly if it leads to the row where the cursor has
been. -/
theorem At.seek_ok_sameAhead_iff (member : reader ∈ readers) (told : reader.ToldOrdinal image (condition reader))
    (told' : reader.ToldWords image (condition reader)) (at_ : cursor.At reader image place)
    (holds : Holds kind condition image readers session) {value : Unit}
    (run : seek ordinal (session, cursor) = .ok value (mid, after)) :
    SameAhead reader image after cursor ↔ ordinal = place := by
  obtain ⟨_, there, _, _, open_, contains⟩ := at_.ready.seek_ok member told told' at_.within.1 holds run
  exact there.sameAhead_iff at_ open_ contains

/-- Cursors at one row have the same rows ahead. -/
theorem At.sameAhead (here : cursor.At reader image place) (there : after.At reader image place) :
    SameAhead reader image cursor after :=
  ⟨here.ready.reader_eq, there.ready.reader_eq, here.seeked.trans there.seeked.symm, fun _ =>
    here.upNext_eq.trans there.upNext_eq.symm⟩

theorem SameAhead.trans {other : LeafCursor} (first : SameAhead reader image cursor after)
    (second : SameAhead reader image after other) : SameAhead reader image cursor other :=
  ⟨first.reader_eq, second.other_eq, first.seeked.trans second.seeked, fun seeked =>
    (first.ahead seeked).trans (second.ahead (first.seeked ▸ seeked))⟩

theorem Belongs.sameAhead_refl (belongs : cursor.Belongs image reader) : SameAhead reader image cursor cursor :=
  ⟨belongs.reader_eq, belongs.reader_eq, rfl, fun _ => rfl⟩

end LeafCursor

end Columnar
