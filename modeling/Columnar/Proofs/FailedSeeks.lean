import Columnar.Proofs.LeafHistory
import Columnar.Proofs.SinkIntakes

namespace Columnar

open Columnar.Action Session

/-- A seek inside a page that fails has moved the null map, where there is one, and nothing else. -/
theorem DataPage.Within.seek_error {opened page left : DataPage} (sound : opened.Sound)
    (within : Within opened page) {row : Nat} (inside : row ≤ opened.rows) {error : Error}
    (fails : DataPage.seek row page = .error error left) :
    ∃ offset nulls index, page = opened.placed offset nulls index ∧ left = opened.placed offset row index ∧
      (opened.nulls.isSome → nulls ≠ row) := by
  obtain ⟨offset, nulls, index, rfl, known, place, value⟩ := within
  have moved := sound.seek_placed offset nulls index inside
  rw [fails] at moved
  split at moved
  · cases moved
  · rename_i missing
    cases moved
    refine ⟨offset, nulls, index, rfl, rfl, ?_⟩
    rintro some rfl
    have none : opened.nulls ≠ none := Option.isSome_iff_ne_none.mp some
    simp [DataPage.seekTarget, none] at missing
    omega

/-- Where a null map has been moved to another row, the page has changed. -/
theorem DataPage.placed_eq_iff {page : DataPage} {offset nulls row index : Nat}
    (elsewhere : page.nulls.isSome → nulls ≠ row) :
    page.placed offset row index = page.placed offset nulls index ↔ page.nulls = none := by
  constructor
  · intro same
    rw [← Option.not_isSome_iff_eq_none]
    intro some
    obtain ⟨cursor, stored⟩ := Option.isSome_iff_exists.mp some
    have places := congrArg (fun page => page.nulls.map NullCursor.position) same
    simp only [placed_nulls, stored, Option.map_some, NullCursor.atRow_position, Option.some.injEq] at places
    exact elsewhere some places.symm
  · intro none
    simp only [placed, none, Option.map_none]

namespace LeafCursor

/-- A seek that slips: it comes to a page that has too few values, and that page is neither the one that reads go on
with, unless it has a null map, nor one that is open already and read to its end. -/
def SeekSlips (reader : LeafReader) (image : Bytes) (cursor : LeafCursor) (ordinal : Nat) : Prop :=
  cursor.seeked = true ∧ ordinal ≤ reader.rows ∧ ∃ page error left,
    seekPage reader image cursor.page ordinal = .ok (some page) ∧
    DataPage.seek (ordinal - page.first) page = .error error left ∧
    ¬(upNext reader image cursor.page = .ok (some page) ∧ page.nulls = none) ∧
    ¬(cursor.page = some page ∧ page.hasRemaining = false)

section Seeks

variable {image : Bytes} {readers : List LeafReader} {reader : LeafReader} {kind : StoreKind}
  {condition : LeafReader → Loaded → Prop} {session : Session} {cursor : LeafCursor} {ordinal : Nat}

/-- Where the page that is open does not hold a row, reads go on with a page that holds it from the start of that
page. -/
theorem upNext_starts {open_ : Option DataPage} {page : DataPage}
    (next : upNext reader image open_ = .ok (some page)) {row : Nat} (contains : page.contains row = true)
    (others : ∀ other ∈ open_, other.contains row = false) : page = page.atRow 0 := by
  cases open_ with
  | none => cases next
  | some other =>
    rw [upNext] at next
    split at next
    · obtain rfl := Option.some.inj (Except.ok.inj next)
      exact absurd ((others _ rfl).symm.trans contains) Bool.false_ne_true
    · exact (pageBehind_spec next).2

/-- What a seek leaves that fails inside its page: reads go on with the same page only if that is the page and has
no null map, or if the page was open already and read to its end. -/
theorem upNext_seek_error_iff (held : Held reader image cursor.page) (within : ordinal ≤ reader.rows)
    {page left : DataPage} (found : seekPage reader image cursor.page ordinal = .ok (some page)) {error : Error}
    (fails : DataPage.seek (ordinal - page.first) page = .error error left) :
    upNext reader image (some left) = upNext reader image cursor.page ↔
      (upNext reader image cursor.page = .ok (some page) ∧ page.nulls = none) ∨
        (cursor.page = some page ∧ page.hasRemaining = false) := by
  obtain ⟨held', contains, opens⟩ := seekPage_spec held within found
  have positive := held'.rows_pos
  obtain ⟨near, before, behind⟩ := seekRow_near within positive.1
  have bounds := contains
  rw [DataPage.contains, Bool.and_eq_true, decide_eq_true_eq, decide_eq_true_eq] at bounds
  obtain ⟨index, span, opened, listed, there, opened_, within'⟩ := held' page rfl
  obtain ⟨start, sound, _⟩ := LeafReader.openedIn_spec opened_
  have rows : page.rows = opened.rows := by
    obtain ⟨_, _, _, rfl, _⟩ := within'
    rfl
  obtain ⟨offset, nulls, value, rfl, rfl, elsewhere⟩ := within'.seek_error sound (by omega) fails
  have still : opened.placed offset (ordinal - (opened.placed offset nulls value).first) value =
      opened.placed offset nulls value ↔ opened.nulls = none := DataPage.placed_eq_iff elsewhere
  have none : (opened.placed offset nulls value).nulls = none ↔ opened.nulls = none := by
    rw [DataPage.placed_nulls, Option.map_eq_none_iff]
  have remaining (row : Nat) : (opened.placed offset row value).hasRemaining =
    (opened.placed offset nulls value).hasRemaining := rfl
  rcases opens with open_ | ⟨first, others⟩
  · rw [open_, upNext, upNext, remaining]
    by_cases more : (opened.placed offset nulls value).hasRemaining = true
    · simp only [more, if_true, Except.ok.injEq, Option.some.injEq, true_and, still, none, Bool.true_eq_false,
        and_false, or_false]
    · simp only [more, Bool.false_eq_true, if_false]
      exact iff_of_true rfl (.inr ⟨trivial, trivial⟩)
  · have start : offset = 0 := congrArg DataPage.offset first
    have more : (opened.placed offset nulls value).hasRemaining = true :=
      decide_eq_true (Nat.lt_of_le_of_lt (Nat.le_of_eq start) positive.2)
    have past : ¬(cursor.page = some (opened.placed offset nulls value) ∧
        (opened.placed offset nulls value).hasRemaining = false) := by
      rw [more]
      simp
    rw [or_iff_left past, upNext, remaining, if_pos more, none, ← still]
    constructor
    · intro same
      have reached : opened.placed offset (ordinal - opened.first) value = opened.placed offset nulls value := by
        have begins := upNext_starts same.symm contains others
        rw [DataPage.placed_atRow] at begins first
        exact begins.trans first.symm
      exact ⟨reached ▸ same.symm, reached⟩
    · rintro ⟨next, reached⟩
      rw [next]
      exact congrArg (fun page => Except.ok (some page)) reached

section Failures

variable (member : reader ∈ readers) (told : reader.ToldOrdinal image (condition reader))
  (told' : reader.ToldWords image (condition reader)) {error : Error} {mid : Session} {after : LeafCursor}

include member told told'

/-- A seek that fails leaves the rows ahead as they are exactly if it does not slip. -/
theorem sameAhead_seek_error_iff (sound : Sound kind condition image readers reader (session, cursor))
    (fails : seek ordinal (session, cursor) = .error error (mid, after)) :
    after.ordinal = cursor.ordinal ∧ Holds kind condition image readers mid ∧
      (SameAhead reader image after cursor ↔ ¬SeekSlips reader image cursor ordinal) := by
  obtain ⟨holds, bytes, pages, page, rfl, stays⟩ := seek_error member told told' sound fails
  have ahead : SameAhead reader image { cursor with bytesRead := bytes, pagesDecoded := pages, page } cursor ↔
      (cursor.seeked = true → upNext reader image page = upNext reader image cursor.page) :=
    ⟨SameAhead.ahead, fun ahead => ⟨sound.reader_eq, sound.reader_eq, rfl, ahead⟩⟩
  refine ⟨rfl, holds, ahead.trans ?_⟩
  rcases stays with ⟨rfl, none⟩ | ⟨within, made, error, left, found, refused, rfl⟩
  · refine iff_of_true (fun _ => rfl) ?_
    rintro ⟨_, within, made, _, _, found, _⟩
    obtain ⟨error, refused⟩ := none within
    cases found.symm.trans refused
  · rw [upNext_seek_error_iff sound.held within found refused]
    constructor
    · rintro stays ⟨seeked, _, other, _, _, found', _, next, done⟩
      cases found.symm.trans found'
      exact (stays seeked).elim next done
    · intro noSlip seeked
      by_contra moved
      rw [not_or] at moved
      exact noSlip ⟨seeked, within, made, error, left, found, refused, moved.1, moved.2⟩

end Failures

end Seeks

end LeafCursor

namespace SeekCall

/-- Only a seek to a row may slip. -/
def Slips (reader : LeafReader) (image : Bytes) (cursor : LeafCursor) : SeekCall → Prop
  | first => False
  | row ordinal => LeafCursor.SeekSlips reader image cursor ordinal
  | pageStart => ∃ page ∈ cursor.page, LeafCursor.SeekSlips reader image cursor page.first

variable {image : Bytes} {readers : List LeafReader} {reader : LeafReader} {kind : StoreKind}
  {condition : LeafReader → Loaded → Prop} {session mid : Session} {cursor after : LeafCursor} {error : Error}

theorem sameAhead_error_iff (member : reader ∈ readers) (told : reader.ToldOrdinal image (condition reader))
    (told' : reader.ToldWords image (condition reader))
    (sound : LeafCursor.Sound kind condition image readers reader (session, cursor)) (call : SeekCall)
    (fails : call.run (session, cursor) = .error error (mid, after)) :
    after.ordinal = cursor.ordinal ∧ Holds kind condition image readers mid ∧
      (LeafCursor.SameAhead reader image after cursor ↔ ¬call.Slips reader image cursor) := by
  have unmoved (bytes pages : Nat) :
      LeafCursor.SameAhead reader image { cursor with bytesRead := bytes, pagesDecoded := pages } cursor :=
    ⟨sound.reader_eq, sound.reader_eq, rfl, fun _ => rfl⟩
  cases call with
  | first =>
    obtain ⟨outcome, last, bytes, pages, _, holds, run⟩ :=
      LeafCursor.seekFirst_settles member told told' sound.holds sound.reader_eq
    rw [SeekCall.run, run] at fails
    cases outcome with
    | ok opened => cases fails
    | error error =>
      cases fails
      exact ⟨rfl, holds, iff_of_true (unmoved bytes pages) not_false⟩
  | row ordinal => exact LeafCursor.sameAhead_seek_error_iff member told told' sound fails
  | pageStart =>
    rw [SeekCall.run] at fails
    cases open_ : cursor.page with
    | none =>
      rw [LeafCursor.seekPageStart_of_none open_] at fails
      cases fails
      exact ⟨rfl, sound.holds, iff_of_true (unmoved cursor.bytesRead cursor.pagesDecoded) (by simp [Slips, open_])⟩
    | some page =>
      rw [LeafCursor.seekPageStart_of_some open_] at fails
      have slips : SeekCall.pageStart.Slips reader image cursor ↔
          LeafCursor.SeekSlips reader image cursor page.first := by
        simp [Slips, open_]
      rw [slips]
      exact LeafCursor.sameAhead_seek_error_iff member told told' sound fails

end SeekCall

/-- A seek that fails has not moved the place of the cursor, wherever calls have led it. Reads go on with the same
page exactly if the seek does not slip, and then all of them give the same rows, counts and failures. -/
theorem LeafCursor.Reached.seek_error_unmoved_iff {image : Bytes} {readers : List LeafReader} {reader : LeafReader}
    (member : reader ∈ readers) {cursor : LeafCursor} (reached : Reached image readers reader cursor)
    {session : Session} (serves : Serves image readers session) (call : SeekCall) {error : Error} {mid : Session}
    {after : LeafCursor} (fails : call.run (session, cursor) = .error error (mid, after)) :
    after.ordinal = cursor.ordinal ∧ (SameAhead reader image after cursor ↔ ¬call.Slips reader image cursor) ∧
      (¬call.Slips reader image cursor →
        ∀ reads, ReadCall.SameAnswers (Error.Near session.store.kind) reads (mid, after) (session, cursor)) := by
  obtain ⟨ordinal, holds, ahead⟩ := call.sameAhead_error_iff member LeafReader.Faithful.toldOrdinal
    LeafReader.Faithful.toldWords (reached.sound member serves) fails
  exact ⟨ordinal, ahead, fun noSlip reads => (ahead.mpr noSlip).sameAnswers member LeafReader.Faithful.toldOrdinal
    LeafReader.Faithful.toldWords reads holds serves.holds⟩

namespace ShortValues

/-! A column of four small integers in one page. The second and the last one are null, and the third one is
missing. -/

def page : Page := ⟨[5, 3, 10], .data (.ofStored 0 4 2 0)⟩

def column : LeafMeta where
  columnId := 1
  type := .integer .tiny
  isNullable := true
  rows := 4
  indexes := [.ordinal ⟨0, 36⟩ true]

def reader : LeafReader where
  column
  rows := 4
  access := { file := "short", options := { verifyChecksum := false } }
  coding := .packed 1
  indexes := { ordinal := some (⟨0, 36⟩, true) }

/-- The checksum of the page is left out. -/
def session : Session := { store := { image := page.covered ++ [0, 0, 0, 0] } }

def rows : Batch := .fixed { type := .integer .tiny, width := 1, nullable := true }

/-- Where a new cursor gets with a seek to the first row. -/
def started : Session × LeafCursor := leftBy (CursorCall.seek .first).run (session, { reader })

theorem serves : Serves session.store.image [reader] session := serves_of_fresh (.plain rfl) [] (by simp)

theorem started_reached : LeafCursor.Reached session.store.image [reader] reader started.2 :=
  .call serves (.new {}) _

theorem started_serves : Serves session.store.image [reader] started.1 :=
  (LeafCursor.Reached.new {}).serves_after List.mem_cons_self serves (.seek .first)

theorem failedSeeks_unmoved :
    LeafReader.create { verifyChecksum := false } column 4 "short" [] = .ok reader ∧
      (∃ error mid after, (SeekCall.row 3).run started = .error error (mid, after) ∧
        after.ordinal = started.2.ordinal ∧ (LeafCursor.SameAhead reader session.store.image after started.2 ↔
          ¬(SeekCall.row 3).Slips reader session.store.image started.2)) ∧
      ∃ error mid after, (SeekCall.row 5).run started = .error error (mid, after) ∧
        ∀ reads, ReadCall.SameAnswers (Error.Near .plain) reads (mid, after) started := by
  have unmoved {call error mid after} (fails : SeekCall.run call started = .error error (mid, after)) :=
    started_reached.seek_error_unmoved_iff List.mem_cons_self started_serves call fails
  have plain : started.1.store.kind = .plain := by cbv
  have short : ∃ error mid after, (SeekCall.row 3).run started = .error error (mid, after) := ⟨_, _, _, by cbv⟩
  have beyond : ∃ error mid after, (SeekCall.row 5).run started = .error error (mid, after) := ⟨_, _, _, by cbv⟩
  obtain ⟨error, mid, after, fails⟩ := short
  obtain ⟨error', mid', after', fails'⟩ := beyond
  refine ⟨by cbv, ⟨error, mid, after, fails, (unmoved fails).1, (unmoved fails).2.1⟩, error', mid', after',
    fails', ?_⟩
  rw [← plain]
  refine (unmoved fails').2.2 ?_
  rintro ⟨_, within, _⟩
  exact absurd within (by decide)

/-- A seek to the last row fails, as the value in front of it is missing. The read after it gives the null of that
row instead of the first row. -/
theorem failedSeek_slips :
    LeafCursor.Reached session.store.image [reader] reader started.2 ∧
      Serves session.store.image [reader] started.1 ∧
      (∃ filled after, ReadCall.run ⟨1, rows⟩ started = .ok (.ok ⟨1, false⟩, filled) after ∧
        Batch.flatRows filled = [some [5]]) ∧
      ∃ error left, (SeekCall.row 3).run started = .error error left ∧
        ∃ filled after, ReadCall.run ⟨1, rows⟩ left = .ok (.ok ⟨1, true⟩, filled) after ∧
          Batch.flatRows filled = [none] :=
  ⟨started_reached, started_serves, ⟨_, _, by cbv, by cbv⟩, _, _, by cbv, _, _, by cbv, by cbv⟩

end ShortValues

end Columnar
