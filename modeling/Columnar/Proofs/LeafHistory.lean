import Columnar.Proofs.PageHistory
import Columnar.Proofs.ReadsAhead

namespace Columnar

open Columnar.Action Session

/-- A seek of a cursor: to the first row, to any row, or to the first row of the open page. -/
inductive SeekCall where
  | first
  | row (ordinal : Nat)
  | pageStart

/-- A call on a cursor. -/
inductive CursorCall : Type 1 where
  | seek (call : SeekCall)
  | read (call : ReadCall)

def SeekCall.run : SeekCall → Action (Session × LeafCursor) Unit
  | first => LeafCursor.seekFirst
  | row ordinal => LeafCursor.seek ordinal
  | pageStart => LeafCursor.seekPageStart

/-- What a call answers with when it succeeds. -/
def CursorCall.Answer : CursorCall → Type
  | seek _ => Unit
  | read call => Except Error RowsRead × call.σ

def CursorCall.run : (call : CursorCall) → Action (Session × LeafCursor) call.Answer
  | seek call => call.run
  | read call => call.run

namespace LeafCursor

/-- The row that has to be on the page of a seek: behind the last row it is the last one. -/
def seekRow (reader : LeafReader) (ordinal : Nat) : Nat := if ordinal = reader.rows then ordinal - 1 else ordinal

/-- The page on which a seek is made: the one that is open if it holds the row, and otherwise the one that does. -/
def seekPage (reader : LeafReader) (image : Bytes) (page : Option DataPage) (ordinal : Nat) :
    Except Error (Option DataPage) :=
  if 0 < reader.rows ∧ !page.any (·.contains (seekRow reader ordinal)) then do
    let span ← reader.indexIn image >>= (·.find (seekRow reader ordinal))
    some <$> reader.openedIn image span
  else .ok page

/-- The page that is open is one of the leaf, with all its places somewhere on it. -/
def Held (reader : LeafReader) (image : Bytes) (page : Option DataPage) : Prop :=
  ∀ found ∈ page, ∃ index span opened, reader.indexIn image = .ok index ∧ index.span? span.page = some span ∧
    reader.openedIn image span = .ok opened ∧ DataPage.Within opened found

/-- The cursor reads a leaf, and the page that it has open is one of the leaf. -/
structure Belongs (image : Bytes) (reader : LeafReader) (cursor : LeafCursor) : Prop where
  reader_eq : cursor.reader = reader
  held : Held reader image cursor.page

/-- The session holds what has been loaded, and the cursor reads its leaf and holds a page of it. -/
structure Sound (kind : StoreKind) (condition : LeafReader → Loaded → Prop) (image : Bytes)
    (readers : List LeafReader) (reader : LeafReader) (state : Session × LeafCursor) : Prop where
  holds : Holds kind condition image readers state.1
  reader_eq : state.2.reader = reader
  held : Held reader image state.2.page

theorem Sound.belongs {kind : StoreKind} {condition : LeafReader → Loaded → Prop} {image : Bytes}
    {readers : List LeafReader} {reader : LeafReader} {state : Session × LeafCursor}
    (sound : Sound kind condition image readers reader state) :
    state.2.Belongs image reader := ⟨sound.reader_eq, sound.held⟩

section Pages

variable {image : Bytes} {reader : LeafReader} {cursor : LeafCursor} {ordinal : Nat}

theorem held_none : Held reader image none := nofun

theorem held_of_opened {index : OrdinalIndex} (listed : reader.indexIn image = .ok index) {span : PageSpan}
    {page : Nat} (there : index.span? page = some span) {opened : DataPage}
    (opens : reader.openedIn image span = .ok opened) : Held reader image (some opened) := by
  rintro found ⟨⟩
  obtain ⟨valid, _⟩ := LeafReader.indexIn_valid listed
  obtain ⟨number, _⟩ := valid.span_spec there
  obtain ⟨start, _⟩ := LeafReader.openedIn_spec opens
  exact ⟨index, span, opened, listed, number ▸ there, opens, .ofStart start⟩

/-- Whatever a call on the page comes to, it is still one of the leaf. -/
theorem Held.after {page : DataPage} (held : Held reader image (some page)) (call : PageCall) :
    Held reader image (some (call.after page)) := by
  rintro found ⟨⟩
  obtain ⟨index, span, opened, listed, there, opens, within⟩ := held page rfl
  obtain ⟨_, sound, _⟩ := LeafReader.openedIn_spec opens
  exact ⟨index, span, opened, listed, there, opens, within.after sound call⟩

/-- A page that is open holds rows of the leaf. -/
theorem Held.rows_pos {page : DataPage} (held : Held reader image (some page)) : 0 < reader.rows ∧
    0 < page.rows := by
  obtain ⟨index, span, opened, listed, there, opens, _, _, _, rfl, _⟩ := held page rfl
  obtain ⟨valid, rows⟩ := LeafReader.indexIn_valid listed
  obtain ⟨_, _, _, order, bound⟩ := valid.span_spec there
  obtain ⟨_, _, _, _, many, _⟩ := LeafReader.openedIn_spec opens
  rw [DataPage.placed_rows, many, PageSpan.rows]
  omega

/-- The page behind the open one is opened at its first row. -/
theorem pageBehind_spec {page behind : DataPage} (found : pageBehind reader image page = .ok (some behind)) :
    Held reader image (some behind) ∧ behind = behind.atRow 0 := by
  obtain ⟨index, listed, found⟩ := bind_eq_ok found
  cases there : index.span? (page.page + 1) with
  | none =>
    rw [there] at found
    cases found
  | some span =>
    rw [there] at found
    obtain ⟨opened, opens, same⟩ := map_eq_ok found
    cases same
    exact ⟨held_of_opened listed there opens, (LeafReader.openedIn_spec opens).1⟩

theorem Held.upNext {page : Option DataPage} (held : Held reader image page) {next : DataPage}
    (found : upNext reader image page = .ok (some next)) : Held reader image (some next) := by
  cases page with
  | none => cases found
  | some page =>
    rw [LeafCursor.upNext] at found
    split at found
    · cases found
      exact held
    · exact (pageBehind_spec found).1

theorem held_firstOpened {opened : DataPage} (found : firstOpened reader image = .ok opened) :
    Held reader image (some opened) := by
  obtain ⟨index, listed, found⟩ := bind_eq_ok found
  obtain ⟨span, first, opens⟩ := bind_eq_ok found
  exact held_of_opened listed (OrdinalIndex.firstSpan_eq_ok first) opens

theorem seekRow_near (within : ordinal ≤ reader.rows) (some : 0 < reader.rows) :
    seekRow reader ordinal < reader.rows ∧ seekRow reader ordinal ≤ ordinal ∧
    ordinal ≤ seekRow reader ordinal + 1 := by
  unfold seekRow
  split <;> omega

/-- The page of a seek is one of the leaf that holds the row. Unless it is open already, it is opened at its first
row. -/
theorem seekPage_spec (held : Held reader image cursor.page) (within : ordinal ≤ reader.rows) {page : DataPage}
    (found : seekPage reader image cursor.page ordinal = .ok (some page)) :
    Held reader image (some page) ∧ page.contains (seekRow reader ordinal) = true ∧
      (cursor.page = some page ∨ page = page.atRow 0 ∧
        ∀ other ∈ cursor.page, other.contains (seekRow reader ordinal) = false) := by
  unfold seekPage at found
  split at found
  · rename_i elsewhere
    obtain ⟨some, missing⟩ := elsewhere
    obtain ⟨span, finds, opens⟩ := bind_eq_ok found
    obtain ⟨index, listed, finds⟩ := bind_eq_ok finds
    obtain ⟨opened, opens, same⟩ := map_eq_ok opens
    cases same
    obtain ⟨valid, rows⟩ := LeafReader.indexIn_valid listed
    obtain ⟨other, finds', there, first, stop⟩ := valid.find_spec (seekRow reader ordinal)
      (rows ▸ (seekRow_near within some).1)
    cases finds.symm.trans finds'
    obtain ⟨start, _, _, number, many, _⟩ := LeafReader.openedIn_spec opens
    rw [PageSpan.rows] at many
    refine ⟨held_of_opened listed there opens, ?_, .inr ⟨start, fun other open_ => ?_⟩⟩
    · rw [DataPage.contains, Bool.and_eq_true, decide_eq_true_eq, decide_eq_true_eq]
      omega
    · simpa [Option.mem_def.mp open_] using missing
  · rename_i here
    have open_ : cursor.page = some page := Except.ok.inj found
    rw [open_] at held here
    have some := held.rows_pos.1
    simp only [some, true_and, Bool.not_eq_true', Option.any_some, Bool.not_eq_false] at here
    exact ⟨held, here, .inl open_⟩

theorem Held.seekPage (held : Held reader image cursor.page) (within : ordinal ≤ reader.rows)
    {page : Option DataPage} (found : seekPage reader image cursor.page ordinal = .ok page) :
    Held reader image page := by
  cases page with
  | none => exact held_none
  | some page => exact (seekPage_spec held within found).1

end Pages

section Calls

variable {image : Bytes} {readers : List LeafReader} {reader : LeafReader} {kind : StoreKind}
  {condition : LeafReader → Loaded → Prop} {session : Session} {cursor : LeafCursor} {ordinal : Nat}
  (member : reader ∈ readers) (told : reader.ToldOrdinal image (condition reader))
  (told' : reader.ToldWords image (condition reader))

include member told told'

omit member told told' in
theorem preserves_readPageRows {σ : Type} [Sink σ] (count : Nat) :
    Preserves (fun state : Session × LeafCursor × σ =>
      Sound kind condition image readers reader (state.1, state.2.1)) (readPageRows count) := by
  rintro ⟨session, cursor, sink⟩ sound
  cases open_ : cursor.page with
  | none =>
    have stays : readPageRows count (session, cursor, sink) = .ok {} (session, cursor, sink) := by
      simp only [readPageRows, open_]
    rwa [leftBy_ok stays]
  | some page =>
    have moves : readPageRows count (session, cursor, sink) = rewrap
        (fun moved => (session, { cursor with page := some moved.1 }, moved.2))
          (DataPage.next count (page, sink)) := by
      simp only [readPageRows, open_]
    have held : Held reader image (some page) := open_ ▸ sound.held
    rw [leftBy_rewrap moves]
    refine ⟨sound.holds, sound.reader_eq, ?_⟩
    have after := held.after (.next count sink)
    rwa [PageCall.after_next] at after

omit told in
/-- The page to open is found first. The one that was open stays if it cannot be found or opened. -/
theorem loadFound_settles {finds : Action Session PageSpan} {found : Except Error PageSpan}
    (settles : Settles (Error.Near kind) (Holds kind condition image readers) finds found)
    (holds : Holds kind condition image readers session) (same : cursor.reader = reader) :
    ∃ outcome mid bytes pages, Agree (Error.Near kind) outcome (found >>= reader.openedIn image) ∧
      Holds kind condition image readers mid ∧
      (onFirst finds >>= loadPage) (session, cursor) = match outcome with
        | .ok opened => .ok () (mid, { cursor with bytesRead := bytes, pagesDecoded := pages, page := some opened })
        | .error error => .error error (mid, { cursor with bytesRead := bytes, pagesDecoded := pages }) := by
  obtain ⟨outcome, mid, agree, holding, run⟩ := settles session holds
  rw [bind_apply, onFirst, run]
  cases found with
  | error error =>
    cases outcome with
    | ok span => exact agree.elim
    | error error' => exact ⟨.error error', mid, cursor.bytesRead, cursor.pagesDecoded, agree, holding, rfl⟩
  | ok span =>
    obtain rfl := agree.of_ok
    obtain ⟨outcome, last, size, agree, held, run⟩ := loadPage_settles holding member told' same span
    simp only [lift_ok, pure_apply, rewrap_ok]
    rw [run]
    cases outcome with
    | ok opened => exact ⟨.ok opened, last, size, cursor.pagesDecoded + 1, agree, held, rfl⟩
    | error error => exact ⟨.error error, last, size, cursor.pagesDecoded, agree, held, rfl⟩

/-- A seek opens the page it is made on, unless that is open, and then moves inside it. -/
theorem seek_settles (holds : Holds kind condition image readers session)
    (same : cursor.reader = reader) (within : ordinal ≤ reader.rows) :
    ∃ outcome mid bytes pages, Agree (Error.Near kind) outcome (seekPage reader image cursor.page ordinal) ∧
      Holds kind condition image readers mid ∧
      seek ordinal (session, cursor) = match outcome with
        | .ok page => (do seekInPage ordinal; settle ordinal : Action (Session × LeafCursor) Unit)
          (mid, { cursor with bytesRead := bytes, pagesDecoded := pages, page })
        | .error error => .error error (mid, { cursor with bytesRead := bytes, pagesDecoded := pages }) := by
  subst same
  rw [seek, bind_apply, get_apply]
  dsimp only
  rw [if_neg (Nat.not_lt.mpr within)]
  change ∃ outcome mid bytes pages, _ ∧ _ ∧ (do
    if 0 < cursor.reader.rows ∧ !cursor.page.any (·.contains (seekRow cursor.reader ordinal)) then
      let span ← onFirst (cursor.reader.findSpan (seekRow cursor.reader ordinal))
      loadPage span
    seekInPage ordinal
    settle ordinal : Action (Session × LeafCursor) Unit) (session, cursor) = _
  by_cases elsewhere : 0 < cursor.reader.rows ∧ !cursor.page.any (·.contains (seekRow cursor.reader ordinal))
  · rw [seekPage, if_pos elsewhere, if_pos elsewhere]
    have finds : Settles (Error.Near kind) (Holds kind condition image readers)
        (cursor.reader.findSpan (seekRow cursor.reader ordinal))
        (cursor.reader.indexIn image >>= (·.find (seekRow cursor.reader ordinal))) :=
      (LeafReader.settles_ordinalIndex member told).bind fun index _ => Settles.lift (Error.nearness kind) _
    obtain ⟨outcome, mid, bytes, pages, agree, holding, run⟩ := loadFound_settles member told' finds holds rfl
    have opens : Agree (Error.Near kind) (outcome.map some) (some <$> (_ >>= cursor.reader.openedIn image)) :=
      agree.map some
    rw [map_bind] at opens
    refine ⟨outcome.map some, mid, bytes, pages, opens, holding, ?_⟩
    rw [← bind_assoc, bind_apply, run]
    cases outcome <;> rfl
  · rw [seekPage, if_neg elsewhere, if_neg elsewhere]
    exact ⟨.ok cursor.page, session, cursor.bytesRead, cursor.pagesDecoded, rfl, holds, rfl⟩

/-- A seek to the first row opens the first page. -/
theorem seekFirst_settles (holds : Holds kind condition image readers session) (same : cursor.reader = reader) :
    ∃ outcome mid bytes pages, Agree (Error.Near kind) outcome (firstOpened reader image) ∧
      Holds kind condition image readers mid ∧
      seekFirst (session, cursor) = match outcome with
        | .ok opened => .ok () (mid, { cursor with
          bytesRead := bytes, pagesDecoded := pages, page := some opened, ordinal := 0, seeked := true })
        | .error error => .error error (mid, { cursor with bytesRead := bytes, pagesDecoded := pages }) := by
  subst same
  have finds : Settles (Error.Near kind) (Holds kind condition image readers) cursor.reader.firstSpan
      (cursor.reader.indexIn image >>= OrdinalIndex.firstSpan) :=
    (LeafReader.settles_ordinalIndex member told).bind fun index _ => Settles.lift (Error.nearness kind) _
  obtain ⟨outcome, mid, bytes, pages, agree, holding, run⟩ := loadFound_settles member told' finds holds rfl
  rw [bind_assoc] at agree
  refine ⟨outcome, mid, bytes, pages, agree, holding, ?_⟩
  rw [seekFirst, bind_apply, get_apply]
  dsimp only
  rw [← bind_assoc, bind_apply, run]
  cases outcome <;> rfl

omit member told told' in
theorem preserves_seekInPage (ordinal : Nat) :
    Preserves (Sound kind condition image readers reader) (do seekInPage ordinal; settle ordinal) := by
  refine Preserves.bind ?_ fun _ state sound => ⟨sound.holds, sound.reader_eq, sound.held⟩
  rintro ⟨session, cursor⟩ sound
  cases open_ : cursor.page with
  | none =>
    have stays : seekInPage ordinal (session, cursor) = .ok () (session, cursor) := by simp only [seekInPage, open_]
    rwa [leftBy_ok stays]
  | some page =>
    have moves : seekInPage ordinal (session, cursor) =
        rewrap (fun page => (session, { cursor with page := some page }))
          (DataPage.seek (ordinal - page.first) page) := by
      simp only [seekInPage, open_]
    have held : Held reader image (some page) := open_ ▸ sound.held
    rw [leftBy_rewrap moves]
    exact ⟨sound.holds, sound.reader_eq, held.after (.seek (ordinal - page.first))⟩

theorem preserves_seek (ordinal : Nat) : Preserves (Sound kind condition image readers reader) (seek ordinal) := by
  rintro ⟨session, cursor⟩ ⟨holds, same, held⟩
  dsimp only at holds same held
  by_cases within : ordinal ≤ reader.rows
  · obtain ⟨outcome, mid, bytes, pages, agree, holding, run⟩ := seek_settles member told told' holds same within
    cases outcome with
    | error error =>
      rw [leftBy_error run]
      exact ⟨holding, same, held⟩
    | ok page =>
      dsimp only at run
      rw [leftBy_congr run]
      exact preserves_seekInPage ordinal _ ⟨holding, same,
        held.seekPage within (agree.symm (Error.nearness kind)).of_ok⟩
  · rw [leftBy_error (seek_beyond (same ▸ Nat.lt_of_not_le within) session)]
    exact ⟨holds, same, held⟩

omit member told told' in
/-- What every seek keeps is kept by a seek of the start of the page. -/
theorem preserves_seekPageStart {holds : Session × LeafCursor → Prop}
    (seeks : ∀ ordinal, Preserves holds (seek ordinal)) : Preserves holds seekPageStart := by
  rintro ⟨session, cursor⟩ kept
  cases open_ : cursor.page with
  | none => rwa [leftBy_error (seekPageStart_of_none open_ session)]
  | some page =>
    rw [leftBy_congr (seekPageStart_of_some open_ session)]
    exact seeks page.first (session, cursor) kept

theorem preserves_seekCall (call : SeekCall) : Preserves (Sound kind condition image readers reader) call.run := by
  cases call with
  | first =>
    rintro ⟨session, cursor⟩ ⟨holds, same, held⟩
    obtain ⟨outcome, mid, bytes, pages, agree, holding, run⟩ := seekFirst_settles member told told' holds same
    cases outcome with
    | error error =>
      rw [SeekCall.run, leftBy_error run]
      exact ⟨holding, same, held⟩
    | ok opened =>
      rw [SeekCall.run, leftBy_ok run]
      exact ⟨holding, same, held_firstOpened (agree.symm (Error.nearness kind)).of_ok⟩
  | row ordinal => exact preserves_seek member told told' ordinal
  | pageStart => exact preserves_seekPageStart (preserves_seek member told told')

theorem preserves_hasRow : Preserves (Sound kind condition image readers reader) hasRow := by
  rintro ⟨session, cursor⟩ ⟨holds, same, held⟩
  obtain ⟨outcome, mid, bytes, pages, _, holding, run⟩ := hasRow_settles member told told' holds same
  have after : leftBy hasRow (session, cursor) = (mid, { cursor with
      bytesRead := bytes, pagesDecoded := pages
      page := (upNext reader image cursor.page).toOption.join.or cursor.page }) := by
    cases outcome with
    | ok more => exact leftBy_ok run
    | error error => exact leftBy_error run
  rw [after]
  refine ⟨holding, same, ?_⟩
  dsimp only
  match found : upNext reader image cursor.page with
  | .ok (some page) => exact held.upNext found
  | .ok none => exact held
  | .error error => exact held

theorem preserves_readRows {σ : Type} [Sink σ] (steps count : Nat) :
    Preserves (fun state : Session × LeafCursor × σ =>
      Sound kind condition image readers reader (state.1, state.2.1)) (readRows steps count) := by
  induction steps generalizing count with
  | zero => exact Preserves.pure _
  | succ steps ih =>
    rw [readRows]
    split
    · exact Preserves.pure _
    · refine Preserves.bind (preserves_hasRow member told told').onFirstTwo fun more => ?_
      split
      · exact Preserves.pure _
      · refine Preserves.bind (preserves_readPageRows count) fun first => Preserves.bind ?_ fun _ =>
          (ih _).bind fun _ => Preserves.pure _
        exact fun state sound => ⟨sound.holds, sound.reader_eq, sound.held⟩

theorem preserves_next {σ : Type} [Sink σ] (count : Nat) :
    Preserves (fun state : Session × LeafCursor × σ =>
      Sound kind condition image readers reader (state.1, state.2.1)) (next count) := by
  rintro ⟨session, cursor, sink⟩ sound
  rw [next, leftBy_bind, get_apply]
  dsimp only
  cases cursor.seeked with
  | false => exact sound
  | true => exact preserves_readRows member told told' count count (session, cursor, sink) sound

/-- A read that keeps its sink to itself, if it succeeds or not. -/
theorem preserves_of_next {σ α : Type} [Sink σ] (count : Nat) (sink : σ) {step : Action (Session × LeafCursor) α}
    (left : ∀ session cursor, leftBy step (session, cursor) =
      ((leftBy (next count) (session, cursor, sink)).1, (leftBy (next count) (session, cursor, sink)).2.1)) :
    Preserves (Sound kind condition image readers reader) step := by
  rintro ⟨session, cursor⟩ sound
  rw [left]
  exact preserves_next member told told' count (session, cursor, sink) sound

theorem preserves_readCall (call : ReadCall) : Preserves (Sound kind condition image readers reader) call.run := by
  refine preserves_of_next member told told' call.count call.sink fun session cursor => ?_
  simp only [leftBy, Action.run, ReadCall.run]
  cases next call.count (session, cursor, call.sink) <;> rfl

/-- Whatever a call comes to, the cursor still holds a page of its leaf. -/
theorem preserves_call (call : CursorCall) : Preserves (Sound kind condition image readers reader) call.run := by
  cases call with
  | seek call => exact preserves_seekCall member told told' call
  | read call => exact preserves_readCall member told told' call

/-- A seek that fails has not moved the place. The page that is open is the one from before, or the one that the
seek was made on, as the failure has left it. -/
theorem seek_error (sound : Sound kind condition image readers reader (session, cursor))
    {error : Error} {mid : Session} {after : LeafCursor}
    (fails : seek ordinal (session, cursor) = .error error (mid, after)) : Holds kind condition image readers mid ∧
      ∃ bytes pages page, after = { cursor with bytesRead := bytes, pagesDecoded := pages, page } ∧
        (page = cursor.page ∧ (ordinal ≤ reader.rows → ∃ error,
          seekPage reader image cursor.page ordinal = .error error) ∨
          ordinal ≤ reader.rows ∧ ∃ made error left, seekPage reader image cursor.page ordinal = .ok (some made) ∧
            DataPage.seek (ordinal - made.first) made = .error error left ∧ page = some left) := by
  obtain ⟨holds, same, held⟩ := sound
  dsimp only at holds same held
  by_cases within : ordinal ≤ reader.rows
  · obtain ⟨outcome, last, bytes, pages, agree, holding, run⟩ := seek_settles member told told' holds same within
    rw [run] at fails
    cases outcome with
    | error error' =>
      cases fails
      refine ⟨holding, bytes, pages, cursor.page, rfl, .inl ⟨rfl, fun _ => ?_⟩⟩
      cases made : seekPage reader image cursor.page ordinal with
      | ok page =>
        rw [made] at agree
        exact agree.elim
      | error error => exact ⟨error, rfl⟩
    | ok page =>
      have made := (agree.symm (Error.nearness kind)).of_ok
      rcases bind_error fails with fails | ⟨_, _, _, fails⟩
      · cases page with
        | none => cases fails
        | some page =>
          obtain ⟨left, refused, moved⟩ := rewrap_eq_error fails
          cases moved
          exact ⟨holding, bytes, pages, some left, rfl, .inr ⟨within, page, error, left, made, refused, rfl⟩⟩
      · cases fails
  · rw [seek_beyond (same ▸ Nat.lt_of_not_le within) session] at fails
    cases fails
    exact ⟨holds, cursor.bytesRead, cursor.pagesDecoded, cursor.page, rfl,
      .inl ⟨rfl, fun inside => absurd inside within⟩⟩

theorem seek_ok_seeked (sound : Sound kind condition image readers reader (session, cursor)) {value : Unit}
    {mid : Session} {after : LeafCursor} (run : seek ordinal (session, cursor) = .ok value (mid, after)) :
    after.seeked = true := by
  by_cases within : ordinal ≤ reader.rows
  · obtain ⟨outcome, _, _, _, _, _, moves⟩ := seek_settles member told told' sound.holds sound.reader_eq within
    rw [moves] at run
    cases outcome with
    | error error => cases run
    | ok page =>
      obtain ⟨_, _, _, settled⟩ := bind_ok run
      cases settled
      rfl
  · have beyond := seek_beyond (sound.reader_eq ▸ Nat.lt_of_not_le within) session
    rw [beyond] at run
    cases run

/-- A cursor that may read still may, whatever a seek comes to. -/
theorem preserves_seeked_seek (ordinal : Nat) :
    Preserves (fun state => Sound kind condition image readers reader state ∧ state.2.seeked = true)
      (seek ordinal) := by
  rintro ⟨session, cursor⟩ ⟨sound, seeked⟩
  refine ⟨preserves_seek member told told' ordinal (session, cursor) sound, ?_⟩
  rcases run : seek ordinal (session, cursor) with ⟨_, mid, after⟩ | ⟨error, mid, after⟩
  · rw [leftBy_ok run]
    exact seek_ok_seeked member told told' sound run
  · obtain ⟨_, _, _, _, rfl, _⟩ := seek_error member told told' sound run
    rw [leftBy_error run]
    exact seeked

theorem preserves_seeked_pageStart :
    Preserves (fun state => Sound kind condition image readers reader state ∧ state.2.seeked = true)
      seekPageStart :=
  preserves_seekPageStart (preserves_seeked_seek member told told')

theorem preserves_seeked_next {σ : Type} [Sink σ] (count : Nat) :
    Preserves (fun state : Session × LeafCursor × σ =>
      Sound kind condition image readers reader (state.1, state.2.1) ∧ state.2.1.seeked = true) (next count) := by
  have onward : Onward (· = ·) (fun session other => session = other ∧ Holds kind condition image readers session)
      (fun cursor other => cursor = other ∧ cursor.reader = reader ∧ cursor.seeked = true) := by
    refine ⟨?_, ?_, ?_⟩
    · rintro ⟨session, cursor⟩ ⟨_, _⟩ ⟨⟨rfl, holds⟩, rfl, same, seeked⟩
      obtain ⟨outcome, mid, bytes, pages, _, holding, run⟩ := hasRow_settles member told told' holds same
      rw [run]
      cases outcome with
      | ok more => exact ⟨rfl, ⟨⟨rfl, holding⟩, rfl, same, seeked⟩, fun _ => rfl⟩
      | error error => exact ⟨rfl, ⟨rfl, holding⟩, rfl, same, seeked⟩
    · rintro cursor _ page ⟨rfl, same, seeked⟩
      exact ⟨rfl, same, seeked⟩
    · rintro cursor _ rows ⟨rfl, same, seeked⟩
      exact ⟨rfl, same, seeked⟩
  have uniform : Uniform (· = ·) _ (next count : Action (Session × LeafCursor × σ) RowsRead) :=
    next_uniform nearness_eq onward (fun cursor cursor' same => ⟨congrArg _ same.1, congrArg _ same.1⟩) count
  have seeked : Preserves (fun state : Session × LeafCursor × σ =>
      Holds kind condition image readers state.1 ∧ state.2.1.reader = reader ∧ state.2.1.seeked = true)
        (next count) := by
    refine uniform.preserves ?_ ?_
    · rintro state ⟨holds, same, seeked⟩
      exact ⟨⟨rfl, holds⟩, ⟨rfl, same, seeked⟩, rfl⟩
    · rintro state other ⟨⟨_, holds⟩, ⟨_, same, seeked⟩, _⟩
      exact ⟨holds, same, seeked⟩
  rintro state ⟨sound, may⟩
  exact ⟨preserves_next member told told' count state sound, (seeked state ⟨sound.holds, sound.reader_eq, may⟩).2.2⟩

end Calls

/-- A cursor to which calls lead from a new one. Each call may find another session that serves the leaves, as
others may have been made in between. -/
inductive Reached (image : Bytes) (readers : List LeafReader) (reader : LeafReader) : LeafCursor → Prop
  | new (options : CursorOptions) : Reached image readers reader { reader, options }
  | call {session : Session} {cursor : LeafCursor} (serves : Serves image readers session)
      (reached : Reached image readers reader cursor) (call : CursorCall) :
      Reached image readers reader (leftBy call.run (session, cursor)).2

theorem Reached.sound {image : Bytes} {readers : List LeafReader} {reader : LeafReader} {cursor : LeafCursor}
    (member : reader ∈ readers) (reached : Reached image readers reader cursor) {session : Session}
    (serves : Serves image readers session) :
    Sound session.store.kind (fun reader => reader.Faithful image) image readers reader (session, cursor) := by
  induction reached generalizing session with
  | new options => exact ⟨serves.holds, rfl, held_none⟩
  | call earlier _ call ih =>
    have after := preserves_call member LeafReader.Faithful.toldOrdinal LeafReader.Faithful.toldWords call
      _ (ih earlier)
    exact ⟨serves.holds, after.reader_eq, after.held⟩

/-- A call leaves a session that serves the leaves. -/
theorem Reached.serves_after {image : Bytes} {readers : List LeafReader} {reader : LeafReader} {cursor : LeafCursor}
    (member : reader ∈ readers) (reached : Reached image readers reader cursor) {session : Session}
    (serves : Serves image readers session) (call : CursorCall) :
    Serves image readers (leftBy call.run (session, cursor)).1 :=
  (preserves_call member LeafReader.Faithful.toldOrdinal LeafReader.Faithful.toldWords call _
    (reached.sound member serves)).holds.serves

end LeafCursor

end Columnar
