import Columnar.ColumnCursor
import Columnar.Proofs.LoadedOnce

namespace Columnar

open Columnar.Action Session

/-- Cursors on the rows of a leaf and on the words of its bitmap index, by number. -/
structure Cursors where
  rows : Nat → LeafCursor
  words : Nat → WordCursor

namespace Cursors

def setRows (number : Nat) (cursor : LeafCursor) (cursors : Cursors) : Cursors :=
  { cursors with rows := Function.update cursors.rows number cursor }

def setWords (number : Nat) (cursor : WordCursor) (cursors : Cursors) : Cursors :=
  { cursors with words := Function.update cursors.words number cursor }

/-- All cursors on rows read one leaf. -/
def On (reader : LeafReader) (cursors : Cursors) : Prop := ∀ number, (cursors.rows number).reader = reader

theorem On.setRows {reader : LeafReader} {cursors : Cursors} (on : cursors.On reader) {cursor : LeafCursor}
    (reads : cursor.reader = reader) (number : Nat) : (cursors.setRows number cursor).On reader := by
  intro other
  rw [Cursors.setRows]
  dsimp only
  by_cases same : other = number
  · rw [same, Function.update_self]
    exact reads
  · rw [Function.update_of_ne same]
    exact on other

end Cursors

/-- A call on the reader of a leaf, or on one of the cursors that it has given. A cursor on words may take any step,
as it has nothing to load. -/
inductive ReaderCall : Type 1 where
  | loadIndexes
  | pruneByZones (keep : Predicate) (delete : Option Predicate)
  | pruneByFilters (keep : Predicate) (rows : RowSet)
  | mayMatch (keep : Predicate)
  | openRows (number : Nat) (options : CursorOptions)
  | openWords (number : Nat)
  | onRows (number : Nat) (call : CursorCall)
  | rowsByZones (number : Nat) (keep : Predicate) (delete : Option Predicate) (rows : RowSet)
  | rowsByFilters (number : Nat) (keep : Predicate) (rows : RowSet)
  | onWords {α : Type} (number : Nat) (step : Action WordCursor α)

namespace ReaderCall

/-- What a call answers with when it succeeds. -/
def Answer : ReaderCall → Type
  | loadIndexes | openRows .. | openWords .. => Unit
  | pruneByZones .. | pruneByFilters .. | rowsByZones .. | rowsByFilters .. => RowSet
  | mayMatch .. => Bool
  | onRows _ call => call.Answer
  | onWords (α := α) .. => α

def run (reader : LeafReader) : (call : ReaderCall) → Action (Session × Cursors) call.Answer
  | loadIndexes => onFirst reader.loadIndexes
  | pruneByZones keep delete => onFirst (reader.pruneByZones keep delete)
  | pruneByFilters keep rows => onFirst (reader.pruneByFilters keep rows)
  | mayMatch keep => lift (reader.mayMatch keep)
  | openRows number options => onSecond (modify (Cursors.setRows number { reader, options }))
  | openWords number => do
    let words ← onFirst reader.wordCursor
    onSecond (modify (Cursors.setWords number words))
  | onRows number call =>
    onPart (fun (session, cursors) => (session, cursors.rows number))
      (fun (session, cursor) (_, cursors) => (session, cursors.setRows number cursor)) call.run
  | rowsByZones number keep delete rows => fun (session, cursors) =>
    rewrap (·, cursors) ((ColumnCursor.leaf (cursors.rows number)).rowsByZones keep delete rows session)
  | rowsByFilters number keep rows => fun (session, cursors) =>
    rewrap (·, cursors) ((ColumnCursor.leaf (cursors.rows number)).rowsByFilters keep rows session)
  | onWords number step => onSecond (onPart (·.words number) (Cursors.setWords number) step)

/-- What is left by calls one after the other. Each of them may fail. -/
def leave (reader : LeafReader) (calls : List ReaderCall) (state : Session × Cursors) : Session × Cursors :=
  calls.foldl (fun state call => leftBy (call.run reader) state) state

/-- The cursors are the same, and they read the leaf. -/
def OnLeaf (reader : LeafReader) (cursors other : Cursors) : Prop := cursors = other ∧ cursors.On reader

section Calls

variable {image : Bytes} {readers : List LeafReader} {reader : LeafReader} {start : Session}
  (member : reader ∈ readers)

include member

/-- A call does not tell what has been loaded. -/
theorem alongside (call : ReaderCall) :
    Uniform (Error.Near .plain) (Beside (Alongside image readers reader start) (OnLeaf reader))
      (call.run reader) := by
  cases call with
  | loadIndexes => exact Uniform.onFirst (LeafReader.loadIndexes_alongside member)
  | pruneByZones keep delete => exact Uniform.onFirst (LeafReader.pruneByZones_alongside member keep delete)
  | pruneByFilters keep rows => exact Uniform.onFirst (LeafReader.pruneByFilters_alongside member keep rows)
  | mayMatch keep => exact Uniform.lift (Error.nearness .plain) _
  | openRows number options =>
    exact Uniform.onSecond (Uniform.modify fun cursors _ same => ⟨congrArg _ same.1, same.2.setRows rfl number⟩)
  | openWords number =>
    exact (Uniform.onFirst (LeafReader.wordCursor_alongside member)).bind fun words =>
      Uniform.onSecond (Uniform.modify fun cursors _ same => ⟨congrArg _ same.1, same.2⟩)
  | onRows number call =>
    rintro ⟨session, cursors⟩ ⟨other, _⟩ ⟨same, rfl, on⟩
    refine (call.alongside member (session, cursors.rows number) (other, cursors.rows number)
      ⟨same, rfl, on number⟩).rewrap ?_ ?_
    · rintro _ ⟨mid, cursor⟩ ⟨mid', _⟩ ⟨same, rfl, reads⟩
      exact ⟨same, rfl, on.setRows reads number⟩
    · rintro ⟨mid, cursor⟩ ⟨mid', _⟩ ⟨same, rfl, reads⟩
      exact ⟨same, rfl, on.setRows reads number⟩
  | rowsByZones number keep delete rows =>
    rintro ⟨session, cursors⟩ ⟨other, _⟩ ⟨same, rfl, on⟩
    have uniform : Uniform (Error.Near .plain) (Alongside image readers reader start)
        ((ColumnCursor.leaf (cursors.rows number)).rowsByZones keep delete rows) := by
      rw [ColumnCursor.rowsByZones, on number]
      split
      · exact LeafReader.pruneByZones_alongside member keep delete
      · exact Uniform.pure _
    exact (uniform session other same).rewrap (fun _ _ _ after => ⟨after, rfl, on⟩) fun _ _ after =>
      ⟨after, rfl, on⟩
  | rowsByFilters number keep rows =>
    rintro ⟨session, cursors⟩ ⟨other, _⟩ ⟨same, rfl, on⟩
    have uniform : Uniform (Error.Near .plain) (Alongside image readers reader start)
        ((ColumnCursor.leaf (cursors.rows number)).rowsByFilters keep rows) := by
      rw [ColumnCursor.rowsByFilters, on number]
      split
      · exact LeafReader.pruneByFilters_alongside member keep rows
      · exact Uniform.pure _
    exact (uniform session other same).rewrap (fun _ _ _ after => ⟨after, rfl, on⟩) fun _ _ after =>
      ⟨after, rfl, on⟩
  | onWords number step =>
    rintro ⟨session, cursors⟩ ⟨other, _⟩ ⟨same, rfl, on⟩
    simp only [run, onSecond, onPart]
    cases step (cursors.words number) with
    | ok value words => exact ⟨rfl, same, rfl, on⟩
    | error error words => exact ⟨rfl, same, rfl, on⟩

end Calls

variable {reader : LeafReader}

/-- Whatever calls come to, the session holds parts of the leaf as the segment has them, and the cursors read the
leaf. -/
theorem leave_alongside {image : Bytes} {readers : List LeafReader} {start : Session} (member : reader ∈ readers)
    (state : Session × Cursors) (same : Beside (Alongside image readers reader start) (OnLeaf reader) state state)
    (calls : List ReaderCall) : Beside (Alongside image readers reader start) (OnLeaf reader)
    (leave reader calls state)
      (leave reader calls state) := by
  induction calls generalizing state with
  | nil => exact same
  | cons call rest ih =>
    refine ih (leftBy (call.run reader) state) ?_
    obtain ⟨_, after, after', run, run', same⟩ | ⟨_, _, after, after', run, run', _, same⟩ :=
      (alongside member call state state same).both
    · cases run.symm.trans run'
      rwa [leftBy_ok run]
    · cases run.symm.trans run'
      rwa [leftBy_error run]

/-- Whatever calls have come before on a reader of a segment: a call answers as if nothing had been loaded, and it
leaves the cursors alike. It reads data pages and pages of parts that have not been loaded, and dictionaries right
behind pages with codes. What has been loaded is not loaded again. -/
theorem loading_invisible {fresh : Session} (plain : fresh.store.kind = .plain)
    (nothing : fresh.loadedOf reader.access.key = {}) {cursors : Cursors} (on : cursors.On reader)
    (earlier : List ReaderCall) (call : ReaderCall) :
    Concur (· = ·) (fun _ after other => after.2 = other.2) (fun after other => after.2 = other.2)
        (call.run reader (leave reader earlier (fresh, cursors)))
        (call.run reader (fresh, (leave reader earlier (fresh, cursors)).2)) ∧
      ∃ before reads, reader.Fetched fresh.store.image fresh none before (leave reader earlier (fresh, cursors)).1 ∧
        reader.Fetched fresh.store.image (leave reader earlier (fresh, cursors)).1 none reads
          (leftBy (call.run reader) (leave reader earlier (fresh, cursors))).1 ∧
        reader.ReadsOnce (leave reader earlier (fresh, cursors)).1 reads
          (leftBy (call.run reader) (leave reader earlier (fresh, cursors))).1 := by
  have member : reader ∈ [reader] := List.mem_singleton_self reader
  have start : Holds .plain (fun reader => reader.Mirrors fresh.store.image) fresh.store.image [reader] fresh := by
    refine ⟨rfl, plain, .plain plain, fun other among => ?_, fun one among other also _ => ?_⟩
    · obtain rfl := List.mem_singleton.mp among
      rw [nothing]
      exact LeafReader.mirrors_nothing
    · rw [List.mem_singleton.mp among, List.mem_singleton.mp also]
  obtain ⟨⟨holds, _, since⟩, _, on⟩ :=
    leave_alongside member (fresh, cursors) ⟨⟨start, start, .refl plain rfl⟩, rfl, on⟩ earlier
  generalize leave reader earlier (fresh, cursors) = reached at *
  have concur := alongside member call reached (fresh, reached.2)
    ⟨⟨holds, start, .refl holds.kind_eq holds.image_eq⟩, rfl, on⟩
  have later : reader.Since fresh.store.image reached.1 none (leftBy (call.run reader) reached).1 := by
    obtain ⟨_, after, _, run, _, same, _⟩ | ⟨_, _, after, _, run, _, _, same, _⟩ := concur.both
    · rw [leftBy_ok run]
      exact same.since
    · rw [leftBy_error run]
      exact same.since
  obtain ⟨before, fetched⟩ := since
  obtain ⟨reads, fetched'⟩ := later
  exact ⟨concur.imp (fun _ _ _ after => after.2.1) fun _ _ after => after.2.1, before, reads, fetched, fetched',
    fetched'.readsOnce⟩

end ReaderCall

namespace CodedPage

/-! A column of two rows with one word, which its data page holds as codes. -/

def reader : LeafReader where
  column := {
    columnId := 1, type := .text .varchar, rows := 2,
    indexes := [.ordinal ⟨0, 37⟩ true], dictionary := some ⟨37, 19⟩ }
  rows := 2
  access := { file := "coded", options := { verifyChecksum := false } }
  coding := .words
  indexes := { ordinal := some (⟨0, 37⟩, true) }

/-- The checksums of the pages are left out. -/
def image : Bytes :=
  Page.covered ⟨[1, 1, 4, 0], .data (.ofStored 0 2 0 0)⟩ ++ [0, 0, 0, 0] ++
    (Page.covered ⟨[1, 0, 0, 0, 97], .dictionary 1 0⟩ ++ [0, 0, 0, 0])

def session : Session := { store := { image } }

def cursors : Cursors := ⟨fun _ => { reader }, fun _ => { index := ⟨[], []⟩ }⟩

theorem created : LeafReader.create { verifyChecksum := false } reader.column 2 "coded" [] = .ok reader := by
  cbv

/-- The second cursor is moved to the first row. -/
def second : ReaderCall := .onRows 1 (.seek .first)

/-- What is left by the same call on the first cursor. -/
def reached : Session × Cursors := ReaderCall.leave reader [.onRows 0 (.seek .first)] (session, cursors)

/-- The first cursor has the dictionary loaded, and the second one reads the data page only. -/
theorem second_invisible :
    LeafReader.create { verifyChecksum := false } reader.column 2 "coded" [] = .ok reader ∧
      (Action.run (second.run reader) reached).1.isOk = true ∧
      (leftBy (second.run reader) reached).2 = (leftBy (second.run reader) (session, reached.2)).2 ∧
      (leftBy (second.run reader) reached).1.store.trace.map (·.1.kind) = [.data, .dictionary, .data] ∧
      (leftBy (second.run reader) (session, reached.2)).1.store.trace.map (·.1.kind) = [.dictionary, .data] := by
  have invisible :=
    (@ReaderCall.loading_invisible reader session rfl rfl cursors (fun _ => rfl)
    [.onRows 0 (.seek .first)] second).1
  refine ⟨created, by decide +kernel, ?_, by decide +kernel, by decide +kernel⟩
  obtain ⟨_, after, other, run, run', same⟩ | ⟨_, _, after, other, run, run', _, same⟩ := invisible.both
  · rw [reached, leftBy_ok run, leftBy_ok run']
    exact same
  · rw [reached, leftBy_error run, leftBy_error run']
    exact same

end CodedPage

namespace SharedPage

/-! A column of one row. Its zone maps and its bloom filters are one page. -/

/-- The page of both indexes. -/
def both : Extent := ⟨34, 54⟩

def reader : LeafReader where
  column := {
    columnId := 1, type := .integer .tiny, rows := 1,
    indexes := [.ordinal ⟨0, 34⟩ true, .zoneMap ⟨"", "", false, true, true⟩ both, .bloomFilter both] }
  rows := 1
  access := { file := "shared", options := { verifyChecksum := false } }
  coding := .packed 1
  indexes :=
    { ordinal := some (⟨0, 34⟩, true), zones := some (⟨"", "", false, true, true⟩, both), filters := some both }

/-- A zone map has two texts behind its flags, the second one empty. A bloom filter that tells of nulls ends with
the first one. The checksums of the pages are left out. -/
def image : Bytes :=
  Page.covered ⟨[7], .data (.ofStored 0 1 0 0)⟩ ++ [0, 0, 0, 0] ++
    (Page.covered ⟨[6, 32, 0, 0, 0] ++ List.replicate 32 65 ++ [0, 0, 0, 0], .index 1⟩ ++ [0, 0, 0, 0])

def session : Session := { store := { image } }

def cursors : Cursors := ⟨fun _ => { reader }, fun _ => { index := ⟨[], []⟩ }⟩

def byZones : ReaderCall := .pruneByZones (.comparison .eq [.integer .tiny 7]) none

def byFilters : ReaderCall := .pruneByFilters (.comparison .eq [.integer .tiny 7]) (.all 1)

/-- What is left by the zone maps. -/
def reached : Session × Cursors := ReaderCall.leave reader [byZones] (session, cursors)

theorem created : LeafReader.create { verifyChecksum := false } reader.column 1 "shared" [] = .ok reader := by
  cbv

/-- The zone maps have been loaded, and their page is read again as that of the bloom filters. -/
theorem zones_read_again :
    LeafReader.create { verifyChecksum := false } reader.column 1 "shared" [] = .ok reader ∧
      (Action.run (byZones.run reader) (session, cursors)).1.isOk = true ∧
      (reached.1.loadedOf reader.access.key).has .zones = true ∧ both ∈ reader.partPages .zones ∧
      reached.1.store.trace.map (·.2) = [both] ∧ (Action.run (byFilters.run reader) reached).1.isOk = true ∧
      (leftBy (byFilters.run reader) reached).1.store.trace.map (·.2) = [both, both] :=
  ⟨created, by decide +kernel, by decide +kernel, by decide, by decide +kernel, by decide +kernel,
    by decide +kernel⟩

end SharedPage

end Columnar
