import Columnar.LeafCursor
import Columnar.Proofs.LeafReads
import Columnar.Proofs.PageCache
import Columnar.Proofs.PagesFetched

namespace Columnar

open Columnar.Action Session

namespace Action

variable {σ τ α : Type} {invariant : σ → Prop}

theorem Preserves.onFirst {step : Action σ α} (kept : Preserves invariant step) :
    Preserves (fun state : σ × τ => invariant state.1) (onFirst step) := by
  rintro ⟨first, second⟩ holds
  have moves : Action.onFirst step (first, second) = rewrap (·, second) (step first) := rfl
  rw [leftBy_rewrap moves]
  exact kept first holds

theorem Preserves.onSecond (step : Action τ α) :
    Preserves (fun state : σ × τ => invariant state.1) (onSecond step) := by
  rintro ⟨first, second⟩ holds
  have moves : Action.onSecond step (first, second) = rewrap (first, ·) (step second) := rfl
  rw [leftBy_rewrap moves]
  exact holds

theorem leftBy_noting (text : String) (step : Action σ α) (state : σ) :
    leftBy (noting text step) state = leftBy step state := by
  simp only [leftBy, Action.run, noting]
  cases step state <;> rfl

end Action

namespace PageStore

theorem afterReads_append (store : PageStore) (reads more : List (ReadOptions × Extent)) :
    store.afterReads (reads ++ more) = (store.afterReads reads).afterReads more := by
  induction reads generalizing store with
  | nil => rfl
  | cons read rest ih => exact ih _

/-- A store that keeps no pages has a record of all reads. -/
theorem trace_afterReads (reads : List (ReadOptions × Extent)) {store : PageStore} (plain : store.kind = .plain) :
    (store.afterReads reads).trace = reads.reverse ++ store.trace := by
  induction reads generalizing store with
  | nil => rfl
  | cons read rest ih =>
    obtain ⟨options, extent⟩ := read
    have others := @ih (store.traced options extent) plain
    rw [afterReads, run_plain plain, others, List.reverse_cons, List.append_assoc]
    rfl

end PageStore

namespace Session

def readsData (read : ReadOptions × Extent) : Bool := read.1.kind = .data

/-- The store of a session is left as by some reads, and these are the ones of data pages among them. -/
def Takes (pages : List (ReadOptions × Extent)) (start session : Session) : Prop :=
  ∃ reads, session.store = start.store.afterReads reads ∧ reads.filter readsData = pages

variable {pages more : List (ReadOptions × Extent)} {start mid session : Session}

theorem Takes.refl (session : Session) : Takes [] session session := ⟨[], rfl, rfl⟩

theorem Takes.trans (first : Takes pages start mid) (second : Takes more mid session) :
    Takes (pages ++ more) start session := by
  obtain ⟨reads, left, rfl⟩ := first
  obtain ⟨others, left', rfl⟩ := second
  refine ⟨reads ++ others, ?_, List.filter_append ..⟩
  rw [left', left, PageStore.afterReads_append]

theorem Takes.read (takes : Takes pages start session) (options : ReadOptions) (extent : Extent) :
    Takes (pages ++ [(options, extent)].filter readsData)
      start (leftBy (Session.readPage options extent) session) := by
  refine takes.trans ⟨[(options, extent)], ?_, rfl⟩
  have moves : Session.readPage options extent session =
      rewrap (fun store => { session with store }) (PageStore.read options extent session.store) := rfl
  rw [leftBy_rewrap moves]
  rfl

theorem Takes.trace (takes : Takes pages start session) (plain : start.store.kind = .plain) :
    session.store.trace.filter readsData = pages.reverse ++ start.store.trace.filter readsData := by
  obtain ⟨reads, left, rfl⟩ := takes
  rw [left, PageStore.trace_afterReads reads plain, List.filter_append, List.filter_reverse]

section Indexes

/-- Pages that are not data pages may be read without being counted. -/
theorem takes_readPage {options : ReadOptions} (other : options.kind ≠ .data) (extent : Extent) :
    Preserves (Takes pages start) (Session.readPage options extent) := by
  intro session takes
  have none : [(options, extent)].filter readsData = [] := by simp [readsData, other]
  have after := takes.read options extent
  rwa [none, List.append_nil] at after

theorem takes_write (level : LogLevel) (text : String) : Preserves (Takes pages start) (Session.write level text) :=
  fun _ takes => takes

theorem takes_once {α : Type} {key : LeafKey} {part : Loaded → Option α} {put : α → Loaded → Loaded}
    {load : Action Session α} (loads : Preserves (Takes pages start) load) :
    Preserves (Takes pages start) (Session.once key part put load) := by
  intro session takes
  rw [Session.once, leftBy_bind, get_apply]
  dsimp only
  cases part (session.loadedOf key) with
  | some found => exact takes
  | none =>
    dsimp only
    refine Preserves.behind (fun found => Preserves.bind ?_ fun _ => Preserves.pure found) (loads session takes)
    exact Preserves.modify fun _ takes => takes

theorem takes_indexPage (access : LeafAccess) (extent : Extent) (otherwise : Error) :
    Preserves (Takes pages start) (access.indexPage extent otherwise) := by
  have index : (access.readOptions true .index).kind ≠ .data := nofun
  refine (takes_readPage index extent).bind fun page => ?_
  cases page.footer with
  | index entries => exact Preserves.pure _
  | data footer => exact Preserves.lift (.error _)
  | dictionary count encoding => exact Preserves.lift (.error _)

theorem takes_ordinalIndex (reader : LeafReader) : Preserves (Takes pages start) reader.ordinalIndex := by
  unfold LeafReader.ordinalIndex
  cases reader.indexes.ordinal with
  | none => exact Preserves.lift (.error _)
  | some root =>
    obtain ⟨root, single⟩ := root
    refine takes_once ?_
    cases single with
    | true => exact Preserves.lift _
    | false =>
      refine (takes_indexPage reader.access root _).bind fun page => (Preserves.lift _).bind fun index => ?_
      exact (takes_write _ _).bind fun _ => Preserves.pure index

theorem takes_dictionary (reader : LeafReader) (options : CursorOptions) :
    Preserves (Takes pages start) (reader.dictionary options) := by
  refine takes_once ?_
  cases reader.column.dictionary with
  | none => exact Preserves.lift (.error _)
  | some extent =>
    have words : (reader.access.readOptions options.usePageCache .dictionary).kind ≠ .data := nofun
    refine (takes_readPage words extent).bind fun page => ?_
    cases page.footer with
    | data footer => exact Preserves.lift (.error _)
    | index entries => exact Preserves.lift (.error _)
    | dictionary count encoding =>
      exact (Preserves.lift _).bind fun words => (takes_write _ _).bind fun _ => Preserves.pure words

end Indexes

end Session

namespace LeafCursor

/-- How a data page is read by a cursor. -/
def dataRead (cursor : LeafCursor) (span : PageSpan) : ReadOptions × Extent :=
  (cursor.reader.access.readOptions cursor.options.usePageCache .data, span.extent)

theorem takes_loadPage {pages : List (ReadOptions × Extent)} {start session : Session}
    (takes : Takes pages start session) (cursor : LeafCursor) (span : PageSpan) :
    Takes (pages ++ [cursor.dataRead span]) start (leftBy (loadPage span) (session, cursor)).1 := by
  have data : [cursor.dataRead span].filter readsData = [cursor.dataRead span] := by
    simp [readsData, dataRead, LeafAccess.readOptions]
  have read := takes.read (cursor.dataRead span).1 (cursor.dataRead span).2
  rw [data] at read
  rw [loadPage, leftBy_bind, get_apply]
  dsimp only
  refine @Preserves.behind (Session × LeafCursor)
    _ _ (fun state => Takes (pages ++ [cursor.dataRead span]) start state.1)
    _ _ (fun page => ?_) _ ?_
  · refine (Preserves.onSecond _).bind fun _ => Preserves.bind ?_ fun opened => Preserves.onSecond _
    exact Preserves.onFirst fun session takes => DataPage.leftBy_ofPage takes fun _ _ _ _ _ =>
      takes_dictionary _ _ _ takes
  · have moves : Action.onFirst (Action.noting s!"could not read page {span.page} of {cursor.reader.file}"
        (cursor.reader.readPage cursor.options span.extent .data)) (session, cursor) =
        rewrap (·, cursor) (Action.noting s!"could not read page {span.page} of {cursor.reader.file}"
          (cursor.reader.readPage cursor.options span.extent .data) session) := rfl
    rw [leftBy_rewrap moves, leftBy_noting]
    exact read

end LeafCursor

end Columnar
