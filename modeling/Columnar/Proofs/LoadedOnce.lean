import Columnar.Pruning
import Columnar.Proofs.LeafHistory
import Columnar.Proofs.PagesFetched
import Columnar.Proofs.StoredIndexes

namespace Columnar

open Columnar.Action Session

/-- Two sessions read a segment, and each holds some parts of the leaves as the segment has them. The first one has
come from the session at the start through reads of one leaf, each of them wanted. -/
structure Session.Alongside (image : Bytes) (readers : List LeafReader) (reader : LeafReader)
    (start session other : Session) : Prop where
  holds : Holds .plain (fun reader => reader.Mirrors image) image readers session
  also : Holds .plain (fun reader => reader.Mirrors image) image readers other
  since : reader.Since image start none session

section Sessions

variable {image : Bytes} {readers : List LeafReader} {reader : LeafReader} {start : Session} {α : Type}

/-- What a step settles on does not tell what has been loaded. -/
theorem Action.Settles.concur {step : Action Session α} {result : Except Error α}
    (settles : Settles (Error.Near .plain) (Holds .plain (fun reader => reader.Mirrors image) image readers)
      step result)
    {session other : Session} (same : Alongside image readers reader start session other)
    (since : reader.Since image start none (leftBy step session)) :
    Concur (Error.Near .plain) (fun _ => Alongside image readers reader start)
      (Alongside image readers reader start) (step session) (step other) := by
  obtain ⟨value, mid, mid', run, run', holds⟩ | ⟨error, error', mid, mid', run, run', near, holds⟩ :=
    (settles.uniform (Error.nearness .plain) session other ⟨same.holds, same.also⟩).both
  · rw [leftBy_ok run] at since
    rw [run, run']
    exact ⟨rfl, holds.1, holds.2, since⟩
  · rw [leftBy_error run] at since
    rw [run, run']
    exact ⟨near, holds.1, holds.2, since⟩

theorem Session.write_alongside (level : LogLevel) (text : String) :
    Uniform (Error.Near .plain) (Alongside image readers reader start) (Session.write level text) :=
      fun session _ same =>
  (settles_write level text).concur same (LeafReader.since_write level text session same.since)

namespace LeafReader

variable (member : reader ∈ readers)

include member

theorem ordinalIndex_alongside : Uniform (Error.Near .plain) (Alongside image readers reader start)
    reader.ordinalIndex :=
  fun _ _ same => (Mirrors.settles_ordinalIndex member).concur same (same.since.ordinalIndex member same.holds)

theorem loadZones_alongside {whole : ZoneMap} {pages : Extent}
    (stored : reader.indexes.zones = some (whole, pages)) :
    Uniform (Error.Near .plain) (Alongside image readers reader start) (reader.access.loadZones pages) :=
  fun _ _ same => (Mirrors.settles_zones member stored).concur same (same.since.loadZones member same.holds stored)

theorem loadFilters_alongside {pages : Extent} (stored : reader.indexes.filters = some pages) :
    Uniform (Error.Near .plain) (Alongside image readers reader start) (reader.access.loadFilters pages) :=
  fun _ _ same => (Mirrors.settles_filters member stored).concur same
    (same.since.loadFilters member same.holds stored)

theorem loadBitmapIndex_alongside {words bitmaps : Extent}
    (stored : reader.indexes.bitmap = some (words, bitmaps)) :
    Uniform (Error.Near .plain) (Alongside image readers reader start)
      (reader.access.loadBitmapIndex words bitmaps) :=
  fun _ _ same => (Mirrors.settles_bitmap member stored).concur same
    (same.since.loadBitmapIndex member same.holds stored)

theorem wordCursor_alongside : Uniform (Error.Near .plain) (Alongside image readers reader start)
    reader.wordCursor := by
  unfold wordCursor
  cases stored : reader.indexes.bitmap with
  | none => exact Uniform.throw (Error.nearness .plain) _
  | some pages => exact (loadBitmapIndex_alongside member stored).bind fun index => Uniform.pure _

omit member in
theorem noted_alongside {α : Type} (text : String) {load : Action Session α}
    (loads : Uniform (Error.Near .plain) (Alongside image readers reader start) load) :
    Uniform (Error.Near .plain) (Alongside image readers reader start) (discard (Action.noting text load)) :=
  (loads.noting (Error.nearness .plain) text).discard

/-- The filters are the last index that `loadIndexes` loads. -/
theorem loadIndexes_filters_alongside : Uniform (Error.Near .plain) (Alongside image readers reader start) (do
    if let some pages := reader.indexes.filters then
      discard (Action.noting "bloom filter index" (reader.access.loadFilters pages)) : Action Session Unit) := by
  cases stored : reader.indexes.filters with
  | none => exact Uniform.pure _
  | some pages => exact noted_alongside _ (loadFilters_alongside member stored)

theorem loadIndexes_bitmap_alongside : Uniform (Error.Near .plain) (Alongside image readers reader start) (do
    if let some (words, bitmaps) := reader.indexes.bitmap then
      discard (Action.noting "bitmap index" (reader.access.loadBitmapIndex words bitmaps))
    if let some pages := reader.indexes.filters then
      discard (Action.noting "bloom filter index" (reader.access.loadFilters pages)) : Action Session Unit) := by
  have filters : Uniform (Error.Near .plain) (Alongside image readers reader start) _ :=
    loadIndexes_filters_alongside member
  cases stored : reader.indexes.bitmap with
  | none => exact filters
  | some pages => exact (noted_alongside _ (loadBitmapIndex_alongside member stored)).bind fun _ => filters

theorem loadIndexes_zones_alongside : Uniform (Error.Near .plain) (Alongside image readers reader start) (do
    if let some (_, pages) := reader.indexes.zones then
      discard (Action.noting "zone map index" (reader.access.loadZones pages))
    if let some (words, bitmaps) := reader.indexes.bitmap then
      discard (Action.noting "bitmap index" (reader.access.loadBitmapIndex words bitmaps))
    if let some pages := reader.indexes.filters then
      discard (Action.noting "bloom filter index" (reader.access.loadFilters pages)) : Action Session Unit) := by
  have bitmap : Uniform (Error.Near .plain) (Alongside image readers reader start) _ :=
    loadIndexes_bitmap_alongside member
  cases stored : reader.indexes.zones with
  | none => exact bitmap
  | some zones => exact (noted_alongside _ (loadZones_alongside member stored)).bind fun _ => bitmap

theorem loadIndexes_alongside : Uniform (Error.Near .plain) (Alongside image readers reader start)
    reader.loadIndexes := by
  have zones : Uniform (Error.Near .plain) (Alongside image readers reader start) _ :=
    loadIndexes_zones_alongside member
  unfold loadIndexes
  cases stored : reader.indexes.ordinal with
  | none => exact zones
  | some root =>
    have loads : Uniform (Error.Near .plain) (Alongside image readers reader start) reader.ordinalIndex :=
      ordinalIndex_alongside member
    unfold ordinalIndex at loads
    rw [stored] at loads
    exact (noted_alongside _ loads).bind fun _ => zones

omit member in
theorem keptPages_alongside (keep : Predicate) (delete : Option Predicate) (pages : List (ZoneMap × PageSpan)) :
    Uniform (Error.Near .plain) (Alongside image readers reader start) (reader.keptPages keep delete pages) := by
  induction pages with
  | nil => exact Uniform.pure _
  | cons page rest ih =>
    obtain ⟨zone, span⟩ := page
    have others (kept : Bool) : Uniform (Error.Near .plain) (Alongside image readers reader start) (do
        let others ← reader.keptPages keep delete rest
        return if kept then span :: others else others) := ih.bind fun others => Uniform.pure _
    rw [keptPages]
    split
    · have left : Uniform (Error.Near .plain) (Alongside image readers reader start) (do
          let kept ← pure false
          let others ← reader.keptPages keep delete rest
          return if kept then span :: others else others) := (Uniform.pure false).bind others
      dsimp only
      split
      · exact (write_alongside _ _).bind fun _ => left
      · exact left
    · exact (Uniform.lift (Error.nearness .plain) _).bind others

theorem pruneByZones_alongside (keep : Predicate) (delete : Option Predicate) :
    Uniform (Error.Near .plain) (Alongside image readers reader start) (reader.pruneByZones keep delete) := by
  unfold pruneByZones
  split
  · exact Uniform.pure _
  · cases stored : reader.indexes.zones with
    | none => exact Uniform.pure _
    | some zones =>
      obtain ⟨whole, pages⟩ := zones
      refine (loadZones_alongside member stored).bind fun zones => (ordinalIndex_alongside member).bind
        fun index => ?_
      dsimp only
      split
      · exact Uniform.throw (Error.nearness .plain) _
      · exact (keptPages_alongside keep delete _).bind fun kept => (write_alongside _ _).bind fun _ =>
          Uniform.pure _

theorem pruneByFilters_alongside (keep : FilterTest) (rows : RowSet) :
    Uniform (Error.Near .plain) (Alongside image readers reader start) (reader.pruneByFilters keep rows) := by
  unfold pruneByFilters
  split
  · exact Uniform.pure _
  · cases stored : reader.indexes.filters.filter fun _ => keep.applies with
    | none => exact Uniform.pure _
    | some pages =>
      refine (loadFilters_alongside member (Option.filter_eq_some_iff.mp stored).1).bind fun filters =>
        (ordinalIndex_alongside member).bind fun index => ?_
      unfold passFilters
      dsimp only
      split
      · exact Uniform.throw (Error.nearness .plain) _
      · exact (Uniform.lift (Error.nearness .plain) _).bind fun _ => (write_alongside _ _).bind fun _ =>
          Uniform.pure _

/-- A data page is read alike. The read of it is the last one then. -/
theorem readPage_concur {session other : Session} (same : Alongside image readers reader start session other)
    (options : CursorOptions) (extent : Extent) :
    Concur (Error.Near .plain) (fun page mid mid' => Alongside image readers reader start mid mid' ∧
        ∃ reads, reader.Fetched image start none reads mid ∧ ∃ read ∈ reads.head?, read.1.kind = .data ∧
          PageStore.pageAt image read.1 read.2 = .ok page) (Alongside image readers reader start)
      (reader.readPage options extent .data session) (reader.readPage options extent .data other) := by
  obtain ⟨reads, fetched⟩ := same.since
  have after :
      reader.Fetched image start none ((reader.access.readOptions options.usePageCache .data, extent) :: reads)
      (reach (reader.access.readOptions options.usePageCache .data) extent session) :=
        fetched.reach (.inl rfl) nofun
  have runs := readPage_of_plain fetched.plain (reader.access.readOptions options.usePageCache .data) extent
  have moved : leftBy (reader.readPage options extent .data) session =
      reach (reader.access.readOptions options.usePageCache .data) extent session :=
        (leftBy_congr runs).trans (leftBy_lift ..)
  have concur := (settles_readPage member options extent .data).concur same (moved ▸ ⟨_, after⟩)
  obtain ⟨page, mid, mid', run, run', same⟩ | ⟨error, error', mid, mid', run, run', near, same⟩ := concur.both
  · obtain ⟨found, rfl⟩ := lift_eq_ok (runs.symm.trans run)
    rw [run, run']
    exact ⟨rfl, same, _, after, _, rfl, rfl, fetched.image_eq ▸ found⟩
  · rw [run, run']
    exact ⟨near, same⟩

end LeafReader

end Sessions

namespace LeafCursor

variable {image : Bytes} {readers : List LeafReader} {reader : LeafReader} {start : Session}

/-- Two cursors are the same one, and it reads the leaf. -/
def OnLeaf (reader : LeafReader) (cursor other : LeafCursor) : Prop := cursor = other ∧ cursor.reader = reader

variable (member : reader ∈ readers)

omit member in
theorem change_alongside {change : LeafCursor → LeafCursor}
    (kept : ∀ cursor, (change cursor).reader = cursor.reader) :
    Uniform (Error.Near .plain) (Beside (Alongside image readers reader start) (OnLeaf reader))
      (onSecond (modify change) : Action (Session × LeafCursor) PUnit) :=
  Uniform.onSecond (Uniform.modify fun cursor _ same => ⟨congrArg change same.1, (kept cursor).trans same.2⟩)

omit member in
theorem settle_alongside (ordinal : Nat) :
    Uniform (Error.Near .plain) (Beside (Alongside image readers reader start) (OnLeaf reader)) (settle ordinal) :=
  change_alongside fun _ => rfl

include member

/-- A page is opened alike, and a dictionary is asked for only behind the read of a page with codes. -/
theorem loadPage_alongside (span : PageSpan) :
    Uniform (Error.Near .plain) (Beside (Alongside image readers reader start) (OnLeaf reader))
      (loadPage span) := by
  rintro ⟨session, cursor⟩ ⟨other, _⟩ ⟨same, rfl, rfl⟩
  rw [loadPage, bind_apply, bind_apply, get_apply, get_apply]
  dsimp only
  rw [bind_apply, bind_apply, onFirst, onFirst, noting, noting]
  obtain ⟨page, mid, mid', run, run', same, reads, fetched, read, last, data, found⟩ |
    ⟨error, error', mid, mid', run, run', near, same⟩ :=
      (LeafReader.readPage_concur member same cursor.options span.extent).both
  · simp only [run, run', rewrap_ok]
    have opens := (DataPage.settles_ofPage (Error.nearness .plain) page span cursor.reader.coding
      (LeafReader.Mirrors.settles_dictionary member cursor.options)).concur same
      (fetched.leftBy_ofPage member same.holds last data found span cursor.options)
    rw [bind_apply, bind_apply, onSecond, onSecond, modify_apply, rewrap_ok, rewrap_ok]
    dsimp only
    refine Concur.bind ?_ fun opened => change_alongside fun _ => rfl
    exact opens.rewrap (fun _ _ _ after => ⟨after, rfl, rfl⟩) fun _ _ after => ⟨after, rfl, rfl⟩
  · simp only [run, run']
    exact ⟨congrArg _ near, same, rfl, rfl⟩

theorem seekFirst_alongside :
    Uniform (Error.Near .plain) (Beside (Alongside image readers reader start) (OnLeaf reader)) seekFirst := by
  rintro ⟨session, cursor⟩ ⟨other, _⟩ ⟨same, rfl, rfl⟩
  rw [seekFirst, bind_apply, bind_apply, get_apply, get_apply]
  dsimp only
  have first : Uniform (Error.Near .plain) (Alongside image readers cursor.reader start) cursor.reader.firstSpan :=
    (LeafReader.ordinalIndex_alongside member).bind fun index => Uniform.lift (Error.nearness .plain) _
  exact (Uniform.onFirst first).bind (fun span => (loadPage_alongside member span).bind fun _ =>
    settle_alongside 0) _ _
    ⟨same, rfl, rfl⟩

omit member in
theorem seekInPage_alongside (ordinal : Nat) :
    Uniform (Error.Near .plain) (Beside (Alongside image readers reader start) (OnLeaf reader))
      (seekInPage ordinal) := by
  rintro ⟨session, cursor⟩ ⟨other, _⟩ ⟨same, rfl, rfl⟩
  rw [seekInPage, seekInPage]
  dsimp only
  cases cursor.page with
  | none => exact ⟨rfl, same, rfl, rfl⟩
  | some page =>
    dsimp only
    cases DataPage.seek (ordinal - page.first) page with
    | ok value page => exact ⟨rfl, same, rfl, rfl⟩
    | error error page => exact ⟨rfl, same, rfl, rfl⟩

theorem seek_alongside (ordinal : Nat) :
    Uniform (Error.Near .plain) (Beside (Alongside image readers reader start) (OnLeaf reader)) (seek ordinal) := by
  have settles : Uniform (Error.Near .plain) (Beside (Alongside image readers reader start) (OnLeaf reader)) (do
      seekInPage ordinal
      settle ordinal) := (seekInPage_alongside ordinal).bind fun _ => settle_alongside ordinal
  rintro ⟨session, cursor⟩ ⟨other, _⟩ ⟨same, rfl, rfl⟩
  rw [seek, bind_apply, bind_apply, get_apply, get_apply]
  dsimp only
  by_cases beyond : cursor.reader.rows < ordinal
  · simp only [beyond, if_true]
    exact ⟨rfl, same, rfl, rfl⟩
  · simp only [beyond, if_false]
    generalize (if ordinal = cursor.reader.rows then ordinal - 1 else ordinal) = target
    by_cases elsewhere : 0 < cursor.reader.rows ∧ (!cursor.page.any (·.contains target)) = true
    · rw [if_pos elsewhere]
      have finds : Uniform (Error.Near .plain) (Alongside image readers cursor.reader start)
          (cursor.reader.findSpan target) :=
        (LeafReader.ordinalIndex_alongside member).bind fun index => Uniform.lift (Error.nearness .plain) _
      exact (Uniform.onFirst finds).bind (fun span => (loadPage_alongside member span).bind fun _ => settles)
        _ _ ⟨same, rfl, rfl⟩
    · rw [if_neg elsewhere]
      exact settles _ _ ⟨same, rfl, rfl⟩

theorem seekPageStart_alongside :
    Uniform (Error.Near .plain) (Beside (Alongside image readers reader start) (OnLeaf reader)) seekPageStart := by
  rintro ⟨session, cursor⟩ ⟨other, _⟩ ⟨same, rfl, rfl⟩
  cases open_ : cursor.page with
  | none =>
    rw [seekPageStart_of_none open_, seekPageStart_of_none open_]
    exact ⟨rfl, same, rfl, rfl⟩
  | some page =>
    rw [seekPageStart_of_some open_, seekPageStart_of_some open_]
    exact seek_alongside member page.first _ _ ⟨same, rfl, rfl⟩

theorem loadNextPage_alongside :
    Uniform (Error.Near .plain) (Beside (Alongside image readers reader start) (OnLeaf reader)) loadNextPage := by
  rintro ⟨session, cursor⟩ ⟨other, _⟩ ⟨same, rfl, rfl⟩
  rw [loadNextPage, bind_apply, bind_apply, get_apply, get_apply]
  dsimp only
  cases cursor.page with
  | none => exact ⟨rfl, same, rfl, rfl⟩
  | some page =>
    have behind : Uniform (Error.Near .plain) (Alongside image readers cursor.reader start)
        (cursor.reader.spanBehind page.page) :=
      (LeafReader.ordinalIndex_alongside member).bind fun index => Uniform.pure _
    refine (Uniform.onFirst behind).bind (fun span => ?_) _ _ ⟨same, rfl, rfl⟩
    cases span with
    | none => exact Uniform.pure _
    | some span => exact (loadPage_alongside member span).bind fun _ => Uniform.pure _

theorem alongside_onward : Onward (Error.Near .plain) (Alongside image readers reader start) (OnLeaf reader) where
  rows := by
    intro state other same
    have uniform : Uniform (Error.Near .plain) (Beside (Alongside image readers reader start) (OnLeaf reader))
        hasRow := by
      rintro ⟨session, cursor⟩ ⟨other, _⟩ ⟨same, rfl, rfl⟩
      rw [hasRow, bind_apply, bind_apply, get_apply, get_apply]
      dsimp only
      split
      · exact ⟨rfl, same, rfl, rfl⟩
      · exact loadNextPage_alongside member _ _ ⟨same, rfl, rfl⟩
    exact (uniform state other same).imp (fun _ _ _ after => ⟨after, fun _ => congrArg _ after.2.1⟩) fun _ _ => id
  opened _ _ page same := ⟨by rw [same.1], same.2⟩
  passed _ _ rows same := ⟨by rw [same.1], same.2⟩

theorem next_alongside {σ : Type} [Sink σ] (count : Nat) : Uniform (Error.Near .plain)
    (Beside (Alongside image readers reader start) (Beside (OnLeaf reader) (· = ·)))
    (next count : Action (Session × LeafCursor × σ) RowsRead) :=
  next_uniform (Error.nearness .plain) (alongside_onward member)
    (fun _ _ same => by rw [same.1]; exact ⟨rfl, rfl⟩) count

end LeafCursor

/-- A call on a cursor does not tell what has been loaded. -/
theorem CursorCall.alongside {image : Bytes} {readers : List LeafReader} {reader : LeafReader} {start : Session}
    (member : reader ∈ readers) (call : CursorCall) :
    Uniform (Error.Near .plain) (Beside (Alongside image readers reader start) (LeafCursor.OnLeaf reader))
      call.run := by
  cases call with
  | seek call =>
    cases call with
    | first => exact LeafCursor.seekFirst_alongside member
    | row ordinal => exact LeafCursor.seek_alongside member ordinal
    | pageStart => exact LeafCursor.seekPageStart_alongside member
  | read call =>
    rintro ⟨session, cursor⟩ ⟨other, cursor'⟩ ⟨same, level⟩
    have next : Uniform (Error.Near .plain)
        (Beside (Alongside image readers reader start) (Beside (LeafCursor.OnLeaf reader) (· = ·)))
        (LeafCursor.next call.count : Action (Session × LeafCursor × call.σ) RowsRead) :=
      LeafCursor.next_alongside member call.count
    simp only [run, ReadCall.run]
    obtain ⟨read, ⟨mid, moved, sink⟩, ⟨mid', moved', sink'⟩, run, run', same, level, rfl⟩ |
      ⟨error, error', ⟨mid, moved, sink⟩, ⟨mid', moved', sink'⟩, run, run', rfl, same, level, rfl⟩ :=
      (next (session, cursor, call.sink) (other, cursor', call.sink) ⟨same, level, rfl⟩).both
    · rw [run, run']
      exact ⟨rfl, same, level⟩
    · rw [run, run']
      exact ⟨rfl, same, level⟩

end Columnar
