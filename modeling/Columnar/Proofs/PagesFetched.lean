import Columnar.Proofs.StoredIndexes

namespace Columnar

open Columnar.Action Session

/-- A part of a leaf that is loaded once. -/
inductive LeafPart where
  | ordinal | zones | bitmap | filters | dictionary
  deriving DecidableEq

def Loaded.has (loaded : Loaded) : LeafPart → Bool
  | .ordinal => loaded.ordinal.isSome
  | .zones => loaded.zones.isSome
  | .bitmap => loaded.bitmap.isSome
  | .filters => loaded.filters.isSome
  | .dictionary => loaded.dictionary.isSome

/-- The kind of the pages of a part. -/
def LeafPart.kind : LeafPart → PageKind
  | dictionary => .dictionary
  | ordinal | zones | bitmap | filters => .index

namespace LeafReader

/-- The pages that a part is loaded from. A single data page needs no list of data pages. -/
def partPages (reader : LeafReader) : LeafPart → List Extent
  | .ordinal => match reader.indexes.ordinal with
    | some (root, false) => [root]
    | some (_, true) | none => []
  | .zones => (reader.indexes.zones.map (·.2)).toList
  | .bitmap => reader.indexes.bitmap.elim [] fun (words, bitmaps) => [words, bitmaps]
  | .filters => reader.indexes.filters.toList
  | .dictionary => reader.column.dictionary.toList

/-- The segment holds the pages of a part, and they can be loaded. -/
def LoadsIn (reader : LeafReader) (image : Bytes) : LeafPart → Prop
  | .ordinal => ∃ index, reader.indexIn image = .ok index
  | .zones => ∃ pages ∈ reader.indexes.zones, ∃ zones, reader.zonesIn image pages.2 = .ok zones
  | .bitmap => ∃ pages ∈ reader.indexes.bitmap, ∃ index, reader.bitmapIn image pages.1 pages.2 = .ok index
  | .filters => ∃ pages ∈ reader.indexes.filters, ∃ filters, reader.filtersIn image pages = .ok filters
  | .dictionary => ∃ words, reader.wordsIn image = .ok words

/-- A read of a data page, or of a page of a part that had not been loaded. If the part can be loaded it has been
since, unless it is pending. -/
def Wants (reader : LeafReader) (image : Bytes) (loaded later : Loaded) (pending : Option LeafPart)
    (read : ReadOptions × Extent) : Prop :=
  read.1.kind = .data ∨ ∃ part, loaded.has part = false ∧ read.1.kind = part.kind ∧ read.2 ∈ reader.partPages part ∧
    (reader.LoadsIn image part → later.has part = true ∨ pending = some part)

/-- A read of a data page whose values are codes of words. Their first byte says so. -/
def FindsCodes (reader : LeafReader) (image : Bytes) (read : ReadOptions × Extent) : Prop :=
  read.1.kind = .data ∧ reader.coding = .words ∧ ∃ page footer rest,
    PageStore.pageAt image read.1 read.2 = .ok page ∧
    page.dataFooter = .ok footer ∧ page.body.take (page.body.length - footer.nullMapSize) = 1 :: rest

/-- Each read of a dictionary stands right behind one that has found codes. The last read is the first one of the
list. -/
def Prompted (reader : LeafReader) (image : Bytes) : List (ReadOptions × Extent) → Prop
  | [] => True
  | read :: earlier => (read.1.kind = .dictionary → ∃ data ∈ earlier.head?, reader.FindsCodes image data) ∧
    reader.Prompted image earlier

/-- Some reads have reached the segment since a session was as it was at the start. A part that is pending is being
loaded. -/
structure Fetched (reader : LeafReader) (image : Bytes) (start : Session) (pending : Option LeafPart)
    (reads : List (ReadOptions × Extent)) (session : Session) : Prop where
  plain : session.store.kind = .plain
  image_eq : session.store.image = image
  trace_eq : session.store.trace = reads ++ start.store.trace
  kept : ∀ part, (start.loadedOf reader.access.key).has part = true →
    (session.loadedOf reader.access.key).has part = true
  wanted : ∀ read ∈ reads, reader.Wants image (start.loadedOf reader.access.key)
    (session.loadedOf reader.access.key) pending read
  prompted : reader.Prompted image reads

/-- A session has come from the one at the start through reads of the leaf, each of them wanted. -/
def Since (reader : LeafReader) (image : Bytes) (start : Session) (pending : Option LeafPart)
    (session : Session) : Prop :=
  ∃ reads, reader.Fetched image start pending reads session

/-- A part that is there is not loaded again. It stays, and a page of it is read only as a data page, or for another
part that is on the page, too, and has not been there. -/
def ReadsOnce (reader : LeafReader) (start : Session) (reads : List (ReadOptions × Extent))
    (session : Session) : Prop :=
  ∀ part, (start.loadedOf reader.access.key).has part = true →
    (session.loadedOf reader.access.key).has part = true ∧
      ∀ read ∈ reads, read.2 ∈ reader.partPages part → read.1.kind = .data ∨ ∃ other, other ≠ part ∧
        (start.loadedOf reader.access.key).has other = false ∧ read.1.kind = other.kind ∧
        read.2 ∈ reader.partPages other

section Since

variable {reader : LeafReader} {image : Bytes} {start session : Session} {reads : List (ReadOptions × Extent)}
  {pending : Option LeafPart} {α : Type}

theorem Since.refl (plain : start.store.kind = .plain) (same : start.store.image = image) :
    reader.Since image start none start := ⟨[], plain, same, rfl, fun _ => id, nofun, trivial⟩

theorem Fetched.readsOnce (fetched : reader.Fetched image start pending reads session) :
    reader.ReadsOnce start reads session := by
  intro part there
  refine ⟨fetched.kept part there, fun read among _ => (fetched.wanted read among).imp id ?_⟩
  rintro ⟨other, missing, kind, page, _⟩
  refine ⟨other, ?_, missing, kind, page⟩
  rintro rfl
  rw [there] at missing
  cases missing

/-- The session after a read that has reached the segment. -/
def reach (options : ReadOptions) (extent : Extent) (session : Session) : Session :=
  { session with store := session.store.traced options extent }

theorem readPage_of_plain (plain : session.store.kind = .plain) (options : ReadOptions) (extent : Extent) :
    Session.readPage options extent session =
      lift (PageStore.pageAt session.store.image options extent) (reach options extent session) := by
  rw [Session.readPage, onPart, PageStore.read_uncached (by simp [plain]) (by simp [plain])]
  cases PageStore.pageAt session.store.image options extent <;> rfl

theorem Fetched.reach (fetched : reader.Fetched image start pending reads session) {options : ReadOptions}
    {extent : Extent} (wanted : reader.Wants image (start.loadedOf reader.access.key)
      (session.loadedOf reader.access.key) pending (options, extent))
    (prompted : options.kind = .dictionary → ∃ data ∈ reads.head?, reader.FindsCodes image data) :
    reader.Fetched image start pending ((options, extent) :: reads) (reach options extent session) where
  plain := fetched.plain
  image_eq := fetched.image_eq
  trace_eq := congrArg ((options, extent) :: ·) fetched.trace_eq
  kept := fetched.kept
  wanted := List.forall_mem_cons.mpr ⟨wanted, fetched.wanted⟩
  prompted := ⟨prompted, fetched.prompted⟩

theorem Fetched.leftBy_readPage (fetched : reader.Fetched image start pending reads session) {options : ReadOptions}
    {extent : Extent} (wanted : reader.Wants image (start.loadedOf reader.access.key)
      (session.loadedOf reader.access.key) pending (options, extent))
    (prompted : options.kind = .dictionary → ∃ data ∈ reads.head?, reader.FindsCodes image data) :
    reader.Since image start pending (leftBy (Session.readPage options extent) session) := by
  rw [leftBy_congr (readPage_of_plain fetched.plain options extent), leftBy_lift]
  exact ⟨_, fetched.reach wanted prompted⟩

theorem since_write (level : LogLevel) (text : String) :
    Preserves (reader.Since image start pending) (Session.write level text) := by
  rintro session ⟨reads, fetched⟩
  exact ⟨reads, fetched.plain, fetched.image_eq, fetched.trace_eq, fetched.kept, fetched.wanted, fetched.prompted⟩

/-- A part may be loaded now. -/
theorem Fetched.begin (fetched : reader.Fetched image start none reads session) (part : LeafPart) :
    reader.Fetched image start (some part) reads session where
  plain := fetched.plain
  image_eq := fetched.image_eq
  trace_eq := fetched.trace_eq
  kept := fetched.kept
  wanted := fun read among => (fetched.wanted read among).imp id fun ⟨other, missing, kind, page, loaded⟩ =>
    ⟨other, missing, kind, page, fun loads => (loaded loads).imp id nofun⟩
  prompted := fetched.prompted

/-- A part that cannot be loaded has not been. -/
theorem Fetched.fail {part : LeafPart} (fetched : reader.Fetched image start (some part) reads session)
    (fails : ¬reader.LoadsIn image part) : reader.Fetched image start none reads session where
  plain := fetched.plain
  image_eq := fetched.image_eq
  trace_eq := fetched.trace_eq
  kept := fetched.kept
  wanted := fun read among => (fetched.wanted read among).imp id fun ⟨other, missing, kind, page, loaded⟩ =>
    ⟨other, missing, kind, page, fun loads => (loaded loads).imp id fun same =>
      by cases same; exact absurd loads fails⟩
  prompted := fetched.prompted

/-- The part that was being loaded is there. -/
theorem Fetched.keep {part : LeafPart} (fetched : reader.Fetched image start (some part) reads session)
    {loaded : Loaded} (there : loaded.has part = true)
    (others : ∀ other, (session.loadedOf reader.access.key).has other = true → loaded.has other = true) :
    reader.Fetched image start none reads (session.keep reader.access.key loaded) := by
  have held : (session.keep reader.access.key loaded).loadedOf reader.access.key = loaded := by
    rw [Session.loadedOf_keep, if_pos rfl]
  refine ⟨fetched.plain, fetched.image_eq, fetched.trace_eq, ?_, ?_, fetched.prompted⟩
  · rw [held]
    exact fun other kept => others other (fetched.kept other kept)
  · rw [held]
    refine fun read among => (fetched.wanted read among).imp id fun ⟨other, missing, kind, page, since⟩ =>
      ⟨other, missing, kind, page, fun loads => .inl ?_⟩
    obtain held | same := since loads
    · exact others other held
    · cases same
      exact there

/-- A part is loaded only if it was not there at the start. Then it is there, or it cannot be loaded. -/
theorem Since.once (part : LeafPart) {held : Loaded → Option α} {put : α → Loaded → Loaded}
    {load : Action Session α} (has : ∀ loaded, loaded.has part = (held loaded).isSome)
    (puts : ∀ found loaded, (put found loaded).has part = true)
    (others : ∀ found loaded other, loaded.has other = true → (put found loaded).has other = true)
    (since : reader.Since image start none session)
    (loads : (start.loadedOf reader.access.key).has part = false →
    reader.Since image start (some part) (leftBy load session))
    (fails : ∀ error after, Session.once reader.access.key held put load session = .error error after →
      ¬reader.LoadsIn image part) :
    reader.Since image start none (leftBy (Session.once reader.access.key held put load) session) := by
  rw [Session.once, leftBy_bind, get_apply]
  rw [Session.once] at fails
  simp only [bind_apply, get_apply] at fails
  dsimp only
  cases stored : held (session.loadedOf reader.access.key) with
  | some found => exact since
  | none =>
    have missing : (start.loadedOf reader.access.key).has part = false := by
      obtain ⟨_, fetched⟩ := since
      rw [Bool.eq_false_iff]
      intro there
      have later := fetched.kept part there
      rw [has, stored] at later
      cases later
    have after := loads missing
    rw [stored] at fails
    dsimp only
    rw [leftBy_bind]
    cases run : load session with
    | error error mid =>
      rw [leftBy_error run] at after
      simp only [bind_apply, run] at fails
      obtain ⟨reads, fetched⟩ := after
      exact ⟨reads, fetched.fail (fails error mid rfl)⟩
    | ok found mid =>
      rw [leftBy_ok run] at after
      obtain ⟨reads, fetched⟩ := after
      exact ⟨reads, fetched.keep (puts found _) fun other => others found _ other⟩

/-- An index page of a part is read only while the part is loaded. -/
theorem since_indexPage {part : LeafPart} (missing : (start.loadedOf reader.access.key).has part = false)
    (kind : part.kind = .index) {extent : Extent} (page : extent ∈ reader.partPages part) (otherwise : Error) :
    Preserves (reader.Since image start (some part)) (reader.access.indexPage extent otherwise) := by
  refine Preserves.bind ?_ fun page => ?_
  · rintro session ⟨reads, fetched⟩
    exact fetched.leftBy_readPage (.inr ⟨part, missing, kind.symm, page, fun _ => .inr rfl⟩) nofun
  · cases page.footer with
    | index entries => exact Preserves.pure _
    | data footer => exact Preserves.lift (.error _)
    | dictionary count encoding => exact Preserves.lift (.error _)

/-- A line is logged of what comes of a result. -/
theorem since_logged (result : Except Error α) (text : α → String) :
    Preserves (reader.Since image start pending) (do
    let found ← lift result
    Session.write .debug (text found)
    return found) :=
  (Preserves.lift result).bind fun found => (since_write .debug (text found)).bind fun _ => Preserves.pure found

section Loads

variable {readers : List LeafReader} (member : reader ∈ readers)
  (holds : Holds .plain (fun reader => reader.Mirrors image) image readers session)
  (since : reader.Since image start none session)

include member holds since

theorem Since.ordinalIndex : reader.Since image start none (leftBy reader.ordinalIndex session) := by
  have settles : Settles (Error.Near .plain) (Holds .plain (fun reader => reader.Mirrors image) image readers)
      reader.ordinalIndex (reader.indexIn image) := Mirrors.settles_ordinalIndex member
  unfold LeafReader.ordinalIndex at settles ⊢
  cases stored : reader.indexes.ordinal with
  | none => exact since
  | some root =>
    obtain ⟨root, single⟩ := root
    simp only [stored] at settles
    refine since.once .ordinal (fun _ => rfl) (fun _ _ => rfl) (fun _ _ other there => ?_) (fun missing => ?_)
      fun _ _ run ⟨index, found⟩ => settles.ne_ok holds run index found
    · cases other <;> first | rfl | exact there
    · obtain ⟨_, fetched⟩ := since
      cases single with
      | true => exact Preserves.lift _ session ⟨_, fetched.begin .ordinal⟩
      | false =>
        refine (since_indexPage missing rfl ?_ _).bind (fun page => ?_) session ⟨_, fetched.begin .ordinal⟩
        · rw [partPages, stored]
          exact List.mem_singleton_self root
        · exact since_logged _ _

theorem Since.loadZones {whole : ZoneMap} {pages : Extent} (stored : reader.indexes.zones = some (whole, pages)) :
    reader.Since image start none (leftBy (reader.access.loadZones pages) session) := by
  refine since.once .zones (fun _ => rfl) (fun _ _ => rfl) (fun _ _ other there => ?_) (fun missing => ?_) ?_
  · cases other <;> first | rfl | exact there
  · obtain ⟨_, fetched⟩ := since
    refine (since_indexPage missing rfl ?_ _).bind (fun page => since_logged _ _) session ⟨_, fetched.begin .zones⟩
    rw [partPages, stored]
    exact List.mem_singleton_self pages
  · rintro _ _ run ⟨_, listed, zones, found⟩
    cases stored.symm.trans listed
    exact (Mirrors.settles_zones member stored).ne_ok holds run zones found

theorem Since.loadFilters {pages : Extent} (stored : reader.indexes.filters = some pages) :
    reader.Since image start none (leftBy (reader.access.loadFilters pages) session) := by
  refine since.once .filters (fun _ => rfl) (fun _ _ => rfl) (fun _ _ other there => ?_) (fun missing => ?_) ?_
  · cases other <;> first | rfl | exact there
  · obtain ⟨_, fetched⟩ := since
    refine (since_indexPage missing rfl ?_ _).bind (fun page => since_logged _ _)
      session ⟨_, fetched.begin .filters⟩
    rw [partPages, stored]
    exact List.mem_singleton_self pages
  · rintro _ _ run ⟨_, listed, filters, found⟩
    cases stored.symm.trans listed
    exact (Mirrors.settles_filters member stored).ne_ok holds run filters found

theorem Since.loadBitmapIndex {words bitmaps : Extent} (stored : reader.indexes.bitmap = some (words, bitmaps)) :
    reader.Since image start none (leftBy (reader.access.loadBitmapIndex words bitmaps) session) := by
  have pages : reader.partPages .bitmap = [words, bitmaps] := by rw [partPages, stored]; rfl
  refine since.once .bitmap (fun _ => rfl) (fun _ _ => rfl) (fun _ _ other there => ?_) (fun missing => ?_) ?_
  · cases other <;> first | rfl | exact there
  · obtain ⟨_, fetched⟩ := since
    refine (since_indexPage missing rfl (pages ▸ List.mem_cons_self) _).bind (fun page => ?_)
      session ⟨_, fetched.begin .bitmap⟩
    refine (Preserves.lift _).bind fun words => ?_
    refine (since_indexPage missing rfl (pages ▸ List.mem_cons_of_mem _ (List.mem_singleton_self _)) _).bind
      fun page => ?_
    exact (Preserves.lift _).bind fun bitmaps => since_logged _ _
  · rintro _ _ run ⟨_, listed, index, found⟩
    cases stored.symm.trans listed
    exact (Mirrors.settles_bitmap member stored).ne_ok holds run index found

end Loads

/-- The dictionary is asked for right behind a read that has found codes. -/
theorem Fetched.leftBy_dictionary {readers : List LeafReader}
    (fetched : reader.Fetched image start none reads session) (member : reader ∈ readers)
    (holds : Holds .plain (fun reader => reader.Mirrors image) image readers session) (options : CursorOptions)
    (codes : ∃ data ∈ reads.head?, reader.FindsCodes image data) :
    reader.Since image start none (leftBy (reader.dictionary options) session) := by
  refine Since.once .dictionary (fun _ => rfl) (fun _ _ => rfl) (fun _ _ other there => ?_) ⟨reads, fetched⟩
    (fun missing => ?_)
    fun _ _ run ⟨words, found⟩ => (Mirrors.settles_dictionary member options).ne_ok holds run words found
  · cases other <;> first | rfl | exact there
  · cases stored : reader.column.dictionary with
    | none => exact ⟨reads, fetched.begin .dictionary⟩
    | some extent =>
      refine Preserves.behind (fun page => ?_) ((fetched.begin .dictionary).leftBy_readPage
        (.inr ⟨.dictionary, missing, rfl, ?_, fun _ => .inr rfl⟩) fun _ => codes)
      · cases page.footer with
        | data footer => exact Preserves.lift (.error _)
        | index entries => exact Preserves.lift (.error _)
        | dictionary count encoding => exact since_logged _ _
      · rw [partPages, stored]
        exact List.mem_singleton_self extent

end Since

end LeafReader

section Opening

variable {σ : Type} {invariant : σ → Prop} {state : σ} {dictionary : Action σ Dictionary} {coding : Coding}

/-- The dictionary is asked for only where values are codes. -/
theorem PageValues.leftBy_ofBytes {stored : Bytes} (holds : invariant state)
    (asked : coding = .words → ∀ rest, stored = 1 :: rest → invariant (leftBy dictionary state)) (count : Nat) :
    invariant (leftBy (PageValues.ofBytes coding stored count dictionary) state) := by
  cases coding with
  | packed width => exact (leftBy_lift _ state).symm ▸ holds
  | strings => exact (leftBy_lift _ state).symm ▸ holds
  | bits => exact (leftBy_lift _ state).symm ▸ holds
  | words =>
    cases stored with
    | nil => exact holds
    | cons mode rest =>
      simp only [ofBytes, ofWords]
      split
      · exact (leftBy_lift _ state).symm ▸ holds
      · split
        · rename_i codes
          exact Preserves.behind (fun words => Preserves.lift _) (asked rfl rest (codes ▸ rfl))
        · exact holds

theorem DataPage.leftBy_ofPage {page : Page} {span : PageSpan} (holds : invariant state)
    (asked : coding = .words → ∀ footer rest, page.dataFooter = .ok footer →
      page.body.take (page.body.length - footer.nullMapSize) = 1 :: rest → invariant (leftBy dictionary state)) :
    invariant (leftBy (DataPage.ofPage page span coding dictionary) state) := by
  unfold ofPage
  cases found : page.dataFooter with
  | error error => exact holds
  | ok footer =>
    rw [lift_ok, pure_bind]
    dsimp only
    split
    · exact holds
    · cases readNulls footer page.body with
      | error error => exact holds
      | ok nulls =>
        rw [lift_ok, pure_bind]
        exact Preserves.behind (fun values => Preserves.pure _)
          (PageValues.leftBy_ofBytes holds (fun coding rest codes => asked coding footer rest found codes) _)

end Opening

/-- A page is opened right behind the read of it. -/
theorem LeafReader.Fetched.leftBy_ofPage {image : Bytes} {readers : List LeafReader} {reader : LeafReader}
    {start session : Session} {reads : List (ReadOptions × Extent)}
    (fetched : reader.Fetched image start none reads session) (member : reader ∈ readers)
    (holds : Holds .plain (fun reader => reader.Mirrors image) image readers session) {page : Page}
    {read : ReadOptions × Extent} (last : read ∈ reads.head?) (data : read.1.kind = .data)
    (found : PageStore.pageAt image read.1 read.2 = .ok page) (span : PageSpan) (options : CursorOptions) :
    reader.Since image start none
      (leftBy (DataPage.ofPage page span reader.coding (reader.dictionary options)) session) :=
  DataPage.leftBy_ofPage ⟨reads, fetched⟩ fun coding footer rest parsed codes =>
    fetched.leftBy_dictionary member holds options ⟨read, last, data, coding, page, footer, rest, found,
      parsed, codes⟩

end Columnar
