import Mathlib.Tactic.Common
import Columnar.LeafReader
import Columnar.Proofs.Outcome
import Columnar.Proofs.PagePlace
import Columnar.Proofs.StoredPages

namespace Columnar

open Columnar.Action

namespace LeafReader

variable (reader : LeafReader) (image : Bytes)

/-- A page of the leaf as the segment holds it. -/
def pageIn (extent : Extent) (kind : PageKind) : Except Error Page :=
  PageStore.pageAt image (reader.access.readOptions false kind) extent

/-- The body and the number of entries of an index page of the segment. -/
def indexPageIn (extent : Extent) (otherwise : Error) : Except Error (Bytes × Nat) := do
  let page ← reader.pageIn image extent .index
  match page.footer with
  | .index entries => return (page.body, entries)
  | _ => throw otherwise

/-- The data pages of the leaf as the segment lists them. -/
def indexIn : Except Error OrdinalIndex :=
  match reader.indexes.ordinal with
  | none => .error (.noOrdinalIndex reader.column.columnId)
  | some (root, true) => OrdinalIndex.ofSinglePage root reader.rows
  | some (root, false) => do
    let (body, entries) ← reader.indexPageIn image root .ordinalRootKind
    OrdinalIndex.ofBody body entries reader.rows

/-- The words of the leaf as the segment holds them. -/
def wordsIn : Except Error Dictionary :=
  match reader.column.dictionary with
  | none => .error (.noDictionaryPage reader.column.columnId reader.file)
  | some extent => do
    let page ← reader.pageIn image extent .dictionary
    match page.footer with
    | .dictionary count encoding => Dictionary.ofBody page.body count encoding
    | footer => throw (.dictionaryKind footer.kind)

/-- The summaries of the data pages as the segment holds them. -/
def zonesIn (pages : Extent) : Except Error (List ZoneMap) := do
  let (body, entries) ← reader.indexPageIn image pages .zonesKind
  ZoneMap.ofBody body entries

/-- What has been loaded of the leaf is what the segment holds. -/
structure Faithful (loaded : Loaded) : Prop where
  ordinal : ∀ index ∈ loaded.ordinal, reader.indexIn image = .ok index
  words : ∀ words ∈ loaded.dictionary, reader.wordsIn image = .ok words
  zones : ∀ zones ∈ loaded.zones, ∀ index ∈ reader.indexes.zones, reader.zonesIn image index.2 = .ok zones

end LeafReader

namespace Session

/-- The pages of some leaves come from the segment each time, or the leaves all read them in one way and those that
are kept are what reading them comes to. -/
inductive Sourced (readers : List LeafReader) (store : PageStore) : Prop where
  | plain (kind : store.kind = .plain)
  | caching (kind : store.kind = .caching) (codec : Codec) (verify : Bool)
      (alike : ∀ reader ∈ readers, reader.access.codec = codec ∧ reader.access.options.verifyChecksum = verify)
      (keeps : store.Keeps codec verify)

/-- The session reads the pages of a segment, and what has been loaded of some leaves is what the segment holds. No
two of them share what is loaded. -/
structure Serves (image : Bytes) (readers : List LeafReader) (session : Session) : Prop where
  image_eq : session.store.image = image
  sourced : Sourced readers session.store
  faithful : ∀ reader ∈ readers, reader.Faithful image (session.loadedOf reader.access.key)
  apart : ∀ reader ∈ readers, ∀ other ∈ readers, reader.access.key = other.access.key → reader = other

/-- The session reads the pages of a segment from a store of a kind, and a condition holds for what has been loaded
of some leaves. No two of them share what is loaded. -/
structure Holds (kind : StoreKind) (condition : LeafReader → Loaded → Prop) (image : Bytes)
    (readers : List LeafReader) (session : Session) : Prop where
  image_eq : session.store.image = image
  kind_eq : session.store.kind = kind
  sourced : Sourced readers session.store
  loaded : ∀ reader ∈ readers, condition reader (session.loadedOf reader.access.key)
  apart : ∀ reader ∈ readers, ∀ other ∈ readers, reader.access.key = other.access.key → reader = other

/-- Where a condition holds for what has been loaded of a leaf, a part of it is what loading it comes to. -/
structure Told {α : Type} (condition : Loaded → Prop) (part : Loaded → Option α) (put : α → Loaded → Loaded)
    (result : Except Error α) : Prop where
  held : ∀ loaded, condition loaded → ∀ found ∈ part loaded, result = .ok found
  kept : ∀ loaded, condition loaded → ∀ found, result = .ok found → condition (put found loaded)

theorem loadedOf_keep (session : Session) (key other : LeafKey) (loaded : Loaded) :
    (session.keep key loaded).loadedOf other = if key = other then loaded else session.loadedOf other := by
  rw [loadedOf, keep, find?_replaced]
  split <;> rfl

variable {image : Bytes} {readers : List LeafReader} {reader : LeafReader} {session : Session} {kind : StoreKind}
  {condition : LeafReader → Loaded → Prop}

theorem Serves.holds (serves : Serves image readers session) :
    Holds session.store.kind (fun reader => reader.Faithful image) image readers session :=
  ⟨serves.image_eq, rfl, serves.sourced, serves.faithful, serves.apart⟩

theorem Holds.serves (holds : Holds kind (fun reader => reader.Faithful image) image readers session) :
    Serves image readers session := ⟨holds.image_eq, holds.sourced, holds.loaded, holds.apart⟩

/-- A step on a session that serves some leaves yields what it settles on for each kind of store. -/
theorem yields_of_settles {α : Type} {step : Action Session α} {result : Except Error α}
    (settles : ∀ kind, Settles (Error.Near kind) (Holds kind (fun reader => reader.Faithful image) image readers)
      step result) :
    Yields (Serves image readers) step result := by
  intro session serves
  obtain ⟨outcome, after, same, holds, run⟩ := (settles session.store.kind).yields session serves.holds
  exact ⟨outcome, after, same, holds.serves, run⟩

theorem Holds.keep (holds : Holds kind condition image readers session) (member : reader ∈ readers)
    {loaded : Loaded} (met : condition reader loaded) :
    Holds kind condition image readers (session.keep reader.access.key loaded) where
  image_eq := holds.image_eq
  kind_eq := holds.kind_eq
  sourced := holds.sourced
  loaded := by
    intro other among
    rw [loadedOf_keep]
    split
    · rename_i same
      rwa [← holds.apart reader member other among same]
    · exact holds.loaded other among
  apart := holds.apart

/-- A session that has not loaded anything. -/
theorem serves_of_fresh {store : PageStore} (sourced : Sourced readers store) (log : List LogLine)
    (apart : ∀ reader ∈ readers, ∀ other ∈ readers, reader.access.key = other.access.key → reader = other) :
    Serves store.image readers { store, log } where
  image_eq := rfl
  sourced := sourced
  faithful := fun _ _ => ⟨nofun, nofun, nofun⟩
  apart := apart

theorem settles_write (level : LogLevel) (text : String) :
    Settles (Error.Near kind) (Holds kind condition image readers) (Session.write level text) (.ok ()) := by
  intro session holds
  exact ⟨.ok (), { session with log := session.log ++ [⟨level, text⟩] }, rfl,
    ⟨holds.image_eq, holds.kind_eq, holds.sourced, holds.loaded, holds.apart⟩, rfl⟩

/-- What is loaded once is what loading it comes to, whether it is loaded now or has been before. -/
theorem settles_once {α : Type} {part : Loaded → Option α} {put : α → Loaded → Loaded} {load : Action Session α}
    {result : Except Error α} (member : reader ∈ readers) (told : Told (condition reader) part put result)
    (loads : Settles (Error.Near kind) (Holds kind condition image readers) load result) :
    Settles (Error.Near kind) (Holds kind condition image readers) (Session.once reader.access.key part put load)
      result := by
  intro session holds
  rw [Session.once, bind_apply, get_apply]
  dsimp only
  cases stored : part (session.loadedOf reader.access.key) with
  | some found =>
    rw [told.held _ (holds.loaded reader member) found stored]
    exact ⟨.ok found, session, rfl, holds, rfl⟩
  | none =>
    dsimp only
    obtain ⟨outcome, mid, agree, holding, run⟩ := loads session holds
    rw [bind_apply, run]
    cases outcome with
    | error error => exact ⟨.error error, mid, agree, holding, rfl⟩
    | ok found =>
      obtain rfl := toOption_eq_some agree.toOption_eq.symm
      exact ⟨.ok found, _, rfl, holding.keep member (told.kept _ (holding.loaded reader member) found rfl), rfl⟩

/-- A store reads what the segment holds of the pages of a leaf, and it fails where reading the segment does. -/
theorem Sourced.read {store : PageStore} (sourced : Sourced readers store) (member : reader ∈ readers)
    (useCache : Bool) (kind : PageKind) (extent : Extent) :
    ∃ outcome after, Agree (Error.Near store.kind) outcome (reader.pageIn store.image extent kind) ∧
      after.image = store.image ∧ after.kind = store.kind ∧ Sourced readers after ∧
      PageStore.read (reader.access.readOptions useCache kind) extent store = lift outcome after := by
  rcases sourced with plain | ⟨caching, codec, verify, alike, keeps⟩
  · have typed : store.kind ≠ .untyped := by simp [plain]
    exact ⟨_, store.traced _ extent, Agree.refl (Error.nearness _) _, rfl, rfl, .plain plain,
      PageStore.read_uncached (by simp [plain]) typed extent⟩
  · obtain ⟨rfl, rfl⟩ := alike reader member
    obtain ⟨outcome, after, same, image, kept, keeps, run⟩ :=
      PageStore.read_of_caching caching (reader.access.readOptions useCache kind) keeps extent
    rw [caching]
    exact ⟨outcome, after, same, image, kept, .caching kept _ _ alike keeps, run⟩

theorem settles_readPage (member : reader ∈ readers) (useCache : Bool) (page : PageKind) (extent : Extent) :
    Settles (Error.Near kind) (Holds kind condition image readers)
      (Session.readPage (reader.access.readOptions useCache page) extent) (reader.pageIn image extent page) := by
  intro session holds
  obtain rfl := holds.image_eq
  obtain rfl := holds.kind_eq
  obtain ⟨outcome, after, agree, image, same, sourced, run⟩ := holds.sourced.read member useCache page extent
  refine ⟨outcome, { session with store := after }, agree, ⟨image, same, sourced, holds.loaded, holds.apart⟩, ?_⟩
  rw [Session.readPage, onPart, run]
  cases outcome <;> rfl

end Session

/-- A line is logged of what has been loaded. -/
theorem Action.Settles.logged {image : Bytes} {readers : List LeafReader} {kind : StoreKind}
    {condition : LeafReader → Loaded → Prop} {α : Type} {load : Action Session α} {result : Except Error α}
    (loads : Settles (Error.Near kind) (Session.Holds kind condition image readers) load result) (level : LogLevel)
    (text : α → String) :
    Settles (Error.Near kind) (Session.Holds kind condition image readers) (do
      let found ← load
      Session.write level (text found)
      return found) result := by
  have same : (result >>= fun found => (Except.ok () >>= fun _ => Except.ok found)) = result := by
    cases result <;> rfl
  rw [← same]
  exact loads.bind fun found _ => (Session.settles_write level (text found)).bind fun _ _ =>
    Settles.pure (Error.nearness kind) found

namespace LeafReader

open Session

variable {image : Bytes} {readers : List LeafReader} {reader : LeafReader} {kind : StoreKind}
  {condition : LeafReader → Loaded → Prop}

/-- Where a condition holds for what has been loaded, the list of data pages is what loading it comes to. -/
abbrev ToldOrdinal (reader : LeafReader) (image : Bytes) (condition : Loaded → Prop) : Prop :=
  Told condition Loaded.ordinal (fun index loaded => { loaded with ordinal := some index }) (reader.indexIn image)

/-- Where a condition holds for what has been loaded, the words are what loading them comes to. -/
abbrev ToldWords (reader : LeafReader) (image : Bytes) (condition : Loaded → Prop) : Prop :=
  Told condition Loaded.dictionary (fun words loaded => { loaded with dictionary := some words })
    (reader.wordsIn image)

theorem Faithful.toldOrdinal : reader.ToldOrdinal image (reader.Faithful image) where
  held := fun _ faithful => faithful.ordinal
  kept := fun _ faithful index found => ⟨by rintro other ⟨⟩; exact found, faithful.words, faithful.zones⟩

theorem Faithful.toldWords : reader.ToldWords image (reader.Faithful image) where
  held := fun _ faithful => faithful.words
  kept := fun _ faithful words found => ⟨faithful.ordinal, by rintro other ⟨⟩; exact found, faithful.zones⟩

theorem settles_readPage (member : reader ∈ readers) (options : CursorOptions) (extent : Extent) (page : PageKind) :
    Settles (Error.Near kind) (Holds kind condition image readers) (reader.readPage options extent page)
      (reader.pageIn image extent page) :=
  Session.settles_readPage member options.usePageCache page extent

theorem settles_indexPage (member : reader ∈ readers) (extent : Extent) (otherwise : Error) :
    Settles (Error.Near kind) (Holds kind condition image readers) (reader.access.indexPage extent otherwise)
      (reader.indexPageIn image extent otherwise) := by
  refine (Session.settles_readPage member true .index extent).bind fun page _ => ?_
  cases page.footer with
  | index entries => exact Settles.pure (Error.nearness kind) _
  | data footer => exact Settles.throw (Error.nearness kind) _
  | dictionary words encoding => exact Settles.throw (Error.nearness kind) _

theorem settles_ordinalIndex (member : reader ∈ readers) (told : reader.ToldOrdinal image (condition reader)) :
    Settles (Error.Near kind) (Holds kind condition image readers) reader.ordinalIndex (reader.indexIn image) := by
  unfold ordinalIndex
  cases stored : reader.indexes.ordinal with
  | none =>
    rw [indexIn, stored]
    exact Settles.throw (Error.nearness kind) _
  | some root =>
    obtain ⟨root, single⟩ := root
    refine Session.settles_once member told ?_
    rw [indexIn, stored]
    cases single with
    | true => exact Settles.lift (Error.nearness kind) _
    | false =>
      refine (settles_indexPage member root .ordinalRootKind).bind fun page _ => ?_
      obtain ⟨body, entries⟩ := page
      exact (Settles.lift (Error.nearness kind) _).logged .debug _

theorem settles_dictionary (member : reader ∈ readers) (told : reader.ToldWords image (condition reader))
    (options : CursorOptions) :
    Settles (Error.Near kind) (Holds kind condition image readers) (reader.dictionary options)
      (reader.wordsIn image) := by
  refine Session.settles_once member told ?_
  unfold wordsIn
  cases reader.column.dictionary with
  | none => exact Settles.throw (Error.nearness kind) _
  | some extent =>
    refine (settles_readPage member options extent .dictionary).bind fun page _ => ?_
    cases page.footer with
    | data footer => exact Settles.throw (Error.nearness kind) _
    | index entries => exact Settles.throw (Error.nearness kind) _
    | dictionary count encoding => exact (Settles.lift (Error.nearness kind) _).logged .debug _

theorem yields_ordinalIndex (member : reader ∈ readers) :
    Yields (Serves image readers) reader.ordinalIndex (reader.indexIn image) :=
  yields_of_settles fun _ => settles_ordinalIndex member Faithful.toldOrdinal

end LeafReader

namespace DataPage

/-- What comes of opening a page where the words of its column are known. -/
def openedWith (page : Page) (span : PageSpan) (coding : Coding) (words : Except Error Dictionary) :
    Except Error DataPage :=
  (Action.run (ofPage page span coding (lift words)) ()).1

end DataPage

theorem run_bind {α β : Type} (step : Action Unit α) (next : α → Action Unit β) :
    (Action.run (step >>= next) ()).1 = (Action.run step ()).1 >>= fun value => (Action.run (next value) ()).1 := by
  simp only [Action.run, bind_apply]
  cases step () <;> rfl

theorem run_lift {α : Type} (result : Except Error α) : (Action.run (lift result) ()).1 = result := by
  cases result <;> rfl

/-- Values in a layout. Words may fall back to strings. -/
def PageValues.InCoding : Coding → PageValues → Prop
  | .packed width, .packed found _ => found = width
  | .strings, .strings _ | .bits, .flags _ | .words, .strings _ | .words, .coded .. => True
  | .packed _, _ | .strings, _ | .bits, _ | .words, _ => False

section Opening

variable {σ : Type} {near : Error → Error → Prop} {invariant : σ → Prop} {dictionary : Action σ Dictionary}
  {words : Except Error Dictionary}

theorem PageValues.settles_ofBytes (nearness : Nearness near) (coding : Coding) (stored : Bytes) (count : Nat)
    (known : Settles near invariant dictionary words) :
    Settles near invariant (PageValues.ofBytes coding stored count dictionary)
      (Action.run (PageValues.ofBytes coding stored count (lift words)) ()).1 := by
  cases coding with
  | packed width =>
    simp only [PageValues.ofBytes, run_lift]
    exact Settles.lift nearness _
  | strings =>
    simp only [PageValues.ofBytes, run_lift]
    exact Settles.lift nearness _
  | bits =>
    simp only [PageValues.ofBytes, run_lift]
    exact Settles.lift nearness _
  | words =>
    cases stored with
    | nil => exact Settles.throw nearness _
    | cons mode rest =>
      simp only [PageValues.ofBytes, PageValues.ofWords]
      split
      · rw [run_lift]
        exact Settles.lift nearness _
      · split
        · rw [run_bind, run_lift]
          exact known.bind fun found _ => by
            rw [run_lift]
            exact Settles.lift nearness _
        · exact Settles.throw nearness _

theorem PageValues.ofBytes_inCoding {coding : Coding} {stored : Bytes} {count : Nat} {values : PageValues}
    {state after : σ} (run : PageValues.ofBytes coding stored count dictionary state = .ok values after) :
    values.InCoding coding := by
  cases coding with
  | packed width =>
    have read := (lift_eq_ok run).1
    unfold PageValues.ofPacked at read
    split at read
    · cases read
      exact rfl
    · cases read
  | strings =>
    obtain ⟨_, _, rfl⟩ := map_eq_ok (lift_eq_ok run).1
    trivial
  | bits =>
    have read := (lift_eq_ok run).1
    cases stored with
    | nil => cases read
    | cons width stream =>
      simp only [PageValues.ofBits] at read
      split at read
      · obtain ⟨_, _, rfl⟩ := map_eq_ok read
        trivial
      · cases read
  | words =>
    cases stored with
    | nil => cases run
    | cons mode rest =>
      simp only [PageValues.ofBytes, PageValues.ofWords] at run
      split at run
      · obtain ⟨_, _, rfl⟩ := map_eq_ok (lift_eq_ok run).1
        trivial
      · split at run
        · obtain ⟨found, _, _, run⟩ := bind_ok run
          have read := (lift_eq_ok run).1
          cases rest with
          | nil => cases read
          | cons width stream =>
            obtain ⟨_, _, rfl⟩ := map_eq_ok read
            trivial
        · cases run

theorem DataPage.ofPage_inCoding {page : Page} {span : PageSpan} {coding : Coding} {state after : σ}
    {opened : DataPage} (run : DataPage.ofPage page span coding dictionary state = .ok opened after) :
    opened.values.values.InCoding coding := by
  unfold DataPage.ofPage at run
  obtain ⟨footer, _, _, run⟩ := bind_ok run
  dsimp only at run
  split at run
  · simp at run
  · obtain ⟨nulls, _, _, run⟩ := bind_ok run
    obtain ⟨values, _, read, run⟩ := bind_ok run
    cases run
    exact PageValues.ofBytes_inCoding read

/-- A page opens as it does where the words of its column are known. -/
theorem DataPage.settles_ofPage (nearness : Nearness near) (page : Page) (span : PageSpan) (coding : Coding)
    (known : Settles near invariant dictionary words) :
    Settles near invariant (DataPage.ofPage page span coding dictionary)
      (DataPage.openedWith page span coding words) := by
  unfold DataPage.openedWith DataPage.ofPage
  rw [run_bind, run_lift]
  refine (Settles.lift nearness _).bind fun footer _ => ?_
  dsimp only
  split
  · exact Settles.throw nearness _
  · rw [run_bind, run_lift]
    refine (Settles.lift nearness _).bind fun nulls _ => ?_
    rw [run_bind]
    exact (PageValues.settles_ofBytes nearness _ _ _ known).bind fun values _ => Settles.pure nearness _

end Opening

namespace LeafReader

variable {readers : List LeafReader} {reader : LeafReader} {image : Bytes}

/-- A data page of the leaf as the segment holds it, opened at its first row. -/
def openedIn (reader : LeafReader) (image : Bytes) (span : PageSpan) : Except Error DataPage := do
  let page ← (reader.pageIn image span.extent .data).mapError
    (Error.note s!"could not read page {span.page} of {reader.file}")
  DataPage.openedWith page span reader.coding (reader.wordsIn image)

theorem ofPage_of_openedIn {span : PageSpan} {opened : DataPage} (found : reader.openedIn image span = .ok opened) :
    ∃ page, DataPage.ofPage page span reader.coding (lift (reader.wordsIn image)) () = .ok opened () := by
  unfold openedIn at found
  cases stored : reader.pageIn image span.extent .data with
  | error error => simp [stored, Except.mapError, bind, Except.bind] at found
  | ok page =>
    simp only [stored, Except.mapError, bind, Except.bind] at found
    unfold DataPage.openedWith Action.run at found
    split at found
    · rename_i run
      cases found
      exact ⟨page, run⟩
    · cases found

/-- A page that opens is at its first row, and it holds the rows it is expected to hold, in the layout of the
leaf. -/
theorem openedIn_spec {span : PageSpan} {opened : DataPage} (found : reader.openedIn image span = .ok opened) :
    opened = opened.atRow 0 ∧ opened.Sound ∧ opened.page = span.page ∧ opened.first = span.first ∧
      opened.rows = span.rows ∧ opened.values.values.InCoding reader.coding := by
  obtain ⟨page, run⟩ := ofPage_of_openedIn found
  obtain ⟨start, sound, number, first, rows⟩ := DataPage.ofPage_spec run
  exact ⟨start, sound, number, first, rows, DataPage.ofPage_inCoding run⟩

end LeafReader

end Columnar
