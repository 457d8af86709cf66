import Mathlib
import Columnar.Proofs.LeafReads
import Columnar.Proofs.RowSets
import Columnar.Proofs.ZoneVerdicts
import Columnar.Pruning

namespace Columnar

open Columnar.Action

namespace Session

/-- A step leaves what has been loaded as it is. -/
def KeepsLoaded {α : Type} (step : Action Session α) : Prop :=
  ∀ session value after, step session = .ok value after → after.loaded = session.loaded

variable {α β : Type}

theorem keepsLoaded_lift (result : Except Error α) : KeepsLoaded (lift result) := by
  intro session value after run
  rw [(lift_eq_ok run).2]

theorem keepsLoaded_write (level : LogLevel) (text : String) : KeepsLoaded (write level text) := by
  intro session value after run
  cases run
  rfl

theorem KeepsLoaded.bind {step : Action Session α} {next : α → Action Session β} (first : KeepsLoaded step)
    (later : ∀ value, KeepsLoaded (next value)) : KeepsLoaded (step >>= next) := by
  intro session result after run
  obtain ⟨value, mid, one, two⟩ := bind_ok run
  rw [later value mid result after two, first session value mid one]

theorem keepsLoaded_readPage (options : ReadOptions) (extent : Extent) : KeepsLoaded (readPage options extent) := by
  intro session value after run
  rw [readPage, onPart] at run
  obtain ⟨store, _, rfl⟩ := rewrap_eq_ok run
  rfl

theorem keepsLoaded_indexPage (access : LeafAccess) (extent : Extent) (otherwise : Error) :
    KeepsLoaded (access.indexPage extent otherwise) := by
  refine (keepsLoaded_readPage _ extent).bind fun page => ?_
  cases page.footer with
  | index entries => exact keepsLoaded_lift (.ok _)
  | _ => exact keepsLoaded_lift (.error _)

/-- An index that is read off one index page. -/
theorem keepsLoaded_indexed (access : LeafAccess) (extent : Extent) (otherwise : Error)
    (parse : Bytes → Nat → Except Error α) (told : α → String) : KeepsLoaded (do
      let found ← access.indexPage extent otherwise
      let value ← lift (parse found.1 found.2)
      Session.write .debug (told value)
      return value) :=
  (keepsLoaded_indexPage _ _ _).bind fun _ => (keepsLoaded_lift _).bind fun _ =>
    (keepsLoaded_write _ _).bind fun _ => keepsLoaded_lift (.ok _)

/-- What is loaded once is there afterwards: it has been before, or the load has found it. -/
theorem once_ok {key : LeafKey} {part : Loaded → Option α} {put : α → Loaded → Loaded} {load : Action Session α}
    (keeps : KeepsLoaded load) {session after : Session} {found : α}
    (run : once key part put load session = .ok found after) :
    (part (session.loadedOf key) = some found ∧ after = session) ∨
      (∃ mid, load session = .ok found mid) ∧ after.loadedOf key = put found (session.loadedOf key) := by
  rw [once, bind_apply, get_apply] at run
  dsimp only at run
  cases stored : part (session.loadedOf key) with
  | some other =>
    rw [stored] at run
    cases run
    exact .inl ⟨rfl, rfl⟩
  | none =>
    rw [stored] at run
    obtain ⟨value, mid, loads, run⟩ := bind_ok run
    cases run
    refine .inr ⟨⟨mid, loads⟩, ?_⟩
    rw [loadedOf_keep, if_pos rfl, loadedOf, loadedOf, keeps session found mid loads]

end Session

namespace LeafReader

open Session

variable {reader : LeafReader} {session after : Session}

/-- The list of data pages covers the rows of the leaf, where it has been loaded. Loading checks this. -/
def Indexed (reader : LeafReader) (session : Session) : Prop :=
  ∀ index ∈ (session.loadedOf reader.access.key).ordinal, index.Valid ∧ index.rows = reader.rows

theorem loadZones_ok {access : LeafAccess} {pages : Extent} {zones : List ZoneMap}
    (run : access.loadZones pages session = .ok zones after) :
    after.loadedOf access.key = { session.loadedOf access.key with zones := some zones } := by
  have keeps := keepsLoaded_indexed access pages .zonesKind ZoneMap.ofBody fun zones =>
    s!"loaded zone map index of {access.file} [pages={zones.length}]"
  rcases once_ok keeps run with ⟨held, rfl⟩ | ⟨_, loaded⟩
  · rw [← held]
  · exact loaded

/-- A list of data pages that is loaded has been loaded before, or its root stands for it. -/
theorem loadOrdinalIndex_ok {access : LeafAccess} {root : Extent} {single : Bool} {rows : Nat}
    {index : OrdinalIndex} (run : access.loadOrdinalIndex root single rows session = .ok index after) :
    ((session.loadedOf access.key).ordinal = some index ∨ index.Stems root single rows) ∧
      after.loadedOf access.key = { session.loadedOf access.key with ordinal := some index } := by
  have keeps : KeepsLoaded (if single then lift (OrdinalIndex.ofSinglePage root rows) else do
      let found ← access.indexPage root .ordinalRootKind
      let index ← lift (OrdinalIndex.ofBody found.1 found.2 rows)
      Session.write .debug s!"loaded ordinal index of {access.file} [pages={index.pages.length}, rows={rows}]"
      return index) := by
    split
    · exact keepsLoaded_lift _
    · exact keepsLoaded_indexed _ _ _ (fun body entries => OrdinalIndex.ofBody body entries rows) _
  rcases once_ok keeps run with ⟨held, rfl⟩ | ⟨⟨mid, loads⟩, loaded⟩
  · exact ⟨.inl held, by rw [← held]⟩
  · refine ⟨.inr ?_, loaded⟩
    unfold OrdinalIndex.Stems
    split at loads
    · rw [if_pos ‹_›]
      exact (lift_eq_ok loads).1
    · rw [if_neg ‹_›]
      obtain ⟨⟨body, entries⟩, _, _, loads⟩ := bind_ok loads
      obtain ⟨found, _, made, loads⟩ := bind_ok loads
      obtain ⟨_, _, _, loads⟩ := bind_ok loads
      cases loads
      exact ⟨body, entries, (lift_eq_ok made).1⟩

theorem ordinalIndex_ok {index : OrdinalIndex} (indexed : reader.Indexed session)
    (run : reader.ordinalIndex session = .ok index after) :
    (index.Valid ∧ index.rows = reader.rows) ∧
      after.loadedOf reader.access.key = { session.loadedOf reader.access.key with ordinal := some index } := by
  unfold ordinalIndex at run
  cases stored : reader.indexes.ordinal with
  | none =>
    rw [stored] at run
    cases run
  | some root =>
    obtain ⟨root, single⟩ := root
    rw [stored] at run
    obtain ⟨found, loaded⟩ := loadOrdinalIndex_ok run
    exact ⟨found.elim (indexed index) OrdinalIndex.Stems.valid, loaded⟩

/-- The zone map of a data page lets the page be kept. -/
def keeps (reader : LeafReader) (keep : Predicate) (delete : Option Predicate) (zone : ZoneMap) : Bool :=
  !zone.isEmpty && (reader.keepsZone keep delete zone).toOption = some true

theorem keptPages_ok {keep : Predicate} {delete : Option Predicate} {pages : List (ZoneMap × PageSpan)}
    {kept : List PageSpan} (run : reader.keptPages keep delete pages session = .ok kept after) :
    kept = (pages.filter fun page => reader.keeps keep delete page.1).map (·.2) ∧ after.loaded = session.loaded ∧
      ∀ page ∈ pages, page.1.isEmpty = false → ∃ verdict, reader.keepsZone keep delete page.1 = .ok verdict := by
  induction pages generalizing session after kept with
  | nil =>
    cases run
    exact ⟨rfl, rfl, nofun⟩
  | cons page rest ih =>
    obtain ⟨zone, span⟩ := page
    have onward {held : Bool} {mid : Session} (chosen : held = reader.keeps keep delete zone)
        (told : zone.isEmpty = false → ∃ verdict, reader.keepsZone keep delete zone = .ok verdict)
        (left : mid.loaded = session.loaded)
        (run : (do
          let others ← reader.keptPages keep delete rest
          return if held then span :: others else others : Action Session (List PageSpan)) mid = .ok kept after) :
        kept = (((zone, span) :: rest).filter fun page => reader.keeps keep delete page.1).map (·.2) ∧
          after.loaded = session.loaded ∧
          ∀ page ∈ (zone, span) :: rest, page.1.isEmpty = false →
            ∃ verdict, reader.keepsZone keep delete page.1 = .ok verdict := by
      obtain ⟨others, last, later, run⟩ := bind_ok run
      obtain ⟨rfl, still, checked⟩ := ih later
      cases run
      refine ⟨?_, still.trans left, List.forall_mem_cons.mpr ⟨told, checked⟩⟩
      subst chosen
      cases verdict : reader.keeps keep delete zone <;> simp [verdict]
    rw [keptPages] at run
    split at run
    · rename_i empty
      have dropped : false = reader.keeps keep delete zone := by simp [keeps, empty]
      have told : zone.isEmpty = false → ∃ verdict, reader.keepsZone keep delete zone = .ok verdict := by
        simp [empty]
      dsimp only at run
      split at run
      · obtain ⟨_, mid, warned, run⟩ := bind_ok run
        exact onward dropped told (keepsLoaded_write _ _ _ _ _ warned) run
      · exact onward dropped told rfl run
    · rename_i filled
      obtain ⟨held, mid, checked, rest⟩ := bind_ok run
      obtain ⟨found, same⟩ := lift_eq_ok checked
      refine onward ?_ (fun _ => ⟨held, found⟩) (by rw [same]) rest
      cases held <;> simp [keeps, filled, found, Except.toOption]

/-- Pruning that succeeds has loaded the zone maps and the list of pages, has as many of both, and puts the kept
pages together. -/
theorem pruneByZones_steps {keep : Predicate} {delete : Option Predicate} {whole : ZoneMap} {pages : Extent}
    {ranges : RowSet} (some : 0 < reader.rows) (stored : reader.indexes.zones = .some (whole, pages))
    (run : reader.pruneByZones keep delete session = .ok ranges after) :
    ∃ zones first index second kept third, reader.access.loadZones pages session = .ok zones first ∧
      reader.ordinalIndex first = .ok index second ∧ zones.length = index.pages.length ∧
      reader.keptPages keep delete (zones.zip index.spans) second = .ok kept third ∧ after.loaded = third.loaded ∧
      ranges = RowSet.ofRanges (kept.map PageSpan.range) := by
  simp only [pruneByZones, Nat.pos_iff_ne_zero.mp some, if_false, stored] at run
  obtain ⟨zones, first, loads, run⟩ := bind_ok run
  obtain ⟨index, second, lists, run⟩ := bind_ok run
  split at run
  · cases run
  · rename_i counts
    obtain ⟨kept, third, picks, run⟩ := bind_ok run
    obtain ⟨_, last, written, run⟩ := bind_ok run
    cases run
    exact ⟨zones, first, index, second, kept, third, loads, lists, not_not.mp counts, picks,
      keepsLoaded_write _ _ _ _ _ written, rfl⟩

/-- Pruning that succeeds puts the pages together that the zone maps let be kept, as far as these and the list of
pages have been loaded by then. -/
theorem pruneByZones_ok {keep : Predicate} {delete : Option Predicate} {whole : ZoneMap} {pages : Extent}
    {ranges : RowSet} (indexed : reader.Indexed session) (some : 0 < reader.rows)
    (stored : reader.indexes.zones = .some (whole, pages))
    (run : reader.pruneByZones keep delete session = .ok ranges after) :
    ∃ zones index, (after.loadedOf reader.access.key).zones = .some zones ∧
      (after.loadedOf reader.access.key).ordinal = .some index ∧ (index.Valid ∧ index.rows = reader.rows) ∧
      zones.length = index.pages.length ∧
      ranges = RowSet.ofRanges (((zones.zip index.spans).filter fun page => reader.keeps keep delete page.1).map
        fun page => page.2.range) ∧
      ∀ page ∈ zones.zip index.spans, page.1.isEmpty = false →
        ∃ verdict, reader.keepsZone keep delete page.1 = .ok verdict := by
  obtain ⟨zones, first, index, second, kept, third, loads, lists, counts, picks, logged, rfl⟩ :=
    pruneByZones_steps some stored run
  have held := loadZones_ok loads
  have indexed' : reader.Indexed first := by
    intro index listed
    rw [held] at listed
    exact indexed index listed
  obtain ⟨valid, listed⟩ := ordinalIndex_ok indexed' lists
  obtain ⟨rfl, left, checked⟩ := keptPages_ok picks
  refine ⟨zones, index, ?_, ?_, valid, counts, ?_, checked⟩
  · rw [loadedOf, logged, left, ← loadedOf, listed, held]
  · rw [loadedOf, logged, left, ← loadedOf, listed]
  · rw [List.map_map]
    rfl

/-- The zone map of the data page that holds a row, as it has been loaded. -/
def zoneOf (reader : LeafReader) (session : Session) (row : Nat) : Option ZoneMap := do
  let loaded := session.loadedOf reader.access.key
  let index ← loaded.ordinal
  let zones ← loaded.zones
  let span ← index.spans.find? fun span => span.first ≤ row && row < span.stop
  zones[span.page]?

theorem zoneOf_eq {zones : List ZoneMap} {index : OrdinalIndex}
    (summed : (session.loadedOf reader.access.key).zones = some zones)
    (listed : (session.loadedOf reader.access.key).ordinal = some index) (valid : index.Valid) {span : PageSpan}
    {page row : Nat} (found : index.span? page = some span) (first : span.first ≤ row) (stop : row < span.stop) :
    reader.zoneOf session row = zones[page]? := by
  obtain ⟨number, _⟩ := valid.span_spec found
  simp only [zoneOf, summed, listed, bind, Option.bind, valid.find?_spans found first stop, number]

/-- The zone map of a page that may hold rows that fulfil a predicate: there are rows, and the bounds do not rule
them out or do not count. -/
def Admits (reader : LeafReader) (keep : Predicate) (zone : ZoneMap) : Prop :=
  zone.isEmpty = false ∧ (zone.passAll = true ∨
    ∃ min max, zone.bounds reader.column.type reader.column.length = .ok (min, max) ∧ keep.mayMatch min max = true)

theorem keeps_iff {keep : Predicate} {zone : ZoneMap} : reader.keeps keep none zone = true ↔
    reader.Admits keep zone := by
  rw [keeps, Admits, Bool.and_eq_true, Bool.not_eq_true', decide_eq_true_eq]
  refine and_congr_right fun _ => ?_
  rw [keepsZone]
  cases zone.passAll with
  | true => simp [Except.toOption]
  | false =>
    cases bounds : zone.bounds reader.column.type reader.column.length with
    | error error => simp [bind, Except.bind, Except.toOption]
    | ok found =>
      obtain ⟨min, max⟩ := found
      simp [bind, Except.bind, Except.toOption, pure, Except.pure]

theorem mem_keptPages {keep : Predicate} {delete : Option Predicate} {zones : List ZoneMap} {index : OrdinalIndex}
    {row : Nat} :
    row ∈ RowSet.ofRanges (((zones.zip index.spans).filter fun page => reader.keeps keep delete page.1).map
        fun page => page.2.range) ↔
      ∃ page zone span, zones[page]? = some zone ∧ index.span? page = some span ∧
        reader.keeps keep delete zone = true ∧ span.first ≤ row ∧ row < span.stop := by
  simp only [RowSet.mem_ofRanges, List.mem_map, List.mem_filter]
  constructor
  · rintro ⟨_, ⟨⟨zone, span⟩, ⟨member, admits⟩, rfl⟩, within⟩
    obtain ⟨page, there⟩ := List.mem_iff_getElem?.mp member
    rw [List.getElem?_zip_eq_some, OrdinalIndex.spans_getElem?] at there
    exact ⟨page, zone, span, there.1, there.2, admits, within⟩
  · rintro ⟨page, zone, span, summed, listed, admits, within⟩
    have there : (zones.zip index.spans)[page]? = some (zone, span) := by
      rw [List.getElem?_zip_eq_some, OrdinalIndex.spans_getElem?]
      exact ⟨summed, listed⟩
    exact ⟨span.range, ⟨(zone, span), ⟨List.mem_of_getElem? there, admits⟩, rfl⟩, within⟩

theorem mem_kept {keep : Predicate} {zones : List ZoneMap} {index : OrdinalIndex} {row : Nat} :
    row ∈ RowSet.ofRanges (((zones.zip index.spans).filter fun page => reader.keeps keep none page.1).map
        fun page => page.2.range) ↔
      ∃ page zone span, zones[page]? = some zone ∧ index.span? page = some span ∧ reader.Admits keep zone ∧
        span.first ≤ row ∧ row < span.stop := by
  simp only [mem_keptPages, keeps_iff]

theorem exists_page {zones : List ZoneMap} {index : OrdinalIndex} (valid : index.Valid)
    (counts : zones.length = index.pages.length) {row : Nat} (below : row < index.rows) :
    ∃ page zone span, zones[page]? = some zone ∧ index.span? page = some span ∧ span.first ≤ row ∧
      row < span.stop := by
  obtain ⟨span, _, found, first, stop⟩ := valid.find_spec row below
  have inside : span.page < zones.length := by
    rw [counts, ← OrdinalIndex.span?_isSome, found]
    rfl
  exact ⟨span.page, zones[span.page], span, List.getElem?_eq_getElem inside, found, first, stop⟩

/-- Pruning by a comparison leaves the rows of the pages whose zone map admits it, and loses no row that fulfils the
comparison where the zone maps cover the rows of their pages. -/
theorem pruneByZones_comparison {op : CompareOp} {operands : List Scalar} {whole : ZoneMap} {pages : Extent}
    {ranges : RowSet} (indexed : reader.Indexed session) (some : 0 < reader.rows)
    (stored : reader.indexes.zones = .some (whole, pages))
    (run : reader.pruneByZones (.comparison op operands) none session = .ok ranges after) :
    (∀ row < reader.rows, (reader.zoneOf after row).isSome) ∧
      (∀ row, row ∈ ranges ↔ row < reader.rows ∧
        ∃ zone, reader.zoneOf after row = .some zone ∧ reader.Admits (.comparison op operands) zone) ∧
      ∀ values : Nat → Scalar,
        (∀ row < reader.rows, ∀ zone, reader.zoneOf after row = .some zone →
          zone.Covers reader.column.type reader.column.length (values row)) →
        ∀ row < reader.rows, Predicate.fulfils op operands (values row) = true → row ∈ ranges := by
  obtain ⟨zones, index, summed, listed, ⟨valid, rows⟩, counts, rfl, checked⟩ :=
    pruneByZones_ok indexed some stored run
  rw [← rows]
  have member (row : Nat) : row ∈ RowSet.ofRanges (((zones.zip index.spans).filter fun page =>
      reader.keeps (.comparison op operands) none page.1).map fun page => page.2.range) ↔ row < index.rows ∧
        ∃ zone, reader.zoneOf after row = .some zone ∧ reader.Admits (.comparison op operands) zone := by
    rw [mem_kept]
    constructor
    · rintro ⟨page, zone, span, there, found, admits, first, stop⟩
      obtain ⟨_, _, _, _, within⟩ := valid.span_spec found
      refine ⟨by omega, zone, ?_, admits⟩
      rw [zoneOf_eq summed listed valid found first stop, there]
    · rintro ⟨below, zone, there, admits⟩
      obtain ⟨page, other, span, holds, found, first, stop⟩ := exists_page valid counts below
      rw [zoneOf_eq summed listed valid found first stop] at there
      exact ⟨page, zone, span, there, found, admits, first, stop⟩
  refine ⟨?_, member, ?_⟩
  · intro row below
    obtain ⟨page, zone, span, holds, found, first, stop⟩ := exists_page valid counts below
    rw [zoneOf_eq summed listed valid found first stop, holds]
    rfl
  · intro values covers row below fulfils
    obtain ⟨page, zone, span, holds, found, first, stop⟩ := exists_page valid counts below
    have there : reader.zoneOf after row = .some zone := by
      rw [zoneOf_eq summed listed valid found first stop, holds]
    have covered := covers row below zone there
    refine (member row).mpr ⟨below, zone, there, covered.not_isEmpty, ?_⟩
    cases counted : zone.passAll with
    | true => exact .inl rfl
    | false =>
      have paired : (zone, span) ∈ zones.zip index.spans := by
        refine List.mem_of_getElem? (i := page) ?_
        rw [List.getElem?_zip_eq_some, OrdinalIndex.spans_getElem?]
        exact ⟨holds, found⟩
      obtain ⟨verdict, told⟩ := checked _ paired covered.not_isEmpty
      rw [keepsZone, counted] at told
      obtain ⟨⟨min, max⟩, read, _⟩ := bind_eq_ok told
      exact .inr ⟨min, max, read, Predicate.comparisonMayMatch_of_fulfils covered counted read fulfils⟩

end LeafReader

/-- Two pages with two rows each. Those of the first are between 1 and 5, those of the second null or up to 9. -/
def zonedZones : Page := ⟨[2, 1, 0, 0, 0, 49, 1, 0, 0, 0, 53, 3, 0, 0, 0, 0, 1, 0, 0, 0, 57], .index 2⟩

def zonedPages : Page where
  body := Bytes.ofNat 8 0 ++ Bytes.ofNat 8 0 ++ Bytes.ofNat 4 0 ++ Bytes.ofNat 8 2 ++ Bytes.ofNat 8 0 ++
    Bytes.ofNat 4 0
  footer := .index 2

def zonedSession : Session where
  store := { image := zonedZones.covered ++ [0, 0, 0, 0] ++ zonedPages.covered ++ [0, 0, 0, 0] }

def zonedReader : LeafReader where
  column := { columnId := 1, type := .integer .tiny, isNullable := true, rows := 4 }
  rows := 4
  access := { file := "zoned", options := { verifyChecksum := false } }
  coding := .packed 1
  indexes := { ordinal := some (⟨34, 53⟩, false), zones := some ({}, ⟨0, 34⟩) }

def zonedRow : Nat → Scalar
  | 0 => .integer .tiny 1
  | 1 => .integer .tiny 5
  | 3 => .integer .tiny 8
  | _ => .null

theorem zonedReader_prune : ∃ ranges after,
    zonedReader.pruneByZones (.comparison .gt [.integer .tiny 6]) none zonedSession = .ok ranges after ∧
      (∀ row < 2, zonedReader.zoneOf after row = some { min := "1", max := "5", hasValue := true }) ∧
      ∀ row < 2, zonedReader.zoneOf after (row + 2) = some { max := "9", hasNull := true, hasValue := true } := by
  refine ⟨_, _, by cbv, ?_, ?_⟩
  · intro row below
    have place : row = 0 ∨ row = 1 := by omega
    rcases place with rfl | rfl
    · cbv
    · cbv
  · intro row below
    have place : row = 0 ∨ row = 1 := by omega
    rcases place with rfl | rfl
    · cbv
    · cbv

theorem LeafReader.pruneByZones_comparison_zoned : ∃ ranges after,
    zonedReader.pruneByZones (.comparison .gt [.integer .tiny 6]) none zonedSession = .ok ranges after ∧
      zonedReader.Indexed zonedSession ∧ 0 < zonedReader.rows ∧
      (∀ row < 4, ∀ zone, zonedReader.zoneOf after row = some zone →
        zone.Covers (.integer .tiny) 0 (zonedRow row)) ∧
      Predicate.fulfils .gt [.integer .tiny 6] (zonedRow 3) = true ∧ 3 ∈ ranges := by
  obtain ⟨ranges, after, run, low, high⟩ := zonedReader_prune
  have indexed : zonedReader.Indexed zonedSession := nofun
  have some : 0 < zonedReader.rows := by decide
  obtain ⟨_, _, keeps⟩ := LeafReader.pruneByZones_comparison indexed some rfl run
  have covers : ∀ row < 4, ∀ zone, zonedReader.zoneOf after row = .some zone →
      zone.Covers (.integer .tiny) 0 (zonedRow row) := by
    intro row below zone there
    match row, below with
    | 0, _ =>
      cases (low 0 (by decide)).symm.trans there
      exact ZoneMap.covers_of_bounds (by cbv) (by decide) (by decide)
    | 1, _ =>
      cases (low 1 (by decide)).symm.trans there
      exact ZoneMap.covers_of_bounds (by cbv) (by decide) (by decide)
    | 2, _ =>
      cases (high 0 (by decide)).symm.trans there
      exact ZoneMap.covers_of_bounds (by cbv) (by decide) (by decide)
    | 3, _ =>
      cases (high 1 (by decide)).symm.trans there
      exact ZoneMap.covers_of_bounds (by cbv) (by decide) (by decide)
  exact ⟨ranges, after, run, indexed, some, covers, by decide, keeps zonedRow covers 3 (by decide) (by decide)⟩

end Columnar
