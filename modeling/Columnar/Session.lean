import Columnar.BitmapIndex
import Columnar.BloomFilter
import Columnar.Dictionary
import Columnar.Options
import Columnar.OrdinalIndex
import Columnar.PageStore
import Columnar.ZoneMap

namespace Columnar

inductive LogLevel where
  | debug | warn
  deriving DecidableEq, Repr

structure LogLine where
  level : LogLevel
  text : String
  deriving DecidableEq, Repr

/-- The part of an array column that a child has. -/
inductive Child where
  | items | lengths | flags
  deriving DecidableEq, Repr

/-- The way from a column to one of its leaves; a scalar column is its own leaf. -/
abbrev LeafKey := List Child

/-- What has been loaded of a leaf. Each part is loaded once, when it is first needed. -/
structure Loaded where
  ordinal : Option OrdinalIndex := none
  zones : Option (List ZoneMap) := none
  bitmap : Option BitmapIndex := none
  filters : Option (List BloomFilter) := none
  dictionary : Option Dictionary := none
  deriving DecidableEq, Repr

/-- The state behind all cursors on a column: where its pages come from, what has been loaded of each leaf, and what
has been logged. -/
structure Session where
  store : PageStore
  loaded : List (LeafKey × Loaded) := []
  log : List LogLine := []
  deriving Repr

/-- How the pages of a leaf are read, and the key of what is loaded of it. -/
structure LeafAccess where
  file : String
  key : LeafKey := []
  codec : Codec := .none
  options : ReaderOptions := {}
  deriving DecidableEq, Repr

namespace Error

def ordinalRootKind : Error := corruption "ordinal index root is not an index page"

def zonesKind : Error := corruption "zone map index is not an index page"

def filtersKind : Error := corruption "bloom filter index is not an index page"

def bitmapsKind : Error := corruption "bitmap index column is not an index page"

end Error

namespace Session

def loadedOf (session : Session) (key : LeafKey) : Loaded :=
  ((session.loaded.find? fun entry => entry.1 = key).map (·.2)).getD {}

def keep (session : Session) (key : LeafKey) (loaded : Loaded) : Session :=
  { session with loaded := (key, loaded) :: session.loaded.filter fun entry => entry.1 ≠ key }

def write (level : LogLevel) (text : String) : Action Session Unit :=
  modify fun session => { session with log := session.log ++ [⟨level, text⟩] }

/-- Loads a part of a leaf unless it is there. A failed load leaves it to be tried again. -/
def once {α : Type} (key : LeafKey) (part : Loaded → Option α) (put : α → Loaded → Loaded)
    (load : Action Session α) : Action Session α := do
  match part ((← get).loadedOf key) with
  | some found => return found
  | none =>
    let found ← load
    modify fun session => session.keep key (put found (session.loadedOf key))
    return found

def readPage (options : ReadOptions) (extent : Extent) : Action Session Page :=
  Action.onPart Session.store (fun store session => { session with store }) (PageStore.read options extent)

end Session

namespace LeafAccess

def readOptions (access : LeafAccess) (usePageCache : Bool) (kind : PageKind) : ReadOptions where
  codec := access.codec
  verifyChecksum := access.options.verifyChecksum
  usePageCache := usePageCache
  keptInMemory := access.options.keptInMemory
  kind := kind

/-- The body of an index page and its number of entries. Index pages may always be cached. -/
def indexPage (access : LeafAccess) (extent : Extent) (otherwise : Error) : Action Session (Bytes × Nat) := do
  let page ← Session.readPage (access.readOptions true .index) extent
  match page.footer with
  | .index entries => return (page.body, entries)
  | _ => throw otherwise

def loadOrdinalIndex (access : LeafAccess) (root : Extent) (single : Bool) (rows : Nat) :
    Action Session OrdinalIndex :=
  Session.once access.key Loaded.ordinal (fun index loaded => { loaded with ordinal := some index }) do
    if single then Action.lift (OrdinalIndex.ofSinglePage root rows)
    else
      let (body, entries) ← access.indexPage root .ordinalRootKind
      let index ← Action.lift (OrdinalIndex.ofBody body entries rows)
      Session.write .debug s!"loaded ordinal index of {access.file} [pages={index.pages.length}, rows={rows}]"
      return index

def loadZones (access : LeafAccess) (pages : Extent) : Action Session (List ZoneMap) :=
  Session.once access.key Loaded.zones (fun zones loaded => { loaded with zones := some zones }) do
    let (body, entries) ← access.indexPage pages .zonesKind
    let zones ← Action.lift (ZoneMap.ofBody body entries)
    Session.write .debug s!"loaded zone map index of {access.file} [pages={zones.length}]"
    return zones

def loadFilters (access : LeafAccess) (pages : Extent) : Action Session (List BloomFilter) :=
  Session.once access.key Loaded.filters (fun filters loaded => { loaded with filters := some filters }) do
    let (body, entries) ← access.indexPage pages .filtersKind
    let filters ← Action.lift (BloomFilter.ofBody body entries)
    Session.write .debug s!"loaded bloom filter index of {access.file} [pages={filters.length}]"
    return filters

def loadBitmapIndex (access : LeafAccess) (words bitmaps : Extent) : Action Session BitmapIndex :=
  Session.once access.key Loaded.bitmap (fun index loaded => { loaded with bitmap := some index }) do
    let (body, entries) ← access.indexPage words .bitmapsKind
    let words ← Action.lift (BitmapIndex.entries body entries)
    let (body, entries) ← access.indexPage bitmaps .bitmapsKind
    let bitmaps ← Action.lift (BitmapIndex.entries body entries)
    let index ← Action.lift (BitmapIndex.create words bitmaps)
    Session.write .debug
      s!"loaded bitmap index of {access.file} [words={index.words.length}, has_null={index.hasNull}]"
    return index

end LeafAccess

end Columnar
