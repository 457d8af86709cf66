import Columnar.Coding
import Columnar.DataPage
import Columnar.FloatFormat.Fixed
import Columnar.Session

namespace Columnar

/-- Where the indexes of a leaf are; at most one of each kind. -/
structure LeafIndexes where
  /-- The root, and whether it is the only data page. -/
  ordinal : Option (Extent × Bool) := none
  /-- The summary of all rows, and where those of the pages are. -/
  zones : Option (ZoneMap × Extent) := none
  /-- Where the words are, and where their bitmaps are. -/
  bitmap : Option (Extent × Extent) := none
  filters : Option Extent := none
  deriving DecidableEq, Repr

/-- A leaf of a column that has been checked and can be read. -/
structure LeafReader where
  column : LeafMeta
  rows : Nat
  access : LeafAccess
  coding : Coding
  indexes : LeafIndexes
  deriving DecidableEq, Repr

namespace Error

def unknownCodec (columnId : Nat) (file : String) : Error :=
  unsupported s!"unknown compression codec for column {columnId} of {file}"

def duplicateIndex (columnId : Nat) (kind : String) : Error :=
  corruption s!"column {columnId} has more than one {kind} index"

def unknownIndex (columnId : Nat) (file : String) : Error :=
  corruption s!"column {columnId} of {file} has an index of unknown kind"

def rowsWithoutIndex (columnId : Nat) (file : String) (rows : Nat) : Error :=
  corruption s!"column {columnId} of {file} has {rows} rows but no ordinal index"

def noOrdinalIndex (columnId : Nat) : Error := notFound s!"column {columnId} has no ordinal index"

def noBitmapIndex (columnId : Nat) (file : String) : Error :=
  notFound s!"column {columnId} of {file} has no bitmap index"

def noDictionaryPage (columnId : Nat) (file : String) : Error :=
  corruption s!"column {columnId} of {file} has dictionary coded pages but no dictionary page"

def dictionaryKind (found : PageKind) : Error := corruption s!"dictionary locator points at a {found.title} page"

end Error

namespace LeafIndexes

def add (columnId : Nat) (file : String) (found : LeafIndexes) (index : IndexMeta) : Except Error LeafIndexes :=
  let asOnly (there : Bool) (indexes : LeafIndexes) : Except Error LeafIndexes :=
    if there then .error (.duplicateIndex columnId index.kind) else .ok indexes
  match index with
  | .ordinal root single => asOnly found.ordinal.isSome { found with ordinal := some (root, single) }
  | .zoneMap whole pages => asOnly found.zones.isSome { found with zones := some (whole, pages) }
  | .bitmap words bitmaps => asOnly found.bitmap.isSome { found with bitmap := some (words, bitmaps) }
  | .bloomFilter filters => asOnly found.filters.isSome { found with filters := some filters }
  | .unknown => .error (.unknownIndex columnId file)

def ofMeta (column : LeafMeta) (file : String) : Except Error LeafIndexes :=
  column.indexes.foldlM (add column.columnId file) {}

end LeafIndexes

namespace LeafReader

/-- Checks the metadata of a leaf with so many rows. No page is read yet. -/
def create (options : ReaderOptions) (column : LeafMeta) (rows : Nat) (file : String) (key : LeafKey) :
    Except Error LeafReader := do
  let coding ← (Coding.resolve column.type column.encoding).mapError
    (Error.note s!"could not open column {column.columnId} of {file}")
  if column.codec = .unknown then throw (.unknownCodec column.columnId file)
  let indexes ← LeafIndexes.ofMeta column file
  if indexes.ordinal.isNone ∧ 0 < rows then throw (.rowsWithoutIndex column.columnId file rows)
  return { column, rows, access := { file, key, codec := column.codec, options }, coding, indexes }

def file (reader : LeafReader) : String := reader.access.file

def ordinalIndex (reader : LeafReader) : Action Session OrdinalIndex :=
  match reader.indexes.ordinal with
  | some (root, single) => reader.access.loadOrdinalIndex root single reader.rows
  | none => throw (.noOrdinalIndex reader.column.columnId)

def loadIndexes (reader : LeafReader) : Action Session Unit := do
  if let some (root, single) := reader.indexes.ordinal then
    discard (Action.noting "ordinal index" (reader.access.loadOrdinalIndex root single reader.rows))
  if let some (_, pages) := reader.indexes.zones then
    discard (Action.noting "zone map index" (reader.access.loadZones pages))
  if let some (words, bitmaps) := reader.indexes.bitmap then
    discard (Action.noting "bitmap index" (reader.access.loadBitmapIndex words bitmaps))
  if let some pages := reader.indexes.filters then
    discard (Action.noting "bloom filter index" (reader.access.loadFilters pages))

def firstSpan (reader : LeafReader) : Action Session PageSpan := do
  Action.lift (← reader.ordinalIndex).firstSpan

def findSpan (reader : LeafReader) (ordinal : Nat) : Action Session PageSpan := do
  Action.lift ((← reader.ordinalIndex).find ordinal)

/-- The data page behind the one with a number. -/
def spanBehind (reader : LeafReader) (page : Nat) : Action Session (Option PageSpan) := do
  return (← reader.ordinalIndex).span? (page + 1)

def readPage (reader : LeafReader) (options : CursorOptions) (extent : Extent) (kind : PageKind) :
    Action Session Page :=
  Session.readPage (reader.access.readOptions options.usePageCache kind) extent

def dictionary (reader : LeafReader) (options : CursorOptions) : Action Session Dictionary :=
  Session.once reader.access.key Loaded.dictionary (fun words loaded => { loaded with dictionary := some words }) do
    match reader.column.dictionary with
    | none => throw (.noDictionaryPage reader.column.columnId reader.file)
    | some extent =>
      let page ← reader.readPage options extent .dictionary
      match page.footer with
      | .dictionary count encoding =>
        let words ← Action.lift (Dictionary.ofBody page.body count encoding)
        let mean := String.ofList (FloatFormat.single.printFixed 1 words.meanLength)
        Session.write .debug
          s!"loaded dictionary of {reader.file} [words={words.words.length}, avg_word_len={mean}]"
        return words
      | footer => throw (.dictionaryKind footer.kind)

def wordCursor (reader : LeafReader) : Action Session WordCursor :=
  match reader.indexes.bitmap with
  | some (words, bitmaps) => return { index := ← reader.access.loadBitmapIndex words bitmaps }
  | none => throw (.noBitmapIndex reader.column.columnId reader.file)

end LeafReader

end Columnar
