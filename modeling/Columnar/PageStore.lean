import Columnar.ColumnMeta
import Columnar.Page

namespace Columnar

/-- How a page is to be read. -/
structure ReadOptions where
  codec : Codec := .none
  verifyChecksum : Bool := true
  usePageCache : Bool := false
  keptInMemory : Bool := false
  kind : PageKind
  deriving DecidableEq, Repr

def ReadOptions.cached (options : ReadOptions) : Bool := options.usePageCache || options.keptInMemory

/-- What stands between a reader and the segment. -/
inductive StoreKind where
  | plain
  /-- Keeps pages whose reads ask for it. -/
  | caching
  /-- Reads pages of any kind, whatever kind is asked for. -/
  | untyped
  deriving DecidableEq, Repr

/-- A segment file in memory, with the pages kept of it and a record of the reads that reached it. -/
structure PageStore where
  image : Bytes
  kind : StoreKind := .plain
  reads : Nat := 0
  /-- Last one first. -/
  cache : List (Extent × Page) := []
  /-- Last one first. -/
  trace : List (ReadOptions × Extent) := []
  deriving Repr

namespace Error

def compressedPage (codec : Codec) : Error :=
  unsupported s!"compressed pages are not supported by the in-memory source: {codec.title}"

def outsideSegment (extent : Extent) (size : Nat) : Error :=
  corruption s!"page [{extent.offset}, +{extent.size}) is outside the segment of {size} bytes"

def wrongCachedKind (expected : PageKind) (offset : Nat) (found : PageKind) : Error :=
  corruption s!"expected {expected.title} page at offset {offset}, found cached {found.title}"

end Error

namespace PageStore

def pageAt (image : Bytes) (options : ReadOptions) (extent : Extent) : Except Error Page := do
  if options.codec ≠ .none then throw (.compressedPage options.codec)
  if image.length < extent.offset + extent.size then throw (.outsideSegment extent image.length)
  Page.read options.verifyChecksum options.kind extent.offset ((image.drop extent.offset).take extent.size)

/-- The page at an extent, and how many reads it takes where its kind does not matter: after the kind that is asked
for all kinds are tried in turn, and if none fits the first failure stands. -/
def pageOfAnyKind (image : Bytes) (options : ReadOptions) (extent : Extent) : Except Error Page × Nat :=
  match pageAt image options extent with
  | .ok page => (.ok page, 1)
  | .error error =>
    let attempts := PageKind.all.map fun kind => (pageAt image { options with kind } extent).toOption
    match attempts.findIdx? Option.isSome with
    | some index => (((attempts[index]?).join).elim (.error error) .ok, index + 2)
    | none => (.error error, attempts.length + 1)

def fetch (options : ReadOptions) (extent : Extent) : EStateM Error PageStore Page := fun store =>
  let (outcome, reads) := match store.kind with
    | .untyped => pageOfAnyKind store.image options extent
    | _ => (pageAt store.image options extent, 1)
  let next := { store with reads := store.reads + reads, trace := (options, extent) :: store.trace }
  match outcome with
  | .ok page => .ok page next
  | .error error => .error error next

def lookup (store : PageStore) (extent : Extent) : Option Page :=
  (store.cache.find? fun entry => entry.1 = extent).map (·.2)

def keep (store : PageStore) (extent : Extent) (page : Page) : PageStore :=
  { store with cache := (extent, page) :: store.cache.filter fun entry => entry.1 ≠ extent }

/-- Reads a page. A kept page has to be of the kind that is asked for. -/
def read (options : ReadOptions) (extent : Extent) : EStateM Error PageStore Page := do
  let store ← get
  let useCache := store.kind = .caching && options.cached
  match if useCache then store.lookup extent else none with
  | some page =>
    if page.footer.kind ≠ options.kind then throw (.wrongCachedKind options.kind extent.offset page.footer.kind)
    return page
  | none =>
    let page ← fetch options extent
    if useCache then modify fun store => store.keep extent page
    return page

end PageStore

end Columnar
