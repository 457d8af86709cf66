import Columnar.ColumnType

namespace Columnar

/-- A stretch of the segment file that holds one page. -/
structure Extent where
  offset : Nat
  size : Nat
  deriving DecidableEq, Repr

/-- How the values of a page are laid out. The default is chosen by the column type. -/
inductive Encoding where
  | default | plain | rle | dict | unknown
  deriving DecidableEq, Repr

inductive Codec where
  | none | snappy | lz4 | lz4Frame | zlib | zstd | unknown
  deriving DecidableEq, Repr

/-- Summary of the rows of a page or of a whole column. The bounds are texts of the column type. -/
structure ZoneMap where
  min : String := ""
  max : String := ""
  hasNull : Bool := false
  hasValue : Bool := false
  /-- The bounds say nothing: no predicate may leave the rows out. -/
  passAll : Bool := false
  deriving DecidableEq, Repr

def ZoneMap.isEmpty (zone : ZoneMap) : Bool := !zone.hasNull && !zone.hasValue

/-- An index of a column and where its pages are. -/
inductive IndexMeta where
  /-- Where each data page starts. With `single` the column has one data page, and the root is that page. -/
  | ordinal (root : Extent) (single : Bool)
  | zoneMap (whole : ZoneMap) (pages : Extent)
  | bitmap (words bitmaps : Extent)
  | bloomFilter (filters : Extent)
  | unknown
  deriving DecidableEq, Repr

/-- How one column is stored, apart from its children. -/
structure LeafMeta where
  columnId : Nat
  type : ColumnType
  encoding : Encoding := .default
  codec : Codec := .none
  /-- Declared length of `char` values. -/
  length : Nat := 0
  isNullable : Bool := false
  rows : Nat
  indexes : List IndexMeta := []
  dictionary : Option Extent := none
  deriving DecidableEq, Repr

/-- How a column is stored. The children of an array are its items, its lengths and, when it is nullable, its null
flags. -/
structure ColumnMeta where
  own : LeafMeta
  children : List ColumnMeta := []
  deriving Repr

namespace Encoding

def name : Encoding → String
  | default => "default"
  | plain => "plain"
  | rle => "rle"
  | dict => "dict"
  | unknown => "unknown"

def title : Encoding → String
  | default => "Default"
  | plain => "Plain"
  | rle => "Rle"
  | dict => "Dict"
  | unknown => "Unknown"

/-- Names that are not known stand for an unknown encoding. -/
def ofName (name : List Char) : Encoding :=
  ([default, plain, rle, dict].find? (·.name.toList = name)).getD unknown

end Encoding

namespace Codec

def name : Codec → String
  | none => "none"
  | snappy => "snappy"
  | lz4 => "lz4"
  | lz4Frame => "lz4_frame"
  | zlib => "zlib"
  | zstd => "zstd"
  | unknown => "unknown"

def title : Codec → String
  | none => "None"
  | snappy => "Snappy"
  | lz4 => "Lz4"
  | lz4Frame => "Lz4Frame"
  | zlib => "Zlib"
  | zstd => "Zstd"
  | unknown => "Unknown"

def ofName (name : List Char) : Codec :=
  ([none, snappy, lz4, lz4Frame, zlib, zstd].find? (·.name.toList = name)).getD unknown

end Codec

def IndexMeta.kind : IndexMeta → String
  | ordinal .. => "ordinal"
  | zoneMap .. => "zone_map"
  | bitmap .. => "bitmap"
  | bloomFilter _ => "bloom_filter"
  | unknown => "unknown"

mutual

/-- Equality of metadata can be decided, child by child. -/
def ColumnMeta.decEq (a b : ColumnMeta) : Decidable (a = b) :=
  match a, b with
  | ⟨own, children⟩, ⟨other, others⟩ =>
    if same : own = other then
      match ColumnMeta.decEqList children others with
      | isTrue equal => isTrue (by rw [same, equal])
      | isFalse differ => isFalse fun equal => differ (ColumnMeta.mk.inj equal).2
    else isFalse fun equal => same (ColumnMeta.mk.inj equal).1

def ColumnMeta.decEqList (as bs : List ColumnMeta) : Decidable (as = bs) :=
  match as, bs with
  | [], [] => isTrue rfl
  | [], _ :: _ => isFalse (by simp)
  | _ :: _, [] => isFalse (by simp)
  | a :: as, b :: bs =>
    match ColumnMeta.decEq a b, ColumnMeta.decEqList as bs with
    | isTrue head, isTrue tail => isTrue (by rw [head, tail])
    | isFalse differ, _ => isFalse fun equal => differ (List.cons.inj equal).1
    | _, isFalse differ => isFalse fun equal => differ (List.cons.inj equal).2

end

instance : DecidableEq ColumnMeta := ColumnMeta.decEq

end Columnar
