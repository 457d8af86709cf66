import Columnar.ColumnMeta
import Columnar.Json.Writing

namespace Columnar

open Json

def Extent.write (extent : Extent) : List Char :=
  writeObject [("offset", Text.digits extent.offset), ("size", Text.digits extent.size)]

def ZoneMap.write (zone : ZoneMap) : List Char :=
  writeObject [("min", writeString zone.min.toList), ("max", writeString zone.max.toList),
    ("has_null", writeBoolean zone.hasNull), ("has_not_null", writeBoolean zone.hasValue),
    ("pass_all", writeBoolean zone.passAll)]

/-- An index is written with its kind first. -/
def IndexMeta.write (index : IndexMeta) : List Char :=
  let kind := ("kind", writeString index.kind.toList)
  match index with
  | .ordinal root single =>
    writeObject [kind, ("root_page", root.write), ("is_root_data_page", writeBoolean single)]
  | .zoneMap whole pages => writeObject [kind, ("segment_zone_map", whole.write), ("page_zone_maps", pages.write)]
  | .bitmap words bitmaps => writeObject [kind, ("dict_column", words.write), ("bitmap_column", bitmaps.write)]
  | .bloomFilter filters => writeObject [kind, ("bloom_filters", filters.write)]
  | .unknown => writeObject [kind]

/-- The members of a column in their fixed order. Empty lists and an absent dictionary are left out. -/
def LeafMeta.members (own : LeafMeta) : List (String × List Char) :=
  [("column_id", Text.digits own.columnId), ("type", writeString own.type.name.toList),
    ("encoding", writeString own.encoding.name.toList), ("compression", writeString own.codec.name.toList),
    ("length", Text.digits own.length), ("is_nullable", writeBoolean own.isNullable),
    ("num_rows", Text.digits own.rows)]
  ++ (if own.indexes.isEmpty then [] else [("indexes", writeList (own.indexes.map IndexMeta.write))])
  ++ (match own.dictionary with
    | some extent => [("dict_page", extent.write)]
    | none => [])

mutual

def ColumnMeta.write : ColumnMeta → List Char
  | ⟨own, children⟩ =>
    writeObject (own.members ++ match children with
      | [] => []
      | child :: rest => [("children", writeList (child.write :: ColumnMeta.writeAll rest))])

def ColumnMeta.writeAll : List ColumnMeta → List (List Char)
  | [] => []
  | child :: rest => child.write :: ColumnMeta.writeAll rest

end

def ColumnMeta.toJson (column : ColumnMeta) : String := String.ofList column.write

end Columnar
