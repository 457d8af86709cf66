import Columnar.LeafReader
import Columnar.Predicate
import Columnar.RowSet

namespace Columnar

namespace Error

def zoneCount (zones pages : Nat) (file : String) : Error :=
  corruption s!"{zones} page zone maps for {pages} data pages in {file}"

def filterCount (filters pages : Nat) (file : String) : Error :=
  corruption s!"{filters} bloom filters for {pages} data pages in {file}"

end Error

def PageSpan.range (span : PageSpan) : RowRange := ⟨span.first, span.stop⟩

namespace OrdinalIndex

/-- The pages from one on that begin before a row. -/
def spansUpTo (index : OrdinalIndex) (page stop : Nat) : List PageSpan :=
  (index.spans.drop page).takeWhile fun span => span.first < stop

/-- Takes up a page that comes behind all pages taken up before. -/
def takeUp (taken : List PageSpan) (span : PageSpan) : List PageSpan :=
  if taken.getLast?.all fun last => last.page < span.page then taken ++ [span] else taken

/-- Takes up the pages of a range, walked from the page of its first row on. A range behind the last of `count` rows
has none. -/
def takeRange (index : OrdinalIndex) (count : Nat) (taken : List PageSpan) (range : RowRange) :
    Except Error (List PageSpan) :=
  if range.isEmpty || count ≤ range.start then .ok taken
  else do
    let first ← index.find range.start
    return (index.spansUpTo first.page range.stop).foldl takeUp taken

/-- The pages that share rows with a set of rows. -/
def spansOf (index : OrdinalIndex) (count : Nat) (rows : RowSet) : Except Error (List PageSpan) :=
  rows.ranges.foldlM (index.takeRange count) []

end OrdinalIndex

namespace LeafReader

/-- A page may hold rows that fulfil a predicate and are not deleted. A zone map that passes all says nothing about
them. -/
def keepsZone (reader : LeafReader) (keep : Predicate) (delete : Option Predicate) (zone : ZoneMap) :
    Except Error Bool :=
  if zone.passAll then .ok true
  else do
    let (min, max) ← zone.bounds reader.column.type reader.column.length
    return keep.mayMatch min max && !delete.any fun predicate => predicate.verdict min max = .all

def keptPages (reader : LeafReader) (keep : Predicate) (delete : Option Predicate) :
    List (ZoneMap × PageSpan) → Action Session (List PageSpan)
  | [] => pure []
  | (zone, span) :: rest => do
    let kept ← if zone.isEmpty then do
        if 0 < span.rows then
          Session.write .warn
            s!"zone map of page {span.page} in {reader.file} reports no rows, page spans {span.rows}"
        pure false
      else Action.lift (reader.keepsZone keep delete zone)
    let others ← reader.keptPages keep delete rest
    return if kept then span :: others else others

/-- The share of pages left out, in percent. The quotient is rounded to a double before it is rounded to places. -/
def percentText (part whole : Nat) : String :=
  String.ofList (FloatFormat.double.printFixed 2
    (if whole = 0 then 0 else FloatFormat.double.ofQuotient (part * 100) whole))

/-- The rows of the pages that may hold rows fulfilling a predicate, by the zone maps. Pages whose rows are all
deleted are left out. -/
def pruneByZones (reader : LeafReader) (keep : Predicate) (delete : Option Predicate) : Action Session RowSet := do
  if reader.rows = 0 then return .empty
  match reader.indexes.zones with
  | none => return .all reader.rows
  | some (_, pages) =>
    let zones ← reader.access.loadZones pages
    let index ← reader.ordinalIndex
    let count := index.pages.length
    if zones.length ≠ count then throw (.zoneCount zones.length count reader.file)
    let kept ← reader.keptPages keep delete (zones.zip index.spans)
    let percent := percentText (count - kept.length) count
    Session.write .debug (s!"zone map pruning of {reader.file} [total_pages={count}, kept_pages={kept.length}, "
      ++ s!"filtered={percent}%]")
    return RowSet.ofRanges (kept.map PageSpan.range)

/-- Leaves out of some rows those on pages whose bloom filter rules a condition out. -/
def passFilters (reader : LeafReader) (keep : FilterTest) (rows : RowSet) (filters : List BloomFilter)
    (index : OrdinalIndex) : Action Session RowSet := do
  let count := index.pages.length
  if filters.length ≠ count then throw (.filterCount filters.length count reader.file)
  let candidates ← Action.lift (index.spansOf reader.rows rows)
  let matching := candidates.filter fun span => filters[span.page]?.any keep.mayMatch
  let result := rows.intersection (RowSet.ofRanges (matching.map PageSpan.range))
  Session.write .debug (s!"bloom filter pruning of {reader.file} [candidate_pages={candidates.length}, "
    ++ s!"rows_before={rows.count}, rows_after={result.count}]")
  return result

/-- Leaves out of some rows those that cannot fulfil a condition, by the bloom filters of their pages where the leaf
has any that can tell. -/
def pruneByFilters (reader : LeafReader) (keep : FilterTest) (rows : RowSet) : Action Session RowSet := do
  if reader.rows = 0 then return .empty
  match reader.indexes.filters.filter fun _ => keep.applies with
  | none => return rows
  | some pages =>
    let filters ← reader.access.loadFilters pages
    let index ← reader.ordinalIndex
    reader.passFilters keep rows filters index

/-- Some row of the whole column may fulfil a predicate, by the zone map in the metadata. -/
def mayMatch (reader : LeafReader) (keep : Predicate) : Except Error Bool :=
  match reader.indexes.zones with
  | none => .ok true
  | some (whole, _) =>
    if whole.passAll then .ok true
    else if whole.isEmpty then .ok false
    else do
      let (min, max) ← whole.bounds reader.column.type reader.column.length
      return keep.mayMatch min max

end LeafReader

end Columnar
