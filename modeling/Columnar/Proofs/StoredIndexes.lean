import Columnar.Proofs.StoredLeaf

namespace Columnar

open Columnar.Action Session

namespace LeafReader

variable (reader : LeafReader) (image : Bytes)

/-- The bloom filters of the data pages as the segment holds them. -/
def filtersIn (pages : Extent) : Except Error (List BloomFilter) := do
  let (body, entries) ← reader.indexPageIn image pages .filtersKind
  BloomFilter.ofBody body entries

/-- The bitmap index as the segment holds it. -/
def bitmapIn (words bitmaps : Extent) : Except Error BitmapIndex := do
  let (body, entries) ← reader.indexPageIn image words .bitmapsKind
  let words ← BitmapIndex.entries body entries
  let (body, entries) ← reader.indexPageIn image bitmaps .bitmapsKind
  let bitmaps ← BitmapIndex.entries body entries
  BitmapIndex.create words bitmaps

/-- All parts that have been loaded of the leaf are what the segment holds. -/
structure Mirrors (loaded : Loaded) : Prop where
  faithful : reader.Faithful image loaded
  bitmap : ∀ index ∈ loaded.bitmap, ∀ pages ∈ reader.indexes.bitmap,
    reader.bitmapIn image pages.1 pages.2 = .ok index
  filters : ∀ filters ∈ loaded.filters, ∀ pages ∈ reader.indexes.filters, reader.filtersIn image pages = .ok filters

variable {reader : LeafReader} {image : Bytes}

theorem mirrors_nothing : reader.Mirrors image {} := ⟨⟨nofun, nofun, nofun⟩, nofun, nofun⟩

namespace Mirrors

theorem toldOrdinal : reader.ToldOrdinal image (reader.Mirrors image) where
  held := fun loaded mirrors => Faithful.toldOrdinal.held loaded mirrors.faithful
  kept := fun loaded mirrors index found =>
    ⟨Faithful.toldOrdinal.kept loaded mirrors.faithful index found, mirrors.bitmap, mirrors.filters⟩

theorem toldWords : reader.ToldWords image (reader.Mirrors image) where
  held := fun loaded mirrors => Faithful.toldWords.held loaded mirrors.faithful
  kept := fun loaded mirrors words found =>
    ⟨Faithful.toldWords.kept loaded mirrors.faithful words found, mirrors.bitmap, mirrors.filters⟩

theorem toldZones {whole : ZoneMap} {pages : Extent} (stored : reader.indexes.zones = some (whole, pages)) :
    Told (reader.Mirrors image) Loaded.zones (fun zones loaded => { loaded with zones := some zones })
      (reader.zonesIn image pages) where
  held := fun _ mirrors zones found => mirrors.faithful.zones zones found _ stored
  kept := by
    refine fun loaded mirrors zones found =>
      ⟨⟨mirrors.faithful.ordinal, mirrors.faithful.words, ?_⟩, mirrors.bitmap, mirrors.filters⟩
    rintro other ⟨⟩ index listed
    cases stored.symm.trans listed
    exact found

theorem toldBitmap {words bitmaps : Extent} (stored : reader.indexes.bitmap = some (words, bitmaps)) :
    Told (reader.Mirrors image) Loaded.bitmap (fun index loaded => { loaded with bitmap := some index })
      (reader.bitmapIn image words bitmaps) where
  held := fun _ mirrors index found => mirrors.bitmap index found _ stored
  kept := by
    refine fun loaded mirrors index found =>
      ⟨⟨mirrors.faithful.ordinal, mirrors.faithful.words, mirrors.faithful.zones⟩, ?_, mirrors.filters⟩
    rintro other ⟨⟩ pages listed
    cases stored.symm.trans listed
    exact found

theorem toldFilters {pages : Extent} (stored : reader.indexes.filters = some pages) :
    Told (reader.Mirrors image) Loaded.filters (fun filters loaded => { loaded with filters := some filters })
      (reader.filtersIn image pages) where
  held := fun _ mirrors filters found => mirrors.filters filters found _ stored
  kept := by
    refine fun loaded mirrors filters found =>
      ⟨⟨mirrors.faithful.ordinal, mirrors.faithful.words, mirrors.faithful.zones⟩, mirrors.bitmap, ?_⟩
    rintro other ⟨⟩ extent listed
    cases stored.symm.trans listed
    exact found

end Mirrors

namespace Mirrors

variable {readers : List LeafReader} {kind : StoreKind} (member : reader ∈ readers)

include member

theorem settles_ordinalIndex :
    Settles (Error.Near kind) (Holds kind (fun reader => reader.Mirrors image) image readers)
    reader.ordinalIndex (reader.indexIn image) := LeafReader.settles_ordinalIndex member toldOrdinal

theorem settles_dictionary (options : CursorOptions) :
    Settles (Error.Near kind) (Holds kind (fun reader => reader.Mirrors image) image readers)
      (reader.dictionary options) (reader.wordsIn image) := LeafReader.settles_dictionary member toldWords options

theorem settles_zones {whole : ZoneMap} {pages : Extent} (stored : reader.indexes.zones = some (whole, pages)) :
    Settles (Error.Near kind) (Holds kind (fun reader => reader.Mirrors image) image readers)
      (reader.access.loadZones pages) (reader.zonesIn image pages) := by
  refine settles_once member (toldZones stored) ((settles_indexPage member pages .zonesKind).bind fun page _ => ?_)
  obtain ⟨body, entries⟩ := page
  exact (Settles.lift (Error.nearness kind) _).logged .debug _

theorem settles_filters {pages : Extent} (stored : reader.indexes.filters = some pages) :
    Settles (Error.Near kind) (Holds kind (fun reader => reader.Mirrors image) image readers)
      (reader.access.loadFilters pages) (reader.filtersIn image pages) := by
  refine settles_once member (toldFilters stored) ((settles_indexPage member pages .filtersKind).bind
    fun page _ => ?_)
  obtain ⟨body, entries⟩ := page
  exact (Settles.lift (Error.nearness kind) _).logged .debug _

theorem settles_bitmap {words bitmaps : Extent} (stored : reader.indexes.bitmap = some (words, bitmaps)) :
    Settles (Error.Near kind) (Holds kind (fun reader => reader.Mirrors image) image readers)
      (reader.access.loadBitmapIndex words bitmaps) (reader.bitmapIn image words bitmaps) := by
  refine settles_once member (toldBitmap stored) ((settles_indexPage member words .bitmapsKind).bind
    fun page _ => ?_)
  obtain ⟨body, entries⟩ := page
  refine (Settles.lift (Error.nearness kind) _).bind fun stored _ => ?_
  refine (settles_indexPage member bitmaps .bitmapsKind).bind fun page _ => ?_
  obtain ⟨body, entries⟩ := page
  refine (Settles.lift (Error.nearness kind) _).bind fun stored' _ => ?_
  exact (Settles.lift (Error.nearness kind) _).logged .debug _

end Mirrors

end LeafReader

end Columnar
