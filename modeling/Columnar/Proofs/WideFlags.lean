import Mathlib
import Columnar.Proofs.ColumnScan

namespace Columnar

open Columnar.Action Session

namespace WideFlags

/-! An array column of two empty rows whose null flags are stored in values of more than one byte. The first value
is `0 1 0 …` and the second is zero. -/

def options : ReaderOptions := { verifyChecksum := false }

def items : LeafReader where
  column := { columnId := 2, type := .integer .tiny, rows := 0 }
  rows := 0
  access := { file := "wide", key := [.items], options }
  coding := .packed 1
  indexes := {}

def lengths : LeafReader where
  column := { columnId := 3, type := .integer .int, rows := 2, indexes := [.ordinal ⟨0, 41⟩ true] }
  rows := 2
  access := { file := "wide", key := [.lengths], options }
  coding := .packed 4
  indexes := { ordinal := some (⟨0, 41⟩, true) }

def flags (type : ColumnType) (width : Nat) : LeafReader where
  column := { columnId := 4, type, rows := 2, indexes := [.ordinal ⟨41, 33 + 2 * width⟩ true] }
  rows := 2
  access := { file := "wide", key := [.flags], options }
  coding := .packed width
  indexes := { ordinal := some (⟨41, 33 + 2 * width⟩, true) }

def column (type : ColumnType) (width : Nat) : ColumnMeta where
  own := { columnId := 1, type := .array, isNullable := true, rows := 2 }
  children := [{ own := items.column }, { own := lengths.column }, { own := (flags type width).column }]

def reader (type : ColumnType) (width : Nat) : ColumnReader :=
  .array (.leaf items) lengths (some (flags type width))

def fresh : Batch :=
  .array ⟨{ type := .integer .int }, some { type := .boolean, width := 1, nullable := false }, []⟩
    (.fixed { type := .integer .tiny, width := 1, nullable := false })

/-- The checksums of the pages are left out. -/
def image (width : Nat) : Bytes :=
  Page.covered ⟨List.replicate 8 0, .data (.ofStored 0 2 0 0)⟩ ++ [0, 0, 0, 0] ++
    (Page.covered ⟨0 :: 1 :: List.replicate (2 * width - 2) 0, .data (.ofStored 0 2 0 0)⟩ ++ [0, 0, 0, 0])

def session (width : Nat) : Session := { store := { image := image width } }

def scanned : List RowValue := [.array false [], .array true []]

variable {type : ColumnType} {width : Nat}

theorem width_cases (size : type.fixedSize? = some width) (wide : width ≠ 1) :
    width = 2 ∨ width = 4 ∨ width = 8 ∨ width = 16 := by
  cases type with
  | integer kind => cases kind <;> cases size <;> simp [IntKind.width] at wide ⊢
  | float kind => cases kind <;> cases size <;> simp [FloatKind.width]
  | boolean => cases size; exact absurd rfl wide
  | decimal | date | datetime => cases size; simp
  | text kind => cases size
  | array | sketch | object => cases size

theorem created (size : type.fixedSize? = some width) (wide : width ≠ 1) :
    ColumnReader.create options "wide" (column type width) 2 [] = .ok (reader type width) := by
  cases type with
  | integer kind => cases kind <;> cases size <;> first | exact absurd rfl wide | cbv
  | float kind => cases kind <;> cases size <;> cbv
  | boolean => cases size; exact absurd rfl wide
  | decimal | date | datetime => cases size; cbv
  | text kind => cases size
  | array | sketch | object => cases size

theorem made : Batch.ofColumn (column type width) = .ok fresh := by
  cbv

theorem consistent (wide : width = 2 ∨ width = 4 ∨ width = 8 ∨ width = 16) :
    (reader type width).Consistent (image width) := by
  have listed : lengths.indexIn (image width) = .ok { pages := [⟨0, ⟨0, 41⟩⟩], rows := 2 } := by cbv
  have sizes : lengths.sizesIn (image width) 0 2 = some [0, 0] := by
    rcases wide with rfl | rfl | rfl | rfl <;> cbv
  have opens : ∃ opened, lengths.openedIn (image width) ⟨0, 0, 2, ⟨0, 41⟩⟩ = .ok opened ∧ opened.firstItem = 0 := by
    rcases wide with rfl | rfl | rfl | rfl <;> exact ⟨_, by cbv, by cbv⟩
  obtain ⟨opened, opens, none⟩ := opens
  refine ⟨trivial, ?_, LeafReader.sumsTo_of_whole sizes (by decide), LeafReader.based_of_single listed opens none⟩
  rintro other held
  cases held
  rfl

/-- Both rows at once. -/
theorem scans (type : ColumnType) (wide : width = 2 ∨ width = 4 ∨ width = 8 ∨ width = 16) :
    ∃ started finished, ColumnCursor.seekFirst (session width, .ofReader {} (reader type width)) = .ok () started ∧
      ColumnCursor.Drains (started.1, started.2, fresh) finished ∧ finished.2.2.rowValues = scanned := by
  rcases wide with rfl | rfl | rfl | rfl <;>
    exact ⟨_, _, by cbv, .more 2 (by decide) (by cbv) (by cbv) (.done 2 (by decide) (by cbv) (by cbv)), by cbv⟩

/-- One row after the other. -/
theorem splits (type : ColumnType) (width : Nat) (wide : width = 2 ∨ width = 4 ∨ width = 8 ∨ width = 16) :
    ∃ state, ColumnCall.runAll fresh [.toFirst, .read 1] (session width, .ofReader {} (reader type width), fresh) =
        .ok () state ∧ ∃ read after, ColumnCursor.next 1 state = .ok read after ∧
        after.2.2.rowValues = [.array false [], .array false []] ∧ state.2.2.rowValues = [.array false []] ∧
        state.2.1.ordinal = 1 := by
  rcases wide with rfl | rfl | rfl | rfl <;> exact ⟨_, by cbv, _, _, by cbv, by cbv, by cbv, by cbv⟩

/-- What the scan delivers is not what the same rows come to one by one. -/
theorem not_decided (type : ColumnType) (wide : width = 2 ∨ width = 4 ∨ width = 8 ∨ width = 16)
    (serves : Serves (image width) (reader type width).leaves (session width)) :
    ¬(reader type width).ScanDecides fresh (image width) := by
  intro decides
  obtain ⟨started, finished, starts, drains, rows⟩ := scans type wide
  obtain ⟨_, answers⟩ := decides _ serves {} started starts finished drains
  obtain ⟨state, run, read, after, next, grown, held, place⟩ := splits type width wide
  obtain ⟨other, run', read', after', next', _, grown', _⟩ :=
      answers _ serves {} [.toFirst, .read 1] (.read 1) rfl (by
    simp [ColumnCall.Within])
  cases run.symm.trans run'
  cases next.symm.trans next'
  rw [rows, held, place, grown] at grown'
  simp [scanned] at grown'

end WideFlags

/-- For columns whose null flags are stored in some types a full scan decides what every call comes to, exactly if
the types have no values of more than a byte. A batch takes as many bytes of wider values as there are rows to
read. -/
theorem ColumnReader.scanDecides_iff (allowed : ColumnType → Prop) :
    (∀ (options : ReaderOptions) (file : String) (column : ColumnMeta) (rows : Nat) (key : LeafKey)
        (reader : ColumnReader) (fresh : Batch) (image : Bytes), create options file column rows key = .ok reader →
        Batch.ofColumn column = .ok fresh → reader.FlagsIn allowed → reader.Consistent image →
        reader.ScanDecides fresh image) ↔
      ∀ type, allowed type → type.FlagSized := by
  constructor
  · intro decides type may width size
    by_contra wide
    have widths := WideFlags.width_cases size wide
    have created := WideFlags.created size wide
    refine WideFlags.not_decided type widths (serves_of_create created { image := WideFlags.image width }
      (.plain rfl) []) ?_
    refine decides _ _ _ _ _ _ _ _ created WideFlags.made ⟨trivial, ?_⟩ (WideFlags.consistent widths)
    rintro other held
    cases held
    exact may
  · intro sized options file column rows key reader fresh image created made flags consistent
    exact scanDecides_of_flagSized created made (flags.imp sized) consistent

/-- With flags of two bytes a column reads differently row by row, although all its rows can be scanned. -/
theorem WideFlags.small_slips :
    ColumnReader.create options "wide" (column (.integer .small) 2) 2 [] = .ok (reader (.integer .small) 2) ∧
    Batch.ofColumn (column (.integer .small) 2) = .ok fresh ∧ (reader (.integer .small) 2).Consistent (image 2) ∧
    (∃ started finished, ColumnCursor.seekFirst (session 2, .ofReader {} (reader (.integer .small) 2)) =
      .ok () started ∧
      ColumnCursor.Drains (started.1, started.2, fresh) finished ∧ finished.2.2.rowValues = scanned) ∧
    ∃ state, ColumnCall.runAll fresh [.toFirst, .read 1]
      (session 2, .ofReader {} (reader (.integer .small) 2), fresh) =
      .ok () state ∧ ¬(ColumnCall.read 1).Answers scanned state := by
  refine ⟨created rfl (by decide), made, consistent (.inl rfl), scans _ (.inl rfl), ?_⟩
  obtain ⟨state, run, read, after, next, grown, held, place⟩ := splits (.integer .small) 2 (.inl rfl)
  refine ⟨state, run, ?_⟩
  rintro ⟨read', after', next', _, grown', _⟩
  cases next.symm.trans next'
  rw [held, place, grown] at grown'
  simp [scanned] at grown'

namespace Ragged

/-! A nullable array column of arrays with the rows `1 2, none`, null and `3`. -/

def leafOf (columnId : Nat) (type : ColumnType) (extent : Extent) (key : LeafKey) (width : Nat) : LeafReader where
  column := { columnId, type, encoding := .plain, rows := 3, indexes := [.ordinal extent true] }
  rows := 3
  access := { file := "ragged", key, options := WideFlags.options }
  coding := .packed width
  indexes := { ordinal := some (extent, true) }

def lengths : LeafReader := leafOf 2 (.integer .int) ⟨0, 45⟩ [.lengths] 4

def flags : LeafReader := leafOf 3 .boolean ⟨45, 36⟩ [.flags] 1

def innerLengths : LeafReader := leafOf 4 (.integer .int) ⟨81, 45⟩ [.items, .lengths] 4

def innerItems : LeafReader := leafOf 5 (.integer .tiny) ⟨126, 36⟩ [.items, .items] 1

def column : ColumnMeta where
  own := { columnId := 1, type := .array, isNullable := true, rows := 3 }
  children := [
    { own := { columnId := 6, type := .array, rows := 3 }
      children := [{ own := innerItems.column }, { own := innerLengths.column }] },
    { own := lengths.column }, { own := flags.column }]

def reader : ColumnReader := .array (.array (.leaf innerItems) innerLengths none) lengths (some flags)

def fresh : Batch :=
  .array ⟨{ type := .integer .int }, some { type := .boolean, width := 1, nullable := false }, []⟩
    (.array ⟨{ type := .integer .int }, none, []⟩
      (.fixed { type := .integer .tiny, width := 1, nullable := false }))

/-- The checksums of the pages are left out. -/
def image : Bytes :=
  [[2, 0, 0, 0, 0, 0, 0, 0, 1, 0, 0, 0], [0, 1, 0], [2, 0, 0, 0, 0, 0, 0, 0, 1, 0, 0, 0], [1, 2, 3]].flatMap
    fun body =>
    Page.covered ⟨body, .data (.ofStored 0 3 0 0)⟩ ++ [0, 0, 0, 0]

def session : Session := { store := { image } }

def cachingSession : Session := { store := { image, kind := .caching } }

def scanned : List RowValue :=
  [.array false [.array false [.flat (some [1]), .flat (some [2])], .array false []], .array true [],
    .array false [.array false [.flat (some [3])]]]

theorem flagSized : reader.FlagsIn ColumnType.FlagSized := by
  refine ⟨⟨trivial, ?_⟩, ?_⟩
  · rintro other held
    cases held
  · rintro other held
    cases held
    rintro width size
    cases size
    rfl

theorem created : ColumnReader.create WideFlags.options "ragged" column 3 [] = .ok reader := by cbv

theorem sizes : lengths.sizesIn image 0 3 = some [2, 0, 1] := by cbv

theorem innerSizes : innerLengths.sizesIn image 0 3 = some [2, 0, 1] := by cbv

theorem opens : ∃ opened, lengths.openedIn image ⟨0, 0, 3, ⟨0, 45⟩⟩ = .ok opened ∧ opened.firstItem = 0 :=
  ⟨_, by cbv, by cbv⟩

theorem innerOpens : ∃ opened, innerLengths.openedIn image ⟨0, 0, 3, ⟨81, 45⟩⟩ = .ok opened ∧
    opened.firstItem = 0 :=
  ⟨_, by cbv, by cbv⟩

theorem consistent : reader.Consistent image := by
  obtain ⟨_, opens, none⟩ := opens
  obtain ⟨_, innerOpens, innerNone⟩ := innerOpens
  refine ⟨⟨trivial, ?_, LeafReader.sumsTo_of_whole innerSizes (by decide),
    LeafReader.based_of_single rfl innerOpens innerNone⟩, ?_, LeafReader.sumsTo_of_whole sizes (by decide),
    LeafReader.based_of_single rfl opens none⟩
  · rintro other held
    cases held
  · rintro other held
    cases held
    rfl

theorem serves : Serves image reader.leaves session :=
  ColumnReader.serves_of_create created { image } (.plain rfl) []

/-- All leaves of the column are read in one way, so that they may share what is kept. -/
theorem cachingSession_serves : Serves image reader.leaves cachingSession := by
  refine ColumnReader.serves_of_create created { image, kind := .caching } ?_ []
  refine .caching rfl .none false ?_ (PageStore.keeps_of_empty rfl _ _)
  simp [reader, ColumnReader.leaves, innerItems, innerLengths, lengths, flags, leafOf, WideFlags.options]

theorem scans : ∃ started finished, ColumnCursor.seekFirst (session, .ofReader {} reader) = .ok () started ∧
    ColumnCursor.Drains (started.1, started.2, fresh) finished ∧ finished.2.2.rowValues = scanned :=
  ⟨_, _, by cbv, .more 2 (by decide) (by cbv) (by cbv) (.more 2 (by decide) (by cbv) (by cbv)
    (.done 2 (by decide) (by cbv) (by cbv))), by cbv⟩

end Ragged

theorem ColumnReader.scanDecides_iff_ragged :
    Ragged.reader.ScanDecides Ragged.fresh Ragged.image ∧
    ∃ state, ColumnCall.runAll Ragged.fresh [.toRow 2, .read 5, .renew, .toRow 1]
      (Ragged.cachingSession, .ofReader { usePageCache := true } Ragged.reader, Ragged.fresh) = .ok () state ∧
      (ColumnCall.read 5).Answers Ragged.scanned state := by
  have decides : Ragged.reader.ScanDecides Ragged.fresh Ragged.image :=
    (scanDecides_iff ColumnType.FlagSized).mpr (fun _ sized => sized) WideFlags.options "ragged" Ragged.column 3 []
      Ragged.reader Ragged.fresh Ragged.image Ragged.created (by cbv)
      Ragged.flagSized Ragged.consistent
  obtain ⟨started, finished, starts, drains, rows⟩ := Ragged.scans
  obtain ⟨_, answers⟩ := decides _ Ragged.serves {} started starts finished drains
  rw [← rows]
  refine ⟨decides, answers _ Ragged.cachingSession_serves _ [.toRow 2, .read 5, .renew, .toRow 1] (.read 5) rfl ?_⟩
  have three : Ragged.reader.rows = 3 := rfl
  simp [ColumnCall.Within, three]

end Columnar
