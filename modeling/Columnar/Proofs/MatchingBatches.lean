import Columnar.Proofs.WellFormedColumns

namespace Columnar

namespace OffsetBuffer

/-- The types of lengths that can be turned into places. -/
def Takes (type : ColumnType) : Prop := type = .integer .int ∨ type = .integer .unsigned ∨ type = .integer .big

variable {type : ColumnType}

theorem create_of_takes (taken : Takes type) : create type = .ok { type } := if_pos taken

theorem create_of_not_takes (untaken : ¬Takes type) : create type = .error (.lengthsType type) := if_neg untaken

end OffsetBuffer

namespace Batch

/-- The null flags of an array batch that has no rows. -/
def freshFlags : FixedBuffer := { type := .boolean, width := 1, nullable := false }

/-- A batch for an array column is made from a batch for its items and from its lengths; it has null flags where
there are any. -/
theorem ofColumn_children {own : LeafMeta} {item lengths : ColumnMeta} {rest : List ColumnMeta}
    (nested : own.type = .array) (few : rest.length ≤ 1) : ofColumn ⟨own, item :: lengths :: rest⟩ = (do
      let items ← ofColumn item
      let offsets ← OffsetBuffer.create lengths.own.type
      return array { offsets, flags := rest.head?.map fun _ => freshFlags } items) := by
  conv_lhs => unfold ofColumn
  simp only [nested]
  match rest, few with
  | [], _ => rfl
  | [_], _ => rfl

end Batch

namespace ColumnReader

/-- A batch has the levels of a column: an array where the column has one, of the same nullability, whose places
come from lengths of the type that is stored, and rows of the type and nullability of the leaf at the innermost
level. -/
inductive Matches : ColumnReader → Batch → Prop
  | leaf {reader : LeafReader} {batch : Batch} (flat : batch.type ≠ .array) (type : batch.type = reader.column.type)
      (nullable : batch.isNullable = (leaf reader).isNullable) :
      Matches (leaf reader) batch
  | array {items : ColumnReader} {lengths : LeafReader} {flags : Option LeafReader} {rows : ArrayRows}
      {inner : Batch} (inside : items.Matches inner)
      (nullable : (Batch.array rows inner).isNullable = (array items lengths flags).isNullable)
      (places : OffsetBuffer.create lengths.column.type = .ok rows.offsets) :
      Matches (array items lengths flags) (.array rows inner)

/-- The lengths of all arrays are stored in some types. -/
def LengthsIn (allowed : ColumnType → Prop) : ColumnReader → Prop
  | leaf _ => True
  | array items lengths _ => items.LengthsIn allowed ∧ allowed lengths.column.type

variable {options : ReaderOptions} {file : String} {column : ColumnMeta} {rows : Nat} {key : LeafKey}
  {reader : ColumnReader}

theorem ofColumn_leaf {leaf : LeafReader} (created : create options file column rows key = .ok (.leaf leaf)) :
    ∃ batch, Batch.ofColumn column = .ok batch ∧ Matches (.leaf leaf) batch := by
  obtain ⟨flat, created⟩ := create_leaf created
  have codec := ((LeafReader.create_ok_iff _ _ _ _ _).mp ⟨leaf, created⟩).hasCodec
  obtain ⟨same, _⟩ := create_spec created
  have matching (batch : Batch) (type : batch.type = column.own.type)
      (nullable : batch.isNullable = column.own.isNullable) :
      Matches (.leaf leaf) batch := by
    refine .leaf (type ▸ flat) ?_ ?_
    · rw [same, type]
    · rw [isNullable, same, nullable]
  obtain ⟨own, children⟩ := column
  unfold Batch.ofColumn
  split
  · rename_i nested
    exact absurd nested flat
  · split
    · exact ⟨_, rfl, matching _ rfl rfl⟩
    · rename_i fixed
      obtain ⟨width, size⟩ : ∃ width, own.type.fixedSize? = some width := by
        cases kind : own.type <;> simp_all [ColumnType.hasCodec, ColumnType.isVarSize, ColumnType.fixedSize?]
      exact ⟨.fixed ⟨own.type, width, own.isNullable, [], 0⟩,
        by simp [FixedBuffer.create, size, Functor.map, Except.map], matching _ rfl rfl⟩

/-- What a batch for a column comes to: one that matches its reader, or a refusal of the lengths of some array. -/
theorem ofColumn_of_create (created : create options file column rows key = .ok reader) :
    (reader.LengthsIn OffsetBuffer.Takes → ∃ batch, Batch.ofColumn column = .ok batch ∧ reader.Matches batch) ∧
      (¬reader.LengthsIn OffsetBuffer.Takes → ∃ type, Batch.ofColumn column = .error (.lengthsType type)) := by
  induction reader generalizing column rows key with
  | leaf reader => exact ⟨fun _ => ofColumn_leaf created, fun others => absurd trivial others⟩
  | array items lengths flags ih =>
    obtain ⟨nested, item, measure, rest, children, inside, measured, marked⟩ := create_array created
    obtain ⟨same, _⟩ := create_spec measured
    obtain ⟨own, others⟩ := column
    obtain rfl : others = item :: measure :: rest := children
    obtain ⟨made, refused⟩ := ih inside
    have flagged : rest.length ≤ 1 ∧ rest.head?.isSome = flags.isSome := by
      rcases marked with ⟨rfl, rfl⟩ | ⟨marks, reader, rfl, rfl, _⟩
      · exact ⟨Nat.zero_le 1, rfl⟩
      · exact ⟨Nat.le_refl 1, rfl⟩
    rw [Batch.ofColumn_children nested flagged.1]
    constructor
    · rintro ⟨inner, taken⟩
      obtain ⟨batch, known, matching⟩ := made inner
      have typed := OffsetBuffer.create_of_takes taken
      refine ⟨.array
        { offsets := { type := lengths.column.type }, flags := rest.head?.map fun _ => Batch.freshFlags } batch, ?_,
        .array matching ?_ typed⟩
      · rw [known, ← same, typed]
        rfl
      · simpa [Batch.isNullable, ArrayRows.isNullable, ColumnReader.isNullable] using flagged.2
    · intro others
      by_cases inner : items.LengthsIn OffsetBuffer.Takes
      · obtain ⟨batch, known, _⟩ := made inner
        have untaken : ¬OffsetBuffer.Takes lengths.column.type := fun taken => others ⟨inner, taken⟩
        refine ⟨lengths.column.type, ?_⟩
        rw [known, ← same, OffsetBuffer.create_of_not_takes untaken]
        rfl
      · obtain ⟨type, refused⟩ := refused inner
        refine ⟨type, ?_⟩
        rw [refused]
        rfl

/-- A column that can be read has a batch to be read into exactly where the lengths of its arrays are stored in
types that can be turned into places. The batch matches the column at all levels. -/
theorem ofColumn_ok_iff (created : create options file column rows key = .ok reader) :
    ((∃ batch, Batch.ofColumn column = .ok batch) ↔ reader.LengthsIn OffsetBuffer.Takes) ∧
      (∀ batch, Batch.ofColumn column = .ok batch → reader.Matches batch) ∧
      ∀ error, Batch.ofColumn column = .error error → ∃ type, error = .lengthsType type := by
  obtain ⟨made, refused⟩ := ofColumn_of_create created
  by_cases taken : reader.LengthsIn OffsetBuffer.Takes
  · obtain ⟨batch, known, matching⟩ := made taken
    refine ⟨iff_of_true ⟨batch, known⟩ taken, fun other same => ?_, fun error failed => ?_⟩
    · cases known.symm.trans same
      exact matching
    · cases known.symm.trans failed
  · obtain ⟨type, failed⟩ := refused taken
    refine ⟨iff_of_false ?_ taken, fun batch known => ?_, fun error same => ⟨type, ?_⟩⟩
    · rintro ⟨batch, known⟩
      cases failed.symm.trans known
    · cases failed.symm.trans known
    · cases failed.symm.trans same
      rfl

end ColumnReader

/-- A nullable array of arrays of texts without rows. The lengths are stored in two types that can be turned into
places. -/
def nestedTexts : ColumnMeta where
  own := { columnId := 1, type := .array, isNullable := true, rows := 0 }
  children := [
    { own := { columnId := 2, type := .array, rows := 0 }
      children := [{ own := { columnId := 3, type := .text .varchar, isNullable := true, rows := 0 } },
        { own := { columnId := 4, type := .integer .big, rows := 0 } }] },
    { own := { columnId := 5, type := .integer .unsigned, rows := 0 } },
    { own := { columnId := 6, type := .boolean, rows := 0 } }]

theorem ColumnReader.ofColumn_ok_iff_nestedTexts : ∃ reader batch,
    create {} "nested" nestedTexts 0 [] = .ok reader ∧
    reader.LengthsIn OffsetBuffer.Takes ∧ Batch.ofColumn nestedTexts = .ok batch ∧ reader.Matches batch := by
  obtain ⟨reader, created⟩ : ∃ reader, create {} "nested" nestedTexts 0 [] = .ok reader := ⟨_, by cbv⟩
  obtain ⟨batch, made⟩ : ∃ batch, Batch.ofColumn nestedTexts = .ok batch := ⟨_, by cbv⟩
  obtain ⟨taken, matching, _⟩ := ofColumn_ok_iff created
  exact ⟨reader, batch, created, taken.mp ⟨batch, made⟩, made, matching batch made⟩

/-- An array of tiny integers without rows, with lengths of a type that cannot be turned into places. -/
def tinyLengths : ColumnMeta where
  own := { columnId := 1, type := .array, rows := 0 }
  children := [{ own := { columnId := 2, type := .integer .tiny, rows := 0 } },
    { own := { columnId := 3, type := .integer .tiny, rows := 0 } }]

/-- A column that can be read need not have a batch to be read into. -/
theorem ColumnReader.tinyLengths_noBatch : (∃ reader, create {} "tiny" tinyLengths 0 [] = .ok reader) ∧
    Batch.ofColumn tinyLengths = .error (.lengthsType (.integer .tiny)) :=
  ⟨⟨_, by cbv⟩, by cbv⟩

end Columnar
