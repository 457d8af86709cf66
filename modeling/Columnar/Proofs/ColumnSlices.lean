import Columnar.ColumnReader
import Columnar.Proofs.ArrayRows
import Columnar.Proofs.LeafReads

namespace Columnar

namespace Intake

variable {σ ρ : Type} [Sink σ] (intake : Intake σ ρ)

/-- What is taken of some stored rows from a place on. -/
def cut (slots : List Slot) (place count : Nat) : Option (List ρ) :=
  ((slots.drop place).take count).mapM intake.take

variable {intake} {slots : List Slot}

theorem cut_add (place first rest : Nat) : intake.cut slots place (first + rest) =
    (intake.cut slots place first).bind fun rows => (intake.cut slots (place + first) rest).map (rows ++ ·) := by
  rw [cut, List.take_add, mapM_append_some, List.drop_drop]
  rfl

theorem length_cut {place count : Nat} {rows : List ρ} (found : intake.cut slots place count = some rows) :
    rows.length = min count (slots.length - place) := by
  have same := congrArg List.length (mapM_eq_some_iff.mp found)
  rw [List.length_map, List.length_map, List.length_take, List.length_drop] at same
  exact same.symm

theorem cut_min (place count : Nat) : intake.cut slots place count =
    intake.cut slots place (min count (slots.length - place)) := by
  rw [cut, cut, ← List.length_drop, ← List.take_take, List.take_length]

/-- Where all rows are taken, each stretch of them is. -/
theorem cut_of_whole {rows : List ρ} (whole : intake.cut slots 0 slots.length = some rows) (place count : Nat) :
    intake.cut slots place count = some ((rows.drop place).take count) := by
  rw [cut, List.drop_zero, List.take_length, mapM_eq_some_iff] at whole
  rw [cut, mapM_eq_some_iff, List.map_take, List.map_drop, whole, List.map_take, List.map_drop]

theorem cut_all : intake.cut slots 0 slots.length = slots.mapM intake.take := by
  rw [cut, List.drop_zero, List.take_length]

end Intake

/-- The lengths from a row on that a leaf holds. -/
def LeafReader.sizesIn (reader : LeafReader) (image : Bytes) (place count : Nat) : Option (List Nat) :=
  (OffsetBuffer.intake reader.column.type).cut (reader.slots image) place count

theorem LeafReader.sizesIn_add (reader : LeafReader) (image : Bytes) (place first rest : Nat) :
    reader.sizesIn image place (first + rest) = (reader.sizesIn image place first).bind fun sizes =>
      (reader.sizesIn image (place + first) rest).map (sizes ++ ·) := Intake.cut_add place first rest

/-- Lengths behind those in front of a row. -/
theorem LeafReader.sizesIn_behind {reader : LeafReader} {image : Bytes} {place count : Nat} {before more : List Nat}
    (known : reader.sizesIn image 0 place = some before) (measured : reader.sizesIn image place count = some more) :
    reader.sizesIn image 0 (place + more.length) = some (before ++ more) := by
  have length := Intake.length_cut measured
  have all : reader.sizesIn image place more.length = some more := by
    rw [sizesIn, length, ← Intake.cut_min]
    exact measured
  rw [sizesIn_add, Nat.zero_add, known, all]
  rfl

/-- The items of any rows whose lengths can be read are few enough to be counted with 64 bits. -/
def LeafReader.Summable (reader : LeafReader) (image : Bytes) : Prop :=
  ∀ place count sizes, reader.sizesIn image place count = some sizes → total sizes < 2 ^ 64

/-- The null flags from a row on; without a leaf for them no row is null. -/
def nullsIn (image : Bytes) (flags : Option LeafReader) (place count : Nat) : Option (List Bool) :=
  match flags with
  | none => some (List.replicate count false)
  | some reader => ((FixedBuffer.intake .boolean 1 false).cut (reader.slots image) place count).map (·.map flagOf)

theorem nullsIn_add (image : Bytes) (flags : Option LeafReader) (place first rest : Nat) :
    nullsIn image flags place (first + rest) =
      (nullsIn image flags place first).bind fun nulls =>
      (nullsIn image flags (place + first) rest).map (nulls ++ ·) := by
  cases flags with
  | none => simp [nullsIn, List.replicate_append_replicate]
  | some reader =>
    simp only [nullsIn, Intake.cut_add]
    cases (FixedBuffer.intake .boolean 1 false).cut (reader.slots image) place first with
    | none => rfl
    | some rows =>
      cases (FixedBuffer.intake .boolean 1 false).cut (reader.slots image) (place + first) rest <;> simp

theorem nullsIn_zero (image : Bytes) (flags : Option LeafReader) (place : Nat) :
    nullsIn image flags place 0 = some [] := by
  cases flags <;> rfl

theorem length_nullsIn_le {image : Bytes} {flags : Option LeafReader} {place count : Nat} {nulls : List Bool}
    (found : nullsIn image flags place count = some nulls) : nulls.length ≤ count := by
  cases flags with
  | none =>
    cases found
    rw [List.length_replicate]
  | some reader =>
    obtain ⟨rows, taken, rfl⟩ := Option.map_eq_some_iff.mp found
    rw [List.length_map, Intake.length_cut taken]
    exact Nat.min_le_left ..

/-- The null flags of rows whose lengths are read in two parts. The lengths in front are as many as asked for, or
there are none behind them. -/
theorem nullsIn_append {image : Bytes} {lengths : LeafReader} {flags : Option LeafReader} {place first rest : Nat}
    {fore aft : List Nat} (ahead : lengths.sizesIn image place first = some fore)
    (behind : lengths.sizesIn image (place + first) rest = some aft) :
    nullsIn image flags place (fore ++ aft).length = (nullsIn image flags place fore.length).bind fun nulls =>
      (nullsIn image flags (place + first) aft.length).map (nulls ++ ·) := by
  have many := Intake.length_cut ahead
  have few := Intake.length_cut behind
  rw [List.length_append]
  by_cases all : fore.length = first
  · rw [all, nullsIn_add]
  · have none : aft.length = 0 := by omega
    rw [none, Nat.add_zero, nullsIn_zero]
    cases nullsIn image flags place fore.length <;> simp

namespace ColumnReader

/-- The rows of a column from one on, as the segment holds them. The items of an array row are found by the lengths
of all rows before it. -/
def slice (image : Bytes) : ColumnReader → (place count : Nat) → Option (List RowValue)
  | leaf reader, place, count =>
    ((Batch.intake reader.column.type reader.column.isNullable).cut (reader.slots image) place count).map
      (·.map .flat)
  | array items lengths flags, place, count => do
    let before ← lengths.sizesIn image 0 place
    let sizes ← lengths.sizesIn image place count
    let nulls ← nullsIn image flags place sizes.length
    let elements ← items.slice image (total before) (total sizes)
    if nulls.length = sizes.length ∧ elements.length = total sizes then some (RowValue.rowsOf sizes nulls elements)
    else none

/-- At each depth the items of rows can be counted. -/
def Summable (image : Bytes) : ColumnReader → Prop
  | leaf _ => True
  | array items lengths _ => items.Summable image ∧ lengths.Summable image

variable {image : Bytes} {reader items : ColumnReader} {lengths : LeafReader} {flags : Option LeafReader}
  {place count : Nat} {values : List RowValue}

theorem slice_array_iff : (array items lengths flags).slice image place count = some values ↔
    ∃ before sizes nulls elements, lengths.sizesIn image 0 place = some before ∧
      lengths.sizesIn image place count = some sizes ∧ nullsIn image flags place sizes.length = some nulls ∧
      items.slice image (total before) (total sizes) = some elements ∧ nulls.length = sizes.length ∧
      elements.length = total sizes ∧ values = RowValue.rowsOf sizes nulls elements := by
  simp only [slice, bind, Option.bind_eq_some_iff, Option.ite_none_right_eq_some, Option.some.injEq]
  constructor
  · rintro ⟨before, known, sizes, measured, nulls, told, elements, inside, ⟨many, enough⟩, rfl⟩
    exact ⟨before, sizes, nulls, elements, known, measured, told, inside, many, enough, rfl⟩
  · rintro ⟨before, sizes, nulls, elements, known, measured, told, inside, many, enough, rfl⟩
    exact ⟨before, known, sizes, measured, nulls, told, elements, inside, ⟨many, enough⟩, rfl⟩

theorem length_slice (found : reader.slice image place count = some values) :
    values.length = min count (reader.rows - place) := by
  cases reader with
  | leaf reader =>
    obtain ⟨rows, taken, rfl⟩ := Option.map_eq_some_iff.mp found
    rw [List.length_map, Intake.length_cut taken, reader.length_slots]
    rfl
  | array items lengths flags =>
    obtain ⟨_, sizes, nulls, elements, _, measured, _, _, many, _, rfl⟩ := slice_array_iff.mp found
    rw [RowValue.length_rowsOf many, Intake.length_cut measured, lengths.length_slots]
    rfl

theorem slice_min (reader : ColumnReader) (place count : Nat) :
    reader.slice image place count = reader.slice image place (min count (reader.rows - place)) := by
  cases reader with
  | leaf reader =>
    rw [slice, slice, Intake.cut_min, reader.length_slots]
    rfl
  | array items lengths flags =>
    have sizes : lengths.sizesIn image place count =
        lengths.sizesIn image place (min count (lengths.rows - place)) := by
      rw [LeafReader.sizesIn, LeafReader.sizesIn, Intake.cut_min, lengths.length_slots]
    rw [slice, slice, sizes]
    rfl

theorem slice_start (reader : ColumnReader) : reader.slice image 0 0 = some [] := by
  induction reader with
  | leaf reader => rfl
  | array items lengths flags ih =>
    exact slice_array_iff.mpr ⟨[], [], [], [], rfl, rfl, nullsIn_zero image flags 0, ih, rfl, rfl, rfl⟩

/-- Some rows are there if those in front are and those behind them are. -/
def Splits (image : Bytes) (reader : ColumnReader) : Prop := ∀ place first rest values,
  reader.slice image place (first + rest) = some values ↔
    ∃ front behind, reader.slice image place first = some front ∧
      reader.slice image (place + first) rest = some behind ∧
      values = front ++ behind

theorem leaf_splits (image : Bytes) (reader : LeafReader) : (leaf reader).Splits image := by
  intro place first rest values
  rw [slice, slice, slice, Intake.cut_add]
  cases (Batch.intake reader.column.type reader.column.isNullable).cut (reader.slots image) place first with
  | none => simp
  | some rows =>
    cases (Batch.intake reader.column.type reader.column.isNullable).cut (reader.slots image)
      (place + first) rest with
    | none => simp
    | some others => simp [eq_comm]

section Arrays

variable (itemsSplit : items.Splits image) {first rest : Nat} {front behind : List RowValue}

include itemsSplit

theorem slice_array_split (found : (array items lengths flags).slice image place (first + rest) = some values) :
    ∃ front behind, (array items lengths flags).slice image place first = some front ∧
      (array items lengths flags).slice image (place + first) rest = some behind ∧ values = front ++ behind := by
  obtain ⟨before, sizes, nulls, elements, known, measured, told, inside, many, enough, rfl⟩ :=
    slice_array_iff.mp found
  rw [LeafReader.sizesIn_add, Option.bind_eq_some_iff] at measured
  obtain ⟨fore, ahead, measured⟩ := measured
  obtain ⟨aft, back, rfl⟩ := Option.map_eq_some_iff.mp measured
  rw [nullsIn_append ahead back, Option.bind_eq_some_iff] at told
  obtain ⟨nulls, front, told⟩ := told
  obtain ⟨others, last, rfl⟩ := Option.map_eq_some_iff.mp told
  rw [total_append] at inside enough
  obtain ⟨heads, tails, inner, outer, rfl⟩ := (itemsSplit _ _ _ _).mp inside
  -- none of the parts can be too short, as together they are not
  have reach := length_nullsIn_le front
  have reach' := length_nullsIn_le last
  have depth := length_slice inner
  have depth' := length_slice outer
  rw [List.length_append] at enough
  rw [List.length_append, List.length_append] at many
  have far : lengths.sizesIn image 0 (place + first) = some (before ++ fore) := by
    rw [LeafReader.sizesIn_add, known, Nat.zero_add, ahead]
    rfl
  rw [← total_append] at outer
  refine ⟨_, _, slice_array_iff.mpr ⟨before, fore, nulls, heads, known, ahead, front, inner, by omega,
    by omega, rfl⟩, slice_array_iff.mpr ⟨before ++ fore, aft, others, tails, far, back, last, outer,
      by omega, by omega, rfl⟩, ?_⟩
  exact RowValue.rowsOf_append (by omega) (by omega)

theorem slice_array_join (ahead : (array items lengths flags).slice image place first = some front)
    (back : (array items lengths flags).slice image (place + first) rest = some behind) :
    (array items lengths flags).slice image place (first + rest) = some (front ++ behind) := by
  obtain ⟨before, fore, nulls, heads, known, measured, told, inner, many, enough, rfl⟩ := slice_array_iff.mp ahead
  obtain ⟨far, aft, others, tails, known', measured', told', outer, many', enough', rfl⟩ := slice_array_iff.mp back
  rw [LeafReader.sizesIn_add, known, Nat.zero_add, measured] at known'
  cases known'
  rw [total_append] at outer
  refine slice_array_iff.mpr ⟨before, fore ++ aft, nulls ++ others, heads ++ tails, known, ?_, ?_, ?_, ?_, ?_, ?_⟩
  · rw [LeafReader.sizesIn_add, measured, measured']
    rfl
  · rw [nullsIn_append measured measured', told, told']
    rfl
  · rw [total_append]
    exact (itemsSplit _ _ _ _).mpr ⟨heads, tails, inner, outer, rfl⟩
  · rw [List.length_append, List.length_append, many, many']
  · rw [List.length_append, total_append, enough, enough']
  · exact (RowValue.rowsOf_append many enough).symm

end Arrays

theorem splits (image : Bytes) (reader : ColumnReader) : reader.Splits image := by
  induction reader with
  | leaf reader => exact leaf_splits image reader
  | array items lengths flags ih =>
    intro place first rest values
    constructor
    · exact slice_array_split ih
    · rintro ⟨front, behind, ahead, back, rfl⟩
      exact slice_array_join ih ahead back

/-- Where all rows of a column are there, so is each stretch of them. -/
theorem slice_of_whole (whole : reader.slice image 0 reader.rows = some values) (within : place ≤ reader.rows)
    (count : Nat) : reader.slice image place count = some ((values.drop place).take count) := by
  have parts : reader.rows = place + (reader.rows - place) := by omega
  rw [parts] at whole
  obtain ⟨front, behind, ahead, back, rfl⟩ := (splits image reader _ _ _ _).mp whole
  rw [Nat.zero_add] at back
  have before := length_slice ahead
  have rest := length_slice back
  have here : front.length = place := by omega
  rw [slice_min]
  have split : reader.rows - place = min count (reader.rows - place) +
      (reader.rows - place - min count (reader.rows - place)) := by
    omega
  rw [split] at back
  obtain ⟨chosen, others, found, _, rfl⟩ := (splits image reader _ _ _ _).mp back
  have many := length_slice found
  rw [found, ← here, List.drop_left]
  congr 1
  rw [List.length_append] at rest
  by_cases few : count ≤ reader.rows - place
  · have all : chosen.length = count := by omega
    rw [← all, List.take_left]
  · have none : others.length = 0 := by omega
    rw [List.length_eq_zero_iff.mp none, List.append_nil, List.take_of_length_le (by omega)]

end ColumnReader

end Columnar
