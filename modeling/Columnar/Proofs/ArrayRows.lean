import Columnar.Proofs.NullRuns
import Columnar.Proofs.SinkIntakes

namespace Columnar

open Columnar.Action

/-- A row of a column of any type. -/
inductive RowValue where
  | flat (stored : Option Bytes)
  | array (isNull : Bool) (items : List RowValue)

namespace RowValue

/-- Array rows of some sizes, with the items of all of them one after the other. -/
def rowsOf : List Nat → List Bool → List RowValue → List RowValue
  | size :: sizes, isNull :: nulls, items => array isNull (items.take size) :: rowsOf sizes nulls (items.drop size)
  | _, _, _ => []

theorem length_rowsOf {sizes : List Nat} {nulls : List Bool} (same : nulls.length = sizes.length)
    (items : List RowValue) : (rowsOf sizes nulls items).length = sizes.length := by
  induction sizes generalizing nulls items with
  | nil => cases nulls <;> rfl
  | cons size sizes ih =>
    cases nulls with
    | nil => cases same
    | cons isNull nulls =>
      rw [rowsOf, List.length_cons, List.length_cons, ih (Nat.succ.inj same)]

theorem rowsOf_append {sizes others : List Nat} {nulls more : List Bool} (same : nulls.length = sizes.length)
    {items behind : List RowValue} (enough : items.length = total sizes) :
    rowsOf (sizes ++ others) (nulls ++ more) (items ++ behind) =
      rowsOf sizes nulls items ++ rowsOf others more behind := by
  induction sizes generalizing nulls items with
  | nil =>
    obtain rfl := List.length_eq_zero_iff.mp same
    obtain rfl := List.length_eq_zero_iff.mp enough
    rfl
  | cons size sizes ih =>
    cases nulls with
    | nil => cases same
    | cons isNull nulls =>
      have sum : total (size :: sizes) = size + total sizes := rfl
      have inside : size ≤ items.length := by omega
      have rest : (items.drop size).length = total sizes := by
        rw [List.length_drop]
        omega
      simp only [List.cons_append, rowsOf, List.take_append_of_le_length inside,
        List.drop_append_of_le_length inside, ih (Nat.succ.inj same) rest]

theorem getElem?_rowsOf {sizes : List Nat} {nulls : List Bool} (same : nulls.length = sizes.length)
    (items : List RowValue) (row : Nat) : (rowsOf sizes nulls items)[row]? = do
      let size ← sizes[row]?
      let isNull ← nulls[row]?
      return array isNull ((items.drop (total (sizes.take row))).take size) := by
  induction sizes generalizing nulls items row with
  | nil => cases nulls <;> rfl
  | cons size sizes ih =>
    cases nulls with
    | nil => cases same
    | cons isNull nulls =>
      cases row with
      | zero => rfl
      | succ row =>
        rw [rowsOf, List.getElem?_cons_succ, ih (Nat.succ.inj same)]
        simp only [List.getElem?_cons_succ, List.take_succ_cons, total, List.drop_drop]

end RowValue

namespace OffsetBuffer

/-- The places between rows of some sizes. -/
def fencesOf (sizes : List Nat) : List Nat := 0 :: runningSums 0 sizes

theorem length_runningSums (sum : Nat) (sizes : List Nat) : (runningSums sum sizes).length = sizes.length := by
  induction sizes generalizing sum with
  | nil => rfl
  | cons size sizes ih => rw [runningSums, List.length_cons, List.length_cons, ih]

theorem runningSums_append (sum : Nat) (sizes others : List Nat) :
    runningSums sum (sizes ++ others) = runningSums sum sizes ++ runningSums (sum + total sizes) others := by
  induction sizes generalizing sum with
  | nil => rfl
  | cons size sizes ih => simp only [List.cons_append, runningSums, total, ih, Nat.add_assoc]

theorem runningSums_zeros (sum count : Nat) :
    runningSums sum (List.replicate count 0) = List.replicate count sum := by
  induction count with
  | zero => rfl
  | succ count ih => rw [List.replicate_succ, List.replicate_succ, runningSums, Nat.add_zero, ih]

theorem getElem?_runningSums (sum : Nat) {sizes : List Nat} {row : Nat} (within : row ≤ sizes.length) :
    (sum :: runningSums sum sizes)[row]? = some (sum + total (sizes.take row)) := by
  induction sizes generalizing sum row with
  | nil =>
    obtain rfl := Nat.le_zero.mp within
    rfl
  | cons size sizes ih =>
    cases row with
    | zero => rfl
    | succ row =>
      rw [List.getElem?_cons_succ, runningSums, ih _ (Nat.le_of_succ_le_succ within), List.take_succ_cons, total,
        Nat.add_assoc]

/-- No place is behind all items. -/
theorem le_total_of_mem_fencesOf {sizes : List Nat} {fence : Nat} (member : fence ∈ fencesOf sizes) :
    fence ≤ total sizes := by
  obtain ⟨row, inside, rfl⟩ := List.mem_iff_getElem.mp member
  have within : row ≤ sizes.length := by
    rw [fencesOf, List.length_cons, length_runningSums] at inside
    omega
  have found := getElem?_runningSums 0 within
  rw [← fencesOf, List.getElem?_eq_getElem inside, Option.some.injEq, Nat.zero_add] at found
  have parts := congrArg total (List.take_append_drop row sizes)
  rw [total_append] at parts
  omega

/-- A place has 64 bits, unless the items that it is among have more. -/
def IsPlace (items fence : Nat) : Prop := fence ≤ items ∨ fence < 2 ^ 64

theorem IsPlace.settled {items fence : Nat} (place : IsPlace items fence) : settled items fence = fence := by
  rw [OffsetBuffer.settled, ite_eq_left_iff]
  exact fun beyond => Nat.mod_eq_of_lt (place.resolve_left beyond)

theorem IsPlace.mono {items more fence : Nat} (place : IsPlace items fence) (grown : items ≤ more) :
    IsPlace more fence :=
  place.imp_left fun within => Nat.le_trans within grown

theorem isPlace_settled (items fence : Nat) : IsPlace items (settled items fence) := by
  rw [OffsetBuffer.settled]
  split
  · exact .inl ‹_›
  · exact .inr (Nat.mod_lt _ (by decide))

theorem settled_of_lt {items : Nat} (few : items < 2 ^ 64) (fence : Nat) :
    settled items fence = fence % 2 ^ 64 := by
  rw [settled, ite_eq_right_iff]
  exact fun within => (Nat.mod_eq_of_lt (Nat.lt_of_le_of_lt within few)).symm

/-- The sums of sizes as storage holds them, in words of 64 bits. -/
def wordSums (sum : UInt64) : List UInt64 → List UInt64
  | [] => []
  | n :: rest => (sum + n) :: wordSums (sum + n) rest

/-- Where 64 bits count the items, the places are the sums that wrap there. -/
theorem map_settled_runningSums {items : Nat} (few : items < 2 ^ 64) (sum : Nat) (sizes : List Nat) :
    (runningSums sum sizes).map (settled items) =
      (wordSums (.ofNat sum) (sizes.map .ofNat)).map UInt64.toNat := by
  induction sizes generalizing sum with
  | nil => rfl
  | cons size sizes ih =>
    have first : settled items (sum + size) = (UInt64.ofNat (sum + size)).toNat := settled_of_lt few _
    rw [runningSums, List.map_cons, ih, first, UInt64.ofNat_add, List.map_cons, wordSums, List.map_cons]

theorem map_settled {items : Nat} {fences : List Nat} (places : ∀ fence ∈ fences, IsPlace items fence) :
    fences.map (settled items) = fences :=
  (List.map_congr_left fun fence member => (places fence member).settled).trans (List.map_id _)

theorem fence_of_fences {buffer : OffsetBuffer} {sizes : List Nat} (fences : buffer.fences = fencesOf sizes)
    {row : Nat} (within : row ≤ sizes.length) : buffer.fence row = total (sizes.take row) := by
  rw [fence, fences, fencesOf, List.getD_eq_getElem?_getD, getElem?_runningSums 0 within, Option.getD_some,
    Nat.zero_add]

theorem rows_of_fences {buffer : OffsetBuffer} {sizes : List Nat} (fences : buffer.fences = fencesOf sizes) :
    buffer.rows = sizes.length := by
  rw [rows, fences, fencesOf, List.length_cons, length_runningSums, Nat.add_sub_cancel]

/-- Lengths behind the places of earlier rows become places themselves. -/
theorem convertLengths_ok {buffer : OffsetBuffer} {sizes others : List Nat}
    (fences : buffer.fences = fencesOf sizes ++ others) :
    convertLengths sizes.length others.length buffer =
      .ok () { buffer with fences := fencesOf (sizes ++ others) } := by
  have length : (fencesOf sizes).length = sizes.length + 1 := by
    rw [fencesOf, List.length_cons, length_runningSums]
  have rows : buffer.rows = sizes.length + others.length := by
    rw [OffsetBuffer.rows, fences, List.length_append, length]
    omega
  have last : buffer.fence sizes.length = total sizes := by
    have there := getElem?_runningSums 0 (Nat.le_refl sizes.length)
    have inside : sizes.length < (fencesOf sizes).length := by omega
    rw [fence, fences, List.getD_eq_getElem?_getD, List.getElem?_append_left inside, fencesOf, there,
      List.take_length, Option.getD_some, Nat.zero_add]
  have enough : ¬buffer.rows < sizes.length + others.length := by omega
  rw [convertLengths, bind_apply, get_apply]
  simp only [enough, if_false]
  rw [set_apply, last, fences, ← length, List.take_left, List.drop_left, List.take_length, List.drop_eq_nil_of_le,
    List.append_nil, fencesOf, fencesOf, runningSums_append, Nat.zero_add]
  · rfl
  · simp

end OffsetBuffer

/-- What a stored null flag says. -/
def flagOf (stored : Option Bytes) : Bool := (stored.getD []).head?.any (· ≠ 0)

namespace ArrayRows

/-- The stretches of items of rows of some sizes. -/
def stretchesOf (sizes : List Nat) : List (Nat × Nat) :=
  (List.range sizes.length).map fun row => (total (sizes.take row), total (sizes.take (row + 1)))

/-- The null flags are those of some rows. Without a buffer for them no row is null. -/
def Flagged (rows : ArrayRows) (nullable : Bool) (nulls : List Bool) : Prop :=
  match nullable, rows.flags with
  | true, some flags => (FixedBuffer.intake .boolean 1 false).Fits flags ∧ nulls = flags.rows.map flagOf
  | false, none => nulls = List.replicate nulls.length false
  | _, _ => False

/-- The buffers hold the places between rows of some sizes, and their null flags. -/
structure Counts (rows : ArrayRows) (type : ColumnType) (nullable : Bool) (sizes : List Nat) (nulls : List Bool) :
    Prop where
  type_eq : rows.offsets.type = type
  fences : rows.offsets.fences = OffsetBuffer.fencesOf sizes
  length_nulls : nulls.length = sizes.length
  flags : rows.Flagged nullable nulls

variable {rows : ArrayRows} {type : ColumnType} {nullable : Bool} {sizes : List Nat} {nulls : List Bool}

theorem Counts.length (counts : rows.Counts type nullable sizes nulls) : rows.length = sizes.length :=
  OffsetBuffer.rows_of_fences counts.fences

theorem Counts.itemOffset (counts : rows.Counts type nullable sizes nulls) (row : Nat)
    (within : row ≤ sizes.length) : rows.itemOffset row = total (sizes.take row) :=
  OffsetBuffer.fence_of_fences counts.fences within

/-- Where the items of the last rows begin and end. -/
theorem Counts.itemOffset_ends {more : List Nat} (counts : rows.Counts type nullable (sizes ++ more) nulls) :
    rows.itemOffset sizes.length = total sizes ∧ rows.itemOffset (sizes.length + more.length) =
      total sizes + total more := by
  have first := counts.itemOffset sizes.length (by simp)
  have last := counts.itemOffset (sizes.length + more.length) (by simp)
  rw [List.take_left] at first
  rw [List.take_of_length_le (by simp), total_append] at last
  exact ⟨first, last⟩

theorem Flagged.flags_none (flagged : rows.Flagged false nulls) : rows.flags = none := by
  cases held : rows.flags with
  | none => rfl
  | some buffer => simp [Flagged, held] at flagged

theorem Flagged.exists_flags (flagged : rows.Flagged true nulls) : ∃ buffer, rows.flags = some buffer := by
  cases held : rows.flags with
  | none => simp [Flagged, held] at flagged
  | some buffer => exact ⟨buffer, rfl⟩

theorem Flagged.isNull (flagged : rows.Flagged nullable nulls) {row : Nat} (within : row < nulls.length) :
    nulls[row]? = some (rows.isNull row) := by
  cases nullable with
  | true =>
    obtain ⟨buffer, held⟩ := flagged.exists_flags
    simp only [Flagged, held] at flagged
    obtain ⟨⟨_, width, _⟩, rfl⟩ := flagged
    rw [List.length_map] at within
    rw [ArrayRows.isNull, held, Option.any_some, List.getElem?_map, List.getElem?_eq_getElem within,
      FixedBuffer.stored, List.getElem?_eq_getElem within]
    cases stored : buffer.rows[row] with
    | some bytes => rfl
    | none =>
      rw [width]
      rfl
  | false =>
    have held := flagged.flags_none
    simp only [Flagged, held] at flagged
    rw [ArrayRows.isNull, held, flagged, List.getElem?_replicate_of_lt within]
    rfl

theorem Counts.isNull (counts : rows.Counts type nullable sizes nulls) {row : Nat} (within : row < sizes.length) :
    nulls[row]? = some (rows.isNull row) :=
  counts.flags.isNull (counts.length_nulls ▸ within)

theorem Flagged.reserve (flagged : rows.Flagged nullable nulls) (more : Nat) :
    (rows.reserve more).Flagged nullable nulls := by
  cases nullable <;> cases held : rows.flags <;>
    simp only [Flagged, ArrayRows.reserve, held, Option.map_some, Option.map_none]
    at flagged ⊢ <;> exact flagged

theorem Counts.reserve (counts : rows.Counts type nullable sizes nulls) (more : Nat) :
    (rows.reserve more).Counts type nullable sizes nulls :=
  ⟨counts.type_eq, counts.fences, counts.length_nulls, counts.flags.reserve more⟩

/-- Rows whose items are there stay as they are. -/
theorem Counts.settle (counts : rows.Counts type nullable sizes nulls) {items : Nat}
    (enough : total sizes ≤ items) : rows.settle items = rows := by
  have same : rows.offsets.fences.map (OffsetBuffer.settled items) = rows.offsets.fences :=
    OffsetBuffer.map_settled fun fence member =>
      .inl (Nat.le_trans (OffsetBuffer.le_total_of_mem_fencesOf (counts.fences ▸ member)) enough)
  rw [ArrayRows.settle, OffsetBuffer.settle, same]

theorem stretches_eq (counts : rows.Counts type nullable sizes nulls) (start count : Nat)
    (within : start + count = sizes.length) : (stretchesOf sizes).take start ++ rows.stretches start count =
      stretchesOf sizes := by
  have fresh : rows.stretches start count = (stretchesOf sizes).drop start := by
    rw [stretches, stretchesOf, ← List.map_drop, List.range_eq_range', List.drop_range', Nat.zero_add, Nat.mul_one]
    have many : sizes.length - start = count := by omega
    rw [many]
    refine List.map_congr_left fun row member => ?_
    have bound := (List.mem_range'_1.mp member).2
    rw [counts.itemOffset row (by omega), counts.itemOffset (row + 1) (by omega)]
  rw [fresh, List.take_append_drop]

/-- Rows that are finished have their stretches, whether the rows before them are finished again or not. -/
theorem finish_bounds {more : List Nat} (counts : rows.Counts type nullable (sizes ++ more) nulls)
    (bounds : rows.bounds = stretchesOf sizes) (again : Bool) :
    (rows.finish sizes.length more.length again).bounds = stretchesOf (sizes ++ more) := by
  have length : rows.bounds.length = sizes.length := by rw [bounds, stretchesOf, List.length_map, List.length_range]
  have before : rows.bounds = (stretchesOf (sizes ++ more)).take sizes.length := by
    rw [bounds, stretchesOf, stretchesOf, ← List.map_take, List.take_range, List.length_append,
      Nat.min_eq_left (Nat.le_add_right ..)]
    refine List.map_congr_left fun row member => ?_
    have bound := List.mem_range.mp member
    rw [List.take_append_of_le_length (by omega), List.take_append_of_le_length (by omega)]
  rw [finish]
  cases again with
  | true =>
    have all := stretches_eq counts 0 (sizes.length + more.length) (by simp)
    simpa using all
  | false =>
    simp only [Bool.false_eq_true, if_false, length, Nat.min_self, Nat.add_sub_cancel_left]
    rw [before, List.take_take, Nat.min_self]
    exact stretches_eq counts sizes.length more.length (by simp)

end ArrayRows

namespace Batch

/-- The rows that can be read back from a batch. -/
def rowValues : Batch → List RowValue
  | fixed buffer => buffer.rows.map .flat
  | bytes buffer => buffer.rows.map .flat
  | array rows items => rows.bounds.mapIdx fun row (start, stop) =>
    .array (rows.isNull row) ((items.rowValues.drop start).take (stop - start))

theorem rowValues_array {rows : ArrayRows} {type : ColumnType} {nullable : Bool} {sizes : List Nat}
    {nulls : List Bool} (counts : rows.Counts type nullable sizes nulls)
    (bounds : rows.bounds = ArrayRows.stretchesOf sizes) (items : Batch) :
    (array rows items).rowValues = RowValue.rowsOf sizes nulls items.rowValues := by
  refine List.ext_getElem? fun row => ?_
  rw [RowValue.getElem?_rowsOf counts.length_nulls, rowValues, List.getElem?_mapIdx, bounds, ArrayRows.stretchesOf,
    List.getElem?_map]
  by_cases within : row < sizes.length
  · have grows : total (sizes.take (row + 1)) = total (sizes.take row) + sizes[row] := by
      rw [List.take_succ_eq_append_getElem within, total_append, total, total, Nat.add_zero]
    rw [List.getElem?_range within, List.getElem?_eq_getElem within, counts.isNull within]
    simp [grows]
  · simp [within]

end Batch

end Columnar
