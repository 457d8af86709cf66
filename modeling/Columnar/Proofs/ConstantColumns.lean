import Columnar.ConstantCursor
import Columnar.Proofs.AssembledArrays
import Columnar.Proofs.StoredScalars

namespace Columnar

open Columnar.Action

namespace RowValue

def isNull : RowValue → Bool
  | flat stored => stored.isNone
  | array isNull _ => isNull

/-- The row that a column of some type has for the value of its default. Arrays have no default but null. -/
def ofDefault (type : ColumnType) (value : Scalar) : RowValue :=
  if type = .array then array true [] else flat (if value.isNull then none else some value.storage)

theorem map_flat_append (rows : List (Option Bytes)) (count : Nat) (row : Option Bytes) :
    (rows ++ List.replicate count row).map flat = rows.map flat ++ List.replicate count (flat row) := by
  rw [List.map_append, List.map_replicate]

end RowValue

namespace Batch

/-- The shape of the flat rows of a type. -/
def Shape.ofType (type : ColumnType) (nullable : Bool) : Shape :=
  match type.fixedSize? with
  | some width => fixed type width nullable
  | none => bytes type nullable

/-- A value can be pushed many times into batches of a shape, and each time it becomes a row. -/
inductive Shape.Takes : Shape → Scalar → RowValue → Prop
  | fixedNull (type : ColumnType) (width : Nat) : Takes (fixed type width true) .null (.flat none)
  | fixed (type : ColumnType) (nullable : Bool) {value : Scalar} (known : value.isNull = false) :
    Takes (fixed type value.storage.length nullable) value (.flat (some value.storage))
  | bytesNull (type : ColumnType) : Takes (bytes type true) .null (.flat none)
  | bytes (type : ColumnType) (nullable : Bool) (stored : Bytes) :
    Takes (bytes type nullable) (.bytes stored) (.flat (some stored))
  | arrayNull (lengths : ColumnType) (items : Shape) : Takes (array lengths true items) .null (.array true [])

variable {batch : Batch} {shape : Shape} {value : Scalar} {row : RowValue} {held : List RowValue}

theorem Holds.more {after : Batch} {rows : List RowValue} (holds : batch.Holds shape held)
    (same : after.shape = batch.shape) (sound : after.Sound) (grown : after.rowValues = batch.rowValues ++ rows) :
    after.Holds shape (held ++ rows) :=
  ⟨same.trans holds.shaped, sound, grown.trans (congrArg (· ++ rows) holds.rows)⟩

/-- Values that are pushed many times are appended, as the rows that a batch of the shape has for them, as long as
these can be counted. -/
theorem pushRepeated_holds (takes : shape.Takes value row) (holds : batch.Holds shape held) {count : Nat}
    (few : held.length + count < 2 ^ 64) :
    ∃ after, (Sink.pushRepeated value count : Action Batch Unit) batch = .ok () after ∧
      after.Holds shape (held ++ List.replicate count row) := by
  have shaped := holds.shaped
  cases takes with
  | fixedNull type width =>
    cases batch with
    | bytes buffer | array rows items => cases shaped
    | fixed buffer =>
      obtain ⟨_, _, nullable⟩ := Shape.fixed.inj shaped
      have grows : Room.cut buffer.rows.length count = none :=
        Room.cut_eq_none_of_sum (by rwa [← holds.rows, rowValues, List.length_map] at few)
      exact ⟨_, congrArg (rewrap fixed) (FixedBuffer.pushNulls_append nullable grows),
        holds.more rfl trivial (RowValue.map_flat_append ..)⟩
  | fixed type nullable known =>
    cases batch with
    | bytes buffer | array rows items => cases shaped
    | fixed buffer =>
      obtain ⟨_, width, _⟩ := Shape.fixed.inj shaped
      exact ⟨_, congrArg (rewrap fixed) (FixedBuffer.pushRepeated_append known width.symm count),
        holds.more rfl trivial (RowValue.map_flat_append ..)⟩
  | bytesNull type =>
    cases batch with
    | fixed buffer | array rows items => cases shaped
    | bytes buffer =>
      obtain ⟨_, nullable⟩ := Shape.bytes.inj shaped
      have grows : Room.cut buffer.rows.length count = none :=
        Room.cut_eq_none_of_sum (by rwa [← holds.rows, rowValues, List.length_map] at few)
      exact ⟨_, congrArg (rewrap bytes) (BytesBuffer.pushNulls_append nullable grows),
        holds.more rfl trivial (RowValue.map_flat_append ..)⟩
  | bytes type nullable stored =>
    cases batch with
    | fixed buffer | array rows items => cases shaped
    | bytes buffer => exact ⟨_, rfl, holds.more rfl trivial (RowValue.map_flat_append ..)⟩
  | arrayNull lengths items =>
    obtain ⟨rows, items, rfl⟩ := holds.exists_array
    exact ArrayStep.pushNulls_holds holds count

end Batch

/-- A call on the place in a column of a default, of which reads append to one batch. -/
inductive ConstantCall where
  | seek (ordinal : Nat)
  | next (count : Nat)

namespace ConstantCall

/-- What a call does, and what it tells of the rows if it reads some. -/
def run : ConstantCall → Action (ConstantCursor × Batch) (Option RowsRead)
  | seek ordinal => do
    onFirst (modify (ConstantCursor.seek ordinal))
    return none
  | next count => some <$> ConstantCursor.next count

/-- What calls tell one after the other. -/
def runAll : List ConstantCall → Action (ConstantCursor × Batch) (List RowsRead)
  | [] => pure []
  | call :: rest => do
    let told ← call.run
    return told.toList ++ (← runAll rest)

def count? : ConstantCall → Option Nat
  | seek _ => none
  | next count => some count

/-- How many rows the reads among some calls are to read. -/
def counts (calls : List ConstantCall) : List Nat := calls.filterMap count?

/-- The row that a call leads to. -/
def after (ordinal : Nat) : ConstantCall → Nat
  | seek target => target
  | next count => ordinal + count

end ConstantCall

namespace ConstantCursor

variable {default : Option String} {nullable : Bool} {type : ColumnType} {length : Nat} {cursor : ConstantCursor}

end ConstantCursor

namespace ConstantCall

/-- What is told of so many rows of one value. -/
def told (value : Scalar) (count : Nat) : RowsRead := ⟨count, value.isNull && 0 < count⟩

variable {cursor : ConstantCursor} {batch : Batch} {shape : Batch.Shape} {row : RowValue} {held : List RowValue}

theorem run_holds (takes : shape.Takes cursor.value row) (holds : batch.Holds shape held) (call : ConstantCall)
    (few : held.length + total call.count?.toList < 2 ^ 64) :
    ∃ final, call.run (cursor, batch) =
        .ok (call.count?.map (told cursor.value)) ({ cursor with ordinal := call.after cursor.ordinal }, final) ∧
      final.Holds shape (held ++ List.replicate (total call.count?.toList) row) := by
  cases call with
  | seek ordinal => exact ⟨batch, rfl, (List.append_nil held).symm ▸ holds⟩
  | next count =>
    have counted : held.length + count < 2 ^ 64 := few
    obtain ⟨final, push, holds'⟩ := Batch.pushRepeated_holds takes holds counted
    refine ⟨final, ?_, holds'⟩
    have read : ConstantCursor.next count (cursor, batch) =
        .ok (told cursor.value count) ({ cursor with ordinal := cursor.ordinal + count }, final) := by
      rw [ConstantCursor.next, bind_apply, get_apply]
      simp only [bind_apply, onSecond, push, rewrap_ok]
      rfl
    rw [run, map_eq_pure_bind, bind_apply, read]
    rfl

/-- Each call serves the rows that it is to read, and all calls do. -/
theorem runAll_holds (takes : shape.Takes cursor.value row) (holds : batch.Holds shape held)
    (calls : List ConstantCall) (few : held.length + total (counts calls) < 2 ^ 64) :
    ∃ final, runAll calls (cursor, batch) =
        .ok ((counts calls).map (told cursor.value))
          ({ cursor with ordinal := calls.foldl after cursor.ordinal }, final) ∧
      final.Holds shape (held ++ List.replicate (total (counts calls)) row) := by
  induction calls generalizing cursor batch held with
  | nil => exact ⟨batch, rfl, (List.append_nil held).symm ▸ holds⟩
  | cons call rest ih =>
    have all : counts (call :: rest) = call.count?.toList ++ counts rest := by cases call <;> rfl
    rw [all, total_append] at few
    obtain ⟨mid, first, holds'⟩ := run_holds takes holds call (by omega)
    have onward : shape.Takes { cursor with ordinal := call.after cursor.ordinal }.value row := takes
    obtain ⟨final, others, holds''⟩ := ih onward holds' (by rw [List.length_append, List.length_replicate]; omega)
    refine ⟨final, ?_, ?_⟩
    · rw [runAll, bind_apply, first, all, List.map_append]
      simp only [bind_apply, others, pure_apply]
      cases call <;> rfl
    · rw [all, total_append, List.replicate_add, ← List.append_assoc]
      exact holds''

end ConstantCall

end Columnar
