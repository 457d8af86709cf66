import Columnar.Proofs.CreatedColumns

namespace Columnar

open Columnar.Action

theorem Action.leftBy_onPart {σ τ α : Type} (get : σ → τ) (put : τ → σ → σ) (step : Action τ α) (state : σ) :
    leftBy (onPart get put step) state = put (leftBy step (get state)) state := by
  have moves : onPart get put step state = rewrap (put · state) (step (get state)) := rfl
  exact leftBy_rewrap moves

/-- A push into a sink. -/
inductive PushCall where
  | fixed (values : Bytes) (count : Nat)
  | bytes (value : Bytes)
  | nulls (count : Nat)
  | repeated (value : Scalar) (count : Nat)

def PushCall.run {σ : Type} [Sink σ] : PushCall → Action σ Unit
  | fixed values count => Sink.pushFixed values count
  | bytes value => Sink.pushBytes value
  | nulls count => Sink.pushNulls count
  | repeated value count => Sink.pushRepeated value count

namespace FixedBuffer

variable {type : ColumnType} {width : Nat} {nullable : Bool}

theorem preserves_pushNulls (count : Nat) :
    Preserves (intake type width nullable).Fits (FixedBuffer.pushNulls count) := by
  intro buffer fits
  rw [FixedBuffer.pushNulls, leftBy_bind, get_apply]
  dsimp only
  split
  · exact fits
  · split <;> exact fits

theorem preserves_pushCall (call : PushCall) :
    Preserves (intake type width nullable).Fits (call.run : Action FixedBuffer Unit) := by
  intro buffer fits
  cases call with
  | fixed values count =>
    change (intake type width nullable).Fits (leftBy (FixedBuffer.pushFixed values count) buffer)
    rw [FixedBuffer.pushFixed, leftBy_bind, get_apply]
    dsimp only
    split
    · exact fits
    · split <;> exact fits
  | bytes value =>
    change (intake type width nullable).Fits (leftBy (FixedBuffer.pushBytes value) buffer)
    rw [FixedBuffer.pushBytes, leftBy_bind, get_apply]
    dsimp only
    split <;> exact fits
  | nulls count => exact preserves_pushNulls count buffer fits
  | repeated value count =>
    change (intake type width nullable).Fits (leftBy (FixedBuffer.pushRepeated value count) buffer)
    rw [FixedBuffer.pushRepeated, leftBy_bind, get_apply]
    dsimp only
    split
    · exact preserves_pushNulls count buffer fits
    · split <;> exact fits

end FixedBuffer

namespace OffsetBuffer

/-- The first place is in front of all items. -/
def Rooted (buffer : OffsetBuffer) : Prop := buffer.fences.head? = some 0

theorem Rooted.append {buffer : OffsetBuffer} (rooted : buffer.Rooted) (more : List Nat) :
    (buffer.fences ++ more).head? = some 0 := by
  rw [List.head?_append, rooted, Option.some_or]

theorem preserves_pushFixed (values : Bytes) (count : Nat) :
    Preserves Rooted (OffsetBuffer.pushFixed values count) := by
  intro buffer rooted
  rw [OffsetBuffer.pushFixed, leftBy_bind, get_apply]
  dsimp only
  split
  · exact rooted
  · refine Preserves.behind (fun _ after => ?_) (rooted.append _)
    split <;> exact id

theorem preserves_pushSame (stored : Bytes) (count : Nat) : Preserves Rooted (pushSame stored count) := by
  induction count with
  | zero => exact Preserves.pure ()
  | succ count ih => exact (preserves_pushFixed stored 1).bind fun _ => ih

theorem preserves_pushCall (call : PushCall) : Preserves Rooted (call.run : Action OffsetBuffer Unit) := by
  cases call with
  | fixed values count => exact preserves_pushFixed values count
  | bytes value => exact fun _ => id
  | nulls count => exact fun _ => id
  | repeated value count =>
    change Preserves Rooted (OffsetBuffer.pushRepeated value count)
    rw [OffsetBuffer.pushRepeated]
    split
    · exact fun _ => id
    · exact preserves_pushSame _ count

theorem Rooted.settle {buffer : OffsetBuffer} (rooted : buffer.Rooted) (items : Nat) :
    (buffer.settle items).Rooted := by
  rw [Rooted, OffsetBuffer.settle, List.head?_map, rooted, Option.map_some, settled, if_pos (Nat.zero_le items)]

theorem preserves_convertLengths (start count : Nat) : Preserves Rooted (convertLengths start count) := by
  intro buffer rooted
  rw [convertLengths, leftBy_bind, get_apply]
  dsimp only
  split
  · exact rooted
  · change (buffer.fences.take (start + 1) ++ _ ++ _).head? = some 0
    rw [List.append_assoc, List.head?_append, List.head?_take, if_neg (Nat.succ_ne_zero start), rooted,
      Option.some_or]

end OffsetBuffer

namespace ArrayRows

/-- The first place is in front of all items, and the null flags are booleans. -/
structure Rooted (rows : ArrayRows) : Prop where
  offsets : rows.offsets.Rooted
  flags : ∀ flags ∈ rows.flags, (FixedBuffer.intake .boolean 1 false).Fits flags

variable {rows : ArrayRows}

theorem Rooted.onOffsets (rooted : rows.Rooted) {step : Action OffsetBuffer Unit}
    (kept : Preserves OffsetBuffer.Rooted step) : (leftBy (ArrayRows.onOffsets step) rows).Rooted := by
  rw [ArrayRows.onOffsets, leftBy_onPart]
  exact ⟨kept _ rooted.offsets, rooted.flags⟩

theorem Rooted.onFlags (rooted : rows.Rooted) {step : Action FixedBuffer Unit}
    (kept : Preserves (FixedBuffer.intake .boolean 1 false).Fits step) :
    ArrayRows.Rooted { rows with flags := rows.flags.map (leftBy step) } := by
  refine ⟨rooted.offsets, fun flags held => ?_⟩
  obtain ⟨before, some, rfl⟩ := Option.map_eq_some_iff.mp held
  exact kept before (rooted.flags before some)

theorem preserves_pushNulls (count : Nat) : Preserves Rooted (ArrayRows.pushNulls count) := by
  intro rows rooted
  rw [ArrayRows.pushNulls, leftBy_bind, get_apply]
  cases held : rows.flags with
  | none =>
    simp only [held]
    exact rooted
  | some flags =>
    have kept := rooted.onFlags (FixedBuffer.preserves_pushCall (.repeated (.boolean true) count))
    simp only [held, Option.map_some] at kept ⊢
    refine Preserves.behind (fun _ => Preserves.modify fun rows rooted => ?_) ?_
    · exact ⟨rooted.offsets.append _, rooted.flags⟩
    · rw [ArrayRows.onFlags, leftBy_onPart]
      exact kept

theorem preserves_pushCall (call : PushCall) : Preserves Rooted (call.run : Action ArrayRows Unit) := by
  cases call with
  | fixed values count => exact fun _ => id
  | bytes value => exact fun _ => id
  | nulls count => exact preserves_pushNulls count
  | repeated value count =>
    change Preserves Rooted (if value.isNull then ArrayRows.pushNulls count else throw .valueIntoArray)
    split
    · exact preserves_pushNulls count
    · exact fun _ => id

theorem Rooted.clear (rooted : rows.Rooted) :
    rows.clear.Rooted ∧ rows.clear.offsets.fences = [0] := by
  have places : rows.clear.offsets.fences = [0] := by
    change rows.offsets.fences.take 1 = [0]
    have first := rooted.offsets
    rw [OffsetBuffer.Rooted] at first
    cases places : rows.offsets.fences with
    | nil => simp [places] at first
    | cons place rest => simpa [places] using first
  refine ⟨⟨by rw [OffsetBuffer.Rooted, places]; rfl, fun flags held => ?_⟩, places⟩
  obtain ⟨before, some, rfl⟩ := Option.map_eq_some_iff.mp held
  exact rooted.flags before some

end ArrayRows

namespace Batch

/-- The kinds of the buffers of a batch. -/
inductive Shape where
  | fixed (type : ColumnType) (width : Nat) (nullable : Bool)
  | bytes (type : ColumnType) (nullable : Bool)
  | array (lengths : ColumnType) (nullable : Bool) (items : Shape)

def shape : Batch → Shape
  | fixed buffer => .fixed buffer.type buffer.width buffer.nullable
  | bytes buffer => .bytes buffer.type buffer.nullable
  | array rows items => .array rows.offsets.type rows.flags.isSome items.shape

/-- Arrays have the places, the null flags and the stretches of some rows, and the items of these and no others. -/
def Sound : Batch → Prop
  | fixed _ | bytes _ => True
  | array rows items => items.Sound ∧ ∃ sizes nulls, rows.Counts rows.offsets.type rows.flags.isSome sizes nulls ∧
    rows.bounds = ArrayRows.stretchesOf sizes ∧ items.rowValues.length = total sizes

/-- The rows of all arrays are rooted, items included. -/
def Rooted : Batch → Prop
  | fixed _ | bytes _ => True
  | array rows items => rows.Rooted ∧ items.Rooted

/-- A batch holds some rows and nothing else. -/
structure Holds (shape : Shape) (held : List RowValue) (batch : Batch) : Prop where
  shaped : batch.shape = shape
  sound : batch.Sound
  rows : batch.rowValues = held

variable {batch items : Batch} {rows : ArrayRows} {held : List RowValue} {shape : Shape}

theorem Holds.exists_array {type : ColumnType} {nullable : Bool}
    (holds : batch.Holds (.array type nullable shape) held) : ∃ rows items, batch = .array rows items := by
  cases batch with
  | fixed buffer => cases holds.shaped
  | bytes buffer => cases holds.shaped
  | array rows items => exact ⟨rows, items, rfl⟩

theorem Sound.length_eq (sound : batch.Sound) : batch.length = batch.rowValues.length := by
  cases batch with
  | fixed buffer => exact (List.length_map _).symm
  | bytes buffer => exact (List.length_map _).symm
  | array rows items =>
    obtain ⟨_, sizes, nulls, counts, bounds, _⟩ := sound
    rw [rowValues_array counts bounds, RowValue.length_rowsOf counts.length_nulls]
    exact counts.length

theorem shape_reserve (batch : Batch) (more : Nat) : (batch.reserve more).shape = batch.shape := by
  cases batch with
  | fixed buffer => rfl
  | bytes buffer => rfl
  | array rows items =>
    rw [reserve, shape, shape, ArrayRows.reserve, Option.isSome_map]
    rfl

theorem Sound.reserve (sound : batch.Sound) (more : Nat) : (batch.reserve more).Sound := by
  cases batch with
  | fixed buffer => trivial
  | bytes buffer => trivial
  | array rows items =>
    obtain ⟨inside, sizes, nulls, counts, bounds, all⟩ := sound
    refine ⟨inside, sizes, nulls, ?_, bounds, all⟩
    have same : (rows.reserve more).flags.isSome = rows.flags.isSome := Option.isSome_map
    rw [same]
    exact counts.reserve more

theorem Holds.ensureCapacity (holds : batch.Holds shape held) (rows : Nat) :
    (batch.ensureCapacity rows).2.Holds shape held := by
  dsimp only [Batch.ensureCapacity]
  split
  · exact ⟨(batch.shape_reserve _).trans holds.shaped, holds.sound.reserve _,
      (batch.rowValues_reserve _).trans holds.rows⟩
  · exact holds

theorem Sound.rooted (sound : batch.Sound) : batch.Rooted := by
  induction batch with
  | fixed buffer => trivial
  | bytes buffer => trivial
  | array rows items ih =>
    obtain ⟨inside, sizes, nulls, counts, _⟩ := sound
    refine ⟨⟨by rw [OffsetBuffer.Rooted, counts.fences]; rfl, fun flags held => ?_⟩, ih inside⟩
    have flagged := counts.flags
    simp only [ArrayRows.Flagged, Option.mem_def.mp held, Option.isSome_some] at flagged
    exact flagged.1

/-- A batch that is cleared holds nothing, whatever has been done to it before. -/
theorem Rooted.clear (rooted : batch.Rooted) : batch.clear.Holds batch.shape [] := by
  induction batch with
  | fixed buffer => exact ⟨rfl, trivial, rfl⟩
  | bytes buffer => exact ⟨rfl, trivial, rfl⟩
  | array rows items ih =>
    obtain ⟨cleared, places⟩ := rooted.1.clear
    obtain ⟨shaped, sound, none⟩ := ih rooted.2
    have kept : rows.clear.flags.isSome = rows.flags.isSome := Option.isSome_map
    refine ⟨?_, ⟨sound, [], [], ⟨rfl, places, rfl, ?_⟩, rfl, by rw [none]; rfl⟩, rfl⟩
    · rw [Batch.clear, shape, shape, shaped, kept]
      rfl
    · cases stored : rows.flags with
      | none => simp [ArrayRows.Flagged, ArrayRows.clear, stored]
      | some flags =>
        simp only [ArrayRows.Flagged, ArrayRows.clear, stored, Option.map_some, Option.isSome_some]
        exact ⟨rooted.1.flags flags stored, rfl⟩

/-- What it takes for arrays to be held. -/
theorem holds_array_iff {type : ColumnType} {nullable : Bool} :
    (array rows items).Holds (.array type nullable shape) held ↔
      ∃ sizes nulls elements, rows.Counts type nullable sizes nulls ∧ rows.bounds = ArrayRows.stretchesOf sizes ∧
        items.Holds shape elements ∧ elements.length = total sizes ∧
        held = RowValue.rowsOf sizes nulls elements := by
  constructor
  · rintro ⟨shaped, ⟨inside, sizes, nulls, counts, bounds, all⟩, rfl⟩
    obtain ⟨rfl, rfl, rfl⟩ := Shape.array.inj shaped
    exact ⟨sizes, nulls, _, counts, bounds, ⟨rfl, inside, rfl⟩, all, rowValues_array counts bounds items⟩
  · rintro ⟨sizes, nulls, elements, counts, bounds, ⟨rfl, inside, rfl⟩, all, rfl⟩
    have flags : rows.flags.isSome = nullable := by
      cases nullable with
      | false => rw [counts.flags.flags_none, Option.isSome_none]
      | true =>
        obtain ⟨flags, some⟩ := counts.flags.exists_flags
        rw [some, Option.isSome_some]
    obtain rfl := counts.type_eq
    obtain rfl := flags
    exact ⟨rfl, ⟨inside, sizes, nulls, counts, bounds, all⟩, rowValues_array counts bounds items⟩

theorem ofColumn_cases {column : ColumnMeta} {fresh : Batch} (made : ofColumn column = .ok fresh) :
    column.own.type ≠ .array ∨ ∃ item inner lengths flags, ofColumn item = .ok inner ∧
      fresh = .array { offsets := { type := lengths }, flags } inner ∧
      (flags = none ∨ flags = some { type := .boolean, width := 1, nullable := false }) := by
  by_cases type : column.own.type = .array
  · refine .inr ?_
    obtain ⟨own, children⟩ := column
    match children with
    | [] | [_] =>
      unfold ofColumn at made
      simp only [show own.type = .array from type] at made
      cases made
    | item :: measure :: rest =>
      obtain ⟨inner, flags, madeItems, _, same, marks⟩ := ofColumn_array type rfl made
      refine ⟨item, inner, measure.own.type, flags, madeItems, same, marks.imp And.right ?_⟩
      rintro ⟨_, _, some⟩
      exact some
  · exact .inl type

/-- A batch that is made for a column holds nothing. -/
theorem ofColumn_holds {column : ColumnMeta} {fresh : Batch} (made : ofColumn column = .ok fresh) :
    fresh.Holds fresh.shape [] := by
  induction fresh generalizing column with
  | array rows items ih =>
    rcases ofColumn_cases made with flat | ⟨item, inner, lengths, flags, madeItems, same, marks⟩
    · obtain ⟨_, fits, _⟩ := ofColumn_fits flat made
      unfold intake at fits
      split at fits <;> obtain ⟨_, _, same⟩ := fits <;> cases same
    · cases same
      obtain ⟨_, sound, none⟩ := ih madeItems
      refine ⟨rfl, ⟨sound, [], [], ⟨rfl, rfl, rfl, ?_⟩, rfl, by rw [none]; rfl⟩, rfl⟩
      rcases marks with rfl | rfl
      · exact rfl
      · exact ⟨⟨rfl, rfl, rfl⟩, rfl⟩
  | fixed buffer =>
    rcases ofColumn_cases made with flat | ⟨_, _, _, _, _, same, _⟩
    · exact ⟨rfl, trivial, congrArg (List.map RowValue.flat) (ofColumn_fits flat made).1⟩
    · cases same
  | bytes buffer =>
    rcases ofColumn_cases made with flat | ⟨_, _, _, _, _, same, _⟩
    · exact ⟨rfl, trivial, congrArg (List.map RowValue.flat) (ofColumn_fits flat made).1⟩
    · cases same

/-- What is made of the rows and of the items of arrays. Other batches stay as they are. -/
def onArray (change : ArrayRows → Batch → Batch) : Batch → Batch
  | array rows items => change rows items
  | other => other

theorem Rooted.onArray (rooted : batch.Rooted) {change : ArrayRows → Batch → Batch}
    (kept : ∀ rows items, rows.Rooted → items.Rooted → (change rows items).Rooted) :
    (batch.onArray change).Rooted := by
  cases batch with
  | fixed buffer => trivial
  | bytes buffer => trivial
  | array rows items => exact kept rows items rooted.1 rooted.2

theorem Rooted.reserve (rooted : batch.Rooted) (more : Nat) : (batch.reserve more).Rooted := by
  cases batch with
  | fixed buffer => trivial
  | bytes buffer => trivial
  | array rows items =>
    refine ⟨⟨rooted.1.offsets, fun flags held => ?_⟩, rooted.2⟩
    obtain ⟨before, some, rfl⟩ := Option.map_eq_some_iff.mp held
    exact rooted.1.flags before some

theorem Rooted.ensureCapacity (rooted : batch.Rooted) (rows : Nat) : (batch.ensureCapacity rows).2.Rooted := by
  dsimp only [Batch.ensureCapacity]
  split
  · exact rooted.reserve _
  · exact rooted

theorem preserves_pushCall (call : PushCall) : Preserves Rooted (call.run : Action Batch Unit) := by
  intro batch rooted
  cases batch with
  | fixed buffer =>
    have wraps : call.run (fixed buffer) = rewrap fixed (call.run buffer) := by cases call <;> rfl
    rw [leftBy_rewrap wraps]
    trivial
  | bytes buffer =>
    have wraps : call.run (bytes buffer) = rewrap bytes (call.run buffer) := by cases call <;> rfl
    rw [leftBy_rewrap wraps]
    trivial
  | array rows items =>
    have wraps : call.run (array rows items) = rewrap (array · items) (call.run rows) := by cases call <;> rfl
    rw [leftBy_rewrap wraps]
    exact ⟨ArrayRows.preserves_pushCall call rows rooted.1, rooted.2⟩

end Batch

/-- A call on a batch. Some reach into the parts of array rows, and some into their items. -/
inductive BatchCall where
  | push (call : PushCall)
  | reserve (more : Nat)
  | clear
  | lengths (call : PushCall)
  | flags (call : PushCall)
  | convert (start count : Nat)
  | settle (among : Nat)
  | ensureItems (needed : Nat)
  | finish (start count : Nat) (again : Bool)
  | items (call : BatchCall)

namespace BatchCall

/-- What a call leaves of a batch, whether or not it succeeds. -/
def leave : BatchCall → Batch → Batch
  | push call => leftBy call.run
  | reserve more => Batch.reserve more
  | clear => Batch.clear
  | lengths call => Batch.onArray fun rows => .array (leftBy (ArrayRows.onOffsets call.run) rows)
  | flags call => Batch.onArray fun rows => .array { rows with flags := rows.flags.map (leftBy call.run) }
  | convert start count =>
    Batch.onArray fun rows => .array (leftBy (ArrayRows.onOffsets (OffsetBuffer.convertLengths start count)) rows)
  | settle among => Batch.onArray fun rows => .array (rows.settle among)
  | ensureItems needed => Batch.onArray fun rows items => .array rows (items.ensureCapacity needed).2
  | finish start count again => Batch.onArray fun rows => .array (rows.finish start count again)
  | items call => Batch.onArray fun rows items => .array rows (call.leave items)

/-- What is left after calls one after the other. -/
def leaveAll (calls : List BatchCall) (batch : Batch) : Batch :=
  calls.foldl (fun batch call => call.leave batch) batch

/-- No call moves the first place of arrays away from their first item. -/
theorem rooted_leave (call : BatchCall) {batch : Batch} (rooted : batch.Rooted) : (call.leave batch).Rooted := by
  induction call generalizing batch with
  | push call => exact Batch.preserves_pushCall call batch rooted
  | reserve more => exact rooted.reserve more
  | clear => exact rooted.clear.sound.rooted
  | lengths call =>
    exact rooted.onArray fun _ _ rows items => ⟨rows.onOffsets (OffsetBuffer.preserves_pushCall call), items⟩
  | flags call =>
    exact rooted.onArray fun _ _ rows items => ⟨rows.onFlags (FixedBuffer.preserves_pushCall call), items⟩
  | convert start count =>
    exact rooted.onArray fun _ _ rows items =>
      ⟨rows.onOffsets (OffsetBuffer.preserves_convertLengths start count), items⟩
  | settle among => exact rooted.onArray fun _ _ rows items => ⟨⟨rows.offsets.settle among, rows.flags⟩, items⟩
  | ensureItems needed => exact rooted.onArray fun _ _ rows items => ⟨rows, items.ensureCapacity needed⟩
  | finish start count again => exact rooted.onArray fun _ _ rows items => ⟨⟨rows.offsets, rows.flags⟩, items⟩
  | items call ih => exact rooted.onArray fun _ _ rows items => ⟨rows, ih items⟩

theorem rooted_leaveAll (calls : List BatchCall) {batch : Batch} (rooted : batch.Rooted) :
    (leaveAll calls batch).Rooted := by
  induction calls generalizing batch with
  | nil => exact rooted
  | cons call rest ih => exact ih (call.rooted_leave rooted)

end BatchCall

end Columnar
