import Columnar.Proofs.HeldRows

namespace Columnar

open Columnar.Action

theorem total_zeros (count : Nat) : total (List.replicate count 0) = 0 := by
  induction count with
  | zero => rfl
  | succ count ih => rw [List.replicate_succ, total, ih]

namespace OffsetBuffer

variable {type : ColumnType} {sizes : List Nat}

/-- The places between rows do not fall, and the last one is behind all items. -/
theorem runningSums_rise (sum : Nat) (sizes : List Nat) :
    (sum :: runningSums sum sizes).Pairwise (· ≤ ·) ∧ (sum :: runningSums sum sizes).getLast? =
      some (sum + total sizes) := by
  induction sizes generalizing sum with
  | nil => simp [runningSums, total]
  | cons size sizes ih =>
    obtain ⟨rises, last⟩ := ih (sum + size)
    rw [runningSums, List.getLast?_cons_cons, last, total, Nat.add_assoc]
    refine ⟨List.pairwise_cons.mpr ⟨fun place member => ?_, rises⟩, rfl⟩
    rcases List.mem_cons.mp member with rfl | later
    · exact Nat.le_add_right sum size
    · exact (Nat.le_add_right sum size).trans ((List.pairwise_cons.mp rises).1 place later)

/-- Lengths are pushed, and nothing else is done to the lengths. -/
def Pushes (type : ColumnType) (sizes : List Nat) (push : Action OffsetBuffer Unit) : Prop :=
  ∀ buffer : OffsetBuffer, buffer.type = type →
    ∃ after, push buffer = .ok () after ∧ after.type = type ∧ after.fences = buffer.fences ++ sizes

/-- Lengths can be pushed as they are stored. -/
theorem pushes_stored {lengths : Bytes} (size : lengths.length = sizes.length * widthOf type)
    (stored : (Bytes.pieces (widthOf type) sizes.length lengths).mapM (lengthOf? type) = some sizes) :
    Pushes type sizes (Sink.pushFixed lengths sizes.length) := by
  rintro buffer rfl
  have meets := pushFixed_meets buffer size
  rw [stored] at meets
  obtain ⟨_, after, push, ofType, fences⟩ := meets.exists_ok
  exact ⟨after, push, ofType, fences⟩

end OffsetBuffer

namespace FixedBuffer

/-- Null flags are pushed, and nothing else is done to the flags. -/
def PushesFlags (told : List Bool) (push : Action FixedBuffer Unit) : Prop :=
  ∀ buffer : FixedBuffer, (intake .boolean 1 false).Fits buffer → ∃ after, push buffer = .ok () after ∧
    (intake .boolean 1 false).Fits after ∧ after.rows.map flagOf = buffer.rows.map flagOf ++ told

/-- A value of the width of a buffer is appended, however often. -/
theorem pushRepeated_append {buffer : FixedBuffer} {value : Scalar} (known : value.isNull = false)
    (size : value.storage.length = buffer.width) (count : Nat) :
    pushRepeated value count buffer = append (List.replicate count (some value.storage)) buffer := by
  rw [pushRepeated, bind_apply, get_apply]
  simp only [known, size, Bool.false_eq_true, ne_eq, not_true_eq_false, if_false]

/-- A flag can be pushed many times at once. -/
theorem pushesFlags_repeated (flag : Bool) (count : Nat) :
    PushesFlags (List.replicate count flag) (Sink.pushRepeated (.boolean flag) count) := by
  intro buffer fits
  have size : (Scalar.boolean flag).storage.length = buffer.width := by
    rw [fits.2.1]
    cases flag <;> rfl
  refine ⟨_, pushRepeated_append rfl size count, fits, ?_⟩
  rw [List.map_append, List.map_replicate]
  cases flag <;> rfl

/-- Flags can be pushed as they are stored. -/
theorem pushesFlags_stored (flags : Bytes) :
    PushesFlags (flags.map (· != 0)) (Sink.pushFixed flags flags.length) := by
  intro buffer fits
  have bytes (flags : Bytes) : Bytes.pieces 1 flags.length flags = flags.map ([·]) := by
    induction flags with
    | nil => rfl
    | cons flag rest ih => exact congrArg ([flag] :: ·) ih
  have taken : (Bytes.pieces 1 flags.length flags).mapM (intake .boolean 1 false).value =
      some (flags.map fun flag => some [flag]) := by
    rw [bytes, List.mapM_map]
    exact mapM_eq_some_map fun _ _ => rfl
  have pushes := (intake .boolean 1 false).pushFixed 1 rfl buffer fits flags.length flags (Nat.mul_one _).symm
  rw [taken] at pushes
  obtain ⟨_, after, push, fits', grown⟩ := pushes.exists_ok
  refine ⟨after, push, fits', ?_⟩
  have rows : after.rows = buffer.rows ++ flags.map fun flag => some [flag] := grown
  rw [rows, List.map_append, List.map_map]
  refine congrArg (_ ++ ·) (List.map_congr_left fun flag _ => ?_)
  rw [Function.comp_apply, flagOf, Option.getD_some, List.head?_cons, Option.any_some]
  cases same : flag != 0 <;> simp_all

end FixedBuffer

namespace ArrayRows

variable {rows : ArrayRows} {type : ColumnType} {nullable : Bool} {sizes more : List Nat} {nulls told : List Bool}

/-- Null rows are rows without items. -/
theorem stretchesOf_append_zeros (sizes : List Nat) (count : Nat) :
    stretchesOf (sizes ++ List.replicate count 0) =
      stretchesOf sizes ++ List.replicate count (total sizes, total sizes) := by
  rw [stretchesOf, List.length_append, List.length_replicate, List.range_add, List.map_append, List.map_map]
  refine congrArg₂ (· ++ ·) (List.map_congr_left fun row member => ?_) ?_
  · have bound := List.mem_range.mp member
    rw [List.take_append_of_le_length (Nat.le_of_lt bound), List.take_append_of_le_length bound]
  · have behind (row : Nat) : total ((sizes ++ List.replicate count 0).take (sizes.length + row)) =
      total sizes := by
      rw [List.take_append, List.take_of_length_le (Nat.le_add_right ..), List.take_replicate, total_append,
        total_zeros, Nat.add_zero]
    refine List.eq_replicate_iff.mpr ⟨by simp, fun stretch member => ?_⟩
    obtain ⟨row, _, rfl⟩ := List.mem_map.mp member
    rw [Function.comp_apply, behind, Nat.add_assoc, behind]

theorem pushNulls_ok (counts : rows.Counts type true sizes nulls) (bounds : rows.bounds = stretchesOf sizes)
    (count : Nat) : ∃ after, pushNulls count rows = .ok () after ∧
      after.Counts type true (sizes ++ List.replicate count 0) (nulls ++ List.replicate count true) ∧
      after.bounds = stretchesOf (sizes ++ List.replicate count 0) := by
  obtain ⟨buffer, held⟩ := counts.flags.exists_flags
  have flagged := counts.flags
  simp only [Flagged, held] at flagged
  obtain ⟨fits, rfl⟩ := flagged
  obtain ⟨filled, push, fits', grown⟩ := FixedBuffer.pushesFlags_repeated true count buffer fits
  have flagsPush : FixedBuffer.pushRepeated (.boolean true) count buffer = .ok () filled := push
  have last : rows.itemOffset rows.length = total sizes := by
    have stop := counts.itemOffset sizes.length (Nat.le_refl _)
    rwa [List.take_length, ← counts.length] at stop
  refine ⟨⟨rows.offsets.appendEmpty count, some filled,
    rows.bounds ++ List.replicate count (total sizes, total sizes)⟩,
    ?_, ⟨counts.type_eq, ?_, ?_, fits', grown.symm⟩, ?_⟩
  · simp only [pushNulls, bind_apply, get_apply, held, onFlags, onPart, flagsPush, rewrap_ok, modify_apply, ← last]
    rfl
  · have places : (rows.offsets.appendEmpty count).fences =
        rows.offsets.fences ++ List.replicate count (rows.itemOffset rows.length) := rfl
    rw [places, last, counts.fences, OffsetBuffer.fencesOf, OffsetBuffer.fencesOf, OffsetBuffer.runningSums_append,
      OffsetBuffer.runningSums_zeros, Nat.zero_add, List.cons_append]
  · rw [List.length_append, List.length_append, counts.length_nulls, List.length_replicate, List.length_replicate]
  · rw [stretchesOf_append_zeros, ← bounds]

/-- Appends rows apart from their items: steps push their lengths and, where rows have them, their null flags. Gives
the place of the first item and that behind the last one. -/
def appendRows (pushLengths : Action OffsetBuffer Unit) (pushFlags : Action FixedBuffer Unit) (count : Nat) :
    Action ArrayRows (Nat × Nat) := do
  let start := (← get).length
  onOffsets pushLengths
  onOffsets (OffsetBuffer.convertLengths start count)
  if let some buffer := (← get).flags then onFlags buffer pushFlags
  let rows ← get
  return (rows.itemOffset start, rows.itemOffset (start + count))

theorem appendRows_ok (counts : rows.Counts type nullable sizes nulls) {pushLengths : Action OffsetBuffer Unit}
    {pushFlags : Action FixedBuffer Unit} (lengths : OffsetBuffer.Pushes type more pushLengths)
    (flags : nullable = true → FixedBuffer.PushesFlags told pushFlags)
    (unmarked : nullable = false → told = List.replicate more.length false) (many : told.length = more.length) :
    ∃ pushed, appendRows pushLengths pushFlags more.length rows =
      .ok (total sizes, total sizes + total more) pushed ∧
      pushed.Counts type nullable (sizes ++ more) (nulls ++ told) ∧ pushed.bounds = rows.bounds := by
  have start : rows.length = sizes.length := counts.length
  obtain ⟨measured, lengthsPush, ofType, fences⟩ := lengths rows.offsets counts.type_eq
  rw [counts.fences] at fences
  have converted := OffsetBuffer.convertLengths_ok fences
  have numbers : (nulls ++ told).length = (sizes ++ more).length := by
    rw [List.length_append, List.length_append, counts.length_nulls, many]
  have flagged := counts.flags
  cases nullable with
  | false =>
    have held := counts.flags.flags_none
    simp only [Flagged, held] at flagged
    have unflagged : nulls ++ told = List.replicate (nulls ++ told).length false := by
      rw [flagged, unmarked rfl]
      simp
    have counts' : ArrayRows.Counts ⟨{ measured with fences := OffsetBuffer.fencesOf (sizes ++ more) }, none,
        rows.bounds⟩
        type false (sizes ++ more) (nulls ++ told) := ⟨ofType, rfl, numbers, unflagged⟩
    refine ⟨_, ?_, counts', rfl⟩
    simp only [appendRows, bind_apply, get_apply, onOffsets, onPart, lengthsPush, rewrap_ok, start, converted, held,
      pure_apply]
    rw [counts'.itemOffset_ends.1, counts'.itemOffset_ends.2]
  | true =>
    obtain ⟨buffer, held⟩ := counts.flags.exists_flags
    simp only [Flagged, held] at flagged
    obtain ⟨fits, rfl⟩ := flagged
    obtain ⟨filled, flagsPush, fits', grown⟩ := flags rfl buffer fits
    have counts' : ArrayRows.Counts
        ⟨{ measured with fences := OffsetBuffer.fencesOf (sizes ++ more) }, some filled, rows.bounds⟩
        type true (sizes ++ more) (buffer.rows.map flagOf ++ told) := ⟨ofType, rfl, numbers, fits', grown.symm⟩
    refine ⟨_, ?_, counts', rfl⟩
    simp only [appendRows, bind_apply, get_apply, onOffsets, onFlags, onPart, lengthsPush, rewrap_ok, start,
      converted, held, flagsPush, pure_apply]
    rw [counts'.itemOffset_ends.1, counts'.itemOffset_ends.2]

end ArrayRows

namespace Batch

/-- Appends array rows with steps that push their lengths, their null flags and their items. What is told of whether
the storage of the items had to grow decides which rows are finished. -/
def appendRows (pushLengths : Action OffsetBuffer Unit) (pushFlags : Action FixedBuffer Unit) (count : Nat)
    (pushItems : Action Batch Unit) (grown : Bool) : Action Batch Unit := fun batch =>
  match batch with
  | fixed _ | bytes _ => .ok () batch
  | array rows items =>
    match ArrayRows.appendRows pushLengths pushFlags count rows with
    | .error error rows => .error error (array (rows.settle items.length) items)
    | .ok (_, stop) pushed =>
      match Room.outcome (items.affords (stop % 2 ^ 64)) (fun _ filled => stop ≤ filled.length) items
          (pushItems (items.ensureCapacity (stop % 2 ^ 64)).2) with
      | .error error items => .error error (array (pushed.settle items.length) items)
      | .ok _ items => .ok () (array ((pushed.settle items.length).finish rows.length count grown) items)

/-- Rows that are pushed from stored lengths and stored null flags are appended so, with the answer that the call
asks for or that the storage of the items gives. -/
theorem pushRows_eq_appendRows (lengths flags : Bytes) (count : Nat) (rebuild : Bool)
    (pushItems : Action Batch Unit) (batch : Batch) : ∃ grown,
      discard (pushRows lengths flags count count rebuild pushItems) batch =
      appendRows (Sink.pushFixed lengths count) (Sink.pushFixed flags count) count pushItems grown batch := by
  have runs (step : Action Batch (Option (Nat × Nat))) : discard step batch = match step batch with
      | .ok _ after => .ok () after
      | .error error after => .error error after := by
    change EStateM.map _ step batch = _
    unfold EStateM.map
    cases step batch <;> rfl
  rw [runs]
  cases batch with
  | fixed buffer => exact ⟨true, rfl⟩
  | bytes buffer => exact ⟨true, rfl⟩
  | array rows items =>
    have same : ArrayRows.appendRows (Sink.pushFixed lengths count) (Sink.pushFixed flags count) count =
        ArrayRows.pushRows lengths flags count count := rfl
    simp only [pushRows, appendRows, same]
    cases ArrayRows.pushRows lengths flags count count rows with
    | error error after => exact ⟨true, rfl⟩
    | ok stretch pushed =>
      refine ⟨rebuild || (items.ensureCapacity (stretch.2 % 2 ^ 64)).1, ?_⟩
      dsimp only
      cases Room.outcome (items.affords (stretch.2 % 2 ^ 64))
        (fun _ filled => decide (stretch.2 ≤ filled.length))
          items (pushItems (items.ensureCapacity (stretch.2 % 2 ^ 64)).2) <;> rfl

/-- Items are pushed, and nothing else is done to the items. -/
def Pushes (shape : Shape) (elements : List RowValue) (push : Action Batch Unit) : Prop :=
  ∀ held items, items.Holds shape held → ∃ after, push items = .ok () after ∧ after.Holds shape (held ++ elements)

/-- Values of one width can be pushed as they are stored. -/
theorem pushes_stored {type : ColumnType} {width count : Nat} {nullable : Bool} {values : Bytes}
    (size : values.length = count * width) :
    Pushes (.fixed type width nullable) ((Bytes.pieces width count values).map fun piece => .flat (some piece))
      (Sink.pushFixed values count) := by
  rintro _ items ⟨shaped, sound, rfl⟩
  cases items with
  | bytes buffer => cases shaped
  | array rows items => cases shaped
  | fixed buffer =>
    obtain ⟨rfl, rfl, rfl⟩ := Shape.fixed.inj shaped
    have run : Sink.pushFixed values count buffer =
        FixedBuffer.append ((Bytes.pieces buffer.width count values).map some) buffer :=
      FixedBuffer.pushFixed_append (Nat.le_of_eq size.symm)
    refine ⟨_, congrArg (rewrap fixed) run, rfl, trivial, ?_⟩
    change (buffer.rows ++ (Bytes.pieces buffer.width count values).map some).map RowValue.flat = _
    rw [List.map_append, List.map_map]
    rfl

/-- What can be read of an array batch comes to some rows. -/
structure Reads (rows : ArrayRows) (items : Batch) (told : List RowValue) : Prop where
  length : (array rows items).length = told.length
  lengths : rows.lengths.length = told.length
  first : rows.offsets.fences.head? = some 0
  rising : rows.offsets.fences.Pairwise (· ≤ ·)
  last : rows.offsets.fences.getLast? = some items.length
  row : ∀ row, told[row]? = (rows.stretch row).toOption.map fun (start, stop) =>
    .array (rows.isNull row) ((items.rowValues.drop start).take (stop - start))

theorem Holds.reads {rows : ArrayRows} {items : Batch} {type : ColumnType} {nullable : Bool} {shape : Shape}
    {held : List RowValue} (holds : (array rows items).Holds (.array type nullable shape) held) :
    Reads rows items held := by
  have values := holds.rows
  obtain ⟨sizes, nulls, elements, counts, bounds, inside, all, rfl⟩ := holds_array_iff.mp holds
  obtain ⟨rises, last⟩ := OffsetBuffer.runningSums_rise 0 sizes
  have number := RowValue.length_rowsOf counts.length_nulls elements
  refine ⟨?_, ?_, ?_, ?_, ?_, fun row => ?_⟩
  · rw [number]
    exact counts.length
  · rw [number, ArrayRows.lengths, List.length_map, bounds, ArrayRows.stretchesOf, List.length_map,
      List.length_range]
  · rw [counts.fences]
    rfl
  · rw [counts.fences]
    exact rises
  · rw [counts.fences, inside.sound.length_eq, inside.rows, all]
    exact last.trans (congrArg some (Nat.zero_add _))
  · rw [← values, rowValues, List.getElem?_mapIdx, ArrayRows.stretch]
    cases rows.bounds[row]? <;> rfl

end Batch

/-- A complete append to a batch of array rows: steps that push their lengths, their null flags where they have any,
and the items that the lengths add up to. -/
structure ArrayAppend (type : ColumnType) (nullable : Bool) (shape : Batch.Shape) where
  sizes : List Nat
  nulls : List Bool
  elements : List RowValue
  pushLengths : Action OffsetBuffer Unit
  pushFlags : Action FixedBuffer Unit
  pushItems : Action Batch Unit
  many : nulls.length = sizes.length
  all : elements.length = total sizes
  unmarked : nullable = false → nulls = List.replicate sizes.length false
  lengths : OffsetBuffer.Pushes type sizes pushLengths
  flags : nullable = true → FixedBuffer.PushesFlags nulls pushFlags
  items : Batch.Pushes shape elements pushItems

/-- A step in the life of a batch of array rows. -/
inductive ArrayStep (type : ColumnType) (nullable : Bool) (shape : Batch.Shape) where
  | clear
  | nulls (count : Nat) (may : nullable = true)
  | repeatedNull (count : Nat) (may : nullable = true)
  | rows (append : ArrayAppend type nullable shape) (grown : Bool)

namespace ArrayStep

variable {type : ColumnType} {nullable : Bool} {shape : Batch.Shape}

def run : ArrayStep type nullable shape → Action Batch Unit
  | clear => modify Batch.clear
  | nulls count _ => Sink.pushNulls count
  | repeatedNull count _ => Sink.pushRepeated .null count
  | rows append grown => Batch.appendRows append.pushLengths append.pushFlags append.sizes.length
      append.pushItems grown

/-- The rows there are after a step, from those before it. -/
def onto (held : List RowValue) : ArrayStep type nullable shape → List RowValue
  | clear => []
  | nulls count _ | repeatedNull count _ => held ++ List.replicate count (.array true [])
  | rows append _ => held ++ RowValue.rowsOf append.sizes append.nulls append.elements

def runAll : List (ArrayStep type nullable shape) → Action Batch Unit
  | [] => pure ()
  | step :: rest => do
    step.run
    runAll rest

/-- The rows that some steps have appended since the last of them that clears. -/
def appended (steps : List (ArrayStep type nullable shape)) : List RowValue := steps.foldl onto []

variable {batch : Batch} {held : List RowValue}

theorem pushNulls_holds (holds : batch.Holds (.array type true shape) held) (count : Nat) :
    ∃ after, (Sink.pushNulls count : Action Batch Unit) batch = .ok () after ∧
      after.Holds (.array type true shape) (held ++ List.replicate count (.array true [])) := by
  obtain ⟨rows, items, rfl⟩ := holds.exists_array
  obtain ⟨sizes, nulls, elements, counts, bounds, inside, all, rfl⟩ := Batch.holds_array_iff.mp holds
  obtain ⟨after, push, counts', bounds'⟩ := ArrayRows.pushNulls_ok counts bounds count
  refine ⟨.array after items, congrArg (Action.rewrap (Batch.array · items)) push,
    Batch.holds_array_iff.mpr ⟨_, _, elements, counts', bounds', inside, ?_, ?_⟩⟩
  · rw [total_append, total_zeros, all, Nat.add_zero]
  · have rowsOf (count : Nat) : RowValue.rowsOf (List.replicate count 0) (List.replicate count true) [] =
        List.replicate count (.array true []) := by
      induction count with
      | zero => rfl
      | succ count ih => exact congrArg (RowValue.array true [] :: ·) ih
    rw [← rowsOf count, ← RowValue.rowsOf_append counts.length_nulls all, List.append_nil]

/-- A complete append is finished alike whether or not the storage of the items is said to have grown. -/
theorem appendRows_holds (holds : batch.Holds (.array type nullable shape) held)
    (append : ArrayAppend type nullable shape) :
    ∃ after, (∀ grown, (ArrayStep.rows append grown).run batch = .ok () after) ∧
      after.Holds (.array type nullable shape)
        (held ++ RowValue.rowsOf append.sizes append.nulls append.elements) := by
  obtain ⟨rows, items, rfl⟩ := holds.exists_array
  obtain ⟨sizes, nulls, elements, counts, bounds, inside, all, rfl⟩ := Batch.holds_array_iff.mp holds
  obtain ⟨pushed, push, counts', kept⟩ :=
    ArrayRows.appendRows_ok counts append.lengths append.flags append.unmarked append.many
  obtain ⟨filled, items', inside'⟩ :=
    append.items elements _ (inside.ensureCapacity ((total sizes + total append.sizes) % 2 ^ 64))
  have number : filled.length = total (sizes ++ append.sizes) := by
    rw [inside'.sound.length_eq, inside'.rows, List.length_append, total_append, all, append.all]
  have complete : total sizes + total append.sizes ≤ filled.length := by rw [number, total_append]
  have fills : Room.outcome (items.affords ((total sizes + total append.sizes) % 2 ^ 64))
      (fun _ filled => total sizes + total append.sizes ≤ filled.length) items (.ok () filled) = .ok () filled :=
    Room.outcome_ok (decide_eq_true complete)
  have settled : pushed.settle filled.length = pushed := counts'.settle (Nat.le_of_eq number.symm)
  have finished := ArrayRows.finish_bounds counts' (kept.trans bounds)
  have same (grown : Bool) : pushed.finish sizes.length append.sizes.length grown =
      { pushed with bounds := ArrayRows.stretchesOf (sizes ++ append.sizes) } := by
    rw [← finished grown]
    rfl
  refine ⟨.array { pushed with bounds := ArrayRows.stretchesOf (sizes ++ append.sizes) } filled,
    fun grown => ?_, ?_⟩
  · have start : rows.length = sizes.length := counts.length
    simp only [run, Batch.appendRows, push, items', fills, settled, start, same]
  · refine Batch.holds_array_iff.mpr ⟨_, _, _,
      ⟨counts'.type_eq, counts'.fences, counts'.length_nulls, counts'.flags⟩, rfl, inside', ?_, ?_⟩
    · rw [List.length_append, total_append, all, append.all]
    · exact (RowValue.rowsOf_append counts.length_nulls all).symm

/-- Whatever a step does, the batch holds the rows that it is meant to hold. -/
theorem run_holds (step : ArrayStep type nullable shape) (holds : batch.Holds (.array type nullable shape) held) :
    ∃ after, step.run batch = .ok () after ∧ after.Holds (.array type nullable shape) (step.onto held) := by
  cases step with
  | clear =>
    have cleared := holds.sound.rooted.clear
    rw [holds.shaped] at cleared
    exact ⟨_, rfl, cleared⟩
  | nulls count may =>
    cases may
    exact pushNulls_holds holds count
  | repeatedNull count may =>
    cases may
    obtain ⟨rows, items, rfl⟩ := holds.exists_array
    exact pushNulls_holds holds count
  | rows append grown =>
    obtain ⟨after, runs, holds'⟩ := appendRows_holds holds append
    exact ⟨after, runs grown, holds'⟩

theorem runAll_holds (steps : List (ArrayStep type nullable shape))
    (holds : batch.Holds (.array type nullable shape) held) :
    ∃ after, runAll steps batch = .ok () after ∧ after.Holds (.array type nullable shape)
      (steps.foldl onto held) := by
  induction steps generalizing batch held with
  | nil => exact ⟨batch, rfl, holds⟩
  | cons step rest ih =>
    obtain ⟨mid, first, holds'⟩ := step.run_holds holds
    obtain ⟨after, others, holds''⟩ := ih holds'
    refine ⟨after, ?_, holds''⟩
    rw [runAll, bind_apply, first]
    exact others

/-- A batch of arrays that is new, or that has been cleared after any calls, reads after any steps as the rows that
have been appended since the last time it was cleared, and the rows read the same whatever is told of the storage of
the items. -/
theorem runAll_reads {column : ColumnMeta} {fresh start : Batch} (made : Batch.ofColumn column = .ok fresh)
    (calls : List BatchCall) (begins : start = fresh ∨ start = (BatchCall.leaveAll calls fresh).clear)
    (shaped : start.shape = .array type nullable shape) (steps : List (ArrayStep type nullable shape)) :
    ∃ rows items, runAll steps start = .ok () (.array rows items) ∧ Batch.Reads rows items (appended steps) ∧
      ∀ append : ArrayAppend type nullable shape,
        (ArrayStep.rows append true).run (.array rows items) =
        (ArrayStep.rows append false).run (.array rows items) := by
  have empty : start.Holds (.array type nullable shape) [] := by
    rcases begins with rfl | rfl
    · exact shaped ▸ Batch.ofColumn_holds made
    · have cleared := (BatchCall.rooted_leaveAll calls (Batch.ofColumn_holds made).sound.rooted).clear
      exact ⟨shaped, cleared.sound, cleared.rows⟩
  obtain ⟨after, run, holds⟩ := runAll_holds steps empty
  obtain ⟨rows, items, rfl⟩ := holds.exists_array
  refine ⟨rows, items, run, holds.reads, fun append => ?_⟩
  obtain ⟨_, alike, _⟩ := appendRows_holds holds append
  rw [alike true, alike false]

/-- Arrays of small integers, some of them null. -/
def smallArrays : ColumnMeta :=
  ⟨{ columnId := 0, type := .array, isNullable := true, rows := 0 }, [
    ⟨{ columnId := 1, type := .integer .small, rows := 0 }, []⟩,
    ⟨{ columnId := 2, type := .integer .int, rows := 0 }, []⟩,
    ⟨{ columnId := 3, type := .boolean, rows := 0 }, []⟩]⟩

def smallBatch : Batch :=
  .array { offsets := { type := .integer .int }, flags := some { type := .boolean, width := 1, nullable := false } }
    (.fixed { type := .integer .small, width := 2, nullable := false })

/-- Appends the arrays [0, 1], [] and [2, 3, 4]. -/
def threeArrays : ArrayAppend (.integer .int) true (.fixed (.integer .small) 2 false) where
  sizes := [2, 0, 3]
  nulls := [false, false, false]
  elements := [0, 1, 2, 3, 4].map fun item => .flat (some [item, 0])
  pushLengths := Sink.pushFixed [2, 0, 0, 0, 0, 0, 0, 0, 3, 0, 0, 0] 3
  pushFlags := Sink.pushFixed [0, 0, 0] 3
  pushItems := Sink.pushFixed [0, 0, 1, 0, 2, 0, 3, 0, 4, 0] 5
  many := rfl
  all := rfl
  unmarked := nofun
  lengths := OffsetBuffer.pushes_stored rfl rfl
  flags := fun _ => FixedBuffer.pushesFlags_stored [0, 0, 0]
  items := Batch.pushes_stored rfl

theorem runAll_reads_smallArrays :
    Batch.ofColumn smallArrays = .ok smallBatch ∧
      ∃ rows items, runAll [.rows threeArrays true, .nulls 1 rfl, .rows threeArrays false]
          (BatchCall.leaveAll [.lengths (.fixed [7, 0, 0, 0] 1), .push (.nulls 2)] smallBatch).clear =
            .ok () (.array rows items) ∧
        Batch.Reads rows items [
          .array false [.flat (some [0, 0]), .flat (some [1, 0])], .array false [],
          .array false [.flat (some [2, 0]), .flat (some [3, 0]), .flat (some [4, 0])], .array true [],
          .array false [.flat (some [0, 0]), .flat (some [1, 0])], .array false [],
          .array false [.flat (some [2, 0]), .flat (some [3, 0]), .flat (some [4, 0])]] := by
  have made : Batch.ofColumn smallArrays = .ok smallBatch := rfl
  obtain ⟨rows, items, run, reads, _⟩ := runAll_reads made [.lengths (.fixed [7, 0, 0, 0] 1), .push (.nulls 2)]
    (.inr rfl) rfl [.rows threeArrays true, .nulls 1 rfl, .rows threeArrays false]
  exact ⟨made, rows, items, run, reads⟩

end ArrayStep

end Columnar
