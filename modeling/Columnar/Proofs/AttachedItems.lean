import Columnar.Proofs.AppendedRows
import Columnar.Proofs.ColumnHistory
import Columnar.Proofs.CreatedColumns

namespace Columnar

open Columnar.Action

theorem total_take_add_le {sizes : List Nat} {row : Nat} (inside : row < sizes.length) :
    total (sizes.take row) + sizes[row] ≤ total sizes := by
  have parts := congrArg total (List.take_append_drop row sizes)
  rw [total_append, List.drop_eq_getElem_cons inside, total] at parts
  omega

/-- The last row that has items ends where all of them do. -/
theorem exists_last_of_total_ne_zero {sizes : List Nat} (some : total sizes ≠ 0) :
    ∃ row, ∃ inside : row < sizes.length, 0 < sizes[row] ∧ total (sizes.take row) + sizes[row] = total sizes := by
  induction sizes with
  | nil => exact absurd rfl some
  | cons size rest ih =>
    by_cases none : total rest = 0
    · have positive : 0 < size := by
        simp only [total] at some
        omega
      exact ⟨0, Nat.zero_lt_succ _, positive, by simp [total, none]⟩
    · obtain ⟨row, inside, positive, ends⟩ := ih none
      exact ⟨row + 1, Nat.succ_lt_succ inside, positive, by simp [total, ← ends, Nat.add_assoc]⟩

namespace OffsetBuffer

/-- If the last places among the items that have come are those of the items that were wanted, as many have come as
were, and they have come right behind the earlier ones. -/
theorem ends_of_settled {items base wanted before size : Nat} (place : IsPlace items base)
    (all : before + size = wanted) (first : settled (items + wanted % 2 ^ 64) (base + before) = items + before)
    (stop : settled (items + wanted % 2 ^ 64) (base + before + size) = items + before + size) :
    wanted < 2 ^ 64 ∧ base = items := by
  unfold settled at first stop
  unfold IsPlace at place
  split at first <;> split at stop <;> omega

theorem fence_append {buffer : OffsetBuffer} {before others : List Nat} (fences : buffer.fences = before ++ others)
    {row : Nat} (inside : row < before.length) : buffer.fence row = before.getD row 0 := by
  rw [fence, fences, List.getD_eq_getElem?_getD, List.getElem?_append_left inside, List.getD_eq_getElem?_getD]

/-- Lengths behind some places become the places behind the last of them. -/
theorem convertLengths_behind {buffer : OffsetBuffer} {before lengths : List Nat}
    (fences : buffer.fences = before ++ lengths) (some : before ≠ []) :
      convertLengths (before.length - 1) lengths.length buffer =
      .ok () { buffer with fences := before ++ runningSums (before.getD (before.length - 1) 0) lengths } := by
  have positive := List.length_pos_of_ne_nil some
  have stop : before.length - 1 + 1 = before.length := Nat.sub_add_cancel positive
  have enough : ¬buffer.rows < before.length - 1 + lengths.length := by
    rw [rows, fences, List.length_append]
    omega
  rw [convertLengths, bind_apply, get_apply]
  simp only [enough, if_false]
  rw [set_apply, fence_append fences (Nat.sub_lt positive Nat.one_pos), fences, stop, List.take_left,
    List.drop_left, List.take_length, List.drop_eq_nil_of_le, List.append_nil]
  simp

end OffsetBuffer

namespace ArrayRows

variable {rows later last : ArrayRows} {sizes : List Nat}

/-- The places between the rows are among so many items, and the rows that are finished have the stretches between
them. -/
structure Fenced (rows : ArrayRows) (items : Nat) : Prop where
  some : rows.offsets.fences ≠ []
  places : ∀ fence ∈ rows.offsets.fences, OffsetBuffer.IsPlace items fence
  within : rows.bounds.length ≤ rows.length
  bounds : rows.bounds = rows.stretches 0 rows.bounds.length

/-- Nothing that was there of rows has changed. -/
structure Kept (rows later : ArrayRows) : Prop where
  fences : rows.offsets.fences <+: later.offsets.fences
  bounds : rows.bounds <+: later.bounds

/-- Rows of some sizes have been appended and finished behind others, with their places among so many items. -/
structure Extended (rows : ArrayRows) (sizes : List Nat) (items : Nat) (later : ArrayRows) : Prop where
  fences : later.offsets.fences = (rows.offsets.fences ++
    OffsetBuffer.runningSums (rows.itemOffset rows.length) sizes).map (OffsetBuffer.settled items)
  bounds : later.bounds = if sizes = [] then rows.bounds else later.stretches 0 later.length

theorem Kept.refl (rows : ArrayRows) : rows.Kept rows := ⟨List.prefix_refl _, List.prefix_refl _⟩

theorem Kept.trans (first : rows.Kept later) (second : later.Kept last) : rows.Kept last :=
  ⟨first.fences.trans second.fences, first.bounds.trans second.bounds⟩

theorem length_lt (some : rows.offsets.fences ≠ []) : rows.length < rows.offsets.fences.length := by
  have := List.length_pos_of_ne_nil some
  rw [length, OffsetBuffer.rows]
  omega

theorem itemOffset_of_grown (fences : rows.offsets.fences <+: later.offsets.fences) {row : Nat}
    (inside : row < rows.offsets.fences.length) : later.itemOffset row = rows.itemOffset row := by
  obtain ⟨more, same⟩ := fences
  rw [itemOffset, OffsetBuffer.fence_append same.symm inside]
  rfl

theorem stretches_of_grown (fences : rows.offsets.fences <+: later.offsets.fences) {count : Nat}
    (inside : count < rows.offsets.fences.length) : later.stretches 0 count = rows.stretches 0 count := by
  refine List.map_congr_left fun row member => ?_
  have bound := (List.mem_range'_1.mp member).2
  rw [itemOffset_of_grown fences (by omega), itemOffset_of_grown fences (by omega)]

theorem length_stretches (start count : Nat) : (rows.stretches start count).length = count := by
  rw [stretches, List.length_map, List.length_range']

theorem stretches_grown {count more : Nat} (less : count ≤ more) :
    rows.stretches 0 count <+: rows.stretches 0 more := by
  obtain ⟨rest, rfl⟩ := Nat.exists_eq_add_of_le less
  rw [stretches, stretches, ← List.range'_append_1, List.map_append]
  exact List.prefix_append ..

/-- Places behind those of finished rows change nothing for the rows. -/
theorem Fenced.append {items more : Nat} (fenced : rows.Fenced items)
    (fences : rows.offsets.fences <+: later.offsets.fences)
    (places : ∀ fence ∈ later.offsets.fences, OffsetBuffer.IsPlace more fence)
    (bounds : later.bounds = rows.bounds) : later.Fenced more ∧ rows.Kept later := by
  have inside := length_lt fenced.some
  have many := fences.length_le
  have within := fenced.within
  refine ⟨⟨?_, places, ?_, ?_⟩, fences, bounds ▸ List.prefix_refl _⟩
  · exact List.ne_nil_of_length_pos (by omega)
  · rw [bounds, length, OffsetBuffer.rows]
    rw [length, OffsetBuffer.rows] at within inside
    omega
  · rw [bounds, stretches_of_grown fences (by omega)]
    exact fenced.bounds

theorem Fenced.isPlace_last {items : Nat} (fenced : rows.Fenced items) :
    OffsetBuffer.IsPlace items (rows.itemOffset rows.length) := by
  have inside := length_lt fenced.some
  rw [itemOffset, OffsetBuffer.fence, List.getD_eq_getElem _ _ inside]
  exact fenced.places _ (List.getElem_mem inside)

theorem Fenced.settled_eq {items more : Nat} (fenced : rows.Fenced items) (grown : items ≤ more) :
    rows.offsets.fences.map (OffsetBuffer.settled more) = rows.offsets.fences :=
  OffsetBuffer.map_settled fun fence member => (fenced.places fence member).mono grown

/-- Only places that are new are settled. -/
theorem Fenced.settle {items more : Nat} (fenced : rows.Fenced items) (grown : items ≤ more)
    (fences : rows.offsets.fences <+: later.offsets.fences) (bounds : later.bounds = rows.bounds) :
    (later.settle more).Fenced more ∧ rows.Kept (later.settle more) := by
  refine fenced.append ?_ (fun fence member => ?_) bounds
  · rw [← fenced.settled_eq grown]
    exact fences.map _
  · obtain ⟨place, _, rfl⟩ := List.mem_map.mp member
    exact OffsetBuffer.isPlace_settled more place

/-- Rows that are finished up to the last place have all their stretches, whether the earlier ones are finished
again. -/
theorem Fenced.finish_bounds {items : Nat} (fenced : rows.Fenced items) {start count : Nat}
    (behind : rows.bounds.length ≤ start) (again : Bool) :
    (rows.finish start count again).bounds = rows.stretches 0 (start + count) := by
  rw [finish]
  cases again with
  | true => simp
  | false =>
    have parts : start + count = rows.bounds.length + (start + count - rows.bounds.length) := by omega
    simp only [Bool.false_eq_true, if_false, Nat.min_eq_right behind, List.take_length]
    conv_rhs => rw [parts, stretches, ← List.range'_append_1, List.map_append]
    rw [Nat.zero_add]
    exact congrArg (· ++ _) fenced.bounds

theorem Fenced.finish {items : Nat} (fenced : rows.Fenced items) {start count : Nat}
    (behind : rows.bounds.length ≤ start) (all : start + count = rows.length) (again : Bool) :
    (rows.finish start count again).Fenced items ∧ rows.Kept (rows.finish start count again) ∧
      (rows.finish start count again).bounds = rows.stretches 0 rows.length := by
  have bounds : (rows.finish start count again).bounds = rows.stretches 0 (start + count) :=
    fenced.finish_bounds behind again
  rw [all] at bounds
  refine ⟨⟨fenced.some, fenced.places, ?_, ?_⟩, ⟨List.prefix_refl _, ?_⟩, bounds⟩
  · rw [bounds, length_stretches]
    exact Nat.le_refl _
  · rw [bounds, length_stretches]
    rfl
  · rw [bounds, fenced.bounds]
    exact stretches_grown fenced.within

/-- The places of the items that belong to a row. -/
def places (rows : ArrayRows) (row : Nat) : Except Error (List Nat) :=
  (rows.stretch row).map fun (start, stop) => List.range' start (stop - start)

/-- The items of a row, read back one by one. One that is not there is left open. -/
def itemsOf (rows : ArrayRows) (items : Batch) (row : Nat) : Except Error (List (Option (Option Bytes))) :=
  (rows.places row).map fun places => places.map (items.flatRows[·]?)

theorem Kept.places_eq (kept : rows.Kept later) {row : Nat} (inside : row < rows.bounds.length) :
    later.places row = rows.places row := by
  obtain ⟨more, same⟩ := kept.bounds
  rw [places, places, stretch, stretch, ← same, List.getElem?_append_left inside, List.getElem?_eq_getElem inside]

section Behind

variable (some : rows.offsets.fences ≠ [])

include some

/-- The sums of some sizes behind the places of earlier rows. -/
theorem getElem?_behind {count : Nat} (within : count ≤ sizes.length) :
    (rows.offsets.fences ++ OffsetBuffer.runningSums (rows.itemOffset rows.length) sizes)[rows.length + count]? =
      .some (rows.itemOffset rows.length + total (sizes.take count)) := by
  have positive := List.length_pos_of_ne_nil some
  have last : rows.offsets.fences = rows.offsets.fences.dropLast ++ [rows.itemOffset rows.length] := by
    rw [itemOffset, OffsetBuffer.fence, length, OffsetBuffer.rows, List.getD_eq_getElem _ _ (by omega)]
    exact (List.dropLast_concat_getLast some).symm.trans (by rw [List.getLast_eq_getElem])
  have before : rows.offsets.fences.dropLast.length = rows.length := List.length_dropLast
  have found := OffsetBuffer.getElem?_runningSums (rows.itemOffset rows.length) within
  rw [last, List.append_assoc, ← before, List.getElem?_append_right (Nat.le_add_right ..), Nat.add_sub_cancel_left,
    List.singleton_append]
  rw [before, found]

variable (fences : later.offsets.fences = rows.offsets.fences ++
  OffsetBuffer.runningSums (rows.itemOffset rows.length) sizes)

include fences

theorem length_behind : later.length = rows.length + sizes.length := by
  have positive := List.length_pos_of_ne_nil some
  rw [length, OffsetBuffer.rows, fences, List.length_append, OffsetBuffer.length_runningSums, length,
    OffsetBuffer.rows]
  omega

theorem itemOffset_behind {count : Nat} (within : count ≤ sizes.length) :
    later.itemOffset (rows.length + count) = rows.itemOffset rows.length + total (sizes.take count) := by
  rw [itemOffset, OffsetBuffer.fence, List.getD_eq_getElem?_getD, fences, getElem?_behind some within,
    Option.getD_some]

/-- Places that come behind earlier ones are as far apart as the sizes say. -/
theorem itemOffset_ends_behind : later.itemOffset rows.length = rows.itemOffset rows.length ∧
    later.itemOffset (rows.length + sizes.length) - rows.itemOffset rows.length = total sizes := by
  have first := itemOffset_behind some fences (Nat.zero_le _)
  have stop := itemOffset_behind some fences (Nat.le_refl sizes.length)
  rw [List.take_length] at stop
  exact ⟨first, by omega⟩

end Behind

section Extended

variable {items : Nat} (extended : rows.Extended sizes items later) (some : rows.offsets.fences ≠ [])

include extended some

theorem Extended.length_eq : later.length = rows.length + sizes.length := by
  have positive := List.length_pos_of_ne_nil some
  rw [length, OffsetBuffer.rows, extended.fences, List.length_map, List.length_append,
    OffsetBuffer.length_runningSums, length, OffsetBuffer.rows]
  omega

theorem Extended.itemOffset_eq {count : Nat} (within : count ≤ sizes.length) :
    later.itemOffset (rows.length + count) =
    OffsetBuffer.settled items (rows.itemOffset rows.length + total (sizes.take count)) := by
  rw [itemOffset, OffsetBuffer.fence, List.getD_eq_getElem?_getD, extended.fences, List.getElem?_map,
    getElem?_behind some within, Option.map_some, Option.getD_some]

/-- The items of an appended row begin behind those of the rows before it. -/
theorem Extended.places_eq {row : Nat} (inside : row < sizes.length) :
    let first := OffsetBuffer.settled items (rows.itemOffset rows.length + total (sizes.take row))
    let stop := OffsetBuffer.settled items (rows.itemOffset rows.length + total (sizes.take row) + sizes[row])
    later.places (rows.length + row) = .ok (List.range' first (stop - first)) := by
  have first := extended.itemOffset_eq some (Nat.le_of_lt inside)
  have stop := extended.itemOffset_eq some inside
  rw [List.take_succ_eq_append_getElem inside, total_append] at stop
  have bounds := extended.bounds
  rw [if_neg (List.ne_nil_of_length_pos (by omega)), extended.length_eq some] at bounds
  rw [places, stretch, bounds, stretches, List.getElem?_map, List.getElem?_range' (by omega)]
  simp only [Option.map_some]
  rw [Nat.zero_add, Nat.one_mul, Nat.add_assoc, first, stop]
  simp [Except.map, total, Nat.add_assoc]

end Extended

end ArrayRows

namespace ArrayCursor

variable {rows : ArrayRows}

/-- A read of the lengths of some rows gives some sizes. -/
def PullsLengths (session : Session) (cursor : ArrayCursor) (rows : ArrayRows) (count : Nat)
    (sizes : List Nat) : Prop :=
  ∃ last reached offsets, LeafCursor.next count (session, cursor.lengths, rows.offsets) =
    .ok ⟨sizes.length, false⟩ (last, reached, offsets) ∧ offsets.fences = rows.offsets.fences ++ sizes

/-- Null flags are read beside the places between the rows. -/
theorem readFlags_rest (count : Nat) (session : Session) (cursor : ArrayCursor) (rows : ArrayRows) :
    (leftBy (readFlags count) (session, cursor, rows)).2.2.offsets = rows.offsets ∧
      (leftBy (readFlags count) (session, cursor, rows)).2.2.bounds = rows.bounds := by
  cases held : cursor.flags with
  | none => simp only [leftBy, Action.run, readFlags, held, and_self]
  | some flags =>
    cases stored : rows.flags with
    | none => simp only [leftBy, Action.run, readFlags, held, stored, and_self]
    | some buffer =>
      rcases run : LeafCursor.next count (session, flags, buffer)
        with ⟨read, last, moved, filled⟩ | ⟨error, last, moved, filled⟩
      · by_cases all : read.rows = count
        · simp only [leftBy, Action.run, readFlags, held, stored, run, if_pos all, and_self]
        · simp only [leftBy, Action.run, readFlags, held, stored, run, if_neg all, and_self]
      · simp only [leftBy, Action.run, readFlags, held, stored, run, and_self]

/-- Rows are read apart from their items: places are appended behind the earlier ones, by the sizes that the lengths
give. -/
theorem readRows_spec (session : Session) (cursor : ArrayCursor) (some : rows.offsets.fences ≠ []) (count : Nat) :
    match readRows count (session, cursor, rows) with
    | .ok read (_, _, filled) => ∃ sizes, PullsLengths session cursor rows count sizes ∧
      filled.offsets.fences = rows.offsets.fences ++ OffsetBuffer.runningSums (rows.itemOffset rows.length) sizes ∧
      filled.bounds = rows.bounds ∧ read =
        ⟨rows.length, sizes.length, rows.itemOffset rows.length, total sizes % 2 ^ 64⟩
    | .error _ (_, _, filled) => rows.offsets.fences <+: filled.offsets.fences ∧ filled.bounds = rows.bounds := by
  rw [readRows, bind_apply, get_apply]
  dsimp only
  have adds := LeafCursor.next_adds OffsetBuffer.appends count
  rw [bind_apply, readLengths, onPart]
  dsimp only
  rcases run : LeafCursor.next count (session, cursor.lengths, rows.offsets) with
    ⟨⟨many, hasNull⟩, mid, reached, offsets⟩ | ⟨error, mid, reached, offsets⟩
  · obtain ⟨_, sizes, grown, rfl⟩ := adds.of_ok trivial run
    dsimp only at grown ⊢
    rw [rewrap_ok]
    dsimp only
    cases hasNull with
    | true =>
      simp only [if_true, bind_apply, get_apply, throw_apply]
      exact ⟨⟨sizes, grown.symm⟩, trivial⟩
    | false =>
      have pulls : PullsLengths session cursor rows count sizes := ⟨_, _, _, run, grown⟩
      have converted : OffsetBuffer.convertLengths rows.length sizes.length offsets = .ok () { offsets with
        fences := rows.offsets.fences ++ OffsetBuffer.runningSums (rows.itemOffset rows.length) sizes } :=
        OffsetBuffer.convertLengths_behind grown some
      simp only [Bool.false_eq_true, if_false]
      rw [bind_apply]
      dsimp only [onSecond, ArrayRows.onOffsets, onPart]
      rw [converted]
      dsimp only [rewrap_ok]
      by_cases more : 0 < sizes.length
      · rw [if_pos more, bind_apply]
        obtain ⟨offsets', bounds⟩ := readFlags_rest sizes.length mid { cursor with lengths := reached }
          { rows with offsets := { offsets with
            fences := rows.offsets.fences ++ OffsetBuffer.runningSums (rows.itemOffset rows.length) sizes } }
        rcases flagsRun : readFlags sizes.length _ with ⟨_, last, moved, filled⟩ | ⟨error, last, moved, filled⟩
        · rw [leftBy_ok flagsRun] at offsets' bounds
          have behind : filled.offsets.fences =
              rows.offsets.fences ++ OffsetBuffer.runningSums (rows.itemOffset rows.length) sizes :=
            congrArg OffsetBuffer.fences offsets'
          obtain ⟨first, items⟩ := ArrayRows.itemOffset_ends_behind some behind
          dsimp only
          rw [bind_apply, get_apply]
          dsimp only
          rw [first, items]
          exact ⟨sizes, pulls, behind, bounds, rfl⟩
        · rw [leftBy_error flagsRun] at offsets' bounds
          exact ⟨⟨_, (congrArg OffsetBuffer.fences offsets').symm⟩, bounds⟩
      · rw [if_neg more, bind_apply, get_apply]
        dsimp only
        obtain ⟨first, items⟩ := @ArrayRows.itemOffset_ends_behind rows { rows with offsets := { offsets with
          fences := rows.offsets.fences ++ OffsetBuffer.runningSums (rows.itemOffset rows.length) sizes } }
            sizes some rfl
        rw [first, items]
        exact ⟨sizes, pulls, rfl, rfl, rfl⟩
  · exact ⟨(adds.of_error trivial run).2, rfl⟩

end ArrayCursor

theorem Batch.Flat.ensureCapacity {items : Batch} (flat : items.Flat) (rows : Nat) :
    (items.ensureCapacity rows).2.Flat ∧ (items.ensureCapacity rows).2.flatRows = items.flatRows := by
  dsimp only [Batch.ensureCapacity]
  split
  · cases items with
    | fixed buffer => exact ⟨flat, rfl⟩
    | bytes buffer => exact ⟨trivial, rfl⟩
    | array rows items => exact flat.elim
  · exact ⟨flat, rfl⟩

/-- Array rows over flat items of which nothing has changed, with others behind them. -/
inductive Batch.Kept : Batch → Batch → Prop
  | array {rows rows' : ArrayRows} {items items' : Batch} (kept : rows.Kept rows')
    (grown : items.flatRows <+: items'.flatRows) :
    Kept (.array rows items) (.array rows' items')

/-- A batch of array rows over flat items, the finished ones with their stretches. -/
inductive Batch.Steady : Batch → Prop
  | array {rows : ArrayRows} {items : Batch} (fenced : rows.Fenced items.flatRows.length) (flat : items.Flat) :
      Steady (.array rows items)

theorem Batch.Kept.trans {batch later last : Batch} (first : batch.Kept later) (second : later.Kept last) :
    batch.Kept last := by
  obtain ⟨rows, items⟩ := first
  obtain ⟨rows', items'⟩ := second
  exact ⟨rows.trans rows', items.trans items'⟩

theorem Batch.Steady.kept_refl {batch : Batch} (steady : batch.Steady) : batch.Kept batch := by
  obtain ⟨_, _⟩ := steady
  exact ⟨.refl _, List.prefix_refl _⟩

section Settling

variable {rows filled : ArrayRows} {items full : Batch} (fenced : rows.Fenced items.flatRows.length)
  (flat : full.Flat) (grown : items.flatRows <+: full.flatRows)

include fenced flat grown

/-- Rows whose places are settled among the items that have come leave what was there as it is. -/
theorem Batch.steady_settle (fences : rows.offsets.fences <+: filled.offsets.fences)
    (bounds : filled.bounds = rows.bounds) : (Batch.array (filled.settle full.length) full).Steady ∧
      (Batch.array rows items).Kept (.array (filled.settle full.length) full) := by
  rw [flat.length_eq]
  obtain ⟨fenced', kept⟩ := fenced.settle grown.length_le fences bounds
  exact ⟨⟨fenced', flat⟩, kept, grown⟩

/-- Rows of some sizes are finished up to the last place, whether the rows before them are finished again. -/
theorem Batch.steady_finish {sizes : List Nat} (some : sizes ≠ []) (fences : filled.offsets.fences =
      rows.offsets.fences ++ OffsetBuffer.runningSums (rows.itemOffset rows.length) sizes)
    (bounds : filled.bounds = rows.bounds) (again : Bool) :
    let done := (filled.settle full.length).finish rows.length sizes.length again
    (Batch.array done full).Steady ∧ (Batch.array rows items).Kept (.array done full) ∧
      rows.Extended sizes full.flatRows.length done := by
  rw [flat.length_eq]
  intro done
  have settled : (filled.settle full.flatRows.length).offsets.fences = (rows.offsets.fences ++
      OffsetBuffer.runningSums (rows.itemOffset rows.length) sizes).map
        (OffsetBuffer.settled full.flatRows.length) :=
    congrArg (List.map _) fences
  obtain ⟨fenced', kept⟩ := fenced.settle grown.length_le ⟨_, fences.symm⟩ bounds
  have length : rows.length + sizes.length = (filled.settle full.flatRows.length).length := by
    rw [← ArrayRows.length_behind fenced.some fences, ArrayRows.length, ArrayRows.length, OffsetBuffer.rows,
      OffsetBuffer.rows, settled, fences, List.length_map]
  have behind : (filled.settle full.flatRows.length).bounds.length ≤ rows.length :=
    (congrArg List.length bounds).trans_le fenced.within
  obtain ⟨finished, later, all⟩ := fenced'.finish behind length again
  exact ⟨⟨finished, flat⟩, ⟨kept.trans later, grown⟩, settled, by rw [if_neg some, all]; rfl⟩

end Settling

namespace ColumnCursor

variable {rows rows' : ArrayRows} {items items' : Batch} {inner : ColumnCursor}

/-- A read of array rows has pulled the sizes of some rows, and then as many items as 64 bits say that these
want. -/
structure Pulled (session : Session) (parts : ArrayCursor) (rows : ArrayRows) (items : Batch) (count : Nat)
    (sizes : List Nat) (pulled : List (Option Bytes)) (rows' : ArrayRows) (items' : Batch) : Prop where
  lengths : parts.PullsLengths session rows count sizes
  extended : rows.Extended sizes items'.flatRows.length rows'
  items : items'.flatRows = items.flatRows ++ pulled
  many : pulled.length = total sizes % 2 ^ 64

/-- Items that are read into room made for them are appended, whether storage affords the room or not. -/
theorem nextFrom_room_spec (session : Session) (stored : inner.Stored) (flat : items.Flat) (count stop : Nat) :
    match Room.outcome (items.affords stop) (fun found _ => found.rows = count) (session, inner, items)
      (inner.nextFrom count session (items.ensureCapacity stop).2) with
    | .ok found after => after.2.1.Stored ∧ after.2.2.Flat ∧
      ∃ pulled, after.2.2.flatRows = items.flatRows ++ pulled ∧ pulled.length = found.rows
    | .error _ after => after.2.1.Stored ∧ after.2.2.Flat ∧ items.flatRows <+: after.2.2.flatRows := by
  obtain ⟨flat', same⟩ := flat.ensureCapacity stop
  have adds := next_adds count (session, inner, (items.ensureCapacity stop).2) ⟨stored, flat'⟩
  rw [next] at adds
  obtain room | ⟨room, _⟩ := Room.outcome_cases (inner.nextFrom count session (items.ensureCapacity stop).2)
  · rw [room]
    cases run : inner.nextFrom count session (items.ensureCapacity stop).2 with
    | ok found after =>
      rw [run] at adds
      obtain ⟨⟨stored, flat⟩, pulled, items', told⟩ := adds
      exact ⟨stored, flat, pulled, same ▸ items', told⟩
    | error error after =>
      rw [run] at adds
      obtain ⟨⟨stored, flat⟩, items'⟩ := adds
      exact ⟨stored, flat, same ▸ items'⟩
  · rw [room]
    exact ⟨stored, flat, List.prefix_refl _⟩

/-- Whatever an array read comes to, nothing that was there changes. If it succeeds, the rows and items that it has
pulled are behind that. -/
theorem next_array_spec (session : Session) (parts : ArrayCursor) (stored : inner.Stored)
    (fenced : rows.Fenced items.flatRows.length) (flat : items.Flat) (count : Nat) :
    match next count (session, array parts inner, .array rows items) with
    | .ok read after => ∃ parts' inner' rows' items' sizes pulled,
      after.2 = (array parts' inner', .array rows' items') ∧
      inner'.Stored ∧ Pulled session parts rows items count sizes pulled rows' items' ∧ read.rows = sizes.length ∧
      (Batch.array rows' items').Steady ∧ (Batch.array rows items).Kept (.array rows' items')
    | .error _ after => ∃ parts' inner' rows' items', after.2 = (array parts' inner', .array rows' items') ∧
      inner'.Stored ∧ (Batch.array rows' items').Steady ∧ (Batch.array rows items).Kept (.array rows' items') := by
  have spec := ArrayCursor.readRows_spec session parts fenced.some count
  rw [next, nextFrom]
  rcases run : ArrayCursor.readRows count (session, parts, rows)
    with ⟨read, mid, moved, filled⟩ | ⟨error, mid, moved, filled⟩
  · rw [run] at spec
    obtain ⟨sizes, lengths, fences, bounds, rfl⟩ := spec
    dsimp only
    by_cases noRows : sizes.length = 0
    · obtain rfl := List.length_eq_zero_iff.mp noRows
      have same : filled.offsets.fences = rows.offsets.fences := fences.trans (List.append_nil _)
      have grown : rows.offsets.fences <+: filled.offsets.fences := ⟨[], by rw [same, List.append_nil]⟩
      obtain ⟨fenced', kept⟩ := fenced.append grown (same ▸ fenced.places) bounds
      have extended : rows.Extended [] items.flatRows.length filled := by
        refine ⟨?_, bounds⟩
        rw [same, OffsetBuffer.runningSums, List.append_nil, fenced.settled_eq (Nat.le_refl _)]
      rw [if_pos noRows]
      exact ⟨moved, inner, filled, items, [], [], rfl, stored,
        ⟨lengths, extended, (List.append_nil _).symm, rfl⟩, rfl, ⟨fenced', flat⟩, kept, List.prefix_refl _⟩
    · rw [if_neg noRows]
      have some : sizes ≠ [] := fun none => noRows (List.length_eq_zero_iff.mpr none)
      by_cases noItems : total sizes % 2 ^ 64 = 0
      · rw [if_pos noItems]
        obtain ⟨steady, kept, extended⟩ :=
          Batch.steady_finish fenced flat (List.prefix_refl items.flatRows) some fences bounds false
        exact ⟨_, inner, _, items, sizes, [], rfl, stored,
          ⟨lengths, extended, (List.append_nil _).symm, noItems.symm⟩, rfl, steady, kept⟩
      · rw [if_neg noItems]
        generalize ArrayRead.stop _ = stop
        have room := nextFrom_room_spec mid stored flat (total sizes % 2 ^ 64) stop
        generalize Room.outcome _ _ _ _ = outcome at room ⊢
        cases outcome with
        | error error after =>
          obtain ⟨last, stopped, full⟩ := after
          obtain ⟨stored, flat, items'⟩ := room
          exact ⟨_, _, _, _, rfl, stored, Batch.steady_settle fenced flat items' ⟨_, fences.symm⟩ bounds⟩
        | ok found after =>
          obtain ⟨last, stopped, full⟩ := after
          obtain ⟨stored, flat, pulled, items', told⟩ := room
          dsimp only at stored flat items' told ⊢
          by_cases all : found.rows = total sizes % 2 ^ 64
          · rw [if_pos all]
            obtain ⟨steady, kept, extended⟩ :=
              Batch.steady_finish fenced flat ⟨pulled, items'.symm⟩ some fences bounds (items.ensureCapacity stop).1
            exact ⟨_, _, _, _, sizes, pulled, rfl, stored, ⟨lengths, extended, items', told.trans all⟩, rfl, steady,
              kept⟩
          · rw [if_neg all]
            exact ⟨_, _, _, _, rfl, stored, Batch.steady_settle fenced flat ⟨pulled, items'.symm⟩
              ⟨_, fences.symm⟩ bounds⟩
  · rw [run] at spec
    exact ⟨_, _, _, _, rfl, stored, Batch.steady_settle fenced flat (List.prefix_refl items.flatRows) spec.1 spec.2⟩

section Pulled

variable {session : Session} {parts : ArrayCursor} {count : Nat} {sizes : List Nat} {pulled : List (Option Bytes)}

/-- Items that belong to no other rows, as many as the rows need, leave a batch level that was. -/
theorem Pulled.level (pulls : Pulled session parts rows items count sizes pulled rows' items')
    (some : rows.offsets.fences ≠ []) (few : items'.flatRows.length < 2 ^ 64)
    (level : rows.itemOffset rows.length = items.flatRows.length) :
    rows'.itemOffset rows'.length = items'.flatRows.length := by
  have last := pulls.extended.itemOffset_eq some (Nat.le_refl sizes.length)
  have many := congrArg List.length pulls.items
  rw [List.length_append, pulls.many] at many
  rw [pulls.extended.length_eq some, last, List.take_length, level, OffsetBuffer.settled]
  split <;> omega

/-- Rows have the places of the items that have been pulled for them, where these are all that are wanted and come
behind the items of the earlier rows. -/
theorem Pulled.places_of_level (pulls : Pulled session parts rows items count sizes pulled rows' items')
    (some : rows.offsets.fences ≠ []) (whole : pulled.length = total sizes)
    (level : rows.itemOffset rows.length = items.flatRows.length ∨ total sizes = 0) {row : Nat}
    (inside : row < sizes.length) : rows'.places (rows.length + row) =
      .ok (List.range' (items.flatRows.length + total (sizes.take row)) sizes[row]) := by
  have within := total_take_add_le inside
  have many := congrArg List.length pulls.items
  rw [List.length_append, whole] at many
  rw [pulls.extended.places_eq some inside]
  obtain level | none := level
  · rw [level, OffsetBuffer.IsPlace.settled (.inl (by omega)), OffsetBuffer.IsPlace.settled (.inl (by omega)),
      Nat.add_sub_cancel_left]
  · have empty : sizes[row] = 0 := by omega
    rw [empty, Nat.add_zero, Nat.sub_self, List.range'_zero, List.range'_zero]

theorem Pulled.level_of_places (pulls : Pulled session parts rows items count sizes pulled rows' items')
    (fenced : rows.Fenced items.flatRows.length)
    (found : ∀ row (inside : row < sizes.length), rows'.places (rows.length + row) =
      .ok (List.range' (items.flatRows.length + total (sizes.take row)) sizes[row])) :
    pulled.length = total sizes ∧ (rows.itemOffset rows.length = items.flatRows.length ∨ total sizes = 0) := by
  by_cases none : total sizes = 0
  · exact ⟨by rw [pulls.many, none, Nat.zero_mod], .inr none⟩
  · obtain ⟨row, inside, positive, ends⟩ := exists_last_of_total_ne_zero none
    have same := Except.ok.inj ((pulls.extended.places_eq fenced.some inside).symm.trans (found row inside))
    obtain ⟨size, first⟩ := List.range'_inj.mp same
    have many := congrArg List.length pulls.items
    rw [List.length_append, pulls.many] at many
    rw [many] at size first
    obtain ⟨few, level⟩ := OffsetBuffer.ends_of_settled fenced.isPlace_last ends (first.resolve_left (by omega))
      (by omega)
    exact ⟨pulls.many.trans (Nat.mod_eq_of_lt few), .inl level⟩

end Pulled

theorem Stored.seek (stored : inner.Stored) (session : Session) (ordinal : Nat) :
    (leftBy (seek ordinal) (session, inner)).2.Stored := by
  simp only [leftBy, Action.run, ColumnCursor.seek]
  cases inner with
  | empty =>
    simp only [seekFrom]
    split <;> rename_i run <;> split at run <;> cases run <;> trivial
  | leaf cursor =>
    simp only [seekFrom, around]
    rcases LeafCursor.seek ordinal (session, cursor) with ⟨_, _⟩ | ⟨_, _⟩ <;> trivial
  | constant cursor => exact stored.elim
  | array parts items =>
    simp only [seekFrom]
    rcases ArrayCursor.seek ordinal (session, parts) with ⟨item, mid, moved⟩ | ⟨error, mid, moved⟩
    · rcases run : items.seekFrom item mid with ⟨_, last, stopped⟩ | ⟨error, last, stopped⟩ <;>
        simp only [run] <;> trivial
    · trivial

theorem Stored.seekFirst (stored : inner.Stored) (session : Session) :
    (leftBy seekFirst (session, inner)).2.Stored := by
  simp only [leftBy, Action.run, ColumnCursor.seekFirst]
  cases inner with
  | empty => trivial
  | leaf cursor =>
    simp only [seekFirstFrom, around]
    rcases LeafCursor.seekFirst (session, cursor) with ⟨_, _⟩ | ⟨_, _⟩ <;> trivial
  | constant cursor => exact stored.elim
  | array parts items =>
    simp only [seekFirstFrom]
    rcases ArrayCursor.seekFirst (session, parts) with ⟨item, mid, moved⟩ | ⟨error, mid, moved⟩
    · rcases run : items.seekFirstFrom mid with ⟨_, last, stopped⟩ | ⟨error, last, stopped⟩ <;>
        simp only [run] <;> trivial
    · trivial

/-- Behind a seek a cursor is still one on an array column, with stored items. -/
theorem leftBy_seek_array (call : SeekCall) (session : Session) (parts : ArrayCursor) (stored : inner.Stored) :
    ∃ parts' inner', (leftBy call.runColumn (session, array parts inner)).2 = array parts' inner' ∧
      inner'.Stored := by
  have moves (ordinal : Nat) :
      ∃ parts' inner', (leftBy (seek ordinal) (session, array parts inner)).2 = array parts' inner' ∧
        inner'.Stored := by
    simp only [leftBy, Action.run, seek, seekFrom]
    rcases ArrayCursor.seek ordinal (session, parts) with ⟨item, mid, moved⟩ | ⟨error, mid, moved⟩
    · have kept := stored.seek mid item
      rcases run : inner.seekFrom item mid with ⟨_, last, stopped⟩ | ⟨error, last, stopped⟩ <;>
        simp only [leftBy, Action.run, seek, run] at kept ⊢ <;> exact ⟨_, _, rfl, kept⟩
    · exact ⟨_, _, rfl, stored⟩
  cases call with
  | first =>
    simp only [leftBy, Action.run, SeekCall.runColumn, seekFirst, seekFirstFrom]
    rcases ArrayCursor.seekFirst (session, parts) with ⟨_, mid, moved⟩ | ⟨error, mid, moved⟩
    · have kept := stored.seekFirst mid
      rcases run : inner.seekFirstFrom mid with ⟨_, last, stopped⟩ | ⟨error, last, stopped⟩ <;>
        simp only [leftBy, Action.run, seekFirst, run] at kept ⊢ <;> exact ⟨_, _, rfl, kept⟩
    · exact ⟨_, _, rfl, stored⟩
  | row ordinal => exact moves ordinal
  | pageStart =>
    cases open_ : parts.lengths.page with
    | none =>
      simp only [leftBy, Action.run, SeekCall.runColumn, seekPageStart, open_]
      exact ⟨_, _, rfl, stored⟩
    | some page =>
      have same : SeekCall.pageStart.runColumn (session, array parts inner) =
          seek page.first (session, array parts inner) := by
        simp only [SeekCall.runColumn, seekPageStart, open_, seek]
      rw [leftBy_congr same]
      exact moves page.first

end ColumnCursor

/-- The items of array rows are as many as their places say. -/
def Batch.Level : Batch → Prop
  | array rows items => rows.itemOffset rows.length = items.flatRows.length
  | fixed _ | bytes _ => True

/-- The items of array rows can be counted with 64 bits. -/
def Batch.Countable : Batch → Prop
  | array _ items => items.flatRows.length < 2 ^ 64
  | fixed _ | bytes _ => True

theorem Batch.Kept.countable {batch later : Batch} (kept : batch.Kept later) (countable : later.Countable) :
    batch.Countable := by
  obtain ⟨_, grown⟩ := kept
  exact Nat.lt_of_le_of_lt grown.length_le countable

/-- A call on a cursor on an array column, of which reads append to one batch. -/
inductive ArrayCall where
  | seek (call : SeekCall)
  | read (count : Nat)

namespace ArrayCall

def run : ArrayCall → Action (Session × ColumnCursor × Batch) Unit
  | seek call => onFirstTwo call.runColumn
  | read count => do
    let _ ← ColumnCursor.next count

/-- What is left by calls one after the other. Each of them may fail. -/
def leave (calls : List ArrayCall) (state : Session × ColumnCursor × Batch) : Session × ColumnCursor × Batch :=
  calls.foldl (fun state call => leftBy call.run state) state

/-- A cursor on an array column with stored items, and a batch of array rows over flat items. -/
structure OnArray (state : Session × ColumnCursor × Batch) : Prop where
  cursor : ∃ parts inner, state.2.1 = .array parts inner ∧ inner.Stored
  steady : state.2.2.Steady

variable {state : Session × ColumnCursor × Batch}

theorem leftBy_read (count : Nat) (state : Session × ColumnCursor × Batch) :
    leftBy (read count).run state = leftBy (ColumnCursor.next count) state := by
  rw [run, leftBy_bind]
  cases found : ColumnCursor.next count state with
  | ok read after => exact (leftBy_ok found).symm
  | error error after => exact (leftBy_error found).symm

/-- A call leaves what was there, whatever it comes to. -/
theorem OnArray.call (on : OnArray state) (call : ArrayCall) :
    OnArray (leftBy call.run state) ∧ state.2.2.Kept (leftBy call.run state).2.2 := by
  obtain ⟨session, cursor, batch⟩ := state
  obtain ⟨⟨parts, inner, rfl, stored⟩, steady⟩ := on
  cases call with
  | seek call =>
    have moves : (seek call).run (session, .array parts inner, batch) =
        rewrap (fun moved => (moved.1, moved.2, batch)) (call.runColumn (session, .array parts inner)) := rfl
    rw [leftBy_rewrap moves]
    exact ⟨⟨ColumnCursor.leftBy_seek_array call session parts stored, steady⟩, steady.kept_refl⟩
  | read count =>
    rw [leftBy_read]
    obtain @⟨rows, items, fenced, flat⟩ := steady
    have spec := ColumnCursor.next_array_spec session parts stored fenced flat count
    cases found : ColumnCursor.next count (session, .array parts inner, .array rows items) with
    | ok read after =>
      rw [found] at spec
      obtain ⟨parts', inner', rows', items', _, _, left, stored', _, _, steady, kept⟩ := spec
      rw [leftBy_ok found, left]
      exact ⟨⟨⟨parts', inner', congrArg Prod.fst left, stored'⟩, left ▸ steady⟩, kept⟩
    | error error after =>
      rw [found] at spec
      obtain ⟨parts', inner', rows', items', left, stored', steady, kept⟩ := spec
      rw [leftBy_error found, left]
      exact ⟨⟨⟨parts', inner', congrArg Prod.fst left, stored'⟩, left ▸ steady⟩, kept⟩

theorem OnArray.leave (on : OnArray state) (calls : List ArrayCall) :
    OnArray (leave calls state) ∧ state.2.2.Kept (ArrayCall.leave calls state).2.2 := by
  induction calls generalizing state with
  | nil => exact ⟨on, on.steady.kept_refl⟩
  | cons call rest ih =>
    obtain ⟨mid, kept⟩ := on.call call
    obtain ⟨last, kept'⟩ := ih mid
    exact ⟨last, kept.trans kept'⟩

/-- No read of some calls that fails leaves a level batch in disorder. -/
def KeepsLevel (calls : List ArrayCall) (state : Session × ColumnCursor × Batch) : Prop :=
  ∀ before count after error left, calls = before ++ .read count :: after →
    ColumnCursor.next count (leave before state) = .error error left → (leave before state).2.2.Level →
    left.2.2.Level

theorem OnArray.level_leave (on : OnArray state) (level : state.2.2.Level) {calls : List ArrayCall}
    (kept : KeepsLevel calls state) (countable : (ArrayCall.leave calls state).2.2.Countable) :
    (ArrayCall.leave calls state).2.2.Level := by
  induction calls generalizing state with
  | nil => exact level
  | cons call rest ih =>
    have on' := (on.call call).1
    have few := (on'.leave rest).2.countable countable
    refine ih on' ?_ (fun before count after error left same =>
      kept (call :: before) count after error left (congrArg (call :: ·) same)) countable
    obtain ⟨session, cursor, batch⟩ := state
    obtain ⟨⟨parts, inner, rfl, stored⟩, steady⟩ := on
    cases call with
    | seek call =>
      have moves : (seek call).run (session, .array parts inner, batch) =
          rewrap (fun moved => (moved.1, moved.2, batch)) (call.runColumn (session, .array parts inner)) := rfl
      change (leftBy (seek call).run _).2.2.Level
      rw [leftBy_rewrap moves]
      exact level
    | read count =>
      change (leftBy (read count).run _).2.2.Level
      rw [leftBy_read] at few ⊢
      cases found : ColumnCursor.next count (session, .array parts inner, batch) with
      | error error after =>
        rw [leftBy_error found]
        exact kept [] count rest error after rfl found level
      | ok read after =>
        obtain @⟨rows, items, fenced, flat⟩ := steady
        have spec := ColumnCursor.next_array_spec session parts stored fenced flat count
        rw [found] at spec
        obtain ⟨parts', inner', rows', items', sizes, pulled, left, _, pulls, _⟩ := spec
        rw [leftBy_ok found, left] at few ⊢
        exact pulls.level fenced.some few level

end ArrayCall

/-- A batch that is made for an array column over flat items has no rows yet. -/
theorem Batch.ofColumn_steady {column : ColumnMeta} (type : column.own.type = .array)
    (flat : ∀ item ∈ column.children.head?, item.own.type ≠ .array) {fresh : Batch}
    (made : Batch.ofColumn column = .ok fresh) : fresh.Steady ∧ fresh.Level := by
  obtain ⟨own, children⟩ := column
  match children with
  | [] | [_] =>
    unfold ofColumn at made
    simp only [show own.type = .array from type] at made
    cases made
  | item :: measure :: rest =>
    obtain ⟨inner, flags, madeItems, _, rfl, _⟩ := ofColumn_array type rfl made
    obtain ⟨empty, fits, _⟩ := ofColumn_fits (flat item rfl) madeItems
    refine ⟨.array ⟨List.cons_ne_nil _ _, fun fence member => ?_, Nat.le_refl _, rfl⟩ (flat_of_fits fits), ?_⟩
    · obtain rfl := List.mem_singleton.mp member
      exact .inl (Nat.zero_le _)
    · change 0 = inner.flatRows.length
      rw [empty]
      rfl

namespace ArrayCall

open ColumnCursor

/-- Whatever calls on an array cursor have come before a read that succeeds, and whatever calls follow: the rows
that the read has reported hold the places of the items that it has pulled for them exactly if these are as many as
the sizes of the rows say, which 64 bits may not count, and the batch was level before the read, or no items were
wanted. Then the rows are read back as those items. Only a read that fails can leave a batch that is not level, as
long as 64 bits count its items. -/
theorem next_attached_iff {column : ColumnMeta} (type : column.own.type = .array)
    (flat : ∀ item ∈ column.children.head?, item.own.type ≠ .array) {fresh : Batch}
    (made : Batch.ofColumn column = .ok fresh) (session : Session) (parts : ArrayCursor) {inner : ColumnCursor}
    (stored : inner.Stored) (earlier later : List ArrayCall) {count : Nat} {read : RowsRead}
    {after : Session × ColumnCursor × Batch}
    (run : next count (leave earlier (session, .array parts inner, fresh)) = .ok read after) :
    ∃ before parts' inner' rows items rows' items' last lastItems sizes pulled,
      leave earlier (session, .array parts inner, fresh) = (before, .array parts' inner', .array rows items) ∧
      after.2.2 = .array rows' items' ∧
      Pulled before parts' rows items count sizes pulled rows' items' ∧ read.rows = sizes.length ∧
      (leave later after).2.2 = .array last lastItems ∧
      ((∀ row (inside : row < sizes.length), last.places (rows.length + row) =
          .ok (List.range' (items.flatRows.length + total (sizes.take row)) sizes[row])) ↔
        pulled.length = total sizes ∧ ((Batch.array rows items).Level ∨ total sizes = 0)) ∧
      (pulled.length = total sizes ∧ ((Batch.array rows items).Level ∨ total sizes = 0) →
        ∀ row (inside : row < sizes.length), last.itemsOf lastItems (rows.length + row) =
          .ok (((pulled.drop (total (sizes.take row))).take sizes[row]).map some)) ∧
      (KeepsLevel earlier (session, .array parts inner, fresh) → (Batch.array rows items).Countable →
        (Batch.array rows items).Level) := by
  obtain ⟨steady, even⟩ := Batch.ofColumn_steady type flat made
  have start : OnArray (session, .array parts inner, fresh) := ⟨⟨parts, inner, rfl, stored⟩, steady⟩
  obtain ⟨⟨⟨parts', inner', cursor, stored'⟩, steady⟩, _⟩ := start.leave earlier
  have level (kept : KeepsLevel earlier (session, .array parts inner, fresh)) := start.level_leave even kept
  generalize leave earlier (session, .array parts inner, fresh) = reached at *
  obtain ⟨before, moved, batch⟩ := reached
  obtain rfl : moved = .array parts' inner' := cursor
  obtain @⟨rows, items, fenced, itemsFlat⟩ := steady
  have spec := next_array_spec before parts' stored' fenced itemsFlat count
  rw [run] at spec
  obtain ⟨parts'', inner'', rows', items', sizes, pulled, left, stored'', pulls, told, steady', _⟩ := spec
  have on : OnArray after := ⟨⟨parts'', inner'', congrArg Prod.fst left, stored''⟩, left ▸ steady'⟩
  obtain ⟨⟨_, lastSteady⟩, kept⟩ := on.leave later
  have end_ : after.2.2 = .array rows' items' := congrArg Prod.snd left
  rw [end_] at kept
  generalize (leave later after).2.2 = lastBatch at lastSteady kept
  obtain @⟨_, last, _, lastItems, kept, grown⟩ := kept
  -- the rows that the read has reported are finished, so the later calls keep their places
  have places (row : Nat) (inside : row < sizes.length) :
      last.places (rows.length + row) = rows'.places (rows.length + row) := by
    have bounds := pulls.extended.bounds
    rw [if_neg (List.ne_nil_of_length_pos (by omega))] at bounds
    have finished : rows.length + row < rows'.bounds.length := by
      rw [bounds, ArrayRows.length_stretches, pulls.extended.length_eq fenced.some]
      omega
    exact kept.places_eq finished
  have attached (whole : pulled.length = total sizes) (level : (Batch.array rows items).Level ∨ total sizes = 0)
      (row : Nat) (inside : row < sizes.length) : last.places (rows.length + row) =
        .ok (List.range' (items.flatRows.length + total (sizes.take row)) sizes[row]) :=
    (places row inside).trans (pulls.places_of_level fenced.some whole level inside)
  refine ⟨before, parts', inner', rows, items, rows', items', last, lastItems, sizes, pulled, rfl, end_, pulls,
    told, rfl, ⟨fun found => ?_, fun ⟨whole, level⟩ => attached whole level⟩, fun ⟨whole, level⟩ row inside =>
      ?_, level⟩
  · exact pulls.level_of_places fenced fun row inside => (places row inside).symm.trans (found row inside)
  · have within : total (sizes.take row) + sizes[row] ≤ pulled.length := whole ▸ total_take_add_le inside
    obtain ⟨rest, all⟩ := grown
    rw [pulls.items, List.append_assoc] at all
    have there : items.flatRows.length + total (sizes.take row) + sizes[row] ≤ lastItems.flatRows.length := by
      rw [← all, List.length_append, List.length_append]
      omega
    rw [ArrayRows.itemsOf, attached whole level row inside]
    refine congrArg Except.ok ((range'_map_getElem? there).trans ?_)
    rw [← all, ← List.drop_drop, List.drop_left, List.drop_append_of_le_length (by omega),
      List.take_append_of_le_length (by rw [List.length_drop]; omega)]

end ArrayCall

namespace NegativeLength

/-! An array column of two rows. The first one has an item, and the length of the second one is negative. -/

def options : ReaderOptions := { verifyChecksum := false }

def items : LeafReader where
  column := { columnId := 2, type := .integer .tiny, rows := 1, indexes := [.ordinal ⟨41, 34⟩ true] }
  rows := 1
  access := { file := "negative", key := [.items], options }
  coding := .packed 1
  indexes := { ordinal := some (⟨41, 34⟩, true) }

def lengths : LeafReader where
  column := { columnId := 3, type := .integer .int, rows := 2, indexes := [.ordinal ⟨0, 41⟩ true] }
  rows := 2
  access := { file := "negative", key := [.lengths], options }
  coding := .packed 4
  indexes := { ordinal := some (⟨0, 41⟩, true) }

def column : ColumnMeta where
  own := { columnId := 1, type := .array, rows := 2 }
  children := [{ own := items.column }, { own := lengths.column }]

def reader : ColumnReader := .array (.leaf items) lengths none

def fresh : Batch :=
  .array ⟨{ type := .integer .int }, none, []⟩ (.fixed { type := .integer .tiny, width := 1, nullable := false })

/-- The checksums of the pages are left out. -/
def image : Bytes :=
  Page.covered ⟨[1, 0, 0, 0, 255, 255, 255, 255], .data (.ofStored 0 2 0 0)⟩ ++ [0, 0, 0, 0] ++
    (Page.covered ⟨[7], .data (.ofStored 0 1 0 0)⟩ ++ [0, 0, 0, 0])

def session : Session := { store := { image } }

/-- A new cursor and a new batch for the column. -/
def start : Session × ColumnCursor × Batch := (session, .ofReader {} reader, fresh)

theorem created : ColumnReader.create options "negative" column 2 [] = .ok reader := by
  cbv

theorem made : Batch.ofColumn column = .ok fresh := by
  cbv

open ArrayCall in
/-- The first row is read back as its item, although the read behind it fails. -/
theorem first_attached :
    ColumnReader.create options "negative" column 2 [] = .ok reader ∧
      ∃ read after rows items, ColumnCursor.next 1 (leave [.seek .first] start) = .ok read after ∧ read.rows = 1 ∧
        (leave [.read 1, .seek .first] after).2.2 = .array rows items ∧
        rows.itemsOf items 0 = .ok [some (some [7])] := by
  obtain ⟨after, run, rows', room, left⟩ : ∃ after, ColumnCursor.next 1 (leave [.seek .first] start) =
      .ok ⟨1, false⟩ after ∧
      ∃ rows' room, after.2.2 =
        .array rows' (.fixed { type := .integer .tiny, width := 1, nullable := false, room, rows := [some [7]] }) :=
    ⟨_, by cbv, _, _, by cbv⟩
  obtain ⟨here, at_, stored, seeks, last, moved, offsets, lengths, fences⟩ : ∃ here at_ stored,
      leave [.seek .first] start = (here, .array at_ stored, fresh) ∧ ∃ last moved offsets,
        LeafCursor.next 1 (here, at_.lengths, ({ type := .integer .int } : OffsetBuffer)) =
          .ok ⟨1, false⟩ (last, moved, offsets) ∧
        offsets.fences = [0, 1] :=
    ⟨_, _, _, by cbv, _, _, _, by cbv, by cbv⟩
  obtain ⟨_, _, _, rows, items, _, items', last, lastItems, sizes, pulled, same, left', pulls, told, later, _,
      attached, level⟩ :=
    next_attached_iff rfl (by decide) made session _
      (show (ColumnCursor.ofReader {} (.leaf NegativeLength.items)).Stored from trivial) [.seek .first]
      [.read 1, .seek .first] run
  have noRows : Batch.array rows items = fresh := congrArg (fun state => state.2.2) (same.symm.trans seeks)
  have few : (Batch.array rows items).Countable := by
    rw [noRows]
    exact Nat.two_pow_pos 64
  have even : (Batch.array rows items).Level := by
    refine level (fun earlier count rest _ _ parts _ _ => ?_) few
    cases earlier with
    | nil => cases parts
    | cons call earlier => cases earlier <;> cases parts
  cases same.symm.trans seeks
  cases left'.symm.trans left
  obtain rfl : pulled = [some [7]] := pulls.items.symm
  obtain ⟨_, _, _, lengths', fences'⟩ := pulls.lengths
  have pushed := congrArg (fun state => state.2.2.fences) (EStateM.Result.ok.inj (lengths.symm.trans lengths')).2
  obtain rfl : sizes = [1] := List.append_cancel_left (fences'.symm.trans (pushed.symm.trans fences))
  exact ⟨created, _, after, last, lastItems, run, rfl, later, attached ⟨rfl, .inl even⟩ 0 Nat.one_pos⟩

/-- The read of both rows fails, and leaves the length of the first one. The row that is read after that has no
item. -/
theorem failedRead_detaches :
    ColumnReader.create options "negative" column 2 [] = .ok reader ∧ Batch.ofColumn column = .ok fresh ∧
      ∃ before parts inner rows items,
        ArrayCall.leave [.seek .first, .read 2, .seek .first] start =
          (before, .array parts inner, .array rows items) ∧
        rows.length = 1 ∧
        ∃ read after rows' items', ColumnCursor.next 1 (before, .array parts inner, .array rows items) =
          .ok read after ∧
          read.rows = 1 ∧ after.2.2 = .array rows' items' ∧ items'.flatRows = items.flatRows ++ [some [7]] ∧
          rows'.itemsOf items' 1 = .ok [none] :=
  ⟨created, made, _, _, _, _, _, by cbv, by cbv, _, _, _, _, by cbv, by cbv, by cbv, by cbv, by cbv⟩

end NegativeLength

end Columnar
