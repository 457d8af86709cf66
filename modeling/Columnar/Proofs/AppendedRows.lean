import Columnar.ColumnCursor
import Columnar.Proofs.Action
import Columnar.Proofs.NullRuns
import Columnar.Proofs.SinkIntakes

namespace Columnar

namespace Action

variable {σ τ υ ρ α β : Type}

/-- From a state that fits a step changes its rows only by appending some: so many, if it succeeds, as its value
tells. -/
def Adds (fits : σ → Prop) (rows : σ → List ρ) (counts : Nat → α → Prop) (step : Action σ α) : Prop :=
  ∀ state, fits state → match step state with
    | .ok value after => fits after ∧ ∃ more, rows after = rows state ++ more ∧ counts more.length value
    | .error _ after => fits after ∧ rows state <+: rows after

variable {fits : σ → Prop} {rows : σ → List ρ} {counts : Nat → α → Prop} {step : Action σ α}

theorem Adds.of_ok (adds : Adds fits rows counts step) {state after : σ} (fit : fits state) {value : α}
    (run : step state = .ok value after) :
    fits after ∧ ∃ more, rows after = rows state ++ more ∧ counts more.length value := by
  have found := adds state fit
  rwa [run] at found

theorem Adds.of_error (adds : Adds fits rows counts step) {state after : σ} (fit : fits state) {error : Error}
    (run : step state = .error error after) : fits after ∧ rows state <+: rows after := by
  have found := adds state fit
  rwa [run] at found

theorem Adds.imp {other : Nat → α → Prop} (adds : Adds fits rows counts step)
    (weaker : ∀ count value, counts count value → other count value) : Adds fits rows other step := by
  intro state fit
  cases run : step state with
  | ok value after =>
    obtain ⟨fit', more, grown, told⟩ := adds.of_ok fit run
    exact ⟨fit', more, grown, weaker _ _ told⟩
  | error error after => exact adds.of_error fit run

theorem Adds.pure {value : α} (none : counts 0 value) : Adds fits rows counts (pure value) := fun _ fit =>
  ⟨fit, [], (List.append_nil _).symm, none⟩

/-- A step that fails has nothing behind it. -/
theorem Adds.refused (error : Error) (next : α → Action σ β) {counts : Nat → β → Prop} :
    Adds fits rows counts ((throw error : Action σ α) >>= next) := fun state fit =>
  ⟨fit, List.prefix_refl (rows state)⟩

theorem Adds.throw (error : Error) : Adds fits rows counts (throw error : Action σ α) := fun state fit =>
  ⟨fit, List.prefix_refl (rows state)⟩

theorem Adds.get : Adds fits rows (fun count _ => count = 0) (get : Action σ σ) := fun _ fit =>
  ⟨fit, [], (List.append_nil _).symm, rfl⟩

theorem Adds.bind {next : α → Action σ β} {last : Nat → β → Prop} (first : Adds fits rows counts step)
    (later : ∀ count value, counts count value → Adds fits rows (fun more result => last (count + more) result)
      (next value)) :
    Adds fits rows last (step >>= next) := by
  intro state fit
  rw [bind_apply]
  cases run : step state with
  | error error mid => exact first.of_error fit run
  | ok value mid =>
    obtain ⟨fit', more, grown, told⟩ := first.of_ok fit run
    dsimp only
    cases run' : next value mid with
    | error error after =>
      obtain ⟨fits, others, kept⟩ := (later _ _ told).of_error fit' run'
      exact ⟨fits, more ++ others, by rw [← kept, grown, List.append_assoc]⟩
    | ok result after =>
      obtain ⟨fits, others, kept, all⟩ := (later _ _ told).of_ok fit' run'
      exact ⟨fits, more ++ others, by rw [kept, grown, List.append_assoc], by rwa [List.length_append]⟩

/-- A step that appends nothing comes before. -/
theorem Adds.behind {next : α → Action σ β} {last : Nat → β → Prop}
    (first : Adds fits rows (fun count _ => count = 0) step) (later : ∀ value, Adds fits rows last (next value)) :
    Adds fits rows last (step >>= next) := by
  refine first.bind ?_
  rintro count value rfl
  exact (later value).imp fun more _ told => by rwa [Nat.zero_add]

theorem Adds.ite {condition : Prop} [Decidable condition] {other : Action σ α}
    (yes : condition → Adds fits rows counts step) (no : ¬condition → Adds fits rows counts other) :
    Adds fits rows counts (if condition then step else other) := by
  by_cases holds : condition
  · rw [if_pos holds]
    exact yes holds
  · rw [if_neg holds]
    exact no holds

/-- A step on a part of a state that holds all its rows. -/
theorem Adds.rewrap {wrap : σ → τ} {fits' : τ → Prop} {rows' : τ → List ρ} (adds : Adds fits rows counts step)
    {state : σ} {outer : τ} (fit : fits state) (same : rows' outer = rows state)
    (wrapped : ∀ after, fits after → fits' (wrap after) ∧ rows' (wrap after) = rows after) :
    match (Action.rewrap wrap (step state) : EStateM.Result Error τ α) with
    | .ok value after => fits' after ∧ ∃ more, rows' after = rows' outer ++ more ∧ counts more.length value
    | .error _ after => fits' after ∧ rows' outer <+: rows' after := by
  cases run : step state with
  | ok value after =>
    obtain ⟨fit', more, grown, told⟩ := adds.of_ok fit run
    obtain ⟨fits, shown⟩ := wrapped after fit'
    exact ⟨fits, more, by rw [shown, grown, same], told⟩
  | error error after =>
    obtain ⟨fit', kept⟩ := adds.of_error fit run
    obtain ⟨fits, shown⟩ := wrapped after fit'
    exact ⟨fits, by rwa [shown, same]⟩

theorem Adds.onSecond (adds : Adds fits rows counts step) :
    Adds (fun state : τ × σ => fits state.2) (fun state => rows state.2) counts (onSecond step) := fun _ fit =>
  adds.rewrap fit rfl fun _ fit => ⟨fit, rfl⟩

/-- A step beside the rows. -/
theorem Adds.onFirst (step : Action τ α) :
    Adds (fun state : τ × σ => fits state.2) (fun state => rows state.2) (fun count _ => count = 0)
      (onFirst step) := by
  rintro ⟨first, second⟩ fit
  rw [Action.onFirst]
  cases step first with
  | ok value after => exact ⟨fit, [], (List.append_nil _).symm, rfl⟩
  | error error after => exact ⟨fit, List.prefix_refl _⟩

theorem Adds.onFirstTwo (step : Action (τ × υ) α) :
    Adds (fun state : τ × υ × σ => fits state.2.2) (fun state => rows state.2.2) (fun count _ => count = 0)
      (onFirstTwo step) := by
  rintro ⟨first, second, third⟩ fit
  rw [Action.onFirstTwo]
  cases step (first, second) with
  | ok value after => exact ⟨fit, [], (List.append_nil _).symm, rfl⟩
  | error error after => exact ⟨fit, List.prefix_refl _⟩

end Action

open Columnar.Action

/-- A sink into which rows are only appended, as many as are told. At once come no more than a page can have. -/
structure Sink.Appends {σ ρ : Type} [Sink σ] (fits : σ → Prop) (rows : σ → List ρ) : Prop where
  fixed : ∀ values count, count < 2 ^ 32 →
    Adds fits rows (fun more _ => more = count) (Sink.pushFixed values count : Action σ Unit)
  bytes : ∀ value, Adds fits rows (fun more _ => more = 1) (Sink.pushBytes value : Action σ Unit)
  nulls : ∀ count, count < 2 ^ 32 → Adds fits rows (fun more _ => more = count)
    (Sink.pushNulls count : Action σ Unit)

theorem Bytes.length_pieces (width count : Nat) (values : Bytes) :
    (Bytes.pieces width count values).length = count := by
  induction count generalizing values with
  | zero => rfl
  | succ count ih => rw [Bytes.pieces, List.length_cons, ih]

/-- The size of values that a page can have fits 64 bits. -/
theorem Bytes.sizeFor_eq {width count : Nat} (narrow : width < 2 ^ 32) (few : count < 2 ^ 32) (values : Bytes) :
    Bytes.sizeFor width count values = count * width := by
  have small : count * width < 2 ^ 64 := Nat.lt_of_lt_of_le (Nat.mul_lt_mul'' few narrow) (by decide)
  rw [Bytes.sizeFor, Nat.mod_eq_of_lt small, ite_self]

section Buffers

/-- The values of a buffer are narrow enough for the size of as many as a page can have. -/
def FixedBuffer.Narrow (buffer : FixedBuffer) : Prop := buffer.width < 2 ^ 32

theorem FixedBuffer.append_adds (more : List (Option Bytes)) {count : Nat} (many : more.length = count) :
    Adds FixedBuffer.Narrow FixedBuffer.rows (fun added _ => added = count) (FixedBuffer.append more) :=
      fun _ narrow =>
  ⟨narrow, more, rfl, many⟩

theorem FixedBuffer.pushFixed_adds (values : Bytes) {count : Nat} (few : count < 2 ^ 32) :
    Adds FixedBuffer.Narrow FixedBuffer.rows (fun added _ => added = count)
      (FixedBuffer.pushFixed values count) := by
  intro buffer narrow
  by_cases enough : count * buffer.width ≤ values.length
  · rw [FixedBuffer.pushFixed_append enough]
    exact FixedBuffer.append_adds _ ((List.length_map ..).trans (Bytes.length_pieces ..)) buffer narrow
  · rw [FixedBuffer.pushFixed, bind_apply, get_apply]
    simp only [Bytes.sizeFor_eq narrow few values, Nat.not_le.mp enough, if_true]
    exact ⟨narrow, List.prefix_refl _⟩

theorem FixedBuffer.pushNulls_adds {count : Nat} (few : count < 2 ^ 32) :
    Adds FixedBuffer.Narrow FixedBuffer.rows (fun added _ => added = count) (FixedBuffer.pushNulls count) := by
  intro buffer narrow
  cases nullable : buffer.nullable with
  | true =>
    rw [FixedBuffer.pushNulls_append nullable (Room.cut_eq_none (Nat.lt_trans few (by decide)))]
    exact FixedBuffer.append_adds _ List.length_replicate buffer narrow
  | false =>
    rw [FixedBuffer.pushNulls_refused nullable]
    exact ⟨narrow, List.prefix_refl _⟩

theorem FixedBuffer.appends : Sink.Appends FixedBuffer.Narrow FixedBuffer.rows where
  fixed values _ few := FixedBuffer.pushFixed_adds values few
  bytes value := by
    change Adds _ _ _ (FixedBuffer.pushBytes value)
    refine Adds.get.behind fun buffer => .ite (fun _ => .refused _ _) fun _ => ?_
    exact FixedBuffer.append_adds _ rfl
  nulls _ few := FixedBuffer.pushNulls_adds few

theorem BytesBuffer.pushNulls_adds {count : Nat} (few : count < 2 ^ 32) :
    Adds (fun _ => True) BytesBuffer.rows (fun added _ => added = count) (BytesBuffer.pushNulls count) := by
  intro buffer _
  cases nullable : buffer.nullable with
  | true =>
    rw [BytesBuffer.pushNulls_append nullable (Room.cut_eq_none (Nat.lt_trans few (by decide)))]
    exact ⟨trivial, _, rfl, List.length_replicate⟩
  | false =>
    rw [BytesBuffer.pushNulls_refused nullable]
    exact ⟨trivial, List.prefix_refl _⟩

theorem BytesBuffer.appends : Sink.Appends (fun _ => True) BytesBuffer.rows where
  fixed values count _ := by
    change Adds _ _ _ (BytesBuffer.pushFixed values count)
    exact Adds.get.behind fun _ => .throw _
  bytes value := fun _ _ => ⟨trivial, _, rfl, List.length_replicate⟩
  nulls _ few := BytesBuffer.pushNulls_adds few

theorem OffsetBuffer.append_adds (lengths : List Nat) {count : Nat} (many : lengths.length = count) :
    Adds (fun _ => True) OffsetBuffer.fences (fun added _ => added = count) (OffsetBuffer.append lengths) :=
      fun _ _ =>
  ⟨trivial, lengths, rfl, many⟩

theorem OffsetBuffer.pushFixed_adds (values : Bytes) {count : Nat} (few : count < 2 ^ 32) :
    Adds (fun _ => True) OffsetBuffer.fences (fun added _ => added = count)
      (OffsetBuffer.pushFixed values count) := by
  refine Adds.get.behind fun buffer => .ite (fun _ => .refused _ _) fun enough => ?_
  have narrow : buffer.width < 2 ^ 32 := by
    unfold OffsetBuffer.width
    split <;> decide
  rw [Bytes.sizeFor_eq narrow few, Nat.not_lt] at enough
  have there : min count (values.length / buffer.width) = count :=
    Nat.min_eq_left ((Nat.le_div_iff_mul_le (OffsetBuffer.widthOf_pos buffer.type)).mpr enough)
  rw [there]
  refine (OffsetBuffer.append_adds _ rfl).bind ?_
  rintro _ _ rfl
  refine .ite (fun _ => .throw _) fun none => .pure ?_
  -- without a negative length all are taken
  rw [Bool.not_eq_true, List.any_eq_false] at none
  have all := List.takeWhile_eq_self_iff.mpr fun length member =>
    decide_eq_true (Int.not_lt.mp fun below => none length member (decide_eq_true below))
  rw [List.length_map, all, List.length_map, Bytes.length_pieces, Nat.add_zero]

theorem OffsetBuffer.appends : Sink.Appends (fun _ => True) OffsetBuffer.fences where
  fixed values _ few := OffsetBuffer.pushFixed_adds values few
  bytes _ := .throw _
  nulls _ _ := .throw _

/-- A batch for a column that is not an array. -/
def Batch.Flat : Batch → Prop
  | fixed buffer => buffer.Narrow
  | bytes _ => True
  | array .. => False

theorem Batch.flat_of_fits {type : ColumnType} {nullable : Bool} {batch : Batch}
    (fits : (intake type nullable).Fits batch) : batch.Flat := by
  unfold intake at fits
  split at fits
  · rename_i width size
    obtain ⟨buffer, ⟨_, rfl, _⟩, rfl⟩ := fits
    exact Nat.lt_of_le_of_lt (ColumnType.fixedSize_le size) (by decide)
  · obtain ⟨buffer, _, rfl⟩ := fits
    trivial

theorem Batch.Flat.length_eq {batch : Batch} (flat : batch.Flat) : batch.length = batch.flatRows.length := by
  cases batch with
  | fixed buffer | bytes buffer => rfl
  | array rows items => exact flat.elim

theorem Batch.appends : Sink.Appends Batch.Flat Batch.flatRows := by
  have rows {counts : Nat → Unit → Prop} {fixedStep : Action FixedBuffer Unit} {bytesStep : Action BytesBuffer Unit}
      (arrayStep : Action ArrayRows Unit) (one : Adds FixedBuffer.Narrow FixedBuffer.rows counts fixedStep)
      (other : Adds (fun _ => True) BytesBuffer.rows counts bytesStep) :
      Adds Batch.Flat Batch.flatRows counts (onRows fixedStep bytesStep arrayStep) := by
    rintro (buffer | buffer | ⟨rows, items⟩) flat
    · exact one.rewrap flat rfl fun _ narrow => ⟨narrow, rfl⟩
    · exact other.rewrap trivial rfl fun _ _ => ⟨trivial, rfl⟩
    · exact flat.elim
  exact {
    fixed := fun values count few =>
      rows _ (FixedBuffer.appends.fixed values count few) (BytesBuffer.appends.fixed values count few)
    bytes := fun value => rows _ (FixedBuffer.appends.bytes value) (BytesBuffer.appends.bytes value)
    nulls := fun count few => rows _ (FixedBuffer.appends.nulls count few) (BytesBuffer.appends.nulls count few) }

end Buffers

section Reading

variable {σ ρ : Type} [Sink σ] {fits : σ → Prop} {rows : σ → List ρ} (appends : Sink.Appends fits rows)

include appends

theorem Sink.pushAll_adds (stored : List Bytes) :
    Adds fits rows (fun added _ => added = stored.length) (Sink.pushAll stored : Action σ Unit) := by
  induction stored with
  | nil => exact .pure rfl
  | cons first rest ih =>
    refine (appends.bytes first).bind ?_
    rintro _ _ rfl
    exact ih.imp fun more _ told => by rw [told, List.length_cons, Nat.add_comm]

namespace ValueCursor

theorem pushWords_adds (dictionary : Dictionary) (codes : List Nat) :
    Adds fits rows (fun added _ => added = codes.length) (pushWords dictionary codes : Action σ Unit) := by
  induction codes with
  | nil => exact .pure rfl
  | cons code rest ih =>
    rw [pushWords]
    cases dictionary.words[code]? with
    | none => exact .throw _
    | some word =>
      refine (appends.bytes word).bind ?_
      rintro _ _ rfl
      exact ih.imp fun more _ told => by rw [told, List.length_cons, Nat.add_comm]

/-- Values that are there are appended as many as are asked for. -/
theorem push_adds (values : PageValues) {index count : Nat} (within : count ≤ values.count - index)
    (few : count < 2 ^ 32) :
    Adds fits rows (fun added _ => added = count) (push values index count : Action σ Unit) := by
  cases values with
  | packed width data => exact appends.fixed _ count few
  | flags values => exact appends.fixed _ count few
  | strings values =>
    have many : ((values.drop index).take count).length = count := by
      rw [List.length_take, List.length_drop]
      exact Nat.min_eq_left within
    exact (Sink.pushAll_adds appends _).imp fun added _ told => told.trans many
  | coded codes dictionary =>
    have many : ((codes.drop index).take count).length = count := by
      rw [List.length_take, List.length_drop]
      exact Nat.min_eq_left within
    exact (pushWords_adds appends dictionary _).imp fun added _ told => told.trans many

theorem next_adds {count : Nat} (few : count < 2 ^ 32) : Adds (fun state : ValueCursor × σ => fits state.2)
    (fun state => rows state.2) (fun added found => added = found) (next count) := by
  refine Adds.get.behind fun state => ?_
  have pushes : Adds (fun state : ValueCursor × σ => fits state.2) (fun state => rows state.2)
      (fun added _ => added = min count (state.1.count - state.1.index))
      (onSecond (push state.1.values state.1.index (min count (state.1.count - state.1.index)))) :=
    (push_adds appends state.1.values (Nat.min_le_right count _)
      (Nat.lt_of_le_of_lt (Nat.min_le_left ..) few)).onSecond
  have moves (index : Nat) : Adds (fun state : ValueCursor × σ => fits state.2) (fun state => rows state.2)
      (fun added _ => added = 0) (moveTo index) := .onFirst _
  dsimp only
  split
  · exact (moves _).behind fun _ => pushes.bind fun _ _ told => .pure told
  · exact pushes.bind fun _ _ told => (moves _).bind fun _ _ none => .pure (by rw [told, none, Nat.add_zero])

end ValueCursor

namespace DataPage

theorem readValues_adds {count : Nat} (few : count < 2 ^ 32) : Adds (fun state : DataPage × σ => fits state.2)
    (fun state => rows state.2) (fun added _ => added = count) (readValues count) := by
  rintro ⟨page, sink⟩ fit
  have adds := ValueCursor.next_adds appends few
  rw [readValues]
  rcases run : ValueCursor.next count (page.values, sink) with ⟨found, values, filled⟩ | ⟨error, values, filled⟩
  · obtain ⟨fit', more, grown, told⟩ := adds.of_ok fit run
    dsimp only
    by_cases all : found = count
    · rw [if_pos all]
      exact ⟨fit', more, grown, told.trans all⟩
    · rw [if_neg all]
      exact ⟨fit', more, grown.symm⟩
  · exact adds.of_error fit run

theorem readRuns_adds {runs : List NullRun} (few : NullRun.rows runs < 2 ^ 32) :
    Adds (fun state : DataPage × σ => fits state.2) (fun state => rows state.2)
      (fun added _ => added = NullRun.rows runs) (readRuns runs) := by
  induction runs with
  | nil => exact .pure rfl
  | cons run rest ih =>
    have passes : Adds (fun state : DataPage × σ => fits state.2) (fun state => rows state.2)
      (fun added _ => added = 0) (passNulls run.length) := .onFirst _
    have sum : NullRun.rows (run :: rest) = run.length + NullRun.rows rest := rfl
    rw [sum] at few ⊢
    have first : run.length < 2 ^ 32 := Nat.lt_of_le_of_lt (Nat.le_add_right ..) few
    have behind := ih (Nat.lt_of_le_of_lt (Nat.le_add_left ..) few)
    refine passes.behind fun _ => .ite (fun _ => (appends.nulls run.length first).onSecond.bind ?_) fun _ =>
      (readValues_adds appends first).bind ?_
    all_goals
      rintro _ _ rfl
      exact behind.bind fun _ _ behind => .pure (by rw [behind, Nat.add_zero])

theorem next_adds (count : Nat) : Adds (fun state : DataPage × σ => fits state.2) (fun state => rows state.2)
    (fun added read => added = read.rows) (next count) := by
  refine Adds.get.behind fun state => ?_
  have moves (rows' : Nat) (hasNull : Bool) :
      Adds (fun state : DataPage × σ => fits state.2) (fun state => rows state.2)
      (fun added (read : RowsRead) => rows' + added = read.rows) (do
        onFirst (modify fun page => { page with offset := page.offset + rows' })
        return ⟨rows', hasNull⟩ : Action (DataPage × σ) RowsRead) := (Adds.onFirst _).behind fun _ =>
          .pure (Nat.add_zero _)
  have few : min count state.1.remaining < 2 ^ 32 :=
    Nat.lt_of_le_of_lt (Nat.le_trans (Nat.min_le_right ..) (Nat.sub_le ..)) state.1.rows_lt
  dsimp only
  cases state.1.nulls with
  | none =>
    refine (readValues_adds appends few).bind ?_
    rintro _ _ rfl
    exact moves _ _
  | some nulls =>
    have taken := NullRun.rows_take (min count state.1.remaining) nulls.ahead
    refine (readRuns_adds appends (Nat.lt_of_le_of_lt (taken ▸ Nat.min_le_left ..) few)).bind ?_
    rintro _ hasNull rfl
    refine .ite (fun _ => .refused _ _) fun enough => ?_
    have all : NullRun.rows (NullRun.take (min count state.1.remaining) nulls.ahead) =
        min count state.1.remaining :=
      Nat.le_antisymm (taken ▸ Nat.min_le_left ..) (Nat.not_lt.mp enough)
    rw [all]
    exact moves _ _

end DataPage

namespace LeafCursor

theorem readPageRows_adds (count : Nat) :
    Adds (fun state : Session × LeafCursor × σ => fits state.2.2) (fun state => rows state.2.2)
    (fun added read => added = read.rows) (readPageRows count) := by
  rintro ⟨session, cursor, sink⟩ fit
  rw [readPageRows]
  cases cursor.page with
  | none => exact ⟨fit, [], (List.append_nil _).symm, rfl⟩
  | some page => exact (DataPage.next_adds appends count).rewrap fit rfl fun _ fit => ⟨fit, rfl⟩

theorem readRows_adds (steps count : Nat) : Adds (fun state : Session × LeafCursor × σ => fits state.2.2)
    (fun state => rows state.2.2) (fun added read => added = read.rows) (readRows steps count) := by
  induction steps generalizing count with
  | zero => exact .pure rfl
  | succ steps ih =>
    rw [readRows]
    refine .ite (fun _ => .pure rfl) fun _ => (Adds.onFirstTwo hasRow).behind fun more =>
      .ite (fun _ => .pure rfl) fun _ => ?_
    refine (readPageRows_adds appends count).bind ?_
    rintro _ first rfl
    refine (Adds.onFirstTwo _).behind fun _ => (ih _).bind ?_
    rintro _ others rfl
    exact .pure rfl

/-- A read only appends rows, if it succeeds as many as it tells, whatever page the cursor has open. -/
theorem next_adds (count : Nat) : Adds (fun state : Session × LeafCursor × σ => fits state.2.2)
    (fun state => rows state.2.2) (fun added read => added = read.rows) (next count) := by
  refine Adds.get.behind fun state => .ite (fun _ => .refused _ _) fun _ => ?_
  exact readRows_adds appends count count

end LeafCursor

end Reading

/-- A cursor that reads rows of a segment. -/
def ColumnCursor.Stored : ColumnCursor → Prop
  | empty | leaf _ | array .. => True
  | constant _ => False

/-- A read of a flat batch only appends rows, whatever stored rows they are. -/
theorem ColumnCursor.next_adds (count : Nat) : Adds
    (fun state : Session × ColumnCursor × Batch => state.2.1.Stored ∧ state.2.2.Flat)
    (fun state => state.2.2.flatRows) (fun added read => added = read.rows) (next count) := by
  rintro ⟨session, cursor, batch⟩ ⟨stored, flat⟩
  rw [next]
  cases cursor with
  | empty => exact ⟨⟨trivial, flat⟩, [], (List.append_nil _).symm, rfl⟩
  | leaf cursor =>
    exact (LeafCursor.next_adds Batch.appends count).rewrap flat rfl fun _ flat => ⟨⟨trivial, flat⟩, rfl⟩
  | constant cursor => exact stored.elim
  | array parts inner =>
    cases batch with
    | fixed buffer => exact ⟨⟨trivial, flat⟩, List.prefix_refl _⟩
    | bytes buffer => exact ⟨⟨trivial, flat⟩, List.prefix_refl _⟩
    | array rows items => exact flat.elim

end Columnar
