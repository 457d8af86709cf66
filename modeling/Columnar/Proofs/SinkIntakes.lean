import Mathlib.Data.List.TakeWhile
import Columnar.Proofs.Intake
import Columnar.Sink.Batch

namespace Columnar

open Columnar.Action

theorem length_of_mem_pieces {size count : Nat} {values piece : Bytes} (enough : count * size ≤ values.length)
    (member : piece ∈ Bytes.pieces size count values) : piece.length = size := by
  induction count generalizing values with
  | zero => cases member
  | succ count ih =>
    rw [Nat.succ_mul] at enough
    rcases List.mem_cons.mp member with rfl | later
    · rw [List.length_take]
      omega
    · exact ih (by rw [List.length_drop]; omega) later

/-- No value has more than sixteen bytes. -/
theorem ColumnType.fixedSize_le {type : ColumnType} {width : Nat} (size : type.fixedSize? = some width) :
    width ≤ 16 := by
  cases type with
  | integer kind => cases kind <;> cases size <;> decide
  | float kind => cases kind <;> cases size <;> decide
  | boolean | decimal | date | datetime => cases size; decide
  | text kind => cases size
  | array | sketch | object => cases size

theorem mapM_eq_some_map {α β : Type} {f : α → Option β} {g : α → β} {list : List α}
    (each : ∀ value ∈ list, f value = some (g value)) : list.mapM f = some (list.map g) := by
  induction list with
  | nil => rfl
  | cons first rest ih =>
    rw [mapM_cons_some, each first List.mem_cons_self, ih fun value member =>
      each value (List.mem_cons_of_mem _ member)]
    rfl

namespace FixedBuffer

variable {buffer : FixedBuffer} {count : Nat}

/-- Values that are all there are appended. -/
theorem pushFixed_append {values : Bytes} (enough : count * buffer.width ≤ values.length) :
    FixedBuffer.pushFixed values count buffer = append ((Bytes.pieces buffer.width count values).map some)
      buffer := by
  have refused : ¬(buffer.nullable = true ∧ values.length < count * buffer.width) := fun short =>
    Nat.not_lt.mpr enough short.2
  rw [FixedBuffer.pushFixed, bind_apply, get_apply]
  dsimp only
  rw [Bytes.sizeFor_of_le enough, Bytes.countFor_of_le enough, if_neg (Nat.not_lt.mpr enough), if_neg refused]

/-- Values of which some are missing are refused, if the number of their bytes has 64 bits. -/
theorem pushFixed_short {values : Bytes} (short : values.length < count * buffer.width)
    (few : count * buffer.width < 2 ^ 64) :
    FixedBuffer.pushFixed values count buffer =
      .error (.shortValues (count * buffer.width) count buffer.type values.length) buffer := by
  rw [FixedBuffer.pushFixed, bind_apply, get_apply]
  dsimp only
  rw [Bytes.sizeFor_of_lt few, if_pos short]
  rfl

theorem pushNulls_append (nullable : buffer.nullable = true) (grows : Room.cut buffer.rows.length count = none) :
    FixedBuffer.pushNulls count buffer = append (List.replicate count none) buffer := by
  rw [FixedBuffer.pushNulls, bind_apply, get_apply]
  simp only [nullable, grows, Bool.not_true, Bool.false_eq_true, if_false]

theorem pushNulls_refused (nullable : buffer.nullable = false) (count : Nat) :
    FixedBuffer.pushNulls count buffer = .error (.nullsIntoColumn count buffer.type) buffer := by
  rw [FixedBuffer.pushNulls, bind_apply, get_apply]
  simp only [nullable, Bool.not_false, if_true]
  rfl

/-- A buffer takes values of its width, and nulls if it may. -/
def intake (type : ColumnType) (width : Nat) (nullable : Bool) : Intake FixedBuffer (Option Bytes) where
  Fits buffer := buffer.type = type ∧ buffer.width = width ∧ buffer.nullable = nullable
  rows := FixedBuffer.rows
  width := some width
  texts := true
  value stored := if stored.length = width then some (some stored) else none
  null := if nullable then some none else none
  pushFixed := by
    rintro size member buffer ⟨ofType, ofWidth, may⟩ count values length
    cases member
    have pieces :=
      mapM_eq_some_map (f := fun stored : Bytes => if stored.length = width then some (some stored) else none)
      (g := some) fun piece member => if_pos (length_of_mem_pieces (Nat.le_of_eq length.symm) member)
    have run : Sink.pushFixed values count buffer =
        append ((Bytes.pieces buffer.width count values).map some) buffer :=
      pushFixed_append (Nat.le_of_eq (ofWidth ▸ length.symm))
    rw [pieces, run, ofWidth]
    exact ⟨_, rfl, ⟨ofType, ofWidth, may⟩, rfl⟩
  pushBytes := by
    rintro _ buffer ⟨ofType, ofWidth, may⟩ stored
    change Meets (FixedBuffer.pushBytes stored buffer) _ _
    rw [FixedBuffer.pushBytes, bind_apply, get_apply]
    by_cases length : stored.length = width
    · simp only [length, ofWidth, ne_eq, not_true_eq_false, if_false, if_true]
      exact ⟨_, rfl, ⟨ofType, ofWidth, may⟩, rfl⟩
    · simp only [length, ofWidth, ne_eq, not_false_eq_true, if_true, if_false]
      exact rfl
  pushNulls := by
    rintro buffer ⟨ofType, ofWidth, may⟩ count _ few
    change Meets (FixedBuffer.pushNulls count buffer) _ _
    cases nullable with
    | true =>
      rw [pushNulls_append may (Room.cut_eq_none few)]
      exact ⟨_, rfl, ⟨ofType, ofWidth, may⟩, rfl⟩
    | false =>
      rw [pushNulls_refused may count]
      rfl

end FixedBuffer

namespace BytesBuffer

variable {buffer : BytesBuffer} {count : Nat}

theorem pushNulls_append (nullable : buffer.nullable = true) (grows : Room.cut buffer.rows.length count = none) :
    BytesBuffer.pushNulls count buffer =
      .ok () { buffer.reserve count with rows := buffer.rows ++ List.replicate count none } := by
  rw [BytesBuffer.pushNulls, bind_apply, get_apply]
  simp only [nullable, grows, Bool.not_true, Bool.false_eq_true, if_false]
  rfl

theorem pushNulls_refused (nullable : buffer.nullable = false) (count : Nat) :
    BytesBuffer.pushNulls count buffer = .error (.nullsIntoColumn count buffer.type) buffer := by
  rw [BytesBuffer.pushNulls, bind_apply, get_apply]
  simp only [nullable, Bool.not_false, if_true]
  rfl

/-- A buffer takes all byte strings, and nulls if it may. -/
def intake (type : ColumnType) (nullable : Bool) : Intake BytesBuffer (Option Bytes) where
  Fits buffer := buffer.type = type ∧ buffer.nullable = nullable
  rows := BytesBuffer.rows
  width := none
  texts := true
  value stored := some (some stored)
  null := if nullable then some none else none
  pushFixed := by
    intro _ member
    cases member
  pushBytes := by
    rintro _ buffer fits stored
    exact ⟨_, rfl, fits, rfl⟩
  pushNulls := by
    rintro buffer ⟨ofType, may⟩ count _ few
    change Meets (BytesBuffer.pushNulls count buffer) _ _
    cases nullable with
    | true =>
      rw [pushNulls_append may (Room.cut_eq_none few)]
      exact ⟨_, rfl, ⟨ofType, may⟩, rfl⟩
    | false =>
      rw [pushNulls_refused may count]
      rfl

end BytesBuffer

namespace OffsetBuffer

/-- The stored width of a length. -/
def widthOf (type : ColumnType) : Nat := if type = .integer .big then 8 else 4

theorem widthOf_pos (type : ColumnType) : 0 < widthOf type := by
  unfold widthOf
  split <;> decide

theorem widthOf_ne_one (type : ColumnType) : widthOf type ≠ 1 := by
  unfold widthOf
  split <;> decide

/-- A stored length as it is taken. -/
def lengthOf? (type : ColumnType) (stored : Bytes) : Option Nat :=
  if 0 ≤ lengthOf type stored then some (lengthOf type stored).toNat else none

theorem pushFixed_meets (buffer : OffsetBuffer) {count : Nat} {values : Bytes}
    (length : values.length = count * widthOf buffer.type) :
    Meets (OffsetBuffer.pushFixed values count buffer)
      ((Bytes.pieces (widthOf buffer.type) count values).mapM (lengthOf? buffer.type))
      fun more _ after => after.type = buffer.type ∧ after.fences = buffer.fences ++ more := by
  have width : buffer.width = widthOf buffer.type := rfl
  have size : Bytes.sizeFor (widthOf buffer.type) count values = values.length :=
    (Bytes.sizeFor_of_le (Nat.le_of_eq length.symm)).trans length.symm
  have there : min count (values.length / widthOf buffer.type) = count := by
    rw [length, Nat.mul_div_cancel _ (widthOf_pos buffer.type), Nat.min_self]
  rw [OffsetBuffer.pushFixed, bind_apply, get_apply]
  simp only [width, size, there, Nat.lt_irrefl, if_false]
  generalize Bytes.pieces (widthOf buffer.type) count values = pieces
  by_cases negative : ∃ piece ∈ pieces, lengthOf buffer.type piece < 0
  · obtain ⟨piece, member, below⟩ := negative
    have refused : lengthOf? buffer.type piece = none := if_neg (Int.not_le.mpr below)
    have found : (pieces.map (lengthOf buffer.type)).any (· < 0) = true :=
      List.any_eq_true.mpr ⟨_, List.mem_map_of_mem member, decide_eq_true below⟩
    rw [mapM_eq_none_of_mem _ member refused]
    simp only [found, if_true, bind_apply, append, modify_apply, throw_apply]
    exact rfl
  · have none : (pieces.map (lengthOf buffer.type)).any (· < 0) = false := by
      simpa using negative
    have all : (pieces.map (lengthOf buffer.type)).takeWhile (0 ≤ ·) = pieces.map (lengthOf buffer.type) := by
      rw [List.takeWhile_eq_self_iff]
      simpa using negative
    rw [mapM_eq_some_map (f := lengthOf? buffer.type) (g := fun stored => (lengthOf buffer.type stored).toNat)
      fun piece member => if_pos (Int.not_lt.mp fun below => negative ⟨piece, member, below⟩)]
    simp only [none, all, Bool.false_eq_true, if_false, bind_apply, append, modify_apply, pure_apply, List.map_map]
    exact ⟨_, rfl, rfl, rfl⟩

/-- Lengths that are not negative are taken. -/
def intake (type : ColumnType) : Intake OffsetBuffer Nat where
  Fits buffer := buffer.type = type
  rows := OffsetBuffer.fences
  width := some (widthOf type)
  texts := false
  value := lengthOf? type
  null := none
  pushFixed := by
    rintro size member buffer rfl count values length
    cases member
    exact pushFixed_meets buffer length
  pushBytes := by
    intro texts
    cases texts
  pushNulls := fun _ _ _ _ _ => rfl

end OffsetBuffer

namespace Intake

variable {σ τ ρ : Type} [Sink σ] [Sink τ]

/-- A sink inside another one. -/
def wrapped (intake : Intake σ ρ) (wrap : σ → τ) (view : τ → List ρ)
    (shown : ∀ sink, view (wrap sink) = intake.rows sink)
    (fixed : ∀ values count sink, Sink.pushFixed values count (wrap sink) =
      rewrap wrap (Sink.pushFixed values count sink))
    (bytes : ∀ stored sink, Sink.pushBytes stored (wrap sink) = rewrap wrap (Sink.pushBytes stored sink))
    (nulls : ∀ count sink, Sink.pushNulls count (wrap sink) = rewrap wrap (Sink.pushNulls count sink)) :
    Intake τ ρ where
  Fits outer := ∃ sink, intake.Fits sink ∧ wrap sink = outer
  rows := view
  width := intake.width
  texts := intake.texts
  value := intake.value
  null := intake.null
  pushFixed := by
    rintro size member _ ⟨sink, fits, rfl⟩ count values length
    rw [fixed]
    refine (intake.pushFixed size member sink fits count values length).rewrap _ _ fun more _ after grown => ?_
    exact ⟨⟨after, grown.1, rfl⟩, by rw [shown, shown, grown.2]⟩
  pushBytes := by
    rintro texts _ ⟨sink, fits, rfl⟩ stored
    rw [bytes]
    refine (intake.pushBytes texts sink fits stored).rewrap _ _ fun row _ after grown => ?_
    exact ⟨⟨after, grown.1, rfl⟩, by rw [shown, shown, grown.2]⟩
  pushNulls := by
    rintro _ ⟨sink, fits, rfl⟩ count positive few
    rw [nulls]
    refine (intake.pushNulls sink fits count positive few).rewrap _ _ fun row _ after grown => ?_
    exact ⟨⟨after, grown.1, rfl⟩, by rw [shown, shown, grown.2]⟩

end Intake

namespace Batch

/-- The rows of a flat column. -/
def flatRows : Batch → List (Option Bytes)
  | fixed buffer => buffer.rows
  | bytes buffer => buffer.rows
  | array .. => []

/-- A batch for the rows of a flat column. -/
def intake (type : ColumnType) (nullable : Bool) : Intake Batch (Option Bytes) :=
  match type.fixedSize? with
  | some width =>
    (FixedBuffer.intake type width nullable).wrapped fixed flatRows (fun _ => rfl) (fun _ _ _ => rfl)
      (fun _ _ => rfl) (fun _ _ => rfl)
  | none =>
    (BytesBuffer.intake type nullable).wrapped bytes flatRows (fun _ => rfl) (fun _ _ _ => rfl) (fun _ _ => rfl)
      (fun _ _ => rfl)

theorem intake_eq_fixed {type : ColumnType} {nullable : Bool} {width : Nat} (size : type.fixedSize? = some width) :
    intake type nullable = (FixedBuffer.intake type width nullable).wrapped fixed flatRows (fun _ => rfl)
      (fun _ _ _ => rfl) (fun _ _ => rfl) (fun _ _ => rfl) := by
  simp only [intake, size]

theorem intake_eq_bytes {type : ColumnType} {nullable : Bool} (size : type.fixedSize? = none) :
    intake type nullable = (BytesBuffer.intake type nullable).wrapped bytes flatRows (fun _ => rfl)
      (fun _ _ _ => rfl) (fun _ _ => rfl) (fun _ _ => rfl) := by
  simp only [intake, size]

theorem intake_rows (type : ColumnType) (nullable : Bool) : (intake type nullable).rows = flatRows := by
  unfold intake
  split <;> rfl

end Batch

end Columnar
