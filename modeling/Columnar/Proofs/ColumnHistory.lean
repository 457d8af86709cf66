import Columnar.Proofs.LeafHistory
import Columnar.Proofs.UniformColumns

namespace Columnar

open Columnar.Action Session

def SeekCall.runColumn : SeekCall → Action (Session × ColumnCursor) Unit
  | first => ColumnCursor.seekFirst
  | row ordinal => ColumnCursor.seek ordinal
  | pageStart => ColumnCursor.seekPageStart

/-- The cursor on the null flags of an array column belongs to their leaf, where the column has any. -/
def ArrayCursor.FlagsBelong (image : Bytes) (flags : Option LeafReader) (cursor : ArrayCursor) : Prop :=
  Option.Rel (fun reader cursor => LeafCursor.Belongs image reader cursor) flags cursor.flags

/-- The leaf cursors of an array cursor belong to the leaves of its column. -/
structure ArrayCursor.Belongs (image : Bytes) (lengths : LeafReader) (flags : Option LeafReader)
    (cursor : ArrayCursor) : Prop where
  lengths : cursor.lengths.Belongs image lengths
  flags : cursor.FlagsBelong image flags

/-- The leaf cursors of a cursor belong to the leaves of a column. -/
inductive ColumnCursor.Belongs (image : Bytes) : ColumnReader → ColumnCursor → Prop
  | empty {reader : ColumnReader} (none : reader.rows = 0) : Belongs image reader empty
  | leaf {reader : LeafReader} {cursor : LeafCursor} (belongs : cursor.Belongs image reader) :
    Belongs image (.leaf reader) (leaf cursor)
  | array {items : ColumnReader} {lengths : LeafReader} {flags : Option LeafReader} {cursor : ArrayCursor}
    {inner : ColumnCursor} (belongs : cursor.Belongs image lengths flags) (inside : Belongs image items inner) :
    Belongs image (.array items lengths flags) (array cursor inner)

namespace ArrayCursor

variable {image : Bytes} {readers : List LeafReader} {lengths : LeafReader} {flags : Option LeafReader}
  {kind : StoreKind} {condition : LeafReader → Loaded → Prop}

/-- The session holds what has been loaded, and the leaf cursors belong to their leaves. -/
def Sound (kind : StoreKind) (condition : LeafReader → Loaded → Prop) (image : Bytes) (readers : List LeafReader)
    (lengths : LeafReader) (flags : Option LeafReader) (state : Session × ArrayCursor) : Prop :=
  LeafCursor.Sound kind condition image readers lengths (state.1, state.2.lengths) ∧ state.2.FlagsBelong image flags

theorem Sound.belongs {state : Session × ArrayCursor}
    (sound : Sound kind condition image readers lengths flags state) :
    state.2.Belongs image lengths flags := ⟨sound.1.belongs, sound.2⟩

theorem Belongs.sound {session : Session} {cursor : ArrayCursor} (belongs : cursor.Belongs image lengths flags)
    (holds : Holds kind condition image readers session) :
    Sound kind condition image readers lengths flags (session, cursor) :=
  ⟨⟨holds, belongs.lengths.reader_eq, belongs.lengths.held⟩, belongs.flags⟩

/-- A step on the lengths keeps what holds for them and what does not depend on them. -/
theorem preserves_onLengths {α : Type} {holds : Session × LeafCursor → Prop} (also : ArrayCursor → Prop)
    (apart : ∀ cursor lengths, also cursor → also { cursor with lengths }) {step : Action (Session × LeafCursor) α}
    (kept : Preserves holds step) :
    Preserves (fun state => holds (state.1, state.2.lengths) ∧ also state.2) (onLengths step) := by
  rintro ⟨session, cursor⟩ ⟨held, kept'⟩
  have moves : onLengths step (session, cursor) =
      rewrap (fun moved => (moved.1, { cursor with lengths := moved.2 })) (step (session, cursor.lengths)) := rfl
  rw [leftBy_rewrap moves]
  exact ⟨kept (session, cursor.lengths) held, apart cursor _ kept'⟩

/-- The items before a row are counted with steps on the lengths alone. -/
theorem preserves_itemsBefore {holds : Session × LeafCursor → Prop} (also : ArrayCursor → Prop)
    (apart : ∀ cursor lengths, also cursor → also { cursor with lengths })
    (starts : Preserves holds LeafCursor.seekPageStart)
    (reads : ∀ count, Preserves (fun state : Session × LeafCursor × OffsetBuffer => holds (state.1, state.2.1))
      (LeafCursor.next count)) (ordinal : Nat) :
    Preserves (fun state => holds (state.1, state.2.lengths) ∧ also state.2) (itemsBefore ordinal) := by
  rintro ⟨session, cursor⟩ kept
  rw [itemsBefore, leftBy_bind, get_apply]
  dsimp only
  cases cursor.lengths.page with
  | none => exact kept
  | some page =>
    dsimp only
    split
    · exact kept
    · refine (?_ : Preserves (fun state => holds (state.1, state.2.lengths) ∧ also state.2) _)
        (session, cursor) kept
      refine (Preserves.lift _).bind fun buffer => ?_
      refine (preserves_onLengths also apart starts).bind fun _ => (preserves_onLengths also apart ?_).bind
        fun found => ?_
      · rintro ⟨session, cursor⟩ held
        have after := reads (ordinal - page.first) (session, cursor, buffer) held
        simp only [leftBy, Action.run] at after ⊢
        cases run : LeafCursor.next (ordinal - page.first) (session, cursor, buffer) <;>
          simpa only [run] using after
      · split
        · exact Preserves.lift (.error _)
        · exact Preserves.pure _

theorem preserves_onFlags {step : Action (Session × LeafCursor) Unit}
    (kept : ∀ reader ∈ flags, Preserves (LeafCursor.Sound kind condition image readers reader) step) :
    Preserves (Sound kind condition image readers lengths flags) (onFlags step) := by
  rintro ⟨session, cursor⟩ ⟨sound, flagged⟩
  dsimp only at sound flagged
  cases held : cursor.flags with
  | none =>
    have stays : onFlags step (session, cursor) = .ok () (session, cursor) := by simp only [onFlags, held]
    rw [leftBy_ok stays]
    exact ⟨sound, flagged⟩
  | some stored =>
    have moves : onFlags step (session, cursor) =
        rewrap (fun moved => (moved.1, { cursor with flags := some moved.2 })) (step (session, stored)) := by
      simp only [onFlags, held]
    rw [FlagsBelong, held] at flagged
    cases flagged with
    | @some reader _ there =>
      have after := kept reader rfl (session, stored) ⟨sound.holds, there.reader_eq, there.held⟩
      rw [leftBy_rewrap moves]
      exact ⟨⟨after.holds, sound.reader_eq, sound.held⟩, .some after.belongs⟩

section Calls

variable (member : lengths ∈ readers) (members : ∀ reader ∈ flags, reader ∈ readers)
  (told : ∀ reader ∈ readers, reader.ToldOrdinal image (condition reader))
  (told' : ∀ reader ∈ readers, reader.ToldWords image (condition reader))

include member members told told'

theorem preserves_seekFirst : Preserves (Sound kind condition image readers lengths flags) seekFirst :=
  (preserves_onLengths (FlagsBelong image flags) (fun _ _ flagged => flagged)
    (LeafCursor.preserves_seekCall member (told _ member) (told' _ member) .first)).bind fun _ =>
    preserves_onFlags fun reader held =>
      LeafCursor.preserves_seekCall (members reader held) (told _ (members reader held))
      (told' _ (members reader held)) .first

theorem preserves_seek (ordinal : Nat) :
    Preserves (Sound kind condition image readers lengths flags) (seek ordinal) := by
  refine (preserves_onLengths (FlagsBelong image flags) (fun _ _ flagged => flagged)
    (LeafCursor.preserves_seek member (told _ member) (told' _ member) ordinal)).bind fun _ => ?_
  refine (preserves_onFlags fun reader held =>
    LeafCursor.preserves_seek (members reader held) (told _ (members reader held))
    (told' _ (members reader held)) ordinal).bind fun _ => ?_
  rintro ⟨session, cursor⟩ sound
  rw [leftBy_bind, get_apply]
  dsimp only
  split
  · exact sound
  · exact preserves_itemsBefore (FlagsBelong image flags) (fun _ _ flagged => flagged)
      (LeafCursor.preserves_seekCall member (told _ member) (told' _ member) .pageStart)
      (LeafCursor.preserves_next member (told _ member) (told' _ member)) ordinal _ sound

end Calls

end ArrayCursor

namespace ColumnCursor

variable {image : Bytes} {readers : List LeafReader} {reader : ColumnReader} {kind : StoreKind}
  {condition : LeafReader → Loaded → Prop}

/-- The session holds what has been loaded, and the leaf cursors belong to the leaves. -/
structure Sound (kind : StoreKind) (condition : LeafReader → Loaded → Prop) (image : Bytes)
    (readers : List LeafReader) (reader : ColumnReader) (state : Session × ColumnCursor) : Prop where
  holds : Holds kind condition image readers state.1
  belongs : state.2.Belongs image reader

theorem ofReader_belongs (options : CursorOptions) (reader : ColumnReader) :
    (ofReader options reader).Belongs image reader := by
  induction reader with
  | leaf reader =>
    rw [ofReader]
    by_cases none : reader.rows = 0
    · rw [if_pos none]
      exact .empty none
    · rw [if_neg none]
      exact .leaf ⟨rfl, LeafCursor.held_none⟩
  | array items lengths flags ih =>
    rw [ofReader]
    by_cases none : lengths.rows = 0
    · rw [if_pos none]
      exact .empty none
    · rw [if_neg none]
      refine .array ⟨⟨rfl, LeafCursor.held_none⟩, ?_⟩ ih
      cases flags with
      | none => exact .none
      | some reader => exact .some ⟨rfl, LeafCursor.held_none⟩

/-- A seek of an array column moves the cursors on its rows and then the one on its items. -/
theorem sound_of_parts {items : ColumnReader} {lengths : LeafReader} {flags : Option LeafReader}
    {cursor : ArrayCursor} {inner : ColumnCursor} {session : Session} {α : Type}
    {outer : Action (Session × ArrayCursor) α} {rest : α → Action (Session × ColumnCursor) Unit} (ordinal : Nat)
    {step : Action (Session × ColumnCursor) Unit}
    (parts : step (session, array cursor inner) = match outer (session, cursor) with
      | .error error (session, cursor) => .error error (session, array cursor inner)
      | .ok value (session, cursor) =>
        match rest value (session, inner) with
        | .error error (session, items) => .error error (session, array cursor items)
        | .ok _ (session, items) => .ok () (session, array { cursor with ordinal } items))
    (sound : ArrayCursor.Sound kind condition image readers lengths flags (leftBy outer (session, cursor)))
    (inside : inner.Belongs image items)
    (sounds : ∀ value mid, Holds kind condition image readers mid →
      Sound kind condition image readers items (leftBy (rest value) (mid, inner))) :
    Sound kind condition image readers (.array items lengths flags)
      (leftBy step (session, array cursor inner)) := by
  rcases run : outer (session, cursor) with ⟨value, mid, moved⟩ | ⟨error, mid, moved⟩
  · rw [leftBy_ok run] at sound
    have last := sounds value mid sound.1.holds
    simp only [run] at parts
    rcases after : rest value (mid, inner) with ⟨_, last', stopped⟩ | ⟨error, last', stopped⟩
    · simp only [after] at parts
      rw [leftBy_ok after] at last
      rw [leftBy_ok parts]
      exact ⟨last.holds, .array ⟨sound.belongs.lengths, sound.belongs.flags⟩ last.belongs⟩
    · simp only [after] at parts
      rw [leftBy_error after] at last
      rw [leftBy_error parts]
      exact ⟨last.holds, .array sound.belongs last.belongs⟩
  · simp only [run] at parts
    rw [leftBy_error run] at sound
    rw [leftBy_error parts]
    exact ⟨sound.1.holds, .array sound.belongs inside⟩

/-- A cursor is like itself where its leaf cursors belong to the leaves. -/
theorem Belongs.alike {cursor : ColumnCursor} (belongs : cursor.Belongs image reader) :
    cursor.Alike (fun reader cursor other => cursor = other ∧ cursor.Belongs image reader) reader cursor := by
  induction belongs with
  | empty none => exact .empty none
  | leaf belongs => exact .leaf ⟨rfl, belongs⟩
  | @array items lengths flags cursor inner belongs inside ih =>
    refine .array ⟨⟨rfl, belongs.lengths⟩, ?_, rfl, rfl⟩ ih
    have flagged := belongs.flags
    unfold ArrayCursor.FlagsBelong at flagged
    generalize cursor.flags = stored at flagged
    cases flagged with
    | none => exact .none
    | some there => exact .some ⟨rfl, there⟩

theorem Alike.belongs {cursor other : ColumnCursor}
    (alike : cursor.Alike (fun reader cursor other => cursor = other ∧ cursor.Belongs image reader) reader other) :
    cursor.Belongs image reader := by
  induction alike with
  | empty none => exact .empty none
  | leaf same => exact .leaf same.2
  | @array items lengths flags cursor other inner inner' same inside ih =>
    refine .array ⟨same.lengths.2, ?_⟩ ih
    have flagged := same.flags
    unfold ArrayCursor.FlagsBelong
    generalize cursor.flags = stored at flagged
    generalize other.flags = stored' at flagged
    cases flagged with
    | none => exact .none
    | some there => exact .some there.2

/-- A seek of a leaf column is one of its leaf cursor. -/
theorem runColumn_leaf (call : SeekCall) (session : Session) (cursor : LeafCursor) :
    call.runColumn (session, leaf cursor) =
      rewrap (fun moved => (moved.1, leaf moved.2)) (call.run (session, cursor)) := by
  cases call <;> rfl

theorem sound_seekCall_leaf {reader : LeafReader} (member : reader ∈ readers)
    (told : reader.ToldOrdinal image (condition reader)) (told' : reader.ToldWords image (condition reader))
    {session : Session} (holds : Holds kind condition image readers session) {cursor : LeafCursor}
    (belongs : cursor.Belongs image reader) (call : SeekCall) :
    Sound kind condition image readers (.leaf reader) (leftBy call.runColumn (session, leaf cursor)) := by
  have after := LeafCursor.preserves_seekCall member told told' call (session, cursor)
    ⟨holds, belongs.reader_eq, belongs.held⟩
  rw [leftBy_rewrap (runColumn_leaf call session cursor)]
  exact ⟨after.holds, .leaf after.belongs⟩

section Calls

variable (members : ∀ leaf ∈ reader.leaves, leaf ∈ readers)
  (told : ∀ reader ∈ readers, reader.ToldOrdinal image (condition reader))
  (told' : ∀ reader ∈ readers, reader.ToldWords image (condition reader))

include members told told'

theorem preserves_seekFirst : Preserves (Sound kind condition image readers reader) seekFirst := by
  rintro ⟨session, cursor⟩ ⟨holds, belongs⟩
  dsimp only at holds belongs
  induction belongs generalizing session with
  | empty none => exact ⟨holds, .empty none⟩
  | @leaf reader cursor belongs =>
    have member := members reader List.mem_cons_self
    exact sound_seekCall_leaf member (told _ member) (told' _ member) holds belongs .first
  | @array items lengths flags cursor inner belongs inside ih =>
    obtain ⟨inItems, member, members'⟩ := ColumnReader.leaves_array members
    have after := ArrayCursor.preserves_seekFirst member members' told told' (session, cursor) (belongs.sound holds)
    refine sound_of_parts 0 ?_ after inside fun _ mid => ih inItems mid
    rw [seekFirst, seekFirstFrom]
    rcases ArrayCursor.seekFirst (session, cursor) with ⟨_, mid, moved⟩ | ⟨_, mid, moved⟩ <;> rfl

theorem preserves_seek (ordinal : Nat) : Preserves (Sound kind condition image readers reader) (seek ordinal) := by
  rintro ⟨session, cursor⟩ ⟨holds, belongs⟩
  dsimp only at holds belongs
  induction belongs generalizing session ordinal with
  | empty none =>
    have stays : leftBy (seek ordinal) (session, empty) = (session, empty) := by
      simp only [leftBy, Action.run, seek, seekFrom]
      split <;> rename_i run <;> split at run <;> cases run <;> rfl
    rw [stays]
    exact ⟨holds, .empty none⟩
  | @leaf reader cursor belongs =>
    have member := members reader List.mem_cons_self
    exact sound_seekCall_leaf member (told _ member) (told' _ member) holds belongs (.row ordinal)
  | @array items lengths flags cursor inner belongs inside ih =>
    obtain ⟨inItems, member, members'⟩ := ColumnReader.leaves_array members
    have after := ArrayCursor.preserves_seek member members' told told' ordinal (session, cursor)
      (belongs.sound holds)
    refine sound_of_parts ordinal ?_ after inside fun item mid => ih inItems item mid
    rw [seek, seekFrom]
    rcases ArrayCursor.seek ordinal (session, cursor) with ⟨_, mid, moved⟩ | ⟨_, mid, moved⟩ <;> rfl

theorem preserves_seekCall (call : SeekCall) :
    Preserves (Sound kind condition image readers reader) call.runColumn := by
  cases call with
  | first => exact preserves_seekFirst members told told'
  | row ordinal => exact preserves_seek members told told' ordinal
  | pageStart =>
    rintro ⟨session, cursor⟩ ⟨holds, belongs⟩
    dsimp only at holds belongs
    cases belongs with
    | empty none => exact ⟨holds, .empty none⟩
    | @leaf reader cursor belongs =>
      have member := members reader List.mem_cons_self
      exact sound_seekCall_leaf member (told _ member) (told' _ member) holds belongs .pageStart
    | @array items lengths flags cursor inner belongs inside =>
      cases open_ : cursor.lengths.page with
      | none =>
        have stays : SeekCall.pageStart.runColumn (session, array cursor inner) =
            .error .noPageLoaded (session, array cursor inner) := by
          simp only [SeekCall.runColumn, seekPageStart, open_]
        rw [leftBy_error stays]
        exact ⟨holds, .array belongs inside⟩
      | some page =>
        have moves : SeekCall.pageStart.runColumn (session, array cursor inner) =
            seek page.first (session, array cursor inner) := by
          simp only [SeekCall.runColumn, seekPageStart, open_, seek]
        rw [leftBy_congr moves]
        exact preserves_seek members told told' page.first _ ⟨holds, .array belongs inside⟩

/-- Whatever a read comes to, the leaf cursors still belong to the leaves. -/
theorem preserves_next (count : Nat) :
    Preserves (fun state : Session × ColumnCursor × Batch =>
      Sound kind condition image readers reader (state.1, state.2.1)) (next count) := by
  have reads (leaf : LeafReader) (member : leaf ∈ readers) : leaf.ReadsAlike (· = ·)
      (fun session other => session = other ∧ Holds kind condition image readers session)
      (fun reader cursor other => cursor = other ∧ cursor.Belongs image reader) := by
    refine ⟨fun cursor other same => congrArg LeafCursor.reader same.1, fun count => ?_⟩
    rintro ⟨session, cursor, sink⟩ ⟨_, _, _⟩ ⟨⟨rfl, holds⟩, ⟨rfl, belongs⟩, rfl⟩
    have after := LeafCursor.preserves_next member (told leaf member) (told' leaf member)
      count (session, cursor, sink)
      ⟨holds, belongs.reader_eq, belongs.held⟩
    cases run : LeafCursor.next count (session, cursor, sink) with
    | ok read left =>
      rw [leftBy_ok run] at after
      exact ⟨rfl, ⟨rfl, after.holds⟩, ⟨rfl, after.belongs⟩, rfl⟩
    | error error left =>
      rw [leftBy_error run] at after
      exact ⟨rfl, ⟨rfl, after.holds⟩, ⟨rfl, after.belongs⟩, rfl⟩
  refine (next_uniform nearness_eq reads members count).preserves ?_ ?_
  · rintro state ⟨holds, belongs⟩
    exact ⟨⟨rfl, holds⟩, belongs.alike, rfl⟩
  · rintro state other ⟨⟨_, holds⟩, level, _⟩
    exact ⟨holds, level.belongs⟩

end Calls

/-- A cursor on a column to which calls lead from a new one. Each call may find another session that serves the
leaves, as others may have been made in between. -/
inductive Reached (image : Bytes) (readers : List LeafReader) (reader : ColumnReader) : ColumnCursor → Prop
  | new (options : CursorOptions) : Reached image readers reader (ofReader options reader)
  | seek {session : Session} {cursor : ColumnCursor} (serves : Serves image readers session)
      (reached : Reached image readers reader cursor) (call : SeekCall) :
      Reached image readers reader (leftBy call.runColumn (session, cursor)).2
  | read {session : Session} {cursor : ColumnCursor} (serves : Serves image readers session)
      (reached : Reached image readers reader cursor) (count : Nat) (batch : Batch) :
      Reached image readers reader (leftBy (next count) (session, cursor, batch)).2.1

theorem Reached.belongs (members : ∀ leaf ∈ reader.leaves, leaf ∈ readers) {cursor : ColumnCursor}
    (reached : Reached image readers reader cursor) : cursor.Belongs image reader := by
  induction reached with
  | new options => exact ofReader_belongs options reader
  | @seek session cursor serves reached call ih =>
    exact (preserves_seekCall members (fun _ _ => LeafReader.Faithful.toldOrdinal)
      (fun _ _ => LeafReader.Faithful.toldWords) call (session, cursor) ⟨serves.holds, ih⟩).belongs
  | @read session cursor serves reached count batch ih =>
    exact (preserves_next members (fun _ _ => LeafReader.Faithful.toldOrdinal)
      (fun _ _ => LeafReader.Faithful.toldWords) count (session, cursor, batch) ⟨serves.holds, ih⟩).belongs

end ColumnCursor

end Columnar
