import Columnar.Proofs.ColumnHistory
import Columnar.Proofs.CountedItems
import Columnar.Proofs.FailedSeeks
import Columnar.Proofs.SeekPlaces

namespace Columnar

open Columnar.Action Session

namespace ArrayCursor

variable {image : Bytes} {readers : List LeafReader} {lengths : LeafReader} {flags : Option LeafReader}
  {kind : StoreKind} {condition : LeafReader → Loaded → Prop} {session mid : Session} {cursor after : ArrayCursor}
  {ordinal : Nat}

/-- The lengths and the null flags have the same rows ahead. -/
def SameAhead (image : Bytes) (lengths : LeafReader) (flags : Option LeafReader)
    (cursor other : ArrayCursor) : Prop :=
  cursor.Alike (fun reader cursor other => LeafCursor.SameAhead reader image cursor other) lengths flags other

/-- The item to move to, once the lengths are at the row. -/
def itemOf (ordinal : Nat) : Action (Session × ArrayCursor) Nat := do
  let cursor := (← get).2
  if ordinal = cursor.lengths.reader.rows then return cursor.itemRows else itemsBefore ordinal

theorem seek_of_lengths_ok {value : Unit} {reached : LeafCursor}
    (run : LeafCursor.seek ordinal (session, cursor.lengths) = .ok value (mid, reached)) :
    seek ordinal (session, cursor) =
      (do onFlags (LeafCursor.seek ordinal); itemOf ordinal : Action (Session × ArrayCursor) Nat)
        (mid, { cursor with lengths := reached }) := by
  rw [seek, bind_apply, onLengths_ok run]
  rfl

theorem seek_of_lengths_error {error : Error} {reached : LeafCursor}
    (run : LeafCursor.seek ordinal (session, cursor.lengths) = .error error (mid, reached)) :
    seek ordinal (session, cursor) = .error error (mid, { cursor with lengths := reached }) := by
  rw [seek, bind_apply, onLengths, onPart]
  dsimp only
  rw [run]
  rfl

/-- A seek of an array slips if its lengths do, if its null flags do or fail after the lengths have moved, if the
items cannot be counted and the null flags have moved or the lengths are left elsewhere, or if it has moved the
rows. -/
def SeekSlips (image : Bytes) (lengths : LeafReader) (flags : Option LeafReader) (cursor : ArrayCursor)
    (ordinal : Nat) (session : Session) : Prop :=
  match LeafCursor.seek ordinal (session, cursor.lengths) with
  | .error _ _ => LeafCursor.SeekSlips lengths image cursor.lengths ordinal
  | .ok _ (mid, reached) =>
    cursor.lengths.seeked = false ∨
    match onFlags (LeafCursor.seek ordinal) (mid, { cursor with lengths := reached }) with
    | .error _ _ => ordinal ≠ cursor.ordinal ∨
      ∃ reader ∈ flags, ∃ stored ∈ cursor.flags, LeafCursor.SeekSlips reader image stored ordinal
    | .ok _ (last, stopped) =>
      match itemOf ordinal (last, stopped) with
      | .error _ _ => flags.isSome ∧ ordinal ≠ cursor.ordinal ∨ ¬CountLeavesAt image lengths ordinal cursor.ordinal
      | .ok _ _ => ordinal ≠ cursor.ordinal

/-- A step on the null flags is one on their cursor, where there is one. -/
theorem onFlags_some {stored : LeafCursor} (held : cursor.flags = some stored)
    (step : Action (Session × LeafCursor) Unit) : onFlags step (session, cursor) =
      rewrap (fun moved => (moved.1, { cursor with flags := some moved.2 })) (step (session, stored)) := by
  simp only [onFlags, held]

theorem onFlags_none (held : cursor.flags = none) (step : Action (Session × LeafCursor) Unit) :
    onFlags step (session, cursor) = .ok () (session, cursor) := by
  simp only [onFlags, held]

/-- What is left of a cursor apart from its lengths when the items have been counted. -/
theorem itemOf_rest (ordinal : Nat) (session : Session) (cursor : ArrayCursor) :
    (leftBy (itemOf ordinal) (session, cursor)).2 =
    { cursor with lengths := (leftBy (itemOf ordinal) (session, cursor)).2.lengths } := by
  let also : ArrayCursor → Prop := fun other => other = { cursor with lengths := other.lengths }
  have starts : Preserves (fun _ : Session × LeafCursor => True) LeafCursor.seekPageStart := fun _ => id
  have kept : Preserves (fun state : Session × ArrayCursor => True ∧ also state.2) (itemOf ordinal) := by
    rintro ⟨session, cursor⟩ same
    rw [itemOf, leftBy_bind, get_apply]
    dsimp only
    split
    · exact same
    · exact preserves_itemsBefore also (fun other lengths same => by rw [same]) starts (fun _ _ => id) ordinal
        (session, cursor) same
  exact (kept (session, cursor) ⟨trivial, rfl⟩).2

/-- The lengths that have been counted are at their row again. -/
theorem itemsBefore_ok_at {encoding : Encoding}
    (resolved : Coding.resolve lengths.column.type encoding = .ok lengths.coding) (member : lengths ∈ readers)
    (serves : Serves image readers session) (at_ : cursor.lengths.At lengths image ordinal) {item : Nat}
    (run : itemsBefore ordinal (session, cursor) = .ok item (mid, after)) :
    Serves image readers mid ∧ after.lengths.At lengths image ordinal := by
  obtain ⟨span, on⟩ := at_.on
  obtain ⟨opened, opens, held, _⟩ := on.page_eq
  obtain ⟨_, _, _, number, _⟩ := LeafReader.openedIn_spec opens
  have base : (opened.atRow (ordinal - span.first)).first = span.first := number
  rcases Nat.eq_or_lt_of_le on.first_le with rfl | inside
  · rw [itemsBefore_of_le held base.ge] at run
    cases run
    exact ⟨serves, at_⟩
  · obtain ⟨empty, back, there, read, stopped, filled, created, moved, next, all, rfl, rfl⟩ :=
      (itemsBefore_eq_ok_iff held (base ▸ inside)).mp run
    rw [base] at moved next all
    obtain ⟨rfl, size⟩ := OffsetBuffer.create_eq_ok created
    rw [on.reader_eq] at size
    obtain ⟨holding, starts, _⟩ :=
      at_.ready.seek_ok member LeafReader.Faithful.toldOrdinal LeafReader.Faithful.toldWords
      at_.within.1 serves.holds moved
    have suits : LeafCursor.Suits (OffsetBuffer.intake lengths.column.type) lengths.coding :=
      suits_lengths resolved size
    have fits : (OffsetBuffer.intake lengths.column.type).Fits { type := cursor.lengths.reader.column.type } := by
      rw [on.reader_eq]
      rfl
    obtain ⟨_, _, served, counted, _, told⟩ :=
      (LeafCursor.next_meets suits member holding.serves starts _ fits).of_ok next
    have many : min (ordinal - span.first) (lengths.rows - span.first) = ordinal - span.first := by
      rwa [told] at all
    rw [many, Nat.add_sub_cancel' inside.le] at counted
    exact ⟨served, counted⟩

theorem itemOf_ok_at {encoding : Encoding}
    (resolved : Coding.resolve lengths.column.type encoding = .ok lengths.coding) (member : lengths ∈ readers)
    (serves : Serves image readers session) (at_ : cursor.lengths.At lengths image ordinal) {item : Nat}
    (run : itemOf ordinal (session, cursor) = .ok item (mid, after)) : after.lengths.At lengths image ordinal := by
  rw [itemOf, bind_apply, get_apply] at run
  dsimp only at run
  split at run
  · cases run
    exact at_
  · exact (itemsBefore_ok_at resolved member serves at_ run).2

theorem itemOf_error_sameAhead_iff {encoding : Encoding}
    (resolved : Coding.resolve lengths.column.type encoding = .ok lengths.coding) (member : lengths ∈ readers)
    (serves : Serves image readers session) (at_ : cursor.lengths.At lengths image ordinal)
    (opened : ∃ page ∈ cursor.lengths.page, page.contains (LeafCursor.seekRow lengths ordinal) = true)
    {error : Error} (fails : itemOf ordinal (session, cursor) = .error error (mid, after)) {other : LeafCursor}
    {place : Nat} (elsewhere : other.At lengths image place) :
    LeafCursor.SameAhead lengths image after.lengths other ↔ CountLeavesAt image lengths ordinal place := by
  obtain ⟨_, on⟩ := at_.on
  rw [itemOf, bind_apply, get_apply] at fails
  dsimp only at fails
  split at fails
  · cases fails
  · rename_i inside
    rw [on.reader_eq] at inside
    obtain ⟨page, open_, contains⟩ := opened
    rw [LeafCursor.seekRow, if_neg inside] at contains
    exact itemsBefore_error_sameAhead_iff resolved member serves at_ (Nat.lt_of_le_of_ne at_.within.2 inside)
      open_ contains
      fails elsewhere

/-- The null flags have the same rows ahead, where an array column has any. -/
abbrev SameFlags (image : Bytes) : Option LeafReader → Option LeafCursor → Option LeafCursor → Prop :=
  FlagsAlike fun reader cursor other => LeafCursor.SameAhead reader image cursor other

theorem sameAhead_iff {reached : LeafCursor} {stored : Option LeafCursor} :
    SameAhead image lengths flags { cursor with lengths := reached, flags := stored } cursor ↔
      LeafCursor.SameAhead lengths image reached cursor.lengths ∧ SameFlags image flags stored cursor.flags :=
  ⟨fun same => ⟨same.lengths, same.flags⟩, fun same => ⟨same.1, same.2, rfl, rfl⟩⟩

theorem FlagsBelong.sameFlags (belongs : cursor.FlagsBelong image flags) :
    SameFlags image flags cursor.flags cursor.flags := by
  unfold FlagsBelong at belongs
  generalize cursor.flags = stored at belongs ⊢
  cases belongs with
  | none => exact .none
  | some there => exact .some there.sameAhead_refl

section Flags

variable (members : ∀ reader ∈ flags, reader ∈ readers) (serves : Serves image readers session)

include members serves

/-- A seek of the null flags that fails leaves their rows ahead as they are exactly if it does not slip. -/
theorem onFlags_error (belongs : cursor.FlagsBelong image flags) {error : Error}
    (fails : onFlags (LeafCursor.seek ordinal) (session, cursor) = .error error (mid, after)) :
    ∃ stored, after = { cursor with flags := stored } ∧ (SameFlags image flags stored cursor.flags ↔
      ¬∃ reader ∈ flags, ∃ stored ∈ cursor.flags, LeafCursor.SeekSlips reader image stored ordinal) := by
  cases held : cursor.flags with
  | none =>
    rw [onFlags_none held] at fails
    cases fails
  | some before =>
    rw [FlagsBelong, held] at belongs
    cases belongs with
    | @some reader _ there =>
      rw [onFlags_some held] at fails
      obtain ⟨⟨last, moved⟩, refused, same⟩ := rewrap_eq_error fails
      cases same
      have member := members reader rfl
      obtain ⟨_, _, ahead⟩ := LeafCursor.sameAhead_seek_error_iff member LeafReader.Faithful.toldOrdinal
        LeafReader.Faithful.toldWords ⟨serves.holds, there.reader_eq, there.held⟩ refused
      refine ⟨some moved, rfl, ?_⟩
      constructor
      · rintro (_ | ⟨same⟩) ⟨_, ⟨⟩, _, ⟨⟩, slips⟩
        exact ahead.mp same slips
      · intro noSlip
        exact .some (ahead.mpr fun slips => noSlip ⟨reader, rfl, before, rfl, slips⟩)

/-- A seek of the null flags that succeeds leaves their rows ahead as they are exactly if they have been at the
row. -/
theorem onFlags_ok {place : Nat}
    (at_ : Option.Rel (fun reader cursor => cursor.At reader image place) flags cursor.flags) {value : Unit}
    (run : onFlags (LeafCursor.seek ordinal) (session, cursor) = .ok value (mid, after)) :
    Serves image readers mid ∧ ∃ stored, after = { cursor with flags := stored } ∧
      (SameFlags image flags stored cursor.flags ↔ (flags.isSome = true → ordinal = place)) := by
  cases held : cursor.flags with
  | none =>
    rw [held] at at_
    cases at_
    rw [onFlags_none held] at run
    cases run
    refine ⟨serves, none, ?_, iff_of_true .none nofun⟩
    rw [← held]
  | some before =>
    rw [held] at at_
    cases at_ with
    | @some reader _ there =>
      rw [onFlags_some held] at run
      obtain ⟨⟨last, moved⟩, moves, same⟩ := rewrap_eq_ok run
      cases same
      have member := members reader rfl
      obtain ⟨holds, _⟩ := there.ready.seek_ok member LeafReader.Faithful.toldOrdinal LeafReader.Faithful.toldWords
        there.within.1 serves.holds moves
      have ahead := there.seek_ok_sameAhead_iff member LeafReader.Faithful.toldOrdinal LeafReader.Faithful.toldWords
        serves.holds moves
      refine ⟨holds.serves, some moved, rfl, ?_⟩
      constructor
      · rintro (_ | ⟨same⟩) _
        exact ahead.mp same
      · intro here
        exact .some (ahead.mpr (here rfl))

end Flags

theorem onFlags_lengths (step : Action (Session × LeafCursor) Unit) :
    (leftBy (onFlags step) (session, cursor)).2.lengths = cursor.lengths := by
  cases held : cursor.flags with
  | none => rw [leftBy_ok (onFlags_none held step)]
  | some stored => rw [leftBy_rewrap (onFlags_some held step)]

/-- The lengths and the null flags are at the row of the cursor, if reads may go on. -/
def InStep (image : Bytes) (lengths : LeafReader) (flags : Option LeafReader) (cursor : ArrayCursor) : Prop :=
  cursor.lengths.seeked = true → cursor.Placed lengths flags image cursor.ordinal

section Seeks

variable (member : lengths ∈ readers) (members : ∀ reader ∈ flags, reader ∈ readers)
  (serves : Serves image readers session) (belongs : cursor.Belongs image lengths flags)

include member members serves belongs

/-- Lengths that may be read still may, whatever is done after their seek. -/
theorem seeked_after_lengths (ordinal : Nat) (seeked : cursor.lengths.seeked = true) :
    (leftBy (do onFlags (LeafCursor.seek ordinal); itemOf ordinal) (session, cursor)).2.lengths.seeked = true := by
  let holds := fun state : Session × LeafCursor =>
    LeafCursor.Sound session.store.kind (fun reader => reader.Faithful image) image
    readers lengths state ∧ state.2.seeked = true
  have told : lengths.ToldOrdinal image (lengths.Faithful image) := LeafReader.Faithful.toldOrdinal
  have told' : lengths.ToldWords image (lengths.Faithful image) := LeafReader.Faithful.toldWords
  have kept : Preserves (fun state => holds (state.1, state.2.lengths) ∧ state.2.FlagsBelong image flags)
      (do onFlags (LeafCursor.seek ordinal); itemOf ordinal) := by
    refine Preserves.bind ?_ fun _ => ?_
    · rintro state ⟨⟨sound, seeked⟩, flagged⟩
      have after := preserves_onFlags (fun reader held => LeafCursor.preserves_seek (members reader held)
        LeafReader.Faithful.toldOrdinal LeafReader.Faithful.toldWords ordinal) state ⟨sound, flagged⟩
      exact ⟨⟨after.1, (congrArg LeafCursor.seeked (onFlags_lengths _)).trans seeked⟩, after.2⟩
    · rintro ⟨session, cursor⟩ sound
      rw [itemOf, leftBy_bind, get_apply]
      dsimp only
      split
      · exact sound
      · exact preserves_itemsBefore (FlagsBelong image flags) (fun _ _ flagged => flagged)
          (LeafCursor.preserves_seeked_pageStart member told told')
            (LeafCursor.preserves_seeked_next member told told')
          ordinal _ sound
  exact (kept (session, cursor) ⟨⟨⟨serves.holds, belongs.lengths.reader_eq, belongs.lengths.held⟩, seeked⟩,
    belongs.flags⟩).1.2

/-- Whatever a seek of an array comes to, the rows ahead of its lengths and of its null flags are as they were
exactly if it does not slip. -/
theorem sameAhead_seek_iff {encoding : Encoding}
    (resolved : Coding.resolve lengths.column.type encoding = .ok lengths.coding)
    (inStep : cursor.InStep image lengths flags) (ordinal : Nat) :
    SameAhead image lengths flags (leftBy (seek ordinal) (session, cursor)).2 cursor ↔
      ¬SeekSlips image lengths flags cursor ordinal session := by
  have told : lengths.ToldOrdinal image (lengths.Faithful image) := LeafReader.Faithful.toldOrdinal
  have told' : lengths.ToldWords image (lengths.Faithful image) := LeafReader.Faithful.toldWords
  have sound := (belongs.sound serves.holds).1
  rw [SeekSlips]
  rcases lens : LeafCursor.seek ordinal (session, cursor.lengths) with ⟨_, mid, reached⟩ | ⟨error, mid, reached⟩
  · rw [leftBy_congr (seek_of_lengths_ok lens)]
    dsimp only
    by_cases seeked : cursor.lengths.seeked = true
    · have placed := inStep seeked
      have ahead := placed.lengths.seek_ok_sameAhead_iff member told told' serves.holds lens
      obtain ⟨holds, there, _, opened⟩ :=
        placed.lengths.ready.seek_ok member told told' placed.lengths.within.1 serves.holds lens
      have flagged : ({ cursor with lengths := reached } : ArrayCursor).FlagsBelong image flags := belongs.flags
      have flagsAt : Option.Rel (fun reader other => other.At reader image cursor.ordinal) flags
          ({ cursor with lengths := reached } : ArrayCursor).flags := placed.flags
      simp only [seeked, Bool.true_eq_false, false_or]
      rcases flagsRun : onFlags (LeafCursor.seek ordinal) (mid, { cursor with lengths := reached }) with
        ⟨_, last, stopped⟩ | ⟨error, last, stopped⟩
      · obtain ⟨serving, stored, rfl, flagsAhead⟩ := onFlags_ok members holds.serves flagsAt flagsRun
        rw [leftBy_bind, flagsRun]
        dsimp only
        have rest := itemOf_rest ordinal last { cursor with lengths := reached, flags := stored }
        rcases items : itemOf ordinal (last, { cursor with lengths := reached, flags := stored }) with
          ⟨item, final, left⟩ | ⟨error, final, left⟩
        · rw [leftBy_ok items] at rest ⊢
          dsimp only at rest ⊢
          have back : left.lengths.At lengths image ordinal := itemOf_ok_at resolved member serving there items
          have level : LeafCursor.SameAhead lengths image left.lengths cursor.lengths ↔ ordinal = cursor.ordinal :=
            Iff.trans ⟨(there.sameAhead back).trans, (back.sameAhead there).trans⟩ ahead
          rw [rest, sameAhead_iff, level, flagsAhead, not_not]
          exact ⟨And.left, fun same => ⟨same, fun _ => same⟩⟩
        · rw [leftBy_error items] at rest ⊢
          dsimp only at rest ⊢
          have level := itemOf_error_sameAhead_iff resolved member serving there opened items placed.lengths
          rw [rest, sameAhead_iff, level, flagsAhead, not_or, not_not, and_comm]
          simp only [ne_eq, not_and, not_not]
      · obtain ⟨stored, rfl, flagsAhead⟩ := onFlags_error members holds.serves flagged flagsRun
        rw [leftBy_bind, flagsRun]
        dsimp only
        rw [sameAhead_iff, ahead, flagsAhead, not_or, not_not]
    · refine iff_of_false (fun same => ?_) (not_not.mpr (.inl (Bool.not_eq_true _ ▸ seeked)))
      have after := LeafCursor.preserves_seek member told told' ordinal _ sound
      rw [leftBy_ok lens] at after
      have may := seeked_after_lengths member members after.holds.serves
        (⟨after.belongs, belongs.flags⟩ : ({ cursor with lengths := reached } : ArrayCursor).Belongs image
          lengths flags)
        ordinal (LeafCursor.seek_ok_seeked member told told' sound lens)
      exact seeked (same.lengths.seeked.symm.trans may)
  · obtain ⟨_, _, ahead⟩ := LeafCursor.sameAhead_seek_error_iff member told told' sound lens
    rw [leftBy_error (seek_of_lengths_error lens)]
    dsimp only
    rw [sameAhead_iff, ahead]
    exact and_iff_left belongs.flags.sameFlags

end Seeks

/-- A seek does not tell the row. This is done once the items have moved, too. -/
theorem seek_ordinal (ordinal : Nat) (session : Session) (cursor : ArrayCursor) :
    (leftBy (seek ordinal) (session, cursor)).2.ordinal = cursor.ordinal := by
  have lengths : Preserves (fun state : Session × ArrayCursor => True ∧ state.2.ordinal = cursor.ordinal)
      (onLengths (LeafCursor.seek ordinal)) :=
    preserves_onLengths (fun other => other.ordinal = cursor.ordinal) (fun _ _ => id)
      (fun _ => id : Preserves (fun _ : Session × LeafCursor => True) (LeafCursor.seek ordinal))
  have flags : Preserves (fun state : Session × ArrayCursor => True ∧ state.2.ordinal = cursor.ordinal)
      (onFlags (LeafCursor.seek ordinal)) := by
    rintro ⟨session, other⟩ same
    cases held : other.flags with
    | none => rwa [leftBy_ok (onFlags_none held _)]
    | some stored => rwa [leftBy_rewrap (onFlags_some held _)]
  have items : Preserves (fun state : Session × ArrayCursor => True ∧ state.2.ordinal = cursor.ordinal)
      (itemOf ordinal) :=
    fun state same => ⟨trivial, (congrArg ArrayCursor.ordinal (itemOf_rest ordinal state.1 state.2)).trans same.2⟩
  exact ((lengths.bind fun _ => flags.bind fun _ => items) (session, cursor) ⟨trivial, rfl⟩).2

end ArrayCursor

namespace ColumnCursor

/-- The leaves of a column have the same rows ahead. -/
def SameAhead (image : Bytes) (reader : ColumnReader) (cursor other : ColumnCursor) : Prop :=
  cursor.Alike (fun reader cursor other => LeafCursor.SameAhead reader image cursor other) reader other

/-- The lengths and the null flags of each array are at its row. Its items may be anywhere. -/
inductive InStep (image : Bytes) : ColumnReader → ColumnCursor → Prop
  | empty {reader : ColumnReader} : InStep image reader empty
  | leaf {reader : LeafReader} {cursor : LeafCursor} : InStep image (.leaf reader) (leaf cursor)
  | array {items : ColumnReader} {lengths : LeafReader} {flags : Option LeafReader} {cursor : ArrayCursor}
    {inner : ColumnCursor} (rows : cursor.InStep image lengths flags) (inside : InStep image items inner) :
    InStep image (.array items lengths flags) (array cursor inner)

/-- A seek of a column slips if that of a leaf does, and that of an array also if its rows have moved when its items
fail. -/
def SeekSlips (image : Bytes) : ColumnReader → ColumnCursor → (ordinal : Nat) → Session → Prop
  | .leaf reader, leaf cursor, ordinal, _ => LeafCursor.SeekSlips reader image cursor ordinal
  | .array items lengths flags, array cursor inner, ordinal, session =>
    cursor.SeekSlips image lengths flags ordinal session ∨
    ∃ item mid after, ArrayCursor.seek ordinal (session, cursor) = .ok item (mid, after) ∧
      SeekSlips image items inner item mid
  | _, _, _, _ => False

variable {image : Bytes} {readers : List LeafReader} {reader : ColumnReader} {session mid : Session}
  {cursor after : ColumnCursor} {ordinal : Nat} {error : Error}

theorem At.inStep {place : Nat} (at_ : cursor.At image reader place) : cursor.InStep image reader := by
  induction at_ with
  | empty none => exact .empty
  | leaf at_ => exact .leaf
  | array placed itemRows ordinal known within ih => exact .array (fun _ => ordinal ▸ placed) ih

theorem Belongs.sameAhead (belongs : cursor.Belongs image reader) : SameAhead image reader cursor cursor := by
  induction belongs with
  | empty none => exact .empty none
  | leaf belongs => exact .leaf belongs.sameAhead_refl
  | array belongs inside ih =>
    exact .array ⟨belongs.lengths.sameAhead_refl, belongs.flags.sameFlags, rfl, rfl⟩ ih

theorem sameAhead_array_iff {items : ColumnReader} {lengths : LeafReader} {flags : Option LeafReader}
    {cursor other : ArrayCursor} {inner inner' : ColumnCursor} :
      SameAhead image (.array items lengths flags) (array cursor inner) (array other inner') ↔
      ArrayCursor.SameAhead image lengths flags cursor other ∧ SameAhead image items inner inner' := by
  constructor
  · rintro (_ | _ | ⟨rows, inside⟩)
    exact ⟨rows, inside⟩
  · rintro ⟨rows, inside⟩
    exact .array rows inside

/-- A seek of an array column fails because its rows cannot be moved to, or because its items cannot once its rows
have moved. -/
theorem seek_array_error {parts : ArrayCursor} {inner : ColumnCursor}
    (fails : seek ordinal (session, array parts inner) = .error error (mid, after)) :
    (∃ left, ArrayCursor.seek ordinal (session, parts) = .error error (mid, left) ∧ after = array left inner) ∨
      ∃ item middle left stopped, ArrayCursor.seek ordinal (session, parts) = .ok item (middle, left) ∧
        seek item (middle, inner) = .error error (mid, stopped) ∧ after = array left stopped := by
  rw [seek, seekFrom] at fails
  rcases run : ArrayCursor.seek ordinal (session, parts) with ⟨item, middle, left⟩ | ⟨error, middle, left⟩
  · simp only [run] at fails
    rcases rest : inner.seekFrom item middle with ⟨_, last, stopped⟩ | ⟨error, last, stopped⟩
    · simp only [rest] at fails
      cases fails
    · simp only [rest] at fails
      cases fails
      exact .inr ⟨item, middle, left, stopped, rfl, rest, rfl⟩
  · simp only [run] at fails
    cases fails
    exact .inl ⟨left, rfl, rfl⟩

/-- A seek of a column that fails leaves the rows ahead as they are exactly if it does not slip. -/
theorem sameAhead_seek_error_iff {options : ReaderOptions} {file : String} {column : ColumnMeta} {rows : Nat}
    {key : LeafKey} (created : ColumnReader.create options file column rows key = .ok reader)
    (members : ∀ leaf ∈ reader.leaves, leaf ∈ readers) (serves : Serves image readers session)
    (belongs : cursor.Belongs image reader) (inStep : cursor.InStep image reader)
    (fails : seek ordinal (session, cursor) = .error error (mid, after)) :
    SameAhead image reader after cursor ↔ ¬SeekSlips image reader cursor ordinal session := by
  induction belongs generalizing session ordinal mid after column rows key with
  | @empty reader none =>
    have stays : after = empty := by
      rw [seek, seekFrom] at fails
      split at fails <;> cases fails
      rfl
    subst stays
    refine iff_of_true (.empty none) ?_
    cases reader <;> exact not_false
  | @leaf reader cursor belongs =>
    have member := members reader List.mem_cons_self
    obtain ⟨⟨last, left⟩, refused, same⟩ := rewrap_eq_error fails
    cases same
    obtain ⟨_, _, ahead⟩ := LeafCursor.sameAhead_seek_error_iff member LeafReader.Faithful.toldOrdinal
      LeafReader.Faithful.toldWords ⟨serves.holds, belongs.reader_eq, belongs.held⟩ refused
    refine Iff.trans ⟨?_, .leaf⟩ ahead
    rintro (_ | same)
    exact same
  | @array items lengths flags cursor inner belongs inside ih =>
    obtain ⟨inItems, member, members'⟩ := ColumnReader.leaves_array members
    obtain ⟨_, item, measure, _, _, created', measured, _⟩ := ColumnReader.create_array created
    obtain ⟨same, _, _, resolved⟩ := create_spec measured
    rw [← same] at resolved
    obtain _ | _ | ⟨rows, within⟩ := inStep
    have sound := ArrayCursor.preserves_seek member members' (fun _ _ => LeafReader.Faithful.toldOrdinal)
      (fun _ _ => LeafReader.Faithful.toldWords) ordinal (session, cursor) (belongs.sound serves.holds)
    have ahead := ArrayCursor.sameAhead_seek_iff member members' serves belongs resolved rows ordinal
    rw [SeekSlips]
    rcases seek_array_error fails with ⟨left, run, rfl⟩ | ⟨place, middle, left, stopped, run, rest, rfl⟩
    · rw [leftBy_error run] at ahead
      rw [sameAhead_array_iff, ahead, and_iff_left inside.sameAhead, run]
      refine not_congr ⟨.inl, ?_⟩
      rintro (slips | ⟨_, _, _, ⟨⟩, _⟩)
      exact slips
    · rw [leftBy_ok run] at sound ahead
      have serving : Serves image readers middle := sound.1.holds.serves
      rw [sameAhead_array_iff, ahead, ih created' inItems serving within rest, ← not_or, run]
      refine not_congr (or_congr_right ⟨fun slips => ⟨_, _, _, rfl, slips⟩, ?_⟩)
      rintro ⟨_, _, _, ⟨⟩, slips⟩
      exact slips

section Failures

variable (members : ∀ leaf ∈ reader.leaves, leaf ∈ readers) (serves : Serves image readers session)

include members serves

theorem seek_error_ordinal (belongs : cursor.Belongs image reader)
    (fails : seek ordinal (session, cursor) = .error error (mid, after)) : after.ordinal = cursor.ordinal := by
  cases belongs with
  | empty none =>
    rw [seek, seekFrom] at fails
    split at fails <;> cases fails
    rfl
  | @leaf reader cursor belongs =>
    obtain ⟨⟨last, left⟩, refused, same⟩ := rewrap_eq_error fails
    cases same
    obtain ⟨_, bytes, pages, page, rfl, _⟩ := LeafCursor.seek_error (members reader List.mem_cons_self)
      LeafReader.Faithful.toldOrdinal LeafReader.Faithful.toldWords ⟨serves.holds, belongs.reader_eq,
        belongs.held⟩ refused
    rfl
  | @array items lengths flags cursor inner belongs inside =>
    have kept := ArrayCursor.seek_ordinal ordinal session cursor
    rcases seek_array_error fails with ⟨left, run, rfl⟩ | ⟨place, middle, left, stopped, run, _, rfl⟩
    · rwa [leftBy_error run] at kept
    · rwa [leftBy_ok run] at kept

omit serves in
/-- From cursors with the same rows ahead a read gives the same rows, counts and failures. -/
theorem SameAhead.next_concur (same : SameAhead image reader after cursor) {kind : StoreKind}
    (holds : Holds kind (fun reader => reader.Faithful image) image readers mid)
    (holds' : Holds kind (fun reader => reader.Faithful image) image readers session) (count : Nat)
    (batch : Batch) :
    Concur (Error.Near kind) (fun _ last last' => last.2.2 = last'.2.2) (fun last last' => last.2.2 = last'.2.2)
      (next count (mid, after, batch)) (next count (session, cursor, batch)) := by
  have reads (leaf : LeafReader) (member : leaf ∈ readers) : leaf.ReadsAlike (Error.Near kind)
      (fun session other => Holds kind (fun reader => reader.Faithful image) image readers session ∧
        Holds kind (fun reader => reader.Faithful image) image readers other)
      (fun reader cursor other => LeafCursor.SameAhead reader image cursor other) :=
    ⟨fun cursor other same => same.reader_eq.trans same.other_eq.symm, fun count =>
      LeafCursor.SameAhead.next_uniform member LeafReader.Faithful.toldOrdinal LeafReader.Faithful.toldWords count⟩
  exact (next_uniform (Error.nearness kind) reads members count (mid, after, batch) (session, cursor, batch)
    ⟨⟨holds, holds'⟩, same, rfl⟩).imp (fun _ _ _ last => last.2.2) fun _ _ last => last.2.2

end Failures

/-- A seek that fails has not told the cursor another row, wherever calls have led it. Its leaves still have the
same rows ahead exactly if the seek does not slip, and then the next read gives the same rows, counts and failures
as without the seek: a read that succeeds gives the rows from the place of the cursor on, if this is where all its
parts were. -/
theorem Reached.seek_error_inStep_iff {options : ReaderOptions} {file : String} {column : ColumnMeta} {rows : Nat}
    {key : LeafKey} (created : ColumnReader.create options file column rows key = .ok reader)
    (reached : Reached image reader.leaves reader cursor) (serves : Serves image reader.leaves session)
    (fails : ColumnCursor.seek ordinal (session, cursor) = .error error (mid, after)) :
    after.ordinal = cursor.ordinal ∧
      (cursor.InStep image reader → (SameAhead image reader after cursor ↔
      ¬SeekSlips image reader cursor ordinal session)) ∧
      (SameAhead image reader after cursor → ∀ count batch,
        Concur (Error.Near session.store.kind) (fun _ last last' => last.2.2 = last'.2.2)
          (fun last last' => last.2.2 = last'.2.2) (next count (mid, after, batch))
          (next count (session, cursor, batch))) ∧
      ∀ fresh, Batch.ofColumn column = .ok fresh → reader.FlagsIn ColumnType.FlagSized → reader.Summable image →
        ∀ place, cursor.At image reader place → ¬SeekSlips image reader cursor ordinal session →
          ∀ count batch, reader.Takes batch → ∀ read last, next count (mid, after, batch) = .ok read last →
            ∃ values, reader.slice image after.ordinal count = some values ∧
              last.2.2.rowValues = batch.rowValues ++ values ∧ read.rows = values.length := by
  have members : ∀ leaf ∈ reader.leaves, leaf ∈ reader.leaves := fun _ => id
  have belongs := reached.belongs members
  have ordinal_eq := seek_error_ordinal members serves belongs fails
  have sound := preserves_seek members (fun _ _ => LeafReader.Faithful.toldOrdinal)
    (fun _ _ => LeafReader.Faithful.toldWords)
    ordinal (session, cursor) ⟨serves.holds, belongs⟩
  rw [leftBy_error fails] at sound
  have ahead (inStep : cursor.InStep image reader) :=
    sameAhead_seek_error_iff created members serves belongs inStep fails
  have reads (same : SameAhead image reader after cursor) := same.next_concur members sound.holds serves.holds
  refine ⟨ordinal_eq, ahead, reads, ?_⟩
  intro fresh made flags summable place at_ noSlip count batch takes read last run
  have concur := reads ((ahead at_.inStep).mpr noSlip) count batch
  rw [run] at concur
  cases run' : next count (session, cursor, batch) with
  | error error last' =>
    rw [run'] at concur
    exact concur.elim
  | ok read' last' =>
    rw [run'] at concur
    obtain ⟨rfl, filled⟩ := concur
    obtain ⟨suited, _⟩ := ColumnReader.create_suited created made flags
    obtain ⟨values, found, appended⟩ :=
      (at_.reads suited summable members session serves count batch takes).of_ok run'
    rw [ordinal_eq, at_.ordinal_eq]
    exact ⟨values, found, (congrArg Batch.rowValues filled).trans appended.grown, appended.rows⟩

end ColumnCursor

namespace ShortFlags

/-! A nullable array column of three rows, of which only the last one has an item. There is one null flag. -/

def options : ReaderOptions := { verifyChecksum := false }

def items : LeafReader where
  column := { columnId := 2, type := .integer .tiny, rows := 1, indexes := [.ordinal ⟨79, 34⟩ true] }
  rows := 1
  access := { file := "short", key := [.items], options }
  coding := .packed 1
  indexes := { ordinal := some (⟨79, 34⟩, true) }

def lengths : LeafReader where
  column := { columnId := 3, type := .integer .int, rows := 3, indexes := [.ordinal ⟨0, 45⟩ true] }
  rows := 3
  access := { file := "short", key := [.lengths], options }
  coding := .packed 4
  indexes := { ordinal := some (⟨0, 45⟩, true) }

def flags : LeafReader where
  column := { columnId := 4, type := .boolean, encoding := .plain, rows := 1, indexes := [.ordinal ⟨45, 34⟩ true] }
  rows := 1
  access := { file := "short", key := [.flags], options }
  coding := .packed 1
  indexes := { ordinal := some (⟨45, 34⟩, true) }

def column : ColumnMeta where
  own := { columnId := 1, type := .array, isNullable := true, rows := 3 }
  children := [{ own := items.column }, { own := lengths.column }, { own := flags.column }]

def reader : ColumnReader := .array (.leaf items) lengths (some flags)

def fresh : Batch :=
  .array ⟨{ type := .integer .int }, some { type := .boolean, width := 1, nullable := false }, []⟩
    (.fixed { type := .integer .tiny, width := 1, nullable := false })

/-- The checksums of the pages are left out. -/
def image : Bytes :=
  Page.covered ⟨[0, 0, 0, 0, 0, 0, 0, 0, 1, 0, 0, 0], .data (.ofStored 0 3 0 0)⟩ ++ [0, 0, 0, 0] ++
    (Page.covered ⟨[0], .data (.ofStored 0 1 0 0)⟩ ++ [0, 0, 0, 0]) ++
      (Page.covered ⟨[5], .data (.ofStored 0 1 0 0)⟩ ++ [0, 0, 0, 0])

def session : Session := { store := { image } }

/-- Where a new cursor gets with a seek to the first row. -/
def started : ColumnCursor := (leftBy SeekCall.first.runColumn (session, .ofReader {} reader)).2

/-- The session that the seek leaves. -/
def begun : Session := (leftBy SeekCall.first.runColumn (session, .ofReader {} reader)).1

theorem created : ColumnReader.create options "short" column 3 [] = .ok reader := by
  cbv

theorem made : Batch.ofColumn column = .ok fresh := by
  cbv

theorem serves : Serves image reader.leaves session :=
  ColumnReader.serves_of_create created { image } (.plain rfl) []

theorem started_reached : ColumnCursor.Reached image reader.leaves reader started := .seek serves (.new {}) .first

theorem started_at : Serves image reader.leaves begun ∧ started.At image reader 0 := by
  obtain ⟨after, run⟩ : ∃ after, ColumnCursor.seekFirst (session, .ofReader {} reader) = .ok () after := ⟨_, by cbv⟩
  have same : leftBy SeekCall.first.runColumn (session, .ofReader {} reader) = after := leftBy_ok run
  rw [begun, started, same]
  exact ColumnCursor.seekFirstFrom_ok (fun _ => id) serves (ColumnCursor.ofReader_ready {} reader) run

theorem behind_fails : ∃ error mid after, ColumnCursor.seek 9 (begun, started) = .error error (mid, after) :=
  ⟨_, _, _, by cbv⟩

theorem summable : reader.Summable image := by
  have sizes : lengths.sizesIn image 0 3 = some [0, 0, 1] := by cbv
  exact ⟨trivial, (LeafReader.sumsTo_of_whole sizes (by decide)).summable⟩

/-- A seek behind all rows does not slip. -/
theorem behind_noSlip : ¬ColumnCursor.SeekSlips image reader started 9 begun := by
  obtain ⟨cursor, inner, parts, beyond⟩ : ∃ cursor inner, started = .array cursor inner ∧
      ∃ error mid after, LeafCursor.seek 9 (begun, cursor.lengths) = .error error (mid, after) :=
        ⟨_, _, by cbv, _, _, _, by cbv⟩
  obtain ⟨error, mid, after, fails⟩ := beyond
  rw [parts, reader, ColumnCursor.SeekSlips, ArrayCursor.SeekSlips, fails]
  rintro (⟨_, within, _⟩ | ⟨_, _, _, run, _⟩)
  · exact absurd within (by decide)
  · rw [ArrayCursor.seek_of_lengths_error fails] at run
    cases run

theorem failedSeeks_inStep :
    ColumnReader.create options "short" column 3 [] = .ok reader ∧ Batch.ofColumn column = .ok fresh ∧
      (∃ error mid after, ColumnCursor.seek 2 (begun, started) = .error error (mid, after) ∧
        after.ordinal = started.ordinal ∧
        (ColumnCursor.SameAhead image reader after started ↔
        ¬ColumnCursor.SeekSlips image reader started 2 begun)) ∧
      ∃ error mid after, ColumnCursor.seek 9 (begun, started) = .error error (mid, after) ∧
        ∃ read last, ColumnCursor.next 1 (mid, after, fresh) = .ok read last ∧
          reader.slice image 0 1 = some last.2.2.rowValues := by
  have unmoved {ordinal error mid after}
      (fails : ColumnCursor.seek ordinal (begun, started) = .error error (mid, after)) :=
    started_reached.seek_error_inStep_iff created started_at.1 fails
  have short : ∃ error mid after, ColumnCursor.seek 2 (begun, started) = .error error (mid, after) :=
    ⟨_, _, _, by cbv⟩
  obtain ⟨error, mid, after, fails⟩ := short
  obtain ⟨error', mid', after', fails'⟩ := behind_fails
  obtain ⟨ordinal, ahead, _⟩ := unmoved fails
  obtain ⟨ordinal', ahead', reads, delivers⟩ := unmoved fails'
  refine ⟨created, made, ⟨error, mid, after, fails, ordinal, ahead started_at.2.inStep⟩, error', mid', after',
    fails', ?_⟩
  obtain ⟨_, _, before⟩ : ∃ read last, ColumnCursor.next 1 (begun, started, fresh) = .ok read last := ⟨_, _, by cbv⟩
  obtain ⟨read, last, _, run, _⟩ | ⟨_, _, _, _, _, run, _⟩ :=
    (reads ((ahead' started_at.2.inStep).mpr behind_noSlip) 1 fresh).both
  case inr => cases before.symm.trans run
  have sized : reader.FlagsIn ColumnType.FlagSized := by
    refine ⟨trivial, ?_⟩
    rintro other ⟨⟩ width size
    exact (Option.some.inj size).symm
  obtain ⟨_, takes, empty⟩ := ColumnReader.create_suited created made sized
  obtain ⟨values, found, grown, _⟩ :=
    delivers fresh made sized summable 0 started_at.2 behind_noSlip 1 fresh takes read last run
  rw [ordinal', started_at.2.ordinal_eq] at found
  refine ⟨read, last, run, ?_⟩
  rw [grown, empty]
  exact found

/-- A seek to the last row fails, as there is no null flag for it. The read after it gives the last row as the first
one. -/
theorem failedSeek_desynchronises :
    ColumnReader.create options "short" column 3 [] = .ok reader ∧
      ColumnCursor.Reached image reader.leaves reader started ∧ Serves image reader.leaves begun ∧
      reader.slice image 0 1 = some [.array false []] ∧
      ∃ error mid after, ColumnCursor.seek 2 (begun, started) = .error error (mid, after) ∧ after.ordinal = 0 ∧
        ∃ read last, ColumnCursor.next 1 (mid, after, fresh) = .ok read last ∧
          last.2.2.rowValues = [.array false [.flat (some [5])]] :=
  ⟨created, started_reached, started_at.1, by cbv, _, _, _, by cbv, by cbv, _, _, by cbv, by cbv⟩

end ShortFlags

end Columnar
