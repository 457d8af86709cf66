import Columnar.ColumnCursor
import Columnar.Proofs.ColumnReads
import Columnar.Proofs.UniformSteps

namespace Columnar

open Columnar.Action

/-- Cursors on the null flags of an array column that are alike, where it has any. -/
inductive FlagsAlike (also : LeafReader → LeafCursor → LeafCursor → Prop) :
    Option LeafReader → Option LeafCursor → Option LeafCursor → Prop
  | none : FlagsAlike also none none none
  | some {reader : LeafReader} {cursor other : LeafCursor} (same : also reader cursor other) :
    FlagsAlike also (some reader) (some cursor) (some other)

theorem FlagsAlike.isSome_eq {also : LeafReader → LeafCursor → LeafCursor → Prop} {flags : Option LeafReader}
    {cursor other : Option LeafCursor} (same : FlagsAlike also flags cursor other) :
    cursor.isSome = other.isSome := by
  cases same <;> rfl

structure ArrayCursor.Alike (also : LeafReader → LeafCursor → LeafCursor → Prop) (lengths : LeafReader)
    (flags : Option LeafReader) (cursor other : ArrayCursor) : Prop where
  lengths : also lengths cursor.lengths other.lengths
  flags : FlagsAlike also flags cursor.flags other.flags
  itemRows : cursor.itemRows = other.itemRows
  ordinal : cursor.ordinal = other.ordinal

/-- Cursors on a column that are alike, leaf by leaf. -/
inductive ColumnCursor.Alike (also : LeafReader → LeafCursor → LeafCursor → Prop) : ColumnReader → ColumnCursor →
    ColumnCursor → Prop
  | empty {reader : ColumnReader} (none : reader.rows = 0) : Alike also reader empty empty
  | leaf {reader : LeafReader} {cursor other : LeafCursor} (same : also reader cursor other) :
    Alike also (.leaf reader) (leaf cursor) (leaf other)
  | array {items : ColumnReader} {lengths : LeafReader} {flags : Option LeafReader} {cursor other : ArrayCursor}
    {inner inner' : ColumnCursor} (same : cursor.Alike also lengths flags other)
    (inside : Alike also items inner inner') :
    Alike also (.array items lengths flags) (array cursor inner) (array other inner')

variable {near : Error → Error → Prop} {alike : Session → Session → Prop}
  {also : LeafReader → LeafCursor → LeafCursor → Prop}

/-- From cursors on a leaf that are alike, reads come to the same. -/
def LeafReader.ReadsAlike (near : Error → Error → Prop) (alike : Session → Session → Prop)
    (also : LeafReader → LeafCursor → LeafCursor → Prop) (reader : LeafReader) : Prop :=
  (∀ cursor other, also reader cursor other → cursor.reader = other.reader) ∧
    ∀ {σ : Type} [Sink σ] (count : Nat), Uniform near (Beside alike (Beside (also reader) (· = ·)))
      (LeafCursor.next count : Action (Session × LeafCursor × σ) RowsRead)

namespace ArrayCursor

variable {lengths : LeafReader} {flags : Option LeafReader} {session session' : Session}
  {cursor other : ArrayCursor} {rows : ArrayRows}

theorem readLengths_uniform (reads : lengths.ReadsAlike near alike also) (count : Nat) :
    Uniform near (Beside alike (Beside (Alike also lengths flags) (· = ·))) (readLengths count) := by
  rintro ⟨session, cursor, rows⟩ ⟨session', other, rows'⟩ ⟨same, level, rfl⟩
  refine (reads.2 count (session, cursor.lengths, rows.offsets) (session', other.lengths, rows.offsets)
    ⟨same, level.lengths, rfl⟩).rewrap ?_ ?_
  · rintro read ⟨mid, reached, filled⟩ ⟨mid', reached', filled'⟩ ⟨same, there, rfl⟩
    exact ⟨same, ⟨there, level.flags, level.itemRows, level.ordinal⟩, rfl⟩
  · rintro ⟨mid, reached, filled⟩ ⟨mid', reached', filled'⟩ ⟨same, there, rfl⟩
    exact ⟨same, ⟨there, level.flags, level.itemRows, level.ordinal⟩, rfl⟩

theorem readFlags_uniform (nearness : Nearness near) (reads : ∀ reader ∈ flags, reader.ReadsAlike near alike also)
    (count : Nat) : Uniform near (Beside alike (Beside (Alike also lengths flags) (· = ·))) (readFlags count) := by
  rintro ⟨session, cursor, rows⟩ ⟨session', other, rows'⟩ ⟨same, level, rfl⟩
  have flagged := level.flags
  simp only [readFlags]
  cases held : cursor.flags with
  | none =>
    cases held' : other.flags with
    | none => exact ⟨rfl, same, level, rfl⟩
    | some flags' =>
      rw [held, held'] at flagged
      cases flagged
  | some stored =>
    cases held' : other.flags with
    | none =>
      rw [held, held'] at flagged
      cases flagged
    | some stored' =>
      rw [held, held'] at flagged
      cases flagged with
      | @some reader _ _ there =>
        cases rows.flags with
        | none => exact ⟨nearness.equal.refl _, same, level, rfl⟩
        | some buffer =>
          have concur := (reads _ rfl).2 count (session, stored, buffer) (session', stored', buffer)
            ⟨same, there, rfl⟩
          have level (moved moved' : LeafCursor) (there : also reader moved moved') :
              Alike also lengths (some reader) { cursor with flags := some moved }
                { other with flags := some moved' } :=
            ⟨level.lengths, .some there, level.itemRows, level.ordinal⟩
          obtain ⟨read, ⟨mid, moved, filled⟩, ⟨mid', moved', filled'⟩, run, run', same, there, rfl⟩ |
            ⟨error, error', ⟨mid, moved, filled⟩, ⟨mid', moved', filled'⟩, run, run', fails, same, there, rfl⟩ :=
              concur.both
          · simp only [run, run']
            split
            · exact ⟨rfl, same, level moved moved' there, rfl⟩
            · exact ⟨nearness.equal.refl _, same, level moved moved' there, rfl⟩
          · simp only [run, run']
            exact ⟨fails, same, level moved moved' there, rfl⟩

/-- What an array read finds before it comes to the items. -/
theorem readRows_uniform (nearness : Nearness near) (reads : lengths.ReadsAlike near alike also)
    (reads' : ∀ reader ∈ flags, reader.ReadsAlike near alike also) (count : Nat) :
    Uniform near (Beside alike (Beside (Alike also lengths flags) (· = ·))) (readRows count) := by
  rintro ⟨session, cursor, rows⟩ ⟨session', other, rows'⟩ ⟨same, level, rfl⟩
  rw [readRows, bind_apply, bind_apply, get_apply, get_apply]
  dsimp only
  refine (readLengths_uniform reads count _ _ ⟨same, level, rfl⟩).bind ?_
  rintro found ⟨mid, reached, filled⟩ ⟨mid', reached', filled'⟩ ⟨same, level, rfl⟩
  cases found.hasNull with
  | true =>
    have one : reached.lengths.reader = reached'.lengths.reader := reads.1 _ _ level.lengths
    simp only [if_true, bind_apply, get_apply, one]
    exact ⟨nearness.equal.refl _, same, level, rfl⟩
  | false =>
    simp only [Bool.false_eq_true, if_false]
    have told : Uniform near (Beside alike (Beside (Alike also lengths flags) (· = ·))) (do
        let after := (← get).2.2
        let firstItem := after.itemOffset rows.length
        let items := (after.itemOffset (rows.length + found.rows) - firstItem) % 2 ^ 64
        return ⟨rows.length, found.rows, firstItem, items⟩ :
          Action (Session × ArrayCursor × ArrayRows) ArrayRead) := by
      rintro ⟨session, cursor, rows⟩ ⟨session', other, rows'⟩ ⟨same, level, rfl⟩
      exact ⟨rfl, same, level, rfl⟩
    refine (Uniform.equal nearness _).onSecond.onSecond.bind (fun _ => ?_) _ _ ⟨same, level, rfl⟩
    split
    · exact (readFlags_uniform nearness reads' _).bind fun _ => told
    · exact told

end ArrayCursor

namespace ColumnCursor

variable {reader items : ColumnReader} {lengths : LeafReader} {flags : Option LeafReader}

theorem finishRows_concur (near : Error → Error → Prop) {session session' : Session} (same : alike session session')
    {cursor other : ArrayCursor} (level : cursor.Alike also lengths flags other) {inner inner' : ColumnCursor}
    (inside : inner.Alike also items inner') (read : ArrayRead) (grown : Bool) (rows : ArrayRows) (batch : Batch) :
    Concur near (fun _ => Beside alike (Beside (Alike also (.array items lengths flags)) (· = ·)))
      (Beside alike (Beside (Alike also (.array items lengths flags)) (· = ·)))
      (finishRows read grown session cursor inner rows batch)
      (finishRows read grown session' other inner' rows batch) := by
  have flagged := level.flags.isSome_eq
  refine ⟨by rw [flagged], same, .array ⟨level.lengths, level.flags, level.itemRows, ?_⟩ inside, rfl⟩
  dsimp only
  rw [level.ordinal]

/-- From cursors on a column that are alike a read comes to the same, where reads of its leaves do. -/
theorem nextFrom_concur (nearness : Nearness near) {readers : List LeafReader}
    (reads : ∀ leaf ∈ readers, leaf.ReadsAlike near alike also) (members : ∀ leaf ∈ reader.leaves, leaf ∈ readers)
    {cursor other : ColumnCursor} (level : cursor.Alike also reader other) {session session' : Session}
    (same : alike session session') (count : Nat) (batch : Batch) :
    Concur near (fun _ => Beside alike (Beside (Alike also reader) (· = ·)))
      (Beside alike (Beside (Alike also reader) (· = ·))) (cursor.nextFrom count session batch)
      (other.nextFrom count session' batch) := by
  induction level generalizing session session' count batch with
  | empty none => exact ⟨rfl, same, .empty none, rfl⟩
  | @leaf reader cursor other there =>
    refine ((reads reader (members reader List.mem_cons_self)).2 count (session, cursor, batch)
      (session', other, batch) ⟨same, there, rfl⟩).rewrap ?_ ?_
    · rintro read after after' ⟨same, there, filled⟩
      exact ⟨same, .leaf there, filled⟩
    · rintro after after' ⟨same, there, filled⟩
      exact ⟨same, .leaf there, filled⟩
  | @array items lengths flags cursor other inner inner' level inside ih =>
    obtain ⟨inItems, member, members'⟩ := ColumnReader.leaves_array members
    cases batch with
    | fixed buffer => exact ⟨nearness.equal.refl _, same, .array level inside, rfl⟩
    | bytes buffer => exact ⟨nearness.equal.refl _, same, .array level inside, rfl⟩
    | array rows batch =>
      have concur := ArrayCursor.readRows_uniform nearness (reads lengths member)
        (fun reader held => reads reader (members' reader held)) count (session, cursor, rows)
          (session', other, rows)
        ⟨same, level, rfl⟩
      rw [nextFrom, nextFrom]
      obtain ⟨read, ⟨mid, moved, filled⟩, ⟨mid', moved', filled'⟩, run, run', same, level, rfl⟩ |
        ⟨error, error', ⟨mid, moved, filled⟩, ⟨mid', moved', filled'⟩, run, run', fails, same, level, rfl⟩ :=
          concur.both
      · rw [run, run']
        dsimp only
        split
        · exact ⟨rfl, same, .array level inside, rfl⟩
        · split
          · exact finishRows_concur near same level inside read false filled batch
          · have start : Beside alike (Beside (Alike also items) (· = ·)) (mid, inner, batch)
              (mid', inner', batch) :=
              ⟨same, inside, rfl⟩
            have concur := (ih inItems same read.items (batch.ensureCapacity read.stop).2).outcome nearness
              (batch.affords read.stop) (fun found => found.rows = read.items) start
            obtain ⟨found, ⟨last, stopped, full⟩, ⟨last', stopped', full'⟩, inner, inner', same, inside, rfl⟩ |
              ⟨error, error', ⟨last, stopped, full⟩, ⟨last', stopped', full'⟩, inner, inner', fails, same,
                inside, rfl⟩ :=
              concur.both
            · rw [inner, inner']
              dsimp only
              split
              · exact finishRows_concur near same level inside read _ filled full
              · exact ⟨nearness.equal.refl _, same, .array level inside, rfl⟩
            · rw [inner, inner']
              exact ⟨fails, same, .array level inside, rfl⟩
      · rw [run, run']
        exact ⟨fails, same, .array level inside, rfl⟩

theorem next_uniform (nearness : Nearness near) {readers : List LeafReader}
    (reads : ∀ leaf ∈ readers, leaf.ReadsAlike near alike also) (members : ∀ leaf ∈ reader.leaves, leaf ∈ readers)
    (count : Nat) : Uniform near (Beside alike (Beside (Alike also reader) (· = ·))) (next count) := by
  rintro ⟨session, cursor, batch⟩ ⟨session', other, batch'⟩ ⟨same, level, rfl⟩
  exact nextFrom_concur nearness reads members level same count batch

end ColumnCursor

end Columnar
