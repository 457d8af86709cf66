import Columnar.Proofs.AppendedRows
import Columnar.Proofs.HeldRows
import Columnar.Sink.Packed

namespace Columnar

namespace Action

variable {σ τ α β : Type}

/-- A step that fails leaves every state as it was. -/
def Atomic (step : Action σ α) : Prop := ∀ state error after, step state = .error error after → after = state

/-- A step that fails has nothing behind it. -/
theorem Atomic.refused (error : Error) (next : α → Action σ β) : Atomic ((throw error : Action σ α) >>= next) := by
  intro state found after fails
  cases fails
  rfl

theorem Atomic.throw (error : Error) : Atomic (throw error : Action σ α) := by
  intro state found after fails
  cases fails
  rfl

theorem Atomic.modify (change : σ → σ) : Atomic (modify change : Action σ PUnit) := nofun

theorem Atomic.set (state : σ) : Atomic (set state : Action σ PUnit) := nofun

theorem Atomic.get_bind {next : σ → Action σ α} (later : ∀ state, Atomic (next state)) : Atomic (get >>= next) :=
  fun state => later state state

theorem Atomic.ite {condition : Prop} [Decidable condition] {yes no : Action σ α} (first : Atomic yes)
    (second : Atomic no) : Atomic (if condition then yes else no) := by
  split
  · exact first
  · exact second

/-- A step on a part of a state leaves all of it as it was, if it does so with the part. -/
theorem Atomic.rewrap {step : Action σ α} (atomic : Atomic step) {wrap : σ → τ} {state : σ} {error : Error}
    {after : τ} (fails : rewrap wrap (step state) = .error error after) : after = wrap state := by
  obtain ⟨inner, found, rfl⟩ := rewrap_eq_error fails
  rw [atomic state error inner found]

end Action

open Columnar.Action

namespace FixedBuffer

theorem atomic_pushNulls (count : Nat) : Atomic (FixedBuffer.pushNulls count) := by
  refine Atomic.get_bind fun buffer => .ite (.refused _ _) ?_
  cases Room.cut buffer.rows.length count with
  | none => exact .modify _
  | some kept => exact .set _

theorem atomic_push (call : PushCall) : Atomic (call.run : Action FixedBuffer Unit) := by
  cases call with
  | fixed values count =>
    change Atomic (FixedBuffer.pushFixed values count)
    exact Atomic.get_bind fun _ => .ite (.refused _ _) (.ite (.refused _ _) (.modify _))
  | bytes value =>
    change Atomic (FixedBuffer.pushBytes value)
    exact Atomic.get_bind fun _ => .ite (.refused _ _) (.modify _)
  | nulls count => exact atomic_pushNulls count
  | repeated value count =>
    change Atomic (FixedBuffer.pushRepeated value count)
    exact Atomic.get_bind fun _ => .ite (atomic_pushNulls count) (.ite (.throw _) (.modify _))

end FixedBuffer

namespace BytesBuffer

theorem atomic_pushNulls (count : Nat) : Atomic (BytesBuffer.pushNulls count) := by
  refine Atomic.get_bind fun buffer => .ite (.refused _ _) ?_
  cases Room.cut buffer.rows.length count <;> exact .set _

theorem atomic_push (call : PushCall) : Atomic (call.run : Action BytesBuffer Unit) := by
  cases call with
  | fixed values count =>
    change Atomic (BytesBuffer.pushFixed values count)
    exact Atomic.get_bind fun _ => .throw _
  | bytes value => exact Atomic.modify _
  | nulls count => exact atomic_pushNulls count
  | repeated value count =>
    change Atomic (BytesBuffer.pushRepeated value count)
    cases value with
    | null => exact atomic_pushNulls count
    | bytes stored => exact Atomic.modify _
    | _ => exact Atomic.get_bind fun _ => .throw _

end BytesBuffer

namespace PackedColumn

theorem atomic_pushFixed (values : Bytes) (count : Nat) : Atomic (PackedColumn.pushFixed values count) :=
  Atomic.get_bind fun _ => .ite (.refused _ _) (.ite (.refused _ _) (.modify _))

theorem atomic_pushNulls (count : Nat) : Atomic (PackedColumn.pushNulls count) := by
  refine Atomic.get_bind fun column => ?_
  cases column.nulls with
  | none => exact .throw _
  | some flags =>
    dsimp only
    cases Room.cut flags.length count <;> exact .set _

theorem atomic_push (call : PushCall) : Atomic (call.run : Action PackedColumn Unit) := by
  cases call with
  | fixed values count => exact atomic_pushFixed values count
  | bytes value =>
    change Atomic (PackedColumn.pushBytes value)
    exact Atomic.get_bind fun _ => .ite (.refused _ _) (atomic_pushFixed value 1)
  | nulls count => exact atomic_pushNulls count
  | repeated value count =>
    change Atomic (PackedColumn.pushRepeated value count)
    exact Atomic.get_bind fun _ => .ite (atomic_pushNulls count) (.ite (.throw _) (.modify _))

end PackedColumn

namespace FencedColumn

theorem atomic_pushNulls (count : Nat) : Atomic (FencedColumn.pushNulls count) := by
  refine Atomic.get_bind fun column => ?_
  cases column.nulls with
  | none => exact .throw _
  | some flags =>
    dsimp only
    cases Room.cut flags.length count <;> exact .set _

theorem atomic_push (call : PushCall) : Atomic (call.run : Action FencedColumn Unit) := by
  cases call with
  | fixed values count =>
    change Atomic (FencedColumn.pushFixed values count)
    exact Atomic.get_bind fun _ => .throw _
  | bytes value => exact Atomic.modify _
  | nulls count => exact atomic_pushNulls count
  | repeated value count =>
    change Atomic (FencedColumn.pushRepeated value count)
    cases value with
    | null => exact atomic_pushNulls count
    | bytes stored => exact Atomic.modify _
    | _ => exact Atomic.get_bind fun _ => .throw _

end FencedColumn

namespace ArrayRows

theorem atomic_pushNulls (count : Nat) : Atomic (ArrayRows.pushNulls count) := by
  intro rows error after fails
  rw [ArrayRows.pushNulls, bind_apply, get_apply] at fails
  cases held : rows.flags with
  | none =>
    simp only [held] at fails
    cases fails
    rfl
  | some flags =>
    simp only [held] at fails
    obtain refused | ⟨_, _, _, never⟩ := bind_error fails
    · rw [(FixedBuffer.atomic_push (.repeated (.boolean true) count)).rewrap refused]
      change { rows with flags := some flags } = rows
      rw [← held]
    · cases never

theorem atomic_push (call : PushCall) : Atomic (call.run : Action ArrayRows Unit) := by
  cases call with
  | fixed values count => exact Atomic.throw _
  | bytes value => exact Atomic.throw _
  | nulls count => exact atomic_pushNulls count
  | repeated value count => exact Atomic.ite (atomic_pushNulls count) (.throw _)

end ArrayRows

theorem Batch.atomic_push (call : PushCall) : Atomic (call.run : Action Batch Unit) := by
  intro batch error after fails
  cases batch with
  | fixed buffer =>
    have wraps : call.run (fixed buffer) = rewrap fixed (call.run buffer) := by cases call <;> rfl
    exact (FixedBuffer.atomic_push call).rewrap (wraps.symm.trans fails)
  | bytes buffer =>
    have wraps : call.run (bytes buffer) = rewrap bytes (call.run buffer) := by cases call <;> rfl
    exact (BytesBuffer.atomic_push call).rewrap (wraps.symm.trans fails)
  | array rows items =>
    have wraps : call.run (array rows items) = rewrap (array · items) (call.run rows) := by cases call <;> rfl
    exact (ArrayRows.atomic_push call).rewrap (wraps.symm.trans fails)

namespace OffsetBuffer

variable {buffer after : OffsetBuffer} {values stored : Bytes} {count : Nat} {error : Error}

/-- The slice has as many bytes as the lengths are said to have. -/
def Enough (buffer : OffsetBuffer) (values : Bytes) (count : Nat) : Prop :=
  Bytes.sizeFor buffer.width count values ≤ values.length

/-- The lengths that are read from a slice. -/
def lengthsIn (buffer : OffsetBuffer) (values : Bytes) (count : Nat) : List Int :=
  (Bytes.pieces buffer.width (min count (values.length / buffer.width)) values).map (lengthOf buffer.type)

/-- A push is broken off when some of its lengths have been taken: one of them is negative, and the first one is
not. -/
def BreaksOff (buffer : OffsetBuffer) : PushCall → Prop
  | .fixed values count => buffer.Enough values count ∧
      ∃ first rest, buffer.lengthsIn values count = first :: rest ∧ 0 ≤ first ∧ ∃ length ∈ rest, length < 0
  | _ => False

/-- The lengths of a push in front of the first negative one. -/
def taken (buffer : OffsetBuffer) : PushCall → List Nat
  | .fixed values count => ((buffer.lengthsIn values count).takeWhile (0 ≤ ·)).map Int.toNat
  | _ => []

theorem pushFixed_short (short : ¬buffer.Enough values count) : OffsetBuffer.pushFixed values count buffer =
    .error (.shortLengths (Bytes.sizeFor buffer.width count values) count values.length) buffer := by
  rw [OffsetBuffer.pushFixed, bind_apply, get_apply]
  dsimp only
  rw [if_pos (Nat.not_le.mp short)]
  rfl

theorem pushFixed_enough (enough : buffer.Enough values count) :
    OffsetBuffer.pushFixed values count buffer =
      (append (((buffer.lengthsIn values count).takeWhile (0 ≤ ·)).map Int.toNat) >>= fun _ =>
        if (buffer.lengthsIn values count).any (· < 0) then throw .negativeLength else pure ()) buffer := by
  rw [OffsetBuffer.pushFixed, bind_apply, get_apply]
  dsimp only
  rw [if_neg (Nat.not_lt.mpr enough)]
  rfl

theorem pushFixed_negative (enough : buffer.Enough values count)
    (negative : ∃ length ∈ buffer.lengthsIn values count, length < 0) :
    OffsetBuffer.pushFixed values count buffer = .error .negativeLength
      (leftBy (append (((buffer.lengthsIn values count).takeWhile (0 ≤ ·)).map Int.toNat)) buffer) := by
  have found : (buffer.lengthsIn values count).any (· < 0) = true := by simpa using negative
  rw [pushFixed_enough enough, found]
  rfl

theorem pushFixed_accepted (enough : buffer.Enough values count)
    (none : ∀ length ∈ buffer.lengthsIn values count, 0 ≤ length) :
    OffsetBuffer.pushFixed values count buffer = append ((buffer.lengthsIn values count).map Int.toNat) buffer := by
  have all : (buffer.lengthsIn values count).takeWhile (0 ≤ ·) = buffer.lengthsIn values count :=
    List.takeWhile_eq_self_iff.mpr fun length member => decide_eq_true (none length member)
  have clean : (buffer.lengthsIn values count).any (· < 0) = false := by simpa using none
  rw [pushFixed_enough enough, all, clean]
  rfl

/-- A push of lengths that fails leaves the places as they were, unless it is broken off. -/
theorem pushFixed_kept (whole : ¬buffer.BreaksOff (.fixed values count))
    (fails : OffsetBuffer.pushFixed values count buffer = .error error after) : after = buffer := by
  by_cases enough : buffer.Enough values count
  case neg =>
    rw [pushFixed_short enough] at fails
    cases fails
    rfl
  case pos =>
    by_cases negative : ∃ length ∈ buffer.lengthsIn values count, length < 0
    · rw [pushFixed_negative enough negative] at fails
      cases read : buffer.lengthsIn values count with
      | nil =>
        rw [read] at negative
        obtain ⟨_, member, _⟩ := negative
        cases member
      | cons first rest =>
        -- the first length is the negative one, so that none is taken
        have below : first < 0 := by
          by_contra above
          rw [read] at negative
          obtain ⟨length, member, under⟩ := negative
          rcases List.mem_cons.mp member with rfl | later
          · exact above under
          · exact whole ⟨enough, first, rest, read, Int.not_lt.mp above, length, later, under⟩
        rw [read, List.takeWhile_cons_of_neg (by simpa using below)] at fails
        cases fails
        exact congrArg (fun fences => { buffer with fences }) (List.append_nil buffer.fences)
    · rw [pushFixed_accepted enough fun length member => Int.not_lt.mp fun below =>
        negative ⟨length, member, below⟩] at fails
      cases fails

theorem not_breaksOff_one (buffer : OffsetBuffer) (stored : Bytes) : ¬buffer.BreaksOff (.fixed stored 1) := by
  rintro ⟨_, first, rest, read, _, length, member, _⟩
  have one := congrArg List.length read
  rw [lengthsIn, List.length_map, Bytes.length_pieces, List.length_cons] at one
  have : 0 < rest.length := List.length_pos_of_mem member
  omega

theorem pushFixed_ok (run : OffsetBuffer.pushFixed values count buffer = .ok () after) :
    buffer.Enough values count ∧ ∀ length ∈ buffer.lengthsIn values count, 0 ≤ length := by
  by_cases enough : buffer.Enough values count
  · refine ⟨enough, fun length member => Int.not_lt.mp fun below => ?_⟩
    rw [pushFixed_negative enough ⟨length, member, below⟩] at run
    cases run
  · rw [pushFixed_short enough] at run
    cases run

/-- A length that is taken once is taken as often as it is pushed. -/
theorem pushSame_ok (enough : buffer.Enough stored 1) (none : ∀ length ∈ buffer.lengthsIn stored 1, 0 ≤ length)
    (count : Nat) : ∃ last, pushSame stored count buffer = .ok () last := by
  induction count generalizing buffer with
  | zero => exact ⟨buffer, rfl⟩
  | succ count ih =>
    let next := leftBy (append ((buffer.lengthsIn stored 1).map Int.toNat)) buffer
    have first : OffsetBuffer.pushFixed stored 1 buffer = .ok () next := pushFixed_accepted enough none
    obtain ⟨last, others⟩ := @ih next enough none
    refine ⟨last, ?_⟩
    rw [pushSame, bind_apply, first]
    exact others

theorem pushSame_kept (fails : pushSame stored count buffer = .error error after) : after = buffer := by
  cases count with
  | zero => cases fails
  | succ count =>
    obtain first | ⟨_, mid, first, _⟩ := bind_error fails
    · exact pushFixed_kept (not_breaksOff_one buffer stored) first
    · obtain ⟨enough, none⟩ := pushFixed_ok first
      obtain ⟨last, all⟩ := pushSame_ok enough none (count + 1)
      cases all.symm.trans fails

/-- What a push leaves when it is broken off: all lengths in front of the negative one. -/
theorem run_of_breaksOff {call : PushCall} (breaks : buffer.BreaksOff call) :
    buffer.taken call ≠ [] ∧
      ∃ after, call.run buffer = .error .negativeLength after ∧
        after.fences = buffer.fences ++ buffer.taken call := by
  cases call with
  | fixed values count =>
    obtain ⟨enough, first, rest, read, above, length, member, below⟩ := breaks
    have found : ∃ length ∈ buffer.lengthsIn values count, length < 0 :=
      ⟨length, read ▸ List.mem_cons_of_mem first member, below⟩
    refine ⟨?_, _, pushFixed_negative enough found, rfl⟩
    rw [taken, read, List.takeWhile_cons_of_pos (by simpa using above)]
    exact List.cons_ne_nil _ _
  | bytes value => exact breaks.elim
  | nulls count => exact breaks.elim
  | repeated value count => exact breaks.elim

/-- A push that fails leaves the places as they were, unless it is broken off. -/
theorem push_kept {call : PushCall} (whole : ¬buffer.BreaksOff call)
    (fails : call.run buffer = .error error after) : after = buffer := by
  cases call with
  | fixed values count => exact pushFixed_kept whole fails
  | bytes value => exact Atomic.throw _ _ _ _ fails
  | nulls count => exact Atomic.throw _ _ _ _ fails
  | repeated value count =>
    change OffsetBuffer.pushRepeated value count buffer = _ at fails
    rw [OffsetBuffer.pushRepeated] at fails
    split at fails
    · exact Atomic.throw _ _ _ _ fails
    · exact pushSame_kept fails

end OffsetBuffer

/-- A push that fails leaves a sink as it was. Only a push of array lengths does not: where it is broken off, the
lengths in front of the negative one stay behind the places. -/
theorem PushCall.fails_whole_iff (call : PushCall) :
    Atomic (call.run : Action FixedBuffer Unit) ∧ Atomic (call.run : Action PackedColumn Unit) ∧
      Atomic (call.run : Action BytesBuffer Unit) ∧ Atomic (call.run : Action FencedColumn Unit) ∧
      Atomic (call.run : Action ArrayRows Unit) ∧ Atomic (call.run : Action Batch Unit) ∧
      ∀ buffer : OffsetBuffer,
        ((∀ error after, call.run buffer = .error error after → after = buffer) ↔ ¬buffer.BreaksOff call) ∧
        (buffer.BreaksOff call → buffer.taken call ≠ [] ∧
          ∃ after, call.run buffer = .error .negativeLength after ∧
            after.fences = buffer.fences ++ buffer.taken call) := by
  refine ⟨FixedBuffer.atomic_push call, PackedColumn.atomic_push call, BytesBuffer.atomic_push call,
    FencedColumn.atomic_push call, ArrayRows.atomic_push call, Batch.atomic_push call,
    fun buffer => ⟨⟨fun kept breaks => ?_, fun whole _ _ fails => OffsetBuffer.push_kept whole fails⟩,
      OffsetBuffer.run_of_breaksOff⟩⟩
  obtain ⟨some, after, fails, grown⟩ := OffsetBuffer.run_of_breaksOff breaks
  rw [kept _ _ fails] at grown
  exact some (List.self_eq_append_right.mp grown)

/-- One length of two is taken, although the push fails. -/
theorem broken_push_grows : ∃ after,
    (PushCall.fixed [1, 0, 0, 0, 255, 255, 255, 255] 2).run ({ type := .integer .int } : OffsetBuffer) =
      .error .negativeLength after ∧
    Sink.length ({ type := .integer .int } : OffsetBuffer) = 0 ∧ Sink.length after = 1 ∧ after.fences = [0, 1] :=
  ⟨_, rfl, rfl, rfl, rfl⟩

end Columnar
