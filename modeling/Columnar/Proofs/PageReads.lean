import Mathlib.Tactic.Common
import Columnar.Proofs.PagePlace

namespace Columnar

open Columnar.Action

variable {σ : Type} [Sink σ]

/-- Booleans, which a read passes before the sink sees them. -/
def PageValues.areFlags : PageValues → Bool
  | .flags _ => true
  | .packed .. | .strings _ | .coded .. => false

namespace ValueCursor

/-- The number of values that a read finds. -/
def found (values : PageValues) (index count : Nat) : Nat := min count (values.count - index)

theorem next_apply (values : PageValues) (index count : Nat) (sink : σ) :
    next count (⟨values, index⟩, sink) =
      if values.areFlags then
        (do moveTo (index + found values index count); onSecond (push values index (found values index count))
            return found values index count : Action (ValueCursor × σ) Nat) (⟨values, index⟩, sink)
      else
        (do onSecond (push values index (found values index count)); moveTo (index + found values index count)
            return found values index count : Action (ValueCursor × σ) Nat) (⟨values, index⟩, sink) := by
  cases values <;> rfl

/-- A read that the sink takes passes what it found. -/
theorem next_of_accepted {values : PageValues} {index count : Nat} {sink after : σ} {value : Unit}
    (pushed : push values index (found values index count) sink = .ok value after) :
    next count (⟨values, index⟩, sink) =
      .ok (found values index count) (⟨values, index + found values index count⟩, after) := by
  rw [next_apply]
  split <;>
    simp only [bind_apply, moveTo, onFirst, onSecond, modify_apply, rewrap_ok, pure_apply, pushed]

/-- A read that the sink refuses stays where it is, unless the values are booleans. -/
theorem next_of_refused {values : PageValues} {index count : Nat} {sink after : σ} {error : Error}
    (pushed : push values index (found values index count) sink = .error error after) :
    next count (⟨values, index⟩, sink) =
      .error error (⟨values, index + if values.areFlags then found values index count else 0⟩, after) := by
  rw [next_apply]
  split <;>
    simp only [bind_apply, moveTo, onFirst, onSecond, modify_apply, rewrap_ok, rewrap_error, pushed, Nat.add_zero]

end ValueCursor

namespace DataPage

open ValueCursor (found)

/-- A read of values that succeeds has passed all of them. -/
theorem readValues_ok {page after : DataPage} {offset nulls index count : Nat} {sink sink' : σ} {value : Unit}
    (run : readValues count (page.placed offset nulls index, sink) = .ok value (after, sink')) :
    after = page.placed offset nulls (index + count) ∧ count ≤ page.values.count - index ∧
      ValueCursor.push page.values.values index count sink = .ok value sink' := by
  unfold readValues at run
  simp only [placed_values] at run
  cases pushed : ValueCursor.push page.values.values index (found page.values.values index count) sink with
  | error error rest =>
    rw [ValueCursor.next_of_refused pushed] at run
    cases run
  | ok value rest =>
    rw [ValueCursor.next_of_accepted pushed] at run
    dsimp only at run
    split at run
    · rename_i all
      cases run
      rw [all] at pushed ⊢
      exact ⟨rfl, Nat.le_trans (Nat.le_of_eq all.symm) (Nat.min_le_right ..), pushed⟩
    · cases run

theorem readValues_of_push {page : DataPage} {offset nulls index count : Nat} {sink sink' : σ} {value : Unit}
    (enough : count ≤ page.values.count - index)
    (pushed : ValueCursor.push page.values.values index count sink = .ok value sink') :
    readValues count (page.placed offset nulls index, sink) =
      .ok () (page.placed offset nulls (index + count), sink') := by
  have all : found page.values.values index count = count := Nat.min_eq_left enough
  rw [← all] at pushed
  unfold readValues
  simp only [placed_values]
  rw [ValueCursor.next_of_accepted pushed]
  simp only [all, if_true]
  rfl

/-- A read passes values of the page, whether or not it succeeds. -/
def Passes (page : DataPage) (count : Nat) (sink : σ) : Prop :=
  0 < found page.values.values page.values.index count ∧
    (page.values.values.areFlags ∨ ∃ value after, ValueCursor.push page.values.values page.values.index
      (found page.values.values page.values.index count) sink = .ok value after)

/-- A read of values that fails leaves the values where they are, unless it passes some. -/
theorem readValues_error {page after : DataPage} {offset nulls index count : Nat} {sink sink' : σ} {error : Error}
    (run : readValues count (page.placed offset nulls index, sink) = .error error (after, sink')) :
    ∃ passed, after = page.placed offset nulls (index + passed) ∧ passed ≤ page.values.count - index ∧
      (0 < passed ↔ (page.placed offset nulls index).Passes count sink) := by
  unfold readValues at run
  simp only [placed_values] at run
  have most : found page.values.values index count ≤ page.values.count - index := Nat.min_le_right ..
  cases pushed : ValueCursor.push page.values.values index (found page.values.values index count) sink with
  | error error rest =>
    rw [ValueCursor.next_of_refused pushed] at run
    cases run
    refine ⟨_, rfl, ?_, ?_⟩
    · split
      · exact most
      · exact Nat.zero_le _
    · simp only [Passes, placed_values, pushed]
      split <;> simp_all
  | ok value rest =>
    rw [ValueCursor.next_of_accepted pushed] at run
    dsimp only at run
    split at run
    · cases run
    · cases run
      refine ⟨_, rfl, most, ?_⟩
      simp [Passes, pushed]

omit [Sink σ] in
theorem Sound.passNulls_placed {page : DataPage} (sound : page.Sound) (offset index : Nat) {nulls rows : Nat}
    (within : nulls + rows ≤ page.rows) (sink : σ) :
    passNulls rows (page.placed offset nulls index, sink) =
      .ok () (page.placed offset (nulls + rows) index, sink) := by
  cases stored : page.nulls with
  | none => simp [passNulls, onFirst, placed, stored]
  | some cursor =>
    obtain ⟨skipped, moved, _⟩ := sound.skip_values stored within
    simp [passNulls, onFirst, placed, stored, moved]

/-- Runs that are read without failure are passed, and so are the values of their rows. -/
theorem Sound.readRuns_ok {page after : DataPage} (sound : page.Sound) {offset nulls index : Nat}
    {runs : List NullRun} (within : nulls + NullRun.rows runs ≤ page.rows) (inside : index ≤ page.values.count)
    {sink sink' : σ} {hasNull : Bool}
    (run : readRuns runs (page.placed offset nulls index, sink) = .ok hasNull (after, sink')) :
    after = page.placed offset (nulls + NullRun.rows runs) (index + (NullRun.expand runs).count false) ∧
      index + (NullRun.expand runs).count false ≤ page.values.count := by
  induction runs generalizing nulls index sink hasNull with
  | nil =>
    cases run
    exact ⟨rfl, inside⟩
  | cons first rest ih =>
    have rows : NullRun.rows (first :: rest) = first.length + NullRun.rows rest := rfl
    rw [rows] at within ⊢
    rw [readRuns] at run
    obtain ⟨_, _, passed, run⟩ := bind_ok run
    rw [sound.passNulls_placed offset index (by omega)] at passed
    cases passed
    dsimp only at run
    rw [NullRun.expand_cons, List.count_append, List.count_replicate]
    cases isNull : first.isNull with
    | true =>
      simp only [isNull, if_true] at run
      obtain ⟨_, ⟨reached, _⟩, push, run⟩ := bind_ok run
      obtain ⟨others, ⟨_, _⟩, run, done⟩ := bind_ok run
      cases done
      obtain rfl : reached = _ := (onSecond_ok push).2
      simpa [Nat.add_assoc] using ih (by omega) inside run
    | false =>
      simp only [isNull, Bool.false_eq_true, if_false] at run
      obtain ⟨_, ⟨reached, _⟩, push, run⟩ := bind_ok run
      obtain ⟨others, ⟨_, _⟩, run, done⟩ := bind_ok run
      cases done
      obtain ⟨rfl, values, _⟩ := readValues_ok push
      simpa [Nat.add_assoc] using ih (by omega) (by omega) run

/-- Runs that fail to be read are passed up to some row behind the first of them. -/
theorem Sound.readRuns_error {page after : DataPage} (sound : page.Sound) {offset nulls index : Nat}
    {runs : List NullRun} (filled : NullRun.Filled runs) (within : nulls + NullRun.rows runs ≤ page.rows)
    (inside : index ≤ page.values.count) {sink sink' : σ} {error : Error}
    (run : readRuns runs (page.placed offset nulls index, sink) = .error error (after, sink')) :
    ∃ place value, after = page.placed offset place value ∧ nulls < place ∧ place ≤ page.rows ∧
      value ≤ page.values.count := by
  induction runs generalizing nulls index sink with
  | nil => cases run
  | cons first rest ih =>
    have rows : NullRun.rows (first :: rest) = first.length + NullRun.rows rest := rfl
    have positive : 0 < first.length := filled first List.mem_cons_self
    have later : NullRun.Filled rest := fun other member => filled other (List.mem_cons_of_mem _ member)
    rw [rows] at within
    rw [readRuns] at run
    rcases bind_error run with passed | ⟨_, _, passed, run⟩
    · rw [sound.passNulls_placed offset index (by omega)] at passed
      cases passed
    · rw [sound.passNulls_placed offset index (by omega)] at passed
      cases passed
      dsimp only at run
      cases isNull : first.isNull with
      | true =>
        simp only [isNull, if_true] at run
        rcases bind_error run with push | ⟨_, ⟨reached, _⟩, push, run⟩
        · obtain rfl : after = _ := (onSecond_error push).2
          exact ⟨_, _, rfl, by omega, by omega, inside⟩
        · obtain rfl : reached = _ := (onSecond_ok push).2
          rcases bind_error run with run | ⟨_, _, _, done⟩
          · obtain ⟨place, value, same, behind, rest⟩ := ih later (by omega) inside run
            exact ⟨place, value, same, by omega, rest⟩
          · cases done
      | false =>
        simp only [isNull, Bool.false_eq_true, if_false] at run
        rcases bind_error run with push | ⟨_, ⟨reached, _⟩, push, run⟩
        · obtain ⟨passed, rfl, most, _⟩ := readValues_error push
          exact ⟨_, _, rfl, by omega, by omega, by omega⟩
        · obtain ⟨rfl, values, _⟩ := readValues_ok push
          rcases bind_error run with run | ⟨_, _, _, done⟩
          · obtain ⟨place, value, same, behind, rest⟩ := ih later (by omega) (by omega) run
            exact ⟨place, value, same, by omega, rest⟩
          · cases done

/-- The rows that a read passes. -/
def readable (page : DataPage) (count : Nat) : Nat := min count page.remaining

theorem next_noNulls {page : DataPage} (none : page.nulls = none) (count : Nat) (sink : σ) :
    next count (page, sink) =
      (do readValues (page.readable count)
          onFirst (modify fun after => { after with offset := after.offset + page.readable count })
          return ⟨page.readable count, false⟩ : Action (DataPage × σ) RowsRead) (page, sink) := by
  unfold next
  rw [bind_apply, get_apply]
  simp only [none]
  rfl

theorem next_nulls {page : DataPage} {nulls : NullCursor} (stored : page.nulls = some nulls) (count : Nat)
    (sink : σ) : next count (page, sink) =
      (do let hasNull ← readRuns (NullRun.take (page.readable count) nulls.ahead)
          if NullRun.rows (NullRun.take (page.readable count) nulls.ahead) < page.readable count then
            throw (.nullMapEnds (page.readable count - NullRun.rows
              (NullRun.take (page.readable count) nulls.ahead)))
          onFirst (modify fun after => { after with offset := after.offset + page.readable count })
          return ⟨page.readable count, hasNull⟩ : Action (DataPage × σ) RowsRead) (page, sink) := by
  unfold next
  rw [bind_apply, get_apply]
  simp only [stored]
  rfl

/-- A read of a page without a null map that succeeds passes as many values as rows. -/
theorem next_ok_noNulls {page after : DataPage} (none : page.nulls = none) {offset nulls index count : Nat}
    {sink sink' : σ} {read : RowsRead}
    (run : next count (page.placed offset nulls index, sink) = .ok read (after, sink')) :
    after = page.placed (offset + min count (page.rows - offset)) nulls (index + min count (page.rows - offset)) ∧
      min count (page.rows - offset) ≤ page.values.count - index := by
  rw [next_noNulls (by simp [none])] at run
  obtain ⟨_, ⟨_, _⟩, values, run⟩ := bind_ok run
  obtain ⟨rfl, most, _⟩ := readValues_ok values
  cases run
  exact ⟨rfl, most⟩

/-- A read of a page without a null map that fails leaves the page where it is, apart from the values it passed. -/
theorem next_error_noNulls {page after : DataPage} (none : page.nulls = none) {offset nulls index count : Nat}
    {sink sink' : σ} {error : Error}
    (run : next count (page.placed offset nulls index, sink) = .error error (after, sink')) :
    ∃ passed, after = page.placed offset nulls (index + passed) ∧ passed ≤ page.values.count - index ∧
      (0 < passed ↔
        (page.placed offset nulls index).Passes ((page.placed offset nulls index).readable count) sink) := by
  rw [next_noNulls (by simp [none])] at run
  rcases bind_error run with values | ⟨_, ⟨_, _⟩, _, run⟩
  · exact readValues_error values
  · cases run

/-- The part of the null map that a read goes through. -/
theorem Sound.rows_ahead {page : DataPage} (sound : page.Sound) {nulls : NullCursor}
    (stored : page.nulls = some nulls) (row count : Nat) :
    NullRun.rows (NullRun.take count (nulls.atRow row).ahead) = min count (page.rows - row) ∧
      NullRun.expand (NullRun.take count (nulls.atRow row).ahead) = (page.nullFlags.drop row).take count := by
  have flags : page.nullFlags = NullRun.expand nulls.runs := by simp [nullFlags, stored]
  refine ⟨?_, ?_⟩
  · rw [NullRun.rows_take, NullCursor.atRow, ← NullRun.length_expand, NullRun.expand_drop, List.length_drop,
      (sound nulls stored).2]
  · rw [NullRun.expand_take, NullCursor.atRow, NullRun.expand_drop, flags]

/-- A read of a page with a null map that succeeds passes its rows there and as many values as rows that have
one. -/
theorem Sound.next_ok_nulls {page after : DataPage} (sound : page.Sound) {nulls : NullCursor}
    (stored : page.nulls = some nulls) {offset place index count : Nat} (inside : index ≤ page.values.count)
    (known : place ≤ page.rows) {sink sink' : σ} {read : RowsRead}
    (run : next count (page.placed offset place index, sink) = .ok read (after, sink')) :
    after = page.placed (offset + min count (page.rows - offset)) (place + min count (page.rows - offset))
        (index + (page.valuesBefore (place + min count (page.rows - offset)) - page.valuesBefore place)) ∧
      place + min count (page.rows - offset) ≤ page.rows ∧
      index + (page.valuesBefore (place + min count (page.rows - offset)) - page.valuesBefore place)
        ≤ page.values.count := by
  have readable : (page.placed offset place index).readable count = min count (page.rows - offset) := rfl
  have has : (page.placed offset place index).nulls = some (nulls.atRow place) := by simp [stored]
  rw [next_nulls has, readable] at run
  obtain ⟨rows, flags⟩ := sound.rows_ahead stored place (min count (page.rows - offset))
  obtain ⟨_, ⟨_, _⟩, runs, run⟩ := bind_ok run
  obtain ⟨rfl, most⟩ := sound.readRuns_ok (by omega) inside runs
  rw [rows] at run
  dsimp only at run
  split at run
  · simp at run
  · rename_i all
    cases run
    have whole : min (min count (page.rows - offset)) (page.rows - place) =
      min count (page.rows - offset) := by omega
    rw [flags] at most
    rw [flags, whole, valuesBefore_add, Nat.add_sub_cancel_left]
    exact ⟨rfl, by omega, most⟩

/-- A read of a page with a null map that fails has passed the null map up to a row behind the one it was to
read. -/
theorem Sound.next_error_nulls {page after : DataPage} (sound : page.Sound) {nulls : NullCursor}
    (stored : page.nulls = some nulls) {offset place index count : Nat} (inside : index ≤ page.values.count)
    (known : place ≤ page.rows) {sink sink' : σ} {error : Error}
    (run : next count (page.placed offset place index, sink) = .error error (after, sink')) :
    ∃ place' index', after = page.placed offset place' index' ∧ place' ≤ page.rows ∧ index' ≤ page.values.count ∧
      (place = offset → offset < place') := by
  have readable : (page.placed offset place index).readable count = min count (page.rows - offset) := rfl
  have has : (page.placed offset place index).nulls = some (nulls.atRow place) := by simp [stored]
  rw [next_nulls has, readable] at run
  obtain ⟨rows, flags⟩ := sound.rows_ahead stored place (min count (page.rows - offset))
  have filled : NullRun.Filled (NullRun.take (min count (page.rows - offset)) (nulls.atRow place).ahead) :=
    ((sound nulls stored).1.drop place).take _
  rcases bind_error run with runs | ⟨_, ⟨_, _⟩, runs, run⟩
  · obtain ⟨place', index', same, behind, rest⟩ := sound.readRuns_error filled (by omega) inside runs
    exact ⟨place', index', same, rest.1, rest.2, by omega⟩
  · obtain ⟨rfl, most⟩ := sound.readRuns_ok (by omega) inside runs
    rw [rows] at run
    dsimp only at run
    split at run
    · simp only [bind_apply, throw_apply, EStateM.Result.error.injEq, Prod.mk.injEq] at run
      obtain ⟨rfl, rfl, rfl⟩ := run
      exact ⟨_, _, rfl, by omega, most, by omega⟩
    · cases run

end DataPage

end Columnar
