import Columnar.Proofs.SinkIntakes
import Columnar.Proofs.StoredLeaf
import Columnar.Proofs.WordPages

namespace Columnar

open Columnar.Action ValueCursor

variable {values : PageValues} {index count : Nat} {error : Error}

/-- Only a layout of bits gives booleans that are passed before they are pushed. -/
theorem PageValues.InCoding.areFlags_iff {coding : Coding} (laid : values.InCoding coding) :
    values.areFlags = true ↔ coding = .bits := by
  cases coding <;> cases values <;> simp_all [PageValues.InCoding, PageValues.areFlags]

namespace ValueCursor

variable {τ : Type} [Sink τ] {sink rest : τ} {cursor : ValueCursor}

omit [Sink τ] in
theorem add_found_le (within : index ≤ values.count) (count : Nat) :
    index + found values index count ≤ values.count := by
  have most : found values index count ≤ values.count - index := Nat.min_le_right ..
  omega

/-- A read that fails goes nowhere, unless the values are booleans. -/
theorem next_error (fails : next count (⟨values, index⟩, sink) = .error error (cursor, rest)) :
    cursor = ⟨values, index + if values.areFlags then found values index count else 0⟩ := by
  cases pushed : push values index (found values index count) sink with
  | ok value after =>
    rw [next_of_accepted pushed] at fails
    cases fails
  | error refused after =>
    rw [next_of_refused pushed] at fails
    cases fails
    rfl

/-- A read gives a sink that takes what is stored the values from the place on, and passes them. -/
theorem next_meets {ρ : Type} {intake : Intake τ ρ} (suits : intake.Suits values) (within : index ≤ values.count)
    (fits : intake.Fits sink) (count : Nat) :
    Meets (next count (⟨values, index⟩, sink))
      (((List.range' index (found values index count)).map values.slot).mapM intake.take)
      fun more read after => read = found values index count ∧
        after.1 = ⟨values, index + found values index count⟩ ∧
        intake.Grown sink more after.2 := by
  have pushes := Intake.push_meets suits (add_found_le within count) fits
  cases pushed : push values index (found values index count) sink with
  | ok value after =>
    obtain ⟨more, same, grown⟩ := pushes.of_ok pushed
    rw [next_of_accepted pushed]
    exact ⟨more, same, rfl, rfl, grown⟩
  | error refused after =>
    rw [pushed] at pushes
    rw [next_of_refused pushed]
    exact pushes

end ValueCursor

namespace ValueCall

/-- No call goes beyond the values of the page. -/
theorem run_within (within : index ≤ values.count) (call : ValueCall) :
    (call.run ⟨values, index⟩).2.index ≤ values.count := by
  cases call with
  | seek target =>
    simp only [run, Action.run, seek_apply]
    by_cases there : target ≤ ValueCursor.count ⟨values, index⟩
    · simp only [there, if_true]
      exact there
    · simp only [there, if_false]
      exact within
  | @next σ _ count sink =>
    simp only [run, Action.run]
    cases pushed : push values index (found values index count) sink with
    | ok value after =>
      rw [next_of_accepted pushed]
      exact add_found_le within count
    | error refused after =>
      rw [next_of_refused pushed]
      dsimp only
      split
      · exact add_found_le within count
      · exact within

/-- Calls leave the values as they are, and a place among them. -/
theorem afterAll_within (within : index ≤ values.count) (calls : List ValueCall) :
    ∃ place, afterAll ⟨values, index⟩ calls = ⟨values, place⟩ ∧ place ≤ values.count := by
  induction calls generalizing index with
  | nil => exact ⟨index, rfl, within⟩
  | cons call rest ih =>
    rw [afterAll, List.foldl_cons, run_values]
    exact ih (run_within within call)

end ValueCall

namespace PageValues

variable {σ : Type} {load : Action σ Dictionary} {state after : σ} {coding : Coding} {stored : Bytes} {most : Nat}

/-- Calls that are made on a page go to places among its values. A seek that fails leaves the place as it is, and so
does a read that fails, exactly if it has found no value or the values are not stored as bits; then a sink that
takes the values from the place on is given them by another read. -/
theorem failed_unmoved_iff (opened : ofBytes coding stored most load state = .ok values after)
    (calls : List ValueCall) :
    ∃ index, ValueCall.afterAll { values } calls = ⟨values, index⟩ ∧ index ≤ values.count ∧
      (∀ target error cursor, ValueCursor.seek target ⟨values, index⟩ = .error error cursor →
        cursor = ⟨values, index⟩) ∧
      ∀ {τ : Type} [Sink τ] (count : Nat) (sink : τ) error cursor rest,
        ValueCursor.next count (⟨values, index⟩, sink) = .error error (cursor, rest) →
          cursor.values = values ∧ (cursor.index = index ↔ ¬(coding = .bits ∧ 0 < found values index count)) ∧
          (cursor.index = index → ∀ {υ ρ : Type} [Sink υ] (intake : Intake υ ρ), intake.Suits values → ∀ other,
            intake.Fits other → ∀ again rows,
              ((List.range' index (found values index again)).map values.slot).mapM intake.take = some rows →
                ∃ filled, ValueCursor.next again (cursor, other) =
                  .ok (found values index again) (⟨values, index + found values index again⟩, filled) ∧
                    intake.Grown other rows filled) := by
  obtain ⟨index, place, within⟩ := ValueCall.afterAll_within (Nat.zero_le values.count) calls
  refine ⟨index, place, within, ?_, ?_⟩
  · intro target error cursor fails
    rw [seek_apply] at fails
    split at fails
    · cases fails
    · cases fails
      rfl
  · intro τ _ count sink error cursor rest fails
    have flags := (PageValues.ofBytes_inCoding opened).areFlags_iff
    rw [next_error fails, ← flags]
    refine ⟨rfl, ?_, fun unmoved υ ρ _ intake suits other fits again rows taken => ?_⟩
    · dsimp only
      split <;> simp_all
    · have meets := next_meets suits within fits again
      dsimp only at unmoved
      rw [unmoved]
      rw [taken] at meets
      obtain ⟨read, ⟨reached, filled⟩, run, rfl, rfl, grown⟩ := meets.exists_ok
      exact ⟨filled, run, grown⟩

/-- A column of strings, which refuses values of a fixed width. -/
def texts : BytesBuffer where
  type := .text .varchar
  nullable := true

/-- The values 5 and 7, a byte each. A column of strings refuses the second one, and a column of bytes takes it
after that. -/
theorem failed_unmoved_iff_bytes :
    ofBytes (.packed 1) [5, 7] 2 (throw .noDictionary) () = .ok (.packed 1 [5, 7]) () ∧
    ∃ error cursor rest, ValueCursor.next 2 (⟨.packed 1 [5, 7], 1⟩, texts) = .error error (cursor, rest) ∧
      cursor.index = 1 ∧
      ∃ filled, ValueCursor.next 2 (cursor,
        ({ type := .integer .tiny, width := 1, nullable := true } : FixedBuffer)) =
        .ok 1 (⟨.packed 1 [5, 7], 2⟩, filled) ∧ filled.rows = [some [7]] := by
  have opened : ofBytes (.packed 1) [5, 7] 2 (throw .noDictionary) () = .ok (.packed 1 [5, 7]) () := by cbv
  obtain ⟨index, place, _, _, reads⟩ := failed_unmoved_iff opened [.seek 1]
  obtain rfl : 1 = index := congrArg ValueCursor.index place
  obtain ⟨error, cursor, rest, fails⟩ : ∃ error cursor rest,
      ValueCursor.next 2 (⟨.packed 1 [5, 7], 1⟩, texts) = .error error (cursor, rest) := ⟨_, _, _, by cbv⟩
  obtain ⟨_, unmoved, retry⟩ := reads 2 texts error cursor rest fails
  have same : cursor.index = 1 := unmoved.mpr (by simp)
  obtain ⟨filled, run, grown⟩ := retry same (FixedBuffer.intake (.integer .tiny) 1 true) rfl
    { type := .integer .tiny, width := 1, nullable := true } ⟨rfl, rfl, rfl⟩ 2 [some [7]] (by cbv)
  exact ⟨opened, error, cursor, rest, fails, same, filled, run, grown.2⟩

/-- Four booleans, all but the second one true. A column of strings refuses the first two, which have been passed by
then: another read gives the third and the fourth. -/
theorem refusedBits_passed :
    ∃ values error cursor rest, ofBytes .bits [1, 3, 0x0D] 4 (throw .noDictionary) () = .ok values () ∧
      ValueCursor.next 2 (⟨values, 0⟩, texts) = .error error (cursor, rest) ∧ cursor.index ≠ 0 ∧
      (∃ filled after, ValueCursor.next 2 (cursor,
        ({ type := .boolean, width := 1, nullable := true } : FixedBuffer)) =
        .ok 2 (after, filled) ∧ filled.rows = [some [1], some [1]]) ∧
      ∃ filled after, ValueCursor.next 2 (⟨values, 0⟩,
        ({ type := .boolean, width := 1, nullable := true } : FixedBuffer)) =
        .ok 2 (after, filled) ∧ filled.rows = [some [1], some [0]] :=
  ⟨_, _, _, _, by cbv, by cbv, by decide, ⟨_, _, by cbv, by cbv⟩, _, _, by cbv, by cbv⟩

end PageValues

end Columnar
