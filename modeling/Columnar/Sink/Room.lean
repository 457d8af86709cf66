import Columnar.Action
import Columnar.Arithmetic

/-! Room in the storage of a buffer. All rows of an array are finished again when the storage of its items had to
grow, so it matters how much fits.

Storage is not limited for what is really there. Numbers of rows and of bytes that nothing stands behind have 64
bits, and the room that they ask for may be more than storage can have. -/

namespace Columnar.Room

/-- The room behind a storage that takes in more entries at once. Where they do not fit, it grows to twice its size
at least, so that entries which come one by one are seldom moved. -/
def grow (least room held more : Nat) : Nat :=
  if more ≤ room - held then room else max least (max (2 * room) (held + more))

/-- The room behind a storage that takes in entries one by one. -/
def growEach (least room held : Nat) : Nat → Nat
  | 0 => room
  | more + 1 => growEach least (grow least room held 1) (held + 1) more

/-- Every piece of storage has fewer bytes. -/
def limit : Nat := 2 ^ 63

/-- How many entries stay of those that are held when more are asked for than 64 bits can count: the storage is cut
to what is left of the sum. Nothing if it grows as it should. As no storage holds `limit` entries, at least as many
are asked for then. -/
def cut (held more : Nat) : Option Nat :=
  if limit ≤ more ∧ 2 ^ 64 ≤ held + more then some ((held + more) % 2 ^ 64) else none

theorem cut_eq_none {held more : Nat} (few : more < limit) : cut held more = none :=
  if_neg fun many => Nat.not_le.mpr few many.1

theorem cut_eq_none_of_sum {held more : Nat} (few : held + more < 2 ^ 64) : cut held more = none :=
  if_neg fun many => Nat.not_le.mpr few many.2

/-- What a step comes to that fills room which has been made for it. Where there is not as much to fill it with, the
room may be more than storage can have. Then the program stops before the step. -/
def outcome {σ α : Type} (affordable : Bool) (full : α → σ → Bool) (before : σ) :
    EStateM.Result Error σ α → EStateM.Result Error σ α
  | .ok value after => if affordable || full value after then .ok value after else .error .outOfStorage before
  | .error error after => if affordable then .error error after else .error .outOfStorage before

section Outcome

variable {σ α : Type} {affordable : Bool} {full : α → σ → Bool} {before after : σ} {value : α}

theorem outcome_ok (filled : full value after = true) :
    outcome affordable full before (.ok value after) = .ok value after := by
  rw [outcome, filled, Bool.or_true, if_pos rfl]

/-- Only a step that does not fill the room does not come to what it does by itself. -/
theorem outcome_cases (run : EStateM.Result Error σ α) : outcome affordable full before run = run ∨
    outcome affordable full before run = .error .outOfStorage before ∧
      ∀ value after, run = .ok value after → full value after = false := by
  cases affordable with
  | true => exact .inl (by cases run <;> rfl)
  | false =>
    cases run with
    | error error after => exact .inr ⟨rfl, fun _ _ same => by cases same⟩
    | ok value after =>
      cases filled : full value after with
      | true => exact .inl (outcome_ok filled)
      | false => exact .inr ⟨by simp [outcome, filled], fun _ _ same => by cases same; exact filled⟩

end Outcome

/-- The least room of a storage of bytes that is not empty. -/
def leastBytes : Nat := 8

/-- The least room of a storage of places that is not empty. -/
def leastPlaces : Nat := 4

end Columnar.Room
