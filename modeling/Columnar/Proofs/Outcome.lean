import Columnar.Error

namespace Columnar

theorem toOption_bind {α β : Type} (result : Except Error α) (next : α → Except Error β) :
    (result >>= next).toOption = result.toOption.bind fun value => (next value).toOption := by
  cases result <;> rfl

theorem bind_eq_ok {α β : Type} {result : Except Error α} {next : α → Except Error β} {value : β}
    (found : (result >>= next) = .ok value) : ∃ inner, result = .ok inner ∧ next inner = .ok value := by
  cases result with
  | ok inner => exact ⟨inner, rfl, found⟩
  | error error => cases found

theorem toOption_eq_some {ε α : Type} {result : Except ε α} {value : α} (found : result.toOption = some value) :
    result = .ok value := by
  cases result with
  | ok other => cases found; rfl
  | error error => cases found

theorem map_eq_ok {α β : Type} {f : α → β} {result : Except Error α} {value : β}
    (found : result.map f = .ok value) : ∃ inner, result = .ok inner ∧ f inner = value := by
  cases result with
  | ok inner => cases found; exact ⟨inner, rfl, rfl⟩
  | error error => cases found

end Columnar
