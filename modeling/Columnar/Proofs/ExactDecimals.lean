import Mathlib
import Columnar.Proofs.DecimalTexts
import Columnar.Scalar.Text

namespace Columnar

namespace Decimal

open Text

namespace Literal

/-- The number that a literal denotes. -/
def value (literal : Literal) : ℚ :=
  (if literal.minus then -1 else 1) * (digitsValue (literal.whole ++ literal.behind) / 10 ^ literal.behind.length)

variable {literal : Literal}

/-- A literal denotes a whole number of units. -/
theorem value_mul (formed : literal.WellFormed) :
    literal.value * 10 ^ places =
      ((if literal.minus then -(literal.units : Int) else literal.units : Int) : ℚ) := by
  have split : (10 : ℚ) ^ places = 10 ^ literal.behind.length * 10 ^ (places - literal.behind.length) := by
    rw [← pow_add, Nat.add_sub_cancel' formed.short]
  have some : (10 : ℚ) ^ literal.behind.length ≠ 0 := pow_ne_zero _ (by norm_num)
  have magnitude : (digitsValue (literal.whole ++ literal.behind) : ℚ) / 10 ^ literal.behind.length * 10 ^ places =
      literal.units := by
    rw [units, unit, digitsValue_append]
    push_cast
    rw [split]
    field_simp
  rw [value, mul_assoc, magnitude]
  cases literal.minus with
  | true => simp
  | false => simp

theorem abs_value_mul (formed : literal.WellFormed) : |literal.value * 10 ^ places| = (literal.units : ℚ) := by
  rw [value_mul formed, ← Int.cast_abs]
  cases literal.minus with
  | true => simp
  | false => simp

end Literal

/-- A text is read as the number of units that its literal denotes, exactly if there is room for that. -/
theorem parse_eq_ok_iff {text : List Char} {v : Int} : parse text = .ok v ↔
    ∃ literal : Literal, literal.WellFormed ∧ literal.text = text ∧ |literal.value * 10 ^ places| ≤ greatest ∧
      (v : ℚ) = literal.value * 10 ^ places := by
  constructor
  · intro read
    rcases Literal.parse_malformed text with formed | refused
    · have found := Literal.parse_text formed
      rw [Literal.text_ofText, read] at found
      split at found
      · cases found
      next small =>
        refine ⟨_, formed, Literal.text_ofText text, ?_, ?_⟩
        · rw [Literal.abs_value_mul formed]
          exact_mod_cast Nat.not_lt.mp small
        · rw [Literal.value_mul formed, Except.ok.inj found]
    · cases refused.symm.trans read
  · rintro ⟨literal, formed, rfl, small, exact⟩
    rw [Literal.abs_value_mul formed] at small
    rw [Literal.value_mul formed] at exact
    rw [Literal.parse_text formed, if_neg (Nat.not_lt.mpr (by exact_mod_cast small)), Int.cast_injective exact]

end Decimal

namespace Scalar

/-- A text of a decimal column is read exactly if it is a literal, of at most nine places, whose number of
billionths has room in 128 bits, and it stands for just that number of them. Any other text is refused, and no step
of the arithmetic runs out of its room. -/
theorem parse_decimal_exact (text : String) (length : Nat) :
    (∀ value, parse .decimal text length = .ok value ↔
      ∃ literal : Decimal.Literal, literal.WellFormed ∧ literal.text = Text.trim text.toList ∧
        |literal.value * 10 ^ 9| ≤ 2 ^ 127 - 1 ∧ ∃ v : Int, value = decimal v ∧ (v : ℚ) = literal.value * 10 ^ 9) ∧
    ((∃ v, parse .decimal text length = .ok (decimal v)) ∨
      parse .decimal text length = .error (.invalidLiteral .decimal text)) ∧
    Decimal.parse (Text.trim text.toList) ≠ .error .overflow := by
  have outcome : parse .decimal text length =
      match Decimal.parse (Text.trim text.toList) with
      | .ok v => .ok (decimal v)
      | .error _ => .error (.invalidLiteral .decimal text) := by
    unfold parse
    dsimp only [Decimal.parse?]
    cases Decimal.parse (Text.trim text.toList) <;> rfl
  have room : ((Decimal.greatest : Nat) : ℚ) = 2 ^ 127 - 1 := by norm_num [Decimal.greatest, Decimal.width]
  refine ⟨fun value => ?_, ?_, Decimal.parse_ne_overflow _⟩
  · constructor
    · intro read
      rw [outcome] at read
      split at read
      next v found =>
        obtain ⟨literal, formed, same, small, exact⟩ := Decimal.parse_eq_ok_iff.mp found
        exact ⟨literal, formed, same, room ▸ small, v, (Except.ok.inj read).symm, exact⟩
      next => cases read
    · rintro ⟨literal, formed, same, small, v, rfl, exact⟩
      have found := Decimal.parse_eq_ok_iff.mpr ⟨literal, formed, same, room.symm ▸ small, exact⟩
      rw [outcome, found]
  · rw [outcome]
    cases Decimal.parse (Text.trim text.toList) with
    | ok v => exact .inl ⟨v, rfl⟩
    | error refusal => exact .inr rfl

end Scalar

end Columnar
