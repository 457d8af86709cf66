import Mathlib.Data.List.Induction
import Mathlib.Tactic.Common
import Columnar.Proofs.Numerals
import Columnar.Scalar.Decimal

namespace Columnar

namespace Decimal

open Text

variable {whole fraction : List Char} {n : Nat}

theorem checked_bind (n : Nat) (next : Int → Except Refusal Int) :
    (checked n >>= next) = if greatest < n then .error .tooGreat else next n := by
  by_cases beyond : greatest < n
  · have refused : checked n = .error .tooGreat := if_neg fun fits => by
      unfold Fits at fits
      omega
    rw [if_pos beyond, refused]
    rfl
  · have found : checked n = .ok (n : Int) := if_pos (by unfold Fits; omega)
    rw [if_neg beyond, found]
    rfl

theorem ok_bind {α β : Type} (value : α) (next : α → Except Refusal β) :
    (Except.ok value >>= next) = next value := rfl

theorem unchecked_natCast (small : n ≤ greatest) : unchecked (n : Int) = .ok (n : Int) := by
  refine if_pos ?_
  unfold Fits
  omega

theorem unchecked_neg (small : n ≤ greatest) : unchecked (-(n : Int)) = .ok (-(n : Int)) := by
  refine if_pos ?_
  unfold Fits
  omega

theorem digitsValue_lt {text : List Char} (digits : ∀ c ∈ text, isDigit c = true) :
    digitsValue text < 10 ^ text.length := by
  induction text using List.reverseRecOn with
  | nil => decide
  | append_singleton front c ih =>
    obtain ⟨_, below⟩ := isDigit_iff.mp (digits c (List.mem_append_right _ List.mem_cons_self))
    have last : digitValue c < 10 := by unfold digitValue; omega
    have shorter := ih fun other member => digits other (List.mem_append_left _ member)
    rw [digitsValue_append, digitsValue_singleton, List.length_append, List.length_singleton, Nat.pow_succ]
    omega

/-- The value of some digits behind the point is below one, and the last place of them is a number of units. -/
theorem fraction_lt (digits : ∀ c ∈ fraction, isDigit c = true) (short : fraction.length ≤ places) :
    digitsValue fraction * 10 ^ (places - fraction.length) < unit := by
  calc digitsValue fraction * 10 ^ (places - fraction.length)
      < 10 ^ fraction.length * 10 ^ (places - fraction.length) :=
        Nat.mul_lt_mul_of_pos_right (digitsValue_lt digits) (Nat.pow_pos (by decide))
    _ = unit := by rw [← Nat.pow_add, Nat.add_sub_cancel' short, unit]

theorem lastPlace_of_le {digits : Nat} (short : digits ≤ places) :
    lastPlace digits = .ok ((10 ^ (places - digits) : Nat) : Int) := by
  have small : 10 ^ (places - digits) ≤ greatest :=
    (Nat.pow_le_pow_right (by decide) (Nat.sub_le _ _)).trans (by decide : 10 ^ places ≤ greatest)
  rw [lastPlace, if_neg (Nat.not_lt.mpr short), ← unchecked_natCast small, Int.natCast_pow]
  rfl

/-- A sign never takes a value out of the room that it had without. -/
theorem signed_eq (negative : Bool) (small : n ≤ greatest) :
    (if negative then unchecked (-(n : Int)) else return (n : Int)) = .ok (if negative then -(n : Int) else n) := by
  cases negative with
  | false => rfl
  | true => exact unchecked_neg small

/-- Digits have the value that they stand for, as long as there is room for it. All steps that are not checked have
room, and where a check fails the value is too great. -/
theorem combine_eq (negative : Bool) (whole : List Char) (digits : ∀ c ∈ fraction, isDigit c = true)
    (short : fraction.length ≤ places) :
    combine negative whole fraction =
      let value := digitsValue whole * unit + digitsValue fraction * 10 ^ (places - fraction.length)
      if greatest < value then .error .tooGreat else .ok (if negative then -(value : Int) else value) := by
  have below := fraction_lt digits short
  have room : unit ≤ greatest := by decide
  have behind : digitsValue fraction ≤ digitsValue fraction * 10 ^ (places - fraction.length) :=
    Nat.le_mul_of_pos_right _ (Nat.pow_pos (by decide))
  have scaled : digitsValue whole ≤ digitsValue whole * unit := Nat.le_mul_of_pos_right _ (by decide)
  have small : ¬greatest < digitsValue fraction := Nat.not_lt.mpr (behind.trans (below.le.trans room))
  unfold combine
  rw [checked_bind, checked_bind, if_neg small, lastPlace_of_le short, ok_bind, ← Int.natCast_mul,
    unchecked_natCast (below.le.trans room), ok_bind, ← Int.natCast_mul, checked_bind, ← Int.natCast_add,
      checked_bind]
  generalize digitsValue fraction * 10 ^ (places - fraction.length) = part at *
  generalize digitsValue whole = front at *
  by_cases widest : greatest < front * unit + part
  · rw [if_pos widest, if_pos widest, ite_self, ite_self]
  · have wider : ¬greatest < front * unit := fun beyond => widest (Nat.lt_add_right part beyond)
    rw [if_neg widest, if_neg widest, if_neg wider, if_neg fun wide => wider (wide.trans_le scaled)]
    exact signed_eq negative (Nat.not_lt.mp widest)

theorem splitPoint_append (plain : ∀ c ∈ whole, c ≠ '.') (behind : Option (List Char)) :
    splitPoint (whole ++ behind.elim [] ('.' :: ·)) = (whole, behind.getD []) := by
  have kept : ∀ c ∈ whole, decide (c ≠ '.') = true := fun c member => decide_eq_true (plain c member)
  unfold splitPoint
  rw [List.takeWhile_append_of_pos kept, List.dropWhile_append_of_pos kept]
  cases behind with
  | none => simp
  | some digits => simp

/-- A decimal literal in its parts. -/
structure Literal where
  /-- Whether the sign is a minus, where there is a sign. -/
  sign : Option Bool
  whole : List Char
  /-- What stands behind the point, where there is a point. -/
  fraction : Option (List Char)

namespace Literal

def signText : Option Bool → List Char
  | none => []
  | some true => ['-']
  | some false => ['+']

def unsigned (literal : Literal) : List Char := literal.whole ++ literal.fraction.elim [] ('.' :: ·)

def text (literal : Literal) : List Char := signText literal.sign ++ literal.unsigned

def behind (literal : Literal) : List Char := literal.fraction.getD []

def minus (literal : Literal) : Bool := literal.sign = some true

/-- All is digits, of which there are some, and not more behind the point than a value has places. -/
structure WellFormed (literal : Literal) : Prop where
  whole : ∀ c ∈ literal.whole, isDigit c = true
  behind : ∀ c ∈ literal.behind, isDigit c = true
  some : literal.whole ≠ [] ∨ literal.behind ≠ []
  short : literal.behind.length ≤ places

/-- The magnitude of a literal as a multiple of the unit. -/
def units (literal : Literal) : Nat :=
  digitsValue literal.whole * unit + digitsValue literal.behind * 10 ^ (places - literal.behind.length)

variable {literal : Literal}

theorem splitSign_text (formed : literal.WellFormed) :
    splitSign literal.text = (literal.sign, literal.unsigned) := by
  have solid : ∀ c ∈ literal.unsigned, isDigit c = true ∨ c = '.' := by
    intro c member
    rcases List.mem_append.mp member with front | back
    · exact .inl (formed.whole c front)
    · cases stored : literal.fraction with
      | none =>
        rw [stored] at back
        cases back
      | some digits =>
        rw [stored] at back
        rcases List.mem_cons.mp back with point | digit
        · exact .inr point
        · exact .inl (formed.behind c (by rw [behind, stored]; exact digit))
  unfold text
  match literal.sign with
  | some true => rfl
  | some false => rfl
  | none =>
    rw [signText, List.nil_append]
    unfold splitSign
    split
    next stored => exact absurd (solid '-' (by rw [stored]; exact List.mem_cons_self)) (by decide)
    next stored => exact absurd (solid '+' (by rw [stored]; exact List.mem_cons_self)) (by decide)
    next => rfl

theorem parse_text (formed : literal.WellFormed) : parse literal.text =
    if greatest < literal.units then .error .tooGreat
    else .ok (if literal.minus then -(literal.units : Int) else literal.units) := by
  have parts : splitPoint literal.unsigned = (literal.whole, literal.behind) :=
    splitPoint_append (fun c member => ne_of_isDigit (formed.whole c member) (by decide)) literal.fraction
  have readable : (literal.whole.isEmpty && literal.behind.isEmpty || decide (places < literal.behind.length) ||
      !literal.whole.all isDigit || !literal.behind.all isDigit) = false := by
    have some := formed.some
    simp only [List.all_eq_true.mpr formed.whole, List.all_eq_true.mpr formed.behind,
      decide_eq_false (Nat.not_lt.mpr formed.short), Bool.not_true, Bool.or_false]
    rcases some with some | some
    · rw [List.isEmpty_eq_false_iff.mpr some, Bool.false_and]
    · rw [List.isEmpty_eq_false_iff.mpr some, Bool.and_false]
  unfold parse
  rw [splitSign_text formed]
  dsimp only
  rw [parts]
  dsimp only
  rw [readable, if_neg Bool.false_ne_true, combine_eq _ _ formed.behind formed.short]
  rfl

/-- The parts of any text, taken for a literal. -/
def ofText (text : List Char) : Literal where
  sign := (splitSign text).1
  whole := (splitPoint (splitSign text).2).1
  fraction := if '.' ∈ (splitSign text).2 then some (splitPoint (splitSign text).2).2 else none

theorem text_ofText (text : List Char) : (ofText text).text = text := by
  have signs : signText (splitSign text).1 ++ (splitSign text).2 = text := by
    unfold splitSign
    split <;> rfl
  have points (rest : List Char) : (splitPoint rest).1 ++
      (if '.' ∈ rest then some (splitPoint rest).2 else none).elim [] ('.' :: ·) = rest := by
    unfold splitPoint
    induction rest with
    | nil => rfl
    | cons c rest ih =>
      by_cases point : c = '.'
      · subst point
        simp
      · simp only [ne_eq, decide_not, List.drop_one] at ih
        simp [point, Ne.symm point, ih]
  rw [Literal.text, unsigned, ofText]
  dsimp only
  rw [points, signs]

theorem behind_ofText (text : List Char) : (ofText text).behind = (splitPoint (splitSign text).2).2 := by
  unfold behind ofText
  dsimp only
  split
  next => rfl
  next missing =>
    have none : (splitSign text).2.dropWhile (· ≠ '.') = [] := by
      rw [List.dropWhile_eq_nil_iff]
      rintro c member
      exact decide_eq_true fun point => missing (point ▸ member)
    rw [splitPoint, none]
    rfl

/-- A text that is read consists of a literal. -/
theorem parse_malformed (text : List Char) : (ofText text).WellFormed ∨ parse text = .error .malformed := by
  unfold parse
  dsimp only
  split
  next => exact .inr rfl
  next formed =>
    simp only [Bool.not_eq_true, Bool.or_eq_false_iff, Bool.and_eq_false_iff, decide_eq_false_iff_not,
      Bool.not_eq_false', List.all_eq_true, List.isEmpty_eq_false_iff] at formed
    obtain ⟨⟨⟨some, short⟩, whole⟩, fraction⟩ := formed
    refine .inl ⟨whole, ?_, ?_, ?_⟩
    · rw [behind_ofText]
      exact fraction
    · rw [behind_ofText]
      exact some
    · rw [behind_ofText]
      exact Nat.not_lt.mp short

end Literal

theorem parse_ne_overflow (text : List Char) : parse text ≠ .error .overflow := by
  rcases Literal.parse_malformed text with formed | refused
  · have found := Literal.parse_text formed
    rw [Literal.text_ofText] at found
    rw [found]
    split <;> exact nofun
  · rw [refused]
    exact nofun

theorem natAbs_le_of_parse {text : List Char} {v : Int} (read : parse text = .ok v) : v.natAbs ≤ greatest := by
  rcases Literal.parse_malformed text with formed | refused
  · have found := Literal.parse_text formed
    rw [Literal.text_ofText, read] at found
    split at found
    · cases found
    next small =>
      rw [Except.ok.inj found]
      split <;> omega
  · cases refused.symm.trans read

end Decimal

end Columnar
