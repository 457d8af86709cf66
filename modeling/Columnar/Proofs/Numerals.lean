import Mathlib.Data.List.TakeWhile
import Columnar.Text.Blank
import Columnar.Text.Numeral

namespace Columnar.Text

variable {c : Char} {text front back : List Char} {n width : Nat}

theorem isDigit_iff : isDigit c = true ↔ 48 ≤ c.toNat ∧ c.toNat ≤ 57 := by
  rw [isDigit, Bool.and_eq_true, decide_eq_true_iff, decide_eq_true_iff]
  exact Iff.rfl

theorem ne_of_isDigit {other : Char} (digit : isDigit c = true) (none : isDigit other = false) : c ≠ other := by
  rintro rfl
  rw [digit] at none
  cases none

theorem isBlank_of_isDigit (digit : isDigit c = true) : isBlank c = false := by
  obtain ⟨above, below⟩ := isDigit_iff.mp digit
  simp only [isBlank, inRanges, blankRanges, List.any_cons, List.any_nil, Bool.or_eq_false_iff,
    Bool.and_eq_false_iff, decide_eq_false_iff_not, and_true]
  omega

theorem digitChar_digit (small : n < 10) : isDigit (digitChar n) = true ∧ digitValue (digitChar n) = n := by
  have each : ∀ n < 10, isDigit (digitChar n) = true ∧ digitValue (digitChar n) = n := by decide
  exact each n small

/-- The number of two digit strings in a row. -/
theorem digitsValue_append (front back : List Char) :
    digitsValue (front ++ back) = digitsValue front * 10 ^ back.length + digitsValue back := by
  have onward (start : Nat) : back.foldl (fun n c => 10 * n + digitValue c) start =
      start * 10 ^ back.length + digitsValue back := by
    induction back generalizing start with
    | nil => simp [digitsValue]
    | cons c rest ih =>
      have shifted : 10 * start * 10 ^ rest.length = start * 10 ^ (rest.length + 1) := by
        rw [Nat.pow_succ, Nat.mul_comm (10 ^ rest.length), ← Nat.mul_assoc, Nat.mul_comm start]
      rw [digitsValue, List.foldl_cons, ih, List.foldl_cons, ih, List.length_cons, Nat.add_mul, shifted,
        Nat.mul_zero, Nat.zero_add, Nat.add_assoc]
  rw [digitsValue, List.foldl_append, ← digitsValue, onward]

theorem digitsValue_singleton (c : Char) : digitsValue [c] = digitValue c := by
  rw [digitsValue, List.foldl_cons, List.foldl_nil, Nat.mul_zero, Nat.zero_add]

theorem digitsValue_zeros (count : Nat) : digitsValue (List.replicate count '0') = 0 := by
  induction count with
  | zero => rfl
  | succ count ih => rw [List.replicate_succ', digitsValue_append, ih, Nat.zero_mul]; rfl

theorem digits_ne_nil (n : Nat) : digits n ≠ [] := by
  rw [digits]
  split <;> simp

theorem isDigit_of_mem_digits (member : c ∈ digits n) : isDigit c = true := by
  fun_induction digits n with
  | case1 n small =>
    cases List.mem_singleton.mp member
    exact (digitChar_digit small).1
  | case2 n _ ih =>
    rcases List.mem_append.mp member with member | member
    · exact ih member
    · cases List.mem_singleton.mp member
      exact (digitChar_digit (Nat.mod_lt n (by decide))).1

theorem digitsValue_digits (n : Nat) : digitsValue (digits n) = n := by
  fun_induction digits n with
  | case1 n small => rw [digitsValue_singleton, (digitChar_digit small).2]
  | case2 n _ ih =>
    rw [digitsValue_append, ih, digitsValue_singleton, (digitChar_digit (Nat.mod_lt n (by decide))).2,
      List.length_singleton]
    omega

theorem length_digits_le (some : 0 < width) (small : n < 10 ^ width) : (digits n).length ≤ width := by
  fun_induction digits n generalizing width with
  | case1 n _ => exact some
  | case2 n large ih =>
    obtain ⟨width, rfl⟩ := Nat.exists_eq_add_one_of_ne_zero (Nat.ne_of_gt some)
    rw [Nat.pow_succ] at small
    have more : 0 < width := by
      rcases width with _ | width
      · rw [Nat.pow_zero] at small
        omega
      · exact Nat.succ_pos width
    have shorter := ih more (by omega)
    rw [List.length_append, List.length_singleton]
    omega

theorem isDigit_of_mem_paddedDigits (member : c ∈ paddedDigits width n) : isDigit c = true := by
  rcases List.mem_append.mp member with member | member
  · rw [List.eq_of_mem_replicate member]
    decide
  · exact isDigit_of_mem_digits member

theorem paddedDigits_ne_nil (width n : Nat) : paddedDigits width n ≠ [] := by
  simp [paddedDigits, digits_ne_nil]

@[simp] theorem digitsValue_paddedDigits (width n : Nat) : digitsValue (paddedDigits width n) = n := by
  rw [paddedDigits, digitsValue_append, digitsValue_zeros, Nat.zero_mul, Nat.zero_add, digitsValue_digits]

theorem length_paddedDigits (some : 0 < width) (small : n < 10 ^ width) :
    (paddedDigits width n).length = width := by
  have short := length_digits_le some small
  rw [paddedDigits, List.length_append, List.length_replicate]
  omega

/-- A text that starts with a digit has no sign in front of it. -/
theorem splitSign_of_head (first : ∀ c ∈ text.head?, isDigit c = true) : splitSign text = (none, text) := by
  unfold splitSign
  split
  next => exact absurd (first '-' rfl) (by decide)
  next => exact absurd (first '+' rfl) (by decide)
  next => rfl

theorem splitSign_digits (n : Nat) : splitSign (digits n) = (none, digits n) :=
  splitSign_of_head fun _ first => isDigit_of_mem_digits (List.mem_of_mem_head? first)

theorem parseNat?_digits (n : Nat) : parseNat? (digits n) = some n := by
  have all : (digits n).all isDigit = true := List.all_eq_true.mpr fun _ member => isDigit_of_mem_digits member
  have some : (digits n).isEmpty = false := by simp [digits_ne_nil]
  rw [parseNat?, all, some, digitsValue_digits]
  rfl

theorem parseInt?_signedDigits (v : Int) : parseInt? (signedDigits v) = some v := by
  unfold parseInt? signedDigits
  by_cases negative : v < 0
  · have same : -(v.natAbs : Int) = v := by omega
    rw [if_pos negative]
    simp only [splitSign, parseNat?_digits]
    exact congrArg some same
  · have same : (v.natAbs : Int) = v := by omega
    rw [if_neg negative, splitSign_digits]
    simp only [parseNat?_digits]
    exact congrArg some same

theorem parseUnsigned?_signedDigits {v : Int} (natural : 0 ≤ v) : parseUnsigned? (signedDigits v) = some v := by
  have same : (v.natAbs : Int) = v := by omega
  unfold parseUnsigned? signedDigits
  rw [if_neg (by omega), splitSign_digits]
  simp only [parseNat?_digits]
  exact congrArg some same

theorem mem_of_head?_append (some : front ≠ []) (first : c ∈ (front ++ back).head?) : c ∈ front := by
  cases front with
  | nil => exact absurd rfl some
  | cons d rest =>
    cases first
    exact List.mem_cons_self ..

theorem skipBlanks_eq_self (first : ∀ c ∈ text.head?, isBlank c = false) : skipBlanks text = text := by
  cases text with
  | nil => rfl
  | cons c rest => rw [skipBlanks, List.dropWhile_cons_of_neg (by simp [first c rfl])]

/-- A text without white space. -/
def Solid (text : List Char) : Prop := ∀ c ∈ text, isBlank c = false

namespace Solid

theorem cons (solid : Solid text) (mark : isBlank c = false) : Solid (c :: text) :=
  List.forall_mem_cons.mpr ⟨mark, solid⟩

theorem append (solidFront : Solid front) (solidBack : Solid back) : Solid (front ++ back) :=
  List.forall_mem_append.mpr ⟨solidFront, solidBack⟩

theorem reverse (solid : Solid text) : Solid text.reverse := fun c member => solid c (List.mem_reverse.mp member)

theorem skipBlanks_append (solid : Solid front) (some : front ≠ []) (back : List Char) :
    skipBlanks (front ++ back) = front ++ back :=
  skipBlanks_eq_self fun c first => solid c (mem_of_head?_append some first)

theorem trim_eq (solid : Solid text) : trim text = text := by
  have whole {text : List Char} (solid : Solid text) : skipBlanks text = text :=
    skipBlanks_eq_self fun c first => solid c (List.mem_of_mem_head? first)
  rw [trim, whole solid, whole solid.reverse, List.reverse_reverse]

/-- White space inside a text stays where it is. -/
theorem trim_between (solidFront : Solid front) (solidBack : Solid back) (frontSome : front ≠ [])
    (backSome : back ≠ []) (inside : List Char) : trim (front ++ (inside ++ back)) = front ++ (inside ++ back) := by
  have reversed : (front ++ (inside ++ back)).reverse = back.reverse ++ (front ++ inside).reverse := by
    rw [← List.append_assoc, List.reverse_append]
  rw [trim, solidFront.skipBlanks_append frontSome, reversed,
    solidBack.reverse.skipBlanks_append (by simpa using backSome), ← reversed, List.reverse_reverse]

end Solid

theorem solid_of_digits (digits : ∀ c ∈ text, isDigit c = true) : Solid text := fun c member =>
  isBlank_of_isDigit (digits c member)

theorem solid_digits (n : Nat) : Solid (digits n) := solid_of_digits fun _ => isDigit_of_mem_digits

theorem solid_paddedDigits (width n : Nat) : Solid (paddedDigits width n) := solid_of_digits fun _ =>
  isDigit_of_mem_paddedDigits

theorem trim_signedDigits (v : Int) : trim (signedDigits v) = signedDigits v := by
  unfold signedDigits
  split
  · exact ((solid_digits _).cons (by decide)).trim_eq
  · exact (solid_digits _).trim_eq

end Columnar.Text
