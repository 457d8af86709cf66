import Mathlib.Data.Nat.Log
import Mathlib.Tactic.Ring
import Columnar.Json.Token
import Columnar.Proofs.EncodedText
import Columnar.Proofs.Numerals

namespace Columnar

namespace FloatFormat

theorem roundDiv_le {num den bound : Nat} (below : num < den * bound) : roundDiv num den ≤ bound := by
  have quotient : num / den < bound := Nat.div_lt_of_lt_mul below
  unfold roundDiv
  dsimp only
  split
  · omega
  · omega
  · split <;> omega

/-- The leading digit is found to within one place. -/
theorem log2Quotient_bounds (num den : Nat) :
    (num.log2 : Int) - den.log2 - 1 ≤ log2Quotient num den ∧
    log2Quotient num den ≤ (num.log2 : Int) - den.log2 := by
  unfold log2Quotient
  dsimp only
  split <;> omega

/-- The pattern of a quotient grows with the power of two that it stays below, by one step of the exponent field for
each power. -/
theorem double_ofQuotient_le {num den power : Nat} (some : 0 < den) (below : num < den * 2 ^ power) :
    double.ofQuotient num den ≤ (power + 1026) * 2 ^ 52 := by
  unfold ofQuotient
  split
  · exact Nat.zero_le _
  · rename_i filled
    obtain ⟨least, greatest⟩ := log2Quotient_bounds num den
    generalize log2Quotient num den = leading at least greatest
    have topNum : num < 2 ^ (num.log2 + 1) := Nat.lt_log2_self
    have topDen : den < 2 ^ (den.log2 + 1) := Nat.lt_log2_self
    have bottomDen : 2 ^ den.log2 ≤ den := Nat.log2_self_le (by omega)
    have order : num.log2 < den.log2 + 1 + power := by
      refine (Nat.log2_lt filled).mpr (below.trans_le ?_)
      rw [Nat.pow_add]
      exact Nat.mul_le_mul_right _ topDen.le
    have exponents : double.leastExponent = -1074 ∧ double.fractionBits = 52 := by decide
    rw [exponents.1, exponents.2]
    dsimp only
    generalize shift : max (-1074) (leading - (52 : Nat)) = exponent
    have significand : roundDiv (num * 2 ^ (-exponent).toNat) (den * 2 ^ exponent.toNat) ≤ 2 ^ 54 := by
      refine roundDiv_le ?_
      calc num * 2 ^ (-exponent).toNat < 2 ^ (num.log2 + 1) * 2 ^ (-exponent).toNat :=
            Nat.mul_lt_mul_of_pos_right topNum (Nat.two_pow_pos _)
        _ = 2 ^ (num.log2 + 1 + (-exponent).toNat) := (Nat.pow_add ..).symm
        _ ≤ 2 ^ (den.log2 + exponent.toNat + 54) := Nat.pow_le_pow_right (by decide) (by omega)
        _ = 2 ^ den.log2 * 2 ^ exponent.toNat * 2 ^ 54 := by rw [Nat.pow_add, Nat.pow_add]
        _ ≤ den * 2 ^ exponent.toNat * 2 ^ 54 := Nat.mul_le_mul_right _ (Nat.mul_le_mul_right _ bottomDen)
    have field : (exponent - -1074).toNat ≤ power + 1022 := by omega
    calc min double.infinity ((exponent - -1074).toNat * 2 ^ 52 + _) ≤ (exponent - -1074).toNat * 2 ^ 52 + _ :=
          Nat.min_le_right _ _
      _ ≤ (power + 1022) * 2 ^ 52 + 2 ^ 54 := Nat.add_le_add (Nat.mul_le_mul_right _ field) significand
      _ = (power + 1026) * 2 ^ 52 := by ring

/-- A pattern below a step of the exponent field is that of a finite value below a power of two. -/
theorem double_decode_of_lt {bits step : Nat} (below : bits < step * 2 ^ 52) (finite : step ≤ 2047) :
    ∃ significand exponent, double.decode bits = .finite false significand exponent ∧ significand < 2 ^ 53 ∧
      exponent ≤ (step : Int) - 1075 := by
  have fields : bits / 2 ^ 52 < step := Nat.div_lt_of_lt_mul (by rwa [Nat.mul_comm])
  have whole : bits < 2047 * 2 ^ 52 := below.trans_le (Nat.mul_le_mul_right _ finite)
  have magnitude : double.magnitude bits = bits := Nat.mod_eq_of_lt (whole.trans (by decide))
  have infinity : double.infinity = 2047 * 2 ^ 52 := by decide
  have positive : double.isNegative bits = false := by
    have : bits / 2 ^ (double.exponentBits + double.fractionBits) = 0 := Nat.div_eq_of_lt (whole.trans (by decide))
    simp [isNegative, this]
  have exponents : double.leastExponent = -1074 ∧ double.fractionBits = 52 := by decide
  have fraction : bits % 2 ^ 52 < 2 ^ 52 := Nat.mod_lt _ (Nat.two_pow_pos _)
  unfold decode
  dsimp only
  rw [magnitude, positive, infinity, exponents.1, exponents.2, if_neg (by omega), if_neg (by omega)]
  split
  · exact ⟨_, _, rfl, by omega, by omega⟩
  · exact ⟨_, _, rfl, by omega, by omega⟩

/-- Natural numbers of 64 bits are far from the greatest value. -/
theorem double_multiply_ofNat_ne {n : Nat} (small : n < 2 ^ 64) :
    double.multiply (double.ofNat n) (double.ofNat 1) ≠ double.infinity := by
  have pattern : double.ofNat n ≤ (64 + 1026) * 2 ^ 52 := double_ofQuotient_le Nat.one_pos (by rwa [Nat.one_mul])
  have lower : double.ofNat n < 1091 * 2 ^ 52 := pattern.trans_lt (by decide)
  obtain ⟨significand, exponent, value, digits, place⟩ := double_decode_of_lt lower (by decide)
  have one : double.decode (double.ofNat 1) = .finite false (2 ^ 52) (-52) := by decide
  have product : double.multiply (double.ofNat n) (double.ofNat 1) ≤ (105 + 1026) * 2 ^ 52 := by
    unfold multiply
    rw [value, one]
    dsimp only
    refine double_ofQuotient_le (Nat.two_pow_pos _) ?_
    rw [show (exponent + -52).toNat = 0 by omega, Nat.pow_zero, Nat.mul_one]
    calc significand * 2 ^ 52 < 2 ^ 105 := by omega
      _ ≤ 2 ^ (-(exponent + -52)).toNat * 2 ^ 105 := Nat.le_mul_of_pos_left _ (Nat.two_pow_pos _)
  exact (product.trans_lt (by decide)).ne

end FloatFormat

namespace Json

open Text

variable {n : Nat} {rest : Bytes}

/-- What stands behind a number: neither a digit nor a point nor the mark of an exponent. -/
def EndsNumber (rest : Bytes) : Prop := ∀ b ∈ rest.head?, isDigitByte b = false ∧ b ≠ 0x2E ∧ b ≠ 0x65 ∧ b ≠ 0x45

theorem utf8EncodeChar_digit {c : Char} (digit : isDigit c = true) :
    String.utf8EncodeChar c = [UInt8.ofNat c.toNat] ∧ isDigitByte (UInt8.ofNat c.toNat) = true ∧
      (UInt8.ofNat c.toNat).toNat - 48 = digitValue c := by
  obtain ⟨low, high⟩ := isDigit_iff.mp digit
  have value := toNat_byte (n := c.toNat) (by omega)
  refine ⟨utf8EncodeChar_ascii (by omega), ?_, by rw [value]; rfl⟩
  rw [isDigitByte, Bool.and_eq_true, decide_eq_true_iff, decide_eq_true_iff, UInt8.le_iff_toNat_le,
    UInt8.le_iff_toNat_le, value]
  exact ⟨low, high⟩

theorem isDigitByte_of_mem {text : List Char} (all : ∀ c ∈ text, isDigit c = true) {b : UInt8}
    (member : b ∈ encodeUtf8 text) : isDigitByte b = true := by
  obtain ⟨c, there, byte⟩ := List.mem_flatMap.mp member
  obtain ⟨single, digit, _⟩ := utf8EncodeChar_digit (all c there)
  rw [single, List.mem_singleton] at byte
  rwa [byte]

theorem foldl_encodeUtf8 {text : List Char} (all : ∀ c ∈ text, isDigit c = true) (start : Nat) :
    (encodeUtf8 text).foldl (fun n b => 10 * n + (b.toNat - 48)) start =
      text.foldl (fun n c => 10 * n + digitValue c) start := by
  induction text generalizing start with
  | nil => rfl
  | cons c text ih =>
    obtain ⟨digit, others⟩ := List.forall_mem_cons.mp all
    obtain ⟨single, _, value⟩ := utf8EncodeChar_digit digit
    rw [encodeUtf8, List.flatMap_cons, ← encodeUtf8, single, List.singleton_append, List.foldl_cons,
      List.foldl_cons, value, ih others]

theorem byteDigitsValue_digits (n : Nat) : byteDigitsValue (encodeUtf8 (digits n)) = n := by
  rw [byteDigitsValue, foldl_encodeUtf8 fun _ => isDigit_of_mem_digits]
  exact digitsValue_digits n

/-- A number of several digits does not begin with a zero. -/
theorem head_digits_ne_zero (several : 10 ≤ n) : (digits n).head? ≠ some '0' := by
  induction n using Nat.strongRecOn with
  | ind n ih =>
    obtain ⟨first, others, parts⟩ := List.exists_cons_of_ne_nil (digits_ne_nil (n / 10))
    have front : (digits n).head? = (digits (n / 10)).head? := by
      rw [digits, if_neg (by omega), parts]
      rfl
    rw [front]
    by_cases single : n / 10 < 10
    · have each : ∀ d < 10, 1 ≤ d → digitChar d ≠ '0' := by decide
      rw [digits, if_pos single, List.head?_cons]
      exact fun same => each _ single (by omega) (Option.some.inj same)
    · exact ih (n / 10) (by omega) (by omega)

theorem digits_span (ends : EndsNumber rest) :
    (encodeUtf8 (digits n) ++ rest).takeWhile isDigitByte = encodeUtf8 (digits n) ∧
      (encodeUtf8 (digits n) ++ rest).dropWhile isDigitByte = rest := by
  have all : ∀ b ∈ encodeUtf8 (digits n), isDigitByte b = true := fun _ => isDigitByte_of_mem fun _ =>
    isDigit_of_mem_digits
  rw [List.takeWhile_append_of_pos all, List.dropWhile_append_of_pos all]
  cases rest with
  | nil => exact ⟨List.append_nil _, rfl⟩
  | cons b rest =>
    have other := (ends b rfl).1
    rw [List.takeWhile_cons_of_neg (by simp [other]), List.dropWhile_cons_of_neg (by simp [other])]
    exact ⟨List.append_nil _, rfl⟩

/-- The bytes of a number begin with a digit, and with a zero only if there is no further digit. -/
theorem digits_front (n : Nat) : ∃ b more, encodeUtf8 (digits n) = b :: more ∧ isDigitByte b = true ∧
    (b = 0x30 → more = []) := by
  obtain ⟨c, others, parts⟩ := List.exists_cons_of_ne_nil (digits_ne_nil n)
  have digit : isDigit c = true := isDigit_of_mem_digits (n := n) (by simp [parts])
  obtain ⟨single, byte, value⟩ := utf8EncodeChar_digit digit
  refine ⟨UInt8.ofNat c.toNat, encodeUtf8 others, ?_, byte, fun zero => ?_⟩
  · rw [parts, encodeUtf8, List.flatMap_cons, single]
    rfl
  · have nought : c = '0' := by
      rw [zero] at value
      have bounds := isDigit_iff.mp digit
      rw [← Char.ofNat_toNat c, show c.toNat = 48 by rw [digitValue] at value; simp at value; omega]
    by_cases several : 10 ≤ n
    · exact absurd (by rw [parts, nought]; rfl) (head_digits_ne_zero several)
    · rw [digits, if_pos (by omega)] at parts
      cases parts
      rfl

theorem readNumeral_digits (atEnd : Problem) (n : Nat) (ends : EndsNumber rest) :
    readNumeral atEnd (encodeUtf8 (digits n) ++ rest) = .ok (⟨false, encodeUtf8 (digits n), none, none⟩, rest) := by
  obtain ⟨b, more, front, digit, alone⟩ := digits_front n
  obtain ⟨taken, dropped⟩ := digits_span (n := n) ends
  have notMinus : b ≠ 0x2D := by
    rintro rfl
    cases digit
  have fraction : readFraction atEnd rest = .ok (none, rest) := by
    cases rest with
    | nil => rfl
    | cons mark rest => simp [readFraction, (ends mark rfl).2.1]
  have exponent : readExponent atEnd rest = .ok (none, rest) := by
    cases rest with
    | nil => rfl
    | cons mark rest =>
      obtain ⟨_, _, small, large⟩ := ends mark rfl
      simp [readExponent, small, large]
  have single : (b = 0x30 && ((more ++ rest).head?.map isDigitByte).getD false) = false := by
    by_cases zero : b = 0x30
    · rw [alone zero, List.nil_append]
      cases rest with
      | nil => simp
      | cons mark rest => simp [(ends mark rfl).1]
    · simp [zero]
  rw [front, List.cons_append] at taken dropped ⊢
  simp only [readNumeral, List.head?_cons, Option.some.injEq, notMinus, decide_false, Bool.false_eq_true,
    if_false, digit, Bool.not_true, Bool.false_or, single, taken, dropped, fraction, exponent, bind, Except.bind]

theorem le_foldl_digits (digits : Bytes) (start : Nat) :
    start ≤ digits.foldl (fun n b => 10 * n + (b.toNat - 48)) start := by
  induction digits generalizing start with
  | nil => exact le_rfl
  | cons digit digits ih => exact (show start ≤ 10 * start + (digit.toNat - 48) by omega).trans (ih _)

/-- Digits that stay within the bound are all taken up. -/
theorem extend_of_lt (digits : Bytes) (value : Nat)
    (below : digits.foldl (fun n b => 10 * n + (b.toNat - 48)) value < Number.bound) :
    Number.extend value digits = (digits.foldl (fun n b => 10 * n + (b.toNat - 48)) value, []) := by
  induction digits generalizing value with
  | nil => rfl
  | cons digit digits ih =>
    have step : byteDigitsValue [digit] + 10 * value = 10 * value + (digit.toNat - 48) := by
      rw [byteDigitsValue, List.foldl_cons, List.foldl_nil, Nat.mul_zero, Nat.zero_add, Nat.add_comm]
    rw [List.foldl_cons] at below ⊢
    rw [Number.extend, step, if_pos ((le_foldl_digits digits _).trans_lt below), ih _ below]

/-- The digits of a natural number of 64 bits are read as that number. -/
theorem readNumber_digits (small : n < 2 ^ 64) (ends : EndsNumber rest) :
    readNumber (encodeUtf8 (digits n) ++ rest) = .ok (.natural n, rest) := by
  have value := byteDigitsValue_digits n
  have below : n < Number.bound := small
  have scaled : (⟨false, encodeUtf8 (digits n), none, none⟩ : Numeral).scaled = (n, 0) := by
    rw [byteDigitsValue] at value
    have extended := extend_of_lt (encodeUtf8 (digits n)) 0 (by rwa [value])
    simp [Numeral.scaled, extended, value, Number.extend]
  have within : (⟨false, encodeUtf8 (digits n), none, none⟩ : Numeral).overflows = false := by
    have finite := FloatFormat.double_multiply_ofNat_ne small
    simp [Numeral.overflows, scaled, greatestPower, finite]
  have number : (⟨false, encodeUtf8 (digits n), none, none⟩ : Numeral).number = .natural n := by
    simp [Numeral.number, value, below]
  rw [readNumber, readNumeral_digits .truncated n ends]
  simp [bind, Except.bind, within, number]

end Json

end Columnar
