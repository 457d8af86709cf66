import Columnar.Json.Writing
import Columnar.Proofs.WrittenNumerals

namespace Columnar.Json

open Text

variable {text : List Char} {bytes piece more rest : Bytes}

/-- Bytes that stand for themselves inside of a string. -/
def Plain (bytes : Bytes) : Prop := ∀ b ∈ bytes, b ≠ 0x22 ∧ b ≠ 0x5C ∧ ¬b < 0x20

theorem readStringBytes_plain (plain : Plain bytes) :
    readStringBytes (bytes ++ more) = (readStringBytes more).map fun (text, rest) => (bytes ++ text, rest) := by
  induction bytes with
  | nil =>
    rw [List.nil_append]
    cases readStringBytes more <;> rfl
  | cons b bytes ih =>
    obtain ⟨⟨quote, backslash, control⟩, others⟩ := List.forall_mem_cons.mp plain
    rw [List.cons_append, readStringBytes, if_neg quote, if_neg backslash, if_neg control, ih others]
    cases readStringBytes more <;> rfl

theorem readStringBytes_escape (escape : Bytes) (read : readEscape (escape ++ more) = .ok (piece, escape.length)) :
    readStringBytes (0x5C :: escape ++ more) = (readStringBytes more).map fun (text, rest) =>
      (piece ++ text, rest) := by
  rw [List.cons_append, readStringBytes, if_neg (by decide), if_pos rfl, read]
  simp only [bind, Except.bind, List.drop_left]
  cases readStringBytes more <;> rfl

theorem plain_utf8EncodeChar {c : Char} (quote : c ≠ '"') (backslash : c ≠ '\\') (control : ¬c.toNat < 0x20) :
    Plain (String.utf8EncodeChar c) := by
  intro b member
  by_cases ascii : c.toNat < 128
  · have value := toNat_byte (n := c.toNat) (by omega)
    rw [utf8EncodeChar_ascii ascii, List.mem_singleton] at member
    subst member
    have other {mark : Char} {byte : UInt8} (differ : c ≠ mark) (same : byte.toNat = mark.toNat) :
        UInt8.ofNat c.toNat ≠ byte := by
      rintro rfl
      refine differ (Char.toNat_inj.mp ?_)
      rw [← same, value]
    refine ⟨other quote (by decide), other backslash (by decide), ?_⟩
    rw [UInt8.lt_iff_toNat_lt, value]
    exact control
  · have high := le_of_mem_utf8EncodeChar (Nat.le_of_not_lt ascii) member
    refine ⟨?_, ?_, ?_⟩
    · rintro rfl
      exact absurd high (by decide)
    · rintro rfl
      exact absurd high (by decide)
    · rw [UInt8.lt_iff_toNat_lt]
      exact fun low => absurd (high.trans_lt low) (by decide)

/-- The escape of a control character without a letter of its own. -/
theorem readEscape_control {n : Nat} (small : n < 0x20) (more : Bytes) :
    readEscape (encodeUtf8 ['u', '0', '0', hexDigit (n / 16), hexDigit (n % 16)] ++ more) =
      .ok (String.utf8EncodeChar (Char.ofNat n),
        (encodeUtf8 ['u', '0', '0', hexDigit (n / 16), hexDigit (n % 16)]).length) := by
  have ascii : ∀ digit < 16, String.utf8EncodeChar (hexDigit digit) = [UInt8.ofNat (hexDigit digit).toNat] ∧
      hexValue? (UInt8.ofNat (hexDigit digit).toNat) = some digit := by decide
  obtain ⟨high, highValue⟩ := ascii (n / 16) (by omega)
  obtain ⟨low, lowValue⟩ := ascii (n % 16) (by omega)
  have unit : ((0 * 16 + 0) * 16 + n / 16) * 16 + n % 16 = n := by omega
  have bytes : encodeUtf8 ['u', '0', '0', hexDigit (n / 16), hexDigit (n % 16)] =
      [0x75, 0x30, 0x30, UInt8.ofNat (hexDigit (n / 16)).toNat, UInt8.ofNat (hexDigit (n % 16)).toNat] := by
    simp only [encodeUtf8, List.flatMap_cons, List.flatMap_nil, high, low]
    rfl
  have zero : hexValue? 0x30 = some 0 := by decide
  have code :
      readHex4 (0x30 :: 0x30 :: UInt8.ofNat (hexDigit (n / 16)).toNat ::
      UInt8.ofNat (hexDigit (n % 16)).toNat :: more) =
      .ok n := by
    simp only [readHex4, zero, highValue, lowValue, unit]
  have letter : escapedLetter? 0x75 = none := by decide
  have surrogate : (0xDC00 ≤ n && n ≤ 0xDFFF) = false := by
    rw [Bool.and_eq_false_iff, decide_eq_false_iff_not]
    omega
  have single : (n < 0xD800 || 0xDFFF < n) = true := by
    rw [Bool.or_eq_true, decide_eq_true_iff]
    omega
  rw [bytes]
  simp only [List.cons_append, List.nil_append, readEscape, letter, readUnicodeEscape, code, bind, Except.bind,
    surrogate, single, Bool.false_eq_true, if_false, if_true, encodeUtf8, List.flatMap_cons, List.flatMap_nil,
      List.append_nil]
  rfl

/-- A written character is read back, whatever stands behind it. -/
theorem readStringBytes_writeChar (c : Char) (more : Bytes) : readStringBytes (encodeUtf8 (writeChar c) ++ more) =
    (readStringBytes more).map fun (text, rest) => (String.utf8EncodeChar c ++ text, rest) := by
  have lettered (letter : Char) {found : UInt8} (ascii : letter.toNat < 128)
      (known : escapedLetter? (UInt8.ofNat letter.toNat) = some found) (own : String.utf8EncodeChar c = [found]) :
      readStringBytes (encodeUtf8 ['\\', letter] ++ more) =
        (readStringBytes more).map fun (text, rest) => (String.utf8EncodeChar c ++ text, rest) := by
    rw [encodeUtf8, List.flatMap_cons, List.flatMap_singleton, utf8EncodeChar_ascii ascii, own]
    exact readStringBytes_escape [UInt8.ofNat letter.toNat] (by simp [readEscape, known])
  have code (n : Nat) (same : c.toNat = n) : c = Char.ofNat n := by rw [← same, Char.ofNat_toNat]
  unfold writeChar
  by_cases quote : c = '"'
  · subst quote
    exact lettered '"' (by decide) rfl (by decide)
  by_cases backslash : c = '\\'
  · subst backslash
    exact lettered '\\' (by decide) rfl (by decide)
  by_cases newline : c = '\n'
  · subst newline
    exact lettered 'n' (by decide) rfl (by decide)
  by_cases tab : c = '\t'
  · subst tab
    exact lettered 't' (by decide) rfl (by decide)
  by_cases carriage : c = '\r'
  · subst carriage
    exact lettered 'r' (by decide) rfl (by decide)
  rw [if_neg quote, if_neg backslash, if_neg newline, if_neg tab, if_neg carriage]
  split
  · rename_i backspace
    exact lettered 'b' (by decide) rfl (by rw [code 8 backspace]; decide)
  · split
    · rename_i feed
      exact lettered 'f' (by decide) rfl (by rw [code 12 feed]; decide)
    · split
      · rename_i control
        have escape := readEscape_control control more
        rw [Char.ofNat_toNat] at escape
        exact readStringBytes_escape _ escape
      · rename_i control
        rw [encodeUtf8, List.flatMap_singleton]
        exact readStringBytes_plain (plain_utf8EncodeChar quote backslash control)

/-- What stands in a string is read back up to the closing quote. -/
theorem readStringBytes_flatMap (text : List Char) (rest : Bytes) :
    readStringBytes (encodeUtf8 (text.flatMap writeChar) ++ 0x22 :: rest) = .ok (encodeUtf8 text, rest) := by
  induction text with
  | nil => rw [List.flatMap_nil, encodeUtf8, List.flatMap_nil, List.nil_append, readStringBytes, if_pos rfl]
  | cons c text ih =>
    rw [List.flatMap_cons, encodeUtf8_append, List.append_assoc, readStringBytes_writeChar, ih]
    rfl

theorem encodeUtf8_writeString (text : List Char) :
    encodeUtf8 (writeString text) = 0x22 :: (encodeUtf8 (text.flatMap writeChar) ++ [0x22]) := by
  rw [writeString, ← List.singleton_append, encodeUtf8_append, encodeUtf8_append]
  rfl

theorem readString_flatMap (text : List Char) (rest : Bytes) :
    readString (encodeUtf8 (text.flatMap writeChar) ++ 0x22 :: rest) = .ok (text, rest) := by
  rw [readString, readStringBytes_flatMap]
  simp only [bind, Except.bind, decodeUtf8?_encodeUtf8]

end Columnar.Json
