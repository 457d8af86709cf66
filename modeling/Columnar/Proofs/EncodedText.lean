import Columnar.Text.Utf8

namespace Columnar.Text

variable {lead b c d : UInt8} {rest : Bytes}

theorem isContinuation_iff : isContinuation b = true ↔ 128 ≤ b.toNat ∧ b.toNat ≤ 191 := by
  rw [isContinuation, Bool.and_eq_true, decide_eq_true_iff, decide_eq_true_iff]
  exact Iff.rfl

/-- A continuation byte may follow a lead byte, but for overlong forms, surrogates and code points past the last
one. -/
theorem mayFollow_of_bounds (continuation : 128 ≤ b.toNat ∧ b.toNat ≤ 191)
    (overlong : lead.toNat = 224 → 160 ≤ b.toNat) (surrogate : lead.toNat = 237 → b.toNat ≤ 159)
    (overlongFour : lead.toNat = 240 → 144 ≤ b.toNat) (beyond : lead.toNat = 244 → b.toNat ≤ 143) :
    mayFollow lead b = true := by
  have between (low high : UInt8) (bounds : low.toNat ≤ b.toNat ∧ b.toNat ≤ high.toNat) :
      (low ≤ b && b ≤ high) = true := by
    rw [Bool.and_eq_true, decide_eq_true_iff, decide_eq_true_iff]
    exact bounds
  unfold mayFollow
  split
  next same => exact between _ _ ⟨overlong (congrArg UInt8.toNat same), continuation.2⟩
  next =>
    split
    next same => exact between _ _ ⟨continuation.1, surrogate (congrArg UInt8.toNat same)⟩
    next =>
      split
      next same => exact between _ _ ⟨overlongFour (congrArg UInt8.toNat same), continuation.2⟩
      next =>
        split
        next same => exact between _ _ ⟨continuation.1, beyond (congrArg UInt8.toNat same)⟩
        next => exact isContinuation_iff.mpr continuation

theorem firstChar_one (ascii : lead.toNat < 128) : firstChar lead rest = (some (Char.ofNat lead.toNat), 0) := by
  unfold firstChar
  rw [if_pos (UInt8.lt_iff_toNat_lt.mpr ascii)]

theorem lead_bounds (lead : UInt8) (low : 194 ≤ lead.toNat) (high : lead.toNat ≤ 244) :
    ¬lead < 0x80 ∧ ¬(lead < 0xC2 || 0xF4 < lead) = true := by
  have notAscii : ¬lead < 0x80 := by
    rw [UInt8.lt_iff_toNat_lt]
    exact Nat.not_lt.mpr (Nat.le_trans (by decide) low)
  have notBelow : ¬lead < 0xC2 := by
    rw [UInt8.lt_iff_toNat_lt]
    exact Nat.not_lt.mpr low
  have notAbove : ¬0xF4 < lead := by
    rw [UInt8.lt_iff_toNat_lt]
    exact Nat.not_lt.mpr high
  exact ⟨notAscii, by simp [notBelow, notAbove]⟩

theorem firstChar_two (low : 194 ≤ lead.toNat) (high : lead.toNat < 224)
    (continuation : 128 ≤ b.toNat ∧ b.toNat ≤ 191) :
    firstChar lead (b :: rest) = (some (Char.ofNat (lead.toNat % 32 * 64 + b.toNat % 64)), 1) := by
  obtain ⟨notAscii, valid⟩ := lead_bounds lead low (by omega)
  have follows : mayFollow lead b = true :=
    mayFollow_of_bounds continuation (by omega) (by omega) (by omega) (by omega)
  unfold firstChar
  rw [if_neg notAscii, if_neg valid]
  dsimp only
  rw [follows, Bool.not_true, if_neg Bool.false_ne_true, if_pos (UInt8.lt_iff_toNat_lt.mpr high)]
  rfl

theorem firstChar_three (low : 224 ≤ lead.toNat) (high : lead.toNat < 240) (follows : mayFollow lead b = true)
    (continuation : 128 ≤ c.toNat ∧ c.toNat ≤ 191) : firstChar lead (b :: c :: rest) =
      (some (Char.ofNat ((lead.toNat % 16 * 64 + b.toNat % 64) * 64 + c.toNat % 64)), 2) := by
  obtain ⟨notAscii, valid⟩ := lead_bounds lead (by omega) (by omega)
  have notTwo : ¬lead < 0xE0 := by
    rw [UInt8.lt_iff_toNat_lt]
    exact Nat.not_lt.mpr low
  unfold firstChar
  rw [if_neg notAscii, if_neg valid]
  dsimp only
  rw [follows, isContinuation_iff.mpr continuation, Bool.not_true, if_neg Bool.false_ne_true, if_neg notTwo,
    if_neg Bool.false_ne_true, if_pos (UInt8.lt_iff_toNat_lt.mpr high)]
  rfl

theorem firstChar_four (low : 240 ≤ lead.toNat) (high : lead.toNat ≤ 244) (follows : mayFollow lead b = true)
    (third : 128 ≤ c.toNat ∧ c.toNat ≤ 191) (fourth : 128 ≤ d.toNat ∧ d.toNat ≤ 191) :
    firstChar lead (b :: c :: d :: rest) =
      (some (Char.ofNat (((lead.toNat % 8 * 64 + b.toNat % 64) * 64 + c.toNat % 64) * 64 + d.toNat % 64)), 3) := by
  obtain ⟨notAscii, valid⟩ := lead_bounds lead (by omega) high
  have notTwo : ¬lead < 0xE0 := by
    rw [UInt8.lt_iff_toNat_lt]
    exact Nat.not_lt.mpr (Nat.le_trans (by decide) low)
  have notThree : ¬lead < 0xF0 := by
    rw [UInt8.lt_iff_toNat_lt]
    exact Nat.not_lt.mpr low
  unfold firstChar
  rw [if_neg notAscii, if_neg valid]
  dsimp only
  rw [follows, isContinuation_iff.mpr third, isContinuation_iff.mpr fourth, Bool.not_true,
    if_neg Bool.false_ne_true, if_neg notTwo, if_neg Bool.false_ne_true, if_neg notThree, if_neg Bool.false_ne_true]
  rfl

theorem toNat_byte {n : Nat} (small : n < 256) : (UInt8.ofNat n).toNat = n := by
  rw [UInt8.toNat_ofNat', Nat.mod_eq_of_lt small]

/-- The bytes of a character are read as that character, whatever stands behind them. -/
theorem scanUtf8_encodeChar (char : Char) (rest : Bytes) :
    scanUtf8 (String.utf8EncodeChar char ++ rest) = some char :: scanUtf8 rest := by
  have whole : Char.ofNat char.val.toNat = char := Char.ofNat_toNat char
  have valid : char.val.toNat < 55296 ∨ 57343 < char.val.toNat ∧ char.val.toNat < 1114112 := char.valid
  unfold String.utf8EncodeChar
  dsimp only
  generalize char.val.toNat = n at whole valid
  split
  next one =>
    have lead := toNat_byte (n := n) (by omega)
    rw [List.singleton_append, scanUtf8, firstChar_one (by omega), lead, whole, List.drop_zero]
  next =>
    have last := toNat_byte (n := n % 64 + 128) (by omega)
    split
    next two =>
      have lead := toNat_byte (n := n / 64 % 32 + 192) (by omega)
      have same : (n / 64 % 32 + 192) % 32 * 64 + (n % 64 + 128) % 64 = n := by omega
      rw [List.cons_append, List.singleton_append, scanUtf8, firstChar_two (by omega) (by omega) (by omega), lead,
        last, same, whole]
      rfl
    next =>
      have third := toNat_byte (n := n / 64 % 64 + 128) (by omega)
      split
      next three =>
        have lead := toNat_byte (n := n / 4096 % 16 + 224) (by omega)
        have same : ((n / 4096 % 16 + 224) % 16 * 64 + (n / 64 % 64 + 128) % 64) * 64 + (n % 64 + 128) % 64 =
          n := by omega
        have follows : mayFollow (UInt8.ofNat (n / 4096 % 16 + 224)) (UInt8.ofNat (n / 64 % 64 + 128)) = true :=
          mayFollow_of_bounds (by omega) (by omega) (by omega) (by omega) (by omega)
        rw [List.cons_append, List.cons_append, List.singleton_append, scanUtf8,
          firstChar_three (by omega) (by omega) follows (by omega), lead, third, last, same, whole]
        rfl
      next =>
        have lead := toNat_byte (n := n / 262144 % 8 + 240) (by omega)
        have second := toNat_byte (n := n / 4096 % 64 + 128) (by omega)
        have same :
            (((n / 262144 % 8 + 240) % 8 * 64 + (n / 4096 % 64 + 128) % 64) * 64 + (n / 64 % 64 + 128) % 64) * 64 +
              (n % 64 + 128) % 64 = n := by omega
        have follows : mayFollow (UInt8.ofNat (n / 262144 % 8 + 240)) (UInt8.ofNat (n / 4096 % 64 + 128)) = true :=
          mayFollow_of_bounds (by omega) (by omega) (by omega) (by omega) (by omega)
        rw [List.cons_append, List.cons_append, List.cons_append, List.singleton_append, scanUtf8,
          firstChar_four (by omega) (by omega) follows (by omega) (by omega), lead, second, third, last,
            same, whole]
        rfl

theorem scanUtf8_encodeUtf8 (text : List Char) : scanUtf8 (encodeUtf8 text) = text.map some := by
  induction text with
  | nil => rw [encodeUtf8, List.flatMap_nil, scanUtf8, List.map_nil]
  | cons char rest ih =>
    rw [encodeUtf8, List.flatMap_cons, ← encodeUtf8, scanUtf8_encodeChar, ih, List.map_cons]

/-- Encoded text is read back character by character. -/
theorem decodeUtf8Lossy_encodeUtf8 (text : List Char) : decodeUtf8Lossy (encodeUtf8 text) = text := by
  rw [decodeUtf8Lossy, scanUtf8_encodeUtf8, List.map_map]
  exact List.map_id text

theorem decodeUtf8?_encodeUtf8 (text : List Char) : decodeUtf8? (encodeUtf8 text) = some text := by
  rw [decodeUtf8?, scanUtf8_encodeUtf8]
  induction text with
  | nil => rfl
  | cons char rest ih => rw [List.map_cons, List.mapM_cons, ih]; rfl

theorem encodeUtf8_append (front back : List Char) :
    encodeUtf8 (front ++ back) = encodeUtf8 front ++ encodeUtf8 back := List.flatMap_append

theorem utf8EncodeChar_ascii {char : Char} (ascii : char.toNat < 128) :
    String.utf8EncodeChar char = [UInt8.ofNat char.toNat] := by
  unfold String.utf8EncodeChar
  rw [if_pos (show char.val.toNat ≤ 127 from Nat.le_of_lt_succ ascii)]
  rfl

/-- The bytes of a character beyond ASCII are beyond ASCII too. -/
theorem le_of_mem_utf8EncodeChar {char : Char} (beyond : 128 ≤ char.toNat)
    (member : b ∈ String.utf8EncodeChar char) : 128 ≤ b.toNat := by
  have beyond : 128 ≤ char.val.toNat := beyond
  have valid : char.val.toNat < 1114112 := by
    rcases char.valid with below | ⟨_, below⟩
    · exact Nat.lt_trans below (by decide)
    · exact below
  have byte : ∃ value, b = UInt8.ofNat value ∧ 128 ≤ value ∧ value < 256 := by
    unfold String.utf8EncodeChar at member
    dsimp only at member
    generalize char.val.toNat = n at member valid beyond
    split at member
    · omega
    · split at member
      · simp only [List.mem_cons, List.not_mem_nil, or_false] at member
        rcases member with rfl | rfl <;> exact ⟨_, rfl, by omega, by omega⟩
      · split at member
        · simp only [List.mem_cons, List.not_mem_nil, or_false] at member
          rcases member with rfl | rfl | rfl <;> exact ⟨_, rfl, by omega, by omega⟩
        · simp only [List.mem_cons, List.not_mem_nil, or_false] at member
          rcases member with rfl | rfl | rfl | rfl <;> exact ⟨_, rfl, by omega, by omega⟩
  obtain ⟨value, rfl, high, small⟩ := byte
  rwa [toNat_byte small]

end Columnar.Text
