import Columnar.Bytes

namespace Columnar.Text

def encodeUtf8 (text : List Char) : Bytes := text.flatMap String.utf8EncodeChar

def isContinuation (b : UInt8) : Bool := 0x80 ≤ b && b ≤ 0xBF

/-- The six low bits of a continuation byte. -/
def continuationBits (b : UInt8) : Nat := b.toNat % 64

/-- Whether a second byte may follow the given lead byte: overlong forms, surrogates and code points past the last
one are told apart here. -/
def mayFollow (lead second : UInt8) : Bool :=
  if lead = 0xE0 then 0xA0 ≤ second && second ≤ 0xBF
  else if lead = 0xED then 0x80 ≤ second && second ≤ 0x9F
  else if lead = 0xF0 then 0x90 ≤ second && second ≤ 0xBF
  else if lead = 0xF4 then 0x80 ≤ second && second ≤ 0x8F
  else isContinuation second

/-- The character at the start of a non-empty text and how many bytes follow its first one. Where no character
starts, the count is that of the longest piece a character could start with. -/
def firstChar (lead : UInt8) (rest : Bytes) : Option Char × Nat :=
  if lead < 0x80 then (some (Char.ofNat lead.toNat), 0)
  else if lead < 0xC2 || 0xF4 < lead then (none, 0)
  else match rest with
    | [] => (none, 0)
    | b :: rest =>
      if !mayFollow lead b then (none, 0)
      else if lead < 0xE0 then (some (Char.ofNat (lead.toNat % 32 * 64 + continuationBits b)), 1)
      else match rest with
        | [] => (none, 1)
        | c :: rest =>
          if !isContinuation c then (none, 1)
          else if lead < 0xF0 then
            (some (Char.ofNat ((lead.toNat % 16 * 64 + continuationBits b) * 64 + continuationBits c)), 2)
          else match rest with
            | [] => (none, 2)
            | d :: _ =>
              if !isContinuation d then (none, 2)
              else (some (Char.ofNat (((lead.toNat % 8 * 64 + continuationBits b) * 64 + continuationBits c) * 64
                + continuationBits d)), 3)

/-- The characters of a byte string in order; a piece that is no character is `none`. -/
def scanUtf8 : Bytes → List (Option Char)
  | [] => []
  | lead :: rest => (firstChar lead rest).1 :: scanUtf8 (rest.drop (firstChar lead rest).2)
termination_by bytes => bytes.length
decreasing_by simp only [List.length_drop, List.length_cons]; omega

def decodeUtf8? (bytes : Bytes) : Option (List Char) := (scanUtf8 bytes).mapM id

/-- Reads any byte string: a piece that is no character shows as the replacement character. -/
def decodeUtf8Lossy (bytes : Bytes) : List Char := (scanUtf8 bytes).map (·.getD '\ufffd')

end Columnar.Text
