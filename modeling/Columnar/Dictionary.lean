import Columnar.Cursor
import Columnar.FloatFormat.Rounding

namespace Columnar

/-- The words of a column that are stored once and told apart by their place in the list. -/
structure Dictionary where
  words : List Bytes
  deriving DecidableEq, Repr

namespace Error

def dictionaryEncoding (encoding : Nat) : Error := unsupported s!"unsupported dictionary page encoding {encoding}"

def dictionarySize (declared found : Nat) : Error :=
  corruption s!"dictionary page declares {declared} words, holds {found}"

end Error

namespace Dictionary

/-- Reads the body of a dictionary page. Only plain words are known. -/
def ofBody (body : Bytes) (count encoding : Nat) : Except Error Dictionary := do
  if encoding ≠ 0 then throw (.dictionaryEncoding encoding)
  let words ← Cursor.allPrefixed ⟨0, body⟩
  if words.length ≠ count then throw (.dictionarySize count words.length)
  return ⟨words⟩

/-- Mean length of a word in the single format: both numbers are rounded to the format, and so is their quotient. -/
def meanLength (dictionary : Dictionary) : Nat :=
  if dictionary.words.isEmpty then 0
  else
    let size := total (dictionary.words.map List.length)
    FloatFormat.single.divide (FloatFormat.single.ofNat size) (FloatFormat.single.ofNat dictionary.words.length)

end Dictionary

end Columnar
