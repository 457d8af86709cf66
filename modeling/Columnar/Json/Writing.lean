import Columnar.Text.Numeral
import Columnar.Text.Quoted

namespace Columnar.Json

open Text

/-- A character inside a string: quotes, backslashes and control characters are escaped, the common ones by a
letter. -/
def writeChar (c : Char) : List Char :=
  if c = '"' then ['\\', '"']
  else if c = '\\' then ['\\', '\\']
  else if c = '\n' then ['\\', 'n']
  else if c = '\t' then ['\\', 't']
  else if c = '\r' then ['\\', 'r']
  else if c.toNat = 0x08 then ['\\', 'b']
  else if c.toNat = 0x0C then ['\\', 'f']
  else if c.toNat < 0x20 then ['\\', 'u', '0', '0', hexDigit (c.toNat / 16), hexDigit (c.toNat % 16)]
  else [c]

def writeString (text : List Char) : List Char := '"' :: (text.flatMap writeChar ++ ['"'])

def writeBoolean (value : Bool) : List Char := if value then "true".toList else "false".toList

def joinCommas : List (List Char) → List Char
  | [] => []
  | [item] => item
  | item :: items => item ++ ',' :: joinCommas items

def writeList (items : List (List Char)) : List Char := '[' :: (joinCommas items ++ [']'])

def writeObject (members : List (String × List Char)) : List Char :=
  '\x7b' :: (joinCommas (members.map fun (name, value) => writeString name.toList ++ ':' :: value) ++ ['\x7d'])

end Columnar.Json
