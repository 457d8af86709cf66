import Columnar.Cursor
import Columnar.Page.Checksum

namespace Columnar

inductive PageKind where
  | data | index | dictionary
  deriving DecidableEq, Repr

namespace PageKind

def all : List PageKind := [data, index, dictionary]

def name : PageKind → String
  | data => "data"
  | index => "index"
  | dictionary => "dictionary"

def title : PageKind → String
  | data => "Data"
  | index => "Index"
  | dictionary => "Dictionary"

end PageKind

/-- What a data page says of itself. -/
structure DataFooter where
  firstOrdinal : Nat
  rows : Nat
  /-- Bytes at the end of the body that tell null rows from others. -/
  nullMapSize : Nat
  /-- In a page of array lengths: how many items the arrays before the page have. -/
  firstItem : Nat
  rows_lt : rows < 2 ^ 32
  deriving DecidableEq, Repr

/-- A footer of numbers as they are stored. That of the rows has 32 bits. -/
def DataFooter.ofStored (firstOrdinal rows nullMapSize firstItem : Nat) : DataFooter :=
  ⟨firstOrdinal, rows % 2 ^ 32, nullMapSize, firstItem, Nat.mod_lt _ (by decide)⟩

inductive Footer where
  | data (footer : DataFooter)
  | index (entries : Nat)
  | dictionary (words encoding : Nat)
  deriving DecidableEq, Repr

structure Page where
  body : Bytes
  footer : Footer
  deriving DecidableEq, Repr

namespace Error

def unknownFooterTag (tag : Nat) : Error := corruption s!"unknown page footer tag {tag}"

def trailingFooterBytes (count : Nat) : Error := corruption s!"{count} trailing bytes in page footer"

def pageTooShort (size : Nat) : Error := corruption s!"page of {size} bytes is too short"

def word (n : Nat) : String :=
  let digits := Text.hexDigits n
  String.ofList (['0', 'x'] ++ List.replicate (8 - digits.length) '0' ++ digits)

def checksumMismatch (offset expected actual : Nat) : Error :=
  corruption s!"checksum mismatch at offset {offset}: expected {word expected}, actual {word actual}"

def footerTooLong (length size : Nat) : Error := corruption s!"footer length {length} exceeds page of {size} bytes"

def wrongPageKind (expected : PageKind) (offset : Nat) (found : PageKind) : Error :=
  corruption s!"expected {expected.title} page at offset {offset}, found {found.title}"

def notDataPage (found : PageKind) : Error := corruption s!"expected a data page, found {found.title} page"

end Error

namespace Footer

def kind : Footer → PageKind
  | data _ => .data
  | index _ => .index
  | dictionary .. => .dictionary

def write : Footer → Bytes
  | data footer =>
    1 :: Bytes.ofNat 8 footer.firstOrdinal ++ Bytes.ofNat 4 footer.rows ++ Bytes.ofNat 4 footer.nullMapSize
      ++ Bytes.ofNat 8 footer.firstItem
  | index entries => 2 :: Bytes.ofNat 4 entries
  | dictionary words encoding => 3 :: Bytes.ofNat 4 words ++ Bytes.ofNat 1 encoding

def readFields : Read Footer := do
  match ← Read.natural 1 with
  | 1 =>
    let firstOrdinal ← Read.natural 8
    let rows ← Read.natural 4
    return data (.ofStored firstOrdinal rows (← Read.natural 4) (← Read.natural 8))
  | 2 => return index (← Read.natural 4)
  | 3 => return dictionary (← Read.natural 4) (← Read.natural 1)
  | tag => throw (.unknownFooterTag tag)

def read (stored : Bytes) : Except Error Footer := do
  let (footer, cursor) ← Read.start readFields stored
  if cursor.rest.isEmpty then .ok footer else .error (.trailingFooterBytes cursor.rest.length)

end Footer

namespace Page

def dataFooter (page : Page) : Except Error DataFooter :=
  match page.footer with
  | .data footer => .ok footer
  | footer => .error (.notDataPage footer.kind)

def covered (page : Page) : Bytes :=
  page.body ++ page.footer.write ++ Bytes.ofNat 4 page.footer.write.length

def write (page : Page) : Bytes := page.covered ++ Bytes.ofNat 4 (checksum page.covered)

/-- Length of what stands behind the footer. -/
def trailerSize : Nat := 8

/-- Reads a page of a kind from its stored form. The parts are found from the end. -/
def read (verify : Bool) (kind : PageKind) (offset : Nat) (stored : Bytes) : Except Error Page := do
  if stored.length < trailerSize then throw (.pageTooShort stored.length)
  let coveredBytes := stored.take (stored.length - 4)
  let expected := Bytes.toNat (stored.drop (stored.length - 4))
  if verify && expected ≠ checksum coveredBytes then
    throw (.checksumMismatch offset expected (checksum coveredBytes))
  let footerEnd := stored.length - trailerSize
  let footerLength := Bytes.toNat ((stored.drop footerEnd).take 4)
  if footerEnd < footerLength then throw (.footerTooLong footerLength stored.length)
  let footerStart := footerEnd - footerLength
  let footer ← Footer.read ((stored.take footerEnd).drop footerStart)
  if footer.kind ≠ kind then throw (.wrongPageKind kind offset footer.kind)
  return ⟨stored.take footerStart, footer⟩

end Page

end Columnar
