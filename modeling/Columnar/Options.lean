import Columnar.Json.Record

namespace Columnar

open Json

/-- How the pages of a column are read. -/
structure ReaderOptions where
  verifyChecksum : Bool := true
  /-- Ask the page store to keep every page of the column. -/
  keptInMemory : Bool := false
  deriving DecidableEq, Repr

structure CursorOptions where
  /-- Data pages are looked up in the page cache and put into it. -/
  usePageCache : Bool := false
  deriving DecidableEq, Repr

structure ReaderOptions.Draft where
  verifyChecksum : Option Bool := none
  keptInMemory : Option Bool := none

def ReaderOptions.fields : List (RecordField Draft) :=
  [⟨"verify_checksum", fun draft => draft.verifyChecksum.isSome, fun draft => do
      return { draft with verifyChecksum := ← readBoolean }⟩,
    ⟨"kept_in_memory", fun draft => draft.keptInMemory.isSome, fun draft => do
      return { draft with keptInMemory := ← readBoolean }⟩]

def ReaderOptions.ofJson : Bytes → Except Problem ReaderOptions :=
  readDocument (readRecord (some fields) ({} : Draft) fun draft =>
    some ⟨draft.verifyChecksum.getD true, draft.keptInMemory.getD false⟩)

def CursorOptions.fields : List (RecordField (Option Bool)) :=
  [⟨"use_page_cache", fun draft => draft.isSome, fun _ => do return some (← readBoolean)⟩]

def CursorOptions.ofJson : Bytes → Except Problem CursorOptions :=
  readDocument (readRecord (some fields) none fun draft => some ⟨draft.getD false⟩)

end Columnar
