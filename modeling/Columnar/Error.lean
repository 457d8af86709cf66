import Columnar.Json.Token
import Columnar.Scalar.Error

namespace Columnar

/-- What went wrong, as far as a caller has to tell it apart. -/
inductive Cause where
  /-- There is no reader for a type, an encoding or a codec. -/
  | unsupportedType
  /-- Stored data or metadata contradicts itself. -/
  | corruption
  /-- A position or a value that the column does not have. -/
  | notFound
  /-- A call that does not fit the state, or two columns that do not fit each other. -/
  | internal
  /-- A run stream that cannot be decoded. -/
  | encoding (text : String)
  /-- A metadata document that cannot be read. -/
  | metadata (problem : Json.Problem)
  | value (error : ValueError)
  | io (text : String)
  /-- More storage is asked for than there can be. The program stops. -/
  | outOfStorage
  deriving DecidableEq, Repr

/-- A failure with the notes made on its way out, innermost first. -/
structure Error where
  cause : Cause
  context : List String := []
  deriving DecidableEq, Repr

namespace ValueErrorKind

def name : ValueErrorKind → String
  | invalidColumnType => "InvalidColumnType"
  | invalidValue => "InvalidValue"

end ValueErrorKind

namespace Json.Problem

def text : Problem → String
  | malformed => "the document is not JSON"
  | truncated => "the document ends early"
  | mismatch => "the document does not have the expected shape"

end Json.Problem

namespace Cause

/-- The text of the failure underneath, where there is one. -/
def source? : Cause → Option String
  | unsupportedType | corruption | notFound | internal | outOfStorage => none
  | encoding text => some s!"File out of specification: {text}"
  | metadata problem => some problem.text
  | value error => some error.text
  | io text => some text

def title : Cause → String
  | unsupportedType => "UnsupportedType"
  | corruption => "Corruption"
  | notFound => "NotFound"
  | internal => "Internal"
  | encoding text => s!"Encoding({text})"
  | metadata problem => s!"Metadata({problem.text})"
  | value error => s!"Core(CoreError({error.kind.name}: {error.text}))"
  | io text => s!"Io({text})"
  | outOfStorage => "capacity overflow"

end Cause

namespace Error

def ofCause (cause : Cause) : Error := ⟨cause, []⟩

def ofValue (error : ValueError) : Error := ofCause (.value error)

def ofProblem (problem : Json.Problem) : Error := ofCause (.metadata problem)

def unsupported (text : String) : Error := ⟨.unsupportedType, [text]⟩

def corruption (text : String) : Error := ⟨.corruption, [text]⟩

def notFound (text : String) : Error := ⟨.notFound, [text]⟩

def internal (text : String) : Error := ⟨.internal, [text]⟩

def outOfStorage : Error := ofCause .outOfStorage

def note (text : String) (error : Error) : Error := { error with context := error.context ++ [text] }

def isNotFound (error : Error) : Bool := error.cause = .notFound

def isCorruption (error : Error) : Bool := error.cause = .corruption

/-- The notes from the outside in, then the failure underneath. An error with neither shows its cause. -/
def message (error : Error) : String :=
  match error.context.reverse ++ error.cause.source?.toList with
  | [] => error.cause.title
  | parts => ": ".intercalate parts

def report (error : Error) : String :=
  s!"SegmentError\n    Cause: {error.cause.title}\n    Context:\n"
    ++ String.join (error.context.reverse.map fun line => s!"        {line}\n")

end Error

end Columnar
