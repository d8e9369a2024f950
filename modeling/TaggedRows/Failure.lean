import TaggedRows.Error
import TaggedRows.Text.Lines

/-!
# Failures of the command line

A failure is the chain of its causes, outermost first.  The texts of broken JSON and of the
operating system stay open: they are causes without a text.
-/

namespace TaggedRows

/-- One cause of a failure. -/
inductive Cause where
  | text (s : String)
  | brokenJson
  | system
deriving DecidableEq

/-- The causes of a failure, outermost first. -/
abbrev Failure := List Cause

/-- An error of a table as a failure. -/
def TableError.failure (e : TableError) : Failure :=
  .text e.message ::
    match e with
    | .malformedJson => [.brokenJson]
    | .unreadable => [.system]
    | _ => []

/-- A file or a line of input that cannot be read. -/
def Failure.unreadableInput : Failure := [.text "Failed to read input", .system]

/-- The first line of a failure's text. -/
def Failure.firstLine : Failure → String
  | .text s :: _ => String.ofList (Text.firstLine s.toList)
  | _ => ""

end TaggedRows
