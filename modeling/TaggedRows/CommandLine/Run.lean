import TaggedRows.CommandLine.Invocation
import TaggedRows.Dump
import TaggedRows.Settings

/-!
# Running a command line

A run answers an invocation with lines of output and, if it fails, with a failure.  Whatever was
written before the failure stays.
-/

namespace TaggedRows.CommandLine

open TaggedRows.Text

/-- What a path that can be opened leads to: a file, or a directory, which holds no bytes to read. -/
inductive Entry where
  | file (content : Bytes)
  | directory

/-- The bytes behind a path, if they can be read. -/
def Entry.content? : Entry → Option Bytes
  | .file content => some content
  | .directory => none

/-- What a run can see: what paths lead to, standard input, and the clock in milliseconds. -/
structure Surroundings where
  entry? : String → Option Entry
  stdin : Bytes
  now : Int

/-- What a run leaves: the lines of its output, and its failure. -/
structure Answer where
  lines : List String
  failure : Option Failure := none

/-- The exit code of a run that got as far as running. -/
def Answer.exitCode (a : Answer) : Nat := if a.failure.isSome then 1 else 0

/-- The lines of an answer as text. -/
def Answer.text (a : Answer) : String := String.join (a.lines.map (· ++ "\n"))

/-- An output of a dump as an answer. -/
def answerOf (output : Dump.Output) : Answer :=
  match output.outcome with
  | .ok _ => { lines := output.lines }
  | .error e => { lines := output.lines, failure := some e }

/-- A file of settings. -/
def Surroundings.settings (s : Surroundings) (path : String) : Settings.File :=
  ⟨path, (s.entry? path).bind Entry.content?⟩

/-- The bytes of a named file, or of standard input. -/
def Surroundings.input (s : Surroundings) : Option String → Except Failure Bytes
  | none => .ok s.stdin
  | some path =>
    match s.entry? path with
    | some (.file content) => .ok content
    | some .directory => .error .unreadableInput
    | none => .error [.text ("Failed to open " ++ path), .system]

/-- Carry out a command under given settings. -/
def runCommand (s : Surroundings) (table : EventTable) : Command → Except Failure Answer
  | .deriveKey sourceId millis => do
    let keys ← table.keys.mapError TableError.failure
    pure { lines := [keys.rowId sourceId (millis.getD s.now)] }
  | .ranges begin stop => do
    let keys ← table.keys.mapError TableError.failure
    let ranges ← (keys.windowRanges begin stop).mapError fun e => [.text e.message]
    pure { lines := ranges.map RowRange.text }
  | .encode input => do
    let codec ← table.codec.mapError TableError.failure
    pure (answerOf (Dump.cellsOfRecords codec (← s.input input)))
  | .decode input skip => do
    let codec ← table.codec.mapError TableError.failure
    pure (answerOf (Dump.recordsOfCells codec skip (← s.input input)))

/-- Answer an invocation. -/
def run (s : Surroundings) (invocation : Invocation) : Answer :=
  let g := invocation.globals
  let result := do
    let table ← Settings.load (g.config.map s.settings) g.keyPrefix g.shards
    runCommand s table invocation.command
  match result with
  | .ok answer => answer
  | .error e => { lines := [], failure := some e }

end TaggedRows.CommandLine
