import Std.Time.DateTime.Timestamp
import TaggedRows.CommandLine.Run

/-!
# The program

The files that a command line names and standard input are read, the run is answered, and the answer
is printed.  What opens but cannot be read is taken for a directory.
-/

namespace TaggedRows

open CommandLine

/-- The files that an invocation names. -/
def CommandLine.Invocation.paths (invocation : Invocation) : List String :=
  invocation.globals.config.toList ++
    match invocation.command with
    | .encode input => input.toList
    | .decode input _ => input.toList
    | _ => []

/-- Whether an invocation reads standard input. -/
def CommandLine.Invocation.readsStdin (invocation : Invocation) : Bool :=
  match invocation.command with
  | .encode none => true
  | .decode none _ => true
  | _ => false

/-- What has been opened: a file, unless it cannot be read. -/
def entryOf (handle : IO.FS.Handle) : IO Entry := do
  try
    return .file (← handle.readBinToEnd).toList
  catch _ => return .directory

/-- What a path leads to, if it can be opened. -/
def entry? (path : String) : IO (Option Entry) := do
  try
    return some (← entryOf (← IO.FS.Handle.mk path .read))
  catch _ => return none

/-- Everything that is on standard input. -/
def readStdin : IO Bytes := do
  return (← (← IO.getStdin).readBinToEnd).toList

/-- What a command line may look like. -/
def usage : List String :=
  ["usage: tagged-rows [-c FILE] [--prefix P] [--shards N] [-v] COMMAND",
    "commands: derive-key SOURCE_ID [-t MILLIS]",
    "          ranges --begin DATE --end DATE",
    "          encode [-i FILE]",
    "          decode [-i FILE] [--skip-unrecognized]"]

/-- Answer an invocation on the real files. -/
def answer (invocation : Invocation) : IO UInt32 := do
  let mut entries := []
  for path in invocation.paths do
    entries := (path, ← entry? path) :: entries
  let stdin ← if invocation.readsStdin then readStdin else pure []
  let now := (← Std.Time.Timestamp.now).toMillisecondsSinceUnixEpoch.val
  let answer := run { entry? := fun path => (entries.lookup path).join, stdin, now } invocation
  IO.print answer.text
  match answer.failure with
  | none => return 0
  | some failure =>
    IO.eprintln ("Error: " ++ failure.firstLine)
    return 1

end TaggedRows

/-- Run the program. -/
def main (args : List String) : IO UInt32 := do
  match TaggedRows.CommandLine.Invocation.ofWords? args with
  | some invocation => TaggedRows.answer invocation
  | none =>
    IO.eprintln (String.intercalate "\n" TaggedRows.usage)
    return 2
