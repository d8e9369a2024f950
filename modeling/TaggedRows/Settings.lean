import TaggedRows.Failure
import TaggedRows.Schema.EventTable

/-!
# Settings of the command line

The settings of a run: those of a file if one is named, else those of a table `events`, with a row
key prefix and a number of shards that win over either.
-/

namespace TaggedRows.Settings

open TaggedRows.Text

/-- A file with its content, if it can be read. -/
structure File where
  path : String
  content : Option Bytes

/-- Read the settings in a file. -/
def ofFile (file : File) : Except TableError EventTable :=
  match file.content.bind Utf8.decode? with
  | none => .error .unreadable
  | some text => EventTable.ofText text

/-- The settings of a run. -/
def load (file : Option File) (keyPrefix : Option String) (shardCount : Option Nat) :
    Except Failure EventTable := do
  let table ← match file with
    | none => pure { name := "events" }
    | some file =>
      (ofFile file).mapError fun e => .text ("Failed to load config " ++ file.path) :: e.failure
  let table : EventTable :=
    { table with
      keyPrefix := keyPrefix.getD table.keyPrefix
      shardCount := shardCount.getD table.shardCount }
  table.validate.mapError TableError.failure
  pure table

end TaggedRows.Settings
