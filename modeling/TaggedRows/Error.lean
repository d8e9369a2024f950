import TaggedRows.FoldedRow
import TaggedRows.Record.Kind
import TaggedRows.RowKey.Layout
import TaggedRows.Text.Quoted

/-!
# Errors of tables

What can fail while a table of tagged rows is set up, written and read.  Two of the errors say that
a row is not recognized, and a reader may pass over such rows.
-/

namespace TaggedRows

open TaggedRows.Text

/-- What can be wrong with the settings of a table. -/
inductive SettingError where
  | blankTable
  | noShards
  | emptyTag
  | key (e : KeyError)

/-- The text of the error. -/
def SettingError.message : SettingError → String
  | blankTable => "event_table must be set to a non-blank table name"
  | noShards => "shard_count must be at least 1"
  | emptyTag => "type tag cannot be empty"
  | key e => e.message

/-- What can fail in a table. -/
inductive TableError where
  | record (e : RecordError)
  /-- The first cell of a row is no tag cell. -/
  | missingTag (row : String)
  /-- The tag of a row stands for no kind. -/
  | unknownTag (row tag : String)
  /-- No tag stands for a kind. -/
  | unregisteredKind (kind : RecordKind)
  /-- A tag was registered before. -/
  | duplicateTag (tag : String)
  | malformedFrame (e : FoldedRow.FrameError)
  /-- The store failed. -/
  | store (text : String)
  | setting (e : SettingError)
  | malformedJson
  | unreadable

namespace TableError

/-- Whether the error says that a row is not recognized. -/
def isUnrecognized : TableError → Bool
  | missingTag _ => true
  | unknownTag _ _ => true
  | _ => false

/-- The text of the error. -/
def message : TableError → String
  | record (.malformedRowKey row) =>
    "malformed row " ++ row ++ ": row id does not match the key layout"
  | record (.kindMismatch expected actual) =>
    "invalid record: " ++ (RecordError.kindMismatch expected actual).message
  | record e => e.message
  | missingTag row => "row " ++ row ++ " has no type discriminator"
  | unknownTag row tag => "row " ++ row ++ " has unknown type tag " ++ quote tag
  | unregisteredKind kind => "no type tag registered for " ++ kind.text
  | duplicateTag tag => "type tag already registered: " ++ tag
  | malformedFrame e => "malformed aggregated row: " ++ e.message
  | store text => "store error: " ++ text
  | setting e => "configuration error: " ++ e.message
  | malformedJson => "serialization error"
  | unreadable => "IO error"

end TableError

end TaggedRows
