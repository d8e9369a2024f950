import TaggedRows.Ingest.RowBuffer
import TaggedRows.Tag.Codec

/-!
# Event tables

The settings of a table of log records: its name, the shape of its row keys, the labels of its rows
and the limits of its buffer.
-/

namespace TaggedRows

open TaggedRows.Text

/-- The settings of an event table. -/
structure EventTable where
  name : String := ""
  /-- What every row key starts with. -/
  keyPrefix : String := ""
  shardCount : Nat := 36
  /-- The label of every row. -/
  label : Option String := none
  /-- The field whose value is the label of a row. -/
  labelField : Option String := none
  limits : BufferLimits := {}
deriving DecidableEq

namespace EventTable

instance : Inhabited EventTable := ⟨{}⟩

/-- The table has to have a name, and there has to be a shard. -/
def validate (t : EventTable) : Except TableError Unit :=
  if isBlank t.name then .error (.setting .blankTable)
  else if t.shardCount = 0 then .error (.setting .noShards)
  else .ok ()

/-- The shape of the table's row keys. -/
def keys (t : EventTable) : Except TableError KeyLayout :=
  (KeyLayout.make t.keyPrefix t.shardCount).mapError fun e => .setting (.key e)

/-- How the labels of the table's rows are chosen. -/
def labels (t : EventTable) : LabelPolicy := .ofSettings t.label t.labelField

/-- The codec of the table's rows. -/
def codec (t : EventTable) : Except TableError Codec := do
  pure { Codec.standard (← t.keys) with labels := t.labels }

end EventTable

end TaggedRows
