import TaggedRows.Record.Entity

/-!
# Log records

An ingested event: a uuid, a date, parsed fields and pipeline metadata.  Uuid and date make up the
row key, so reading a row takes them from there; the date therefore has millisecond precision.
-/

namespace TaggedRows

open TaggedRows.Time

/-- An ingested event. -/
structure LogRecord where
  uuid : String
  fields : SortedMap String String := .empty
  metadata : SortedMap String String := .empty
  date : Instant
deriving DecidableEq

namespace LogRecord

/-- The family of the parsed fields. -/
def dataFamily : String := "data"

/-- The family of the pipeline metadata. -/
def metadataFamily : String := "metadata"

instance : Inhabited LogRecord := ⟨{ uuid := "", date := .epoch }⟩

/-- A record without fields. -/
def make (uuid : String) (date : Instant) : LogRecord := { uuid, date := date.truncate }

/-- The same event under another uuid. -/
def withUuid (r : LogRecord) (uuid : String) : LogRecord := { r with uuid }

/-- Set the date, dropping what is finer than a millisecond. -/
def setDate (r : LogRecord) (date : Instant) : LogRecord := { r with date := date.truncate }

/-- The value of a field. -/
def field? (r : LogRecord) (name : String) : Option String := r.fields.get? name

/-- The value of a metadata field. -/
def metadata? (r : LogRecord) (name : String) : Option String := r.metadata.get? name

/-- Set a field. -/
def setField (r : LogRecord) (name value : String) : LogRecord :=
  { r with fields := r.fields.insert name value }

/-- Set a metadata field. -/
def setMetadata (r : LogRecord) (name value : String) : LogRecord :=
  { r with metadata := r.metadata.insert name value }

/-- Take a field away. -/
def eraseField (r : LogRecord) (name : String) : LogRecord :=
  { r with fields := r.fields.erase name }

/-- Take a metadata field away. -/
def eraseMetadata (r : LogRecord) (name : String) : LogRecord :=
  { r with metadata := r.metadata.erase name }

/-- The id of the record's row. -/
def rowId (r : LogRecord) (keys : KeyLayout) : Except RecordError String :=
  if r.uuid = "" then .error .emptyUuid else .ok (keys.rowIdAt r.uuid r.date)

/-- The record's cells in a row. -/
def toCells (r : LogRecord) (row : String) (label : Label) : List Cell :=
  familyCells row dataFamily label r.fields ++ familyCells row metadataFamily label r.metadata

/-- The uuid and the date that a row key names. -/
def ofRowKey? (keys : KeyLayout) (row : String) : Option (String × Instant) := do
  let key ← keys.parse? row
  let date ← Instant.ofMillis? key.millis
  pure (key.sourceId, date)

/-- Read a record out of a row, and leave the cells of other families.  A row whose key does not
follow the layout is left as it is. -/
def ofRow (keys : KeyLayout) (row : Row) : Except RecordError LogRecord × Row :=
  match ofRowKey? keys row.id with
  | none => (.error (.malformedRowKey row.id), row)
  | some (uuid, date) =>
    let (fields, rest) := row.cutFamily dataFamily
    let (metadata, rest) := rest.cutFamily metadataFamily
    (.ok ⟨uuid, fields, metadata, date⟩, rest)

end LogRecord

end TaggedRows
