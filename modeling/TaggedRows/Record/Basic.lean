import TaggedRows.Record.LogRecord

/-!
# Records

A record of any persisted kind.  `Persistent` is what each kind brings along: its row id, its cells,
how it is read back, and how it sits among the records.
-/

namespace TaggedRows

/-- A record of any persisted kind. -/
inductive Record where
  | entity (e : Entity)
  | logRecord (r : LogRecord)
deriving DecidableEq

namespace Record

/-- What the record is. -/
def kind : Record → RecordKind
  | .entity _ => .entity
  | .logRecord _ => .logRecord

/-- The value of a named field. -/
def field? : Record → String → Option String
  | .entity e => e.field?
  | .logRecord r => r.field?

/-- The entity, if the record is one. -/
def entity? : Record → Option Entity
  | .entity e => some e
  | .logRecord _ => none

/-- The log record, if the record is one. -/
def logRecord? : Record → Option LogRecord
  | .entity _ => none
  | .logRecord r => some r

end Record

/-- A type of records that rows are persisted for.  Such a record owns the layout of its cells; the
tag cell and the choice of the label are none of its business. -/
class Persistent (ρ : Type) where
  /-- The kind of these records. -/
  kind : RecordKind
  /-- The value of a named field. -/
  field? : ρ → String → Option String
  /-- The id of the record's row. -/
  rowId : ρ → KeyLayout → Except RecordError String
  /-- The record's cells in a row, all under one label. -/
  toCells : ρ → String → Label → List Cell
  /-- Read a record out of a row, and leave the cells it does not know. -/
  ofRow : KeyLayout → Row → Except RecordError ρ × Row
  /-- The record as one of any kind. -/
  toRecord : ρ → Record
  /-- The record of this kind that a record is. -/
  ofRecord? : Record → Option ρ

instance : Persistent Entity where
  kind := .entity
  field? := Entity.field?
  rowId e _ := e.rowId
  toCells := Entity.toCells
  ofRow _ row := let (e, rest) := Entity.ofRow row; (.ok e, rest)
  toRecord := .entity
  ofRecord? := Record.entity?

instance : Persistent LogRecord where
  kind := .logRecord
  field? := LogRecord.field?
  rowId := LogRecord.rowId
  toCells := LogRecord.toCells
  ofRow := LogRecord.ofRow
  toRecord := .logRecord
  ofRecord? := Record.logRecord?

/-- The record of this kind that a record is, or what it is instead. -/
def Persistent.ofRecord (ρ : Type) [Persistent ρ] (record : Record) : Except RecordError ρ :=
  match ofRecord? record with
  | some r => .ok r
  | none => .error (.kindMismatch (kind ρ) record.kind)

end TaggedRows
