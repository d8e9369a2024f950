import TaggedRows.Record.LabelPolicy
import TaggedRows.Tag.Registry

/-!
# Row codecs

Records as sorted cells and back.  A row begins with a cell that names the tag of its record.  The
family of that cell begins with U+0000, so it sorts before every data column and a scan sees it
first.
-/

namespace TaggedRows

open TaggedRows.Text

/-! ## Tag cells -/

/-- The column of the tag cell. -/
def tagColumn : Column := ⟨"\x00implementation", "class"⟩

/-- The tag cell of a row, which everyone may read. -/
def tagCell (row tag : String) : Cell := ⟨row, tagColumn, ⟨.unrestricted, Utf8.encode tag⟩⟩

/-- Whether a cell is in the tag column. -/
def Cell.isTag (c : Cell) : Bool := c.column == tagColumn

/-! ## Codecs -/

/-- How the rows of a table are written and read. -/
structure Codec where
  registry : Registry
  keys : KeyLayout
  labels : LabelPolicy := .unrestricted
deriving DecidableEq

namespace Codec

instance : Inhabited Codec := ⟨{ registry := default, keys := default }⟩

/-- The codec of every kind under its own tag. -/
def standard (keys : KeyLayout) : Codec := { registry := .standard, keys }

/-- An error about a record as one of a table. -/
def lift (r : Except RecordError α) : Except TableError α := r.mapError .record

/-! ## Writing -/

/-- The tag and the handler that a kind is written by. -/
def writer (codec : Codec) (kind : RecordKind) : Except TableError (String × Handler) :=
  match codec.registry.writer? kind with
  | some found => .ok found
  | none => .error (.unregisteredKind kind)

/-- The id of the row that a record is written to. -/
def rowId (codec : Codec) (record : Record) : Except TableError String := do
  let (_, handler) ← codec.writer record.kind
  lift (handler.rowId record codec.keys)

/-- A tag cell, and behind it other cells in order. -/
def tagged (row tag : String) (cells : List Cell) : List Cell := tagCell row tag :: Cell.sort cells

/-- The cells of a record's row, ascending. -/
def encode (codec : Codec) (record : Record) : Except TableError (List Cell) := do
  let (tag, handler) ← codec.writer record.kind
  let row ← lift (handler.rowId record codec.keys)
  let cells ← lift (handler.toCells record row (codec.labels.labelFor record.field?))
  pure (tagged row tag cells)

/-- The cells of the row of a record of known kind, without a detour over records of any kind. -/
def encodeAs [Persistent ρ] (codec : Codec) (record : ρ) : Except TableError (List Cell) :=
  match codec.registry.tagOf? (Persistent.kind ρ) with
  | none => .error (.unregisteredKind (Persistent.kind ρ))
  | some tag => do
    let row ← lift (Persistent.rowId record codec.keys)
    let label := codec.labels.labelFor (Persistent.field? record)
    pure (tagged row tag (Persistent.toCells record row label))

/-! ## Reading -/

/-- The kind that the bytes of a tag cell name. -/
def kindOfTag (codec : Codec) (row : String) (tag : Bytes) : Except TableError RecordKind :=
  match codec.registry.kindOf? (Utf8.decodeLossy tag) with
  | some kind => .ok kind
  | none => .error (.unknownTag row (Utf8.decodeLossy tag))

/-- The kind of the record whose row begins with the cell. -/
def recognize (codec : Codec) (first : Cell) : Except TableError RecordKind :=
  if first.isTag then codec.kindOfTag first.row first.content.bytes
  else .error (.missingTag first.row)

/-- The kind of the record that a row holds. -/
def kindOfRow (codec : Codec) (row : Row) : Except TableError RecordKind :=
  match row.first? with
  | some (column, content) =>
    if column = tagColumn then codec.kindOfTag row.id content.bytes else .error (.missingTag row.id)
  | none => .error (.missingTag row.id)

/-- Read a row: its record, and the row of the cells that the record does not know. -/
def decodeWithRest (codec : Codec) (row : Row) : Except TableError (Record × Row) := do
  let kind ← codec.kindOfRow row
  let (record, rest) := (Handler.ofKind kind).ofRow codec.keys row.dropFirst
  pure (← lift record, rest)

/-- Read the record of a row. -/
def decode (codec : Codec) (row : Row) : Except TableError Record := do
  pure (← codec.decodeWithRest row).1

/-- Read the record of a row that is folded into one value. -/
def decodeFolded (codec : Codec) (id : String) (bytes : Bytes) : Except TableError Record := do
  codec.decode (← (FoldedRow.decode id bytes).mapError .malformedFrame)

end Codec

end TaggedRows
