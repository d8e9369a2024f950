import TaggedRows.Record.Kind
import TaggedRows.Row
import TaggedRows.RowKey.Layout

/-!
# Entities

An extracted entity: an id, which is the id of its row, and two maps of properties, one about the
extraction and one about the entity itself.  Each map has a family of its own.
-/

namespace TaggedRows

open TaggedRows.Text

/-- The cells of a map of texts: one cell for each entry, in a family of the row, all under one
label. -/
def familyCells (row family : String) (label : Label) (entries : SortedMap String String) :
    List Cell :=
  entries.toList.map fun (qualifier, text) => ⟨row, ⟨family, qualifier⟩, ⟨label, Utf8.encode text⟩⟩

/-- An extracted entity. -/
structure Entity where
  id : Option String := none
  /-- Properties of the extraction. -/
  metaProps : SortedMap String String := .empty
  /-- Properties of the entity itself. -/
  properties : SortedMap String String := .empty
deriving DecidableEq

namespace Entity

/-- The family of the properties of the extraction. -/
def metaFamily : String := "meta"

/-- The family of the properties of the entity itself. -/
def itemFamily : String := "item"

instance : Inhabited Entity := ⟨{}⟩

/-- Set a property of the extraction. -/
def setMetaProp (e : Entity) (key value : String) : Entity :=
  { e with metaProps := e.metaProps.insert key value }

/-- Set a property of the entity itself. -/
def setProperty (e : Entity) (key value : String) : Entity :=
  { e with properties := e.properties.insert key value }

/-- The value of a property of the entity itself. -/
def field? (e : Entity) (name : String) : Option String := e.properties.get? name

/-- The id of the entity's row. -/
def rowId (e : Entity) : Except RecordError String :=
  match e.id with
  | some id => .ok id
  | none => .error .missingEntityId

/-- The entity's cells in a row. -/
def toCells (e : Entity) (row : String) (label : Label) : List Cell :=
  familyCells row metaFamily label e.metaProps ++ familyCells row itemFamily label e.properties

/-- Read an entity out of a row, and leave the cells of other families. -/
def ofRow (row : Row) : Entity × Row :=
  let (metaProps, rest) := row.cutFamily metaFamily
  let (properties, rest) := rest.cutFamily itemFamily
  (⟨some row.id, metaProps, properties⟩, rest)

end Entity

end TaggedRows
