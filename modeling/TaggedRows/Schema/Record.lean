import TaggedRows.Json.Fields
import TaggedRows.Record.LabelPolicy
import TaggedRows.Schema.Cell

/-!
# Records and label policies in JSON

A record of any kind says its kind under `type`.  That member may stand anywhere, so everything else
is held until it has been found; what is held has to spell texts, to be of numbers in the range of
floats, and to be no deeper than `heldDepth`.
-/

namespace TaggedRows

open Json

namespace Entity

/-- The fields of an entity. -/
def members (e : Entity) : List (String × Json) :=
  [("id", Json.ofText? e.id), ("meta_props", ofTexts e.metaProps),
    ("properties", ofTexts e.properties)]

/-- An entity as JSON. -/
def toJson (e : Entity) : Json := ofMembers e.members

/-- Read an entity.  Among named fields each may be missing; in a list the id may not. -/
def ofJson? (j : Json) : Option Entity := do
  let fields ← j.fields? [["id"], ["meta_props"], ["properties"]]
  match fields.values with
  | [id, metaProps, properties] =>
    let id ← if fields.named then withDefault none optionalText? id else required optionalText? id
    pure ⟨id, ← withDefault .empty texts? metaProps, ← withDefault .empty texts? properties⟩
  | _ => none

end Entity

namespace LogRecord

/-- The fields of a log record. -/
def members (r : LogRecord) : List (String × Json) :=
  [("uuid", ofText r.uuid), ("fields", ofTexts r.fields), ("metadata", ofTexts r.metadata),
    ("date", ofText r.date.text)]

/-- A log record as JSON. -/
def toJson (r : LogRecord) : Json := ofMembers r.members

/-- Read a log record; what its date says beyond milliseconds is dropped. -/
def ofJson? (j : Json) : Option LogRecord := do
  match (← j.fields? [["uuid"], ["fields"], ["metadata"], ["date"]]).values with
  | [uuid, fields, metadata, date] =>
    let uuid ← required text? uuid
    let fields ← withDefault .empty texts? fields
    let metadata ← withDefault .empty texts? metadata
    let date ← Time.Instant.ofText? (← required text? date)
    pure ⟨uuid, fields, metadata, date.truncate⟩
  | _ => none

end LogRecord

namespace RecordKind

/-- A kind as JSON. -/
def toJson (kind : RecordKind) : Json := ofText kind.tag

/-- The kind of a name. -/
def ofName? (name : String) : Option RecordKind :=
  if name = "entity" then some .entity else if name = "log_record" then some .logRecord else none

/-- Read a kind. -/
def ofJson? (j : Json) : Option RecordKind := do
  let (name, payload) ← j.choice?
  if isBare payload then ofName? name else none

end RecordKind

namespace Record

/-- A record of any kind as JSON. -/
def toJson (r : Record) : Json :=
  ofMembers (("type", r.kind.toJson) ::
    match r with
    | .entity e => e.members
    | .logRecord r => r.members)

/-- The greatest depth of what can be held. -/
def heldDepth : Nat := 127

/-- Whether a value can be held. -/
def isHoldable (j : Json) : Bool := j.allLeaves Numeral.isFinite && j.depth ≤ heldDepth

/-- Read a record of a named kind from the value that holds its fields. -/
def ofHeld? (kind : Json) (held : Json) : Option Record := do
  let kind ← RecordKind.ofName? (← kind.text?)
  if isHoldable held then
    match kind with
    | .entity => (Entity.ofJson? held).map .entity
    | .logRecord => (LogRecord.ofJson? held).map .logRecord
  else none

/-- Read a record of any kind: an object with a member `type`, or a list that begins with the
kind. -/
def ofJson? : Json → Option Record
  | .array (kind :: items) => ofHeld? kind (.array items)
  | j => do
    let members ← j.members?
    let kind ← required some (← findField members ["type"])
    ofHeld? kind (ofMembers (members.filter fun m => m.1 ≠ "type"))

end Record

namespace LabelPolicy

/-- A policy as JSON. -/
def toJson : LabelPolicy → Json
  | unrestricted => ofText "public"
  | fixed label => ofMembers [("static", label.toJson)]
  | byField name => ofMembers [("by_field", ofText name)]

/-- Read a policy. -/
def ofJson? (j : Json) : Option LabelPolicy := do
  let (name, payload) ← j.choice?
  if name = "public" then (if isBare payload then some unrestricted else none)
  else if name = "static" then (required text? payload).map fun label => fixed ⟨label⟩
  else if name = "by_field" then (required text? payload).map byField
  else none

end LabelPolicy

end TaggedRows
