import TaggedRows.Error
import TaggedRows.Record.Basic

/-!
# Tag registries

A registry says which kind of record a tag stands for.  The first tag registered for a kind is the
one that is written; further tags of the kind are only read, so that rows written under an older tag
stay readable.

A tag stands for a kind by way of a `Handler`: the operations of the kind on records of any kind,
which fail on records of another.
-/

namespace TaggedRows

/-! ## Handlers -/

/-- The operations of one kind of records, on records of any kind. -/
structure Handler where
  kind : RecordKind
  rowId : Record → KeyLayout → Except RecordError String
  toCells : Record → String → Label → Except RecordError (List Cell)
  ofRow : KeyLayout → Row → Except RecordError Record × Row

namespace Handler

/-- The handler of a type of records. -/
def of (ρ : Type) [Persistent ρ] : Handler where
  kind := Persistent.kind ρ
  rowId record keys := do Persistent.rowId (← Persistent.ofRecord ρ record) keys
  toCells record row label := do
    pure (Persistent.toCells (← Persistent.ofRecord ρ record) row label)
  ofRow keys row :=
    let (r, rest) := Persistent.ofRow (ρ := ρ) keys row
    (r.map Persistent.toRecord, rest)

/-- The handler of a kind. -/
def ofKind : RecordKind → Handler
  | .entity => of Entity
  | .logRecord => of LogRecord

@[simp] theorem kind_ofKind (kind : RecordKind) : (ofKind kind).kind = kind := by
  cases kind <;> rfl

end Handler

/-! ## Registries -/

/-- The kinds that tags stand for, and the tag that each kind is written under. -/
structure Registry where
  byTag : SortedMap String RecordKind
  written : SortedMap RecordKind String
deriving DecidableEq

namespace Registry

/-- The registry without tags. -/
def empty : Registry := ⟨.empty, .empty⟩

instance : Inhabited Registry := ⟨empty⟩

/-- Put a tag in place; its kind is written under it unless it has a tag already. -/
def insert (r : Registry) (tag : String) (kind : RecordKind) : Registry :=
  ⟨r.byTag.insert tag kind,
    match r.written.get? kind with
    | some _ => r.written
    | none => r.written.insert kind tag⟩

/-- Every kind under its own tag. -/
def standard : Registry :=
  (empty.insert RecordKind.entity.tag .entity).insert RecordKind.logRecord.tag .logRecord

/-- Register a tag, which may be neither empty nor taken. -/
def register (r : Registry) (tag : String) (kind : RecordKind) : Except TableError Registry :=
  if tag = "" then .error (.setting .emptyTag)
  else if r.byTag.contains tag then .error (.duplicateTag tag)
  else .ok (r.insert tag kind)

/-- The kind that a tag stands for. -/
def kindOf? (r : Registry) (tag : String) : Option RecordKind := r.byTag.get? tag

/-- The tag that a kind is written under. -/
def tagOf? (r : Registry) (kind : RecordKind) : Option String := r.written.get? kind

/-- The tag that a kind is written under, with the handler it stands for. -/
def writer? (r : Registry) (kind : RecordKind) : Option (String × Handler) := do
  let tag ← r.tagOf? kind
  let kind ← r.kindOf? tag
  pure (tag, .ofKind kind)

/-- Every tag, ascending. -/
def tags (r : Registry) : List String := r.byTag.keys

/-- The number of tags. -/
def size (r : Registry) : Nat := r.byTag.size

/-- Whether there is no tag. -/
def isEmpty (r : Registry) : Bool := r.byTag.isEmpty

end Registry

end TaggedRows
