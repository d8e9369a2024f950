import TaggedRows.Proofs.Tag.RowShape

/-!
# Records of known kind

A record whose kind is known by its type has its operations at hand, and only the tag is looked up
when it is encoded (`Codec.encodeAs`).  A record of any kind finds its operations by way of the tag
that its kind is written under, and these refuse the record if the tag stands for another kind.

* **The two ways agree** where the tag stands for the kind (`Codec.encodeAs_of_writesUnder`), or
  where there is no tag.
* **Nothing else than such a tag makes operations refuse a record**
  (`Codec.rowId_eq_kindMismatch_iff`), and in a registry that calls can make there is none.
-/

namespace TaggedRows

/-- A type of records whose operations are those of the records of its kind. -/
class LawfulPersistent (ρ : Type) [Persistent ρ] : Prop where
  kind_toRecord : ∀ r : ρ, (Persistent.toRecord r).kind = Persistent.kind ρ
  field?_toRecord : ∀ r : ρ, (Persistent.toRecord r).field? = Persistent.field? r
  rowId_toRecord : ∀ (r : ρ) keys, (Persistent.toRecord r).rowId keys = Persistent.rowId r keys
  dataCells_toRecord : ∀ (r : ρ) row label,
    (Persistent.toRecord r).dataCells row label = Persistent.toCells r row label

instance : LawfulPersistent Entity where
  kind_toRecord _ := rfl
  field?_toRecord _ := rfl
  rowId_toRecord _ _ := rfl
  dataCells_toRecord e row label := by
    simp [Persistent.toRecord, Persistent.toCells, Entity.toCells, Record.dataCells, Record.maps]

instance : LawfulPersistent LogRecord where
  kind_toRecord _ := rfl
  field?_toRecord _ := rfl
  rowId_toRecord _ _ := rfl
  dataCells_toRecord r row label := by
    simp [Persistent.toRecord, Persistent.toCells, LogRecord.toCells, Record.dataCells, Record.maps]

namespace Codec

variable {codec : Codec} {record : Record} {tag : String}

/-! ## The two ways -/

section Ways

variable {ρ : Type} [Persistent ρ] [LawfulPersistent ρ]

open LawfulPersistent

theorem encodeAs_of_tagOf?_eq_none (h : codec.registry.tagOf? (Persistent.kind ρ) = none)
    (record : ρ) : codec.encodeAs record = codec.encode (Persistent.toRecord record) := by
  have hkind := kind_toRecord record
  rw [encode_of_tagOf?_eq_none (by rw [hkind, h]), encodeAs, h, hkind]

/-- Under a tag that stands for the kind it makes no difference whether the operations are at hand
or looked up. -/
theorem encodeAs_of_writesUnder (h : codec.WritesUnder (Persistent.kind ρ) tag) (record : ρ) :
    codec.encodeAs record = codec.encode (Persistent.toRecord record) := by
  have hwrites : codec.WritesUnder (Persistent.toRecord record).kind tag := by
    rwa [kind_toRecord]
  have hrow := rowId_toRecord record codec.keys
  unfold encodeAs
  rw [h.1]
  cases hid : Persistent.rowId record codec.keys with
  | error flaw =>
    rw [encode_of_rowId_eq_error hwrites (hrow.trans hid)]
    rfl
  | ok row =>
    rw [encode_of_writesUnder hwrites (hrow.trans hid), field?_toRecord, dataCells_toRecord]
    rfl

theorem encodeAs_eq_encode (h : codec.registry.Coherent) (record : ρ) :
    codec.encodeAs record = codec.encode (Persistent.toRecord record) := by
  cases htag : codec.registry.tagOf? (Persistent.kind ρ) with
  | none => exact encodeAs_of_tagOf?_eq_none htag record
  | some tag => exact encodeAs_of_writesUnder ⟨htag, h _ tag htag⟩ record

end Ways

/-! ## Records that are refused for their kind -/

/-- Encoding fails like finding the row id, and succeeds once there is a row id. -/
theorem encode_eq_error_iff_rowId {e : TableError} :
    codec.encode record = .error e ↔ codec.rowId record = .error e := by
  cases hrow : codec.rowId record with
  | ok row =>
    obtain ⟨⟨tag, htag⟩, hid⟩ := rowId_eq_ok_iff.1 hrow
    rw [encode_of_writesUnder htag hid]
    simp
  | error e' =>
    have hsame : codec.encode record = .error e' := by
      unfold rowId at hrow
      unfold encode
      cases hw : codec.writer record.kind with
      | error _ => simpa [hw, bind, Except.bind] using hrow
      | ok found =>
        have hid : lift (found.2.rowId record codec.keys) = .error e' := by
          simpa [hw, bind, Except.bind] using hrow
        simp [hid, bind, Except.bind]
    rw [hsame]
    simp

theorem eq_unregisteredKind_of_writer {kind : RecordKind} {e : TableError}
    (h : codec.writer kind = .error e) : e = .unregisteredKind kind := by
  unfold writer at h
  split at h
  · cases h
  · exact (Except.error.inj h).symm

/-- What a record lacks is never its kind. -/
theorem rowId_ne_kindMismatch {keys : KeyLayout} {expected actual : RecordKind} :
    record.rowId keys ≠ .error (.kindMismatch expected actual) := by
  intro h
  cases Record.rowId_eq_error_iff.1 h

/-- A record is refused for its kind exactly if the tag that its kind is written under stands for
another kind. -/
theorem rowId_eq_kindMismatch_iff {expected actual : RecordKind} :
    codec.rowId record = .error (.record (.kindMismatch expected actual)) ↔
      ∃ tag, codec.registry.tagOf? record.kind = some tag ∧
        codec.registry.kindOf? tag = some expected ∧ expected ≠ record.kind ∧
          actual = record.kind := by
  have hfound : ∀ {tag kind}, codec.registry.tagOf? record.kind = some tag →
      codec.registry.kindOf? tag = some kind →
        codec.rowId record = lift ((Handler.ofKind kind).rowId record codec.keys) := by
    intro tag kind htag hkind
    have hwriter := writer_eq_ok_iff.2 ⟨htag, kind, hkind, rfl⟩
    simp [rowId, hwriter, bind, Except.bind]
  constructor
  · intro h
    cases hw : codec.writer record.kind with
    | error e =>
      obtain rfl := eq_unregisteredKind_of_writer hw
      simp [rowId, hw, bind, Except.bind] at h
    | ok found =>
      obtain ⟨tag, handler⟩ := found
      obtain ⟨htag, kind, hkind, rfl⟩ := writer_eq_ok_iff.1 hw
      rw [hfound htag hkind] at h
      by_cases hsame : kind = record.kind
      · rw [hsame, rowId_ofKind] at h
        cases hid : record.rowId codec.keys with
        | ok row => simp [hid] at h
        | error flaw =>
          rw [hid, lift_error] at h
          cases h
          exact absurd hid rowId_ne_kindMismatch
      · rw [rowId_ofKind_ne hsame, lift_error] at h
        cases h
        exact ⟨tag, htag, hkind, hsame, rfl⟩
  · rintro ⟨tag, htag, hkind, hne, rfl⟩
    rw [hfound htag hkind, rowId_ofKind_ne hne, lift_error]

/-- In a registry that calls can make no tag leads a record to the operations of another kind. -/
theorem rowId_ne_kindMismatch_of_coherent (h : codec.registry.Coherent) (record : Record)
    (expected actual : RecordKind) :
    codec.rowId record ≠ .error (.record (.kindMismatch expected actual)) := by
  intro hmismatch
  obtain ⟨tag, htag, hkind, hne, -⟩ := rowId_eq_kindMismatch_iff.1 hmismatch
  rw [h _ tag htag] at hkind
  exact hne (Option.some.inj hkind).symm

/-! ## Main result -/

/-- An entity or a log record is encoded alike whether its kind is known by its type or found out
from the record: the cells are the same, or the error is.  No record is ever refused for being of
another kind than the operations that were looked up for it. -/
theorem encodeAs_agrees (h : codec.registry.Reachable) :
    (∀ e : Entity, codec.encodeAs e = codec.encode (.entity e)) ∧
      (∀ r : LogRecord, codec.encodeAs r = codec.encode (.logRecord r)) ∧
      ∀ expected actual,
        (∀ record, codec.rowId record ≠ .error (.record (.kindMismatch expected actual))) ∧
        (∀ record, codec.encode record ≠ .error (.record (.kindMismatch expected actual))) ∧
        (∀ e : Entity, codec.encodeAs e ≠ .error (.record (.kindMismatch expected actual))) ∧
        ∀ r : LogRecord, codec.encodeAs r ≠ .error (.record (.kindMismatch expected actual)) := by
  have hentity : ∀ e : Entity, codec.encodeAs e = codec.encode (.entity e) :=
    encodeAs_eq_encode h.coherent
  have hlogRecord : ∀ r : LogRecord, codec.encodeAs r = codec.encode (.logRecord r) :=
    encodeAs_eq_encode h.coherent
  refine ⟨hentity, hlogRecord, fun expected actual => ?_⟩
  have hrowId := fun record => rowId_ne_kindMismatch_of_coherent h.coherent record expected actual
  have hencode : ∀ record, codec.encode record ≠ .error (.record (.kindMismatch expected actual)) :=
    fun record hmismatch => hrowId record (encode_eq_error_iff_rowId.1 hmismatch)
  refine ⟨hrowId, hencode, ?_, ?_⟩
  · intro e
    rw [hentity]
    exact hencode _
  · intro r
    rw [hlogRecord]
    exact hencode _

/-- A codec with two tags for entities, of which the first is otherwise the one of log records, and
none for log records. -/
def entitiesOnly : Codec where
  registry := Registry.empty.registerAll [("log_record", .entity), ("log_record", .logRecord),
    ("entity", .entity)]
  keys := default
  labels := .fixed ⟨"ops"⟩

/-- An entity without an id is refused for the id, and log records for want of a tag, both ways. -/
theorem encodeAs_agrees_entitiesOnly :
    entitiesOnly.encodeAs ({ id := none } : Entity) = entitiesOnly.encode (.entity { id := none }) ∧
      entitiesOnly.encode (.entity { id := none }) = .error (.record .missingEntityId) ∧
      entitiesOnly.encodeAs (default : LogRecord) = entitiesOnly.encode (.logRecord default) ∧
      entitiesOnly.encode (.logRecord default) = .error (.unregisteredKind .logRecord) := by
  have hreachable : entitiesOnly.registry.Reachable := ⟨.empty, _, .inl rfl, rfl⟩
  obtain ⟨hentity, hlogRecord, -⟩ := encodeAs_agrees hreachable
  exact ⟨hentity _, rfl, hlogRecord _, rfl⟩

/-- Two maps that do not fit together lead an entity to the operations of log records. -/
example : rowId ⟨⟨.ofList [("a", .logRecord)], .ofList [(.entity, "a")]⟩, default, .unrestricted⟩
    (.entity { id := some "e" }) = .error (.record (.kindMismatch .logRecord .entity)) := rfl

end Codec

end TaggedRows
