import TaggedRows.Schema.Record
import TaggedRows.Proofs.Json.Fields
import TaggedRows.Proofs.Json.Reading
import TaggedRows.Proofs.Tag.RoundTrip
import TaggedRows.Proofs.Time.DateText

/-!
# Records read back from JSON

A record whose date is a whole number of milliseconds is read back from its JSON
(`Record.ofJson?_toJson`), and from the text of its JSON.  What is held while the kind is looked for
is always the fields of the kind, whose values are texts, maps of texts or null, so it can be held.
-/

namespace TaggedRows

open Json

namespace Entity

/-- An entity is read back from its JSON. -/
theorem ofJson?_toJson (e : Entity) : ofJson? e.toJson = some e := by
  have hfields : e.toJson.fields? [["id"], ["meta_props"], ["properties"]] =
      some ⟨true, [some (Json.ofText? e.id), some (ofTexts e.metaProps),
        some (ofTexts e.properties)]⟩ :=
    fields?_ofMembers (show List.Nodup ["id", "meta_props", "properties"] by decide)
  rw [ofJson?, hfields]
  simp only [Option.bind_eq_bind, Option.bind_some, reduceIte, withDefault,
    optionalText?_ofText?, texts?_ofTexts]
  rfl

end Entity

namespace LogRecord

/-- A log record is read back from its JSON, with its date in whole milliseconds. -/
theorem ofJson?_toJson {r : LogRecord} (hleap : r.date.LeapEndsMinute) :
    ofJson? r.toJson = some { r with date := r.date.truncate } := by
  have hfields : r.toJson.fields? [["uuid"], ["fields"], ["metadata"], ["date"]] =
      some ⟨true, [some (ofText r.uuid), some (ofTexts r.fields), some (ofTexts r.metadata),
        some (ofText r.date.text)]⟩ :=
    fields?_ofMembers (show List.Nodup ["uuid", "fields", "metadata", "date"] by decide)
  rw [ofJson?, hfields]
  simp only [Option.bind_eq_bind, Option.bind_some, withDefault, texts?_ofTexts, required,
    text?.eq_def, ofText]
  rw [Time.Instant.ofText?_text hleap]
  rfl

end LogRecord

namespace Record

/-- The fields of a record. -/
def members : Record → List (String × Json)
  | .entity e => e.members
  | .logRecord r => r.members

theorem toJson_eq (record : Record) :
    record.toJson = ofMembers (("type", record.kind.toJson) :: record.members) := by
  cases record <;> rfl

theorem allLeaves_members (p : Numeral → Bool) (record : Record) :
    (ofMembers record.members).allLeaves p = true := by
  cases record with
  | entity e => simp [members, Entity.members]
  | logRecord r => simp [members, LogRecord.members]

theorem depth_members (record : Record) : (ofMembers record.members).depth = 2 := by
  cases record with
  | entity e => simp [members, Entity.members, ofMembers, depth, depthMembers]
  | logRecord r => simp [members, LogRecord.members, ofMembers, depth, depthMembers]

/-- The fields of a record can be held. -/
theorem isHoldable_members (record : Record) : isHoldable (ofMembers record.members) = true := by
  rw [isHoldable, allLeaves_members, depth_members]
  rfl

theorem nodup_members (record : Record) :
    ((("type", record.kind.toJson) :: record.members).map (·.1)).Nodup := by
  cases record with
  | entity e => exact show List.Nodup ["type", "id", "meta_props", "properties"] by decide
  | logRecord r => exact show List.Nodup ["type", "uuid", "fields", "metadata", "date"] by decide

theorem truncate_of_hasWholeMillis {r : LogRecord} (h : (logRecord r).HasWholeMillis) :
    r.date.truncate = r.date := by
  rw [Time.Instant.truncate, show Time.Instant.ofMillis? r.date.millis = some r.date from h]
  rfl

theorem leapEndsMinute_of_hasWholeMillis {r : LogRecord} (h : (logRecord r).HasWholeMillis) :
    r.date.LeapEndsMinute :=
  Time.Instant.leapEndsMinute_of_ofParts? h

/-- A record is read back from its kind and its fields. -/
theorem ofHeld?_members {record : Record} (h : record.HasWholeMillis) :
    ofHeld? record.kind.toJson (ofMembers record.members) = some record := by
  cases record with
  | entity e =>
    show (if isHoldable e.toJson then (Entity.ofJson? e.toJson).map Record.entity else none) = _
    have hhold : isHoldable e.toJson = true := isHoldable_members (.entity e)
    rw [if_pos hhold, Entity.ofJson?_toJson]
    rfl
  | logRecord r =>
    show (if isHoldable r.toJson then (LogRecord.ofJson? r.toJson).map Record.logRecord
      else none) = _
    have hhold : isHoldable r.toJson = true := isHoldable_members (.logRecord r)
    rw [if_pos hhold, LogRecord.ofJson?_toJson (leapEndsMinute_of_hasWholeMillis h),
      truncate_of_hasWholeMillis h]
    rfl

/-- A record is read back from its JSON. -/
theorem ofJson?_toJson {record : Record} (h : record.HasWholeMillis) :
    ofJson? record.toJson = some record := by
  have hkind : findField (("type", record.kind.toJson) :: record.members) ["type"] =
      some (some record.kind.toJson) :=
    findField_of_mem record.nodup_members (m := ("type", record.kind.toJson)) (by simp)
  have hheld : (("type", record.kind.toJson) :: record.members).filter (fun m => m.1 ≠ "type") =
      record.members := by
    cases record <;> rfl
  rw [toJson_eq]
  show ((ofMembers (("type", record.kind.toJson) :: record.members)).members?.bind fun members =>
    (findField members ["type"]).bind fun kind => (required some kind).bind fun kind =>
      ofHeld? kind (ofMembers (members.filter fun m => m.1 ≠ "type"))) = _
  rw [members?_ofMembers, Option.bind_some, hkind, Option.bind_some, hheld]
  exact ofHeld?_members h

theorem allLeaves_toJson (record : Record) : record.toJson.allLeaves Numeral.isWritten = true := by
  have hmembers := record.allLeaves_members Numeral.isWritten
  rw [allLeaves_ofMembers] at hmembers
  rw [toJson_eq, allLeaves_ofMembers, List.all_cons, hmembers]
  rfl

theorem read?_text_toJson {record : Record} (h : record.HasWholeMillis) :
    (Json.read? record.toJson.text).bind ofJson? = some record := by
  rw [read?_text record.allLeaves_toJson]
  exact ofJson?_toJson h

end Record

end TaggedRows
