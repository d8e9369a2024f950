import TaggedRows.Proofs.Schema.Record
import TaggedRows.Proofs.Time.WholeMillis

/-!
# Dates of log records

A log record gets its date by being set or by being read from JSON, and either way it is rounded
down to a whole millisecond (`LogRecord.DatedBy.date_eq`).  A row key names such a date by its
milliseconds, so a row gives back the very date that it was written with.

The instants of the last leap second are the exception (`Codec.decode_encode_dated`).  They are not
rounded, and their milliseconds name no instant.  A record with such a date is written under a key
from which no date can be read, and its row is refused as malformed.
-/

namespace TaggedRows

open Json TaggedRows.Text TaggedRows.Time

/-! ## Where dates come from -/

namespace LogRecord

/-- The text that JSON gives for the date of a log record. -/
def dateText? (j : Json) : Option String := do
  match (← j.fields? [["uuid"], ["fields"], ["metadata"], ["date"]]).values with
  | [_, _, _, date] => required text? date
  | _ => none

/-- The record got its date from the instant: by setting it, or from JSON in which it is the date. -/
inductive DatedBy (d : Instant) : LogRecord → Prop
  | set (r : LogRecord) : DatedBy d (r.setDate d)
  | read {j : Json} {text : String} {r : LogRecord} (htext : dateText? j = some text)
    (hdate : Instant.ofText? text = some d) (hread : ofJson? j = some r) : DatedBy d r

/-- The date of a record read from JSON is the one that JSON gives, rounded. -/
theorem date_of_ofJson? {j : Json} {r : LogRecord} (h : ofJson? j = some r) :
    ∃ text d, dateText? j = some text ∧ Instant.ofText? text = some d ∧ r.date = d.truncate := by
  rw [ofJson?] at h
  obtain ⟨fields, hfields, h⟩ := Option.bind_eq_some_iff.1 h
  split at h
  · rename_i uuid fieldMap metadata date hvalues
    simp only [Option.bind_eq_bind, Option.bind_eq_some_iff] at h
    obtain ⟨_, -, _, -, _, -, text, htext, d, hd, hr⟩ := h
    cases hr
    refine ⟨text, d, ?_, hd, rfl⟩
    rw [dateText?, hfields]
    simp only [Option.bind_eq_bind, Option.bind_some, hvalues]
    exact htext
  · cases h

theorem DatedBy.date_eq {d : Instant} {r : LogRecord} (h : DatedBy d r) : r.date = d.truncate := by
  cases h with
  | set r => rfl
  | read htext hdate hread =>
    obtain ⟨text', d', htext', hdate', heq⟩ := date_of_ofJson? hread
    rw [htext] at htext'
    cases htext'
    rw [hdate] at hdate'
    cases hdate'
    exact heq

theorem dateText?_toJson (r : LogRecord) : dateText? r.toJson = some r.date.text := by
  have hfields : r.toJson.fields? [["uuid"], ["fields"], ["metadata"], ["date"]] =
      some ⟨true, [some (ofText r.uuid), some (ofTexts r.fields), some (ofTexts r.metadata),
        some (ofText r.date.text)]⟩ :=
    fields?_ofMembers (show List.Nodup ["uuid", "fields", "metadata", "date"] by decide)
  rw [dateText?, hfields]
  rfl

/-- JSON can give every instant as the date of a record, those in a leap second amid a minute
apart. -/
theorem exists_json_date_iff (r : LogRecord) (d : Instant) :
    (∃ j text, dateText? j = some text ∧ Instant.ofText? text = some d ∧
      ofJson? j = some (r.setDate d)) ↔ d.LeapEndsMinute := by
  constructor
  · rintro ⟨j, text, -, hdate, -⟩
    exact Instant.leapEndsMinute_of_ofText? hdate
  · intro hleap
    have hread := ofJson?_toJson (r := { r with date := d }) hleap
    exact ⟨{ r with date := d }.toJson, d.text, dateText?_toJson _, Instant.ofText?_text hleap,
      hread⟩

end LogRecord

/-! ## Rows without a date -/

namespace Codec

variable {codec : Codec} {tag : String}

/-- A tagged row is refused by a codec that takes it for the row of a log record, if no date can be
read from its id. -/
theorem decode_taggedRow_of_no_date {record : Record} {row : String} (label : Label)
    (hkind : codec.registry.kindOf? tag = some .logRecord)
    (hkey : ∀ key, codec.keys.parse? row = some key → Instant.ofMillis? key.millis = none) :
    codec.decode (taggedRow record row tag label) =
      .error (.record (.malformedRowKey (taggedRow record row tag label).id)) := by
  have hid : (taggedRow record row tag label).id = row := Row.id_ofRun ..
  have hrefuses : codec.Refuses (taggedRow record row tag label)
      (.record (.malformedRowKey (taggedRow record row tag label).id)) :=
    .malformedKey (first?_taggedRow record row tag label)
      (by rw [Content.text, Utf8.decodeLossy_encode, hkind]) (by rwa [hid])
  rw [decode, hrefuses.decodeWithRest_eq]
  rfl

theorem decode_taggedRow_of_inLastLeapSecond {r : LogRecord} (label : Label)
    (hkind : codec.registry.kindOf? tag = some .logRecord) (hlast : r.date.InLastLeapSecond) :
    codec.decode (taggedRow (.logRecord r) (codec.keys.rowIdAt r.uuid r.date) tag label) =
      .error (.record (.malformedRowKey
        (taggedRow (.logRecord r) (codec.keys.rowIdAt r.uuid r.date) tag label).id)) := by
  refine decode_taggedRow_of_no_date label hkind fun key hkey => ?_
  rw [KeyLayout.parse?_rowIdAt rfl, Option.some.injEq] at hkey
  rw [← hkey]
  exact r.date.ofMillis?_millis_eq_none_iff.2 hlast

/-! ## Main result -/

/-- Dates of log records in rows.  Every instant can be set as a date, and JSON gives those that are
in no leap second amid a minute.  A record that got its date from an instant, by setting it or from
JSON, and has a uuid, is encoded by every codec for log records; its date is not changed by rounding
it again.

* Outside of the last leap second, the date is the instant rounded down to a whole millisecond, and
  the record is read back from its row, with its uuid and this date.
* In the last leap second, the date is the instant as it is, and the row of the record is refused:
  no date can be read from its key. -/
theorem decode_encode_dated (htag : codec.WritesUnder .logRecord tag) (d : Instant) :
    (∀ r : LogRecord, (∃ j text, LogRecord.dateText? j = some text ∧
      Instant.ofText? text = some d ∧ LogRecord.ofJson? j = some (r.setDate d)) ↔
        d.LeapEndsMinute) ∧
    ∀ r : LogRecord, r.DatedBy d → r.uuid ≠ "" → r.date.truncate = r.date ∧
      ∃ cells row, codec.encode (.logRecord r) = .ok cells ∧ Row.ofCells? cells = some row ∧
        (¬ d.InLastLeapSecond →
          r.date.IsFloorOf d ∧ codec.decode row = .ok (.logRecord r)) ∧
        (d.InLastLeapSecond →
          r.date = d ∧ codec.decode row = .error (.record (.malformedRowKey row.id))) := by
  refine ⟨fun r => r.exists_json_date_iff d, ?_⟩
  intro r hdated huuid
  have hdate := hdated.date_eq
  have hrowId : (Record.logRecord r).rowId codec.keys = .ok (codec.keys.rowIdAt r.uuid r.date) :=
    if_neg huuid
  refine ⟨by rw [hdate, d.truncate_truncate], _, _, encode_of_writesUnder htag hrowId,
    ofCells?_tagged .., ?_, ?_⟩
  · intro hlast
    have hmillis : (Record.logRecord r).HasWholeMillis := by
      show Instant.ofMillis? r.date.millis = some r.date
      rw [hdate, Instant.ofMillis?_millis_truncate hlast]
    have hfloor : r.date.IsFloorOf d := by
      rw [hdate]
      exact Instant.isFloorOf_truncate hlast
    obtain ⟨rest, hdecode, -⟩ := decodeWithRest_taggedRow
      (codec.labels.labelFor (Record.logRecord r).field?) htag.2
      (Record.identifiedBy_of_rowId rfl hmillis hrowId)
    exact ⟨hfloor, decode_of_decodeWithRest hdecode⟩
  · intro hlast
    have hsame : r.date = d := by rw [hdate, Instant.truncate_of_inLastLeapSecond hlast]
    exact ⟨hsame, decode_taggedRow_of_inLastLeapSecond _ htag.2 (by rwa [hsame])⟩

/-- An instant of a leap second before 1970, amid a minute, is rounded to the last millisecond of the
next second, and this is the date that comes back from a row in one of 36 shards. -/
theorem decode_encode_dated_leap :
    let d : Instant := ⟨-31, 1999999999, by decide, by decide, by decide⟩
    let codec : Codec := .standard { keyPrefix := "log_" }
    let r : LogRecord := LogRecord.setDate ⟨"a_b", .ofList [("k", "v")], .empty, .epoch⟩ d
    ¬ d.LeapEndsMinute ∧ r.date = ⟨-30, 999000000, by decide, by decide, by decide⟩ ∧
      r.date.IsFloorOf d ∧
      ∃ cells row, codec.encode (.logRecord r) = .ok cells ∧ Row.ofCells? cells = some row ∧
        codec.decode row = .ok (.logRecord r) := by
  intro d codec r
  have htag : codec.WritesUnder .logRecord "log_record" := ⟨rfl, rfl⟩
  obtain ⟨-, cells, row, hencode, hrow, hsound, -⟩ :=
    (decode_encode_dated htag d).2 r (.set _) (by decide)
  obtain ⟨hfloor, hdecode⟩ := hsound (by decide)
  exact ⟨by decide, by decide, hfloor, cells, row, hencode, hrow, hdecode⟩

/-- An instant of the last leap second is not rounded, and a record with this date is encoded but
not read back. -/
theorem decode_encode_last_leap_second :
    let d : Instant := ⟨8210266876799, 1123456789, by decide, by decide, by decide⟩
    let codec : Codec := .standard {}
    let r : LogRecord := LogRecord.setDate ⟨"end", .ofList [("a", "b")], .empty, .epoch⟩ d
    r.date.nanos % 1000000 = 456789 ∧
      ∃ cells row, codec.encode (.logRecord r) = .ok cells ∧ Row.ofCells? cells = some row ∧
        ∀ record, codec.decode row ≠ .ok record := by
  intro d codec r
  have htag : codec.WritesUnder .logRecord "log_record" := ⟨rfl, rfl⟩
  have hlast : r.date.InLastLeapSecond := by decide
  refine ⟨by decide, _, _, encode_of_writesUnder htag rfl, ofCells?_tagged .., ?_⟩
  intro record hdecode
  rw [decode_taggedRow_of_inLastLeapSecond _ htag.2 hlast] at hdecode
  cases hdecode

end Codec

end TaggedRows
