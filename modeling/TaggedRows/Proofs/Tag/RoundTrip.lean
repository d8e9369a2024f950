import TaggedRows.Proofs.RowKey.Parse
import TaggedRows.Proofs.Tag.Decoding
import TaggedRows.Proofs.Text.Utf8

/-!
# Records read back

A row that one codec wrote is read by another as the record it was written for
(`Codec.decode_encode`).  The two may differ in their number of shards, in their labels and in the
tags they know; what they have to share is the prefix of the row keys and what the writer's tag
stands for.

The record accounts for the row that it was written to (`Codec.accounts_taggedRow`): the row id
names its identity again (`Record.identifiedBy_of_rowId`), and behind the tag cell there are its
texts and no other cells (`Codec.holds_taggedRow`), so that nothing is left over.
-/

namespace TaggedRows

open TaggedRows.Text TaggedRows.Time

/-! ## Identity -/

namespace Record

/-- The date of a log record is a whole number of milliseconds that a row key can name. -/
def HasWholeMillis : Record → Prop
  | .entity _ => True
  | .logRecord r => Instant.ofMillis? r.date.millis = some r.date

instance : DecidablePred HasWholeMillis
  | .entity _ => inferInstanceAs (Decidable True)
  | .logRecord r => inferInstanceAs (Decidable (Instant.ofMillis? r.date.millis = some r.date))

/-- The row id that a layout gives a record names the record for every layout with its prefix. -/
theorem identifiedBy_of_rowId {record : Record} {writer reader : KeyLayout} {row : String}
    (hkeys : writer.keyPrefix = reader.keyPrefix) (hdate : record.HasWholeMillis)
    (h : record.rowId writer = .ok row) : record.IdentifiedBy reader row := by
  cases record with
  | entity e =>
    rw [Record.rowId, Entity.rowId] at h
    split at h
    · rename_i id hid
      cases h
      exact hid
    · cases h
  | logRecord r =>
    rw [Record.rowId, LogRecord.rowId] at h
    split at h
    · cases h
    · cases h
      have hmillis : Instant.ofMillis? r.date.millis = some r.date := hdate
      simp [IdentifiedBy, LogRecord.ofRowKey?, KeyLayout.parse?_rowIdAt hkeys, hmillis]

end Record

/-! ## Texts -/

/-- The columns of the row hold the texts of the record under a label, and nothing else. -/
def Row.Holds (row : Row) (record : Record) (label : Label) : Prop :=
  ∀ column, row.cells.get? column =
    (record.textAt? column).map fun text => ⟨label, Utf8.encode text⟩

namespace Codec

/-! ## Reading a tagged row -/

/-- The row of a record under a tag. -/
def taggedRow (record : Record) (row tag : String) (label : Label) : Row :=
  .ofRun (tagCell row tag) (Cell.sort (record.dataCells row label))

theorem ofCells?_tagged (record : Record) (row tag : String) (label : Label) :
    Row.ofCells? (tagged row tag (record.dataCells row label)) =
      some (taggedRow record row tag label) :=
  Row.ofCells?_cons _ _

theorem toList_taggedRow (record : Record) (row tag : String) (label : Label) :
    (taggedRow record row tag label).cells.toList =
      (tagged row tag (record.dataCells row label)).map Row.entryOf :=
  Row.toList_ofRun (ascendingColumns_tagged record row tag label)

/-- The row of a tagged record begins with the tag cell. -/
theorem first?_taggedRow (record : Record) (row tag : String) (label : Label) :
    (taggedRow record row tag label).first? =
      some (tagColumn, ⟨.unrestricted, Utf8.encode tag⟩) := by
  rw [Row.first?, SortedMap.first?, toList_taggedRow]
  rfl

/-- Behind the tag cell the row of a tagged record holds the texts of the record. -/
theorem holds_taggedRow (record : Record) (row tag : String) (label : Label) :
    (taggedRow record row tag label).dropFirst.Holds record label := by
  intro column
  have hlist : (taggedRow record row tag label).dropFirst.cells.toList =
      (Cell.sort (record.dataCells row label)).map Row.entryOf := by
    rw [Row.toList_dropFirst, toList_taggedRow]
    rfl
  apply Option.ext
  intro content
  rw [← SortedMap.mem_toList_iff, hlist, List.mem_map, Option.map_eq_some_iff]
  constructor
  · rintro ⟨c, hc, heq⟩
    obtain ⟨text, htext, hcell⟩ :=
      Record.mem_dataCells.1 ((Cell.sort_perm _).mem_iff.1 hc)
    rw [hcell] at heq
    cases heq
    exact ⟨text, htext, rfl⟩
  · rintro ⟨text, htext, rfl⟩
    have hmem : (⟨row, column, ⟨label, Utf8.encode text⟩⟩ : Cell) ∈ record.dataCells row label :=
      Record.mem_dataCells.2 ⟨text, htext, rfl⟩
    exact ⟨_, (Cell.sort_perm _).mem_iff.2 hmem, rfl⟩

/-- In the data columns a tagged row holds the texts of the record. -/
theorem get?_taggedRow (record : Record) (row tag : String) (label : Label) {column : Column}
    (h : column ≠ tagColumn) : (taggedRow record row tag label).cells.get? column =
      (record.textAt? column).map fun text => ⟨label, Utf8.encode text⟩ := by
  have hdrop := get?_dropFirst (first?_taggedRow record row tag label) column
  rw [if_neg h] at hdrop
  rw [← hdrop, holds_taggedRow]

/-- The record accounts for its tagged row, to a reader that knows the tag for the record's kind and
whose layout names the record by the row id: nothing is left over. -/
theorem accounts_taggedRow {reader : Codec} {record : Record} {row tag : String} (label : Label)
    (hkind : reader.registry.kindOf? tag = some record.kind)
    (hid : record.IdentifiedBy reader.keys row) :
    reader.Accounts (taggedRow record row tag label) record (.empty row) where
  tag := by
    refine ⟨_, first?_taggedRow record row tag label, ?_⟩
    rw [Content.text, Utf8.decodeLossy_encode, hkind]
  identity := by
    rwa [taggedRow, Row.id_ofRun]
  texts := by
    intro family m hm qualifier
    rw [get?_taggedRow _ _ _ _ (Record.column_ne_tagColumn hm qualifier),
      Record.textAt?_of_mem_maps hm]
    cases m.get? qualifier with
    | none => rfl
    | some text => exact congrArg some (Utf8.decodeLossy_encode text).symm
  id := by
    rw [taggedRow, Row.id_ofRun]
    rfl
  cells := by
    intro column
    have hempty : (Row.empty row).cells.get? column = none := rfl
    rw [hempty]
    split
    · rfl
    · rename_i hother
      obtain ⟨hne, hfamily⟩ := not_or.1 hother
      rw [get?_taggedRow _ _ _ _ hne, Record.textAt?_of_not_mem_families hfamily]
      rfl

/-- A reader reads a tagged row as the record it was written for, if it knows the tag for the
record's kind and its layout names the record by the row id. -/
theorem decodeWithRest_taggedRow {reader : Codec} {record : Record} {row tag : String} (label : Label)
    (hkind : reader.registry.kindOf? tag = some record.kind)
    (hid : record.IdentifiedBy reader.keys row) :
    ∃ rest, reader.decodeWithRest (taggedRow record row tag label) = .ok (record, rest) ∧
      rest.isEmpty = true :=
  ⟨.empty row, (accounts_taggedRow label hkind hid).decodeWithRest_eq, rfl⟩

theorem decode_of_decodeWithRest {codec : Codec} {row rest : Row} {record : Record}
    (h : codec.decodeWithRest row = .ok (record, rest)) : codec.decode row = .ok record := by
  rw [decode, h]
  rfl

/-! ## Main result -/

/-- Whatever one codec writes, every codec with the same key prefix that knows the writer's tag for
the kind reads back: it gets exactly the record, and no cell is left over. -/
theorem decode_encode {writer reader : Codec} {record : Record} {cells : List Cell}
    (hkeys : writer.keys.keyPrefix = reader.keys.keyPrefix)
    (htag : ∀ tag, writer.registry.tagOf? record.kind = some tag →
      reader.registry.kindOf? tag = some record.kind)
    (hdate : record.HasWholeMillis) (h : writer.encode record = .ok cells) :
    ∃ row, Row.ofCells? cells = some row ∧ reader.decode row = .ok record ∧
      ∃ rest, reader.decodeWithRest row = .ok (record, rest) ∧ rest.isEmpty = true := by
  obtain ⟨tag, row, hwrites, hrow, rfl⟩ := encode_eq_ok_iff.1 h
  obtain ⟨rest, hdecode, hrest⟩ := decodeWithRest_taggedRow (writer.labels.labelFor record.field?)
    (htag tag hwrites.1) (Record.identifiedBy_of_rowId hkeys hdate hrow)
  exact ⟨_, ofCells?_tagged .., decode_of_decodeWithRest hdecode, rest, hdecode, hrest⟩

/-- A log record comes back from a row in one of 36 shards to a reader with seven, which knows the
tag of the row as the second one for log records. -/
theorem decode_encode_second_tag :
    ∃ cells, (⟨.standard, { keyPrefix := "log_" }, .fixed ⟨"ops"⟩⟩ : Codec).encode
        (.logRecord ⟨"a_b", .ofList [("", "α")], .empty, .epoch⟩) = .ok cells ∧
      ∃ row, Row.ofCells? cells = some row ∧
        (⟨(Registry.empty.insert "event" .logRecord).insert "log_record" .logRecord,
          { keyPrefix := "log_", shardCount := 7 }, .unrestricted⟩ : Codec).decode row =
            .ok (.logRecord ⟨"a_b", .ofList [("", "α")], .empty, .epoch⟩) ∧
        ∃ rest, (⟨(Registry.empty.insert "event" .logRecord).insert "log_record" .logRecord,
          { keyPrefix := "log_", shardCount := 7 }, .unrestricted⟩ : Codec).decodeWithRest row =
            .ok (.logRecord ⟨"a_b", .ofList [("", "α")], .empty, .epoch⟩, rest) ∧
              rest.isEmpty = true := by
  have hwrites : (⟨.standard, { keyPrefix := "log_" }, .fixed ⟨"ops"⟩⟩ : Codec).WritesUnder
      .logRecord "log_record" := ⟨rfl, rfl⟩
  refine ⟨_, encode_of_writesUnder hwrites rfl, ?_⟩
  refine decode_encode ?_ ?_ (by decide) (encode_of_writesUnder hwrites rfl)
  · rfl
  · intro tag htag
    cases htag
    rfl

end Codec

end TaggedRows
