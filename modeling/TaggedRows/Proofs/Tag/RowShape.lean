import TaggedRows.Proofs.Tag.Encoding
import TaggedRows.Proofs.Tag.Registry

/-!
# The shape of written rows

What readers rely on in a row that a codec writes (`Codec.encode_shape`).  The tag cell is put
before the other cells after these are sorted, and the families of a kind are not emitted in order;
the row ascends strictly all the same, whatever the keys are.

Behind the tag cell there is one cell for each entry of the record's maps (`Record.entries`) and no
other.  Encoding fails for want of a tag for the kind, and then for want of what the row id is made
of (`Record.Lacks`), and for nothing else.
-/

namespace TaggedRows

open TaggedRows.Text

/-! ## Ascending cells -/

/-- The cells ascend strictly by row, then family, then qualifier. -/
def AscendingCells (cells : List Cell) : Prop :=
  cells.Pairwise fun a b => (compare a.row b.row).then
    ((compare a.column.family b.column.family).then
      (compare a.column.qualifier b.column.qualifier)) = .lt

theorem ascendingCells_of_row_eq {row : String} {cells : List Cell}
    (hrow : ∀ c ∈ cells, c.row = row) (h : AscendingColumns cells) : AscendingCells cells := by
  refine List.Pairwise.imp_of_mem ?_ h
  intro a b ha hb hlt
  have hself : compare row row = .eq := Std.ReflCmp.compare_self
  rw [hrow a ha, hrow b hb, hself]
  exact hlt

namespace Record

variable {record : Record}

/-! ## Entries -/

/-- The entries of the record's maps: each text with its column. -/
def entries (record : Record) : List (Column × String) :=
  record.maps.flatMap fun (family, m) =>
    m.toList.map fun (qualifier, text) => (⟨family, qualifier⟩, text)

theorem dataCells_eq_map_entries (record : Record) (row : String) (label : Label) :
    record.dataCells row label =
      record.entries.map fun (column, text) => ⟨row, column, ⟨label, Utf8.encode text⟩⟩ := by
  unfold dataCells entries
  rw [List.map_flatMap]
  simp [familyCells, Function.comp_def]

/-! ## Row ids -/

/-- What a record lacks that its row id is made of. -/
inductive Lacks : Record → RecordError → Prop
  | id {e : Entity} (h : e.id = none) : Lacks (.entity e) .missingEntityId
  | uuid {r : LogRecord} (h : r.uuid = "") : Lacks (.logRecord r) .emptyUuid

theorem rowId_eq_error_iff {keys : KeyLayout} {flaw : RecordError} :
    record.rowId keys = .error flaw ↔ record.Lacks flaw := by
  constructor
  · intro h
    cases record with
    | entity e =>
      rw [rowId, Entity.rowId] at h
      split at h
      · cases h
      · rename_i hid
        cases h
        exact .id hid
    | logRecord r =>
      rw [rowId, LogRecord.rowId] at h
      split at h
      · rename_i huuid
        cases h
        exact .uuid huuid
      · cases h
  · intro h
    cases h with
    | id h => simp [rowId, Entity.rowId, h]
    | uuid h => simp [rowId, LogRecord.rowId, h]

end Record

namespace Codec

variable {codec : Codec} {record : Record}

/-! ## Failures -/

theorem encode_of_tagOf?_eq_none (h : codec.registry.tagOf? record.kind = none) :
    codec.encode record = .error (.unregisteredKind record.kind) := by
  simp [encode, writer, Registry.writer?, h, bind, Except.bind]

theorem encode_of_rowId_eq_error {tag : String} {flaw : RecordError}
    (htag : codec.WritesUnder record.kind tag) (h : record.rowId codec.keys = .error flaw) :
    codec.encode record = .error (.record flaw) := by
  have hlift : lift (record.rowId codec.keys) = .error (.record flaw) := by
    rw [h, lift_error]
  simp [encode, writer_of_writesUnder htag, rowId_ofKind, hlift, bind, Except.bind]

/-- Encoding fails for want of a tag, or else for want of what the row id is made of. -/
theorem encode_eq_error_iff (h : codec.registry.Reachable) {e : TableError} :
    codec.encode record = .error e ↔
      (codec.registry.tagOf? record.kind = none ∧ e = .unregisteredKind record.kind) ∨
        (codec.registry.tagOf? record.kind ≠ none ∧
          ∃ flaw, record.Lacks flaw ∧ e = .record flaw) := by
  cases htag : codec.registry.tagOf? record.kind with
  | none =>
    rw [encode_of_tagOf?_eq_none htag]
    simp [eq_comm]
  | some tag =>
    have hwrites : codec.WritesUnder record.kind tag := ⟨htag, h.coherent _ _ htag⟩
    have hlacks : ∀ flaw, record.Lacks flaw ↔ record.rowId codec.keys = .error flaw :=
      fun flaw => Record.rowId_eq_error_iff.symm
    simp only [hlacks]
    cases hrow : record.rowId codec.keys with
    | error flaw =>
      rw [encode_of_rowId_eq_error hwrites hrow]
      simp [eq_comm]
    | ok row =>
      rw [encode_of_writesUnder hwrites hrow]
      simp

/-! ## Main result -/

/-- A record that is encoded makes a row that ascends strictly.  The row begins with the tag that
its kind is written under, which everyone may read, and has no other cell in the tag column.  All of
its cells are in the row of the record, and behind the tag they are the entries of the record's
maps, each once, all under the label that the policy gives the record.

A record is not encoded only if its kind has no tag, or else if it is an entity without an id or a
log record with an empty uuid. -/
theorem encode_shape (h : codec.registry.Reachable) (record : Record) :
    (∀ cells, codec.encode record = .ok cells → ∃ tag row others,
      cells = ⟨row, tagColumn, ⟨.unrestricted, Utf8.encode tag⟩⟩ :: others ∧
        codec.registry.tagOf? record.kind = some tag ∧ codec.rowId record = .ok row ∧
        AscendingCells cells ∧ (∀ c ∈ others, c.column ≠ tagColumn) ∧ (∀ c ∈ cells, c.row = row) ∧
        others.Perm (record.entries.map fun (column, text) =>
          ⟨row, column, ⟨codec.labels.labelFor record.field?, Utf8.encode text⟩⟩)) ∧
    ∀ e, codec.encode record = .error e ↔
      (codec.registry.tagOf? record.kind = none ∧ e = .unregisteredKind record.kind) ∨
        (codec.registry.tagOf? record.kind ≠ none ∧
          ∃ flaw, record.Lacks flaw ∧ e = .record flaw) := by
  refine ⟨?_, fun e => encode_eq_error_iff h⟩
  intro cells hcells
  obtain ⟨tag, row, hwrites, hrow, rfl⟩ := encode_eq_ok_iff.1 hcells
  have hcolumns : AscendingColumns
      (tagged row tag (record.dataCells row (codec.labels.labelFor record.field?))) :=
    ascendingColumns_tagged record row tag _
  have hrows : ∀ c ∈ tagged row tag (record.dataCells row (codec.labels.labelFor record.field?)),
      c.row = row := by
    intro c hc
    rcases List.mem_cons.1 hc with rfl | hc
    · rfl
    · exact row_of_mem_sort_dataCells hc
  refine ⟨tag, row, _, rfl, hwrites.1, rowId_eq_ok_iff.2 ⟨⟨tag, hwrites⟩, hrow⟩,
    ascendingCells_of_row_eq hrows hcolumns, ?_, hrows, ?_⟩
  · -- the columns behind the tag are above it
    intro c hc heq
    have hlt := (List.pairwise_cons.1 hcolumns).1 c hc
    simp [tagCell, heq] at hlt
  · rw [← Record.dataCells_eq_map_entries]
    exact Cell.sort_perm _

/-- A codec with a second tag for entities, which labels every row. -/
def labelledRows : Codec where
  registry := Registry.standard.registerAll [("item", .entity)]
  keys := default
  labels := .fixed ⟨"ops"⟩

/-- An entity with keys that are empty, of U+0000 alone or not of ASCII characters. -/
def hardKeys : Record :=
  .entity ⟨some "", .ofList [("é", "a"), ("z", "b")], .ofList [("\x00", "c"), ("", "é")]⟩

/-- The cells of an entity with such keys stand behind the first tag for entities, the items before
the properties of the extraction. -/
theorem encode_shape_hardKeys :
    ∃ cells, labelledRows.encode hardKeys = .ok cells ∧ AscendingCells cells ∧
      cells.head? = some (tagCell "" "entity") ∧ cells.tail.Perm
        [⟨"", ⟨"meta", "z"⟩, ⟨⟨"ops"⟩, [0x62]⟩⟩, ⟨"", ⟨"meta", "é"⟩, ⟨⟨"ops"⟩, [0x61]⟩⟩,
          ⟨"", ⟨"item", ""⟩, ⟨⟨"ops"⟩, [0xC3, 0xA9]⟩⟩,
          ⟨"", ⟨"item", "\x00"⟩, ⟨⟨"ops"⟩, [0x63]⟩⟩] := by
  have hreachable : labelledRows.registry.Reachable := ⟨.standard, _, .inr rfl, rfl⟩
  have hwrites : labelledRows.WritesUnder hardKeys.kind "entity" := ⟨rfl, rfl⟩
  have hrow : hardKeys.rowId labelledRows.keys = .ok "" := rfl
  have hencode := encode_of_writesUnder hwrites hrow
  obtain ⟨tag, row, others, hcells, -, -, hasc, -, -, hperm⟩ :=
    (encode_shape hreachable hardKeys).1 _ hencode
  obtain ⟨hfirst, hothers⟩ := List.cons.inj hcells
  obtain rfl : "" = row := congrArg Cell.row hfirst
  refine ⟨_, hencode, hasc, rfl, ?_⟩
  rw [← hothers] at hperm
  exact hperm

end Codec

end TaggedRows
