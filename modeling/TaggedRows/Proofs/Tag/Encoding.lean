import TaggedRows.Proofs.Row.Filling
import TaggedRows.Proofs.Row.Families
import TaggedRows.Tag.Codec

/-!
# The cells of an encoded record

What a codec writes for a record.  A record is a row id and texts in columns (`Record.textAt?`); its
cells are these texts, each once, all in one row and under one label (`Record.mem_dataCells`).
Putting the tag cell before the sorted data cells makes a list with ascending columns
(`Codec.ascendingColumns_tagged`), because the family of the tag is below every family of a record.

`Codec.encode_eq_ok_iff` says when encoding succeeds, and with what.  A codec that encodes a kind
has a tag for it that stands for that very kind: a tag of another kind would lead to a handler that
refuses the record.
-/

namespace TaggedRows

open TaggedRows.Text

/-! ## Records as texts in columns -/

namespace Record

/-- The families of the record with their texts by qualifier. -/
def maps : Record → List (String × SortedMap String String)
  | .entity e => [(Entity.metaFamily, e.metaProps), (Entity.itemFamily, e.properties)]
  | .logRecord r => [(LogRecord.dataFamily, r.fields), (LogRecord.metadataFamily, r.metadata)]

/-- The text of the record in a column. -/
def textAt? (record : Record) (column : Column) : Option String :=
  (record.maps.lookup column.family).bind fun m => m.get? column.qualifier

/-- The id of the row that a layout gives the record. -/
def rowId (record : Record) (keys : KeyLayout) : Except RecordError String :=
  match record with
  | .entity e => e.rowId
  | .logRecord r => r.rowId keys

/-- The cells of the record in a row, all under one label, without the tag cell. -/
def dataCells (record : Record) (row : String) (label : Label) : List Cell :=
  record.maps.flatMap fun (family, m) => familyCells row family label m

theorem maps_families_ne (record : Record) :
    record.maps.Pairwise fun a b => a.1 ≠ b.1 := by
  cases record <;> simp [maps, Entity.metaFamily, Entity.itemFamily, LogRecord.dataFamily,
    LogRecord.metadataFamily]

theorem lookup_maps {record : Record} {family : String} {m : SortedMap String String} :
    record.maps.lookup family = some m ↔ (family, m) ∈ record.maps := by
  have hne := record.maps_families_ne
  generalize record.maps = maps at hne ⊢
  induction maps with
  | nil => simp
  | cons a maps ih =>
    obtain ⟨ha, hrest⟩ := List.pairwise_cons.1 hne
    obtain ⟨f, n⟩ := a
    by_cases hf : family = f
    · subst hf
      have hnot : (family, m) ∉ maps := fun hmem => ha _ hmem rfl
      simp [hnot, eq_comm]
    · have hb : (family == f) = false := by simpa using hf
      simp [List.lookup_cons, hb, ih hrest, hf]

theorem textAt?_eq_some_iff {record : Record} {column : Column} {text : String} :
    record.textAt? column = some text ↔
      ∃ m, (column.family, m) ∈ record.maps ∧ (column.qualifier, text) ∈ m.toList := by
  rw [textAt?, Option.bind_eq_some_iff]
  simp only [lookup_maps, SortedMap.mem_toList_iff]

/-- The data cells are the texts of the record, in one row and under one label. -/
theorem mem_dataCells {record : Record} {row : String} {label : Label} {c : Cell} :
    c ∈ record.dataCells row label ↔
      ∃ text, record.textAt? c.column = some text ∧
        c = ⟨row, c.column, ⟨label, Utf8.encode text⟩⟩ := by
  rw [dataCells, List.mem_flatMap]
  constructor
  · rintro ⟨⟨family, m⟩, hm, hc⟩
    obtain ⟨⟨qualifier, text⟩, hmem, rfl⟩ := List.mem_map.1 hc
    exact ⟨text, textAt?_eq_some_iff.2 ⟨m, hm, hmem⟩, rfl⟩
  · rintro ⟨text, htext, hc⟩
    obtain ⟨m, hm, hmem⟩ := textAt?_eq_some_iff.1 htext
    exact ⟨_, hm, List.mem_map.2 ⟨_, hmem, hc.symm⟩⟩

theorem row_of_mem_dataCells {record : Record} {row : String} {label : Label} {c : Cell}
    (h : c ∈ record.dataCells row label) : c.row = row := by
  obtain ⟨text, -, hc⟩ := mem_dataCells.1 h
  rw [hc]

/-- No two data cells are in one column. -/
theorem columns_ne_dataCells (record : Record) (row : String) (label : Label) :
    (record.dataCells row label).Pairwise fun a b => a.column ≠ b.column := by
  rw [dataCells, List.pairwise_flatMap]
  constructor
  · rintro ⟨family, m⟩ -
    refine List.pairwise_map.2 (m.ascending.imp fun {a b} hlt heq => ?_)
    have hqualifier : a.1 = b.1 := congrArg Column.qualifier heq
    simp [hqualifier] at hlt
  · refine record.maps_families_ne.imp fun {a b} hne x hx y hy heq => hne ?_
    obtain ⟨ex, -, rfl⟩ := List.mem_map.1 hx
    obtain ⟨ey, -, rfl⟩ := List.mem_map.1 hy
    exact congrArg Column.family heq

/-- Every column of a record is above the tag column. -/
theorem tagColumn_lt {record : Record} {column : Column} {text : String}
    (h : record.textAt? column = some text) : compare tagColumn column = .lt := by
  obtain ⟨m, hm, -⟩ := textAt?_eq_some_iff.1 h
  have hfamily : column.family = Entity.metaFamily ∨ column.family = Entity.itemFamily ∨
      column.family = LogRecord.dataFamily ∨ column.family = LogRecord.metadataFamily := by
    cases record with
    | entity e =>
      rcases List.mem_cons.1 hm with heq | hm
      · exact .inl (congrArg Prod.fst heq)
      · exact .inr (.inl (congrArg Prod.fst (List.mem_singleton.1 hm)))
    | logRecord r =>
      rcases List.mem_cons.1 hm with heq | hm
      · exact .inr (.inr (.inl (congrArg Prod.fst heq)))
      · exact .inr (.inr (.inr (congrArg Prod.fst (List.mem_singleton.1 hm))))
  refine Column.compare_eq_lt_iff.2 (.inl ?_)
  rcases hfamily with h | h | h | h <;> rw [h] <;> decide

end Record

/-! ## Sorted cells -/

namespace Cell

theorem compare_eq_of_row_eq {a b : Cell} (h : a.row = b.row) :
    compare a b = ((compare a.column b.column).then (compare a.content.label b.content.label)).then
      (compare a.content.bytes b.content.bytes) := by
  have hdef : compare a b = ((compare a.row b.row).then ((compare a.column b.column).then
      (compare a.content.label b.content.label))).then
        (compare a.content.bytes b.content.bytes) := rfl
  have hself : compare b.row b.row = .eq := Std.ReflCmp.compare_self
  rw [hdef, h, hself, Ordering.eq_then]

/-- Sorting the cells of one row, all in different columns, makes the columns ascend. -/
theorem ascendingColumns_sort {row : String} {cells : List Cell} (hrow : ∀ c ∈ cells, c.row = row)
    (hcolumn : cells.Pairwise fun a b => a.column ≠ b.column) : AscendingColumns (sort cells) := by
  have hne : (sort cells).Pairwise fun a b => a.column ≠ b.column :=
    hcolumn.perm (sort_perm cells).symm fun h => Ne.symm h
  have hle : (sort cells).Pairwise fun a b => (compare a b).isLE = true :=
    isLE_of_mergeSort (fun c => c) cells
  refine List.Pairwise.imp_of_mem ?_ (hle.and hne)
  rintro a b ha hb ⟨hle, hne⟩
  have hrows : a.row = b.row := by
    rw [hrow a ((sort_perm cells).mem_iff.1 ha), hrow b ((sort_perm cells).mem_iff.1 hb)]
  rw [compare_eq_of_row_eq hrows] at hle
  cases hcmp : compare a.column b.column with
  | lt => rfl
  | eq => exact absurd (Std.LawfulEqCmp.eq_of_compare hcmp) hne
  | gt => simp [hcmp] at hle

end Cell

namespace Codec

/-! ## Tagged rows -/

/-- The tag cell comes first and the columns ascend from there. -/
theorem ascendingColumns_tagged (record : Record) (row tag : String) (label : Label) :
    AscendingColumns (tagged row tag (record.dataCells row label)) := by
  refine List.pairwise_cons.2 ⟨?_, ?_⟩
  · intro c hc
    obtain ⟨text, htext, -⟩ := Record.mem_dataCells.1 ((Cell.sort_perm _).mem_iff.1 hc)
    exact Record.tagColumn_lt htext
  · exact Cell.ascendingColumns_sort (fun c => Record.row_of_mem_dataCells)
      (record.columns_ne_dataCells row label)

/-- Behind the tag cell are the data cells, all in the row. -/
theorem row_of_mem_sort_dataCells {record : Record} {row : String} {label : Label} {c : Cell}
    (h : c ∈ Cell.sort (record.dataCells row label)) : c.row = row :=
  Record.row_of_mem_dataCells ((Cell.sort_perm _).mem_iff.1 h)

/-! ## Encoding -/

theorem toCells_ofKind (record : Record) (row : String) (label : Label) :
    (Handler.ofKind record.kind).toCells record row label = .ok (record.dataCells row label) := by
  cases record <;> simp [Handler.ofKind, Handler.of, Record.kind, Persistent.ofRecord,
    Persistent.ofRecord?, Record.entity?, Record.logRecord?, Persistent.toCells, Record.dataCells,
    Record.maps, Entity.toCells, LogRecord.toCells, bind, Except.bind, pure, Except.pure]

theorem rowId_ofKind (record : Record) (keys : KeyLayout) :
    (Handler.ofKind record.kind).rowId record keys = record.rowId keys := by
  cases record <;> rfl

/-- A handler refuses the records of another kind. -/
theorem rowId_ofKind_ne {record : Record} {kind : RecordKind} (h : kind ≠ record.kind)
    (keys : KeyLayout) :
    (Handler.ofKind kind).rowId record keys = .error (.kindMismatch kind record.kind) := by
  cases record <;> cases kind <;> first | rfl | exact absurd rfl h

theorem writer_eq_ok_iff {codec : Codec} {kind : RecordKind} {tag : String} {handler : Handler} :
    codec.writer kind = .ok (tag, handler) ↔ codec.registry.tagOf? kind = some tag ∧
      ∃ kind', codec.registry.kindOf? tag = some kind' ∧ handler = .ofKind kind' := by
  have hwriter : codec.writer kind = .ok (tag, handler) ↔
      codec.registry.writer? kind = some (tag, handler) := by
    rw [writer]
    cases codec.registry.writer? kind <;> simp
  rw [hwriter, Registry.writer?]
  simp only [Option.bind_eq_bind, Option.bind_eq_some_iff, Option.pure_def, Option.some.injEq,
    Prod.mk.injEq]
  constructor
  · rintro ⟨tag', htag, kind', hkind, rfl, rfl⟩
    exact ⟨htag, kind', hkind, rfl⟩
  · rintro ⟨htag, kind', hkind, rfl⟩
    exact ⟨tag, htag, kind', hkind, rfl, rfl⟩

@[simp] theorem lift_ok (a : α) : lift (.ok a : Except RecordError α) = .ok a := rfl

@[simp] theorem lift_error (e : RecordError) :
    lift (.error e : Except RecordError α) = .error (.record e) := rfl

theorem lift_eq_ok_iff {r : Except RecordError α} {a : α} : lift r = .ok a ↔ r = .ok a := by
  cases r <;> simp

/-- The tag that a kind is written under stands for that kind. -/
def WritesUnder (codec : Codec) (kind : RecordKind) (tag : String) : Prop :=
  codec.registry.tagOf? kind = some tag ∧ codec.registry.kindOf? tag = some kind

theorem writer_of_writesUnder {codec : Codec} {kind : RecordKind} {tag : String}
    (h : codec.WritesUnder kind tag) : codec.writer kind = .ok (tag, .ofKind kind) :=
  writer_eq_ok_iff.2 ⟨h.1, kind, h.2, rfl⟩

/-- A record is written under an id exactly when its kind has a tag of its own and the layout gives
the record that id. -/
theorem rowId_eq_ok_iff {codec : Codec} {record : Record} {row : String} :
    codec.rowId record = .ok row ↔
      (∃ tag, codec.WritesUnder record.kind tag) ∧ record.rowId codec.keys = .ok row := by
  constructor
  · intro h
    cases hw : codec.writer record.kind with
    | error e => simp [rowId, hw, bind, Except.bind] at h
    | ok found =>
      obtain ⟨tag, handler⟩ := found
      obtain ⟨htag, kind, hkind, rfl⟩ := writer_eq_ok_iff.1 hw
      have hrow : (Handler.ofKind kind).rowId record codec.keys = .ok row := by
        simpa [rowId, hw, bind, Except.bind, lift_eq_ok_iff] using h
      by_cases hk : kind = record.kind
      · rw [hk, rowId_ofKind] at hrow
        exact ⟨⟨tag, htag, hk ▸ hkind⟩, hrow⟩
      · rw [rowId_ofKind_ne hk] at hrow
        cases hrow
  · rintro ⟨⟨tag, htag⟩, hrow⟩
    simp [rowId, writer_of_writesUnder htag, bind, Except.bind, rowId_ofKind, hrow]

theorem encode_of_writesUnder {codec : Codec} {record : Record} {tag row : String}
    (htag : codec.WritesUnder record.kind tag) (hrow : record.rowId codec.keys = .ok row) :
    codec.encode record =
      .ok (tagged row tag (record.dataCells row (codec.labels.labelFor record.field?))) := by
  have hlift : lift (record.rowId codec.keys) = .ok row := lift_eq_ok_iff.2 hrow
  have hcells : ∀ label, lift ((Handler.ofKind record.kind).toCells record row label) =
      .ok (record.dataCells row label) := fun label => lift_eq_ok_iff.2 (toCells_ofKind ..)
  simp [encode, writer_of_writesUnder htag, rowId_ofKind, hlift, hcells, bind, Except.bind, pure,
    Except.pure]

/-- Only a record with a row id is encoded. -/
theorem exists_rowId_of_encode {codec : Codec} {record : Record} {cells : List Cell}
    (h : codec.encode record = .ok cells) : ∃ row, codec.rowId record = .ok row := by
  rw [encode] at h
  rw [rowId]
  cases hw : codec.writer record.kind with
  | error e => simp [hw, bind, Except.bind] at h
  | ok found =>
    cases hr : lift (found.2.rowId record codec.keys) with
    | error e => simp [hw, hr, bind, Except.bind] at h
    | ok row => exact ⟨row, by simp [hr, bind, Except.bind]⟩

/-- Encoding succeeds exactly when the kind of the record has a tag of its own and the record has a
row id, and it puts the tag cell before the sorted data cells. -/
theorem encode_eq_ok_iff {codec : Codec} {record : Record} {cells : List Cell} :
    codec.encode record = .ok cells ↔ ∃ tag row, codec.WritesUnder record.kind tag ∧
      record.rowId codec.keys = .ok row ∧
        cells = tagged row tag (record.dataCells row (codec.labels.labelFor record.field?)) := by
  constructor
  · intro h
    obtain ⟨row, hrow⟩ := exists_rowId_of_encode h
    obtain ⟨⟨tag, htag⟩, hrow⟩ := rowId_eq_ok_iff.1 hrow
    rw [encode_of_writesUnder htag hrow] at h
    cases h
    exact ⟨tag, row, htag, hrow, rfl⟩
  · rintro ⟨tag, row, htag, hrow, rfl⟩
    exact encode_of_writesUnder htag hrow

end Codec

end TaggedRows
