import TaggedRows.Proofs.Tag.Encoding

/-!
# Rows taken apart

What a codec makes of an arbitrary row.  Decoding gives a record and a rest exactly if the two
account for the row (`Codec.Accounts`): the lowest cell names the kind of the record, the row id
names its identity, the families of the kind are its maps, and the rest holds all other cells as
they are.  No other record and rest do (`Codec.Accounts.unique`).  There are three ways to refuse a
row (`Codec.Refuses`), checked one after the other, and every row is either accounted for or refused
(`Codec.accounts_or_refuses`).

The names of the families of a kind are next to those of other families (`meta` and `metadata`), and
other families than the one of the tag begin with U+0000.  All of these stay in the rest, because a
family is taken out by its whole name (`Row.get?_withoutFamilies`).
-/

namespace TaggedRows

open TaggedRows.Text TaggedRows.Time

/-! ## Row keys of log records -/

theorem LogRecord.ofRowKey?_eq_some_iff {keys : KeyLayout} {row uuid : String} {date : Instant} :
    ofRowKey? keys row = some (uuid, date) ↔
      ∃ key, keys.parse? row = some key ∧ Instant.ofMillis? key.millis = some date ∧
        key.sourceId = uuid := by
  simp [ofRowKey?, Option.bind_eq_some_iff]

theorem LogRecord.ofRowKey?_eq_none_iff {keys : KeyLayout} {row : String} :
    ofRowKey? keys row = none ↔
      ∀ key, keys.parse? row = some key → Instant.ofMillis? key.millis = none := by
  cases hkey : keys.parse? row with
  | none => simp [ofRowKey?, hkey]
  | some key =>
    cases hdate : Instant.ofMillis? key.millis with
    | none => simp [ofRowKey?, hkey, hdate]
    | some date => simp [ofRowKey?, hkey, hdate]

/-! ## Identity and texts -/

namespace Record

variable {record : Record}

/-- A layout reads the identity of the record off a row id. -/
def IdentifiedBy (record : Record) (keys : KeyLayout) (row : String) : Prop :=
  match record with
  | .entity e => e.id = some row
  | .logRecord r => LogRecord.ofRowKey? keys row = some (r.uuid, r.date)

theorem IdentifiedBy.ofRowKey?_ne_none {keys : KeyLayout} {row : String}
    (h : record.IdentifiedBy keys row) (hkind : record.kind = .logRecord) :
    LogRecord.ofRowKey? keys row ≠ none := by
  cases record with
  | entity e => cases hkind
  | logRecord r =>
    have hkey : LogRecord.ofRowKey? keys row = some (r.uuid, r.date) := h
    simp [hkey]

/-- The families of the record. -/
def families (record : Record) : List String := record.maps.map (·.1)

theorem mem_families {family : String} {m : SortedMap String String}
    (h : (family, m) ∈ record.maps) : family ∈ record.families :=
  List.mem_map.2 ⟨_, h, rfl⟩

/-- The tag cell is in none of the families of a record. -/
theorem tagColumn_family_not_mem (record : Record) : tagColumn.family ∉ record.families := by
  cases record <;> simp [families, maps, tagColumn, Entity.metaFamily, Entity.itemFamily,
    LogRecord.dataFamily, LogRecord.metadataFamily]

theorem column_ne_tagColumn {family : String} {m : SortedMap String String}
    (h : (family, m) ∈ record.maps) (qualifier : String) :
    (⟨family, qualifier⟩ : Column) ≠ tagColumn := by
  intro heq
  apply record.tagColumn_family_not_mem
  rw [← heq]
  exact mem_families h

theorem textAt?_of_mem_maps {family : String} {m : SortedMap String String}
    (h : (family, m) ∈ record.maps) (qualifier : String) :
    record.textAt? ⟨family, qualifier⟩ = m.get? qualifier := by
  simp [textAt?, lookup_maps.2 h]

theorem textAt?_of_not_mem_families {column : Column} (h : column.family ∉ record.families) :
    record.textAt? column = none := by
  rw [Option.eq_none_iff_forall_ne_some]
  intro text htext
  obtain ⟨m, hm, -⟩ := textAt?_eq_some_iff.1 htext
  exact h (mem_families hm)

theorem families_eq_of_kind {a b : Record} (h : a.kind = b.kind) : a.families = b.families := by
  cases a <;> cases b <;> first | rfl | cases h

/-- A record is known by its kind, its identity and its maps. -/
theorem eq_of_identifiedBy {a b : Record} {keys : KeyLayout} {row : String}
    (hkind : a.kind = b.kind) (ha : a.IdentifiedBy keys row) (hb : b.IdentifiedBy keys row)
    (hmaps : a.maps = b.maps) : a = b := by
  cases a with
  | entity e =>
    cases b with
    | entity e' =>
      obtain ⟨id, metaProps, properties⟩ := e
      obtain ⟨id', metaProps', properties'⟩ := e'
      have hid : id = id' := (ha : id = some row).trans (hb : id' = some row).symm
      simp only [maps, List.cons.injEq, Prod.mk.injEq, true_and, and_true] at hmaps
      simp [hid, hmaps]
    | logRecord r => cases hkind
  | logRecord r =>
    cases b with
    | entity e => cases hkind
    | logRecord r' =>
      obtain ⟨uuid, fields, metadata, date⟩ := r
      obtain ⟨uuid', fields', metadata', date'⟩ := r'
      have hkey : some (uuid, date) = some (uuid', date') :=
        (ha : LogRecord.ofRowKey? keys row = some (uuid, date)).symm.trans hb
      simp only [Option.some.injEq, Prod.mk.injEq] at hkey
      simp only [maps, List.cons.injEq, Prod.mk.injEq, true_and, and_true] at hmaps
      simp [hkey, hmaps]

end Record

/-! ## Handlers on rows -/

/-- A handler reads the identity off the row id and cuts its families out, or it refuses the row id
and leaves the row as it was. -/
theorem Handler.ofRow_cases (kind : RecordKind) (keys : KeyLayout) (row : Row) :
    (kind = .logRecord ∧ LogRecord.ofRowKey? keys row.id = none ∧
        (ofKind kind).ofRow keys row = (.error (.malformedRowKey row.id), row)) ∨
      ∃ record : Record, record.kind = kind ∧ record.IdentifiedBy keys row.id ∧
        (record.maps = record.families.map fun family => (family, row.family family)) ∧
        (ofKind kind).ofRow keys row = (.ok record, row.withoutFamilies record.families) := by
  cases kind with
  | entity =>
    refine .inr ⟨.entity ⟨some row.id, row.family Entity.metaFamily, row.family Entity.itemFamily⟩,
      rfl, rfl, rfl, ?_⟩
    have hitem := row.family_cutFamily_of_ne (f := Entity.metaFamily) (g := Entity.itemFamily)
      (by decide)
    rw [← hitem]
    rfl
  | logRecord =>
    cases hkey : LogRecord.ofRowKey? keys row.id with
    | none =>
      refine .inl ⟨rfl, rfl, ?_⟩
      simp [ofKind, of, Persistent.ofRow, LogRecord.ofRow, hkey, Except.map]
    | some found =>
      obtain ⟨uuid, date⟩ := found
      refine .inr ⟨.logRecord ⟨uuid, row.family LogRecord.dataFamily,
        row.family LogRecord.metadataFamily, date⟩, rfl, hkey, rfl, ?_⟩
      have hmetadata := row.family_cutFamily_of_ne (f := LogRecord.dataFamily)
        (g := LogRecord.metadataFamily) (by decide)
      rw [← hmetadata]
      simp [ofKind, of, Persistent.ofRow, Persistent.toRecord, LogRecord.ofRow, hkey, Except.map,
        Row.withoutFamilies, Record.families, Record.maps, Row.cutFamily]

/-- A handler that refuses a row leaves it as it was. -/
theorem Handler.rest_of_error {kind : RecordKind} {keys : KeyLayout} {row rest : Row}
    {e : RecordError} (h : (ofKind kind).ofRow keys row = (.error e, rest)) : rest = row := by
  rcases ofRow_cases kind keys row with ⟨-, -, hread⟩ | ⟨record, -, -, -, hread⟩
  · rw [hread] at h
    cases h
    rfl
  · rw [hread] at h
    cases h

namespace Codec

variable {codec : Codec} {row rest : Row} {record : Record} {content : Content} {e : TableError}

/-! ## Rows that are accounted for -/

/-- A record and a rest account for every cell of a row. -/
structure Accounts (codec : Codec) (row : Row) (record : Record) (rest : Row) : Prop where
  /-- The lowest cell of the row names the kind of the record. -/
  tag : ∃ content, row.first? = some (tagColumn, content) ∧
    codec.registry.kindOf? content.text = some record.kind
  identity : record.IdentifiedBy codec.keys row.id
  /-- The maps of the record hold the texts of their families. -/
  texts : ∀ family m, (family, m) ∈ record.maps → ∀ qualifier,
    m.get? qualifier = (row.cells.get? ⟨family, qualifier⟩).map Content.text
  id : rest.id = row.id
  /-- The rest holds the cells of other families as they are, and no others. -/
  cells : ∀ column, rest.cells.get? column =
    if column = tagColumn ∨ column.family ∈ record.families then none
    else row.cells.get? column

/-- Behind its tag cell a row has all its other cells. -/
theorem get?_dropFirst (h : row.first? = some (tagColumn, content)) (column : Column) :
    row.dropFirst.cells.get? column =
      if column = tagColumn then none else row.cells.get? column := by
  have hdrop : row.cells.dropFirst.get? column =
      if compare column tagColumn = .eq then none else row.cells.get? column :=
    SortedMap.get?_dropFirst h column
  rw [Row.dropFirst, hdrop]
  simp only [Std.compare_eq_iff_eq]

/-- What a handler reads behind the tag cell accounts for the row. -/
theorem accounts_of_first? (hfirst : row.first? = some (tagColumn, content))
    (hkind : codec.registry.kindOf? content.text = some record.kind)
    (hid : record.IdentifiedBy codec.keys row.id)
    (hmaps : record.maps =
      record.families.map fun family => (family, row.dropFirst.family family)) :
    codec.Accounts row record (row.dropFirst.withoutFamilies record.families) where
  tag := ⟨content, hfirst, hkind⟩
  identity := hid
  texts := by
    intro family m hm qualifier
    have hne : (⟨family, qualifier⟩ : Column) ≠ tagColumn := Record.column_ne_tagColumn hm qualifier
    rw [hmaps] at hm
    obtain ⟨_, -, heq⟩ := List.mem_map.1 hm
    cases heq
    rw [Row.get?_family, get?_dropFirst hfirst, if_neg hne]
  id := Row.id_withoutFamilies _ _
  cells := by
    intro column
    rw [Row.get?_withoutFamilies, get?_dropFirst hfirst]
    by_cases hfamily : column.family ∈ record.families
    · simp [hfamily]
    · simp [hfamily]

theorem Accounts.maps_eq (h : codec.Accounts row record rest) :
    record.maps = record.families.map fun family => (family, row.family family) := by
  have hself : record.maps.map (fun e => e) =
      record.maps.map fun e => (e.1, row.family e.1) := by
    refine List.map_congr_left ?_
    rintro ⟨family, m⟩ hm
    refine Prod.ext rfl (SortedMap.ext_get? fun qualifier => ?_)
    rw [h.texts family m hm, Row.get?_family]
  rw [Record.families, List.map_map]
  exact (List.map_id' _).symm.trans hself

theorem Accounts.unique {a b : Record} {s t : Row} (h : codec.Accounts row a s)
    (h' : codec.Accounts row b t) : a = b ∧ s = t := by
  obtain ⟨content, hfirst, hkind⟩ := h.tag
  obtain ⟨content', hfirst', hkind'⟩ := h'.tag
  rw [hfirst] at hfirst'
  cases hfirst'
  have hkinds : a.kind = b.kind := Option.some.inj (hkind.symm.trans hkind')
  have hfamilies : a.families = b.families := Record.families_eq_of_kind hkinds
  have hab : a = b := by
    refine Record.eq_of_identifiedBy hkinds h.identity h'.identity ?_
    rw [h.maps_eq, h'.maps_eq, hfamilies]
  refine ⟨hab, Row.ext_get? (h.id.trans h'.id.symm) fun column => ?_⟩
  rw [h.cells, h'.cells, hfamilies]

/-- Every cell of the row went to one place: it is the tag cell, or its text is in the record, or it
is left over as it was. -/
theorem Accounts.place (h : codec.Accounts row record rest) {column : Column}
    (hget : row.cells.get? column = some content) :
    (column = tagColumn ∧ record.textAt? column = none ∧ rest.cells.get? column = none) ∨
      (column ≠ tagColumn ∧ record.textAt? column = some content.text ∧
        rest.cells.get? column = none) ∨
      (column ≠ tagColumn ∧ record.textAt? column = none ∧
        rest.cells.get? column = some content) := by
  have hrest := h.cells column
  by_cases htag : column = tagColumn
  · subst htag
    refine .inl ⟨rfl, Record.textAt?_of_not_mem_families record.tagColumn_family_not_mem, ?_⟩
    simpa using hrest
  · by_cases hfamily : column.family ∈ record.families
    · obtain ⟨⟨family, m⟩, hm, rfl⟩ := List.mem_map.1 hfamily
      refine .inr (.inl ⟨htag, ?_, by simpa [hfamily] using hrest⟩)
      have htext : record.textAt? column = m.get? column.qualifier :=
        Record.textAt?_of_mem_maps hm column.qualifier
      rw [htext, h.texts column.family m hm]
      simp [hget]
    · refine .inr (.inr ⟨htag, Record.textAt?_of_not_mem_families hfamily, ?_⟩)
      simpa [htag, hfamily, hget] using hrest

/-! ## Rows that are refused -/

/-- What a codec says about a row that it cannot decode.  Each reason rules out the ones before
it. -/
inductive Refuses (codec : Codec) (row : Row) : TableError → Prop
  | missingTag (h : ∀ content, row.first? ≠ some (tagColumn, content)) :
    Refuses codec row (.missingTag row.id)
  | unknownTag {content : Content} (h : row.first? = some (tagColumn, content))
    (hkind : codec.registry.kindOf? content.text = none) :
    Refuses codec row (.unknownTag row.id content.text)
  | malformedKey {content : Content} (h : row.first? = some (tagColumn, content))
    (hkind : codec.registry.kindOf? content.text = some .logRecord)
    (hkey : ∀ key, codec.keys.parse? row.id = some key → Instant.ofMillis? key.millis = none) :
    Refuses codec row (.record (.malformedRowKey row.id))

/-! ## Decoding -/

theorem kindOfRow_of_first? {kind : RecordKind} (hfirst : row.first? = some (tagColumn, content))
    (hkind : codec.registry.kindOf? content.text = some kind) : codec.kindOfRow row = .ok kind := by
  have htag : codec.registry.kindOf? (Utf8.decodeLossy content.bytes) = some kind := hkind
  simp [kindOfRow, hfirst, kindOfTag, htag]

/-- A row of a known kind is read by the handler of that kind. -/
theorem decodeWithRest_of_kind {kind : RecordKind} (h : codec.kindOfRow row = .ok kind) :
    codec.decodeWithRest row = (lift ((Handler.ofKind kind).ofRow codec.keys row.dropFirst).1).map
      fun record => (record, ((Handler.ofKind kind).ofRow codec.keys row.dropFirst).2) := by
  rw [decodeWithRest, h]
  cases hread : (Handler.ofKind kind).ofRow codec.keys row.dropFirst with
  | mk r rest =>
    cases r <;> simp [hread, bind, Except.bind, Except.map, pure, Except.pure]

/-- A row that begins with the tag of a kind is accounted for, unless it is to hold a log record and
its id is no key with a date. -/
theorem decodeWithRest_of_first? {kind : RecordKind}
    (hfirst : row.first? = some (tagColumn, content))
    (hkind : codec.registry.kindOf? content.text = some kind) :
    (kind = .logRecord ∧ LogRecord.ofRowKey? codec.keys row.id = none ∧
        codec.decodeWithRest row = .error (.record (.malformedRowKey row.id))) ∨
      ∃ record rest, codec.decodeWithRest row = .ok (record, rest) ∧
        codec.Accounts row record rest := by
  rw [decodeWithRest_of_kind (kindOfRow_of_first? hfirst hkind)]
  rcases Handler.ofRow_cases kind codec.keys row.dropFirst with
    ⟨hlog, hkey, hread⟩ | ⟨record, rfl, hid, hmaps, hread⟩
  · rw [hread]
    exact .inl ⟨hlog, hkey, rfl⟩
  · rw [hread]
    exact .inr ⟨record, _, rfl, accounts_of_first? hfirst hkind hid hmaps⟩

theorem Accounts.decodeWithRest_eq (h : codec.Accounts row record rest) :
    codec.decodeWithRest row = .ok (record, rest) := by
  obtain ⟨content, hfirst, hkind⟩ := h.tag
  rcases decodeWithRest_of_first? hfirst hkind with
    ⟨hlog, hkey, -⟩ | ⟨record', rest', hdecode, haccounts⟩
  · exact absurd hkey (h.identity.ofRowKey?_ne_none hlog)
  · obtain ⟨rfl, rfl⟩ := h.unique haccounts
    exact hdecode

theorem Refuses.decodeWithRest_eq (h : codec.Refuses row e) :
    codec.decodeWithRest row = .error e := by
  cases h with
  | missingTag hfirst =>
    have hkind : codec.kindOfRow row = .error (.missingTag row.id) := by
      rw [kindOfRow]
      split
      · rename_i column content hcell
        rw [if_neg]
        rintro rfl
        exact hfirst content hcell
      · rfl
    simp [decodeWithRest, hkind, bind, Except.bind]
  | @unknownTag content hfirst hkind =>
    have htag : codec.registry.kindOf? (Utf8.decodeLossy content.bytes) = none := hkind
    simp [decodeWithRest, kindOfRow, hfirst, kindOfTag, htag, Content.text, bind, Except.bind]
  | malformedKey hfirst hkind hkey =>
    rw [decodeWithRest_of_kind (kindOfRow_of_first? hfirst hkind)]
    rcases Handler.ofRow_cases .logRecord codec.keys row.dropFirst with
      ⟨-, -, hread⟩ | ⟨record, hlog, hid, -⟩
    · rw [hread]
      rfl
    · exact absurd (LogRecord.ofRowKey?_eq_none_iff.2 hkey) (hid.ofRowKey?_ne_none hlog)

/-- A row is either accounted for or refused. -/
theorem accounts_or_refuses (codec : Codec) (row : Row) :
    (∃ record rest, codec.Accounts row record rest) ∨ ∃ e, codec.Refuses row e := by
  by_cases htag : ∃ content, row.first? = some (tagColumn, content)
  · obtain ⟨content, hfirst⟩ := htag
    cases hkind : codec.registry.kindOf? content.text with
    | none => exact .inr ⟨_, .unknownTag hfirst hkind⟩
    | some kind =>
      rcases decodeWithRest_of_first? hfirst hkind with
        ⟨rfl, hkey, -⟩ | ⟨record, rest, -, haccounts⟩
      · exact .inr ⟨_, .malformedKey hfirst hkind (LogRecord.ofRowKey?_eq_none_iff.1 hkey)⟩
      · exact .inl ⟨record, rest, haccounts⟩
  · exact .inr ⟨_, .missingTag (not_exists.1 htag)⟩

theorem decodeWithRest_eq_ok_iff :
    codec.decodeWithRest row = .ok (record, rest) ↔ codec.Accounts row record rest := by
  refine ⟨fun h => ?_, Accounts.decodeWithRest_eq⟩
  rcases codec.accounts_or_refuses row with ⟨record', rest', haccounts⟩ | ⟨e, hrefuses⟩
  · rw [haccounts.decodeWithRest_eq] at h
    cases h
    exact haccounts
  · rw [hrefuses.decodeWithRest_eq] at h
    cases h

theorem decodeWithRest_eq_error_iff :
    codec.decodeWithRest row = .error e ↔ codec.Refuses row e := by
  refine ⟨fun h => ?_, Refuses.decodeWithRest_eq⟩
  rcases codec.accounts_or_refuses row with ⟨record', rest', haccounts⟩ | ⟨e', hrefuses⟩
  · rw [haccounts.decodeWithRest_eq] at h
    cases h
  · rw [hrefuses.decodeWithRest_eq] at h
    cases h
    exact hrefuses

/-- Decoding succeeds exactly on the rows that begin with the tag of a kind, and that have a row key
with a date if the kind is that of log records. -/
theorem exists_decodeWithRest_iff :
    (∃ record rest, codec.decodeWithRest row = .ok (record, rest)) ↔
      ∃ content kind, row.first? = some (tagColumn, content) ∧
        codec.registry.kindOf? content.text = some kind ∧
        (kind = .logRecord → ∃ key date, codec.keys.parse? row.id = some key ∧
          Instant.ofMillis? key.millis = some date) := by
  constructor
  · rintro ⟨record, rest, h⟩
    have haccounts := decodeWithRest_eq_ok_iff.1 h
    obtain ⟨content, hfirst, hkind⟩ := haccounts.tag
    refine ⟨content, record.kind, hfirst, hkind, fun hlog => ?_⟩
    have hid := haccounts.identity
    cases record with
    | entity e => cases hlog
    | logRecord r =>
      obtain ⟨key, hkey, hdate, -⟩ := LogRecord.ofRowKey?_eq_some_iff.1 hid
      exact ⟨key, r.date, hkey, hdate⟩
  · rintro ⟨content, kind, hfirst, hkind, hlog⟩
    rcases decodeWithRest_of_first? hfirst hkind with ⟨hkind', hkey, -⟩ | ⟨record, rest, hdecode, -⟩
    · obtain ⟨key, date, hparse, hdate⟩ := hlog hkind'
      simp [LogRecord.ofRowKey?_eq_none_iff.1 hkey key hparse] at hdate
    · exact ⟨record, rest, hdecode⟩

/-! ## Main result -/

/-- Decoding accounts for every cell of a row.

It succeeds exactly if the lowest cell names a kind that is known and, for a log record, the row id
is a key with a date.  Record and rest are then those that account for the row, and each of its
cells is in exactly one of tag, record and rest.  Otherwise the row is refused for the first reason
that applies.  A handler that refuses a row leaves it as it was. -/
theorem decodeWithRest_accounts (codec : Codec) (row : Row) :
    ((∃ record rest, codec.decodeWithRest row = .ok (record, rest)) ↔
      ∃ content kind, row.first? = some (tagColumn, content) ∧
        codec.registry.kindOf? content.text = some kind ∧
        (kind = .logRecord → ∃ key date, codec.keys.parse? row.id = some key ∧
          Instant.ofMillis? key.millis = some date)) ∧
    (∀ record rest, codec.decodeWithRest row = .ok (record, rest) ↔
      codec.Accounts row record rest) ∧
    (∀ record rest, codec.decodeWithRest row = .ok (record, rest) →
      ∀ column content, row.cells.get? column = some content →
        (column = tagColumn ∧ record.textAt? column = none ∧ rest.cells.get? column = none) ∨
          (column ≠ tagColumn ∧ record.textAt? column = some content.text ∧
            rest.cells.get? column = none) ∨
          (column ≠ tagColumn ∧ record.textAt? column = none ∧
            rest.cells.get? column = some content)) ∧
    (∀ e, codec.decodeWithRest row = .error e ↔ codec.Refuses row e) ∧
    ∀ kind keys given e rest, (Handler.ofKind kind).ofRow keys given = (.error e, rest) →
      rest = given := by
  refine ⟨exists_decodeWithRest_iff, fun record rest => decodeWithRest_eq_ok_iff, ?_,
    fun e => decodeWithRest_eq_error_iff, fun kind keys given e rest => Handler.rest_of_error⟩
  intro record rest h column content hget
  exact (decodeWithRest_eq_ok_iff.1 h).place hget

/-- The row of an entity with ill-formed bytes under a label, next to families that entities do not
have. -/
def neighbours : Row := ⟨"u", .ofList [(tagColumn, ⟨.unrestricted, Utf8.encode "entity"⟩),
  (⟨"\x00other", "class"⟩, ⟨.unrestricted, [0]⟩), (⟨"item", ""⟩, ⟨⟨"ops"⟩, [0xFF]⟩),
  (⟨"meta", "k"⟩, ⟨.unrestricted, [0x76]⟩), (⟨"metadata", "k"⟩, ⟨⟨"ops"⟩, [0xFF]⟩)]⟩

/-- An entity is read out of a row with families that entities do not have; these are left over with
their labels and bytes.  As a log record the row is refused, and stays as it is. -/
theorem decodeWithRest_accounts_neighbours :
    ∃ rest, (Codec.standard default).decodeWithRest neighbours = .ok
        (.entity ⟨some "u", .ofList [("k", "v")], .ofList [("", "\uFFFD")]⟩, rest) ∧
      (Codec.standard default).Accounts neighbours
        (.entity ⟨some "u", .ofList [("k", "v")], .ofList [("", "\uFFFD")]⟩) rest ∧
      rest.cells.get? ⟨"metadata", "k"⟩ = some ⟨⟨"ops"⟩, [0xFF]⟩ ∧
      ((Handler.ofKind .logRecord).ofRow default neighbours).2 = neighbours := by
  obtain ⟨-, hok, hplace, -, hrefused⟩ :=
    decodeWithRest_accounts (Codec.standard default) neighbours
  have hdecode : (Codec.standard default).decodeWithRest neighbours = .ok
      (.entity ⟨some "u", .ofList [("k", "v")], .ofList [("", "\uFFFD")]⟩,
        ⟨"u", .ofList [(⟨"\x00other", "class"⟩, ⟨.unrestricted, [0]⟩),
          (⟨"metadata", "k"⟩, ⟨⟨"ops"⟩, [0xFF]⟩)]⟩) := by rfl
  refine ⟨_, hdecode, (hok _ _).1 hdecode, ?_, hrefused .logRecord default neighbours _ _ rfl⟩
  rcases hplace _ _ hdecode ⟨"metadata", "k"⟩ ⟨⟨"ops"⟩, [0xFF]⟩ rfl with
    ⟨htag, -⟩ | ⟨-, htext, -⟩ | ⟨-, -, hrest⟩
  · exact absurd htag (by decide)
  · exact absurd htext (by decide)
  · exact hrest

end Codec

end TaggedRows
