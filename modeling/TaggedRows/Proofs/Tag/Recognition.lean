import TaggedRows.Proofs.Tag.History
import TaggedRows.Proofs.Text.Utf8
import TaggedRows.Tag.Codec

/-!
# What the bytes of a tag cell select

The bytes of a tag cell are read as text before the text is looked up, and where they spell no text
U+FFFD stands in for what is wrong with them.  A tag cell therefore selects the tag that its bytes
are **read as** (`Codec.Selects`).

* Every tag is selected by its own bytes (`Codec.selects_encode`).
* **A tag without U+FFFD is selected by no others** (`Codec.selects_iff_of_not_mem`), so in a
  registry of such tags the bytes name the tag exactly.
* **A tag with U+FFFD is selected by others too**, which spell no text
  (`Codec.exists_selects_illFormed`).  Two tag cells with different bytes can then select one tag.
-/

namespace TaggedRows.Codec

open TaggedRows.Text

variable {codec : Codec} {bytes : Bytes} {tag : String} {kind : RecordKind}

/-- The bytes select a tag: it is registered for the kind, and it is the text that the bytes are
read as. -/
structure Selects (codec : Codec) (bytes : Bytes) (tag : String) (kind : RecordKind) : Prop where
  registered : codec.registry.kindOf? tag = some kind
  text : Utf8.decodeLossy bytes = tag

/-! ## Looking tags up -/

theorem kindOfTag_eq_ok_iff {row : String} :
    codec.kindOfTag row bytes = .ok kind ↔ ∃ tag, codec.Selects bytes tag kind := by
  have hlookup : codec.kindOfTag row bytes = .ok kind ↔
      codec.registry.kindOf? (Utf8.decodeLossy bytes) = some kind := by
    rw [kindOfTag]
    cases codec.registry.kindOf? (Utf8.decodeLossy bytes) with
    | none => simp
    | some found => simp
  rw [hlookup]
  constructor
  · intro h
    exact ⟨_, h, rfl⟩
  · rintro ⟨tag, hregistered, rfl⟩
    exact hregistered

/-- A cell is recognized if it is a tag cell whose bytes select a tag. -/
theorem recognize_eq_ok_iff {cell : Cell} : codec.recognize cell = .ok kind ↔
    cell.isTag = true ∧ ∃ tag, codec.Selects cell.content.bytes tag kind := by
  rw [recognize]
  by_cases htag : cell.isTag = true
  · rw [if_pos htag, kindOfTag_eq_ok_iff]
    simp [htag]
  · rw [if_neg htag]
    simp [htag]

/-- A row is of a kind if its lowest cell is a tag cell whose bytes select a tag. -/
theorem kindOfRow_eq_ok_iff {row : Row} : codec.kindOfRow row = .ok kind ↔
    ∃ content, row.first? = some (tagColumn, content) ∧
      ∃ tag, codec.Selects content.bytes tag kind := by
  rw [kindOfRow]
  cases hfirst : row.first? with
  | none => simp
  | some entry =>
    obtain ⟨column, content⟩ := entry
    by_cases hcolumn : column = tagColumn
    · simp [hcolumn, kindOfTag_eq_ok_iff]
    · simp [hcolumn]

/-! ## The bytes of a tag -/

theorem selects_encode (h : codec.registry.kindOf? tag = some kind) :
    codec.Selects (Utf8.encode tag) tag kind := ⟨h, Utf8.decodeLossy_encode tag⟩

theorem selects_iff_of_not_mem (h : '\uFFFD' ∉ tag.toList) : codec.Selects bytes tag kind ↔
    codec.registry.kindOf? tag = some kind ∧ bytes = Utf8.encode tag := by
  rw [← Utf8.decodeLossy_eq_iff h]
  exact ⟨fun h => ⟨h.registered, h.text⟩, fun h => ⟨h.1, h.2⟩⟩

/-- Bytes that select a tag and are not its own spell no text, and the tag holds U+FFFD. -/
theorem Selects.illFormed (h : codec.Selects bytes tag kind) (hne : bytes ≠ Utf8.encode tag) :
    '\uFFFD' ∈ tag.toList ∧ Utf8.decode? bytes = none := by
  obtain rfl := h.text
  refine ⟨Utf8.mem_decodeLossy_of_ne hne, ?_⟩
  cases hdecode : Utf8.decode? bytes with
  | none => rfl
  | some s =>
    obtain rfl := Utf8.decode?_eq_some_iff.1 hdecode
    rw [Utf8.decodeLossy_encode] at hne
    exact absurd rfl hne

theorem exists_selects_illFormed (hregistered : codec.registry.kindOf? tag = some kind)
    (h : '\uFFFD' ∈ tag.toList) :
    ∃ bytes, Utf8.decode? bytes = none ∧ codec.Selects bytes tag kind := by
  obtain ⟨bytes, hdecode, htext⟩ := Utf8.exists_illFormed h
  exact ⟨bytes, hdecode, hregistered, htext⟩

/-! ## Main result -/

/-- What the bytes of tag cells select.  A tag cell, or a row with a tag cell as its lowest, is
recognized exactly if the bytes select a tag, and is of the kind that this tag stands for.  Every tag
is selected by its own bytes.  Other bytes select it only if it holds U+FFFD, and then some do; they
spell no text.  So if no tag holds U+FFFD, bytes are recognized exactly if they are the bytes of a
tag, and different bytes never select the same tag. -/
theorem recognize_selects (codec : Codec) :
    (∀ cell kind, codec.recognize cell = .ok kind ↔
      cell.isTag = true ∧ ∃ tag, codec.Selects cell.content.bytes tag kind) ∧
    (∀ row kind, codec.kindOfRow row = .ok kind ↔ ∃ content,
      row.first? = some (tagColumn, content) ∧ ∃ tag, codec.Selects content.bytes tag kind) ∧
    (∀ tag kind, codec.registry.kindOf? tag = some kind →
      codec.Selects (Utf8.encode tag) tag kind ∧
        (∀ bytes, codec.Selects bytes tag kind → bytes ≠ Utf8.encode tag →
          '\uFFFD' ∈ tag.toList ∧ Utf8.decode? bytes = none) ∧
        ('\uFFFD' ∈ tag.toList →
          ∃ bytes, Utf8.decode? bytes = none ∧ codec.Selects bytes tag kind)) ∧
    ((∀ tag ∈ codec.registry.tags, '\uFFFD' ∉ tag.toList) →
      (∀ cell kind, codec.recognize cell = .ok kind ↔ cell.isTag = true ∧
        ∃ tag, codec.registry.kindOf? tag = some kind ∧ cell.content.bytes = Utf8.encode tag) ∧
      ∀ bytes bytes' tag kind kind', bytes ≠ bytes' → codec.Selects bytes tag kind →
        ¬ codec.Selects bytes' tag kind') := by
  refine ⟨fun _ _ => recognize_eq_ok_iff, fun _ _ => kindOfRow_eq_ok_iff, ?_, ?_⟩
  · intro tag kind hregistered
    exact ⟨selects_encode hregistered, fun _ => Selects.illFormed,
      exists_selects_illFormed hregistered⟩
  · intro hplain
    have hselects : ∀ {bytes tag kind}, codec.Selects bytes tag kind ↔
        codec.registry.kindOf? tag = some kind ∧ bytes = Utf8.encode tag := by
      intro bytes tag kind
      constructor
      · intro h
        have hmem : tag ∈ codec.registry.tags := Registry.mem_tags_iff.2 ⟨kind, h.registered⟩
        exact (selects_iff_of_not_mem (hplain tag hmem)).1 h
      · rintro ⟨hregistered, rfl⟩
        exact selects_encode hregistered
    constructor
    · intro cell kind
      simp only [recognize_eq_ok_iff, hselects]
    · intro bytes bytes' tag kind kind' hne h h'
      exact hne ((hselects.1 h).2.trans (hselects.1 h').2.symm)

/-- No kind has U+FFFD in the tag that it has from the start, so a byte that spells no text is not
recognized. -/
theorem recognize_selects_standard :
    (∀ tag ∈ (standard default).registry.tags, '\uFFFD' ∉ tag.toList) ∧
      (standard default).recognize (tagCell "r" "log_record") = .ok .logRecord ∧
      ¬ (standard default).Selects [0xFF] "log_record" .logRecord := by
  have hplain : ∀ tag ∈ (standard default).registry.tags, '\uFFFD' ∉ tag.toList := by decide
  obtain ⟨-, -, -, hexact⟩ := recognize_selects (standard default)
  obtain ⟨hrecognize, hdifferent⟩ := hexact hplain
  exact ⟨hplain, (hrecognize _ _).2 ⟨rfl, "log_record", rfl, rfl⟩,
    hdifferent (Utf8.encode "log_record") [0xFF] _ .logRecord .logRecord (by decide)
      (selects_encode rfl)⟩

/-- Two bytes, neither of which spells any text, are both recognized as the registered tag U+FFFD. -/
theorem recognize_selects_illFormed :
    let codec : Codec := ⟨Registry.empty.registerAll [("\uFFFD", .entity)], default, .unrestricted⟩
    codec.registry.tags = ["\uFFFD"] ∧
      codec.recognize ⟨"r", tagColumn, ⟨.unrestricted, [0xFF]⟩⟩ = .ok .entity ∧
      codec.recognize ⟨"r", tagColumn, ⟨.unrestricted, [0xFE]⟩⟩ = .ok .entity ∧
      ∀ tag ∈ codec.registry.tags, [0xFF] ≠ Utf8.encode tag ∧ [0xFE] ≠ Utf8.encode tag := by
  intro codec
  exact ⟨rfl, rfl, rfl, by decide⟩

end TaggedRows.Codec
