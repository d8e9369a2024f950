import TaggedRows.Proofs.Tag.Decoding
import TaggedRows.Proofs.Tag.Registry

/-!
# Codecs that learn tags

A codec that learns further tags goes on to read and to write what it could before
(`Codec.registerAll_compatible`), whatever the calls register and whichever of them fail.  Only a
row whose tag was unknown may be read in another way.

Reading needs that known tags stay known: what accounts for a row, and what refuses it, then does so
still (`Codec.Accounts.registerAll`, `Codec.Refuses.registerAll`).  Writing needs more.  A codec
that has a tag for a kind looks up the handler under that tag, so the tag has to stand for some
kind, now and not only later; in a registry that calls can make it stands for that very kind.
-/

namespace TaggedRows.Codec

variable {codec : Codec} {row rest : Row} {record : Record} {e : TableError}

/-- The codec after calls to register tags, of which some may fail. -/
def registerAll (codec : Codec) (calls : List (String × RecordKind)) : Codec :=
  { codec with registry := codec.registry.registerAll calls }

variable (calls : List (String × RecordKind))

theorem extendedBy_registerAll (codec : Codec) :
    codec.registry.ExtendedBy (codec.registerAll calls).registry :=
  codec.registry.extendedBy_registerAll calls

/-! ## Reading -/

/-- What accounts for a row does so when more tags are known. -/
theorem Accounts.registerAll (h : codec.Accounts row record rest) :
    (codec.registerAll calls).Accounts row record rest where
  tag := by
    obtain ⟨content, hfirst, hkind⟩ := h.tag
    exact ⟨content, hfirst, (extendedBy_registerAll calls codec).kindOf? hkind⟩
  identity := h.identity
  texts := h.texts
  id := h.id
  cells := h.cells

/-- A row that is refused for another reason than its tag is refused when more tags are known. -/
theorem Refuses.registerAll (h : codec.Refuses row e) (hknown : ∀ id tag, e ≠ .unknownTag id tag) :
    (codec.registerAll calls).Refuses row e := by
  cases h with
  | missingTag hfirst => exact .missingTag hfirst
  | unknownTag => exact absurd rfl (hknown _ _)
  | malformedKey hfirst hkind hkey =>
    exact .malformedKey hfirst ((extendedBy_registerAll calls codec).kindOf? hkind) hkey

theorem decodeWithRest_registerAll
    (h : ∀ id tag, codec.decodeWithRest row ≠ .error (.unknownTag id tag)) :
    (codec.registerAll calls).decodeWithRest row = codec.decodeWithRest row := by
  rcases codec.accounts_or_refuses row with ⟨record, rest, haccounts⟩ | ⟨e, hrefuses⟩
  · rw [haccounts.decodeWithRest_eq, (haccounts.registerAll calls).decodeWithRest_eq]
  · rw [hrefuses.decodeWithRest_eq] at h ⊢
    have hknown : ∀ id tag, e ≠ .unknownTag id tag := by
      intro id tag he
      exact h id tag (congrArg _ he)
    exact (hrefuses.registerAll calls hknown).decodeWithRest_eq

theorem decode_registerAll (h : ∀ id tag, codec.decode row ≠ .error (.unknownTag id tag)) :
    (codec.registerAll calls).decode row = codec.decode row := by
  have hrest : ∀ id tag, codec.decodeWithRest row ≠ .error (.unknownTag id tag) := by
    intro id tag herror
    refine h id tag ?_
    rw [decode, herror]
    rfl
  rw [decode, decode, decodeWithRest_registerAll calls hrest]

/-! ## Writing -/

/-- A kind that has a tag is written by the same handler, under the same tag. -/
theorem writer_registerAll (h : codec.registry.Reachable) {kind : RecordKind}
    (hkind : codec.registry.tagOf? kind ≠ none) :
    (codec.registerAll calls).writer kind = codec.writer kind := by
  obtain ⟨tag, htag⟩ := Option.ne_none_iff_exists'.1 hkind
  have hwrites : codec.WritesUnder kind tag := ⟨htag, h.coherent kind tag htag⟩
  have hafter : (codec.registerAll calls).WritesUnder kind tag :=
    ⟨(extendedBy_registerAll calls codec).tagOf? hwrites.1,
      (extendedBy_registerAll calls codec).kindOf? hwrites.2⟩
  rw [writer_of_writesUnder hwrites, writer_of_writesUnder hafter]

theorem encode_registerAll (h : codec.registry.Reachable)
    (hkind : codec.registry.tagOf? record.kind ≠ none) :
    (codec.registerAll calls).encode record = codec.encode record := by
  unfold encode
  rw [writer_registerAll calls h hkind]
  rfl

theorem encodeAs_registerAll {ρ : Type} [Persistent ρ] (record : ρ)
    (hkind : codec.registry.tagOf? (Persistent.kind ρ) ≠ none) :
    (codec.registerAll calls).encodeAs record = codec.encodeAs record := by
  obtain ⟨tag, htag⟩ := Option.ne_none_iff_exists'.1 hkind
  unfold encodeAs
  rw [htag, (extendedBy_registerAll calls codec).tagOf? htag]
  rfl

/-! ## Main result -/

/-- Registering further tags changes nothing for what a codec could read and write before.

Every row that it decoded, or refused for another reason than an unknown tag, it decodes or refuses
as before.  Every record whose kind had a tag is written as before, as a record of any kind and as
one of its own. -/
theorem registerAll_compatible (h : codec.registry.Reachable) :
    (∀ row, (∀ id tag, codec.decodeWithRest row ≠ .error (.unknownTag id tag)) →
      (codec.registerAll calls).decodeWithRest row = codec.decodeWithRest row) ∧
    (∀ row, (∀ id tag, codec.decode row ≠ .error (.unknownTag id tag)) →
      (codec.registerAll calls).decode row = codec.decode row) ∧
    (∀ record, codec.registry.tagOf? record.kind ≠ none →
      (codec.registerAll calls).encode record = codec.encode record) ∧
    ∀ (ρ : Type) [Persistent ρ] (record : ρ),
      codec.registry.tagOf? (Persistent.kind ρ) ≠ none →
        (codec.registerAll calls).encodeAs record = codec.encodeAs record := by
  refine ⟨?_, ?_, ?_, ?_⟩
  · intro row hrow
    exact decodeWithRest_registerAll calls hrow
  · intro row hrow
    exact decode_registerAll calls hrow
  · intro record hkind
    exact encode_registerAll calls h hkind
  · intro ρ _ record hkind
    exact encodeAs_registerAll calls record hkind

/-- The codec of entities alone, under the tag that is otherwise the one of log records. -/
def borrowedTag : Codec where
  registry := Registry.empty.registerAll [("log_record", .entity)]
  keys := default

/-- Calls that fail for want of a free tag and for want of a tag, and others that put tags in
place. -/
def laterCalls : List (String × RecordKind) :=
  [("log_record", .logRecord), ("", .logRecord), ("entity", .logRecord), ("item", .entity)]

/-- Log records do not get their tag back but the one that is otherwise the one of entities.  An
entity is written and read under its first tag as before. -/
theorem registerAll_compatible_borrowedTag :
    (borrowedTag.registerAll laterCalls).registry.tagOf? .logRecord = some "entity" ∧
      (borrowedTag.registerAll laterCalls).encode (.entity { id := some "a" }) =
        .ok [tagCell "a" "log_record"] ∧
      (borrowedTag.registerAll laterCalls).encodeAs ({ id := some "a" } : Entity) =
        .ok [tagCell "a" "log_record"] ∧
      (borrowedTag.registerAll laterCalls).decode (.ofRun (tagCell "a" "log_record") []) =
        .ok (.entity { id := some "a" }) := by
  have hreachable : borrowedTag.registry.Reachable := ⟨.empty, _, .inl rfl, rfl⟩
  have htag : borrowedTag.registry.tagOf? .entity ≠ none := by decide
  have hdecode : borrowedTag.decode (.ofRun (tagCell "a" "log_record") []) =
      .ok (.entity { id := some "a" }) := by rfl
  have hcells : tagged "a" "log_record" [] = [tagCell "a" "log_record"] := by
    rw [tagged, Cell.sort, List.mergeSort_nil]
  obtain ⟨-, hread, hwrite, hwriteAs⟩ := registerAll_compatible laterCalls hreachable
  refine ⟨by decide, ?_, ?_, ?_⟩
  · rw [hwrite (.entity { id := some "a" }) htag, ← hcells]
    rfl
  · rw [hwriteAs Entity _ htag, ← hcells]
    rfl
  · rw [hread _ (by simp [hdecode]), hdecode]

end TaggedRows.Codec
