import TaggedRows.Schema.Cell
import TaggedRows.Proofs.Json.Fields
import TaggedRows.Proofs.Json.Reading

/-!
# Cells read back from JSON

A cell is read back from its JSON (`Cell.ofJson?_toJson`), and from the text of its JSON.
-/

namespace TaggedRows

open Json

namespace Cell

theorem fields?_toJson (c : Cell) :
    c.toJson.fields? [["row"], ["family"], ["qualifier"], ["visibility"], ["value"]] =
      some ⟨true, [some (ofText c.row), some (ofText c.column.family),
        some (ofText c.column.qualifier), some c.content.label.toJson,
        some (ofBytes c.content.bytes)]⟩ :=
  fields?_ofMembers
    (show List.Nodup ["row", "family", "qualifier", "visibility", "value"] by decide)

/-- A cell is read back from its JSON. -/
theorem ofJson?_toJson (c : Cell) : ofJson? c.toJson = some c := by
  rw [ofJson?, fields?_toJson]
  show (do
    let bytes ← (ofBytes c.content.bytes).bytes?
    pure (⟨c.row, c.column, ⟨c.content.label, bytes⟩⟩ : Cell)) = _
  rw [bytes?_ofBytes]
  rfl

theorem allLeaves_toJson (c : Cell) : c.toJson.allLeaves Numeral.isWritten = true := by
  have hbytes : (ofBytes c.content.bytes).allLeaves Numeral.isWritten = true :=
    allLeaves_ofBytes fun _ => rfl
  rw [toJson, allLeaves_ofMembers]
  simp only [List.all_cons, List.all_nil, hbytes]
  rfl

theorem read?_text_toJson (c : Cell) : (Json.read? c.toJson.text).bind ofJson? = some c := by
  rw [read?_text c.allLeaves_toJson]
  exact c.ofJson?_toJson

end Cell

end TaggedRows
