import TaggedRows.Cell
import TaggedRows.Json.Fields
import TaggedRows.RowRange

/-!
# Cells and ranges in JSON
-/

namespace TaggedRows

open Json

namespace Label

/-- A label as JSON. -/
def toJson (l : Label) : Json := ofText l.text

/-- Read a label. -/
def ofJson? (j : Json) : Option Label := j.text?.map Label.mk

end Label

namespace Column

/-- A column as JSON. -/
def toJson (c : Column) : Json :=
  ofMembers [("family", ofText c.family), ("qualifier", ofText c.qualifier)]

/-- Read a column. -/
def ofJson? (j : Json) : Option Column := do
  match (← j.fields? [["family"], ["qualifier"]]).values with
  | [family, qualifier] => pure ⟨← required text? family, ← required text? qualifier⟩
  | _ => none

end Column

namespace Content

/-- A content as JSON. -/
def toJson (c : Content) : Json :=
  ofMembers [("visibility", c.label.toJson), ("value", ofBytes c.bytes)]

/-- Read a content. -/
def ofJson? (j : Json) : Option Content := do
  match (← j.fields? [["visibility"], ["value"]]).values with
  | [label, bytes] => pure ⟨← required Label.ofJson? label, ← required bytes? bytes⟩
  | _ => none

end Content

namespace Cell

/-- A cell as JSON. -/
def toJson (c : Cell) : Json :=
  ofMembers [("row", ofText c.row), ("family", ofText c.column.family),
    ("qualifier", ofText c.column.qualifier), ("visibility", c.content.label.toJson),
    ("value", ofBytes c.content.bytes)]

/-- Read a cell; without a label everyone may read it. -/
def ofJson? (j : Json) : Option Cell := do
  match (← j.fields? [["row"], ["family"], ["qualifier"], ["visibility"], ["value"]]).values with
  | [row, family, qualifier, label, bytes] =>
    pure ⟨← required text? row, ⟨← required text? family, ← required text? qualifier⟩,
      ⟨← withDefault .unrestricted Label.ofJson? label, ← required bytes? bytes⟩⟩
  | _ => none

end Cell

namespace Bound

/-- One end of a range as JSON. -/
def toJson : Bound → Json
  | unbounded => ofText "Unbounded"
  | included row => ofMembers [("Included", ofText row)]
  | excluded row => ofMembers [("Excluded", ofText row)]

/-- Read one end of a range. -/
def ofJson? (j : Json) : Option Bound := do
  let (name, payload) ← j.choice?
  if name = "Unbounded" then (if isBare payload then some unbounded else none)
  else if name = "Included" then (required text? payload).map included
  else if name = "Excluded" then (required text? payload).map excluded
  else none

end Bound

namespace RowRange

/-- A range as JSON. -/
def toJson (r : RowRange) : Json := ofMembers [("start", r.start.toJson), ("end", r.stop.toJson)]

/-- Read a range. -/
def ofJson? (j : Json) : Option RowRange := do
  match (← j.fields? [["start"], ["end"]]).values with
  | [start, stop] => pure ⟨← required Bound.ofJson? start, ← required Bound.ofJson? stop⟩
  | _ => none

end RowRange

end TaggedRows
