import TaggedRows.Record.Basic
import TaggedRows.Text.Blank

/-!
# Label policies

How the one label of a row's cells is chosen.
-/

namespace TaggedRows

open TaggedRows.Text

/-- How the label of a row is chosen. -/
inductive LabelPolicy where
  /-- Everyone may read every row. -/
  | unrestricted
  /-- Every row has the same label. -/
  | fixed (label : Label)
  /-- The label is the value of a field; everyone may read rows without that field, or with a blank
  value there. -/
  | byField (name : String)
deriving DecidableEq

namespace LabelPolicy

instance : Inhabited LabelPolicy := ⟨unrestricted⟩

/-- A setting without the white space at its ends, unless it is blank. -/
def nonBlank? (setting : Option String) : Option String := (setting.map trim).filter (· ≠ "")

/-- The policy of two optional settings: a label wins over the name of a field, and blank settings
do not count. -/
def ofSettings (label fieldName : Option String) : LabelPolicy :=
  match nonBlank? label with
  | some label => fixed ⟨label⟩
  | none =>
    match nonBlank? fieldName with
    | some name => byField name
    | none => unrestricted

/-- The label for a record with the given fields. -/
def labelFor (policy : LabelPolicy) (field? : String → Option String) : Label :=
  match policy with
  | unrestricted => .unrestricted
  | fixed label => label
  | byField name =>
    match field? name with
    | some value => if isBlank value then .unrestricted else ⟨value⟩
    | none => .unrestricted

end LabelPolicy

end TaggedRows
