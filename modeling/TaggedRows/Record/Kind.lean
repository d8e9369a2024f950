/-!
# Kinds of records

The closed set of kinds that rows are persisted for, and what can be wrong with a record or with
the row it is read from.
-/

namespace TaggedRows

/-- What a record is. -/
inductive RecordKind where
  | entity
  | logRecord
deriving DecidableEq, Ord

namespace RecordKind

instance : Std.TransOrd RecordKind where
  eq_swap {a b} := by cases a <;> cases b <;> rfl
  isLE_trans {a b c} := by cases a <;> cases b <;> cases c <;> decide

instance : Std.LawfulEqOrd RecordKind where
  eq_of_compare {a b} h := by cases a <;> cases b <;> first | rfl | cases h

/-- The kind in a message. -/
def text : RecordKind → String
  | .entity => "entity"
  | .logRecord => "log record"

/-- The kind's own tag, used where no other is registered. -/
def tag : RecordKind → String
  | .entity => "entity"
  | .logRecord => "log_record"

end RecordKind

/-- What can be wrong with a record, or with a row as the row of a record. -/
inductive RecordError where
  | missingEntityId
  | emptyUuid
  | malformedRowKey (row : String)
  | kindMismatch (expected actual : RecordKind)
deriving DecidableEq

/-- The text of the error. -/
def RecordError.message : RecordError → String
  | .missingEntityId => "invalid record: entity id cannot be empty"
  | .emptyUuid => "invalid record: log record uuid cannot be empty"
  | .malformedRowKey row => "malformed row key: " ++ row
  | .kindMismatch expected actual =>
    "expected a " ++ expected.text ++ " record, got " ++ actual.text

end TaggedRows
