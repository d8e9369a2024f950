import TaggedRows.Ingest.EventTable

/-!
# Event intakes

The way of log records into an event table: each record is encoded, and its row waits in a buffer.
If the store rejects a batch, the intake starts over without rows.
-/

namespace TaggedRows

/-- The way of log records into an event table. -/
structure Intake where
  table : String
  codec : Codec
  buffer : RowBuffer
  /-- The number of records taken in without an error. -/
  accepted : Nat := 0
deriving DecidableEq

namespace Intake

/-- The intake of a table. -/
def make (table : EventTable) : Except TableError Intake := do
  table.validate
  let codec ← table.codec
  pure { table := table.name, codec, buffer := { limits := table.limits } }

/-- The number of rows that wait. -/
def pendingRows (i : Intake) : Nat := i.buffer.pending.length

variable [Store σ]

/-- Take a record in, and give the id of its row. -/
def accept (i : Intake) (store : σ) (record : LogRecord) (arrival now : Nat) :
    Except TableError String × Intake × σ :=
  match i.codec.encodeAs record with
  | .error e => (.error e, i, store)
  | .ok cells =>
    match i.buffer.addRow store cells arrival now with
    | (.ok (), buffer, store) =>
      let row := (cells.head?.map Cell.row).getD ""
      (.ok row, { i with buffer, accepted := i.accepted + 1 }, store)
    | (.error e, buffer, store) => (.error e, { i with buffer := buffer.discard.2 }, store)

/-- Write the rows that wait. -/
def flush (i : Intake) (store : σ) : Except TableError Unit × Intake × σ :=
  let (result, buffer, store) := i.buffer.flush store
  (result, { i with buffer }, store)

/-- Write if a row has waited for as long as rows may, and say whether. -/
def flushStale (i : Intake) (store : σ) (now : Nat) : Except TableError Bool × Intake × σ :=
  let (result, buffer, store) := i.buffer.flushStale store now
  (result, { i with buffer }, store)

/-- Let the intake go: the rows that wait are written, and a failure of that stays hidden. -/
def release (i : Intake) (store : σ) : σ := i.buffer.release store

/-- Close the intake: the rows that wait are written, and what is left is let go. -/
def close (i : Intake) (store : σ) : Except TableError Unit × σ :=
  let (result, i, store) := i.flush store
  (result, i.release store)

end Intake

end TaggedRows
