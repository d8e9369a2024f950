import TaggedRows.Store.Basic

/-!
# Row buffers

A row buffer collects rows and writes them to a store together, once they take up enough memory or
the oldest has waited long enough.  A batch that the store rejects is dropped and not tried again.

The store stands beside the buffer, so that several buffers may share one, and the clock stands
outside: an operation that looks at it is given its readings in milliseconds.
-/

namespace TaggedRows

/-- How much a row buffer collects before it writes. -/
structure BufferLimits where
  /-- Write once the rows take up this many bytes. -/
  maxBytes : Nat := 52428800
  /-- Write once the oldest row has waited this long. -/
  maxWaitMillis : Nat := 120000
deriving DecidableEq

/-- Rows that wait to be written. -/
structure RowBuffer where
  limits : BufferLimits
  /-- The rows that wait, oldest first. -/
  pending : List (List Cell) := []
  /-- The size of the rows that wait. -/
  pendingBytes : Nat := 0
  /-- When the oldest of the rows that wait came in. -/
  oldest : Option Nat := none
  /-- The number of rows written so far. -/
  rowsWritten : Nat := 0
deriving DecidableEq

namespace RowBuffer

/-- Whether a row has waited for as long as rows may. -/
def isStale (b : RowBuffer) (now : Nat) : Bool :=
  match b.oldest with
  | some since => decide (b.limits.maxWaitMillis ≤ now - since)
  | none => false

/-- Whether the rows take up as much memory as they may. -/
def isFull (b : RowBuffer) : Bool := b.limits.maxBytes ≤ b.pendingBytes

/-- Take up a row that comes in at a time. -/
def enqueue (b : RowBuffer) (row : List Cell) (arrival : Nat) : RowBuffer :=
  { b with
    pending := b.pending ++ [row]
    pendingBytes := b.pendingBytes + Cell.sizeSum row
    oldest := some (b.oldest.getD arrival) }

/-- The buffer without rows that wait. -/
def clear (b : RowBuffer) : RowBuffer := { b with pending := [], pendingBytes := 0, oldest := none }

/-- Drop the rows that wait, and count them. -/
def discard (b : RowBuffer) : Nat × RowBuffer := (b.pending.length, b.clear)

variable [Store σ]

/-- Write the rows that wait.  None waits afterwards, whether the store took them or not. -/
def flush (b : RowBuffer) (store : σ) : Except TableError Unit × RowBuffer × σ :=
  if b.pending = [] then (.ok (), b, store)
  else
    match Store.write store b.pending with
    | (.ok (), store) =>
      (.ok (), { b.clear with rowsWritten := b.rowsWritten + b.pending.length }, store)
    | (.error e, store) => (.error e, b.clear, store)

/-- Add a row, and write if a limit is reached.  A row without cells is none.  The clock is read
when the row comes in and again for the check of its age. -/
def addRow (b : RowBuffer) (store : σ) (row : List Cell) (arrival now : Nat) :
    Except TableError Unit × RowBuffer × σ :=
  if row = [] then (.ok (), b, store)
  else
    let b := b.enqueue row arrival
    if b.isFull || b.isStale now then b.flush store else (.ok (), b, store)

/-- Write if a row has waited for as long as rows may, and say whether. -/
def flushStale (b : RowBuffer) (store : σ) (now : Nat) : Except TableError Bool × RowBuffer × σ :=
  if b.isStale now then
    let (result, rest) := b.flush store
    (result.map fun _ => true, rest)
  else (.ok false, b, store)

/-- Let the buffer go: the rows that wait are written, and a failure of that stays hidden. -/
def release (b : RowBuffer) (store : σ) : σ := (b.flush store).2.2

/-- Close the buffer: the rows that wait are written, and what is left is let go. -/
def close (b : RowBuffer) (store : σ) : Except TableError Unit × σ :=
  let (result, b, store) := b.flush store
  (result, b.release store)

end RowBuffer

end TaggedRows
