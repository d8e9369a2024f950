import TaggedRows.Stream.Cursor

/-!
# Stores

What a sorted store of cells offers: scans of a range of rows, and writes of several rows that
succeed or fail as a whole.  On top of the scan every store offers rows folded into one value each.
-/

namespace TaggedRows

/-- A sorted store of cells. -/
class Store (σ : Type) where
  /-- The cells of the rows in a range, ascending. -/
  scan : σ → RowRange → Except TableError CellStream
  /-- Write rows; all are written, or the write fails. -/
  write : σ → List (List Cell) → Except TableError Unit × σ

/-- The rows of a cursor, each under its id as one value. -/
def foldRows (c : Cursor) : Except TableError (List (String × Bytes)) :=
  match _h : c.nextRow.1 with
  | .error e => .error e
  | .ok none => .ok []
  | .ok (some row) => do
    let bytes ← (FoldedRow.encode row).mapError .malformedFrame
    let rows ← foldRows c.nextRow.2
    pure ((row.id, bytes) :: rows)
termination_by c.size
decreasing_by exact Cursor.size_nextRow_lt _h

/-- The rows in a range, each under its id as one value. -/
def Store.scanFolded [Store σ] (store : σ) (range : RowRange) :
    Except TableError (List (String × Bytes)) := do
  foldRows { rest := ← Store.scan store range }

end TaggedRows
