import TaggedRows.Error

/-!
# Cell cursors

A stream of cells with one cell of lookahead.  Where a row ends shows only once the first cell of
the next row has been read; the cursor keeps that cell, so that the next reading starts with it.

An item of a stream may be an error of the store in place of a cell.  Such an error is handed out
once and not kept.

Main statements:

* `size_peek`, `size_next_lt`, `size_nextRow_lt`: looking ahead consumes no cell, and taking a cell
  or a row consumes some.
-/

namespace TaggedRows

/-- What a scan yields: cells, or errors of the store in their place. -/
abbrev CellStream := List (Except TableError Cell)

/-- A stream of cells with at most one cell of lookahead. -/
structure Cursor where
  rest : CellStream
  held : Option Cell := none

namespace Cursor

/-- A cursor over cells at hand. -/
def ofCells (cells : List Cell) : Cursor := { rest := cells.map .ok }

/-- The number of items not yet taken. -/
def size (c : Cursor) : Nat := c.rest.length + if c.held.isSome then 1 else 0

/-! ## Cells -/

/-- The next cell, which stays next. -/
def peek (c : Cursor) : Except TableError (Option Cell) × Cursor :=
  match c.held, c.rest with
  | some cell, _ => (.ok (some cell), c)
  | none, [] => (.ok none, c)
  | none, .ok cell :: rest => (.ok (some cell), ⟨rest, some cell⟩)
  | none, .error e :: rest => (.error e, ⟨rest, none⟩)

/-- Take the next cell. -/
def next (c : Cursor) : Except TableError (Option Cell) × Cursor :=
  match c.held, c.rest with
  | some cell, rest => (.ok (some cell), ⟨rest, none⟩)
  | none, [] => (.ok none, c)
  | none, .ok cell :: rest => (.ok (some cell), ⟨rest, none⟩)
  | none, .error e :: rest => (.error e, ⟨rest, none⟩)

/-- Whether no cell remains. -/
def atEnd (c : Cursor) : Except TableError Bool × Cursor :=
  let (cell, c) := c.peek
  (cell.map Option.isNone, c)

/-! ## Rows -/

/-- Take the cells that continue a row, up to the first cell of another. -/
def takeRow (row : Row) : CellStream → Except TableError Row × Cursor
  | [] => (.ok row, ⟨[], none⟩)
  | .error e :: rest => (.error e, ⟨rest, none⟩)
  | .ok cell :: rest =>
    if cell.row = row.id then takeRow (row.add cell) rest
    else (.ok row, ⟨rest, some cell⟩)

/-- Take the next row. -/
def nextRow (c : Cursor) : Except TableError (Option Row) × Cursor :=
  match c.next with
  | (.error e, c) => (.error e, c)
  | (.ok none, c) => (.ok none, c)
  | (.ok (some cell), c) =>
    let (row, c) := takeRow ((Row.empty cell.row).add cell) c.rest
    (row.map some, c)

/-! ## Sizes -/

theorem size_peek (c : Cursor) : c.peek.2.size ≤ c.size := by
  obtain ⟨rest, held⟩ := c
  unfold peek
  split <;> simp_all [size]

theorem size_next_lt {c : Cursor} {cell : Cell} (h : c.next.1 = .ok (some cell)) :
    c.next.2.size < c.size := by
  obtain ⟨rest, held⟩ := c
  unfold next at h ⊢
  split at h <;> simp_all [size]

theorem held_next (c : Cursor) : c.next.2.held = none := by
  obtain ⟨rest, held⟩ := c
  unfold next
  split <;> simp_all

theorem size_takeRow (row : Row) (rest : CellStream) : (takeRow row rest).2.size ≤ rest.length := by
  induction rest generalizing row with
  | nil => simp [takeRow, size]
  | cons item rest ih =>
    cases item with
    | error e => simp [takeRow, size]
    | ok cell =>
      rw [takeRow]
      split
      · exact Nat.le_succ_of_le (ih _)
      · simp [size]

theorem size_nextRow_lt {c : Cursor} {row : Row} (h : c.nextRow.1 = .ok (some row)) :
    c.nextRow.2.size < c.size := by
  unfold nextRow at h ⊢
  split at h
  · cases h
  · cases h
  · rename_i cell c' hn
    have hlt : c.next.2.size < c.size := size_next_lt (by rw [hn])
    have hheld := held_next c
    rw [hn] at hlt hheld
    simp only at hlt hheld ⊢
    refine Nat.lt_of_le_of_lt (size_takeRow _ _) ?_
    rwa [size, hheld] at hlt

theorem size_nextRow_lt_of_peek {c : Cursor} {cell : Cell} (h : c.peek.1 = .ok (some cell)) :
    c.peek.2.nextRow.2.size < c.size := by
  have hnext : c.peek.2.next = (.ok (some cell), ⟨c.peek.2.rest, none⟩) := by
    obtain ⟨rest, held⟩ := c
    unfold peek at h ⊢
    split at h <;> simp_all [next]
  have hrest : c.peek.2.rest.length + 1 ≤ c.size := by
    obtain ⟨rest, held⟩ := c
    unfold peek at h ⊢
    split at h <;> simp_all [size]
  unfold nextRow
  rw [hnext]
  exact Nat.lt_of_le_of_lt (size_takeRow _ _) hrest

end Cursor

end TaggedRows
