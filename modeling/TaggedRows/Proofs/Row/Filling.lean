import TaggedRows.Proofs.SortedMap
import TaggedRows.Row

/-!
# Rows filled from cells

`Row.ofRun` is the row of a list of cells that is known not to be empty.  Each column of it holds
the content that came last (`Row.get?_ofRun`).  Where the columns ascend no two of them collapse,
and the row lists the cells it was filled from in their order (`Row.toList_ofRun`).
-/

namespace TaggedRows

/-- The columns of the cells ascend strictly. -/
def AscendingColumns (cells : List Cell) : Prop :=
  cells.Pairwise fun a b => compare a.column b.column = .lt

namespace Row

/-- The entry of a row that a cell makes. -/
def entryOf (c : Cell) : Column × Content := (c.column, c.content)

/-- The row of a first cell and others, under the id of the first. -/
def ofRun (first : Cell) (others : List Cell) : Row :=
  others.foldl add ((empty first.row).add first)

theorem ofCells?_cons (first : Cell) (others : List Cell) :
    ofCells? (first :: others) = some (ofRun first others) := rfl

@[simp] theorem id_foldl_add (r : Row) (cells : List Cell) : (cells.foldl add r).id = r.id := by
  induction cells generalizing r with
  | nil => rfl
  | cons c cells ih => rw [List.foldl_cons, ih, id_add]

@[simp] theorem id_ofRun (first : Cell) (others : List Cell) :
    (ofRun first others).id = first.row := by
  rw [ofRun, id_foldl_add, id_add]
  rfl

theorem toList_dropFirst (r : Row) : r.dropFirst.cells.toList = r.cells.toList.tail := rfl

theorem cells_foldl_add (r : Row) (cells : List Cell) :
    (cells.foldl add r).cells = r.cells.insertMany (cells.map entryOf) := by
  induction cells generalizing r with
  | nil => rfl
  | cons c cells ih =>
    rw [List.foldl_cons, ih]
    rfl

theorem cells_ofRun (first : Cell) (others : List Cell) :
    (ofRun first others).cells = .ofList ((first :: others).map entryOf) := by
  rw [ofRun, cells_foldl_add]
  rfl

/-- A column holds the content that was put in last. -/
theorem get?_ofRun (first : Cell) (others : List Cell) (column : Column) :
    (ofRun first others).cells.get? column =
      findEntry column ((first :: others).map entryOf).reverse := by
  rw [cells_ofRun, SortedMap.get?_ofList]

/-- Cells with ascending columns all stay, in their order. -/
theorem toList_ofRun {first : Cell} {others : List Cell}
    (h : AscendingColumns (first :: others)) :
    (ofRun first others).cells.toList = (first :: others).map entryOf := by
  rw [cells_ofRun]
  exact SortedMap.toList_ofList (List.pairwise_map.2 h)

end Row

end TaggedRows
