import TaggedRows.Cell
import TaggedRows.SortedMap

/-!
# Rows

All cells of one row id, ordered by column.  A row keeps one content for each column: cells that
differ in their label alone collapse, and the one put in last stays.

`Row.cutFamily` takes a family out of a row.  It relies on the order of columns: the cells of a
family stand together, from the first column not below `(family, "")` on.
-/

namespace TaggedRows

/-- A row id and the contents of its columns. -/
structure Row where
  id : String
  cells : SortedMap Column Content
deriving DecidableEq

/-- The first of each run of equal texts. -/
def runHeads : List String → List String
  | [] => []
  | [a] => [a]
  | a :: b :: rest => if a = b then runHeads (b :: rest) else a :: runHeads (b :: rest)

namespace Row

/-! ## Building -/

/-- A row without cells. -/
def empty (id : String) : Row := ⟨id, .empty⟩

/-- Put a content into a column. -/
def insert (r : Row) (column : Column) (content : Content) : Row :=
  { r with cells := r.cells.insert column content }

/-- Put a cell into the row, whatever row the cell names. -/
def add (r : Row) (c : Cell) : Row := r.insert c.column c.content

/-- The row of a list of cells, under the id of the first; there is none without cells. -/
def ofCells? : List Cell → Option Row
  | [] => none
  | c :: cells => some (cells.foldl add ((empty c.row).add c))

@[simp] theorem id_add (r : Row) (c : Cell) : (r.add c).id = r.id := rfl

/-! ## Looking -/

/-- The number of cells. -/
def size (r : Row) : Nat := r.cells.size

/-- Whether the row has no cell. -/
def isEmpty (r : Row) : Bool := r.cells.isEmpty

/-- The lowest column and its content. -/
def first? (r : Row) : Option (Column × Content) := r.cells.first?

/-- The row without its lowest column. -/
def dropFirst (r : Row) : Row := { r with cells := r.cells.dropFirst }

/-- The cells of the row, ascending. -/
def toCells (r : Row) : List Cell :=
  r.cells.toList.map fun (column, content) => ⟨r.id, column, content⟩

/-- The families that have a cell, ascending. -/
def familyNames (r : Row) : List String := runHeads (r.cells.keys.map (·.family))

/-! ## Families -/

/-- The columns of a family and their contents. -/
def familyEntries (r : Row) (family : String) : List (Column × Content) :=
  (r.cells.toList.dropWhile fun e => compare e.1 ⟨family, ""⟩ == .lt).takeWhile fun e =>
    e.1.family == family

/-- The texts of a family by qualifier. -/
def family (r : Row) (family : String) : SortedMap String String :=
  .ofList ((r.familyEntries family).map fun (column, content) => (column.qualifier, content.text))

/-- Take a family out of the row: its texts by qualifier, and the row without it. -/
def cutFamily (r : Row) (family : String) : SortedMap String String × Row :=
  (r.family family,
    { r with cells := (r.familyEntries family).foldl (fun cells e => cells.erase e.1) r.cells })

@[simp] theorem id_cutFamily (r : Row) (family : String) : (r.cutFamily family).2.id = r.id := rfl

end Row

end TaggedRows
