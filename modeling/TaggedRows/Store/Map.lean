import TaggedRows.Store.Basic

/-!
# Stores in memory

A sorted map from addresses to values.  What is written at an address replaces what was there.  A
scan starts at the lowest address that a row of the range can have and ends at the first row beyond
the range.
-/

namespace TaggedRows

/-- A store in memory. -/
structure MapStore where
  cells : SortedMap Address Bytes
deriving DecidableEq

namespace MapStore

/-- The store without cells. -/
def empty : MapStore := ⟨.empty⟩

instance : Inhabited MapStore := ⟨empty⟩

/-- Put cells in place, one after the other. -/
def insertMany (s : MapStore) (cells : List Cell) : MapStore :=
  ⟨s.cells.insertMany (cells.map fun c => (c.address, c.content.bytes))⟩

/-- The store of a list of cells. -/
def ofCells (cells : List Cell) : MapStore := empty.insertMany cells

/-- The number of cells. -/
def size (s : MapStore) : Nat := s.cells.size

/-- Whether there is no cell. -/
def isEmpty (s : MapStore) : Bool := s.cells.isEmpty

/-- Every cell, ascending. -/
def toCells (s : MapStore) : List Cell :=
  s.cells.toList.map fun (address, bytes) => Cell.ofAddress address bytes

/-- The lowest address that a row from the bound on can have. -/
def lowest? : Bound → Option Address
  | .unbounded => none
  | .included row => some ⟨row, ⟨"", ""⟩, .unrestricted⟩
  | .excluded row => some ⟨row, ⟨"", ""⟩, .unrestricted⟩

/-- Whether an address lies below the lowest of a bound. -/
def isBelow (bound : Bound) (address : Address) : Bool :=
  match lowest? bound with
  | none => false
  | some lowest => compare address lowest == .lt

/-- The cells of the rows in a range, ascending. -/
def scan (s : MapStore) (range : RowRange) : List Cell :=
  (((s.cells.toList.dropWhile fun e => isBelow range.start e.1).dropWhile fun e =>
    !range.afterStart e.1.row).takeWhile fun e => range.beforeEnd e.1.row).map fun e =>
      Cell.ofAddress e.1 e.2

instance : Store MapStore where
  scan s range := .ok ((s.scan range).map .ok)
  write s rows := (.ok (), s.insertMany rows.flatten)

end MapStore

end TaggedRows
