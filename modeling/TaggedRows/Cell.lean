import TaggedRows.Text.Utf8

/-!
# Cells

The smallest unit of a store: opaque bytes under a row id, a column and an access label.  Cells are
ordered by row, then family, then qualifier, then label, then bytes.  The first four are the cell's
address, and a store holds one value at each address.
-/

namespace TaggedRows

open TaggedRows.Text

/-- Opaque bytes. -/
abbrev Bytes := List UInt8

/-- An access label, kept as it is written. -/
structure Label where
  text : String
deriving DecidableEq

/-- A column: a family and a qualifier within it. -/
structure Column where
  family : String
  qualifier : String
deriving DecidableEq

/-- Bytes under an access label. -/
structure Content where
  label : Label
  bytes : Bytes
deriving DecidableEq

/-- A content in a column of a row. -/
structure Cell where
  row : String
  column : Column
  content : Content
deriving DecidableEq

/-- The place of a cell in a store. -/
structure Address where
  row : String
  column : Column
  label : Label
deriving DecidableEq

namespace Label

/-- The empty label, which lets everyone read. -/
def unrestricted : Label := ⟨""⟩

/-- Whether the label lets everyone read. -/
def isUnrestricted (l : Label) : Bool := l.text.isEmpty

instance : Ord Label := ⟨compareOn (·.text)⟩

instance : Std.TransOrd Label := inferInstanceAs (Std.TransCmp (compareOn Label.text))

instance : Std.LawfulEqOrd Label where
  eq_of_compare {a b} h := by
    cases a; cases b
    exact congrArg _ (Std.compare_eq_iff_eq.1 h)

end Label

namespace Column

instance : Ord Column := ⟨compareLex (compareOn (·.family)) (compareOn (·.qualifier))⟩

instance : Std.TransOrd Column :=
  inferInstanceAs (Std.TransCmp (compareLex (compareOn Column.family) (compareOn Column.qualifier)))

instance : Std.LawfulEqOrd Column where
  eq_of_compare {a b} h := by
    obtain ⟨hf, hq⟩ := compareLex_eq_eq.1 h
    cases a; cases b
    exact congr (congrArg _ (Std.compare_eq_iff_eq.1 hf)) (Std.compare_eq_iff_eq.1 hq)

end Column

/-- The bytes as text, with ill-formed parts replaced. -/
def Content.text (c : Content) : String := Utf8.decodeLossy c.bytes

namespace Address

instance : Ord Address :=
  ⟨compareLex (compareOn (·.row)) (compareLex (compareOn (·.column)) (compareOn (·.label)))⟩

instance : Std.TransOrd Address :=
  inferInstanceAs (Std.TransCmp (compareLex (compareOn Address.row)
    (compareLex (compareOn Address.column) (compareOn Address.label))))

instance : Std.LawfulEqOrd Address where
  eq_of_compare {a b} h := by
    obtain ⟨hr, h⟩ := compareLex_eq_eq.1 h
    obtain ⟨hc, hl⟩ := compareLex_eq_eq.1 h
    cases a; cases b
    exact congr (congr (congrArg _ (Std.compare_eq_iff_eq.1 hr)) (Std.compare_eq_iff_eq.1 hc))
      (Std.compare_eq_iff_eq.1 hl)

end Address

namespace Cell

/-- Where the cell is stored. -/
def address (c : Cell) : Address := ⟨c.row, c.column, c.content.label⟩

/-- The cell that holds `bytes` at an address. -/
def ofAddress (a : Address) (bytes : Bytes) : Cell := ⟨a.row, a.column, ⟨a.label, bytes⟩⟩

@[simp] theorem address_ofAddress (a : Address) (bytes : Bytes) :
    (ofAddress a bytes).address = a := rfl

@[simp] theorem ofAddress_address (c : Cell) : ofAddress c.address c.content.bytes = c := rfl

/-- The number of bytes that the cell's parts take up. -/
def size (c : Cell) : Nat :=
  c.row.utf8ByteSize + c.column.family.utf8ByteSize + c.column.qualifier.utf8ByteSize
    + c.content.label.text.utf8ByteSize + c.content.bytes.length

/-- The number of bytes that cells take up together. -/
def sizeSum (cells : List Cell) : Nat := cells.foldr (fun c n => c.size + n) 0

instance : Ord Cell := ⟨compareLex (compareOn (·.address)) (compareOn (·.content.bytes))⟩

instance : Std.TransOrd Cell :=
  inferInstanceAs (Std.TransCmp
    (compareLex (compareOn Cell.address) (compareOn fun c : Cell => c.content.bytes)))

instance : Std.LawfulEqOrd Cell where
  eq_of_compare {a b} h := by
    obtain ⟨ha, hv⟩ := compareLex_eq_eq.1 h
    rw [← ofAddress_address a, ← ofAddress_address b]
    exact congr (congrArg _ (Std.compare_eq_iff_eq.1 ha)) (Std.compare_eq_iff_eq.1 hv)

/-- Cells in ascending order. -/
def sort (cells : List Cell) : List Cell := cells.mergeSort fun a b => (compare a b).isLE

theorem sort_perm (cells : List Cell) : (sort cells).Perm cells := List.mergeSort_perm ..

end Cell

end TaggedRows
