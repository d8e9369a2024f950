import TaggedRows.Row
import TaggedRows.Text.Numeral

/-!
# Rows folded into one value

A store may fold the cells of a row into one value.  The value is a count and then, for each cell,
its family, qualifier and label, a timestamp, a flag for a deleted cell, and its bytes:

    count  (length family) (length qualifier) (length label) timestamp deleted (length bytes)  …

Counts and lengths are signed 32-bit numbers and the timestamp is a 64-bit number, all with the
highest byte first; texts are UTF-8.  Timestamps are written as zero and skipped when read, and
deleted cells are read over.
-/

namespace TaggedRows.FoldedRow

open TaggedRows.Text

/-! ## Errors -/

/-- The parts of a frame. -/
inductive Part where
  | cellCount
  | family
  | qualifier
  | label
  | timestamp
  | deletedFlag
  | valueLength
  | value
deriving DecidableEq

/-- The part in a message. -/
def Part.text : Part → String
  | cellCount => "cell count"
  | family => "family"
  | qualifier => "qualifier"
  | label => "visibility"
  | timestamp => "timestamp"
  | deletedFlag => "deleted flag"
  | valueLength => "value length"
  | value => "value"

/-- What can be wrong with a frame. -/
inductive FrameError where
  /-- A count or length to be written is no signed 32-bit number. -/
  | tooLong (length : Nat)
  /-- The value ends within a part. -/
  | truncated (part : Part) (needed offset available : Nat)
  /-- A count or length is below zero. -/
  | negative (part : Part) (length : Int)
  /-- A text is no UTF-8. -/
  | notText (part : Part)
  /-- Bytes follow the last cell. -/
  | trailing (bytes cells : Nat)
deriving DecidableEq

/-- The text of the error. -/
def FrameError.message : FrameError → String
  | tooLong length => "length " ++ natText length ++ " exceeds i32"
  | truncated part needed offset available =>
    "truncated " ++ part.text ++ ": need " ++ natText needed ++ " bytes at offset "
      ++ natText offset ++ ", have " ++ natText available
  | negative part length => "negative " ++ part.text ++ ": " ++ intText length
  | notText part => part.text ++ " is not valid UTF-8"
  | trailing bytes cells =>
    natText bytes ++ " trailing bytes after " ++ natText cells ++ " cells"

/-! ## Writing -/

/-- A number below 2³² as four bytes, the highest first. -/
def word32 (n : Nat) : Bytes :=
  [UInt8.ofNat (n / 16777216), UInt8.ofNat (n / 65536), UInt8.ofNat (n / 256), UInt8.ofNat n]

/-- A count or length, if it is a signed 32-bit number. -/
def encodeLength (n : Nat) : Except FrameError Bytes :=
  if n ≤ 2147483647 then .ok (word32 n) else .error (.tooLong n)

/-- Bytes after their length. -/
def encodeBytes (bytes : Bytes) : Except FrameError Bytes := do
  let length ← encodeLength bytes.length
  pure (length ++ bytes)

/-- The frame of one cell. -/
def encodeCell (column : Column) (content : Content) : Except FrameError Bytes := do
  let family ← encodeBytes (Utf8.encode column.family)
  let qualifier ← encodeBytes (Utf8.encode column.qualifier)
  let label ← encodeBytes (Utf8.encode content.label.text)
  let bytes ← encodeBytes content.bytes
  pure (family ++ qualifier ++ label ++ List.replicate 8 0 ++ [0] ++ bytes)

/-- The frames of cells, one after the other. -/
def encodeCells : List (Column × Content) → Except FrameError Bytes
  | [] => pure []
  | (column, content) :: cells => do
    let head ← encodeCell column content
    let tail ← encodeCells cells
    pure (head ++ tail)

/-- A row in one value. -/
def encode (row : Row) : Except FrameError Bytes := do
  let count ← encodeLength row.size
  let cells ← encodeCells row.cells.toList
  pure (count ++ cells)

/-! ## Reading -/

/-- A place in a value: how many bytes lie before it, and the bytes from it on. -/
structure Place where
  offset : Nat
  rest : Bytes
deriving DecidableEq

/-- A reader of parts: it moves on or fails. -/
abbrev Reader := StateT Place (Except FrameError)

/-- Read a number of bytes. -/
def readBytes (part : Part) (n : Nat) : Reader Bytes := fun place =>
  if place.rest.length < n then .error (.truncated part n place.offset place.rest.length)
  else .ok (place.rest.take n, ⟨place.offset + n, place.rest.drop n⟩)

/-- The number that bytes spell, the highest first. -/
def ofBigEndian (bytes : Bytes) : Nat := bytes.foldl (fun n b => n * 256 + b.toNat) 0

/-- The signed number that four bytes spell. -/
def ofWord32 (bytes : Bytes) : Int :=
  let n := ofBigEndian bytes
  if n < 2147483648 then n else (n : Int) - 4294967296

/-- Read a count or length. -/
def readLength (part : Part) : Reader Nat := do
  let n := ofWord32 (← readBytes part 4)
  if n < 0 then throw (.negative part n) else pure n.toNat

/-- Read a text after its length. -/
def readText (part : Part) : Reader String := do
  let n ← readLength part
  match Utf8.decode? (← readBytes part n) with
  | some text => pure text
  | none => throw (.notText part)

/-- Read a cell, or nothing in place of a deleted one. -/
def readCell : Reader (Option (Column × Content)) := do
  let family ← readText .family
  let qualifier ← readText .qualifier
  let label ← readText .label
  let _ ← readBytes .timestamp 8
  let deleted ← readBytes .deletedFlag 1
  let length ← readLength .valueLength
  let bytes ← readBytes .value length
  pure (if deleted = [0] then some (⟨family, qualifier⟩, ⟨⟨label⟩, bytes⟩) else none)

/-- Read a number of cells and put those that are not deleted into a row. -/
def readCells : Nat → Row → Reader Row
  | 0, row => pure row
  | n + 1, row => do
    match ← readCell with
    | some (column, content) => readCells n (row.insert column content)
    | none => readCells n row

/-- Read a row from one value. -/
def decode (id : String) (bytes : Bytes) : Except FrameError Row := do
  let (count, place) ← readLength .cellCount ⟨0, bytes⟩
  let (row, place) ← readCells count (Row.empty id) place
  if place.rest = [] then pure row else throw (.trailing place.rest.length count)

end TaggedRows.FoldedRow
