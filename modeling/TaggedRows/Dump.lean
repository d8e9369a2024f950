import TaggedRows.Failure
import TaggedRows.Json.Printer
import TaggedRows.Schema.Record
import TaggedRows.Stream.Records
import TaggedRows.Store.Map
import TaggedRows.Text.Lines

/-!
# Dumps

Records and cells as lines of JSON, one value on each line.  `cellsOfRecords` turns lines of records
into lines of cells while it reads them, so what comes before a bad line is written.
`recordsOfCells` reads all cells first, in any order, and then writes the records of their rows.
Blank lines count but hold nothing.
-/

namespace TaggedRows.Dump

open TaggedRows.Text

/-- The lines that were written, and the number of records or the failure that ended it. -/
structure Output where
  lines : List String
  outcome : Except Failure Nat

/-- Write lines before all others, for one record more. -/
def Output.after (lines : List String) (rest : Output) : Output :=
  ⟨lines ++ rest.lines, rest.outcome.map (· + 1)⟩

/-- Read the value of a numbered line, of which there is none on a blank one. -/
def readLine (what : String) (value? : Json → Option α) (number : Nat) (line : Bytes) :
    Except Failure (Option α) :=
  match Utf8.decode? line with
  | none => .error .unreadableInput
  | some text =>
    if isBlank text then .ok none
    else
      match (Json.read? text).bind value? with
      | some value => .ok (some value)
      | none => .error [.text ("Line " ++ natText number ++ ": not a " ++ what), .brokenJson]

/-! ## Records to cells -/

/-- The lines of cells for one line, of which there are none for a blank one. -/
def encodeLine (codec : Codec) (number : Nat) (line : Bytes) :
    Except Failure (Option (List String)) := do
  match ← readLine "record" Record.ofJson? number line with
  | none => pure none
  | some record =>
    let cells ← (codec.encode record).mapError TableError.failure
    pure (some (cells.map fun c => c.toJson.text))

/-- Encode lines that are numbered from `number` on. -/
def encodeLines (codec : Codec) : Nat → List Bytes → Output
  | _, [] => ⟨[], .ok 0⟩
  | number, line :: rest =>
    match encodeLine codec number line with
    | .error e => ⟨[], .error e⟩
    | .ok none => encodeLines codec (number + 1) rest
    | .ok (some cells) => .after cells (encodeLines codec (number + 1) rest)

/-- Turn lines of records into lines of cells. -/
def cellsOfRecords (codec : Codec) (input : Bytes) : Output := encodeLines codec 1 (lines input)

/-! ## Cells to records -/

/-- The cells of lines that are numbered from `number` on. -/
def readCells : Nat → List Bytes → Except Failure (List Cell)
  | _, [] => .ok []
  | number, line :: rest => do
    let cell ← readLine "cell" Cell.ofJson? number line
    let cells ← readCells (number + 1) rest
    pure (cell.toList ++ cells)

/-- The lines of records, up to the first error. -/
def recordLines : List (Except TableError Record) → Output
  | [] => ⟨[], .ok 0⟩
  | .error e :: _ => ⟨[], .error e.failure⟩
  | .ok record :: rest => .after [record.toJson.text] (recordLines rest)

/-- The lines of the records of a list of cells. -/
def decodeList (codec : Codec) (skip : Bool) (cells : List Cell) : Output :=
  recordLines (codec.records skip (((MapStore.ofCells cells).scan .all).map .ok))

/-- Turn lines of cells into lines of records.  Rows that are not recognized are passed over if
`skip` is set; otherwise the first of them is the end. -/
def recordsOfCells (codec : Codec) (skip : Bool) (input : Bytes) : Output :=
  match readCells 1 (lines input) with
  | .error e => ⟨[], .error e⟩
  | .ok cells => decodeList codec skip cells

end TaggedRows.Dump
