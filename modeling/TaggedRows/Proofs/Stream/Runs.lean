import Mathlib.Data.List.Chain
import TaggedRows.Proofs.Row.Filling
import TaggedRows.Stream.Cursor

/-!
# Runs of cells

Where a list of cells changes from one row to another it falls into runs.  A run is not empty, and
all its cells are of one row.

* `flatMap_cells_runs`, `rowsChange_runs`: the runs of a list make it up again, and neighbouring
  runs are of different rows.
* `runs_flatMap_cells`: these two facts determine the runs.

A stream is read run by run up to its first error, and facts about the reading are proved by
induction along these runs (`CellStream.inductionOnRuns`).
-/

namespace TaggedRows

/-! ## Runs -/

/-- Cells of one row, at least one of them. -/
structure Run where
  first : Cell
  others : List Cell
  row_eq : ∀ c ∈ others, c.row = first.row

namespace Run

/-- The id of the row. -/
def id (run : Run) : String := run.first.row

/-- All cells of the run. -/
def cells (run : Run) : List Cell := run.first :: run.others

/-- The row that is filled from the run. -/
def row (run : Run) : Row := .ofRun run.first run.others

theorem row_of_mem {run : Run} {c : Cell} (h : c ∈ run.cells) : c.row = run.id := by
  rcases List.mem_cons.1 h with rfl | h
  · rfl
  · exact run.row_eq c h

@[simp] theorem id_row (run : Run) : run.row.id = run.id := Row.id_ofRun ..

/-- A column of the row holds what the last cell of the run in this column holds. -/
theorem get?_row (run : Run) (column : Column) : run.row.cells.get? column =
    (run.cells.reverse.find? fun c => c.column == column).map (·.content) := by
  have hcompare : ((fun e : Column × Content => compare column e.1 == .eq) ∘ Row.entryOf) =
      fun c => c.column == column := by
    funext c
    rw [Bool.eq_iff_iff, Function.comp, beq_iff_eq, beq_iff_eq, Std.compare_eq_iff_eq]
    exact eq_comm
  rw [row, Row.get?_ofRun, findEntry, ← List.map_reverse, List.find?_map, Option.map_map, hcompare]
  rfl

end Run

/-- From each run to the next the row changes. -/
def RowsChange (runs : List Run) : Prop := runs.IsChain fun a b => a.id ≠ b.id

/-- Put a cell before runs: into the first of them, if that is of the same row. -/
def consRun (c : Cell) : List Run → List Run
  | [] => [⟨c, [], by simp⟩]
  | run :: runs =>
    if h : c.row = run.id then ⟨c, run.cells, fun _ hd => (Run.row_of_mem hd).trans h.symm⟩ :: runs
    else ⟨c, [], by simp⟩ :: run :: runs

/-- The runs that a list of cells falls into where the row changes. -/
def runs (cells : List Cell) : List Run := cells.foldr consRun []

theorem flatMap_cells_consRun (c : Cell) (rs : List Run) :
    (consRun c rs).flatMap Run.cells = c :: rs.flatMap Run.cells := by
  cases rs with
  | nil => rfl
  | cons run rs =>
    rw [consRun]
    split <;> rfl

/-- The runs of a list make up the list. -/
theorem flatMap_cells_runs (cells : List Cell) : (runs cells).flatMap Run.cells = cells := by
  induction cells with
  | nil => rfl
  | cons c cells ih => rw [runs, List.foldr_cons, flatMap_cells_consRun, ← runs, ih]

theorem sublist_of_mem_runs {run : Run} {cells : List Cell} (h : run ∈ runs cells) :
    run.cells.Sublist cells := by
  have hsub : run.cells.Sublist ((runs cells).map Run.cells).flatten :=
    List.sublist_flatten_of_mem (List.mem_map_of_mem h)
  rwa [← List.flatMap_def, flatMap_cells_runs] at hsub

theorem RowsChange.consRun {rs : List Run} (h : RowsChange rs) (c : Cell) :
    RowsChange (consRun c rs) := by
  cases rs with
  | nil => exact List.isChain_singleton _
  | cons run rs =>
    rw [TaggedRows.consRun]
    split
    · rename_i hrow
      refine List.isChain_cons.2 ⟨?_, (List.isChain_cons.1 h).2⟩
      intro next hnext
      have hne := (List.isChain_cons.1 h).1 next hnext
      rwa [← hrow] at hne
    · rename_i hrow
      exact List.isChain_cons_cons.2 ⟨hrow, h⟩

/-- Neighbouring runs of a list are of different rows. -/
theorem rowsChange_runs (cells : List Cell) : RowsChange (runs cells) := by
  induction cells with
  | nil => exact List.isChain_nil
  | cons c cells ih => exact ih.consRun c

theorem runs_cells_append (run : Run) {cells : List Cell}
    (h : ∀ next ∈ (runs cells).head?, run.id ≠ next.id) :
    runs (run.cells ++ cells) = run :: runs cells := by
  obtain ⟨first, others, hrow⟩ := run
  induction others generalizing first with
  | nil =>
    have hstep : runs (first :: cells) = consRun first (runs cells) := rfl
    rw [Run.cells, List.singleton_append, hstep]
    cases hruns : runs cells with
    | nil => rfl
    | cons next rest =>
      rw [hruns] at h
      exact dif_neg (h next rfl)
  | cons second others ih =>
    have hsecond : second.row = first.row := hrow second (by simp)
    have hothers : ∀ c ∈ others, c.row = second.row := by
      intro c hc
      rw [hrow c (List.mem_cons_of_mem _ hc), hsecond]
    have hrest : runs (second :: others ++ cells) = ⟨second, others, hothers⟩ :: runs cells := by
      apply ih second hothers
      rwa [Run.id, hsecond]
    have hstep : runs (first :: second :: others ++ cells) =
        consRun first (runs (second :: others ++ cells)) := rfl
    rw [Run.cells, hstep, hrest]
    exact dif_pos hsecond.symm

/-- Runs that make up a list and change rows are the runs of the list. -/
theorem runs_flatMap_cells {rs : List Run} (h : RowsChange rs) :
    runs (rs.flatMap Run.cells) = rs := by
  induction rs with
  | nil => rfl
  | cons run rs ih =>
    obtain ⟨hhead, hrest⟩ := List.isChain_cons.1 h
    have htail := ih hrest
    rw [List.flatMap_cons, runs_cells_append run (by rwa [htail]), htail]

theorem id_head_runs (c : Cell) (cells : List Cell) :
    ∃ next rest, runs (c :: cells) = next :: rest ∧ next.id = c.row := by
  have hstep : runs (c :: cells) = consRun c (runs cells) := rfl
  rw [hstep]
  cases runs cells with
  | nil => exact ⟨_, _, rfl, rfl⟩
  | cons run rs =>
    rw [consRun]
    split
    · exact ⟨_, _, rfl, rfl⟩
    · exact ⟨_, _, rfl, rfl⟩

/-! ## Streams -/

namespace CellStream

/-- The cells before the first error. -/
def cells : CellStream → List Cell
  | .ok cell :: rest => cell :: cells rest
  | _ => []

/-- The first error. -/
def firstError? : CellStream → Option TableError
  | [] => none
  | .ok _ :: rest => firstError? rest
  | .error e :: _ => some e

/-- Whether the stream begins with an error. -/
def Fails (s : CellStream) : Prop := ∃ e rest, s = .error e :: rest

theorem cells_map_ok (cells : List Cell) : CellStream.cells (cells.map .ok) = cells := by
  induction cells with
  | nil => rfl
  | cons c cells ih => exact congrArg (c :: ·) ih

theorem firstError?_map_ok (cells : List Cell) :
    CellStream.firstError? (cells.map .ok) = none := by
  induction cells with
  | nil => rfl
  | cons c cells ih => exact ih

end CellStream

namespace Run

/-- The run as a stream. -/
def stream (run : Run) : CellStream := run.cells.map .ok

/-- What comes next in the stream does not continue the run. -/
def EndsBefore (run : Run) (rest : CellStream) : Prop :=
  ∀ cell later, rest = .ok cell :: later → cell.row ≠ run.id

theorem cells_stream_append (run : Run) (rest : CellStream) :
    CellStream.cells (run.stream ++ rest) = run.cells ++ rest.cells := by
  rw [stream]
  induction run.cells with
  | nil => rfl
  | cons c cells ih => exact congrArg (c :: ·) ih

theorem firstError?_stream_append (run : Run) (rest : CellStream) :
    CellStream.firstError? (run.stream ++ rest) = rest.firstError? := by
  rw [stream]
  induction run.cells with
  | nil => rfl
  | cons c cells ih => exact ih

theorem runs_stream_append {run : Run} {rest : CellStream} (h : run.EndsBefore rest) :
    runs (CellStream.cells (run.stream ++ rest)) = run :: runs rest.cells := by
  rw [cells_stream_append]
  apply runs_cells_append run
  intro next hnext heq
  cases rest with
  | nil => cases hnext
  | cons item later =>
    cases item with
    | error e => cases hnext
    | ok cell =>
      obtain ⟨head, tail, hruns, hid⟩ := id_head_runs cell (CellStream.cells later)
      have hcells : CellStream.cells (.ok cell :: later) = cell :: CellStream.cells later := rfl
      rw [hcells, hruns, List.head?_cons, Option.mem_some_iff] at hnext
      apply h cell later rfl
      rw [heq, ← hnext, hid]

end Run

namespace CellStream

/-- A stream that begins with a cell begins with a run. -/
theorem exists_run (cell : Cell) (s : CellStream) :
    ∃ (run : Run) (rest : CellStream), run.first = cell ∧ .ok cell :: s = run.stream ++ rest ∧
      run.EndsBefore rest := by
  induction s generalizing cell with
  | nil => exact ⟨⟨cell, [], by simp⟩, [], rfl, rfl, fun _ _ h => by cases h⟩
  | cons item s ih =>
    cases item with
    | error e => exact ⟨⟨cell, [], by simp⟩, .error e :: s, rfl, rfl, fun _ _ h => by cases h⟩
    | ok second =>
      by_cases hrow : second.row = cell.row
      · obtain ⟨run, rest, rfl, hs, hend⟩ := ih second
        refine ⟨⟨cell, run.cells, fun c hc => (Run.row_of_mem hc).trans hrow⟩, rest, rfl, ?_, ?_⟩
        · exact congrArg (.ok cell :: ·) hs
        · intro c later hlater
          have hne := hend c later hlater
          rwa [Run.id, hrow] at hne
      · refine ⟨⟨cell, [], by simp⟩, .ok second :: s, rfl, rfl, ?_⟩
        intro c later hlater
        cases hlater
        exact hrow

/-- Induction on a stream run by run, up to its first error. -/
theorem inductionOnRuns {P : CellStream → Prop} (nil : P [])
    (error : ∀ e rest, P (.error e :: rest))
    (run : ∀ (run : Run) rest, run.EndsBefore rest → P rest → P (run.stream ++ rest))
    (s : CellStream) : P s := by
  induction hn : s.length using Nat.strongRecOn generalizing s with
  | ind n ih =>
    cases s with
    | nil => exact nil
    | cons item s =>
      cases item with
      | error e => exact error e s
      | ok cell =>
        obtain ⟨first, rest, -, hs, hend⟩ := exists_run cell s
        have hlength : rest.length < n := by
          rw [← hn, hs]
          simp only [List.length_append, Run.stream, Run.cells, List.length_map, List.length_cons]
          omega
        rw [hs]
        exact run first rest hend (ih rest.length hlength rest rfl)

/-- What the first run of the cells of a stream is, the stream begins with. -/
theorem exists_rest_of_runs {s : CellStream} {run : Run} {rs : List Run}
    (h : runs s.cells = run :: rs) :
    ∃ rest, s = run.stream ++ rest ∧ run.EndsBefore rest ∧ runs rest.cells = rs := by
  cases s with
  | nil => cases h
  | cons item s =>
    cases item with
    | error e => cases h
    | ok cell =>
      obtain ⟨first, rest, -, hs, hend⟩ := exists_run cell s
      rw [hs, Run.runs_stream_append hend] at h
      cases h
      exact ⟨rest, hs, hend, rfl⟩

end CellStream

end TaggedRows
