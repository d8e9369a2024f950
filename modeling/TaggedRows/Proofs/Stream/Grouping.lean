import Mathlib.Data.List.Nodup
import TaggedRows.Proofs.Store.FoldedScan
import TaggedRows.Proofs.Tag.RowShape

/-!
# Cells grouped into rows

Rows are taken from a cursor until none is left (`Cursor.rows`).  What is taken are the runs of the
cells, one row for each, and no call takes a cell beyond its run: the **step** is one call before a
run (`Cursor.rows_run`), and all calls follow by induction along the runs
(`Cursor.rows_flatMap_cells`).  Nothing is asked of the order of the cells; a row that comes back
after another makes a run of its own.

What order the cells are in shows only within the rows.

* **Ascending columns do not collapse.**  The row of such a run lists the run (`Run.toCells_row`).
* **With ascending labels the greatest stays.**  Of the cells of a run in one column the last is the
  one with the greatest label (`Run.get?_row_eq_some_iff`).
-/

namespace TaggedRows

/-! ## Taking rows -/

/-- The rows of runs, each with the cells of the runs behind it. -/
def rowsWithRest : List Run → List (Row × CellStream)
  | [] => []
  | run :: rs => (run.row, (rs.flatMap Run.cells).map .ok) :: rowsWithRest rs

theorem map_fst_rowsWithRest (rs : List Run) : (rowsWithRest rs).map (·.1) = rs.map Run.row := by
  induction rs with
  | nil => rfl
  | cons run rs ih => exact congrArg (run.row :: ·) ih

theorem RowsChange.endsBefore {run : Run} {rs : List Run} (h : RowsChange (run :: rs)) :
    run.EndsBefore ((rs.flatMap Run.cells).map .ok) := by
  intro cell later hlater
  cases rs with
  | nil => cases hlater
  | cons next rs =>
    cases hlater
    exact Ne.symm ((List.isChain_cons.1 h).1 next rfl)

namespace Cursor

/-- The rows that calls take until none is left, each with what further calls would deliver then. -/
def rows (c : Cursor) : Except TableError (List (Row × CellStream)) :=
  match _h : c.nextRow.1 with
  | .error e => .error e
  | .ok none => .ok []
  | .ok (some row) => do
    let rows ← rows c.nextRow.2
    pure ((row, c.nextRow.2.drain) :: rows)
termination_by c.size
decreasing_by exact size_nextRow_lt _h

variable {c d : Cursor} {run : Run} {rest : CellStream}

theorem rows_of_error {e : TableError} (h : c.nextRow = (.error e, d)) : c.rows = .error e := by
  unfold rows
  split <;> simp_all

theorem rows_of_none (h : c.nextRow = (.ok none, d)) : c.rows = .ok [] := by
  unfold rows
  split <;> simp_all

theorem rows_of_some {row : Row} (h : c.nextRow = (.ok (some row), d)) :
    c.rows = (do
      let rows ← d.rows
      pure ((row, d.pending) :: rows)) := by
  conv => lhs; unfold rows
  split
  · simp_all
  · simp_all
  · rename_i row' hrow
    rw [h] at hrow
    cases hrow
    rw [h, drain_eq_pending]

theorem rows_eq_pending (c : Cursor) : c.rows = rows { rest := c.pending } := by
  have hnext := c.nextRow_eq
  rcases h : nextRow { rest := c.pending } with ⟨e | _ | row, d⟩
  · rw [rows_of_error h, rows_of_error (hnext.trans h)]
  · rw [rows_of_none h, rows_of_none (hnext.trans h)]
  · rw [rows_of_some h, rows_of_some (hnext.trans h)]

/-- A call before a run takes the run as a row, and leaves what stands behind it. -/
theorem rows_run (hend : run.EndsBefore rest) (hrest : ¬ rest.Fails) :
    rows { rest := run.stream ++ rest } = (do
      let rows ← rows { rest }
      pure ((run.row, rest) :: rows)) := by
  obtain ⟨d, hnext, hpending⟩ := nextRow_stream_append hend hrest
  rw [rows_of_some hnext, rows_eq_pending d, hpending]

theorem rows_flatMap_cells {rs : List Run} (h : RowsChange rs) :
    rows { rest := (rs.flatMap Run.cells).map .ok } = .ok (rowsWithRest rs) := by
  induction rs with
  | nil => exact rows_of_none rfl
  | cons run rs ih =>
    have hrest : ¬ CellStream.Fails ((rs.flatMap Run.cells).map .ok) := by
      rintro ⟨e, later, heq⟩
      cases hcells : rs.flatMap Run.cells <;> simp [hcells] at heq
    have hcells : (((run :: rs).flatMap Run.cells).map .ok : CellStream) =
        run.stream ++ (rs.flatMap Run.cells).map .ok := List.map_append
    rw [hcells, rows_run h.endsBefore hrest, ih (List.isChain_cons.1 h).2]
    rfl

end Cursor

/-! ## The rows of runs -/

theorem AscendingCells.ascendingColumns {cells : List Cell} (h : AscendingCells cells) {run : Run}
    (hrun : run ∈ runs cells) : AscendingColumns run.cells := by
  refine List.Pairwise.imp_of_mem ?_ (h.sublist (sublist_of_mem_runs hrun))
  intro a b ha hb hlt
  have hself : compare run.id run.id = .eq := Std.ReflCmp.compare_self
  rw [Run.row_of_mem ha, Run.row_of_mem hb, hself] at hlt
  exact hlt

namespace Run

variable {run : Run}

theorem toCells_row (h : AscendingColumns run.cells) : run.row.toCells = run.cells := by
  have hlist : run.row.cells.toList = run.cells.map Row.entryOf := Row.toList_ofRun h
  rw [Row.toCells, hlist, List.map_map, id_row]
  refine (List.map_congr_left fun c hc => ?_).trans (List.map_id _)
  rw [← row_of_mem hc]
  rfl

/-- Of two cells of a run in one column the later has the greater label. -/
theorem label_lt_of_lt {c d : Cell} (hc : c ∈ run.cells) (hd : d ∈ run.cells)
    (hcolumn : c.column = d.column) (h : compare c.address d.address = .lt) :
    c.content.label.text < d.content.label.text := by
  have hrow : c.row = d.row := (row_of_mem hc).trans (row_of_mem hd).symm
  rcases Address.compare_eq_lt_iff.1 h with hrows | ⟨-, hcolumns | ⟨-, hlabels⟩⟩
  · have hrows' : compare c.row d.row = .lt := hrows
    simp [hrow] at hrows'
  · have hcolumns' : compare c.column d.column = .lt := hcolumns
    simp [hcolumn] at hcolumns'
  · exact compareOfLessAndEq_eq_lt.1 hlabels

/-- The last cell of a run in a column has the greatest label of all in this column. -/
theorem label_le_of_find?_reverse (hasc : MapStore.AscendingAddresses run.cells) {column : Column}
    {last : Cell} (hlast : run.cells.reverse.find? (fun c => c.column == column) = some last)
    {d : Cell} (hd : d ∈ run.cells) (hcolumn : d.column = column) :
    d.content.label.text ≤ last.content.label.text := by
  obtain ⟨hat, after, before, hsplit, hafter⟩ := List.find?_eq_some_iff_append.1 hlast
  have hcells : run.cells = before.reverse ++ last :: after.reverse := by
    simpa using congrArg List.reverse hsplit
  have hmem : last ∈ run.cells := List.mem_reverse.1 (List.mem_of_find?_eq_some hlast)
  have hsame : d.column = last.column := hcolumn.trans (beq_iff_eq.1 hat).symm
  have hpairs := hasc
  rw [hcells] at hpairs
  rcases List.mem_append.1 (hcells ▸ hd) with hbefore | hbehind
  · have hlt := (List.pairwise_append.1 hpairs).2.2 d hbefore last List.mem_cons_self
    exact Std.le_of_lt (label_lt_of_lt hd hmem hsame hlt)
  · rcases List.mem_cons.1 hbehind with rfl | hbehind
    · exact Std.le_refl _
    · have hnot := hafter d (List.mem_reverse.1 hbehind)
      simp [hcolumn] at hnot

/-- A column of the row holds what the cell with the greatest label in this column holds. -/
theorem get?_row_eq_some_iff (hasc : MapStore.AscendingAddresses run.cells) {column : Column}
    {content : Content} : run.row.cells.get? column = some content ↔
      ∃ c ∈ run.cells, c.column = column ∧ c.content = content ∧
        ∀ d ∈ run.cells, d.column = column → d.content.label.text ≤ c.content.label.text := by
  have hlast : ∀ {last}, run.cells.reverse.find? (fun c => c.column == column) = some last →
      last ∈ run.cells ∧ last.column = column := by
    intro last h
    exact ⟨List.mem_reverse.1 (List.mem_of_find?_eq_some h), by simpa using List.find?_some h⟩
  rw [get?_row, Option.map_eq_some_iff]
  constructor
  · rintro ⟨last, hfind, rfl⟩
    exact ⟨last, (hlast hfind).1, (hlast hfind).2, rfl, fun d =>
      label_le_of_find?_reverse hasc hfind⟩
  · rintro ⟨c, hc, hcolumn, rfl, hgreatest⟩
    obtain ⟨last, hfind⟩ : ∃ last,
        run.cells.reverse.find? (fun c => c.column == column) = some last := by
      rw [← Option.isSome_iff_exists, List.find?_isSome]
      exact ⟨c, List.mem_reverse.2 hc, by simp [hcolumn]⟩
    obtain ⟨hmem, hcolumn'⟩ := hlast hfind
    have hlabel : last.content.label.text = c.content.label.text :=
      Std.le_antisymm (hgreatest last hmem hcolumn')
        (label_le_of_find?_reverse hasc hfind hc hcolumn)
    -- no two cells of the run have one address
    have haddress : last.address = c.address := by
      have hrow : last.row = c.row := (row_of_mem hmem).trans (row_of_mem hc).symm
      have hlabel' : last.content.label = c.content.label := congrArg Label.mk hlabel
      simp only [Cell.address, hrow, hcolumn, hcolumn', hlabel']
    have hnodup : (run.cells.map Cell.address).Nodup := by
      refine List.pairwise_map.2 (hasc.imp fun {a b} hlt heq => ?_)
      simp [heq] at hlt
    exact ⟨last, hfind, congrArg _ (List.inj_on_of_nodup_map hnodup hmem hc haddress)⟩

end Run

/-! ## Main result -/

namespace Cursor

/-- Taking rows from a cursor until none is left yields one row for each run of the cells, in order,
and each call leaves the cells behind its run.  The runs are maximal: together they are the cells,
and from each to the next the row changes.  A row has the id of its run, and in each column what the
last cell of the run in this column holds.

So the rows list the very cells, if these ascend strictly by row, family and qualifier.  If they
ascend strictly by row, family, qualifier and label, then so do the ids of the rows, and a column
holds what the cell with the greatest label holds. -/
theorem rows_ofCells (cells : List Cell) :
    ∃ taken, (ofCells cells).rows = .ok taken ∧ taken = rowsWithRest (runs cells) ∧
      (runs cells).flatMap Run.cells = cells ∧ RowsChange (runs cells) ∧
      (∀ run ∈ runs cells, run.row.id = run.id ∧ ∀ column, run.row.cells.get? column =
        (run.cells.reverse.find? fun c => c.column == column).map (·.content)) ∧
      (AscendingCells cells → taken.flatMap (fun p => p.1.toCells) = cells) ∧
      (MapStore.AscendingAddresses cells → (taken.map (·.1.id)).Pairwise (· < ·) ∧
        ∀ run ∈ runs cells, ∀ column content, run.row.cells.get? column = some content ↔
          ∃ c ∈ run.cells, c.column = column ∧ c.content = content ∧
            ∀ d ∈ run.cells, d.column = column →
              d.content.label.text ≤ c.content.label.text) := by
  have hrows : (ofCells cells).rows = .ok (rowsWithRest (runs cells)) := by
    have htaken := rows_flatMap_cells (rowsChange_runs cells)
    rwa [flatMap_cells_runs] at htaken
  refine ⟨_, hrows, rfl, flatMap_cells_runs cells, rowsChange_runs cells,
    fun run _ => ⟨run.id_row, run.get?_row⟩, ?_, ?_⟩
  · intro hasc
    calc (rowsWithRest (runs cells)).flatMap (fun p => p.1.toCells)
        = ((rowsWithRest (runs cells)).map (·.1)).flatMap Row.toCells := (List.flatMap_map ..).symm
      _ = (runs cells).flatMap fun run => run.row.toCells := by
        rw [map_fst_rowsWithRest, List.flatMap_map]
      _ = (runs cells).flatMap Run.cells :=
        List.flatMap_congr fun run hrun => Run.toCells_row (hasc.ascendingColumns hrun)
      _ = cells := flatMap_cells_runs cells
  · intro hasc
    constructor
    · have hids : (rowsWithRest (runs cells)).map (·.1.id) = (runs cells).map Run.id := by
        have hmap := congrArg (List.map Row.id) (map_fst_rowsWithRest (runs cells))
        simpa [Function.comp_def] using hmap
      rw [hids]
      exact List.pairwise_map.2 ((ascendingRows_runs hasc).imp compareOfLessAndEq_eq_lt.1)
    · intro run hrun column content
      exact Run.get?_row_eq_some_iff (hasc.sublist (sublist_of_mem_runs hrun))

/-- Cells of a row `a`, one of them under two labels, and of a row `ab`. -/
def labelledCells : List Cell :=
  [⟨"a", ⟨"f", "q"⟩, ⟨⟨""⟩, [1]⟩⟩, ⟨"a", ⟨"f", "q"⟩, ⟨⟨"x"⟩, [2]⟩⟩,
    ⟨"a", ⟨"g", ""⟩, ⟨⟨""⟩, [3]⟩⟩, ⟨"ab", ⟨"f", "q"⟩, ⟨⟨""⟩, [4]⟩⟩]

/-- The rows list the cells, but for the one whose column has a greater label as well. -/
theorem rows_ofCells_labels :
    (∃ taken, (ofCells labelledCells).rows = .ok taken ∧ (taken.map (·.1.id)).Pairwise (· < ·) ∧
        taken.flatMap (fun p => p.1.toCells) = labelledCells.tail) ∧
      ∃ taken, (ofCells labelledCells.tail).rows = .ok taken ∧
        taken.flatMap (fun p => p.1.toCells) = labelledCells.tail := by
  constructor
  · obtain ⟨taken, hrows, htaken, -, -, -, -, hlabels⟩ := rows_ofCells labelledCells
    refine ⟨taken, hrows, (hlabels (by decide)).1, ?_⟩
    rw [htaken]
    decide
  · obtain ⟨taken, hrows, -, -, -, -, hcells, -⟩ := rows_ofCells labelledCells.tail
    refine ⟨taken, hrows, hcells ?_⟩
    unfold AscendingCells
    decide

end Cursor

end TaggedRows
