import TaggedRows.Proofs.Stream.Skipping

/-!
# Reading on after an error

An error of the store may come in the middle of a row.  The call that meets it hands it out, and the
cells of the row that it has taken by then are gone.  The next call starts behind the error, with
what is left of the row.

**What is left of a row is not read as the whole of it**, as long as no row that has a tag cell has
a cell below the tag column.  Either the rest begins above the tag column and is not recognized; or
it begins with another tag cell, and then the cells that are gone are tag cells too, which collapse
with this one when the row is filled (`CellStream.row?_of_run`).

What a call takes off the stream and what it answers belong together (`Codec.Outcome`).  The
**step** is one call, by induction along the runs before the cursor (`Codec.outcome_nextRecord`);
any number of calls follow by induction on them (`Codec.outcomes_calls`).
-/

namespace TaggedRows

open TaggedRows.Text

/-! ## Complete rows -/

/-- A row does not show whether cells in the column of the first cell of a run came before it. -/
theorem Run.ofCells?_append {run : Run} {earlier : List Cell}
    (h : ∀ c ∈ earlier, c.row = run.id ∧ c.column = run.first.column) :
    Row.ofCells? (earlier ++ run.cells) = some run.row := by
  cases earlier with
  | nil => rfl
  | cons c earlier =>
    have hid : (Row.ofRun c (earlier ++ run.cells)).id = run.row.id := by
      rw [Row.id_ofRun, Run.id_row]
      exact (h c List.mem_cons_self).1
    have hcells : (Row.ofRun c (earlier ++ run.cells)).cells = run.row.cells := by
      rw [Run.row, Row.cells_ofRun, Row.cells_ofRun, ← List.cons_append, List.map_append]
      refine SortedMap.ofList_append_of_key fun a ha => ?_
      obtain ⟨d, hd, rfl⟩ := List.mem_map.1 ha
      exact (h d hd).2
    rw [List.cons_append, Row.ofCells?_cons]
    exact congrArg some (congrArg₂ Row.mk hid hcells)

/-- No row that has a tag cell has a cell below the tag column. -/
def TagsLowest (cells : List Cell) : Prop :=
  ∀ t ∈ cells, t.isTag = true → ∀ c ∈ cells, c.row = t.row → compare c.column tagColumn ≠ .lt

instance (cells : List Cell) : Decidable (TagsLowest cells) :=
  inferInstanceAs (Decidable (∀ t ∈ cells, t.isTag = true → ∀ c ∈ cells, c.row = t.row →
    compare c.column tagColumn ≠ .lt))

namespace CellStream

/-- All cells of the stream, also those behind errors. -/
def okCells (s : CellStream) : List Cell := s.filterMap Except.toOption

/-- The row of an id, filled from all its cells in the stream; there is none without cells. -/
def row? (s : CellStream) (id : String) : Option Row :=
  Row.ofCells? (s.okCells.filter fun c => c.row == id)

theorem okCells_append (s t : CellStream) : okCells (s ++ t) = okCells s ++ okCells t :=
  List.filterMap_append

theorem okCells_map_ok (cells : List Cell) : okCells (cells.map .ok) = cells := by
  rw [okCells, List.filterMap_map]
  exact List.filterMap_some

theorem okCells_run (before : CellStream) (run : Run) (rest : CellStream) :
    okCells (before ++ (run.stream ++ rest)) = okCells before ++ (run.cells ++ okCells rest) := by
  rw [okCells_append, okCells_append, Run.stream, okCells_map_ok]

variable {before rest : CellStream} {run : Run}

/-- A row that the stream has left does not come back. -/
theorem row_ne_of_endsBefore
    (hasc : MapStore.AscendingAddresses (okCells (before ++ (run.stream ++ rest))))
    (hend : run.EndsBefore rest) (hrest : ¬ rest.Fails) : ∀ c ∈ okCells rest, c.row ≠ run.id := by
  rw [okCells_run] at hasc
  have hbehind := List.pairwise_append.1 (List.pairwise_append.1 hasc).2.1
  cases rest with
  | nil => simp [okCells]
  | cons item later =>
    cases item with
    | error e => exact absurd ⟨e, later, rfl⟩ hrest
    | ok next =>
      have hcells : okCells (.ok next :: later) = next :: okCells later := rfl
      rw [hcells] at hbehind ⊢
      have hnext : next.row ≠ run.id := hend next later rfl
      intro c hc
      rcases List.mem_cons.1 hc with rfl | hc
      · exact hnext
      · -- the row of `next` lies between the one of the run and the one of `c`
        intro heq
        have hlow : run.id ≤ next.row := Address.row_le_of_lt
          (hbehind.2.2 run.first List.mem_cons_self next List.mem_cons_self)
        have hhigh : next.row ≤ c.row := Address.row_le_of_lt
          ((List.pairwise_cons.1 hbehind.2.1).1 c hc)
        exact hnext (Std.le_antisymm (heq ▸ hhigh) hlow)

/-- What comes before a tag cell of its row is in the tag column. -/
theorem column_eq_of_before
    (hasc : MapStore.AscendingAddresses (okCells (before ++ (run.stream ++ rest))))
    (htags : TagsLowest (okCells (before ++ (run.stream ++ rest))))
    (htag : run.first.isTag = true) {c : Cell} (hc : c ∈ okCells before) (hrow : c.row = run.id) :
    c.column = run.first.column := by
  rw [okCells_run] at hasc htags
  have hfirst : run.first ∈ run.cells ++ okCells rest := List.mem_cons_self
  have hcolumn : run.first.column = tagColumn := by simpa [Cell.isTag] using htag
  have hlt : compare c.address run.first.address = .lt :=
    (List.pairwise_append.1 hasc).2.2 c hc run.first hfirst
  rcases Address.compare_eq_lt_iff.1 hlt with hrows | ⟨-, hcolumns | ⟨hcolumns, -⟩⟩
  · have hrows' : compare c.row run.id = .lt := hrows
    simp [hrow] at hrows'
  · have hcolumns' : compare c.column run.first.column = .lt := hcolumns
    rw [hcolumn] at hcolumns'
    exact absurd hcolumns' (htags run.first (List.mem_append_right _ hfirst) htag c
      (List.mem_append_left _ hc) hrow)
  · exact hcolumns

/-- A run that begins with a tag cell and is not cut off by an error is as good as the complete row,
even if cells of the row have been lost before it. -/
theorem row?_of_run
    (hasc : MapStore.AscendingAddresses (okCells (before ++ (run.stream ++ rest))))
    (htags : TagsLowest (okCells (before ++ (run.stream ++ rest))))
    (htag : run.first.isTag = true) (hend : run.EndsBefore rest) (hrest : ¬ rest.Fails) :
    row? (before ++ (run.stream ++ rest)) run.id = some run.row := by
  have hrun : run.cells.filter (fun c => c.row == run.id) = run.cells :=
    List.filter_eq_self.2 fun c hc => by simpa using Run.row_of_mem hc
  have hbehind : (okCells rest).filter (fun c => c.row == run.id) = [] :=
    List.filter_eq_nil_iff.2 fun c hc => by simpa using row_ne_of_endsBefore hasc hend hrest c hc
  rw [row?, okCells_run, List.filter_append, List.filter_append, hrun, hbehind, List.append_nil]
  refine Run.ofCells?_append fun c hc => ?_
  obtain ⟨hmem, hrow⟩ := List.mem_filter.1 hc
  have hrow' : c.row = run.id := by simpa using hrow
  exact ⟨hrow', column_eq_of_before hasc htags htag hmem hrow'⟩

end CellStream

open Cursor

namespace Codec

/-! ## One call -/

/-- What a call may take off the front of what is left of the stream `s`, and its answer to it. -/
inductive Outcome (codec : Codec) (s : CellStream) :
    CellStream → Except TableError (Option Record) → Prop
  /-- Cells are dropped, and the error behind them is handed out. -/
  | interrupted (cells : List Cell) (e : TableError) :
    Outcome codec s ((cells.map .ok : CellStream) ++ [.error e]) (.error e)
  /-- Cells are dropped, and behind them a row is taken up to its last cell.  It is decoded as if
  no cell of it had been lost. -/
  | decoded (cells : List Cell) (run : Run) (row : Row) (h : s.row? run.id = some row) :
    Outcome codec s ((cells.map .ok : CellStream) ++ run.stream) ((codec.decode row).map some)
  /-- Cells are dropped, and there is no record. -/
  | nothing (cells : List Cell) : Outcome codec s (cells.map .ok) (.ok none)

variable {codec : Codec} {skip : Bool} {s : CellStream}

theorem Outcome.run_append {part : CellStream} {answer : Except TableError (Option Record)}
    (h : Outcome codec s part answer) (run : Run) :
    Outcome codec s (run.stream ++ part) answer := by
  cases h with
  | interrupted cells e =>
    rw [Run.stream, ← List.append_assoc, ← List.map_append]
    exact .interrupted (run.cells ++ cells) e
  | decoded cells other row h =>
    rw [Run.stream, ← List.append_assoc, ← List.map_append]
    exact .decoded (run.cells ++ cells) other row h
  | nothing cells =>
    rw [Run.stream, ← List.map_append]
    exact .nothing (run.cells ++ cells)

/-- A record is decoded from a complete row. -/
theorem Outcome.exists_row {part : CellStream} {answer : Except TableError (Option Record)}
    (h : Outcome codec s part answer) {record : Record} (hrecord : answer = .ok (some record)) :
    ∃ id row, s.row? id = some row ∧ codec.decode row = .ok record := by
  cases h with
  | interrupted cells e => cases hrecord
  | decoded cells run row h =>
    cases hdecode : codec.decode row with
    | error e =>
      rw [hdecode] at hrecord
      cases hrecord
    | ok other =>
      rw [hdecode] at hrecord
      cases hrecord
      exact ⟨run.id, row, h, hdecode⟩
  | nothing cells => cases hrecord

/-- A recognized run is taken: with the error that cuts it off, or as a complete row. -/
theorem outcome_recognized {before rest : CellStream} {run : Run}
    (hs : s = before ++ (run.stream ++ rest)) (hasc : MapStore.AscendingAddresses s.okCells)
    (htags : TagsLowest s.okCells) (hrec : codec.recognizes run = true)
    (hend : run.EndsBefore rest) :
    ∃ part, run.stream ++ rest =
        part ++ (codec.nextRecord skip { rest := run.stream ++ rest }).2.pending ∧
      Outcome codec s part (codec.nextRecord skip { rest := run.stream ++ rest }).1 := by
  rw [nextRecord_recognized hrec]
  by_cases hfails : rest.Fails
  · obtain ⟨e, later, rfl⟩ := hfails
    exact ⟨run.stream ++ [.error e], by simp [takeRow, pending], .interrupted run.cells e⟩
  · obtain ⟨hrow, hpending⟩ := takeRow_run hend hfails
    rw [hrow, hpending]
    subst hs
    have hcomplete := CellStream.row?_of_run hasc htags (isTag_of_recognizes hrec) hend hfails
    exact ⟨run.stream, rfl, .decoded [] run run.row hcomplete⟩

/-- Whatever a call takes off the stream, its answer fits. -/
theorem outcome_nextRecord (codec : Codec) (skip : Bool) {before : CellStream} {c : Cursor}
    (hs : s = before ++ c.pending) (hasc : MapStore.AscendingAddresses s.okCells)
    (htags : TagsLowest s.okCells) :
    ∃ part, c.pending = part ++ (codec.nextRecord skip c).2.pending ∧
      Outcome codec s part (codec.nextRecord skip c).1 := by
  rw [nextRecord_eq_pending]
  generalize c.pending = todo at hs ⊢
  induction todo using CellStream.inductionOnRuns generalizing before with
  | nil =>
    rw [nextRecord_nil]
    exact ⟨[], rfl, .nothing []⟩
  | error e rest =>
    rw [nextRecord_error]
    exact ⟨[.error e], rfl, .interrupted [] e⟩
  | run run rest hend ih =>
    cases hrec : codec.recognizes run with
    | true => exact outcome_recognized hs hasc htags hrec hend
    | false =>
      cases skip with
      | false =>
        rw [nextRecord_stop hrec]
        exact ⟨[], rfl, .nothing []⟩
      | true =>
        rw [nextRecord_skip hrec hend]
        have hs' : s = (before ++ run.stream) ++ rest := by rw [hs, List.append_assoc]
        obtain ⟨part, hrest, hout⟩ := ih hs'
        exact ⟨run.stream ++ part, by rw [List.append_assoc, ← hrest], hout.run_append run⟩

/-! ## Calls one after the other -/

/-- The answers to calls one after the other, each with its own setting for unrecognized rows, and
the cursor after them.  An error does not end the calls. -/
def calls (codec : Codec) : List Bool → Cursor → List (Except TableError (Option Record)) × Cursor
  | [], c => ([], c)
  | skip :: skips, c =>
    let (answer, c) := codec.nextRecord skip c
    let (answers, c) := codec.calls skips c
    (answer :: answers, c)

theorem exists_of_mem_answers {parts : List CellStream}
    {answers : List (Except TableError (Option Record))}
    (h : List.Forall₂ (Outcome codec s) parts answers) {answer : Except TableError (Option Record)}
    (ha : answer ∈ answers) : ∃ part, Outcome codec s part answer := by
  induction h with
  | nil => cases ha
  | cons hout houts ih =>
    rcases List.mem_cons.1 ha with rfl | ha
    · exact ⟨_, hout⟩
    · exact ih ha

/-- Calls take the stream apart from its front, each of them one part. -/
theorem outcomes_calls (codec : Codec) (skips : List Bool) {before : CellStream} {c : Cursor}
    (hs : s = before ++ c.pending) (hasc : MapStore.AscendingAddresses s.okCells)
    (htags : TagsLowest s.okCells) :
    ∃ parts : List CellStream, c.pending = parts.flatten ++ (codec.calls skips c).2.pending ∧
      List.Forall₂ (Outcome codec s) parts (codec.calls skips c).1 := by
  induction skips generalizing before c with
  | nil => exact ⟨[], rfl, .nil⟩
  | cons skip skips ih =>
    obtain ⟨part, htaken, hout⟩ := outcome_nextRecord codec skip hs hasc htags
    have hs' : s = (before ++ part) ++ (codec.nextRecord skip c).2.pending := by
      rw [List.append_assoc, ← htaken, hs]
    obtain ⟨parts, hparts, houts⟩ := ih hs'
    refine ⟨part :: parts, ?_, .cons hout houts⟩
    rw [List.flatten_cons, List.append_assoc, htaken]
    exact congrArg (part ++ ·) hparts

/-- Reading on after errors never yields a half-read row.  However often the next record is asked
for, and whether or not unrecognized rows are passed over, every record is what the complete row of
some id decodes to; and the part of the stream taken by one call has at most one error in it, at its
end, which is what this call answers. -/
theorem calls_interrupted (codec : Codec) (skips : List Bool) {s : CellStream}
    (hasc : MapStore.AscendingAddresses s.okCells) (htags : TagsLowest s.okCells) :
    (∀ record, .ok (some record) ∈ (codec.calls skips { rest := s }).1 →
        ∃ id row, s.row? id = some row ∧ codec.decode row = .ok record) ∧
      ∃ parts : List CellStream,
        s = parts.flatten ++ (codec.calls skips { rest := s }).2.pending ∧
          List.Forall₂ (Outcome codec s) parts (codec.calls skips { rest := s }).1 := by
  -- before the first call nothing has been taken
  have hs : s = [] ++ pending { rest := s } := rfl
  obtain ⟨parts, hparts, houts⟩ := outcomes_calls codec skips hs hasc htags
  refine ⟨?_, parts, hparts, houts⟩
  intro record hrecord
  obtain ⟨part, hout⟩ := exists_of_mem_answers houts hrecord
  exact hout.exists_row rfl

/-- A row with two tag cells, and an error of the store between them. -/
def interruptedRow : CellStream :=
  [.ok (tagCell "a" "entity"), .error (.store "down"),
    .ok ⟨"a", tagColumn, ⟨⟨"x"⟩, Utf8.encode "entity"⟩⟩,
    .ok ⟨"a", ⟨"item", "k"⟩, ⟨.unrestricted, [49]⟩⟩]

/-- The first call hands out the error and loses a tag cell.  The second call reads the row from the
tag cell that is left, and this is what the complete row decodes to. -/
theorem calls_interrupted_two_tags :
    ((Codec.standard default).calls [true, false] { rest := interruptedRow }).1 =
        [.error (.store "down"),
          .ok (some (.entity ⟨some "a", .empty, .ofList [("k", "1")]⟩))] ∧
      ∃ id row, interruptedRow.row? id = some row ∧
        (Codec.standard default).decode row =
          .ok (.entity ⟨some "a", .empty, .ofList [("k", "1")]⟩) := by
  have hfirst : (Codec.standard default).nextRecord true { rest := interruptedRow } =
      (.error (.store "down"), { rest := interruptedRow.drop 2 }) := by
    have hrec : (Codec.standard default).recognizes ⟨tagCell "a" "entity", [], by simp⟩ = true :=
      rfl
    exact nextRecord_recognized hrec true _
  have hsecond : (Codec.standard default).nextRecord false { rest := interruptedRow.drop 2 } =
      (.ok (some (.entity ⟨some "a", .empty, .ofList [("k", "1")]⟩)), { rest := [] }) := by
    have hrec : (Codec.standard default).recognizes
        ⟨⟨"a", tagColumn, ⟨⟨"x"⟩, Utf8.encode "entity"⟩⟩,
          [⟨"a", ⟨"item", "k"⟩, ⟨.unrestricted, [49]⟩⟩], by simp⟩ = true := rfl
    exact nextRecord_recognized hrec false []
  have hcalls : ((Codec.standard default).calls [true, false] { rest := interruptedRow }).1 =
      [.error (.store "down"),
        .ok (some (.entity ⟨some "a", .empty, .ofList [("k", "1")]⟩))] := by
    simp only [calls, hfirst, hsecond]
  have hasc : MapStore.AscendingAddresses interruptedRow.okCells := by decide +kernel
  have htags : TagsLowest interruptedRow.okCells := by decide +kernel
  refine ⟨hcalls, ?_⟩
  apply (calls_interrupted (Codec.standard default) [true, false] hasc htags).1
  rw [hcalls]
  exact List.mem_cons_of_mem _ List.mem_cons_self

end Codec

end TaggedRows
