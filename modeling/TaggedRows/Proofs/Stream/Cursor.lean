import TaggedRows.Proofs.Stream.Runs

/-!
# What a cursor has yet to deliver

A cursor holds at most one cell back.  Together with the rest of the stream this cell makes up the
items still to come (`Cursor.pending`), and no reading tells a held cell from one at the head of the
stream (`Cursor.peek_eq`).  Taking cells until there are no more delivers these items, each once and
in order (`Cursor.drain_eq_pending`).

A cursor before a run takes the run as a row.  If the stream goes on with another row the cursor
stands before that row then (`Cursor.takeRow_run`).
-/

namespace TaggedRows

namespace Cursor

/-! ## Pending items -/

/-- The items not yet delivered. -/
def pending (c : Cursor) : CellStream := (c.held.toList.map .ok : CellStream) ++ c.rest

/-- A held cell is as good as one at the head of the stream. -/
theorem peek_eq (c : Cursor) : c.peek = peek { rest := c.pending } := by
  obtain ⟨rest, held⟩ := c
  cases held <;> rfl

theorem size_next_lt_of_error {c : Cursor} {e : TableError} (h : c.next.1 = .error e) :
    c.next.2.size < c.size := by
  obtain ⟨rest, held⟩ := c
  unfold next at h ⊢
  split at h <;> simp_all [size]

/-- Take cells until none remains. -/
def drain (c : Cursor) : CellStream :=
  match _h : c.next.1 with
  | .ok none => []
  | .ok (some cell) => .ok cell :: drain c.next.2
  | .error e => .error e :: drain c.next.2
termination_by c.size
decreasing_by
  · exact size_next_lt _h
  · exact size_next_lt_of_error _h

/-- Taking cells delivers the pending items, no more and no fewer. -/
theorem drain_eq_pending (c : Cursor) : c.drain = c.pending := by
  fun_induction drain c with
  | case1 c h =>
    obtain ⟨rest, held⟩ := c
    unfold next at h
    split at h <;> simp_all [pending]
  | case2 c cell h ih =>
    rw [ih]
    obtain ⟨rest, held⟩ := c
    unfold next at h ⊢
    split at h <;> simp_all [pending]
  | case3 c e h ih =>
    rw [ih]
    obtain ⟨rest, held⟩ := c
    unfold next at h ⊢
    split at h <;> simp_all [pending]

/-! ## Taking a run -/

theorem takeRow_append (row : Row) {others : List Cell} (h : ∀ c ∈ others, c.row = row.id)
    (rest : CellStream) :
    takeRow row ((others.map .ok : CellStream) ++ rest) =
      takeRow (others.foldl Row.add row) rest := by
  induction others generalizing row with
  | nil => rfl
  | cons c others ih =>
    have hc : c.row = row.id := h c (by simp)
    have hothers : ∀ d ∈ others, d.row = (row.add c).id :=
      fun d hd => h d (List.mem_cons_of_mem _ hd)
    rw [List.map_cons, List.cons_append, takeRow, if_pos hc, ih _ hothers]
    rfl

theorem nextRow_eq (c : Cursor) : c.nextRow = nextRow { rest := c.pending } := by
  obtain ⟨rest, held⟩ := c
  cases held <;> rfl

/-- A cursor that has looked at the first cell of a run takes the run. -/
theorem nextRow_run (run : Run) (rest : CellStream) :
    nextRow ⟨(run.others.map .ok : CellStream) ++ rest, some run.first⟩ =
      ((takeRow run.row rest).1.map some, (takeRow run.row rest).2) := by
  have htake : takeRow ((Row.empty run.first.row).add run.first)
      ((run.others.map .ok : CellStream) ++ rest) = takeRow run.row rest :=
    takeRow_append _ run.row_eq rest
  rw [nextRow, next]
  simp only [htake]

/-- Before another row or the end of the stream the row of a run is complete, and the cursor stands
right behind the run. -/
theorem takeRow_run {run : Run} {rest : CellStream} (hend : run.EndsBefore rest)
    (hrest : ¬ rest.Fails) :
    (takeRow run.row rest).1 = .ok run.row ∧ (takeRow run.row rest).2.pending = rest := by
  cases rest with
  | nil => exact ⟨rfl, rfl⟩
  | cons item later =>
    cases item with
    | error e => exact absurd ⟨e, later, rfl⟩ hrest
    | ok cell =>
      have hrow : ¬ cell.row = run.row.id := by
        rw [Run.id_row]
        exact hend cell later rfl
      rw [takeRow, if_neg hrow]
      exact ⟨rfl, rfl⟩

/-- A cursor before a run takes the whole run, unless an error cuts it off. -/
theorem nextRow_stream_append {run : Run} {rest : CellStream} (hend : run.EndsBefore rest)
    (hrest : ¬ rest.Fails) :
    ∃ d, nextRow { rest := run.stream ++ rest } = (.ok (some run.row), d) ∧ d.pending = rest := by
  obtain ⟨hrow, hpending⟩ := takeRow_run hend hrest
  have hheld := nextRow_run run rest
  rw [hrow] at hheld
  exact ⟨_, (nextRow_eq _).symm.trans hheld, hpending⟩

end Cursor

end TaggedRows
