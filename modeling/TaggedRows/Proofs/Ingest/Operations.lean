import TaggedRows.Ingest.RowBuffer

/-!
# Operations on row buffers

What the operations on a row buffer can do is said once.  A write of the rows that wait has three
outcomes (`RowBuffer.flush_cases`).  An operation first takes up the row that it brings in
(`BufferOp.enqueued`), and then all rows go on waiting, or all are written, or all are dropped
(`BufferOp.run_cases`).

Between two operations a buffer is **sound** (`RowBuffer.Sound`): its count of bytes and its age fit
the rows that wait, each of which has a cell, and unless no row waits there is still space.
-/

namespace TaggedRows

theorem Cell.sizeSum_append (cells more : List Cell) :
    sizeSum (cells ++ more) = sizeSum cells + sizeSum more := by
  induction cells with
  | nil => exact (Nat.zero_add _).symm
  | cons c cells ih =>
    have hcons : ∀ cells, sizeSum (c :: cells) = c.size + sizeSum cells := fun _ => rfl
    rw [List.cons_append, hcons, hcons, ih, Nat.add_assoc]

/-! ## Writing the rows that wait -/

namespace RowBuffer

variable [Store σ] {b : RowBuffer}

/-- Without rows nothing happens.  Otherwise all rows are written at once and none waits any more;
the rows count as written if the store takes them. -/
theorem flush_cases (b : RowBuffer) (store : σ) :
    (b.pending = [] ∧ b.flush store = (.ok (), b, store)) ∨
      b.pending ≠ [] ∧ ∃ after,
        (Store.write store b.pending = (.ok (), after) ∧ b.flush store =
          (.ok (), { b.clear with rowsWritten := b.rowsWritten + b.pending.length }, after)) ∨
        ∃ e, Store.write store b.pending = (.error e, after) ∧
          b.flush store = (.error e, b.clear, after) := by
  by_cases hempty : b.pending = []
  · exact .inl ⟨hempty, if_pos hempty⟩
  · refine .inr ⟨hempty, ?_⟩
    rcases hwrite : Store.write store b.pending with ⟨e | ⟨⟩, after⟩
    · refine ⟨after, .inr ⟨e, rfl, ?_⟩⟩
      rw [flush, if_neg hempty, hwrite]
    · refine ⟨after, .inl ⟨rfl, ?_⟩⟩
      rw [flush, if_neg hempty, hwrite]

/-- A write leaves the buffer as it is if it has no rows, and clears it otherwise. -/
theorem buffer_flush (b : RowBuffer) (store : σ) :
    (b.pending = [] ∧ (b.flush store).2.1 = b) ∨
      ∃ written, (b.flush store).2.1 = { b.clear with rowsWritten := written } := by
  rcases b.flush_cases store with ⟨hempty, hflush⟩ | ⟨-, after, ⟨-, hflush⟩ | ⟨e, -, hflush⟩⟩
  · rw [hflush]
    exact .inl ⟨hempty, rfl⟩
  · rw [hflush]
    exact .inr ⟨_, rfl⟩
  · rw [hflush]
    exact .inr ⟨b.rowsWritten, rfl⟩

theorem pending_flush (b : RowBuffer) (store : σ) : (b.flush store).2.1.pending = [] := by
  rcases b.buffer_flush store with ⟨hempty, hbuffer⟩ | ⟨written, hbuffer⟩
  · rw [hbuffer, hempty]
  · rw [hbuffer]
    rfl

/-- What is let go after a write has no rows left to write. -/
theorem release_flush (b : RowBuffer) (store : σ) :
    (b.flush store).2.1.release (b.flush store).2.2 = (b.flush store).2.2 := by
  rw [release, flush, if_pos (b.pending_flush store)]

/-- Closing writes the rows that wait, once, and says whether the store took them. -/
theorem close_eq (b : RowBuffer) (store : σ) :
    b.close store = ((b.flush store).1, b.release store) := by
  show ((b.flush store).1, (b.flush store).2.1.release (b.flush store).2.2) = _
  rw [release_flush]
  rfl

/-! ## Sound buffers -/

/-- The count of bytes and the age fit the rows that wait, and each of these has a cell. -/
structure Consistent (b : RowBuffer) : Prop where
  bytes : b.pendingBytes = Cell.sizeSum b.pending.flatten
  oldest : b.oldest.isSome = true ↔ b.pending ≠ []
  rows : ∀ row ∈ b.pending, row ≠ []

/-- The buffer is consistent, and unless no row waits there is still space. -/
structure Sound (b : RowBuffer) : Prop extends b.Consistent where
  space : b.pending = [] ∨ b.pendingBytes < b.limits.maxBytes

theorem sound_of_pending_eq_nil (hbytes : b.pendingBytes = 0) (holdest : b.oldest = none)
    (hpending : b.pending = []) : b.Sound where
  bytes := by
    rw [hbytes, hpending]
    rfl
  oldest := by simp [holdest, hpending]
  rows := by simp [hpending]
  space := .inl hpending

/-- A row with a cell can be taken up. -/
theorem Consistent.enqueue (h : b.Consistent) {row : List Cell} (hrow : row ≠ []) (arrival : Nat) :
    (b.enqueue row arrival).Consistent where
  bytes := by
    have hbytes : (b.enqueue row arrival).pendingBytes = b.pendingBytes + Cell.sizeSum row := rfl
    have hpending : (b.enqueue row arrival).pending = b.pending ++ [row] := rfl
    rw [hbytes, hpending, h.bytes, List.flatten_concat, Cell.sizeSum_append]
  oldest := by simp [RowBuffer.enqueue]
  rows := by
    intro other hother
    rcases List.mem_append.1 hother with hother | hother
    · exact h.rows other hother
    · obtain rfl := List.mem_singleton.1 hother
      exact hrow

theorem Consistent.sound_flush (h : b.Consistent) (store : σ) : (b.flush store).2.1.Sound := by
  rcases b.buffer_flush store with ⟨hempty, hbuffer⟩ | ⟨written, hbuffer⟩
  · rw [hbuffer]
    exact { h with space := .inl hempty }
  · rw [hbuffer]
    exact sound_of_pending_eq_nil rfl rfl rfl

end RowBuffer

/-! ## Operations -/

/-- An operation on a row buffer, with the readings of the clock. -/
inductive BufferOp where
  | addRow (row : List Cell) (arrival now : Nat)
  | flush
  | flushStale (now : Nat)
  | discard

namespace BufferOp

/-- The row that the operation brings in.  A row without cells is none. -/
def rows : BufferOp → List (List Cell)
  | addRow row _ _ => if row = [] then [] else [row]
  | flush | flushStale _ | discard => []

/-- The buffer with the row of the operation taken up. -/
def enqueued (op : BufferOp) (b : RowBuffer) : RowBuffer :=
  match op with
  | addRow row arrival _ => if row = [] then b else b.enqueue row arrival
  | flush | flushStale _ | discard => b

/-- Run an operation on a buffer and the store beside it. -/
def run [Store σ] (op : BufferOp) (b : RowBuffer) (store : σ) :
    Except TableError Unit × RowBuffer × σ :=
  match op with
  | addRow row arrival now => b.addRow store row arrival now
  | flush => b.flush store
  | flushStale now =>
    let (answer, rest) := b.flushStale store now
    (answer.map fun _ => (), rest)
  | discard => (.ok (), b.discard.2, store)

variable {op : BufferOp} {b : RowBuffer}

/-- Either no row comes in, or a row with a cell is taken up. -/
theorem enqueued_cases (op : BufferOp) (b : RowBuffer) :
    (op.rows = [] ∧ op.enqueued b = b) ∨
      ∃ row arrival, row ≠ [] ∧ op.rows = [row] ∧ op.enqueued b = b.enqueue row arrival := by
  cases op with
  | addRow row arrival now =>
    by_cases hrow : row = []
    · exact .inl ⟨if_pos hrow, if_pos hrow⟩
    · refine .inr ⟨row, arrival, hrow, ?_, if_neg hrow⟩
      rw [rows, if_neg hrow]
  | flush | flushStale | discard => exact .inl ⟨rfl, rfl⟩

theorem pending_enqueued (op : BufferOp) (b : RowBuffer) :
    (op.enqueued b).pending = b.pending ++ op.rows := by
  rcases op.enqueued_cases b with ⟨hrows, hbuffer⟩ | ⟨row, arrival, -, hrows, hbuffer⟩
  · rw [hbuffer, hrows, List.append_nil]
  · rw [hbuffer, hrows]
    rfl

@[simp] theorem limits_enqueued (op : BufferOp) (b : RowBuffer) :
    (op.enqueued b).limits = b.limits := by
  rcases op.enqueued_cases b with ⟨-, hbuffer⟩ | ⟨row, arrival, -, -, hbuffer⟩
  · rw [hbuffer]
  · rw [hbuffer]
    rfl

@[simp] theorem rowsWritten_enqueued (op : BufferOp) (b : RowBuffer) :
    (op.enqueued b).rowsWritten = b.rowsWritten := by
  rcases op.enqueued_cases b with ⟨-, hbuffer⟩ | ⟨row, arrival, -, -, hbuffer⟩
  · rw [hbuffer]
  · rw [hbuffer]
    rfl

theorem consistent_enqueued (op : BufferOp) (h : b.Consistent) : (op.enqueued b).Consistent := by
  rcases op.enqueued_cases b with ⟨-, hbuffer⟩ | ⟨row, arrival, hrow, -, hbuffer⟩
  · rwa [hbuffer]
  · rw [hbuffer]
    exact h.enqueue hrow arrival

/-- With its row taken up, an operation lets the rows wait on, writes them, or drops them.  It lets
them wait on only if no row came in or there is still space. -/
theorem run_cases [Store σ] (op : BufferOp) (b : RowBuffer) (store : σ) :
    (op.run b store = (.ok (), op.enqueued b, store) ∧ op ≠ discard ∧
        (op.enqueued b = b ∨ (op.enqueued b).pendingBytes < b.limits.maxBytes)) ∨
      (op.run b store = (op.enqueued b).flush store ∧ op ≠ discard) ∨
      op = discard := by
  cases op with
  | addRow row arrival now =>
    by_cases hrow : row = []
    · refine .inl ⟨?_, by simp, .inl ?_⟩
      · rw [run, RowBuffer.addRow, if_pos hrow, enqueued, if_pos hrow]
      · rw [enqueued, if_pos hrow]
    · have henqueued : (addRow row arrival now).enqueued b = b.enqueue row arrival := if_neg hrow
      rw [henqueued, run, RowBuffer.addRow, if_neg hrow]
      -- the rows are written if they take up too much or the oldest has waited too long
      by_cases hdue : ((b.enqueue row arrival).isFull || (b.enqueue row arrival).isStale now) = true
      · exact .inr (.inl ⟨if_pos hdue, by simp⟩)
      · refine .inl ⟨if_neg hdue, by simp, .inr ?_⟩
        have hspace : (b.enqueue row arrival).isFull = false := by
          rw [Bool.not_eq_true, Bool.or_eq_false_iff] at hdue
          exact hdue.1
        exact Nat.lt_of_not_le (of_decide_eq_false hspace)
  | flush => exact .inr (.inl ⟨rfl, by simp⟩)
  | flushStale now =>
    rw [run, RowBuffer.flushStale]
    by_cases hstale : b.isStale now = true
    · refine .inr (.inl ⟨?_, by simp⟩)
      rw [if_pos hstale]
      -- only the answer that rows were written is lost
      show (((b.flush store).1.map _).map _, (b.flush store).2) = b.flush store
      rcases b.flush store with ⟨e | ⟨⟩, rest⟩
      · rfl
      · rfl
    · refine .inl ⟨?_, by simp, .inl rfl⟩
      rw [if_neg hstale]
      rfl
  | discard => exact .inr (.inr rfl)

/-- An operation that fails leaves a cleared buffer. -/
theorem clear_of_run_error [Store σ] {store store' : σ} {after : RowBuffer} {e : TableError}
    (h : op.run b store = (.error e, after, store')) : after.pending = [] ∧ after.clear = after := by
  rcases op.run_cases b store with ⟨hrun, -⟩ | ⟨hrun, -⟩ | rfl
  · rw [hrun] at h
    cases h
  · rw [hrun] at h
    rcases (op.enqueued b).flush_cases store with
      ⟨-, hflush⟩ | ⟨-, rest, ⟨-, hflush⟩ | ⟨e', -, hflush⟩⟩
    · rw [hflush] at h
      cases h
    · rw [hflush] at h
      cases h
    · rw [hflush] at h
      cases h
      exact ⟨rfl, rfl⟩
  · cases h

theorem limits_run [Store σ] (op : BufferOp) (b : RowBuffer) (store : σ) :
    (op.run b store).2.1.limits = b.limits := by
  rcases op.run_cases b store with ⟨hrun, -⟩ | ⟨hrun, -⟩ | rfl
  · rw [hrun, limits_enqueued]
  · rw [hrun]
    rcases (op.enqueued b).buffer_flush store with ⟨-, hbuffer⟩ | ⟨written, hbuffer⟩
    · rw [hbuffer, limits_enqueued]
    · rw [hbuffer]
      exact limits_enqueued op b
  · rfl

/-- Every operation leaves a sound buffer. -/
theorem sound_run [Store σ] (op : BufferOp) (h : b.Sound) (store : σ) :
    (op.run b store).2.1.Sound := by
  have hconsistent := consistent_enqueued op h.toConsistent
  rcases op.run_cases b store with ⟨hrun, -, hbuffer | hspace⟩ | ⟨hrun, -⟩ | rfl
  · rw [hrun, hbuffer]
    exact h
  · rw [hrun]
    exact { hconsistent with space := .inr (by rwa [limits_enqueued]) }
  · rw [hrun]
    exact hconsistent.sound_flush store
  · exact RowBuffer.sound_of_pending_eq_nil rfl rfl rfl

end BufferOp

end TaggedRows
