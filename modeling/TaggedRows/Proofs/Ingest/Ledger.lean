import TaggedRows.Proofs.Ingest.Operations
import TaggedRows.Store.Faulty
import TaggedRows.Store.Map

/-!
# The ledger of a row buffer

Rows leave a buffer in two ways: a batch of them is handed to the store, which takes or rejects it,
or they are dropped.  A **ledger** has an entry for each time that rows left, in order
(`Departure`).  A store can keep it, since it is asked for every batch (`LedgerStore`); rows that
are dropped are entered beside it.

An entry is always about all rows that wait.  So whatever operations are run on a buffer, and
whichever writes the store rejects, the rows in the ledger and behind them the rows that wait are
the rows that were added, in order (`RowBuffer.runAll_ledger`).
-/

namespace TaggedRows

/-! ## Ledgers -/

/-- Rows that left a buffer together. -/
inductive Departure where
  /-- The rows were handed to the store, which gave an answer. -/
  | handed (rows : List (List Cell)) (answer : Except TableError Unit)
  /-- The rows were dropped. -/
  | dropped (rows : List (List Cell))

namespace Departure

/-- The rows that left. -/
def rows : Departure → List (List Cell)
  | handed rows _ | dropped rows => rows

/-- The rows that the store took. -/
def taken : Departure → List (List Cell)
  | handed rows (.ok _) => rows
  | handed _ (.error _) | dropped _ => []

/-- The rows that the store rejected. -/
def rejected : Departure → List (List Cell)
  | handed rows (.error _) => rows
  | handed _ (.ok _) | dropped _ => []

theorem length_handed (rows : List (List Cell)) (answer : Except TableError Unit) :
    rows.length = (handed rows answer).taken.length + (handed rows answer).rejected.length := by
  cases answer with
  | error e => exact (Nat.zero_add _).symm
  | ok _ => rfl

end Departure

/-- A store and a ledger of what it was handed. -/
structure LedgerStore (σ : Type) where
  store : σ
  ledger : List Departure := []

namespace LedgerStore

/-- Enter rows that left. -/
def enter (s : LedgerStore σ) (d : Departure) : LedgerStore σ :=
  { s with ledger := s.ledger ++ [d] }

/-- The rows in the ledger. -/
def rows (s : LedgerStore σ) : List (List Cell) := s.ledger.flatMap Departure.rows

/-- The rows in the ledger that the store took. -/
def taken (s : LedgerStore σ) : List (List Cell) := s.ledger.flatMap Departure.taken

/-- The rows in the ledger that the store rejected. -/
def rejected (s : LedgerStore σ) : List (List Cell) := s.ledger.flatMap Departure.rejected

instance [Store σ] : Store (LedgerStore σ) where
  scan s range := Store.scan s.store range
  write s rows :=
    let (answer, store) := Store.write s.store rows
    (answer, { s with store }.enter (.handed rows answer))

theorem rows_of_ledger_eq {s t : LedgerStore σ} {d : Departure} (h : t.ledger = s.ledger ++ [d]) :
    t.rows = s.rows ++ d.rows := by
  simp [rows, h]

theorem taken_of_ledger_eq {s t : LedgerStore σ} {d : Departure}
    (h : t.ledger = s.ledger ++ [d]) : t.taken = s.taken ++ d.taken := by
  simp [taken, h]

/-- A write enters what was handed over and how the store answered. -/
theorem ledger_write [Store σ] (s : LedgerStore σ) (rows : List (List Cell)) :
    (Store.write s rows).2.ledger = s.ledger ++ [.handed rows (Store.write s rows).1] := rfl

/-- A write is answered by the store itself. -/
theorem store_write [Store σ] {s after : LedgerStore σ} {rows : List (List Cell)}
    {answer : Except TableError Unit} (h : Store.write s rows = (answer, after)) :
    Store.write s.store rows = (answer, after.store) := by
  have hanswer : (Store.write s.store rows).1 = answer := congrArg Prod.fst h
  have hstore : (Store.write s.store rows).2 = after.store := congrArg (fun p => p.2.store) h
  exact Prod.ext hanswer hstore

end LedgerStore

/-! ## One operation -/

variable [Store σ]

/-- A write of the rows that wait has an entry in the ledger, unless there are none. -/
theorem RowBuffer.flush_ledger (b : RowBuffer) (s : LedgerStore σ) :
    (b.pending = [] ∧ b.flush s = (.ok (), b, s)) ∨
      ((b.flush s).2.2.ledger = s.ledger ++ [.handed b.pending (b.flush s).1] ∧
        (b.flush s).2.1 = { b.clear with
          rowsWritten := b.rowsWritten + (Departure.handed b.pending (b.flush s).1).taken.length }) := by
  rcases b.flush_cases s with hempty | ⟨-, after, ⟨hwrite, hflush⟩ | ⟨e, hwrite, hflush⟩⟩
  · exact .inl hempty
  · have hledger := s.ledger_write b.pending
    rw [hwrite] at hledger
    rw [hflush]
    exact .inr ⟨hledger, rfl⟩
  · have hledger := s.ledger_write b.pending
    rw [hwrite] at hledger
    rw [hflush]
    exact .inr ⟨hledger, rfl⟩

/-- The ledger changes nothing about a write. -/
theorem RowBuffer.flush_store (b : RowBuffer) (s : LedgerStore σ) :
    b.flush s.store = ((b.flush s).1, (b.flush s).2.1, (b.flush s).2.2.store) := by
  rcases b.flush_cases s with
    ⟨hempty, hflush⟩ | ⟨hrows, after, ⟨hwrite, hflush⟩ | ⟨e, hwrite, hflush⟩⟩
  · rw [hflush, flush, if_pos hempty]
  · rw [hflush, flush, if_neg hrows, LedgerStore.store_write hwrite]
  · rw [hflush, flush, if_neg hrows, LedgerStore.store_write hwrite]

theorem RowBuffer.addRow_store (b : RowBuffer) (s : LedgerStore σ) (row : List Cell)
    (arrival now : Nat) : b.addRow s.store row arrival now = ((b.addRow s row arrival now).1,
      (b.addRow s row arrival now).2.1, (b.addRow s row arrival now).2.2.store) := by
  by_cases hrow : row = []
  · simp [addRow, hrow]
  · simp only [addRow, if_neg hrow]
    split
    · exact flush_store _ s
    · rfl

theorem RowBuffer.flushStale_store (b : RowBuffer) (s : LedgerStore σ) (now : Nat) :
    b.flushStale s.store now = ((b.flushStale s now).1, (b.flushStale s now).2.1,
      (b.flushStale s now).2.2.store) := by
  simp only [flushStale]
  split
  · rw [flush_store]
  · rfl

namespace BufferOp

/-- Run an operation over a store with a ledger.  Rows that it drops are entered, too. -/
def runLedgered (op : BufferOp) (b : RowBuffer) (s : LedgerStore σ) :
    Except TableError Unit × RowBuffer × LedgerStore σ :=
  match op with
  | discard => (.ok (), b.discard.2, s.enter (.dropped b.pending))
  | addRow .. | flush | flushStale _ => op.run b s

/-- The ledger changes nothing: answer, buffer and store are those of a run without it. -/
theorem run_store (op : BufferOp) (b : RowBuffer) (s : LedgerStore σ) :
    op.run b s.store = ((op.runLedgered b s).1, (op.runLedgered b s).2.1,
      (op.runLedgered b s).2.2.store) := by
  cases op with
  | addRow row arrival now => exact b.addRow_store s row arrival now
  | flush => exact b.flush_store s
  | flushStale now =>
    simp only [runLedgered, run]
    rw [b.flushStale_store]
  | discard => rfl

theorem runLedgered_eq_run {op : BufferOp} (h : op ≠ discard) (b : RowBuffer) (s : LedgerStore σ) :
    op.runLedgered b s = op.run b s := by
  cases op with
  | discard => exact absurd rfl h
  | addRow | flush | flushStale => rfl

/-- An operation either enters nothing, and its row joins those that wait, or it enters these rows
and its own in one entry, and none waits afterwards.  The entry of a write has the answer of the
operation. -/
theorem runLedgered_cases (op : BufferOp) (b : RowBuffer) (s : LedgerStore σ) :
    ((op.runLedgered b s).1 = .ok () ∧ (op.runLedgered b s).2.1 = op.enqueued b ∧
        (op.runLedgered b s).2.2 = s) ∨
      ∃ d, (op.runLedgered b s).2.2.ledger = s.ledger ++ [d] ∧ d.rows = b.pending ++ op.rows ∧
        (op.runLedgered b s).2.1 =
          { (op.enqueued b).clear with rowsWritten := b.rowsWritten + d.taken.length } ∧
        ((op ≠ discard ∧ d = .handed (b.pending ++ op.rows) (op.runLedgered b s).1) ∨
          (op = discard ∧ d = .dropped b.pending ∧ (op.runLedgered b s).1 = .ok ())) := by
  rcases op.run_cases b s with ⟨hrun, hop, -⟩ | ⟨hrun, hop⟩ | rfl
  · rw [runLedgered_eq_run hop, hrun]
    exact .inl ⟨rfl, rfl, rfl⟩
  · rw [runLedgered_eq_run hop, hrun]
    rcases (op.enqueued b).flush_ledger s with ⟨-, hflush⟩ | ⟨hledger, hbuffer⟩
    · -- a write of no rows is none, so the store is not asked
      rw [hflush]
      exact .inl ⟨rfl, rfl, rfl⟩
    · rw [pending_enqueued] at hledger hbuffer
      rw [rowsWritten_enqueued] at hbuffer
      exact .inr ⟨_, hledger, rfl, hbuffer, .inl ⟨hop, rfl⟩⟩
  · exact .inr ⟨.dropped b.pending, rfl, (List.append_nil _).symm, rfl, .inr ⟨rfl, rfl, rfl⟩⟩

/-- A failed operation is one whose rows were handed to the store and rejected. -/
theorem runLedgered_error_iff {op : BufferOp} {b : RowBuffer} {s : LedgerStore σ} {e : TableError} :
    (op.runLedgered b s).1 = .error e ↔ (op.runLedgered b s).2.2.ledger =
      s.ledger ++ [.handed (b.pending ++ op.rows) (.error e)] := by
  rcases op.runLedgered_cases b s with ⟨hanswer, -, hs⟩ |
    ⟨d, hledger, -, -, ⟨-, rfl⟩ | ⟨-, rfl, hanswer⟩⟩
  · rw [hanswer, hs]
    simp
  · rw [hledger]
    simp
  · rw [hledger, hanswer]
    simp

end BufferOp

/-! ## Runs -/

namespace BufferOp

/-- Run operations one after the other. -/
def runAll (ops : List BufferOp) (b : RowBuffer) (s : LedgerStore σ) : RowBuffer × LedgerStore σ :=
  ops.foldl (fun p op => (op.runLedgered p.1 p.2).2) (b, s)

theorem limits_runAll (ops : List BufferOp) (b : RowBuffer) (s : LedgerStore σ) :
    (runAll ops b s).1.limits = b.limits := by
  induction ops generalizing b s with
  | nil => rfl
  | cons op ops ih =>
    have hstep : (op.runLedgered b s).2.1.limits = b.limits := by
      by_cases hop : op = discard
      · rw [hop]
        rfl
      · rw [runLedgered_eq_run hop, limits_run]
    exact (ih _ _).trans hstep

end BufferOp

/-- The books are balanced: the rows that were added are those in the ledger and those that wait, in
order, and the buffer counts the rows that the store took. -/
structure Balanced (added : List (List Cell)) (b : RowBuffer) (s : LedgerStore σ) : Prop where
  sound : b.Sound
  rows : s.rows ++ b.pending = added
  written : b.rowsWritten = s.taken.length

namespace Balanced

variable {added : List (List Cell)} {b : RowBuffer} {s : LedgerStore σ}

/-- An operation leaves the books balanced, with the row that it brings in among those added. -/
theorem runLedgered (h : Balanced added b s) (op : BufferOp) :
    Balanced (added ++ op.rows) (op.runLedgered b s).2.1 (op.runLedgered b s).2.2 where
  sound := by
    by_cases hop : op = .discard
    · rw [hop]
      exact RowBuffer.sound_of_pending_eq_nil rfl rfl rfl
    · rw [BufferOp.runLedgered_eq_run hop]
      exact op.sound_run h.sound s
  rows := by
    rw [← h.rows, List.append_assoc]
    rcases op.runLedgered_cases b s with ⟨-, hb, hs⟩ | ⟨d, hledger, hrows, hb, -⟩
    · rw [hb, hs, BufferOp.pending_enqueued]
    · rw [hb, LedgerStore.rows_of_ledger_eq hledger, hrows]
      exact List.append_nil _
  written := by
    rcases op.runLedgered_cases b s with ⟨-, hb, hs⟩ | ⟨d, hledger, -, hb, -⟩
    · rw [hb, hs, BufferOp.rowsWritten_enqueued, h.written]
    · rw [hb, LedgerStore.taken_of_ledger_eq hledger, h.written, List.length_append]

theorem runAll (h : Balanced added b s) (ops : List BufferOp) :
    Balanced (added ++ ops.flatMap BufferOp.rows) (BufferOp.runAll ops b s).1
      (BufferOp.runAll ops b s).2 := by
  -- along the run the balance carries the rows that were added so far
  induction ops generalizing added b s with
  | nil =>
    rw [List.flatMap_nil, List.append_nil]
    exact h
  | cons op ops ih =>
    have hops := ih (h.runLedgered op)
    rwa [List.append_assoc, ← List.flatMap_cons] at hops

/-- When the buffer is let go, all rows that were added are in the ledger. -/
theorem rows_release (h : Balanced added b s) : (b.release s).rows = added := by
  -- letting the buffer go is a write behind which nothing waits
  have hflush := (h.runLedgered .flush).rows
  have hpending : (BufferOp.flush.runLedgered b s).2.1.pending = [] := b.pending_flush s
  have hrelease : (BufferOp.flush.runLedgered b s).2.2 = b.release s := rfl
  rw [hpending, hrelease] at hflush
  simpa [BufferOp.rows] using hflush

end Balanced

/-! ## Main result -/

/-- The ledger of every run.  Whatever the limits and the clock say and whichever writes the store
rejects, after any operations

* the buffer is sound,
* the rows in the ledger and behind them the rows that wait are the rows that were added, in order,
* as many rows count as written as there are in the batches that the store took,
* the next operation fails exactly if the store rejects all rows that wait then, and leaves the
  buffer as if it were new, but for the number of rows written,
* and when the buffer is closed or let go, all rows are in the ledger, none of them twice; closing
  tells how the store answered. -/
theorem BufferOp.ledger_runAll (limits : BufferLimits) (store : σ) (ops : List BufferOp) :
    ∃ b s, runAll ops { limits } { store } = (b, s) ∧ b.limits = limits ∧ b.Sound ∧
      s.rows ++ b.pending = ops.flatMap rows ∧ b.rowsWritten = s.taken.length ∧
      (∀ (op : BufferOp) e,
        ((op.runLedgered b s).1 = .error e ↔ (op.runLedgered b s).2.2.ledger =
          s.ledger ++ [.handed (b.pending ++ op.rows) (.error e)]) ∧
        ((op.runLedgered b s).1 = .error e →
          (op.runLedgered b s).2.1 = { limits, rowsWritten := b.rowsWritten })) ∧
      (b.release s).rows = ops.flatMap rows ∧ b.close s = ((b.flush s).1, b.release s) := by
  obtain ⟨b, s, hrun⟩ : ∃ b s, runAll ops { limits } ({ store } : LedgerStore σ) = (b, s) :=
    ⟨_, _, rfl⟩
  have hlimits : b.limits = limits := by
    have hrunLimits := limits_runAll ops { limits } ({ store } : LedgerStore σ)
    rwa [hrun] at hrunLimits
  have hbooks : Balanced (ops.flatMap rows) b s := by
    have hnew : Balanced [] { limits } ({ store } : LedgerStore σ) :=
      ⟨RowBuffer.sound_of_pending_eq_nil rfl rfl rfl, rfl, rfl⟩
    have hrunBooks := hnew.runAll ops
    rwa [hrun] at hrunBooks
  refine ⟨b, s, hrun, hlimits, hbooks.sound, hbooks.rows, hbooks.written, ?_, hbooks.rows_release,
    b.close_eq s⟩
  intro op e
  refine ⟨runLedgered_error_iff, ?_⟩
  intro hanswer
  rcases op.runLedgered_cases b s with ⟨hok, -⟩ | ⟨d, -, -, hb, ⟨-, rfl⟩ | ⟨-, -, hok⟩⟩
  · rw [hok] at hanswer
    cases hanswer
  · rw [hb, hanswer]
    simp [RowBuffer.clear, Departure.taken, hlimits]
  · rw [hok] at hanswer
    cases hanswer

/-- A store rejects the first write, with the one row that waits.  The buffer starts over, and the
row is in the ledger. -/
theorem BufferOp.ledger_runAll_rejected :
    ∃ b s, runAll [.addRow [⟨"a", ⟨"f", "q"⟩, ⟨.unrestricted, []⟩⟩] 0 0] { limits := {} }
        { store := ({ store := .empty, rejectedWrites := [0] } : FaultyStore MapStore) } = (b, s) ∧
      (BufferOp.flush.runLedgered b s).2.1 = { limits := {} } ∧
      (b.release s).rows = [[⟨"a", ⟨"f", "q"⟩, ⟨.unrestricted, []⟩⟩]] := by
  obtain ⟨b, s, hrun, -, -, -, -, herror, hrelease, -⟩ := BufferOp.ledger_runAll {}
    ({ store := .empty, rejectedWrites := [0] } : FaultyStore MapStore)
    [.addRow [⟨"a", ⟨"f", "q"⟩, ⟨.unrestricted, []⟩⟩] 0 0]
  refine ⟨b, s, hrun, ?_, hrelease⟩
  cases hrun
  exact (herror .flush (.store "write rejected")).2 rfl

end TaggedRows
