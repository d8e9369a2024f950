import TaggedRows.Proofs.Ingest.Labels
import TaggedRows.Proofs.Ingest.Ledger

/-!
# What an intake counts

An intake counts the records that it accepts, while their rows go through its buffer and reach the
store in batches, some of which the store rejects.  The two sides are kept together by **books**
over a stretch of calls (`Intake.Books`):

* every record with a uuid is either accepted and counted, or its call fails in the store, and
* the rows of all these records, behind those that waited before, are handed over in batches or
  still wait, in order.

One call keeps such books (`IntakeOp.books_run`), and books of two stretches of calls can be put
together (`Intake.Books.cons`), so a whole run keeps them, from any state on
(`IntakeOp.books_runAll`).  From the beginning on they say what the count of accepted records is in
terms of batches.  From a failed call on they say that no row of its batch comes up again: no row
waits behind a failure, so whatever is handed over later was brought in later.
-/

namespace TaggedRows

/-! ## Batches -/

namespace LedgerStore

/-- If no rows were dropped, all rows in the ledger were taken or rejected. -/
theorem length_rows (s : LedgerStore σ)
    (h : ∀ d ∈ s.ledger, ∃ rows answer, d = .handed rows answer) :
    s.rows.length = s.taken.length + s.rejected.length := by
  unfold rows taken rejected
  generalize s.ledger = ledger at h
  induction ledger with
  | nil => rfl
  | cons d ledger ih =>
    obtain ⟨⟨batch, answer, rfl⟩, hledger⟩ := List.forall_mem_cons.1 h
    have hbatch := Departure.length_handed batch answer
    have hrest := ih hledger
    simp only [List.flatMap_cons, List.length_append]
    simp only [Departure.rows] at hrest ⊢
    omega

end LedgerStore

/-- The rows that an operation hands to the store, and behind them those that wait then, are the
rows that waited and the row that it brings in. -/
theorem BufferOp.ledger_run [Store σ] {op : BufferOp} (hop : op ≠ .discard) (b : RowBuffer)
    (s : LedgerStore σ) : ∃ later, (op.run b s).2.2.ledger = s.ledger ++ later ∧
      (∀ d ∈ later, ∃ rows answer, d = .handed rows answer) ∧
        later.flatMap Departure.rows ++ (op.run b s).2.1.pending = b.pending ++ op.rows := by
  rw [← runLedgered_eq_run hop]
  rcases op.runLedgered_cases b s with ⟨-, hb, hs⟩ | ⟨d, hledger, hrows, hb, hd⟩
  · refine ⟨[], by rw [hs, List.append_nil], by simp, ?_⟩
    rw [hb]
    exact pending_enqueued op b
  · refine ⟨[d], hledger, ?_, ?_⟩
    · intro d' hd'
      obtain rfl := List.mem_singleton.1 hd'
      rcases hd with ⟨-, rfl⟩ | ⟨hdiscard, -⟩
      · exact ⟨_, _, rfl⟩
      · exact absurd hdiscard hop
    · rw [hb, List.flatMap_singleton, hrows]
      exact List.append_nil _

/-! ## Records of a run -/

namespace IntakeOp

/-- The record that the call hands in, if it has a uuid and therefore a row. -/
def admitted? (op : IntakeOp) : Option LogRecord := op.record?.filter fun r => r.uuid ≠ ""

/-- The records with a uuid that calls hand in. -/
def admitted (ops : List IntakeOp) : List LogRecord := ops.filterMap admitted?

/-- The record of a call that failed in the store: it has a uuid, and yet there is an error. -/
def failed? (op : IntakeOp) : Except TableError (Option String) → Option LogRecord
  | .ok _ => none
  | .error _ => op.admitted?

/-- The records of the calls that failed in the store, by the answers to the calls. -/
def failed (ops : List IntakeOp) (answers : List (Except TableError (Option String))) :
    List LogRecord :=
  (ops.zip answers).filterMap fun (op, answer) => op.failed? answer

theorem admitted_cons (op : IntakeOp) (ops : List IntakeOp) :
    admitted (op :: ops) = op.admitted?.toList ++ admitted ops := by
  rw [admitted, List.filterMap_cons]
  cases op.admitted? <;> rfl

theorem failed_cons (op : IntakeOp) (ops : List IntakeOp)
    (answer : Except TableError (Option String))
    (answers : List (Except TableError (Option String))) :
    failed (op :: ops) (answer :: answers) =
      (op.failed? answer).toList ++ failed ops answers := by
  rw [failed, List.zip_cons_cons, List.filterMap_cons]
  cases h : op.failed? answer with
  | none => simp [h, failed]
  | some r => simp [h, failed]

theorem admitted_singleton (op : IntakeOp) : admitted [op] = op.admitted?.toList := by
  rw [admitted_cons]
  exact List.append_nil _

theorem failed_singleton (op : IntakeOp) (answer : Except TableError (Option String)) :
    failed [op] [answer] = (op.failed? answer).toList := by
  rw [failed_cons]
  exact List.append_nil _

theorem accepted_singleton (op : IntakeOp) (answer : Except TableError (Option String)) :
    accepted [op] [answer] = (answer.toOption.bind fun _ => op.record?).toList := by
  rw [accepted_cons]
  exact List.append_nil _

theorem admitted?_of_uuid_ne {op : IntakeOp} (h : ∀ r ∈ op.record?, r.uuid ≠ "") :
    op.admitted? = op.record? := by
  cases hr : op.record? with
  | none => rw [admitted?, hr, Option.filter_none]
  | some r => rw [admitted?, hr, Option.filter_some, if_pos (by simpa using h r hr)]

theorem admitted?_of_uuid_eq {op : IntakeOp} {r : LogRecord} (hr : op.record? = some r)
    (h : r.uuid = "") : op.admitted? = none := by
  rw [admitted?, hr, Option.filter_some, if_neg (by simpa using h)]

end IntakeOp

/-! ## Books -/

/-- The books over a stretch of calls, which lead from one intake and one ledger to others. -/
structure Intake.Books (tag : String) (i : Intake) (s : LedgerStore σ) (ops : List IntakeOp)
    (answers : List (Except TableError (Option String))) (j : Intake) (t : LedgerStore σ) :
    Prop where
  codec : j.codec = i.codec
  /-- The records that were accepted are counted. -/
  counted : j.accepted = i.accepted + (IntakeOp.accepted ops answers).length
  /-- A record with a uuid is accepted, or its call fails in the store. -/
  calls : (IntakeOp.admitted ops).length =
    (IntakeOp.accepted ops answers).length + (IntakeOp.failed ops answers).length
  /-- The rows of these records, behind those that waited before, were handed over in batches or
  wait now. -/
  rows : ∃ later, t.ledger = s.ledger ++ later ∧
    (∀ d ∈ later, ∃ rows answer, d = .handed rows answer) ∧
      later.flatMap Departure.rows ++ j.buffer.pending =
        i.buffer.pending ++ (IntakeOp.admitted ops).map (i.codec.logRow tag)

namespace Intake.Books

variable {tag : String} {i j k : Intake} {s t u : LedgerStore σ}

theorem nil : Books tag i s [] [] i s where
  codec := rfl
  counted := rfl
  calls := rfl
  rows := ⟨[], (List.append_nil _).symm, by simp, (List.append_nil _).symm⟩

/-- The books of a call and those of the calls behind it make up the books of all. -/
theorem cons {op : IntakeOp} {ops : List IntakeOp} {answer : Except TableError (Option String)}
    {answers : List (Except TableError (Option String))} (h : Books tag i s [op] [answer] j t)
    (h' : Books tag j t ops answers k u) :
    Books tag i s (op :: ops) (answer :: answers) k u where
  codec := h'.codec.trans h.codec
  counted := by
    have hfirst := h.counted
    have hrest := h'.counted
    rw [IntakeOp.accepted_singleton] at hfirst
    rw [IntakeOp.accepted_cons, List.length_append]
    omega
  calls := by
    have hfirst := h.calls
    have hrest := h'.calls
    rw [IntakeOp.accepted_singleton, IntakeOp.admitted_singleton,
      IntakeOp.failed_singleton] at hfirst
    rw [IntakeOp.accepted_cons, IntakeOp.admitted_cons, IntakeOp.failed_cons]
    simp only [List.length_append]
    omega
  rows := by
    obtain ⟨first, hfirst, hhanded, hrows⟩ := h.rows
    obtain ⟨rest, hrest, hhanded', hrows'⟩ := h'.rows
    refine ⟨first ++ rest, ?_, List.forall_mem_append.2 ⟨hhanded, hhanded'⟩, ?_⟩
    · rw [hrest, hfirst, List.append_assoc]
    · rw [h.codec] at hrows'
      rw [List.flatMap_append, List.append_assoc, hrows', ← List.append_assoc, hrows,
        IntakeOp.admitted_singleton, IntakeOp.admitted_cons, List.map_append, List.append_assoc]

end Intake.Books

namespace IntakeOp

variable [Store σ] {i : Intake} {tag : String}

/-- A call keeps the books. -/
theorem books_run (htag : i.codec.WritesUnder .logRecord tag) (op : IntakeOp)
    (s : LedgerStore σ) :
    Intake.Books tag i s [op] [(op.run i s).1] (op.run i s).2.1 (op.run i s).2.2 := by
  rcases run_buffer htag op s with ⟨r, hr, hempty, hrun⟩ | ⟨bop, hbop, huuid, hrows, b, t, hcall⟩
  · -- a record without a uuid is in no list and changes nothing
    have hadmitted := admitted?_of_uuid_eq hr hempty
    rw [hrun]
    constructor
    · rfl
    · rw [accepted_singleton]
      rfl
    · rw [accepted_singleton, admitted_singleton, failed_singleton, failed?, hadmitted]
      rfl
    · rw [admitted_singleton, hadmitted]
      exact ⟨[], (List.append_nil _).symm, by simp, (List.append_nil _).symm⟩
  · have hadmitted := admitted?_of_uuid_ne huuid
    have hledger := bop.ledger_run hbop i.buffer s
    rw [hrows, ← hadmitted, ← admitted_singleton] at hledger
    rcases hcall with ⟨hbuffer, hrun⟩ | ⟨e, hbuffer, hrun⟩
    · rw [hbuffer] at hledger
      rw [hrun]
      refine ⟨rfl, ?_, ?_, hledger⟩
      · rw [accepted_singleton]
        rfl
      · rw [accepted_singleton, admitted_singleton, failed_singleton, hadmitted]
        rfl
    · rw [hbuffer] at hledger
      rw [hrun]
      refine ⟨rfl, ?_, ?_, hledger⟩
      · rw [accepted_singleton]
        rfl
      · rw [accepted_singleton, admitted_singleton, failed_singleton, failed?]
        exact (Nat.zero_add _).symm

/-- A run keeps the books, whatever waits before it. -/
theorem books_runAll (htag : i.codec.WritesUnder .logRecord tag) (ops : List IntakeOp)
    (s : LedgerStore σ) :
    Intake.Books tag i s ops (runAll ops i s).1 (runAll ops i s).2.1 (runAll ops i s).2.2 := by
  induction ops generalizing i s with
  | nil => exact .nil
  | cons op ops ih =>
    have hcall := books_run htag op s
    exact hcall.cons (ih (by rwa [hcall.codec]) _)

/-- The ledger changes nothing about a call. -/
theorem run_store (op : IntakeOp) (i : Intake) (s : LedgerStore σ) :
    op.run i s.store = ((op.run i s).1, (op.run i s).2.1, (op.run i s).2.2.store) := by
  cases op with
  | accept r arrival now =>
    simp only [run, Intake.accept]
    cases i.codec.encodeAs r with
    | error e => rfl
    | ok cells =>
      dsimp only
      rw [i.buffer.addRow_store s cells arrival now]
      rcases i.buffer.addRow s cells arrival now with ⟨e | ⟨⟩, b, t⟩
      · rfl
      · rfl
  | flush => rw [run, Intake.flush, i.buffer.flush_store s]; rfl
  | flushStale now => rw [run, Intake.flushStale, i.buffer.flushStale_store s now]; rfl

theorem runAll_store (ops : List IntakeOp) (i : Intake) (s : LedgerStore σ) :
    runAll ops i s.store =
      ((runAll ops i s).1, (runAll ops i s).2.1, (runAll ops i s).2.2.store) := by
  induction ops generalizing i s with
  | nil => rfl
  | cons op ops ih =>
    rw [runAll, run_store]
    dsimp only
    rw [ih]
    rfl

end IntakeOp

/-! ## Failed calls -/

/-- An intake starts over after a call that handed a row to the store, behind those that waited, and
failed because the store rejected them all. -/
structure Intake.StartsOver [Store σ] (i : Intake) (s : LedgerStore σ) (row : List Cell)
    (e : TableError) (j : Intake) (t : LedgerStore σ) : Prop where
  /-- The store gave the error that the call answers. -/
  rejected : t.ledger = s.ledger ++ [.handed (i.buffer.pending ++ [row]) (.error e)]
  none_waits : j.pendingRows = 0
  not_counted : j.accepted = i.accepted
  /-- Whatever is handed to the store from then on, and whatever waits then, are the rows of records
  that come later. -/
  not_again : ∀ ops, ∃ later rows, (IntakeOp.runAll ops j t).2.2.ledger = t.ledger ++ later ∧
    (IntakeOp.admitted ops).map (fun r => i.codec.encode (.logRecord r)) = rows.map .ok ∧
      later.flatMap Departure.rows ++ (IntakeOp.runAll ops j t).2.1.buffer.pending = rows

namespace IntakeOp

variable [Store σ] {i : Intake} {tag : String}

theorem uuid_ne_of_mem_admitted {ops : List IntakeOp} {r : LogRecord} (h : r ∈ admitted ops) :
    r.uuid ≠ "" := by
  obtain ⟨op, -, hr⟩ := List.mem_filterMap.1 h
  have huuid := (Option.filter_eq_some_iff.1 hr).2
  simpa using huuid

/-- Behind a call that failed in the store, an intake starts over. -/
theorem startsOver_of_error (htag : i.codec.WritesUnder .logRecord tag) {r : LogRecord}
    {arrival now : Nat} {s t : LedgerStore σ} {e : TableError} {j : Intake} (huuid : r.uuid ≠ "")
    (h : (accept r arrival now).run i s = (.error e, j, t)) :
    i.StartsOver s (i.codec.logRow tag r) e j t := by
  rcases run_buffer htag (accept r arrival now) s with ⟨r', hr, hempty, -⟩ |
    ⟨bop, hbop, -, hrows, b, t', ⟨-, hrun⟩ | ⟨e', hbuffer, hrun⟩⟩
  · cases hr
    exact absurd hempty huuid
  · rw [h] at hrun
    cases hrun
  · rw [h] at hrun
    cases hrun
    have hpending := (BufferOp.clear_of_run_error hbuffer).1
    have hanswer : (bop.runLedgered i.buffer s).1 = .error e := by
      rw [BufferOp.runLedgered_eq_run hbop, hbuffer]
    have hledger := BufferOp.runLedgered_error_iff.1 hanswer
    rw [BufferOp.runLedgered_eq_run hbop, hbuffer, hrows] at hledger
    refine ⟨hledger, by rw [Intake.pendingRows, hpending, List.length_nil], rfl, ?_⟩
    intro ops
    have hbooks := books_runAll (i := { i with buffer := b }) htag ops t
    obtain ⟨later, hlater, -, hmoved⟩ := hbooks.rows
    refine ⟨later, (admitted ops).map (i.codec.logRow tag), hlater, ?_, ?_⟩
    · rw [List.map_map]
      exact List.map_congr_left fun r hr =>
        Codec.encode_logRecord htag (uuid_ne_of_mem_admitted hr)
    · rw [hmoved, hpending, List.nil_append]

end IntakeOp

/-! ## Main result -/

/-- What an intake of a valid table counts, whatever its limits and the clock say, whichever writes
the store rejects, and after any calls.

* Keeping a ledger makes no difference to it.
* It counts the calls that accepted a record.  These and the calls that failed in the store are as
  many as the rows of the batches that the store took, the rows that wait, and the rows of the
  batches that it rejected.
* The next record that is handed in without a uuid is refused: nothing changes, and the store is not
  asked.  If it has a uuid and the call fails, the store rejected its row together with those that
  waited, and the intake starts over. -/
theorem Intake.runAll_accounts [Store σ] {table : EventTable} (htable : table.validate = .ok ())
    (store : σ) (ops : List IntakeOp) :
    ∃ (codec : Codec) (intake i : Intake) (answers : List (Except TableError (Option String)))
      (s : LedgerStore σ), table.codec = .ok codec ∧ Intake.make table = .ok intake ∧
      IntakeOp.runAll ops intake ({ store } : LedgerStore σ) = (answers, i, s) ∧
      IntakeOp.runAll ops intake store = (answers, i, s.store) ∧
      i.accepted = (IntakeOp.accepted ops answers).length ∧
      i.accepted + (IntakeOp.failed ops answers).length =
        s.taken.length + i.pendingRows + s.rejected.length ∧
      ∀ (r : LogRecord) (arrival now : Nat),
        (r.uuid = "" →
          (IntakeOp.accept r arrival now).run i s = (.error (.record .emptyUuid), i, s)) ∧
        (r.uuid ≠ "" → ∃ row, codec.encode (.logRecord r) = .ok row ∧
          ∀ e j t, (IntakeOp.accept r arrival now).run i s = (.error e, j, t) →
            i.StartsOver s row e j t) := by
  obtain ⟨-, codec, -, hcodec, -, htag, hmake⟩ := table.exists_intake htable
  have hbooks := IntakeOp.books_runAll (i := ⟨table.name, codec, { limits := table.limits }, 0⟩)
    htag ops ({ store } : LedgerStore σ)
  have hstore := IntakeOp.runAll_store ops ⟨table.name, codec, { limits := table.limits }, 0⟩
    ({ store } : LedgerStore σ)
  rcases hrun : IntakeOp.runAll ops ⟨table.name, codec, { limits := table.limits }, 0⟩
    ({ store } : LedgerStore σ) with ⟨answers, i, s⟩
  rw [hrun] at hbooks hstore
  dsimp only at hbooks
  have hcounted : i.accepted = (IntakeOp.accepted ops answers).length := by
    rw [hbooks.counted, Nat.zero_add]
  have htag' : i.codec.WritesUnder .logRecord RecordKind.logRecord.tag := by rwa [hbooks.codec]
  refine ⟨codec, _, i, answers, s, hcodec, hmake, hrun, hstore, hcounted, ?_, ?_⟩
  · obtain ⟨later, hledger, hhanded, hrows⟩ := hbooks.rows
    rw [List.nil_append] at hledger hrows
    subst hledger
    have hlength := congrArg List.length hrows
    rw [List.length_append, List.length_map, hbooks.calls, ← hcounted] at hlength
    have hbatches : (s.ledger.flatMap Departure.rows).length =
        s.taken.length + s.rejected.length := s.length_rows hhanded
    rw [hbatches] at hlength
    rw [← hlength, Intake.pendingRows]
    omega
  · intro r arrival now
    constructor
    · intro huuid
      rw [IntakeOp.run, Intake.accept, Codec.encodeAs_of_uuid_eq_empty htag' huuid]
      rfl
    · intro huuid
      refine ⟨codec.logRow RecordKind.logRecord.tag r, Codec.encode_logRecord htag huuid, ?_⟩
      intro e j t hcall
      have hstarts := IntakeOp.startsOver_of_error htag' huuid hcall
      rwa [hbooks.codec] at hstarts

/-- The second record fills the buffer, and the store rejects its row together with the one that
waits.  The third has no uuid, and the row of the fourth waits.  Two records count, the first of
which is lost. -/
theorem Intake.runAll_accounts_rejected :
    ∃ (intake i : Intake) (answers : List (Except TableError (Option String)))
      (s : LedgerStore (FaultyStore MapStore)),
      Intake.make { name := "events", limits := { maxBytes := 60 } } = .ok intake ∧
      IntakeOp.runAll [.accept ⟨"u", .empty, .empty, .epoch⟩ 0 0,
          .accept ⟨"v", .empty, .empty, .epoch⟩ 0 0, .accept ⟨"", .empty, .empty, .epoch⟩ 0 0,
          .accept ⟨"w", .empty, .empty, .epoch⟩ 0 0] intake
          ({ store := .empty, rejectedWrites := [0] } : FaultyStore MapStore) =
        (answers, i, s.store) ∧
      i.accepted + 1 = s.taken.length + i.pendingRows + s.rejected.length ∧
      i.accepted = 2 ∧ i.pendingRows = 1 := by
  obtain ⟨codec, intake, i, answers, s, -, hmake, hledger, hrun, -, hcount, -⟩ :=
    @Intake.runAll_accounts (FaultyStore MapStore) _
      { name := "events", limits := { maxBytes := 60 } } rfl
      { store := .empty, rejectedWrites := [0] }
      [.accept ⟨"u", .empty, .empty, .epoch⟩ 0 0, .accept ⟨"v", .empty, .empty, .epoch⟩ 0 0,
        .accept ⟨"", .empty, .empty, .epoch⟩ 0 0, .accept ⟨"w", .empty, .empty, .epoch⟩ 0 0]
  cases hmake
  have hanswers := congrArg Prod.fst hrun
  have hintake := congrArg (fun result => result.2.1) hrun
  dsimp only at hanswers hintake
  refine ⟨_, i, answers, s, rfl, hrun, ?_, ?_, ?_⟩
  · rw [← hcount, ← hanswers]
    refine congrArg (i.accepted + ·) ?_
    decide +kernel
  · rw [← hintake]
    decide +kernel
  · rw [← hintake]
    decide +kernel

end TaggedRows
