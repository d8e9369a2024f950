import TaggedRows.Ingest.Intake
import TaggedRows.Proofs.Ingest.Operations
import TaggedRows.Proofs.Store.ReadBack
import TaggedRows.Proofs.Tag.KnownKind

/-!
# Intakes over stores in memory

A buffer only puts off what happens to the store.  A store in memory takes every write, so it makes
no difference when rows are written: at any moment the store is on the way to one and the same
content, the one it has once the rows that wait are written (`RowBuffer.settled`).  A write does not
change that content, and a row that is added is inserted into it (`BufferOp.run_mapStore`).

It follows that an intake over a store in memory does the same as writing the rows of its records
directly, one by one, whatever the limits of its buffer are and whenever it is told to write
(`Intake.runAll_eq_writeAll`).
-/

namespace TaggedRows

open TaggedRows.Text TaggedRows.Time

/-! ## Buffers -/

namespace RowBuffer

/-- The store once the rows that wait are written. -/
def settled (b : RowBuffer) (s : MapStore) : MapStore := s.insertMany b.pending.flatten

theorem settled_of_pending_eq_nil {b : RowBuffer} (h : b.pending = []) (s : MapStore) :
    b.settled s = s := by
  rw [settled, h]
  rfl

/-- A store in memory takes the rows that wait. -/
theorem flush_mapStore (b : RowBuffer) (s : MapStore) :
    ∃ after, b.flush s = (.ok (), after, b.settled s) ∧ after.pending = [] := by
  rcases b.flush_cases s with ⟨hempty, hflush⟩ | ⟨-, after, ⟨hwrite, hflush⟩ | ⟨e, hwrite, -⟩⟩
  · rw [hflush, settled_of_pending_eq_nil hempty]
    exact ⟨b, rfl, hempty⟩
  · cases hwrite
    exact ⟨_, hflush, rfl⟩
  · cases hwrite

/-- Closing settles the store. -/
theorem close_mapStore (b : RowBuffer) (s : MapStore) : b.close s = (.ok (), b.settled s) := by
  obtain ⟨after, hflush, -⟩ := b.flush_mapStore s
  rw [close_eq, release, hflush]

end RowBuffer

/-- An operation that drops nothing succeeds, and inserts the row that it brings in into the settled
store.  If it writes, this is no change beyond that. -/
theorem BufferOp.run_mapStore (op : BufferOp) (hop : op ≠ .discard) (b : RowBuffer) (s : MapStore) :
    ∃ after t, op.run b s = (.ok (), after, t) ∧
      after.settled t = (b.settled s).insertMany op.rows.flatten := by
  have henqueued : (op.enqueued b).settled s = (b.settled s).insertMany op.rows.flatten := by
    rw [RowBuffer.settled, pending_enqueued, List.flatten_append, MapStore.insertMany_append]
    rfl
  rcases op.run_cases b s with ⟨hrun, -⟩ | ⟨hrun, -⟩ | hdiscard
  · exact ⟨_, _, hrun, henqueued⟩
  · -- what was waiting is in the store now
    obtain ⟨after, hflush, hempty⟩ := (op.enqueued b).flush_mapStore s
    refine ⟨after, _, hrun.trans hflush, ?_⟩
    rw [RowBuffer.settled_of_pending_eq_nil hempty, henqueued]
  · exact absurd hdiscard hop

/-! ## Rows of log records -/

namespace Codec

variable {codec : Codec} {r : LogRecord} {tag : String}

/-- The row of a log record under a tag. -/
def logRow (codec : Codec) (tag : String) (r : LogRecord) : List Cell :=
  let row := codec.keys.rowIdAt r.uuid r.date
  tagged row tag ((Record.logRecord r).dataCells row (codec.labels.labelFor r.field?))

theorem logRow_ne_nil (codec : Codec) (tag : String) (r : LogRecord) : codec.logRow tag r ≠ [] :=
  List.cons_ne_nil _ _

theorem encode_logRecord (htag : codec.WritesUnder .logRecord tag) (huuid : r.uuid ≠ "") :
    codec.encode (.logRecord r) = .ok (codec.logRow tag r) := by
  have hrow : (Record.logRecord r).rowId codec.keys = .ok (codec.keys.rowIdAt r.uuid r.date) :=
    if_neg huuid
  exact encode_of_writesUnder htag hrow

theorem encodeAs_logRecord (htag : codec.WritesUnder .logRecord tag) (huuid : r.uuid ≠ "") :
    codec.encodeAs r = .ok (codec.logRow tag r) := by
  rw [encodeAs_of_writesUnder htag]
  exact encode_logRecord htag huuid

/-- A log record without a uuid is refused. -/
theorem encodeAs_of_uuid_eq_empty (htag : codec.WritesUnder .logRecord tag) (huuid : r.uuid = "") :
    codec.encodeAs r = .error (.record .emptyUuid) := by
  have hrow : (Record.logRecord r).rowId codec.keys = .error .emptyUuid := if_pos huuid
  rw [encodeAs_of_writesUnder htag]
  exact encode_of_rowId_eq_error htag hrow

theorem rowId_logRecord (htag : codec.WritesUnder .logRecord tag) (huuid : r.uuid ≠ "") :
    codec.rowId (.logRecord r) = .ok (codec.keys.rowIdAt r.uuid r.date) :=
  rowId_eq_ok_iff.2 ⟨⟨tag, htag⟩, if_neg huuid⟩

end Codec

theorem KeyLayout.rowIdAt_inj {keys : KeyLayout} {source source' : String} {time time' : Instant}
    (h : keys.rowIdAt source time = keys.rowIdAt source' time') :
    source = source' ∧ time.millis = time'.millis :=
  keys.rowId_inj (isInt64_millis time) (isInt64_millis time') h

/-! ## Intakes -/

namespace Intake

variable {i : Intake} {tag : String}

/-- The store once the rows that wait are written. -/
def settled (i : Intake) (s : MapStore) : MapStore := i.buffer.settled s

theorem close_mapStore (i : Intake) (s : MapStore) : i.close s = (.ok (), i.settled s) :=
  i.buffer.close_mapStore s

end Intake

/-! ## Calls of an intake -/

/-- A call of an intake, with the readings of the clock. -/
inductive IntakeOp where
  | accept (record : LogRecord) (arrival now : Nat)
  | flush
  | flushStale (now : Nat)

namespace IntakeOp

/-- The record that the call hands in. -/
def record? : IntakeOp → Option LogRecord
  | accept record _ _ => some record
  | flush | flushStale _ => none

/-- Run a call.  It answers with the id of a row if it hands in a record. -/
def run [Store σ] (op : IntakeOp) (i : Intake) (store : σ) :
    Except TableError (Option String) × Intake × σ :=
  match op with
  | accept record arrival now =>
    let (answer, rest) := i.accept store record arrival now
    (answer.map some, rest)
  | flush =>
    let (answer, rest) := i.flush store
    (answer.map fun _ => none, rest)
  | flushStale now =>
    let (answer, rest) := i.flushStale store now
    (answer.map fun _ => none, rest)

/-- Run calls one after the other, and collect the answers. -/
def runAll [Store σ] : List IntakeOp → Intake → σ →
    List (Except TableError (Option String)) × Intake × σ
  | [], i, store => ([], i, store)
  | op :: ops, i, store =>
    let (answer, i, store) := op.run i store
    let (answers, rest) := runAll ops i store
    (answer :: answers, rest)

/-- The records that calls hand in. -/
def records (ops : List IntakeOp) : List LogRecord := ops.filterMap record?

theorem records_cons (op : IntakeOp) (ops : List IntakeOp) :
    records (op :: ops) = op.record?.toList ++ records ops := by
  cases op <;> rfl

/-- What a call answers that succeeds. -/
def answer (op : IntakeOp) (keys : KeyLayout) : Option String :=
  op.record?.map fun r => keys.rowIdAt r.uuid r.date

variable {i : Intake} {tag : String}

/-- A call of an intake either hands in a record without a uuid, which is refused and changes
nothing, or is an operation on the buffer that brings in the row of its record.  The answer tells how
that went, and the record counts if it went well. -/
theorem run_buffer [Store σ] (htag : i.codec.WritesUnder .logRecord tag) (op : IntakeOp)
    (store : σ) :
    (∃ r, op.record? = some r ∧ r.uuid = "" ∧
        op.run i store = (.error (.record .emptyUuid), i, store)) ∨
      ∃ bop : BufferOp, bop ≠ .discard ∧ (∀ r ∈ op.record?, r.uuid ≠ "") ∧
        bop.rows = op.record?.toList.map (i.codec.logRow tag) ∧ ∃ b t,
          (bop.run i.buffer store = (.ok (), b, t) ∧
            op.run i store = (.ok (op.answer i.codec.keys),
              { i with buffer := b, accepted := i.accepted + op.record?.toList.length }, t)) ∨
          ∃ e, bop.run i.buffer store = (.error e, b, t) ∧
            op.run i store = (.error e, { i with buffer := b }, t) := by
  cases op with
  | accept r arrival now =>
    by_cases huuid : r.uuid = ""
    · refine .inl ⟨r, rfl, huuid, ?_⟩
      rw [run, Intake.accept, Codec.encodeAs_of_uuid_eq_empty htag huuid]
      rfl
    · have hrows : (BufferOp.addRow (i.codec.logRow tag r) arrival now).rows =
          [i.codec.logRow tag r] := by
        rw [BufferOp.rows, if_neg (i.codec.logRow_ne_nil tag r)]
      refine .inr ⟨.addRow (i.codec.logRow tag r) arrival now, by simp, ?_, hrows, ?_⟩
      · rintro _ ⟨⟩
        exact huuid
      · rcases hadd : (BufferOp.addRow (i.codec.logRow tag r) arrival now).run i.buffer store with
          ⟨e | ⟨⟩, b, t⟩
        · -- the buffer that is discarded then is empty anyway
          have hclear := (BufferOp.clear_of_run_error hadd).2
          refine ⟨b, t, .inr ⟨e, rfl, ?_⟩⟩
          rw [BufferOp.run] at hadd
          rw [run, Intake.accept, Codec.encodeAs_logRecord htag huuid]
          simp only [hadd, RowBuffer.discard, hclear]
          rfl
        · refine ⟨b, t, .inl ⟨rfl, ?_⟩⟩
          rw [BufferOp.run] at hadd
          rw [run, Intake.accept, Codec.encodeAs_logRecord htag huuid]
          simp only [hadd]
          rfl
  | flush =>
    refine .inr ⟨.flush, by simp, by simp [record?], rfl, ?_⟩
    rcases hflush : BufferOp.flush.run i.buffer store with ⟨e | ⟨⟩, b, t⟩
    · refine ⟨b, t, .inr ⟨e, rfl, ?_⟩⟩
      rw [BufferOp.run] at hflush
      rw [run, Intake.flush, hflush]
      rfl
    · refine ⟨b, t, .inl ⟨rfl, ?_⟩⟩
      rw [BufferOp.run] at hflush
      rw [run, Intake.flush, hflush]
      rfl
  | flushStale now =>
    refine .inr ⟨.flushStale now, by simp, by simp [record?], rfl, ?_⟩
    -- the answer says whether rows were written, which a call does not pass on
    rcases hstale : i.buffer.flushStale store now with ⟨e | written, b, t⟩
    · refine ⟨b, t, .inr ⟨e, ?_, ?_⟩⟩
      · rw [BufferOp.run, hstale]
        rfl
      · rw [run, Intake.flushStale, hstale]
        rfl
    · refine ⟨b, t, .inl ⟨?_, ?_⟩⟩
      · rw [BufferOp.run, hstale]
        rfl
      · rw [run, Intake.flushStale, hstale]
        rfl

/-- Over a store in memory, a call that is not refused succeeds. -/
theorem run_cases (htag : i.codec.WritesUnder .logRecord tag) (op : IntakeOp) (s : MapStore) :
    (∃ r, op.record? = some r ∧ r.uuid = "" ∧
        op.run i s = (.error (.record .emptyUuid), i, s)) ∨
      ∃ (bop : BufferOp) (j : Intake), bop ≠ .discard ∧
        bop.rows = op.record?.toList.map (i.codec.logRow tag) ∧ j.codec = i.codec ∧
        j.buffer = (bop.run i.buffer s).2.1 ∧
        op.run i s = (.ok (op.answer i.codec.keys), j, (bop.run i.buffer s).2.2) := by
  rcases run_buffer htag op s with hrefused |
    ⟨bop, hbop, -, hrows, b, t, ⟨hbuffer, hrun⟩ | ⟨e, hbuffer, -⟩⟩
  · exact .inl hrefused
  · refine .inr ⟨bop, { i with buffer := b, accepted := i.accepted + op.record?.toList.length },
      hbop, hrows, rfl, ?_, ?_⟩
    · rw [hbuffer]
    · rw [hbuffer, hrun]
  · obtain ⟨after, t', hok, -⟩ := bop.run_mapStore hbop i.buffer s
    rw [hok] at hbuffer
    cases hbuffer

/-- A call succeeds, and inserts the row of its record into the settled store. -/
theorem run_mapStore (htag : i.codec.WritesUnder .logRecord tag) {op : IntakeOp}
    (huuid : ∀ r ∈ op.record?.toList, r.uuid ≠ "") (s : MapStore) :
    ∃ j t, op.run i s = (.ok (op.answer i.codec.keys), j, t) ∧ j.codec = i.codec ∧
      j.settled t = (i.settled s).insertMany (op.record?.toList.flatMap (i.codec.logRow tag)) := by
  rcases run_cases htag op s with ⟨r, hr, hempty, -⟩ | ⟨bop, j, hbop, hrows, hcodec, hj, hrun⟩
  · exact absurd hempty (huuid r (by simp [hr]))
  · refine ⟨j, _, hrun, hcodec, ?_⟩
    obtain ⟨after, t, hbuffer, hsettled⟩ := bop.run_mapStore hbop i.buffer s
    rw [hbuffer] at hj ⊢
    rw [Intake.settled, hj, hsettled, hrows, ← List.flatMap_def]
    rfl

/-- All calls of a run succeed, and insert the rows of their records into the settled store. -/
theorem runAll_mapStore (htag : i.codec.WritesUnder .logRecord tag) {ops : List IntakeOp}
    (huuid : ∀ r ∈ records ops, r.uuid ≠ "") (s : MapStore) :
    ∃ j t, runAll ops i s = (ops.map fun op => .ok (op.answer i.codec.keys), j, t) ∧
      j.settled t = (i.settled s).insertMany ((records ops).flatMap (i.codec.logRow tag)) := by
  induction ops generalizing i s with
  | nil => exact ⟨i, s, rfl, rfl⟩
  | cons op ops ih =>
    rw [records_cons, List.forall_mem_append] at huuid
    obtain ⟨j, t, hrun, hcodec, hsettled⟩ := run_mapStore htag huuid.1 s
    obtain ⟨k, u, hruns, hfinal⟩ := ih (i := j) (by rwa [hcodec]) huuid.2 t
    refine ⟨k, u, ?_, ?_⟩
    · rw [runAll, hrun]
      simp only [hruns, hcodec, List.map_cons]
    · rw [hfinal, hsettled, hcodec, ← MapStore.insertMany_append, records_cons,
        List.flatMap_append]

end IntakeOp

/-! ## Tables -/

/-- A valid table has a layout of row keys, a codec that writes log records, and an intake. -/
theorem EventTable.exists_intake {table : EventTable} (h : table.validate = .ok ()) :
    ∃ keys codec, table.keys = .ok keys ∧ table.codec = .ok codec ∧ codec.keys = keys ∧
      codec.WritesUnder .logRecord RecordKind.logRecord.tag ∧
      Intake.make table = .ok ⟨table.name, codec, { limits := table.limits }, 0⟩ := by
  have hshards : 0 < table.shardCount := by
    rw [validate] at h
    split at h
    · cases h
    · split at h
      · cases h
      · omega
  have hkeys : table.keys = .ok ⟨table.keyPrefix, table.shardCount, hshards⟩ := by
    rw [keys, KeyLayout.make, dif_pos hshards]
    rfl
  have hcodec : table.codec = .ok { Codec.standard ⟨table.keyPrefix, table.shardCount, hshards⟩ with
      labels := table.labels } := by
    rw [codec, hkeys]
    rfl
  refine ⟨_, _, hkeys, hcodec, rfl, ⟨rfl, rfl⟩, ?_⟩
  rw [Intake.make, h, hcodec]
  rfl

/-! ## Reading back -/

namespace Codec

variable {codec : Codec} {records : List Record} {rows : List (List Cell)}

/-- Exactly these records are read back from a store, without an error, whether the reading skips or
not, and in ascending order of their row ids. -/
def ReadsBack (codec : Codec) (store : MapStore) (records : List Record) : Prop :=
  ∃ (stream : CellStream) (read : List Record) (ids : List String),
    Store.scan store .all = .ok stream ∧
      (∀ skip, codec.records skip stream = read.map .ok) ∧ read.Perm records ∧
        read.map codec.rowId = ids.map .ok ∧ ids.Pairwise (· < ·)

/-- Records with rows of their own are read back from the store that these rows fill, in whatever
batches they are written. -/
theorem exists_readsBack {batches : List (List (List Cell))}
    (hdate : ∀ record ∈ records, record.HasWholeMillis)
    (hencode : records.map codec.encode = rows.map .ok)
    (hids : (records.map codec.rowId).Nodup) (hbatches : batches.flatten = rows) :
    ∃ store, Store.writeAll MapStore.empty batches = .ok store ∧ codec.ReadsBack store records := by
  obtain ⟨sorted, hrecords, hrows, hwrites, hasc⟩ := exists_sorted hdate hencode hids
  have hperm : batches.flatten.Perm (sorted.map (·.2.cells)) := by
    rw [hbatches]
    exact hrows.symm
  obtain ⟨store, hwrite, hstore⟩ := toCells_of_writes hwrites hasc hperm
  have hscan : store.scan .all = (sorted.map (·.2)).flatMap Run.cells := by
    rw [MapStore.scan_eq_filter, ← hstore]
    exact List.filter_eq_self.2 fun _ _ => rfl
  refine ⟨store, hwrite, _, sorted.map (·.1), sorted.map (·.2.id), rfl, ?_, hrecords, ?_, ?_⟩
  · intro skip
    rw [hscan]
    exact records_of_writes skip hwrites hasc
  · rw [List.map_map, List.map_map]
    exact List.map_congr_left fun w hw => (hwrites w hw).rowId
  · refine List.pairwise_map.2 ((List.pairwise_map.1 hasc).imp fun hlt => ?_)
    exact compareOfLessAndEq_eq_lt.1 hlt

end Codec

/-! ## Main result -/

/-- An intake of a valid table is a direct way into an empty store in memory.  Take records in, each
with a uuid and a date in whole milliseconds and no two with both in common, and let the intake
write whenever it is told to or its limits say so.  Then every call succeeds, a record is answered
with the id of its row, and after closing the store is the one that the encoded rows make when they
are written one by one.  Exactly these records are read back from it. -/
theorem Intake.runAll_eq_writeAll {table : EventTable} (htable : table.validate = .ok ())
    {ops : List IntakeOp} (huuid : ∀ r ∈ IntakeOp.records ops, r.uuid ≠ "")
    (hdate : ∀ r ∈ IntakeOp.records ops, Instant.ofMillis? r.date.millis = some r.date)
    (hids : ((IntakeOp.records ops).map fun r => (r.uuid, r.date.millis)).Nodup) :
    ∃ (keys : KeyLayout) (codec : Codec) (intake : Intake),
      table.keys = .ok keys ∧ table.codec = .ok codec ∧ Intake.make table = .ok intake ∧
      ∃ (last : Intake) (between store : MapStore) (rows : List (List Cell)),
        IntakeOp.runAll ops intake MapStore.empty =
          (ops.map fun op => .ok (op.answer keys), last, between) ∧
        last.close between = (.ok (), store) ∧
        (IntakeOp.records ops).map (fun r => codec.encode (.logRecord r)) = rows.map .ok ∧
        Store.writeAll MapStore.empty (rows.map fun row => [row]) = .ok store ∧
        codec.ReadsBack store ((IntakeOp.records ops).map .logRecord) := by
  obtain ⟨keys, codec, hkeys, hcodec, rfl, htag, hmake⟩ := table.exists_intake htable
  obtain ⟨last, between, hrun, hsettled⟩ := IntakeOp.runAll_mapStore
    (i := ⟨table.name, codec, { limits := table.limits }, 0⟩) htag huuid MapStore.empty
  have hencode : (IntakeOp.records ops).map (fun r => codec.encode (.logRecord r)) =
      ((IntakeOp.records ops).map (codec.logRow RecordKind.logRecord.tag)).map .ok := by
    rw [List.map_map]
    exact List.map_congr_left fun r hr => Codec.encode_logRecord htag (huuid r hr)
  have hrowIds : (((IntakeOp.records ops).map .logRecord).map codec.rowId).Nodup := by
    have hrowId : ((IntakeOp.records ops).map .logRecord).map codec.rowId =
        (IntakeOp.records ops).map fun r => .ok (codec.keys.rowIdAt r.uuid r.date) := by
      rw [List.map_map]
      exact List.map_congr_left fun r hr => Codec.rowId_logRecord htag (huuid r hr)
    rw [hrowId]
    -- a row id can be taken apart into the uuid and the time
    refine List.pairwise_map.2 ((List.pairwise_map.1 hids).imp ?_)
    intro r s hne heq
    obtain ⟨hsource, htime⟩ := KeyLayout.rowIdAt_inj (Except.ok.inj heq)
    exact hne (by rw [hsource, htime])
  have hwhole : ∀ record ∈ (IntakeOp.records ops).map Record.logRecord, record.HasWholeMillis := by
    intro record hrecord
    obtain ⟨r, hr, rfl⟩ := List.mem_map.1 hrecord
    exact hdate r hr
  generalize hrows : (IntakeOp.records ops).map (codec.logRow RecordKind.logRecord.tag) = rows
    at hencode
  have hflatten : (rows.map fun row => [row]).flatten = rows := by
    rw [← List.flatMap_def, List.flatMap_singleton']
  obtain ⟨store, hwrite, hread⟩ := Codec.exists_readsBack hwhole (by rwa [List.map_map]) hrowIds
    hflatten
  refine ⟨_, codec, _, hkeys, hcodec, hmake, last, between, store, rows, hrun, ?_, hencode, hwrite,
    hread⟩
  -- the settled store is filled by the rows in the order of the calls
  rw [MapStore.writeAll_eq, hflatten] at hwrite
  have hstore : last.settled between = store := by
    rw [hsettled, List.flatMap_def, hrows]
    exact Except.ok.inj hwrite
  rw [close_mapStore, hstore]

/-- Two records at the same time, the first of them written before the second comes in, are read
back from the store after closing. -/
theorem Intake.runAll_eq_writeAll_flushed :
    ∃ (keys : KeyLayout) (codec : Codec) (intake last : Intake) (between store : MapStore),
      EventTable.keys { name := "events", label := some "ops" } = .ok keys ∧
      EventTable.codec { name := "events", label := some "ops" } = .ok codec ∧
      Intake.make { name := "events", label := some "ops" } = .ok intake ∧
      IntakeOp.runAll [.accept ⟨"v", .empty, .empty, .epoch⟩ 0 0, .flush,
          .accept ⟨"u", .empty, .empty, .epoch⟩ 1 1] intake MapStore.empty =
        ([.ok (some (keys.rowIdAt "v" .epoch)), .ok none, .ok (some (keys.rowIdAt "u" .epoch))],
          last, between) ∧
      last.close between = (.ok (), store) ∧
      codec.ReadsBack store [.logRecord ⟨"v", .empty, .empty, .epoch⟩,
        .logRecord ⟨"u", .empty, .empty, .epoch⟩] := by
  obtain ⟨keys, codec, intake, hkeys, hcodec, hmake, last, between, store, -, hrun, hclose, -, -,
    hread⟩ := @Intake.runAll_eq_writeAll { name := "events", label := some "ops" } rfl
      [.accept ⟨"v", .empty, .empty, .epoch⟩ 0 0, .flush,
        .accept ⟨"u", .empty, .empty, .epoch⟩ 1 1] (by decide) (by decide) (by decide)
  exact ⟨keys, codec, intake, last, between, store, hkeys, hcodec, hmake, hrun, hclose, hread⟩

end TaggedRows
