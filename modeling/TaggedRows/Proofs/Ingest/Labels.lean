import TaggedRows.Proofs.Ingest.Intake
import TaggedRows.Proofs.Record.LabelPolicy
import Mathlib.Data.List.Nodup

/-!
# Labels of stored cells

Data in a store is as restricted as the settings of its table ask for.  Once a cell has got its
label it passes through the buffer into the store, and there is no other way in: what holds of all
cells in the rows of accepted records holds of all cells that wait or are stored, whatever the calls
of the intake are (`IntakeOp.keeps_runAll`).  What the cells in the row of a record are is a matter
of the codec (`Codec.mem_logRow`), and which label its policy chooses is a matter of the settings
(`LabelPolicy.prescribes_iff`).

Together this says of every cell in the store of an intake which record it belongs to and which
label it has (`Intake.runAll_keepsLabels`).
-/

namespace TaggedRows

open TaggedRows.Text TaggedRows.Time

/-! ## What holds of all cells -/

theorem MapStore.mem_of_mem_insertMany {s : MapStore} {cells : List Cell} {c : Cell}
    (h : c ∈ (s.insertMany cells).toCells) : c ∈ s.toCells ∨ c ∈ cells := by
  obtain ⟨⟨a, bytes⟩, hmem, rfl⟩ := List.mem_map.1 h
  have hget := (SortedMap.mem_toList_iff _).1 hmem
  rw [insertMany, SortedMap.get?_insertMany, Option.or_eq_some_iff] at hget
  rcases hget with hnew | ⟨-, hold⟩
  · obtain ⟨d, hd, heq⟩ := List.mem_map.1 (List.mem_reverse.1 (mem_of_findEntry hnew))
    cases heq
    exact .inr hd
  · exact .inl (List.mem_map.2 ⟨(a, bytes), (SortedMap.mem_toList_iff _).2 hold, rfl⟩)

/-- All cells that wait in the buffer or are stored satisfy `p`. -/
structure RowBuffer.Keeps (b : RowBuffer) (s : MapStore) (p : Cell → Prop) : Prop where
  waiting : ∀ row ∈ b.pending, ∀ c ∈ row, p c
  stored : ∀ c ∈ s.toCells, p c

namespace RowBuffer.Keeps

variable {b : RowBuffer} {s : MapStore} {p : Cell → Prop}

theorem of_empty (h : b.pending = []) : b.Keeps MapStore.empty p where
  waiting := by simp [h]
  stored := fun c hc => absurd hc List.not_mem_nil

/-- Writing the rows that wait makes no difference. -/
theorem settled (h : b.Keeps s p) : ∀ c ∈ (b.settled s).toCells, p c := by
  intro c hc
  rcases MapStore.mem_of_mem_insertMany hc with hc | hc
  · exact h.stored c hc
  · obtain ⟨row, hrow, hc⟩ := List.mem_flatten.1 hc
    exact h.waiting row hrow c hc

theorem enqueued (h : b.Keeps s p) {op : BufferOp} (hrows : ∀ row ∈ op.rows, ∀ c ∈ row, p c) :
    (op.enqueued b).Keeps s p where
  waiting := by
    rw [op.pending_enqueued]
    exact List.forall_mem_append.2 ⟨h.waiting, hrows⟩
  stored := h.stored

/-- An operation keeps what holds of the row that it brings in as well. -/
theorem run (h : b.Keeps s p) {op : BufferOp} (hrows : ∀ row ∈ op.rows, ∀ c ∈ row, p c) :
    (op.run b s).2.1.Keeps (op.run b s).2.2 p := by
  have henqueued := h.enqueued hrows
  rcases op.run_cases b s with ⟨hrun, -⟩ | ⟨hrun, -⟩ | rfl
  · rw [hrun]
    exact henqueued
  · obtain ⟨after, hflush, hempty⟩ := (op.enqueued b).flush_mapStore s
    rw [hrun, hflush]
    refine ⟨?_, henqueued.settled⟩
    simp [hempty]
  · exact ⟨by simp [BufferOp.run, RowBuffer.discard, RowBuffer.clear], h.stored⟩

end RowBuffer.Keeps

/-! ## The row of a log record -/

namespace Codec

variable {codec : Codec} {r : LogRecord} {tag : String}

/-- The cells in the row of a log record are its tag cell, and data under the label of the codec's
policy. -/
theorem mem_logRow {c : Cell} (h : c ∈ codec.logRow tag r) :
    c.row = codec.keys.rowIdAt r.uuid r.date ∧ (c = tagCell c.row tag ∨
      c.isTag = false ∧ c.content.label = codec.labels.labelFor r.field?) := by
  rcases List.mem_cons.1 h with rfl | h
  · exact ⟨rfl, .inl rfl⟩
  · obtain ⟨text, htext, hc⟩ := Record.mem_dataCells.1 ((Cell.sort_perm _).mem_iff.1 h)
    have hlt := Record.tagColumn_lt htext
    have hne : c.isTag = false := by
      refine beq_false_of_ne fun heq => ?_
      simp [heq] at hlt
    exact ⟨congrArg Cell.row hc, .inr ⟨hne, congrArg (fun c => c.content.label) hc⟩⟩

end Codec

/-! ## Calls of an intake -/

namespace IntakeOp

/-- The records among those handed in that were accepted, by the answers to the calls. -/
def accepted (ops : List IntakeOp) (answers : List (Except TableError (Option String))) :
    List LogRecord :=
  (ops.zip answers).filterMap fun (op, answer) => answer.toOption.bind fun _ => op.record?

theorem accepted_cons (op : IntakeOp) (ops : List IntakeOp)
    (answer : Except TableError (Option String))
    (answers : List (Except TableError (Option String))) :
    accepted (op :: ops) (answer :: answers) =
      (answer.toOption.bind fun _ => op.record?).toList ++ accepted ops answers := by
  rw [accepted, List.zip_cons_cons, List.filterMap_cons]
  cases h : answer.toOption.bind fun _ => op.record? with
  | none => simp [h, accepted]
  | some r => simp [h, accepted]

theorem mem_records_of_mem_accepted {ops : List IntakeOp}
    {answers : List (Except TableError (Option String))} {r : LogRecord}
    (h : r ∈ accepted ops answers) : r ∈ records ops := by
  obtain ⟨⟨op, answer⟩, hmem, hr⟩ := List.mem_filterMap.1 h
  obtain ⟨-, -, hr⟩ := Option.bind_eq_some_iff.1 hr
  exact List.mem_filterMap.2 ⟨op, (List.of_mem_zip hmem).1, hr⟩

variable {i : Intake} {s : MapStore} {tag : String} {p : Cell → Prop}

/-- A call keeps what holds of all cells in the row of the record that it accepts. -/
theorem keeps_run (htag : i.codec.WritesUnder .logRecord tag) {op : IntakeOp}
    (h : i.buffer.Keeps s p)
    (hrow : ∀ r ∈ ((op.run i s).1.toOption.bind fun _ => op.record?).toList,
      ∀ c ∈ i.codec.logRow tag r, p c) :
    (op.run i s).2.1.codec = i.codec ∧ (op.run i s).2.1.buffer.Keeps (op.run i s).2.2 p := by
  rcases run_cases htag op s with ⟨r, -, -, hrun⟩ | ⟨bop, j, -, hrows, hcodec, hbuffer, hrun⟩
  · rw [hrun]
    exact ⟨rfl, h⟩
  · rw [hrun] at hrow ⊢
    refine ⟨hcodec, ?_⟩
    rw [hbuffer]
    refine h.run fun row hmem c hc => ?_
    rw [hrows] at hmem
    obtain ⟨r, hr, rfl⟩ := List.mem_map.1 hmem
    exact hrow r hr c hc

/-- A run keeps what holds of all cells in the rows of the records that it accepts. -/
theorem keeps_runAll (htag : i.codec.WritesUnder .logRecord tag) (ops : List IntakeOp)
    (h : i.buffer.Keeps s p)
    (hrows : ∀ r ∈ accepted ops (runAll ops i s).1, ∀ c ∈ i.codec.logRow tag r, p c) :
    (runAll ops i s).2.1.buffer.Keeps (runAll ops i s).2.2 p := by
  induction ops generalizing i s with
  | nil => exact h
  | cons op ops ih =>
    have hanswers : (runAll (op :: ops) i s).1 =
        (op.run i s).1 :: (runAll ops (op.run i s).2.1 (op.run i s).2.2).1 := rfl
    rw [hanswers, accepted_cons, List.forall_mem_append] at hrows
    obtain ⟨hcodec, hkeeps⟩ := keeps_run htag h hrows.1
    exact ih (i := (op.run i s).2.1) (by rwa [hcodec]) hkeeps (by rw [hcodec]; exact hrows.2)

end IntakeOp

/-! ## Tables -/

namespace EventTable

theorem labels_of_codec {table : EventTable} {codec : Codec} (h : table.codec = .ok codec) :
    codec.labels = .ofSettings table.label table.labelField := by
  rw [EventTable.codec] at h
  cases hkeys : table.keys with
  | error e => simp [hkeys, bind, Except.bind] at h
  | ok keys =>
    rw [hkeys] at h
    cases h
    rfl

/-- What the settings of a table promise about the labels in a store with the rows of log
records. -/
structure KeepsLabels (table : EventTable) (keys : KeyLayout) (records : List LogRecord)
    (store : MapStore) : Prop where
  /-- Every cell is in the row of one of the records.  It is the tag cell of that row, which
  everyone may read, or it is data and has the label that the settings prescribe for the record. -/
  cells : ∀ c ∈ store.toCells, ∃ r ∈ records, c.row = keys.rowIdAt r.uuid r.date ∧
    (∀ other ∈ records, c.row = keys.rowIdAt other.uuid other.date → other = r) ∧
    (c = tagCell c.row RecordKind.logRecord.tag ∨ c.isTag = false ∧
      LabelPolicy.Prescribes table.label table.labelField r.field? c.content.label)
  /-- A label for all rows that is not blank leaves no data open to everyone. -/
  restricted : ∀ text, table.label = some text → isBlank text = false →
    ∀ c ∈ store.toCells, c.isTag = false → c.content.label.isUnrestricted = false
  /-- The data of one row is under one label. -/
  uniform : ∀ c ∈ store.toCells, ∀ d ∈ store.toCells, c.row = d.row → c.isTag = false →
    d.isTag = false → c.content.label = d.content.label

/-- Stores whose cells come from the rows of records, no two of which share their uuid and their
time, keep the labels. -/
theorem keepsLabels_of_rows {table : EventTable} {codec : Codec} {records : List LogRecord}
    {store : MapStore} (hcodec : table.codec = .ok codec)
    (hids : ∀ r ∈ records, ∀ other ∈ records,
      (r.uuid, r.date.millis) = (other.uuid, other.date.millis) → r = other)
    (h : ∀ c ∈ store.toCells, ∃ r ∈ records, c ∈ codec.logRow RecordKind.logRecord.tag r) :
    table.KeepsLabels codec.keys records store := by
  have hcells : ∀ c ∈ store.toCells, ∃ r ∈ records, c.row = codec.keys.rowIdAt r.uuid r.date ∧
      (∀ other ∈ records, c.row = codec.keys.rowIdAt other.uuid other.date → other = r) ∧
      (c = tagCell c.row RecordKind.logRecord.tag ∨ c.isTag = false ∧
        LabelPolicy.Prescribes table.label table.labelField r.field? c.content.label) := by
    intro c hc
    obtain ⟨r, hr, hmem⟩ := h c hc
    obtain ⟨hrow, hlabel⟩ := Codec.mem_logRow hmem
    refine ⟨r, hr, hrow, fun other hother heq => ?_, hlabel.imp_right fun ⟨htag, hlabel⟩ => ?_⟩
    · obtain ⟨huuid, htime⟩ := KeyLayout.rowIdAt_inj (heq.symm.trans hrow)
      exact hids other hother r hr (by rw [huuid, htime])
    · rw [labels_of_codec hcodec] at hlabel
      exact ⟨htag, LabelPolicy.prescribes_iff.2 hlabel⟩
  -- a tag cell is no data
  have hdata : ∀ c : Cell, c.isTag = false → c ≠ tagCell c.row RecordKind.logRecord.tag := by
    intro c htag heq
    rw [heq] at htag
    simp [Cell.isTag, tagCell] at htag
  refine ⟨hcells, ?_, ?_⟩
  · intro text htext hblank c hc htag
    obtain ⟨r, -, -, -, heq | ⟨-, hlabel⟩⟩ := hcells c hc
    · exact absurd heq (hdata c htag)
    · rw [htext] at hlabel
      exact hlabel.isUnrestricted_eq_false hblank
  · intro c hc d hd hrows hctag hdtag
    obtain ⟨r, hr, hrow, -, heq | ⟨-, hlabel⟩⟩ := hcells c hc
    · exact absurd heq (hdata c hctag)
    · obtain ⟨r', -, hrow', honly, heq | ⟨-, hlabel'⟩⟩ := hcells d hd
      · exact absurd heq (hdata d hdtag)
      · obtain rfl := honly r hr (hrows.symm.trans hrow)
        rw [LabelPolicy.prescribes_iff.1 hlabel, LabelPolicy.prescribes_iff.1 hlabel']

end EventTable

/-! ## Main result -/

/-- Every cell that an intake of a valid table leaves in an empty store in memory has the label that
the settings of the table prescribe.  Hand in log records, no two of which share their uuid and
their time, and let the intake write whenever it is told to or its limits say so.  Then the store at
that moment, and the store once the intake is closed or let go, hold cells of accepted records only:
the tag cells of their rows, open to everyone, and data under the prescribed label. -/
theorem Intake.runAll_keepsLabels {table : EventTable} (htable : table.validate = .ok ())
    {ops : List IntakeOp}
    (hids : ((IntakeOp.records ops).map fun r => (r.uuid, r.date.millis)).Nodup) :
    ∃ (keys : KeyLayout) (intake last : Intake)
      (answers : List (Except TableError (Option String))) (store : MapStore),
      table.keys = .ok keys ∧ Intake.make table = .ok intake ∧
      IntakeOp.runAll ops intake MapStore.empty = (answers, last, store) ∧
      table.KeepsLabels keys (IntakeOp.accepted ops answers) store ∧
      table.KeepsLabels keys (IntakeOp.accepted ops answers) (last.close store).2 ∧
      table.KeepsLabels keys (IntakeOp.accepted ops answers) (last.release store) := by
  obtain ⟨keys, codec, hkeys, hcodec, rfl, htag, hmake⟩ := table.exists_intake htable
  rcases hrun : IntakeOp.runAll ops ⟨table.name, codec, { limits := table.limits }, 0⟩
    MapStore.empty with ⟨answers, last, store⟩
  have hkeeps : last.buffer.Keeps store fun c => ∃ r ∈ IntakeOp.accepted ops answers,
      c ∈ codec.logRow RecordKind.logRecord.tag r := by
    have hempty : RowBuffer.Keeps { limits := table.limits } MapStore.empty fun c =>
        ∃ r ∈ IntakeOp.accepted ops answers, c ∈ codec.logRow RecordKind.logRecord.tag r :=
      .of_empty rfl
    have hall := IntakeOp.keeps_runAll (i := ⟨table.name, codec, { limits := table.limits }, 0⟩)
      htag ops hempty
    rw [hrun] at hall
    exact hall fun r hr c hc => ⟨r, hr, hc⟩
  have hdistinct : ∀ r ∈ IntakeOp.accepted ops answers, ∀ other ∈ IntakeOp.accepted ops answers,
      (r.uuid, r.date.millis) = (other.uuid, other.date.millis) → r = other := by
    intro r hr other hother
    exact List.inj_on_of_nodup_map hids (IntakeOp.mem_records_of_mem_accepted hr)
      (IntakeOp.mem_records_of_mem_accepted hother)
  have hclose : (last.close store).2 = last.buffer.settled store := by
    rw [close_mapStore]
    rfl
  have hrelease : last.release store = last.buffer.settled store := by
    obtain ⟨after, hflush, -⟩ := last.buffer.flush_mapStore store
    rw [release, RowBuffer.release, hflush]
  have hstored := EventTable.keepsLabels_of_rows hcodec hdistinct hkeeps.stored
  have hsettled := EventTable.keepsLabels_of_rows hcodec hdistinct hkeeps.settled
  exact ⟨_, _, last, answers, store, hkeys, hmake, hrun, hstored, hclose ▸ hsettled,
    hrelease ▸ hsettled⟩

/-- Of two records of which one has no uuid, the other is stored once the rows are written, and its
data is under the value of the field that the settings name, with the blank at the end. -/
theorem Intake.runAll_keepsLabels_field :
    ∃ (keys : KeyLayout) (intake last : Intake)
      (answers : List (Except TableError (Option String))) (store : MapStore),
      Intake.make { name := "events", label := some " ", labelField := some " level" } =
        .ok intake ∧
      IntakeOp.runAll [.accept ⟨"u", .ofList [("level", "ops ")], .empty, .epoch⟩ 0 0,
          .accept ⟨"", .empty, .empty, .epoch⟩ 1 1, .flush] intake MapStore.empty =
        (answers, last, store) ∧
      EventTable.KeepsLabels { name := "events", label := some " ", labelField := some " level" }
        keys (IntakeOp.accepted [.accept ⟨"u", .ofList [("level", "ops ")], .empty, .epoch⟩ 0 0,
          .accept ⟨"", .empty, .empty, .epoch⟩ 1 1, .flush] answers) store ∧
      store.toCells.map (fun c => c.content.label) = [.unrestricted, ⟨"ops "⟩] := by
  obtain ⟨keys, intake, last, answers, store, -, hmake, hrun, hlabels, -⟩ :=
    @Intake.runAll_keepsLabels { name := "events", label := some " ", labelField := some " level" }
      rfl [.accept ⟨"u", .ofList [("level", "ops ")], .empty, .epoch⟩ 0 0,
        .accept ⟨"", .empty, .empty, .epoch⟩ 1 1, .flush] (by decide)
  refine ⟨keys, intake, last, answers, store, hmake, hrun, hlabels, ?_⟩
  have hstore : store = (IntakeOp.runAll [.accept ⟨"u", .ofList [("level", "ops ")], .empty,
      .epoch⟩ 0 0, .accept ⟨"", .empty, .empty, .epoch⟩ 1 1, .flush] intake MapStore.empty).2.2 := by
    rw [hrun]
  cases hmake
  rw [hstore]
  decide +kernel

end TaggedRows
