import TaggedRows.Proofs.Store.Scan
import TaggedRows.Proofs.Stream.Reading
import TaggedRows.Proofs.Tag.RoundTrip

/-!
# Records read back from a store

Records that were written to a store are read back by a scan (`Codec.records_scan_writeAll`).

The two sides meet at the **runs** of the records: the cells of each encoded record are one run,
which is read as that record (`Codec.Writes`).  Writing fills the store with these runs, ordered by
row whatever the order of the writes was; a scan takes out the runs of the rows in the range; and no
two of them are of the same row, so that the reading comes upon the very same runs.
-/

namespace TaggedRows

open TaggedRows.Text

namespace Codec

variable {codec : Codec} {record : Record} {run : Run}

/-! ## The run of a record -/

/-- The run is what the codec writes for the record, and is read as the record. -/
structure Writes (codec : Codec) (record : Record) (run : Run) : Prop where
  encode : codec.encode record = .ok run.cells
  rowId : codec.rowId record = .ok run.id
  ascending : AscendingColumns run.cells
  recognizes : codec.recognizes run = true
  decode : codec.decode run.row = .ok record

theorem recognizes_tagCell {tag : String} {kind : RecordKind}
    (hkind : codec.registry.kindOf? tag = some kind) (row : String) :
    codec.recognize (tagCell row tag) = .ok kind := by
  have htag : (tagCell row tag).isTag = true := by simp [Cell.isTag, tagCell]
  have hbytes : Utf8.decodeLossy (tagCell row tag).content.bytes = tag :=
    Utf8.decodeLossy_encode tag
  rw [recognize, if_pos htag, kindOfTag, hbytes, hkind]

/-- Every encoded record makes a run. -/
theorem exists_writes {cells : List Cell} (hdate : record.HasWholeMillis)
    (h : codec.encode record = .ok cells) : ∃ run : Run, run.cells = cells ∧
      codec.Writes record run := by
  obtain ⟨tag, row, hwrites, hrow, rfl⟩ := encode_eq_ok_iff.1 h
  have hcells : ∀ c ∈ Cell.sort (record.dataCells row (codec.labels.labelFor record.field?)),
      c.row = (tagCell row tag).row := fun c => row_of_mem_sort_dataCells
  refine ⟨⟨tagCell row tag, _, hcells⟩, rfl, h, ?_, ascendingColumns_tagged .., ?_, ?_⟩
  · exact rowId_eq_ok_iff.2 ⟨⟨tag, hwrites⟩, hrow⟩
  · rw [recognizes, recognizes_tagCell hwrites.2]
    rfl
  · obtain ⟨rest, hdecode, -⟩ := decodeWithRest_taggedRow (codec.labels.labelFor record.field?)
      hwrites.2 (Record.identifiedBy_of_rowId rfl hdate hrow)
    exact decode_of_decodeWithRest hdecode

/-- Encoded records, each with its run. -/
theorem exists_written {records : List Record} {rows : List (List Cell)}
    (hdate : ∀ record ∈ records, record.HasWholeMillis)
    (hencode : records.map codec.encode = rows.map .ok) :
    ∃ written : List (Record × Run), written.map (·.1) = records ∧
      written.map (·.2.cells) = rows ∧ ∀ w ∈ written, codec.Writes w.1 w.2 := by
  induction records generalizing rows with
  | nil =>
    cases rows with
    | nil => exact ⟨[], rfl, rfl, by simp⟩
    | cons cells rows => cases hencode
  | cons record records ih =>
    cases rows with
    | nil => cases hencode
    | cons cells rows =>
      rw [List.map_cons, List.map_cons, List.cons.injEq] at hencode
      obtain ⟨run, rfl, hrun⟩ := exists_writes (hdate record (by simp)) hencode.1
      obtain ⟨written, rfl, rfl, hwritten⟩ :=
        ih (fun r hr => hdate r (List.mem_cons_of_mem _ hr)) hencode.2
      exact ⟨(record, run) :: written, rfl, rfl, List.forall_mem_cons.2 ⟨hrun, hwritten⟩⟩

end Codec

/-! ## Runs in order -/

/-- The rows of the runs ascend strictly. -/
def AscendingRows (rs : List Run) : Prop := rs.Pairwise fun a b => compare a.id b.id = .lt

namespace AscendingRows

variable {rs : List Run}

theorem rowsChange (h : AscendingRows rs) : RowsChange rs := by
  refine List.Pairwise.isChain (h.imp fun {a b} hlt heq => ?_)
  simp [heq] at hlt

/-- Runs with ascending columns, in the order of their rows, make up a list in the order of
addresses. -/
theorem ascendingAddresses (h : AscendingRows rs)
    (hcolumns : ∀ run ∈ rs, AscendingColumns run.cells) :
    MapStore.AscendingAddresses (rs.flatMap Run.cells) := by
  refine List.pairwise_flatMap.2 ⟨fun run hrun => ?_, h.imp fun {a b} hlt c hc d hd => ?_⟩
  · refine List.Pairwise.imp_of_mem (fun {c d} hc hd hlt => ?_) (hcolumns run hrun)
    have hrows : c.address.row = d.address.row :=
      (Run.row_of_mem hc).trans (Run.row_of_mem hd).symm
    exact Address.compare_eq_lt_iff.2 (.inr ⟨hrows, .inl hlt⟩)
  · refine Address.compare_eq_lt_iff.2 (.inl ?_)
    have hc' : c.address.row = a.id := Run.row_of_mem hc
    have hd' : d.address.row = b.id := Run.row_of_mem hd
    rwa [hc', hd']

end AscendingRows

theorem filter_flatMap_cells (rs : List Run) (p : String → Bool) :
    ((rs.flatMap Run.cells).filter fun c => p c.row) =
      (rs.filter fun run => p run.id).flatMap Run.cells := by
  induction rs with
  | nil => rfl
  | cons run rs ih =>
    have hrun : (run.cells.filter fun c => p c.row) = if p run.id then run.cells else [] := by
      split
      · rename_i hp
        exact List.filter_eq_self.2 fun c hc => by rw [Run.row_of_mem hc, hp]
      · rename_i hp
        exact List.filter_eq_nil_iff.2 fun c hc => by rwa [Run.row_of_mem hc]
    rw [List.flatMap_cons, List.filter_append, hrun, ih, List.filter_cons]
    split <;> rfl

namespace Codec

variable {codec : Codec}

theorem itemsOfRuns_of_writes {written : List (Record × Run)} (skip : Bool)
    (h : ∀ w ∈ written, codec.Writes w.1 w.2) :
    codec.itemsOfRuns skip none (written.map (·.2)) = (written.map (·.1)).map .ok := by
  induction written with
  | nil => rfl
  | cons w written ih =>
    obtain ⟨hw, hwritten⟩ := List.forall_mem_cons.1 h
    rw [List.map_cons, itemsOfRuns, if_pos hw.recognizes, errorBehind_none, hw.decode]
    exact congrArg _ (ih hwritten)

/-- Records in the order of their rows, each with its run. -/
theorem exists_sorted {records : List Record} {rows : List (List Cell)}
    (hdate : ∀ record ∈ records, record.HasWholeMillis)
    (hencode : records.map codec.encode = rows.map .ok)
    (hids : (records.map codec.rowId).Nodup) :
    ∃ sorted : List (Record × Run), (sorted.map (·.1)).Perm records ∧
      (sorted.map (·.2.cells)).Perm rows ∧ (∀ w ∈ sorted, codec.Writes w.1 w.2) ∧
        AscendingRows (sorted.map (·.2)) := by
  obtain ⟨written, rfl, rfl, hwritten⟩ := exists_written hdate hencode
  have hrows : (written.map fun w => w.1).map codec.rowId = (written.map (·.2.id)).map .ok := by
    rw [List.map_map, List.map_map]
    exact List.map_congr_left fun w hw => (hwritten w hw).rowId
  have hnodup : (written.map (·.2.id)).Nodup := by
    rw [hrows] at hids
    exact (List.pairwise_map.1 hids).imp fun hne heq => hne (congrArg _ heq)
  have hperm := List.mergeSort_perm written fun a b => (compare a.2.id b.2.id).isLE
  exact ⟨_, hperm.map _, hperm.map _, fun w hw => hwritten w (hperm.mem_iff.1 hw),
    List.pairwise_map.2 (lt_of_mergeSort hnodup)⟩

/-- The cells of rows, in any order, fill a store with their runs in order. -/
theorem toCells_insertMany_of_writes {sorted : List (Record × Run)} {cells : List Cell}
    (hwrites : ∀ w ∈ sorted, codec.Writes w.1 w.2) (hasc : AscendingRows (sorted.map (·.2)))
    (hcells : cells.Perm (sorted.map (·.2.cells)).flatten) :
    (MapStore.empty.insertMany cells).toCells = (sorted.map (·.2)).flatMap Run.cells := by
  have hcolumns : ∀ run ∈ sorted.map (·.2), AscendingColumns run.cells := by
    intro run hrun
    obtain ⟨w, hw, rfl⟩ := List.mem_map.1 hrun
    exact (hwrites w hw).ascending
  have hflat : (sorted.map (·.2)).flatMap Run.cells = (sorted.map (·.2.cells)).flatten := by
    rw [List.flatMap_def, List.map_map]
    rfl
  apply MapStore.toCells_insertMany (hasc.ascendingAddresses hcolumns)
  rwa [hflat]

/-- Rows that were written in any batches fill the store with their runs in order. -/
theorem toCells_of_writes {sorted : List (Record × Run)} {batches : List (List (List Cell))}
    (hwrites : ∀ w ∈ sorted, codec.Writes w.1 w.2) (hasc : AscendingRows (sorted.map (·.2)))
    (hbatches : batches.flatten.Perm (sorted.map (·.2.cells))) :
    ∃ store, Store.writeAll MapStore.empty batches = .ok store ∧
      store.toCells = (sorted.map (·.2)).flatMap Run.cells :=
  ⟨_, MapStore.writeAll_eq MapStore.empty batches,
    toCells_insertMany_of_writes hwrites hasc hbatches.flatten⟩

/-- The runs of records in the order of their rows are read as these records. -/
theorem records_of_writes {written : List (Record × Run)} (skip : Bool)
    (hwrites : ∀ w ∈ written, codec.Writes w.1 w.2) (hasc : AscendingRows (written.map (·.2))) :
    codec.records skip (((written.map (·.2)).flatMap Run.cells).map .ok) =
      (written.map (·.1)).map .ok := by
  rw [RecordStream.records_of_cells, runs_flatMap_cells hasc.rowsChange,
    itemsOfRuns_of_writes skip hwrites]

/-! ## Main result -/

/-- Records with rows of their own, written to an empty store in any order and in any batches, are
read back from a scan: without an error, exactly those whose row is in the range, each once, and in
the order of their rows. -/
theorem records_scan_writeAll {records : List Record} {rows : List (List Cell)}
    {batches : List (List (List Cell))}
    (hdate : ∀ record ∈ records, record.HasWholeMillis)
    (hencode : records.map codec.encode = rows.map .ok)
    (hids : (records.map codec.rowId).Nodup) (hbatches : batches.flatten.Perm rows)
    (range : RowRange) (skip : Bool) :
    ∃ store stream, Store.writeAll MapStore.empty batches = .ok store ∧
      Store.scan store range = .ok stream ∧
      ∃ (read : List Record) (ids : List String), codec.records skip stream = read.map .ok ∧
        read.Perm (records.filter fun record =>
          (codec.rowId record).toOption.any range.contains) ∧
        read.map codec.rowId = ids.map .ok ∧ ids.Pairwise (· < ·) := by
  obtain ⟨sorted, hrecords, hrows, hwrites, hasc⟩ := exists_sorted hdate hencode hids
  obtain ⟨store, hwrite, hstore⟩ := toCells_of_writes hwrites hasc (hbatches.trans hrows.symm)
  -- a scan cuts out the runs in the range
  have hscan : store.scan range = ((sorted.filter fun w => range.contains w.2.id).map
      (·.2)).flatMap Run.cells := by
    rw [MapStore.scan_eq_filter, hstore, filter_flatMap_cells, List.filter_map]
    rfl
  have hfound : AscendingRows ((sorted.filter fun w => range.contains w.2.id).map (·.2)) :=
    hasc.sublist (List.filter_sublist.map _)
  have hread : ∀ w ∈ sorted.filter fun w => range.contains w.2.id, codec.Writes w.1 w.2 := by
    intro w hw
    exact hwrites w (List.mem_of_mem_filter hw)
  refine ⟨store, _, hwrite, rfl, (sorted.filter fun w => range.contains w.2.id).map (·.1),
    (sorted.filter fun w => range.contains w.2.id).map (·.2.id), ?_, ?_, ?_, ?_⟩
  · rw [hscan]
    exact records_of_writes skip hread hfound
  · have hkeep : (sorted.filter fun w => range.contains w.2.id) = sorted.filter fun w =>
        (codec.rowId w.1).toOption.any range.contains := by
      apply List.filter_congr
      intro w hw
      rw [(hwrites w hw).rowId]
      rfl
    have hfilter := hrecords.filter fun record =>
      (codec.rowId record).toOption.any range.contains
    rw [hkeep]
    rwa [List.filter_map] at hfilter
  · rw [List.map_map, List.map_map]
    exact List.map_congr_left fun w hw => (hread w hw).rowId
  · refine List.pairwise_map.2 ((List.pairwise_map.1 hfound).imp fun hlt => ?_)
    exact compareOfLessAndEq_eq_lt.1 hlt

/-- Of two entities that were written one after the other, in the wrong order, a scan of one row
reads the one. -/
theorem records_scan_writeAll_exact :
    ∃ store stream, Store.writeAll MapStore.empty
        [[tagged "b" "entity" []], [tagged "a" "entity" []]] = .ok store ∧
      Store.scan store (.exact "a") = .ok stream ∧
      (Codec.standard default).records true stream = [.ok (.entity { id := some "a" })] := by
  have hencode : [Record.entity { id := some "b" }, .entity { id := some "a" }].map
      (Codec.standard default).encode =
        [tagged "b" "entity" [], tagged "a" "entity" []].map .ok := by
    have hwrites : (Codec.standard default).WritesUnder .entity "entity" := ⟨rfl, rfl⟩
    rw [List.map_cons, List.map_singleton, encode_of_writesUnder hwrites rfl,
      encode_of_writesUnder hwrites rfl]
    rfl
  have hids : ([Record.entity { id := some "b" }, .entity { id := some "a" }].map
      (Codec.standard default).rowId).Nodup := by
    have hrows : [Record.entity { id := some "b" }, .entity { id := some "a" }].map
        (Codec.standard default).rowId = [.ok "b", .ok "a"] := rfl
    rw [hrows]
    simp
  have hdate : ∀ record ∈ [Record.entity { id := some "b" }, .entity { id := some "a" }],
      record.HasWholeMillis := by decide
  have hbatches : [[tagged "b" "entity" []], [tagged "a" "entity" []]].flatten.Perm
      [tagged "b" "entity" [], tagged "a" "entity" []] := .refl _
  obtain ⟨store, stream, hwrite, hscan, read, ids, hrecords, hread, -⟩ :=
    records_scan_writeAll hdate hencode hids hbatches (.exact "a") true
  refine ⟨store, stream, hwrite, hscan, ?_⟩
  have hone : read = [.entity { id := some "a" }] := List.perm_singleton.1 hread
  rw [hrecords, hone]
  rfl

end Codec

end TaggedRows
