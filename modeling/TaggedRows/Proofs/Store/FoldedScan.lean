import TaggedRows.Proofs.FoldedRow.RoundTrip
import TaggedRows.Proofs.Store.ReadBack
import TaggedRows.Proofs.Stream.Skipping

/-!
# Scans of folded rows

Rows can be read from a store in two ways: cell by cell, where the first cell of a row decides
whether the row is read at all, or folded into one value each, where every row is decoded.  Both
come upon the same **runs** of the scan.

* A scan of folded rows is one value for each run (`foldRows_of_fits`), and such a value is decoded
  like the row of the run (`FoldedRow.decode_rowBytes`).
* Where no row has two tag cells, the first cell of a run and the row filled from it are recognized
  alike (`Codec.kindOfRow_eq_recognize`).  A run that is passed over or stopped at is then one whose
  decoding says that the row is not recognized (`Codec.recognizes_eq`).

So the one list of results says what either reading yields (`Codec.records_scanFolded`).
-/

namespace TaggedRows

open Cursor

/-! ## Folding run by run -/

section Folding

variable {c d : Cursor} {run : Run} {rest : CellStream}

theorem foldRows_of_error {e : TableError} (h : c.nextRow = (.error e, d)) :
    foldRows c = .error e := by
  unfold foldRows
  split <;> simp_all

theorem foldRows_of_none (h : c.nextRow = (.ok none, d)) : foldRows c = .ok [] := by
  unfold foldRows
  split <;> simp_all

theorem foldRows_of_some {row : Row} (h : c.nextRow = (.ok (some row), d)) :
    foldRows c = (do
      let bytes ← (FoldedRow.encode row).mapError .malformedFrame
      let rows ← foldRows d
      pure ((row.id, bytes) :: rows)) := by
  conv => lhs; unfold foldRows
  split
  · simp_all
  · simp_all
  · rename_i row' hrow
    rw [h] at hrow
    cases hrow
    rw [h]

theorem foldRows_eq_pending (c : Cursor) : foldRows c = foldRows { rest := c.pending } := by
  have hnext := c.nextRow_eq
  rcases h : nextRow { rest := c.pending } with ⟨e | _ | row, d⟩
  · rw [foldRows_of_error h, foldRows_of_error (hnext.trans h)]
  · rw [foldRows_of_none h, foldRows_of_none (hnext.trans h)]
  · rw [foldRows_of_some h, foldRows_of_some (hnext.trans h)]

/-- A complete run is folded into one value, and the rows behind it follow. -/
theorem foldRows_run (hend : run.EndsBefore rest) (hrest : ¬ rest.Fails) :
    foldRows { rest := run.stream ++ rest } = (do
      let bytes ← (FoldedRow.encode run.row).mapError .malformedFrame
      let rows ← foldRows { rest }
      pure ((run.id, bytes) :: rows)) := by
  obtain ⟨d, hnext, hpending⟩ := nextRow_stream_append hend hrest
  rw [foldRows_of_some hnext, foldRows_eq_pending d, hpending, Run.id_row]

/-- Cells of rows that fit are folded into one value for each of their runs. -/
theorem foldRows_of_fits {s : CellStream} (hok : s.firstError? = none)
    (hfits : ∀ run ∈ runs s.cells, FoldedRow.RowFits run.row) :
    foldRows { rest := s } =
      .ok ((runs s.cells).map fun run => (run.id, FoldedRow.rowBytes run.row)) := by
  induction s using CellStream.inductionOnRuns with
  | nil => exact foldRows_of_none rfl
  | error e rest => cases hok
  | run run rest hend ih =>
    rw [Run.firstError?_stream_append] at hok
    rw [Run.runs_stream_append hend] at hfits ⊢
    obtain ⟨hrun, hruns⟩ := List.forall_mem_cons.1 hfits
    -- no error stands behind the run, so its row is complete
    have hrest : ¬ rest.Fails := by
      rintro ⟨e, later, rfl⟩
      cases hok
    rw [foldRows_run hend hrest, FoldedRow.encode_of_fits hrun, ih hok hruns]
    rfl

end Folding

/-! ## Recognized rows -/

/-- A result that says that a row is not recognized. -/
def isUnrecognizedResult : Except TableError α → Bool
  | .ok _ => false
  | .error e => e.isUnrecognized

theorem isUnrecognizedResult_iff {r : Except TableError α} :
    isUnrecognizedResult r = true ↔ ∃ e, r = .error e ∧ e.isUnrecognized = true := by
  cases r with
  | ok a => simp [isUnrecognizedResult]
  | error e => simp [isUnrecognizedResult]

/-- No row among the cells has two tag cells. -/
def SingleTags (cells : List Cell) : Prop :=
  ∀ c ∈ cells, ∀ d ∈ cells, c.isTag = true → d.isTag = true → c.row = d.row → c = d

instance (cells : List Cell) : Decidable (SingleTags cells) :=
  inferInstanceAs (Decidable (∀ c ∈ cells, ∀ d ∈ cells, c.isTag = true → d.isTag = true →
    c.row = d.row → c = d))

namespace Codec

variable {codec : Codec} {run : Run}

/-- With one tag cell at most, the row of a run is recognized like its first cell. -/
theorem kindOfRow_eq_recognize (hasc : MapStore.AscendingAddresses run.cells)
    (htags : SingleTags run.cells) : codec.kindOfRow run.row = codec.recognize run.first := by
  have hfirst : run.first ∈ run.cells := List.mem_cons_self
  obtain ⟨last, hlast⟩ : ∃ last,
      run.cells.reverse.find? (fun c => c.column == run.first.column) = some last := by
    rw [← Option.isSome_iff_exists, List.find?_isSome]
    exact ⟨run.first, List.mem_reverse.2 hfirst, by simp⟩
  have hmem : last ∈ run.cells := List.mem_reverse.1 (List.mem_of_find?_eq_some hlast)
  have hcolumn : last.column = run.first.column := by simpa using List.find?_some hlast
  rw [kindOfRow, first?_row hasc hlast, recognize]
  by_cases htag : run.first.column = tagColumn
  · have hisTag : run.first.isTag = true := by simp [Cell.isTag, htag]
    have hlastTag : last.isTag = true := by simp [Cell.isTag, hcolumn, htag]
    obtain rfl : last = run.first :=
      htags last hmem run.first hfirst hlastTag hisTag (Run.row_of_mem hmem)
    rw [if_pos hisTag]
    exact (if_pos htag).trans (by rw [Run.id_row]; rfl)
  · have hisTag : ¬ run.first.isTag = true := by simp [Cell.isTag, htag]
    rw [if_neg hisTag]
    exact (if_neg htag).trans (by rw [Run.id_row]; rfl)

/-- With one tag cell at most, a run is recognized exactly if its row does not decode to an error
that says otherwise. -/
theorem recognizes_eq (hasc : MapStore.AscendingAddresses run.cells)
    (htags : SingleTags run.cells) :
    codec.recognizes run = !isUnrecognizedResult (codec.decode run.row) := by
  have hdecode : isUnrecognizedResult (codec.decode run.row) = true ↔
      ∃ e, codec.recognize run.first = .error e ∧ e.isUnrecognized = true := by
    rw [isUnrecognizedResult_iff, decode_unrecognized_iff, kindOfRow_eq_recognize hasc htags]
  rw [recognizes]
  cases hrec : codec.recognize run.first with
  | ok kind =>
    have hnot : ¬ isUnrecognizedResult (codec.decode run.row) = true := by
      rw [hdecode, hrec]
      simp
    simp [hnot, Except.isOk, Except.toBool]
  | error e =>
    have hun : isUnrecognizedResult (codec.decode run.row) = true := by
      rw [hdecode]
      exact ⟨e, hrec, isUnrecognized_of_recognize hrec⟩
    simp [hun, Except.isOk, Except.toBool]

/-! ## Items of runs -/

theorem takeWhile_congr {p q : Run → Bool} {rs : List Run} (h : ∀ run ∈ rs, p run = q run) :
    rs.takeWhile p = rs.takeWhile q := by
  induction rs with
  | nil => rfl
  | cons run rs ih =>
    obtain ⟨hrun, hrs⟩ := List.forall_mem_cons.1 h
    rw [List.takeWhile_cons, List.takeWhile_cons, hrun, ih hrs]

/-- A strict reading yields what the runs before the first unrecognized one decode to, up to the
first error. -/
theorem itemsOfRuns_strict (codec : Codec) (rs : List Run) :
    codec.itemsOfRuns false none rs =
      upToError ((rs.takeWhile codec.recognizes).map fun run => codec.decode run.row) := by
  induction rs with
  | nil => rfl
  | cons run rs ih =>
    cases hrec : codec.recognizes run with
    | false =>
      rw [itemsOfRuns, if_neg (by simp [hrec]), List.takeWhile_cons_of_neg (by simp [hrec])]
      rfl
    | true =>
      rw [itemsOfRuns, if_pos hrec, errorBehind_none, List.takeWhile_cons_of_pos hrec,
        List.map_cons]
      cases codec.decode run.row with
      | error e => rfl
      | ok record => exact congrArg (.ok record :: ·) ih

/-- What the runs decode to says what a reading yields, whether it skips or not. -/
theorem itemsOfRuns_of_singleTags (codec : Codec) {rs : List Run}
    (hasc : ∀ run ∈ rs, MapStore.AscendingAddresses run.cells)
    (htags : ∀ run ∈ rs, SingleTags run.cells) :
    codec.itemsOfRuns true none rs =
        upToError ((rs.map fun run => codec.decode run.row).filter
          fun r => !isUnrecognizedResult r) ∧
      codec.itemsOfRuns false none rs =
        upToError ((rs.map fun run => codec.decode run.row).takeWhile
          fun r => !isUnrecognizedResult r) := by
  have hrec : ∀ run ∈ rs, codec.recognizes run =
      ((fun r => !isUnrecognizedResult r) ∘ fun run => codec.decode run.row) run :=
    fun run hrun => recognizes_eq (hasc run hrun) (htags run hrun)
  constructor
  · rw [itemsOfRuns_skip, List.filter_map, List.filter_congr hrec]
  · rw [itemsOfRuns_strict, List.takeWhile_map, takeWhile_congr hrec]

end Codec

/-! ## The rows of a scan -/

theorem mem_ids_runs {cells : List Cell} {id : String} :
    id ∈ (runs cells).map Run.id ↔ ∃ c ∈ cells, c.row = id := by
  have hcells : ∀ c, c ∈ cells ↔ ∃ run ∈ runs cells, c ∈ run.cells := by
    intro c
    rw [← List.mem_flatMap, flatMap_cells_runs]
  rw [List.mem_map]
  constructor
  · rintro ⟨run, hrun, rfl⟩
    exact ⟨run.first, (hcells _).2 ⟨run, hrun, List.mem_cons_self⟩, rfl⟩
  · rintro ⟨c, hc, rfl⟩
    obtain ⟨run, hrun, hmem⟩ := (hcells c).1 hc
    exact ⟨run, hrun, (Run.row_of_mem hmem).symm⟩

/-- Where addresses ascend no row comes twice: the runs are in the order of their rows. -/
theorem ascendingRows_runs {cells : List Cell} (h : MapStore.AscendingAddresses cells) :
    AscendingRows (runs cells) := by
  have hle : (runs cells).Pairwise fun a b => a.id ≤ b.id := by
    have hrows : ((runs cells).flatMap Run.cells).Pairwise fun c d => c.row ≤ d.row := by
      rw [flatMap_cells_runs]
      exact h.imp fun hlt => Address.row_le_of_lt hlt
    refine (List.pairwise_flatMap.1 hrows).2.imp fun {a b} hab => ?_
    exact hab a.first List.mem_cons_self b.first List.mem_cons_self
  have hne := rowsChange_runs cells
  generalize runs cells = rs at hle hne
  induction rs with
  | nil => exact .nil
  | cons run rs ih =>
    obtain ⟨hrun, hrs⟩ := List.pairwise_cons.1 hle
    obtain ⟨hnext, hchange⟩ := List.isChain_cons.1 hne
    have hlater : AscendingRows rs := ih hrs hchange
    refine List.pairwise_cons.2 ⟨?_, hlater⟩
    -- the next run is of another row, and the runs behind it are above it
    cases rs with
    | nil => simp
    | cons next rs =>
      have hlt : compare run.id next.id = .lt :=
        compareOfLessAndEq_eq_lt.2 (Std.lt_of_le_of_ne (hrun next (by simp)) (hnext next rfl))
      intro other hother
      rcases List.mem_cons.1 hother with rfl | hother
      · exact hlt
      · exact Std.TransCmp.lt_trans hlt ((List.pairwise_cons.1 hlater).1 other hother)

/-! ## Main result -/

/-- The two ways of reading rows agree.  A scan of folded rows yields the ids of the rows in the
range, ascending, each with one value.  The results of decoding these values are what a reading of
the cells yields that skips, without those of unrecognized rows and up to the first error; and what
a strict reading yields, up to the first unrecognized row or the first error. -/
theorem Codec.records_scanFolded (codec : Codec) (store : MapStore) (range : RowRange)
    (hfits : ∀ run ∈ runs (store.scan range), FoldedRow.RowFits run.row)
    (htags : SingleTags store.toCells) :
    ∃ folded stream, Store.scanFolded store range = .ok folded ∧
      Store.scan store range = .ok stream ∧
      (folded.map (·.1)).Pairwise (· < ·) ∧
      (∀ id, id ∈ folded.map (·.1) ↔ range.contains id = true ∧ ∃ c ∈ store.toCells, c.row = id) ∧
      codec.records true stream =
        upToError ((folded.map fun p => codec.decodeFolded p.1 p.2).filter
          fun r => !isUnrecognizedResult r) ∧
      codec.records false stream =
        upToError ((folded.map fun p => codec.decodeFolded p.1 p.2).takeWhile
          fun r => !isUnrecognizedResult r) := by
  have hasc := store.ascendingAddresses_scan range
  have hfolded : Store.scanFolded store range = .ok ((runs (store.scan range)).map fun run =>
      (run.id, FoldedRow.rowBytes run.row)) := by
    have hfold := foldRows_of_fits (CellStream.firstError?_map_ok (store.scan range))
      (by rwa [CellStream.cells_map_ok])
    rwa [CellStream.cells_map_ok] at hfold
  have hids : ((runs (store.scan range)).map fun run =>
      (run.id, FoldedRow.rowBytes run.row)).map (·.1) = (runs (store.scan range)).map Run.id := by
    rw [List.map_map]
    rfl
  have hresults : ((runs (store.scan range)).map fun run =>
      (run.id, FoldedRow.rowBytes run.row)).map (fun p => codec.decodeFolded p.1 p.2) =
        (runs (store.scan range)).map fun run => codec.decode run.row := by
    rw [List.map_map]
    refine List.map_congr_left fun run hrun => ?_
    have hdecode := FoldedRow.decode_rowBytes (hfits run hrun)
    rw [Run.id_row] at hdecode
    simp only [Function.comp, decodeFolded, hdecode]
    rfl
  -- the cells of a run are cells of the store
  have hrunTags : ∀ run ∈ runs (store.scan range), SingleTags run.cells := by
    intro run hrun c hc d hd
    have hstored : ∀ c ∈ run.cells, c ∈ store.toCells := by
      intro c hc
      have hscan := (sublist_of_mem_runs hrun).subset hc
      rw [MapStore.scan_eq_filter] at hscan
      exact List.mem_of_mem_filter hscan
    exact htags c (hstored c hc) d (hstored d hd)
  obtain ⟨hskip, hstrict⟩ := itemsOfRuns_of_singleTags codec
    (fun run hrun => hasc.sublist (sublist_of_mem_runs hrun)) hrunTags
  refine ⟨_, _, hfolded, rfl, ?_, ?_, ?_, ?_⟩
  · rw [hids]
    exact List.pairwise_map.2 ((ascendingRows_runs hasc).imp compareOfLessAndEq_eq_lt.1)
  · intro id
    rw [hids, mem_ids_runs, MapStore.scan_eq_filter]
    constructor
    · rintro ⟨c, hc, rfl⟩
      obtain ⟨hstored, hrange⟩ := List.mem_filter.1 hc
      exact ⟨hrange, c, hstored, rfl⟩
    · rintro ⟨hrange, c, hstored, rfl⟩
      exact ⟨c, List.mem_filter.2 ⟨hstored, hrange⟩, rfl⟩
  · rw [hresults, RecordStream.records_of_cells, hskip]
  · rw [hresults, RecordStream.records_of_cells, hstrict]

/-- Of a store with an entity, a row without a tag and another entity, the folded rows are read as
the entities and an error between them. -/
theorem Codec.records_scanFolded_untagged :
    ∃ folded, Store.scanFolded (MapStore.ofCells
        [tagCell "a" "entity", ⟨"a", ⟨"item", "k"⟩, ⟨.unrestricted, [49]⟩⟩,
          ⟨"a", ⟨"item", "k"⟩, ⟨⟨"x"⟩, [50]⟩⟩, ⟨"b", ⟨"f", "q"⟩, ⟨.unrestricted, []⟩⟩,
          tagCell "c" "entity"]) .all = .ok folded ∧
      upToError ((folded.map fun p => (Codec.standard default).decodeFolded p.1 p.2).filter
          fun r => !isUnrecognizedResult r) =
        [.ok (.entity ⟨some "a", .empty, .ofList [("k", "2")]⟩),
          .ok (.entity ⟨some "c", .empty, .empty⟩)] ∧
      upToError ((folded.map fun p => (Codec.standard default).decodeFolded p.1 p.2).takeWhile
          fun r => !isUnrecognizedResult r) =
        [.ok (.entity ⟨some "a", .empty, .ofList [("k", "2")]⟩)] := by
  obtain ⟨folded, stream, hfolded, hscan, -, -, hskip, hstrict⟩ :=
    Codec.records_scanFolded (Codec.standard default) (MapStore.ofCells
        [tagCell "a" "entity", ⟨"a", ⟨"item", "k"⟩, ⟨.unrestricted, [49]⟩⟩,
          ⟨"a", ⟨"item", "k"⟩, ⟨⟨"x"⟩, [50]⟩⟩, ⟨"b", ⟨"f", "q"⟩, ⟨.unrestricted, []⟩⟩,
          tagCell "c" "entity"]) .all (by decide +kernel) (by decide +kernel)
  cases hscan
  refine ⟨folded, hfolded, ?_, ?_⟩
  · rw [← hskip, RecordStream.records_of_cells]
    rfl
  · rw [← hstrict, RecordStream.records_of_cells]
    rfl

end TaggedRows
