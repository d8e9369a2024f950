import TaggedRows.Proofs.Store.Scan
import TaggedRows.Proofs.Stream.Reading
import TaggedRows.Proofs.Tag.Encoding

/-!
# Skipping unrecognized rows

A reading that skips passes over every run whose first cell names no kind, and reads the rows behind
it (`Codec.itemsOfRuns_skip`).

A row is recognized **twice**: by the first cell of its run, and once more when the row that was
filled from the run is decoded.  In that row the tag cells of the run have collapsed into the last
of them (`Codec.kindOfRow_run`).  The two agree where a row has one tag cell.  Where it has several,
under different labels, a known first tag and an unknown last one make the reading end with the very
error that it is meant to skip (`Codec.records_skip_scan`).
-/

namespace TaggedRows

open TaggedRows.Text

/-! ## Up to the first error -/

/-- The items of a list up to its first error, the error included. -/
def upToError : List (Except ε α) → List (Except ε α)
  | [] => []
  | .ok a :: items => .ok a :: upToError items
  | .error e :: _ => [.error e]

theorem error_mem_upToError {f : α → Except ε β} {l : List α} {e : ε} :
    .error e ∈ upToError (l.map f) ↔ ∃ before a later, l = before ++ a :: later ∧
      (∀ b ∈ before, ∃ r, f b = .ok r) ∧ f a = .error e := by
  induction l with
  | nil =>
    constructor
    · intro h
      cases h
    · rintro ⟨before, a, later, hl, -⟩
      cases before <;> cases hl
  | cons a l ih =>
    rw [List.map_cons]
    cases ha : f a with
    | error e' =>
      rw [upToError, List.mem_singleton]
      constructor
      · intro h
        cases h
        exact ⟨[], a, l, rfl, by simp, ha⟩
      · rintro ⟨before, b, later, hl, hbefore, hb⟩
        cases before with
        | nil =>
          cases hl
          exact hb.symm.trans ha
        | cons c before =>
          cases hl
          obtain ⟨r, hr⟩ := hbefore a (by simp)
          rw [ha] at hr
          cases hr
    | ok r =>
      rw [upToError, List.mem_cons, or_iff_right (by simp), ih]
      constructor
      · rintro ⟨before, b, later, rfl, hbefore, hb⟩
        exact ⟨a :: before, b, later, rfl, List.forall_mem_cons.2 ⟨⟨r, ha⟩, hbefore⟩, hb⟩
      · rintro ⟨before, b, later, hl, hbefore, hb⟩
        cases before with
        | nil =>
          cases hl
          rw [ha] at hb
          cases hb
        | cons c before =>
          cases hl
          exact ⟨before, b, later, rfl, (List.forall_mem_cons.1 hbefore).2, hb⟩

/-! ## The tags of a run -/

/-- The tag cell that comes last in the run. -/
def Run.lastTag? (run : Run) : Option Cell := run.cells.reverse.find? Cell.isTag

theorem Run.exists_lastTag {run : Run} (h : run.first.isTag = true) :
    ∃ last, run.lastTag? = some last := by
  rw [← Option.isSome_iff_exists, lastTag?, List.find?_isSome]
  exact ⟨run.first, by simp [cells], h⟩

namespace Codec

variable {codec : Codec} {run : Run}

/-- No column of a run with ascending addresses is below the column of its first cell. -/
theorem column_not_lt_first (hasc : MapStore.AscendingAddresses run.cells) {c : Cell}
    (hc : c ∈ run.cells) : compare c.column run.first.column ≠ .lt := by
  rcases List.mem_cons.1 hc with rfl | hc
  · simp
  · intro hlt
    have hrow : run.first.row = c.row := (run.row_eq c hc).symm
    rcases Address.compare_eq_lt_iff.1 ((List.pairwise_cons.1 hasc).1 c hc) with
      hrows | ⟨-, hcolumns | ⟨hcolumns, -⟩⟩
    · have hrows' : compare run.first.row c.row = .lt := hrows
      simp [hrow] at hrows'
    · have hcolumns' : compare run.first.column c.column = .lt := hcolumns
      exact absurd (Std.TransCmp.lt_trans hlt hcolumns') (by simp)
    · have hcolumns' : run.first.column = c.column := hcolumns
      simp [hcolumns'] at hlt

/-- The row of a run begins with the column of the first cell, and holds there what the last cell of
the run with this column holds. -/
theorem first?_row (hasc : MapStore.AscendingAddresses run.cells) {last : Cell}
    (hlast : run.cells.reverse.find? (fun c => c.column == run.first.column) = some last) :
    run.row.first? = some (run.first.column, last.content) := by
  refine SortedMap.first?_eq_some ?_ fun e he => ?_
  · rw [Run.get?_row, hlast]
    rfl
  · rw [Run.row, SortedMap.mem_toList_iff, Row.get?_ofRun] at he
    obtain ⟨c, hc, heq⟩ := List.mem_map.1 (List.mem_reverse.1 (mem_of_findEntry he))
    have hcolumn : c.column = e.1 := congrArg Prod.fst heq
    rw [← hcolumn]
    exact column_not_lt_first hasc hc

/-- When the row of a recognized run is decoded, the last tag cell of the run decides. -/
theorem kindOfRow_run (hasc : MapStore.AscendingAddresses run.cells)
    (htag : run.first.isTag = true) {last : Cell} (hlast : run.lastTag? = some last) :
    codec.kindOfRow run.row = codec.kindOfTag run.id last.content.bytes := by
  have hfirst : run.first.column = tagColumn := by simpa [Cell.isTag] using htag
  have hfind : run.cells.reverse.find? (fun c => c.column == run.first.column) = some last := by
    rw [hfirst]
    exact hlast
  rw [kindOfRow, first?_row hasc hfind, hfirst]
  exact (if_pos rfl).trans (by rw [Run.id_row])

theorem isTag_of_recognizes (h : codec.recognizes run = true) : run.first.isTag = true := by
  rw [recognizes, recognize] at h
  split at h
  · assumption
  · cases h

/-- A row is decoded to an error that says it is not recognized exactly if its kind is not. -/
theorem decode_unrecognized_iff {row : Row} :
    (∃ e, codec.decode row = .error e ∧ e.isUnrecognized = true) ↔
      ∃ e, codec.kindOfRow row = .error e ∧ e.isUnrecognized = true := by
  cases hkind : codec.kindOfRow row with
  | error e =>
    have hdecode : codec.decode row = .error e := by
      simp [decode, decodeWithRest, hkind, bind, Except.bind]
    simp [hdecode]
  | ok kind =>
    refine iff_of_false ?_ (by simp)
    rintro ⟨e, he, hun⟩
    cases hread : ((Handler.ofKind kind).ofRow codec.keys row.dropFirst).1 with
    | error r =>
      have hdecode : codec.decode row = .error (.record r) := by
        simp [decode, decodeWithRest, hkind, hread, bind, Except.bind]
      rw [hdecode] at he
      cases he
      cases hun
    | ok record =>
      have hdecode : codec.decode row = .ok record := by
        simp [decode, decodeWithRest, hkind, hread, bind, Except.bind, pure, Except.pure]
      rw [hdecode] at he
      cases he

theorem kindOfTag_error_iff {row : String} {tag : Bytes} :
    (∃ e, codec.kindOfTag row tag = .error e ∧ e.isUnrecognized = true) ↔
      codec.registry.kindOf? (Utf8.decodeLossy tag) = none := by
  rw [kindOfTag]
  cases codec.registry.kindOf? (Utf8.decodeLossy tag) with
  | none => exact iff_of_true ⟨_, rfl, rfl⟩ rfl
  | some kind => simp

/-! ## Main result -/

/-- A reading that skips yields what the recognized runs decode to, up to the first error. -/
theorem itemsOfRuns_skip (codec : Codec) (rs : List Run) :
    codec.itemsOfRuns true none rs =
      upToError ((rs.filter codec.recognizes).map fun run => codec.decode run.row) := by
  induction rs with
  | nil => rfl
  | cons run rs ih =>
    cases hrec : codec.recognizes run with
    | false =>
      rw [itemsOfRuns, if_neg (by simp [hrec]), if_pos rfl, ih,
        List.filter_cons_of_neg (by simp [hrec])]
    | true =>
      rw [itemsOfRuns, if_pos hrec, errorBehind_none, List.filter_cons_of_pos hrec, List.map_cons]
      cases codec.decode run.row with
      | error e => rfl
      | ok record => exact congrArg (.ok record :: ·) ih

theorem decode_run_unrecognized_iff (hasc : MapStore.AscendingAddresses run.cells)
    (hrec : codec.recognizes run = true) :
    (∃ e, codec.decode run.row = .error e ∧ e.isUnrecognized = true) ↔
      ∃ last, run.lastTag? = some last ∧ codec.registry.kindOf? last.content.text = none := by
  have htag := isTag_of_recognizes hrec
  obtain ⟨last, hlast⟩ := Run.exists_lastTag htag
  rw [decode_unrecognized_iff, kindOfRow_run hasc htag hlast, kindOfTag_error_iff]
  constructor
  · intro h
    exact ⟨last, hlast, h⟩
  · rintro ⟨last', hlast', h⟩
    rw [hlast] at hlast'
    cases hlast'
    exact h

/-- What a scan yields that skips unrecognized rows: the recognized rows, decoded, up to the first
error.  That error says that a row is not recognized exactly if the row has several tag cells, the
first of a known tag and the last of an unknown one, and the recognized rows before it are sound. -/
theorem records_skip_scan (codec : Codec) (store : MapStore) (range : RowRange) :
    codec.records true ((store.scan range).map .ok) =
        upToError (((runs (store.scan range)).filter codec.recognizes).map fun run =>
          codec.decode run.row) ∧
      ((∃ e, .error e ∈ codec.records true ((store.scan range).map .ok) ∧
          e.isUnrecognized = true) ↔
        ∃ before run later,
          (runs (store.scan range)).filter codec.recognizes = before ++ run :: later ∧
            (∀ b ∈ before, ∃ record, codec.decode b.row = .ok record) ∧
            ∃ last, run.lastTag? = some last ∧
              codec.registry.kindOf? last.content.text = none) := by
  have hitems : codec.records true ((store.scan range).map .ok) =
      upToError (((runs (store.scan range)).filter codec.recognizes).map fun run =>
        codec.decode run.row) := by
    rw [RecordStream.records_of_cells, itemsOfRuns_skip]
  -- every recognized run is a stretch of the scan, and so its addresses ascend
  have hiff : ∀ run ∈ (runs (store.scan range)).filter codec.recognizes,
      ((∃ e, codec.decode run.row = .error e ∧ e.isUnrecognized = true) ↔
        ∃ last, run.lastTag? = some last ∧ codec.registry.kindOf? last.content.text = none) := by
    intro run hrun
    obtain ⟨hmem, hrec⟩ := List.mem_filter.1 hrun
    exact decode_run_unrecognized_iff
      ((store.ascendingAddresses_scan range).sublist (sublist_of_mem_runs hmem)) hrec
  refine ⟨hitems, ?_⟩
  rw [hitems]
  constructor
  · rintro ⟨e, he, hun⟩
    obtain ⟨before, run, later, hsplit, hbefore, hrun⟩ := error_mem_upToError.1 he
    exact ⟨before, run, later, hsplit, hbefore, (hiff run (by simp [hsplit])).1 ⟨e, hrun, hun⟩⟩
  · rintro ⟨before, run, later, hsplit, hbefore, hlast⟩
    obtain ⟨e, hrun, hun⟩ := (hiff run (by simp [hsplit])).2 hlast
    exact ⟨e, error_mem_upToError.2 ⟨before, run, later, hsplit, hbefore, hrun⟩, hun⟩

/-- A row that names its kind under two labels, first by a known tag and then by an unknown one,
ends a reading that skips, and the sound row behind it is not read. -/
theorem records_skip_two_tags :
    (Codec.standard default).records true (((MapStore.ofCells
      [tagCell "r" "entity", ⟨"r", tagColumn, ⟨⟨"x"⟩, Utf8.encode "widget"⟩⟩,
        tagCell "s" "entity"]).scan .all).map .ok) =
      [.error (.unknownTag "r" "widget")] ∧
    (TableError.unknownTag "r" "widget").isUnrecognized = true := by
  refine ⟨?_, rfl⟩
  rw [RecordStream.records_of_cells]
  rfl

end Codec

end TaggedRows
