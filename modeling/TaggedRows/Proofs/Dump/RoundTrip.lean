import Mathlib.Data.List.Permutation
import TaggedRows.Proofs.Dump.Lines
import TaggedRows.Proofs.Store.ReadBack

/-!
# Dumps of records read back

Records written as lines of cells are read back from these lines in whatever order they come
(`Dump.recordsOfCells_cellsOfRecords`).

Three round trips follow each other.  A record or a cell is read back from its line of JSON
(`Record.spells_text`, `Cell.spells_text`); the cells fill a store with the runs of the records, one
behind the other; and each run is read as its record.
-/

namespace TaggedRows

open TaggedRows.Text

namespace Dump

/-! ## Dumps -/

theorem holds_records {records : List Record}
    (hdate : ∀ record ∈ records, record.HasWholeMillis) :
    Holds Record.ofJson? (lines (unlines (records.map fun r => r.toJson.text))) records :=
  holds_unlines_map _ fun record hrecord => Record.spells_text (hdate record hrecord)

/-- Lines of cells in any order hold the cells in some order. -/
theorem exists_holds_cells {cells : List Cell} {dump : List String}
    (hdump : (dump.filter fun l => !isBlank l).Perm (cells.map fun c => c.toJson.text))
    (hfeed : ∀ l ∈ dump, '\n' ∉ l.toList) :
    ∃ read : List Cell, read.Perm cells ∧ Holds Cell.ofJson? (lines (unlines dump)) read := by
  have hcomp := congrFun (congrFun (List.eq_map_comp_perm fun c : Cell => c.toJson.text)
    (dump.filter fun l => !isBlank l)) cells
  obtain ⟨read, hread, hperm⟩ := hcomp.mpr hdump
  exact ⟨read, hperm, holds_unlines _ (fun c _ => c.spells_text) hread hfeed⟩

theorem decodeList_of_writes {codec : Codec} {sorted : List (Record × Run)} {cells : List Cell}
    (hwrites : ∀ w ∈ sorted, codec.Writes w.1 w.2) (hasc : AscendingRows (sorted.map (·.2)))
    (hcells : cells.Perm (sorted.map (·.2.cells)).flatten) (skip : Bool) :
    decodeList codec skip cells =
      ⟨(sorted.map (·.1)).map fun r => r.toJson.text, .ok sorted.length⟩ := by
  have hscan : (MapStore.ofCells cells).scan .all = (sorted.map (·.2)).flatMap Run.cells := by
    rw [MapStore.scan_eq_filter, MapStore.ofCells,
      Codec.toCells_insertMany_of_writes hwrites hasc hcells]
    exact List.filter_eq_self.2 fun _ _ => rfl
  rw [decodeList, hscan, Codec.records_of_writes skip hwrites hasc, recordLines_map_ok,
    List.length_map]

/-! ## Main result -/

/-- Records with rows of their own, given as lines of JSON, are turned into lines of cells.  From
these lines in any order, and with blank lines anywhere between them, exactly the records are read
back, in the order of their rows, whether or not rows are passed over that are not recognized.  Both
ways the records are counted. -/
theorem recordsOfCells_cellsOfRecords {codec : Codec} {records : List Record}
    {rows : List (List Cell)} (hdate : ∀ record ∈ records, record.HasWholeMillis)
    (hencode : records.map codec.encode = rows.map .ok)
    (hids : (records.map codec.rowId).Nodup) :
    ∃ (written : List String) (sorted : List Record) (ids : List String),
      cellsOfRecords codec (unlines (records.map fun r => r.toJson.text)) =
        ⟨written, .ok records.length⟩ ∧
      (∀ line ∈ written, isBlank line = false ∧ '\n' ∉ line.toList) ∧
      sorted.Perm records ∧ sorted.map codec.rowId = ids.map .ok ∧ ids.Pairwise (· < ·) ∧
      ∀ (dump : List String) (skip : Bool),
        (dump.filter fun line => !isBlank line).Perm written →
        (∀ line ∈ dump, '\n' ∉ line.toList) →
        recordsOfCells codec skip (unlines dump) =
          ⟨sorted.map fun r => r.toJson.text, .ok records.length⟩ := by
  obtain ⟨sorted, hrecords, hrows, hwrites, hasc⟩ := Codec.exists_sorted hdate hencode hids
  refine ⟨_, sorted.map (·.1), sorted.map (·.2.id),
    encodeLines_of_holds (holds_records hdate) hencode 1, ?_, hrecords, ?_, ?_, ?_⟩
  · intro line hline
    obtain ⟨c, -, rfl⟩ := List.mem_map.1 hline
    exact ⟨c.spells_text.not_blank, c.spells_text.not_mem_feed⟩
  · rw [List.map_map, List.map_map]
    exact List.map_congr_left fun w hw => (hwrites w hw).rowId
  · refine List.pairwise_map.2 ((List.pairwise_map.1 hasc).imp fun hlt => ?_)
    exact compareOfLessAndEq_eq_lt.1 hlt
  · intro dump skip hdump hfeed
    obtain ⟨read, hread, hholds⟩ := exists_holds_cells hdump hfeed
    have hlength : sorted.length = records.length := by
      rw [← hrecords.length_eq, List.length_map]
    rw [recordsOfCells_of_holds hholds,
      decodeList_of_writes hwrites hasc (hread.trans hrows.symm.flatten), hlength]

/-- Two entities are read back in the order of their ids from the reversed lines of their cells,
behind a blank line. -/
theorem recordsOfCells_cellsOfRecords_reversed :
    let a : Record := .entity { id := some "a" }
    let b : Record := .entity { id := some "b" }
    ∃ written, cellsOfRecords (.standard default) (unlines [b.toJson.text, a.toJson.text]) =
        ⟨written, .ok 2⟩ ∧
      recordsOfCells (.standard default) false (unlines (" " :: written.reverse)) =
        ⟨[a.toJson.text, b.toJson.text], .ok 2⟩ := by
  intro a b
  have hencode : [b, a].map (Codec.standard default).encode =
      [Codec.tagged "b" "entity" [], Codec.tagged "a" "entity" []].map .ok := by
    have hwrites : (Codec.standard default).WritesUnder .entity "entity" := ⟨rfl, rfl⟩
    rw [List.map_cons, List.map_singleton, Codec.encode_of_writesUnder hwrites rfl,
      Codec.encode_of_writesUnder hwrites rfl]
    rfl
  have hrows : [b, a].map (Codec.standard default).rowId = [.ok "b", .ok "a"] := rfl
  have hdate : ∀ record ∈ [b, a], record.HasWholeMillis := by decide
  obtain ⟨written, sorted, ids, hwritten, hlines, hsorted, hids, hasc, hread⟩ :=
    recordsOfCells_cellsOfRecords hdate hencode (by rw [hrows]; simp)
  have horder : sorted = [a, b] := by
    rcases List.perm_pair.1 hsorted with rfl | rfl
    · have hids' : ids = ["b", "a"] := by
        rw [hrows] at hids
        exact List.map_injective_iff.2 (fun _ _ h => Except.ok.inj h) hids.symm
      rw [hids'] at hasc
      exact absurd hasc (by decide)
    · rfl
  have hdump : (" " :: written.reverse).filter (fun l => !isBlank l) = written.reverse := by
    have hspace : isBlank " " = true := by decide
    rw [List.filter_cons_of_neg (by simp [hspace])]
    exact List.filter_eq_self.2 fun l hl => by simp [(hlines l (List.mem_reverse.1 hl)).1]
  have hfeed : ∀ l ∈ " " :: written.reverse, '\n' ∉ l.toList :=
    List.forall_mem_cons.2 ⟨by decide, fun l hl => (hlines l (List.mem_reverse.1 hl)).2⟩
  refine ⟨written, hwritten, ?_⟩
  rw [hread _ false (by rw [hdump]; exact List.reverse_perm written) hfeed, horder]
  rfl

end Dump

end TaggedRows
