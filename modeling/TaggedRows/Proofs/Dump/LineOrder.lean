import TaggedRows.Proofs.Dump.Lines
import TaggedRows.Proofs.Store.LastWrite

/-!
# The order of lines

Records are made from a dump only when all its cells have been read into a store, and what the store
holds is the last cell at each address.  So two dumps with the same last cells give the same output,
with the same error at the same place if there is one (`Dump.decodeList_congr`).

Two dumps have the same last cells if one is a rearrangement of the other and no address occurs
twice, and if one is what is left of the other when cells have been dropped that were overwritten
further down (`Cell.DropsOverwritten`).
-/

namespace TaggedRows

open TaggedRows.Text

/-! ## Overwritten cells -/

namespace Cell

/-- The cells that are left are all but some that have a later one at their address. -/
inductive DropsOverwritten : List Cell → List Cell → Prop where
  | nil : DropsOverwritten [] []
  | keep {cells rest : List Cell} (c : Cell) :
    DropsOverwritten cells rest → DropsOverwritten (c :: cells) (c :: rest)
  | drop {cells rest : List Cell} (c : Cell) : (∃ d ∈ cells, d.address = c.address) →
    DropsOverwritten cells rest → DropsOverwritten (c :: cells) rest

/-- Dropping overwritten cells drops no last one. -/
theorem DropsOverwritten.latestIn_iff {cells rest : List Cell} (h : DropsOverwritten cells rest)
    (c : Cell) : LatestIn cells c ↔ LatestIn rest c := by
  induction h generalizing c with
  | nil => exact Iff.rfl
  | @keep cells rest d _ ih =>
    have haddresses : c.address ∈ cells.map address ↔ c.address ∈ rest.map address := by
      simp only [mem_map_address_iff, ih]
    have hlater : (∀ e ∈ cells, e.address ≠ c.address) ↔ ∀ e ∈ rest, e.address ≠ c.address := by
      simpa [List.mem_map] using not_congr haddresses
    rw [latestIn_cons, latestIn_cons, ih, hlater]
  | @drop cells rest d hd _ ih =>
    obtain ⟨e, he, heq⟩ := hd
    rw [latestIn_cons, ih, or_iff_left]
    rintro ⟨rfl, hlast⟩
    exact hlast e he heq

end Cell

namespace Dump

/-! ## Main result -/

/-- Nothing but the last cells at each address counts. -/
theorem decodeList_congr (codec : Codec) (skip : Bool) {cells others : List Cell}
    (h : ∀ c, Cell.LatestIn cells c ↔ Cell.LatestIn others c) :
    decodeList codec skip cells = decodeList codec skip others := by
  rw [decodeList, decodeList, MapStore.ofCells, MapStore.ofCells, MapStore.insertMany_congr h]

/-- What records are made of a dump of cells, and which error ends that.  It depends neither on the
order of the lines, as long as no two cells have one address, nor on lines whose cells are
overwritten further down; blank lines play no part in either.  A line that is neither blank nor a
cell makes the whole dump fail, and then nothing is written. -/
theorem recordsOfCells_lines (codec : Codec) (skip : Bool) :
    (∀ (input other : Bytes) (cells others : List Cell),
      Holds Cell.ofJson? (lines input) cells → Holds Cell.ofJson? (lines other) others →
      cells.Perm others → (cells.map Cell.address).Nodup →
      recordsOfCells codec skip input = recordsOfCells codec skip other) ∧
    (∀ (input other : Bytes) (cells others : List Cell),
      Holds Cell.ofJson? (lines input) cells → Holds Cell.ofJson? (lines other) others →
      Cell.DropsOverwritten cells others →
      recordsOfCells codec skip input = recordsOfCells codec skip other) ∧
    (∀ (input line : Bytes), line ∈ lines input → isBlankLine line = false →
      lineValue? Cell.ofJson? line = none →
      ∃ e, recordsOfCells codec skip input = ⟨[], .error e⟩) := by
  refine ⟨?_, ?_, ?_⟩
  · intro input other cells others hcells hothers hperm hnodup
    have hnodup' : (others.map Cell.address).Nodup := (hperm.map _).nodup_iff.1 hnodup
    rw [recordsOfCells_of_holds hcells, recordsOfCells_of_holds hothers]
    apply decodeList_congr
    intro c
    rw [Cell.latestIn_iff_mem hnodup, Cell.latestIn_iff_mem hnodup', hperm.mem_iff]
  · intro input other cells others hcells hothers hdrops
    rw [recordsOfCells_of_holds hcells, recordsOfCells_of_holds hothers]
    exact decodeList_congr codec skip hdrops.latestIn_iff
  · intro input line hline hblank hvalue
    obtain ⟨e, herror⟩ := exists_readCells_error hline hblank hvalue 1
    rw [recordsOfCells, herror]
    exact ⟨e, rfl⟩

/-- Two tag cells in either order and around a blank line give the same records, and so they do
behind another cell at the address of one of them; with a line that is no cell nothing is written. -/
theorem recordsOfCells_lines_tags :
    let a := (tagCell "a" "entity").toJson.text
    let b := (tagCell "b" "entity").toJson.text
    let overwritten := (tagCell "b" "stray").toJson.text
    recordsOfCells (.standard default) false (unlines [b, " ", a]) =
        recordsOfCells (.standard default) false (unlines [a, b]) ∧
      recordsOfCells (.standard default) false (unlines [overwritten, a, b]) =
        recordsOfCells (.standard default) false (unlines [a, b]) ∧
      ∃ e, recordsOfCells (.standard default) false (unlines [a, "stray"]) = ⟨[], .error e⟩ := by
  intro a b overwritten
  obtain ⟨hperm, hdrops, herror⟩ := recordsOfCells_lines (.standard default) false
  have hcells : ∀ cells : List Cell, Holds Cell.ofJson?
      (lines (unlines (cells.map fun c => c.toJson.text))) cells := fun cells =>
    holds_unlines_map _ fun c _ => c.spells_text
  have hsorted := hcells [tagCell "a" "entity", tagCell "b" "entity"]
  have hblank : Holds Cell.ofJson? (lines (unlines [b, " ", a]))
      [tagCell "b" "entity", tagCell "a" "entity"] := by
    have hspace : isBlank " " = true := by decide
    apply holds_unlines (fun c => c.toJson.text) fun c _ => c.spells_text
    · simp [a, b, hspace, (tagCell _ _).spells_text.not_blank]
    · simp [a, b, (tagCell _ _).spells_text.not_mem_feed]
  refine ⟨?_, ?_, ?_⟩
  · exact hperm _ _ _ _ hblank hsorted (.swap _ _ _) (by decide +kernel)
  · refine hdrops _ _ _ _ (hcells [tagCell "b" "stray", tagCell "a" "entity",
      tagCell "b" "entity"]) hsorted (.drop _ ⟨tagCell "b" "entity", by simp, rfl⟩ ?_)
    exact .keep _ (.keep _ .nil)
  · have hstray : Utf8.encode "stray" ∈ lines (unlines [a, "stray"]) := by
      rw [lines_unlines (by simp [a, (tagCell _ _).spells_text.not_mem_feed])]
      exact List.mem_cons_of_mem _ (List.mem_singleton.2 (by decide +kernel))
    exact herror _ _ hstray (by decide +kernel) (by decide +kernel)

end Dump

end TaggedRows
