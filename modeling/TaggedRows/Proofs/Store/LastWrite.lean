import TaggedRows.Proofs.Store.Scan
import Mathlib.Data.List.Dedup

/-!
# The last write at each address

A store in memory is the listing of the last writes: after a history of writes it holds exactly the
cells behind which nothing else is written at their address (`MapStore.mem_toCells_insertMany`).
Histories with the same last writes therefore fill equal stores, whatever came before these writes
and in whatever order they came (`MapStore.insertMany_congr`).  A store that held something before
goes on holding it at the addresses that the history does not write at
(`MapStore.get?_insertMany_iff`), so writes to different addresses may change places
(`MapStore.insertMany_comm`).

Together with the cut that a scan makes, this is all that can be seen of a store from outside: a
scan yields one cell for each address in its range that was ever written at, the one written last,
in ascending order (`MapStore.scan_writeAll_latest`).
-/

namespace TaggedRows

/-! ## Histories of writes -/

namespace Cell

/-- The cell is in the history, and nothing is written at its address later. -/
def LatestIn (history : List Cell) (c : Cell) : Prop :=
  ∃ before after, history = before ++ c :: after ∧ ∀ d ∈ after, d.address ≠ c.address

variable {history : List Cell} {c d : Cell}

theorem latestIn_cons : LatestIn (d :: history) c ↔
    LatestIn history c ∨ (c = d ∧ ∀ e ∈ history, e.address ≠ c.address) := by
  constructor
  · rintro ⟨before, after, heq, hafter⟩
    cases before with
    | nil =>
      cases heq
      exact .inr ⟨rfl, hafter⟩
    | cons b before =>
      cases heq
      exact .inl ⟨before, after, rfl, hafter⟩
  · rintro (⟨before, after, rfl, hafter⟩ | ⟨rfl, hafter⟩)
    · exact ⟨d :: before, after, rfl, hafter⟩
    · exact ⟨[], history, rfl, hafter⟩

/-- What is written last in two histories is written last in the later one, or in the earlier one
and then not at its address any more. -/
theorem latestIn_append {later : List Cell} : LatestIn (history ++ later) c ↔
    LatestIn later c ∨ LatestIn history c ∧ ∀ d ∈ later, d.address ≠ c.address := by
  induction history with
  | nil => simp [LatestIn]
  | cons d history ih =>
    rw [List.cons_append, latestIn_cons, latestIn_cons, ih, List.forall_mem_append]
    tauto

theorem LatestIn.mem (h : LatestIn history c) : c ∈ history := by
  obtain ⟨before, after, rfl, -⟩ := h
  simp

/-- Every address that was written at has a last write. -/
theorem exists_latestIn (h : d ∈ history) : ∃ c, LatestIn history c ∧ c.address = d.address := by
  induction history generalizing d with
  | nil => cases h
  | cons e history ih =>
    by_cases hlater : ∃ f ∈ history, f.address = d.address
    · obtain ⟨f, hf, hfd⟩ := hlater
      obtain ⟨c, hc, hcf⟩ := ih hf
      exact ⟨c, latestIn_cons.2 (.inl hc), hcf.trans hfd⟩
    · rcases List.mem_cons.1 h with rfl | hmem
      · exact ⟨d, latestIn_cons.2 (.inr ⟨rfl, fun f hf hfd => hlater ⟨f, hf, hfd⟩⟩), rfl⟩
      · exact absurd ⟨d, hmem, rfl⟩ hlater

/-- The addresses in a history are those of its last writes. -/
theorem mem_map_address_iff {a : Address} :
    a ∈ history.map address ↔ ∃ c, LatestIn history c ∧ c.address = a := by
  rw [List.mem_map]
  constructor
  · rintro ⟨d, hd, rfl⟩
    exact exists_latestIn hd
  · rintro ⟨c, hc, rfl⟩
    exact ⟨c, hc.mem, rfl⟩

/-- If no address is written at twice, every write is the last one at its address. -/
theorem latestIn_iff_mem (h : (history.map address).Nodup) : LatestIn history c ↔ c ∈ history := by
  refine ⟨LatestIn.mem, fun hc => ?_⟩
  obtain ⟨before, after, rfl⟩ := List.append_of_mem hc
  refine ⟨before, after, rfl, fun d hd heq => ?_⟩
  rw [List.map_append, List.map_cons] at h
  have hnot := (List.nodup_cons.1 (List.nodup_append.1 h).2.1).1
  exact hnot (heq ▸ List.mem_map_of_mem hd)

end Cell

namespace MapStore

open Cell

/-! ## Stores as listings of the last writes -/

variable {history : List Cell}

theorem findEntry_eq_none_iff {a : Address} :
    findEntry a (history.map entryOf).reverse = none ↔ ∀ d ∈ history, d.address ≠ a := by
  rw [findEntry, Option.map_eq_none_iff, List.find?_eq_none]
  constructor
  · intro h d hd heq
    have hmem : entryOf d ∈ (history.map entryOf).reverse :=
      List.mem_reverse.2 (List.mem_map_of_mem hd)
    exact h (entryOf d) hmem (by simp [entryOf, heq])
  · intro h e he heq
    obtain ⟨d, hd, rfl⟩ := List.mem_map.1 (List.mem_reverse.1 he)
    exact h d hd (Std.LawfulEqCmp.eq_of_compare (beq_iff_eq.1 heq)).symm

theorem findEntry_singleton {a : Address} {bytes : Bytes} {d : Cell} :
    findEntry a [entryOf d] = some bytes ↔ ofAddress a bytes = d := by
  constructor
  · intro h
    obtain ⟨haddress, hbytes⟩ := Prod.mk.inj (List.mem_singleton.1 (mem_of_findEntry h))
    rw [haddress, hbytes, ofAddress_address]
  · rintro rfl
    simp [findEntry, entryOf, ofAddress, address]

theorem findEntry_reverse_eq_some_iff {a : Address} {bytes : Bytes} :
    findEntry a (history.map entryOf).reverse = some bytes ↔
      LatestIn history (ofAddress a bytes) := by
  induction history with
  | nil => simp [findEntry, LatestIn]
  | cons d history ih =>
    rw [List.map_cons, List.reverse_cons, findEntry_append, Option.or_eq_some_iff, latestIn_cons]
    refine or_congr ih ?_
    rw [findEntry_singleton, findEntry_eq_none_iff, and_comm]
    rfl

/-- A look-up finds the last write at an address, or else what was there before. -/
theorem get?_insertMany_iff {s : MapStore} {a : Address} {bytes : Bytes} :
    (s.insertMany history).cells.get? a = some bytes ↔ LatestIn history (ofAddress a bytes) ∨
      (∀ d ∈ history, d.address ≠ a) ∧ s.cells.get? a = some bytes := by
  have hget : (s.insertMany history).cells.get? a =
      (findEntry a (history.map entryOf).reverse).or (s.cells.get? a) :=
    SortedMap.get?_insertMany ..
  rw [hget, Option.or_eq_some_iff, findEntry_reverse_eq_some_iff, findEntry_eq_none_iff]

/-- A look-up in a store that was empty finds the last write at an address. -/
theorem get?_insertMany_eq_some_iff {a : Address} {bytes : Bytes} :
    (empty.insertMany history).cells.get? a = some bytes ↔
      LatestIn history (ofAddress a bytes) := by
  rw [get?_insertMany_iff]
  simp [empty]

/-- A store holds exactly the last writes of its history. -/
theorem mem_toCells_insertMany {c : Cell} :
    c ∈ (empty.insertMany history).toCells ↔ LatestIn history c := by
  rw [toCells, List.mem_map]
  constructor
  · rintro ⟨⟨a, bytes⟩, hmem, rfl⟩
    exact get?_insertMany_eq_some_iff.1 ((SortedMap.mem_toList_iff _).1 hmem)
  · intro h
    refine ⟨(c.address, c.content.bytes), ?_, ofAddress_address c⟩
    exact (SortedMap.mem_toList_iff _).2 (get?_insertMany_eq_some_iff.2 h)

/-- Histories with the same last writes fill the same store. -/
theorem insertMany_congr {other : List Cell} (h : ∀ c, LatestIn history c ↔ LatestIn other c) :
    empty.insertMany history = empty.insertMany other := by
  have hcells : (empty.insertMany history).cells = (empty.insertMany other).cells := by
    refine SortedMap.ext_get? fun a => Option.ext fun bytes => ?_
    rw [get?_insertMany_eq_some_iff, get?_insertMany_eq_some_iff, h]
  exact congrArg MapStore.mk hcells

/-- Writes to different addresses may change places. -/
theorem insertMany_comm {cells more : List Cell}
    (h : ∀ c ∈ cells, ∀ d ∈ more, c.address ≠ d.address) (s : MapStore) :
    (s.insertMany cells).insertMany more = (s.insertMany more).insertMany cells := by
  have hcells : ((s.insertMany cells).insertMany more).cells =
      ((s.insertMany more).insertMany cells).cells := by
    refine SortedMap.ext_get? fun a => Option.ext fun bytes => ?_
    simp only [← insertMany_append, get?_insertMany_iff, latestIn_append, List.forall_mem_append]
    have hcells : LatestIn cells (ofAddress a bytes) → ∀ d ∈ more, d.address ≠ a := by
      intro hlast d hd heq
      exact h _ hlast.mem d hd heq.symm
    have hmore : LatestIn more (ofAddress a bytes) → ∀ c ∈ cells, c.address ≠ a := by
      intro hlast c hc heq
      exact h c hc _ hlast.mem heq
    simp only [address_ofAddress]
    tauto
  exact congrArg MapStore.mk hcells

theorem nodup_address_toCells (s : MapStore) : (s.toCells.map address).Nodup := by
  have hmap : s.toCells.map address = s.cells.keys := by
    rw [toCells, List.map_map]
    rfl
  rw [hmap]
  exact s.cells.ascending.nodup_keys

/-- The addresses in a store are those in its history. -/
theorem mem_map_address_toCells {a : Address} :
    a ∈ (empty.insertMany history).toCells.map address ↔ a ∈ history.map address := by
  rw [List.mem_map, mem_map_address_iff]
  simp only [mem_toCells_insertMany]

/-- A store has as many cells as there are addresses in its history. -/
theorem size_insertMany :
    (empty.insertMany history).size = (history.map address).dedup.length := by
  have hperm : ((empty.insertMany history).toCells.map address).Perm
      (history.map address).dedup := by
    refine (List.perm_ext_iff_of_nodup (nodup_address_toCells _) (List.nodup_dedup _)).2 ?_
    intro a
    rw [mem_map_address_toCells, List.mem_dedup]
  rw [← hperm.length_eq, List.length_map, toCells, List.length_map]
  rfl

/-- A scan yields one cell for each address of the history in its range. -/
theorem count_address_scan (range : RowRange) (a : Address) :
    (((empty.insertMany history).scan range).map address).count a =
      if a ∈ history.map address ∧ range.contains a.row then 1 else 0 := by
  -- the range looks at nothing but the address
  have hfilter : ((empty.insertMany history).scan range).map address =
      ((empty.insertMany history).toCells.map address).filter fun a => range.contains a.row := by
    rw [scan_eq_filter, List.filter_map]
    rfl
  have hmem : a ∈ ((empty.insertMany history).scan range).map address ↔
      a ∈ history.map address ∧ range.contains a.row = true := by
    rw [hfilter, List.mem_filter, mem_map_address_toCells]
  have hnodup : (((empty.insertMany history).scan range).map address).Nodup := by
    rw [hfilter]
    exact (nodup_address_toCells _).filter _
  split
  · rename_i h
    exact List.count_eq_one_of_mem hnodup (hmem.2 h)
  · rename_i h
    exact List.count_eq_zero.2 fun ha => h (hmem.1 ha)

/-! ## Main result -/

/-- A store in memory that began with some cells and then took batches of rows is the map of the
last writes, and a scan is a cut through its listing.  No call fails.  The scan yields exactly one
cell for each address in the range that was ever written at, in strictly ascending order of the
addresses, and each of them is the last write at its address.  It is what a filter by the range
leaves of all cells, and the number of all cells is the number of addresses. -/
theorem scan_writeAll_latest (cells : List Cell) (batches : List (List (List Cell)))
    (range : RowRange) :
    ∃ (store : MapStore) (found : List Cell),
      Store.writeAll (ofCells cells) batches = .ok store ∧
      Store.scan store range = .ok (found.map .ok) ∧
      AscendingAddresses found ∧
      (∀ a, (found.map address).count a =
        if a ∈ (cells ++ batches.flatten.flatten).map address ∧ range.contains a.row then 1 else 0) ∧
      (∀ c ∈ found, LatestIn (cells ++ batches.flatten.flatten) c) ∧
      found = store.toCells.filter (fun c => range.contains c.row) ∧
      store.size = ((cells ++ batches.flatten.flatten).map address).dedup.length := by
  generalize hhistory : cells ++ batches.flatten.flatten = history
  have hwrite : Store.writeAll (ofCells cells) batches = .ok (empty.insertMany history) := by
    rw [writeAll_eq, ofCells, ← insertMany_append, hhistory]
  have hscan := scan_eq_filter (empty.insertMany history) range
  refine ⟨_, _, hwrite, rfl, ascendingAddresses_scan _ range, count_address_scan range, ?_, hscan,
    size_insertMany⟩
  intro c hc
  rw [hscan] at hc
  exact mem_toCells_insertMany.1 (List.mem_of_mem_filter hc)

end MapStore

end TaggedRows
