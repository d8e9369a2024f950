import TaggedRows.Proofs.Row.Families
import TaggedRows.Store.Map

/-!
# Scans of a store in memory

A scan skips what lies below the start and ends at the first row beyond the range.  Rows ascend in
the listing of a store, so this cuts out the cells of the rows in the range, for bounds of every
kind and also for ranges whose end lies before their start (`MapStore.scan_eq_filter`).

What is in a store depends neither on the order in which cells were written nor on how they were put
together into writes (`MapStore.writeAll_eq`), as long as no two of them have the same address
(`MapStore.toCells_insertMany`).
-/

namespace TaggedRows

/-! ## The order of addresses -/

namespace Address

theorem compare_eq_lt_iff {a b : Address} :
    compare a b = .lt ↔ compare a.row b.row = .lt ∨ (a.row = b.row ∧
      (compare a.column b.column = .lt ∨
        (a.column = b.column ∧ compare a.label b.label = .lt))) := by
  have h : compare a b = (compare a.row b.row).then
      ((compare a.column b.column).then (compare a.label b.label)) := rfl
  rw [h, Ordering.then_eq_lt, Ordering.then_eq_lt, Std.compare_eq_iff_eq, Std.compare_eq_iff_eq]

/-- Rows ascend along with addresses. -/
theorem row_le_of_lt {a b : Address} (h : compare a b = .lt) : a.row ≤ b.row := by
  rcases compare_eq_lt_iff.1 h with hrow | ⟨hrow, -⟩
  · exact Std.le_of_lt (compareOfLessAndEq_eq_lt.1 hrow)
  · exact hrow ▸ Std.le_refl a.row

/-- No address of a row is below the one of the empty column and the empty label. -/
theorem row_lt_of_lt_lowest {a : Address} {row : String}
    (h : compare a ⟨row, ⟨"", ""⟩, .unrestricted⟩ = .lt) : a.row < row := by
  rcases compare_eq_lt_iff.1 h with hrow | ⟨-, hcolumn | ⟨-, hlabel⟩⟩
  · exact compareOfLessAndEq_eq_lt.1 hrow
  · rcases Column.compare_eq_lt_iff.1 hcolumn with hfamily | ⟨-, hqualifier⟩
    · exact absurd hfamily (compare_empty_ne_lt _)
    · exact absurd hqualifier (compare_empty_ne_lt _)
  · exact absurd hlabel (compare_empty_ne_lt a.label.text)

end Address

/-! ## Ranges -/

namespace RowRange

variable {range : RowRange} {r s : String}

theorem afterStart_mono (hrs : r ≤ s) (h : range.afterStart r = true) :
    range.afterStart s = true := by
  obtain ⟨start, stop⟩ := range
  cases start with
  | unbounded => rfl
  | included row => exact decide_eq_true (Std.le_trans (of_decide_eq_true h) hrs)
  | excluded row => exact decide_eq_true (Std.lt_of_lt_of_le (of_decide_eq_true h) hrs)

theorem beforeEnd_mono (hrs : r ≤ s) (h : range.beforeEnd s = true) :
    range.beforeEnd r = true := by
  obtain ⟨start, stop⟩ := range
  cases stop with
  | unbounded => rfl
  | included row => exact decide_eq_true (Std.le_trans hrs (of_decide_eq_true h))
  | excluded row => exact decide_eq_true (Std.lt_of_le_of_lt hrs (of_decide_eq_true h))

end RowRange

namespace MapStore

/-! ## Scanning -/

theorem isBelow_trans {bound : Bound} {a b : Address} (hab : compare a b = .lt)
    (h : isBelow bound b = true) : isBelow bound a = true := by
  unfold isBelow at h ⊢
  cases hlow : lowest? bound with
  | none => simp [hlow] at h
  | some lowest =>
    rw [hlow] at h
    simp only [beq_iff_eq] at h ⊢
    exact Std.TransCmp.lt_trans hab h

/-- Where a scan starts it has passed no row of the range. -/
theorem isBelow_eq_false {range : RowRange} {a : Address} (h : range.afterStart a.row = true) :
    isBelow range.start a = false := by
  obtain ⟨start, stop⟩ := range
  cases start with
  | unbounded => rfl
  | included row =>
    apply beq_false_of_ne
    intro hlt
    have hrow : row ≤ a.row := of_decide_eq_true h
    exact Std.lt_irrefl (Std.lt_of_le_of_lt hrow (Address.row_lt_of_lt_lowest hlt))
  | excluded row =>
    apply beq_false_of_ne
    intro hlt
    have hrow : row < a.row := of_decide_eq_true h
    exact Std.lt_irrefl (Std.lt_trans hrow (Address.row_lt_of_lt_lowest hlt))

/-- A scan yields the cells of the rows in the range, in the order of the store. -/
theorem scan_eq_filter (s : MapStore) (range : RowRange) :
    s.scan range = s.toCells.filter fun c => range.contains c.row := by
  have hasc : s.cells.toList.Pairwise fun x y => compare x.1 y.1 = .lt := s.cells.ascending
  have hbelow : s.cells.toList.Pairwise fun x y =>
      isBelow range.start y.1 = true → isBelow range.start x.1 = true :=
    hasc.imp fun hxy => isBelow_trans hxy
  have hstart : s.cells.toList.Pairwise fun x y =>
      (!range.afterStart y.1.row) = true → (!range.afterStart x.1.row) = true := by
    refine hasc.imp fun {x y} hxy hy => ?_
    cases hx : range.afterStart x.1.row with
    | false => rfl
    | true =>
      rw [RowRange.afterStart_mono (Address.row_le_of_lt hxy) hx] at hy
      cases hy
  have hstop : s.cells.toList.Pairwise fun x y =>
      range.beforeEnd y.1.row = true → range.beforeEnd x.1.row = true :=
    hasc.imp fun hxy => RowRange.beforeEnd_mono (Address.row_le_of_lt hxy)
  rw [scan, dropWhile_eq_filter hbelow, dropWhile_eq_filter (hstart.sublist List.filter_sublist),
    takeWhile_eq_filter (hstop.sublist (List.filter_sublist.trans List.filter_sublist)), toCells,
    List.filter_map, List.filter_filter, List.filter_filter]
  refine congrArg _ (List.filter_congr fun e _ => ?_)
  have hrow : (Cell.ofAddress e.1 e.2).row = e.1.row := rfl
  simp only [Function.comp, hrow, RowRange.contains, Bool.not_not]
  cases hafter : range.afterStart e.1.row with
  | false => simp
  | true => simp [isBelow_eq_false hafter]

/-- The addresses of the cells ascend strictly. -/
def AscendingAddresses (cells : List Cell) : Prop :=
  cells.Pairwise fun a b => compare a.address b.address = .lt

instance (cells : List Cell) : Decidable (AscendingAddresses cells) :=
  inferInstanceAs (Decidable (cells.Pairwise fun a b => compare a.address b.address = .lt))

theorem ascendingAddresses_scan (s : MapStore) (range : RowRange) :
    AscendingAddresses (s.scan range) := by
  have hasc : s.cells.toList.Pairwise fun x y => compare x.1 y.1 = .lt := s.cells.ascending
  rw [scan_eq_filter]
  exact (List.pairwise_map.2 hasc).sublist List.filter_sublist

/-! ## Filling -/

/-- The entry of a store that a cell makes. -/
def entryOf (c : Cell) : Address × Bytes := (c.address, c.content.bytes)

theorem insertMany_append (s : MapStore) (cells more : List Cell) :
    s.insertMany (cells ++ more) = (s.insertMany cells).insertMany more := by
  simp only [insertMany, SortedMap.insertMany, List.map_append, List.foldl_append]

/-- Cells in ascending order are the listing of every store that was filled with them, in whatever
order they were put there. -/
theorem toCells_insertMany {cells sorted : List Cell} (hsorted : AscendingAddresses sorted)
    (hperm : cells.Perm sorted) : (empty.insertMany cells).toCells = sorted := by
  have hasc : Ascending (sorted.map entryOf) := List.pairwise_map.2 hsorted
  have hnodup : ((cells.map entryOf).map (·.1)).Nodup :=
    ((hperm.map entryOf).map _).nodup_iff.2 hasc.nodup_keys
  have hlist : (empty.insertMany cells).cells.toList = sorted.map entryOf := by
    refine SortedMap.toList_injective (n := ⟨sorted.map entryOf, hasc⟩) fun e => ?_
    exact (SortedMap.mem_toList_ofList hnodup e).trans (hperm.map entryOf).mem_iff
  rw [toCells, hlist, List.map_map]
  exact List.map_id sorted

end MapStore

/-- Write batches of rows one after the other, up to the first write that fails. -/
def Store.writeAll [Store σ] (store : σ) : List (List (List Cell)) → Except TableError σ
  | [] => .ok store
  | rows :: batches =>
    match Store.write store rows with
    | (.ok _, store) => Store.writeAll store batches
    | (.error e, _) => .error e

namespace MapStore

theorem writeAll_eq (s : MapStore) (batches : List (List (List Cell))) :
    Store.writeAll s batches = .ok (s.insertMany batches.flatten.flatten) := by
  induction batches generalizing s with
  | nil => rfl
  | cons rows batches ih =>
    have hwrite : Store.writeAll s (rows :: batches) =
        Store.writeAll (s.insertMany rows.flatten) batches := rfl
    rw [hwrite, ih, List.flatten_cons, List.flatten_append, insertMany_append]

end MapStore

end TaggedRows
