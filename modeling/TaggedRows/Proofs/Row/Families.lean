import TaggedRows.Proofs.SortedMap
import TaggedRows.Row

/-!
# Families of a row

A family is read as a range of the row's columns: from the first column that is not below
`(family, "")` up to the first of another family.  Because columns are ordered by family first, this
range holds the cells of the family, all of them and no others (`Row.familyEntries_eq_filter`); how
the name of the family relates to the names of its neighbours does not matter.

* `Row.get?_family`: the text of a qualifier is the text of the column;
* `Row.get?_cutFamily`: a row without a family has lost the columns of that family alone, and so
  other families stay as they are (`Row.family_cutFamily_of_ne`);
* `Row.get?_withoutFamilies`: the same for several families.
-/

namespace TaggedRows

/-! ## The order of columns -/

theorem compare_empty_ne_lt (s : String) : compare s "" ≠ .lt := by
  intro h
  have hlt : s < "" := (compareOfLessAndEq_eq_lt).1 h
  exact List.not_lt_nil _ hlt

theorem Column.compare_eq_lt_iff {a b : Column} :
    compare a b = .lt ↔ compare a.family b.family = .lt ∨
      (a.family = b.family ∧ compare a.qualifier b.qualifier = .lt) := by
  have h : compare a b
      = (compare a.family b.family).then (compare a.qualifier b.qualifier) := rfl
  rw [h, Ordering.then_eq_lt, Std.compare_eq_iff_eq]

/-- The columns of a family are not below the one with the empty qualifier. -/
theorem Column.not_below_own_family (c : Column) : compare c ⟨c.family, ""⟩ ≠ .lt := by
  intro h
  rcases Column.compare_eq_lt_iff.1 h with h | ⟨-, h⟩
  · simp at h
  · exact compare_empty_ne_lt _ h

/-- Between the start of a family and one of its columns there are columns of the family alone. -/
theorem Column.family_eq_of_between {a b : Column}
    (hstart : compare a ⟨b.family, ""⟩ ≠ .lt) (hab : compare a b = .lt) : a.family = b.family := by
  rcases Column.compare_eq_lt_iff.1 hab with h | ⟨h, -⟩
  · have hbelow : compare a ⟨b.family, ""⟩ = .lt := Column.compare_eq_lt_iff.2 (.inl h)
    exact absurd hbelow hstart
  · exact h

namespace Row

/-- A row is known by its id and the contents of its columns. -/
theorem ext_get? {r s : Row} (hid : r.id = s.id)
    (hcells : ∀ column, r.cells.get? column = s.cells.get? column) : r = s := by
  obtain ⟨id, cells⟩ := r
  obtain ⟨id', cells'⟩ := s
  obtain rfl : id = id' := hid
  exact congrArg _ (SortedMap.ext_get? hcells)

/-! ## Reading a family -/

/-- The cells that are read as a family are the cells of the family. -/
theorem familyEntries_eq_filter (r : Row) (family : String) :
    r.familyEntries family = r.cells.toList.filter fun e => e.1.family == family := by
  have hdrop : r.cells.toList.Pairwise fun x y =>
      (compare y.1 ⟨family, ""⟩ == .lt) = true → (compare x.1 ⟨family, ""⟩ == .lt) = true := by
    refine r.cells.ascending.imp fun hxy hy => ?_
    simp only [beq_iff_eq] at hy ⊢
    exact Std.TransCmp.lt_trans hxy hy
  rw [familyEntries, dropWhile_eq_filter hdrop, takeWhile_eq_filter ?_, List.filter_filter]
  · apply List.filter_congr
    intro e _
    by_cases he : e.1.family = family
    · have hnot := e.1.not_below_own_family
      rw [he] at hnot
      simp [he, hnot]
    · simp [he]
  · -- a column that is not below the family and comes before one of the family is of the family
    refine List.Pairwise.imp_of_mem ?_ (r.cells.ascending.sublist List.filter_sublist)
    intro x y hx _ hxy hy
    simp only [beq_iff_eq] at hy ⊢
    have hstart : compare x.1 ⟨y.1.family, ""⟩ ≠ .lt := by
      simpa [hy] using (List.mem_filter.1 hx).2
    rw [← hy]
    exact Column.family_eq_of_between hstart hxy

theorem mem_familyEntries {r : Row} {family : String} {e : Column × Content} :
    e ∈ r.familyEntries family ↔ r.cells.get? e.1 = some e.2 ∧ e.1.family = family := by
  rw [familyEntries_eq_filter, List.mem_filter, SortedMap.mem_toList_iff, beq_iff_eq]

/-- The qualifiers of a family ascend, so none of its texts is lost. -/
theorem toList_family (r : Row) (family : String) :
    (r.family family).toList =
      (r.familyEntries family).map fun e => (e.1.qualifier, e.2.text) := by
  refine SortedMap.toList_ofList (List.pairwise_map.2 ?_)
  have hasc : (r.familyEntries family).Pairwise fun x y => compare x.1 y.1 = .lt := by
    rw [familyEntries_eq_filter]
    exact r.cells.ascending.sublist List.filter_sublist
  refine List.Pairwise.imp_of_mem ?_ hasc
  intro x y hx hy hxy
  have hfamily : x.1.family = y.1.family :=
    (mem_familyEntries.1 hx).2.trans (mem_familyEntries.1 hy).2.symm
  rcases Column.compare_eq_lt_iff.1 hxy with h | ⟨-, h⟩
  · rw [hfamily] at h
    simp at h
  · exact h

/-- The text of a qualifier in a family is the text of the column. -/
theorem get?_family (r : Row) (family qualifier : String) :
    (r.family family).get? qualifier =
      (r.cells.get? ⟨family, qualifier⟩).map Content.text := by
  apply Option.ext
  intro text
  rw [← SortedMap.mem_toList_iff, toList_family, List.mem_map, Option.map_eq_some_iff]
  constructor
  · rintro ⟨e, he, heq⟩
    obtain ⟨hget, rfl⟩ := mem_familyEntries.1 he
    cases heq
    exact ⟨e.2, hget, rfl⟩
  · rintro ⟨content, hget, rfl⟩
    exact ⟨(⟨family, qualifier⟩, content), mem_familyEntries.2 ⟨hget, rfl⟩, rfl⟩

/-! ## Taking a family out -/

theorem get?_foldl_erase (entries : List (Column × Content)) (m : SortedMap Column Content)
    (column : Column) :
    (entries.foldl (fun cells e => cells.erase e.1) m).get? column =
      if column ∈ entries.map (·.1) then none else m.get? column := by
  induction entries generalizing m with
  | nil => simp
  | cons e entries ih =>
    rw [List.foldl_cons, ih, SortedMap.get?_erase]
    by_cases hcol : column = e.1
    · simp [hcol]
    · have hmem : column ∈ (e :: entries).map (·.1) ↔ column ∈ entries.map (·.1) := by
        rw [List.map_cons, List.mem_cons, or_iff_right hcol]
      simp only [hmem, Std.compare_eq_iff_eq, Ne.symm hcol, if_false]

/-- A row without a family keeps its other columns as they are. -/
theorem get?_cutFamily (r : Row) (family : String) (column : Column) :
    (r.cutFamily family).2.cells.get? column =
      if column.family = family then none else r.cells.get? column := by
  have hmem : column ∈ (r.familyEntries family).map (·.1) ↔
      column.family = family ∧ (r.cells.get? column).isSome := by
    rw [List.mem_map, Option.isSome_iff_exists]
    constructor
    · rintro ⟨e, he, rfl⟩
      exact ⟨(mem_familyEntries.1 he).2, e.2, (mem_familyEntries.1 he).1⟩
    · rintro ⟨hfamily, content, hget⟩
      exact ⟨(column, content), mem_familyEntries.2 ⟨hget, hfamily⟩, rfl⟩
  have hcut : (r.cutFamily family).2.cells.get? column =
      if column ∈ (r.familyEntries family).map (·.1) then none else r.cells.get? column :=
    get?_foldl_erase _ _ _
  rw [hcut]
  by_cases hfamily : column.family = family
  · cases hget : r.cells.get? column <;> simp [hmem, hfamily, hget]
  · simp [hmem, hfamily]

/-- Taking a family out does not touch another one. -/
theorem family_cutFamily_of_ne {f g : String} (h : g ≠ f) (r : Row) :
    (r.cutFamily f).2.family g = r.family g := by
  apply SortedMap.ext_get?
  intro qualifier
  rw [get?_family, get?_family, get?_cutFamily, if_neg h]

/-- The row without some of its families. -/
def withoutFamilies (r : Row) (families : List String) : Row :=
  families.foldl (fun r family => (r.cutFamily family).2) r

@[simp] theorem id_withoutFamilies (r : Row) (families : List String) :
    (r.withoutFamilies families).id = r.id := by
  induction families generalizing r with
  | nil => rfl
  | cons family families ih => exact ih (r.cutFamily family).2

theorem get?_withoutFamilies (r : Row) (families : List String) (column : Column) :
    (r.withoutFamilies families).cells.get? column =
      if column.family ∈ families then none else r.cells.get? column := by
  induction families generalizing r with
  | nil => simp [withoutFamilies]
  | cons family families ih =>
    have hstep : r.withoutFamilies (family :: families) =
        (r.cutFamily family).2.withoutFamilies families := rfl
    rw [hstep, ih, get?_cutFamily]
    by_cases hfamily : column.family = family
    · simp [hfamily]
    · simp [hfamily]

end Row

end TaggedRows
