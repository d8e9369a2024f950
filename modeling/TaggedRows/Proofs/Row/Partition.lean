import TaggedRows.Proofs.Row.Families

/-!
# A family and the rest

Taking a family out divides a row.  The texts of the family go, each under its qualifier; the cells
of other families are left as they were (`Row.cells_cutFamily`), whatever their names.  So families
can be taken out in any order (`Row.cutFamily_comm`), and the columns of a family one after the
other as well as in one go (`Row.cutFamily_eq_cutColumns`).

The families of a row are listed in ascending order, each once (`Row.pairwise_familyNames`,
`Row.mem_familyNames_iff`).
-/

namespace TaggedRows

/-! ## Heads of runs -/

section RunHeads

variable {l : List String}

theorem mem_runHeads {s : String} : s ∈ runHeads l ↔ s ∈ l := by
  fun_induction runHeads l with
  | case1 => rfl
  | case2 => rfl
  | case3 a rest ih => simp [ih]
  | case4 a b rest hne ih =>
    rw [List.mem_cons, ih]
    exact List.mem_cons.symm

/-- Where texts do not descend, the heads of their runs ascend. -/
theorem pairwise_runHeads (h : l.Pairwise fun a b => a < b ∨ a = b) :
    (runHeads l).Pairwise (· < ·) := by
  fun_induction runHeads l with
  | case1 => exact .nil
  | case2 => exact List.pairwise_singleton ..
  | case3 a rest ih => exact ih (List.pairwise_cons.1 h).2
  | case4 a b rest hne ih =>
    obtain ⟨ha, hrest⟩ := List.pairwise_cons.1 h
    have hab : a < b := (ha b List.mem_cons_self).resolve_right hne
    refine List.pairwise_cons.2 ⟨?_, ih hrest⟩
    intro s hs
    rcases List.mem_cons.1 (mem_runHeads.1 hs) with rfl | hs
    · exact hab
    · rcases (List.pairwise_cons.1 hrest).1 s hs with hbs | rfl
      · exact String.lt_trans hab hbs
      · exact hab

end RunHeads

namespace Row

/-! ## The families of a row -/

/-- Families do not descend along the columns, so each is listed once. -/
theorem pairwise_familyNames (r : Row) : r.familyNames.Pairwise (· < ·) := by
  refine pairwise_runHeads (List.pairwise_map.2 (List.pairwise_map.2 ?_))
  refine r.cells.ascending.imp ?_
  intro x y hxy
  rcases Column.compare_eq_lt_iff.1 hxy with h | ⟨h, -⟩
  · exact .inl (compareOfLessAndEq_eq_lt.1 h)
  · exact .inr h

theorem mem_familyNames_iff {r : Row} {family : String} : family ∈ r.familyNames ↔
    ∃ qualifier content, r.cells.get? ⟨family, qualifier⟩ = some content := by
  rw [familyNames, mem_runHeads, SortedMap.keys, List.map_map, List.mem_map]
  constructor
  · rintro ⟨⟨⟨_, qualifier⟩, content⟩, hmem, rfl⟩
    exact ⟨qualifier, content, (SortedMap.mem_toList_iff _).1 hmem⟩
  · rintro ⟨qualifier, content, hget⟩
    exact ⟨(⟨family, qualifier⟩, content), (SortedMap.mem_toList_iff _).2 hget, rfl⟩

/-! ## What is left -/

/-- The rest of a row is made of the cells of other families. -/
theorem cells_cutFamily (r : Row) (family : String) :
    (r.cutFamily family).2.cells = r.cells.filter fun e => e.1.family != family := by
  apply SortedMap.ext
  apply SortedMap.toList_injective
  rintro ⟨column, content⟩
  rw [SortedMap.mem_toList_iff, get?_cutFamily, SortedMap.toList_filter, List.mem_filter,
    SortedMap.mem_toList_iff]
  by_cases hfamily : column.family = family
  · simp [hfamily]
  · simp [hfamily]

/-- Two families can be taken out in either order. -/
theorem cutFamily_comm (r : Row) (f g : String) :
    ((r.cutFamily f).2.cutFamily g).2 = ((r.cutFamily g).2.cutFamily f).2 := by
  refine ext_get? rfl ?_
  intro column
  simp only [get?_cutFamily]
  by_cases hf : column.family = f
  · simp [hf]
  · simp [hf]

/-! ## Column by column -/

/-- Take columns out of the row one after the other, and note the qualifiers and the texts of those
that were there. -/
def cutColumns (r : Row) : List Column → List (String × String) × Row
  | [] => ([], r)
  | column :: columns =>
    match r.cells.get? column with
    | none => r.cutColumns columns
    | some content =>
      let (texts, rest) := cutColumns { r with cells := r.cells.erase column } columns
      ((column.qualifier, content.text) :: texts, rest)

/-- Of distinct columns that are there, one after the other, the contents are those of the row at
the start. -/
theorem cutColumns_map {r : Row} {entries : List (Column × Content)}
    (hnodup : (entries.map (·.1)).Nodup)
    (hget : ∀ e ∈ entries, r.cells.get? e.1 = some e.2) :
    r.cutColumns (entries.map (·.1)) = (entries.map fun e => (e.1.qualifier, e.2.text),
      { r with cells := entries.foldl (fun cells e => cells.erase e.1) r.cells }) := by
  induction entries generalizing r with
  | nil => rfl
  | cons e entries ih =>
    rw [List.map_cons, List.nodup_cons] at hnodup
    have hrest : ∀ d ∈ entries, (r.cells.erase e.1).get? d.1 = some d.2 := by
      intro d hd
      have hne : compare e.1 d.1 ≠ .eq := by
        intro heq
        apply hnodup.1
        rw [Std.LawfulEqCmp.eq_of_compare heq]
        exact List.mem_map_of_mem hd
      rw [SortedMap.get?_erase, if_neg hne]
      exact hget d (List.mem_cons_of_mem _ hd)
    rw [List.map_cons, cutColumns, hget e List.mem_cons_self]
    simp only [ih (r := { r with cells := r.cells.erase e.1 }) hnodup.2 hrest]
    rfl

/-- A family goes column by column. -/
theorem cutFamily_eq_cutColumns (r : Row) (family : String) :
    r.cutFamily family =
      (.ofList (r.cutColumns ((r.familyEntries family).map (·.1))).1,
        (r.cutColumns ((r.familyEntries family).map (·.1))).2) := by
  have hnodup : ((r.familyEntries family).map (·.1)).Nodup := by
    rw [familyEntries_eq_filter]
    exact Ascending.nodup_keys (r.cells.ascending.sublist List.filter_sublist)
  rw [cutColumns_map hnodup fun e he => (mem_familyEntries.1 he).1]
  rfl

/-! ## Main result -/

/-- Taking a family out divides a row.  The texts are those that reading the family gives, and that
taking out its columns one after the other gives: under each qualifier the text of the column.  The
row that is left has the same id and the cells of all other families as they were.  Another family
has the same texts before and after, and the order in which two families are taken out does not
matter.  The families of a row are listed in ascending order, those with a cell and no others. -/
theorem cutFamily_divides (r : Row) (f : String) :
    ((r.cutFamily f).1 = r.family f ∧
      r.cutFamily f = (.ofList (r.cutColumns ((r.familyEntries f).map (·.1))).1,
        (r.cutColumns ((r.familyEntries f).map (·.1))).2)) ∧
    ((r.cutFamily f).1.toList = (r.cells.toList.filter fun e => e.1.family == f).map
        (fun e => (e.1.qualifier, e.2.text)) ∧
      ∀ qualifier, (r.cutFamily f).1.get? qualifier =
        (r.cells.get? ⟨f, qualifier⟩).map Content.text) ∧
    ((r.cutFamily f).2.id = r.id ∧
      (r.cutFamily f).2.cells.toList = r.cells.toList.filter fun e => e.1.family != f) ∧
    (∀ g, g ≠ f → ((r.cutFamily f).2.cutFamily g).1 = (r.cutFamily g).1 ∧
      ((r.cutFamily g).2.cutFamily f).1 = (r.cutFamily f).1 ∧
      ((r.cutFamily f).2.cutFamily g).2 = ((r.cutFamily g).2.cutFamily f).2) ∧
    r.familyNames.Pairwise (· < ·) ∧
    ∀ family, family ∈ r.familyNames ↔
      ∃ qualifier content, r.cells.get? ⟨family, qualifier⟩ = some content := by
  refine ⟨⟨rfl, r.cutFamily_eq_cutColumns f⟩, ⟨?_, r.get?_family f⟩, ⟨rfl, ?_⟩, ?_,
    r.pairwise_familyNames, fun family => mem_familyNames_iff⟩
  · have hentries : (r.cutFamily f).1.toList =
        (r.familyEntries f).map fun e => (e.1.qualifier, e.2.text) := r.toList_family f
    rw [hentries, familyEntries_eq_filter]
  · rw [cells_cutFamily]
    rfl
  · intro g hg
    exact ⟨family_cutFamily_of_ne hg r, family_cutFamily_of_ne hg.symm r, r.cutFamily_comm f g⟩

/-- Families whose names begin alike, one of them empty, with bytes that spell no text. -/
def kindred : Row := ⟨"u", .ofList [(⟨"", "q"⟩, ⟨.unrestricted, [0x31]⟩),
  (⟨"meta", ""⟩, ⟨⟨"ops"⟩, [0xFF]⟩), (⟨"meta\x00", "k"⟩, ⟨.unrestricted, [0x32]⟩),
  (⟨"metadata", "k"⟩, ⟨⟨"ops"⟩, [0x33]⟩)]⟩

/-- Of families whose names begin alike only the one that is meant goes. -/
theorem cutFamily_divides_kindred :
    (kindred.cutFamily "meta").1.get? "" = some "\uFFFD" ∧
      (kindred.cutFamily "meta").2.familyNames = ["", "meta\x00", "metadata"] ∧
      ((kindred.cutFamily "meta").2.cutFamily "metadata").1 = .ofList [("k", "3")] ∧
      ((kindred.cutFamily "meta").2.cutFamily "metadata").2 =
        ((kindred.cutFamily "metadata").2.cutFamily "meta").2 := by
  obtain ⟨-, ⟨-, htext⟩, -, hother, -⟩ := cutFamily_divides kindred "meta"
  obtain ⟨hmetadata, -, hcomm⟩ := hother "metadata" (by decide)
  exact ⟨(htext "").trans (by decide), by decide, hmetadata.trans (by decide), hcomm⟩

end Row

end TaggedRows
