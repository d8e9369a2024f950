import TaggedRows.SortedMap

/-!
# Maps of lists of entries

What a map holds that was filled from a list of entries.

* **Last write wins.**  A look-up after `insertMany` finds the last entry with the key, or what was
  there before (`SortedMap.get?_insertMany`).
* **The lowest entry goes alone.**  A map without it holds all others (`SortedMap.get?_dropFirst`).
* **Without repeated keys nothing is lost.**  The map then holds exactly the entries of the list
  (`SortedMap.mem_toList_ofList`), and a list that ascends already is the listing of its map
  (`SortedMap.toList_ofList`).

Along an ascending list a predicate that passes from later to earlier entries holds on a prefix.
Cutting the list where the predicate first fails is then the same as filtering it
(`takeWhile_eq_filter`, `dropWhile_eq_filter`), which is what a range of a sorted listing comes to.
-/

namespace TaggedRows

/-! ## Prefixes of ordered lists -/

section Cuts

variable {α : Type u} {p : α → Bool} {l : List α}

theorem eq_false_of_head {a : α} (h : (a :: l).Pairwise fun x y => p y = true → p x = true)
    (ha : p a = false) : ∀ b ∈ l, p b = false := by
  intro b hb
  cases hp : p b with
  | false => rfl
  | true => exact absurd ((List.pairwise_cons.1 h).1 b hb hp) (by simp [ha])

theorem takeWhile_eq_filter (h : l.Pairwise fun x y => p y = true → p x = true) :
    l.takeWhile p = l.filter p := by
  induction l with
  | nil => rfl
  | cons a l ih =>
    by_cases ha : p a = true
    · rw [List.takeWhile_cons_of_pos ha, List.filter_cons_of_pos ha, ih (List.pairwise_cons.1 h).2]
    · have hrest := eq_false_of_head h (by simpa using ha)
      rw [List.takeWhile_cons_of_neg ha, List.filter_cons_of_neg ha,
        List.filter_eq_nil_iff.2 fun b hb => by simp [hrest b hb]]

theorem dropWhile_eq_filter (h : l.Pairwise fun x y => p y = true → p x = true) :
    l.dropWhile p = l.filter fun a => !p a := by
  induction l with
  | nil => rfl
  | cons a l ih =>
    by_cases ha : p a = true
    · rw [List.dropWhile_cons_of_pos ha, List.filter_cons_of_neg (by simp [ha]),
        ih (List.pairwise_cons.1 h).2]
    · have hrest := eq_false_of_head h (by simpa using ha)
      rw [List.dropWhile_cons_of_neg ha, List.filter_cons_of_pos (by simp [ha]),
        List.filter_eq_self.2 fun b hb => by simp [hrest b hb]]

end Cuts

variable {κ : Type u} {α : Type v} [Ord κ]

/-! ## Look-ups in lists of entries -/

theorem findEntry_append (k : κ) (l r : List (κ × α)) :
    findEntry k (l ++ r) = (findEntry k l).or (findEntry k r) := by
  rw [findEntry, findEntry, findEntry, List.find?_append]
  cases l.find? fun e => compare k e.1 == .eq <;> rfl

theorem mem_of_findEntry [Std.LawfulEqOrd κ] {k : κ} {v : α} {entries : List (κ × α)}
    (h : findEntry k entries = some v) : (k, v) ∈ entries := by
  obtain ⟨e, he, rfl⟩ := Option.map_eq_some_iff.1 h
  have hk : compare k e.1 = .eq := by simpa using List.find?_some he
  rw [Std.LawfulEqCmp.eq_of_compare hk]
  exact List.mem_of_find?_eq_some he

theorem findEntry_eq_some_of_nodup [Std.TransOrd κ] [Std.LawfulEqOrd κ] {k : κ} {v : α}
    {entries : List (κ × α)} (hnodup : (entries.map (·.1)).Nodup) (h : (k, v) ∈ entries) :
    findEntry k entries = some v := by
  induction entries with
  | nil => cases h
  | cons e entries ih =>
    rw [List.map_cons, List.nodup_cons] at hnodup
    rcases List.mem_cons.1 h with rfl | h
    · simp [findEntry]
    · have hne : k ≠ e.1 := by
        rintro rfl
        exact hnodup.1 (List.mem_map.2 ⟨_, h, rfl⟩)
      have hb : (compare k e.1 == .eq) = false := by simpa using hne
      have htail : findEntry k (e :: entries) = findEntry k entries := by
        simp [findEntry, hb]
      rw [htail]
      exact ih hnodup.2 h

theorem Ascending.nodup_keys [Std.TransOrd κ] {entries : List (κ × α)} (h : Ascending entries) :
    (entries.map (·.1)).Nodup := by
  refine List.pairwise_map.2 (h.imp fun {a b} hlt heq => ?_)
  simp [heq] at hlt

/-! ## Sorting by a key -/

theorem isLE_of_mergeSort [Std.TransOrd κ] {β : Type v} (key : β → κ) (l : List β) :
    (l.mergeSort fun a b => (compare (key a) (key b)).isLE).Pairwise fun a b =>
      (compare (key a) (key b)).isLE = true := by
  refine List.pairwise_mergeSort (fun a b c => Std.TransCmp.isLE_trans) (fun a b => ?_) l
  have hswap : compare (key b) (key a) = (compare (key a) (key b)).swap :=
    Std.OrientedCmp.eq_swap
  rw [hswap]
  cases compare (key a) (key b) <;> rfl

/-- Sorting by a key that no two elements share makes the keys ascend strictly. -/
theorem lt_of_mergeSort [Std.TransOrd κ] [Std.LawfulEqOrd κ] {β : Type v} {key : β → κ}
    {l : List β} (h : (l.map key).Nodup) :
    (l.mergeSort fun a b => (compare (key a) (key b)).isLE).Pairwise fun a b =>
      compare (key a) (key b) = .lt := by
  have hne : (l.mergeSort fun a b => (compare (key a) (key b)).isLE).Pairwise fun a b =>
      key a ≠ key b :=
    (List.pairwise_map.1 h).perm (List.mergeSort_perm ..).symm fun hab => Ne.symm hab
  refine ((isLE_of_mergeSort key l).and hne).imp fun {a b} ⟨hle, hab⟩ => ?_
  cases hcmp : compare (key a) (key b) with
  | lt => rfl
  | eq => exact absurd (Std.LawfulEqCmp.eq_of_compare hcmp) hab
  | gt => simp [hcmp] at hle

namespace SortedMap

variable [Std.TransOrd κ] [Std.LawfulEqOrd κ]

/-! ## Filling a map -/

/-- A look-up after filling a map finds the last entry with the key, or else what was there. -/
theorem get?_insertMany (m : SortedMap κ α) (entries : List (κ × α)) (k : κ) :
    (m.insertMany entries).get? k = (findEntry k entries.reverse).or (m.get? k) := by
  induction entries generalizing m with
  | nil => rfl
  | cons e entries ih =>
    have hlast : findEntry k [e] = if compare k e.1 = .eq then some e.2 else none := by
      by_cases h : compare k e.1 = .eq <;> simp [findEntry, h]
    have hstep : (m.insertMany (e :: entries)).get? k
        = ((m.insert e.1 e.2).insertMany entries).get? k := rfl
    rw [hstep, ih, get?_insert, List.reverse_cons, findEntry_append, hlast, Option.or_assoc]
    by_cases h : compare k e.1 = .eq <;> simp [h]

theorem get?_ofList (entries : List (κ × α)) (k : κ) :
    (ofList entries).get? k = findEntry k entries.reverse := by
  rw [ofList, get?_insertMany, get?_empty, Option.or_none]

/-- Entries under the key of a later entry leave no trace. -/
theorem ofList_append_of_key {earlier later : List (κ × α)} {e : κ × α}
    (h : ∀ a ∈ earlier, a.1 = e.1) : ofList (earlier ++ e :: later) = ofList (e :: later) := by
  refine ext_get? fun k => ?_
  rw [get?_ofList, get?_ofList, List.reverse_append, findEntry_append]
  cases hfind : findEntry k (e :: later).reverse with
  | some v => rfl
  | none =>
    have hne : ¬ k = e.1 := by simp_all [findEntry]
    have hearlier : ∀ a ∈ earlier, ¬ k = a.1 := by
      intro a ha
      rwa [h a ha]
    simpa [findEntry] using hearlier

/-- Without repeated keys the map holds the entries it was filled from. -/
theorem mem_toList_ofList {entries : List (κ × α)} (h : (entries.map (·.1)).Nodup) (e : κ × α) :
    e ∈ (ofList entries).toList ↔ e ∈ entries := by
  rw [mem_toList_iff, get?_ofList]
  constructor
  · intro hfind
    exact List.mem_reverse.1 (mem_of_findEntry hfind)
  · intro hmem
    have hnodup : (entries.reverse.map (·.1)).Nodup :=
      ((List.reverse_perm entries).map _).nodup_iff.2 h
    exact findEntry_eq_some_of_nodup hnodup (List.mem_reverse.2 hmem)

/-- An ascending list is the listing of its map. -/
theorem toList_ofList {entries : List (κ × α)} (h : Ascending entries) :
    (ofList entries).toList = entries :=
  toList_injective (n := ⟨entries, h⟩) fun e => mem_toList_ofList h.nodup_keys e

/-! ## The lowest entry -/

/-- The entry that a look-up finds is the lowest one, if no entry is below it. -/
theorem first?_eq_some {m : SortedMap κ α} {k : κ} {v : α} (hget : m.get? k = some v)
    (hmin : ∀ e ∈ m.toList, compare e.1 k ≠ .lt) : m.first? = some (k, v) := by
  have hmem := (m.mem_toList_iff).2 hget
  have hasc : Ascending m.toList := m.ascending
  rw [first?]
  cases hlist : m.toList with
  | nil => simp [hlist] at hmem
  | cons e entries =>
    rw [hlist] at hmem hasc
    rcases List.mem_cons.1 hmem with rfl | hmem
    · rfl
    · exact absurd ((List.pairwise_cons.1 hasc).1 _ hmem) (hmin e (by simp [hlist]))

omit [Std.TransOrd κ] in
/-- A map without its lowest entry has lost this entry alone. -/
theorem get?_dropFirst {m : SortedMap κ α} {e : κ × α} (h : m.first? = some e) (k : κ) :
    m.dropFirst.get? k = if compare k e.1 = .eq then none else m.get? k := by
  obtain ⟨entries, hasc⟩ := m
  obtain ⟨rest, rfl⟩ := List.head?_eq_some_iff.1 h
  obtain ⟨hbelow, -⟩ := List.pairwise_cons.1 hasc
  have hdrop : (dropFirst ⟨e :: rest, hasc⟩).get? k = findEntry k rest := rfl
  have hget : get? ⟨e :: rest, hasc⟩ k = findEntry k (e :: rest) := rfl
  rw [hdrop, hget]
  by_cases hk : compare k e.1 = .eq
  · obtain rfl := Std.LawfulEqCmp.eq_of_compare hk
    -- the key of the lowest entry is below all others
    have hnone : rest.find? (fun d => compare e.1 d.1 == .eq) = none := by
      rw [List.find?_eq_none]
      intro d hd
      simp [hbelow d hd]
    simp [findEntry, hnone]
  · simp [findEntry, hk]

end SortedMap

end TaggedRows
