/-!
# Sorted maps

Finite maps as lists of entries in strictly ascending key order.  Because the order is part of
the type, a map has exactly one representation: two maps that answer every look-up alike are
equal (`SortedMap.ext_get?`), and `toList` is the ordered listing.

Main statements:

* `get?_insert`, `get?_erase`: what a look-up finds after a change;
* `mem_toList_iff`: the entries of the listing are exactly the answers of look-ups;
* `ext_get?`: maps are determined by their look-ups.
-/

namespace TaggedRows

variable {κ : Type u} {α : Type v} [Ord κ]

/-! ## Entry lists -/

/-- The keys of `entries` ascend strictly. -/
def Ascending (entries : List (κ × α)) : Prop :=
  entries.Pairwise fun a b => compare a.1 b.1 = .lt

/-- Put `(k, v)` at its place, replacing an entry of the same key. -/
def insertEntry (k : κ) (v : α) : List (κ × α) → List (κ × α)
  | [] => [(k, v)]
  | e :: entries =>
    match compare k e.1 with
    | .lt => (k, v) :: e :: entries
    | .eq => (k, v) :: entries
    | .gt => e :: insertEntry k v entries

/-- The value of the first entry whose key is `k`. -/
def findEntry (k : κ) (entries : List (κ × α)) : Option α :=
  (entries.find? fun e => compare k e.1 == .eq).map (·.2)

theorem mem_insertEntry {k : κ} {v : α} {e : κ × α} {entries : List (κ × α)}
    (h : e ∈ insertEntry k v entries) : e = (k, v) ∨ e ∈ entries := by
  induction entries with
  | nil => simpa [insertEntry] using h
  | cons d entries ih =>
    rw [insertEntry] at h
    split at h
    · simpa using h
    · rcases List.mem_cons.1 h with rfl | h
      · exact .inl rfl
      · exact .inr (List.mem_cons_of_mem _ h)
    · rcases List.mem_cons.1 h with rfl | h
      · exact .inr (by simp)
      · exact (ih h).imp_right (List.mem_cons_of_mem _)

theorem Ascending.insertEntry [Std.TransOrd κ] [Std.LawfulEqOrd κ] {entries : List (κ × α)}
    (h : Ascending entries) (k : κ) (v : α) : Ascending (insertEntry k v entries) := by
  induction entries with
  | nil => simp [TaggedRows.insertEntry, Ascending]
  | cons d entries ih =>
    obtain ⟨hd, ht⟩ := List.pairwise_cons.1 h
    rw [TaggedRows.insertEntry]
    split
    · rename_i hlt
      refine List.pairwise_cons.2 ⟨fun e he => ?_, h⟩
      rcases List.mem_cons.1 he with rfl | he
      · exact hlt
      · exact Std.TransCmp.lt_trans hlt (hd e he)
    · rename_i heq
      rw [Std.LawfulEqCmp.eq_of_compare heq]
      exact List.pairwise_cons.2 ⟨hd, ht⟩
    · rename_i hgt
      refine List.pairwise_cons.2 ⟨fun e he => ?_, ih ht⟩
      rcases mem_insertEntry he with rfl | he
      · exact Std.OrientedCmp.lt_of_gt hgt
      · exact hd e he

theorem findEntry_eq_some_iff [Std.TransOrd κ] [Std.LawfulEqOrd κ] {entries : List (κ × α)}
    (h : Ascending entries) {k : κ} {v : α} : findEntry k entries = some v ↔ (k, v) ∈ entries := by
  induction entries with
  | nil => simp [findEntry]
  | cons d entries ih =>
    obtain ⟨hd, ht⟩ := List.pairwise_cons.1 h
    obtain ⟨k', v'⟩ := d
    by_cases hk : compare k k' = .eq
    · obtain rfl := Std.LawfulEqCmp.eq_of_compare hk
      have hnot : (k, v) ∉ entries := fun hmem => by
        simpa using hd _ hmem
      simp [findEntry, hnot, eq_comm]
    · have hne : k ≠ k' := fun he => hk (by rw [he]; exact Std.ReflCmp.compare_self)
      have hb : (compare k k' == .eq) = false := by simpa using hk
      have : findEntry k ((k', v') :: entries) = findEntry k entries := by
        simp [findEntry, hb]
      rw [this, ih ht]
      simp [hne]

/-! ## Maps -/

variable (κ α) in
/-- A finite map from `κ` to `α`, listed in key order. -/
structure SortedMap where
  toList : List (κ × α)
  ascending : Ascending toList

namespace SortedMap

instance [DecidableEq κ] [DecidableEq α] : DecidableEq (SortedMap κ α) := fun m n =>
  decidable_of_iff (m.toList = n.toList)
    ⟨fun h => by cases m; cases n; cases h; rfl, fun h => h ▸ rfl⟩

@[ext] theorem ext {m n : SortedMap κ α} (h : m.toList = n.toList) : m = n := by
  cases m; cases n; cases h; rfl

/-- The map without entries. -/
def empty : SortedMap κ α := ⟨[], List.Pairwise.nil⟩

instance : EmptyCollection (SortedMap κ α) := ⟨empty⟩

instance : Inhabited (SortedMap κ α) := ⟨empty⟩

/-- The number of entries. -/
def size (m : SortedMap κ α) : Nat := m.toList.length

/-- Whether the map has no entry. -/
def isEmpty (m : SortedMap κ α) : Bool := m.toList.isEmpty

/-- The keys, ascending. -/
def keys (m : SortedMap κ α) : List κ := m.toList.map (·.1)

/-- The value at `k`, if there is one. -/
def get? (m : SortedMap κ α) (k : κ) : Option α := findEntry k m.toList

/-- Whether there is a value at `k`. -/
def contains (m : SortedMap κ α) (k : κ) : Bool := (m.get? k).isSome

/-- The lowest entry. -/
def first? (m : SortedMap κ α) : Option (κ × α) := m.toList.head?

/-- The map without its lowest entry. -/
def dropFirst (m : SortedMap κ α) : SortedMap κ α :=
  ⟨m.toList.tail, m.ascending.sublist (List.tail_sublist _)⟩

/-- The entries that satisfy `p`. -/
def filter (m : SortedMap κ α) (p : κ × α → Bool) : SortedMap κ α :=
  ⟨m.toList.filter p, m.ascending.sublist List.filter_sublist⟩

/-- The map without its entry at `k`. -/
def erase (m : SortedMap κ α) (k : κ) : SortedMap κ α :=
  m.filter fun e => compare k e.1 != .eq

@[simp] theorem toList_empty : (empty : SortedMap κ α).toList = [] := rfl

@[simp] theorem get?_empty (k : κ) : (empty : SortedMap κ α).get? k = none := rfl

@[simp] theorem toList_filter (m : SortedMap κ α) (p : κ × α → Bool) :
    (m.filter p).toList = m.toList.filter p := rfl

section Ordered

variable [Std.TransOrd κ] [Std.LawfulEqOrd κ]

/-- The map with `v` at `k`, in place of any earlier value there. -/
def insert (m : SortedMap κ α) (k : κ) (v : α) : SortedMap κ α :=
  ⟨insertEntry k v m.toList, m.ascending.insertEntry k v⟩

/-- Put entries into `m` one after the other; of two with one key the later stays. -/
def insertMany (m : SortedMap κ α) (entries : List (κ × α)) : SortedMap κ α :=
  entries.foldl (fun m e => m.insert e.1 e.2) m

/-- The map of a list of entries; of two with one key the later stays. -/
def ofList (entries : List (κ × α)) : SortedMap κ α := empty.insertMany entries

/-! ## Look-ups -/

theorem mem_toList_iff (m : SortedMap κ α) {k : κ} {v : α} :
    (k, v) ∈ m.toList ↔ m.get? k = some v :=
  (findEntry_eq_some_iff m.ascending).symm

omit [Std.LawfulEqOrd κ] in
theorem findEntry_insertEntry_self (k : κ) (v : α) (entries : List (κ × α)) :
    findEntry k (insertEntry k v entries) = some v := by
  induction entries with
  | nil => simp [insertEntry, findEntry]
  | cons d entries ih =>
    rw [insertEntry]
    split
    · simp [findEntry]
    · simp [findEntry]
    · rename_i hgt
      simp only [findEntry, List.find?_cons, hgt] at ih ⊢
      exact ih

omit [Std.TransOrd κ] in
theorem findEntry_insertEntry_ne {k k' : κ} (v : α) (h : k' ≠ k) (entries : List (κ × α)) :
    findEntry k' (insertEntry k v entries) = findEntry k' entries := by
  have hne : (compare k' k == .eq) = false := by simpa using h
  induction entries with
  | nil => simp [insertEntry, findEntry, hne]
  | cons d entries ih =>
    rw [insertEntry]
    split
    · simp [findEntry, List.find?_cons, hne]
    · rename_i heq
      simp [findEntry, hne, ← Std.LawfulEqCmp.eq_of_compare heq]
    · simp only [findEntry, List.find?_cons] at ih ⊢
      split
      · rfl
      · exact ih

theorem get?_insert (m : SortedMap κ α) (k k' : κ) (v : α) :
    (m.insert k v).get? k' = if compare k' k = .eq then some v else m.get? k' := by
  split
  · rename_i heq
    rw [Std.LawfulEqCmp.eq_of_compare heq]
    exact findEntry_insertEntry_self k v m.toList
  · rename_i hne
    refine findEntry_insertEntry_ne v (fun he => hne ?_) m.toList
    rw [he]
    exact Std.ReflCmp.compare_self

theorem get?_erase (m : SortedMap κ α) (k k' : κ) :
    (m.erase k).get? k' = if compare k k' = .eq then none else m.get? k' := by
  refine Option.ext fun v => ?_
  rw [← mem_toList_iff, erase, toList_filter, List.mem_filter, mem_toList_iff]
  by_cases h : compare k k' = .eq <;> simp [h]

theorem toList_injective {m n : SortedMap κ α} (h : ∀ e, e ∈ m.toList ↔ e ∈ n.toList) :
    m.toList = n.toList := by
  obtain ⟨l, hl⟩ := m
  obtain ⟨r, hr⟩ := n
  simp only at h ⊢
  induction l generalizing r with
  | nil =>
    cases r with
    | nil => rfl
    | cons d r => exact absurd ((h d).2 (by simp)) (by simp)
  | cons c l ih =>
    cases r with
    | nil => exact absurd ((h c).1 (by simp)) (by simp)
    | cons d r =>
      obtain ⟨hc, hl'⟩ := List.pairwise_cons.1 hl
      obtain ⟨hd, hr'⟩ := List.pairwise_cons.1 hr
      have irrefl : ∀ k : κ, compare k k ≠ .lt := fun k => by simp
      have hcd : c = d := by
        rcases List.mem_cons.1 ((h c).1 (by simp)) with hcd | hcr
        · exact hcd
        · rcases List.mem_cons.1 ((h d).2 (by simp)) with hdc | hdl
          · exact hdc.symm
          · exact absurd (Std.TransCmp.lt_trans (hd c hcr) (hc d hdl)) (irrefl _)
      subst hcd
      refine congrArg _ (ih hl' r hr' fun e => ?_)
      constructor
      · intro he
        rcases List.mem_cons.1 ((h e).1 (List.mem_cons_of_mem _ he)) with rfl | h'
        · exact absurd (hc _ he) (irrefl _)
        · exact h'
      · intro he
        rcases List.mem_cons.1 ((h e).2 (List.mem_cons_of_mem _ he)) with rfl | h'
        · exact absurd (hd _ he) (irrefl _)
        · exact h'

/-- Maps that answer every look-up alike are equal. -/
theorem ext_get? {m n : SortedMap κ α} (h : ∀ k, m.get? k = n.get? k) : m = n :=
  ext (toList_injective fun e => by rw [mem_toList_iff, mem_toList_iff, h])

end Ordered

end SortedMap

end TaggedRows
