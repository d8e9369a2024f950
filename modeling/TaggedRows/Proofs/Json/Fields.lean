import TaggedRows.Json.Fields
import TaggedRows.Proofs.SortedMap
import Mathlib.Data.List.Nodup

/-!
# Written structures read back

What is written as a structure, a map of texts or bytes is read back from it.  A structure writes
each of its fields under one name, and no name twice, so every field is found
(`Json.fields?_ofMembers`).

Behind that stands what is written at all: no literal is half of a surrogate pair, and bytes are the
only numbers.
-/

namespace TaggedRows.Json

/-! ## Reading what was written -/

theorem mapM_map_eq_some {α β γ : Type} {f : β → Option γ} {g : α → β} {k : α → γ} {l : List α}
    (h : ∀ a ∈ l, f (g a) = some (k a)) : (l.map g).mapM f = some (l.map k) := by
  induction l with
  | nil => rfl
  | cons a l ih =>
    rw [List.map_cons, List.mapM_cons, h a (by simp), ih fun b hb => h b (by simp [hb])]
    rfl

@[simp] theorem members?_ofMembers (members : List (String × Json)) :
    (ofMembers members).members? = some members := by
  have hread := mapM_map_eq_some (k := id) (l := members)
    (f := fun m : Option String × Json => m.1.map fun key => (key, m.2))
    (g := fun m : String × Json => (some m.1, m.2)) fun _ _ => rfl
  rw [List.map_id] at hread
  exact hread

theorem findField_of_mem {members : List (String × Json)} (h : (members.map (·.1)).Nodup)
    {m : String × Json} (hm : m ∈ members) : findField members [m.1] = some (some m.2) := by
  obtain ⟨before, after, rfl⟩ := List.append_of_mem hm
  have hother : ∀ m' ∈ before ++ after, ¬ [m.1].contains m'.1 = true := by
    rw [List.map_append, List.map_cons, List.nodup_middle, List.nodup_cons, ← List.map_append] at h
    intro m' hm' heq
    have heq : m'.1 = m.1 := by simpa using heq
    exact h.1 (List.mem_map.2 ⟨m', hm', heq⟩)
  have hbefore : before.filter (fun m' => [m.1].contains m'.1) = [] :=
    List.filter_eq_nil_iff.2 fun m' hm' => hother m' (List.mem_append_left _ hm')
  have hafter : after.filter (fun m' => [m.1].contains m'.1) = [] :=
    List.filter_eq_nil_iff.2 fun m' hm' => hother m' (List.mem_append_right _ hm')
  rw [findField, List.filter_append, hbefore, List.filter_cons_of_pos (by simp), hafter]
  rfl

/-- Of a structure whose fields go by one name each, every field is found. -/
theorem fields?_ofMembers {members : List (String × Json)} (h : (members.map (·.1)).Nodup) :
    (ofMembers members).fields? (members.map fun m => [m.1]) =
      some ⟨true, members.map fun m => some m.2⟩ := by
  have hfields := mapM_map_eq_some (f := findField members) (g := fun m => [m.1])
    (k := fun m => some m.2) fun m hm => findField_of_mem h hm
  have hmembers := members?_ofMembers members
  simp only [ofMembers] at hmembers
  simp only [ofMembers, fields?, hmembers, Option.bind_eq_bind, Option.bind_some, hfields]
  rfl

@[simp] theorem optionalText?_ofText? (s : Option String) : (ofText? s).optionalText? = some s := by
  cases s <;> rfl

theorem natUpTo?_ofNat {most n : Nat} (h : n ≤ most) : (ofNat n).natUpTo? most = some n := by
  simp [ofNat, natUpTo?, Numeral.nat?, h]

@[simp] theorem bytes?_ofBytes (bytes : List UInt8) : (ofBytes bytes).bytes? = some bytes := by
  have hread := mapM_map_eq_some (f := natUpTo? 255) (g := fun b : UInt8 => ofNat b.toNat)
    (k := UInt8.toNat) (l := bytes) fun b _ => natUpTo?_ofNat (Nat.le_of_lt_succ b.toNat_lt)
  rw [bytes?, ofBytes, list?, hread]
  simp [Function.comp_def]

/-- A map of texts is read back. -/
@[simp] theorem texts?_ofTexts (entries : SortedMap String String) :
    (ofTexts entries).texts? = some entries := by
  have hread := mapM_map_eq_some (k := id) (l := entries.toList)
    (f := fun m : String × Json => m.2.text?.map fun text => (m.1, text))
    (g := fun e : String × String => (e.1, ofText e.2)) fun _ _ => rfl
  rw [List.map_id] at hread
  have hentries : SortedMap.ofList entries.toList = entries :=
    SortedMap.ext (SortedMap.toList_ofList entries.ascending)
  simp only [texts?, ofTexts, members?_ofMembers, Option.bind_eq_bind, Option.bind_some]
  rw [show List.mapM _ _ = _ from hread, Option.bind_some]
  exact congrArg some hentries

/-! ## What is written -/

section Leaves

variable {p : Numeral → Bool}

@[simp] theorem allLeaves_ofMembers (members : List (String × Json)) :
    (ofMembers members).allLeaves p = members.all fun m => m.2.allLeaves p := by
  rw [ofMembers, allLeaves]
  induction members with
  | nil => rfl
  | cons m members ih => simp [allMembers, ih]

@[simp] theorem allLeaves_ofText (s : String) : (ofText s).allLeaves p = true := rfl

@[simp] theorem allLeaves_ofTexts (entries : SortedMap String String) :
    (ofTexts entries).allLeaves p = true := by
  rw [ofTexts, allLeaves_ofMembers, List.all_map, List.all_eq_true]
  exact fun _ _ => rfl

@[simp] theorem allLeaves_ofText? (s : Option String) : (ofText? s).allLeaves p = true := by
  cases s <;> rfl

theorem allLeaves_ofBytes {bytes : List UInt8} (h : ∀ n, p { whole := n } = true) :
    (ofBytes bytes).allLeaves p = true := by
  rw [ofBytes, allLeaves]
  induction bytes with
  | nil => rfl
  | cons b bytes ih => rw [List.map_cons, allItems, ih, ofNat, allLeaves, h, Bool.true_and]

end Leaves

/-! ## How deep it is -/

@[simp] theorem depth_ofText (s : String) : (ofText s).depth = 0 := rfl

@[simp] theorem depth_ofText? (s : Option String) : (ofText? s).depth = 0 := by
  cases s <;> rfl

@[simp] theorem depth_ofTexts (entries : SortedMap String String) : (ofTexts entries).depth = 1 := by
  have hmembers : ∀ l : List (String × String),
      depthMembers (l.map fun e => (some e.1, ofText e.2)) = 0 := by
    intro l
    induction l with
    | nil => rfl
    | cons e l ih => rw [List.map_cons, depthMembers, ih, depth_ofText, Nat.max_self]
  rw [ofTexts, ofMembers, depth, List.map_map]
  exact congrArg (· + 1) (hmembers entries.toList)

end TaggedRows.Json
