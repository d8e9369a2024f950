import TaggedRows.Proofs.Text.NumeralOrder
import TaggedRows.Proofs.Text.Utf8
import TaggedRows.RowRange

/-!
# Ranges of rows that begin alike

The range of all rows that begin with a text starts at the text and ends before its successor.  That
it holds these rows and no others (`RowRange.contains_startingWith_iff`) rests on two facts.

* **Nothing lies between a character and the next one** (`lt_nextChar?_iff`).  Surrogates are no
  characters, so the gap that they leave is passed over in one step.
* **Below the successor of a text is what lies below the text or begins with it**
  (`lt_successor?_iff`).  A text without a successor is empty or made of the greatest character
  alone, and then all texts lie below it or begin with it (`lt_or_isPrefix_of_successor?_eq_none`).
-/

namespace TaggedRows

open TaggedRows.Text

/-! ## The next character -/

section Characters

variable {c d : Char}

theorem nextChar?_eq_none_iff : nextChar? c = none ↔ c.toNat = 0x10FFFF := by
  unfold nextChar?
  split
  · rename_i hgap
    simp [hgap]
  · split <;> simp_all

/-- The next character has the next number, unless this is the number of a surrogate. -/
theorem toNat_of_nextChar?_eq_some (h : nextChar? c = some d) :
    d.toNat = if c.toNat = 0xD7FF then 0xE000 else c.toNat + 1 := by
  unfold nextChar? at h
  split at h
  · rename_i hgap
    cases h
    rw [if_pos hgap]
    rfl
  · rename_i hgap
    split at h
    · cases h
    · cases h
      have hc := Utf8.toNat_valid c
      rw [if_neg hgap, Utf8.toNat_ofNat_char]
      omega

/-- No character is above one that has no next. -/
theorem le_of_nextChar?_eq_none (h : nextChar? c = none) (x : Char) : x ≤ c := by
  have hc := nextChar?_eq_none_iff.1 h
  have hx := Utf8.toNat_valid x
  have hle : x ≤ c ↔ x.toNat ≤ c.toNat := Iff.rfl
  rw [hle]
  omega

theorem lt_nextChar?_iff (h : nextChar? c = some d) (x : Char) : x < d ↔ x ≤ c := by
  have hd := toNat_of_nextChar?_eq_some h
  have hx := Utf8.toNat_valid x
  have hlt : x < d ↔ x.toNat < d.toNat := Iff.rfl
  have hle : x ≤ c ↔ x.toNat ≤ c.toNat := Iff.rfl
  rw [hlt, hle, hd]
  split <;> omega

end Characters

/-! ## The successor of a text -/

section Successors

variable {p next : List Char}

/-- A text is not below what it begins with. -/
theorem not_lt_of_isPrefix {x : List Char} (h : p <+: x) : ¬ x < p := by
  obtain ⟨rest, rfl⟩ := h
  have happend := append_lt_append_left_iff p rest []
  rw [List.append_nil] at happend
  rw [happend]
  exact List.not_lt_nil rest

theorem lt_or_isPrefix_cons_iff (c : Char) (p : List Char) (a : Char) (x : List Char) :
    (a :: x < c :: p ∨ c :: p <+: a :: x) ↔ a < c ∨ (a = c ∧ (x < p ∨ p <+: x)) := by
  rw [List.cons_lt_cons_iff, List.cons_prefix_cons, eq_comm (a := c)]
  tauto

theorem lt_or_isPrefix_of_successor?_eq_none (h : successor? p = none) (x : List Char) :
    x < p ∨ p <+: x := by
  induction p generalizing x with
  | nil => exact .inr List.nil_prefix
  | cons c p ih =>
    rw [successor?] at h
    split at h
    · cases h
    · rename_i hrest
      have hmax : nextChar? c = none := Option.map_eq_none_iff.1 h
      cases x with
      | nil => exact .inl (List.nil_lt_cons c p)
      | cons a x =>
        rw [lt_or_isPrefix_cons_iff]
        rcases Std.le_iff_lt_or_eq.1 (le_of_nextChar?_eq_none hmax a) with hlt | heq
        · exact .inl hlt
        · exact .inr ⟨heq, ih hrest x⟩

theorem lt_successor?_iff (h : successor? p = some next) (x : List Char) :
    x < next ↔ x < p ∨ p <+: x := by
  induction p generalizing next x with
  | nil => cases h
  | cons c p ih =>
    rw [successor?] at h
    split at h
    · -- the character that is raised stands further behind
      rename_i later hlater
      cases h
      cases x with
      | nil => simp [List.nil_lt_cons]
      | cons a x => rw [lt_or_isPrefix_cons_iff, List.cons_lt_cons_iff, ih hlater]
    · -- all characters behind this one fall away
      rename_i hrest
      obtain ⟨d, hd, rfl⟩ := Option.map_eq_some_iff.1 h
      cases x with
      | nil => simp [List.nil_lt_cons]
      | cons a x =>
        have hbehind := lt_or_isPrefix_of_successor?_eq_none hrest x
        rw [lt_or_isPrefix_cons_iff, and_iff_left hbehind, List.cons_lt_cons_iff,
          lt_nextChar?_iff hd, or_iff_left fun hx => List.not_lt_nil x hx.2, Std.le_iff_lt_or_eq]

end Successors

/-! ## Ranges -/

namespace RowRange

theorem afterStart_startingWith_iff {text row : String} :
    (startingWith text).afterStart row = true ↔ ¬ row.toList < text.toList := by
  rw [← String.lt_iff, Std.not_lt]
  exact decide_eq_true_iff

theorem beforeEnd_startingWith_iff {text row : String} :
    (startingWith text).beforeEnd row = true ↔
      row.toList < text.toList ∨ text.toList <+: row.toList := by
  unfold startingWith beforeEnd
  cases hnext : successor? text.toList with
  | none => exact iff_of_true rfl (lt_or_isPrefix_of_successor?_eq_none hnext row.toList)
  | some next =>
    rw [← lt_successor?_iff hnext]
    refine decide_eq_true_iff.trans ?_
    rw [String.lt_iff, String.toList_ofList]

/-- The range of a text holds a row exactly if the row begins with the text. -/
theorem contains_startingWith_iff (text row : String) :
    (startingWith text).contains row = true ↔ ∃ rest, row = text ++ rest := by
  have hprefix : (∃ rest, row = text ++ rest) ↔ text.toList <+: row.toList := by
    constructor
    · rintro ⟨rest, rfl⟩
      exact ⟨rest.toList, String.toList_append.symm⟩
    · rintro ⟨rest, hrest⟩
      exact ⟨String.ofList rest, String.toList_injective (by simp [hrest])⟩
  rw [contains, Bool.and_eq_true, afterStart_startingWith_iff, beforeEnd_startingWith_iff, hprefix]
  constructor
  · rintro ⟨hstart, hstop⟩
    exact hstop.resolve_left hstart
  · intro h
    exact ⟨not_lt_of_isPrefix h, .inr h⟩

/-- Behind U+D7FF comes U+E000, for the numbers between the two are those of surrogates. -/
example : startingWith "a\uD7FF" = span "a\uD7FF" "a\uE000" := by decide

end RowRange

end TaggedRows
