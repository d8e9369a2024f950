import TaggedRows.Record.LabelPolicy
import Mathlib.Data.List.TakeWhile

/-!
# Labels that settings prescribe

Two optional settings choose the label of a row: a label, and the name of a field whose value is the
label.  `LabelPolicy.Prescribes` says case by case which label that is, in terms of the settings as
they are written.  A policy made from the settings gives exactly this label
(`LabelPolicy.prescribes_iff`).
-/

namespace TaggedRows

/-! ## Trimmed text -/

namespace Text

theorem forall_mem_trimStart {cs : List Char} :
    (∀ c ∈ trimStart cs, isBlankChar c = true) ↔ ∀ c ∈ cs, isBlankChar c = true := by
  constructor
  · intro h c hc
    -- what is cut off at the start is white space anyway
    rw [← List.takeWhile_append_dropWhile (p := isBlankChar) (l := cs)] at hc
    rcases List.mem_append.1 hc with hc | hc
    · exact List.mem_takeWhile_imp hc
    · exact h c hc
  · intro h c hc
    exact h c ((List.dropWhile_sublist _).mem hc)

theorem trimEnd_eq_nil_iff {cs : List Char} :
    trimEnd cs = [] ↔ ∀ c ∈ cs, isBlankChar c = true := by
  rw [trimEnd, List.reverse_eq_nil_iff, List.dropWhile_eq_nil_iff]
  simp only [List.mem_reverse]

/-- Of blank texts, and only of these, trimming leaves nothing. -/
theorem trim_eq_empty_iff {s : String} : trim s = "" ↔ isBlank s = true := by
  rw [trim, isBlank, List.all_eq_true, ← forall_mem_trimStart, ← trimEnd_eq_nil_iff,
    ← String.toList_inj, String.toList_ofList]
  rfl

end Text

namespace LabelPolicy

open TaggedRows.Text

/-! ## Settings -/

theorem nonBlank?_of_blank {setting : Option String} (h : setting.all isBlank = true) :
    nonBlank? setting = none := by
  cases setting with
  | none => rfl
  | some s =>
    have hs : trim s = "" := trim_eq_empty_iff.2 h
    simp [nonBlank?, hs]

theorem nonBlank?_some {s : String} (h : isBlank s = false) : nonBlank? (some s) = some (trim s) := by
  have hs : trim s ≠ "" := fun he => by simp [trim_eq_empty_iff.1 he] at h
  simp [nonBlank?, hs]

/-- The label that two settings prescribe for a record with the given fields. -/
inductive Prescribes (label fieldName : Option String) (field? : String → Option String) :
    Label → Prop
  /-- A label that is not blank goes before all else.  It counts without white space around it. -/
  | fixed {text : String} (hlabel : label = some text) (hblank : isBlank text = false) :
    Prescribes label fieldName field? ⟨trim text⟩
  /-- Without it, the value of the named field is the label, white space and all. -/
  | field {name value : String} (hlabel : label.all isBlank = true)
    (hname : fieldName = some name) (hblank : isBlank name = false)
    (hvalue : field? (trim name) = some value) (hne : isBlank value = false) :
    Prescribes label fieldName field? ⟨value⟩
  /-- A record whose named field is missing or blank is open to everyone. -/
  | noValue {name : String} (hlabel : label.all isBlank = true) (hname : fieldName = some name)
    (hblank : isBlank name = false) (hvalue : (field? (trim name)).all isBlank = true) :
    Prescribes label fieldName field? .unrestricted
  /-- So is every record if no field is named. -/
  | noField (hlabel : label.all isBlank = true) (hname : fieldName.all isBlank = true) :
    Prescribes label fieldName field? .unrestricted

variable {label fieldName : Option String} {field? : String → Option String} {l : Label}

theorem prescribes_labelFor (label fieldName : Option String) (field? : String → Option String) :
    Prescribes label fieldName field? ((ofSettings label fieldName).labelFor field?) := by
  rw [ofSettings]
  by_cases hlabel : label.all isBlank = true
  · rw [nonBlank?_of_blank hlabel]
    by_cases hname : fieldName.all isBlank = true
    · rw [nonBlank?_of_blank hname]
      exact .noField hlabel hname
    · obtain ⟨name, rfl, hblank⟩ : ∃ name, fieldName = some name ∧ isBlank name = false := by
        cases fieldName <;> simp_all
      rw [nonBlank?_some hblank]
      cases hvalue : field? (trim name) with
      | none =>
        simp only [labelFor, hvalue]
        exact .noValue hlabel rfl hblank (by rw [hvalue]; rfl)
      | some value =>
        cases hne : isBlank value with
        | true =>
          simp only [labelFor, hvalue, hne, if_true]
          exact .noValue hlabel rfl hblank (by rw [hvalue]; exact hne)
        | false =>
          simp only [labelFor, hvalue, hne, Bool.false_eq_true, if_false]
          exact .field hlabel rfl hblank hvalue hne
  · obtain ⟨text, rfl, hblank⟩ : ∃ text, label = some text ∧ isBlank text = false := by
      cases label <;> simp_all
    rw [nonBlank?_some hblank]
    exact .fixed rfl hblank

/-- Settings prescribe one label, the one that their policy chooses. -/
theorem prescribes_iff :
    Prescribes label fieldName field? l ↔ l = (ofSettings label fieldName).labelFor field? := by
  constructor
  · intro h
    cases h with
    | fixed hlabel hblank =>
      rw [hlabel, ofSettings, nonBlank?_some hblank]
      rfl
    | field hlabel hname hblank hvalue hne =>
      rw [hname, ofSettings, nonBlank?_of_blank hlabel, nonBlank?_some hblank]
      simp [labelFor, hvalue, hne]
    | @noValue name hlabel hname hblank hvalue =>
      rw [hname, ofSettings, nonBlank?_of_blank hlabel, nonBlank?_some hblank]
      cases hfield : field? (trim name) with
      | none => simp [labelFor, hfield]
      | some value =>
        have hne : isBlank value = true := by rwa [hfield] at hvalue
        simp [labelFor, hfield, hne]
    | noField hlabel hname =>
      rw [ofSettings, nonBlank?_of_blank hlabel, nonBlank?_of_blank hname]
      rfl
  · rintro rfl
    exact prescribes_labelFor label fieldName field?

/-- Under a label for all rows that is not blank nothing is open to everyone. -/
theorem Prescribes.isUnrestricted_eq_false {text : String}
    (h : Prescribes (some text) fieldName field? l) (hblank : isBlank text = false) :
    l.isUnrestricted = false := by
  have hl : l = ⟨trim text⟩ := by
    rw [prescribes_iff.1 h, ofSettings, nonBlank?_some hblank]
    rfl
  have htrim : trim text ≠ "" := fun he => by simp [trim_eq_empty_iff.1 he] at hblank
  rw [hl, Label.isUnrestricted, Bool.eq_false_iff]
  exact fun he => htrim (String.isEmpty_iff.1 he)

end LabelPolicy

end TaggedRows
