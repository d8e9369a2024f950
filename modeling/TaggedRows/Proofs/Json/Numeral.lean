import TaggedRows.Json.Numeral
import TaggedRows.Proofs.Text.CanonicalNumeral

/-!
# JSON numbers read back

A number is read back from its text (`Numeral.ofChars?_text`).  Its parts follow each other without
anything in between, and each of them ends where the next one begins: no digit follows the digits
before the point, and none those behind it.
-/

namespace TaggedRows.Numeral

open TaggedRows.Text

/-- Whether only digits stand behind the point. -/
def isWritten (n : Numeral) : Bool := n.fraction.all Char.isDigit

/-! ## Parts of a number -/

theorem readWhole_append (n : Nat) {rest : List Char} (hrest : ∀ c ∈ rest.head?, c.isDigit = false) :
    readWhole (digits 10 n ++ rest) = some (n, rest) := by
  have hdigits : ∀ c ∈ digits 10 n, c.isDigit = true := fun c hc => isDigit_of_mem_digits hc
  have hcanonical := canonicalNumeral_digits (b := 10) (by omega) (by omega) n
  have hzero : ¬ (digits 10 n = [] ∨
      ((digits 10 n).head? = some '0' ∧ digits 10 n ≠ ['0'])) := by
    rintro (hnil | ⟨hhead, hne⟩)
    · exact hcanonical.ne_nil hnil
    · exact hne (hcanonical.eq_of_head?_eq_zero hhead)
  rw [readWhole]
  simp only [takeWhile_append_stop hdigits hrest, dropWhile_append_stop hdigits hrest, if_neg hzero,
    value_digits (show 2 ≤ 10 by decide) (show 10 ≤ 36 by decide)]

/-- The point and the digits behind it, if there are any. -/
def fractionChars (fraction : List Char) : List Char :=
  if fraction = [] then [] else '.' :: fraction

theorem readFraction_append {fraction rest : List Char}
    (hfraction : ∀ c ∈ fraction, c.isDigit = true)
    (hrest : ∀ c ∈ rest.head?, c.isDigit = false ∧ c ≠ '.') :
    readFraction (fractionChars fraction ++ rest) = some (fraction, rest) := by
  have hstop : ∀ c ∈ rest.head?, c.isDigit = false := fun c hc => (hrest c hc).1
  rw [fractionChars]
  split
  · rename_i hnil
    rw [hnil, List.nil_append, readFraction.eq_def]
    split
    · exact absurd rfl (hrest '.' rfl).2
    · rfl
  · rename_i hne
    rw [List.cons_append, readFraction, takeWhile_append_stop hfraction hstop,
      dropWhile_append_stop hfraction hstop]
    exact if_neg hne

/-- The exponent, if there is one. -/
def exponentChars : Option Int → List Char
  | none => []
  | some e => 'e' :: (intText e).toList

theorem readExponent_exponentChars (exponent : Option Int) :
    readExponent (exponentChars exponent) = some exponent := by
  cases exponent with
  | none => rfl
  | some e => simp [exponentChars, readExponent, intOf?_intText]

/-- What follows the digits before the point is no digit. -/
theorem isDigit_head?_fractionChars {fraction : List Char} (exponent : Option Int) :
    ∀ c ∈ (fractionChars fraction ++ exponentChars exponent).head?, c.isDigit = false := by
  intro c hc
  rw [fractionChars] at hc
  split at hc
  · cases exponent with
    | none => cases hc
    | some e =>
      cases hc
      rfl
  · cases hc
    rfl

theorem head?_exponentChars (exponent : Option Int) :
    ∀ c ∈ (exponentChars exponent).head?, c.isDigit = false ∧ c ≠ '.' := by
  intro c hc
  cases exponent with
  | none => cases hc
  | some e =>
    cases hc
    exact ⟨rfl, by decide⟩

/-! ## Main result -/

theorem toList_text (n : Numeral) : n.text.toList = (if n.negative then ['-'] else []) ++
    (digits 10 n.whole ++ (fractionChars n.fraction ++ exponentChars n.exponent)) := by
  obtain ⟨negative, whole, fraction, exponent⟩ := n
  cases negative <;> cases exponent <;> by_cases hfraction : fraction = [] <;>
    simp [text, natText, fractionChars, exponentChars, hfraction]

/-- The text of a number is made of digits and four other characters. -/
theorem mem_text {n : Numeral} (h : n.isWritten = true) {c : Char} (hc : c ∈ n.text.toList) :
    c.isDigit = true ∨ c ∈ ['+', '-', '.', 'e'] := by
  rw [toList_text] at hc
  simp only [List.mem_append] at hc
  rcases hc with hc | hc | hc | hc
  · split at hc
    · exact .inr (by simp_all)
    · cases hc
  · exact .inl (isDigit_of_mem_digits hc)
  · rw [fractionChars] at hc
    split at hc
    · cases hc
    · rcases List.mem_cons.1 hc with rfl | hc
      · exact .inr (by decide)
      · exact .inl (List.all_eq_true.1 h c hc)
  · cases hexponent : n.exponent with
    | none => simp [exponentChars, hexponent] at hc
    | some e =>
      rw [hexponent, exponentChars] at hc
      rcases List.mem_cons.1 hc with rfl | hc
      · exact .inr (by decide)
      · rcases (intOf?_eq_some_iff.1 (intOf?_intText e)).mem hc with rfl | rfl | hdigit
        · exact .inr (by decide)
        · exact .inr (by decide)
        · exact .inl hdigit

theorem readUnsigned_append {negative : Bool} {whole : Nat} {fraction : List Char}
    {exponent : Option Int} (h : ∀ c ∈ fraction, c.isDigit = true) :
    readUnsigned negative
        (digits 10 whole ++ (fractionChars fraction ++ exponentChars exponent)) =
      some ⟨negative, whole, fraction, exponent⟩ := by
  rw [readUnsigned, readWhole_append whole (isDigit_head?_fractionChars exponent)]
  simp only [Option.bind_eq_bind, Option.bind_some,
    readFraction_append h (head?_exponentChars exponent), readExponent_exponentChars]
  rfl

/-- A number is read back from its text. -/
theorem ofChars?_text {n : Numeral} (h : n.isWritten = true) : ofChars? n.text.toList = some n := by
  obtain ⟨negative, whole, fraction, exponent⟩ := n
  have hfraction : ∀ c ∈ fraction, c.isDigit = true := List.all_eq_true.1 h
  rw [toList_text]
  cases negative with
  | true => exact readUnsigned_append hfraction
  | false =>
    obtain ⟨c, cs, hcs⟩ := List.exists_cons_of_ne_nil (digits_ne_nil 10 whole)
    have hc : c.isDigit = true := isDigit_of_mem_digits (n := whole) (by simp [hcs])
    have hread : readUnsigned false
        (digits 10 whole ++ (fractionChars fraction ++ exponentChars exponent)) =
        some ⟨false, whole, fraction, exponent⟩ := readUnsigned_append hfraction
    simp only [Bool.false_eq_true, if_false, List.nil_append]
    rw [hcs, List.cons_append] at hread ⊢
    unfold ofChars?
    split
    · rename_i heq
      cases heq
      exact absurd hc (by decide)
    · exact hread

end TaggedRows.Numeral
