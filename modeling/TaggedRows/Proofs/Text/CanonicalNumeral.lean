import Mathlib.Data.List.Induction
import TaggedRows.Proofs.Text.NumeralOrder

/-!
# Canonical numerals

A numeral is canonical if it has no zero before other digits (`CanonicalNumeral`).  The numerals
that are written are canonical (`canonicalNumeral_digits`), and they are all of them: a canonical
numeral is the one written for its number (`CanonicalNumeral.digits_value`).  A number therefore has
one canonical numeral, while zeros in front would give it any number of others.
-/

namespace TaggedRows.Text

variable {b : Nat} {cs : List Char}

/-- One or more digits of the base, of which the first is a zero only if it stands alone. -/
structure CanonicalNumeral (b : Nat) (cs : List Char) : Prop where
  ne_nil : cs ≠ []
  isDigit : ∀ c ∈ cs, isBase36Digit c = true ∧ digitValue c < b
  eq_of_head?_eq_zero : cs.head? = some '0' → cs = ['0']

theorem digits_zero (hb : 2 ≤ b) : digits b 0 = ['0'] := by
  rw [digits_of_lt (by omega)]
  rfl

/-- The numerals that are written are canonical. -/
theorem canonicalNumeral_digits (hb : 2 ≤ b) (hb' : b ≤ 36) (n : Nat) :
    CanonicalNumeral b (digits b n) where
  ne_nil := digits_ne_nil b n
  isDigit c hc := by
    obtain ⟨d, hd, rfl⟩ := exists_digitChar_of_mem_digits hb hc
    rw [digitValue_digitChar (by omega)]
    exact ⟨isBase36Digit_digitChar (by omega), hd⟩
  eq_of_head?_eq_zero h := by
    rw [eq_zero_of_head?_digits hb hb' h, digits_zero hb]

theorem digitChar_digitValue {c : Char} (h : isBase36Digit c = true) :
    digitChar (digitValue c) = c := by
  have hascii : c.toNat < 128 := by
    simp only [isBase36Digit, Bool.or_eq_true, Bool.and_eq_true, decide_eq_true_iff] at h
    rcases h with h | h
    · simp only [Char.isDigit, Bool.and_eq_true, decide_eq_true_iff] at h
      have hnine : c.toNat ≤ '9'.toNat := h.2
      exact Nat.lt_of_le_of_lt hnine (by decide)
    · have hz : c.toNat ≤ 'z'.toNat := h.2
      exact Nat.lt_of_le_of_lt hz (by decide)
  exact forall_char_lt (P := fun c => isBase36Digit c = true → digitChar (digitValue c) = c)
    (by decide) hascii h

/-- What stands before the last digit of a canonical numeral is canonical, and it is not zero. -/
theorem CanonicalNumeral.of_append_singleton {c : Char} (h : CanonicalNumeral b (cs ++ [c]))
    (hcs : cs ≠ []) : CanonicalNumeral b cs ∧ cs ≠ ['0'] := by
  have hhead : cs.head? ≠ some '0' := by
    intro hzero
    have hall := h.eq_of_head?_eq_zero (by rwa [List.head?_append_of_ne_nil _ hcs])
    have hlength := congrArg List.length hall
    have hpos := List.length_pos_of_ne_nil hcs
    rw [List.length_append, List.length_singleton, List.length_singleton] at hlength
    omega
  refine ⟨⟨hcs, fun d hd => h.isDigit d (List.mem_append_left _ hd), fun hzero => ?_⟩, ?_⟩
  · exact absurd hzero hhead
  · rintro rfl
    exact hhead rfl

/-- A canonical numeral is the one written for its number. -/
theorem CanonicalNumeral.digits_value (hb : 2 ≤ b) (hb' : b ≤ 36) (h : CanonicalNumeral b cs) :
    digits b (value b cs) = cs := by
  induction cs using List.reverseRecOn with
  | nil => exact absurd rfl h.ne_nil
  | append_singleton cs c ih =>
    obtain ⟨hdigit, hlt⟩ := h.isDigit c (by simp)
    rw [value_append_singleton]
    by_cases hcs : cs = []
    · subst hcs
      have hsingle : value b [] * b + digitValue c = digitValue c := by simp [value]
      rw [hsingle, digits_of_lt hlt, digitChar_digitValue hdigit]
      rfl
    · obtain ⟨hcanonical, hne⟩ := h.of_append_singleton hcs
      have hprefix := ih hcanonical
      -- were the digits before the last zero, they would have been left out
      have hpos : 0 < value b cs := by
        rw [Nat.pos_iff_ne_zero]
        intro hzero
        rw [hzero, digits_zero hb] at hprefix
        exact hne hprefix.symm
      have hdiv : (value b cs * b + digitValue c) / b = value b cs := by
        rw [Nat.mul_comm, Nat.mul_add_div (by omega), Nat.div_eq_of_lt hlt, Nat.add_zero]
      have hmod : (value b cs * b + digitValue c) % b = digitValue c := by
        rw [Nat.mul_comm, Nat.mul_add_mod, Nat.mod_eq_of_lt hlt]
      have hle : b ≤ value b cs * b + digitValue c :=
        Nat.le_trans (Nat.le_mul_of_pos_left b hpos) (Nat.le_add_right _ _)
      rw [digits_of_le hb hle, hdiv, hmod, hprefix, digitChar_digitValue hdigit]

end TaggedRows.Text
