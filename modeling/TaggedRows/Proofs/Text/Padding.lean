import TaggedRows.Proofs.Text.NumeralOrder

/-!
# Padded numerals

A numeral filled up with zeros stands for the number still (`value_paddedText`), and a number with
few enough digits has the width that was asked for (`length_paddedText`).
-/

namespace TaggedRows.Text

variable {w n : Nat} {c : Char}

theorem length_digits_le (h : n < Nat.pow 10 (w + 1)) : (digits 10 n).length ≤ w + 1 := by
  induction w generalizing n with
  | zero => simp [digits_of_lt (show n < 10 from h)]
  | succ w ih =>
    by_cases hn : 10 ≤ n
    · have hdiv : n / 10 < Nat.pow 10 (w + 1) := Nat.div_lt_of_lt_mul (Nat.mul_comm _ _ ▸ h)
      rw [digits_of_le (by omega) hn, List.length_append, List.length_singleton]
      exact Nat.succ_le_succ (ih hdiv)
    · simp [digits_of_lt (show n < 10 by omega)]

theorem toList_paddedText (w n : Nat) : (paddedText w n).toList =
    List.replicate (w - (digits 10 n).length) '0' ++ digits 10 n := by
  rw [paddedText, String.toList_ofList]

theorem isDigit_of_mem_paddedText (h : c ∈ (paddedText w n).toList) : c.isDigit = true := by
  rw [toList_paddedText, List.mem_append] at h
  rcases h with h | h
  · rw [List.eq_of_mem_replicate h]
    rfl
  · exact isDigit_of_mem_digits h

theorem paddedText_ne_nil (w n : Nat) : (paddedText w n).toList ≠ [] := by
  rw [toList_paddedText]
  exact List.append_ne_nil_of_right_ne_nil _ (digits_ne_nil 10 n)

/-- Zeros in front do not count. -/
theorem value_replicate_append (k : Nat) (cs : List Char) :
    value 10 (List.replicate k '0' ++ cs) = value 10 cs := by
  induction k with
  | zero => rfl
  | succ k ih =>
    rw [← ih, List.replicate_succ, List.cons_append]
    rfl

theorem value_paddedText (w n : Nat) : value 10 (paddedText w n).toList = n := by
  rw [toList_paddedText, value_replicate_append, value_digits (by omega) (by omega)]

theorem length_paddedText (h : n < Nat.pow 10 (w + 1)) :
    (paddedText (w + 1) n).toList.length = w + 1 := by
  have hlength := length_digits_le h
  rw [toList_paddedText, List.length_append, List.length_replicate]
  omega

end TaggedRows.Text
