import TaggedRows.Text.Numeral

/-!
# Numerals read back

What a numeral is made of, and that reading a decimal integer gives back the number it was written
for.  Neither kind of numeral holds a character that could be taken for a separator.

* `exists_digitChar_of_mem_digits`: a numeral holds digits of its base alone;
* `intOf?_eq_some_iff`: what is read as an integer is a spelling of it, with at most one sign before
  any number of digits (`Spells`);
* `intOf?_intText`: a decimal integer is read as the integer it was written for.

A numeral in front of other text is cut off where the digits end (`takeWhile_append_stop`,
`dropWhile_append_stop`).
-/

namespace TaggedRows.Text

/-! ## Cutting a text where a property ends -/

section Cuts

variable {p : Char → Bool} {cs rest : List Char}

theorem takeWhile_append_stop (hcs : ∀ c ∈ cs, p c = true) (hrest : ∀ c ∈ rest.head?, p c = false) :
    (cs ++ rest).takeWhile p = cs := by
  rw [List.takeWhile_append_of_pos hcs]
  cases rest with
  | nil => simp
  | cons c rest => simp [hrest c rfl]

theorem dropWhile_append_stop (hcs : ∀ c ∈ cs, p c = true) (hrest : ∀ c ∈ rest.head?, p c = false) :
    (cs ++ rest).dropWhile p = rest := by
  rw [List.dropWhile_append_of_pos hcs]
  cases rest with
  | nil => rfl
  | cons c rest => simp [hrest c rfl]

end Cuts

/-! ## Characters of small number -/

/-- What holds of the characters below a number one by one holds of each of them. -/
theorem forall_char_lt {b : Nat} {P : Char → Prop} (h : ∀ n < b, P (Char.ofNat n)) {c : Char}
    (hc : c.toNat < b) : P c := by
  have hp := h c.toNat hc
  rwa [Char.ofNat_toNat] at hp

/-! ## Digits -/

theorem digits_ne_nil (b n : Nat) : digits b n ≠ [] := by
  rw [digits]
  split <;> simp

theorem exists_digitChar_of_mem_digits {b n : Nat} (hb : 2 ≤ b) {c : Char} (h : c ∈ digits b n) :
    ∃ d, d < b ∧ c = digitChar d := by
  induction n using Nat.strongRecOn with
  | ind n ih =>
    -- the last digit is a remainder, and the digits before it are those of the quotient
    rw [digits] at h
    split at h
    · rename_i hbn
      rcases List.mem_append.1 h with h | h
      · exact ih (n / b) (Nat.div_lt_self (by omega) (by omega)) h
      · exact ⟨n % b, Nat.mod_lt _ (by omega), List.mem_singleton.1 h⟩
    · rename_i hbn
      exact ⟨n, by omega, List.mem_singleton.1 h⟩

theorem isDigit_digitChar {d : Nat} (h : d < 10) : (digitChar d).isDigit = true := by
  revert d
  decide

theorem isBase36Digit_digitChar {d : Nat} (h : d < 36) : isBase36Digit (digitChar d) = true := by
  revert d
  decide

theorem isDigit_of_mem_digits {n : Nat} {c : Char} (h : c ∈ digits 10 n) : c.isDigit = true := by
  obtain ⟨d, hd, rfl⟩ := exists_digitChar_of_mem_digits (by omega) h
  exact isDigit_digitChar hd

theorem isBase36Digit_of_mem_digits {n : Nat} {c : Char} (h : c ∈ digits 36 n) :
    isBase36Digit c = true := by
  obtain ⟨d, hd, rfl⟩ := exists_digitChar_of_mem_digits (by omega) h
  exact isBase36Digit_digitChar hd

/-- No numeral begins with a zero but the one of zero itself. -/
theorem eq_zero_of_head?_digits {b n : Nat} (hb : 2 ≤ b) (hb' : b ≤ 36)
    (h : (digits b n).head? = some '0') : n = 0 := by
  induction n using Nat.strongRecOn with
  | ind n ih =>
    rw [digits] at h
    split at h
    · rename_i hn
      obtain ⟨c, cs, hcs⟩ := List.exists_cons_of_ne_nil (digits_ne_nil b (n / b))
      have hhead : (digits b (n / b)).head? = some '0' := by
        rw [hcs] at h ⊢
        exact h
      have hzero := ih (n / b) (Nat.div_lt_self (by omega) (by omega)) hhead
      -- the quotient of a number with several digits is not zero
      have hpos := Nat.div_pos hn.2 (by omega)
      omega
    · rename_i hn
      have hchar : digitChar n = '0' := Option.some.inj h
      have hvalue := digitValue_digitChar (show n < 36 by omega)
      rw [hchar] at hvalue
      exact hvalue.symm

/-! ## Decimal integers -/

theorem natOf?_digits (n : Nat) : natOf? (digits 10 n) = some n := by
  rw [natOf?, if_pos ⟨digits_ne_nil 10 n, List.all_eq_true.2 fun c hc => isDigit_of_mem_digits hc⟩,
    value_digits (by omega) (by omega)]

/-- Without a sign an integer is read as a natural number. -/
theorem intOf?_unsigned {cs : List Char} (hplus : ∀ ds, cs ≠ '+' :: ds)
    (hminus : ∀ ds, cs ≠ '-' :: ds) : intOf? cs = (natOf? cs).map Int.ofNat := by
  unfold intOf?
  split
  · exact absurd rfl (hplus _)
  · exact absurd rfl (hminus _)
  · cases natOf? cs <;> rfl

theorem intOf?_of_unsigned {c : Char} {cs : List Char} (h : c.isDigit = true) :
    intOf? (c :: cs) = (natOf? (c :: cs)).map Int.ofNat := by
  apply intOf?_unsigned
  · rintro ds ⟨⟩
    exact absurd h (by decide)
  · rintro ds ⟨⟩
    exact absurd h (by decide)

/-- One or more decimal digits. -/
def IsNumeral (cs : List Char) : Prop := cs ≠ [] ∧ ∀ c ∈ cs, c.isDigit = true

/-- A spelling of an integer: at most one sign, and then a numeral. -/
inductive Spells : List Char → Int → Prop where
  | unsigned {ds : List Char} : IsNumeral ds → Spells ds (value 10 ds)
  | plus {ds : List Char} : IsNumeral ds → Spells ('+' :: ds) (value 10 ds)
  | minus {ds : List Char} : IsNumeral ds → Spells ('-' :: ds) (-(value 10 ds : Int))

theorem natOf?_eq_some_iff {cs : List Char} {n : Nat} :
    natOf? cs = some n ↔ IsNumeral cs ∧ n = value 10 cs := by
  have hnumeral : IsNumeral cs ↔ cs ≠ [] ∧ cs.all Char.isDigit = true := by
    rw [IsNumeral, List.all_eq_true]
  rw [natOf?, hnumeral]
  split
  · rename_i h
    rw [Option.some.injEq, and_iff_right h]
    exact eq_comm
  · rename_i h
    exact iff_of_false (fun hnone => by cases hnone) fun hsome => h hsome.1

theorem intOf?_plus (cs : List Char) : intOf? ('+' :: cs) = (natOf? cs).map Int.ofNat := by
  rw [intOf?]
  cases natOf? cs <;> rfl

theorem intOf?_minus (cs : List Char) :
    intOf? ('-' :: cs) = (natOf? cs).map fun n => -Int.ofNat n := by
  rw [intOf?]
  cases natOf? cs <;> rfl

/-- The texts that are read as an integer are its spellings. -/
theorem intOf?_eq_some_iff {cs : List Char} {i : Int} : intOf? cs = some i ↔ Spells cs i := by
  constructor
  · intro h
    by_cases hplus : ∃ ds, cs = '+' :: ds
    · obtain ⟨ds, rfl⟩ := hplus
      rw [intOf?_plus] at h
      obtain ⟨n, hn, rfl⟩ := Option.map_eq_some_iff.1 h
      obtain ⟨hds, rfl⟩ := natOf?_eq_some_iff.1 hn
      exact .plus hds
    · by_cases hminus : ∃ ds, cs = '-' :: ds
      · obtain ⟨ds, rfl⟩ := hminus
        rw [intOf?_minus] at h
        obtain ⟨n, hn, rfl⟩ := Option.map_eq_some_iff.1 h
        obtain ⟨hds, rfl⟩ := natOf?_eq_some_iff.1 hn
        exact .minus hds
      · rw [intOf?_unsigned (fun ds hds => hplus ⟨ds, hds⟩) fun ds hds => hminus ⟨ds, hds⟩] at h
        obtain ⟨n, hn, rfl⟩ := Option.map_eq_some_iff.1 h
        obtain ⟨hds, rfl⟩ := natOf?_eq_some_iff.1 hn
        exact .unsigned hds
  · intro h
    cases h with
    | @unsigned ds hds =>
      obtain ⟨c, cs, rfl⟩ := List.exists_cons_of_ne_nil hds.1
      rw [intOf?_of_unsigned (hds.2 c (by simp)), natOf?_eq_some_iff.2 ⟨hds, rfl⟩]
      rfl
    | plus hds =>
      rw [intOf?_plus, natOf?_eq_some_iff.2 ⟨hds, rfl⟩]
      rfl
    | minus hds =>
      rw [intOf?_minus, natOf?_eq_some_iff.2 ⟨hds, rfl⟩]
      rfl

/-- A spelling holds a sign and digits alone. -/
theorem Spells.mem {cs : List Char} {i : Int} (h : Spells cs i) {c : Char} (hc : c ∈ cs) :
    c = '+' ∨ c = '-' ∨ c.isDigit = true := by
  cases h with
  | unsigned hds => exact .inr (.inr (hds.2 c hc))
  | plus hds => exact (List.mem_cons.1 hc).imp_right fun hc => .inr (hds.2 c hc)
  | minus hds => exact .inr ((List.mem_cons.1 hc).imp_right fun hc => hds.2 c hc)

/-- Reading an integer gives back the number it was written for. -/
theorem intOf?_intText (i : Int) : intOf? (intText i).toList = some i := by
  rw [intText]
  split
  · rename_i hneg
    have htext : ("-" ++ natText i.natAbs).toList = '-' :: digits 10 i.natAbs := by simp [natText]
    rw [htext, intOf?, natOf?_digits]
    show some (-(i.natAbs : Int)) = some i
    rw [Int.ofNat_natAbs_of_nonpos (by omega), Int.neg_neg]
  · rename_i hpos
    obtain ⟨c, cs, hcs⟩ := List.exists_cons_of_ne_nil (digits_ne_nil 10 i.natAbs)
    have hc : c.isDigit = true := isDigit_of_mem_digits (n := i.natAbs) (by simp [hcs])
    rw [natText, String.toList_ofList, hcs, intOf?_of_unsigned hc, ← hcs, natOf?_digits]
    show some (i.natAbs : Int) = some i
    rw [Int.natAbs_of_nonneg (by omega)]

end TaggedRows.Text
