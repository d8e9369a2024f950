import Mathlib.Data.List.Basic
import TaggedRows.Proofs.Text.Numeral

/-!
# Numerals in order

Texts compare from the left, at the first character in which they differ.  For numerals this is the
order of the numbers as long as they have **the same number of digits** (`digits_lt_iff`): the last
digits then meet each other and count only where all the digits before them agree, as they do in the
numbers.

Whatever stands behind numerals of one length comes into play only if the numerals are equal
(`digits_append_lt_append_iff`).  This is what makes keys with a time in them sort by that time.
-/

namespace TaggedRows.Text

/-! ## Texts that begin alike -/

section Prefixes

variable {l r x : List Char}

theorem append_lt_append_left_iff (p l r : List Char) : p ++ l < p ++ r ↔ l < r := by
  induction p with
  | nil => exact Iff.rfl
  | cons c p ih =>
    have hirrefl : ¬ c < c := Std.lt_irrefl
    rw [List.cons_append, List.cons_append, List.cons_lt_cons_iff, ih, or_iff_right hirrefl,
      and_iff_right rfl]

/-- Texts of one length decide the order unless they are equal. -/
theorem append_lt_append_iff {a b : List Char} (h : a.length = b.length) (l r : List Char) :
    a ++ l < b ++ r ↔ a < b ∨ (a = b ∧ l < r) := by
  induction a generalizing b with
  | nil =>
    obtain rfl := List.length_eq_zero_iff.1 h.symm
    simp
  | cons c a ih =>
    cases b with
    | nil => simp at h
    | cons d b =>
      rw [List.cons_append, List.cons_append, List.cons_lt_cons_iff, List.cons_lt_cons_iff,
        ih (by simpa using h), List.cons.injEq]
      constructor
      · rintro (hlt | ⟨rfl, hlt | ⟨rfl, hlt⟩⟩)
        · exact .inl (.inl hlt)
        · exact .inl (.inr ⟨rfl, hlt⟩)
        · exact .inr ⟨⟨rfl, rfl⟩, hlt⟩
      · rintro ((hlt | ⟨rfl, hlt⟩) | ⟨⟨rfl, rfl⟩, hlt⟩)
        · exact .inl hlt
        · exact .inr ⟨rfl, .inl hlt⟩
        · exact .inr ⟨rfl, .inr ⟨rfl, hlt⟩⟩

/-- A text between two that begin alike begins like them. -/
theorem exists_append_of_between {p : List Char} (hl : ¬ x < p ++ l) (hr : x < p ++ r) :
    ∃ y, x = p ++ y := by
  induction p generalizing x with
  | nil => exact ⟨x, rfl⟩
  | cons c p ih =>
    cases x with
    | nil => exact absurd (List.nil_lt_cons c (p ++ l)) hl
    | cons d x =>
      rw [List.cons_append, List.cons_lt_cons_iff] at hl hr
      rw [not_or] at hl
      rcases hr with hlt | ⟨rfl, hr⟩
      · exact absurd hlt hl.1
      · obtain ⟨y, rfl⟩ := ih (fun hx => hl.2 ⟨rfl, hx⟩) hr
        exact ⟨y, rfl⟩

end Prefixes

/-! ## Digits -/

theorem toNat_digitChar {d : Nat} (h : d < 36) :
    (digitChar d).toNat = if d < 10 then 48 + d else 87 + d := by
  revert d
  decide

theorem digitChar_lt_iff {d e : Nat} (hd : d < 36) (he : e < 36) :
    digitChar d < digitChar e ↔ d < e := by
  have hlt : digitChar d < digitChar e ↔ (digitChar d).toNat < (digitChar e).toNat := Iff.rfl
  rw [hlt, toNat_digitChar hd, toNat_digitChar he]
  split <;> split <;> omega

/-! ## Numerals -/

variable {b m n : Nat}

/-- No two numbers have the same numeral. -/
theorem digits_inj (hb : 2 ≤ b) (hb' : b ≤ 36) : digits b m = digits b n ↔ m = n := by
  constructor
  · intro h
    have hvalue := congrArg (value b) h
    rwa [value_digits hb hb', value_digits hb hb'] at hvalue
  · rintro rfl
    rfl

theorem digits_of_lt (h : n < b) : digits b n = [digitChar n] := by
  rw [digits, dif_neg (by omega)]

theorem digits_of_le (hb : 2 ≤ b) (h : b ≤ n) :
    digits b n = digits b (n / b) ++ [digitChar (n % b)] := by
  rw [digits, dif_pos ⟨hb, h⟩]

theorem length_digits_pos (b n : Nat) : 0 < (digits b n).length :=
  List.length_pos_of_ne_nil (digits_ne_nil b n)

theorem lt_iff_div_mod (b m n : Nat) :
    m < n ↔ m / b < n / b ∨ (m / b = n / b ∧ m % b < n % b) := by
  have hm := Nat.div_add_mod m b
  have hn := Nat.div_add_mod n b
  constructor
  · intro h
    rcases Nat.lt_or_eq_of_le (Nat.div_le_div_right (c := b) (Nat.le_of_lt h)) with hlt | heq
    · exact .inl hlt
    · rw [heq] at hm
      exact .inr ⟨heq, by omega⟩
  · rintro (h | ⟨heq, h⟩)
    · exact Nat.lt_of_div_lt_div h
    · rw [heq] at hm
      omega

/-- Numerals of one length are in the order of their numbers. -/
theorem digits_lt_iff (hb : 2 ≤ b) (hb' : b ≤ 36) (h : (digits b m).length = (digits b n).length) :
    digits b m < digits b n ↔ m < n := by
  induction m using Nat.strongRecOn generalizing n with
  | ind m ih =>
    have hlast : ∀ k : Nat, k % b < 36 := fun k => Nat.lt_of_lt_of_le (Nat.mod_lt k (by omega)) hb'
    by_cases hm : b ≤ m
    · by_cases hn : b ≤ n
      · rw [digits_of_le hb hm, digits_of_le hb hn] at h ⊢
        have hlength : (digits b (m / b)).length = (digits b (n / b)).length := by simpa using h
        have hdiv : m / b < m := Nat.div_lt_self (by omega) (by omega)
        rw [append_lt_append_iff hlength, ih (m / b) hdiv hlength, digits_inj hb hb',
          List.cons_lt_cons_iff, digitChar_lt_iff (hlast m) (hlast n), lt_iff_div_mod b m n]
        simp
      · -- one digit against several
        have hpos := length_digits_pos b (m / b)
        rw [digits_of_le hb hm, digits_of_lt (Nat.lt_of_not_le hn)] at h
        simp only [List.length_append, List.length_singleton] at h
        omega
    · by_cases hn : b ≤ n
      · have hpos := length_digits_pos b (n / b)
        rw [digits_of_lt (Nat.lt_of_not_le hm), digits_of_le hb hn] at h
        simp only [List.length_append, List.length_singleton] at h
        omega
      · rw [digits_of_lt (Nat.lt_of_not_le hm), digits_of_lt (Nat.lt_of_not_le hn),
          List.cons_lt_cons_iff, digitChar_lt_iff (by omega) (by omega)]
        simp

/-- What stands behind numerals of one length counts only if they are equal. -/
theorem digits_append_lt_append_iff (hb : 2 ≤ b) (hb' : b ≤ 36)
    (h : (digits b m).length = (digits b n).length) (l r : List Char) :
    digits b m ++ l < digits b n ++ r ↔ m < n ∨ (m = n ∧ l < r) := by
  rw [append_lt_append_iff h, digits_lt_iff hb hb' h, digits_inj hb hb']

end TaggedRows.Text
