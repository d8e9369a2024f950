import Mathlib.Algebra.BigOperators.Fin
import Mathlib.Data.Int.ModEq
import Mathlib.Tactic.Ring
import TaggedRows.Proofs.Text.Utf8
import TaggedRows.RowKey.Shard

/-!
# Source hashes as polynomials

The hash of a source id is the value at 31 of the polynomial whose coefficients are the UTF-16 code
units of the id, the first unit at the highest power, brought into the range of signed 32-bit
numbers.

* **The units are those of UTF-16.**  `Utf16` says without the arithmetic of `utf16Units` which
  units a text has: a character up to U+FFFF stands for itself, and one above is the pair of
  surrogates that its number is put together from.  Every text has one sequence of units and no
  other (`utf16_iff`).
* **Wrapping around loses nothing but multiples of 2³².**  The integers map onto the 32-bit numbers
  by a map that sums and products commute with, and so does every step of the hash
  (`hashStep_ofInt`).  The steps over all units give the image of the polynomial
  (`foldl_hashStep_ofInt`), however often the hash wrapped around on the way.

Since a step multiplies all that came before by 31, the hash of a text that goes on is found from
the hash of its beginning and the hash of what is added (`textHash_polynomial`).
-/

namespace TaggedRows

/-! ## UTF-16 -/

/-- The code units of a text in UTF-16. -/
inductive Utf16 : List Char → List Nat → Prop where
  | nil : Utf16 [] []
  /-- A character up to U+FFFF is one unit. -/
  | single {c : Char} {cs : List Char} {units : List Nat} : c.toNat < 0x10000 →
      Utf16 cs units → Utf16 (c :: cs) (c.toNat :: units)
  /-- A character above U+FFFF is a high surrogate and a low one, of ten bits each. -/
  | pair {c : Char} {cs : List Char} {high low : Nat} {units : List Nat} :
      0xD800 ≤ high ∧ high < 0xDC00 → 0xDC00 ≤ low ∧ low < 0xE000 →
      c.toNat = 0x10000 + (high - 0xD800) * 0x400 + (low - 0xDC00) →
      Utf16 cs units → Utf16 (c :: cs) (high :: low :: units)

theorem utf16Units_of_lt {c : Char} (h : c.toNat < 0x10000) : utf16Units c = [c.toNat] :=
  if_pos h

theorem utf16Units_of_pair {c : Char} {high low : Nat} (hhigh : 0xD800 ≤ high ∧ high < 0xDC00)
    (hlow : 0xDC00 ≤ low ∧ low < 0xE000)
    (hc : c.toNat = 0x10000 + (high - 0xD800) * 0x400 + (low - 0xDC00)) :
    utf16Units c = [high, low] := by
  have habove : ¬ c.toNat < 0x10000 := by omega
  have hfirst : 0xD800 + (c.toNat - 0x10000) / 1024 = high := by omega
  have hsecond : 0xDC00 + (c.toNat - 0x10000) % 1024 = low := by omega
  simp only [utf16Units, if_neg habove, hfirst, hsecond]

/-- A character above U+FFFF is put together from the two units it is written with. -/
theorem exists_pair_of_le {c : Char} (h : 0x10000 ≤ c.toNat) :
    ∃ high low, utf16Units c = [high, low] ∧ (0xD800 ≤ high ∧ high < 0xDC00) ∧
      (0xDC00 ≤ low ∧ low < 0xE000) ∧
      c.toNat = 0x10000 + (high - 0xD800) * 0x400 + (low - 0xDC00) := by
  -- twenty bits are left above U+FFFF, since no character lies beyond U+10FFFF
  have hvalid := Text.Utf8.toNat_valid c
  exact ⟨_, _, if_neg (by omega), by omega, by omega, by omega⟩

/-- The units of a text are the units of its characters, one after another. -/
theorem utf16_iff {cs : List Char} {units : List Nat} :
    Utf16 cs units ↔ units = cs.flatMap utf16Units := by
  constructor
  · intro h
    induction h with
    | nil => rfl
    | single hc _ ih => rw [List.flatMap_cons, utf16Units_of_lt hc, ← ih, List.singleton_append]
    | pair hhigh hlow hc _ ih =>
      rw [List.flatMap_cons, utf16Units_of_pair hhigh hlow hc, ← ih]
      rfl
  · rintro rfl
    induction cs with
    | nil => exact .nil
    | cons c cs ih =>
      rw [List.flatMap_cons]
      by_cases hc : c.toNat < 0x10000
      · rw [utf16Units_of_lt hc]
        exact .single hc ih
      · obtain ⟨high, low, hunits, hhigh, hlow, hnumber⟩ := exists_pair_of_le (Nat.le_of_not_lt hc)
        rw [hunits]
        exact .pair hhigh hlow hnumber ih

/-! ## The polynomial -/

/-- The value at 31 of the polynomial of the units, the first at the highest power. -/
def unitPolynomial (units : List Nat) : Int :=
  ∑ i : Fin units.length, (units[i] : Int) * 31 ^ (units.length - 1 - i)

theorem unitPolynomial_nil : unitPolynomial [] = 0 := rfl

theorem unitPolynomial_cons (unit : Nat) (units : List Nat) :
    unitPolynomial (unit :: units) = unit * 31 ^ units.length + unitPolynomial units := by
  rw [unitPolynomial, unitPolynomial]
  simp only [List.length_cons]
  rw [Fin.sum_univ_succ]
  simp [Nat.sub_sub, Nat.add_comm]

/-- What a unit does to the hash. -/
def hashStep (hash : Int32) (unit : Nat) : Int32 := hash * 31 + Int32.ofNat unit

theorem textHash_eq_foldl (s : String) :
    textHash s = (s.toList.flatMap utf16Units).foldl hashStep 0 := rfl

/-- A step that wraps around is the image of the step in the integers. -/
theorem hashStep_ofInt (i : Int) (unit : Nat) :
    hashStep (Int32.ofInt i) unit = Int32.ofInt (i * 31 + unit) := by
  rw [hashStep, Int32.ofInt_add, Int32.ofInt_mul]
  rfl

/-- The steps over all units give the image of the polynomial, behind what was there before. -/
theorem foldl_hashStep_ofInt (units : List Nat) (i : Int) :
    units.foldl hashStep (Int32.ofInt i) =
      Int32.ofInt (i * 31 ^ units.length + unitPolynomial units) := by
  induction units generalizing i with
  | nil => simp [unitPolynomial_nil]
  | cons unit units ih =>
    rw [List.foldl_cons, hashStep_ofInt, ih, unitPolynomial_cons, List.length_cons]
    congr 1
    ring

theorem toInt_foldl_hashStep (units : List Nat) (hash : Int32) :
    (units.foldl hashStep hash).toInt =
      (hash.toInt * 31 ^ units.length + unitPolynomial units).bmod (2 ^ 32) := by
  have hrun := foldl_hashStep_ofInt units hash.toInt
  rw [Int32.ofInt_toInt] at hrun
  rw [hrun, Int32.toInt_ofInt]
  rfl

/-- The hash of a text that goes on starts from the hash of its beginning. -/
theorem toInt_textHash_append (before s : String) :
    (textHash (before ++ s)).toInt =
      ((textHash before).toInt * 31 ^ (s.toList.flatMap utf16Units).length +
        unitPolynomial (s.toList.flatMap utf16Units)).bmod (2 ^ 32) := by
  rw [textHash_eq_foldl, String.toList_append, List.flatMap_append, List.foldl_append,
    ← textHash_eq_foldl, toInt_foldl_hashStep]

theorem toInt_textHash (s : String) :
    (textHash s).toInt = (unitPolynomial (s.toList.flatMap utf16Units)).bmod (2 ^ 32) := by
  rw [textHash_eq_foldl, toInt_foldl_hashStep, Int32.toInt_zero, zero_mul, zero_add]

/-! ## Main result -/

/-- The hash of a text is the signed 32-bit number that the polynomial of its UTF-16 units is
congruent to.  The hash of a text behind another is congruent to the hash of the other, multiplied
by 31 for each unit, plus its own. -/
theorem textHash_polynomial (s : String) :
    ∃ units, Utf16 s.toList units ∧ (∀ other, Utf16 s.toList other → other = units) ∧
      (textHash s).toInt = (unitPolynomial units).bmod (2 ^ 32) ∧
      ∀ before : String, (textHash (before ++ s)).toInt ≡
        (textHash before).toInt * 31 ^ units.length + (textHash s).toInt [ZMOD 2 ^ 32] := by
  refine ⟨_, utf16_iff.2 rfl, fun other h => utf16_iff.1 h, toInt_textHash s, fun before => ?_⟩
  rw [toInt_textHash_append, toInt_textHash s]
  exact Int.bmod_emod.trans (Int.ModEq.add_left _ Int.bmod_emod.symm)

/-- A clef, which is a pair of surrogates, and a letter. -/
theorem textHash_polynomial_clef :
    (∀ units, Utf16 "𝄞a".toList units → units = [0xD834, 0xDD1E, 0x61]) ∧
      (textHash "𝄞a").toInt = ((0xD834 * 31 ^ 2 + 0xDD1E * 31 + 0x61 : Int)).bmod (2 ^ 32) ∧
      (textHash "test𝄞a").toInt ≡ 3556498 * 31 ^ 3 + (textHash "𝄞a").toInt [ZMOD 2 ^ 32] := by
  obtain ⟨units, -, hunique, hhash, happend⟩ := textHash_polynomial "𝄞a"
  have hpair : Utf16 "𝄞a".toList [0xD834, 0xDD1E, 0x61] :=
    .pair (by decide) (by decide) (by decide) (.single (by decide) .nil)
  obtain rfl := hunique _ hpair
  refine ⟨hunique, ?_, happend "test"⟩
  rw [hhash]
  rfl

end TaggedRows
