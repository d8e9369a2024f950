/-!
# Numerals

Natural numbers in a base up to 36, with the digits `0`–`9` and `a`–`z`, and integers in decimal.

Main statement:

* `value_digits`: a numeral evaluates to its number.
-/

namespace TaggedRows.Text

/-- The digit of value `d`, for `d < 36`. -/
def digitChar (d : Nat) : Char := if d < 10 then Char.ofNat (48 + d) else Char.ofNat (87 + d)

/-- The value of a digit `0`–`9` or `a`–`z`. -/
def digitValue (c : Char) : Nat := if c.toNat < 58 then c.toNat - 48 else c.toNat - 87

/-- Whether `c` is one of `0`–`9` and `a`–`z`. -/
def isBase36Digit (c : Char) : Bool := c.isDigit || ('a' ≤ c && c ≤ 'z')

/-- The numeral of `n` in base `b`, without leading zeros. -/
def digits (b n : Nat) : List Char :=
  if _h : 2 ≤ b ∧ b ≤ n then digits b (n / b) ++ [digitChar (n % b)] else [digitChar n]
termination_by n
decreasing_by exact Nat.div_lt_self (by omega) (by omega)

/-- The number that a numeral in base `b` stands for. -/
def value (b : Nat) (cs : List Char) : Nat := cs.foldl (fun n c => n * b + digitValue c) 0

theorem digitValue_digitChar {d : Nat} (h : d < 36) : digitValue (digitChar d) = d := by
  revert d
  decide

theorem value_append_singleton (b : Nat) (cs : List Char) (c : Char) :
    value b (cs ++ [c]) = value b cs * b + digitValue c := by
  simp [value]

/-- A numeral evaluates to its number. -/
theorem value_digits {b : Nat} (hb : 2 ≤ b) (hb' : b ≤ 36) (n : Nat) :
    value b (digits b n) = n := by
  induction n using Nat.strongRecOn with
  | ind n ih =>
    rw [digits]
    split
    · rename_i h
      have hmod : n % b < b := Nat.mod_lt _ (by omega)
      rw [value_append_singleton, ih (n / b) (Nat.div_lt_self (by omega) (by omega)),
        digitValue_digitChar (by omega)]
      exact Nat.div_add_mod' n b
    · rename_i h
      simp [value, digitValue_digitChar (show n < 36 by omega)]

/-! ## Decimal integers -/

/-- A natural number in decimal. -/
def natText (n : Nat) : String := String.ofList (digits 10 n)

/-- An integer in decimal, with `-` before a negative one. -/
def intText (i : Int) : String :=
  if i < 0 then "-" ++ natText i.natAbs else natText i.natAbs

/-- A natural number in decimal, filled up with zeros on the left to at least `width` digits. -/
def paddedText (width n : Nat) : String :=
  let ds := digits 10 n
  String.ofList (List.replicate (width - ds.length) '0' ++ ds)

/-- Read a decimal natural number: one or more digits, leading zeros allowed. -/
def natOf? (cs : List Char) : Option Nat :=
  if cs ≠ [] ∧ cs.all Char.isDigit then some (value 10 cs) else none

/-- Read a decimal integer: at most one sign, then one or more digits. -/
def intOf? : List Char → Option Int
  | '+' :: cs => (natOf? cs).map fun n => (n : Int)
  | '-' :: cs => (natOf? cs).map fun n => -(n : Int)
  | cs => (natOf? cs).map fun n => (n : Int)

/-- Whether the integer is one of the signed 64-bit numbers. -/
def isInt64 (i : Int) : Bool := decide (-9223372036854775808 ≤ i ∧ i ≤ 9223372036854775807)

end TaggedRows.Text
