import TaggedRows.Json.Value
import TaggedRows.Text.Numeral

/-!
# JSON numbers

Numbers as text, and whether a number lies in the range of 64-bit floats.

The range is judged as a reader with a 64-bit significand sees the number: digits are taken up for
as long as they fit, further ones before the point count as powers of ten and further ones behind it
as nothing.  The significand and the power of ten are each rounded to a float, and the number is in
range if their product does not round to infinity.
-/

namespace TaggedRows.Numeral

open TaggedRows.Text

/-! ## Text -/

/-- A number as text. -/
def text (n : Numeral) : String :=
  (if n.negative then "-" else "") ++ natText n.whole
    ++ (if n.fraction = [] then "" else "." ++ String.ofList n.fraction)
    ++ (match n.exponent with
      | none => ""
      | some e => "e" ++ intText e)

/-- Read the digits before the point: a zero alone, or digits that do not begin with one. -/
def readWhole (cs : List Char) : Option (Nat × List Char) :=
  let ds := cs.takeWhile Char.isDigit
  if ds = [] ∨ (ds.head? = some '0' ∧ ds ≠ ['0']) then none
  else some (value 10 ds, cs.dropWhile Char.isDigit)

/-- Read the point and the digits behind it, if there is a point. -/
def readFraction : List Char → Option (List Char × List Char)
  | '.' :: cs =>
    let ds := cs.takeWhile Char.isDigit
    if ds = [] then none else some (ds, cs.dropWhile Char.isDigit)
  | cs => some ([], cs)

/-- Read an exponent to the end of the text, if there is one. -/
def readExponent : List Char → Option (Option Int)
  | [] => some none
  | c :: cs => if c = 'e' ∨ c = 'E' then (intOf? cs).map some else none

/-- Read a number without its sign. -/
def readUnsigned (negative : Bool) (cs : List Char) : Option Numeral := do
  let (whole, cs) ← readWhole cs
  let (fraction, cs) ← readFraction cs
  let exponent ← readExponent cs
  pure { negative, whole, fraction, exponent }

/-- Read a number. -/
def ofChars? : List Char → Option Numeral
  | '-' :: cs => readUnsigned true cs
  | cs => readUnsigned false cs

/-! ## Integers -/

/-- The natural number that is written without sign, fraction and exponent. -/
def nat? (n : Numeral) : Option Nat :=
  if n.negative ∨ n.fraction ≠ [] ∨ n.exponent ≠ none then none else some n.whole

/-- The integer that is written without fraction and exponent.  A zero has no sign. -/
def int? (n : Numeral) : Option Int :=
  if n.fraction ≠ [] ∨ n.exponent ≠ none ∨ (n.negative ∧ n.whole = 0) then none
  else some (if n.negative then -(n.whole : Int) else n.whole)

/-! ## The range of floats -/

/-- Take up digits for as long as the number fits 64 bits, and count those left over. -/
def fillWord : Nat → List Char → Nat × Nat
  | n, [] => (n, 0)
  | n, c :: cs =>
    let next := n * 10 + digitValue c
    if next < Nat.pow 2 64 then fillWord next cs else (n, cs.length + 1)

/-- The nearest number with 53 significant bits; of two the even one. -/
def roundToFloat (n : Nat) : Nat :=
  let unit := Nat.pow 2 (n.log2 - 52)
  let q := n / unit
  let r := n % unit
  (if 2 * r < unit ∨ (2 * r = unit ∧ q % 2 = 0) then q else q + 1) * unit

/-- The least number that rounds to infinity. -/
def floatLimit : Nat := Nat.pow 2 1024 - Nat.pow 2 970

/-- Whether the number lies in the range of 64-bit floats. -/
def isFinite (n : Numeral) : Bool :=
  let (upper, leftOut) := fillWord 0 (digits 10 n.whole)
  let (significand, ignored) := fillWord upper n.fraction
  let power : Int := leftOut - ((n.fraction.length - ignored : Nat) : Int) + n.exponent.getD 0
  significand == 0 || power < 0 ||
    (power ≤ 308 && roundToFloat significand * roundToFloat (Nat.pow 10 power.toNat) < floatLimit)

example : (ofChars? "1.7976931348623157e308".toList).map isFinite = some true := by decide +kernel

example : (ofChars? "-1.8e308".toList).map isFinite = some false := by decide +kernel

example : ofChars? "01".toList = none ∧ ofChars? "1.".toList = none ∧
    ofChars? "-0.50E+2".toList = some ⟨true, 0, ['5', '0'], some 2⟩ := by decide +kernel

end TaggedRows.Numeral
