import TaggedRows.Text.Blank
import TaggedRows.Text.Numeral
import TaggedRows.Time.Instant

/-!
# Date text

Instants as text.  Writing has two forms, `2024-05-06T07:08:09.5Z`-like for data and
`2024-05-06 07:08:09.5 UTC`-like for messages; both give the fewest of 0, 3, 6 or 9 digits of a
second's fraction that lose nothing.  Both write a leap second as the second behind it, which is
second 60 at the end of a minute.

Reading is lenient: fields may be short, white space may stand before each field and separator,
and the zone is `Z`, `UTC` or an offset of hours and minutes.
-/

namespace TaggedRows.Time

open TaggedRows.Text

/-! ## Writing -/

/-- A year: four digits at least, and a sign outside the years 0 to 9999. -/
def yearText (year : Int) : String :=
  if 0 ≤ year ∧ year ≤ 9999 then paddedText 4 year.toNat
  else (if year < 0 then "-" else "+") ++ paddedText 4 year.natAbs

/-- The fraction of a second: nothing, or a point and 3, 6 or 9 digits. -/
def fractionText (nanos : Nat) : String :=
  if nanos = 0 then ""
  else if nanos % 1000000 = 0 then "." ++ paddedText 3 (nanos / 1000000)
  else if nanos % 1000 = 0 then "." ++ paddedText 6 (nanos / 1000)
  else "." ++ paddedText 9 nanos

namespace Instant

/-- Date and time of day with `separator` between them. -/
def clockText (separator : String) (t : Instant) : String :=
  let date := Date.ofDayNumber (t.secs / 86400)
  let second := (t.secs % 86400).toNat
  let leap := t.nanos / 1000000000
  yearText date.year ++ "-" ++ paddedText 2 date.month ++ "-" ++ paddedText 2 date.day ++ separator
    ++ paddedText 2 (second / 3600) ++ ":" ++ paddedText 2 (second / 60 % 60) ++ ":"
    ++ paddedText 2 (second % 60 + leap) ++ fractionText (t.nanos % 1000000000)

/-- The text of an instant as data. -/
def text (t : Instant) : String := t.clockText "T" ++ "Z"

/-- The text of an instant in a message. -/
def message (t : Instant) : String := t.clockText " " ++ " UTC"

end Instant

/-! ## Reading -/

/-- Read at most `width` digits, at least one. -/
def readDigits (width : Nat) (cs : List Char) : Option (Nat × List Char) :=
  let ds := (cs.take width).takeWhile Char.isDigit
  if ds = [] then none else some (value 10 ds, cs.drop ds.length)

/-- Read a field of one or two digits after optional white space. -/
def readField (cs : List Char) : Option (Nat × List Char) := readDigits 2 (trimStart cs)

/-- Read a year after optional white space.  Without a sign it has four digits at most. -/
def readYear (cs : List Char) : Option (Int × List Char) :=
  match trimStart cs with
  | '-' :: rest => (readDigits rest.length rest).map fun (n, rest) => (-(n : Int), rest)
  | '+' :: rest => (readDigits rest.length rest).map fun (n, rest) => ((n : Int), rest)
  | rest => (readDigits 4 rest).map fun (n, rest) => ((n : Int), rest)

/-- Read one character after optional white space. -/
def readMark (mark : Char) (cs : List Char) : Option (List Char) :=
  match trimStart cs with
  | c :: rest => if c = mark then some rest else none
  | [] => none

/-- Read the nanoseconds of a second: none, or a point and one or more digits, of which nine
count. -/
def readFraction : List Char → Option (Nat × List Char)
  | '.' :: rest => do
    let (n, after) ← readDigits 9 rest
    let width := rest.length - after.length
    pure (n * Nat.pow 10 (9 - width), after.dropWhile Char.isDigit)
  | rest => some (0, rest)

/-- Read two digits, of which the first is at most `most`. -/
def readPair (most : Nat) : List Char → Option (Nat × List Char)
  | a :: b :: rest =>
    if a.isDigit ∧ b.isDigit ∧ digitValue a ≤ most then
      some (digitValue a * 10 + digitValue b, rest)
    else none
  | _ => none

/-- Read an offset of hours and minutes; between them may stand any run of colons and white
space. -/
def readOffset (cs : List Char) : Option (Int × List Char) := do
  let (sign, rest) ← match cs with
    | '+' :: rest => some ((1 : Int), rest)
    | '-' :: rest => some (-1, rest)
    | '\u2212' :: rest => some (-1, rest)
    | _ => none
  let (hours, rest) ← readPair 9 rest
  let (minutes, rest) ← readPair 5 (rest.dropWhile fun c => c == ':' || isBlankChar c)
  pure (sign * ((hours * 3600 + minutes * 60 : Nat) : Int), rest)

/-- Read a zone after optional white space: `UTC` in any case, `Z`, or an offset in seconds. -/
def readZone (cs : List Char) : Option (Int × List Char) :=
  match trimStart cs with
  | 'Z' :: rest => some (0, rest)
  | 'z' :: rest => some (0, rest)
  | a :: b :: c :: rest =>
    if a.toLower = 'u' ∧ b.toLower = 't' ∧ c.toLower = 'c' then some (0, rest)
    else readOffset (a :: b :: c :: rest)
  | _ => none

namespace Instant

/-- Read an instant.  A second 60 is the leap second after second 59 of any minute; the offset has
to stay below a day, and the local date as well as the instant within the covered years. -/
def ofText? (s : String) : Option Instant := do
  let (year, cs) ← readYear s.toList
  let cs ← readMark '-' cs
  let (month, cs) ← readField cs
  let cs ← readMark '-' cs
  let (day, cs) ← readField cs
  let cs ← match cs with
    | c :: cs => if c = 'T' ∨ c = 't' ∨ c = ' ' then some cs else none
    | [] => none
  let (hour, cs) ← readField cs
  let cs ← readMark ':' cs
  let (minute, cs) ← readField cs
  let cs ← readMark ':' cs
  let (second, cs) ← readField cs
  let (fraction, cs) ← readFraction cs
  let (offset, cs) ← readZone cs
  let date : Date := ⟨year, month, day⟩
  if cs.all isBlankChar ∧ date.isValid ∧ -262143 ≤ year ∧ year ≤ 262142 ∧ hour ≤ 23 ∧ minute ≤ 59 ∧
      second ≤ 60 ∧ offset.natAbs < 86400 then
    let clock : Int := (hour * 3600 + minute * 60 + min second 59 : Nat)
    ofParts? (date.dayNumber * 86400 + clock - offset)
      (if second = 60 then 1000000000 + fraction else fraction)
  else none

end Instant

example : (Instant.ofText? "2024-5-6 7:08:60.25+01:30").map Instant.text
    = some "2024-05-06T05:38:60.250Z" := by decide +kernel

example : (Instant.ofMillis? (-1)).map Instant.message
    = some "1969-12-31 23:59:59.999 UTC" := by decide +kernel

end TaggedRows.Time
