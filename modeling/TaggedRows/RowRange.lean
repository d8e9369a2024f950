/-!
# Row ranges

Contiguous ranges of row ids.  Row ids are ordered by their characters' scalar values.

The range of all ids that start with a given text ends before `successor?`: the last character that
can be raised is raised, and the characters behind it, which were all the greatest there is, fall
away.
-/

namespace TaggedRows

/-- One end of a range. -/
inductive Bound where
  | unbounded
  | included (row : String)
  | excluded (row : String)
deriving DecidableEq

/-- A contiguous range of row ids. -/
structure RowRange where
  start : Bound
  stop : Bound
deriving DecidableEq

/-! ## Successors -/

/-- The next character; surrogates are no characters and are passed over. -/
def nextChar? (c : Char) : Option Char :=
  if c.toNat = 0xD7FF then some '\uE000'
  else if c.toNat = 0x10FFFF then none
  else some (Char.ofNat (c.toNat + 1))

/-- The least list of characters above all that start with `cs`, if there is one. -/
def successor? : List Char → Option (List Char)
  | [] => none
  | c :: cs =>
    match successor? cs with
    | some next => some (c :: next)
    | none => (nextChar? c).map fun d => [d]

namespace RowRange

/-! ## Ranges -/

/-- Every row. -/
def all : RowRange := ⟨.unbounded, .unbounded⟩

/-- Exactly one row. -/
def exact (row : String) : RowRange := ⟨.included row, .included row⟩

/-- From `start` on, up to but not at `stop`. -/
def span (start stop : String) : RowRange := ⟨.included start, .excluded stop⟩

/-- Every row whose id starts with `text`. -/
def startingWith (text : String) : RowRange :=
  ⟨.included text,
    match successor? text.toList with
    | some next => .excluded (String.ofList next)
    | none => .unbounded⟩

/-- Whether `row` lies at or after the start. -/
def afterStart (r : RowRange) (row : String) : Bool :=
  match r.start with
  | .unbounded => true
  | .included start => decide (start ≤ row)
  | .excluded start => decide (start < row)

/-- Whether `row` lies at or before the end. -/
def beforeEnd (r : RowRange) (row : String) : Bool :=
  match r.stop with
  | .unbounded => true
  | .included stop => decide (row ≤ stop)
  | .excluded stop => decide (row < stop)

/-- Whether `row` lies in the range. -/
def contains (r : RowRange) (row : String) : Bool := r.afterStart row && r.beforeEnd row

/-- The range in interval notation: a bracket for an included end, a parenthesis for an excluded
one, and a signed `inf` where there is none. -/
def text (r : RowRange) : String :=
  (match r.start with
    | .unbounded => "(-inf"
    | .included row => "[" ++ row
    | .excluded row => "(" ++ row)
  ++ ", " ++
  (match r.stop with
    | .unbounded => "+inf)"
    | .included row => row ++ "]"
    | .excluded row => row ++ ")")

end RowRange

end TaggedRows
