/-!
# JSON values

A value keeps what its text says: numbers stay numerals and objects keep all members in order, so
that each reader decides what a number or a repeated key means to it.

A string literal may hold an escape for half of a surrogate pair alone.  It then spells no text,
which is an error only where its text is asked for.
-/

namespace TaggedRows

/-- A number as it is written, but for the spelling of its exponent. -/
structure Numeral where
  negative : Bool := false
  whole : Nat
  /-- The digits behind the point; none without a point. -/
  fraction : List Char := []
  exponent : Option Int := none
deriving DecidableEq

/-- A JSON value. -/
inductive Json where
  | null
  | bool (b : Bool)
  | number (n : Numeral)
  | string (text : Option String)
  | array (items : List Json)
  | object (members : List (Option String × Json))
deriving Inhabited

namespace Json

/-- A text. -/
def ofText (s : String) : Json := .string (some s)

/-- A text or null. -/
def ofText? : Option String → Json
  | some s => ofText s
  | none => null

/-- An integer. -/
def ofInt (i : Int) : Json := .number { negative := decide (i < 0), whole := i.natAbs }

/-- A natural number. -/
def ofNat (n : Nat) : Json := .number { whole := n }

/-- An object with the given members. -/
def ofMembers (members : List (String × Json)) : Json :=
  .object (members.map fun (key, j) => (some key, j))

/-! ## Depth -/

mutual

/-- The number of arrays and objects that stand within each other. -/
def depth : Json → Nat
  | .array items => depthItems items + 1
  | .object members => depthMembers members + 1
  | _ => 0

/-- The greatest depth of some items. -/
def depthItems : List Json → Nat
  | [] => 0
  | j :: items => max j.depth (depthItems items)

/-- The greatest depth of some members. -/
def depthMembers : List (Option String × Json) → Nat
  | [] => 0
  | (_, j) :: members => max j.depth (depthMembers members)

end

/-! ## Leaves -/

mutual

/-- Whether every literal spells a text and every number satisfies `p`. -/
def allLeaves (p : Numeral → Bool) : Json → Bool
  | .number n => p n
  | .string text => text.isSome
  | .array items => allItems p items
  | .object members => allMembers p members
  | _ => true

/-- The same of all items. -/
def allItems (p : Numeral → Bool) : List Json → Bool
  | [] => true
  | j :: items => allLeaves p j && allItems p items

/-- The same of all members and their keys. -/
def allMembers (p : Numeral → Bool) : List (Option String × Json) → Bool
  | [] => true
  | (key, j) :: members => key.isSome && allLeaves p j && allMembers p members

end

end Json

end TaggedRows
