import TaggedRows.Json.Reader
import TaggedRows.SortedMap

/-!
# Values from JSON

How values are read out of JSON.

A structure is an object, whose unknown members do not count, or a list of its fields in order.  A
field given twice is an error.  A choice is the name of an alternative, or an object of that name
alone with what comes along.
-/

namespace TaggedRows.Json

/-! ## Plain values -/

/-- A text. -/
def text? : Json → Option String
  | .string s => s
  | _ => none

/-- A text or null. -/
def optionalText? : Json → Option (Option String)
  | .null => some none
  | .string s => s.map some
  | _ => none

/-- A natural number up to `most`. -/
def natUpTo? (most : Nat) : Json → Option Nat
  | .number n => n.nat?.filter (· ≤ most)
  | _ => none

/-- An integer. -/
def int? : Json → Option Int
  | .number n => n.int?
  | _ => none

/-- The members of an object whose keys spell texts. -/
def members? : Json → Option (List (String × Json))
  | .object members => members.mapM fun (key, j) => key.map fun key => (key, j)
  | _ => none

/-- A list. -/
def list? (item? : Json → Option α) : Json → Option (List α)
  | .array items => items.mapM item?
  | _ => none

/-- Bytes as a list of numbers. -/
def bytes? (j : Json) : Option (List UInt8) :=
  (j.list? (natUpTo? 255)).map fun ns => ns.map UInt8.ofNat

/-- A map from texts to texts; of two members with one key the later stays. -/
def texts? (j : Json) : Option (SortedMap String String) := do
  let members ← j.members?
  let entries ← members.mapM fun (key, j) => j.text?.map fun text => (key, text)
  pure (.ofList entries)

/-! ## Structures -/

/-- The fields of a structure, in order. -/
structure Fields where
  /-- Whether they were given by name. -/
  named : Bool
  values : List (Option Json)

/-- The one member under any of the names, if there is one. -/
def findField (members : List (String × Json)) (names : List String) : Option (Option Json) :=
  match members.filter fun m => names.contains m.1 with
  | [] => some none
  | [m] => some (some m.2)
  | _ => none

/-- The fields of a structure, each of which goes by one or more names. -/
def fields? (names : List (List String)) : Json → Option Fields
  | .array items =>
    if items.length ≤ names.length then
      some ⟨false, items.map some ++ List.replicate (names.length - items.length) none⟩
    else none
  | j => do
    let members ← j.members?
    pure ⟨true, ← names.mapM (findField members)⟩

/-- A field that has to be there. -/
def required (value? : Json → Option α) (field : Option Json) : Option α := field.bind value?

/-- A field that has a default. -/
def withDefault (default : α) (value? : Json → Option α) : Option Json → Option α
  | none => some default
  | some j => value? j

/-! ## Choices -/

/-- The name of an alternative, and what comes along with it. -/
def choice? : Json → Option (String × Option Json)
  | .string s => s.map fun name => (name, none)
  | .object [(key, j)] => key.map fun name => (name, some j)
  | _ => none

/-- Whether nothing comes along with an alternative. -/
def isBare : Option Json → Bool
  | none => true
  | some .null => true
  | _ => false

/-! ## Writing -/

/-- A map from texts to texts. -/
def ofTexts (entries : SortedMap String String) : Json :=
  ofMembers (entries.toList.map fun (key, text) => (key, ofText text))

/-- Bytes as a list of numbers. -/
def ofBytes (bytes : List UInt8) : Json := .array (bytes.map fun b => ofNat b.toNat)

end TaggedRows.Json
