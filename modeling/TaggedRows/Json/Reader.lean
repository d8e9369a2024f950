import TaggedRows.Json.Token

/-!
# Reading JSON

Tokens put together to a value by a machine with a stack.  The stack holds the arrays and objects
that are still open around the place of reading.
-/

namespace TaggedRows.Json

/-- An array or object that waits for the value within it; what it holds already stands in
reverse. -/
inductive Frame where
  | array (items : List Json)
  | object (members : List (Option String × Json)) (key : Option String)

/-- What may come next; what is collected of the innermost array or object stands in reverse. -/
inductive Expected where
  | value
  | firstItem
  | firstKey
  | key (members : List (Option String × Json))
  | colon (members : List (Option String × Json)) (key : Option String)
  | itemEnd (items : List Json)
  | memberEnd (members : List (Option String × Json))
  | nothing (value : Json)

/-- Put a finished value into what is open around it. -/
def complete : List Frame → Json → List Frame × Expected
  | [], j => ([], .nothing j)
  | .array items :: frames, j => (frames, .itemEnd (j :: items))
  | .object members key :: frames, j => (frames, .memberEnd ((key, j) :: members))

/-- Read the first token of a value. -/
def startValue (frames : List Frame) : Token → Option (List Frame × Expected)
  | .atom j => some (complete frames j)
  | .string text => some (complete frames (.string text))
  | .openArray => some (frames, .firstItem)
  | .openObject => some (frames, .firstKey)
  | _ => none

/-- Read one token. -/
def readToken (frames : List Frame) : Expected → Token → Option (List Frame × Expected)
  | .value, token => startValue frames token
  | .firstItem, .closeArray => some (complete frames (.array []))
  | .firstItem, token => startValue (.array [] :: frames) token
  | .firstKey, .closeObject => some (complete frames (.object []))
  | .firstKey, .string key => some (frames, .colon [] key)
  | .key members, .string key => some (frames, .colon members key)
  | .colon members key, .colon => some (.object members key :: frames, .value)
  | .itemEnd items, .comma => some (.array items :: frames, .value)
  | .itemEnd items, .closeArray => some (complete frames (.array items.reverse))
  | .memberEnd members, .comma => some (frames, .key members)
  | .memberEnd members, .closeObject => some (complete frames (.object members.reverse))
  | _, _ => none

/-- The value that tokens make up. -/
def ofTokens? : List Frame → Expected → List Token → Option Json
  | _, .nothing j, [] => some j
  | _, _, [] => none
  | frames, expected, token :: tokens => do
    let (frames, expected) ← readToken frames expected token
    ofTokens? frames expected tokens

/-- Read a value. -/
def read? (s : String) : Option Json := do ofTokens? [] .value (← tokens? s)

end TaggedRows.Json
