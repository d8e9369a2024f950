import TaggedRows.Json.Numeral

/-!
# Writing JSON

Values as text without white space.  In strings only quotes, backslashes and the characters below
U+0020 are escaped, by a letter where there is one.
-/

namespace TaggedRows.Json

open TaggedRows.Text

/-- A digit below 16 in lowercase hexadecimal. -/
def hexDigit (n : Nat) : Char := digitChar (n % 16)

/-- A character within a string literal. -/
def escapeChar (c : Char) : List Char :=
  if c = '"' then ['\\', '"']
  else if c = '\\' then ['\\', '\\']
  else if c = '\x08' then ['\\', 'b']
  else if c = '\x0c' then ['\\', 'f']
  else if c = '\n' then ['\\', 'n']
  else if c = '\r' then ['\\', 'r']
  else if c = '\t' then ['\\', 't']
  else if c.toNat < 0x20 then ['\\', 'u', '0', '0', hexDigit (c.toNat / 16), hexDigit c.toNat]
  else [c]

/-- A string literal.  One that spells no text is written as half of a surrogate pair. -/
def literalChars : Option String → List Char
  | some s => '"' :: (s.toList.flatMap escapeChar ++ ['"'])
  | none => "\"\\ud800\"".toList

mutual

/-- The characters of a value. -/
def chars : Json → List Char
  | .null => "null".toList
  | .bool true => "true".toList
  | .bool false => "false".toList
  | .number n => n.text.toList
  | .string s => literalChars s
  | .array [] => ['[', ']']
  | .array (j :: items) => '[' :: (j.chars ++ (itemsChars items ++ [']']))
  | .object [] => ['\x7b', '\x7d']
  | .object ((key, j) :: members) =>
    '\x7b' :: (literalChars key ++ (':' :: (j.chars ++ (membersChars members ++ ['\x7d']))))

/-- The items of an array behind the first. -/
def itemsChars : List Json → List Char
  | [] => []
  | j :: items => ',' :: (j.chars ++ itemsChars items)

/-- The members of an object behind the first. -/
def membersChars : List (Option String × Json) → List Char
  | [] => []
  | (key, j) :: members => ',' :: (literalChars key ++ (':' :: (j.chars ++ membersChars members)))

end

/-- A value as text. -/
def text (j : Json) : String := String.ofList j.chars

end TaggedRows.Json
