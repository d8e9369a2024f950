import TaggedRows.Json.Numeral

/-!
# JSON tokens

Text cut into tokens by a machine that reads one character at a time.  What stands between quotes is
collected in pieces, characters and the numbers of `\u` escapes, which are put together at the end:
two escapes for the halves of a surrogate pair make one character.
-/

namespace TaggedRows.Json

open TaggedRows.Text

/-- A token. -/
inductive Token where
  | openArray
  | closeArray
  | openObject
  | closeObject
  | comma
  | colon
  | string (text : Option String)
  /-- A value without parts: null, a truth value or a number. -/
  | atom (value : Json)

/-- A piece of a string literal. -/
inductive Piece where
  | char (c : Char)
  | code (unit : Nat)

/-- The text of a string literal, unless half of a surrogate pair stands alone. -/
def joinPieces : List Piece → Option (List Char)
  | [] => some []
  | .char c :: ps => (joinPieces ps).map (c :: ·)
  | .code high :: .code low :: ps =>
    if 0xD800 ≤ high ∧ high < 0xDC00 ∧ 0xDC00 ≤ low ∧ low < 0xE000 then
      (joinPieces ps).map (Char.ofNat (0x10000 + (high - 0xD800) * 1024 + (low - 0xDC00)) :: ·)
    else if 0xD800 ≤ high ∧ high < 0xE000 then none
    else (joinPieces (.code low :: ps)).map (Char.ofNat high :: ·)
  | .code unit :: ps =>
    if 0xD800 ≤ unit ∧ unit < 0xE000 then none
    else (joinPieces ps).map (Char.ofNat unit :: ·)

/-- What the machine is reading; what it has collected stands in reverse. -/
inductive Mode where
  | between
  | word (read : List Char)
  | literal (read : List Piece)
  | escape (read : List Piece)
  | code (read : List Piece) (unit digitsLeft : Nat)

/-- Whether numbers and the names of values are made of the character. -/
def isWordChar (c : Char) : Bool := c.isAlphanum || c == '+' || c == '-' || c == '.'

/-- The token that a word is. -/
def wordToken? (word : List Char) : Option Token :=
  if word = "null".toList then some (.atom .null)
  else if word = "true".toList then some (.atom (.bool true))
  else if word = "false".toList then some (.atom (.bool false))
  else (Numeral.ofChars? word).map fun n => .atom (.number n)

/-- Read a character between tokens. -/
def startToken (c : Char) : Option (List Token × Mode) :=
  if c = ' ' ∨ c = '\t' ∨ c = '\n' ∨ c = '\r' then some ([], .between)
  else if c = '[' then some ([.openArray], .between)
  else if c = ']' then some ([.closeArray], .between)
  else if c = '\x7b' then some ([.openObject], .between)
  else if c = '\x7d' then some ([.closeObject], .between)
  else if c = ',' then some ([.comma], .between)
  else if c = ':' then some ([.colon], .between)
  else if c = '"' then some ([], .literal [])
  else if isWordChar c then some ([], .word [c])
  else none

/-- The character that a backslash and a letter stand for. -/
def unescape? (c : Char) : Option Char :=
  if c = '"' ∨ c = '\\' ∨ c = '/' then some c
  else if c = 'b' then some '\x08'
  else if c = 'f' then some '\x0c'
  else if c = 'n' then some '\n'
  else if c = 'r' then some '\r'
  else if c = 't' then some '\t'
  else none

/-- The value of a hexadecimal digit. -/
def hexValue? (c : Char) : Option Nat :=
  if c.isDigit then some (c.toNat - 48)
  else if 'a' ≤ c ∧ c ≤ 'f' then some (c.toNat - 87)
  else if 'A' ≤ c ∧ c ≤ 'F' then some (c.toNat - 55)
  else none

/-- Read one character: the tokens that end with it, and what is read next. -/
def readChar : Mode → Char → Option (List Token × Mode)
  | .between, c => startToken c
  | .word read, c =>
    if isWordChar c then some ([], .word (c :: read))
    else do
      let token ← wordToken? read.reverse
      let (tokens, mode) ← startToken c
      pure (token :: tokens, mode)
  | .literal read, c =>
    if c = '"' then
      some ([.string ((joinPieces read.reverse).map String.ofList)], .between)
    else if c = '\\' then some ([], .escape read)
    else if c.toNat < 0x20 then none
    else some ([], .literal (.char c :: read))
  | .escape read, c =>
    if c = 'u' then some ([], .code read 0 4)
    else (unescape? c).map fun d => ([], .literal (.char d :: read))
  | .code read unit digitsLeft, c => do
    let unit := unit * 16 + (← hexValue? c)
    pure ([],
      if digitsLeft ≤ 1 then .literal (.code unit :: read) else .code read unit (digitsLeft - 1))

/-- The tokens at the end of the text. -/
def finish : Mode → Option (List Token)
  | .between => some []
  | .word read => (wordToken? read.reverse).map fun token => [token]
  | _ => none

/-- The tokens of a text, read on from a mode. -/
def tokensFrom : Mode → List Char → Option (List Token)
  | mode, [] => finish mode
  | mode, c :: cs => do
    let (tokens, mode) ← readChar mode c
    pure (tokens ++ (← tokensFrom mode cs))

/-- The tokens of a text. -/
def tokens? (s : String) : Option (List Token) := tokensFrom .between s.toList

end TaggedRows.Json
