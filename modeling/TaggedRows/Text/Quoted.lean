import TaggedRows.Text.Hidden
import TaggedRows.Text.Numeral

/-!
# Quoted text

Text in double quotes for a message.  A quote and a backslash are escaped by a backslash, and so are
U+0000, tab, line feed and carriage return under their letters; characters without a shape of their
own are written by their number.
-/

namespace TaggedRows.Text

/-- A character within quotes. -/
def quoteChar (c : Char) : String :=
  if c = '"' then "\\\""
  else if c = '\\' then "\\\\"
  else if c = '\x00' then "\\0"
  else if c = '\t' then "\\t"
  else if c = '\n' then "\\n"
  else if c = '\r' then "\\r"
  else if isShown c then c.toString
  else "\\u\x7b" ++ String.ofList (digits 16 c.toNat) ++ "\x7d"

/-- A text in double quotes. -/
def quote (s : String) : String :=
  "\"" ++ String.join (s.toList.map quoteChar) ++ "\""

end TaggedRows.Text
