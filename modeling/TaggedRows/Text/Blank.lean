/-!
# Blank text

White space is the set of characters with the Unicode property `White_Space`; text is blank when
it holds nothing else.
-/

namespace TaggedRows.Text

/-- The characters with the Unicode property `White_Space`. -/
def isBlankChar (c : Char) : Bool :=
  let n := c.toNat
  (9 ≤ n && n ≤ 13) || n == 0x20 || n == 0x85 || n == 0xA0 || n == 0x1680 ||
    (0x2000 ≤ n && n ≤ 0x200A) || n == 0x2028 || n == 0x2029 || n == 0x202F || n == 0x205F ||
    n == 0x3000

/-- The text from its first character on that is not white space. -/
def trimStart (cs : List Char) : List Char := cs.dropWhile isBlankChar

/-- The text up to its last character that is not white space. -/
def trimEnd (cs : List Char) : List Char := (cs.reverse.dropWhile isBlankChar).reverse

/-- The text without the white space at its two ends. -/
def trim (s : String) : String := String.ofList (trimEnd (trimStart s.toList))

/-- Whether the text holds nothing but white space. -/
def isBlank (s : String) : Bool := s.toList.all isBlankChar

end TaggedRows.Text
