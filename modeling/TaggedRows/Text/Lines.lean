/-!
# Lines

Bytes and text cut into lines.  A line ends at a line feed, and a carriage return right before that
line feed belongs to the line's end; the last line of an input may lack its end.
-/

namespace TaggedRows.Text

/-- Put a byte in front of the first line. -/
def pushByte (b : UInt8) : List (List UInt8) → List (List UInt8)
  | [] => [[b]]
  | line :: lines => (b :: line) :: lines

/-- The lines of the bytes, without their ends. -/
def lines : List UInt8 → List (List UInt8)
  | [] => []
  | 13 :: 10 :: bytes => [] :: lines bytes
  | 10 :: bytes => [] :: lines bytes
  | b :: bytes => pushByte b (lines bytes)

/-- The first line of a text that is printed with a line feed after it. -/
def firstLine : List Char → List Char
  | [] => []
  | ['\r'] => []
  | '\r' :: '\n' :: _ => []
  | '\n' :: _ => []
  | c :: text => c :: firstLine text

end TaggedRows.Text
