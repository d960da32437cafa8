/-
Courier.Text.Blank — white space beyond the space bar.

`isBlank` is the class of characters that `strip` removes: every character
with the Unicode property White_Space, and the four information separators
U+001C to U+001F. The zero width space U+200B and the byte order mark U+FEFF
are not blank. Names, header keys and header values are stored stripped.

The line reader does not use this class: between the words of a line only the
space and the tab count.
-/

namespace Courier.Text

/-- White space in the sense of names and headers. -/
def isBlank (c : Char) : Bool :=
  let n := c.toNat
  (0x09 ≤ n && n ≤ 0x0D) || (0x1C ≤ n && n ≤ 0x20) || n == 0x85 || n == 0xA0 || n == 0x1680 ||
    (0x2000 ≤ n && n ≤ 0x200A) || n == 0x2028 || n == 0x2029 || n == 0x202F || n == 0x205F ||
    n == 0x3000

/-- The characters without the blanks at the end. -/
def stripEndChars (cs : List Char) : List Char :=
  (cs.reverse.dropWhile isBlank).reverse

/-- The characters without the blanks at both ends. -/
def stripChars (cs : List Char) : List Char :=
  stripEndChars (cs.dropWhile isBlank)

/-- A text without the blanks at its end. -/
def stripEnd (s : String) : String :=
  String.ofList (stripEndChars s.toList)

/-- A text without the blanks at both ends. -/
def strip (s : String) : String :=
  String.ofList (stripChars s.toList)

end Courier.Text
