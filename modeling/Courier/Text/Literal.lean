/-
Courier.Text.Literal — a text between quotes in which everything can be seen.

A failure names the path or the text that it is about, and a node of the grammar
names its path. Such a text may hold anything, so that it is written as a literal:

* The quotes are apostrophes, unless the text holds an apostrophe and no quotation
  mark; then they are quotation marks (`literalQuote`).
* A backslash and the quote itself stand behind a backslash.
* A character that cannot be seen is written by an escape: `\n`, `\r` or `\t`, or its
  number in two, four or eight hexadecimal digits behind `\x`, `\u` or `\U`.
* Every other character stands for itself, whatever its script.
-/
import Courier.Text.Basic
import Courier.Text.Hex
import Courier.Text.HiddenTable

namespace Courier.Text

/-- Whether a character can be seen; of the blanks only the space can. -/
def isVisible (c : Char) : Bool :=
  if c.toNat < 0x7F then 0x20 ≤ c.toNat else !inRanges hiddenRanges c

/-- The quote of the literal of a text. -/
def literalQuote (cs : List Char) : Char :=
  if cs.contains '\'' && !cs.contains '"' then '"' else '\''

/-- The escape that names a character by its number. -/
def numberEscape (c : Char) : List Char :=
  let n := c.toNat
  if n < 0x100 then '\\' :: 'x' :: hexDigits 2 n
  else if n < 0x10000 then '\\' :: 'u' :: hexDigits 4 n
  else '\\' :: 'U' :: hexDigits 8 n

/-- A character between such quotes. -/
def literalChar (quote c : Char) : List Char :=
  if c = quote || c = '\\' then ['\\', c]
  else if c = '\n' then ['\\', 'n']
  else if c = '\r' then ['\\', 'r']
  else if c = '\t' then ['\\', 't']
  else if isVisible c then [c]
  else numberEscape c

/-- A text between quotes in which everything can be seen. -/
def literal (s : String) : String :=
  let quote := literalQuote s.toList
  String.ofList (quote :: s.toList.flatMap (literalChar quote) ++ [quote])

end Courier.Text
