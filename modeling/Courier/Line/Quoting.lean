/-
Courier.Line.Quoting — words written so that they can be read back.

`quote text` writes a word for a line: bare where that is possible, otherwise
between quotes, preferably the ones that do not occur in it. Two predicates decide:

* `needsQuotes`: bare, the word would be read as several words, as a quoted word,
  as the break, or not at all.
* `endsEscaped`: the word ends in an odd run of backslashes. Such a word can be
  written bare at the end of a line only, because its last backslash would hold on
  to a closing quote or a space.
-/
import Courier.Line.Scanner

namespace Courier.Line

/-- Whether a list of characters, read from its end, begins with an odd run of backslashes. -/
def oddBackslashes : List Char → Bool
  | '\\' :: cs => !oddBackslashes cs
  | _ => false

/-- Whether a text ends in an odd run of backslashes. -/
def endsEscaped (text : String) : Bool :=
  oddBackslashes text.toList.reverse

/-- Whether characters would not be read back as one bare word. -/
def needsQuotesChars (cs : List Char) : Bool :=
  match cs with
  | [] => true
  | c :: _ => cs == ['-', '-'] || (Quote.ofChar? c).isSome || cs.any isSpace

/-- Whether a text would not be read back as one bare word. -/
def needsQuotes (text : String) : Bool :=
  needsQuotesChars text.toList

/-- A text between quotes. -/
def enclose (q : Quote) (text : String) : String :=
  String.singleton q.char ++ text ++ String.singleton q.char

/-- The quote to write a text with: the double one only if it saves from the single one. -/
def preferredQuote (text : String) : Quote :=
  if text.toList.contains '\'' && !text.toList.contains '"' then .double else .single

/-- A word of a line that is read back as this text. -/
def quote (text : String) : String :=
  if needsQuotes text then enclose (preferredQuote text) text else text

/-- A text between the marks asked for, whatever they are, or as `quote` writes it. -/
def quoteWith (mark : Option String) (text : String) : String :=
  match mark with
  | some mark => mark ++ text ++ mark
  | none => quote text

end Courier.Line
