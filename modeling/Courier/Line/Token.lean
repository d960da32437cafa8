/-
Courier.Line.Token — the words of a line.

A line of input is a sequence of words with white space between them. A word is
written bare or between quotes; the bare word `--` is the break that ends the
options of a command. A `Token` is a word together with the place where it stands
in the line, counted in characters; a `Tail` is the last word of a line that is
still being typed. Places are integers, because a word that is handed to a form may
come from in front of its line.

`Token.source` writes a token as it stood in the line. Quotes are part of the
source and not of the text, backslashes are part of both: no character is ever
unescaped.
-/

namespace Courier.Line

/-- The two characters that may enclose a word. -/
inductive Quote where
  /-- The apostrophe. -/
  | single
  /-- The quotation mark. -/
  | double
  deriving DecidableEq, Repr

/-- The character of a quote. -/
def Quote.char : Quote → Char
  | .single => '\''
  | .double => '"'

/-- The quote that a character is, if it is one. -/
def Quote.ofChar? (c : Char) : Option Quote :=
  if c = '\'' then some .single else if c = '"' then some .double else none

/-- How a word is written. -/
inductive TokenKind where
  /-- Without quotes. -/
  | bare
  /-- Between quotes. -/
  | quoted (q : Quote)
  /-- The bare word `--`. -/
  | break
  deriving DecidableEq, Repr

/-- A word of a line. -/
structure Token where
  /-- The word, without its quotes. -/
  text : String
  /-- The place of its first character, an opening quote included. -/
  start : Int
  /-- The place after its last character, a closing quote included. -/
  stop : Int
  /-- How it is written. -/
  kind : TokenKind := .bare
  deriving DecidableEq, Repr

/-- A token as it stands in the line. -/
def Token.source (t : Token) : String :=
  match t.kind with
  | .quoted q => String.singleton q.char ++ t.text ++ String.singleton q.char
  | _ => t.text

/-- A word that stands nowhere in particular. -/
def Token.ofText (text : String) : Token :=
  { text, start := 0, stop := 0 }

/-- The last word of a line that is being typed, if no white space follows it yet. -/
structure Tail where
  /-- What has been typed of it, without quotes. -/
  text : String
  /-- The place of its first character, an opening quote included. -/
  start : Nat
  /-- Its opening quote, if it has one. -/
  quote : Option Quote := none
  /-- Whether the closing quote has been typed too. -/
  closed : Bool := false
  deriving DecidableEq, Repr

end Courier.Line
