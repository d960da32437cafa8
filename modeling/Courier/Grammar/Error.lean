/-
Courier.Grammar.Error — why a line is no command.

A `ParseError` is the cause of a refused line, found in one of four stages: the
quotes of the line, the names of the command, the words behind it, and the command
as a whole. Each cause carries what its message and its place are made of:

* `message` is what the shell says,
* `offset` and `stop` are the part of the line that it points at; they are equal if
  something is missing there,
* `token?` is the word at fault, if there is one.
-/
import Courier.Grammar.Spec
import Courier.Line.Scanner

namespace Courier.Grammar

open Courier.Text Courier.Line

/-- Why a line is no command. -/
inductive ParseError where
  /-- A quote is not in order. -/
  | quote (cause : QuoteError)
  /-- The first word is no command. -/
  | unknownCommand (token : Token) (valid : List String)
  /-- A later word is no command of the group. -/
  | unknownSubcommand (token : Token) (path : String) (valid : List String)
  /-- The line ends at a group. -/
  | missingSubcommand (path : String) (valid : List String) (place : Int)
  /-- A word with a dash in front is no option. -/
  | unknownOption (token : Token)
  /-- An option that takes a value has none; the token is the option. -/
  | missingOptionValue (token : Token)
  /-- An option is given again. -/
  | tooManyValues (spelling : String) (token : Token)
  /-- No slot is left for a value. -/
  | unexpectedArgument (token : Token)
  /-- A required value is missing. -/
  | missingArgument (arg : SlotRole) (metavar : String) (place : Int)
  /-- A required option is missing. -/
  | missingOption (option : OptionRole) (spelling : String) (place : Int)
  /-- A value is refused. -/
  | invalidValue (token : Token) (reason : String)
  deriving DecidableEq, Repr

namespace ParseError

/-- What the shell says, with the names that would have been accepted. -/
def withValid (what : String) (valid : List String) : String :=
  what ++ ". Expected one of: " ++ commaList valid

/-- What the shell says about a refused line. -/
def message : ParseError → String
  | .quote (.unterminated _) => "Unterminated quote"
  | .quote (.trailing _) => "Unexpected characters after closing quote (add a space)"
  | .unknownCommand token valid => withValid ("Unknown command '" ++ token.text ++ "'") valid
  | .unknownSubcommand token path valid =>
    withValid ("Unknown subcommand '" ++ token.text ++ "' for '" ++ path ++ "'") valid
  | .missingSubcommand path valid _ => withValid ("'" ++ path ++ "' needs a subcommand") valid
  | .unknownOption token => "Unknown option '" ++ token.text ++ "'"
  | .missingOptionValue token => "Option '" ++ token.text ++ "' requires a value"
  | .tooManyValues spelling _ => "Option '" ++ spelling ++ "' can only be given once"
  | .unexpectedArgument token => "Unexpected argument '" ++ token.text ++ "'"
  | .missingArgument _ metavar _ => "Missing required argument <" ++ metavar ++ ">"
  | .missingOption _ spelling _ => "Missing required option '" ++ spelling ++ "'"
  | .invalidValue _ reason => reason

/-- The word at fault. -/
def token? : ParseError → Option Token
  | .unknownCommand token _ => some token
  | .unknownSubcommand token _ _ => some token
  | .unknownOption token => some token
  | .missingOptionValue token => some token
  | .tooManyValues _ token => some token
  | .unexpectedArgument token => some token
  | .invalidValue token _ => some token
  | _ => none

/-- The place that a message about something missing points at. -/
def place : ParseError → Int
  | .quote (.unterminated place) => place
  | .quote (.trailing place) => place
  | .missingSubcommand _ _ place => place
  | .missingArgument _ _ place => place
  | .missingOption _ _ place => place
  | _ => 0

/-- The place of the first character at fault. -/
def offset (e : ParseError) : Int :=
  match e.token? with
  | some token => token.start
  | none => e.place

/-- The place after the last character at fault. -/
def stop (e : ParseError) : Int :=
  match e.token? with
  | some token => token.stop
  | none => e.place

end ParseError

end Courier.Grammar
