/-
Courier.Failure — why an operation was not done.

There are two ways in which an operation can go wrong.

* A `Refusal` is an answer of the shell: something does not exist, was not given, or
  was given in a form that is not accepted. The shell prints it and goes on.
* The other failures are not foreseen by the shell. The store has constraints of its
  own (`Constraint`), a text taken for a number may be none, a number may be too large
  for a row, a home directory may be unknown, a path may hold a NUL, a document may lie
  too deep in itself, a workspace that was there may be out of reach. The shell reports
  them as unexpected.

`message` gives the wording of each.
-/
import Courier.Http.Method
import Courier.Json.Path
import Courier.Text.Literal
import Courier.Grammar.Table

namespace Courier

open Courier.Text Courier.Http Courier.Grammar

/-- What is wrong with an input that is refused. -/
inductive InputFault where
  /-- The name of a request is blank. -/
  | blankRequestName
  /-- The URL of a request is blank. -/
  | blankUrl
  /-- A request has no such method. -/
  | unknownMethod (method : String)
  /-- A header has no key. -/
  | malformedHeader (header : String)
  /-- The file of a body cannot be read. -/
  | unreadableBody (path reason : String)
  /-- A request with this name is stored already. -/
  | requestExists (name : String)
  /-- A pair has no environment. -/
  | malformedPair (pair : String)
  /-- The name of a variable is blank. -/
  | blankVariableName
  /-- Two pairs are for one environment. -/
  | repeatedEnvironment (env : String)
  /-- A variable is given no value. -/
  | noPairs
  /-- Nothing can be taken from this part of a response. -/
  | unknownSource (source : String)
  /-- A request whose response is saved needs an environment to save it in. -/
  | environmentNeeded
  /-- There is no command with this name to help with. -/
  | noHelp (topic : List String)
  deriving DecidableEq, Repr

/-- The wording of an input that is refused. -/
def InputFault.message : InputFault → String
  | .blankRequestName => "Request name cannot be empty"
  | .blankUrl => "Request URL cannot be empty"
  | .unknownMethod method =>
    "Invalid method '" ++ method ++ "'. Must be one of: " ++ commaList methods
  | .malformedHeader header => "Invalid header '" ++ header ++ "'. Expected 'Key: Value'"
  | .unreadableBody path reason => "Cannot read body from '" ++ path ++ "': " ++ reason
  | .requestExists name => "Request '" ++ name ++ "' already exists"
  | .malformedPair pair => "Invalid environment value pair '" ++ pair ++ "'. Expected env=value"
  | .blankVariableName => "Variable name cannot be empty"
  | .repeatedEnvironment env => "Multiple values provided for environment '" ++ env ++ "'"
  | .noPairs => "Expected at least one env=value argument"
  | .unknownSource source =>
    "Invalid source '" ++ source ++ "'. Must be one of: " ++ commaList extractionSources
  | .environmentNeeded =>
    "The request contains extractions and must be run from an environment. " ++
      "Try 'set environment <name>' first."
  | .noHelp topic => "No help for '" ++ " ".intercalate topic ++ "'"

/-- An answer of the shell to what it will not do. -/
inductive Refusal where
  /-- No request has this name. -/
  | requestNotFound (name : String)
  /-- No variable has this name or number. -/
  | variableNotFound (nameOrId : String)
  /-- A workspace has no proper name or cannot be opened. -/
  | workspace (name reason : String)
  /-- An input is not accepted. -/
  | invalidInput (fault : InputFault)
  /-- Placeholders of a request have no value. -/
  | missingValues (request : String) (names : List String)
  /-- A command is about the selected request, and none is selected. -/
  | noRequestSelected (command : String)
  /-- A request could not be sent. -/
  | requestFailed (request reason : String)
  deriving DecidableEq, Repr

/-- The wording of a refusal. -/
def Refusal.message : Refusal → String
  | .requestNotFound name => "Request '" ++ name ++ "' not found"
  | .variableNotFound nameOrId => "Variable '" ++ nameOrId ++ "' not found"
  | .workspace name reason => "Workspace '" ++ name ++ "': " ++ reason
  | .invalidInput fault => fault.message
  | .missingValues request names =>
    "Request '" ++ request ++ "' is missing values for: " ++ commaList names
  | .noRequestSelected command =>
    "'" ++ command ++ "' is only available in a request context. " ++
      "Try 'set request <name>' first."
  | .requestFailed request reason => "Request '" ++ request ++ "' failed: " ++ reason

/-- A rule that the rows of a store obey. -/
inductive Constraint where
  /-- Request names are unique. -/
  | uniqueRequest
  /-- Options, extractions and responses belong to a request. -/
  | existingRequest
  /-- Values are extracted from headers or bodies. -/
  | knownSource
  deriving DecidableEq, Repr

/-- The wording of a broken rule. -/
def Constraint.message : Constraint → String
  | .uniqueRequest => "UNIQUE constraint failed: requests.name"
  | .existingRequest => "FOREIGN KEY constraint failed"
  | .knownSource => "CHECK constraint failed: source IN ('header', 'body')"

/-- Why the system does not do something with a path. -/
inductive IoFault where
  /-- There is nothing there. -/
  | noEntry
  /-- Something is there already. -/
  | exists
  /-- The path goes through a file. -/
  | notADirectory
  /-- The path leads to a directory. -/
  | isADirectory
  /-- A name, or the path, is too long. -/
  | nameTooLong
  deriving DecidableEq, Repr

/-- The number of a failure. -/
def IoFault.number : IoFault → Nat
  | .noEntry => 2
  | .exists => 17
  | .notADirectory => 20
  | .isADirectory => 21
  | .nameTooLong => 36

/-- The wording of a failure. -/
def IoFault.reason : IoFault → String
  | .noEntry => "No such file or directory"
  | .exists => "File exists"
  | .notADirectory => "Not a directory"
  | .isADirectory => "Is a directory"
  | .nameTooLong => "File name too long"

/-- A failure with its number and the path that it is about. -/
def IoFault.report (fault : IoFault) (path : String) : String :=
  "[Errno " ++ toString fault.number ++ "] " ++ fault.reason ++ ": " ++ literal path

/-- Why the rows of a workspace are out of reach. -/
inductive StorageFault where
  /-- The data directory at this path cannot be looked into or made. -/
  | directory (fault : IoFault) (path : String)
  /-- There is no file for the rows, and none can be made. -/
  | cannotOpen
  /-- The name of the database asks for something that there is not. -/
  | noSuch (kind value : String)
  /-- The name of the database asks for a mode after one that allows less. -/
  | modeNotAllowed (value : String)
  /-- The file is something else than a database. -/
  | notADatabase
  /-- The file is a database of a later time. -/
  | unknownFormat
  /-- The file is a database and does not hold together. -/
  | malformed
  /-- The database must not be changed. -/
  | readOnly
  /-- A file beside the database cannot be used. -/
  | ioError
  deriving DecidableEq, Repr

/-- The wording of rows that are out of reach. -/
def StorageFault.message : StorageFault → String
  | .directory fault path => fault.report path
  | .cannotOpen => "unable to open database file"
  | .noSuch kind value => "no such " ++ kind ++ ": " ++ value
  | .modeNotAllowed value => "access mode not allowed: " ++ value
  | .notADatabase => "file is not a database"
  | .unknownFormat => "unsupported file format"
  | .malformed => "database disk image is malformed"
  | .readOnly => "attempt to write a readonly database"
  | .ioError => "disk I/O error"

/-- What is wrong with a place in a line that an editor asks about. -/
inductive CursorFault where
  /-- It lies behind the end of the line. -/
  | behindEnd (cursor : Int) (length : Nat)
  /-- It lies in front of the line. -/
  | beforeStart
  deriving DecidableEq, Repr

/-- The wording of a place that is outside a line; there is none for the one in front of it. -/
def CursorFault.message : CursorFault → String
  | .behindEnd cursor length =>
    "cursor_position=" ++ toString cursor ++ ", len_text=" ++ toString length
  | .beforeStart => ""

/-- The wording of a text that is none because of the halves of pairs in it. -/
def loneHalfMessage (us : Units) : String :=
  let (place, halves) := loneHalves us
  let spot := match halves with
    | [n] => "character '\\u" ++ String.ofList (hexDigits 4 n) ++ "' in position " ++ toString place
    | _ =>
      "characters in position " ++ toString place ++ "-" ++ toString (place + halves.length - 1)
  "'utf-8' codec can't encode " ++ spot ++ ": surrogates not allowed"

/-- The name of a container. -/
def containerName : Json.Container → String
  | .array => "array"
  | .object => "object"

/-- Why an operation was not done. -/
inductive Failure where
  /-- The shell refused it. -/
  | refused (refusal : Refusal)
  /-- A row would have broken a rule of the store. -/
  | constraint (broken : Constraint)
  /-- A text taken for a number is none. -/
  | numeral (cause : NumeralError)
  /-- A number is too large for a row. -/
  | integerOutOfRange
  /-- The home directory of a user is not known. -/
  | unknownHome
  /-- A path holds a NUL character. -/
  | nulInPath
  /-- The rows of the current workspace, or the data directory, are out of reach. -/
  | storage (fault : StorageFault)
  /-- The containers of a document lie too deep in each other. -/
  | tooDeep (kind : Json.Container)
  /-- What should be stored is no text, because half of a pair stands alone in it. -/
  | loneHalf (us : Units)
  /-- A pattern is too long to be looked for. -/
  | patternTooLong
  /-- The prompt holds a character that cannot be shown; its line and column. -/
  | unreadablePrompt (line column : Nat)
  /-- A console cannot lay out what is printed on it, and says why. -/
  | unprintable (reason : String)
  /-- An editor asked about a place that is outside the line. -/
  | cursor (fault : CursorFault)
  deriving DecidableEq, Repr

/-- The wording of a failure. -/
def Failure.message : Failure → String
  | .refused refusal => refusal.message
  | .constraint broken => broken.message
  | .numeral cause => cause.message
  | .integerOutOfRange => "Python int too large to convert to SQLite INTEGER"
  | .unknownHome => "Could not determine home directory."
  | .nulInPath => "embedded null byte"
  | .storage fault => fault.message
  | .tooDeep kind =>
    "maximum recursion depth exceeded while decoding a JSON " ++ containerName kind
      ++ " from a unicode string"
  | .loneHalf us => loneHalfMessage us
  | .patternTooLong => "LIKE or GLOB pattern too complex"
  | .cursor fault => fault.message
  | .unprintable reason => reason
  | .unreadablePrompt line column =>
    "not well-formed (invalid token): line " ++ toString line ++ ", column " ++ toString column

/-- The failure that an input is not accepted. -/
def Failure.input (fault : InputFault) : Failure := .refused (.invalidInput fault)

/-- The failure that it cannot be said what a path selects. -/
def Failure.selection : Json.SelectFault → Failure
  | .numeral cause => .numeral cause
  | .tooDeep kind => .tooDeep kind

end Courier
