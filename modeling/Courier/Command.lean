/-
Courier.Command — what a line asks for.

A `Command` is a line that has been understood: one case for each leaf of the tree
of commands, with the values that it needs. `Command.ofFields` makes it from the
fields that a builder has gathered, by the names that `Courier.Grammar.Table` gives
them.

`Command.ofLine` is the whole way from a line to a command: words, name, values. A blank
line asks for nothing. Whatever goes wrong is a `ParseError`.
-/
import Courier.Grammar.Builder
import Courier.Grammar.Table
import Courier.Text.Blank

namespace Courier

open Courier.Grammar Courier.Line Courier.Text

/-! ## Commands -/

/-- What a line asks for. -/
inductive Command where
  /-- List the requests whose name passes the filters. -/
  | printRequests (filters : List String)
  /-- List the variables whose name passes the filters. -/
  | printVariables (filters : List String)
  /-- List the environments. -/
  | printEnvironments
  /-- List the workspaces. -/
  | printWorkspaces
  /-- List the options whose name passes the filters. -/
  | printOptions (filters : List String)
  /-- Store a request. -/
  | createRequest (name url : String) (method : Option String) (headers : List String)
      (body : Option String)
  /-- Store a variable; each pair gives its value in one environment. -/
  | createVariable (name : String) (pairs : List String)
  /-- Delete requests. -/
  | deleteRequests (names : List String)
  /-- Delete variables, by name or by number. -/
  | deleteVariables (names : List String)
  /-- Delete options. -/
  | deleteOptions (names : List String)
  /-- Select an environment, or none. -/
  | setEnvironment (name : Option String)
  /-- Switch to a workspace. -/
  | setWorkspace (name : String)
  /-- Select a request, or none. -/
  | setRequest (name : Option String)
  /-- Give an option of the selected request its values. -/
  | setOption (name : String) (values : List String)
  /-- Send a request. -/
  | run (name : Option String) (quiet : Bool)
  /-- Save part of each response of the selected request. -/
  | extract (source path variableName : String)
  /-- Show the selected request. -/
  | info
  /-- Show help, for one command or for all. -/
  | help (topic : List String)
  /-- Clear the screen. -/
  | clear
  /-- Leave. -/
  | exit
  deriving DecidableEq, Repr

/-- The kind of a command. -/
def Command.kind : Command → CommandKind
  | .printRequests _ => .printRequests
  | .printVariables _ => .printVariables
  | .printEnvironments => .printEnvironments
  | .printWorkspaces => .printWorkspaces
  | .printOptions _ => .printOptions
  | .createRequest .. => .createRequest
  | .createVariable .. => .createVariable
  | .deleteRequests _ => .deleteRequests
  | .deleteVariables _ => .deleteVariables
  | .deleteOptions _ => .deleteOptions
  | .setEnvironment _ => .setEnvironment
  | .setWorkspace _ => .setWorkspace
  | .setRequest _ => .setRequest
  | .setOption .. => .setOption
  | .run .. => .run
  | .extract .. => .extract
  | .info => .info
  | .help _ => .help
  | .clear => .clear
  | .exit => .exit

/-! ## From fields -/

/-- The text in a field, if it has one. -/
def textField? (fields : List (String × FieldValue)) (name : String) : Option String :=
  match fields.lookup name with
  | some (.text value) => some value
  | _ => none

/-- The text in a field that is always filled. -/
def textField (fields : List (String × FieldValue)) (name : String) : String :=
  (textField? fields name).getD ""

/-- The texts in a field. -/
def textsField (fields : List (String × FieldValue)) (name : String) : List String :=
  match fields.lookup name with
  | some (.texts values) => values
  | _ => []

/-- Whether a flag is set. -/
def flagField (fields : List (String × FieldValue)) (name : String) : Bool :=
  match fields.lookup name with
  | some (.flag given) => given
  | _ => false

/-- The command of a kind with these fields. -/
def Command.ofFields (kind : CommandKind) (fields : List (String × FieldValue)) : Command :=
  match kind with
  | .printRequests => .printRequests (textsField fields "filters")
  | .printVariables => .printVariables (textsField fields "filters")
  | .printEnvironments => .printEnvironments
  | .printWorkspaces => .printWorkspaces
  | .printOptions => .printOptions (textsField fields "filters")
  | .createRequest =>
    .createRequest (textField fields "name") (textField fields "url") (textField? fields "method")
      (textsField fields "headers") (textField? fields "body")
  | .createVariable => .createVariable (textField fields "name") (textsField fields "env_vals")
  | .deleteRequests => .deleteRequests (textsField fields "names")
  | .deleteVariables => .deleteVariables (textsField fields "names")
  | .deleteOptions => .deleteOptions (textsField fields "names")
  | .setEnvironment => .setEnvironment (textField? fields "name")
  | .setWorkspace => .setWorkspace (textField fields "name")
  | .setRequest => .setRequest (textField? fields "name")
  | .setOption => .setOption (textField fields "name") (textsField fields "values")
  | .run => .run (textField? fields "name") (flagField fields "quiet")
  | .extract =>
    .extract (textField fields "source") (textField fields "key") (textField fields "to_var")
  | .info => .info
  | .help => .help (textsField fields "topic")
  | .clear => .clear
  | .exit => .exit

/-- The command that a filled form of this kind asks for. -/
def Command.ofFilled (kind : CommandKind) : Filled → Command
  | .help path => .help path
  | .fields entries => .ofFields kind entries

/-! ## Finding the command -/

/-- How far down the tree the words of a line lead. -/
structure Walk where
  /-- The deepest node that they reach. -/
  node : Node
  /-- The words after it. -/
  remaining : List Token
  /-- Whether no word failed to name a child of a group. -/
  matched : Bool

/-- Goes down the tree from a node as far as the words lead. -/
def walkFrom (node : Node) : List Token → Walk
  | [] => ⟨node, [], true⟩
  | t :: ts =>
    if node.isLeaf then ⟨node, t :: ts, true⟩
    else
      match node.child? t.text with
      | none => ⟨node, t :: ts, false⟩
      | some child => walkFrom child ts

/-- Goes down the tree of all commands. -/
def walk (tokens : List Token) : Walk := walkFrom root tokens

/--
The command that the words begin with, and the words after its name. A line that
stops at a group is reported at the place `stop`.
-/
def findLeaf (tokens : List Token) (stop : Int) : Except ParseError (Node × List Token) :=
  let w := walk tokens
  if w.matched then
    if w.node.isLeaf then .ok (w.node, w.remaining)
    else .error (.missingSubcommand w.node.pathText w.node.childNames stop)
  else
    match w.remaining with
    | [] => .ok (w.node, [])
    | t :: _ =>
      if w.node.path.isEmpty then .error (.unknownCommand t w.node.childNames)
      else .error (.unknownSubcommand t w.node.pathText w.node.childNames)

/-! ## Lines -/

/-- The place after the last word of a command name; the words behind it are left. -/
def nameStop (tokens remaining : List Token) : Int :=
  ((tokens.take (tokens.length - remaining.length)).getLast?.map Token.stop).getD 0

/-- The words of a line. -/
def readTokens (line : String) : Except ParseError (List Token) :=
  (tokenize line).mapError ParseError.quote

/-- The command that words ask for, on a line of which so many characters are not blank. -/
def Command.ofTokens (tokens : List Token) (stop : Int) : Except ParseError Command := do
  let (node, remaining) ← findLeaf tokens stop
  match { node, offset := nameStop tokens remaining : Builder }.consume remaining with
  | (_, some e) => throw e
  | (b, none) => return .ofFilled node.spec.kind (← b.finish)

/-- The command that a line asks for; a blank line asks for nothing. -/
def Command.ofLine (line : String) : Except ParseError (Option Command) := do
  match ← readTokens line with
  | [] => return none
  | tokens => return some (← Command.ofTokens tokens (stripEnd line).length)

end Courier
