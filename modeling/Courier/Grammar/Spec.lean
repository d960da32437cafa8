/-
Courier.Grammar.Spec — what a command looks like.

The commands of the shell are described by data: a `CommandSpec` says under which
names a command is found, which values it takes and in which order, and which
options it knows. A spec with children is a group (`create`), one without is a leaf
(`create request`). The same description drives the parser, the help pages and
completion.

* `Slot` is a positional slot: one of the values of a command, told by its place.
* `OptionSpec` is an option: a value told by its spelling, such as `-m`, or a flag.
* `Shape` is the form that a value must have.

Every leaf knows the option `helpOpt` besides its own.
-/
import Courier.Http.Header

namespace Courier.Grammar

open Courier.Text Courier.Http

/-! ## Slots -/

/-- What a positional value means; completion asks by this name. -/
inductive SlotRole where
  | name
  | url
  | source
  | key
  | unknown
  deriving DecidableEq, Repr

/-- The word for a positional key. -/
def SlotRole.text : SlotRole → String
  | .name => "name"
  | .url => "url"
  | .source => "source"
  | .key => "key"
  | .unknown => "unknown"

/-- Every positional key. -/
def SlotRole.all : List SlotRole := [.name, .url, .source, .key, .unknown]

/-- What the value of an option means; completion asks by this name. -/
inductive OptionRole where
  | method
  | header
  | data
  | toVar
  | quiet
  | help
  deriving DecidableEq, Repr

/-- The word for an option key. -/
def OptionRole.text : OptionRole → String
  | .method => "method"
  | .header => "header"
  | .data => "data"
  | .toVar => "to_var"
  | .quiet => "quiet"
  | .help => "help"

/-- Every option key. -/
def OptionRole.all : List OptionRole := [.method, .header, .data, .toVar, .quiet, .help]

/-- Whether a text has the form `env=value`, with an environment in front of the sign. -/
def isEnvValue (pair : String) : Bool :=
  match cut '=' pair with
  | (env, some _) => !env.isEmpty
  | (_, none) => false

/-- The form that a value must have. -/
inductive Shape where
  /-- A header line. -/
  | header
  /-- An environment and a value. -/
  | envValue
  deriving DecidableEq, Repr

/-- Whether a value has the form. -/
def Shape.accepts : Shape → String → Bool
  | .header => isHeader
  | .envValue => isEnvValue

/-- A positional slot. -/
structure Slot where
  /-- What the value means. -/
  key : SlotRole
  /-- The field of the command that takes the value. -/
  dest : String
  /-- The word for the value in usage lines and errors. -/
  metavar : String
  /-- Whether a command without the value is refused. -/
  required : Bool := true
  /-- The only values accepted, if there are any. -/
  choices : List String := []
  /-- The form of the value. -/
  shape : Option Shape := none
  /-- What is said about a value that is refused. -/
  invalid : String := ""
  /-- For a catch-all slot: how many values it takes at least. -/
  minCount : Int := 0
  deriving DecidableEq, Repr

/-- An option. -/
structure OptionSpec where
  /-- What the value means. -/
  key : OptionRole
  /-- The field of the command that takes the value. -/
  dest : String
  /-- The long spelling. -/
  long : String
  /-- The short spelling. -/
  short : Option String := none
  /-- Whether a value belongs to it; a flag has none. -/
  takesValue : Bool := true
  /-- Whether it may be given more than once. -/
  repeatable : Bool := false
  /-- Whether a command without it is refused. -/
  required : Bool := false
  /-- The word for the value in usage lines. -/
  metavar : String := "value"
  /-- Values that completion offers. -/
  suggestions : List String := []
  /-- The form of the value. -/
  shape : Option Shape := none
  /-- What is said about a value that is refused. -/
  invalid : String := ""
  /-- One line on what it does. -/
  help : String := ""
  deriving DecidableEq, Repr

/-- The short spelling, if it is not empty. -/
def OptionSpec.short? (o : OptionSpec) : Option String :=
  o.short.filter (fun s => !s.isEmpty)

/-- The spellings of an option, the long one first. -/
def OptionSpec.spellings (o : OptionSpec) : List String :=
  o.long :: o.short?.toList

/-- An option as a usage line shows it. -/
def OptionSpec.usage (o : OptionSpec) : String :=
  let names := "|".intercalate ((o.short?.toList ++ [o.long]).filter (fun s => !s.isEmpty))
  let text := if o.takesValue then names ++ " <" ++ o.metavar ++ ">" else names
  let text := if o.repeatable then text ++ "..." else text
  if o.required then text else "[" ++ text ++ "]"

/-- The option that every leaf knows. -/
def helpOpt : OptionSpec :=
  { key := .help, dest := "help", long := "--help", short := some "-h", takesValue := false
    help := "show help for this command" }

/-! ## Commands -/

/-- What a leaf does. -/
inductive CommandKind where
  | printRequests
  | printVariables
  | printEnvironments
  | printWorkspaces
  | printOptions
  | createRequest
  | createVariable
  | deleteRequests
  | deleteVariables
  | deleteOptions
  | setEnvironment
  | setWorkspace
  | setRequest
  | setOption
  | run
  | extract
  | info
  | help
  | clear
  | exit
  deriving DecidableEq, Repr

/-- The words for a kind of command. -/
def CommandKind.text : CommandKind → String
  | .printRequests => "print requests"
  | .printVariables => "print variables"
  | .printEnvironments => "print environments"
  | .printWorkspaces => "print workspaces"
  | .printOptions => "print options"
  | .createRequest => "create request"
  | .createVariable => "create variable"
  | .deleteRequests => "delete requests"
  | .deleteVariables => "delete variables"
  | .deleteOptions => "delete options"
  | .setEnvironment => "set environment"
  | .setWorkspace => "set workspace"
  | .setRequest => "set request"
  | .setOption => "set option"
  | .run => "run"
  | .extract => "extract"
  | .info => "info"
  | .help => "help"
  | .clear => "clear"
  | .exit => "exit"

/-- A command, or a group of commands. -/
structure CommandSpec where
  /-- Its name. -/
  name : String
  /-- Its other names. -/
  aliases : List String := []
  /-- One line on what it does. -/
  help : String := ""
  /-- The positional slots, in the order in which they are filled. -/
  args : List Slot := []
  /-- The slot that takes all further positional values. -/
  rest : Option Slot := none
  /-- The options of its own. -/
  opts : List OptionSpec := []
  /-- The commands of a group; a leaf has none. -/
  children : List CommandSpec := []
  /-- Whether a word with a dash in front that is no option counts as a value. -/
  dashIsLiteral : Bool := false
  /-- What it does, if it is a leaf. -/
  kind : CommandKind := .info
  deriving Repr

namespace CommandSpec

/-- All names under which a command is found. -/
def names (s : CommandSpec) : List String := s.name :: s.aliases

/-- Whether a spec is a command and not a group. -/
def isLeaf (s : CommandSpec) : Bool := s.children.isEmpty

/-- The options that a command knows. -/
def knownOptions (s : CommandSpec) : List OptionSpec :=
  if s.isLeaf then s.opts ++ [helpOpt] else s.opts

/-- The option that is spelled like this. -/
def optionSpelled? (s : CommandSpec) (spelling : String) : Option OptionSpec :=
  s.knownOptions.find? (fun o => o.spellings.contains spelling)

end CommandSpec

end Courier.Grammar
