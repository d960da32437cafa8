/-
Courier.Grammar.Builder — the words after a command name.

A `Builder` gathers the words of one command. `feed` takes one word and either
commits it or refuses it, `expect` says what the next word should be without taking
any, and `finish` makes the form that the command is read from.

Positional values fill the slots in order and then the catch-all. Options may stand
anywhere up to the break `--`; after it every word is positional. Only a bare word
can be an option, so that a quoted `'-1'` is a value. An option takes its value from
the same word (`-m=GET`) or from the next one; until that comes the option is
pending.

A refused word leaves the builder as it was, except that errors about missing things
point behind the last word seen, whatever became of it.
-/
import Courier.Grammar.Error
import Courier.Grammar.Node

namespace Courier.Grammar

open Courier.Text Courier.Line

/-! ## State -/

/-- What has been taken of a command so far. -/
structure Builder where
  /-- The command. -/
  node : Node
  /-- The values of the slots. -/
  args : List Token := []
  /-- The values of the catch-all. -/
  rest : List Token := []
  /-- The values of each option, in the order in which options were first given. -/
  opts : List (OptionRole × List Token) := []
  /-- Whether the break has been seen. -/
  sealed : Bool := false
  /-- The option that waits for its value, and the word that named it. -/
  pending : Option (OptionSpec × Token) := none
  /-- Where errors about missing things point. -/
  offset : Int := 0
  deriving Repr

/-- Adds a value to those of an option. -/
def pushValue (key : OptionRole) (token : Token) :
    List (OptionRole × List Token) → List (OptionRole × List Token)
  | [] => [(key, [token])]
  | (k, tokens) :: entries =>
    if k = key then (k, tokens ++ [token]) :: entries
    else (k, tokens) :: pushValue key token entries

/-- The values of an option. -/
def valuesOf (key : OptionRole) (opts : List (OptionRole × List Token)) : List Token :=
  (opts.lookup key).getD []

namespace Builder

/-- The command that the builder is for. -/
def spec (b : Builder) : CommandSpec := b.node.spec

/-- The values that an option has been given; a flag has one empty value for each time. -/
def given (b : Builder) (key : OptionRole) : List Token := valuesOf key b.opts

/-- Whether an option has been given. -/
def has (b : Builder) (key : OptionRole) : Bool := !(b.given key).isEmpty

/-- Commits a value to an option. -/
def store (b : Builder) (option : OptionSpec) (token : Token) : Builder :=
  { b with opts := pushValue option.key token b.opts }

/-- The error about the option that still waits for its value. -/
def pendingError? (b : Builder) : Option ParseError :=
  b.pending.map (fun (_, token) => .missingOptionValue token)

end Builder

/-! ## Words -/

/-- Whether a word is bare and has a dash in front of something. -/
def isDashed (t : Token) : Bool :=
  t.kind = .bare && startsWith "-" t.text && t.text != "-"

/-- The outcome of a step: the builder afterwards, and why the word was refused, if it was. -/
abbrev Outcome := Builder × Option ParseError

namespace Builder

/-- Commits a positional value to the next slot. -/
def feedPositional (b : Builder) (t : Token) : Outcome :=
  if b.args.length < b.spec.args.length then ({ b with args := b.args ++ [t] }, none)
  else if b.spec.rest.isSome then ({ b with rest := b.rest ++ [t] }, none)
  else (b, some (.unexpectedArgument t))

/-- Commits an option; `name` is its spelling in the word and `inline` the value behind a sign. -/
def feedOption (b : Builder) (option : OptionSpec) (t : Token) (name : String)
    (inline : Option String) : Outcome :=
  if !option.repeatable && b.has option.key then (b, some (.tooManyValues name t))
  else if option.takesValue then
    match inline with
    | some value =>
      (b.store option { t with text := value, start := t.start + name.length + 1 }, none)
    | none => ({ b with pending := some (option, t) }, none)
  else
    match inline with
    | some _ => (b, some (.invalidValue t ("Option '" ++ name ++ "' does not take a value")))
    | none => (b.store option { t with text := "" }, none)

/-- Commits a word when no option waits for a value. -/
def feedFree (b : Builder) (t : Token) : Outcome :=
  if b.sealed then b.feedPositional t
  else if t.kind = .break then ({ b with sealed := true }, none)
  else if isDashed t then
    let (name, inline) := cut '=' t.text
    match b.spec.optionSpelled? name with
    | some option => b.feedOption option t name inline
    | none => if b.spec.dashIsLiteral then b.feedPositional t else (b, some (.unknownOption t))
  else b.feedPositional t

/-- Commits a word, or refuses it. -/
def feed (b : Builder) (t : Token) : Outcome :=
  let b := { b with offset := t.stop }
  match b.pending with
  | some (option, name) =>
    if t.kind = .break || isDashed t then (b, some (.missingOptionValue name))
    else ({ b.store option t with pending := none }, none)
  | none => b.feedFree t

/-- Commits words until one is refused. -/
def feedAll (b : Builder) : List Token → Outcome
  | [] => (b, none)
  | t :: ts =>
    match b.feed t with
    | (b', none) => b'.feedAll ts
    | (b', some e) => (b', some e)

/-- Commits all words of a line; an option must not wait for its value at the end. -/
def consume (b : Builder) (ts : List Token) : Outcome :=
  match b.feedAll ts with
  | (b', none) => (b', b'.pendingError?)
  | (b', some e) => (b', some e)

end Builder

/-! ## Looking ahead -/

/-- What the next word should be. -/
inductive Expectation where
  /-- A value for this slot. -/
  | positional (arg : Slot)
  /-- The spelling of one of these options. -/
  | optionName (options : List OptionSpec)
  /-- A value for this option; `lead` is what stands in front of it in the same word. -/
  | optionValue (option : OptionSpec) (lead : String)
  /-- Nothing more. -/
  | nothing
  deriving DecidableEq, Repr

/-- What has been typed for a command so far, as completion sees it. -/
structure Snapshot where
  /-- The path of the command. -/
  path : List String
  /-- The values of the slots, by their meaning. -/
  args : List (SlotRole × String)
  /-- The values of the catch-all. -/
  rest : List String
  /-- The values of the options. -/
  options : List (OptionRole × List String)
  /-- Whether the break has been seen. -/
  sealed : Bool
  deriving DecidableEq, Repr

/-- Sets the value of a slot: in place if its meaning is there, else at the end. -/
def putArg (slot : SlotRole) (value : String) : List (SlotRole × String) → List (SlotRole × String)
  | [] => [(slot, value)]
  | (k, v) :: entries =>
    if k = slot then (k, value) :: entries else (k, v) :: putArg slot value entries

namespace Builder

/-- The options that may still be given. -/
def available (b : Builder) (includeHelp : Bool) : List OptionSpec :=
  b.spec.knownOptions.filter fun o =>
    (includeHelp || o.key != .help) && (o.repeatable || !b.has o.key)

/-- What a value without a dash in front is for. -/
def expectPositional (b : Builder) (typing : Bool) : Expectation :=
  match b.spec.args[b.args.length]? with
  | some arg => .positional arg
  | none =>
    match b.spec.rest with
    | some arg => .positional arg
    | none =>
      let options := b.available false
      if typing || options.isEmpty then .nothing else .optionName options

/-- What the next word should be, of which `tail` has been typed. -/
def expect (b : Builder) (tail : Option Tail) : Expectation :=
  match b.pending with
  | some (option, _) => .optionValue option ""
  | none =>
    match tail with
    | none => b.expectPositional false
    | some t =>
      if t.quote = none && !b.sealed && startsWith "-" t.text then
        match cut '=' t.text with
        | (name, some _) =>
          match b.spec.optionSpelled? name with
          | some option =>
            if option.takesValue then .optionValue option (name ++ "=") else .nothing
          | none => .nothing
        | (_, none) =>
          let options := b.available true
          if options.isEmpty && b.spec.dashIsLiteral then b.expectPositional true
          else .optionName options
      else b.expectPositional true

/-- What completion is told about the words so far. -/
def snapshot (b : Builder) : Snapshot :=
  { path := b.node.path
    args := (b.spec.args.zip b.args).foldl (fun entries (a, t) => putArg a.key t.text entries) []
    rest := b.rest.map Token.text
    options := b.opts.map (fun (k, ts) => (k, ts.map Token.text))
    sealed := b.sealed }

end Builder

/-! ## Finishing -/

/-- What a field of a command is given. -/
inductive FieldValue where
  /-- One text. -/
  | text (value : String)
  /-- Nothing. -/
  | absent
  /-- Any number of texts. -/
  | texts (values : List String)
  /-- Whether a flag was given. -/
  | flag (given : Bool)
  deriving DecidableEq, Repr

/-- What a command is made from. -/
inductive Filled where
  /-- Help was asked for the command with this path. -/
  | help (path : List String)
  /-- The fields in the order of their slots and options. -/
  | fields (entries : List (String × FieldValue))
  deriving DecidableEq, Repr

/-- Gives a field its value in a list that ascends by name; a field that is there is changed. -/
def putField (name : String) (value : FieldValue) :
    List (String × FieldValue) → List (String × FieldValue)
  | [] => [(name, value)]
  | (n, v) :: entries =>
    if name < n then (name, value) :: (n, v) :: entries
    else if n = name then (n, value) :: entries
    else (n, v) :: putField name value entries

/-- The fields in ascending order of their names; of two with one name the later counts. -/
def fieldTable (entries : List (String × FieldValue)) : List (String × FieldValue) :=
  entries.foldl (fun table (name, value) => putField name value table) []

/-- What is said of a value that is refused. -/
def refusal (reason : String) (t : Token) : ParseError :=
  .invalidValue t (reason ++ " (got '" ++ t.text ++ "')")

/-- Checks the value of a slot. -/
def Slot.check (a : Slot) (t : Token) : Except ParseError Unit :=
  if !a.choices.isEmpty && !a.choices.contains t.text then
    let reason :=
      if a.invalid.isEmpty then "Expected one of: " ++ commaList a.choices else a.invalid
    .error (refusal reason t)
  else if a.shape.all (fun s => s.accepts t.text) then .ok ()
  else .error (refusal a.invalid t)

/-- Checks a value of an option. -/
def OptionSpec.check (o : OptionSpec) (t : Token) : Except ParseError Unit :=
  if !o.takesValue || o.shape.all (fun s => s.accepts t.text) then .ok ()
  else .error (refusal o.invalid t)

/-- The field of an option with these values. -/
def OptionSpec.field (o : OptionSpec) (values : List Token) : FieldValue :=
  if !o.takesValue then .flag (!values.isEmpty)
  else if o.repeatable then .texts (values.map Token.text)
  else
    match values with
    | [] => .absent
    | t :: _ => .text t.text

namespace Builder

/-- The first thing that a command lacks. -/
def missing? (b : Builder) : Option ParseError :=
  match (b.spec.args.drop b.args.length).find? Slot.required with
  | some a => some (.missingArgument a.key a.metavar b.offset)
  | none =>
    match b.spec.rest.filter (fun a => (b.rest.length : Int) < a.minCount) with
    | some a => some (.missingArgument a.key a.metavar b.offset)
    | none =>
      (b.spec.opts.find? (fun o => o.required && !b.has o.key)).map
        (fun o => .missingOption o.key o.long b.offset)

/-- The fields of the slots. -/
def argFields (b : Builder) : Except ParseError (List (String × FieldValue)) := do
  (b.spec.args.zip b.args).forM (fun (a, t) => a.check t)
  return (b.spec.args.zip b.args).map (fun (a, t) => (a.dest, .text t.text))
    ++ (b.spec.args.drop b.args.length).map (fun a => (a.dest, .absent))

/-- The field of the catch-all. -/
def restFields (b : Builder) : Except ParseError (List (String × FieldValue)) := do
  match b.spec.rest with
  | none => return []
  | some a =>
    b.rest.forM a.check
    return [(a.dest, .texts (b.rest.map Token.text))]

/-- The fields of the options. -/
def optFields (b : Builder) : Except ParseError (List (String × FieldValue)) := do
  b.spec.opts.forM (fun o => (b.given o.key).forM o.check)
  return b.spec.opts.map (fun o => (o.dest, o.field (b.given o.key)))

/-- Makes the form of the command, or says what is wrong with it. -/
def finish (b : Builder) : Except ParseError Filled := do
  if let some e := b.pendingError? then throw e
  if b.has .help then return .help b.node.path
  if let some e := b.missing? then throw e
  let args ← b.argFields
  let rest ← b.restFields
  let opts ← b.optFields
  return .fields (args ++ rest ++ opts)

end Builder

end Courier.Grammar
