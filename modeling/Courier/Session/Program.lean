/-
Courier.Session.Program — the program and its arguments.

The program is called with words: options of its own (`--data-dir`), then a command
(`version`, `repl`, `exec`) with options and values of its own. Without a command it
runs the shell. Words that make no sense end the program with exit code 2 and nothing
shown.

`scan` reads words by the rules that are common to all commands: an option takes its
value from the same word or the next one, short options may share a word, and behind
`--` no word is an option. `runProgram` does what the words ask for. The data directory
stays what it was made to be, also if the command behind it makes no sense; a name that
the system does not take for one makes no sense itself.
-/
import Courier.Session.Shell

namespace Courier

open Courier.Text Courier.Screen

/-! ## Words -/

/-- An option of the program or of one of its commands. -/
structure Switch where
  /-- Its long spelling. -/
  long : String
  /-- The letter of its short spelling. -/
  short : Option Char := none
  /-- Whether a value belongs to it. -/
  takesValue : Bool := false
  deriving DecidableEq, Repr

/-- What has been read from words. -/
structure Scanned where
  /-- The options by their long spellings, with their values; the last one counts. -/
  given : List (String × String) := []
  /-- The words that are no options. -/
  values : List String := []
  deriving DecidableEq, Repr

/-- Notes an option. -/
def Scanned.note (r : Scanned) (w : Switch) (value : String) : Scanned :=
  { r with given := (w.long, value) :: r.given }

/-- The value of an option, if it was given. -/
def Scanned.value? (r : Scanned) (long : String) : Option String := r.given.lookup long

/-- The option with a long spelling. -/
def longSwitch? (switches : List Switch) (name : String) : Option Switch :=
  switches.find? (fun w => w.long = name)

/-- The option with a letter. -/
def shortSwitch? (switches : List Switch) (c : Char) : Option Switch :=
  switches.find? (fun w => w.short = some c)

/--
Reads the letters of a word of short options. An option with a value takes the rest of
the word, or, if that is empty, leaves the value to the next word: it is the second
part of the result.
-/
def scanLetters (switches : List Switch) (r : Scanned) :
    List Char → Option (Scanned × Option Switch)
  | [] => some (r, none)
  | c :: cs =>
    match shortSwitch? switches c with
    | none => none
    | some w =>
      if w.takesValue then
        if cs.isEmpty then some (r, some w) else some (r.note w (String.ofList cs), none)
      else scanLetters switches (r.note w "") cs

/-- Reads one word that looks like an option; the second part waits for its value. -/
def scanOption (switches : List Switch) (r : Scanned) (word : String) :
    Option (Scanned × Option Switch) :=
  let (name, inline) := cut '=' word
  match longSwitch? switches name, inline with
  | some w, some value => if w.takesValue then some (r.note w value, none) else none
  | some w, none => if w.takesValue then some (r, some w) else some (r.note w "", none)
  | none, _ => if startsWith "--" word then none else scanLetters switches r (word.toList.drop 1)

/--
Reads words. If `mixed`, options may stand behind values; otherwise the first value and
everything behind it is left as values. Nothing is read from words that make no sense.
-/
def scan (switches : List Switch) (mixed : Bool) (r : Scanned) : List String → Option Scanned
  | [] => some r
  | word :: words =>
    if word = "--" then some { r with values := r.values ++ words }
    else if startsWith "-" word && word != "-" then
      match scanOption switches r word with
      | none => none
      | some (r, none) => scan switches mixed r words
      | some (r, some w) =>
        match words with
        | [] => none
        | value :: words => scan switches mixed (r.note w value) words
    else if mixed then scan switches mixed { r with values := r.values ++ [word] } words
    else some { r with values := r.values ++ word :: words }

/-! ## Calls -/

/-- What a command of the program is asked to do. -/
inductive Task where
  /-- Show the version. -/
  | version
  /-- Run the shell in a workspace. -/
  | shell (workspace : Option String)
  /-- Do one line in a workspace. -/
  | exec (line : String) (workspace : Option String)
  /-- Show how the command is used. -/
  | usage
  deriving DecidableEq, Repr

/-- The option that shows how a command is used. -/
def usageSwitch : Switch := { long := "--help" }

/-- The option that names a workspace. -/
def workspaceSwitch : Switch := { long := "--workspace", short := some 'w', takesValue := true }

/-- The options in front of the command. -/
def programSwitches : List Switch :=
  [{ long := "--data-dir", takesValue := true }, { long := "--verbose", short := some 'v' },
    usageSwitch]

/-- The commands of the program, each with its options and the number of its values. -/
def programCommands : List (String × List Switch × Nat) :=
  [("version", [usageSwitch], 0), ("repl", [workspaceSwitch, usageSwitch], 0),
    ("exec", [workspaceSwitch, usageSwitch], 1)]

/-- The task that a command and what was read behind it stand for. -/
def taskOf (command : String) (r : Scanned) : Task :=
  let workspace := r.value? "--workspace"
  match command, r.values with
  | "repl", _ => .shell workspace
  | "exec", line :: _ => .exec line workspace
  | _, _ => .version

/-- The task that the words behind a command ask for, if they make sense. -/
def readTask (command : String) (switches : List Switch) (count : Nat) (words : List String) :
    Option Task :=
  match scan switches true {} words with
  | none => none
  | some r =>
    if (r.value? "--help").isSome then some .usage
    else if r.values.length = count then some (taskOf command r)
    else none

/-- What the program is called for. -/
inductive Invocation where
  /-- Show how the program is used. -/
  | usage
  /--
  Do a task with this data directory, if one is named; there is no task if the words
  behind the command make no sense.
  -/
  | call (dataDir : Option String) (task : Option Task)
  deriving DecidableEq, Repr

/-- What the program is called for; nothing if its own words make no sense. -/
def readInvocation (args : List String) : Option Invocation :=
  match scan programSwitches false {} args with
  | none => none
  | some r =>
    if (r.value? "--help").isSome then some .usage
    else
      let dataDir := r.value? "--data-dir"
      if dataDir.any Path.hasNul then none
      else match r.values with
      | [] => some (.call dataDir (some (.shell none)))
      | command :: words =>
        match programCommands.lookup command with
        | none => none
        | some (switches, count) => some (.call dataDir (readTask command switches count words))

/-- Whether the program is called to run the shell. -/
def wantsShell (args : List String) : Bool :=
  match readInvocation args with
  | some (.call _ (some (.shell _))) => true
  | _ => false

/-! ## Doing it -/

/-- The version of the program, as it is shown. -/
def versionText : String := "repost v0.1.0"

/-- Something on the console of the program or of its errors. -/
def announce (target : Target) (s : String) : Event := .print target (some (.text s)) none none

/-- Does one line in a workspace; the result is the exit code. -/
def execLine (line : String) (workspace : Option String) : Action Nat :=
  closingAfter (fun _ => true) fun s =>
    match (do switchToGiven workspace; dispatch line : Action _) s with
    | .ok (.ok _) s => .ok 0 s
    | .ok (.error e) s => (do showEvents (parseErrorEvents line e); return 1 : Action Nat) s
    | .error (.refused refusal) s =>
      (do showEvents [announce .errors (refusalText refusal)]; return 1 : Action Nat) s
    | .error failure s => .error failure s

/-- The exit code of a shell that comes to an end. -/
def Ending.code? : Ending → Option Nat
  | .over => some 0
  | .exit code => some code
  | .stuck => none

/-- Does what a command asks for; the result is the exit code, if there ever is one. -/
def doTask (t : Terminal) : Task → Action (Option Nat)
  | .version => do
    showEvents [announce .program versionText]
    return some 0
  | .shell workspace => do return (← shellMain workspace t).code?
  | .exec line workspace => do return some (← execLine line workspace)
  | .usage => return some 0

/-- Makes another directory the data directory. -/
def setDataDir (text : String) : Action Unit := do
  match (Path.parse text).expandHome (← get).disk.machine with
  | .ok dataDir => modify (fun s => { s with dataDir })
  | .error failure => throw failure

/--
Runs the program with these arguments; `envDataDir` is the data directory that the
environment names. The result is the exit code; there is none if the program runs for ever.
-/
def runProgram (args : List String) (envDataDir : Option String) (t : Terminal) :
    Action (Option Nat) := do
  match readInvocation args with
  | none => return some 2
  | some .usage => return some 0
  | some (.call dataDir task) =>
    match dataDir.orElse (fun _ => envDataDir.filter (fun d => !d.isEmpty)) with
    | some text => setDataDir text
    | none => pure ()
    match task with
    | none => return some 2
    | some task => doTask t task

end Courier
