/-
Courier.Session.Shell — lines, one after the other.

`doLine` is what becomes of one line: it is parsed and its command is done. A
line that is no command is shown with carets under the part at fault; a command that is
refused is shown with the reason. Neither ends the session, and neither is a failure of
the action; what the shell has not foreseen is.

`turn` is one turn of the loop around it: a prompt is shown, and the next input is taken.
An interrupt is noted, and an unforeseen failure is reported. Only `exit` and the end of
the inputs are meant to end the loop, but a note or a report may itself be something that
the console cannot lay out, and then that is a failure of the loop.

The names in the prompt may hold a character that a prompt with colours cannot hold
(`promptFailure?`). Then the turn takes no input: it reports the failure, and the next turn
does the same. The loop is stuck (`Turn.stuck`, `Ending.stuck`). `loop` runs on a list of
inputs and stands still at such a prompt; what is said of it in terms of turns is in
`Courier.Proofs.Session.Script`.
-/
import Courier.Session.Execute

namespace Courier

open Courier.Text Courier.Grammar Courier.Screen

/-! ## One line -/

/-- So many characters. -/
def repeated (n : Nat) (c : Char) : String := String.ofList (List.replicate n c)

/-- What is shown of a line that is no command: the reason, the line, and carets under the fault. -/
def parseErrorEvents (line : String) (e : ParseError) : List Event :=
  let offset : Int := min e.offset line.length
  let width : Int := max 1 (min e.stop line.length - offset)
  [sayQuietly ("[red]Error:[/red] " ++ e.message),
    sayPlainly ("  " ++ line),
    say ("  " ++ repeated offset.toNat ' ' ++ styled "red" (repeated width.toNat '^'))]

/-- A refusal as it is shown. -/
def refusalText (refusal : Refusal) : String := "[red]Error:[/red] " ++ refusal.message

/-- Parses a line and does its command; the result is whether the session goes on. -/
def dispatch (line : String) : Action (Except ParseError Bool) := do
  match Command.ofLine line with
  | .error e => return .error e
  | .ok none => return .ok true
  | .ok (some c) => return .ok (← execute c)

/-- Does a line and shows why it was not done, if it was not; the result is whether to go on. -/
def doLine (line : String) : Action Bool := fun s =>
  match dispatch line s with
  | .ok (.ok goesOn) s => .ok goesOn s
  | .ok (.error e) s => (do showEvents (parseErrorEvents line e); return true : Action Bool) s
  | .error (.refused refusal) s =>
    (do showEvents [sayQuietly (refusalText refusal)]; return true : Action Bool) s
  | .error failure s => .error failure s

/-! ## Prompts -/

/-- The parts of a prompt: the workspace, and what is selected in it. -/
def promptParts (s : Session) : String × Option String × Option String :=
  (s.workspace, s.environment.filter (fun e => !e.isEmpty), s.request.filter (fun r => !r.isEmpty))

/-- The prompt without colours. -/
def plainPrompt (s : Session) : String :=
  let (workspace, environment, request) := promptParts s
  String.join ((workspace :: environment.toList ++ request.toList).map (fun p => "[" ++ p ++ "]"))
    ++ " > "

/-- The prompt with colours. -/
def htmlPrompt (s : Session) : String :=
  let (workspace, environment, request) := promptParts s
  let coloured (tag text : String) : String :=
    "[<b><" ++ tag ++ ">" ++ escapeHtml text ++ "</" ++ tag ++ "></b>]"
  "[<ansiyellow>" ++ escapeHtml workspace ++ "</ansiyellow>]"
    ++ String.join (environment.toList.map (coloured "ansicyan"))
    ++ String.join (request.toList.map (coloured "ansigreen")) ++ " &gt; "

/-- What a prompt with colours stands behind when it is read; places in it are counted from
there. -/
def promptRoot : String := "<html-root>"

/-- Why the prompt with colours cannot be shown, if it cannot. -/
def promptFailure? (s : Session) : Option Failure :=
  (markupFault? (promptRoot ++ htmlPrompt s)).map fun (line, column) =>
    .unreadablePrompt line column

/-! ## The loop -/

/-- What the user does at a prompt. -/
inductive Input where
  /-- Enters a line. -/
  | line (text : String)
  /-- Interrupts the shell. -/
  | interrupt
  deriving DecidableEq, Repr

/-- How lines are read. -/
inductive Editor where
  /-- With history and completion. -/
  | full (history : History)
  /-- As they come. -/
  | simple
  deriving DecidableEq, Repr

/-- The prompt as the editor shows it. -/
def promptEvent (editor : Editor) (s : Session) : Event :=
  match editor with
  | .full _ => .prompt (htmlPrompt s)
  | .simple => .plainPrompt (plainPrompt s)

/-- Why the editor cannot show its prompt, if it cannot. -/
def Editor.failure? (editor : Editor) (s : Session) : Option Failure :=
  match editor with
  | .full _ => promptFailure? s
  | .simple => none

/-- What is shown of a failure that the shell has not foreseen. -/
def unexpected (failure : Failure) : List Event :=
  [say ("[red]Unexpected error:[/red] " ++ failure.message),
    .print .shell (some (.text "[dim]<traceback>[/dim]")) (some false) none]

/-- Does something; a failure of it is reported, and the loop goes on. -/
def reporting (act : Action Bool) : Action Bool := fun s =>
  match act s with
  | .ok goesOn s => .ok goesOn s
  | .error failure s => (do showEvents (unexpected failure); return true : Action Bool) s

/-- The name of the file in the data directory that holds the history. -/
def historyFile : String := "repost_history"

/-- The path of the file that holds the history. -/
def Session.historyPath (s : Session) : Path := s.dataDir.join (Path.parse historyFile)

/-- The session when an editor has kept a line in its history. A directory in the place of the file
is left alone. -/
def Session.noting (s : Session) (editor : Editor) (line : String) : Session :=
  match editor, s.disk.locate s.historyPath with
  | .full .file, .ok place =>
    if s.disk.hasDir place then s
    else
      match s.host.noted (s.disk.file? place) line with
      | some bytes => { s with disk := s.disk.write place bytes }
      | none => s
  | _, _ => s

/-- Does what an input asks for; the result is whether the loop goes on. -/
def respond (editor : Editor) : Input → Action Bool
  | .interrupt => do
    showEvents [say "[dim]^C (Press Ctrl+D or type 'exit' to quit)[/dim]"]
    return true
  | .line text => do
    modify (fun s => s.noting editor text)
    reporting (doLine text)

/-- Shows the prompt, or reports why it cannot be shown; the result is whether it was shown. -/
def showPrompt (editor : Editor) : Action Bool := do
  let s ← get
  match editor.failure? s with
  | none =>
    modify (fun s => s.withShown [promptEvent editor s])
    return true
  | some failure =>
    showEvents (unexpected failure)
    return false

/-- What becomes of a turn of the loop. -/
inductive Turn where
  /-- An input was taken, and the loop goes on. -/
  | taken
  /-- The prompt could not be shown. No input was taken, and the loop goes on. -/
  | stuck
  /-- The loop is over. -/
  | over
  deriving DecidableEq, Repr

/-- One turn of the loop, with the input that comes next if there is one. -/
def turn (editor : Editor) (next : Option Input) : Action Turn := do
  if ← showPrompt editor then
    match next with
    | none =>
      showEvents [blankLine, say "[dim]Goodbye![/dim]"]
      return .over
    | some input => return if ← respond editor input then .taken else .over
  else return .stuck

/-- How the shell comes to an end. -/
inductive Ending where
  /-- It was left, or there were no more inputs. -/
  | over
  /-- It could not be started, and has this exit code. -/
  | exit (code : Nat)
  /-- It does not: it goes on reporting that it cannot show its prompt. -/
  | stuck
  deriving DecidableEq, Repr

/-- The loop on these inputs, up to its end or to the first turn that takes none of them. -/
def loop (editor : Editor) : List Input → Action Ending
  | [] => do
    match ← turn editor none with
    | .stuck => return .stuck
    | _ => return .over
  | input :: inputs => do
    match ← turn editor (some input) with
    | .taken => loop editor inputs
    | .stuck => return .stuck
    | .over => return .over

/-! ## The shell -/

/-- What the shell runs in. -/
structure Terminal where
  /-- What the user does. -/
  inputs : List Input := []
  /-- Whether there is a terminal at both ends. -/
  interactive : Bool := false
  /-- Why the line editor cannot be started, if it cannot. -/
  editorFault : Option String := none
  deriving DecidableEq, Repr

/-- Finds a place for the history of lines, which are added as they are entered
(`Session.noting`). -/
def openHistory : Action History := do
  let s ← get
  let (fault, disk) := s.disk.makeDirs s.dataDir
  set { s with disk }
  return if fault.isNone then .file else .memory

/-- Starts the line editor, if there is a terminal and nothing is wrong with it. -/
def startEditor (t : Terminal) : Action Editor := do
  if !t.interactive then return .simple
  let history ← openHistory
  match t.editorFault with
  | some reason =>
    showEvents [say ("[yellow]Warning:[/yellow] Running in simple input mode: " ++ reason)]
    return .simple
  | none =>
    modify (fun s => s.withShown [.editor history])
    return .full history

/-- What is shown before the first prompt. -/
def greeting (editor : Editor) : List Event :=
  [say "[bold cyan]repost[/bold cyan] - Type 'help' for commands, 'exit' to quit"]
    ++ (if editor = .simple then [say "[dim](Running in simple mode - no autocomplete)[/dim]"]
      else [])
    ++ [blankLine]

/-- Starts the shell. -/
def startShell (t : Terminal) : Action Editor := do
  let editor ← startEditor t
  showEvents (greeting editor)
  return editor

/-- Runs the shell until it is left. -/
def runShell (t : Terminal) : Action Ending := do loop (← startShell t) t.inputs

/-- Switches to a workspace, unless its name is missing or empty. -/
def switchToGiven (workspace : Option String) : Action Unit :=
  match workspace.filter (fun w => !w.isEmpty) with
  | some name => switchWorkspace name
  | none => pure ()

/-- Closes the storage behind an action, whatever became of it, if it comes to an end. -/
def closingAfter {α : Type} (ends : α → Bool) (act : Action α) : Action α := fun s =>
  match act s with
  | .ok a s => .ok a (if ends a then s.closed else s)
  | .error e s => .error e s.closed

/--
Runs the shell in a workspace, and closes the storage behind it, unless the shell goes on for
ever.
-/
def shellMain (workspace : Option String) (t : Terminal) : Action Ending :=
  closingAfter (fun ending => ending != .stuck) fun s =>
    match (do switchToGiven workspace; runShell t : Action Ending) s with
    | .error (.refused refusal) s =>
      (do showEvents [say (refusalText refusal)]; return .exit 1 : Action Ending) s
    | result => result

end Courier
