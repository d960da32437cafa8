/-
Courier.Session.Execute — what each command does.

`execute` does a command on the session, shows what came of it, and says whether the
session goes on: it does after every command but `exit`. A command that is refused or
fails leaves by the failure of its `Action`; what it has shown before that stays shown.
-/
import Courier.Command
import Courier.Screen.Display
import Courier.Screen.Help
import Courier.Session.Current

namespace Courier

open Courier.Text Courier.Store Courier.Screen

/-! ## Listing -/

/-- Lists requests. -/
def doPrintRequests (filters : List String) : Action Unit := do
  showEvents (requestTable (← askRows (fun s => s.listRequests filters)))

/-- Lists variables, of the selected environment if there is one. -/
def doPrintVariables (filters : List String) : Action Unit := do
  let env := (← get).environment
  showEvents (variableTable (← askRows (fun s => s.listVariables filters env)))

/-- Lists environments. -/
def doPrintEnvironments : Action Unit := do
  let env := (← get).environment
  showEvents (nameTable "Environments" (← askRows Store.environments) env)

/-- Lists workspaces. -/
def doPrintWorkspaces : Action Unit := do
  let stored ← storedWorkspaces
  showEvents (nameTable "Workspaces" (playgroundName :: stored) (some (← get).workspace))

/-- Lists options, of the selected request if there is one. -/
def doPrintOptions (filters : List String) : Action Unit := do
  let request := (← get).request
  showEvents (optionTable (← askRows (fun s => s.listOptions request filters)))

/-! ## Creating -/

/-- Stores a request. -/
def doCreateRequest (d : Draft) : Action Unit := do
  let r ← Current.createRequest d
  showEvents [say ("[green]✓ Created request:[/green] " ++ styled "green" (escape r.name) ++ " "
    ++ styled "magenta" r.method ++ " " ++ escape r.url)]
  let os ← askRows (fun s => s.optionsOf (some r.name))
  if !os.isEmpty then
    showEvents [say (styled "dim" ("Options: " ++ commaList (os.map (fun o => escape o.name))))]

/-- Stores a variable. -/
def doCreateVariable (name : String) (pairs : List String) : Action Unit := do
  let rows ← Current.createVariable name pairs userSource
  showEvents (rows.map fun v =>
    say ("[green]✓ Set[/green] " ++ escape v.name ++ " [dim]in[/dim] "
      ++ styled "cyan" (escape v.env)))

/-! ## Deleting -/

/-- What is shown of a deletion: how many of what kind are gone, and what was not there. -/
def deletion (count : Nat) (kind : String) (missing : List String) : List Event :=
  (if count = 0 then []
    else [say (styled "green" ("✓ Deleted " ++ toString count ++ " " ++ kind ++ "(s)"))])
    ++ missing.map (fun name =>
      say (styled "yellow" ("No " ++ kind ++ " named '" ++ escape name ++ "'")))

/-- Deletes requests; if the selected one is among them, none is selected afterwards. -/
def doDeleteRequests (ns : List String) : Action Unit := do
  let (deleted, missing) ← Current.deleteRequests ns
  modify fun s =>
    if s.request.any deleted.contains then { s with request := none } else s
  showEvents (deletion deleted.length "request" missing)

/-- Deletes variables; names count in the selected environment, if there is one. -/
def doDeleteVariables (ns : List String) : Action Unit := do
  let env := (← get).environment
  let (count, missing) ← Current.deleteVariables env ns
  showEvents (deletion count "variable" missing)

/-- Deletes options, of the selected request if there is one. -/
def doDeleteOptions (ns : List String) : Action Unit := do
  let request := (← get).request
  let (count, missing) ← Current.deleteOptions request ns
  showEvents (deletion count "option" missing)

/-! ## Selecting -/

/-- Selects an environment, or none. -/
def doSetEnvironment (name : Option String) : Action Unit := do
  modify (fun s => { s with environment := name })
  match name with
  | none => showEvents [say "✓ Cleared environment"]
  | some env =>
    showEvents [say ("✓ Using environment " ++ styled "cyan" (escape env))]
    let known ← askRows Store.environments
    if !known.contains env then
      showEvents [say "[dim]This environment has no variables yet[/dim]"]

/-- Forgets what is selected. -/
def clearSelection : Action Unit :=
  modify (fun s => { s with environment := none, request := none })

/-- Switches to a workspace. -/
def doSetWorkspace (name : String) : Action Unit := do
  switchWorkspace name
  clearSelection
  showEvents [say ("✓ Switched to workspace " ++ styled "yellow" (escape name))]

/-- Selects a request, or none. -/
def doSetRequest (name : Option String) : Action Unit := do
  match name with
  | none =>
    modify (fun s => { s with request := none })
    showEvents [say "✓ Cleared request"]
  | some name =>
    let r ← onRows (requireRequest name)
    modify (fun s => { s with request := some r.name })
    showEvents [say ("✓ Using request " ++ styled "green" (escape r.name))]

/-- The selected request, for a command that needs one. -/
def selectedRequest (command : String) : Action String := do
  match (← get).request with
  | some name => return name
  | none => refuseAction (.noRequestSelected command)

/-- Gives an option of the selected request its values. -/
def doSetOption (name : String) (values : List String) : Action Unit := do
  let request ← selectedRequest "set option"
  let o ← onRows (assignOption request name values)
  if o.value.isNone then
    showEvents [say ("✓ Cleared option " ++ styled "cyan" (escape o.name))]
  else
    showEvents [say ("✓ Set option " ++ styled "cyan" (escape o.name) ++ " to "
      ++ commaList (values.map escape))]

/-! ## Sending -/

/-- Shows something up to the failure that cuts it short. -/
def present (showing : Showing) : Action Unit := do
  showEvents showing.1
  if let some failure := showing.2 then throw failure

/-- What is shown of a run behind its exchanges. -/
def runEvents (result : RunReport) : List Event :=
  result.extracted.map (fun v =>
      say (styled "dim" "Extracted" ++ " " ++ escape v.name ++ " = " ++ escape (v.value.getD "")))
    ++ result.failedExtractions.map (fun message =>
      say (styled "yellow" "Warning:" ++ " " ++ escape message))
    ++ (if result.exchanges.length > 1 then summary result.responses else [])

/-- Sends a request, the selected one if none is named. -/
def doRun (name : Option String) (quiet : Bool) : Action Unit := do
  let name ← match name.filter (fun n => !n.isEmpty) with
    | some name => pure name
    | none => selectedRequest "run"
  let env := (← get).environment
  let result ← onBench (runStored name env)
  result.exchanges.forM (fun x => present (exchange x quiet))
  showEvents (runEvents result)

/-- Saves part of each response to the selected request. -/
def doExtract (source path target : String) : Action Unit := do
  let request ← selectedRequest "extract"
  let e ← Current.createExtraction request source path target
  showEvents [say ("✓ " ++ escape e.request ++ " will save " ++ e.source ++ " '" ++ escape e.path
    ++ "' into " ++ styled "cyan" (escape e.target))]

/-- Shows the selected request. -/
def doInfo : Action Unit := do
  let name ← selectedRequest "info"
  let r ← onRows (requireRequest name)
  let os ← askRows (fun s => s.optionsOf (some r.name))
  let es ← askRows (fun s => s.extractionsOf r.name)
  showEvents (requestInfo r os es)

/-- Shows help. -/
def doHelp (topic : List String) : Action Unit := do
  if topic.isEmpty then showEvents [overviewPage]
  else
    let w := walk (topic.map Line.Token.ofText)
    if w.matched then showEvents (commandHelp w.node)
    else refuseAction (.invalidInput (.noHelp topic))

/-! ## Commands -/

/-- Does a command; the result is whether the session goes on. -/
def execute (c : Command) : Action Bool := do
  match c with
  | .printRequests filters => doPrintRequests filters
  | .printVariables filters => doPrintVariables filters
  | .printEnvironments => doPrintEnvironments
  | .printWorkspaces => doPrintWorkspaces
  | .printOptions filters => doPrintOptions filters
  | .createRequest name url method headers body =>
    doCreateRequest { name, url, method, headers, body }
  | .createVariable name pairs => doCreateVariable name pairs
  | .deleteRequests ns => doDeleteRequests ns
  | .deleteVariables ns => doDeleteVariables ns
  | .deleteOptions ns => doDeleteOptions ns
  | .setEnvironment name => doSetEnvironment name
  | .setWorkspace name => doSetWorkspace name
  | .setRequest name => doSetRequest name
  | .setOption name values => doSetOption name values
  | .run name quiet => doRun name quiet
  | .extract source path target => doExtract source path target
  | .info => doInfo
  | .help topic => doHelp topic
  | .clear => showEvents [.clear .shell]
  | .exit => showEvents [say "[dim]Goodbye![/dim]"]
  return c != .exit

end Courier
