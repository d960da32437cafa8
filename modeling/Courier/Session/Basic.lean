/-
Courier.Session.Basic — what lasts from line to line.

A `Session` is what the shell remembers: the rows of every workspace, which workspace
is current, which environment and request are selected in it, the wire, and what has
been shown. An `Action` is what a line does to it.

The shell stands on a console, a database and a line editor (`Host`). Whether a text can
be laid out, and what is in the files that the other two write, is not decided here: a
`Host` is any answer to these questions, and what is proved of sessions is proved for
every host.

The workspace named `playground` is kept in memory and lost when the storage is
closed. Every other workspace is a database in the data directory, mostly a file.
Switching to one opens it, and makes it first if need be; if that fails the workspace
stays what it was. The rows of a workspace are found by the place where they are
(`Home`), so that workspaces of different data directories are different workspaces,
and those that lead to one place are one. Rows in memory are lost with the playground.

The data directory may change while a workspace is current. The workspace of that name
in the new directory is opened when its rows are first asked for (`openCurrent`), and
then that may fail.
-/
import Courier.Run
import Courier.Screen.Event
import Courier.Workspace

namespace Courier

open Courier.Text Courier.Http Courier.Screen Courier.Database

/-! ## The host -/

/--
What the shell stands on. The answers may be of any kind, but they do not change while the
shell runs. What a console raises when it cannot lay something out is neither a refusal nor
an interrupt.
-/
structure Host where
  /-- Why something cannot be laid out on its console, if it cannot. -/
  fault? : Event → Option String := fun _ => none
  /-- What the file of a database holds whose rows are these. -/
  image : Store → Bytes := fun _ => magic
  /--
  What the file of the history holds when a line has been entered, by what it held before, if
  it held anything; nothing if it is left as it was.
  -/
  noted : Option Bytes → String → Option Bytes := fun _ _ => none

/-! ## The session -/

/-- What the shell remembers. -/
structure Session where
  /-- What the shell stands on. -/
  host : Host := {}
  /-- The files that the shell can see. -/
  disk : Disk := {}
  /-- Where the files of the workspaces are. -/
  dataDir : Path := Path.parse "data"
  /-- The rows of the playground. -/
  playground : Store := {}
  /-- The rows of the other workspaces, by the places where they are. -/
  saved : List (Home × Store) := []
  /-- The current workspace. -/
  workspace : String := playgroundName
  /-- The selected environment. -/
  environment : Option String := none
  /-- The selected request. -/
  request : Option String := none
  /-- The far end of every call. -/
  wire : Wire := {}
  /-- What has been shown. -/
  shown : List Event := []

/-- What a line does to a session; it may fail on its way. -/
abbrev Action (α : Type) := EStateM Failure Session α

namespace Session

/-! ## Rows -/

/-- Gives a place its rows, instead of those that it has. -/
def putSaved (home : Home) (rows : Store) : List (Home × Store) → List (Home × Store)
  | [] => [(home, rows)]
  | (h, s) :: rest => if h = home then (h, rows) :: rest else (h, s) :: putSaved home rows rest

/-- Whether the current workspace is the one in memory. -/
def inPlayground (s : Session) : Bool := s.workspace = playgroundName

/-- Where the rows of the current workspace are. -/
def location (s : Session) : Except StorageFault Location := locationOf s.dataDir s.workspace

/-- Whether there are tables in a place. -/
def knows (s : Session) (home : Home) : Bool := (s.saved.lookup home).isSome

/-- The rows of the current workspace. -/
def store (s : Session) : Store :=
  if s.inPlayground then s.playground
  else
    match s.location with
    | .ok l => { (s.saved.lookup l.home).getD {} with readOnly := l.readOnly }
    | .error _ => {}

/-- The session with other rows in the current workspace. -/
def putStore (s : Session) (rows : Store) : Session :=
  if s.inPlayground then { s with playground := rows }
  else
    match s.location with
    | .ok l => { s with saved := putSaved l.home { rows with readOnly := false } s.saved }
    | .error _ => s

/-- The session with tables in a place, which are empty if they were not there. -/
def withTables (s : Session) (home : Home) : Session :=
  if s.knows home then s else { s with saved := putSaved home {} s.saved }

/--
The disk as it is read. The file of a database that is in use holds what its rows come to,
whatever was in it when it was opened.
-/
def contents (s : Session) : Disk :=
  { s.disk with
    files := s.disk.files.map fun (place, bytes) =>
      (place, ((s.saved.lookup (.file place)).map s.host.image).getD bytes) }

/-- The session after its storage was closed: what was in memory is lost. -/
def closed (s : Session) : Session :=
  { s with
    playground := {}
    saved := s.saved.filter (fun (home, _) => home.lasts)
    workspace := playgroundName }

/-- The session with more shown. -/
def withShown (s : Session) (events : List Event) : Session :=
  { s with shown := s.shown ++ events }

end Session

/-! ## Actions -/

/-- Shows something, if its console can lay it out. -/
def showEvent (event : Event) : Action Unit := do
  match (← get).host.fault? event with
  | some reason => throw (.unprintable reason)
  | none => modify (fun s => s.withShown [event])

/-- Shows one thing after the other, up to the first that cannot be laid out. -/
def showEvents (events : List Event) : Action Unit := events.forM showEvent

/-- The result of a computation, or its failure. -/
def orFail {ε α : Type} (cause : ε → Failure) : Except ε α → Action α
  | .ok a => pure a
  | .error e => throw (cause e)

/-- The workspaces in the data directory. -/
def storedWorkspaces : Action (List String) := do
  let s ← get
  orFail .storage (workspacesOn s.disk s.dataDir)

/-- Opens a workspace, unless it is in memory; makes its tables if need be. -/
def openNamed (name : String) : Action (Except StorageFault Unit) := do
  if name = playgroundName then return .ok ()
  let s ← get
  let (result, disk) := openWorkspace s.disk s.knows s.dataDir name
  let s := { s with disk }
  match result with
  | .ok l => set (s.withTables l.home); return .ok ()
  | .error fault => set s; return .error fault

/--
Opens the current workspace. If it has been opened before, this changes and refuses
nothing.
-/
def openCurrent : Action Unit := do
  orFail .storage (← openNamed (← get).workspace)

/-- The session with the rows and the wire of a bench. -/
def Session.putBench (s : Session) (b : Bench) : Session :=
  { s.putStore b.store with wire := b.wire }

/-- Does something on the rows of the current workspace, which is open, and the wire. -/
def onOpened {α : Type} (act : BenchAction α) : Action α := fun s =>
  match act { store := s.store, wire := s.wire } with
  | .ok a b => .ok a (s.putBench b)
  | .error e b => .error e (s.putBench b)

/-- Opens the current workspace, and does something on its rows and the wire. -/
def onBench {α : Type} (act : BenchAction α) : Action α := do
  openCurrent
  onOpened act

/-- Opens the current workspace, and does something on its rows. -/
def onRows {α : Type} (act : StoreAction α) : Action α := onBench (onStore act)

/-- Opens the current workspace, and reads its rows. -/
def askRows {α : Type} (f : Store → α) : Action α := do
  openCurrent
  return f (← get).store

/-- Refuses what was asked for. -/
def refuseAction {α : Type} (refusal : Refusal) : Action α :=
  throw (.refused refusal)

/-- Switches to a workspace. -/
def switchWorkspace (name : String) : Action Unit := do
  if !isWorkspaceName name then refuseAction (.workspace name badWorkspaceName)
  match ← openNamed name with
  | .ok _ => modify (fun s => { s with workspace := name })
  | .error fault => refuseAction (.workspace name fault.message)

end Courier
