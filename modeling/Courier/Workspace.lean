/-
Courier.Workspace — the files of workspaces.

The workspace named `playground` is kept in memory. Every other workspace is a
database in the data directory, named for the workspace (`databasePath`); the name says
where its rows are (`locationOf`).

* `openWorkspace` opens a workspace. It makes the data directory and the file if need
  be, and says why it could not.
* `workspacesOn` lists the workspaces of a data directory.
-/
import Courier.Database.Contents
import Courier.Database.Name

namespace Courier

open Courier.Text Courier.Database

/-! ## Names -/

/-- The workspace that is kept in memory. -/
def playgroundName : String := "playground"

/-- Whether a character may occur in the name of a workspace. -/
def isWorkspaceChar (c : Char) : Bool :=
  ('A' ≤ c && c ≤ 'Z') || ('a' ≤ c && c ≤ 'z') || ('0' ≤ c && c ≤ '9') ||
    c == '_' || c == '.' || c == '-'

/-- The characters without a line break at the end. -/
def dropLineEnd (cs : List Char) : List Char :=
  if cs.getLast? = some '\n' then cs.dropLast else cs

/--
Whether a text is the name of a workspace: letters, digits, dots, dashes and
underscores, with no dot in front. One line break may stand at the end.
-/
def isWorkspaceName (name : String) : Bool :=
  let cs := dropLineEnd name.toList
  !cs.isEmpty && cs.all isWorkspaceChar && cs.head? != some '.'

/-- Why a text is not the name of a workspace. -/
def badWorkspaceName : String :=
  "names may only contain letters, digits, '.', '_' and '-'"

/-! ## Files -/

/-- What the file of a workspace ends in. -/
def databaseSuffix : String := ".db"

/-- The path of the file of a workspace. -/
def databasePath (dataDir : Path) (name : String) : Path :=
  dataDir.join (Path.parse (name ++ databaseSuffix))

/-- Where the rows of a workspace are. -/
def locationOf (dataDir : Path) (name : String) : Except StorageFault Location :=
  Location.ofName (databasePath dataDir name)

/-! ## Opening -/

/-- The longest path from the root to a database, in bytes. -/
def maxDatabasePath : Nat := 504

/-- The longest path from the root to a place on the way to a database, in bytes. -/
def maxWay : Nat := 511

/-- What the name of the journal of a database ends in. -/
def journalSuffix : String := "-journal"

/-- What the name of the log of a database ends in. -/
def logSuffix : String := "-wal"

/-- The place of a file beside a database. -/
def beside (place : Place) (suffix : String) : Place :=
  place.dropLast ++ [(place.getLast?).getD "" ++ suffix]

/-- Whether the journal of a database at this place has a name that is too long. -/
def journalTooLong (place : Place) : Bool :=
  ((beside place journalSuffix).getLast?).any (fun name => Disk.byteLength name > Disk.maxName)

/-- Whether a text names something that is there. -/
def leadsSomewhere (d : Disk) (path : String) : Bool :=
  !path.isEmpty && (d.locate (Path.parse path)).toOption.any d.has

/-- Whether a way leads through this place in vain, whatever else is made. -/
def isBarred (d : Disk) (place : Place) : Bool :=
  maxWay < d.fullLength place ||
    place.any (fun name => Disk.maxName < Disk.byteLength name) ||
    (List.range place.length).any (fun n => (d.file? (place.take n)).isSome)

/-- Why the file of a database cannot be opened, if it cannot. -/
def fileFault? (d : Disk) (place : Place) (l : Location) : Option StorageFault :=
  if place = [] || maxDatabasePath < d.fullLength place || l.way.any (isBarred d) then
    some .cannotOpen
  else if l.lender.any (fun path => !leadsSomewhere d path) then some .ioError
  else if d.hasDir place then some (if l.mode = .read then .ioError else .cannotOpen)
  else if (d.file? place).isSome then none
  else if l.mode = .create && d.hasDir place.dropLast then none
  else some .cannotOpen

/--
Why there cannot be tables in a database without contents, if there cannot. Where its
journal or its log would be there must be no directory.
-/
def blankFault? (d : Disk) (place : Place) (readOnly : Bool) : Option StorageFault :=
  if d.hasDir (beside place logSuffix) then some .ioError
  else if readOnly then some .readOnly
  else if d.hasDir (beside place journalSuffix) || journalTooLong place then some .cannotOpen
  else if place = Disk.nullFile then some .ioError
  else none

/--
Why the tables in the file of a database cannot be used, if they cannot. `known` says that
they are there; otherwise they are made. Before a file with contents is looked at, so are its
journal and its log, except if nobody changes it.
-/
def tablesFault? (d : Disk) (place : Place) (l : Location) (known : Bool) : Option StorageFault :=
  let bytes := (d.file? place).getD []
  let contents := (contentFault? bytes).orElse fun _ =>
    if l.readOnly then some .readOnly
    else if journalTooLong place then some .cannotOpen
    else none
  if l.frozen then if known then none else contents
  else if !known && isBlankFile bytes then blankFault? d place l.readOnly
  else if d.hasDir (beside place journalSuffix) then some .ioError
  else if d.hasDir (beside place logSuffix) then some .cannotOpen
  else if known then none
  else contents

/--
Opens the database at a location, and makes it if need be: why not, if not, and the disk.
`known` says whether there are tables in it. A new file is blank; what is in it when rows have
been put there is no matter of the disk (`Session.contents`).
-/
def openDatabase (d : Disk) (l : Location) (known : Bool) : Option StorageFault × Disk :=
  match l.home with
  | .file place =>
    match fileFault? d place l with
    | some fault => (some fault, d)
    | none =>
      (tablesFault? d place l known, if (d.file? place).isSome then d else d.write place [])
  | _ => (if l.readOnly && !known then some .readOnly else none, d)

/--
Opens a workspace in a data directory, which is made if need be; `known` says in which places
there are tables.
-/
def openWorkspace (d : Disk) (known : Home → Bool) (dataDir : Path) (name : String) :
    Except StorageFault Location × Disk :=
  match d.makeDirs dataDir with
  | (some (fault, p), d) => (.error (.directory fault p.text), d)
  | (none, d) =>
    match locationOf dataDir name with
    | .error fault => (.error fault, d)
    | .ok l =>
      match openDatabase d l (known l.home) with
      | (some fault, d) => (.error fault, d)
      | (none, d) => (.ok l, d)

/-! ## Listing -/

/-- The name of the workspace in a file; the suffix alone is a name of its own. -/
def stemOf (file : String) : String :=
  if file = databaseSuffix then file
  else String.ofList (file.toList.take (file.length - databaseSuffix.length))

/-- The place of the data directory, if it is there; too long a path cannot even be asked about. -/
def dataDirAt? (d : Disk) (dataDir : Path) : Except StorageFault (Option Place) :=
  match d.locate dataDir with
  | .ok place => .ok (if d.hasDir place then some place else none)
  | .error .nameTooLong => .error (.directory .nameTooLong dataDir.text)
  | .error _ => .ok none

/-- The workspaces in a directory, in ascending order. -/
def workspacesAt (d : Disk) (place : Place) : List String :=
  let files := (d.files.filter (fun f => f.1.dropLast = place)).filterMap (fun f => f.1.getLast?)
  ((files.filter (endsWith databaseSuffix)).map stemOf).mergeSort (fun a b => !(b < a))

/-- The workspaces in a data directory, in ascending order; there are none without it. -/
def workspacesOn (d : Disk) (dataDir : Path) : Except StorageFault (List String) := do
  match ← dataDirAt? d dataDir with
  | some place => return workspacesAt d place
  | none => return []

end Courier
