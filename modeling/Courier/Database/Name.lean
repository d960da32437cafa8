/-
Courier.Database.Name — where a database is, and what may be done with it.

A database has a name, which mostly is the path of a file. A name that begins with
`file:` is a URI: its path ends at the first `?` or `#`, bytes may be written behind
percent signs, and what follows the `?` are parameters. They say

* `mode`: whether the file has to be there already, is only read, or is no file at all
  but memory (`Mode`). A later mode takes the place of an earlier one and may not ask for
  more.
* `cache`: whether all who ask for one path share what they read. For a database in
  memory that decides who sees its rows: only one name (`Home.own`), or all that share it
  (`Home.common`).
* `vfs`: what kind of files these are. One kind is memory too.
* `immutable`: whether the file counts as one that nobody changes.
* `modeof`: a path that lends its rights to a new file, and so has to lead somewhere.

The place of a file is found by the steps of its path alone, so that all spellings of one
path lead to one file. `Location.ofName` reads a name; what it asks for and there is not
is a `StorageFault`.
-/
import Courier.Disk
import Courier.Text.Hex

namespace Courier.Database

open Courier.Text

/-! ## URIs -/

/-- What a name begins with that is a URI. -/
def uriScheme : String := "file:"

/-- The bytes that a part of a URI stands for; a zero byte ends it. -/
def uriBytes : List Char → Bytes
  | [] => []
  | '%' :: a :: b :: cs =>
    match hexDigit? a, hexDigit? b with
    | some x, some y =>
      if 16 * x + y = 0 then [] else (16 * x + y).toUInt8 :: uriBytes cs
    | _, _ => encode "%" ++ uriBytes (a :: b :: cs)
  | c :: cs => String.utf8EncodeChar c ++ uriBytes cs

/-- The text that a part of a URI stands for. -/
def uriText (s : String) : String := decode (uriBytes s.toList)

/-- A path with parameters. -/
structure Uri where
  path : String
  parameters : List (String × String)
  deriving DecidableEq, Repr

namespace Uri

/-- Reads a parameter; one without a value has an empty one. -/
def readParameter (s : String) : String × String :=
  (uriText (cut '=' s).1, uriText ((cut '=' s).2.getD ""))

/-- Reads what follows the scheme of a URI; parameters without a name are left out. -/
def parse (s : String) : Uri :=
  let (path, asked) := cut '?' (cut '#' s).1
  { path := uriText path
    parameters :=
      ((splitOn '&' (asked.getD "")).map readParameter).filter (fun p => !p.1.isEmpty) }

/-- The first value of a parameter. -/
def first? (u : Uri) (name : String) : Option String := u.parameters.lookup name

/-- The last value of a parameter. -/
def last? (u : Uri) (name : String) : Option String := u.parameters.reverse.lookup name

end Uri

/-- The greatest number that a value may be. -/
def maxNumber : Nat := 2147483647

/--
Whether a value says yes: it begins with a number whose last byte is not zero, or is a
word for yes.
-/
def saysYes (value : String) : Bool :=
  let digits := value.toList.takeWhile Char.isDigit
  if digits.isEmpty then ["on", "yes", "true"].contains value.toLower
  else
    let n := digits.foldl (fun n c => 10 * n + (c.toNat - '0'.toNat)) 0
    n ≤ maxNumber && n % 256 ≠ 0

/-! ## Modes -/

/-- How a database is opened. -/
inductive Mode where
  /-- It is made if it is not there. -/
  | create
  /-- It has to be there. -/
  | change
  /-- It has to be there, and is only read. -/
  | read
  /-- It is made in memory. -/
  | memory
  deriving DecidableEq, Repr

/-- The mode that a value asks for. -/
def Mode.named? (value : String) : Option Mode :=
  [("rwc", .create), ("rw", .change), ("ro", .read), ("memory", .memory)].lookup value

/-- Whether a mode asks for no more than another one; memory is not compared. -/
def Mode.within : Mode → Mode → Bool
  | .memory, _ => true
  | _, .memory => true
  | .read, _ => true
  | .change, given => given ≠ .read
  | .create, given => given = .create

/-- The values of `cache`. -/
def cacheModes : List String := ["shared", "private"]

/-- The mode that is left of one after these parameters, unless one of them asks for too much. -/
def modeAfter (given : Mode) : List (String × String) → Except StorageFault Mode
  | [] => .ok given
  | (name, value) :: rest =>
    if name = "mode" then
      match Mode.named? value with
      | none => .error (.noSuch "access mode" value)
      | some asked =>
        if asked.within given then modeAfter asked rest else .error (.modeNotAllowed value)
    else if name = "cache" && !cacheModes.contains value then
      .error (.noSuch "cache mode" value)
    else modeAfter given rest

/-! ## Locations -/

/-- Where rows are kept. -/
inductive Home where
  /-- In the file at a place. -/
  | file (place : Place)
  /-- In memory, for one name alone. -/
  | own (name : String)
  /-- In memory, for all names that share a path of one kind. -/
  | common (kind path : String)
  deriving DecidableEq, Repr

/-- Whether rows outlast the storage's being closed. -/
def Home.lasts : Home → Bool
  | .file _ => true
  | _ => false

/-- Where a database is, and what may be done with it. -/
structure Location where
  home : Home
  /-- The places that lead to the file, which is the last of them. -/
  way : List Place := []
  mode : Mode := .create
  /-- Whether the file counts as one that nobody changes. -/
  frozen : Bool := false
  /-- The path that lends its rights to a new file. -/
  lender : Option String := none
  deriving DecidableEq, Repr

/-- Whether nothing can be written. -/
def Location.readOnly (l : Location) : Bool := l.mode = .read || l.frozen

/-- The location of the file that a path leads to. -/
def Location.ofPath (p : Path) : Location :=
  let way := Disk.plainPlaces p
  { home := .file ((way.getLast?).getD []), way }

/-- The kinds of files that there are. -/
def fileKinds : List String := ["unix", "unix-none", "unix-dotfile", "unix-excl"]

/-- The kind of files that are memory. -/
def memoryKind : String := "memdb"

/-- The path that stands for memory. -/
def memoryPath : String := ":memory:"

/-- Whether a path stands for the same memory whoever asks for it. -/
def isCommonPath (path : String) : Bool := startsWith "/" path && path ≠ "/"

/-- The location that a URI stands for, which is the whole of a name. -/
def Location.ofUri (name : String) (u : Uri) : Except StorageFault Location := do
  let mode ← modeAfter .create u.parameters
  let kind := (u.last? "vfs").getD "unix"
  if kind ≠ memoryKind && !fileKinds.contains kind then throw (.noSuch "vfs" kind)
  let shared := u.last? "cache" = some "shared"
  let frozen := (u.first? "immutable").any saysYes
  if u.path.isEmpty then return { home := .own name, mode }
  if mode = .memory || u.path = memoryPath then
    return { home := if shared then .common kind u.path else .own name, mode }
  if kind = memoryKind then
    let home := if shared || isCommonPath u.path then .common kind u.path else .own name
    return { home, mode, frozen }
  return { Location.ofPath (Path.parse u.path) with mode, frozen, lender := u.first? "modeof" }

/-- The location that a name stands for. -/
def Location.ofName (p : Path) : Except StorageFault Location :=
  if startsWith uriScheme p.text then
    Location.ofUri p.text (.parse (String.ofList (p.text.toList.drop uriScheme.length)))
  else .ok (Location.ofPath p)

end Courier.Database
