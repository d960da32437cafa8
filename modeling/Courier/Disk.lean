/-
Courier.Disk — the files that the shell can see.

Bodies are read from files, and workspaces are files in a data directory. A `Disk` is
a tree of directories and files; a `Path` is how a text names a place in it. Paths
lose empty steps and steps that stay in place, and keep steps to the parent, because
those depend on what is there. Relative paths begin in the working directory, which
lies below the root under a name that no path can spell.

Walking along a path fails where a step leads nowhere, goes through a file, or has a
name that is too long; the failure is an `IoFault`.

Whose home is where, and where the working directory lies, is a matter of the machine
(`Machine`). Nobody else is at work on a disk: there are no permissions, no locks and no
links on it, and nothing changes it but the shell.
-/
import Courier.Failure
import Courier.Text.Basic
import Courier.Text.Utf8

namespace Courier

open Courier.Text

/-! ## Paths -/

/-- A place in the tree, as it is written. -/
structure Path where
  /-- The slashes in front: none for a relative path. -/
  anchor : String
  /-- The steps. -/
  steps : List String
  deriving DecidableEq, Repr

namespace Path

/-- The slashes that a path with so many slashes in front keeps; two are kept, more are one. -/
def anchorOf (slashes : Nat) : String :=
  if slashes = 0 then "" else if slashes = 2 then "//" else "/"

/-- The steps in a text: its parts between slashes, without empty ones and single dots. -/
def stepsOf (s : String) : List String :=
  (splitOn '/' s).filter (fun step => !step.isEmpty && step != ".")

/-- Reads a path. -/
def parse (s : String) : Path :=
  { anchor := anchorOf (s.toList.takeWhile (· = '/')).length, steps := stepsOf s }

/-- Whether a path begins at the root. -/
def isAbsolute (p : Path) : Bool := !p.anchor.isEmpty

/-- A path as it is written; the empty one is a dot. -/
def text (p : Path) : String :=
  if p.anchor.isEmpty && p.steps.isEmpty then "." else p.anchor ++ "/".intercalate p.steps

/-- The path that leads on from a path; an absolute one starts anew. -/
def join (p next : Path) : Path :=
  if next.isAbsolute then next else { p with steps := p.steps ++ next.steps }

/-- The path without its last step. -/
def parent (p : Path) : Path := { p with steps := p.steps.dropLast }

/-- Whether a text holds a NUL, so that the system does not take it for a name. -/
def hasNul (s : String) : Bool := s.toList.contains '\x00'

end Path

/-! ## The machine -/

/-- What paths mean on a machine, whatever is on its disk. -/
structure Machine where
  /-- The home directories of users, by a tilde and their names; the tilde alone is the user's. -/
  homes : List (String × Path) := [("~", Path.parse "/home/tester"), ("~root", Path.parse "/root")]
  /-- How many bytes the path from the root to the working directory has. -/
  workLength : Nat := 16
  deriving DecidableEq, Repr

/-- A path with a home directory in the place of a tilde in front, and of a name behind it. -/
def Path.expandHome (p : Path) (m : Machine) : Except Failure Path :=
  match p.anchor.isEmpty, p.steps with
  | true, step :: steps =>
    match m.homes.lookup step with
    | some home => .ok { home with steps := home.steps ++ steps }
    | none =>
      if startsWith "~" step then .error (if hasNul step then .nulInPath else .unknownHome)
      else .ok p
  | _, _ => .ok p

/-! ## The tree -/

/-- The steps from the root to a directory or file. -/
abbrev Place := List String

/-- The directories that a system usually begins with. -/
def systemDirs : List Place :=
  ["bin", "boot", "dev", "etc", "home", "lib", "media", "mnt", "opt", "proc", "root", "run", "sbin",
    "srv", "sys", "tmp", "usr", "var"].map (fun name => [name])

/-- The directories and files that the shell can see. -/
structure Disk where
  /-- The directories, without the root and the working directory. -/
  dirs : List Place := systemDirs
  /-- The files and what they hold. -/
  files : List (Place × Bytes) := []
  /-- The machine that the disk belongs to. -/
  machine : Machine := {}
  deriving DecidableEq, Repr

namespace Disk

/-- The working directory. -/
def workPlace : Place := ["\x00"]

/-- The longest name of a file or directory, in bytes. -/
def maxName : Nat := 255

/-- The longest path, in bytes. -/
def maxPath : Nat := 4095

/-- The number of bytes of a text. -/
def byteLength (s : String) : Nat := (encode s).length

/-- The file that is always there and always empty. -/
def nullFile : Place := ["dev", "null"]

/-- Whether there is a directory at a place. -/
def hasDir (d : Disk) (place : Place) : Bool :=
  place = [] || place = workPlace || d.dirs.contains place

/-- What the file at a place holds. -/
def file? (d : Disk) (place : Place) : Option Bytes :=
  if place = nullFile then some [] else d.files.lookup place

/-- Whether there is something at a place. -/
def has (d : Disk) (place : Place) : Bool := d.hasDir place || (d.file? place).isSome

/-- One step from a place; it need not lead to something. -/
def stepFrom (d : Disk) (place : Place) (step : String) : Except IoFault Place :=
  if !d.hasDir place then .error .notADirectory
  else if step = ".." then .ok place.dropLast
  else if byteLength step > maxName then .error .nameTooLong
  else .ok (place ++ [step])

/-- Walks from a place; all steps lead to something, except perhaps the last. -/
def walk (d : Disk) (place : Place) : List String → Except IoFault Place
  | [] => .ok place
  | [step] => d.stepFrom place step
  | step :: steps => do
    let next ← d.stepFrom place step
    if d.has next then d.walk next steps else throw .noEntry

/-- The place that a path names, whether or not something is there. -/
def locate (d : Disk) (p : Path) : Except IoFault Place :=
  if byteLength p.text > maxPath then .error .nameTooLong
  else d.walk (if p.isAbsolute then [] else workPlace) p.steps

/-- Whether a path leads to a directory. -/
def isDir (d : Disk) (p : Path) : Bool :=
  match d.locate p with
  | .ok place => d.hasDir place
  | .error _ => false

/--
The places along some steps, by the steps alone, whatever is there: a step to the parent
takes back the step in front of it.
-/
def plainVisits (place : Place) : List String → List Place
  | [] => []
  | step :: steps =>
    let next := if step = ".." then place.dropLast else place ++ [step]
    next :: plainVisits next steps

/-- The places along a path by its steps alone, the place that it starts from included. -/
def plainPlaces (p : Path) : List Place :=
  let start := if p.isAbsolute then [] else workPlace
  start :: plainVisits start p.steps

/-- How many bytes the path from the root to a place has. -/
def fullLength (d : Disk) (place : Place) : Nat :=
  place.foldl
    (fun n name => n + if workPlace = [name] then d.machine.workLength else 1 + byteLength name) 0

/-- What the file holds that a path leads to. -/
def read (d : Disk) (p : Path) : Except IoFault Bytes := do
  let place ← d.locate p
  if d.hasDir place then throw .isADirectory
  match d.file? place with
  | some bytes => return bytes
  | none => throw .noEntry

/-- The disk with a file in it. -/
def write (d : Disk) (place : Place) (bytes : Bytes) : Disk :=
  { d with files := (place, bytes) :: d.files.filter (fun f => f.1 ≠ place) }

/-- The disk with the directories in it that lie between the working directory and a place. -/
def addParents (d : Disk) (place : Place) : Disk :=
  let between := (List.range place.length).map (fun n => place.take n)
  { d with dirs := d.dirs ++ between.filter (fun p => !d.hasDir p) }

/-- The disk that holds these files, named from the working directory. -/
def ofFiles (files : List (String × Bytes)) : Disk :=
  files.foldl (fun d (name, bytes) =>
    let place := workPlace ++ Path.stepsOf name
    (d.addParents place).write place bytes) {}

/-! ## New directories -/

/-- Makes one directory; its parent has to be there. -/
def makeDir (d : Disk) (p : Path) : Except IoFault Disk := do
  let place ← d.locate p
  if d.has place then throw .exists
  return { d with dirs := d.dirs ++ [place] }

/-- Why a directory could not be made, and which; and the disk with what was made before. -/
abbrev Made := Option (IoFault × Path) × Disk

/-- Makes sure that there is a directory where a path leads, if its parent is there. -/
def ensureDir (d : Disk) (p : Path) : Made :=
  match d.makeDir p with
  | .ok d' => (none, d')
  | .error .noEntry => (some (.noEntry, p), d)
  | .error fault => (if d.isDir p then none else some (fault, p), d)

/-- Makes sure that the directories along a path are there; `depth` bounds how far up it goes. -/
def ensureDirs (d : Disk) (p : Path) : Nat → Made
  | 0 => d.ensureDir p
  | depth + 1 =>
    match d.makeDir p with
    | .error .noEntry =>
      match d.ensureDirs p.parent depth with
      | (none, d') => d'.ensureDir p
      | failed => failed
    | _ => d.ensureDir p

/-- Makes sure that there is a directory where a path leads, and its parents with it. -/
def makeDirs (d : Disk) (p : Path) : Made :=
  d.ensureDirs p p.steps.length

end Disk

end Courier
