/-
Courier.Http.Header — header lines.

A header is typed as `Key: Value`: what stands before the first colon is its key,
what stands after it its value, and blanks around either do not count.

* `isHeader h` accepts a text that has a colon and a key that is not blank.
* `storedHeader? h` is the form in which a header is stored, `Key: Value` with one
  space; only headers have one.
* `looseHeader h` is the form by which completion compares headers, some of which
  are still being typed: without a colon, a text is only stripped.
* `headerPair h` takes a stored header apart again.
-/
import Courier.Text.Basic
import Courier.Text.Blank

namespace Courier.Http

open Courier.Text

/-- Whether a text has a key in front of a colon. -/
def isHeader (h : String) : Bool :=
  match cut ':' h with
  | (key, some _) => !(strip key).isEmpty
  | (_, none) => false

/-- A key and a value, written as a header. -/
def writeHeader (key value : String) : String :=
  key ++ ": " ++ value

/-- The stored form of a header. -/
def storedHeader? (h : String) : Option String :=
  match cut ':' h with
  | (key, some value) =>
    if (strip key).isEmpty then none else some (writeHeader (strip key) (strip value))
  | (_, none) => none

/-- The form by which headers are compared while they are typed. -/
def looseHeader (h : String) : String :=
  match cut ':' h with
  | (key, some value) => writeHeader (strip key) (strip value)
  | (_, none) => strip h

/-- The key and the value of a header; without a colon all of it is key. -/
def headerPair (h : String) : String × String :=
  let (key, value) := cut ':' h
  (strip key, strip (value.getD ""))

end Courier.Http
