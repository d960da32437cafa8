/-
Courier.Store.Row — what is stored.

A workspace holds five kinds of rows.

* A `Request` is a template for HTTP requests, found by its name.
* A `Variable` is a value under a name in one environment.
* A `RequestOption` is a placeholder of a request and, once set, the values to put in
  its place, one per line. Without a value the variable of that name is used.
* An `Extraction` says that part of each response to a request is saved in a variable.
* A `Response` is what came back for one exchange of the last run of a request,
  together with what was sent.

Header lists are stored as lines: what is read back are the non-empty lines of what
was written (`storedLines`).
-/
import Courier.Text.Basic
import Courier.Text.Utf8

namespace Courier.Store

open Courier.Text

/-- A template for HTTP requests. -/
structure Request where
  name : String
  method : String
  url : String
  /-- Header lines, `Key: Value`. -/
  headers : List String := []
  body : Option Bytes := none
  deriving DecidableEq, Repr

/-- A value under a name in one environment. -/
structure Variable where
  /-- The number of the row, never given to another one. -/
  id : Nat
  name : String
  env : String
  value : Option String
  /-- Who set the value: the user, or the request that it was taken from. -/
  source : Option String
  deriving DecidableEq, Repr

/-- A placeholder of a request and the values to put in its place. -/
structure RequestOption where
  request : String
  name : String
  /-- The values, one per line. -/
  value : Option String
  deriving DecidableEq, Repr

/-- Part of a response that is saved in a variable. -/
structure Extraction where
  request : String
  /-- The name of the variable. -/
  target : String
  /-- The part of the response: its headers or its body. -/
  source : String
  /-- The name of a header, or the path into a body. -/
  path : String
  deriving DecidableEq, Repr

/-- One exchange of the last run of a request. -/
structure Response where
  /-- The number of the row, never given to another one. -/
  id : Int
  request : String
  method : String
  url : String
  status : Int
  reason : String
  requestHeaders : List String
  requestBody : Option Bytes
  headers : List String
  body : String
  /-- The variables that were saved from this response, and their values. -/
  extractions : List (String × String)
  deriving DecidableEq, Repr

/-- Whether a row can hold an integer: it has 64 bits, one of them for the sign. -/
def fitsRow (i : Int) : Bool :=
  -9223372036854775808 ≤ i && i ≤ 9223372036854775807

/-- What is read back of a list of lines that was stored. -/
def storedLines (written : List String) : List String :=
  lines (joinLines written)

end Courier.Store
