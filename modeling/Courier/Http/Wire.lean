/-
Courier.Http.Wire — what goes out and what comes back.

A `PreparedRequest` is a request with every placeholder filled. Sending it is a
`Call`, and what comes back is a `Reply`; together they are an `Exchange`. The far end
is a `Wire`: the replies that it will give, in order, and the calls that it has seen.
When the replies are used up it goes on answering that all is well.

In a call a header has one value: of several values for a key the last one is sent,
at the place of the first (`mergePairs`). The headers of a reply are merged likewise.

A `Reply` is all that a call can come to. It is assumed that the client fails in the one
way that the shell foresees, with a reason, and in no other.
-/
import Courier.Text.Utf8

namespace Courier.Http

open Courier.Text

/-- Gives a key its value: in place if the key is there, else at the end. -/
def putPair (key value : String) : List (String × String) → List (String × String)
  | [] => [(key, value)]
  | (k, v) :: pairs =>
    if k = key then (k, value) :: pairs else (k, v) :: putPair key value pairs

/-- The pairs with each key once: at its first place, with its last value. -/
def mergePairs (pairs : List (String × String)) : List (String × String) :=
  pairs.foldl (fun merged (key, value) => putPair key value merged) []

/-- A request with every placeholder filled. -/
structure PreparedRequest where
  method : String
  url : String
  headers : List (String × String)
  body : Option Bytes
  deriving DecidableEq, Repr

/-- What the far end does with a call. Whatever goes wrong is of the second kind. -/
inductive Reply where
  /-- It answers. -/
  | answer (status : Int) (reason : Option String) (headers : List (String × String))
      (text : String)
  /-- It cannot be reached. -/
  | unreachable (reason : String)
  deriving DecidableEq, Repr

/-- The reply when none is waiting. -/
def Reply.allWell : Reply := .answer 200 (some "OK") [] ""

/-- What was sent over the wire. -/
structure Call where
  method : String
  url : String
  headers : List (String × String)
  data : Option Bytes
  deriving DecidableEq, Repr

/-- The seconds after which a call is given up. -/
def callTimeout : Nat := 30

/-- The far end. -/
structure Wire where
  /-- The replies that it will give. -/
  queue : List Reply := []
  /-- The calls that it has seen. -/
  calls : List Call := []
  /-- How many containers may lie in each other in a text from it that is read as JSON. -/
  depth : Nat := 991
  deriving DecidableEq, Repr

/-- Sends a prepared request: the reply, and the wire afterwards. -/
def Wire.send (w : Wire) (p : PreparedRequest) : Reply × Wire :=
  let call := { method := p.method, url := p.url, headers := mergePairs p.headers, data := p.body }
  ((w.queue.head?).getD .allWell, { w with queue := w.queue.tail, calls := w.calls ++ [call] })

/-- A prepared request and what came back. -/
structure Exchange where
  request : PreparedRequest
  status : Int
  reason : String
  headers : List (String × String)
  text : String
  /-- How many containers may lie in each other if the text is read as JSON. -/
  depth : Nat
  deriving DecidableEq, Repr

end Courier.Http
