/-
Courier.Http.Method — request methods.

A request has one of the methods in `methods`. When none is given, `guessMethod`
guesses it from the verb that the name of the request begins with: `create-user` is
a POST, `update-user` a PATCH, and every name without a known verb is a GET.
-/
import Courier.Text.Basic
import Courier.Text.Case

namespace Courier.Http

open Courier.Text

/-- The methods that a request may have. -/
def methods : List String :=
  ["GET", "POST", "PUT", "PATCH", "DELETE", "HEAD", "OPTIONS", "TRACE", "CONNECT"]

/-- The verbs that reveal a method, and the method; the first that fits counts. -/
def methodVerbs : List (String × String) :=
  [("create", "POST"), ("post", "POST"), ("delete", "DELETE"), ("replace", "PUT"), ("put", "PUT"),
    ("update", "PATCH"), ("patch", "PATCH"), ("head", "HEAD")]

/-- The method that a request name suggests. -/
def guessMethod (name : String) : String :=
  match methodVerbs.find? (fun (verb, _) => startsWith verb (lower name)) with
  | some (_, method) => method
  | none => "GET"

end Courier.Http
