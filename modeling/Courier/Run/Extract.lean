/-
Courier.Run.Extract — taking a value out of a response.

A value is taken either from the headers of a response, by the name of a header in
any case, or from its body, by a path into the JSON document that it holds. There may
be no such value; a path with a step that is taken for a number and is none is an
error instead, and so is a document that lies too deep in itself.

What is found is given in 16-bit units, because a string in a document need not be a
text.
-/
import Courier.Http.Wire
import Courier.Json.Path
import Courier.Text.Case

namespace Courier

open Courier.Text Courier.Http

/-- The value of the first header with this name, in any case. -/
def headerValue? (name : String) (headers : List (String × String)) : Option String :=
  (headers.find? (fun (key, _) => lower key = lower name)).map Prod.snd

/-- The value that a source and a path select from an exchange. -/
def extractFromExchange (source path : String) (x : Exchange) :
    Except Json.SelectFault (Option Units) :=
  if source = "header" then .ok ((headerValue? path x.headers).map units)
  else Json.select x.depth path x.text

end Courier
