/-
Courier.Run.Prepare — from a stored request to the requests that are sent.

Every placeholder of a request needs a value. An option of the request gives it one
or several, a variable of the environment gives it one; an option goes before a
variable. A request with several values for its placeholders becomes one prepared
request for each combination (`combinations`), the last placeholder changing fastest.

`expandRequest` fails if a placeholder has no value at all, and names every such
placeholder. Values are put into the URL, into the values of headers and into the
body.
-/
import Courier.Http.Wire
import Courier.Store.Requests

namespace Courier

open Courier.Text Courier.Http Courier.Store

/-- The values that the options of a request give to the placeholders that it needs. -/
def optionValues (s : Store) (r : Request) : List (String × List String) :=
  (s.optionsOf (some r.name)).filterMap fun o =>
    match o.value with
    | some value =>
      if r.placeholders.contains o.name then some (o.name, splitOn '\n' value) else none
    | none => none

/-- The values of the variables of an environment. -/
def variableValues (s : Store) (env : Option String) : List (String × String) :=
  match env with
  | none => []
  | some env =>
    (s.variablesWhere none (some env)).filterMap fun v => v.value.map (fun value => (v.name, value))

/-- The placeholders of a request for which there is no value. -/
def missingValues (s : Store) (r : Request) (env : Option String) : List String :=
  r.placeholders.filter fun name =>
    ((optionValues s r).lookup name).isNone && ((variableValues s env).lookup name).isNone

/-- One value for each name, in every combination; those of the last name change fastest. -/
def combinations : List (String × List String) → List (List (String × String))
  | [] => [[]]
  | (name, values) :: rest =>
    values.flatMap (fun value => (combinations rest).map ((name, value) :: ·))

/-- The request with values in the place of its placeholders; the first value of a name counts. -/
def Store.Request.fill (r : Request) (values : List (String × String)) : PreparedRequest :=
  { method := r.method
    url := substitute r.url values
    headers := (r.headers.map headerPair).map (fun (key, value) => (key, substitute value values))
    body := r.body.map (fun bytes => encode (substitute (decode bytes) values)) }

/-- The requests that a stored request stands for in an environment. -/
def expandRequest (s : Store) (r : Request) (env : Option String) :
    Except Refusal (List PreparedRequest) :=
  let missing := missingValues s r env
  if missing.isEmpty then
    .ok ((combinations (optionValues s r)).map fun chosen =>
      r.fill (chosen ++ variableValues s env))
  else .error (.missingValues r.name missing)

end Courier
