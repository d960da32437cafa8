/-
Courier.Store.Basic — the rows of a workspace.

A `Store` is five tables, each a list of rows in the order in which it is listed:
requests by name, variables by name and environment, options and extractions by
request and name, responses by number. A new row is put at its place, so that every
listing is a filter.

The store keeps four rules, whatever is done to it: request names are unique, a
variable has one row for each environment, options and extractions have one row for
each request and name, and what belongs to a request is deleted with it. An operation
that would break one of them is a `Constraint` and changes nothing.

Variables and responses are numbered. A number is used once: deleting the row does not
free it, and giving an existing variable a new value uses one up without giving it to
the row.
-/
import Courier.Store.Row
import Courier.Text.Like
import Courier.Failure

namespace Courier.Store

open Courier.Text

/-! ## Ordered tables -/

/-- Whether the first key stands before the second one. -/
def keyBefore (a b : String × String) : Bool :=
  a.1 < b.1 || (a.1 = b.1 && a.2 < b.2)

/-- Puts a row at the place of its key, instead of the row that has this key if there is one. -/
def putRow {α : Type} (key : α → String × String) (row : α) : List α → List α
  | [] => [row]
  | r :: rs =>
    if keyBefore (key row) (key r) then row :: r :: rs
    else if key row = key r then row :: rs
    else r :: putRow key row rs

/-- The key of a request. -/
def Request.tableKey (r : Request) : String × String := (r.name, "")

/-- The key of a variable. -/
def Variable.tableKey (v : Variable) : String × String := (v.name, v.env)

/-- The key of an option. -/
def RequestOption.tableKey (o : RequestOption) : String × String := (o.request, o.name)

/-- The key of an extraction. -/
def Extraction.tableKey (e : Extraction) : String × String := (e.request, e.target)

end Courier.Store

namespace Courier

open Courier.Store Courier.Text

/-! ## The store -/

/-- The rows of a workspace. -/
structure Store where
  requests : List Request := []
  vars : List Variable := []
  options : List RequestOption := []
  extractions : List Extraction := []
  responses : List Response := []
  /-- The last number used for a variable. -/
  lastVariable : Nat := 0
  /-- The last number used for a response. -/
  lastResponse : Nat := 0
  /-- Whether nothing can be written. -/
  readOnly : Bool := false
  deriving DecidableEq, Repr

namespace Store

/-! ### Requests -/

/-- The request with this name. -/
def request? (s : Store) (name : String) : Option Request :=
  s.requests.find? (fun r => r.name = name)

/-- Whether there is a request with this name. -/
def hasRequest (s : Store) (name : String) : Bool := (s.request? name).isSome

/-- Stores a new request; its headers are read back as lines. -/
def insertRequest (s : Store) (r : Request) : Except Constraint (Request × Store) :=
  if s.hasRequest r.name then .error .uniqueRequest
  else
    let row := { r with headers := storedLines r.headers }
    .ok (row, { s with requests := putRow Request.tableKey row s.requests })

/-- The requests whose name matches a pattern. -/
def requestsLike (s : Store) (pattern : String) : List Request :=
  s.requests.filter (fun r => like pattern r.name)

/-- The store without a request and what belongs to it. -/
def dropRequest (s : Store) (name : String) : Store :=
  { s with
    requests := s.requests.filter (fun r => r.name ≠ name)
    options := s.options.filter (fun o => o.request ≠ name)
    extractions := s.extractions.filter (fun e => e.request ≠ name)
    responses := s.responses.filter (fun r => r.request ≠ name) }

/-! ### Variables -/

/-- The row of a variable in an environment. -/
def variableAt? (s : Store) (name env : String) : Option Variable :=
  s.vars.find? (fun v => v.name = name && v.env = env)

/-- Gives a variable its value in an environment; a row that exists keeps its number. -/
def putVariable (s : Store) (name env : String) (value source : Option String) :
    Variable × Store :=
  let fresh := s.lastVariable + 1
  let id := match s.variableAt? name env with
    | some v => v.id
    | none => fresh
  let row := { id, name, env, value, source }
  (row, { s with vars := putRow Variable.tableKey row s.vars, lastVariable := fresh })

/-- The variables with this name, if one is given, in this environment, if one is given. -/
def variablesWhere (s : Store) (name env : Option String) : List Variable :=
  s.vars.filter (fun v => name.all (· = v.name) && env.all (· = v.env))

/-- Deletes variables; the result is how many there were. -/
def deleteVariablesBy (s : Store) (doomed : Variable → Bool) : Nat × Store :=
  (s.vars.countP doomed, { s with vars := s.vars.filter (fun v => !doomed v) })

/-- Deletes the variables with this name, in this environment if one is given. -/
def deleteVariablesNamed (s : Store) (name : String) (env : Option String) : Nat × Store :=
  s.deleteVariablesBy (fun v => v.name = name && env.all (· = v.env))

/-- Deletes the variable with this number. -/
def deleteVariableNumbered (s : Store) (id : Int) : Nat × Store :=
  s.deleteVariablesBy (fun v => (v.id : Int) = id)

/-- The environments in which there are variables, in ascending order. -/
def environments (s : Store) : List String :=
  ascending (s.vars.map Variable.env)

/-! ### Options -/

/-- The row of an option of a request. -/
def option? (s : Store) (request name : String) : Option RequestOption :=
  s.options.find? (fun o => o.request = request && o.name = name)

/-- Makes sure that a request has an option, without a value if it is new. -/
def declareOption (s : Store) (request name : String) : Except Constraint Store :=
  if !s.hasRequest request then .error .existingRequest
  else
    match s.option? request name with
    | some _ => .ok s
    | none =>
      .ok { s with options := putRow RequestOption.tableKey ⟨request, name, none⟩ s.options }

/-- Gives an option of a request its value. -/
def setOption (s : Store) (request name : String) (value : Option String) :
    Except Constraint (RequestOption × Store) :=
  if !s.hasRequest request then .error .existingRequest
  else
    let row := { request, name, value }
    .ok (row, { s with options := putRow RequestOption.tableKey row s.options })

/-- The options of a request, or of all requests. -/
def optionsOf (s : Store) (request : Option String) : List RequestOption :=
  s.options.filter (fun o => request.all (· = o.request))

/-- Deletes the options with this name, of this request if one is given. -/
def deleteOptionsNamed (s : Store) (name : String) (request : Option String) : Nat × Store :=
  let doomed (o : RequestOption) : Bool := o.name = name && request.all (· = o.request)
  (s.options.countP doomed, { s with options := s.options.filter (fun o => !doomed o) })

/-! ### Extractions -/

/-- Saves part of each response to a request in a variable. -/
def putExtraction (s : Store) (e : Extraction) : Except Constraint (Extraction × Store) :=
  if !Grammar.extractionSources.contains e.source then .error .knownSource
  else if !s.hasRequest e.request then .error .existingRequest
  else .ok (e, { s with extractions := putRow Extraction.tableKey e s.extractions })

/-- The extractions of a request. -/
def extractionsOf (s : Store) (request : String) : List Extraction :=
  s.extractions.filter (fun e => e.request = request)

/-! ### Responses -/

/-- Records a response; it gets the next number, and its headers are read back as lines. -/
def recordResponse (s : Store) (r : Response) : Except Constraint (Response × Store) :=
  if !s.hasRequest r.request then .error .existingRequest
  else
    let fresh := s.lastResponse + 1
    let row := { r with
      id := fresh
      requestHeaders := storedLines r.requestHeaders
      headers := storedLines r.headers }
    .ok (row, { s with responses := s.responses ++ [row], lastResponse := fresh })

/-- The recorded responses to a request, or to all requests. -/
def responsesOf (s : Store) (request : Option String) : List Response :=
  s.responses.filter (fun r => request.all (· = r.request))

/-- Forgets the recorded responses to a request. -/
def forgetResponses (s : Store) (request : String) : Nat × Store :=
  (s.responses.countP (fun r => r.request = request),
    { s with responses := s.responses.filter (fun r => r.request ≠ request) })

end Store

end Courier
