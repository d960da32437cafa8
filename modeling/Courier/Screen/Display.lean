/-
Courier.Screen.Display — requests, variables, options and responses on the screen.

Each function says what is shown of a list of rows: a table, or a note that there are
none. User text is escaped, so that a bracket in it is no tag. Methods, sources and
numbers are shown as they are.

* `exchange` shows what was sent and what came back: the status, the headers and the
  body, indented if it is JSON. A body that lies too deep in itself is a failure, after
  all that stands in front of it has been shown.
* `summary` shows a run of several requests, a row for each.
-/
import Courier.Json.Path
import Courier.Run
import Courier.Screen.Event
import Courier.Text.Case
import Courier.Text.Markup

namespace Courier.Screen

open Courier.Text Courier.Http Courier.Store

/-- A text in a style. -/
def styled (style s : String) : String :=
  "[" ++ style ++ "]" ++ s ++ "[/" ++ style ++ "]"

/-- The style of a status: green, yellow from 300 on, red from 400 on. -/
def statusColour (status : Int) : String :=
  if status < 300 then "green" else if status < 400 then "yellow" else "red"

/-- A status with its reason. -/
def statusText (status : Int) (reason : String) : String :=
  styled (statusColour status) (toString status ++ " " ++ escape reason)

/-- The note that there is nothing of a kind. -/
def noneFound (what : String) : Event :=
  say (styled "dim" ("No " ++ what ++ " found"))

/-! ## Listings -/

/-- The longest body that is shown whole in a listing. -/
def bodyWidth : Nat := 40

/-- A body in a listing: what does not fit is cut off. -/
def shortBody (body : Option Bytes) : String :=
  let s := decode (body.getD [])
  if s.length > bodyWidth then String.ofList (s.toList.take (bodyWidth - 3)) ++ "..." else s

/-- The stored requests. -/
def requestTable (rs : List Request) : List Event :=
  if rs.isEmpty then [noneFound "requests"]
  else
    [showTable {
      columns := [
        { header := "Name", style := some "green" },
        { header := "Method", style := some "magenta", width := some 8 },
        { header := "URL", style := some "white" },
        { header := "Headers", style := some "dim" },
        { header := "Body", style := some "dim" }]
      rows := rs.map fun r =>
        [escape r.name, r.method, escape r.url, escape (joinLines r.headers),
          escape (shortBody r.body)] }]

/-- The stored variables, a row for each environment. -/
def variableTable (vs : List Variable) : List Event :=
  if vs.isEmpty then [noneFound "variables"]
  else
    [showTable {
      columns := [
        { header := "ID", style := some "cyan", width := some 5 },
        { header := "Name", style := some "white" },
        { header := "Environment", style := some "cyan" },
        { header := "Value", style := some "white" },
        { header := "Source", style := some "dim" }]
      rows := vs.map fun v =>
        [toString v.id, escape v.name, escape v.env, escape (v.value.getD ""),
          escape (v.source.getD "")] }]

/-- Names under a title; the current one is marked. -/
def nameTable (title : String) (ns : List String) (current : Option String) : List Event :=
  if ns.isEmpty then [noneFound (lower title)]
  else
    [showTable {
      columns := [{ header := title }]
      rows := ns.map fun n =>
        if current = some n then [styled "bold green" (escape n) ++ " " ++ styled "dim" "(current)"]
        else [escape n] }]

/-- The values of an option, or where they come from. -/
def optionValue (value : Option String) : String :=
  match value with
  | some value => escape value
  | none => styled "dim" "(from environment)"

/-- The stored options. -/
def optionTable (os : List RequestOption) : List Event :=
  if os.isEmpty then [noneFound "options"]
  else
    [showTable {
      columns := [
        { header := "Request", style := some "green" },
        { header := "Option", style := some "white" },
        { header := "Value(s)", style := some "white" }]
      rows := os.map fun o => [escape o.request, escape o.name, optionValue o.value] }]

/-! ## One request -/

/-- The text of a request. -/
def requestText (r : Request) : String :=
  let first := styled "magenta" r.method ++ " " ++ escape r.url
  let headers := r.headers.map (fun h => styled "dim" (escape h))
  let body := match r.body with
    | none => []
    | some [] => []
    | some bytes => ["", escape (decode bytes)]
  joinLines (first :: headers ++ body)

/-- A request with its options and extractions. -/
def requestInfo (r : Request) (os : List RequestOption) (es : List Extraction) : List Event :=
  [.print .shell (some (.panel (requestText r) (escape r.name) "green")) none none]
    ++ (if os.isEmpty then []
      else [showTable {
        title := some "Input options"
        columns := [{ header := "Option" }, { header := "Value(s)" }]
        rows := os.map fun o => [escape o.name, optionValue o.value] }])
    ++ (if es.isEmpty then []
      else [showTable {
        title := some "Output options"
        columns := [{ header := "Variable" }, { header := "Source" }, { header := "Key" }]
        rows := es.map fun e => [escape e.target, e.source, escape e.path] }])

/-! ## A run -/

/-- What is shown, and the failure that cuts it short, if there is one. -/
abbrev Showing := List Event × Option Failure

/-- The body of a response. -/
def body (x : Exchange) : Showing :=
  if x.text.isEmpty then ([], none)
  else
    match Json.parse x.depth x.text with
    | .error .malformed => ([blankLine, sayPlainly x.text], none)
    | .error (.tooDeep kind) => ([blankLine], some (.tooDeep kind))
    | .ok v => ([blankLine, .print .shell (some (.json v.indented)) none none], none)

/-- The headers and the body of a response. -/
def response (x : Exchange) : Showing :=
  let headers := x.headers.map fun (key, value) =>
    say (styled "dim" (escape key ++ ": " ++ escape value))
  let (events, failure) := body x
  (headers ++ events, failure)

/-- What was sent and what came back; if `quiet`, only the status of it. -/
def exchange (x : Exchange) (quiet : Bool) : Showing :=
  let status := say (styled "magenta" x.request.method ++ " " ++ escape x.request.url ++ " "
    ++ statusText x.status x.reason)
  let (events, failure) := if quiet then ([], none) else response x
  (status :: events, failure)

/-- A run of several requests. -/
def summary (rs : List Response) : List Event :=
  [blankLine,
    showTable {
      title := some "Summary"
      columns := [
        { header := "ID", style := some "cyan", width := some 5 },
        { header := "Request", style := some "white" },
        { header := "Status" },
        { header := "Extracted", style := some "dim" }]
      rows := rs.map fun r =>
        [toString r.id, styled "magenta" r.method ++ " " ++ escape r.url,
          statusText r.status r.reason,
          joinLines (r.extractions.map fun (name, value) => escape name ++ " = " ++ escape value)] }]

end Courier.Screen
