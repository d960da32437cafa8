/-
Courier.Session.Suggest — names that the store knows.

Completion asks which values fit a part of a command; this module answers from the
rows of the current workspace. A name that has been given already is not suggested
again, environments are suggested with the sign that their value follows, and a new
request is suggested to be like the requests that are there:

* `suggestedNames` combines the verbs that names begin with and the parts
  behind the first dash of the names that exist.
* `relatedRequests` are the requests whose name ends like the new one, behind its first
  dash; their URLs and headers are suggested.
-/
import Courier.Completion
import Courier.Session.Basic

namespace Courier

open Courier.Text Courier.Http Courier.Grammar Courier.Line Courier.Store

/-! ## New requests -/

/-- The verbs that suggested names begin with. -/
def nameVerbs : List String := ["create", "update", "get", "delete"]

/-- The part of a name behind its first dash, if there is one and it is not empty. -/
def nameSuffix? (name : String) : Option String :=
  (cut '-' name).2.filter (fun suffix => !suffix.isEmpty)

/-- A verb and a suffix as a name. -/
def dashed (verb suffix : String) : String := verb ++ "-" ++ suffix

/-- The names suggested for a new request, next to those that exist. -/
def suggestedNames (existing : List String) : List String :=
  match (existing.filterMap nameSuffix?).eraseDups with
  | [] => nameVerbs.map (fun verb => dashed verb "")
  | suffixes =>
    (suffixes.flatMap (fun suffix => nameVerbs.map (fun verb => dashed verb suffix))).filter
      (fun name => !existing.contains name)

/-- The headers that are suggested everywhere. -/
def commonHeaders : List String :=
  ["A-IM", "Accept", "Accept-Charset", "Accept-Datetime", "Accept-Encoding", "Accept-Language",
    "Access-Control-Request-Method", "Access-Control-Request-Headers", "Authorization",
    "Cache-Control", "Connection", "Content-Encoding", "Content-Length", "Content-MD5",
    "Content-Type", "Cookie", "Date", "Expect", "Forwarded", "From", "Host", "HTTP2-Settings",
    "If-Match", "If-Modified-Since", "If-None-Match", "If-Range", "If-Unmodified-Since",
    "Max-Forwards", "Origin", "Pragma", "Prefer", "Proxy-Authorization", "Range", "Referer", "TE",
    "Trailer", "Transfer-Encoding", "User-Agent", "Upgrade", "Via", "Warning"]

/-- The name of the request being typed. -/
def newName (typed : Snapshot) : String := (typed.args.lookup .name).getD ""

/-- What the names look like that end like that of the request being typed. -/
def relatedPattern? (typed : Snapshot) : Option String :=
  (nameSuffix? (newName typed)).map ("%-" ++ ·)

/-- The requests whose name ends like that of the request being typed. -/
def relatedRequests (s : Store) (typed : Snapshot) : List Request :=
  match relatedPattern? typed with
  | none => []
  | some pattern => s.requestsLike pattern

/-- The URLs of related requests. -/
def relatedUrls (s : Store) (typed : Snapshot) : List String :=
  ((relatedRequests s typed).map Request.url).eraseDups

/-- The headers of related requests that have not been given, and the common ones. -/
def relatedHeaders (s : Store) (typed : Snapshot) : List String :=
  let given := ((typed.options.lookup .header).getD []).map looseHeader
  let related := ((relatedRequests s typed).flatMap Request.headers).filter
    (fun h => !given.contains (looseHeader h))
  (related ++ commonHeaders.map (· ++ ":")).eraseDups

/-! ## Names -/

/-- The names that are not among the values of the catch-all. -/
def notGiven (typed : Snapshot) (names : List String) : List String :=
  names.filter (fun n => !typed.rest.contains n)

/-- The environments that no pair is for yet, each with the sign behind it. -/
def unusedEnvironments (s : Store) (typed : Snapshot) : List String :=
  let used := typed.rest.map (fun pair => (cut '=' pair).1)
  (s.environments.filter (fun env => !used.contains env)).map (· ++ "=")

/-- The commands below the one that the words name, to ask help for. -/
def helpTopics (typed : Snapshot) : List String :=
  let w := walk (typed.rest.map Token.ofText)
  if w.matched && !w.node.isLeaf then w.node.childNames else []

/-! ## Answers -/

/-- What is selected, as far as completion may know it. -/
structure Selection where
  environment : Option String := none
  request : Option String := none
  deriving DecidableEq, Repr

/-- What is selected in a session. -/
def Session.selection (s : Session) : Selection :=
  { environment := s.environment, request := s.request }

/-- Where the answer to a question comes from. -/
inductive Source where
  /-- It does not hang on what is stored. -/
  | known (values : List String)
  /-- It comes from the rows of the current workspace. -/
  | rows (values : Store → List String)
  /-- It comes from those of its requests whose names match a pattern. -/
  | matching (pattern : String) (values : Store → List String)
  /-- It is the workspaces other than the current one. -/
  | workspaces

/-- The source for something about related requests; without a suffix there are none. -/
def relatedSource (typed : Snapshot) (values : Store → List String) : Source :=
  match relatedPattern? typed with
  | none => .known (values {})
  | some pattern => .matching pattern values

/-- Where the values come from that fit a part of a command. -/
def sourceOf (selected : Selection) (q : Query) : Source :=
  let typed := q.snapshot
  let requestNames := Source.rows fun s => notGiven typed (s.requests.map Request.name)
  let variableNames := Source.rows fun s => notGiven typed (s.vars.map Variable.name).eraseDups
  let optionNames := Source.rows fun s =>
    notGiven typed ((s.optionsOf selected.request).map RequestOption.name).eraseDups
  match q.kind, q.field with
  | .createRequest, .arg .name => .rows fun s => suggestedNames (s.requests.map Request.name)
  | .createRequest, .arg .url => relatedSource typed fun s => relatedUrls s typed
  | .createRequest, .opt .header => relatedSource typed fun s => relatedHeaders s typed
  | .createVariable, .arg .name => variableNames
  | .createVariable, .arg .unknown => .rows fun s => unusedEnvironments s typed
  | .printRequests, .arg .unknown => requestNames
  | .printVariables, .arg .unknown => variableNames
  | .printOptions, .arg .unknown => optionNames
  | .deleteRequests, .arg .unknown => requestNames
  | .deleteVariables, .arg .unknown => variableNames
  | .deleteOptions, .arg .unknown => optionNames
  | .setEnvironment, .arg .name =>
    .rows fun s => s.environments.filter (fun env => selected.environment ≠ some env)
  | .setWorkspace, .arg .name => .workspaces
  | .setRequest, .arg .name => requestNames
  | .setOption, .arg .name => optionNames
  | .run, .arg .name => requestNames
  | .extract, .arg .key =>
    .known (if typed.args.lookup .source = some "header" then commonHeaders else [])
  | .extract, .opt .toVar => variableNames
  | .help, .arg .unknown => .known (helpTopics typed)
  | _, _ => .known []

/-- The values that come from a source. -/
def Source.values : Source → Action (List String)
  | .known values => pure values
  | .rows values => askRows values
  | .matching pattern values => do
    onRows (checkPattern pattern)
    askRows values
  | .workspaces => do
    let stored ← storedWorkspaces
    let current := (← get).workspace
    return (playgroundName :: stored).eraseDups.filter (fun w => w ≠ current)

/--
What may be typed at the cursor, with names from the current workspace. The workspace is
opened only if there is a question that its rows answer; if it is out of reach there are no
names.
-/
def completeLine (line : String) (cursor : Int) (selected : Selection) : Action Completion :=
  let withNames (values : List String) := complete line cursor (fun _ => values)
  match offerAt line cursor with
  | .ask _ query =>
    tryCatch (withNames <$> (sourceOf selected query).values) (fun _ => return withNames [])
  | _ => return withNames []

/-- What may be typed at the cursor, for an editor, which asks about a place in the line only. -/
def completeInEditor (line : String) (cursor : Int) (selected : Selection) :
    Action (List Insertion) := do
  orFail .cursor (checkCursor line cursor)
  let c ← completeLine line cursor selected
  orFail .cursor (c.insertions cursor)

end Courier
