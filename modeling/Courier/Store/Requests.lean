/-
Courier.Store.Requests — creating and deleting requests.

`createRequest` turns a `Draft`, what the user typed, into a stored request: the name
without blanks around it, the method in capitals or guessed from the name, the headers
in their stored form, the body as bytes. Nothing is stored unless all of it is in
order. Every placeholder of the new request becomes one of its options.

`deleteRequests` goes through a list of names and says of each whether there was a
request to delete; `deleteRequest` deletes one that has to be there.
-/
import Courier.Disk
import Courier.Http.Template
import Courier.Store.Action
import Courier.Text.Blank

namespace Courier

open Courier.Text Courier.Http Courier.Store

/-! ## Drafts -/

/-- A request as it is typed. -/
structure Draft where
  name : String
  url : String
  /-- The method; if it is missing or empty the name decides. -/
  method : Option String := none
  headers : List String := []
  /-- The body, or the file that holds it behind an at sign. -/
  body : Option String := none
  deriving DecidableEq, Repr

/-- The bytes of the file that a path leads to. -/
def readBodyFile (disk : Disk) (path : String) : Except Failure Bytes := do
  let p ← (Path.parse path).expandHome disk.machine
  if p.text.toList.contains '\x00' then throw .nulInPath
  match disk.read p with
  | .ok bytes => return bytes
  | .error fault => throw (.input (.unreadableBody p.text fault.reason))

/-- The bytes of a body as it is typed. -/
def readBody (disk : Disk) (body : Option String) : Except Failure (Option Bytes) :=
  match body with
  | none => .ok none
  | some text =>
    match text.toList with
    | '@' :: path => (readBodyFile disk (String.ofList path)).map some
    | _ => .ok (some (encode text))

/-- The stored forms of headers, if all of them have one. -/
def storedHeaders : List String → Except Failure (List String)
  | [] => .ok []
  | h :: hs =>
    match storedHeader? h with
    | none => .error (.input (.malformedHeader h))
    | some stored => (storedHeaders hs).map (stored :: ·)

/-- The method of a request with this name, from what was typed. -/
def chooseMethod (typed : Option String) (name : String) : String :=
  upper ((typed.filter (fun m => !m.isEmpty)).getD (guessMethod name))

/-- The request that a draft describes, if all of it is in order. -/
def Draft.toRequest (disk : Disk) (d : Draft) : Except Failure Request := do
  let name := strip d.name
  if name.isEmpty then throw (.input .blankRequestName)
  if (strip d.url).isEmpty then throw (.input .blankUrl)
  let method := chooseMethod d.method name
  if !methods.contains method then throw (.input (.unknownMethod method))
  let headers ← storedHeaders d.headers
  let body ← readBody disk d.body
  return { name, method, url := d.url, headers, body }

/-! ## Placeholders of a request -/

/-- The placeholders of a URL, headers and a body, in ascending order. -/
def placeholdersOf (url : String) (headers : List String) (body : Option Bytes) : List String :=
  ascending (placeholderNames url ++ headers.flatMap placeholderNames
    ++ placeholderNames (decode (body.getD [])))

/-- The placeholders of a request, in ascending order. -/
def Store.Request.placeholders (r : Request) : List String :=
  placeholdersOf r.url r.headers r.body

/-! ## Operations -/

/-- Makes sure that a request has these options. -/
def declareOptions (request : String) : List String → StoreAction Unit
  | [] => pure ()
  | name :: names => do
    StoreAction.tryEdit (fun s => (s.declareOption request name).map ((), ·))
    declareOptions request names

/-- Stores a new request, with an option for each of its placeholders. -/
def createRequest (disk : Disk) (d : Draft) : StoreAction Request := do
  let r ← StoreAction.ofExcept (d.toRequest disk)
  StoreAction.requireWritable
  match (← get).insertRequest r with
  | .error _ => StoreAction.refuseInput (.requestExists r.name)
  | .ok (created, s) =>
    set s
    declareOptions created.name created.placeholders
    return created

/-- The requests whose name passes the filters. -/
def Store.listRequests (s : Store) (filters : List String) : List Request :=
  s.requests.filter (fun r => passes filters r.name)

/-- Deletes requests: the names that there were, the names that there were not, and the store. -/
def Store.deleteRequests (s : Store) : List String → (List String × List String) × Store
  | [] => (([], []), s)
  | name :: names =>
    if s.hasRequest name then
      let ((deleted, missing), s') := (s.dropRequest name).deleteRequests names
      ((name :: deleted, missing), s')
    else
      let ((deleted, missing), s') := s.deleteRequests names
      ((deleted, name :: missing), s')

/-- Deletes a request, which has to exist. -/
def deleteRequest (name : String) : StoreAction Unit := do
  match ← StoreAction.edit (fun s => s.deleteRequests [name]) with
  | ([], _) => StoreAction.refuse (.requestNotFound name)
  | _ => return ()

end Courier
