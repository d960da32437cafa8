/-
Courier.Run — sending a stored request.

A run sends every request that a stored request stands for, one after the other. Of
each exchange it takes the values that the extractions of the request ask for, saves
them in variables of the environment, and records the exchange. The records of the run
before are forgotten when the first request is about to be sent.

A `Bench` is what a run works on: the store and the wire. What a run has done stays
done when it fails: calls that were made, variables that were saved and responses that
were recorded before the failure.
-/
import Courier.Run.Extract
import Courier.Run.Prepare

namespace Courier

open Courier.Text Courier.Http Courier.Store

/-! ## The bench -/

/-- The rows of a workspace, and the wire. -/
structure Bench where
  store : Store := {}
  wire : Wire := {}
  deriving DecidableEq, Repr

/-- An operation on a bench that may fail on its way. -/
abbrev BenchAction (α : Type) := EStateM Failure Bench α

/-- An operation on a store, done on the store of a bench. -/
def onStore {α : Type} (act : StoreAction α) : BenchAction α := fun b =>
  match act b.store with
  | .ok a s => .ok a { b with store := s }
  | .error e s => .error e { b with store := s }

/-! ## Results -/

/-- What a run has done. -/
structure RunReport where
  /-- The exchanges, in order. -/
  exchanges : List Exchange := []
  /-- The variables that were saved. -/
  extracted : List Variable := []
  /-- What was not found. -/
  failedExtractions : List String := []
  /-- The records of the exchanges. -/
  responses : List Response := []
  deriving DecidableEq, Repr

/-- What two runs have done one after the other. -/
def RunReport.append (a b : RunReport) : RunReport :=
  { exchanges := a.exchanges ++ b.exchanges
    extracted := a.extracted ++ b.extracted
    failedExtractions := a.failedExtractions ++ b.failedExtractions
    responses := a.responses ++ b.responses }

/-! ## One exchange -/

/-- Sends one prepared request of the stored request `name`. -/
def sendPrepared (name : String) (p : PreparedRequest) : BenchAction Exchange := do
  let depth := (← get).wire.depth
  let reply ← modifyGet (fun b =>
    let (reply, wire) := b.wire.send p
    (reply, { b with wire }))
  match reply with
  | .unreachable reason => throw (.refused (.requestFailed name reason))
  | .answer status reason headers text =>
    return {
      request := p, status, reason := reason.getD "", headers := mergePairs headers, text, depth }

/-- What is said of an extraction that finds nothing. -/
def Store.Extraction.notFound (e : Extraction) : String :=
  e.source ++ " '" ++ e.path ++ "' not found for " ++ e.target

/-- Takes one value from an exchange, and saves it. -/
def applyExtraction (name env : String) (x : Exchange) (e : Extraction) :
    StoreAction (Except String Variable) := do
  match extractFromExchange e.source e.path x with
  | .error fault => throw (.selection fault)
  | .ok none => return .error e.notFound
  | .ok (some us) =>
    match text? us with
    | none => throw (.loneHalf us)
    | some value =>
      let row ← StoreAction.edit (fun s => s.putVariable e.target env (some value) (some name))
      return .ok row

/-- Takes the values from an exchange that extractions ask for. -/
def applyExtractions (name env : String) (x : Exchange) :
    List Extraction → StoreAction (List Variable × List String)
  | [] => pure ([], [])
  | e :: es => do
    let outcome ← applyExtraction name env x e
    let (rows, failed) ← applyExtractions name env x es
    match outcome with
    | .ok row => return (row :: rows, failed)
    | .error message => return (rows, message :: failed)

/-- Pairs written as lines. -/
def headerLines (pairs : List (String × String)) : List String :=
  pairs.map (fun (key, value) => writeHeader key value)

/-- The record of an exchange, before it has its number. -/
def recordOf (name : String) (x : Exchange) (saved : List Variable) : Response :=
  { id := 0
    request := name
    method := x.request.method
    url := x.request.url
    status := x.status
    reason := x.reason
    requestHeaders := headerLines x.request.headers
    requestBody := x.request.body
    headers := headerLines x.headers
    body := x.text
    extractions := saved.map (fun v => (v.name, v.value.getD "")) }

/-- Sends one prepared request, saves the values that it brings, and records the exchange. -/
def runOne (name : String) (env : String) (extractions : List Extraction) (p : PreparedRequest) :
    BenchAction RunReport := do
  let x ← sendPrepared name p
  let (saved, failed) ← onStore (applyExtractions name env x extractions)
  let record ← onStore (recordResponse (recordOf name x saved))
  return {
    exchanges := [x], extracted := saved, failedExtractions := failed, responses := [record] }

/-- Sends prepared requests one after the other. -/
def runAll (name : String) (env : String) (extractions : List Extraction) :
    List PreparedRequest → BenchAction RunReport
  | [] => pure {}
  | p :: ps => do
    let first ← runOne name env extractions p
    let rest ← runAll name env extractions ps
    return first.append rest

/-! ## A run -/

/-- What a run needs to know before it sends anything: its extractions and what to send. -/
def planRun (s : Store) (name : String) (env : Option String) :
    Except Refusal (List Extraction × List PreparedRequest) := do
  match s.request? name with
  | none => throw (.requestNotFound name)
  | some r =>
    let extractions := s.extractionsOf name
    if !extractions.isEmpty && env.isNone then throw (.invalidInput .environmentNeeded)
    return (extractions, ← expandRequest s r env)

/-- Sends a stored request in an environment. -/
def runStored (name : String) (env : Option String) : BenchAction RunReport := do
  match planRun (← get).store name env with
  | .error refusal => throw (.refused refusal)
  | .ok (extractions, prepared) =>
    let _ ← onStore (StoreAction.edit (fun s => s.forgetResponses name))
    runAll name (env.getD "") extractions prepared

/-- The recorded responses to a request, which has to exist. -/
def recordedResponses (name : String) : StoreAction (List Response) := do
  let _ ← requireRequest name
  return (← get).responsesOf (some name)

end Courier
