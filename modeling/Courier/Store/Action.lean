/-
Courier.Store.Action — operations on a store.

A `StoreAction` takes a store, and gives a result or fails; in both cases there is a
store afterwards, because what an operation has done before it fails stays done. An
operation that a rule of the store forbids fails with that rule, and one that would
change a store that is only read fails whatever the change is.
-/
import Courier.Store.Basic

namespace Courier

open Courier.Store Courier.Text

/-- An operation on a store that may fail on its way. -/
abbrev StoreAction (α : Type) := EStateM Failure Store α

namespace StoreAction

/-- The operation that fails and changes nothing. -/
def refuse {α : Type} (refusal : Refusal) : StoreAction α :=
  throw (.refused refusal)

/-- The operation that refuses an input. -/
def refuseInput {α : Type} (fault : InputFault) : StoreAction α :=
  refuse (.invalidInput fault)

/-- Fails if nothing can be written. -/
def requireWritable : StoreAction Unit := do
  if (← get).readOnly then throw (.storage .readOnly)

/-- A change that no rule forbids. -/
def edit {α : Type} (change : Store → α × Store) : StoreAction α := do
  requireWritable
  modifyGet change

/-- A change that a rule may forbid. -/
def tryEdit {α : Type} (change : Store → Except Constraint (α × Store)) : StoreAction α := do
  requireWritable
  match change (← get) with
  | .ok (result, s) => set s; return result
  | .error broken => throw (.constraint broken)

/-- A result that is computed without a change, or a failure. -/
def ofExcept {α : Type} (result : Except Failure α) : StoreAction α :=
  match result with
  | .ok a => pure a
  | .error e => throw e

end StoreAction

/-- The request with this name, which has to exist. -/
def requireRequest (name : String) : StoreAction Request := do
  match (← get).request? name with
  | some r => return r
  | none => StoreAction.refuse (.requestNotFound name)

/-- Fails if there are requests and a pattern is too long to be looked for among them. -/
def checkPattern (pattern : String) : StoreAction Unit := do
  if maxPattern < pattern.utf8ByteSize && !(← get).requests.isEmpty then throw .patternTooLong

/-- The requests whose name matches a pattern. -/
def findRequests (pattern : String) : StoreAction (List Request) := do
  checkPattern pattern
  return (← get).requestsLike pattern

/-- Records a response, whose status has to fit in a row. -/
def recordResponse (r : Response) : StoreAction Response :=
  if fitsRow r.status then StoreAction.tryEdit (fun s => s.recordResponse r)
  else throw .integerOutOfRange

end Courier
