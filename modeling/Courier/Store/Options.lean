/-
Courier.Store.Options — options and extractions of a request.

An option holds any number of values, one per line; no values clear it, so that the
variable of its name is used instead. An extraction saves part of each response to a
request. Both need the request that they belong to.
-/
import Courier.Store.Action

namespace Courier

open Courier.Text Courier.Store

/-- What is stored of the values of an option. -/
def storedValue (values : List String) : Option String :=
  if values.isEmpty then none else some (joinLines values)

/-- Gives an option of a request its values. -/
def assignOption (request name : String) (values : List String) : StoreAction RequestOption := do
  let _ ← requireRequest request
  StoreAction.tryEdit (fun s => s.setOption request name (storedValue values))

/-- The options of a request, if one is given, whose name passes the filters. -/
def Store.listOptions (s : Store) (request : Option String) (filters : List String) :
    List RequestOption :=
  (s.optionsOf request).filter (fun o => passes filters o.name)

/-- Deletes options: how many there were, the names that there was nothing for, and the store. -/
def Store.deleteOptions (s : Store) (request : Option String) :
    List String → (Nat × List String) × Store
  | [] => ((0, []), s)
  | name :: names =>
    let (count, s) := s.deleteOptionsNamed name request
    let ((total, missing), s) := s.deleteOptions request names
    ((count + total, if count = 0 then name :: missing else missing), s)

/-- Checks that something can be taken from this part of a response. -/
def checkSource (source : String) : Except InputFault Unit :=
  if Grammar.extractionSources.contains source then .ok () else .error (.unknownSource source)

/-- Saves part of each response to a request in a variable. -/
def createExtraction (request source path target : String) : StoreAction Extraction := do
  StoreAction.ofExcept ((checkSource source).mapError Failure.input)
  let _ ← requireRequest request
  StoreAction.tryEdit (fun s => s.putExtraction { request, target, source, path })

end Courier
