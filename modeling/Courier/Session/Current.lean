/-
Courier.Session.Current — operations on the rows of the current workspace.

Some operations can be refused whatever is stored: a name may be blank, a body may not
be readable, an item may look like a number and be none. That is found out before the
workspace is opened, so that such a refusal goes before the failure to open it and makes
no files. An operation on a list without items does not open the workspace either.

The operations themselves are those of `Courier.Store`; here they are done on the
current workspace.
-/
import Courier.Session.Basic
import Courier.Store.Options
import Courier.Store.Variables

namespace Courier.Current

open Courier.Text Courier.Store

/-- Does something on the rows once a check has been passed. -/
def onRowsAfter {α β : Type} (check : Except Failure α) (act : StoreAction β) : Action β := do
  let _ ← orFail id check
  onRows act

/-- Does something on the rows for these items; without items the result is known. -/
def onRowsFor {ι α : Type} (items : List ι) (idle : α) (act : StoreAction α) : Action α :=
  if items.isEmpty then pure idle else onRows act

/-- Stores the request that a draft describes. -/
def createRequest (d : Draft) : Action Request := do
  let disk := (← get).contents
  onRowsAfter (d.toRequest disk) (Courier.createRequest disk d)

/-- Deletes requests: the names that there were, and those that there were not. -/
def deleteRequests (names : List String) : Action (List String × List String) :=
  onRowsFor names ([], []) (StoreAction.edit (fun s => s.deleteRequests names))

/-- Sets a variable in the environments that the pairs name. -/
def createVariable (name : String) (pairs : List String) (source : String) :
    Action (List Variable) :=
  onRowsAfter ((checkVariable name pairs).mapError Failure.input)
    (Courier.createVariable name pairs source)

/-- Deletes variables: how many there were, and the items that there was nothing for. -/
def deleteVariables (env : Option String) (items : List String) : Action (Nat × List String) := do
  let _ ← orFail Failure.numeral (items.head?.elim (.ok none) itemNumber?)
  onRowsFor items (0, []) (Courier.deleteVariables env items)

/-- Deletes options: how many there were, and the names that there was nothing for. -/
def deleteOptions (request : Option String) (names : List String) : Action (Nat × List String) :=
  onRowsFor names (0, []) (StoreAction.edit (fun s => s.deleteOptions request names))

/-- Saves part of each response to a request in a variable. -/
def createExtraction (request source path target : String) : Action Extraction :=
  onRowsAfter ((checkSource source).mapError Failure.input)
    (Courier.createExtraction request source path target)

end Courier.Current
