/-
Courier.Store.Variables — creating and deleting variables.

`createVariable` sets a variable in one or more environments at once. Each pair
`env=value` is examined before the first one is stored, so that a pair that is not
accepted leaves all rows as they were.

`deleteVariables` goes through a list of names and numbers. An item of digits is
taken for the number of a row first and for a name if there is no such row. An item
that is taken for a number and is none, or one that no row can hold, ends the operation; what
was deleted before it stays deleted.
-/
import Courier.Store.Action
import Courier.Text.Blank

namespace Courier

open Courier.Text Courier.Store

/-! ## Setting -/

/-- The environment and the value of a pair. -/
def parsePair (pair : String) : Except InputFault (String × String) :=
  match cut '=' pair with
  | (env, some value) => if env.isEmpty then .error (.malformedPair pair) else .ok (env, value)
  | (_, none) => .error (.malformedPair pair)

/-- The environments and values of pairs; no environment is among those seen, or occurs twice. -/
def parsePairs (seen : List String) : List String → Except InputFault (List (String × String))
  | [] => .ok []
  | pair :: pairs =>
    match parsePair pair with
    | .error fault => .error fault
    | .ok (env, value) =>
      if seen.contains env then .error (.repeatedEnvironment env)
      else (parsePairs (env :: seen) pairs).map ((env, value) :: ·)

/-- What `createVariable` stores: the name of the variable, and its value for each environment. -/
def checkVariable (name : String) (pairs : List String) :
    Except InputFault (String × List (String × String)) := do
  let name := strip name
  if name.isEmpty then throw .blankVariableName
  let values ← parsePairs [] pairs
  if values.isEmpty then throw .noPairs
  return (name, values)

/-- Gives a variable its values; the rows in the order of the values, and the store. -/
def Store.setVariable (s : Store) (name source : String) :
    List (String × String) → List Variable × Store
  | [] => ([], s)
  | (env, value) :: values =>
    let (row, s) := s.putVariable name env (some value) (some source)
    let (rows, s) := s.setVariable name source values
    (row :: rows, s)

/-- The source of a variable that the user sets. -/
def userSource : String := "user"

/-- Sets a variable in the environments that the pairs name. -/
def createVariable (name : String) (pairs : List String) (source : String) :
    StoreAction (List Variable) := do
  match checkVariable name pairs with
  | .error fault => StoreAction.refuseInput fault
  | .ok (name, values) => StoreAction.edit (fun s => s.setVariable name source values)

/-- The variables in this environment, if one is given, whose name passes the filters. -/
def Store.listVariables (s : Store) (filters : List String) (env : Option String) : List Variable :=
  (s.variablesWhere none env).filter (fun v => passes filters v.name)

/-! ## Deleting -/

/-- Deletes the variable with this number; the result is how many there were. -/
def deleteVariableNumbered (id : Int) : StoreAction Nat :=
  if fitsRow id then StoreAction.edit (fun s => s.deleteVariableNumbered id)
  else throw .integerOutOfRange

/-- The number that an item writes, if it is made of digits. -/
def itemNumber? (item : String) : Except NumeralError (Option Int) :=
  if isNumeric item then (readInteger item).map some else .ok none

/-- Deletes the variable with the number that an item writes, if it writes one. -/
def deleteVariableAsNumber (item : String) : StoreAction Nat :=
  match itemNumber? item with
  | .ok none => pure 0
  | .ok (some id) => deleteVariableNumbered id
  | .error cause => throw (.numeral cause)

/-- Deletes the variable with this number or the variables with this name. -/
def deleteVariableItem (env : Option String) (item : String) : StoreAction Nat := do
  match ← deleteVariableAsNumber item with
  | 0 => StoreAction.edit (fun s => s.deleteVariablesNamed item env)
  | count => return count

/-- Deletes variables: how many there were, and the items that there was nothing for. -/
def deleteVariables (env : Option String) : List String → StoreAction (Nat × List String)
  | [] => pure (0, [])
  | item :: items => do
    let count ← deleteVariableItem env item
    let (total, missing) ← deleteVariables env items
    return (count + total, if count = 0 then item :: missing else missing)

/-- Deletes the variable with this number, which has to exist. -/
def deleteVariable (id : Int) : StoreAction Unit := do
  match ← deleteVariableNumbered id with
  | 0 => StoreAction.refuse (.variableNotFound (toString id))
  | _ => return ()

end Courier
