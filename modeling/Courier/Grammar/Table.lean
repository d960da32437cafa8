/-
Courier.Grammar.Table — the commands of the shell.

`commands` describes every command, in the order in which help shows them, and
`root` is the tree that they form. Nothing else in the library names a command: what
a line means, what completion offers and what help says are all read from here.
-/
import Courier.Grammar.Node
import Courier.Http.Method

namespace Courier.Grammar

open Courier.Http

/-- Where a value is taken from: the headers of a response or its body. -/
def extractionSources : List String := ["header", "body"]

/-- The catch-all slot for the filters of a listing. -/
def filters : Slot :=
  { key := .unknown, dest := "filters", metavar := "filter", required := false }

/-- The catch-all slot for the things to delete. -/
def doomed (metavar : String) : Slot :=
  { key := .unknown, dest := "names", metavar, minCount := 1 }

/-- The slot for a name that has to be given. -/
def nameArg : Slot := { key := .name, dest := "name", metavar := "name" }

/-- The slot for a name that may be left out. -/
def optionalName : Slot := { nameArg with required := false }

/-- The other names of `requests`. -/
def requestsNames : List String := ["request", "reqs", "req", "r"]

/-- The other names of `variables`. -/
def variablesNames : List String := ["variable", "vars", "var", "v"]

/-- The other names of `options`. -/
def optionsNames : List String := ["option", "opts", "opt", "o"]

/-! ## Groups -/

/-- Listing what is stored. -/
def printSpec : CommandSpec :=
  { name := "print", aliases := ["get", "show", "p"], help := "Print stored objects"
    children := [
      { name := "requests", aliases := requestsNames
        help := "List requests, optionally filtered by name"
        rest := some filters, kind := .printRequests },
      { name := "variables", aliases := variablesNames
        help := "List variables, optionally filtered by name"
        rest := some filters, kind := .printVariables },
      { name := "environments", aliases := ["environment", "envs", "env", "e"]
        help := "List environments", kind := .printEnvironments },
      { name := "workspaces", aliases := ["workspace", "ws", "w"]
        help := "List workspaces", kind := .printWorkspaces },
      { name := "options", aliases := optionsNames
        help := "List request options, optionally filtered by name"
        rest := some filters, kind := .printOptions }] }

/-- The option that gives the method of a new request. -/
def methodOpt : OptionSpec :=
  { key := .method, dest := "method", long := "--method", short := some "-m", metavar := "method"
    suggestions := methods, help := "HTTP method (inferred from the name by default)" }

/-- The option that gives a header of a new request. -/
def headerOpt : OptionSpec :=
  { key := .header, dest := "headers", long := "--header", short := some "-H", repeatable := true
    metavar := "key:value", shape := some .header
    invalid := "Headers must look like 'Key: Value'", help := "request header" }

/-- The option that gives the body of a new request. -/
def dataOpt : OptionSpec :=
  { key := .data, dest := "body", long := "--data", short := some "-d", metavar := "body"
    help := "request body, or @file to read it from a file" }

/-- Storing something new. -/
def createSpec : CommandSpec :=
  { name := "create", aliases := ["new", "add", "c"], help := "Create a request or variable"
    children := [
      { name := "request", aliases := ["req", "r"]
        help := "Create a request; \x7bplaceholders\x7d become options"
        args := [nameArg, { key := .url, dest := "url", metavar := "url" }]
        opts := [methodOpt, headerOpt, dataOpt], kind := .createRequest },
      { name := "variable", aliases := ["var", "v"]
        help := "Create a variable in one or more environments"
        args := [nameArg]
        rest := some
          { key := .unknown, dest := "env_vals", metavar := "env=value", minCount := 1
            shape := some .envValue
            invalid := "Environment values must look like 'env=value'" }
        kind := .createVariable }] }

/-- Deleting what is stored. -/
def deleteSpec : CommandSpec :=
  { name := "delete", aliases := ["remove", "del", "rm"], help := "Delete stored objects"
    children := [
      { name := "requests", aliases := requestsNames, help := "Delete requests by name"
        rest := some (doomed "name"), kind := .deleteRequests },
      { name := "variables", aliases := variablesNames, help := "Delete variables by name or id"
        rest := some (doomed "name|id"), kind := .deleteVariables },
      { name := "options", aliases := optionsNames, help := "Delete request options by name"
        rest := some (doomed "name"), kind := .deleteOptions }] }

/-- Selecting what later commands are about. -/
def setSpec : CommandSpec :=
  { name := "set", aliases := ["use", "u"], help := "Change the current context"
    children := [
      { name := "environment", aliases := ["env", "e"]
        help := "Select an environment (none to clear)"
        args := [optionalName], kind := .setEnvironment },
      { name := "workspace", aliases := ["ws", "w"]
        help := "Switch workspace (created on first use)"
        args := [nameArg], kind := .setWorkspace },
      { name := "request", aliases := ["req", "r"]
        help := "Select a request (none to clear)"
        args := [optionalName], kind := .setRequest },
      { name := "option", aliases := ["opt", "o"]
        help := "Set the value(s) of an option of the current request"
        args := [nameArg]
        rest := some { key := .unknown, dest := "values", metavar := "value", required := false }
        dashIsLiteral := true, kind := .setOption }] }

/-! ## Single commands -/

/-- Sending a request. -/
def runSpec : CommandSpec :=
  { name := "run", aliases := ["r"], help := "Send a request (the current one by default)"
    args := [{ key := .name, dest := "name", metavar := "request-name", required := false }]
    opts := [{
      key := .quiet, dest := "quiet", long := "--quiet", short := some "-q", takesValue := false
      help := "only print the status line" }]
    kind := .run }

/-- Saving part of each response. -/
def extractSpec : CommandSpec :=
  { name := "extract", aliases := ["ex"]
    help := "Save part of the current request's response into a variable"
    args := [
      { key := .source, dest := "source", metavar := "header|body", choices := extractionSources
        invalid := "Extraction source must be 'header' or 'body'" },
      { key := .key, dest := "key", metavar := "key" }]
    opts := [{
      key := .toVar, dest := "to_var", long := "--to-var", short := some "-t", required := true
      metavar := "variable", help := "variable receiving the value" }]
    kind := .extract }

/-- Showing a request. -/
def infoSpec : CommandSpec :=
  { name := "info", aliases := ["i"]
    help := "Show the current request with its options and extractions", kind := .info }

/-- Showing help. -/
def helpSpec : CommandSpec :=
  { name := "help", aliases := ["h", "?"], help := "Show help, optionally for one command"
    rest := some { key := .unknown, dest := "topic", metavar := "command", required := false }
    dashIsLiteral := true, kind := .help }

/-- Clearing the screen. -/
def clearSpec : CommandSpec :=
  { name := "clear", help := "Clear the screen", kind := .clear }

/-- Leaving. -/
def exitSpec : CommandSpec :=
  { name := "exit", aliases := ["quit"], help := "Leave the shell", kind := .exit }

/-! ## The tree -/

/-- Every command, in the order in which help shows them. -/
def commands : List CommandSpec :=
  [printSpec, createSpec, deleteSpec, setSpec, runSpec, extractSpec, infoSpec, helpSpec, clearSpec,
    exitSpec]

/-- The node above all commands. -/
def root : Node :=
  { spec := { name := "", help := "repost", children := commands } }

end Courier.Grammar
