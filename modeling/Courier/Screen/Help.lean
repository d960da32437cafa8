/-
Courier.Screen.Help — help pages.

`overview` lists every command with its usage and a few lines to begin with;
`commandHelp` explains one command: its usage, its other names, and its options or, of
a group, its commands. Both are read from the descriptions in `Courier.Grammar.Table`.
-/
import Courier.Grammar.Table
import Courier.Screen.Event
import Courier.Text.Markup

namespace Courier.Screen

open Courier.Text Courier.Grammar

/-- A first session. -/
def examples : List String :=
  ["create request get-user https://example.com/users/\x7bid\x7d",
    "create variable id dev=1 prod=42",
    "set environment dev",
    "run get-user",
    "set request get-user",
    "set option id 1 2 3",
    "extract body name --to-var user_name",
    "info"]

/-- The overview of a command. -/
def overviewLines (n : Node) : List String :=
  ["  [cyan]" ++ escape n.usage ++ "[/cyan]", "      [dim]" ++ escape n.spec.help ++ "[/dim]"]

/-- The overview of all commands. -/
def overview : String :=
  joinLines (["[bold cyan]Available Commands:[/bold cyan]", ""]
    ++ root.leaves.flatMap overviewLines
    ++ ["", "[bold cyan]Examples:[/bold cyan]", "",
      "[dim]" ++ escape (joinLines examples) ++ "[/dim]", "",
      "[dim]Add -h to any command for details. Tab completes names and values.[/dim]"])

/-- The page with the overview. -/
def overviewPage : Event :=
  .print .shell (some (.panel overview "repost Help" "cyan")) none none

/-- A table of things and what they are. -/
def glossary (entries : List (String × String)) : Event :=
  showTable {
    columns := if entries.isEmpty then [] else [{ header := "" }, { header := "" }]
    rows := entries.map fun (thing, help) => ["[cyan]" ++ escape thing ++ "[/cyan]", escape help]
    showHeader := false
    headerStyle := none
    boxed := false }

/-- The page of a command. -/
def commandHelp (n : Node) : List Event :=
  [say ("[bold cyan]" ++ escape n.usage ++ "[/bold cyan]")]
    ++ (if n.spec.help.isEmpty then [] else [say (escape n.spec.help)])
    ++ (if n.spec.aliases.isEmpty then []
      else [say ("[dim]Aliases: " ++ escape (commaList n.spec.aliases) ++ "[/dim]")])
    ++ [glossary (if n.isLeaf then n.spec.knownOptions.map (fun o => (o.usage, o.help))
      else n.children.map (fun c => (c.usage, c.spec.help)))]

end Courier.Screen
