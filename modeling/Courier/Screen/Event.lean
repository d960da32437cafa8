/-
Courier.Screen.Event — what the shell shows.

The shell does not draw. It says what is to be shown, as a list of `Event`s: texts
with tags for their style, tables, panels, indented JSON. Laying out and colouring is
left to what receives the events.

There are three screens: the console of the shell, the console of the program around
it, and the one for the errors of that program.
-/

namespace Courier.Screen

/-- Where something is shown. -/
inductive Target where
  /-- The console of the shell. -/
  | shell
  /-- The console of the program. -/
  | program
  /-- The console for the errors of the program. -/
  | errors
  deriving DecidableEq, Repr

/-- A column of a table. -/
structure Column where
  header : String
  style : Option String := none
  width : Option Nat := none
  deriving DecidableEq, Repr

/-- A table. -/
structure Table where
  columns : List Column
  rows : List (List String)
  title : Option String := none
  showHeader : Bool := true
  headerStyle : Option String := some "bold cyan"
  /-- Whether lines are drawn around the cells. -/
  boxed : Bool := true
  deriving DecidableEq, Repr

/-- Something that is printed. -/
inductive Printed where
  /-- A text, with tags. -/
  | text (s : String)
  /-- A table. -/
  | table (t : Table)
  /-- A text in a frame. -/
  | panel (body title border : String)
  /-- A JSON document, indented. -/
  | json (code : String)
  deriving DecidableEq, Repr

/-- How the history of lines is kept. -/
inductive History where
  /-- In a file of the data directory. -/
  | file
  /-- In memory, because there is no data directory. -/
  | memory
  deriving DecidableEq, Repr

/-- One thing that is shown. -/
inductive Event where
  /--
  Something is printed, or an empty line. `markup` and `highlight` say whether tags and
  literals in it are looked for, if that is said at all.
  -/
  | print (target : Target) (what : Option Printed) (markup highlight : Option Bool)
  /-- The screen is cleared. -/
  | clear (target : Target)
  /-- The plain prompt is written. -/
  | plainPrompt (text : String)
  /-- The line editor is started. -/
  | editor (history : History)
  /-- The line editor shows its prompt. -/
  | prompt (html : String)
  deriving DecidableEq, Repr

/-- A text on the console of the shell. -/
def say (s : String) : Event := .print .shell (some (.text s)) none none

/-- A text on the console of the shell in which no literals are looked for. -/
def sayQuietly (s : String) : Event := .print .shell (some (.text s)) none (some false)

/-- A text on the console of the shell that is shown as it is. -/
def sayPlainly (s : String) : Event := .print .shell (some (.text s)) (some false) (some false)

/-- A table on the console of the shell. -/
def showTable (t : Table) : Event := .print .shell (some (.table t)) none none

/-- An empty line on the console of the shell. -/
def blankLine : Event := .print .shell none none none

end Courier.Screen
