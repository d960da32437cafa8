/-
Courier.Main — the program on a terminal.

This is the only module that reads and writes. It takes the lines of the standard
input as the inputs of the shell, runs the program on them, and prints what was shown:
texts with their tags, tables row by row. It keeps no files and reaches no network:
the session is a fresh one, whose far end answers every call that all is well.
-/
import Courier.Session.Program

open Courier Courier.Screen

/-- A table as lines of text. -/
def tableLines (t : Table) : List String :=
  t.title.toList ++ (if t.showHeader then ["  ".intercalate (t.columns.map Column.header)] else [])
    ++ t.rows.map (fun row => "  ".intercalate row)

/-- What is printed for an event. -/
def eventText : Event → String
  | .print _ none _ _ => "\n"
  | .print _ (some (.text s)) _ _ => s ++ "\n"
  | .print _ (some (.table t)) _ _ => Text.joinLines (tableLines t) ++ "\n"
  | .print _ (some (.panel body title _)) _ _ => title ++ "\n" ++ body ++ "\n"
  | .print _ (some (.json code)) _ _ => code ++ "\n"
  | .clear _ => ""
  | .plainPrompt s => s
  | .editor _ => ""
  | .prompt html => html

/-- All lines of the standard input. -/
partial def readInputs (stdin : IO.FS.Stream) (before : Array Input) : IO (Array Input) := do
  let line ← stdin.getLine
  if line.isEmpty then return before
  readInputs stdin (before.push (.line (String.ofList (dropLineEnd line.toList))))

/-- Runs the program; the standard input is read only if the shell is what is asked for. -/
def main (args : List String) : IO UInt32 := do
  let inputs ← if wantsShell args then readInputs (← IO.getStdin) #[] else pure #[]
  let terminal : Terminal := { inputs := inputs.toList }
  match runProgram args (← IO.getEnv "REPOST_DATA_DIR") terminal {} with
  | .ok code s =>
    (← IO.getStdout).putStr (String.join (s.shown.map eventText))
    return (code.getD 0).toUInt32
  | .error failure s =>
    (← IO.getStdout).putStr (String.join (s.shown.map eventText))
    (← IO.getStderr).putStrLn failure.message
    return 1
