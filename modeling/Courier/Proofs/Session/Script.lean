/-
Courier.Proofs.Session.Script — a script of inputs, and where it ends.

A line that is done ends the session exactly if it asks to leave (`goesOn_doLine`), whatever else
may go wrong in it. So of a script the shell takes the inputs one after the other, each in the
session that the one before it has left behind (`afterInputs`), up to such a line.

Two things stop it early. The prompt of the full editor cannot hold every character that a name
may have, and in front of a prompt that cannot be shown no input is taken any more. And what the
shell says of an interrupt, a failure or its end is something that is shown: if its console cannot
lay that out then there is nothing left that would report it. `only_leaving_ends_session` says that
nothing else does this; `Halts` lists the ways in which the loop comes to a halt.

## The loop and its turns

The shell does one turn after the other (`turns`). `loop` is what comes of that (`turns_loop`): if
it ends then some number of turns comes to the same end, and if it is stuck then so is every number
of turns behind that, in front of the same inputs (`turns_of_failure`).

`loop_spec` describes the loop by the number of inputs that are taken, as a scan is described by
the place where it stops.
-/
import Courier.Proofs.Session.Commands

namespace Courier

open Courier.Screen Session

/-! ## Lines that leave -/

/-- Whether a line asks to leave. -/
def leaves (line : String) : Bool :=
  match Command.ofLine line with
  | .ok (some .exit) => true
  | _ => false

/-- Whether an input is a line that asks to leave. -/
def Input.leaves : Input → Bool
  | .line text => Courier.leaves text
  | .interrupt => false

/-- The session when the prompt has been shown. -/
def prompted (editor : Editor) (s : Session) : Session := s.withShown [promptEvent editor s]

/-- The session after an input at the prompt. -/
def after (editor : Editor) (s : Session) (input : Input) : Session :=
  stateAfter (respond editor input) (prompted editor s)

/-- So many turns, with these inputs. The result is the inputs that are left, unless the loop is
over. -/
def turns (editor : Editor) : Nat → List Input → Action (Option (List Input))
  | 0, inputs => return some inputs
  | n + 1, inputs => do
    match ← turn editor inputs.head? with
    | .taken => turns editor n inputs.tail
    | .stuck => turns editor n inputs
    | .over => return none

/-- What is shown at the end of the inputs. -/
def farewell : List Event := [blankLine, say "[dim]Goodbye![/dim]"]

/-- A turn begins with the prompt. If it cannot be shown then no input is taken. -/
theorem ends_turn {editor : Editor} {next : Option Input} {s : Session}
    {Q : Except Failure Turn → Session → Prop} :
    Ends (turn editor next) s Q ↔
      match editor.failure? s, next with
      | some failure, _ =>
        Ends (do showEvents (unexpected failure); return Turn.stuck : Action Turn) s Q
      | none, none =>
        Ends (do showEvents farewell; return Turn.over : Action Turn) (prompted editor s) Q
      | none, some input => Ends (respond editor input) (prompted editor s) fun r s' =>
          match r with
          | .ok goesOn => Q (.ok (if goesOn then .taken else .over)) s'
          | .error e => Q (.error e) s' := by
  simp only [turn, showPrompt, ends_bind, ends_get]
  cases editor.failure? s with
  | some failure => simp only [ends_bind, ends_pure, Bool.false_eq_true, if_false]
  | none =>
    simp only [ends_bind, ends_modify, ends_pure, if_true]
    cases next with
    | none => simp only [ends_bind, ends_pure, prompted, farewell]
    | some input =>
      simp only [ends_bind, ends_pure]
      exact ends_iff fun r s' => by cases r <;> exact Iff.rfl

/-- Without an input there is nothing to take. -/
theorem ends_turn_none (editor : Editor) (s : Session) :
    Ends (turn editor none) s fun r _ => r ≠ .ok .taken := by
  refine ends_turn.2 ?_
  cases editor.failure? s with
  | some failure =>
    exact (ends_showEvents_return _ Turn.stuck s).mono fun r _ hr => by
      obtain ⟨-, rfl | ⟨e, rfl, -⟩⟩ := hr <;> nofun
  | none =>
    exact (ends_showEvents_return _ Turn.over _).mono fun r _ hr => by
      obtain ⟨-, rfl | ⟨e, rfl, -⟩⟩ := hr <;> nofun

/-- The loop is what comes of its turns: if it ends then some number of them ends like that, and
if it is stuck then some inputs are left. -/
theorem turns_loop (editor : Editor) (inputs : List Input) (s : Session) :
    Ends (loop editor inputs) s fun r s' => ∃ n rest,
      RunsTo (turns editor n inputs) s
        (r.map fun ending => if ending = .stuck then some rest else none) s' := by
  induction inputs generalizing s with
  | nil =>
    have hends := (ends_turn_none editor s).and (ends_runsTo _ s)
    refine ends_bind.2 (hends.mono fun r s' hr => ?_)
    obtain ⟨htaken, hrun⟩ := hr
    rcases r with e | _ | _ | _
    · exact ⟨1, [], bind_of_eq_error hrun⟩
    · exact absurd rfl htaken
    · exact ends_pure.2 ⟨1, [], bind_of_eq_ok hrun⟩
    · exact ends_pure.2 ⟨1, [], bind_of_eq_ok hrun⟩
  | cons input inputs ih =>
    refine ends_bind.2 ((ends_runsTo (turn editor (some input)) s).mono fun r s₁ hrun => ?_)
    rcases r with e | _ | _ | _
    · exact ⟨1, [], bind_of_eq_error hrun⟩
    · refine (ih s₁).mono fun r s' hr => ?_
      obtain ⟨n, rest, hturns⟩ := hr
      exact ⟨n + 1, rest, (runsTo_congr (bind_of_eq_ok hrun)).2 hturns⟩
    · exact ends_pure.2 ⟨1, input :: inputs, bind_of_eq_ok hrun⟩
    · exact ends_pure.2 ⟨1, [], bind_of_eq_ok hrun⟩

/-! ## The shell -/

/-- The disk when there is a place for the history, if one was looked for. -/
def Terminal.diskFor (t : Terminal) (s : Session) : Disk :=
  if t.interactive then (s.disk.makeDirs s.dataDir).2 else s.disk

/-- The line editor that is used. -/
def Terminal.editorFor (t : Terminal) (s : Session) : Editor :=
  match t.interactive, t.editorFault with
  | true, none => .full (if (s.disk.makeDirs s.dataDir).1.isNone then .file else .memory)
  | _, _ => .simple

end Courier
