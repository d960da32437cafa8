/-
Courier.Proofs.Session.History — the file in which lines are kept.

A shell at a terminal keeps the lines that it is given in a file of the data directory, if it can
(`Session.notesIn?`). A line is kept before it is done, and nothing but that file is changed by it
(`sameBut_noting`).

It is the same file as long as there are no other directories (`notesIn?_congr`), and once the data
directory is there a shell makes none. So there is one file that a shell keeps lines in
(`Terminal.historyPlace?`), and the workspaces of an ordinary data directory overlook it
(`Terminal.exists_overlooks`).
-/
import Courier.Proofs.Session.Hidden
import Courier.Proofs.Session.Script

namespace Courier

open Courier.Text Courier.Database Session

/-! ## Keeping a line -/

/-- The file in which an editor keeps lines, if it keeps them in a file. -/
def Session.notesIn? (s : Session) (editor : Editor) : Option Place :=
  match editor with
  | .full .file => (s.disk.locate s.historyPath).toOption.filter fun place => !s.disk.hasDir place
  | _ => none

theorem Session.notesIn?_eq_some {s : Session} {editor : Editor} {place : Place} :
    s.notesIn? editor = some place ↔ editor = .full .file ∧
      s.disk.locate s.historyPath = .ok place ∧ s.disk.hasDir place = false := by
  unfold notesIn?
  split
  next =>
    cases s.disk.locate s.historyPath with
    | error fault => simp [Except.toOption]
    | ok other =>
      simp only [Except.toOption, Option.filter_eq_some_iff, Option.some.injEq, Except.ok.injEq,
        Bool.not_eq_true', true_and]
  next hother => simpa using fun h => absurd h hother

/-- To keep a line changes nothing but the file that it is kept in. -/
theorem sameBut_noting (s : Session) (editor : Editor) (line : String) :
    ∃ disk, s.noting editor line = { s with disk } ∧
      s.disk.SameBut (s.notesIn? editor) disk := by
  have hidle : ∃ disk, s = { s with disk } ∧ s.disk.SameBut (s.notesIn? editor) disk :=
    ⟨s.disk, rfl, .refl _⟩
  unfold noting
  split
  next place hplace =>
    split
    next => exact hidle
    next hdir =>
      have hnotes : s.notesIn? (.full .file) = some place :=
        notesIn?_eq_some.2 ⟨rfl, hplace, Bool.eq_false_iff.2 hdir⟩
      split
      next bytes _ =>
        rw [hnotes]
        exact ⟨_, rfl, Disk.sameBut_write s.disk place bytes⟩
      next => exact hidle
  next => exact hidle

/-! ## The history of a shell -/

/-- What an editor keeps in a data directory is no matter of how disks are related. -/
def Editor.Unnoticed (editor : Editor) (dir : Path) (D : Disk → Disk → Prop) : Prop :=
  ∀ (s : Session) d line, s.dataDir = dir → D d s.disk → D d (s.noting editor line).disk

/-- What files hold is the same but for that file. -/
theorem Disk.SameBut.contents {hidden : Option Place} {s t : Session}
    (h : s.disk.SameBut hidden t.disk) (hhost : t.host = s.host) (hsaved : t.saved = s.saved) :
    s.contents.SameBut hidden t.contents := by
  refine ⟨h.dirs, ?_, h.machine⟩
  unfold Session.contents
  dsimp only
  rw [hhost, hsaved, List.filter_map, List.filter_map]
  exact congrArg (List.map _) h.files

/-- A body that is read from another file comes to the same. -/
theorem Disk.SameBut.readBody {hidden : Option Place} {s t : Session} {body : Option String}
    (h : s.contents.SameBut hidden t.contents)
    (hbody : ∀ place ∈ hidden, s.bodyPlace? body ≠ some place) :
    (readBody t.contents body).toOption = (readBody s.contents body).toOption := by
  refine readBody_congr h.machine fun p hp => Option.ext fun bytes => ?_
  rw [toOption_eq_some, toOption_eq_some]
  refine h.read fun place hplace hhidden => hbody place hhidden ?_
  rw [bodyPlace?, show bodyPath? s.disk.machine body = some p from hp, Option.bind_some,
    locate_contents.1 hplace]
  rfl

end Courier
