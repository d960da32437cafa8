/-
Courier.Proofs.Disk.Growth — a disk that only grows.

Nothing that is done to a workspace takes files or directories away. `Disk.Extends` says that of
two disks of one machine: what the first one has the second one has too, and where the first one has
a file the second one has no new directory. Walks and reads that succeed on a disk then succeed in
the same way on a later one (`Extends.leads`, `Extends.read`).

Walks are told by `Leads`, one constructor for each way in which a walk goes on, so that the
facts about them are inductions on the walk.

`makeDirs` grows the disk whether or not it succeeds. After a success there is a directory,
and making it again does nothing (`makeDirs_isDir`); after a failure making it again fails
again and does nothing either (`makeDirs_fails_again`).
-/
import Courier.Disk
import Mathlib.Data.List.Infix

namespace Courier.Disk

open Courier.Text

/-! ## Walks -/

theorem stepFrom_eq_ok {d : Disk} {place next : Place} {step : String} :
    d.stepFrom place step = .ok next ↔ d.hasDir place = true ∧
      (step = ".." ∧ next = place.dropLast ∨
        step ≠ ".." ∧ byteLength step ≤ maxName ∧ next = place ++ [step]) := by
  unfold stepFrom
  cases d.hasDir place with
  | false => simp
  | true =>
    by_cases hup : step = ".."
    · simp [hup, eq_comm]
    · by_cases hlong : byteLength step > maxName
      · simp [hup, hlong, Nat.not_le.2 hlong]
      · simp [hup, hlong, Nat.le_of_not_lt hlong, eq_comm]

/-- The steps lead from a place to a place: all of them to something, except perhaps the last. -/
inductive Leads (d : Disk) : Place → List String → Place → Prop
  | here (place : Place) : Leads d place [] place
  | last {place next : Place} {step : String} (h : d.stepFrom place step = .ok next) :
    Leads d place [step] next
  | on {place next target : Place} {step second : String} {steps : List String}
    (h : d.stepFrom place step = .ok next) (hnext : d.has next = true)
    (hsteps : Leads d next (second :: steps) target) :
    Leads d place (step :: second :: steps) target

theorem walk_cons_cons {d : Disk} {place next : Place} {step second : String} {steps : List String}
    (h : d.stepFrom place step = .ok next) :
    d.walk place (step :: second :: steps) =
      if d.has next then d.walk next (second :: steps) else .error .noEntry := by
  show (d.stepFrom place step).bind _ = _
  rw [h]
  rfl

theorem walk_eq_ok {d : Disk} {place target : Place} {steps : List String} :
    d.walk place steps = .ok target ↔ Leads d place steps target := by
  constructor
  · intro h
    induction steps generalizing place with
    | nil =>
      cases h
      exact .here _
    | cons step steps ih =>
      cases steps with
      | nil => exact .last h
      | cons second steps =>
        cases hstep : d.stepFrom place step with
        | error fault =>
          have hwalk : d.walk place (step :: second :: steps) = .error fault := by
            show (d.stepFrom place step).bind _ = _
            rw [hstep]
            rfl
          exact nomatch hwalk.symm.trans h
        | ok next =>
          rw [walk_cons_cons hstep] at h
          split at h
          next hnext => exact .on hstep hnext (ih h)
          next => exact nomatch h
  · intro h
    induction h with
    | here place => rfl
    | last h => exact h
    | on h hnext _ ih => rw [walk_cons_cons h, if_pos hnext, ih]

/-- Where a path begins. -/
def start (p : Path) : Place := if p.isAbsolute then [] else workPlace

theorem locate_eq_ok {d : Disk} {p : Path} {place : Place} :
    d.locate p = .ok place ↔ byteLength p.text ≤ maxPath ∧ Leads d (start p) p.steps place := by
  unfold locate
  split
  next hlong => simp [Nat.not_le.2 hlong]
  next hlong => exact ⟨fun h => ⟨Nat.le_of_not_lt hlong, walk_eq_ok.1 h⟩, fun h => walk_eq_ok.2 h.2⟩

theorem isDir_iff {d : Disk} {p : Path} :
    d.isDir p = true ↔ ∃ place, d.locate p = .ok place ∧ d.hasDir place = true := by
  unfold isDir
  cases d.locate p <;> simp

/-- Steps are made from directories only. -/
theorem Leads.hasDir {d : Disk} {place target : Place} {step : String} {steps : List String}
    (h : Leads d place (step :: steps) target) : d.hasDir place = true := by
  cases h with
  | last h => exact (stepFrom_eq_ok.1 h).1
  | on h _ _ => exact (stepFrom_eq_ok.1 h).1

/-- A walk looks at directories only. -/
theorem Leads.congr {d d' : Disk} (h : ∀ place, d'.hasDir place = d.hasDir place)
    {place target : Place} {steps : List String} (hsteps : Leads d place steps target) :
    Leads d' place steps target := by
  have hstep {place next : Place} {step : String} (hstep : d.stepFrom place step = .ok next) :
      d'.stepFrom place step = .ok next := by
    rw [stepFrom_eq_ok] at *
    rwa [h]
  induction hsteps with
  | here place => exact .here place
  | last hlast => exact .last (hstep hlast)
  | on hfirst _ _ ih =>
    refine .on (hstep hfirst) ?_ ih
    rw [has, ih.hasDir, Bool.true_or]

theorem locate_congr {d d' : Disk} (h : ∀ place, d'.hasDir place = d.hasDir place) {p : Path}
    {place : Place} : d'.locate p = .ok place ↔ d.locate p = .ok place := by
  rw [locate_eq_ok, locate_eq_ok]
  exact and_congr_right fun _ => ⟨Leads.congr fun x => (h x).symm, Leads.congr h⟩

theorem isDir_congr {d d' : Disk} (h : ∀ place, d'.hasDir place = d.hasDir place) {p : Path} :
    d'.isDir p = d.isDir p := by
  rw [Bool.eq_iff_iff, isDir_iff, isDir_iff]
  simp only [locate_congr h, h]

/-- What leads somewhere leads to a place from which the last step is made. -/
theorem Leads.init {d : Disk} {place target : Place} {steps : List String} {step : String}
    (h : Leads d place (steps ++ [step]) target) :
    ∃ parent, Leads d place steps parent ∧ d.stepFrom parent step = .ok target := by
  induction steps generalizing place with
  | nil =>
    cases h with
    | last h => exact ⟨place, .here place, h⟩
  | cons first steps ih =>
    cases steps with
    | nil =>
      cases h with
      | on hfirst _ hlast =>
        cases hlast with
        | last hlast => exact ⟨_, .last hfirst, hlast⟩
    | cons second steps =>
      cases h with
      | on hfirst hnext hrest =>
        obtain ⟨parent, hparent, hlast⟩ := ih hrest
        exact ⟨parent, .on hfirst hnext hparent, hlast⟩

/-! ## Places with all their parents -/

/-- Whether there are directories at a place and at all places above it. -/
def Rooted (d : Disk) (place : Place) : Prop := ∀ n, d.hasDir (place.take n) = true

theorem Rooted.hasDir {d : Disk} {place : Place} (h : d.Rooted place) : d.hasDir place = true := by
  simpa using h place.length

theorem rooted_start (d : Disk) (p : Path) : d.Rooted (start p) := by
  intro n
  unfold start
  split
  · simp [hasDir]
  · cases n with
    | zero => simp [hasDir]
    | succ n => simp [hasDir, workPlace]

theorem Rooted.step {d : Disk} {place next : Place} {step : String} (h : d.Rooted place)
    (hstep : d.stepFrom place step = .ok next) (hnext : d.hasDir next = true) : d.Rooted next := by
  intro n
  obtain ⟨-, ⟨-, rfl⟩ | ⟨-, -, rfl⟩⟩ := stepFrom_eq_ok.1 hstep
  · rw [List.dropLast_eq_take, List.take_take]
    exact h _
  · by_cases hn : n ≤ place.length
    · rw [List.take_append_of_le_length hn]
      exact h n
    · rw [List.take_of_length_le (by simp; omega)]
      exact hnext

/-- The places that a walk to a directory comes through are those that its steps name, and they
are directories with all their parents. -/
theorem Leads.rooted {d : Disk} {place target : Place} {steps : List String}
    (h : Leads d place steps target) (hplace : d.Rooted place) (htarget : d.hasDir target = true) :
    ∀ x ∈ place :: plainVisits place steps, d.Rooted x := by
  have hnext {place next : Place} {step : String} (h : d.stepFrom place step = .ok next) :
      next = if step = ".." then place.dropLast else place ++ [step] := by
    obtain ⟨-, ⟨hup, rfl⟩ | ⟨hup, -, rfl⟩⟩ := stepFrom_eq_ok.1 h <;> simp [hup]
  induction h with
  | here place => simpa [plainVisits] using hplace
  | last h =>
    have hrooted := hplace.step h htarget
    simp only [plainVisits, ← hnext h, List.forall_mem_cons]
    exact ⟨hplace, hrooted, by simp⟩
  | on h _ hsteps ih =>
    have hrooted := hplace.step h hsteps.hasDir
    rw [plainVisits]
    simp only [← hnext h]
    exact List.forall_mem_cons.2 ⟨hplace, ih hrooted htarget⟩

theorem rooted_of_isDir {d : Disk} {p : Path} (h : d.isDir p = true) :
    ∀ place ∈ plainPlaces p, d.Rooted place := by
  obtain ⟨target, htarget, hdir⟩ := isDir_iff.1 h
  exact (locate_eq_ok.1 htarget).2.rooted (rooted_start d p) hdir

/-! ## Growth -/

/-- The second disk has what the first one has, and no new directory in the place of a file. -/
structure Extends (d d' : Disk) : Prop where
  dirs : ∀ place, d.hasDir place = true → d'.hasDir place = true
  files : ∀ place bytes, d.file? place = some bytes → d'.file? place = some bytes
  clear : ∀ place, d'.hasDir place = true → d.hasDir place = true ∨ d.file? place = none
  machine : d'.machine = d.machine

theorem Extends.refl (d : Disk) : d.Extends d :=
  ⟨fun _ => id, fun _ _ => id, fun _ => .inl, rfl⟩

theorem Extends.trans {d d' d'' : Disk} (h : d.Extends d') (h' : d'.Extends d'') :
    d.Extends d'' where
  dirs := fun place hplace => h'.dirs place (h.dirs place hplace)
  files := fun place bytes hbytes => h'.files place bytes (h.files place bytes hbytes)
  clear := by
    intro place hplace
    rcases h'.clear place hplace with hdir | hnone
    · exact h.clear place hdir
    · right
      cases hfile : d.file? place with
      | none => rfl
      | some bytes => exact absurd (h.files place bytes hfile) (by simp [hnone])
  machine := h'.machine.trans h.machine

section
variable {d d' : Disk} (h : d.Extends d')
include h

theorem Extends.has {place : Place} (hplace : d.has place = true) : d'.has place = true := by
  rw [Disk.has, Bool.or_eq_true] at *
  rcases hplace with hdir | hfile
  · exact .inl (h.dirs place hdir)
  · obtain ⟨bytes, hbytes⟩ := Option.isSome_iff_exists.1 hfile
    exact .inr (by rw [h.files place bytes hbytes]; rfl)

theorem Extends.stepFrom {place next : Place} {step : String}
    (hstep : d.stepFrom place step = .ok next) : d'.stepFrom place step = .ok next := by
  rw [stepFrom_eq_ok] at *
  exact ⟨h.dirs place hstep.1, hstep.2⟩

theorem Extends.leads {place target : Place} {steps : List String}
    (hsteps : Leads d place steps target) : Leads d' place steps target := by
  induction hsteps with
  | here place => exact .here place
  | last hstep => exact .last (h.stepFrom hstep)
  | on hstep hnext _ ih => exact .on (h.stepFrom hstep) (h.has hnext) ih

theorem Extends.locate {p : Path} {place : Place} (hp : d.locate p = .ok place) :
    d'.locate p = .ok place := by
  rw [locate_eq_ok] at *
  exact ⟨hp.1, h.leads hp.2⟩

theorem Extends.isDir {p : Path} (hp : d.isDir p = true) : d'.isDir p = true := by
  obtain ⟨place, hplace, hdir⟩ := isDir_iff.1 hp
  exact isDir_iff.2 ⟨place, h.locate hplace, h.dirs place hdir⟩

end

theorem read_eq_ok {d : Disk} {p : Path} {bytes : Bytes} :
    d.read p = .ok bytes ↔ ∃ place, d.locate p = .ok place ∧ d.hasDir place = false ∧
      d.file? place = some bytes := by
  unfold read
  cases d.locate p with
  | error fault => simp [bind, Except.bind]
  | ok place =>
    cases hdir : d.hasDir place with
    | true => simp [bind, Except.bind, hdir, throw, throwThe, MonadExceptOf.throw]
    | false =>
      cases hfile : d.file? place <;>
        simp [bind, Except.bind, hdir, hfile, pure, Except.pure, throw, throwThe,
          MonadExceptOf.throw]

/-- What was read from a file can be read from it still. -/
theorem Extends.read {d d' : Disk} (h : d.Extends d') {p : Path} {bytes : Bytes}
    (hp : d.read p = .ok bytes) : d'.read p = .ok bytes := by
  obtain ⟨place, hplace, hdir, hfile⟩ := read_eq_ok.1 hp
  refine read_eq_ok.2 ⟨place, h.locate hplace, ?_, h.files place bytes hfile⟩
  rw [← Bool.not_eq_true]
  intro hnew
  rcases h.clear place hnew with hold | hnone
  · rw [hdir] at hold
    exact nomatch hold
  · rw [hfile] at hnone
    exact nomatch hnone

/-! ## Paths and their parents -/

theorem byteLength_eq (s : String) : byteLength s = (s.toList.flatMap String.utf8EncodeChar).length :=
  rfl

theorem byteLength_mono {s t : String} (h : s.toList <+: t.toList) :
    byteLength s ≤ byteLength t := by
  obtain ⟨rest, hrest⟩ := h
  rw [byteLength_eq, byteLength_eq, ← hrest, List.flatMap_append, List.length_append]
  exact Nat.le_add_right _ _

/-- One more part is written at the end, behind a separator unless it is the first one. -/
theorem intercalate_concat {α : Type} (sep : List α) (xs : List (List α)) (x : List α) :
    ∃ gap, (gap = [] ∨ gap = sep) ∧
      sep.intercalate (xs ++ [x]) = sep.intercalate xs ++ (gap ++ x) := by
  induction xs with
  | nil => exact ⟨[], .inl rfl, by simp⟩
  | cons a xs ih =>
    cases xs with
    | nil => exact ⟨sep, .inr rfl, by simp [List.intercalate]⟩
    | cons b xs =>
      obtain ⟨gap, hgap, hconcat⟩ := ih
      refine ⟨gap, hgap, ?_⟩
      rw [List.cons_append, List.cons_append, List.intercalate_cons_cons,
        List.intercalate_cons_cons, ← List.cons_append, hconcat, List.append_assoc, List.append_assoc,
        List.append_assoc]

/-- A path with one more step is written as before and goes on. -/
theorem text_concat (anchor : String) (steps : List String) (step : String) :
    ∃ gap, (gap = [] ∨ gap = ['/']) ∧ (Path.text ⟨anchor, steps ++ [step]⟩).toList =
      anchor.toList ++ ("/".intercalate steps).toList ++ (gap ++ step.toList) := by
  obtain ⟨gap, hgap, hconcat⟩ := intercalate_concat ['/'] (steps.map String.toList) step.toList
  refine ⟨gap, hgap, ?_⟩
  have hsome : (anchor.isEmpty && (steps ++ [step]).isEmpty) = false := by
    rw [List.isEmpty_eq_false_iff.2 (List.concat_ne_nil step steps), Bool.and_false]
  rw [Path.text, hsome, if_neg Bool.false_ne_true, String.toList_append,
    String.toList_intercalate, String.toList_intercalate, List.map_append, List.append_assoc]
  exact congrArg (anchor.toList ++ ·) hconcat

/-- The parent of a path is not too long if the path is not. -/
theorem byteLength_parent {p : Path} (hsteps : p.steps ≠ [])
    (h : byteLength p.text ≤ maxPath) : byteLength p.parent.text ≤ maxPath := by
  obtain ⟨anchor, steps⟩ := p
  obtain ⟨init, last, rfl⟩ := (List.eq_nil_or_concat' steps).resolve_left hsteps
  have hparent : Path.parent ⟨anchor, init ++ [last]⟩ = ⟨anchor, init⟩ := by
    rw [Path.parent, List.dropLast_concat]
  rw [hparent, Path.text]
  split
  · decide
  · obtain ⟨gap, -, htext⟩ := text_concat anchor init last
    refine Nat.le_trans (byteLength_mono ?_) h
    rw [htext, String.toList_append]
    exact List.prefix_append _ _

/-- A path that can be located has a directory in front of its last step. -/
theorem isDir_parent {d : Disk} {p : Path} {place : Place} (hsteps : p.steps ≠ [])
    (h : d.locate p = .ok place) : d.isDir p.parent = true := by
  obtain ⟨hlength, hleads⟩ := locate_eq_ok.1 h
  obtain ⟨init, last, hlast⟩ := (List.eq_nil_or_concat' p.steps).resolve_left hsteps
  have hparent : p.parent.steps = init := by
    rw [Path.parent, hlast, List.dropLast_concat]
  rw [hlast] at hleads
  obtain ⟨parent, hinit, hlast⟩ := hleads.init
  have hdir : d.hasDir parent = true := (stepFrom_eq_ok.1 hlast).1
  refine isDir_iff.2 ⟨parent, locate_eq_ok.2 ⟨byteLength_parent hsteps hlength, ?_⟩, hdir⟩
  rw [hparent]
  exact hinit

theorem makeDir_eq_ok {d d' : Disk} {p : Path} :
    d.makeDir p = .ok d' ↔ ∃ place, d.locate p = .ok place ∧ d.has place = false ∧
      d' = { d with dirs := d.dirs ++ [place] } := by
  unfold makeDir
  cases d.locate p with
  | error fault => simp [bind, Except.bind]
  | ok place =>
    cases hhas : d.has place with
    | true => simp [bind, Except.bind, hhas, throw, throwThe, MonadExceptOf.throw]
    | false =>
      simp only [bind, Except.bind, hhas, pure, Except.pure, Bool.false_eq_true, if_false,
        Except.ok.injEq]
      constructor
      · rintro rfl
        exact ⟨place, rfl, hhas, rfl⟩
      · rintro ⟨_, rfl, -, rfl⟩
        rfl

theorem makeDir_isDir {d : Disk} {p : Path} (h : d.isDir p = true) :
    d.makeDir p = .error .exists := by
  obtain ⟨place, hplace, hdir⟩ := isDir_iff.1 h
  have hhas : d.has place = true := by rw [has, hdir, Bool.true_or]
  simp [makeDir, hplace, bind, Except.bind, hhas, throw, throwThe, MonadExceptOf.throw]

theorem extends_makeDir {d d' : Disk} {p : Path} (h : d.makeDir p = .ok d') :
    d.Extends d' ∧ d'.isDir p = true := by
  obtain ⟨place, hplace, hhas, rfl⟩ := makeDir_eq_ok.1 h
  rw [has, Bool.or_eq_false_iff] at hhas
  have hdir (x : Place) : ({ d with dirs := d.dirs ++ [place] } : Disk).hasDir x = true ↔
      d.hasDir x = true ∨ x = place := by
    simp only [hasDir, Bool.or_eq_true, decide_eq_true_eq, List.contains_iff_mem, List.mem_append,
      List.mem_singleton, or_assoc]
  have hgrowth : d.Extends { d with dirs := d.dirs ++ [place] } := by
    refine ⟨fun x hx => (hdir x).2 (.inl hx), fun _ _ => id, fun x hx => ?_, rfl⟩
    rcases (hdir x).1 hx with hx | rfl
    · exact .inl hx
    · exact .inr (Option.not_isSome_iff_eq_none.1 (by simp [hhas.2]))
  exact ⟨hgrowth, isDir_iff.2 ⟨place, hgrowth.locate hplace, (hdir place).2 (.inr rfl)⟩⟩

/-- There is a directory behind `ensureDir`, or nothing has happened. -/
theorem ensureDir_cases (d : Disk) (p : Path) :
    (∃ d', d.ensureDir p = (none, d') ∧ (∃ place, d.locate p = .ok place) ∧ d.Extends d' ∧
      d'.isDir p = true) ∨
      ∃ failure, d.ensureDir p = (some failure, d) := by
  unfold ensureDir
  split
  next d' hmade =>
    obtain ⟨place, hplace, -⟩ := makeDir_eq_ok.1 hmade
    exact .inl ⟨d', rfl, ⟨place, hplace⟩, extends_makeDir hmade⟩
  next => exact .inr ⟨_, rfl⟩
  next fault _ _ =>
    cases hdir : d.isDir p with
    | true =>
      obtain ⟨place, hplace, -⟩ := isDir_iff.1 hdir
      exact .inl ⟨d, rfl, ⟨place, hplace⟩, .refl d, hdir⟩
    | false => exact .inr ⟨_, rfl⟩

theorem ensureDir_fails {d m : Disk} {p : Path} {failure : IoFault × Path}
    (h : d.ensureDir p = (some failure, m)) : d = m := by
  rcases ensureDir_cases d p with ⟨d', hmade, -⟩ | ⟨failure', hfailed⟩
  · exact nomatch hmade.symm.trans h
  · exact (Prod.mk.inj (hfailed.symm.trans h)).2

theorem ensureDir_isDir {d : Disk} {p : Path} (h : d.isDir p = true) :
    d.ensureDir p = (none, d) := by
  simp [ensureDir, makeDir_isDir h, h]

/-- How the directories along a path are made: its own one alone, or those in front of it first. -/
theorem ensureDirs_succ (d : Disk) (p : Path) (depth : Nat) :
    (d.makeDir p ≠ .error .noEntry ∧ d.ensureDirs p (depth + 1) = d.ensureDir p) ∨
      (d.makeDir p = .error .noEntry ∧ d.ensureDirs p (depth + 1) =
        match d.ensureDirs p.parent depth with
        | (none, d') => d'.ensureDir p
        | failed => failed) := by
  rw [ensureDirs]
  split
  next hmissing => exact .inr ⟨hmissing, rfl⟩
  next hother => exact .inl ⟨hother, rfl⟩

theorem ensureDirs_isDir {d : Disk} {p : Path} (h : d.isDir p = true) (depth : Nat) :
    d.ensureDirs p depth = (none, d) := by
  cases depth with
  | zero => exact ensureDir_isDir h
  | succ depth =>
    rcases ensureDirs_succ d p depth with ⟨-, hown⟩ | ⟨hmissing, -⟩
    · rw [hown, ensureDir_isDir h]
    · rw [makeDir_isDir h] at hmissing
      exact nomatch hmissing

/-- Making directories grows the disk, and a success leaves a directory. -/
theorem extends_ensureDirs (d : Disk) (p : Path) (depth : Nat) :
    d.Extends (d.ensureDirs p depth).2 ∧
      ((d.ensureDirs p depth).1 = none → (d.ensureDirs p depth).2.isDir p = true) := by
  have hone (d : Disk) (p : Path) : d.Extends (d.ensureDir p).2 ∧
      ((d.ensureDir p).1 = none → (d.ensureDir p).2.isDir p = true) := by
    rcases ensureDir_cases d p with ⟨d', hmade, -, hgrowth, hdir⟩ | ⟨failure, hfailed⟩
    · rw [hmade]
      exact ⟨hgrowth, fun _ => hdir⟩
    · rw [hfailed]
      exact ⟨.refl d, nofun⟩
  induction depth generalizing p with
  | zero => exact hone d p
  | succ depth ih =>
    rcases ensureDirs_succ d p depth with ⟨-, hown⟩ | ⟨-, hparent⟩
    · rw [hown]
      exact hone d p
    · obtain ⟨hgrowth, -⟩ := ih p.parent
      rw [hparent]
      rcases hmade : d.ensureDirs p.parent depth with ⟨_ | failure, d'⟩
      · rw [hmade] at hgrowth
        exact ⟨hgrowth.trans (hone d' p).1, (hone d' p).2⟩
      · rw [hmade] at hgrowth
        exact ⟨hgrowth, nofun⟩

/-- What could not be made cannot be made behind the attempt either: if there were a directory
in front of the last step now, the attempt would have made it. -/
theorem ensureDirs_fails_again {d m : Disk} {p : Path} {depth : Nat} {failure : IoFault × Path}
    (hdepth : p.steps.length = depth) (h : d.ensureDirs p depth = (some failure, m)) :
    ∃ failure', m.ensureDirs p depth = (some failure', m) := by
  induction depth generalizing d m p failure with
  | zero =>
    have hd : d = m := ensureDir_fails h
    rw [hd] at h
    exact ⟨failure, h⟩
  | succ depth ih =>
    have hsteps : p.steps ≠ [] := by
      rintro hnil
      simp [hnil] at hdepth
    have hparent : p.parent.steps.length = depth := by
      simp [Path.parent, hdepth]
    rcases ensureDirs_succ d p depth with ⟨-, hsame⟩ | ⟨hmissing, hfirst⟩
    · have hd : d = m := ensureDir_fails (hsame.symm.trans h)
      rw [hd] at h
      exact ⟨failure, h⟩
    · rw [h] at hfirst
      rcases hmade : d.ensureDirs p.parent depth with ⟨_ | failure', d'⟩
      · -- the parent is there, so only the directory itself is tried again
        rw [hmade] at hfirst
        change (some failure, m) = d'.ensureDir p at hfirst
        have hd' : d' = m := ensureDir_fails hfirst.symm
        have hdir : d'.isDir p.parent = true := by
          have hextends := (extends_ensureDirs d p.parent depth).2
          rw [hmade] at hextends
          exact hextends rfl
        rw [hd'] at hdir hfirst
        refine ⟨failure, ?_⟩
        rcases ensureDirs_succ m p depth with ⟨-, hagain⟩ | ⟨-, hagain⟩
        · rw [hagain, ← hfirst]
        · rw [hagain, ensureDirs_isDir hdir]
          exact hfirst.symm
      · rw [hmade] at hfirst
        change (some failure, m) = (some failure', d') at hfirst
        obtain ⟨-, rfl⟩ := Prod.mk.inj hfirst
        obtain ⟨parentFailure, hagain⟩ := ih hparent hmade
        rcases ensureDirs_succ m p depth with ⟨-, hsame⟩ | ⟨-, hfirst⟩
        · rcases ensureDir_cases m p with ⟨d', hown, ⟨place, hplace⟩, -⟩ | ⟨ownFailure, hfailed⟩
          · have hdir : m.isDir p.parent = true := isDir_parent hsteps hplace
            exact nomatch (ensureDirs_isDir hdir depth).symm.trans hagain
          · exact ⟨_, hsame.trans hfailed⟩
        · rw [hagain] at hfirst
          exact ⟨_, hfirst⟩

/-- A directory that is there need not be made. -/
theorem makeDirs_isDir {d : Disk} {p : Path} (h : d.isDir p = true) : d.makeDirs p = (none, d) :=
  ensureDirs_isDir h _

theorem extends_makeDirs (d : Disk) (p : Path) : d.Extends (d.makeDirs p).2 :=
  (extends_ensureDirs d p _).1

theorem isDir_makeDirs {d : Disk} {p : Path} (h : (d.makeDirs p).1 = none) :
    (d.makeDirs p).2.isDir p = true :=
  (extends_ensureDirs d p _).2 h

theorem makeDirs_fails_again {d m : Disk} {p : Path} {failure : IoFault × Path}
    (h : d.makeDirs p = (some failure, m)) : ∃ failure', m.makeDirs p = (some failure', m) :=
  ensureDirs_fails_again rfl h

end Courier.Disk
