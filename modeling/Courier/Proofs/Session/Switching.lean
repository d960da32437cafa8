/-
Courier.Proofs.Session.Switching — switches from workspace to workspace.

A switch to a workspace is a function of the session (`stateAfter_setWorkspace`): whether the
workspace can be entered (`Session.enters`), what is on the disk then (`Session.diskFor`), and
the session in which it was entered (`Session.entered`). If it cannot be entered then the disk is
all that may have changed.

A session whose current workspace is open (`Session.Ready`) stays such a session in both cases.
So every session that begins in the playground, or by entering a workspace, in an ordinary data
directory is one.
-/
import Courier.Proofs.Session.Local

namespace Courier

open Courier.Text Courier.Store Courier.Database Courier.Screen

namespace Session

/-! ## New tables -/

theorem rowsOf_withTables (s : Session) (home : Home) (name : String) :
    (s.withTables home).rowsOf name = s.rowsOf name := by
  have hlookup (other : Home) :
      ((s.withTables home).saved.lookup other).getD {} = (s.saved.lookup other).getD {} := by
    unfold withTables knows
    cases hknown : s.saved.lookup home with
    | some rows => rfl
    | none =>
      simp only [Option.isSome_none, Bool.false_eq_true, if_false, lookup_putSaved]
      by_cases hother : other = home
      · simp [hother, hknown]
      · simp [hother]
  obtain ⟨saved, htables⟩ := withTables_eq s home
  rw [htables] at hlookup ⊢
  simp only [rowsOf, store, inPlayground, location, hlookup]
  rfl

theorem knows_withTables (s : Session) (home other : Home) :
    (s.withTables home).knows other = (s.knows other || decide (other = home)) := by
  unfold withTables
  cases hknown : s.knows home with
  | true =>
    by_cases hother : other = home
    · simp [hother, hknown]
    · simp [hother]
  | false =>
    simp only [Bool.false_eq_true, if_false, knows, lookup_putSaved]
    by_cases hother : other = home
    · simp [hother]
    · simp [hother]

/-! ## A switch -/

/-- Whether a workspace can be entered. -/
def enters (s : Session) (name : String) : Bool :=
  isWorkspaceName name && (decide (name = playgroundName) ||
    (openWorkspace s.disk s.knows s.dataDir name).1.toOption.isSome)

/-- The disk behind a try to enter a workspace. -/
def diskFor (s : Session) (name : String) : Disk :=
  if isWorkspaceName name = true ∧ name ≠ playgroundName then
    (openWorkspace s.disk s.knows s.dataDir name).2
  else s.disk

/-- The session with the tables of a workspace. -/
def withTablesOf (s : Session) (name : String) : Session :=
  if name = playgroundName then s else s.withTables (plainLocation s.dataDir name).home

theorem isWorkspaceName_of_enters {s : Session} {name : String} (h : s.enters name = true) :
    isWorkspaceName name = true := by
  rw [enters, Bool.and_eq_true] at h
  exact h.1

/-- The session behind the opening of a workspace. -/
def Opens (s : Session) (name : String) (opened : Session) : Prop :=
  (name = playgroundName ∧ opened = s) ∨
  (name ≠ playgroundName ∧ ∃ l, (openWorkspace s.disk s.knows s.dataDir name).1 = .ok l ∧
    opened = ({ s with disk := s.diskFor name } : Session).withTables l.home)

/-- In an ordinary data directory the tables are in the file of the workspace. -/
theorem Opens.eq_of_plain {s opened : Session} {name : String} (h : s.Opens name opened)
    (hname : isWorkspaceName name = true) (hplain : isPlainDir s.dataDir = true) :
    opened = { s.withTablesOf name with disk := s.diskFor name } := by
  obtain ⟨hplayground, rfl⟩ | ⟨hne, l, hopen, rfl⟩ := h
  · simp [withTablesOf, diskFor, hplayground]
  · obtain rfl : l = plainLocation s.dataDir name := openWorkspace_location hname hplain hopen
    rw [withTablesOf, if_neg hne]
    unfold withTables
    split <;> simp_all [knows]

/-- The session in which a workspace was entered. -/
def entered (s : Session) (name : String) : Session :=
  { s.withTablesOf name with
    disk := s.diskFor name
    workspace := name
    environment := none
    request := none }

theorem rowsOf_entered (s : Session) (name other : String) :
    (s.entered name).rowsOf other = s.rowsOf other := by
  have htables : (s.withTablesOf name).rowsOf other = s.rowsOf other := by
    unfold withTablesOf
    split
    · rfl
    · rw [rowsOf_withTables]
  rw [← htables]
  exact rowsOf_of_tables (s.withTablesOf name) (s.entered name) rfl rfl rfl other

theorem withTablesOf_eq (s : Session) (name : String) :
    ∃ saved, s.withTablesOf name = { s with saved } := by
  unfold withTablesOf
  split
  · exact ⟨_, rfl⟩
  · exact withTables_eq s _

end Session

open Session

variable {s : Session} {name : String}

/-- What opening a workspace can do: it makes the tables of the workspace, if that is not in
memory, or it leaves all but the disk alone. -/
theorem ends_openNamed (hname : isWorkspaceName name = true) :
    Ends (openNamed name) s fun r s' =>
      (s.enters name = true ∧ r = .ok (.ok ()) ∧ s.Opens name s') ∨
      (s.enters name = false ∧ (∃ fault, r = .ok (.error fault)) ∧
        s' = { s with disk := s.diskFor name }) := by
  unfold openNamed
  split
  next hplayground =>
    have henters : s.enters name = true := by
      rw [enters, hname, Bool.true_and, decide_eq_true hplayground, Bool.true_or]
    exact ends_pure.2 (.inl ⟨henters, rfl, .inl ⟨hplayground, rfl⟩⟩)
  next hne =>
    have henters : s.enters name =
        (openWorkspace s.disk s.knows s.dataDir name).1.toOption.isSome := by
      simp [enters, hname, hne]
    have hdisk : s.diskFor name = (openWorkspace s.disk s.knows s.dataDir name).2 := by
      simp [diskFor, hname, hne]
    refine ends_bind.2 (ends_get.2 ?_)
    dsimp only
    rcases hopen : openWorkspace s.disk s.knows s.dataDir name with ⟨result, disk⟩
    rw [hopen] at henters hdisk
    cases result with
    | error fault =>
      refine ends_bind.2 (ends_set.2 (ends_pure.2 (.inr ⟨henters, ⟨fault, rfl⟩, ?_⟩)))
      rw [hdisk]
    | ok l =>
      refine ends_bind.2 (ends_set.2 (ends_pure.2 (.inl ⟨henters, rfl, .inr ⟨hne, l, ?_, ?_⟩⟩)))
      · rw [hopen]
      · rw [hdisk]

/-- A switch opens the workspace and enters it, or leaves all but the disk alone. -/
theorem ends_switchWorkspace_opens (s : Session) (name : String) :
    Ends (switchWorkspace name) s fun r s' =>
      (s.enters name = true ∧ r = .ok () ∧ ∃ opened, s.Opens name opened ∧
        s' = { opened with workspace := name }) ∨
      (s.enters name = false ∧ (∃ message, r = .error (.refused (.workspace name message))) ∧
        s' = { s with disk := s.diskFor name }) := by
  unfold switchWorkspace
  split
  next hbad =>
    rw [Bool.not_eq_true'] at hbad
    refine ends_bind.2 (ends_throw.2 (.inr ⟨?_, ⟨_, rfl⟩, ?_⟩))
    · simp [enters, hbad]
    · simp [diskFor, hbad]
  next hname =>
    rw [Bool.not_eq_true, Bool.not_eq_false'] at hname
    refine ends_bind.2 ((ends_openNamed hname).mono fun r s' hr => ?_)
    obtain ⟨henters, rfl, hopens⟩ | ⟨henters, ⟨fault, rfl⟩, rfl⟩ := hr
    · exact ends_modify.2 (.inl ⟨henters, rfl, s', hopens, rfl⟩)
    · exact ends_throw.2 (.inr ⟨henters, ⟨_, rfl⟩, rfl⟩)

/-- A switch enters the workspace, or leaves all but the disk alone. -/
theorem ends_switchWorkspace (hplain : isPlainDir s.dataDir = true) (name : String) :
    Ends (switchWorkspace name) s fun r s' =>
      (s.enters name = true ∧ r = .ok () ∧
        s' = { s.withTablesOf name with disk := s.diskFor name, workspace := name }) ∨
      (s.enters name = false ∧ (∃ e, r = .error e) ∧ s' = { s with disk := s.diskFor name }) := by
  refine (ends_switchWorkspace_opens s name).mono fun r s' h => ?_
  obtain ⟨henters, rfl, opened, hopens, rfl⟩ | ⟨henters, ⟨message, rfl⟩, rfl⟩ := h
  · have hopened := hopens.eq_of_plain (isWorkspaceName_of_enters henters) hplain
    exact .inl ⟨henters, rfl, by rw [hopened]⟩
  · exact .inr ⟨henters, ⟨_, rfl⟩, rfl⟩

/-- A workspace is entered without a selection. -/
theorem stateAfter_setWorkspace (hplain : isPlainDir s.dataDir = true) (name : String) :
    (s.enters name = true ∧ ∃ shown,
      stateAfter (execute (.setWorkspace name)) s = { s.entered name with shown }) ∨
    (s.enters name = false ∧
      stateAfter (execute (.setWorkspace name)) s = { s with disk := s.diskFor name }) := by
  have hends : Ends (execute (.setWorkspace name)) s fun _ s' =>
      (s.enters name = true ∧ ∃ shown, s' = { s.entered name with shown }) ∨
      (s.enters name = false ∧ s' = { s with disk := s.diskFor name }) := by
    refine ends_bind.2 (ends_bind.2 ((ends_switchWorkspace hplain name).mono fun r s' hr => ?_))
    obtain ⟨henters, rfl, rfl⟩ | ⟨henters, ⟨e, rfl⟩, rfl⟩ := hr
    · refine ends_bind.2 (ends_modify.2 ((ends_showEvents _ _).mono fun r s' hr => ?_))
      obtain ⟨⟨shown, rfl⟩, -⟩ := hr
      cases r with
      | ok _ => exact ends_pure.2 (.inl ⟨henters, _, rfl⟩)
      | error e => exact .inl ⟨henters, _, rfl⟩
    · exact .inr ⟨henters, rfl⟩
  exact hends.stateAfter

/-! ## Workspaces that stay open -/

namespace Session

theorem Ready.of_playground (hworkspace : s.workspace = playgroundName)
    (hplain : isPlainDir s.dataDir = true) : s.Ready where
  named := by
    rw [hworkspace]
    decide +kernel
  plain := hplain
  isOpen := fun hne => absurd hworkspace hne

/-- A try to enter a workspace leaves all that was on the disk. -/
theorem diskFor_opened {d₀ : Disk} (h : Opened d₀ s.dataDir s.disk)
    (hplain : isPlainDir s.dataDir = true) (name : String) :
    Opened d₀ s.dataDir (s.diskFor name) ∧ s.disk.Extends (s.diskFor name) := by
  unfold diskFor
  split
  next hopens => exact h.opens hopens.1 hplain s.knows
  next => exact ⟨h, .refl s.disk⟩

/-- A workspace that is open stays open when another one is opened, or cannot be. -/
theorem Ready.diskFor (hs : s.Ready) : ({ s with disk := s.diskFor name } : Session).Ready where
  named := hs.named
  plain := hs.plain
  isOpen := by
    intro hne
    obtain ⟨hknown, hopen⟩ := hs.isOpen hne
    obtain ⟨hopened, hextends⟩ := diskFor_opened .fresh hs.plain name
    refine ⟨hknown, hopened.reopen hs.named hs.plain (congrArg Prod.fst hopen) ?_ hknown⟩
    rw [hopen]
    exact hextends

/-- A workspace that was entered is open. -/
theorem Ready.entered (hs : s.Ready) (henters : s.enters name = true) : (s.entered name).Ready := by
  rw [enters, Bool.and_eq_true] at henters
  obtain ⟨hname, hopens⟩ := henters
  obtain ⟨saved, htables⟩ := withTablesOf_eq s name
  have hdir : (s.entered name).dataDir = s.dataDir := by rw [Session.entered, htables]
  refine ⟨hname, hdir.symm ▸ hs.plain, fun hne => ?_⟩
  change name ≠ playgroundName at hne
  rw [decide_eq_false hne, Bool.false_or] at hopens
  have hknown : (s.entered name).knows (plainLocation s.dataDir name).home = true := by
    show (s.withTablesOf name).knows _ = true
    rw [withTablesOf, if_neg hne, knows_withTables, decide_eq_true rfl, Bool.or_true]
  have hdisk : (s.entered name).disk = (openWorkspace s.disk s.knows s.dataDir name).2 :=
    if_pos ⟨hname, hne⟩
  have hopened := (diskFor_opened .fresh hs.plain name).1
  rw [hdir]
  refine ⟨hknown, ?_⟩
  cases hopen : (openWorkspace s.disk s.knows s.dataDir name).1 with
  | error fault =>
    rw [hopen] at hopens
    exact nomatch hopens
  | ok l =>
    obtain rfl := openWorkspace_location hname hs.plain hopen
    exact hopened.reopen hname hs.plain hopen (hdisk ▸ .refl _) hknown

end Session

end Courier
