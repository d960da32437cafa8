/-
Courier.Proofs.Session.Rows — what actions do to the rows of all workspaces.

The rows of a session stand on shelves: the playground has one, and so has every place where
a database can be (`Session.rowsAt`). Of these `Session.shelf?` is that of the current
workspace. Two names of workspaces that lead to one place share a shelf.

`Session.Worked P s s'` says what an action does that stays in its workspace: the rows there
become others by changes of which `P` holds, all other rows are what they were, and so is
what is selected. Opening a workspace changes no rows (`keeps_openCurrent`), and an
operation on rows changes those of the current workspace only (`keeps_onBench`). To show
something changes no more than what has been shown, and can fail only because a console
cannot lay it out (`ends_showEvents`).
-/
import Courier.Proofs.Store.Change
import Courier.Session.Current

namespace Courier

open Courier.Text Courier.Http Courier.Store Courier.Database Courier.Screen

/-! ## Rows that can be written or not -/

/-- The rows of a store, whether or not they can be written. -/
def Store.writable (s : Store) : Store := { s with readOnly := false }

@[simp]
theorem Store.hasRequest_writable (s : Store) (name : String) :
    s.writable.hasRequest name = s.hasRequest name :=
  rfl

/-- No rule asks whether anything can be written. -/
theorem Store.apply_writable (s : Store) (c : Change) :
    Change.apply s.writable c = (Change.apply s c).map Store.writable := by
  have hoption (request name : String) : s.writable.option? request name = s.option? request name :=
    rfl
  cases c with
  | insertRequest r =>
    rw [Change.apply, Change.apply, insertRequest, insertRequest, hasRequest_writable]
    cases s.hasRequest r.name <;> rfl
  | dropRequest name => rfl
  | putVariable name env value source => rfl
  | deleteVariables doomed => rfl
  | declareOption request name =>
    rw [Change.apply, Change.apply, declareOption, declareOption, hasRequest_writable, hoption]
    cases s.hasRequest request with
    | false => rfl
    | true => cases s.option? request name <;> rfl
  | setOption request name value =>
    rw [Change.apply, Change.apply, setOption, setOption, hasRequest_writable]
    cases s.hasRequest request <;> rfl
  | deleteOptions name request => rfl
  | putExtraction e =>
    rw [Change.apply, Change.apply, putExtraction, putExtraction, hasRequest_writable]
    cases Grammar.extractionSources.contains e.source with
    | false => rfl
    | true => cases s.hasRequest e.request <;> rfl
  | recordResponse r =>
    rw [Change.apply, Change.apply, recordResponse, recordResponse, hasRequest_writable]
    cases s.hasRequest r.request <;> rfl
  | forgetResponses request => rfl

theorem Store.Changes.writable {P : Change → Prop} {s s' : Store} (h : Changes P s s') :
    Changes P s.writable s'.writable := by
  induction h with
  | refl => exact Relation.ReflTransGen.refl
  | tail _ hlast ih =>
    obtain ⟨c, hc, happly⟩ := hlast
    refine IsTrans.trans _ _ _ ih (.single hc ?_)
    rw [apply_writable, happly]
    rfl

/-! ## Shelves -/

/-- Where rows are in a session. -/
inductive Shelf where
  /-- In the playground. -/
  | playground
  /-- Where a database is. -/
  | home (home : Home)
  deriving DecidableEq

/-- Whether rows outlast the storage's being closed. -/
def Shelf.lasts : Shelf → Bool
  | playground => false
  | home place => place.lasts

namespace Session

/-- The rows on a shelf. -/
def rowsAt (s : Session) : Shelf → Store
  | .playground => s.playground.writable
  | .home home => ((s.saved.lookup home).getD {}).writable

/-- The shelf of the current workspace, if its name leads to one. -/
def shelf? (s : Session) : Option Shelf :=
  if s.inPlayground then some .playground
  else
    match s.location with
    | .ok l => some (.home l.home)
    | .error _ => none

theorem lookup_putSaved {home other : Home} {rows : Store} {saved : List (Home × Store)} :
    (putSaved home rows saved).lookup other
      = if other = home then some rows else saved.lookup other := by
  induction saved with
  | nil =>
    rw [putSaved, List.lookup_cons]
    by_cases hother : other = home
    · simp [hother]
    · simp [hother, beq_false_of_ne hother]
  | cons entry rest ih =>
    obtain ⟨h, t⟩ := entry
    rw [putSaved]
    by_cases hhome : h = home
    · subst hhome
      rw [if_pos rfl, List.lookup_cons, List.lookup_cons]
      by_cases hother : other = h
      · simp [hother]
      · simp [hother, beq_false_of_ne hother]
    · rw [if_neg hhome, List.lookup_cons, List.lookup_cons, ih]
      by_cases hother : other = h
      · subst hother
        simp [hhome]
      · simp [beq_false_of_ne hother]

theorem rowsAt_congr {s s' : Session} (hplayground : s'.playground = s.playground)
    (hsaved : s'.saved = s.saved) (shelf : Shelf) : s'.rowsAt shelf = s.rowsAt shelf := by
  cases shelf <;> rw [rowsAt, rowsAt]
  · rw [hplayground]
  · rw [hsaved]

theorem withTables_eq (s : Session) (home : Home) :
    ∃ saved, s.withTables home = { s with saved } := by
  unfold withTables
  split
  · exact ⟨_, rfl⟩
  · exact ⟨_, rfl⟩

theorem putStore_eq (s : Session) (rows : Store) :
    ∃ playground saved, s.putStore rows = { s with playground, saved } := by
  unfold putStore
  split
  · exact ⟨_, _, rfl⟩
  · split <;> exact ⟨_, _, rfl⟩

/-- Where there are no tables there are no rows, and none in new tables. -/
@[simp]
theorem rowsAt_withTables (s : Session) (home : Home) (shelf : Shelf) :
    (s.withTables home).rowsAt shelf = s.rowsAt shelf := by
  unfold withTables knows
  cases hknown : s.saved.lookup home with
  | some rows => rfl
  | none =>
    cases shelf with
    | playground => rfl
    | home other =>
      simp only [Option.isSome_none, Bool.false_eq_true, if_false, rowsAt, lookup_putSaved]
      by_cases hother : other = home <;> simp [hother, hknown]

/-- Giving the current workspace other rows changes those on its shelf. -/
theorem rowsAt_putStore (s : Session) (rows : Store) (shelf : Shelf) :
    (s.putStore rows).rowsAt shelf
      = if s.shelf? = some shelf then rows.writable else s.rowsAt shelf := by
  unfold putStore shelf?
  cases s.inPlayground with
  | true => cases shelf <;> simp [rowsAt]
  | false =>
    cases s.location with
    | error fault => simp
    | ok l =>
      cases shelf with
      | playground => simp [rowsAt]
      | home other =>
        simp only [Bool.false_eq_true, if_false, rowsAt, lookup_putSaved, Option.some.injEq,
          Shelf.home.injEq]
        by_cases hother : other = l.home
        · simp [hother, Store.writable]
        · simp [hother, Ne.symm hother]

theorem rowsAt_putBench (s : Session) (b : Bench) (shelf : Shelf) :
    (s.putBench b).rowsAt shelf
      = if s.shelf? = some shelf then b.store.writable else s.rowsAt shelf := by
  rw [← rowsAt_putStore]
  exact rowsAt_congr rfl rfl shelf

/-- The rows of the current workspace are those on its shelf. -/
theorem writable_store {s : Session} {shelf : Shelf} (h : s.shelf? = some shelf) :
    s.store.writable = s.rowsAt shelf := by
  unfold shelf? at h
  unfold store
  cases hplayground : s.inPlayground with
  | true =>
    simp only [hplayground, if_true, Option.some.injEq] at h
    exact h ▸ rfl
  | false =>
    cases hlocation : s.location with
    | error fault => simp [hplayground, hlocation] at h
    | ok l =>
      simp only [hplayground, hlocation, Bool.false_eq_true, if_false, Option.some.injEq] at h
      exact h ▸ rfl

/-- A workspace whose name leads nowhere has no rows. -/
theorem store_of_shelf?_none {s : Session} (h : s.shelf? = none) : s.store = {} := by
  unfold shelf? at h
  unfold store
  cases hplayground : s.inPlayground with
  | true => simp [hplayground] at h
  | false =>
    cases hlocation : s.location with
    | error fault => rfl
    | ok l => simp [hplayground, hlocation] at h

theorem store_congr {s s' : Session} (hworkspace : s'.workspace = s.workspace)
    (hdataDir : s'.dataDir = s.dataDir) (hplayground : s'.playground = s.playground)
    (hsaved : s'.saved = s.saved) : s'.store = s.store := by
  rw [store, store, inPlayground, inPlayground, location, location, hworkspace, hdataDir,
    hplayground, hsaved]

theorem store_putBench (s : Session) (b : Bench) :
    (s.putBench b).store = (s.putStore b.store).store :=
  store_congr rfl rfl rfl rfl

theorem shelf?_congr {s s' : Session} (hworkspace : s'.workspace = s.workspace)
    (hdataDir : s'.dataDir = s.dataDir) : s'.shelf? = s.shelf? := by
  rw [shelf?, shelf?, inPlayground, inPlayground, location, location, hworkspace, hdataDir]

theorem shelf?_putBench (s : Session) (b : Bench) : (s.putBench b).shelf? = s.shelf? := by
  obtain ⟨playground, saved, hput⟩ := putStore_eq s b.store
  refine shelf?_congr ?_ ?_ <;> rw [putBench, hput]

/-! ## Work in the current workspace -/

/-- What an action does that stays in its workspace: changes of these kinds to its rows. -/
structure Worked (P : Change → Prop) (s s' : Session) : Prop where
  workspace : s'.workspace = s.workspace
  dataDir : s'.dataDir = s.dataDir
  environment : s'.environment = s.environment
  request : s'.request = s.request
  here : ∀ shelf, s.shelf? = some shelf → Changes P (s.rowsAt shelf) (s'.rowsAt shelf)
  elsewhere : ∀ shelf, s.shelf? ≠ some shelf → s'.rowsAt shelf = s.rowsAt shelf

variable {P : Change → Prop}

theorem Worked.shelf? {s s' : Session} (h : s.Worked P s') : s'.shelf? = s.shelf? :=
  shelf?_congr h.workspace h.dataDir

/-- An action that changes no rows and selects nothing stays in its workspace. -/
theorem Worked.of_rowsAt_eq {s s' : Session} (hworkspace : s'.workspace = s.workspace)
    (hdataDir : s'.dataDir = s.dataDir) (henvironment : s'.environment = s.environment)
    (hrequest : s'.request = s.request) (hrows : ∀ shelf, s'.rowsAt shelf = s.rowsAt shelf) :
    s.Worked P s' where
  workspace := hworkspace
  dataDir := hdataDir
  environment := henvironment
  request := hrequest
  here := by
    intro shelf _
    rw [hrows shelf]
    exact Relation.ReflTransGen.refl
  elsewhere := fun shelf _ => hrows shelf

theorem Worked.mono {P' : Change → Prop} {s s' : Session} (h : s.Worked P s')
    (hP : ∀ c, P c → P' c) : s.Worked P' s' :=
  { h with here := fun shelf hshelf => (h.here shelf hshelf).mono hP }

/-- Changes to the rows on a bench are changes to those of the current workspace. -/
theorem Worked.putBench {s : Session} {b : Bench} (h : Changes P s.store b.store) :
    s.Worked P (s.putBench b) := by
  obtain ⟨playground, saved, hput⟩ := putStore_eq s b.store
  refine ⟨?_, ?_, ?_, ?_, fun shelf hshelf => ?_, fun shelf hshelf => ?_⟩
  · rw [Session.putBench, hput]
  · rw [Session.putBench, hput]
  · rw [Session.putBench, hput]
  · rw [Session.putBench, hput]
  · rw [rowsAt_putBench, if_pos hshelf, ← writable_store hshelf]
    exact h.writable
  · rw [rowsAt_putBench, if_neg hshelf]

instance : Std.Refl (Worked P) where
  refl _ := .of_rowsAt_eq rfl rfl rfl rfl fun _ => rfl

instance : IsTrans Session (Worked P) where
  trans _ _ _ hst htu :=
    { workspace := htu.workspace.trans hst.workspace
      dataDir := htu.dataDir.trans hst.dataDir
      environment := htu.environment.trans hst.environment
      request := htu.request.trans hst.request
      here := fun shelf h =>
        IsTrans.trans _ _ _ (hst.here shelf h) (htu.here shelf (hst.shelf?.trans h))
      elsewhere := fun shelf h =>
        (htu.elsewhere shelf (hst.shelf? ▸ h)).trans (hst.elsewhere shelf h) }

theorem withShown_nil (s : Session) : s.withShown [] = s := by simp [withShown]

theorem withShown_withShown (s : Session) (before later : List Event) :
    (s.withShown before).withShown later = s.withShown (before ++ later) := by
  simp [withShown]

/-- A console cannot lay out something, for this reason. -/
def Unprintable (s : Session) (e : Failure) : Prop :=
  ∃ event reason, s.host.fault? event = some reason ∧ e = .unprintable reason

end Session

open Session

/-! ## What is shown -/

theorem ends_showEvent {event : Event} {s : Session} {Q : Except Failure Unit → Session → Prop} :
    Ends (showEvent event) s Q ↔
      match s.host.fault? event with
      | some reason => Q (.error (.unprintable reason)) s
      | none => Q (.ok ()) (s.withShown [event]) := by
  refine ends_bind.trans (ends_get.trans ?_)
  dsimp only
  cases s.host.fault? event with
  | some reason => exact ends_throw
  | none => exact ends_modify

/-- To show something does no more than that, and it fails only if a console cannot lay it out. -/
theorem ends_showEvents (events : List Event) (s : Session) :
    Ends (showEvents events) s fun r s' =>
      (∃ shown, s' = s.withShown shown) ∧ ∀ e, r = .error e → s.Unprintable e := by
  induction events generalizing s with
  | nil => exact ends_pure.2 ⟨⟨[], (withShown_nil s).symm⟩, nofun⟩
  | cons event events ih =>
    refine ends_bind.2 (ends_showEvent.2 ?_)
    cases hfault : s.host.fault? event with
    | some reason =>
      refine ⟨⟨[], (withShown_nil s).symm⟩, ?_⟩
      rintro _ ⟨⟩
      exact ⟨event, reason, hfault, rfl⟩
    | none =>
      refine (ih (s.withShown [event])).mono fun _ _ hs' => ?_
      obtain ⟨⟨shown, rfl⟩, hfailure⟩ := hs'
      exact ⟨⟨event :: shown, withShown_withShown s [event] shown⟩, hfailure⟩

/-- In two sessions with one host the same is shown. -/
theorem parallel_showEvents {R : Session → Session → Prop}
    (hhost : ∀ s t, R s t → t.host = s.host)
    (hshown : ∀ s t event, R s t → R (s.withShown [event]) (t.withShown [event]))
    (events : List Event) {s t : Session} (h : R s t) : Parallel R (showEvents events) s t := by
  induction events generalizing s t with
  | nil => exact .pure h
  | cons event events ih =>
    refine Parallel.bind (ends_showEvent.2 ?_) fun _ s' t' h' => ih h'
    rw [← hhost s t h]
    cases hfault : t.host.fault? event with
    | some reason => exact ends_showEvent.2 (by rw [hfault]; exact ⟨rfl, h⟩)
    | none => exact ends_showEvent.2 (by rw [hfault]; exact ⟨rfl, hshown s t event h⟩)

/-- A result that is known goes with what is shown, unless that cannot be laid out. -/
theorem ends_showEvents_return {α : Type} (events : List Event) (a : α) (s : Session) :
    Ends (do showEvents events; return a : Action α) s fun r s' =>
      (∃ shown, s' = s.withShown shown) ∧ (r = .ok a ∨ ∃ e, r = .error e ∧ s.Unprintable e) := by
  refine ends_bind.2 ((ends_showEvents events s).mono fun r s' hr => ?_)
  cases r with
  | ok _ => exact ends_pure.2 ⟨hr.1, .inl rfl⟩
  | error e => exact ⟨hr.1, .inr ⟨e, rfl, hr.2 e rfl⟩⟩

section
variable {α β : Type} {P : Change → Prop}

theorem keeps_showEvents (events : List Event) : Keeps (Worked P) (showEvents events) := by
  intro s
  refine (ends_showEvents events s).mono fun _ s' hs' => ?_
  obtain ⟨⟨_, rfl⟩, -⟩ := hs'
  exact .of_rowsAt_eq rfl rfl rfl rfl fun _ => rfl

theorem keeps_orFail {ε : Type} (cause : ε → Failure) (r : Except ε α) :
    Keeps (Worked P) (orFail cause r) := by
  cases r with
  | ok a => exact .pure a
  | error e => exact .throw _

theorem keeps_refuseAction (refusal : Refusal) :
    Keeps (Worked P) (refuseAction refusal : Action α) :=
  .throw _

theorem keeps_storedWorkspaces : Keeps (Worked P) storedWorkspaces :=
  Keeps.get.bind fun _ => keeps_orFail _ _

/-- Opening a workspace makes files and empty tables, and changes no rows. -/
theorem keeps_openNamed (name : String) : Keeps (Worked P) (openNamed name) := by
  unfold openNamed
  split
  · exact .pure _
  · refine Keeps.get_bind fun s => ?_
    rcases openWorkspace s.disk s.knows s.dataDir name with ⟨result, disk⟩
    cases result with
    | ok l =>
      refine ends_bind.2 (ends_set.2 (ends_pure.2 ?_))
      obtain ⟨saved, htables⟩ := withTables_eq { s with disk } l.home
      have hrows := rowsAt_withTables { s with disk } l.home
      refine .of_rowsAt_eq ?_ ?_ ?_ ?_ hrows <;> rw [htables]
    | error fault =>
      exact ends_bind.2 (ends_set.2 (ends_pure.2 (.of_rowsAt_eq rfl rfl rfl rfl fun _ => rfl)))

theorem keeps_openCurrent : Keeps (Worked P) openCurrent :=
  Keeps.get.bind fun _ => (keeps_openNamed _).bind fun _ => keeps_orFail _ _

theorem ends_onOpened {act : BenchAction α} {s : Session} {Q : Except Failure α → Session → Prop} :
    Ends (onOpened act) s Q
      ↔ Ends act { store := s.store, wire := s.wire } fun r b => Q r (s.putBench b) := by
  unfold Ends onOpened
  cases act { store := s.store, wire := s.wire } <;> rfl

/-- What an action does to the rows of a bench, it does to those of the current workspace. -/
theorem keeps_onOpened {act : BenchAction α} (h : Keeps (Bench.Changes P) act) :
    Keeps (Worked P) (onOpened act) := by
  intro s
  exact ends_onOpened.2 ((h _).mono fun _ b hb => Worked.putBench hb)

theorem keeps_onBench {act : BenchAction α} (h : Keeps (Bench.Changes P) act) :
    Keeps (Worked P) (onBench act) :=
  keeps_openCurrent.bind fun _ => keeps_onOpened h

theorem keeps_onRows {act : StoreAction α} (h : Keeps (Store.Changes P) act) :
    Keeps (Worked P) (onRows act) :=
  keeps_onBench (keeps_onStore h)

theorem keeps_askRows (f : Store → α) : Keeps (Worked P) (askRows f) :=
  keeps_openCurrent.bind fun _ => Keeps.get.bind fun _ => .pure _

namespace Current

theorem keeps_onRowsAfter {check : Except Failure α} {act : StoreAction β}
    (h : Keeps (Store.Changes P) act) : Keeps (Worked P) (onRowsAfter check act) :=
  (keeps_orFail id check).bind fun _ => keeps_onRows h

theorem keeps_onRowsFor {ι : Type} {items : List ι} {idle : α} {act : StoreAction α}
    (h : Keeps (Store.Changes P) act) : Keeps (Worked P) (onRowsFor items idle act) := by
  unfold onRowsFor
  split
  · exact .pure idle
  · exact keeps_onRows h

theorem keeps_createRequest {d : Draft} (hrequest : ∀ r, P (.insertRequest r))
    (hoption : ∀ request name, P (.declareOption request name)) :
    Keeps (Worked P) (createRequest d) :=
  Keeps.get.bind fun _ => keeps_onRowsAfter (Courier.keeps_createRequest hrequest hoption)

theorem keeps_deleteRequests {names : List String} (h : ∀ name ∈ names, P (.dropRequest name)) :
    Keeps (Worked P) (deleteRequests names) :=
  keeps_onRowsFor (Courier.keeps_deleteRequests h)

theorem keeps_createVariable {name source : String} {pairs : List String}
    (h : ∀ checked, checkVariable name pairs = .ok checked →
      ∀ x ∈ checked.2, P (.putVariable checked.1 x.1 (some x.2) (some source))) :
    Keeps (Worked P) (createVariable name pairs source) :=
  keeps_onRowsAfter (Courier.keeps_createVariable h)

theorem keeps_deleteVariables {env : Option String} {items : List String}
    (h : ∀ doomed, P (.deleteVariables doomed)) : Keeps (Worked P) (deleteVariables env items) :=
  (keeps_orFail _ _).bind fun _ => keeps_onRowsFor (Courier.keeps_deleteVariables h)

theorem keeps_deleteOptions {request : Option String} {names : List String}
    (h : ∀ name ∈ names, P (.deleteOptions name request)) :
    Keeps (Worked P) (deleteOptions request names) :=
  keeps_onRowsFor (Courier.keeps_deleteOptions h)

theorem keeps_createExtraction {request source path target : String}
    (h : P (.putExtraction { request, target, source, path })) :
    Keeps (Worked P) (createExtraction request source path target) :=
  keeps_onRowsAfter (Courier.keeps_createExtraction h)

end Current

end

end Courier
