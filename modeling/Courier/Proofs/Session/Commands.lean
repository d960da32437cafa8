/-
Courier.Proofs.Session.Commands — what each command does to the rows of all workspaces.

Most commands stay in the workspace in which they are given and leave the selection as it
is (`Session.Worked`), whether they succeed or fail. The lemmas here say so of each of them and
name the changes that it makes. The others are those that select something, and the deletion of
requests, which may take the selected request with it.

Which options a command sets or deletes depends on the request that is selected when it is given.
`Session.ChangesHere` says this of a command, and of a line: the changes are those of the session
in which it begins, and all of them are made in the workspace of that session.
-/
import Courier.Proofs.Session.Rows
import Courier.Session.Shell

namespace Courier

open Courier.Text Courier.Http Courier.Store Courier.Screen Session

section
variable {P : Change → Prop}

/-! ## Listing -/

theorem keeps_doPrintRequests (filters : List String) :
    Keeps (Worked P) (doPrintRequests filters) :=
  (keeps_askRows _).bind fun _ => keeps_showEvents _

theorem keeps_doPrintVariables (filters : List String) :
    Keeps (Worked P) (doPrintVariables filters) :=
  Keeps.get.bind fun _ => (keeps_askRows _).bind fun _ => keeps_showEvents _

theorem keeps_doPrintEnvironments : Keeps (Worked P) doPrintEnvironments :=
  Keeps.get.bind fun _ => (keeps_askRows _).bind fun _ => keeps_showEvents _

theorem keeps_doPrintWorkspaces : Keeps (Worked P) doPrintWorkspaces :=
  keeps_storedWorkspaces.bind fun _ => Keeps.get.bind fun _ => keeps_showEvents _

theorem keeps_doPrintOptions (filters : List String) :
    Keeps (Worked P) (doPrintOptions filters) :=
  Keeps.get.bind fun _ => (keeps_askRows _).bind fun _ => keeps_showEvents _

/-! ## Creating and deleting -/

theorem keeps_doCreateRequest {d : Draft} (hrequest : ∀ r, P (.insertRequest r))
    (hoption : ∀ request name, P (.declareOption request name)) :
    Keeps (Worked P) (doCreateRequest d) := by
  refine (Current.keeps_createRequest hrequest hoption).bind fun _ =>
    (keeps_showEvents _).bind fun _ => (keeps_askRows _).bind fun _ => ?_
  split
  · exact keeps_showEvents _
  · exact .pure ()

theorem keeps_doCreateVariable {name : String} {pairs : List String}
    (h : ∀ checked, checkVariable name pairs = .ok checked →
      ∀ x ∈ checked.2, P (.putVariable checked.1 x.1 (some x.2) (some userSource))) :
    Keeps (Worked P) (doCreateVariable name pairs) :=
  (Current.keeps_createVariable h).bind fun _ => keeps_showEvents _

theorem keeps_doDeleteVariables {ns : List String} (h : ∀ doomed, P (.deleteVariables doomed)) :
    Keeps (Worked P) (doDeleteVariables ns) :=
  Keeps.get.bind fun _ => (Current.keeps_deleteVariables h).bind fun _ => keeps_showEvents _

/-- Options are deleted of the selected request, if there is one. -/
theorem ends_doDeleteOptions {ns : List String} {s : Session}
    (h : ∀ name ∈ ns, P (.deleteOptions name s.request)) :
    Ends (doDeleteOptions ns) s fun _ s' => s.Worked P s' :=
  ends_bind.2 (ends_get.2 (((Current.keeps_deleteOptions h).bind fun _ => keeps_showEvents _) s))

theorem keeps_doDeleteOptions {ns : List String}
    (h : ∀ name request, P (.deleteOptions name request)) :
    Keeps (Worked P) (doDeleteOptions ns) :=
  fun _ => ends_doDeleteOptions fun _ _ => h _ _

/-! ## The selected request -/

theorem keeps_selectedRequest (command : String) :
    Keeps (Worked P) (selectedRequest command) := by
  refine Keeps.get.bind fun s => ?_
  cases s.request with
  | some name => exact .pure name
  | none => exact keeps_refuseAction _

/-- An option is set of the selected request. -/
theorem ends_doSetOption {name : String} {values : List String} {s : Session}
    (h : ∀ request ∈ s.request, P (.setOption request name (storedValue values))) :
    Ends (doSetOption name values) s fun _ s' => s.Worked P s' := by
  refine ends_bind.2 (ends_bind.2 (ends_get.2 ?_))
  dsimp only
  cases hrequest : s.request with
  | none => exact ends_throw.2 (Std.Refl.refl s)
  | some request =>
    have hset : Keeps (Worked P) (do
        let o ← onRows (assignOption request name values)
        if o.value.isNone then
          showEvents [say ("✓ Cleared option " ++ styled "cyan" (escape o.name))]
        else
          showEvents [say ("✓ Set option " ++ styled "cyan" (escape o.name) ++ " to "
            ++ commaList (values.map escape))]) := by
      refine (keeps_onRows (keeps_assignOption (h request hrequest))).bind fun o => ?_
      split <;> exact keeps_showEvents _
    exact ends_pure.2 (hset s)

theorem keeps_doSetOption {name : String} {values : List String}
    (h : ∀ request, P (.setOption request name (storedValue values))) :
    Keeps (Worked P) (doSetOption name values) :=
  fun _ => ends_doSetOption fun request _ => h request

theorem keeps_doExtract {source path target : String}
    (h : ∀ request, P (.putExtraction { request, target, source, path })) :
    Keeps (Worked P) (doExtract source path target) :=
  (keeps_selectedRequest _).bind fun request =>
    (Current.keeps_createExtraction (h request)).bind fun _ => keeps_showEvents _

theorem keeps_doInfo : Keeps (Worked P) doInfo :=
  (keeps_selectedRequest _).bind fun _ => (keeps_onRows (keeps_requireRequest _)).bind fun _ =>
    (keeps_askRows _).bind fun _ => (keeps_askRows _).bind fun _ => keeps_showEvents _

theorem keeps_present (showing : Showing) : Keeps (Worked P) (present showing) := by
  refine (keeps_showEvents _).bind fun _ => ?_
  cases showing.2 with
  | none => exact .pure ()
  | some failure => exact .throw failure

/-- Around the run of a stored request, in the selected environment, nothing is changed. -/
theorem keeps_doRun_of {R : Session → Session → Prop} [Std.Refl R] [IsTrans Session R]
    {name : Option String} {quiet : Bool} (hidle : ∀ s s', s.Worked (fun _ => False) s' → R s s')
    (hrun : ∀ name s, Ends (onBench (runStored name s.environment)) s fun _ s' => R s s') :
    Keeps R (doRun name quiet) := by
  have hshow (result : RunReport) : Keeps (Worked fun _ => False) (do
      result.exchanges.forM (fun x => present (exchange x quiet))
      showEvents (runEvents result)) :=
    (Keeps.forM fun _ _ => keeps_present _).bind fun _ => keeps_showEvents _
  have hall (name : String) : Keeps R (do
      let env := (← get).environment
      let result ← onBench (runStored name env)
      result.exchanges.forM (fun x => present (exchange x quiet))
      showEvents (runEvents result)) := by
    refine Keeps.get_bind fun s => ends_bind.2 ((hrun name s).mono fun result s₁ hs => ?_)
    cases result with
    | error e => exact hs
    | ok result =>
      exact (hshow result s₁).mono fun _ s' h => IsTrans.trans s s₁ s' hs (hidle s₁ s' h)
  unfold doRun
  cases name.filter (fun n => !n.isEmpty) with
  | some name => exact (Keeps.pure name).bind hall
  | none => exact ((keeps_selectedRequest "run").mono hidle).bind hall

theorem keeps_doRun {name : Option String} {quiet : Bool}
    (hvariable : ∀ name target env value, P (.putVariable target env (some value) (some name)))
    (hrecord : ∀ r, P (.recordResponse r)) (hforget : ∀ name, P (.forgetResponses name)) :
    Keeps (Worked P) (doRun name quiet) :=
  keeps_doRun_of (fun _ _ h => h.mono fun _ => False.elim) fun name s =>
    keeps_onBench (keeps_runStored (hvariable name) (fun r _ => hrecord r) (hforget name)) s

theorem keeps_doHelp (topic : List String) : Keeps (Worked P) (doHelp topic) := by
  unfold doHelp
  split
  · exact keeps_showEvents _
  · dsimp only
    split
    · exact keeps_showEvents _
    · exact keeps_refuseAction _

/-! ## Selecting -/

/-- The rows of all workspaces become others by changes of these kinds. -/
def Session.RowsChange (P : Change → Prop) (s s' : Session) : Prop :=
  ∀ shelf, Changes P (s.rowsAt shelf) (s'.rowsAt shelf)

instance : Std.Refl (RowsChange P) where
  refl _ _ := Relation.ReflTransGen.refl

instance : IsTrans Session (RowsChange P) where
  trans _ _ _ h h' := fun shelf => IsTrans.trans _ _ _ (h shelf) (h' shelf)

theorem Session.RowsChange.of_eq {s s' : Session} (h : ∀ shelf, s'.rowsAt shelf = s.rowsAt shelf) :
    RowsChange P s s' := by
  intro shelf
  rw [h shelf]
  exact Relation.ReflTransGen.refl

theorem Session.Worked.rowsChange {s s' : Session} (h : s.Worked P s') : RowsChange P s s' := by
  intro shelf
  by_cases hshelf : s.shelf? = some shelf
  · exact h.here shelf hshelf
  · rw [h.elsewhere shelf hshelf]
    exact Relation.ReflTransGen.refl

theorem Keeps.rowsChange {α : Type} {act : Action α} (h : Keeps (Worked P) act) :
    Keeps (RowsChange P) act :=
  h.mono fun _ _ => Worked.rowsChange

theorem keeps_modify_rowsChange {f : Session → Session}
    (h : ∀ s, (f s).playground = s.playground ∧ (f s).saved = s.saved) :
    Keeps (RowsChange P) (modify f : Action PUnit) :=
  Keeps.modify fun s => .of_eq fun shelf => rowsAt_congr (h s).1 (h s).2 shelf

section
variable {R : Session → Session → Prop} [IsTrans Session R]

/-- A workspace is opened before it is entered. -/
theorem keeps_switchWorkspace_of [Std.Refl R] {name : String}
    (hidle : ∀ s s', s.Worked (fun _ => False) s' → R s s')
    (henter : Keeps R (modify fun s => { s with workspace := name } : Action PUnit)) :
    Keeps R (switchWorkspace name) := by
  unfold switchWorkspace
  split
  · exact fun s => ends_bind.2 (ends_throw.2 (Std.Refl.refl (r := R) s))
  · refine ((keeps_openNamed name).mono hidle).bind fun result => ?_
    cases result with
    | ok _ => exact henter
    | error fault => exact .throw _

/-- Once an environment is selected nothing else is changed. -/
theorem keeps_doSetEnvironment_of {name : Option String}
    (hidle : ∀ s s', s.Worked (fun _ => False) s' → R s s')
    (hselect : Keeps R (modify fun s => { s with environment := name } : Action PUnit)) :
    Keeps R (doSetEnvironment name) := by
  refine hselect.bind fun _ => ?_
  cases name with
  | none => exact (keeps_showEvents _).mono hidle
  | some env =>
    refine Keeps.mono ?_ hidle
    refine (keeps_showEvents _).bind fun _ => (keeps_askRows _).bind fun known => ?_
    split
    · exact keeps_showEvents _
    · exact .pure ()

end

theorem keeps_switchWorkspace (name : String) : Keeps (RowsChange P) (switchWorkspace name) := by
  refine keeps_switchWorkspace_of (fun _ _ h => (h.mono fun _ => False.elim).rowsChange)
    (keeps_modify_rowsChange ?_)
  exact fun _ => ⟨rfl, rfl⟩

/-- If a workspace cannot be entered nothing else happens. -/
theorem spares_switchWorkspace {E : Failure → Prop} (name : String) :
    Spares E (Worked P) (switchWorkspace name) := by
  unfold switchWorkspace
  split
  · exact fun s => ends_bind.2 (ends_throw.2 fun _ _ _ => Std.Refl.refl s)
  · intro s
    refine ends_bind.2 ((keeps_openNamed (P := P) name s).mono fun r s' h => ?_)
    cases r with
    | error e => exact fun _ _ _ => h
    | ok result =>
      cases result with
      | ok _ => exact ends_modify.2 nofun
      | error fault => exact ends_throw.2 fun _ _ _ => h

theorem keeps_doSetWorkspace (name : String) : Keeps (RowsChange P) (doSetWorkspace name) := by
  refine (keeps_switchWorkspace name).bind fun _ =>
    Keeps.bind (keeps_modify_rowsChange ?_) fun _ => (keeps_showEvents _).rowsChange
  exact fun _ => ⟨rfl, rfl⟩

end

/-! ## Lines -/

/-- Whether a change saves no variable and no extraction, and deletes no request. -/
def Store.Change.IsPlain (c : Change) : Prop :=
  c.KeepsRequests ∧ (∀ name env value source, c ≠ .putVariable name env value source) ∧
    ∀ e, c ≠ .putExtraction e

/-- Whether a change neither sets nor deletes an option. A new option may be declared. -/
def Store.Change.KeepsOptions (c : Change) : Prop :=
  (∀ request name value, c ≠ .setOption request name value) ∧
    ∀ name request, c ≠ .deleteOptions name request

section
variable {R : Session → Session → Prop} [Std.Refl R] [IsTrans Session R]

/-- Most commands do plain work that keeps the options. The others are named here. -/
theorem keeps_execute_of_quiet {c : Command}
    (hquiet : ∀ s s', s.Worked (fun c => c.IsPlain ∧ c.KeepsOptions) s' → R s s')
    (hvariable : ∀ name pairs, c = .createVariable name pairs →
      Keeps R (doCreateVariable name pairs))
    (hoption : ∀ name values, c = .setOption name values → Keeps R (doSetOption name values))
    (hextract : ∀ source path target, c = .extract source path target →
      Keeps R (doExtract source path target))
    (hrun : ∀ name quiet, c = .run name quiet → Keeps R (doRun name quiet))
    (hdelete : ∀ ns, c = .deleteRequests ns → Keeps R (doDeleteRequests ns))
    (hclear : ∀ ns, c = .deleteOptions ns → Keeps R (doDeleteOptions ns))
    (henvironment : ∀ name, c = .setEnvironment name → Keeps R (doSetEnvironment name))
    (hworkspace : ∀ name, c = .setWorkspace name → Keeps R (doSetWorkspace name))
    (hrequest : ∀ name, c = .setRequest name → Keeps R (doSetRequest name)) :
    Keeps R (execute c) := by
  have hthen {act : Action Unit} (h : Keeps R act) : Keeps R (do act; return c != .exit) :=
    h.bind fun _ => .pure _
  have hwork {act : Action Unit}
      (h : Keeps (Worked fun c => c.IsPlain ∧ c.KeepsOptions) act) :
      Keeps R (do act; return c != .exit) :=
    hthen (h.mono hquiet)
  cases c with
  | printRequests filters => exact hwork (keeps_doPrintRequests filters)
  | printVariables filters => exact hwork (keeps_doPrintVariables filters)
  | printEnvironments => exact hwork keeps_doPrintEnvironments
  | printWorkspaces => exact hwork keeps_doPrintWorkspaces
  | printOptions filters => exact hwork (keeps_doPrintOptions filters)
  | createRequest name url method headers body =>
    exact hwork (keeps_doCreateRequest (fun _ => ⟨⟨nofun, nofun, nofun⟩, nofun, nofun⟩)
      fun _ _ => ⟨⟨nofun, nofun, nofun⟩, nofun, nofun⟩)
  | createVariable name pairs => exact hthen (hvariable name pairs rfl)
  | deleteRequests ns => exact hthen (hdelete ns rfl)
  | deleteVariables ns =>
    exact hwork (keeps_doDeleteVariables fun _ => ⟨⟨nofun, nofun, nofun⟩, nofun, nofun⟩)
  | deleteOptions ns => exact hthen (hclear ns rfl)
  | setEnvironment name => exact hthen (henvironment name rfl)
  | setWorkspace name => exact hthen (hworkspace name rfl)
  | setRequest name => exact hthen (hrequest name rfl)
  | setOption name values => exact hthen (hoption name values rfl)
  | run name quiet => exact hthen (hrun name quiet rfl)
  | extract source path target => exact hthen (hextract source path target rfl)
  | info => exact hwork keeps_doInfo
  | help topic => exact hwork (keeps_doHelp topic)
  | clear => exact hwork (keeps_showEvents _)
  | exit => exact hwork (keeps_showEvents _)

/-- Commands that set or delete options do plain work too. -/
theorem keeps_execute_of_plain {c : Command} (hplain : ∀ s s', s.Worked Change.IsPlain s' → R s s')
    (hvariable : ∀ name pairs, c = .createVariable name pairs →
      Keeps R (doCreateVariable name pairs))
    (hextract : ∀ source path target, c = .extract source path target →
      Keeps R (doExtract source path target))
    (hrun : ∀ name quiet, Keeps R (doRun name quiet))
    (hdelete : ∀ ns, c = .deleteRequests ns → Keeps R (doDeleteRequests ns))
    (henvironment : ∀ name, c = .setEnvironment name → Keeps R (doSetEnvironment name))
    (hworkspace : ∀ name, Keeps R (doSetWorkspace name))
    (hrequest : ∀ name, Keeps R (doSetRequest name)) : Keeps R (execute c) :=
  keeps_execute_of_quiet (fun s s' h => hplain s s' (h.mono fun _ => And.left)) hvariable
    (fun _ _ _ => (keeps_doSetOption fun _ => ⟨nofun, nofun, nofun⟩).mono hplain) hextract
    (fun name quiet _ => hrun name quiet) hdelete
    (fun _ _ => (keeps_doDeleteOptions fun _ _ => ⟨nofun, nofun, nofun⟩).mono hplain) henvironment
    (fun name _ => hworkspace name) fun name _ => hrequest name

/-- Most commands do work that deletes no requests; the others are the four that select. -/
theorem keeps_execute {c : Command}
    (hworked : ∀ s s', s.Worked Change.KeepsRequests s' → R s s')
    (hdelete : ∀ ns, c = .deleteRequests ns → Keeps R (doDeleteRequests ns))
    (henvironment : ∀ name, Keeps R (doSetEnvironment name))
    (hworkspace : ∀ name, Keeps R (doSetWorkspace name))
    (hrequest : ∀ name, Keeps R (doSetRequest name)) : Keeps R (execute c) :=
  keeps_execute_of_plain (fun s s' h => hworked s s' (h.mono fun _ => And.left))
    (fun _ _ _ => (keeps_doCreateVariable fun _ _ _ _ => nofun).mono hworked)
    (fun _ _ _ _ => (keeps_doExtract fun _ => nofun).mono hworked)
    (fun _ _ => (keeps_doRun (fun _ _ _ _ => nofun) (fun _ => nofun) fun _ => nofun).mono hworked)
    hdelete (fun name _ => henvironment name) hworkspace hrequest

theorem keeps_dispatch {line : String}
    (h : ∀ c, Command.ofLine line = .ok (some c) → Keeps R (execute c)) :
    Keeps R (dispatch line) := by
  unfold dispatch
  split
  · exact .pure _
  · exact .pure _
  next c hline => exact (h c hline).bind fun _ => .pure _

theorem stateAfter_dispatch {line : String} {c : Command}
    (hline : Command.ofLine line = .ok (some c)) (s : Session) :
    stateAfter (dispatch line) s = stateAfter (execute c) s := by
  have hrun : Ends (execute c) s fun _ s' => s' = stateAfter (execute c) s :=
    ends_stateAfter.2 rfl
  have hdispatch : Ends (dispatch line) s fun _ s' => s' = stateAfter (execute c) s := by
    unfold dispatch
    rw [hline]
    refine ends_bind.2 (hrun.mono fun r s' hs => ?_)
    cases r with
    | ok goesOn => exact ends_pure.2 hs
    | error e => exact hs
  exact hdispatch.stateAfter

theorem stateAfter_dispatch_of_none {line : String}
    (hline : ∀ c, Command.ofLine line ≠ .ok (some c)) (s : Session) :
    stateAfter (dispatch line) s = s := by
  unfold dispatch
  split
  · rfl
  · rfl
  next c hc => exact absurd hc (hline c)

/-- Of a line that failed the reason is shown; it does nothing else that its command does not. -/
theorem stateAfter_doLine (line : String) (s : Session) :
    ∃ events, stateAfter (doLine line) s = (stateAfter (dispatch line) s).withShown events := by
  have hquiet (s : Session) : ∃ events, s = s.withShown events := ⟨[], (withShown_nil s).symm⟩
  have hnote (events : List Event) (s' : Session) : ∃ more,
      stateAfter (do showEvents events; return true : Action Bool) s' = s'.withShown more :=
    ((ends_showEvents_return events true s').mono fun _ _ hr => hr.1).stateAfter
  unfold doLine stateAfter
  dsimp only
  rcases dispatch line s with ⟨e | goesOn, s'⟩ | ⟨failure, s'⟩
  · exact hnote (parseErrorEvents line e) s'
  · exact hquiet s'
  · cases failure with
    | refused refusal => exact hnote [sayQuietly (refusalText refusal)] s'
    | _ => exact hquiet s'

theorem keeps_doLine {line : String}
    (h : ∀ c, Command.ofLine line = .ok (some c) → Keeps R (execute c))
    (hshown : ∀ s events, R s (s.withShown events)) : Keeps R (doLine line) := by
  intro s
  obtain ⟨events, hline⟩ := stateAfter_doLine line s
  refine ends_stateAfter.2 ?_
  rw [hline]
  exact IsTrans.trans _ _ _ ((keeps_dispatch h).stateAfter s) (hshown _ events)

end

/-! ## Where changes are made -/

section
variable {P : Change → Prop} {s s' : Session}

/-- The rows of the current workspace become others by changes of these kinds, and no other rows
change. -/
def Session.ChangesHere (P : Change → Prop) (s s' : Session) : Prop :=
  ∀ shelf, Changes (fun c => s.shelf? = some shelf ∧ P c) (s.rowsAt shelf) (s'.rowsAt shelf)

theorem Session.ChangesHere.of_eq (h : ∀ shelf, s'.rowsAt shelf = s.rowsAt shelf) :
    s.ChangesHere P s' := by
  intro shelf
  rw [h shelf]
  exact Relation.ReflTransGen.refl

theorem Session.Worked.changesHere (h : s.Worked P s') : s.ChangesHere P s' := by
  intro shelf
  by_cases hshelf : s.shelf? = some shelf
  · exact (h.here shelf hshelf).mono fun _ hc => ⟨hshelf, hc⟩
  · rw [h.elsewhere shelf hshelf]
    exact Relation.ReflTransGen.refl

theorem Session.ChangesHere.rowsChange (h : s.ChangesHere P s') : s.RowsChange P s' :=
  fun shelf => (h shelf).mono fun _ => And.right

theorem Session.RowsChange.changesHere (h : s.RowsChange (fun _ => False) s') :
    s.ChangesHere P s' :=
  fun shelf => (h shelf).mono fun _ => False.elim

/-- What stays in its workspace does this, but it may select something else there. -/
def Session.Altered (P : Change → Prop) (s s' : Session) : Prop :=
  s'.shelf? = s.shelf? ∧ s.ChangesHere P s'

instance : Std.Refl (Altered P) where
  refl _ := ⟨rfl, .of_eq fun _ => rfl⟩

instance : IsTrans Session (Altered P) where
  trans _ _ _ h h' := ⟨h'.1.trans h.1, fun shelf =>
    IsTrans.trans _ _ _ (h.2 shelf) ((h'.2 shelf).mono fun _ hc => ⟨h.1 ▸ hc.1, hc.2⟩)⟩

theorem Session.Worked.altered (h : s.Worked P s') : s.Altered P s' :=
  ⟨h.shelf?, h.changesHere⟩

/-- Selecting an environment or a request is no change. -/
theorem Session.Altered.of_selects {environment request : Option String} :
    s.Altered P { s with environment, request } :=
  ⟨shelf?_congr rfl rfl, .of_eq fun shelf => rowsAt_congr rfl rfl shelf⟩

theorem altered_doDeleteRequests {ns : List String} (h : ∀ name ∈ ns, P (.dropRequest name)) :
    Keeps (Altered P) (doDeleteRequests ns) := by
  have hdelete : Keeps (Altered P) (Current.deleteRequests ns) :=
    (Current.keeps_deleteRequests h).mono fun _ _ => Worked.altered
  refine hdelete.bind fun deleted => Keeps.bind (Keeps.modify fun s => ?_) fun _ =>
    (keeps_showEvents _).mono fun _ _ => Worked.altered
  split
  · exact .of_selects
  · exact Std.Refl.refl s

theorem altered_doSetRequest (name : Option String) : Keeps (Altered P) (doSetRequest name) := by
  have hselect (request : Option String) :
      Keeps (Altered P) (modify fun s => { s with request } : Action PUnit) :=
    .modify fun _ => .of_selects
  have hshow (events : List Event) : Keeps (Altered P) (showEvents events) :=
    (keeps_showEvents events).mono fun _ _ => Worked.altered
  cases name with
  | none => exact (hselect none).bind fun _ => hshow _
  | some name =>
    have hfind : Keeps (Altered P) (onRows (requireRequest name)) :=
      (keeps_onRows (keeps_requireRequest name)).mono fun _ _ => Worked.altered
    exact hfind.bind fun r => (hselect (some r.name)).bind fun _ => hshow _

/-- Most commands change neither options nor the workspace. -/
theorem altered_execute {c : Command} (hoption : ∀ name values, c ≠ .setOption name values)
    (hoptions : ∀ ns, c ≠ .deleteOptions ns) (hworkspace : ∀ name, c ≠ .setWorkspace name)
    (hkeep : ∀ change : Change, change.KeepsRequests → change.KeepsOptions → P change)
    (hdrop : ∀ ns, c = .deleteRequests ns → ∀ name ∈ ns, P (.dropRequest name)) :
    Keeps (Altered P) (execute c) := by
  have hworked {act : Action Unit} (h : Keeps (Worked P) act) : Keeps (Altered P) act :=
    h.mono fun _ _ => Worked.altered
  refine keeps_execute_of_quiet ?_ ?_ ?_ ?_ ?_ ?_ ?_ ?_ ?_ ?_
  · exact fun _ _ h => (h.mono fun change hc => hkeep change hc.1.1 hc.2).altered
  · intro name pairs _
    exact hworked (keeps_doCreateVariable fun _ _ _ _ => hkeep _ nofun ⟨nofun, nofun⟩)
  · exact fun name values hc => absurd hc (hoption name values)
  · intro source path target _
    exact hworked (keeps_doExtract fun _ => hkeep _ nofun ⟨nofun, nofun⟩)
  · intro name quiet _
    exact hworked (keeps_doRun (fun _ _ _ _ => hkeep _ nofun ⟨nofun, nofun⟩)
      (fun _ => hkeep _ nofun ⟨nofun, nofun⟩) fun _ => hkeep _ nofun ⟨nofun, nofun⟩)
  · exact fun ns hc => altered_doDeleteRequests (hdrop ns hc)
  · exact fun ns hc => absurd hc (hoptions ns)
  · intro name _
    exact keeps_doSetEnvironment_of (fun _ _ h => (h.mono fun _ => False.elim).altered)
      (.modify fun _ => .of_selects)
  · exact fun name hc => absurd hc (hworkspace name)
  · exact fun name _ => altered_doSetRequest name

/-- What a command changes: rows of the current workspace, and of these requests if it deletes
them, and options if it sets or deletes them. -/
theorem ends_execute_changesHere {c : Command}
    (hkeep : ∀ change : Change, change.KeepsRequests → change.KeepsOptions → P change)
    (hdrop : ∀ ns, c = .deleteRequests ns → ∀ name ∈ ns, P (.dropRequest name))
    (hset : ∀ name values, c = .setOption name values → ∀ request ∈ s.request,
      P (.setOption request name (storedValue values)))
    (hclear : ∀ ns, c = .deleteOptions ns → ∀ name ∈ ns, P (.deleteOptions name s.request)) :
    Ends (execute c) s fun _ s' => s.ChangesHere P s' := by
  have hthen {act : Action Unit} (h : Ends act s fun _ s' => s.ChangesHere P s') :
      Ends (do act; return c != .exit) s fun _ s' => s.ChangesHere P s' := by
    refine ends_bind.2 (h.mono fun r s' hs => ?_)
    cases r with
    | ok _ => exact ends_pure.2 hs
    | error e => exact hs
  have hothers (hoption : ∀ name values, c ≠ .setOption name values)
      (hoptions : ∀ ns, c ≠ .deleteOptions ns) (hworkspace : ∀ name, c ≠ .setWorkspace name) :
      Ends (execute c) s fun _ s' => s.ChangesHere P s' :=
    (altered_execute hoption hoptions hworkspace hkeep hdrop s).mono fun _ _ => And.right
  cases c with
  | setOption name values =>
    exact hthen ((ends_doSetOption (hset name values rfl)).mono fun _ _ => Worked.changesHere)
  | deleteOptions ns =>
    exact hthen ((ends_doDeleteOptions (hclear ns rfl)).mono fun _ _ => Worked.changesHere)
  | setWorkspace name =>
    exact hthen ((keeps_doSetWorkspace name s).mono fun _ _ => RowsChange.changesHere)
  | _ => exact hothers nofun nofun nofun

/-- A line does what its command does. -/
theorem ends_doLine_changesHere {line : String}
    (hkeep : ∀ change : Change, change.KeepsRequests → change.KeepsOptions → P change)
    (hdrop : ∀ ns, Command.ofLine line = .ok (some (.deleteRequests ns)) →
      ∀ name ∈ ns, P (.dropRequest name))
    (hset : ∀ name values, Command.ofLine line = .ok (some (.setOption name values)) →
      ∀ request ∈ s.request, P (.setOption request name (storedValue values)))
    (hclear : ∀ ns, Command.ofLine line = .ok (some (.deleteOptions ns)) →
      ∀ name ∈ ns, P (.deleteOptions name s.request)) :
    Ends (doLine line) s fun _ s' => s.ChangesHere P s' := by
  obtain ⟨events, hshown⟩ := stateAfter_doLine line s
  refine ends_stateAfter.2 ?_
  rw [hshown]
  have hdispatch : s.ChangesHere P (stateAfter (dispatch line) s) := by
    by_cases hline : ∃ c, Command.ofLine line = .ok (some c)
    · obtain ⟨c, hc⟩ := hline
      rw [stateAfter_dispatch hc]
      exact (ends_execute_changesHere hkeep (fun ns h => hdrop ns (h ▸ hc))
        (fun name values h => hset name values (h ▸ hc))
        fun ns h => hclear ns (h ▸ hc)).stateAfter
    · rw [stateAfter_dispatch_of_none fun c hc => hline ⟨c, hc⟩]
      exact .of_eq fun _ => rfl
  exact hdispatch

end

end Courier
