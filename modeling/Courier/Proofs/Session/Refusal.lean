/-
Courier.Proofs.Session.Refusal — a refused line changes nothing.

What an operation refuses it refuses before its first change, and behind that change it fails
only on the way (`Failure.Late`), if at all. So an operation is read in two parts: the checks,
which change nothing however they end (`Keeps.bind_spares`), and the work, which is not
refused any more (`Fails.spares`). The lemmas here cut every operation and every command at
that place; `refused_line_changes_nothing` is the sum of them.
-/
import Courier.Proofs.Session.Commands
import Courier.Proofs.Session.Lateness
import Courier.Proofs.Session.Selection

namespace Courier

open Courier.Text Courier.Http Courier.Store Courier.Screen Session Failure

/-! ## Operations on rows -/

section
variable {α : Type} {P : Change → Prop}

theorem spares_createRequest (disk : Disk) (d : Draft) :
    Spares Late (Changes P) (createRequest disk d) := by
  refine (keeps_ofExcept _).bind_spares fun r => keeps_requireWritable.bind_spares fun _ => ?_
  intro s
  refine ends_bind.2 (ends_get.2 ?_)
  dsimp only
  cases s.insertRequest r with
  | error broken => exact ends_throw.2 fun _ _ _ => Std.Refl.refl s
  | ok created => exact (fails_storeRequest created.2 created.1).spares s

theorem spares_createVariable (name : String) (pairs : List String) (source : String) :
    Spares Late (Changes P) (createVariable name pairs source) := by
  unfold createVariable
  cases checkVariable name pairs with
  | error fault => exact (Keeps.throw _).spares
  | ok checked => exact (fails_edit _).spares

theorem spares_assignOption (request name : String) (values : List String) :
    Spares Late (Changes P) (assignOption request name values) :=
  (keeps_requireRequest request).bind_spares fun _ => (fails_tryEdit _).spares

theorem spares_createExtraction (request source path target : String) :
    Spares Late (Changes P) (createExtraction request source path target) :=
  (keeps_ofExcept _).bind_spares fun _ => (keeps_requireRequest request).bind_spares fun _ =>
    (fails_tryEdit _).spares

/-- A run is planned before the records of the run before it are forgotten. -/
theorem spares_runStored (name : String) (env : Option String) :
    Spares Late (Bench.Changes P) (runStored name env) := by
  intro b
  refine ends_bind.2 (ends_get.2 ?_)
  dsimp only
  cases planRun b.store name env with
  | error refusal => exact ends_throw.2 fun _ _ _ => Std.Refl.refl b
  | ok plan => exact (fails_runPlanned name (env.getD "") plan.1 plan.2).spares b

/-! ## In the current workspace -/

theorem spares_onBench {act : BenchAction α} (h : Spares Late (Bench.Changes P) act) :
    Spares Late (Worked P) (onBench act) := by
  refine keeps_openCurrent.bind_spares fun _ s => ends_onOpened.2 ((h _).mono fun r b hr e heq hE => ?_)
  exact Worked.putBench (hr e heq hE)

theorem spares_onRows {act : StoreAction α} (h : Spares Late (Changes P) act) :
    Spares Late (Worked P) (onRows act) :=
  spares_onBench fun b => ends_onStore.2 (h b.store)

theorem spares_onRowsAfter {β : Type} {check : Except Failure α} {act : StoreAction β}
    (h : Spares Late (Changes P) act) : Spares Late (Worked P) (Current.onRowsAfter check act) :=
  (keeps_orFail id check).bind_spares fun _ => spares_onRows h

theorem fails_onRowsFor {ι : Type} {items : List ι} {idle : α} {act : StoreAction α}
    (h : Fails Late act) : Fails Late (Current.onRowsFor items idle act) := by
  unfold Current.onRowsFor
  split
  · exact .pure idle
  · exact fails_onRows h

/-! ## Commands -/

theorem spares_doCreateRequest (d : Draft) : Spares Late (Worked P) (doCreateRequest d) := by
  have hcreate : Spares Late (Worked P) (Current.createRequest d) :=
    Keeps.get.bind_spares fun s => spares_onRowsAfter (spares_createRequest s.contents d)
  refine hcreate.bind fun r => (fails_showEvents _).bind fun _ =>
    (fails_askRows _).bind fun os => ?_
  split
  · exact fails_showEvents _
  · exact .pure ()

theorem spares_doCreateVariable (name : String) (pairs : List String) :
    Spares Late (Worked P) (doCreateVariable name pairs) :=
  (spares_onRowsAfter (spares_createVariable name pairs userSource)).bind fun _ =>
    fails_showEvents _

theorem fails_doDeleteRequests (ns : List String) : Fails Late (doDeleteRequests ns) :=
  (fails_onRowsFor (fails_edit _)).bind fun _ => (Fails.modify _).bind fun _ => fails_showEvents _

theorem fails_doDeleteVariables (ns : List String) : Fails Late (doDeleteVariables ns) := by
  have hcheck (env : Option String) : Fails Late (Current.deleteVariables env ns) := by
    unfold Current.deleteVariables
    cases ns.head?.elim (.ok none) itemNumber? with
    | error cause => exact fun s => FailsFrom.throw_bind trivial
    | ok _ => exact (Fails.pure _).bind fun _ => fails_onRowsFor (fails_deleteVariables env ns)
  exact Fails.get.bind fun s => (hcheck s.environment).bind fun _ => fails_showEvents _

theorem fails_doDeleteOptions (ns : List String) : Fails Late (doDeleteOptions ns) :=
  Fails.get.bind fun _ => (fails_onRowsFor (fails_edit _)).bind fun _ => fails_showEvents _

theorem fails_doSetEnvironment (name : Option String) : Fails Late (doSetEnvironment name) := by
  refine (Fails.modify _).bind fun _ => ?_
  cases name with
  | none => exact fails_showEvents _
  | some env =>
    refine (fails_showEvents _).bind fun _ => (fails_askRows _).bind fun known => ?_
    split
    · exact fails_showEvents _
    · exact .pure ()

theorem spares_doSetWorkspace (name : String) :
    Spares Late (Worked P) (doSetWorkspace name) :=
  (spares_switchWorkspace name).bind fun _ => (Fails.modify _).bind fun _ => fails_showEvents _

theorem spares_doSetRequest (name : Option String) :
    Spares Late (Worked P) (doSetRequest name) := by
  cases name with
  | none =>
    have hclear : Fails Late (doSetRequest none) :=
      (Fails.modify _).bind fun _ => fails_showEvents _
    exact hclear.spares
  | some name =>
    exact (keeps_onRows (keeps_requireRequest name)).spares.bind fun _ =>
      (Fails.modify _).bind fun _ => fails_showEvents _

theorem spares_doSetOption (name : String) (values : List String) :
    Spares Late (Worked P) (doSetOption name values) := by
  refine (keeps_selectedRequest _).bind_spares fun request =>
    (spares_onRows (spares_assignOption request name values)).bind fun o => ?_
  split <;> exact fails_showEvents _

theorem spares_doExtract (source path target : String) :
    Spares Late (Worked P) (doExtract source path target) :=
  (keeps_selectedRequest _).bind_spares fun request =>
    (spares_onRowsAfter (spares_createExtraction request source path target)).bind fun _ =>
      fails_showEvents _

theorem spares_doRun (name : Option String) (quiet : Bool) :
    Spares Late (Worked P) (doRun name quiet) := by
  have hrun (name : String) : Spares Late (Worked P) (do
      let env := (← get).environment
      let result ← onBench (runStored name env)
      result.exchanges.forM (fun x => present (exchange x quiet))
      showEvents (runEvents result)) :=
    Keeps.get.bind_spares fun s => (spares_onBench (spares_runStored name s.environment)).bind
      fun result => (Fails.forM fun x _ => fails_present x quiet).bind fun _ => fails_showEvents _
  unfold doRun
  cases name.filter (fun n => !n.isEmpty) with
  | some name => exact (Keeps.pure name).bind_spares hrun
  | none => exact (keeps_selectedRequest "run").bind_spares hrun

/-! ## Lines -/

/-- A command that is refused does no work. -/
theorem spares_execute (c : Command) : Spares Late (Worked P) (execute c) := by
  have hthen {act : Action Unit} (h : Spares Late (Worked P) act) :
      Spares Late (Worked P) (do act; return c != .exit) :=
    h.bind fun _ => .pure _
  cases c with
  | printRequests filters => exact hthen (keeps_doPrintRequests filters).spares
  | printVariables filters => exact hthen (keeps_doPrintVariables filters).spares
  | printEnvironments => exact hthen keeps_doPrintEnvironments.spares
  | printWorkspaces => exact hthen keeps_doPrintWorkspaces.spares
  | printOptions filters => exact hthen (keeps_doPrintOptions filters).spares
  | createRequest name url method headers body => exact hthen (spares_doCreateRequest _)
  | createVariable name pairs => exact hthen (spares_doCreateVariable name pairs)
  | deleteRequests ns => exact hthen (fails_doDeleteRequests ns).spares
  | deleteVariables ns => exact hthen (fails_doDeleteVariables ns).spares
  | deleteOptions ns => exact hthen (fails_doDeleteOptions ns).spares
  | setEnvironment name => exact hthen (fails_doSetEnvironment name).spares
  | setWorkspace name => exact hthen (spares_doSetWorkspace name)
  | setRequest name => exact hthen (spares_doSetRequest name)
  | setOption name values => exact hthen (spares_doSetOption name values)
  | run name quiet => exact hthen (spares_doRun name quiet)
  | extract source path target => exact hthen (spares_doExtract source path target)
  | info => exact hthen keeps_doInfo.spares
  | help topic => exact hthen (keeps_doHelp topic).spares
  | clear => exact hthen (keeps_showEvents _).spares
  | exit => exact hthen (keeps_showEvents _).spares

theorem spares_dispatch (line : String) : Spares Late (Worked P) (dispatch line) := by
  unfold dispatch
  split
  · exact (Keeps.pure _).spares
  · exact (Keeps.pure _).spares
  · exact (spares_execute _).bind fun _ => .pure _

end

/-- Work without a change leaves all rows as they were. -/
theorem Session.Worked.rowsAt_eq {s s' : Session} (h : s.Worked (fun _ => False) s')
    (shelf : Shelf) : s'.rowsAt shelf = s.rowsAt shelf := by
  by_cases hshelf : s.shelf? = some shelf
  · have hsame : s.rowsAt shelf = s'.rowsAt shelf :=
      (h.here shelf hshelf).lift fun _ _ _ hc _ => hc.elim
    exact hsame.symm
  · exact h.elsewhere shelf hshelf

/-- A line that is no command is not begun. -/
theorem ends_dispatch_error (line : String) (s : Session) :
    Ends (dispatch line) s fun r s' => ∀ e, r = .ok (.error e) → s' = s := by
  unfold dispatch
  split
  · exact ends_pure.2 fun _ _ => rfl
  · exact ends_pure.2 nofun
  · refine ends_bind.2 (ends_of_forall fun r s' => ?_)
    cases r with
    | ok goesOn => exact ends_pure.2 nofun
    | error e => exact nofun

/-- Whether a line is refused: it is no command, or the shell says why it will not do what the
line asks for. That a call could not be made is said of a line that is being done. -/
def Session.refuses (s : Session) (line : String) : Bool :=
  match dispatch line s with
  | .ok (.error _) _ => true
  | .error (.refused (.requestFailed ..)) _ => false
  | .error (.refused _) _ => true
  | _ => false

/-- Of a refused line the reason is shown, and that is all. -/
theorem worked_of_refuses {P : Change → Prop} {s : Session} {line : String}
    (h : s.refuses line = true) : s.Worked P (stateAfter (doLine line) s) := by
  obtain ⟨events, hline⟩ := stateAfter_doLine line s
  have hshown (s : Session) : s.Worked P (s.withShown events) :=
    .of_rowsAt_eq rfl rfl rfl rfl fun _ => rfl
  rw [hline]
  refine IsTrans.trans _ _ _ ?_ (hshown _)
  unfold Session.refuses at h
  unfold stateAfter
  rcases hrun : dispatch line s with ⟨e | goesOn, s'⟩ | ⟨failure, s'⟩
  · have hsame : s' = s := (ends_dispatch_error line s).of_eq_ok hrun e rfl
    subst hsame
    exact Std.Refl.refl s'
  · simp [hrun] at h
  · cases failure with
    | refused refusal =>
      have hearly : ¬ Late (.refused refusal) := by
        cases refusal <;> simp_all [Late]
      exact (spares_dispatch line).failure hrun hearly
    | _ => simp [hrun] at h

/-- **A refused line changes nothing.** Whatever session a line is entered in, if it is no
command or is refused, then behind it the rows of all workspaces are what they were, and so are
the current workspace, the data directory, and what is selected. A call that could not be made
is the one refusal that comes too late for that. -/
theorem refused_line_changes_nothing {s : Session} {line : String} (h : s.refuses line = true) :
    let s' := stateAfter (doLine line) s
    (∀ shelf, s'.rowsAt shelf = s.rowsAt shelf) ∧ s'.workspace = s.workspace ∧
      s'.dataDir = s.dataDir ∧ s'.environment = s.environment ∧ s'.request = s.request := by
  intro s'
  have hworked : s.Worked (fun _ => False) s' := worked_of_refuses h
  exact ⟨hworked.rowsAt_eq, hworked.workspace, hworked.dataDir, hworked.environment,
    hworked.request⟩

/-- A variable is set in two environments, of which the second is given twice: it is set in
neither. -/
theorem refused_line_changes_nothing_repeated :
    let s := Session.afterLines {} ["create variable token dev=1", "set environment dev"]
    let line := "create variable token dev=2 prod=3 prod=4"
    s.refuses line = true ∧ (stateAfter (doLine line) s).rowsAt .playground = s.rowsAt .playground ∧
      (s.rowsAt .playground).vars.map Variable.value = [some "1"] ∧
      (stateAfter (doLine line) s).environment = some "dev" := by
  intro s line
  have hrefused : s.refuses line = true := by decide +kernel
  have hrows : (s.rowsAt .playground).vars.map Variable.value = [some "1"] := by decide +kernel
  have henvironment : s.environment = some "dev" := by decide +kernel
  obtain ⟨hsame, -, -, henv, -⟩ := refused_line_changes_nothing hrefused
  exact ⟨hrefused, hsame .playground, hrows, henv.trans henvironment⟩

end Courier
