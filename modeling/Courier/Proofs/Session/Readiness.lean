/-
Courier.Proofs.Session.Readiness — the current workspace is open, and its rows can be written.

A session in an ordinary data directory is steady if its current workspace is open and the
playground is not one that is only read (`Session.Steady`). Then the rows of the current workspace
can be written (`Session.Steady.writable`). Work in an open workspace stays inside of it
(`Local.inside`), so that it is open afterwards. A switch leaves with the new workspace, which was
opened, or with the one from before; closing the storage leaves with the playground. So whatever is
done, a session that begins in the playground stays steady (`steady_run`).
-/
import Courier.Proofs.Session.Operation
import Courier.Proofs.Session.Rewriting

namespace Courier

open Courier.Text Courier.Http Courier.Store Courier.Database Courier.Screen Session

namespace Session

/-- The current workspace is open, in an ordinary data directory, and the playground is not one that
is only read. -/
structure Steady (s : Session) : Prop extends Ready s where
  unlocked : s.playground.readOnly = false

/-- If the session before an action was steady then so is the session behind it. -/
def StaysSteady (s s' : Session) : Prop := s.Steady → s'.Steady

instance : Std.Refl StaysSteady where
  refl _ := id

instance : IsTrans Session StaysSteady where
  trans _ _ _ h h' := h' ∘ h

theorem Inside.steady {s s' : Session} (h : s.Inside s') (hs : s.Steady) : s'.Steady where
  toReady := h.ready hs.toReady
  unlocked := h.locked.trans hs.unlocked

/-- What is selected and shown has no part in it. -/
theorem Steady.congr {s t : Session} (hs : s.Steady) (hdisk : t.disk = s.disk)
    (hworkspace : t.workspace = s.workspace) (hdir : t.dataDir = s.dataDir)
    (hplayground : t.playground = s.playground) (hsaved : t.saved = s.saved) : t.Steady where
  toReady := hs.toReady.congr hdisk hdir hworkspace (by
    funext home
    rw [knows, knows, hsaved])
  unlocked := by
    rw [hplayground]
    exact hs.unlocked

theorem Steady.writable {s : Session} (hs : s.Steady) : s.Writable where
  opens := ⟨s, hs.toReady.openCurrent⟩
  unlocked := by
    rw [store]
    cases hplayground : s.inPlayground with
    | true => exact hs.unlocked
    | false =>
      rw [location_plain hs.toReady]
      rfl

end Session

/-! ## Actions -/

section
variable {α : Type} {act : Action α}

theorem keepsSteady_of_inside (h : ∀ s : Session, s.Ready → Ends act s fun _ s' => s.Inside s') :
    Keeps StaysSteady act :=
  fun s => ends_stateAfter.2 fun hs => (h s hs.toReady).stateAfter.steady hs

theorem Local.keepsSteady (h : Local act) : Keeps StaysSteady act :=
  keepsSteady_of_inside fun _ => h.inside

theorem LocalOn.keepsSteady {Sees : Disk → Disk → Prop} (h : LocalOn Sees act) :
    Keeps StaysSteady act :=
  keepsSteady_of_inside fun _ => h.inside

theorem keepsSteady_onBench {act : BenchAction α} (h : Keeps (Bench.Changes fun _ => True) act) :
    Keeps StaysSteady (onBench act) := by
  refine keepsSteady_of_inside fun s hs => ?_
  refine (ends_bind_of_eq_ok hs.openCurrent).2 (ends_onOpened.2 ?_)
  exact (h _).mono fun _ b hb => inside_putBench hs hb.readOnly_eq

theorem keepsSteady_onRows {act : StoreAction α} (h : Keeps (Changes fun _ => True) act) :
    Keeps StaysSteady (onRows act) :=
  keepsSteady_onBench (keeps_onStore h)

theorem keepsSteady_showEvents (events : List Event) : Keeps StaysSteady (showEvents events) :=
  (Local.shown events).keepsSteady

theorem keepsSteady_storedWorkspaces : Keeps StaysSteady storedWorkspaces :=
  Keeps.get.bind fun _ => (local_orFail _ _).keepsSteady

/-- Behind a switch a workspace is current that is open, the new one or the one from before. -/
theorem keepsSteady_switchWorkspace (name : String) : Keeps StaysSteady (switchWorkspace name) := by
  intro s
  refine ends_stateAfter.2 fun hs => ?_
  refine ((ends_switchWorkspace hs.plain name).mono fun r s' h => ?_).stateAfter
  obtain ⟨henters, -, rfl⟩ | ⟨-, -, rfl⟩ := h
  · refine ⟨(hs.toReady.entered henters).congr rfl rfl rfl rfl, ?_⟩
    obtain ⟨saved, htables⟩ := withTablesOf_eq s name
    rw [htables]
    exact hs.unlocked
  · exact ⟨hs.toReady.diskFor, hs.unlocked⟩

/-- Behind the closing of the storage the playground is current, and it is empty. -/
theorem Session.Steady.closed {s : Session} (hs : s.Steady) : s.closed.Steady :=
  ⟨.of_playground rfl hs.plain, rfl⟩

/-! ## Lines -/

theorem keepsSteady_doRun (name : Option String) (quiet : Bool) :
    Keeps StaysSteady (doRun name quiet) := by
  have hpresent (showing : Showing) : Keeps StaysSteady (present showing) := by
    refine (keepsSteady_showEvents _).bind fun _ => ?_
    cases showing.2 with
    | none => exact .pure ()
    | some failure => exact .throw failure
  have hrun (name : String) : Keeps StaysSteady (do
      let env := (← get).environment
      let result ← onBench (runStored name env)
      result.exchanges.forM (fun x => present (exchange x quiet))
      showEvents (runEvents result)) := by
    have hstored (env : Option String) : Keeps (Bench.Changes fun _ => True) (runStored name env) :=
      keeps_runStored (fun _ _ _ => trivial) (fun _ _ => trivial) trivial
    exact Keeps.get.bind fun s => (keepsSteady_onBench (hstored s.environment)).bind fun _ =>
      (Keeps.forM fun _ _ => hpresent _).bind fun _ => keepsSteady_showEvents _
  unfold doRun
  cases name.filter (fun n => !n.isEmpty) with
  | some name => exact (Keeps.pure name).bind hrun
  | none => exact (local_selectedRequest "run").keepsSteady.bind hrun

theorem keepsSteady_execute (c : Command) : Keeps StaysSteady (execute c) := by
  have hthen {c : Command} {act : Action Unit} (h : Keeps StaysSteady act) :
      Keeps StaysSteady (do act; return c != .exit) :=
    h.bind fun _ => .pure _
  by_cases hlocal : c.isLocal = true
  · exact (local_execute hlocal).keepsSteady
  · cases c with
    | printWorkspaces =>
      exact hthen (keepsSteady_storedWorkspaces.bind fun _ => Keeps.get.bind fun _ =>
        keepsSteady_showEvents _)
    | setWorkspace name =>
      refine hthen ((keepsSteady_switchWorkspace name).bind fun _ => Keeps.bind ?_ fun _ =>
        keepsSteady_showEvents _)
      exact Keeps.modify fun _ hs => hs.congr rfl rfl rfl rfl rfl
    | run name quiet => exact hthen (keepsSteady_doRun name quiet)
    | _ => exact absurd rfl hlocal

end

/-! ## Operations -/

/-- Whatever is done leaves a session steady. -/
theorem keepsSteady_perform (op : Operation) : Keeps StaysSteady op.perform := by
  have hdiscard {α : Type} {act : Action α} (h : Keeps StaysSteady act) :
      Keeps StaysSteady (discard act) :=
    h.bind fun _ => .pure _
  cases op with
  | line text =>
    exact hdiscard (keeps_doLine (fun c _ => keepsSteady_execute c)
      fun _ _ hs => hs.congr rfl rfl rfl rfl rfl)
  | expect replies => exact Keeps.modify fun _ hs => hs.congr rfl rfl rfl rfl rfl
  | switchWorkspace name => exact keepsSteady_switchWorkspace name
  | close => exact Keeps.modify fun _ => Steady.closed
  | listWorkspaces => exact hdiscard keepsSteady_storedWorkspaces
  | ask question => exact hdiscard (Local.ask question).keepsSteady
  | findRequest name => exact hdiscard (keepsSteady_onRows (keeps_requireRequest name))
  | findRequests pattern => exact hdiscard (keepsSteady_onRows (keeps_findRequests pattern))
  | findResponses request =>
    exact hdiscard (keepsSteady_onRows (keeps_recordedResponses request))
  | insertRequest r => exact hdiscard (keepsSteady_onRows (keeps_insertRequest trivial))
  | dropRequest name => exact keepsSteady_onRows (keeps_deleteRequest trivial)
  | putVariable name env value source =>
    exact hdiscard (keepsSteady_onRows (keeps_putVariable trivial))
  | dropVariable id => exact keepsSteady_onRows (keeps_deleteVariable fun _ => trivial)
  | dropVariablesNamed name env =>
    exact hdiscard (keepsSteady_onRows (keeps_deleteVariablesNamed fun _ => trivial))
  | declareOption request name => exact keepsSteady_onRows (keeps_declareOption trivial)
  | putOption request name value => exact hdiscard (keepsSteady_onRows (keeps_setOption trivial))
  | dropOptionsNamed name request =>
    exact hdiscard (keepsSteady_onRows (keeps_deleteOptionsNamed trivial))
  | putExtraction e => exact hdiscard (keepsSteady_onRows (keeps_putExtraction trivial))
  | recordResponse r => exact hdiscard (keepsSteady_onRows (keeps_recordResponse trivial))
  | forgetResponses request => exact hdiscard (keepsSteady_onRows (keeps_forgetResponses trivial))
  | createRequest d => exact hdiscard (Current.localOn_createRequest d).keepsSteady
  | deleteRequests names =>
    exact hdiscard (Current.local_deleteRequests names).keepsSteady
  | createVariable name pairs source =>
    exact hdiscard (Current.local_createVariable name pairs source).keepsSteady
  | deleteVariables env items =>
    exact hdiscard (Current.local_deleteVariables env items).keepsSteady
  | assignOption request name values =>
    exact hdiscard (keepsSteady_onRows (keeps_assignOption trivial))
  | deleteOptions request names =>
    exact hdiscard (Current.local_deleteOptions request names).keepsSteady
  | createExtraction request source path target =>
    exact hdiscard (Current.local_createExtraction request source path target).keepsSteady
  | send name env =>
    exact hdiscard (keepsSteady_onBench
      (keeps_runStored (fun _ _ _ => trivial) (fun _ _ => trivial) trivial))

theorem steady_run (ops : List Operation) {s : Session} (hs : s.Steady) :
    (Operation.run ops s).Steady := by
  induction ops generalizing s with
  | nil => exact hs
  | cons op ops ih => exact ih ((keepsSteady_perform op).stateAfter s hs)

theorem steady_run_fresh (host : Host) (disk : Disk) {dataDir : Path}
    (hplain : isPlainDir dataDir = true) (wire : Wire) (ops : List Operation) :
    (Operation.run ops { host, disk, dataDir, wire }).Steady := by
  have hfresh : ({ host, disk, dataDir, wire } : Session).Steady := ⟨.of_playground rfl hplain, rfl⟩
  exact steady_run ops hfresh

/-- In an ordinary data directory the rows of the current workspace can be written, whatever was
done before, because nobody else is at work on the disk and nothing on it is locked or forbidden. -/
theorem writable_run_fresh (host : Host) (disk : Disk) {dataDir : Path}
    (hplain : isPlainDir dataDir = true) (wire : Wire) (ops : List Operation) :
    (Operation.run ops { host, disk, dataDir, wire }).Writable :=
  (steady_run_fresh host disk hplain wire ops).writable

end Courier
