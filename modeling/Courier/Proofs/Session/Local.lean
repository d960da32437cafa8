/-
Courier.Proofs.Session.Local — commands that work in their workspace.

All commands but `set workspace`, `print workspaces` and `run` do the same few things: they read
and write the rows of the current workspace, read and change what is selected, and show
something (`Local`). If the workspace is open already (`Session.Ready`) then such an action

* stays in it: the disk, the other workspaces and the place in which the shell is stay what
  they were (`Local.inside`),
* and sees no more than it: in two sessions that agree about the current workspace and the
  selection it ends in the same way, and they agree again (`Local.parallel`).

A new request may have its body from a file. That is read first, and all that comes behind it is
local (`LocalOn`).
-/
import Courier.Proofs.Effect
import Courier.Proofs.Session.Opening
import Courier.Proofs.Session.Rows
import Courier.Session.Shell

namespace Courier

open Courier.Text Courier.Store Courier.Database Courier.Screen

/-! ## Open workspaces -/

namespace Session

/-- The rows of a workspace: those that would be current if the workspace were. -/
def rowsOf (s : Session) (name : String) : Store := ({ s with workspace := name } : Session).store

/-- The current workspace is open, in an ordinary data directory: to open it again does
nothing. -/
structure Ready (s : Session) : Prop where
  named : isWorkspaceName s.workspace = true
  plain : isPlainDir s.dataDir = true
  isOpen : s.workspace ≠ playgroundName →
    s.knows (plainLocation s.dataDir s.workspace).home = true ∧
      openWorkspace s.disk s.knows s.dataDir s.workspace =
        (.ok (plainLocation s.dataDir s.workspace), s.disk)

theorem Ready.congr {s t : Session} (h : s.Ready) (hdisk : t.disk = s.disk)
    (hdir : t.dataDir = s.dataDir) (hworkspace : t.workspace = s.workspace)
    (hknows : t.knows = s.knows) : t.Ready where
  named := by
    rw [hworkspace]
    exact h.named
  plain := by
    rw [hdir]
    exact h.plain
  isOpen := by
    rw [hworkspace, hdir, hknows, hdisk]
    exact h.isOpen

/-- What work in the current workspace leaves alone. -/
structure Inside (s s' : Session) : Prop where
  host : s'.host = s.host
  disk : s'.disk = s.disk
  workspace : s'.workspace = s.workspace
  dataDir : s'.dataDir = s.dataDir
  knows : s'.knows = s.knows
  elsewhere : ∀ name, isWorkspaceName name = true → name ≠ s.workspace →
    s'.rowsOf name = s.rowsOf name
  locked : s'.playground.readOnly = s.playground.readOnly

theorem Inside.refl (s : Session) : s.Inside s := ⟨rfl, rfl, rfl, rfl, rfl, fun _ _ _ => rfl, rfl⟩

theorem Inside.trans {s s' s'' : Session} (h : s.Inside s') (h' : s'.Inside s'') :
    s.Inside s'' where
  host := h'.host.trans h.host
  disk := h'.disk.trans h.disk
  workspace := h'.workspace.trans h.workspace
  dataDir := h'.dataDir.trans h.dataDir
  knows := h'.knows.trans h.knows
  elsewhere := by
    intro name hname hne
    rw [h'.elsewhere name hname (h.workspace ▸ hne), h.elsewhere name hname hne]
  locked := h'.locked.trans h.locked

theorem Inside.ready {s s' : Session} (h : s.Inside s') (hs : s.Ready) : s'.Ready :=
  hs.congr h.disk h.dataDir h.workspace h.knows

/-- The rows of a workspace are no matter of what is selected, shown or on the disk. -/
theorem rowsOf_of_tables (s s' : Session) (hdir : s'.dataDir = s.dataDir)
    (hplayground : s'.playground = s.playground) (hsaved : s'.saved = s.saved) (name : String) :
    s'.rowsOf name = s.rowsOf name :=
  store_congr rfl hdir hplayground hsaved

/-- What is selected and shown is no matter of the rows, nor of the disk. -/
theorem Inside.of_tables {s s' : Session} (hhost : s'.host = s.host) (hdisk : s'.disk = s.disk)
    (hworkspace : s'.workspace = s.workspace) (hdir : s'.dataDir = s.dataDir)
    (hplayground : s'.playground = s.playground) (hsaved : s'.saved = s.saved) : s.Inside s' where
  host := hhost
  disk := hdisk
  workspace := hworkspace
  dataDir := hdir
  knows := by
    funext home
    rw [Session.knows, Session.knows, hsaved]
  elsewhere := fun name _ _ => rowsOf_of_tables s s' hdir hplayground hsaved name
  locked := by rw [hplayground]

/-- Two sessions are in the same place, have the same selection, and stand on one host. -/
structure Alike (s t : Session) : Prop where
  host : t.host = s.host
  dataDir : t.dataDir = s.dataDir
  workspace : t.workspace = s.workspace
  environment : t.environment = s.environment
  request : t.request = s.request

/-- Two sessions agree about all that can be seen in the current workspace, which is open. -/
structure Twins (s t : Session) : Prop extends Alike s t where
  store : t.store = s.store
  ready : s.Ready
  ready' : t.Ready

theorem Twins.refl {s : Session} (hs : s.Ready) : s.Twins s :=
  ⟨⟨rfl, rfl, rfl, rfl, rfl⟩, rfl, hs, hs⟩

theorem Twins.symm {s t : Session} (h : s.Twins t) : t.Twins s :=
  ⟨⟨h.host.symm, h.dataDir.symm, h.workspace.symm, h.environment.symm, h.request.symm⟩,
    h.store.symm, h.ready', h.ready⟩

theorem Twins.trans {s t u : Session} (h : s.Twins t) (h' : t.Twins u) : s.Twins u :=
  ⟨⟨h'.host.trans h.host, h'.dataDir.trans h.dataDir, h'.workspace.trans h.workspace,
    h'.environment.trans h.environment, h'.request.trans h.request⟩, h'.store.trans h.store,
    h.ready, h'.ready'⟩

/-! ## Rows that are read back -/

theorem location_plain {s : Session} (hs : s.Ready) :
    s.location = .ok (plainLocation s.dataDir s.workspace) :=
  locationOf_plain hs.named hs.plain

/-- What is put into an open workspace can be read from it. -/
theorem store_putStore {s : Session} (hs : s.Ready) (rows : Store) :
    (s.putStore rows).store = if s.inPlayground then rows else rows.writable := by
  unfold putStore
  cases hplayground : s.inPlayground with
  | true =>
    simp only [if_true, store, inPlayground] at hplayground ⊢
    rw [hplayground]
    rfl
  | false =>
    have hplain (saved : List (Home × Store)) : ({ s with saved } : Session).location =
        .ok (plainLocation s.dataDir s.workspace) := locationOf_plain hs.named hs.plain
    simp only [Bool.false_eq_true, if_false, location_plain hs, store, inPlayground, hplain,
      lookup_putSaved, if_true, Option.getD_some]
    simp only [inPlayground] at hplayground
    rw [hplayground]
    rfl

theorem knows_putStore {s : Session} (hs : s.Ready) (rows : Store) :
    (s.putStore rows).knows = s.knows := by
  funext home
  unfold putStore
  split
  next => rfl
  next hplayground =>
    rw [location_plain hs]
    have hknown := (hs.isOpen (by simpa [inPlayground] using hplayground)).1
    simp only [knows, lookup_putSaved] at hknown ⊢
    split
    next hhome => rw [hhome, hknown]; rfl
    next => rfl

theorem rowsOf_playground (s : Session) : s.rowsOf playgroundName = s.playground := by
  simp [rowsOf, store, inPlayground]

theorem rowsOf_plain {s : Session} {name : String} (hname : isWorkspaceName name = true)
    (hplain : isPlainDir s.dataDir = true) (hne : name ≠ playgroundName) :
    s.rowsOf name =
      { (s.saved.lookup (.file (databasePlace s.dataDir name))).getD {} with readOnly := false } := by
  have hlocation : ({ s with workspace := name } : Session).location =
      .ok (plainLocation s.dataDir name) := locationOf_plain hname hplain
  simp only [rowsOf, store, hlocation, inPlayground, hne, decide_false, Bool.false_eq_true, if_false]
  rfl

/-- The rows of a workspace are the same if those in memory and those in its file are. -/
theorem rowsOf_congr {s s' : Session} {name : String} (hname : isWorkspaceName name = true)
    (hplain : isPlainDir s.dataDir = true) (hdir : s'.dataDir = s.dataDir)
    (hplayground : name = playgroundName → s'.playground = s.playground)
    (hsaved : name ≠ playgroundName → s'.saved.lookup (.file (databasePlace s.dataDir name)) =
      s.saved.lookup (.file (databasePlace s.dataDir name))) :
    s'.rowsOf name = s.rowsOf name := by
  by_cases hne : name = playgroundName
  · rw [hne, rowsOf_playground, rowsOf_playground, hplayground hne]
  · rw [rowsOf_plain hname hplain hne, rowsOf_plain hname (hdir ▸ hplain) hne, hdir, hsaved hne]

/-- Giving the current workspace other rows leaves those of the other ones alone. -/
theorem rowsOf_putStore {s : Session} (hs : s.Ready) (rows : Store) {name : String}
    (hname : isWorkspaceName name = true) (hne : name ≠ s.workspace) :
    (s.putStore rows).rowsOf name = s.rowsOf name := by
  unfold putStore
  split
  next hplayground =>
    have hhere : s.workspace = playgroundName := of_decide_eq_true hplayground
    exact rowsOf_congr hname hs.plain rfl (fun h => absurd (h.trans hhere.symm) hne) fun _ => rfl
  next =>
    rw [location_plain hs]
    refine rowsOf_congr hname hs.plain rfl (fun _ => rfl) fun _ => ?_
    rw [lookup_putSaved, if_neg]
    intro hsame
    exact hne (databasePlace_injective (Home.file.inj hsame))

/-- Whether rows can be written in the playground stays what it is, if this is so for the rows that
are put in the place of others. -/
theorem readOnly_putBench {s : Session} {b : Bench} (h : b.store.readOnly = s.store.readOnly) :
    (s.putBench b).playground.readOnly = s.playground.readOnly := by
  unfold putBench putStore
  cases hplayground : s.inPlayground with
  | true =>
    rw [store, hplayground] at h
    exact h
  | false => cases s.location <;> rfl

theorem inside_putBench {s : Session} (hs : s.Ready) {b : Bench}
    (hlock : b.store.readOnly = s.store.readOnly) : s.Inside (s.putBench b) := by
  obtain ⟨playground, saved, hput⟩ := putStore_eq s b.store
  refine ⟨?_, ?_, ?_, ?_, knows_putStore hs b.store, fun name hname hne => ?_,
    readOnly_putBench hlock⟩
  · rw [putBench, hput]
  · rw [putBench, hput]
  · rw [putBench, hput]
  · rw [putBench, hput]
  · have hrows : (s.putBench b).rowsOf name = (s.putStore b.store).rowsOf name :=
      store_congr rfl rfl rfl rfl
    rw [hrows, rowsOf_putStore hs b.store hname hne]

theorem Ready.putBench {s : Session} (hs : s.Ready) (b : Bench) : (s.putBench b).Ready := by
  obtain ⟨playground, saved, hput⟩ := putStore_eq s b.store
  refine hs.congr ?_ ?_ ?_ (knows_putStore hs b.store)
  · rw [Session.putBench, hput]
  · rw [Session.putBench, hput]
  · rw [Session.putBench, hput]

theorem Twins.putBench {s t : Session} (h : s.Twins t) {b b' : Bench}
    (hb : b'.store = b.store) : (s.putBench b).Twins (t.putBench b') := by
  obtain ⟨playground, saved, hs⟩ := putStore_eq s b.store
  obtain ⟨playground', saved', ht⟩ := putStore_eq t b'.store
  have hstore : (t.putBench b').store = (s.putBench b).store := by
    rw [store_putBench, store_putBench, store_putStore h.ready, store_putStore h.ready',
      inPlayground, inPlayground, h.workspace, hb]
  refine ⟨⟨?_, ?_, ?_, ?_, ?_⟩, hstore, h.ready.putBench b, h.ready'.putBench b'⟩ <;>
  simp only [Session.putBench, hs, ht]
  · exact h.host
  · exact h.dataDir
  · exact h.workspace
  · exact h.environment
  · exact h.request

end Session

open Session

/-- To open the current workspace again does nothing. -/
theorem Session.Ready.openCurrent {s : Session} (hs : s.Ready) : openCurrent s = .ok () s := by
  have hopen : Ends (openNamed s.workspace) s fun r s' => r = .ok (.ok ()) ∧ s' = s := by
    unfold openNamed
    split
    next => exact ends_pure.2 ⟨rfl, rfl⟩
    next hne =>
      obtain ⟨hknown, hopen⟩ := hs.isOpen hne
      refine ends_bind.2 (ends_get.2 ?_)
      dsimp only
      rw [hopen]
      exact ends_bind.2 (ends_set.2 (ends_pure.2 ⟨rfl, if_pos hknown⟩))
  refine Ends.eq_ok (ends_bind.2 (ends_get.2 (ends_bind.2 (hopen.mono fun r s' hr => ?_))))
  obtain ⟨rfl, rfl⟩ := hr
  exact ends_pure.2 ⟨rfl, rfl⟩

/-! ## Local actions -/

/-- An action that works on the current workspace and the selection. What it does to the rows is a
sequence of changes. -/
inductive Local : {α : Type} → Action α → Prop
  | pure {α : Type} (a : α) : Local (pure a)
  | throw {α : Type} (e : Failure) : Local (throw e : Action α)
  | bind {α β : Type} {act : Action α} {f : α → Action β} (h : Local act)
    (hf : ∀ a, Local (f a)) : Local (act >>= f)
  | shown (events : List Event) : Local (showEvents events)
  | rows {α : Type} {act : StoreAction α} (h : Keeps (Changes fun _ => True) act) :
    Local (onRows act)
  | ask {α : Type} (question : Store → α) : Local (askRows question)
  | look {α : Type} {f : Session → Action α} (hf : ∀ s, Local (f s))
    (hsame : ∀ s t, s.Alike t → f t = f s) : Local (get >>= f)
  | selectEnvironment (env : Option String) :
    Local (modify fun s => { s with environment := env })
  | selectRequest (choose : Option String → Option String) :
    Local (modify fun s => { s with request := choose s.request })

section
variable {α : Type}

/-- A local action stays in its workspace. -/
theorem Local.inside {act : Action α} (h : Local act) {s : Session} (hs : s.Ready) :
    Ends act s fun _ s' => s.Inside s' := by
  induction h generalizing s with
  | pure a => exact ends_pure.2 (.refl s)
  | throw e => exact ends_throw.2 (.refl s)
  | bind _ _ ih ihf =>
    refine ends_bind.2 ((ih hs).mono fun r s' hs' => ?_)
    cases r with
    | ok a => exact (ihf a (hs'.ready hs)).mono fun _ _ h => hs'.trans h
    | error e => exact hs'
  | shown events =>
    refine (ends_showEvents events s).mono fun _ s' hs' => ?_
    obtain ⟨⟨_, rfl⟩, -⟩ := hs'
    exact .of_tables rfl rfl rfl rfl rfl rfl
  | rows h =>
    refine (ends_bind_of_eq_ok hs.openCurrent).2 (ends_onOpened.2 ?_)
    exact (keeps_onStore h _).mono fun _ b hb => inside_putBench hs hb.readOnly_eq
  | ask question =>
    refine (ends_bind_of_eq_ok hs.openCurrent).2 (ends_bind.2 (ends_get.2 ?_))
    exact ends_pure.2 (.refl s)
  | look _ _ ihf => exact ends_bind.2 (ends_get.2 (ihf s hs))
  | selectEnvironment env => exact ends_modify.2 (.of_tables rfl rfl rfl rfl rfl rfl)
  | selectRequest choose => exact ends_modify.2 (.of_tables rfl rfl rfl rfl rfl rfl)

/-- What is shown or selected is no matter of the rows that two sessions agree about. -/
theorem Session.Twins.of_tables {s s' t t' : Session} (h : s.Twins t)
    (hs : ∃ environment request shown, s' = { s with environment, request, shown })
    (ht : ∃ environment request shown, t' = { t with environment, request, shown })
    (henvironment : t'.environment = s'.environment) (hrequest : t'.request = s'.request) :
    s'.Twins t' := by
  obtain ⟨_, _, _, rfl⟩ := hs
  obtain ⟨_, _, _, rfl⟩ := ht
  have hinside (s : Session) (environment request : Option String) (shown : List Event) :
      s.Inside { s with environment, request, shown } := .of_tables rfl rfl rfl rfl rfl rfl
  have hstore (s : Session) (environment request : Option String) (shown : List Event) :
      ({ s with environment, request, shown } : Session).store = s.store :=
    store_congr rfl rfl rfl rfl
  exact ⟨⟨h.host, h.dataDir, h.workspace, henvironment, hrequest⟩,
    (hstore t _ _ _).trans (h.store.trans (hstore s _ _ _).symm),
    (hinside s _ _ _).ready h.ready, (hinside t _ _ _).ready h.ready'⟩

/-- A local action sees its workspace and the selection, and nothing else. -/
theorem Local.parallel {act : Action α} (h : Local act) {s t : Session} (hst : s.Twins t) :
    Parallel Twins act s t := by
  induction h generalizing s t with
  | pure a => exact .pure hst
  | throw e => exact .throw hst
  | bind _ _ ih ihf => exact (ih hst).bind fun a s' t' h => ihf a h
  | shown events =>
    refine parallel_showEvents (fun s t h => h.host) (fun s t event h => ?_) events hst
    exact h.of_tables ⟨_, _, _, rfl⟩ ⟨_, _, _, rfl⟩ h.environment h.request
  | @rows _ act _ =>
    refine (ends_bind_of_eq_ok hst.ready.openCurrent).2 (ends_onOpened.2 (ends_onStore.2 ?_))
    refine Ends.mono (Parallel.refl act s.store) fun r rows hrows => ?_
    refine (ends_bind_of_eq_ok hst.ready'.openCurrent).2 (ends_onOpened.2 (ends_onStore.2 ?_))
    rw [hst.store]
    exact hrows.mono fun r' rows' hr => ⟨hr.1, hst.putBench hr.2⟩
  | ask question =>
    refine (ends_bind_of_eq_ok hst.ready.openCurrent).2 (ends_bind.2 (ends_get.2 (ends_pure.2 ?_)))
    refine (ends_bind_of_eq_ok hst.ready'.openCurrent).2 (ends_bind.2 (ends_get.2 (ends_pure.2 ?_)))
    exact ⟨by rw [hst.store], hst⟩
  | look _ hsame ihf =>
    refine ends_bind.2 (ends_get.2 ((ihf s hst).mono fun r s' hr => ?_))
    refine ends_bind.2 (ends_get.2 ?_)
    dsimp only
    rw [hsame s t hst.toAlike]
    exact hr
  | selectEnvironment env =>
    exact .modify (hst.of_tables ⟨_, _, _, rfl⟩ ⟨_, _, _, rfl⟩ rfl hst.request)
  | selectRequest choose =>
    exact .modify (hst.of_tables ⟨_, _, _, rfl⟩ ⟨_, _, _, rfl⟩ hst.environment (by rw [hst.request]))

/-! ## Local behind a look at the disk -/

/-- An action that is local once it has read the disk, and is the same one on disks that look the
same to it. -/
def LocalOn (Sees : Disk → Disk → Prop) (act : Action α) : Prop :=
  ∃ f : Disk → Action α, (∀ disk, Local (f disk)) ∧
    (∀ disk disk', Sees disk disk' → f disk' = f disk) ∧ ∀ s, act s = f s.contents s

section
variable {Sees : Disk → Disk → Prop} {act : Action α} {s t : Session}

theorem Local.on (h : Local act) : LocalOn Sees act :=
  ⟨fun _ => act, fun _ => h, fun _ _ _ => rfl, fun _ => rfl⟩

theorem LocalOn.bind {β : Type} {f : α → Action β} (h : LocalOn Sees act)
    (hf : ∀ a, Local (f a)) : LocalOn Sees (act >>= f) := by
  obtain ⟨g, hlocal, hsame, hrun⟩ := h
  refine ⟨fun disk => g disk >>= f, fun disk => (hlocal disk).bind hf, fun disk disk' hdisk => ?_,
    fun s => bind_congr_run (hrun s) f⟩
  dsimp only
  rw [hsame disk disk' hdisk]

theorem LocalOn.inside (h : LocalOn Sees act) (hs : s.Ready) :
    Ends act s fun _ s' => s.Inside s' := by
  obtain ⟨g, hlocal, -, hrun⟩ := h
  exact (ends_congr (hrun s)).2 ((hlocal _).inside hs)

theorem LocalOn.parallel (h : LocalOn Sees act) (hst : s.Twins t)
    (hsees : Sees s.contents t.contents) : Parallel Twins act s t := by
  obtain ⟨g, hlocal, hsame, hrun⟩ := h
  refine Parallel.congr (hrun s) ?_ ((hlocal s.contents).parallel hst)
  rw [hrun t, hsame _ _ hsees]

end

/-! ## Local commands -/

theorem local_refuseAction (refusal : Refusal) : Local (refuseAction refusal : Action α) :=
  .throw _

theorem local_orFail {ε : Type} (cause : ε → Failure) (r : Except ε α) : Local (orFail cause r) := by
  cases r with
  | ok a => exact .pure a
  | error e => exact .throw _

theorem local_selectedRequest (command : String) : Local (selectedRequest command) := by
  refine .look (fun s => ?_) fun s t h => by rw [h.request]
  cases s.request with
  | some name => exact .pure name
  | none => exact local_refuseAction _

namespace Current

theorem local_onRowsAfter {β : Type} (check : Except Failure α) {act : StoreAction β}
    (h : Keeps (Changes fun _ => True) act) : Local (onRowsAfter check act) :=
  (local_orFail id check).bind fun _ => .rows h

theorem local_onRowsFor {ι : Type} (items : List ι) (idle : α) {act : StoreAction α}
    (h : Keeps (Changes fun _ => True) act) : Local (onRowsFor items idle act) := by
  unfold onRowsFor
  split
  · exact .pure idle
  · exact .rows h

/-- Of the disk a new request depends on its body only. -/
theorem localOn_createRequest (d : Draft) :
    LocalOn (fun disk disk' => d.toRequest disk' = d.toRequest disk) (createRequest d) := by
  refine ⟨fun disk => onRowsAfter (d.toRequest disk) (Courier.createRequest disk d),
    fun disk => local_onRowsAfter _ ?_, fun disk disk' h => ?_, fun s => ?_⟩
  · exact Courier.keeps_createRequest (fun _ => trivial) fun _ _ => trivial
  · have hstore : Courier.createRequest disk' d = Courier.createRequest disk d := by
      unfold Courier.createRequest
      rw [h]
    dsimp only
    rw [h, hstore]
  · unfold createRequest
    exact bind_of_eq_ok rfl

theorem local_deleteRequests (names : List String) : Local (deleteRequests names) :=
  local_onRowsFor _ _ (Courier.keeps_deleteRequests fun _ _ => trivial)

theorem local_createVariable (name : String) (pairs : List String) (source : String) :
    Local (createVariable name pairs source) :=
  local_onRowsAfter _ (Courier.keeps_createVariable fun _ _ _ _ => trivial)

theorem local_deleteVariables (env : Option String) (items : List String) :
    Local (deleteVariables env items) :=
  (local_orFail _ _).bind fun _ =>
    local_onRowsFor _ _ (Courier.keeps_deleteVariables fun _ => trivial)

theorem local_deleteOptions (request : Option String) (names : List String) :
    Local (deleteOptions request names) :=
  local_onRowsFor _ _ (Courier.keeps_deleteOptions fun _ _ => trivial)

theorem local_createExtraction (request source path target : String) :
    Local (createExtraction request source path target) :=
  local_onRowsAfter _ (Courier.keeps_createExtraction trivial)

end Current

theorem localOn_doCreateRequest (d : Draft) :
    LocalOn (fun disk disk' => d.toRequest disk' = d.toRequest disk) (doCreateRequest d) := by
  refine (Current.localOn_createRequest d).bind fun r =>
    (Local.shown _).bind fun _ => (Local.ask _).bind fun os => ?_
  split
  · exact .shown _
  · exact .pure ()

theorem local_doDeleteRequests (ns : List String) : Local (doDeleteRequests ns) := by
  refine (Current.local_deleteRequests ns).bind fun r => ?_
  have hselect : (fun s : Session => if s.request.any r.1.contains then { s with request := none } else s)
      = fun s => { s with request := if s.request.any r.1.contains then none else s.request } := by
    funext s
    split <;> rfl
  refine Local.bind ?_ fun _ => .shown _
  rw [hselect]
  exact .selectRequest fun name => if name.any r.1.contains then none else name

theorem local_doSetEnvironment (name : Option String) : Local (doSetEnvironment name) := by
  refine (Local.selectEnvironment name).bind fun _ => ?_
  cases name with
  | none => exact .shown _
  | some env =>
    refine (Local.shown _).bind fun _ => (Local.ask _).bind fun known => ?_
    split
    · exact .shown _
    · exact .pure ()

theorem local_doSetRequest (name : Option String) : Local (doSetRequest name) := by
  cases name with
  | none => exact (Local.selectRequest fun _ => none).bind fun _ => .shown _
  | some name =>
    exact (Local.rows (keeps_requireRequest name)).bind fun r =>
      (Local.selectRequest fun _ => some r.name).bind fun _ => .shown _

theorem local_doSetOption (name : String) (values : List String) :
    Local (doSetOption name values) := by
  refine (local_selectedRequest _).bind fun request =>
    (Local.rows (keeps_assignOption trivial)).bind fun o => ?_
  split
  · exact .shown _
  · exact .shown _

theorem local_doHelp (topic : List String) : Local (doHelp topic) := by
  unfold doHelp
  split
  · exact .shown _
  · dsimp only
    split
    · exact .shown _
    · exact local_refuseAction _

end

/-- What a command sees of the disk is the same on such disks. -/
def Command.Sees (disk disk' : Disk) : Command → Prop
  | .createRequest name url method headers body =>
    let d : Draft := { name, url, method, headers, body }
    d.toRequest disk' = d.toRequest disk
  | _ => True

/-- Whether a command works on the current workspace and the selection, and on nothing else. -/
def Command.isLocal : Command → Bool
  | .printWorkspaces => false
  | .setWorkspace _ => false
  | .run .. => false
  | _ => true

/-- What a local command does is local, but for the body that it may read first. -/
theorem local_execute {c : Command} (h : c.isLocal = true) :
    LocalOn (fun disk disk' => c.Sees disk disk') (execute c) := by
  have hthen {Sees : Disk → Disk → Prop} {c : Command} {act : Action Unit} (h : Local act) :
      LocalOn Sees (do act; return c != .exit) :=
    (h.bind fun _ => .pure _).on
  cases c with
  | printRequests filters => exact hthen ((Local.ask _).bind fun _ => .shown _)
  | printVariables filters =>
    exact hthen (.look (fun _ => (Local.ask _).bind fun _ => .shown _)
      fun _ _ h => by rw [h.environment])
  | printEnvironments =>
    exact hthen (.look (fun _ => (Local.ask _).bind fun _ => .shown _)
      fun _ _ h => by rw [h.environment])
  | printWorkspaces => exact nomatch h
  | printOptions filters =>
    exact hthen (.look (fun _ => (Local.ask _).bind fun _ => .shown _)
      fun _ _ h => by rw [h.request])
  | createRequest name url method headers body =>
    exact (localOn_doCreateRequest _).bind fun _ => .pure _
  | createVariable name pairs =>
    exact hthen ((Current.local_createVariable _ _ _).bind fun _ => .shown _)
  | deleteRequests ns => exact hthen (local_doDeleteRequests ns)
  | deleteVariables ns =>
    exact hthen (.look (fun _ => (Current.local_deleteVariables _ _).bind fun _ => .shown _)
      fun _ _ h => by rw [h.environment])
  | deleteOptions ns =>
    exact hthen (.look (fun _ => (Current.local_deleteOptions _ _).bind fun _ => .shown _)
      fun _ _ h => by rw [h.request])
  | setEnvironment name => exact hthen (local_doSetEnvironment name)
  | setWorkspace name => exact nomatch h
  | setRequest name => exact hthen (local_doSetRequest name)
  | setOption name values => exact hthen (local_doSetOption name values)
  | run name quiet => exact nomatch h
  | extract source path target =>
    exact hthen ((local_selectedRequest _).bind fun _ =>
      (Current.local_createExtraction _ _ _ _).bind fun _ => .shown _)
  | info =>
    exact hthen ((local_selectedRequest _).bind fun _ =>
      (Local.rows (keeps_requireRequest _)).bind fun _ =>
      (Local.ask _).bind fun _ => (Local.ask _).bind fun _ => .shown _)
  | help topic => exact hthen (local_doHelp topic)
  | clear => exact hthen (.shown _)
  | exit => exact hthen (.shown _)

end Courier
