/-
Courier.Proofs.Session.Isolation — workspaces do not interfere.

Take the lines of a run that were done in one workspace, and those by which the shell switched
from workspace to workspace, and do them alone: at the end the workspace has the same rows.

The two runs are compared step by step (`Session.Mirrors`). A line in the workspace is local,
so it does the same in both runs (`Local.parallel`); a line elsewhere is local there and leaves
the workspace alone (`Local.inside`). A switch is done in both runs, and both enter the workspace
or neither does, because that does not depend on what was opened before (`Opened.outcome`). It
forgets what is selected, so the selection need not be the same before the workspace is entered.

The disks of the two runs are not the same: a switch that failed may have left something on one
of them. Nor are the files of databases that hold the rows of other workspaces. Both can be seen by
a request whose body is read from a file. So the condition is on requests that are stored: a body
that is read from no such file, and is what it was when the runs began, is the same in both, because
what was there then is still there (`Session.Mirrors.readBody_eq`). A request that is not stored in
one run is not stored in the other one either (`Session.Mirrors.storable`).
-/
import Courier.Proofs.Session.Bodies
import Courier.Proofs.Session.Selection
import Courier.Proofs.Session.Switching

namespace Courier

open Courier.Text Courier.Store Courier.Database Courier.Screen

/-! ## New requests -/

/-- Whether a draft can be stored: it is in order, and there is no request of its name. -/
def Store.storable (s : Store) (disk : Disk) (d : Draft) : Bool :=
  match d.toRequest disk with
  | .ok r => !s.readOnly && !s.hasRequest r.name
  | .error _ => false

/-- A request that is there can be given options. -/
theorem ends_declareOptions_ok {request : String} {names : List String} {s : Store}
    (hwritable : s.readOnly = false) (hthere : s.hasRequest request = true) :
    Ends (declareOptions request names) s fun r _ => r = .ok () := by
  induction names generalizing s with
  | nil => exact ends_pure.2 rfl
  | cons name names ih =>
    refine ends_bind.2 (ends_bind.2 (ends_bind.2 (ends_get.2 ?_)))
    dsimp only
    rw [hwritable]
    refine ends_pure.2 (ends_bind.2 (ends_get.2 ?_))
    unfold Store.declareOption
    dsimp only
    rw [hthere]
    cases s.option? request name with
    | some o => exact ends_bind.2 (ends_set.2 (ends_pure.2 (ih hwritable hthere)))
    | none => exact ends_bind.2 (ends_set.2 (ends_pure.2 (ih hwritable hthere)))

/-- A draft that can be stored is stored, and any other one is refused without a change. -/
theorem ends_createRequest_storable (disk : Disk) (d : Draft) (s : Store) :
    Ends (createRequest disk d) s fun r s' =>
      if s.storable disk d then ∃ created, r = .ok created else (∃ e, r = .error e) ∧ s' = s := by
  unfold createRequest Store.storable
  cases d.toRequest disk with
  | error e => exact ends_bind.2 (ends_throw.2 ⟨⟨e, rfl⟩, rfl⟩)
  | ok r =>
    refine ends_bind.2 (ends_pure.2 (ends_bind.2 (ends_bind.2 (ends_get.2 ?_))))
    dsimp only
    cases hwritable : s.readOnly with
    | true => exact ends_throw.2 ⟨⟨_, rfl⟩, rfl⟩
    | false =>
      refine ends_pure.2 (ends_bind.2 (ends_get.2 ?_))
      cases hinsert : s.insertRequest r with
      | error broken =>
        have hname : s.hasRequest r.name = true := by
          unfold Store.insertRequest at hinsert
          split at hinsert
          · assumption
          · cases hinsert
        simp only [hname, hinsert]
        exact ends_throw.2 ⟨⟨_, rfl⟩, rfl⟩
      | ok stored =>
        obtain ⟨created, t⟩ := stored
        obtain ⟨hname, -, ht⟩ := insertRequest_eq_ok.1 hinsert
        have hopen : t.readOnly = false := by rw [ht, hwritable]
        have hthere : t.hasRequest created.name = true := by
          rw [ht]
          exact hasRequest_iff.2 ⟨created, mem_putRow_self created s.requests, rfl⟩
        simp only [hname, hinsert]
        refine ends_bind.2 (ends_set.2 (ends_bind.2 ?_))
        refine (ends_declareOptions_ok hopen hthere).mono fun r' s' hr' => ?_
        rw [hr']
        exact ends_pure.2 ⟨created, rfl⟩

/-! ## Lines of a run -/

/-- Whether a line asks for requests to be sent. -/
def asksForRun (line : String) : Bool :=
  match Command.ofLine line with
  | .ok (some (.run ..)) => true
  | _ => false

namespace Session

/-- Whether a line switches to a workspace. -/
def switches (s : Session) (line : String) : Bool :=
  match Command.ofLine line with
  | .ok (some (.setWorkspace name)) =>
    match switchWorkspace name s with
    | .ok _ _ => true
    | .error _ _ => false
  | _ => false

/-- The lines of a run that are done in a workspace, and those that switch to one. -/
def linesOf (name : String) : Session → List String → List String
  | _, [] => []
  | s, line :: lines =>
    let rest := linesOf name (stateAfter (doLine line) s) lines
    if s.workspace = name || s.switches line then line :: rest else rest

/-- The body of the request that a line stores, if it stores one. -/
def storedBody? (s : Session) (line : String) : Option (Option String) :=
  match Command.ofLine line with
  | .ok (some (.createRequest name url method headers body)) =>
    match Current.createRequest { name, url, method, headers, body } s with
    | .ok _ _ => some body
    | .error _ _ => none
  | _ => none

/-- Whether a line stores no request, or one whose body can be read with the same result as in
another session, and not from the file of a database that has been opened. -/
def readsAsIn (start s : Session) (line : String) : Bool :=
  (s.storedBody? line).all fun body => !s.readsDatabase body &&
    decide ((readBody s.contents body).toOption = (readBody start.contents body).toOption)

/-- Whether this is so of all requests that are stored in a workspace. -/
def bodiesAsIn (start : Session) (name : String) : Session → List String → Bool
  | _, [] => true
  | s, line :: lines =>
    (s.workspace ≠ name || readsAsIn start s line) &&
      bodiesAsIn start name (stateAfter (doLine line) s) lines

end Session

open Session

variable {W : String} {s₀ s t : Session}

/-! ## Runs in step -/

/-- Two sessions are in the same place, and agree about what can be seen in a workspace if they
are in it. Both have come of one session, whose disk their disks have come of; and the disk of the
first one has all that the disk of the second one has. -/
structure Session.Mirrors (W : String) (s s₀ t : Session) : Prop where
  host : t.host = s.host
  opened : Opened s₀.disk s.dataDir s.disk
  opened' : Opened s₀.disk s.dataDir t.disk
  grown : t.disk.Extends s.disk
  known : ∀ home, s₀.knows home = true → s.knows home = true
  dataDir : t.dataDir = s.dataDir
  workspace : t.workspace = s.workspace
  knows : t.knows = s.knows
  rows : t.rowsOf W = s.rowsOf W
  selection : s.workspace = W → t.environment = s.environment ∧ t.request = s.request
  ready : s.Ready
  ready' : t.Ready

theorem Session.Mirrors.of_shown {s' t' : Session} (h : s.Mirrors W s₀ t)
    (hs : ∃ shown, s' = { s with shown }) (ht : ∃ shown, t' = { t with shown }) :
    s'.Mirrors W s₀ t' := by
  obtain ⟨shown, rfl⟩ := hs
  obtain ⟨shown', rfl⟩ := ht
  have hrows (s : Session) (shown : List Event) :
      ({ s with shown } : Session).rowsOf W = s.rowsOf W :=
    rowsOf_of_tables s { s with shown } rfl rfl rfl W
  exact ⟨h.host, h.opened, h.opened', h.grown, h.known, h.dataDir, h.workspace, h.knows,
    (hrows t shown').trans (h.rows.trans (hrows s shown).symm), h.selection,
    h.ready.congr rfl rfl rfl rfl, h.ready'.congr rfl rfl rfl rfl⟩

/-! ### Switches -/

theorem Session.Mirrors.enters_eq (h : s.Mirrors W s₀ t) (name : String) :
    t.enters name = s.enters name := by
  rw [enters, enters, h.knows, h.dataDir]
  cases hname : isWorkspaceName name with
  | false => rfl
  | true =>
    rw [h.opened.outcome hname h.ready.plain, h.opened'.outcome hname h.ready.plain]

theorem Session.Mirrors.diskFor_extends (h : s.Mirrors W s₀ t) (name : String) :
    (t.diskFor name).Extends (s.diskFor name) := by
  unfold diskFor
  rw [h.knows, h.dataDir]
  split
  next hopens => exact h.opened'.opens_extends h.opened h.grown hopens.1 h.ready.plain s.knows
  next => exact h.grown

/-- In sessions that are in step a workspace is entered in step. -/
theorem Session.Mirrors.entered (h : s.Mirrors W s₀ t) {name : String}
    (henters : s.enters name = true) : (s.entered name).Mirrors W s₀ (t.entered name) := by
  obtain ⟨_, hs⟩ := withTablesOf_eq s name
  obtain ⟨_, ht⟩ := withTablesOf_eq t name
  have hdir : (s.entered name).dataDir = s.dataDir := by rw [Session.entered, hs]
  have hdir' : (t.entered name).dataDir = t.dataDir := by rw [Session.entered, ht]
  have hknows : (t.withTablesOf name).knows = (s.withTablesOf name).knows := by
    unfold withTablesOf
    rw [h.dataDir]
    split
    · exact h.knows
    · funext other
      rw [knows_withTables, knows_withTables, h.knows]
  have hknown (home : Home) (hhome : s₀.knows home = true) :
      (s.withTablesOf name).knows home = true := by
    unfold withTablesOf
    split
    · exact h.known home hhome
    · rw [knows_withTables, h.known home hhome, Bool.true_or]
  refine ⟨?_, ?_, ?_, h.diskFor_extends name, hknown, ?_, rfl, hknows, ?_, fun _ => ⟨rfl, rfl⟩,
    h.ready.entered henters, h.ready'.entered ((h.enters_eq name).trans henters)⟩
  · rw [Session.entered, Session.entered, hs, ht]
    exact h.host
  · rw [hdir]
    exact (diskFor_opened h.opened h.ready.plain name).1
  · rw [hdir, ← h.dataDir]
    exact (diskFor_opened (h.dataDir ▸ h.opened') h.ready'.plain name).1
  · rw [hdir, hdir', h.dataDir]
  · rw [rowsOf_entered, rowsOf_entered, h.rows]

/-- What one of two sessions that are in step adds to its disk need not be on the other. -/
theorem Session.Mirrors.with_disks (h : s.Mirrors W s₀ t) {d d' : Disk}
    (hs : Opened s₀.disk s.dataDir d) (ht : Opened s₀.disk s.dataDir d') (hgrown : d'.Extends d)
    (hready : ({ s with disk := d } : Session).Ready)
    (hready' : ({ t with disk := d' } : Session).Ready) :
    ({ s with disk := d } : Session).Mirrors W s₀ { t with disk := d' } := by
  have hrows (s : Session) (disk : Disk) : ({ s with disk } : Session).rowsOf W = s.rowsOf W :=
    rowsOf_of_tables s { s with disk } rfl rfl rfl W
  exact ⟨h.host, hs, ht, hgrown, h.known, h.dataDir, h.workspace, h.knows,
    (hrows t d').trans (h.rows.trans (hrows s d).symm), h.selection, hready, hready'⟩

theorem Session.Mirrors.setWorkspace (h : s.Mirrors W s₀ t) (name : String) :
    (stateAfter (execute (.setWorkspace name)) s).Mirrors W s₀
      (stateAfter (execute (.setWorkspace name)) t) := by
  have heq := h.enters_eq name
  obtain ⟨henters, _, hs⟩ | ⟨hrefused, hs⟩ := stateAfter_setWorkspace h.ready.plain name
  · obtain ⟨-, _, ht⟩ | ⟨hrefused, -⟩ := stateAfter_setWorkspace h.ready'.plain name
    · rw [hs, ht]
      exact (h.entered henters).of_shown ⟨_, rfl⟩ ⟨_, rfl⟩
    · exact nomatch henters.symm.trans (heq.symm.trans hrefused)
  · obtain ⟨henters, -⟩ | ⟨-, ht⟩ := stateAfter_setWorkspace h.ready'.plain name
    · exact nomatch henters.symm.trans (heq.trans hrefused)
    · rw [hs, ht]
      refine h.with_disks (diskFor_opened h.opened h.ready.plain name).1 ?_ (h.diskFor_extends name)
        h.ready.diskFor h.ready'.diskFor
      rw [← h.dataDir]
      exact (diskFor_opened (h.dataDir.symm ▸ h.opened') h.ready'.plain name).1

/-- A workspace that could not be entered from elsewhere is no matter of the workspace. -/
theorem Session.Mirrors.refused (h : s.Mirrors W s₀ t) (name : String) :
    ({ s with disk := s.diskFor name } : Session).Mirrors W s₀ t := by
  obtain ⟨hopened, hgrown⟩ := diskFor_opened h.opened h.ready.plain name
  exact h.with_disks hopened h.opened' (h.grown.trans hgrown) h.ready.diskFor h.ready'

/-- The shell says whether it entered a workspace. -/
theorem Session.Ready.switches_eq (hs : s.Ready) {line name : String}
    (hline : Command.ofLine line = .ok (some (.setWorkspace name))) :
    s.switches line = s.enters name := by
  have hends := ends_switchWorkspace hs.plain name
  unfold switches
  rw [hline]
  dsimp only
  cases hrun : switchWorkspace name s with
  | ok _ s' =>
    obtain ⟨henters, -⟩ | ⟨-, ⟨_, herror⟩, -⟩ := hends.of_eq_ok hrun
    · exact henters.symm
    · exact nomatch herror
  | error e s' =>
    obtain ⟨-, hok, -⟩ | ⟨hrefused, -⟩ := hends.of_eq_error hrun
    · exact nomatch hok
    · exact hrefused.symm

/-! ### Local commands -/

/-- In the workspace the two sessions see the same rows. -/
theorem Session.Mirrors.twins (h : s.Mirrors W s₀ t) (hhere : s.workspace = W) : s.Twins t where
  host := h.host
  dataDir := h.dataDir
  workspace := h.workspace
  environment := (h.selection hhere).1
  request := (h.selection hhere).2
  store := by
    show t.rowsOf t.workspace = s.rowsOf s.workspace
    rw [h.workspace, hhere, h.rows]
  ready := h.ready
  ready' := h.ready'

/-- Two sessions are in step again when work in their workspace has left them so. -/
theorem Session.Mirrors.of_inside {s' t' : Session} (h : s.Mirrors W s₀ t) (hs : s.Inside s')
    (ht : t.Inside t') (hrows : t'.rowsOf W = s'.rowsOf W)
    (hselection : s.workspace = W → t'.environment = s'.environment ∧ t'.request = s'.request) :
    s'.Mirrors W s₀ t' where
  host := by rw [ht.host, hs.host, h.host]
  opened := by
    rw [hs.dataDir, hs.disk]
    exact h.opened
  opened' := by
    rw [hs.dataDir, ht.disk]
    exact h.opened'
  grown := by
    rw [hs.disk, ht.disk]
    exact h.grown
  known := by
    rw [hs.knows]
    exact h.known
  dataDir := by rw [ht.dataDir, hs.dataDir, h.dataDir]
  workspace := by rw [ht.workspace, hs.workspace, h.workspace]
  knows := by rw [ht.knows, hs.knows, h.knows]
  rows := hrows
  selection := by
    rw [hs.workspace]
    exact hselection
  ready := hs.ready h.ready
  ready' := ht.ready h.ready'

theorem Session.Mirrors.here {s' t' : Session} (h : s.Mirrors W s₀ t) (hhere : s.workspace = W)
    (htwins : s'.Twins t') (hs : s.Inside s') (ht : t.Inside t') :
    s'.Mirrors W s₀ t' := by
  refine h.of_inside hs ht ?_ fun _ => ⟨htwins.environment, htwins.request⟩
  have hstore : t'.rowsOf t'.workspace = s'.rowsOf s'.workspace := htwins.store
  rwa [htwins.workspace, hs.workspace, hhere] at hstore

/-- Work in another workspace may be done or not. -/
theorem Session.Mirrors.elsewhere {s' t' : Session} (h : s.Mirrors W s₀ t)
    (hW : isWorkspaceName W = true) (hother : s.workspace ≠ W) (hs : s.Inside s')
    (ht : t.Inside t') : s'.Mirrors W s₀ t' := by
  refine h.of_inside hs ht ?_ fun hhere => absurd hhere hother
  have hother' : W ≠ t.workspace := fun heq => hother (h.workspace.symm.trans heq.symm)
  rw [ht.elsewhere W hW hother', hs.elsewhere W hW hother.symm, h.rows]

/-- The list of workspaces is only shown. -/
theorem ends_printWorkspaces (s : Session) :
    Ends (execute .printWorkspaces) s fun _ s' => ∃ shown, s' = { s with shown } := by
  refine ends_bind.2 (ends_bind.2 (ends_bind.2 (ends_get.2 ?_)))
  dsimp only
  cases workspacesOn s.disk s.dataDir with
  | error fault => exact ends_throw.2 ⟨_, rfl⟩
  | ok stored =>
    refine ends_pure.2 (ends_bind.2 (ends_get.2 ((ends_showEvents _ s).mono fun r s' hr => ?_)))
    obtain ⟨⟨shown, rfl⟩, -⟩ := hr
    cases r with
    | ok _ => exact ends_pure.2 ⟨_, rfl⟩
    | error e => exact ⟨_, rfl⟩

/-- In the workspace a local command is done in step, if the disk looks the same to it. -/
theorem Session.Mirrors.execute_local (h : s.Mirrors W s₀ t) (hhere : s.workspace = W) {c : Command}
    (hc : c.isLocal = true) (hsees : c.Sees s.contents t.contents) :
    (stateAfter (execute c) s).Mirrors W s₀ (stateAfter (execute c) t) :=
  h.here hhere ((local_execute hc).parallel (h.twins hhere) hsees).stateAfter
    ((local_execute hc).inside h.ready).stateAfter ((local_execute hc).inside h.ready').stateAfter

/-! ### New requests -/

/-- To put back the rows that are there changes nothing that can be seen. -/
theorem Session.Ready.twins_putBench (hs : s.Ready) {b : Bench} (hb : b.store = s.store) :
    s.Twins (s.putBench b) := by
  obtain ⟨playground, saved, hput⟩ := putStore_eq s b.store
  have hstore : (s.putBench b).store = s.store := by
    rw [store_putBench, store_putStore hs, hb]
    cases hplayground : s.inPlayground with
    | true => rfl
    | false =>
      rw [store, hplayground, location_plain hs]
      rfl
  refine ⟨⟨?_, ?_, ?_, ?_, ?_⟩, hstore, hs, hs.putBench b⟩ <;> rw [Session.putBench, hput]

/-- In an open workspace a draft that can be stored is stored, and any other one is refused without
a change. -/
theorem Session.Ready.ends_createRequest (hs : s.Ready) (d : Draft) :
    Ends (Current.createRequest d) s fun r s' =>
      if s.store.storable s.contents d then ∃ created, r = .ok created
      else (∃ e, r = .error e) ∧ s.Twins s' := by
  refine ends_bind.2 (ends_get.2 (ends_bind.2 ?_))
  cases hdraft : d.toRequest s.contents with
  | error e =>
    have hnot : s.store.storable s.contents d = false := by rw [Store.storable, hdraft]
    rw [hnot]
    exact ends_throw.2 ⟨⟨e, rfl⟩, .refl hs⟩
  | ok r =>
    refine ends_pure.2 ((ends_bind_of_eq_ok hs.openCurrent).2 (ends_onOpened.2 (ends_onStore.2 ?_)))
    refine (ends_createRequest_storable s.contents d s.store).mono fun r t hr => ?_
    split
    next hstorable =>
      rw [if_pos hstorable] at hr
      exact hr
    next hnot =>
      rw [if_neg hnot] at hr
      obtain ⟨hr, rfl⟩ := hr
      exact ⟨hr, hs.twins_putBench rfl⟩

/-- A body that can be read in the second session can be read in the first one, too. -/
theorem Session.Mirrors.exists_readBody (h : s.Mirrors W s₀ t) {body : Option String}
    {bytes : Option Bytes} (hread : readBody t.contents body = .ok bytes) :
    ∃ bytes', readBody s.contents body = .ok bytes' := by
  have hmachine : s.contents.machine = t.contents.machine := h.grown.machine
  have hfile (p : Path) (b : Bytes) (hb : t.contents.read p = .ok b) :
      ∃ b', s.contents.read p = .ok b' := by
    obtain ⟨b', hb'⟩ := exists_read_contents.1 ⟨b, hb⟩
    exact exists_read_contents.2 ⟨b', h.grown.read hb'⟩
  obtain ⟨bytes', hbytes', -⟩ := Courier.exists_readBody (P := fun _ _ => True) hmachine
    (fun p b _ hb => (hfile p b hb).imp fun _ hb' => ⟨hb', trivial⟩) hread
  exact ⟨bytes', hbytes'⟩

/-- A body that is what it was when the runs began is the same in both, unless it is read from a
database. -/
theorem Session.Mirrors.readBody_eq (h : s.Mirrors W s₀ t) {body : Option String}
    {bytes : Option Bytes} (hdatabase : s.readsDatabase body = false)
    (hread : readBody s₀.contents body = .ok bytes) : readBody t.contents body = .ok bytes := by
  have hsame : t.contents.machine = s₀.contents.machine := h.opened'.grown.machine
  refine readBody_of_read hsame (fun p b hp hb => ?_) hread
  obtain ⟨place, hplace, -⟩ := Disk.read_eq_ok.1 hb
  rw [locate_contents] at hplace
  have hmachine : s.disk.machine = s₀.disk.machine := h.opened.grown.machine
  have hunused : s.knows (.file place) = false := by
    have hpath : bodyPath? s.disk.machine body = some p := by
      rw [hmachine]
      exact hp
    rw [readsDatabase, bodyPlace?, hpath, Option.bind_some, h.opened.grown.locate hplace]
      at hdatabase
    exact hdatabase
  have hunused₀ : s₀.knows (.file place) = false :=
    Bool.eq_false_iff.2 fun hknown => Bool.eq_false_iff.1 hunused (h.known _ hknown)
  have hunused' : t.knows (.file place) = false := by
    rw [h.knows]
    exact hunused
  rw [read_contents hplace hunused₀] at hb
  exact (read_contents (h.opened'.grown.locate hplace) hunused').2 (h.opened'.grown.read hb)

/-- What cannot be stored in the first session cannot be stored in the second one. -/
theorem Session.Mirrors.storable (h : s.Mirrors W s₀ t) (hhere : s.workspace = W) {d : Draft}
    (hnot : s.store.storable s.contents d = false) : t.store.storable t.contents d = false := by
  rw [Store.storable] at hnot ⊢
  obtain ⟨e, hrefused⟩ | ⟨r, hr⟩ := toRequest_cases d
  · rw [hrefused]
  · rw [hr] at hnot ⊢
    cases hbody : readBody t.contents d.body with
    | error e => rfl
    | ok bytes =>
      obtain ⟨bytes', hbytes'⟩ := h.exists_readBody hbody
      rw [hbytes'] at hnot
      rw [(h.twins hhere).store]
      exact hnot

/-- A draft that cannot be stored is refused without a change. -/
theorem Session.Ready.stateAfter_refused (hs : s.Ready) {name url : String} {method : Option String}
    {headers : List String} {body : Option String}
    (hnot : s.store.storable s.contents { name, url, method, headers, body } = false) :
    s.Twins (stateAfter (execute (.createRequest name url method headers body)) s) := by
  have hcreate := hs.ends_createRequest { name, url, method, headers, body }
  rw [hnot] at hcreate
  have hends : Ends (execute (.createRequest name url method headers body)) s fun _ s' =>
      s.Twins s' := by
    refine ends_bind.2 (ends_bind.2 (hcreate.mono fun r s' hr => ?_))
    obtain ⟨⟨e, rfl⟩, hsame⟩ := hr
    exact hsame
  exact hends.stateAfter

/-- A request is stored in both sessions or in neither, if its body is what it was at first. -/
theorem Session.Mirrors.createRequest (h : s.Mirrors W s₀ t) (hhere : s.workspace = W)
    {line name url : String} {method : Option String} {headers : List String}
    {body : Option String}
    (hline : Command.ofLine line = .ok (some (.createRequest name url method headers body)))
    (hbody : readsAsIn s₀ s line = true) :
    (stateAfter (execute (.createRequest name url method headers body)) s).Mirrors W s₀
      (stateAfter (execute (.createRequest name url method headers body)) t) := by
  cases hstorable : s.store.storable s.contents { name, url, method, headers, body } with
  | false =>
    have hs := h.ready.stateAfter_refused hstorable
    have ht := h.ready'.stateAfter_refused (h.storable hhere hstorable)
    exact h.here hhere (hs.symm.trans ((h.twins hhere).trans ht))
      ((local_execute rfl).inside h.ready).stateAfter
      ((local_execute rfl).inside h.ready').stateAfter
  | true =>
    have hcreate := h.ready.ends_createRequest { name, url, method, headers, body }
    rw [hstorable] at hcreate
    have hstored : s.storedBody? line = some body := by
      rw [storedBody?, hline]
      dsimp only
      cases hrun : Current.createRequest { name, url, method, headers, body } s with
      | ok created s' => rfl
      | error e s' =>
        obtain ⟨created, hr⟩ := hcreate.of_eq_error hrun
        cases hr
    rw [readsAsIn, hstored, Option.all_some, Bool.and_eq_true, Bool.not_eq_true'] at hbody
    obtain ⟨hdatabase, hsame⟩ := hbody
    refine h.execute_local hhere rfl ?_
    rw [Store.storable] at hstorable
    obtain ⟨e, hrefused⟩ | ⟨r, hr⟩ := toRequest_cases { name, url, method, headers, body }
    · rw [Command.Sees, hrefused, hrefused]
    · rw [Command.Sees, hr, hr]
      rw [hr] at hstorable
      cases hread : readBody s.contents body with
      | error e =>
        rw [hread] at hstorable
        cases hstorable
      | ok bytes =>
        rw [hread, decide_eq_true_eq] at hsame
        cases hstart : readBody s₀.contents body with
        | error e =>
          rw [hstart] at hsame
          cases hsame
        | ok bytes' =>
          rw [hstart] at hsame
          obtain rfl : bytes = bytes' := Option.some.inj hsame
          rw [h.readBody_eq hdatabase hstart]

/-! ### Lines -/

/-- A line in the workspace is done in both sessions. -/
theorem Session.Mirrors.line_here (h : s.Mirrors W s₀ t) (hhere : s.workspace = W) {line : String}
    (hrun : asksForRun line = false) (hbody : readsAsIn s₀ s line = true) :
    (stateAfter (doLine line) s).Mirrors W s₀ (stateAfter (doLine line) t) := by
  obtain ⟨_, hs⟩ := stateAfter_doLine line s
  obtain ⟨_, ht⟩ := stateAfter_doLine line t
  refine Mirrors.of_shown ?_ ⟨_, hs⟩ ⟨_, ht⟩
  by_cases hline : ∃ c, Command.ofLine line = .ok (some c)
  · obtain ⟨c, hline⟩ := hline
    unfold asksForRun at hrun
    rw [hline] at hrun
    rw [stateAfter_dispatch hline, stateAfter_dispatch hline]
    cases c with
    | run name quiet => exact nomatch hrun
    | setWorkspace name => exact h.setWorkspace name
    | printWorkspaces =>
      exact h.of_shown (ends_printWorkspaces s).stateAfter (ends_printWorkspaces t).stateAfter
    | createRequest name url method headers body =>
      exact h.createRequest hhere hline hbody
    | _ => exact h.execute_local hhere rfl trivial
  · have hnone := stateAfter_dispatch_of_none fun c hc => hline ⟨c, hc⟩
    rw [hnone, hnone]
    exact h

/-- A switch is done in both sessions, wherever they are. -/
theorem Session.Mirrors.line_switch (h : s.Mirrors W s₀ t) {line : String}
    (hswitches : s.switches line = true) :
    (stateAfter (doLine line) s).Mirrors W s₀ (stateAfter (doLine line) t) := by
  obtain ⟨_, hs⟩ := stateAfter_doLine line s
  obtain ⟨_, ht⟩ := stateAfter_doLine line t
  refine Mirrors.of_shown ?_ ⟨_, hs⟩ ⟨_, ht⟩
  unfold switches at hswitches
  split at hswitches
  next name hline =>
    rw [stateAfter_dispatch hline, stateAfter_dispatch hline]
    exact h.setWorkspace name
  next => exact nomatch hswitches

/-- A line elsewhere that does not switch need not be done. -/
theorem Session.Mirrors.line_elsewhere (h : s.Mirrors W s₀ t) (hW : isWorkspaceName W = true)
    (hother : s.workspace ≠ W) {line : String} (hrun : asksForRun line = false)
    (hstays : s.switches line = false) : (stateAfter (doLine line) s).Mirrors W s₀ t := by
  obtain ⟨_, hs⟩ := stateAfter_doLine line s
  refine Mirrors.of_shown ?_ ⟨_, hs⟩ ⟨t.shown, rfl⟩
  by_cases hline : ∃ c, Command.ofLine line = .ok (some c)
  · obtain ⟨c, hline⟩ := hline
    unfold asksForRun at hrun
    rw [hline] at hrun
    rw [stateAfter_dispatch hline]
    have hlocal (hc : c.isLocal = true) : (stateAfter (execute c) s).Mirrors W s₀ t :=
      h.elsewhere hW hother ((local_execute hc).inside h.ready).stateAfter (.refl t)
    cases c with
    | run name quiet => exact nomatch hrun
    | setWorkspace name =>
      rw [h.ready.switches_eq hline] at hstays
      obtain ⟨henters, -⟩ | ⟨-, hs⟩ := stateAfter_setWorkspace h.ready.plain name
      · exact nomatch henters.symm.trans hstays
      · rw [hs]
        exact h.refused name
    | printWorkspaces =>
      exact h.of_shown (ends_printWorkspaces s).stateAfter ⟨t.shown, rfl⟩
    | _ => exact hlocal rfl
  · rw [stateAfter_dispatch_of_none fun c hc => hline ⟨c, hc⟩]
    exact h

/-- Two sessions stay in step if one does all lines and the other one those of the workspace. -/
theorem Session.Mirrors.lines {lines : List String} (h : s.Mirrors W s₀ t)
    (hW : isWorkspaceName W = true) (hrun : ∀ line ∈ lines, asksForRun line = false)
    (hbodies : bodiesAsIn s₀ W s lines = true) :
    (s.afterLines lines).Mirrors W s₀ (t.afterLines (linesOf W s lines)) := by
  induction lines generalizing s t with
  | nil => exact h
  | cons line lines ih =>
    obtain ⟨hline, hlines⟩ := List.forall_mem_cons.1 hrun
    rw [bodiesAsIn, Bool.and_eq_true] at hbodies
    obtain ⟨hbody, hbodies⟩ := hbodies
    rw [linesOf]
    by_cases hhere : s.workspace = W
    · have hreads : readsAsIn s₀ s line = true := by simpa [hhere] using hbody
      rw [decide_eq_true hhere, Bool.true_or, if_pos rfl]
      exact ih (h.line_here hhere hline hreads) hlines hbodies
    · rw [decide_eq_false hhere, Bool.false_or]
      split
      next hswitches => exact ih (h.line_switch hswitches) hlines hbodies
      next hstays =>
        exact ih (h.line_elsewhere hW hhere hline (Bool.not_eq_true _ ▸ hstays)) hlines hbodies

/-- **Workspaces do not interfere.** Take a session in which the current workspace is open, in an
ordinary data directory, and any lines of which none asks for a run. Of these do only those that
were done in one workspace, and those that switched to a workspace: in the end the workspace has
the same rows. The bodies of requests that are stored in the workspace must be what they were
when the run began, because a switch that fails may leave a file, and must not be read from the file
of a database, because that holds the rows of a workspace. -/
theorem workspaces_do_not_interfere {s : Session} {W : String} {lines : List String}
    (hs : s.Ready) (hW : isWorkspaceName W = true)
    (hrun : ∀ line ∈ lines, asksForRun line = false)
    (hbodies : bodiesAsIn s W s lines = true) :
    (s.afterLines (linesOf W s lines)).rowsOf W = (s.afterLines lines).rowsOf W := by
  have hrefl : s.Mirrors W s s :=
    ⟨rfl, .fresh, .fresh, .refl s.disk, fun _ => id, rfl, rfl, rfl, rfl, fun _ => ⟨rfl, rfl⟩,
      hs, hs⟩
  exact (hrefl.lines hW hrun hbodies).rows

/-- A request is stored in one workspace with a body from a file, and another one in the next;
for the first workspace the second request need not be stored. -/
theorem workspaces_do_not_interfere_two :
    let s : Session := { disk := { files := [(Disk.workPlace ++ ["body"], [42])] } }
    let lines := ["set workspace a", "create request ping http://h/ -d @body", "set workspace b",
      "create request pong http://h/"]
    s.Ready ∧ isWorkspaceName "a" = true ∧ (∀ line ∈ lines, asksForRun line = false) ∧
      bodiesAsIn s "a" s lines = true ∧
      linesOf "a" s lines =
        ["set workspace a", "create request ping http://h/ -d @body", "set workspace b"] ∧
      (s.afterLines (linesOf "a" s lines)).rowsOf "a" = (s.afterLines lines).rowsOf "a" := by
  intro s lines
  have hs : s.Ready := .of_playground rfl (by decide +kernel)
  have hname : isWorkspaceName "a" = true := by decide +kernel
  have hrun : ∀ line ∈ lines, asksForRun line = false := by decide +kernel
  have hbodies : bodiesAsIn s "a" s lines = true := by decide +kernel
  exact ⟨hs, hname, hrun, hbodies, by decide +kernel,
    workspaces_do_not_interfere hs hname hrun hbodies⟩

/-- Without these conditions they do: a switch that failed leaves a file, and what is stored next
reads it; in a data directory that is a URI two workspaces may have one database; and a request may
have what is in another workspace for its body. -/
theorem workspaces_share_disk :
    (let data : Place := Disk.workPlace ++ ["data"]
      let s : Session := { disk := { dirs := [data, data ++ ["b.db-journal"]] } }
      let lines := ["set workspace a", "set workspace b", "set workspace playground",
        "create request ping http://h/ -d @data/b.db"]
      s.Ready ∧ (∀ line ∈ lines, asksForRun line = false) ∧
        (s.afterLines (linesOf playgroundName s lines)).rowsOf playgroundName ≠
          (s.afterLines lines).rowsOf playgroundName) ∧
    (let s : Session := { dataDir := Path.parse "file:x?y=" }
      let lines := ["set workspace a", "create request ping http://h/"]
      (∀ line ∈ lines, asksForRun line = false) ∧
        (s.afterLines (linesOf "b" s lines)).rowsOf "b" ≠ (s.afterLines lines).rowsOf "b") ∧
    (let s : Session := { host := { image := fun rows => encode (toString rows.requests.length) } }
      let lines := ["set workspace a", "create request ping http://h/", "set workspace playground",
        "create request pong http://h/ -d @data/a.db"]
      s.Ready ∧ (∀ line ∈ lines, asksForRun line = false) ∧
        (s.afterLines (linesOf playgroundName s lines)).rowsOf playgroundName ≠
          (s.afterLines lines).rowsOf playgroundName) := by
  refine ⟨⟨.of_playground rfl ?_, ?_, ?_⟩, ⟨?_, ?_⟩, .of_playground rfl ?_, ?_, ?_⟩ <;>
    decide +kernel

end Courier
