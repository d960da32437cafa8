/-
Courier.Proofs.Session.Operation — the rules of the store, over every run of a session.

An `Operation` is anything that may be asked of a session: a line of the shell, or a call of
one of the functions below it, which check less. `Operation.run` does them one after the other,
whether they succeed or fail. `rows_stay_lawful` says that a session that begins without rows
obeys the rules of the store in all its workspaces from then on, and that no number of a
variable or a response is used a second time.

Which requests an operation deletes, and which options it sets or deletes, can be told from the
operation and from the request that is selected (`ends_perform_changesHere`).
-/
import Courier.Proofs.Session.Commands
import Courier.Proofs.Store.Rules

namespace Courier

open Courier.Text Courier.Http Courier.Store Courier.Database Session

/-! ## Operations -/

/-- What may be asked of a session. -/
inductive Operation where
  /-- Do a line. -/
  | line (text : String)
  /-- Have the far end give these replies, behind those that it will give already. -/
  | expect (replies : List Reply)
  /-- Switch to a workspace. -/
  | switchWorkspace (name : String)
  /-- Close the storage. -/
  | close
  /-- List the workspaces. -/
  | listWorkspaces
  /-- Read the rows of the current workspace, as every listing does. -/
  | ask {α : Type} (question : Store → α)
  /-- Find a request, the requests whose name matches a pattern, or the recorded responses. -/
  | findRequest (name : String)
  | findRequests (pattern : String)
  | findResponses (request : String)
  /-- Operations on single rows. -/
  | insertRequest (r : Request)
  | dropRequest (name : String)
  | putVariable (name env : String) (value source : Option String)
  | dropVariable (id : Int)
  | dropVariablesNamed (name : String) (env : Option String)
  | declareOption (request name : String)
  | putOption (request name : String) (value : Option String)
  | dropOptionsNamed (name : String) (request : Option String)
  | putExtraction (e : Extraction)
  | recordResponse (r : Response)
  | forgetResponses (request : String)
  /-- Operations as the user asks for them. -/
  | createRequest (d : Draft)
  | deleteRequests (names : List String)
  | createVariable (name : String) (pairs : List String) (source : String)
  | deleteVariables (env : Option String) (items : List String)
  | assignOption (request name : String) (values : List String)
  | deleteOptions (request : Option String) (names : List String)
  | createExtraction (request source path target : String)
  | send (name : String) (env : Option String)

/-- Does an operation, and forgets its result. -/
def Operation.perform : Operation → Action Unit
  | .line text => discard (doLine text)
  | .expect replies =>
    modify fun s => { s with wire := { s.wire with queue := s.wire.queue ++ replies } }
  | .switchWorkspace name => Courier.switchWorkspace name
  | .close => modify Session.closed
  | .listWorkspaces => discard storedWorkspaces
  | .ask question => discard (askRows question)
  | .findRequest name => discard (onRows (requireRequest name))
  | .findRequests pattern => discard (onRows (Courier.findRequests pattern))
  | .findResponses request => discard (onRows (recordedResponses request))
  | .insertRequest r => discard (onRows (StoreAction.tryEdit fun s => s.insertRequest r))
  | .dropRequest name => onRows (deleteRequest name)
  | .putVariable name env value source =>
    discard (onRows (StoreAction.edit fun s => s.putVariable name env value source))
  | .dropVariable id => onRows (deleteVariable id)
  | .dropVariablesNamed name env =>
    discard (onRows (StoreAction.edit fun s => s.deleteVariablesNamed name env))
  | .declareOption request name =>
    onRows (StoreAction.tryEdit fun s => (s.declareOption request name).map ((), ·))
  | .putOption request name value =>
    discard (onRows (StoreAction.tryEdit fun s => s.setOption request name value))
  | .dropOptionsNamed name request =>
    discard (onRows (StoreAction.edit fun s => s.deleteOptionsNamed name request))
  | .putExtraction e => discard (onRows (StoreAction.tryEdit fun s => s.putExtraction e))
  | .recordResponse r => discard (onRows (Courier.recordResponse r))
  | .forgetResponses request =>
    discard (onRows (StoreAction.edit fun s => s.forgetResponses request))
  | .createRequest d => discard (Current.createRequest d)
  | .deleteRequests names => discard (Current.deleteRequests names)
  | .createVariable name pairs source => discard (Current.createVariable name pairs source)
  | .deleteVariables env items => discard (Current.deleteVariables env items)
  | .assignOption request name values =>
    discard (onRows (Courier.assignOption request name values))
  | .deleteOptions request names => discard (Current.deleteOptions request names)
  | .createExtraction request source path target =>
    discard (Current.createExtraction request source path target)
  | .send name env => discard (onBench (runStored name env))

/-- The session after operations, each of which may fail. -/
def Operation.run (ops : List Operation) (s : Session) : Session :=
  ops.foldl (fun s op => stateAfter op.perform s) s

/-- Whether an operation is to delete the request of a name. -/
def Operation.deletes (name : String) : Operation → Bool
  | .line text =>
    match Command.ofLine text with
    | .ok (some (.deleteRequests names)) => names.contains name
    | _ => false
  | .dropRequest other => other = name
  | .deleteRequests names => names.contains name
  | _ => false

/-- Whether an operation is to give a value to an option of a request, while a request is
selected. -/
def Operation.sets (request name : String) (selected : Option String) : Operation → Bool
  | .line text =>
    match Command.ofLine text with
    | .ok (some (.setOption other _)) => selected = some request && other = name
    | _ => false
  | .putOption owner other _ => owner = request && other = name
  | .assignOption owner other _ => owner = request && other = name
  | _ => false

/-- Whether an operation is to delete the options of a name, of one request or of all requests,
while a request is selected. -/
def Operation.clears (request : Option String) (name : String) (selected : Option String) :
    Operation → Bool
  | .line text =>
    match Command.ofLine text with
    | .ok (some (.deleteOptions names)) => selected = request && names.contains name
    | _ => false
  | .dropOptionsNamed other owner => owner = request && other = name
  | .deleteOptions owner names => owner = request && names.contains name
  | _ => false

/-- An operation that does not close the storage changes rows of the current workspace only. It
deletes the requests that it names, and sets and deletes the options that it names. -/
theorem ends_perform_changesHere {P : Change → Prop} {op : Operation} {s : Session}
    (h : op ≠ .close) (hkeep : ∀ c : Change, c.KeepsRequests → c.KeepsOptions → P c)
    (hdrop : ∀ name, op.deletes name = true → P (.dropRequest name))
    (hset : ∀ request name value, op.sets request name s.request = true →
      P (.setOption request name value))
    (hclear : ∀ request name, op.clears request name s.request = true →
      P (.deleteOptions name request)) :
    Ends op.perform s fun _ s' => s.ChangesHere P s' := by
  have hdiscard {α : Type} {act : Action α} (h : Ends act s fun _ s' => s.ChangesHere P s') :
      Ends (discard act) s fun _ s' => s.ChangesHere P s' := by
    refine ends_bind.2 (h.mono fun r s' hs => ?_)
    cases r with
    | ok _ => exact ends_pure.2 hs
    | error e => exact hs
  have hworked {α : Type} {act : Action α} (h : Keeps (Worked P) act) :
      Ends act s fun _ s' => s.ChangesHere P s' :=
    (h s).mono fun _ _ => Worked.changesHere
  cases op with
  | line text =>
    refine hdiscard (ends_doLine_changesHere hkeep ?_ ?_ ?_)
    · intro ns hline name hname
      refine hdrop name ?_
      rw [Operation.deletes, hline]
      exact List.contains_iff_mem.2 hname
    · intro name values hline request hrequest
      refine hset request name _ ?_
      rw [Operation.sets, hline, Option.mem_def.1 hrequest]
      simp
    · intro ns hline name hname
      refine hclear s.request name ?_
      rw [Operation.clears, hline]
      simpa using hname
  | expect replies => exact ends_modify.2 (.of_eq fun _ => rfl)
  | switchWorkspace name =>
    exact ((keeps_switchWorkspace name) s).mono fun _ _ => RowsChange.changesHere
  | close => exact absurd rfl h
  | listWorkspaces => exact hdiscard (hworked keeps_storedWorkspaces)
  | ask question => exact hdiscard (hworked (keeps_askRows question))
  | findRequest name => exact hdiscard (hworked (keeps_onRows (keeps_requireRequest name)))
  | findRequests pattern => exact hdiscard (hworked (keeps_onRows (keeps_findRequests pattern)))
  | findResponses request =>
    exact hdiscard (hworked (keeps_onRows (keeps_recordedResponses request)))
  | insertRequest r =>
    exact hdiscard (hworked (keeps_onRows (keeps_insertRequest (hkeep _ nofun ⟨nofun, nofun⟩))))
  | dropRequest name =>
    exact hworked (keeps_onRows (keeps_deleteRequest (hdrop name (decide_eq_true rfl))))
  | putVariable name env value source =>
    exact hdiscard (hworked (keeps_onRows (keeps_putVariable (hkeep _ nofun ⟨nofun, nofun⟩))))
  | dropVariable id =>
    exact hworked (keeps_onRows (keeps_deleteVariable fun _ => hkeep _ nofun ⟨nofun, nofun⟩))
  | dropVariablesNamed name env =>
    exact hdiscard (hworked (keeps_onRows
      (keeps_deleteVariablesNamed fun _ => hkeep _ nofun ⟨nofun, nofun⟩)))
  | declareOption request name =>
    exact hworked (keeps_onRows (keeps_declareOption (hkeep _ nofun ⟨nofun, nofun⟩)))
  | putOption request name value =>
    exact hdiscard (hworked (keeps_onRows
      (keeps_setOption (hset request name value (by simp [Operation.sets])))))
  | dropOptionsNamed name request =>
    exact hdiscard (hworked (keeps_onRows
      (keeps_deleteOptionsNamed (hclear request name (by simp [Operation.clears])))))
  | putExtraction e =>
    exact hdiscard (hworked (keeps_onRows (keeps_putExtraction (hkeep _ nofun ⟨nofun, nofun⟩))))
  | recordResponse r =>
    exact hdiscard (hworked (keeps_onRows (keeps_recordResponse (hkeep _ nofun ⟨nofun, nofun⟩))))
  | forgetResponses request =>
    exact hdiscard (hworked (keeps_onRows
      (keeps_forgetResponses (hkeep _ nofun ⟨nofun, nofun⟩))))
  | createRequest d =>
    exact hdiscard (hworked (Current.keeps_createRequest
      (fun _ => hkeep _ nofun ⟨nofun, nofun⟩) fun _ _ => hkeep _ nofun ⟨nofun, nofun⟩))
  | deleteRequests names =>
    exact hdiscard (hworked (Current.keeps_deleteRequests fun name hname =>
      hdrop name (List.contains_iff_mem.2 hname)))
  | createVariable name pairs source =>
    exact hdiscard (hworked
      (Current.keeps_createVariable fun _ _ _ _ => hkeep _ nofun ⟨nofun, nofun⟩))
  | deleteVariables env items =>
    exact hdiscard (hworked (Current.keeps_deleteVariables fun _ =>
      hkeep _ nofun ⟨nofun, nofun⟩))
  | assignOption request name values =>
    exact hdiscard (hworked (keeps_onRows
      (keeps_assignOption (hset request name _ (by simp [Operation.sets])))))
  | deleteOptions request names =>
    exact hdiscard (hworked (Current.keeps_deleteOptions fun name hname =>
      hclear request name (by simpa [Operation.clears] using hname)))
  | createExtraction request source path target =>
    exact hdiscard (hworked (Current.keeps_createExtraction (hkeep _ nofun ⟨nofun, nofun⟩)))
  | send name env =>
    exact hdiscard (hworked (keeps_onBench (keeps_runStored
      (fun _ _ _ => hkeep _ nofun ⟨nofun, nofun⟩) (fun _ _ => hkeep _ nofun ⟨nofun, nofun⟩)
      (hkeep _ nofun ⟨nofun, nofun⟩))))

/-- An operation that does not close the storage makes changes to rows, and of requests it deletes
those that it names. -/
theorem keeps_perform {P : Change → Prop} {op : Operation} (h : op ≠ .close)
    (hkeep : ∀ c, c.KeepsRequests → P c)
    (hdrop : ∀ name, op.deletes name = true → P (.dropRequest name)) :
    Keeps (RowsChange P) op.perform :=
  fun _ => (ends_perform_changesHere h (fun c hc _ => hkeep c hc) hdrop
    (fun _ _ _ _ => hkeep _ nofun) fun _ _ _ => hkeep _ nofun).mono
      fun _ _ => ChangesHere.rowsChange

/-! ## Runs -/

theorem lookup_lasting {place : Home} {saved : List (Home × Store)} :
    (saved.filter fun entry => entry.1.lasts).lookup place
      = if place.lasts then saved.lookup place else none := by
  induction saved with
  | nil => simp
  | cons entry rest ih =>
    obtain ⟨home, rows⟩ := entry
    rw [List.filter_cons, List.lookup_cons]
    by_cases hplace : place = home
    · subst hplace
      cases hlasts : place.lasts <;> simp [hlasts, ih]
    · cases home.lasts <;> simp [hplace, beq_false_of_ne, ih, List.lookup_cons]

/-- Closing the storage loses the rows in memory and no others. -/
theorem rowsAt_closed (s : Session) (shelf : Shelf) :
    s.closed.rowsAt shelf = if shelf.lasts then s.rowsAt shelf else {} := by
  cases shelf with
  | playground => rfl
  | home place =>
    change (((s.saved.filter fun entry => entry.1.lasts).lookup place).getD {}).writable = _
    rw [lookup_lasting]
    cases hlasts : place.lasts <;> simp [Shelf.lasts, hlasts, rowsAt, Store.writable]

theorem upholds_perform {op : Operation} (h : op ≠ .close) (s : Session) (shelf : Shelf) :
    (s.rowsAt shelf).Upholds ((stateAfter op.perform s).rowsAt shelf) := by
  have hkeeps : Keeps (RowsChange fun _ => True) op.perform :=
    keeps_perform h (fun _ _ => trivial) fun _ _ => trivial
  exact (hkeeps.stateAfter s shelf).upholds

/-- The rules hold in every workspace. -/
def Session.Sound (s : Session) : Prop := ∀ shelf, (s.rowsAt shelf).Sound

theorem sound_perform (op : Operation) {s : Session} (h : s.Sound) :
    (stateAfter op.perform s).Sound := by
  intro shelf
  by_cases hclose : op = .close
  · subst hclose
    change (s.closed.rowsAt shelf).Sound
    rw [rowsAt_closed]
    split
    · exact h shelf
    · exact .empty
  · exact (upholds_perform hclose s shelf).sound (h shelf)

theorem follows_perform {op : Operation} {shelf : Shelf} (h : shelf.lasts = true ∨ op ≠ .close)
    (s : Session) : (s.rowsAt shelf).Follows ((stateAfter op.perform s).rowsAt shelf) := by
  by_cases hclose : op = .close
  · have hlasts : shelf.lasts = true := h.resolve_right (fun hne => hne hclose)
    subst hclose
    change (s.rowsAt shelf).Follows (s.closed.rowsAt shelf)
    rw [rowsAt_closed, if_pos hlasts]
    exact .refl _
  · exact (upholds_perform hclose s shelf).follows

theorem sound_run (ops : List Operation) {s : Session} (h : s.Sound) :
    (Operation.run ops s).Sound := by
  induction ops generalizing s with
  | nil => exact h
  | cons op ops ih => exact ih (sound_perform op h)

theorem follows_run {ops : List Operation} {shelf : Shelf}
    (h : shelf.lasts = true ∨ .close ∉ ops) (s : Session) :
    (s.rowsAt shelf).Follows ((Operation.run ops s).rowsAt shelf) := by
  induction ops generalizing s with
  | nil => exact .refl _
  | cons op ops ih =>
    have hop : shelf.lasts = true ∨ op ≠ .close :=
      h.imp_right fun hmem heq => hmem (heq ▸ List.mem_cons_self)
    have hops : shelf.lasts = true ∨ .close ∉ ops :=
      h.imp_right fun hmem hin => hmem (List.mem_cons_of_mem op hin)
    exact (follows_perform hop s).trans (ih hops _)

/-- A number that was used and is gone does not come back. -/
theorem Store.Follows.variableId_gone {s t u : Store} (hst : s.Follows t) (htu : t.Follows u)
    (hs : s.Sound) {id : Nat} (hused : id ∈ s.vars.map Variable.id)
    (hgone : id ∉ t.vars.map Variable.id) : id ∉ u.vars.map Variable.id := by
  intro hback
  obtain ⟨v, hv, rfl⟩ := List.mem_map.1 hused
  obtain ⟨w, hw, hid⟩ := List.mem_map.1 hback
  have hlast : w.id ≤ t.lastVariable := hid ▸ (hs.variableBound v hv).trans hst.lastVariable
  obtain ⟨x, hx, hxid, -⟩ := htu.vars w hw hlast
  exact hgone (List.mem_map.2 ⟨x, hx, hxid.trans hid⟩)

theorem Store.Follows.responseId_gone {s t u : Store} (hst : s.Follows t) (htu : t.Follows u)
    (hs : s.Sound) {id : Int} (hused : id ∈ s.responses.map Response.id)
    (hgone : id ∉ t.responses.map Response.id) : id ∉ u.responses.map Response.id := by
  intro hback
  obtain ⟨x, hx, rfl⟩ := List.mem_map.1 hused
  obtain ⟨y, hy, hid⟩ := List.mem_map.1 hback
  have hlast : y.id ≤ t.lastResponse :=
    hid ▸ (hs.responseBound x hx).trans (Int.ofNat_le.2 hst.lastResponse)
  exact hgone (List.mem_map.2 ⟨y, htu.responses y hy hlast, hid⟩)

/-- What the shell sees of the rows obeys the rules too. -/
theorem Session.Sound.store {s : Session} (h : s.Sound) : s.store.Sound := by
  cases hshelf : s.shelf? with
  | none =>
    rw [store_of_shelf?_none hshelf]
    exact .empty
  | some shelf =>
    have hrows := h shelf
    rw [← writable_store hshelf] at hrows
    exact { hrows with }

/-- A session that begins without rows is sound, whatever is asked of it. -/
theorem sound_run_fresh (host : Host) (disk : Disk) (dataDir : Path) (wire : Wire)
    (ops : List Operation) :
    (Operation.run ops { host, disk, dataDir, wire }).Sound := by
  refine sound_run ops fun shelf => ?_
  cases shelf <;> exact .empty

/-- **The rules of the store hold throughout.** A session begins without rows, on any disk
and with any far end. Whatever operations are done, in every workspace the rows obey the rules.
Of operations that come later, a variable or response that has a number it had before is the
same one, and a number that is gone never comes back; only the rows of workspaces in memory
are lost, with all their numbers, when the storage is closed. -/
theorem rows_stay_lawful (host : Host) (disk : Disk) (dataDir : Path) (wire : Wire)
    (before between after : List Operation) (shelf : Shelf) :
    let s₁ := Operation.run before { host, disk, dataDir, wire }
    let s₂ := Operation.run between s₁
    let s₃ := Operation.run after s₂
    s₁.store.Lawful ∧ (s₁.rowsAt shelf).Lawful ∧
    (shelf.lasts = true ∨ .close ∉ between ++ after →
      (∀ v ∈ (s₁.rowsAt shelf).vars, ∀ w ∈ (s₂.rowsAt shelf).vars, w.id = v.id →
        w.name = v.name ∧ w.env = v.env) ∧
      (∀ id ∈ (s₁.rowsAt shelf).vars.map Variable.id,
        id ∉ (s₂.rowsAt shelf).vars.map Variable.id →
        id ∉ (s₃.rowsAt shelf).vars.map Variable.id) ∧
      (∀ x ∈ (s₁.rowsAt shelf).responses, ∀ y ∈ (s₂.rowsAt shelf).responses, y.id = x.id →
        y = x) ∧
      (∀ id ∈ (s₁.rowsAt shelf).responses.map Response.id,
        id ∉ (s₂.rowsAt shelf).responses.map Response.id →
        id ∉ (s₃.rowsAt shelf).responses.map Response.id)) := by
  intro s₁ s₂ s₃
  have hsound : s₁.Sound := sound_run_fresh host disk dataDir wire before
  refine ⟨hsound.store.lawful, (hsound shelf).lawful, fun hlasts => ?_⟩
  have hrows := hsound shelf
  have h₁₂ : (s₁.rowsAt shelf).Follows (s₂.rowsAt shelf) :=
    follows_run (hlasts.imp_right fun h hmem => h (List.mem_append_left _ hmem)) s₁
  have h₂₃ : (s₂.rowsAt shelf).Follows (s₃.rowsAt shelf) :=
    follows_run (hlasts.imp_right fun h hmem => h (List.mem_append_right _ hmem)) s₂
  refine ⟨fun v hv w hw hid => ?_, fun id => h₁₂.variableId_gone h₂₃ hrows,
    fun x hx y hy hid => ?_, fun id => h₁₂.responseId_gone h₂₃ hrows⟩
  · obtain ⟨v', hv', hid', hkey⟩ := h₁₂.vars w hw (hid ▸ hrows.variableBound v hv)
    have hsame := hrows.variableId v' hv' v hv (hid'.trans hid)
    rw [hsame] at hkey
    exact ⟨(congrArg Prod.fst hkey).symm, (congrArg Prod.snd hkey).symm⟩
  · have hy' := h₁₂.responses y hy (hid ▸ hrows.responseBound x hx)
    exact List.inj_on_of_nodup_map hrows.lawful.responseIds hy' hx hid

/-- A variable that is deleted and set again has another number. -/
theorem rows_stay_lawful_renumbered :
    let s₁ := Operation.run [.putVariable "token" "dev" (some "x") none] {}
    let s₂ := Operation.run [.dropVariable 1] s₁
    let s₃ := Operation.run [.putVariable "token" "dev" (some "y") none] s₂
    (s₁.rowsAt .playground).vars.map Variable.id = [1] ∧
      (s₂.rowsAt .playground).vars.map Variable.id = [] ∧
      (s₃.rowsAt .playground).vars.map Variable.id = [2] ∧
      1 ∉ (s₃.rowsAt .playground).vars.map Variable.id := by
  intro s₁ s₂ s₃
  have hfirst : (s₁.rowsAt .playground).vars.map Variable.id = [1] := rfl
  have hsecond : (s₂.rowsAt .playground).vars.map Variable.id = [] := rfl
  refine ⟨hfirst, hsecond, rfl, ?_⟩
  obtain ⟨-, -, hnumbers⟩ := rows_stay_lawful {} {} (Path.parse "data") {}
    [.putVariable "token" "dev" (some "x") none] [.dropVariable 1]
    [.putVariable "token" "dev" (some "y") none] .playground
  obtain ⟨-, hvariables, -, -⟩ := hnumbers (.inr (by simp))
  refine hvariables 1 ?_ ?_
  · rw [hfirst]
    exact List.mem_singleton_self 1
  · rw [hsecond]
    exact List.not_mem_nil

end Courier
