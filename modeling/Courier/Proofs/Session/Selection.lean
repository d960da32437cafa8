/-
Courier.Proofs.Session.Selection — the selected request exists.

The selection is one thing and the rows are another, in one of several workspaces. A command
that stays in its workspace and deletes no requests keeps the two in step
(`Session.Worked.selected`). The others see to it: switching to a workspace forgets the
selection, selecting a request looks it up first, and what deletes requests forgets the
selected one if it is among them.

`selected_request_exists` puts this together for every run of lines. A command that is about
the selected request finds it, then, and never fails for want of it.
-/
import Courier.Proofs.Session.Commands
import Courier.Proofs.Session.Lateness
import Courier.Proofs.Store.Rules

namespace Courier

open Courier.Text Courier.Http Courier.Store Courier.Screen Session

/-! ## Requests that stay -/

/-- Requests that were there are there after changes that delete none. -/
theorem Store.Changes.hasRequest {s s' : Store} (h : Changes Change.KeepsRequests s s')
    {name : String} (hname : s.hasRequest name = true) : s'.hasRequest name = true := by
  obtain ⟨x, hx⟩ := Option.isSome_iff_exists.1 hname
  exact Option.isSome_iff_exists.2 ⟨x, h.request? (fun _ hc => hc name) hx⟩

/-- The requests that are left are those that were not deleted. -/
theorem Store.hasRequest_deleteRequests {s : Store} {names : List String} {name : String}
    (h : s.hasRequest name = true) (hname : name ∉ (s.deleteRequests names).1.1) :
    (s.deleteRequests names).2.hasRequest name = true := by
  induction names generalizing s with
  | nil => exact h
  | cons first names ih =>
    cases hfirst : s.hasRequest first with
    | true =>
      simp only [Store.deleteRequests, hfirst, if_true, List.mem_cons, not_or] at hname ⊢
      exact ih (hasRequest_dropRequest.2 ⟨h, hname.1⟩) hname.2
    | false =>
      simp only [Store.deleteRequests, hfirst, Bool.false_eq_true, if_false] at hname ⊢
      exact ih h hname

namespace Session

theorem hasRequest_store {s : Session} {shelf : Shelf} (h : s.shelf? = some shelf)
    (name : String) : s.store.hasRequest name = (s.rowsAt shelf).hasRequest name := by
  rw [← writable_store h]
  rfl

theorem shelf?_of_hasRequest {s : Session} {name : String} (h : s.store.hasRequest name = true) :
    ∃ shelf, s.shelf? = some shelf := by
  cases hshelf : s.shelf? with
  | some shelf => exact ⟨shelf, rfl⟩
  | none =>
    rw [store_of_shelf?_none hshelf] at h
    exact absurd h Bool.false_ne_true

theorem Worked.hasRequest {s s' : Session} (h : s.Worked Change.KeepsRequests s')
    {name : String} (hname : s.store.hasRequest name = true) :
    s'.store.hasRequest name = true := by
  obtain ⟨shelf, hshelf⟩ := shelf?_of_hasRequest hname
  rw [hasRequest_store hshelf] at hname
  rw [hasRequest_store (h.shelf?.trans hshelf)]
  exact (h.here shelf hshelf).hasRequest hname

/-- A workspace that has requests has a shelf, so it has those of the bench whose rows it gets. -/
theorem hasRequest_putBench {s : Session} {name : String} (h : s.store.hasRequest name = true)
    (b : Bench) : (s.putBench b).store.hasRequest name = b.store.hasRequest name := by
  obtain ⟨shelf, hshelf⟩ := shelf?_of_hasRequest h
  rw [hasRequest_store ((shelf?_putBench s b).trans hshelf), rowsAt_putBench, if_pos hshelf]
  rfl

/-! ## The selected request -/

/-- The selected request, if there is one, is stored in the current workspace. -/
def Selected (s : Session) : Prop := ∀ name ∈ s.request, s.store.hasRequest name = true

/-- What an action does that keeps the selection in step with the rows. -/
def StaysSelected (s s' : Session) : Prop := s.Selected → s'.Selected

instance : Std.Refl StaysSelected where
  refl _ := id

instance : IsTrans Session StaysSelected where
  trans _ _ _ h h' := h' ∘ h

theorem Selected.of_none {s : Session} (h : s.request = none) : s.Selected := by
  intro name hname
  rw [h] at hname
  exact absurd hname (Option.not_mem_none name)

theorem Selected.congr {s s' : Session} (h : s.Selected) (hstore : s'.store = s.store)
    (hrequest : s'.request = s.request) : s'.Selected := by
  intro name hname
  rw [hstore]
  exact h name (hrequest ▸ hname)

theorem Worked.selected {s s' : Session} (h : s.Worked Change.KeepsRequests s') :
    StaysSelected s s' := by
  intro hs name hname
  exact h.hasRequest (hs name (h.request ▸ hname))

end Session

/-- Showing something is no matter of the selection. -/
theorem Session.Selected.shown {s : Session} (h : s.Selected) (events : List Event) :
    Ends (showEvents events) s fun _ s' => s'.Selected := by
  refine (ends_showEvents events s).mono fun _ s' hs' => ?_
  obtain ⟨⟨_, rfl⟩, -⟩ := hs'
  exact h.congr (store_congr rfl rfl rfl rfl) rfl

theorem Keeps.staysSelected {α : Type} {act : Action α}
    (h : Keeps (Worked Change.KeepsRequests) act) : Keeps StaysSelected act :=
  h.mono fun _ _ => Worked.selected

/-! ## Commands that select -/

theorem keeps_doSetEnvironment_selected (name : Option String) :
    Keeps StaysSelected (doSetEnvironment name) := by
  have hset : Keeps StaysSelected
      (modify (fun s => { s with environment := name }) : Action PUnit) := by
    exact Keeps.modify fun _ h => h.congr (store_congr rfl rfl rfl rfl) rfl
  exact keeps_doSetEnvironment_of (fun _ _ h => (h.mono fun _ => False.elim).selected) hset

/-- Another workspace is entered without a selection. -/
theorem keeps_doSetWorkspace_selected (name : String) :
    Keeps StaysSelected (doSetWorkspace name) := by
  intro s
  have hswitch : Spares (fun _ => False) (Worked Change.KeepsRequests) (switchWorkspace name) :=
    spares_switchWorkspace name
  refine ends_bind.2 ((hswitch s).mono fun r s' hr => ?_)
  cases r with
  | error e => exact (hr e rfl not_false).selected
  | ok _ =>
    have hcleared : Selected { s' with environment := none, request := none } := .of_none rfl
    exact ends_bind.2 (ends_modify.2 ((hcleared.shown _).mono fun _ _ h _ => h))

/-- A request that is looked up and found is there. -/
theorem ends_lookup (name : String) (s : Session) :
    Ends (onRows (requireRequest name)) s fun r s' =>
      ∀ row, r = .ok row → row.name = name ∧ s'.store.hasRequest name = true := by
  refine ends_bind.2 ((keeps_openCurrent (P := Change.KeepsRequests) s).mono fun r s₁ _ => ?_)
  cases r with
  | error e => exact nofun
  | ok _ =>
    refine ends_onOpened.2 (ends_onStore.2 (ends_requireRequest.2 ?_))
    dsimp only
    split
    next row hfound =>
      rintro _ ⟨⟩
      obtain ⟨hmem, hname⟩ := request?_eq_some hfound
      have hrow : s₁.store.hasRequest name = true := hasRequest_iff.2 ⟨row, hmem, hname⟩
      exact ⟨hname, (hasRequest_putBench hrow _).trans hrow⟩
    · exact nofun

theorem keeps_doSetRequest_selected (name : Option String) :
    Keeps StaysSelected (doSetRequest name) := by
  intro s
  cases name with
  | none =>
    have hcleared : Selected { s with request := none } := .of_none rfl
    exact ends_bind.2 (ends_modify.2 ((hcleared.shown _).mono fun _ _ h _ => h))
  | some name =>
    have hworked : Keeps (Worked Change.KeepsRequests) (onRows (requireRequest name)) :=
      keeps_onRows (keeps_requireRequest name)
    refine ends_bind.2 (((hworked s).and (ends_lookup name s)).mono fun r s' h => ?_)
    obtain ⟨hworked, hfound⟩ := h
    cases r with
    | error e => exact Worked.selected hworked
    | ok row =>
      obtain ⟨hname, hrow⟩ := hfound row rfl
      have hstore : ({ s' with request := some row.name } : Session).store = s'.store :=
        store_congr rfl rfl rfl rfl
      have hselected : Selected { s' with request := some row.name } := by
        rintro _ ⟨⟩
        rw [hstore, hname]
        exact hrow
      exact ends_bind.2 (ends_modify.2 ((hselected.shown _).mono fun _ _ h _ => h))

/-- What becomes of the requests when some are deleted: what is not deleted stays. -/
theorem ends_deleteRequests (names : List String) (s : Session) :
    Ends (Current.deleteRequests names) s fun r s' =>
      ∀ name, s.store.hasRequest name = true → (∀ deleted, r = .ok deleted → name ∉ deleted.1) →
        s'.store.hasRequest name = true := by
  unfold Current.deleteRequests Current.onRowsFor
  split
  · exact ends_pure.2 fun _ hname _ => hname
  · refine ends_bind.2 ((keeps_openCurrent (P := Change.KeepsRequests) s).mono fun r s₁ h => ?_)
    cases r with
    | error e => exact fun _ hname _ => h.hasRequest hname
    | ok _ =>
      refine ends_onOpened.2 (ends_onStore.2 (ends_edit.2 ?_))
      split
      · intro name hname _
        have hopen := h.hasRequest hname
        exact (hasRequest_putBench hopen _).trans hopen
      · intro name hname hkept
        have hopen := h.hasRequest hname
        exact (hasRequest_putBench hopen _).trans
          (hasRequest_deleteRequests hopen (hkept _ rfl))

/-- If the selected request is deleted none is selected. -/
theorem keeps_doDeleteRequests_selected (names : List String) :
    Keeps StaysSelected (doDeleteRequests names) := by
  intro s
  have hworked : Keeps (Worked fun _ => True) (Current.deleteRequests names) :=
    Current.keeps_deleteRequests fun _ _ => trivial
  refine ends_bind.2 (((hworked s).and (ends_deleteRequests names s)).mono fun r s' h => ?_)
  obtain ⟨hworked, hkept⟩ := h
  cases r with
  | error e =>
    intro hs name hname
    exact hkept name (hs name (hworked.request ▸ hname)) nofun
  | ok deleted =>
    have hforgets : StaysSelected s
        (if s'.request.any deleted.1.contains then { s' with request := none } else s') := by
      intro hs
      split
      · exact .of_none rfl
      next hnone =>
        intro name hname
        refine hkept name (hs name (hworked.request ▸ hname)) fun _ heq hdeleted => hnone ?_
        obtain rfl := Except.ok.inj heq
        rw [Option.mem_def.1 hname]
        exact List.contains_iff_mem.2 hdeleted
    have hshown := (keeps_showEvents (P := Change.KeepsRequests)
      (deletion deleted.1.length "request" deleted.2)).staysSelected
    exact ends_bind.2 (ends_modify.2 ((hshown _).mono fun _ _ h => h ∘ hforgets))

/-! ## Lines -/

theorem keeps_doLine_selected (line : String) : Keeps StaysSelected (doLine line) :=
  keeps_doLine
    (fun _ _ => keeps_execute (fun _ _ => Worked.selected)
      (fun ns _ => keeps_doDeleteRequests_selected ns) keeps_doSetEnvironment_selected
      keeps_doSetWorkspace_selected keeps_doSetRequest_selected)
    (fun _ _ h => h.congr (store_congr rfl rfl rfl rfl) rfl)

/-- The session after lines, each of which may fail. -/
def Session.afterLines (s : Session) (lines : List String) : Session :=
  lines.foldl (fun s line => stateAfter (doLine line) s) s

theorem Session.Selected.afterLines (lines : List String) {s : Session} (h : s.Selected) :
    (s.afterLines lines).Selected := by
  induction lines generalizing s with
  | nil => exact h
  | cons line lines ih => exact ih ((keeps_doLine_selected line).stateAfter s h)

/-! ## Failures for want of a request -/

/-- A failure that is something else than that a request does not exist. -/
def Failure.NotMissing (e : Failure) : Prop := ∀ name, e ≠ .refused (.requestNotFound name)

/-- What fails on the way does not fail for want of a request. -/
theorem Failure.Late.notMissing {e : Failure} (h : e.Late) : e.NotMissing := by
  rintro name rfl
  exact h

theorem Fails.notMissing {σ α : Type} {act : EStateM Failure σ α} (h : Fails Failure.Late act) :
    Fails Failure.NotMissing act :=
  h.mono fun _ => Failure.Late.notMissing

section
open Failure
variable {α : Type}

/-- A request that is there is found. -/
theorem failsFrom_requireRequest {s : Store} {name : String} (h : s.hasRequest name = true) :
    FailsFrom NotMissing (requireRequest name) s := by
  refine ends_requireRequest.2 ?_
  obtain ⟨row, hrow⟩ := Option.isSome_iff_exists.1 h
  rw [hrow]
  exact nofun

theorem failsFrom_assignOption {s : Store} {request : String} (h : s.hasRequest request = true)
    (name : String) (values : List String) :
    FailsFrom NotMissing (assignOption request name values) s :=
  (failsFrom_requireRequest h).bind fun _ => (fails_tryEdit _).notMissing

theorem failsFrom_createExtraction {s : Store} {request : String}
    (h : s.hasRequest request = true) (source path target : String) :
    FailsFrom NotMissing (createExtraction request source path target) s := by
  unfold createExtraction
  cases checkSource source with
  | error fault => exact .throw_bind nofun
  | ok _ => exact (failsFrom_requireRequest h).bind fun _ => (fails_tryEdit _).notMissing

/-- A run is refused if there is no request, or if an environment or values are missing. -/
theorem planRun_eq_error {s : Store} {name : String} {env : Option String} {refusal : Refusal}
    (h : planRun s name env = .error refusal) :
    (refusal = .requestNotFound name ∧ s.hasRequest name = false) ∨
      refusal = .invalidInput .environmentNeeded ∨
      ∃ request names, refusal = .missingValues request names := by
  cases hrow : s.request? name with
  | none =>
    rw [planRun, hrow] at h
    obtain rfl := Except.error.inj h
    exact .inl ⟨rfl, by rw [Store.hasRequest, hrow]; rfl⟩
  | some row =>
    simp only [planRun, hrow, expandRequest] at h
    split at h
    · obtain rfl := Except.error.inj h
      exact .inr (.inl rfl)
    · split at h
      · cases h
      · obtain rfl := Except.error.inj h
        exact .inr (.inr ⟨_, _, rfl⟩)

theorem failsFrom_runStored {b : Bench} {name : String} (h : b.store.hasRequest name = true)
    (env : Option String) : FailsFrom NotMissing (runStored name env) b := by
  refine ends_bind.2 (ends_get.2 ?_)
  dsimp only
  cases hplan : planRun b.store name env with
  | error refusal =>
    obtain ⟨-, habsent⟩ | rfl | ⟨_, _, rfl⟩ := planRun_eq_error hplan
    · rw [h] at habsent
      exact nomatch habsent
    · exact Fails.throw nofun b
    · exact Fails.throw nofun b
  | ok plan => exact (fails_runPlanned name (env.getD "") plan.1 plan.2).notMissing b

variable {s : Session} {name : String}

/-- An action finds the request of a name if it would find it on every bench that has it. -/
theorem failsFrom_onBench {act : BenchAction α} (hname : s.store.hasRequest name = true)
    (h : ∀ b : Bench, b.store.hasRequest name = true → FailsFrom NotMissing act b) :
    FailsFrom NotMissing (onBench act) s := by
  have hopen := keeps_openCurrent (P := Change.KeepsRequests) s
  refine ends_bind.2 ((hopen.and (fails_openCurrent.notMissing s)).mono fun r s' hr => ?_)
  cases r with
  | error e =>
    rintro _ ⟨⟩
    exact hr.2 e rfl
  | ok _ => exact ends_onOpened.2 (h _ (hr.1.hasRequest hname))

theorem failsFrom_onRows {act : StoreAction α} (hname : s.store.hasRequest name = true)
    (h : ∀ t : Store, t.hasRequest name = true → FailsFrom NotMissing act t) :
    FailsFrom NotMissing (onRows act) s :=
  failsFrom_onBench hname fun b hb => ends_onStore.2 (h b.store hb)

theorem failsFrom_selected {command : String} {f : String → Action α} (hs : s.Selected)
    (h : ∀ name, s.store.hasRequest name = true → FailsFrom NotMissing (f name) s) :
    FailsFrom NotMissing (selectedRequest command >>= f) s := by
  refine ends_bind.2 (ends_bind.2 (ends_get.2 ?_))
  dsimp only
  cases hrequest : s.request with
  | none => exact ends_throw.2 nofun
  | some name => exact ends_pure.2 (h name (hs name hrequest))

/-! ### Commands about the selected request -/

theorem failsFrom_doInfo (hs : s.Selected) : FailsFrom NotMissing doInfo s :=
  failsFrom_selected hs fun _ hname =>
    (failsFrom_onRows hname fun _ => failsFrom_requireRequest).bind fun _ =>
      ((fails_askRows _).bind fun _ =>
        (fails_askRows _).bind fun _ => fails_showEvents _).notMissing

theorem failsFrom_doSetOption (hs : s.Selected) (name : String) (values : List String) :
    FailsFrom NotMissing (doSetOption name values) s := by
  refine failsFrom_selected hs fun _ hname =>
    (failsFrom_onRows hname fun _ h => failsFrom_assignOption h name values).bind fun o => ?_
  split <;> exact (fails_showEvents _).notMissing

theorem failsFrom_doExtract (hs : s.Selected) (source path target : String) :
    FailsFrom NotMissing (doExtract source path target) s := by
  refine failsFrom_selected hs fun request hname => FailsFrom.bind ?_ fun _ =>
    (fails_showEvents _).notMissing
  unfold Current.createExtraction Current.onRowsAfter
  cases checkSource source with
  | error fault => exact .throw_bind nofun
  | ok _ => exact failsFrom_onRows hname fun _ h => failsFrom_createExtraction h source path target

theorem failsFrom_doRun (hs : s.Selected) {name : Option String}
    (hnone : name.filter (fun n => !n.isEmpty) = none) (quiet : Bool) :
    FailsFrom NotMissing (doRun name quiet) s := by
  unfold doRun
  rw [hnone]
  refine failsFrom_selected hs fun _ hname => ends_bind.2 (ends_get.2 ?_)
  exact (failsFrom_onBench hname fun _ h => failsFrom_runStored h _).bind fun _ =>
    ((Fails.forM fun x _ => fails_present x quiet).bind fun _ => fails_showEvents _).notMissing

end

/-- Whether a command is about the selected request; a run is if no request is named. -/
def Command.usesSelection : Command → Bool
  | .info => true
  | .extract .. => true
  | .setOption .. => true
  | .run name _ => (name.filter fun n => !n.isEmpty).isNone
  | _ => false

/-- A command that is about the selected request finds it. -/
theorem failsFrom_execute {c : Command} (hc : c.usesSelection = true) {s : Session}
    (hs : s.Selected) : FailsFrom Failure.NotMissing (execute c) s := by
  have hthen {act : Action Unit} (h : FailsFrom Failure.NotMissing act s) :
      FailsFrom Failure.NotMissing (do act; return c != .exit) s :=
    h.bind fun _ => .pure _
  cases c with
  | info => exact hthen (failsFrom_doInfo hs)
  | extract source path target => exact hthen (failsFrom_doExtract hs source path target)
  | setOption name values => exact hthen (failsFrom_doSetOption hs name values)
  | run name quiet => exact hthen (failsFrom_doRun hs (Option.isNone_iff_eq_none.1 hc) quiet)
  | _ => exact absurd hc Bool.false_ne_true

theorem failsFrom_dispatch {line : String} {c : Command} (hline : Command.ofLine line = .ok (some c))
    (hc : c.usesSelection = true) {s : Session} (hs : s.Selected) :
    FailsFrom Failure.NotMissing (dispatch line) s := by
  unfold dispatch
  rw [hline]
  exact (failsFrom_execute hc hs).bind fun _ => .pure _

/-- **The selected request exists.** A session begins with no request selected, whatever is on
disk and in its workspaces. After any lines, each of which may have failed, the selected
request is one of the requests in the workspace that is then current. A line that is about
the selected request does not fail because there is no such request. -/
theorem selected_request_exists {s : Session} (h : s.request = none) (lines : List String) :
    (∀ name, (s.afterLines lines).request = some name →
      ∃ r ∈ (s.afterLines lines).store.requests, r.name = name) ∧
    ∀ line c, Command.ofLine line = .ok (some c) → c.usesSelection = true → ∀ name s',
      dispatch line (s.afterLines lines) ≠ .error (.refused (.requestNotFound name)) s' := by
  have hselected : (s.afterLines lines).Selected := (Selected.of_none h).afterLines lines
  refine ⟨fun name hname => hasRequest_iff.1 (hselected name hname), ?_⟩
  intro line c hline hc name s' hfailure
  exact (failsFrom_dispatch hline hc hselected).failure hfailure name rfl

/-- A request is stored and selected, a switch to another workspace is refused, and the request
is still there to be shown. -/
theorem selected_request_exists_shown :
    let s := Session.afterLines {}
      ["create request ping http://h/", "set request ping", "set workspace .hidden"]
    s.request = some "ping" ∧ (∃ r ∈ s.store.requests, r.name = "ping") ∧
      Command.ofLine "info" = .ok (some .info) ∧
      ∀ name s', dispatch "info" s ≠ .error (.refused (.requestNotFound name)) s' := by
  intro s
  have hrequest : s.request = some "ping" := by decide +kernel
  have hinfo : Command.ofLine "info" = .ok (some .info) := by decide +kernel
  obtain ⟨hexists, hfound⟩ := selected_request_exists (s := {}) rfl
    ["create request ping http://h/", "set request ping", "set workspace .hidden"]
  exact ⟨hrequest, hexists "ping" hrequest, hinfo, hfound "info" .info hinfo rfl⟩

end Courier
