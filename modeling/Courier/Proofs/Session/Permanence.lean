/-
Courier.Proofs.Session.Permanence — a stored request stays what it is.

A request is stored in the workspace in which it is created (`createRequest_eq_ok`). What is found
there under its name changes only when it is deleted there, or when the storage is closed and the
workspace was in memory (`request?_perform`). Until then it can be read back, whatever is done, in
this workspace or in others (`stored_request_reads_back`).

What is read back is what was given, but for one thing. The headers are stored as lines of one
text, and a header may have a line break in it.
-/
import Courier.Proofs.Session.Opening
import Courier.Proofs.Session.Operation
import Courier.Proofs.Store.Lines

namespace Courier

open Courier.Text Courier.Http Courier.Store Courier.Database Session

/-! ## Creating a request -/

theorem storedHeaders_eq_ok {hs stored : List String} (h : storedHeaders hs = .ok stored) :
    hs.map storedHeader? = stored.map some := by
  induction hs generalizing stored with
  | nil =>
    cases h
    rfl
  | cons first hs ih =>
    rw [storedHeaders] at h
    cases hfirst : storedHeader? first with
    | none =>
      rw [hfirst] at h
      exact nomatch h
    | some line =>
      rw [hfirst] at h
      cases hrest : storedHeaders hs with
      | error e =>
        rw [hrest] at h
        exact nomatch h
      | ok rest =>
        rw [hrest] at h
        cases h
        rw [List.map_cons, List.map_cons, hfirst, ih hrest]

/-- The request of a draft that is in order. -/
theorem toRequest_eq_ok {disk : Disk} {d : Draft} {r : Request} (h : d.toRequest disk = .ok r) :
    ∃ stored body, d.headers.map storedHeader? = stored.map some ∧
      readBody disk d.body = .ok body ∧
      r = {
        name := strip d.name, method := chooseMethod d.method (strip d.name), url := d.url,
        headers := stored, body } := by
  unfold Draft.toRequest at h
  simp only [bind, Except.bind, pure, Except.pure, throw, throwThe, MonadExceptOf.throw] at h
  split at h
  · exact nomatch h
  · split at h
    · exact nomatch h
    · split at h
      · exact nomatch h
      · cases hstored : storedHeaders d.headers with
        | error e =>
          rw [hstored] at h
          exact nomatch h
        | ok stored =>
          cases hbody : readBody disk d.body with
          | error e =>
            rw [hstored, hbody] at h
            exact nomatch h
          | ok body =>
            rw [hstored, hbody] at h
            exact ⟨stored, body, storedHeaders_eq_ok hstored, rfl, (Except.ok.inj h).symm⟩

/-- A request that could be stored is there, and no other one of its name. -/
theorem request?_of_insertRequest {s s' : Store} {r row : Request}
    (h : s.insertRequest r = .ok (row, s')) : s'.request? row.name = some row := by
  obtain ⟨hnew, hrow, rfl⟩ := insertRequest_eq_ok.1 h
  have hname : row.name = r.name := by rw [hrow]
  have hthere : Store.hasRequest
      { s with requests := putRow Request.tableKey row s.requests } row.name = true :=
    hasRequest_iff.2 ⟨row, mem_putRow_self row s.requests, rfl⟩
  obtain ⟨x, hx⟩ := Option.isSome_iff_exists.1 hthere
  obtain ⟨hmem, hsame⟩ := request?_eq_some hx
  rcases mem_of_mem_putRow hmem with rfl | hold
  · exact hx
  · have hbefore : s.hasRequest r.name = true := hasRequest_iff.2 ⟨x, hold, hsame.trans hname⟩
    exact absurd (hnew.symm.trans hbefore) Bool.false_ne_true

/-- What is done when a request is created: it is stored, and then its options are. -/
theorem createRequest_ok_inv {disk : Disk} {d : Draft} {s s' : Store} {created : Request}
    (h : createRequest disk d s = .ok created s') :
    ∃ r t, d.toRequest disk = .ok r ∧ s.readOnly = false ∧ s.insertRequest r = .ok (created, t) ∧
      declareOptions created.name created.placeholders t = .ok () s' := by
  have hends : Ends (createRequest disk d) s fun result s' => ∀ created, result = .ok created →
      ∃ r t, d.toRequest disk = .ok r ∧ s.readOnly = false ∧
        s.insertRequest r = .ok (created, t) ∧
        declareOptions created.name created.placeholders t = .ok () s' := by
    unfold createRequest
    cases hr : d.toRequest disk with
    | error e => exact ends_bind.2 (ends_throw.2 nofun)
    | ok r =>
      refine ends_bind.2 (ends_pure.2 (ends_bind.2 (ends_bind.2 (ends_get.2 ?_))))
      dsimp only
      split
      · exact ends_throw.2 nofun
      next hwritable =>
        refine ends_pure.2 (ends_bind.2 (ends_get.2 ?_))
        dsimp only
        cases hinsert : s.insertRequest r with
        | error broken => exact ends_throw.2 nofun
        | ok stored =>
          obtain ⟨created, t⟩ := stored
          refine ends_bind.2 (ends_set.2 (ends_bind.2 ((ends_runsTo _ t).mono ?_)))
          intro r' s' hrun
          cases r' with
          | error e => exact nofun
          | ok _ =>
            refine ends_pure.2 ?_
            rintro _ ⟨⟩
            exact ⟨r, t, rfl, Bool.eq_false_of_not_eq_true hwritable, hinsert, hrun⟩
  exact hends.of_eq_ok h created rfl

/-- Afterwards it is there as it was created. -/
theorem request?_of_createRequest {disk : Disk} {d : Draft} {s s' : Store} {created : Request}
    (h : createRequest disk d s = .ok created s') : s'.request? created.name = some created := by
  obtain ⟨r, t, -, -, hinsert, hoptions⟩ := createRequest_ok_inv h
  have hkeeps : Keeps (Store.Changes Change.KeepsRequests)
      (declareOptions created.name created.placeholders) := keeps_declareOptions fun _ _ => nofun
  have hkept : Changes Change.KeepsRequests t s' := (hkeeps t).of_eq_ok hoptions
  exact hkept.request? (fun _ hc => hc created.name) (request?_of_insertRequest hinsert)

/-! ## The current workspace -/

/-- A workspace that is open has a shelf. -/
theorem ends_openCurrent_shelf (s : Session) :
    Ends openCurrent s fun r s' => r = .ok () → ∃ shelf, s'.shelf? = some shelf := by
  refine ends_bind.2 (ends_get.2 (ends_bind.2 ?_))
  unfold openNamed
  dsimp only
  split
  next hplayground =>
    refine ends_pure.2 (ends_pure.2 fun _ => ⟨.playground, ?_⟩)
    rw [Session.shelf?, inPlayground, hplayground]
    rfl
  next =>
    refine ends_bind.2 (ends_get.2 ?_)
    dsimp only
    rcases hopen : openWorkspace s.disk s.knows s.dataDir s.workspace with ⟨fault | l, disk⟩
    · refine ends_bind.2 (ends_set.2 (ends_pure.2 (ends_throw.2 ?_)))
      rintro ⟨⟩
    · refine ends_bind.2 (ends_set.2 (ends_pure.2 (ends_pure.2 fun _ => ?_)))
      have hlocation : s.location = .ok l := locationOf_eq_ok (congrArg Prod.fst hopen)
      obtain ⟨saved, htables⟩ := withTables_eq { s with disk } l.home
      have hshelf : (({ s with disk } : Session).withTables l.home).shelf? = s.shelf? := by
        refine shelf?_congr ?_ ?_ <;> rw [htables]
      rw [hshelf, Session.shelf?, hlocation]
      split <;> exact ⟨_, rfl⟩

/-- What succeeds on rows was done on those of the workspace, once that was open. -/
theorem onRows_ok_inv {α : Type} {act : StoreAction α} {s s' : Session} {a : α}
    (h : onRows act s = .ok a s') :
    ∃ s₁ shelf t, s.Worked (fun _ => False) s₁ ∧ s₁.shelf? = some shelf ∧
      act s₁.store = .ok a t ∧ s' = s₁.putBench { store := t, wire := s₁.wire } := by
  have hends : Ends (onRows act) s fun result s' => ∀ a, result = .ok a →
      ∃ s₁ shelf t, s.Worked (fun _ => False) s₁ ∧ s₁.shelf? = some shelf ∧
        act s₁.store = .ok a t ∧ s' = s₁.putBench { store := t, wire := s₁.wire } := by
    have hopen : Keeps (Worked fun _ => False) openCurrent := keeps_openCurrent
    refine ends_bind.2 (((hopen s).and (ends_openCurrent_shelf s)).mono ?_)
    rintro (e | _) s₁ ⟨hopened, hfound⟩
    · exact nofun
    · obtain ⟨shelf, hshelf⟩ := hfound rfl
      refine ends_onOpened.2 (ends_onStore.2 ((ends_runsTo _ s₁.store).mono ?_))
      rintro result t hrun _ rfl
      exact ⟨s₁, shelf, t, hopened, hshelf, hrun, rfl⟩
  exact hends.of_eq_ok h a rfl

/-- A request is created on the rows of the workspace, once that is open. -/
theorem Current.createRequest_ok_inv {d : Draft} {s s' : Session} {created : Request}
    (h : Current.createRequest d s = .ok created s') :
    ∃ s₁ shelf t, s.Worked (fun _ => False) s₁ ∧ s₁.shelf? = some shelf ∧
      Courier.createRequest s.contents d s₁.store = .ok created t ∧
      s' = s₁.putBench { store := t, wire := s₁.wire } := by
  have hends : Ends (Current.createRequest d) s fun result s' => ∀ created, result = .ok created →
      ∃ s₁ shelf t, s.Worked (fun _ => False) s₁ ∧ s₁.shelf? = some shelf ∧
        Courier.createRequest s.contents d s₁.store = .ok created t ∧
        s' = s₁.putBench { store := t, wire := s₁.wire } := by
    refine ends_bind.2 (ends_get.2 (ends_bind.2 ?_))
    cases d.toRequest s.contents with
    | error e => exact ends_throw.2 nofun
    | ok r =>
      refine ends_pure.2 ((ends_runsTo (onRows (Courier.createRequest s.contents d)) s).mono ?_)
      rintro result s' hrun created rfl
      exact onRows_ok_inv hrun
  exact hends.of_eq_ok h created rfl

/-- A request that was created is on the shelf of the current workspace. -/
theorem createRequest_eq_ok {d : Draft} {s s' : Session} {created : Request}
    (h : Current.createRequest d s = .ok created s') :
    ∃ r shelf, d.toRequest s.contents = .ok r ∧
      created = { r with headers := storedLines r.headers } ∧ s'.shelf? = some shelf ∧
      (s'.rowsAt shelf).request? created.name = some created := by
  obtain ⟨s₁, shelf, t, -, hshelf, hcreate, rfl⟩ := Current.createRequest_ok_inv h
  obtain ⟨r, _, hdraft, -, hinsert, -⟩ := createRequest_ok_inv hcreate
  have hthere : t.request? created.name = some created := request?_of_createRequest hcreate
  refine ⟨r, shelf, hdraft, (insertRequest_eq_ok.1 hinsert).2.1,
    (shelf?_putBench s₁ _).trans hshelf, ?_⟩
  rw [rowsAt_putBench, if_pos hshelf]
  exact hthere

/-! ## Deleting requests -/

/-- What an action does that deletes requests: it deletes them in its workspace, and does nothing
else to any rows. -/
def Session.Deleted (s s' : Session) : Prop :=
  s'.shelf? = s.shelf? ∧ ∀ shelf,
    Store.Changes (fun c => s.shelf? = some shelf ∧ ∃ name, c = .dropRequest name)
      (s.rowsAt shelf) (s'.rowsAt shelf)

instance : Std.Refl Session.Deleted :=
  inferInstanceAs (Std.Refl (Altered _))

instance : IsTrans Session Session.Deleted :=
  inferInstanceAs (IsTrans Session (Altered _))

theorem Session.Deleted.of_worked {s s' : Session}
    (h : s.Worked (fun c => ∃ name, c = .dropRequest name) s') : s.Deleted s' :=
  h.altered

theorem Session.Deleted.of_eq {s s' : Session} (hshelf : s'.shelf? = s.shelf?)
    (hrows : ∀ shelf, s'.rowsAt shelf = s.rowsAt shelf) : s.Deleted s' :=
  ⟨hshelf, ChangesHere.of_eq hrows⟩

theorem deleted_doDeleteRequests (ns : List String) :
    Keeps Session.Deleted (doDeleteRequests ns) :=
  altered_doDeleteRequests fun name _ => ⟨name, rfl⟩

/-- An operation that is to delete requests does nothing else to any rows. -/
theorem deleted_perform {op : Operation} {name : String} (h : op.deletes name = true) :
    Keeps Session.Deleted op.perform := by
  cases op with
  | line text =>
    rw [Operation.deletes] at h
    split at h
    next names hline =>
      refine Keeps.bind (keeps_doLine (fun c hc => ?_) fun _ _ => ?_) fun _ => .pure _
      · obtain rfl : Command.deleteRequests names = c := by
          simpa using hline.symm.trans hc
        exact (deleted_doDeleteRequests names).bind fun _ => .pure _
      · exact .of_eq (shelf?_congr rfl rfl) fun shelf => rowsAt_congr rfl rfl shelf
    next => exact absurd h Bool.false_ne_true
  | dropRequest other =>
    exact (keeps_onRows (keeps_deleteRequest ⟨other, rfl⟩)).mono fun _ _ => .of_worked
  | deleteRequests names =>
    exact ((Current.keeps_deleteRequests fun name _ => ⟨name, rfl⟩).mono fun _ _ =>
      .of_worked).bind fun _ => .pure _
  | _ => exact absurd h Bool.false_ne_true

/-- What is left after deleting was there before. -/
theorem Store.Changes.request?_of_dropped {P : Change → Prop} {s s' : Store}
    (h : Changes P s s') (hP : ∀ c, P c → ∃ name, c = .dropRequest name) {name : String}
    {x : Request} (hx : s'.request? name = some x) : s.request? name = some x := by
  induction h with
  | refl => exact hx
  | tail _ hlast ih =>
    obtain ⟨c, hc, happly⟩ := hlast
    obtain ⟨other, rfl⟩ := hP c hc
    cases happly
    rw [request?_dropRequest] at hx
    exact ih (Option.ite_none_left_eq_some.1 hx).2

/-! ## A run -/

/-- Whether an operation closes the storage. -/
def Operation.closes : Operation → Bool
  | .close => true
  | _ => false

/-- Whether a run leaves the request of a name on its shelf. It is gone from there if an operation
deletes it, or if the storage is closed and the rows on the shelf do not outlast that. -/
def Session.retains (name : String) (shelf : Shelf) : Session → List Operation → Bool
  | _, [] => true
  | s, op :: ops =>
    let s' := stateAfter op.perform s
    !(op.deletes name && s.shelf? = some shelf && !(s'.rowsAt shelf).hasRequest name) &&
      (shelf.lasts || !op.closes) && retains name shelf s' ops

section
variable {name : String} {shelf : Shelf} {s : Session} {x : Request}

/-- A request on a shelf is the same after an operation, unless that deleted it or lost the
shelf. -/
theorem request?_perform {op : Operation} (hx : (s.rowsAt shelf).request? name = some x)
    (hlasts : shelf.lasts = true ∨ op.closes = false)
    (hkept : op.deletes name = true → s.shelf? = some shelf →
      ((stateAfter op.perform s).rowsAt shelf).hasRequest name = true) :
    ((stateAfter op.perform s).rowsAt shelf).request? name = some x := by
  by_cases hclose : op = .close
  · subst hclose
    change (s.closed.rowsAt shelf).request? name = some x
    rw [rowsAt_closed, if_pos (hlasts.resolve_right nofun)]
    exact hx
  · cases hdeletes : op.deletes name with
    | false =>
      -- it may delete other requests, and may store some, but none of this name
      have hkeeps : Keeps (RowsChange fun c => c ≠ .dropRequest name) op.perform := by
        refine keeps_perform hclose (fun _ hc => hc name) ?_
        rintro other hother ⟨⟩
        exact absurd (hdeletes.symm.trans hother) Bool.false_ne_true
      exact (hkeeps.stateAfter s shelf).request? (fun _ => id) hx
    | true =>
      -- it stores nothing, so what is there after it was there before
      obtain ⟨-, hrows⟩ := (deleted_perform hdeletes).stateAfter s
      by_cases hhere : s.shelf? = some shelf
      · obtain ⟨y, hy⟩ := Option.isSome_iff_exists.1 (hkept hdeletes hhere)
        obtain rfl : x = y := Option.some.inj
          (hx.symm.trans ((hrows shelf).request?_of_dropped (fun _ hc => hc.2) hy))
        exact hy
      · exact (hrows shelf).request? (fun _ hc => absurd hc.1 hhere) hx

/-- A request on a shelf is the same after any operations that leave it there. -/
theorem request?_run {ops : List Operation} (hx : (s.rowsAt shelf).request? name = some x)
    (h : s.retains name shelf ops = true) :
    ((Operation.run ops s).rowsAt shelf).request? name = some x := by
  induction ops generalizing s with
  | nil => exact hx
  | cons op ops ih =>
    rw [Session.retains, Bool.and_eq_true, Bool.and_eq_true] at h
    obtain ⟨⟨hkept, hlasts⟩, hrest⟩ := h
    refine ih (request?_perform hx ?_ fun hdeletes hhere => ?_) hrest
    · simpa using hlasts
    · simpa [hdeletes, hhere] using hkept

/-- A request that is on the shelf of the current workspace is found. -/
theorem requireRequest_eq_ok (hx : (s.rowsAt shelf).request? name = some x)
    (hhere : s.shelf? = some shelf) : requireRequest name s.store = .ok x s.store := by
  have hfound : s.store.request? name = some x := by
    rw [← writable_store hhere] at hx
    exact hx
  refine Ends.eq_ok (ends_requireRequest.2 ?_)
  rw [hfound]
  exact ⟨rfl, rfl⟩

end

/-! ## Headers -/

theorem ne_empty_of_storedHeader? {h stored : String} (hstored : storedHeader? h = some stored) :
    stored ≠ "" := by
  unfold storedHeader? at hstored
  split at hstored
  · split at hstored
    · exact nomatch hstored
    · obtain rfl := Option.some.inj hstored
      simp [writeHeader]
  · exact nomatch hstored

/-- Headers in their stored form are read back if there is no line break in them. -/
theorem storedLines_headers_iff {hs stored : List String}
    (h : hs.map storedHeader? = stored.map some) :
    storedLines stored = stored ↔ ∀ header ∈ stored, '\n' ∉ header.toList := by
  refine storedLines_eq_self_iff.trans (forall₂_congr fun header hheader => and_iff_right ?_)
  have hmem : some header ∈ hs.map storedHeader? := by
    rw [h]
    exact List.mem_map_of_mem hheader
  obtain ⟨_, -, hstored⟩ := List.mem_map.1 hmem
  exact ne_empty_of_storedHeader? hstored

/-- **A stored request reads back.** A request that was created has the name without blanks around
it, the method in capitals or the one that its name suggests, the URL that was given, and the bytes
of the body. Its headers are the lines of the stored forms of the headers that were given, which
are these forms themselves if and only if there is no line break in them. Whatever is done
afterwards, until it is deleted in its workspace this request is there, and whenever the workspace
is current it is the one that is found under its name. -/
theorem stored_request_reads_back {d : Draft} {s s' : Session} {created : Request}
    (h : Current.createRequest d s = .ok created s') :
    ∃ stored body shelf, d.headers.map storedHeader? = stored.map some ∧
      readBody s.contents d.body = .ok body ∧
      created = {
        name := strip d.name, method := chooseMethod d.method (strip d.name), url := d.url,
        headers := storedLines stored, body } ∧
      (storedLines stored = stored ↔ ∀ header ∈ stored, '\n' ∉ header.toList) ∧
      s'.shelf? = some shelf ∧
      ∀ ops, s'.retains created.name shelf ops = true →
        let s'' := Operation.run ops s'
        (s''.rowsAt shelf).request? created.name = some created ∧
        (s''.shelf? = some shelf →
          requireRequest created.name s''.store = .ok created s''.store) := by
  obtain ⟨r, shelf, hdraft, hcreated, hshelf, hthere⟩ := createRequest_eq_ok h
  obtain ⟨stored, body, hstored, hbody, rfl⟩ := toRequest_eq_ok hdraft
  refine ⟨stored, body, shelf, hstored, hbody, hcreated, storedLines_headers_iff hstored, hshelf,
    fun ops hretains => ?_⟩
  have hkept := request?_run hthere hretains
  exact ⟨hkept, requireRequest_eq_ok hkept⟩

/-- A run of the request, another attempt to create it, a request of its name that is deleted in
another workspace, and the end of the storage. -/
def laterOperations : List Operation :=
  [.send "get-x" none, .createRequest { name := "get-x", url := "http://other/" },
    .switchWorkspace "playground", .createRequest { name := "get-x", url := "http://other/" },
    .line "delete request get-x", .close, .switchWorkspace "shop"]

theorem stored_request_reads_back_later :
    let s := Operation.run [.switchWorkspace "shop"] {}
    let d : Draft := { name := " get-x ", url := "http://h/", headers := ["A:1"], body := some "b" }
    ∃ created s', Current.createRequest d s = .ok created s' ∧
      created = ⟨"get-x", "GET", "http://h/", ["A: 1"], some [98]⟩ ∧
      let s'' := Operation.run laterOperations s'
      requireRequest "get-x" s''.store = .ok created s''.store := by
  intro s d
  have hcreates : succeedsWith (Current.createRequest d) s (fun created s' =>
      s'.shelf?.any fun shelf =>
        decide (created = ⟨"get-x", "GET", "http://h/", ["A: 1"], some [98]⟩ ∧
          s'.retains "get-x" shelf laterOperations = true ∧
          (Operation.run laterOperations s').shelf? = some shelf)) = true := by
    decide +kernel
  obtain ⟨created, s', hcreate, hlater⟩ := exists_ok_of_succeedsWith hcreates
  obtain ⟨stored, body, shelf, -, -, -, -, hshelf, hthere⟩ := stored_request_reads_back hcreate
  rw [hshelf] at hlater
  obtain ⟨rfl, hkept, hhere⟩ := of_decide_eq_true hlater
  exact ⟨_, s', hcreate, rfl, (hthere laterOperations hkept).2 hhere⟩

/-- A header has a line break in its value, and two headers are read back. -/
theorem stored_request_reads_back_broken :
    let d : Draft := { name := "get-x", url := "http://h/", headers := ["A: 1\nB: 2"] }
    ∃ created s', Current.createRequest d {} = .ok created s' ∧
      d.headers.map storedHeader? = [some "A: 1\nB: 2"] ∧ created.headers = ["A: 1", "B: 2"] ∧
      (s'.store.request? "get-x").map Request.headers = some ["A: 1", "B: 2"] := by
  intro d
  have hcreates : succeedsWith (Current.createRequest d) {} (fun created s' =>
      decide (d.headers.map storedHeader? = [some "A: 1\nB: 2"] ∧
        created.headers = ["A: 1", "B: 2"] ∧
        (s'.store.request? "get-x").map Request.headers = some ["A: 1", "B: 2"])) = true := by
    decide +kernel
  obtain ⟨created, s', hcreate, hread⟩ := exists_ok_of_succeedsWith hcreates
  exact ⟨created, s', hcreate, of_decide_eq_true hread⟩

end Courier
