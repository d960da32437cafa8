/-
Courier.Proofs.Session.Setting — the value of an option stays what it was set to.

Setting an option puts a row under its name (`assignOption_eq_ok`). What is found there changes
only by three kinds of changes: the request is deleted, this option of it is set, or the options
of this name are deleted. `Operation.touches` says which operations are to do this, and for a line
that depends on the request that is selected. All of them do it in the current workspace only, so
that a value stays while no such operation is done in its workspace (`option?_run`).
-/
import Courier.Proofs.Session.Permanence

namespace Courier

open Courier.Text Courier.Store Session

/-! ## Rows of options -/

namespace Store

variable {s s' : Store} {request name : String} {row : RequestOption}

/-- A row is found under its key from when it is put there. -/
theorem find?_putRow_self (rows : List RequestOption) (row : RequestOption) :
    (putRow RequestOption.tableKey row rows).find?
      (fun o => o.request = row.request && o.name = row.name) = some row := by
  induction rows with
  | nil => simp [putRow]
  | cons r rows ih =>
    rw [putRow]
    split
    next => simp
    next =>
      split
      next => simp
      next hne =>
        have hother : ¬ (r.request = row.request ∧ r.name = row.name) := fun h =>
          hne (Prod.ext h.1 h.2).symm
        rw [List.find?_cons_of_neg (by simpa using hother), ih]

/-- A row under another key is not seen. -/
theorem option?_putRow_of_ne (hne : row.tableKey ≠ (request, name)) :
    { s with options := putRow RequestOption.tableKey row s.options }.option? request name =
      s.option? request name := by
  rw [option?, option?, ← List.head?_filter, ← List.head?_filter, filter_putRow fun o hkey => ?_]
  rw [← Bool.not_eq_true, Bool.and_eq_true, decide_eq_true_eq, decide_eq_true_eq]
  exact fun h => hne (hkey.symm.trans (Prod.ext h.1 h.2))

/-- Rows under other keys may be deleted. -/
theorem option?_filter {p : RequestOption → Bool}
    (hp : ∀ o : RequestOption, o.request = request → o.name = name → p o = true) :
    { s with options := s.options.filter p }.option? request name = s.option? request name := by
  rw [option?, option?, List.find?_filter]
  congr 1
  funext o
  by_cases hrequest : o.request = request
  · by_cases hname : o.name = name
    · simp [hp o hrequest hname]
    · simp [hname]
  · simp [hrequest]

/-- Whether a change leaves an option of a request alone. -/
def Change.LeavesOption (request name : String) (c : Change) : Prop :=
  c ≠ .dropRequest request ∧ (∀ value, c ≠ .setOption request name value) ∧
    c ≠ .deleteOptions name none ∧ c ≠ .deleteOptions name (some request)

theorem option?_apply {c : Change} (hc : c.LeavesOption request name)
    (happly : Change.apply s c = .ok s') (h : s.option? request name = some row) :
    s'.option? request name = some row := by
  obtain ⟨hdrop, hset, hall, hown⟩ := hc
  cases c with
  | insertRequest r =>
    obtain ⟨_, hinsert⟩ := eq_ok_of_map_snd happly
    obtain ⟨-, -, rfl⟩ := insertRequest_eq_ok.1 hinsert
    exact h
  | dropRequest other =>
    obtain rfl := Except.ok.inj happly
    have hne : other ≠ request := fun heq => hdrop (heq ▸ rfl)
    refine (option?_filter fun o hrequest _ => ?_).trans h
    simpa [hrequest] using hne.symm
  | putVariable => exact Except.ok.inj happly ▸ h
  | deleteVariables => exact Except.ok.inj happly ▸ h
  | declareOption owner other =>
    obtain ⟨-, ⟨-, rfl⟩ | ⟨hnone, rfl⟩⟩ := declareOption_eq_ok.1 happly
    · exact h
    · -- an option that is there is not declared again
      refine (option?_putRow_of_ne ?_).trans h
      rintro ⟨⟩
      exact nomatch hnone.symm.trans h
  | setOption owner other value =>
    obtain ⟨_, hedit⟩ := eq_ok_of_map_snd happly
    obtain ⟨-, rfl, rfl⟩ := setOption_eq_ok.1 hedit
    refine (option?_putRow_of_ne ?_).trans h
    rintro ⟨⟩
    exact hset value rfl
  | deleteOptions other owner =>
    obtain rfl := Except.ok.inj happly
    refine (option?_filter fun o hrequest hname => ?_).trans h
    by_cases hother : other = name
    · cases owner with
      | none => exact absurd (hother ▸ rfl) hall
      | some owner =>
        have hne : owner ≠ request := fun heq => hown (by rw [hother, heq])
        simp [hrequest, hne]
    · simp [hname, Ne.symm hother]
  | putExtraction e =>
    obtain ⟨_, hput⟩ := eq_ok_of_map_snd happly
    obtain ⟨-, -, -, rfl⟩ := putExtraction_eq_ok.1 hput
    exact h
  | recordResponse r =>
    obtain ⟨_, hrecord⟩ := eq_ok_of_map_snd happly
    obtain ⟨-, -, rfl⟩ := recordResponse_eq_ok.1 hrecord
    exact h
  | forgetResponses => exact Except.ok.inj happly ▸ h

theorem Changes.option? {P : Change → Prop} (h : Changes P s s')
    (hP : ∀ c, P c → c.LeavesOption request name) (hrow : s.option? request name = some row) :
    s'.option? request name = some row := by
  induction h with
  | refl => exact hrow
  | tail _ hlast ih =>
    obtain ⟨c, hc, happly⟩ := hlast
    exact option?_apply (hP c hc) happly ih

end Store

/-! ## Setting -/

/-- The row of an option that was set, and nothing else is changed. -/
theorem assignOption_eq_ok {request name : String} {values : List String} {s s' : Store}
    {row : RequestOption} (h : assignOption request name values s = .ok row s') :
    row = ⟨request, name, storedValue values⟩ ∧ (s.request? request).isSome = true ∧
      s'.option? request name = some row := by
  have hends : Ends (assignOption request name values) s fun result s' => ∀ row, result = .ok row →
      row = ⟨request, name, storedValue values⟩ ∧ (s.request? request).isSome = true ∧
        s'.option? request name = some row := by
    refine ends_bind.2 (ends_requireRequest.2 ?_)
    cases s.request? request with
    | none => exact nofun
    | some r =>
      refine ends_tryEdit.2 ?_
      split
      · exact nofun
      · split
        next o t hedit =>
          rintro _ ⟨⟩
          obtain ⟨-, rfl, rfl⟩ := setOption_eq_ok.1 hedit
          exact ⟨rfl, rfl, find?_putRow_self s.options ⟨request, name, storedValue values⟩⟩
        next => exact nofun
  exact hends.of_eq_ok h row rfl

/-! ## A run -/

/-- Whether an operation is to delete a request, or to set or delete an option of it, while a
request is selected. -/
def Operation.touches (request name : String) (selected : Option String) (op : Operation) : Bool :=
  op.deletes request || op.sets request name selected || op.clears none name selected ||
    op.clears (some request) name selected

/-- Whether a run leaves an option of a request alone. In the workspace of its shelf no operation
touches it, and the storage is not closed unless the rows on the shelf outlast that. -/
def Session.leavesOption (request name : String) (shelf : Shelf) : Session → List Operation → Bool
  | _, [] => true
  | s, op :: ops =>
    !(s.shelf? = some shelf && op.touches request name s.request) &&
      (shelf.lasts || !op.closes) &&
      leavesOption request name shelf (stateAfter op.perform s) ops

section
variable {request name : String} {shelf : Shelf} {s : Session} {row : RequestOption}

/-- What does not touch an option leaves it alone. -/
theorem ends_perform_leavesOption {op : Operation} (hclose : op ≠ .close) :
    Ends op.perform s fun _ s' => s.ChangesHere
      (fun c => op.touches request name s.request = false → c.LeavesOption request name) s' := by
  have hparts (h : op.touches request name s.request = false) :
      ((op.deletes request = false ∧ op.sets request name s.request = false) ∧
        op.clears none name s.request = false) ∧
        op.clears (some request) name s.request = false := by
    simpa [Operation.touches] using h
  refine ends_perform_changesHere hclose ?_ ?_ ?_ ?_
  · intro c hrequests hoptions _
    exact ⟨hrequests request, hoptions.1 request name, hoptions.2 name none,
      hoptions.2 name (some request)⟩
  · intro other hdeletes hun
    refine ⟨?_, nofun, nofun, nofun⟩
    rintro ⟨⟩
    exact absurd (hdeletes.symm.trans (hparts hun).1.1.1) (by decide)
  · intro owner other value hsets hun
    refine ⟨nofun, ?_, nofun, nofun⟩
    rintro _ ⟨⟩
    exact absurd (hsets.symm.trans (hparts hun).1.1.2) (by decide)
  · intro owner other hclears hun
    refine ⟨nofun, nofun, ?_, ?_⟩
    · rintro ⟨⟩
      exact absurd (hclears.symm.trans (hparts hun).1.2) (by decide)
    · rintro ⟨⟩
      exact absurd (hclears.symm.trans (hparts hun).2) (by decide)

/-- An option on a shelf is the same after an operation that does not touch it there. -/
theorem option?_perform {op : Operation} (hrow : (s.rowsAt shelf).option? request name = some row)
    (hlasts : shelf.lasts = true ∨ op.closes = false)
    (htouches : s.shelf? = some shelf → op.touches request name s.request = false) :
    ((stateAfter op.perform s).rowsAt shelf).option? request name = some row := by
  by_cases hclose : op = .close
  · subst hclose
    change (s.closed.rowsAt shelf).option? request name = some row
    rw [rowsAt_closed, if_pos (hlasts.resolve_right nofun)]
    exact hrow
  · have hkept : ∀ c : Change, (s.shelf? = some shelf ∧ (op.touches request name s.request = false →
        c.LeavesOption request name)) → c.LeavesOption request name :=
      fun c hc => hc.2 (htouches hc.1)
    exact ((ends_perform_leavesOption hclose).stateAfter shelf).option? hkept hrow

/-- An option on a shelf is the same after any operations that leave it alone. -/
theorem option?_run {ops : List Operation}
    (hrow : (s.rowsAt shelf).option? request name = some row)
    (h : s.leavesOption request name shelf ops = true) :
    ((Operation.run ops s).rowsAt shelf).option? request name = some row := by
  induction ops generalizing s with
  | nil => exact hrow
  | cons op ops ih =>
    rw [Session.leavesOption, Bool.and_eq_true, Bool.and_eq_true] at h
    obtain ⟨⟨htouches, hlasts⟩, hrest⟩ := h
    refine ih (option?_perform hrow ?_ fun hhere => ?_) hrest
    · simpa using hlasts
    · simpa [hhere] using htouches

end

end Courier
