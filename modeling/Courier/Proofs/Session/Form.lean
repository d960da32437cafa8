/-
Courier.Proofs.Session.Form — what is accepted for its form is not refused for it later.

The form of a header and that of a pair are looked at twice. A line is no command if a
header or a pair in it does not have its form (`isHeader`, `isEnvValue`), and a request or
a variable is not stored if one of its own has not (`storedHeader?`, `parsePair`). The two
looks agree for every text, so that the second one never refuses what the first one let
pass: `Failure.NotMalformed` is true of every failure of a line (`notMalformed_dispatch`).

Most of what can fail fails on the way (`Failure.Late`), and that is never for a form.
The rest are the refusals of each operation, which are gone through here once.
-/
import Courier.Proofs.Grammar.Validation
import Courier.Proofs.Http.Header
import Courier.Proofs.Session.Refusal
import Courier.Proofs.Session.Switching
import Courier.Proofs.Store.Assignment

namespace Courier

open Courier.Text Courier.Http Courier.Grammar Courier.Store Courier.Screen

/-! ## Two looks at a form -/

theorem isEnvValue_iff {pair : String} : isEnvValue pair = true ↔ ¬ Unpaired pair := by
  rw [isEnvValue, cut_pair, Unpaired]
  by_cases hsign : '=' ∈ pair.toList <;> simp [hsign]

theorem exists_parsePair_iff {pair : String} :
    (∃ parsed, parsePair pair = .ok parsed) ↔ ¬ Unpaired pair := by
  rw [parsePair_eq]
  by_cases hpair : Unpaired pair <;> simp [hpair]

/-- Headers that are accepted have stored forms. -/
theorem exists_storedHeaders {headers : List String}
    (h : ∀ header ∈ headers, isHeader header = true) :
    ∃ stored, storedHeaders headers = .ok stored := by
  induction headers with
  | nil => exact ⟨[], rfl⟩
  | cons header headers ih =>
    obtain ⟨hheader, hheaders⟩ := List.forall_mem_cons.1 h
    obtain ⟨first, hfirst⟩ := isHeader_iff.1 hheader
    obtain ⟨rest, hrest⟩ := ih hheaders
    exact ⟨first :: rest, by rw [storedHeaders, hfirst, hrest]; rfl⟩

/-! ## Checks -/

/-- A failure that is not about the form of a header or of a pair. -/
def Failure.NotMalformed : Failure → Prop
  | .refused (.invalidInput (.malformedHeader _)) => False
  | .refused (.invalidInput (.malformedPair _)) => False
  | _ => True

open Failure

/-- What fails on the way does not fail for a form. -/
theorem Failure.Late.notMalformed {e : Failure} (h : e.Late) : e.NotMalformed := by
  cases e with
  | refused refusal =>
    cases refusal with
    | requestFailed request reason => trivial
    | _ => exact h.elim
  | _ => trivial

theorem Fails.notMalformed {σ α : Type} {act : EStateM Failure σ α} (h : Fails Late act) :
    Fails NotMalformed act :=
  h.mono fun _ => Late.notMalformed

/-! ### Requests -/

theorem notMalformed_expandHome (p : Path) (m : Machine) :
    Errs NotMalformed (p.expandHome m) := by
  unfold Path.expandHome
  split
  next step _ _ _ =>
    split
    · exact .ok _
    split
    · cases Path.hasNul step <;> exact .error trivial
    · exact .ok _
  · exact .ok _

theorem notMalformed_readBody (disk : Disk) (body : Option String) :
    Errs NotMalformed (readBody disk body) := by
  have hfile (path : String) : Errs NotMalformed (readBodyFile disk path) := by
    refine (notMalformed_expandHome _ _).bind fun p => .guard trivial ?_
    split
    · exact .ok _
    · exact .error trivial
  unfold readBody
  split
  · exact .ok none
  · split
    · exact (hfile _).map some
    · exact .ok _

/-- A request whose headers are accepted is not refused for their form. -/
theorem notMalformed_toRequest (disk : Disk) {d : Draft}
    (hheaders : ∀ header ∈ d.headers, isHeader header = true) :
    Errs NotMalformed (d.toRequest disk) := by
  obtain ⟨stored, hstored⟩ := exists_storedHeaders hheaders
  -- the name, the URL and the method are checked before the headers
  refine .guard trivial (.guard trivial (.guard trivial ?_))
  rw [hstored]
  exact (Errs.ok stored).bind fun _ => (notMalformed_readBody disk d.body).bind fun _ => .ok _

/-! ### Variables and extractions -/

/-- Pairs that are accepted are refused if they are for one environment, and for nothing else. -/
theorem errs_parsePairs (seen : List String) {pairs : List String}
    (hpairs : ∀ pair ∈ pairs, ¬ Unpaired pair) :
    Errs (fun fault => ∃ env, fault = .repeatedEnvironment env) (parsePairs seen pairs) := by
  induction pairs generalizing seen with
  | nil => exact .ok []
  | cons pair pairs ih =>
    obtain ⟨hpair, hpairs⟩ := List.forall_mem_cons.1 hpairs
    rw [parsePairs, parsePair_eq, if_neg hpair]
    dsimp only
    split
    · exact .error ⟨_, rfl⟩
    · exact (ih _ hpairs).map _

theorem notMalformed_checkVariable (name : String) {pairs : List String}
    (hpairs : ∀ pair ∈ pairs, isEnvValue pair = true) :
    Errs (fun fault => NotMalformed (.input fault)) (checkVariable name pairs) := by
  have hparsed : Errs (fun fault => NotMalformed (.input fault)) (parsePairs [] pairs) := by
    intro fault h
    obtain ⟨env, rfl⟩ := errs_parsePairs [] (fun pair hmem => isEnvValue_iff.1 (hpairs pair hmem))
      fault h
    trivial
  exact .guard trivial (hparsed.bind fun _ => .guard trivial (.ok _))

theorem notMalformed_checkSource (source : String) :
    Errs (fun fault => NotMalformed (.input fault)) (checkSource source) := by
  unfold checkSource
  split
  · exact .ok ()
  · exact .error trivial

/-! ## Operations on rows -/

section
variable {α β : Type}

theorem notMalformed_ofExcept {result : Except Failure α} (h : Errs NotMalformed result) :
    Fails NotMalformed (StoreAction.ofExcept result) := by
  cases result with
  | ok a => exact .pure a
  | error e => exact .throw (h e rfl)

theorem notMalformed_requireRequest (name : String) :
    Fails NotMalformed (requireRequest name) := by
  refine Fails.get.bind fun s => ?_
  cases s.request? name with
  | some r => exact .pure r
  | none => exact .throw trivial

theorem notMalformed_createRequest (disk : Disk) {d : Draft}
    (hheaders : ∀ header ∈ d.headers, isHeader header = true) :
    Fails NotMalformed (createRequest disk d) := by
  refine (notMalformed_ofExcept (notMalformed_toRequest disk hheaders)).bind fun r =>
    fails_requireWritable.notMalformed.bind fun _ => Fails.get.bind fun s => ?_
  cases s.insertRequest r with
  | error broken => exact .throw trivial
  | ok created => exact (fails_storeRequest created.2 created.1).notMalformed

theorem notMalformed_createVariable {name : String} {pairs : List String} (source : String)
    (hpairs : ∀ pair ∈ pairs, isEnvValue pair = true) :
    Fails NotMalformed (createVariable name pairs source) := by
  unfold createVariable
  cases hcheck : checkVariable name pairs with
  | error fault => exact .throw (notMalformed_checkVariable name hpairs fault hcheck)
  | ok checked => exact (fails_edit _).notMalformed

theorem notMalformed_assignOption (request name : String) (values : List String) :
    Fails NotMalformed (assignOption request name values) :=
  (notMalformed_requireRequest request).bind fun _ => (fails_tryEdit _).notMalformed

theorem notMalformed_createExtraction (request source path target : String) :
    Fails NotMalformed (createExtraction request source path target) :=
  (notMalformed_ofExcept (notMalformed_checkSource source).mapError).bind fun _ =>
    (notMalformed_requireRequest request).bind fun _ => (fails_tryEdit _).notMalformed

theorem notMalformed_runStored (name : String) (env : Option String) :
    Fails NotMalformed (runStored name env) := by
  refine Fails.get.bind fun b => ?_
  cases hplan : planRun b.store name env with
  | error refusal =>
    obtain ⟨rfl, -⟩ | rfl | ⟨_, _, rfl⟩ := planRun_eq_error hplan <;> exact .throw trivial
  | ok plan => exact (fails_runPlanned name (env.getD "") plan.1 plan.2).notMalformed

/-! ## In the current workspace -/

theorem notMalformed_orFail {ε : Type} {cause : ε → Failure} {result : Except ε α}
    (h : Errs (fun e => NotMalformed (cause e)) result) :
    Fails NotMalformed (orFail cause result) := by
  cases result with
  | ok a => exact .pure a
  | error e => exact .throw (h e rfl)

theorem notMalformed_onBench {act : BenchAction α} (h : Fails NotMalformed act) :
    Fails NotMalformed (onBench act) :=
  fails_openCurrent.notMalformed.bind fun _ _ => ends_onOpened.2 (h _)

theorem notMalformed_onRows {act : StoreAction α} (h : Fails NotMalformed act) :
    Fails NotMalformed (onRows act) :=
  notMalformed_onBench (fails_onStore h)

theorem notMalformed_onRowsAfter {check : Except Failure α} {act : StoreAction β}
    (hcheck : Errs NotMalformed check) (h : Fails NotMalformed act) :
    Fails NotMalformed (Current.onRowsAfter check act) :=
  (notMalformed_orFail hcheck).bind fun _ => notMalformed_onRows h

theorem notMalformed_selectedRequest (command : String) :
    Fails NotMalformed (selectedRequest command) := by
  refine Fails.get.bind fun s => ?_
  cases s.request with
  | some name => exact .pure name
  | none => exact .throw trivial

theorem notMalformed_switchWorkspace (name : String) :
    Fails NotMalformed (switchWorkspace name) := by
  refine fun s => (ends_switchWorkspace_opens s name).mono fun r _ h => ?_
  obtain ⟨-, rfl, -⟩ | ⟨-, ⟨message, rfl⟩, -⟩ := h
  · exact nofun
  · rintro _ ⟨⟩
    trivial

end

/-! ## Commands -/

theorem notMalformed_doCreateRequest {d : Draft}
    (hheaders : ∀ header ∈ d.headers, isHeader header = true) :
    Fails NotMalformed (doCreateRequest d) := by
  have hcreate : Fails NotMalformed (Current.createRequest d) :=
    Fails.get.bind fun s => notMalformed_onRowsAfter (notMalformed_toRequest s.contents hheaders)
      (notMalformed_createRequest s.contents hheaders)
  refine hcreate.bind fun r => Fails.notMalformed ?_
  refine (fails_showEvents _).bind fun _ => (fails_askRows _).bind fun os => ?_
  split
  · exact fails_showEvents _
  · exact .pure ()

theorem notMalformed_doCreateVariable {name : String} {pairs : List String}
    (hpairs : ∀ pair ∈ pairs, isEnvValue pair = true) :
    Fails NotMalformed (doCreateVariable name pairs) :=
  (notMalformed_onRowsAfter (notMalformed_checkVariable name hpairs).mapError
    (notMalformed_createVariable userSource hpairs)).bind fun _ => (fails_showEvents _).notMalformed

theorem notMalformed_doSetWorkspace (name : String) :
    Fails NotMalformed (doSetWorkspace name) :=
  (notMalformed_switchWorkspace name).bind fun _ => (Fails.modify _).bind fun _ =>
    (fails_showEvents _).notMalformed

theorem notMalformed_doSetRequest (name : Option String) :
    Fails NotMalformed (doSetRequest name) := by
  cases name with
  | none => exact (Fails.modify _).bind fun _ => (fails_showEvents _).notMalformed
  | some name =>
    exact (notMalformed_onRows (notMalformed_requireRequest name)).bind fun _ =>
      (Fails.modify _).bind fun _ => (fails_showEvents _).notMalformed

theorem notMalformed_doSetOption (name : String) (values : List String) :
    Fails NotMalformed (doSetOption name values) := by
  refine (notMalformed_selectedRequest _).bind fun request =>
    (notMalformed_onRows (notMalformed_assignOption request name values)).bind fun o => ?_
  split <;> exact (fails_showEvents _).notMalformed

theorem notMalformed_doExtract (source path target : String) :
    Fails NotMalformed (doExtract source path target) :=
  (notMalformed_selectedRequest _).bind fun request =>
    (notMalformed_onRowsAfter (notMalformed_checkSource source).mapError
      (notMalformed_createExtraction request source path target)).bind fun _ =>
        (fails_showEvents _).notMalformed

theorem notMalformed_doRun (name : Option String) (quiet : Bool) :
    Fails NotMalformed (doRun name quiet) := by
  have hrun (name : String) : Fails NotMalformed (do
      let env := (← get).environment
      let result ← onBench (runStored name env)
      result.exchanges.forM (fun x => present (exchange x quiet))
      showEvents (runEvents result)) :=
    Fails.get.bind fun s =>
      (notMalformed_onBench (notMalformed_runStored name s.environment)).bind fun _ =>
        ((Fails.forM fun x _ => fails_present x quiet).bind fun _ =>
          fails_showEvents _).notMalformed
  unfold doRun
  cases name.filter (fun n => !n.isEmpty) with
  | some name => exact (Fails.pure name).bind hrun
  | none => exact (notMalformed_selectedRequest "run").bind hrun

theorem notMalformed_doInfo : Fails NotMalformed doInfo :=
  (notMalformed_selectedRequest _).bind fun _ =>
    (notMalformed_onRows (notMalformed_requireRequest _)).bind fun _ =>
      ((fails_askRows _).bind fun _ => (fails_askRows _).bind fun _ =>
        fails_showEvents _).notMalformed

theorem notMalformed_doHelp (topic : List String) : Fails NotMalformed (doHelp topic) := by
  unfold doHelp
  split
  · exact (fails_showEvents _).notMalformed
  · dsimp only
    split
    · exact (fails_showEvents _).notMalformed
    · exact .throw trivial

/-! ## Lines -/

/-- A command whose headers and pairs are accepted is not refused for the form of one. -/
theorem notMalformed_execute {c : Command}
    (hheaders : ∀ header ∈ c.headers, isHeader header = true)
    (hpairs : ∀ pair ∈ c.pairs, isEnvValue pair = true) : Fails NotMalformed (execute c) := by
  have hthen {act : Action Unit} (h : Fails NotMalformed act) :
      Fails NotMalformed (do act; return c != .exit) :=
    h.bind fun _ => .pure _
  have hask {α : Type} (question : Store → α) (events : α → List Screen.Event) :
      Fails NotMalformed (do showEvents (events (← askRows question))) :=
    ((fails_askRows question).bind fun _ => fails_showEvents _).notMalformed
  cases c with
  | printRequests filters => exact hthen (hask _ _)
  | printVariables filters => exact hthen (Fails.get.bind fun _ => hask _ _)
  | printEnvironments => exact hthen (Fails.get.bind fun _ => hask _ _)
  | printWorkspaces =>
    have hstored : Fails NotMalformed storedWorkspaces :=
      Fails.get.bind fun _ => notMalformed_orFail fun _ _ => trivial
    exact hthen (hstored.bind fun _ => Fails.get.bind fun _ => (fails_showEvents _).notMalformed)
  | printOptions filters => exact hthen (Fails.get.bind fun _ => hask _ _)
  | createRequest name url method headers body =>
    exact hthen (notMalformed_doCreateRequest hheaders)
  | createVariable name pairs => exact hthen (notMalformed_doCreateVariable hpairs)
  | deleteRequests ns => exact hthen (fails_doDeleteRequests ns).notMalformed
  | deleteVariables ns => exact hthen (fails_doDeleteVariables ns).notMalformed
  | deleteOptions ns => exact hthen (fails_doDeleteOptions ns).notMalformed
  | setEnvironment name => exact hthen (fails_doSetEnvironment name).notMalformed
  | setWorkspace name => exact hthen (notMalformed_doSetWorkspace name)
  | setRequest name => exact hthen (notMalformed_doSetRequest name)
  | setOption name values => exact hthen (notMalformed_doSetOption name values)
  | run name quiet => exact hthen (notMalformed_doRun name quiet)
  | extract source path target => exact hthen (notMalformed_doExtract source path target)
  | info => exact hthen notMalformed_doInfo
  | help topic => exact hthen (notMalformed_doHelp topic)
  | clear => exact hthen (fails_showEvents _).notMalformed
  | exit => exact hthen (fails_showEvents _).notMalformed

/-- What parses is not refused for the form of a header or of a pair in it. -/
theorem notMalformed_dispatch (line : String) : Fails NotMalformed (dispatch line) := by
  unfold dispatch
  split
  · exact .pure _
  · exact .pure _
  next c hline =>
    obtain ⟨hheaders, hpairs⟩ := accepts_of_ofLine hline
    exact (notMalformed_execute hheaders hpairs).bind fun _ => .pure _

/-- **What is accepted for its form is not refused for it.** A text is accepted as a header
exactly if it has a stored form. A stored form is stored as it is, completion compares a header
by its stored form, and what is sent for that form is the stripped text in front of the first
colon of the header and the stripped text behind it. A text is accepted as a pair exactly if it
parses as one. So the headers and the pairs of every line that is a command have these forms,
and in no session is a line refused because one of them has not. -/
theorem accepted_forms_are_taken :
    (∀ h, isHeader h = true ↔ ∃ stored, storedHeader? h = some stored) ∧
    (∀ h stored, storedHeader? h = some stored →
      storedHeader? stored = some stored ∧ looseHeader h = stored ∧
      ∃ before after, h = before ++ ":" ++ after ∧ ':' ∉ before.toList ∧
        [stored].map headerPair = [(strip before, strip after)]) ∧
    (∀ pair, isEnvValue pair = true ↔ ∃ parsed, parsePair pair = .ok parsed) ∧
    (∀ line c, Command.ofLine line = .ok (some c) →
      (∀ header ∈ c.headers, ∃ stored, storedHeader? header = some stored) ∧
      ∀ pair ∈ c.pairs, ∃ parsed, parsePair pair = .ok parsed) ∧
    ∀ line s s' text, dispatch line s ≠ .error (.input (.malformedHeader text)) s' ∧
      dispatch line s ≠ .error (.input (.malformedPair text)) s' := by
  have hpair (pair : String) :
      isEnvValue pair = true ↔ ∃ parsed, parsePair pair = .ok parsed :=
    isEnvValue_iff.trans exists_parsePair_iff.symm
  refine ⟨fun _ => isHeader_iff, fun h stored hstored => ?_, hpair, fun line c hline => ?_,
    fun line s s' text => ?_⟩
  · obtain ⟨before, after, hwhole, hfirst, hsent⟩ := headerPair_stored hstored
    refine ⟨storedHeader?_stored hstored, looseHeader_eq hstored, before, after, hwhole, hfirst, ?_⟩
    rw [List.map_singleton, hsent]
  · obtain ⟨hheaders, hpairs⟩ := accepts_of_ofLine hline
    exact ⟨fun header hmem => isHeader_iff.1 (hheaders header hmem),
      fun pair hmem => (hpair pair).1 (hpairs pair hmem)⟩
  · have hfails := notMalformed_dispatch line s
    exact ⟨fun hrun => hfails.failure hrun, fun hrun => hfails.failure hrun⟩

/-- A time of day is a value with a colon of its own, behind a key that a blank follows. -/
theorem accepted_forms_are_taken_clock :
    let line := "create request ping http://h/ -H 'X-At :12:30 '"
    let c := Command.createRequest "ping" "http://h/" none ["X-At :12:30 "] none
    Command.ofLine line = .ok (some c) ∧ isHeader "X-At :12:30 " = true ∧
      storedHeader? "X-At :12:30 " = some "X-At: 12:30" ∧
      storedHeader? "X-At: 12:30" = some "X-At: 12:30" ∧
      looseHeader "X-At :12:30 " = "X-At: 12:30" ∧
      headerPair "X-At: 12:30" = ("X-At", "12:30") ∧
      (∀ header ∈ c.headers, ∃ stored, storedHeader? header = some stored) ∧
      ∀ s s' text, dispatch line s ≠ .error (.input (.malformedHeader text)) s' := by
  intro line c
  obtain ⟨hheader, hstored, -, hcommand, hline⟩ := accepted_forms_are_taken
  have hparses : Command.ofLine line = .ok (some c) := by decide +kernel
  have hform : storedHeader? "X-At :12:30 " = some "X-At: 12:30" := by decide +kernel
  obtain ⟨hagain, hloose, -⟩ := hstored _ _ hform
  exact ⟨hparses, (hheader _).2 ⟨_, hform⟩, hform, hagain, hloose, by decide +kernel,
    (hcommand line c hparses).1, fun s s' text => (hline line s s' text).1⟩

end Courier
