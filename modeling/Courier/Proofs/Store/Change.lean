/-
Courier.Proofs.Store.Change — what operations may do to a store.

Whatever an operation does to the rows of a store is a sequence of changes, each of one
kind (`Change`). `Changes P s s'` says that the store `s` becomes `s'` by changes of which
`P` holds. For each operation there is a lemma that names its changes, whether it succeeds or
fails on its way; what is true of each change is then true of the operation (`Changes.lift`),
and no proof opens the operation again.
-/
import Courier.Proofs.Effect
import Courier.Run
import Courier.Store.Options
import Courier.Store.Requests
import Courier.Store.Variables
import Mathlib.Logic.Relation

namespace Courier

open Courier.Text Courier.Http Courier.Store

namespace Store

/-! ## What the rules ask for -/

theorem insertRequest_eq_ok {s s' : Store} {r row : Request} :
    s.insertRequest r = .ok (row, s') ↔ s.hasRequest r.name = false ∧
      row = { r with headers := storedLines r.headers } ∧
      s' = { s with requests := putRow Request.tableKey row s.requests } := by
  unfold insertRequest
  cases s.hasRequest r.name with
  | true => simp
  | false =>
    simp only [Bool.false_eq_true, if_false, Except.ok.injEq, Prod.mk.injEq, true_and]
    constructor <;> (rintro ⟨rfl, rfl⟩; exact ⟨rfl, rfl⟩)

theorem declareOption_eq_ok {s s' : Store} {request name : String} :
    s.declareOption request name = .ok s' ↔ s.hasRequest request = true ∧
      ((s.option? request name).isSome = true ∧ s' = s ∨
        s.option? request name = none ∧ s' = { s with
          options := putRow RequestOption.tableKey ⟨request, name, none⟩ s.options }) := by
  unfold declareOption
  cases s.hasRequest request with
  | false => simp
  | true => cases s.option? request name <;> simp [eq_comm]

theorem setOption_eq_ok {s s' : Store} {request name : String} {value : Option String}
    {row : RequestOption} :
    s.setOption request name value = .ok (row, s') ↔ s.hasRequest request = true ∧
      row = ⟨request, name, value⟩ ∧
      s' = { s with options := putRow RequestOption.tableKey row s.options } := by
  unfold setOption
  cases s.hasRequest request with
  | false => simp
  | true =>
    simp only [Bool.not_true, Bool.false_eq_true, if_false, Except.ok.injEq, Prod.mk.injEq,
      true_and]
    constructor <;> (rintro ⟨rfl, rfl⟩; exact ⟨rfl, rfl⟩)

theorem putExtraction_eq_ok {s s' : Store} {e row : Extraction} :
    s.putExtraction e = .ok (row, s') ↔ Grammar.extractionSources.contains e.source = true ∧
      s.hasRequest e.request = true ∧ row = e ∧
      s' = { s with extractions := putRow Extraction.tableKey row s.extractions } := by
  unfold putExtraction
  cases Grammar.extractionSources.contains e.source with
  | false => simp
  | true =>
    cases s.hasRequest e.request with
    | false => simp
    | true =>
      simp only [Bool.not_true, Bool.false_eq_true, if_false, Except.ok.injEq, Prod.mk.injEq,
        true_and]
      constructor <;> (rintro ⟨rfl, rfl⟩; exact ⟨rfl, rfl⟩)

theorem recordResponse_eq_ok {s s' : Store} {r row : Response} :
    s.recordResponse r = .ok (row, s') ↔ s.hasRequest r.request = true ∧
      row = { r with
        id := (s.lastResponse + 1 : Nat)
        requestHeaders := storedLines r.requestHeaders
        headers := storedLines r.headers } ∧
      s' = { s with responses := s.responses ++ [row], lastResponse := s.lastResponse + 1 } := by
  unfold recordResponse
  cases s.hasRequest r.request with
  | false => simp
  | true =>
    simp only [Bool.not_true, Bool.false_eq_true, if_false, Except.ok.injEq, Prod.mk.injEq,
      true_and]
    constructor <;> (rintro ⟨rfl, rfl⟩; exact ⟨rfl, rfl⟩)

/-! ## Changes -/

theorem eq_ok_of_map_snd {α : Type} {r : Except Constraint (α × Store)} {s : Store}
    (h : r.map Prod.snd = .ok s) : ∃ a, r = .ok (a, s) := by
  cases r with
  | error broken => simp [Except.map] at h
  | ok result =>
    simp only [Except.map, Except.ok.injEq] at h
    exact ⟨result.1, by rw [← h]⟩

/-- One change of the rows of a store. -/
inductive Change where
  | insertRequest (r : Request)
  | dropRequest (name : String)
  | putVariable (name env : String) (value source : Option String)
  | deleteVariables (doomed : Variable → Bool)
  | declareOption (request name : String)
  | setOption (request name : String) (value : Option String)
  | deleteOptions (name : String) (request : Option String)
  | putExtraction (e : Extraction)
  | recordResponse (r : Response)
  | forgetResponses (request : String)

/-- Whether a change deletes no request. -/
def Change.KeepsRequests (c : Change) : Prop := ∀ name, c ≠ .dropRequest name

/-- The store after a change, unless a rule forbids it. -/
def Change.apply (s : Store) : Change → Except Constraint Store
  | .insertRequest r => (s.insertRequest r).map Prod.snd
  | .dropRequest name => .ok (s.dropRequest name)
  | .putVariable name env value source => .ok (s.putVariable name env value source).2
  | .deleteVariables doomed => .ok (s.deleteVariablesBy doomed).2
  | .declareOption request name => s.declareOption request name
  | .setOption request name value => (s.setOption request name value).map Prod.snd
  | .deleteOptions name request => .ok (s.deleteOptionsNamed name request).2
  | .putExtraction e => (s.putExtraction e).map Prod.snd
  | .recordResponse r => (s.recordResponse r).map Prod.snd
  | .forgetResponses request => .ok (s.forgetResponses request).2

/-- A store becomes another one by changes of these kinds. -/
def Changes (P : Change → Prop) : Store → Store → Prop :=
  Relation.ReflTransGen fun s s' => ∃ c, P c ∧ Change.apply s c = .ok s'

section
variable {P : Change → Prop}

instance : Std.Refl (Changes P) where
  refl _ := .refl

instance : IsTrans Store (Changes P) where
  trans _ _ _ h h' := Relation.ReflTransGen.trans h h'

theorem Changes.single {s s' : Store} {c : Change} (hc : P c) (h : Change.apply s c = .ok s') :
    Changes P s s' :=
  Relation.ReflTransGen.single ⟨c, hc, h⟩

theorem Changes.mono {P' : Change → Prop} {s s' : Store} (h : Changes P s s')
    (hP : ∀ c, P c → P' c) : Changes P' s s' :=
  Relation.ReflTransGen.mono (fun _ _ ⟨c, hc, happly⟩ => ⟨c, hP c hc, happly⟩) _ _ h

/-- What each change keeps, all of them keep. -/
theorem Changes.lift {R : Store → Store → Prop} [Std.Refl R] [IsTrans Store R] {s s' : Store}
    (h : Changes P s s') (hR : ∀ s c s', P c → Change.apply s c = .ok s' → R s s') : R s s' := by
  induction h with
  | refl => exact Std.Refl.refl s
  | tail _ hlast ih =>
    obtain ⟨c, hc, happly⟩ := hlast
    exact IsTrans.trans _ _ _ ih (hR _ c _ hc happly)

/-- No change says whether the next one can be made. -/
theorem Change.readOnly_of_apply {s s' : Store} {c : Change} (h : Change.apply s c = .ok s') :
    s'.readOnly = s.readOnly := by
  cases c with
  | insertRequest r =>
    obtain ⟨row, hinsert⟩ := eq_ok_of_map_snd h
    obtain ⟨-, -, rfl⟩ := insertRequest_eq_ok.1 hinsert
    rfl
  | declareOption request name =>
    obtain ⟨-, ⟨-, rfl⟩ | ⟨-, rfl⟩⟩ := declareOption_eq_ok.1 h
    · rfl
    · rfl
  | setOption request name value =>
    obtain ⟨row, hset⟩ := eq_ok_of_map_snd h
    obtain ⟨-, -, rfl⟩ := setOption_eq_ok.1 hset
    rfl
  | putExtraction e =>
    obtain ⟨row, hput⟩ := eq_ok_of_map_snd h
    obtain ⟨-, -, -, rfl⟩ := putExtraction_eq_ok.1 hput
    rfl
  | recordResponse r =>
    obtain ⟨row, hrecord⟩ := eq_ok_of_map_snd h
    obtain ⟨-, -, rfl⟩ := recordResponse_eq_ok.1 hrecord
    rfl
  | _ =>
    cases h
    rfl

theorem Changes.readOnly_eq {s s' : Store} (h : Changes P s s') : s'.readOnly = s.readOnly := by
  induction h with
  | refl => rfl
  | tail _ hlast ih =>
    obtain ⟨c, -, happly⟩ := hlast
    exact (c.readOnly_of_apply happly).trans ih

/-! ## Several rows -/

theorem changes_deleteRequests (s : Store) {names : List String}
    (h : ∀ name ∈ names, P (.dropRequest name)) : Changes P s (s.deleteRequests names).2 := by
  induction names generalizing s with
  | nil => exact Std.Refl.refl s
  | cons name names ih =>
    obtain ⟨hname, hnames⟩ := List.forall_mem_cons.1 h
    rw [Store.deleteRequests]
    split
    · exact IsTrans.trans _ _ _ (.single hname rfl) (ih _ hnames)
    · exact ih s hnames

theorem changes_setVariable (s : Store) {name source : String} {values : List (String × String)}
    (h : ∀ x ∈ values, P (.putVariable name x.1 (some x.2) (some source))) :
    Changes P s (s.setVariable name source values).2 := by
  induction values generalizing s with
  | nil => exact Std.Refl.refl s
  | cons value values ih =>
    obtain ⟨hvalue, hvalues⟩ := List.forall_mem_cons.1 h
    exact IsTrans.trans _ _ _ (.single hvalue rfl) (ih _ hvalues)

theorem changes_deleteOptions (s : Store) {request : Option String} {names : List String}
    (h : ∀ name ∈ names, P (.deleteOptions name request)) :
    Changes P s (s.deleteOptions request names).2 := by
  induction names generalizing s with
  | nil => exact Std.Refl.refl s
  | cons name names ih =>
    obtain ⟨hname, hnames⟩ := List.forall_mem_cons.1 h
    exact IsTrans.trans _ _ _ (.single hname rfl) (ih _ hnames)

end

end Store

/-! ## Operations on a store -/

section
variable {α : Type} {R : Store → Store → Prop}

theorem keeps_requireWritable [Std.Refl R] [IsTrans Store R] :
    Keeps R StoreAction.requireWritable := by
  refine Keeps.get.bind fun s => ?_
  split
  · exact .throw _
  · exact .pure ()

theorem keeps_edit [Std.Refl R] [IsTrans Store R] {change : Store → α × Store}
    (h : ∀ s, R s (change s).2) : Keeps R (StoreAction.edit change) :=
  keeps_requireWritable.bind fun _ => .modifyGet h

theorem ends_edit {change : Store → α × Store} {s : Store}
    {Q : Except Failure α → Store → Prop} :
    Ends (StoreAction.edit change) s Q ↔
      if s.readOnly then Q (.error (.storage .readOnly)) s else Q (.ok (change s).1) (change s).2 := by
  refine ends_bind.trans (ends_bind.trans (ends_get.trans ?_))
  dsimp only
  split
  · exact ends_throw
  · exact ends_pure.trans ends_modifyGet

theorem keeps_tryEdit [Std.Refl R] [IsTrans Store R]
    {change : Store → Except Constraint (α × Store)}
    (h : ∀ s a s', change s = .ok (a, s') → R s s') : Keeps R (StoreAction.tryEdit change) := by
  refine keeps_requireWritable.bind fun _ => Keeps.get_bind fun s => ?_
  cases hchange : change s with
  | error broken => exact Keeps.throw _ s
  | ok r => exact ends_bind.2 (ends_set.2 (ends_pure.2 (h s r.1 r.2 hchange)))

theorem ends_tryEdit {change : Store → Except Constraint (α × Store)} {s : Store}
    {Q : Except Failure α → Store → Prop} :
    Ends (StoreAction.tryEdit change) s Q ↔
      if s.readOnly then Q (.error (.storage .readOnly)) s
      else match change s with
        | .ok (a, s') => Q (.ok a) s'
        | .error broken => Q (.error (.constraint broken)) s := by
  refine ends_bind.trans (ends_bind.trans (ends_get.trans ?_))
  dsimp only
  split
  · exact ends_throw
  · refine ends_pure.trans (ends_bind.trans (ends_get.trans ?_))
    dsimp only
    cases change s with
    | error broken => exact ends_throw
    | ok r => exact ends_bind.trans (ends_set.trans ends_pure)

theorem keeps_ofExcept [Std.Refl R] (r : Except Failure α) : Keeps R (StoreAction.ofExcept r) := by
  cases r with
  | ok a => exact .pure a
  | error e => exact .throw e

theorem keeps_requireRequest [Std.Refl R] [IsTrans Store R] (name : String) :
    Keeps R (requireRequest name) := by
  refine Keeps.get.bind fun s => ?_
  cases s.request? name with
  | some r => exact .pure r
  | none => exact .throw _

theorem ends_requireRequest {name : String} {s : Store}
    {Q : Except Failure Request → Store → Prop} :
    Ends (requireRequest name) s Q ↔
      match s.request? name with
      | some r => Q (.ok r) s
      | none => Q (.error (.refused (.requestNotFound name))) s := by
  refine ends_bind.trans (ends_get.trans ?_)
  dsimp only
  cases s.request? name with
  | some r => exact ends_pure
  | none => exact ends_throw

theorem keeps_checkPattern [Std.Refl R] [IsTrans Store R] (pattern : String) :
    Keeps R (checkPattern pattern) := by
  refine Keeps.get.bind fun s => ?_
  split
  · exact .throw _
  · exact .pure ()

theorem keeps_findRequests [Std.Refl R] [IsTrans Store R] (pattern : String) :
    Keeps R (findRequests pattern) :=
  (keeps_checkPattern pattern).bind fun _ => Keeps.get.bind fun _ => .pure _

theorem keeps_recordedResponses [Std.Refl R] [IsTrans Store R] (name : String) :
    Keeps R (recordedResponses name) :=
  (keeps_requireRequest name).bind fun _ => Keeps.get.bind fun _ => .pure _

end

section
variable {P : Change → Prop}

theorem keeps_declareOption {request name : String} (h : P (.declareOption request name)) :
    Keeps (Changes P)
      (StoreAction.tryEdit fun s => (s.declareOption request name).map ((), ·)) := by
  refine keeps_tryEdit fun s a s' hedit => .single h ?_
  rw [Change.apply]
  cases hdeclare : s.declareOption request name with
  | error broken => simp [hdeclare, Except.map] at hedit
  | ok t =>
    simp only [hdeclare, Except.map, Except.ok.injEq, Prod.mk.injEq] at hedit
    rw [hedit.2]

theorem keeps_declareOptions {request : String} {names : List String}
    (h : ∀ name ∈ names, P (.declareOption request name)) :
    Keeps (Changes P) (declareOptions request names) := by
  induction names with
  | nil => exact .pure ()
  | cons name names ih =>
    obtain ⟨hname, hnames⟩ := List.forall_mem_cons.1 h
    exact (keeps_declareOption hname).bind fun _ => ih hnames

/-- A new request is stored before its options are. -/
theorem keeps_createRequest {disk : Disk} {d : Draft} (hrequest : ∀ r, P (.insertRequest r))
    (hoption : ∀ request name, P (.declareOption request name)) :
    Keeps (Changes P) (createRequest disk d) := by
  refine (keeps_ofExcept _).bind fun r => keeps_requireWritable.bind fun _ =>
    Keeps.get_bind fun s => ?_
  cases hinsert : s.insertRequest r with
  | error broken => exact Keeps.throw _ s
  | ok created =>
    refine ends_bind.2 (ends_set.2 ?_)
    have hstored : Changes P s created.2 := .single (hrequest r) (by rw [Change.apply, hinsert]; rfl)
    have hoptions : Keeps (Changes P) (do
        declareOptions created.1.name created.1.placeholders
        return created.1) :=
      (keeps_declareOptions fun name _ => hoption _ name).bind fun _ => .pure _
    exact (hoptions created.2).mono fun _ s' h => IsTrans.trans s _ s' hstored h

theorem keeps_deleteRequests {names : List String} (h : ∀ name ∈ names, P (.dropRequest name)) :
    Keeps (Changes P) (StoreAction.edit fun s => s.deleteRequests names) :=
  keeps_edit fun s => changes_deleteRequests s h

theorem keeps_deleteRequest {name : String} (h : P (.dropRequest name)) :
    Keeps (Changes P) (deleteRequest name) := by
  refine (keeps_deleteRequests (by simpa using h)).bind fun r => ?_
  split
  · exact .throw _
  · exact .pure ()

theorem keeps_insertRequest {r : Request} (h : P (.insertRequest r)) :
    Keeps (Changes P) (StoreAction.tryEdit fun s => s.insertRequest r) :=
  keeps_tryEdit fun s _ _ hedit => .single h (by rw [Change.apply, hedit]; rfl)

theorem keeps_putVariable {name env : String} {value source : Option String}
    (h : P (.putVariable name env value source)) :
    Keeps (Changes P) (StoreAction.edit fun s => s.putVariable name env value source) :=
  keeps_edit fun _ => .single h rfl

theorem keeps_createVariable {name source : String} {pairs : List String}
    (h : ∀ checked, checkVariable name pairs = .ok checked →
      ∀ x ∈ checked.2, P (.putVariable checked.1 x.1 (some x.2) (some source))) :
    Keeps (Changes P) (createVariable name pairs source) := by
  unfold createVariable
  cases hcheck : checkVariable name pairs with
  | error fault => exact .throw _
  | ok checked => exact keeps_edit fun s => changes_setVariable s (h checked hcheck)

theorem keeps_deleteVariablesNamed {name : String} {env : Option String}
    (h : ∀ doomed, P (.deleteVariables doomed)) :
    Keeps (Changes P) (StoreAction.edit fun s => s.deleteVariablesNamed name env) :=
  keeps_edit fun _ => .single (h _) rfl

theorem keeps_deleteVariableNumbered {id : Int} (h : ∀ doomed, P (.deleteVariables doomed)) :
    Keeps (Changes P) (deleteVariableNumbered id) := by
  unfold deleteVariableNumbered
  split
  · exact keeps_edit fun _ => .single (h _) rfl
  · exact .throw _

theorem keeps_deleteVariableItem {env : Option String} {item : String}
    (h : ∀ doomed, P (.deleteVariables doomed)) :
    Keeps (Changes P) (deleteVariableItem env item) := by
  have hnumber : Keeps (Changes P) (deleteVariableAsNumber item) := by
    unfold deleteVariableAsNumber
    split
    · exact .pure 0
    · exact keeps_deleteVariableNumbered h
    · exact .throw _
  refine hnumber.bind fun count => ?_
  split
  · exact keeps_deleteVariablesNamed h
  · exact .pure _

theorem keeps_deleteVariables {env : Option String} {items : List String}
    (h : ∀ doomed, P (.deleteVariables doomed)) :
    Keeps (Changes P) (deleteVariables env items) := by
  induction items with
  | nil => exact .pure _
  | cons item items ih =>
    exact (keeps_deleteVariableItem h).bind fun _ => ih.bind fun _ => .pure _

theorem keeps_deleteVariable {id : Int} (h : ∀ doomed, P (.deleteVariables doomed)) :
    Keeps (Changes P) (deleteVariable id) := by
  refine (keeps_deleteVariableNumbered h).bind fun count => ?_
  split
  · exact .throw _
  · exact .pure ()

theorem keeps_setOption {request name : String} {value : Option String}
    (h : P (.setOption request name value)) :
    Keeps (Changes P) (StoreAction.tryEdit fun s => s.setOption request name value) :=
  keeps_tryEdit fun s _ _ hedit => .single h (by rw [Change.apply, hedit]; rfl)

theorem keeps_assignOption {request name : String} {values : List String}
    (h : P (.setOption request name (storedValue values))) :
    Keeps (Changes P) (assignOption request name values) :=
  (keeps_requireRequest request).bind fun _ => keeps_setOption h

theorem keeps_deleteOptions {request : Option String} {names : List String}
    (h : ∀ name ∈ names, P (.deleteOptions name request)) :
    Keeps (Changes P) (StoreAction.edit fun s => s.deleteOptions request names) :=
  keeps_edit fun s => changes_deleteOptions s h

theorem keeps_deleteOptionsNamed {name : String} {request : Option String}
    (h : P (.deleteOptions name request)) :
    Keeps (Changes P) (StoreAction.edit fun s => s.deleteOptionsNamed name request) :=
  keeps_edit fun _ => .single h rfl

theorem keeps_putExtraction {e : Extraction} (h : P (.putExtraction e)) :
    Keeps (Changes P) (StoreAction.tryEdit fun s => s.putExtraction e) :=
  keeps_tryEdit fun s _ _ hedit => .single h (by rw [Change.apply, hedit]; rfl)

theorem keeps_createExtraction {request source path target : String}
    (h : P (.putExtraction { request, target, source, path })) :
    Keeps (Changes P) (createExtraction request source path target) :=
  (keeps_ofExcept _).bind fun _ => (keeps_requireRequest request).bind fun _ =>
    keeps_putExtraction h

theorem keeps_recordResponse {r : Response} (h : P (.recordResponse r)) :
    Keeps (Changes P) (recordResponse r) := by
  unfold recordResponse
  split
  · exact keeps_tryEdit fun s _ _ hedit => .single h (by rw [Change.apply, hedit]; rfl)
  · exact .throw _

theorem keeps_forgetResponses {request : String} (h : P (.forgetResponses request)) :
    Keeps (Changes P) (StoreAction.edit fun s => s.forgetResponses request) :=
  keeps_edit fun _ => .single h rfl

theorem keeps_applyExtractions {name env : String} {x : Exchange} {es : List Extraction}
    (h : ∀ e ∈ es, ∀ value, P (.putVariable e.target env (some value) (some name))) :
    Keeps (Changes P) (applyExtractions name env x es) := by
  induction es with
  | nil => exact .pure _
  | cons e es ih =>
    obtain ⟨he, hes⟩ := List.forall_mem_cons.1 h
    have hone : Keeps (Changes P) (applyExtraction name env x e) := by
      unfold applyExtraction
      split
      · exact .throw _
      · exact .pure _
      · split
        · exact .throw _
        · exact (keeps_putVariable (he _)).bind fun _ => .pure _
    refine hone.bind fun outcome => (ih hes).bind fun _ => ?_
    cases outcome <;> exact .pure _

end

/-! ## A run -/

/-- A plan is made of a stored request and of what it stands for. -/
theorem planRun_eq_ok {s : Store} {name : String} {env : Option String} {es : List Extraction}
    {prepared : List PreparedRequest} (h : planRun s name env = .ok (es, prepared)) :
    ∃ r, s.request? name = some r ∧ es = s.extractionsOf name ∧ (es ≠ [] → env ≠ none) ∧
      expandRequest s r env = .ok prepared := by
  unfold planRun at h
  cases hr : s.request? name with
  | none =>
    rw [hr] at h
    exact nomatch h
  | some r =>
    simp only [hr] at h
    refine ⟨r, rfl, ?_⟩
    split at h
    · exact nomatch h
    next henv =>
      cases hexpand : expandRequest s r env with
      | error refusal => simp [hexpand, bind, Except.bind] at h
      | ok ps =>
        simp [hexpand, bind, Except.bind, pure, Except.pure] at h
        obtain ⟨rfl, rfl⟩ := h
        exact ⟨rfl, by simpa using henv, rfl⟩

/-- The store of a bench becomes that of another one by changes of these kinds. -/
def Bench.Changes (P : Change → Prop) (b b' : Bench) : Prop := Store.Changes P b.store b'.store

section
variable {P : Change → Prop}

instance : Std.Refl (Bench.Changes P) where
  refl b := Std.Refl.refl b.store

instance : IsTrans Bench (Bench.Changes P) where
  trans _ _ _ h h' := IsTrans.trans (r := Store.Changes P) _ _ _ h h'

theorem ends_onStore {α : Type} {act : StoreAction α} {b : Bench}
    {Q : Except Failure α → Bench → Prop} :
    Ends (onStore act) b Q ↔ Ends act b.store fun r s => Q r { b with store := s } := by
  unfold Ends onStore
  cases act b.store <;> rfl

theorem keeps_onStore {α : Type} {act : StoreAction α} (h : Keeps (Store.Changes P) act) :
    Keeps (Bench.Changes P) (onStore act) :=
  fun b => ends_onStore.2 (h b.store)

theorem keeps_sendPrepared (name : String) (p : PreparedRequest) :
    Keeps (Bench.Changes P) (sendPrepared name p) := by
  have hsend (b : Bench) : Bench.Changes P b { b with wire := (b.wire.send p).2 } :=
    Relation.ReflTransGen.refl
  refine Keeps.get.bind fun _ => (Keeps.modifyGet hsend).bind fun reply => ?_
  cases reply with
  | unreachable reason => exact .throw _
  | answer status reason headers text => exact .pure _

/-- Sending saves what is found in variables and records the exchanges. -/
theorem keeps_runAll {name env : String} {es : List Extraction} {ps : List PreparedRequest}
    (hvariable : ∀ e ∈ es, ∀ value, P (.putVariable e.target env (some value) (some name)))
    (hrecord : ∀ r, r.request = name → P (.recordResponse r)) :
    Keeps (Bench.Changes P) (runAll name env es ps) := by
  have hone (p : PreparedRequest) : Keeps (Bench.Changes P) (runOne name env es p) :=
    (keeps_sendPrepared name p).bind fun _ =>
      (keeps_onStore (keeps_applyExtractions hvariable)).bind fun _ =>
        (keeps_onStore (keeps_recordResponse (hrecord _ rfl))).bind fun _ => .pure _
  induction ps with
  | nil => exact .pure _
  | cons p ps ih => exact (hone p).bind fun _ => ih.bind fun _ => .pure _

/-- A run saves what the extractions of its request take, in the environment that it is given. -/
theorem ends_runStored_changes {name : String} {env : Option String} {b : Bench}
    (hvariable : ∀ e ∈ b.store.extractionsOf name, ∀ env' ∈ env, ∀ value,
      P (.putVariable e.target env' (some value) (some name)))
    (hrecord : ∀ r, r.request = name → P (.recordResponse r)) (hforget : P (.forgetResponses name)) :
    Ends (runStored name env) b fun _ b' => Bench.Changes P b b' := by
  refine ends_bind.2 (ends_get.2 ?_)
  dsimp only
  cases hplan : planRun b.store name env with
  | error refusal => exact Keeps.throw _ b
  | ok plan =>
    obtain ⟨r, -, hes, henv, -⟩ := planRun_eq_ok hplan
    have hsaved : ∀ e ∈ plan.1, ∀ value,
        P (.putVariable e.target (env.getD "") (some value) (some name)) := by
      intro e he
      obtain ⟨env', rfl⟩ := Option.ne_none_iff_exists'.1 (henv (List.ne_nil_of_mem he))
      exact hvariable e (hes ▸ he) env' rfl
    exact ((keeps_onStore (keeps_forgetResponses hforget)).bind fun _ =>
      keeps_runAll hsaved hrecord) b

theorem keeps_runStored {name : String} {env : Option String}
    (hvariable : ∀ target env value, P (.putVariable target env (some value) (some name)))
    (hrecord : ∀ r, r.request = name → P (.recordResponse r)) (hforget : P (.forgetResponses name)) :
    Keeps (Bench.Changes P) (runStored name env) :=
  fun _ => ends_runStored_changes (fun _ _ _ _ _ => hvariable _ _ _) hrecord hforget

end

end Courier
