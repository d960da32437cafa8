/-
Courier.Proofs.Store.Rules — the rules that the rows of a store obey.

`Store.Lawful` says the rules: names and keys are unique, what belongs to a request has its
request, and no two variables or responses have the same number. `Store.Follows` compares a
store with a later one: what has a number that was used before was there before.

Both come from `Store.Sound`, which says more, so that each operation keeps it: the tables
are ordered, and no number is greater than the last one used. `Store.Upholds` is what an
operation does that keeps the rules, and it holds of every operation, whatever came before.
-/
import Courier.Proofs.Store.Change
import Courier.Proofs.Store.Table

namespace Courier.Store

/-! ## Lookups -/

theorem hasRequest_iff {s : Store} {name : String} :
    s.hasRequest name = true ↔ ∃ r ∈ s.requests, r.name = name := by
  simp [hasRequest, request?, List.find?_isSome]

theorem request?_eq_some {s : Store} {name : String} {r : Request} (h : s.request? name = some r) :
    r ∈ s.requests ∧ r.name = name :=
  ⟨List.mem_of_find?_eq_some h, by simpa using List.find?_some h⟩

theorem variableAt?_eq_some {s : Store} {name env : String} {v : Variable}
    (h : s.variableAt? name env = some v) : v ∈ s.vars ∧ v.tableKey = (name, env) := by
  have hkey := List.find?_some h
  rw [Bool.and_eq_true, decide_eq_true_eq, decide_eq_true_eq] at hkey
  exact ⟨List.mem_of_find?_eq_some h, Prod.ext hkey.1 hkey.2⟩

/-! ## The rules -/

/-- The rules that the rows of a store obey. -/
structure Lawful (s : Store) : Prop where
  /-- Request names are unique. -/
  requests : (s.requests.map Request.name).Nodup
  /-- A variable has one row for each environment. -/
  vars : (s.vars.map fun v => (v.name, v.env)).Nodup
  /-- A request has one row for each option. -/
  options : (s.options.map fun o => (o.request, o.name)).Nodup
  /-- A request has one extraction for each variable. -/
  extractions : (s.extractions.map fun e => (e.request, e.target)).Nodup
  /-- Options, extractions and responses belong to a request. -/
  optionOwner : ∀ o ∈ s.options, ∃ r ∈ s.requests, r.name = o.request
  extractionOwner : ∀ e ∈ s.extractions, ∃ r ∈ s.requests, r.name = e.request
  responseOwner : ∀ x ∈ s.responses, ∃ r ∈ s.requests, r.name = x.request
  /-- No two variables have the same number. -/
  variableIds : (s.vars.map Variable.id).Nodup
  /-- No two responses have the same number. -/
  responseIds : (s.responses.map Response.id).Nodup

/-- Why the rules are obeyed. -/
structure Sound (s : Store) : Prop where
  requests : Ordered Request.tableKey s.requests
  vars : Ordered Variable.tableKey s.vars
  options : Ordered RequestOption.tableKey s.options
  extractions : Ordered Extraction.tableKey s.extractions
  optionOwner : ∀ o ∈ s.options, s.hasRequest o.request = true
  extractionOwner : ∀ e ∈ s.extractions, s.hasRequest e.request = true
  responseOwner : ∀ x ∈ s.responses, s.hasRequest x.request = true
  variableId : ∀ v ∈ s.vars, ∀ w ∈ s.vars, v.id = w.id → v = w
  variableBound : ∀ v ∈ s.vars, v.id ≤ s.lastVariable
  responseOrder : s.responses.Pairwise fun x y => x.id < y.id
  responseBound : ∀ x ∈ s.responses, x.id ≤ s.lastResponse

theorem Sound.lawful {s : Store} (h : s.Sound) : s.Lawful where
  requests := by
    have hkeys := h.requests.nodup
    rw [show Request.tableKey = (fun name => (name, "")) ∘ Request.name from rfl,
      ← List.map_map] at hkeys
    exact hkeys.of_map
  vars := h.vars.nodup
  options := h.options.nodup
  extractions := h.extractions.nodup
  optionOwner := fun o ho => hasRequest_iff.1 (h.optionOwner o ho)
  extractionOwner := fun e he => hasRequest_iff.1 (h.extractionOwner e he)
  responseOwner := fun x hx => hasRequest_iff.1 (h.responseOwner x hx)
  variableIds := List.Nodup.map_on h.variableId h.vars.nodup.of_map
  responseIds := List.Pairwise.map Response.id (fun _ _ => Int.ne_of_lt) h.responseOrder

theorem Sound.empty : ({} : Store).Sound where
  requests := .nil
  vars := .nil
  options := .nil
  extractions := .nil
  optionOwner := by simp
  extractionOwner := by simp
  responseOwner := by simp
  variableId := by simp
  variableBound := by simp
  responseOrder := .nil
  responseBound := by simp

/-! ## Numbers -/

/-- How a store compares with a later one. A number that was used before is not given to a
new row: the variable that has it was there, perhaps with another value, and the response too. -/
structure Follows (s s' : Store) : Prop where
  vars : ∀ v' ∈ s'.vars, v'.id ≤ s.lastVariable →
    ∃ v ∈ s.vars, v.id = v'.id ∧ v.tableKey = v'.tableKey
  responses : ∀ x ∈ s'.responses, x.id ≤ s.lastResponse → x ∈ s.responses
  lastVariable : s.lastVariable ≤ s'.lastVariable
  lastResponse : s.lastResponse ≤ s'.lastResponse

theorem Follows.refl (s : Store) : s.Follows s where
  vars := fun v hv _ => ⟨v, hv, rfl, rfl⟩
  responses := fun _ hx _ => hx
  lastVariable := Nat.le_refl _
  lastResponse := Nat.le_refl _

theorem Follows.trans {s t u : Store} (hst : s.Follows t) (htu : t.Follows u) : s.Follows u where
  vars := by
    intro w hw hle
    obtain ⟨v, hv, hid, hkey⟩ := htu.vars w hw (hle.trans hst.lastVariable)
    obtain ⟨v', hv', hid', hkey'⟩ := hst.vars v hv (hid ▸ hle)
    exact ⟨v', hv', hid'.trans hid, hkey'.trans hkey⟩
  responses := by
    intro x hx hle
    have hlast : x.id ≤ t.lastResponse := hle.trans (Int.ofNat_le.2 hst.lastResponse)
    exact hst.responses x (htu.responses x hx hlast) hle
  lastVariable := hst.lastVariable.trans htu.lastVariable
  lastResponse := hst.lastResponse.trans htu.lastResponse

/-- What an operation does that keeps the rules. -/
structure Upholds (s s' : Store) : Prop where
  sound : s.Sound → s'.Sound
  follows : s.Follows s'

instance : Std.Refl Upholds where
  refl s := ⟨id, .refl s⟩

instance : IsTrans Store Upholds where
  trans _ _ _ hst htu := ⟨htu.sound ∘ hst.sound, hst.follows.trans htu.follows⟩

/-! ## Deleting -/

/-- Deleting rows that nothing belongs to keeps the rules. -/
theorem Upholds.of_sublist {s : Store} {vars : List Variable} {options : List RequestOption}
    {extractions : List Extraction} {responses : List Response} (hvars : vars.Sublist s.vars)
    (hoptions : options.Sublist s.options) (hextractions : extractions.Sublist s.extractions)
    (hresponses : responses.Sublist s.responses) :
    s.Upholds { s with vars, options, extractions, responses } where
  sound := fun hs =>
    { requests := hs.requests
      vars := hs.vars.sublist hvars
      options := hs.options.sublist hoptions
      extractions := hs.extractions.sublist hextractions
      optionOwner := fun o ho => hs.optionOwner o (hoptions.mem ho)
      extractionOwner := fun e he => hs.extractionOwner e (hextractions.mem he)
      responseOwner := fun x hx => hs.responseOwner x (hresponses.mem hx)
      variableId := fun v hv w hw => hs.variableId v (hvars.mem hv) w (hvars.mem hw)
      variableBound := fun v hv => hs.variableBound v (hvars.mem hv)
      responseOrder := hs.responseOrder.sublist hresponses
      responseBound := fun x hx => hs.responseBound x (hresponses.mem hx) }
  follows :=
    { vars := fun v hv _ => ⟨v, hvars.mem hv, rfl, rfl⟩
      responses := fun _ hx _ => hresponses.mem hx
      lastVariable := Nat.le_refl _
      lastResponse := Nat.le_refl _ }

theorem upholds_deleteVariablesBy (s : Store) (doomed : Variable → Bool) :
    s.Upholds (s.deleteVariablesBy doomed).2 :=
  .of_sublist List.filter_sublist (.refl _) (.refl _) (.refl _)

theorem upholds_deleteOptionsNamed (s : Store) (name : String) (request : Option String) :
    s.Upholds (s.deleteOptionsNamed name request).2 :=
  .of_sublist (.refl _) List.filter_sublist (.refl _) (.refl _)

theorem upholds_forgetResponses (s : Store) (request : String) :
    s.Upholds (s.forgetResponses request).2 :=
  .of_sublist (.refl _) (.refl _) (.refl _) List.filter_sublist

theorem request?_dropRequest (s : Store) (name other : String) :
    (s.dropRequest name).request? other = if other = name then none else s.request? other := by
  rw [request?, request?, dropRequest, List.find?_filter]
  split
  next heq =>
    refine List.find?_eq_none.2 fun r _ => ?_
    simp [heq]
  next hne =>
    congr 1
    funext r
    by_cases hr : r.name = other <;> simp [hr, hne]

theorem hasRequest_dropRequest {s : Store} {name other : String} :
    (s.dropRequest name).hasRequest other = true ↔ s.hasRequest other = true ∧ other ≠ name := by
  rw [hasRequest, request?_dropRequest]
  split
  next heq => simp [heq]
  next hne => simp [hasRequest, hne]

/-- A request is deleted with all that belongs to it. -/
theorem upholds_dropRequest (s : Store) (name : String) : s.Upholds (s.dropRequest name) where
  sound := by
    intro hs
    -- What is left belongs to another request, which is left too.
    have howner {α : Type} {rows : List α} {owner : α → String}
        (h : ∀ x ∈ rows, s.hasRequest (owner x) = true) :
        ∀ x ∈ rows.filter (fun x => owner x ≠ name),
          (s.dropRequest name).hasRequest (owner x) = true := by
      intro x hx
      rw [List.mem_filter, decide_eq_true_eq] at hx
      exact hasRequest_dropRequest.2 ⟨h x hx.1, hx.2⟩
    exact
      { requests := hs.requests.filter _
        vars := hs.vars
        options := hs.options.filter _
        extractions := hs.extractions.filter _
        optionOwner := howner hs.optionOwner
        extractionOwner := howner hs.extractionOwner
        responseOwner := howner hs.responseOwner
        variableId := hs.variableId
        variableBound := hs.variableBound
        responseOrder := hs.responseOrder.filter _
        responseBound := fun x hx => hs.responseBound x (List.mem_of_mem_filter hx) }
  follows :=
    { vars := fun v hv _ => ⟨v, hv, rfl, rfl⟩
      responses := fun _ hx _ => List.mem_of_mem_filter hx
      lastVariable := Nat.le_refl _
      lastResponse := Nat.le_refl _ }

/-! ## Storing -/

/-- An operation that puts no variable or response anywhere gives no number away. -/
theorem Follows.of_eq {s s' : Store} (hvars : s'.vars = s.vars)
    (hresponses : s'.responses = s.responses) (hvariable : s'.lastVariable = s.lastVariable)
    (hresponse : s'.lastResponse = s.lastResponse) : s.Follows s' where
  vars := fun v hv _ => ⟨v, hvars ▸ hv, rfl, rfl⟩
  responses := fun _ hx _ => hresponses ▸ hx
  lastVariable := hvariable.ge
  lastResponse := hresponse.ge

/-- A new request takes no other's place. -/
theorem request?_insertRequest {s s' : Store} {r row : Request}
    (h : s.insertRequest r = .ok (row, s')) {name : String} {x : Request}
    (hx : s.request? name = some x) : s'.request? name = some x := by
  obtain ⟨hnew, rfl, rfl⟩ := insertRequest_eq_ok.1 h
  have hne : r.name ≠ name := by
    rintro rfl
    rw [hasRequest, hx] at hnew
    exact nomatch hnew
  rw [request?, ← List.head?_filter] at hx ⊢
  rw [filter_putRow fun y hkey => ?_, hx]
  rw [(Prod.mk.inj hkey).1]
  exact decide_eq_false hne

theorem hasRequest_insertRequest {s s' : Store} {r row : Request}
    (h : s.insertRequest r = .ok (row, s')) {name : String} (hname : s.hasRequest name = true) :
    s'.hasRequest name = true := by
  obtain ⟨x, hx⟩ := Option.isSome_iff_exists.1 hname
  exact Option.isSome_iff_exists.2 ⟨x, request?_insertRequest h hx⟩

theorem upholds_insertRequest {s s' : Store} {r row : Request}
    (h : s.insertRequest r = .ok (row, s')) : s.Upholds s' := by
  have hkept (name : String) := @hasRequest_insertRequest s s' r row h name
  obtain ⟨-, -, rfl⟩ := insertRequest_eq_ok.1 h
  refine ⟨fun hs => ?_, .of_eq rfl rfl rfl rfl⟩
  exact
    { hs with
      requests := hs.requests.putRow row
      optionOwner := fun o ho => hkept _ (hs.optionOwner o ho)
      extractionOwner := fun e he => hkept _ (hs.extractionOwner e he)
      responseOwner := fun x hx => hkept _ (hs.responseOwner x hx) }

/-- A variable keeps its number, or gets one that was never used. -/
theorem upholds_putVariable (s : Store) (name env : String) (value source : Option String) :
    s.Upholds (s.putVariable name env value source).2 := by
  obtain ⟨row, hrow⟩ : ∃ row, row = (s.putVariable name env value source).1 := ⟨_, rfl⟩
  have hkey : row.tableKey = (name, env) := by rw [hrow]; rfl
  have hvars : (s.putVariable name env value source).2.vars
      = putRow Variable.tableKey row s.vars := by rw [hrow]; rfl
  -- The number is that of the row that is there, or the next one.
  have hid : (∃ v ∈ s.vars, v.tableKey = row.tableKey ∧ v.id = row.id) ∨
      row.id = s.lastVariable + 1 := by
    rw [hkey, hrow]
    simp only [putVariable]
    cases hfound : s.variableAt? name env with
    | none => exact .inr rfl
    | some v =>
      obtain ⟨hv, hvkey⟩ := variableAt?_eq_some hfound
      exact .inl ⟨v, hv, hvkey, rfl⟩
  constructor
  · intro hs
    have hbound : row.id ≤ s.lastVariable + 1 := by
      rcases hid with ⟨v, hv, -, hvid⟩ | hid
      · rw [← hvid]
        exact Nat.le_succ_of_le (hs.variableBound v hv)
      · exact hid.le
    have hother (v : Variable) (hv : v ∈ s.vars) (hne : v.tableKey ≠ row.tableKey) :
        v.id ≠ row.id := by
      intro hsame
      rcases hid with ⟨w, hw, hwkey, hwid⟩ | hid
      · exact hne (hs.variableId v hv w hw (hsame.trans hwid.symm) ▸ hwkey)
      · have := hs.variableBound v hv
        omega
    refine { hs with vars := ?_, variableId := ?_, variableBound := ?_ }
    · rw [hvars]
      exact hs.vars.putRow row
    · intro v hv w hw hsame
      rw [hvars, mem_putRow_iff hs.vars] at hv hw
      rcases hv with rfl | ⟨hv, hvne⟩ <;> rcases hw with rfl | ⟨hw, hwne⟩
      · rfl
      · exact absurd hsame.symm (hother w hw hwne)
      · exact absurd hsame (hother v hv hvne)
      · exact hs.variableId v hv w hw hsame
    · intro v hv
      rw [hvars] at hv
      rcases mem_of_mem_putRow hv with rfl | hv
      · exact hbound
      · exact Nat.le_succ_of_le (hs.variableBound v hv)
  · refine ⟨fun v hv hle => ?_, fun _ hx _ => hx, Nat.le_succ _, Nat.le_refl _⟩
    rw [hvars] at hv
    rcases mem_of_mem_putRow hv with rfl | hv
    · rcases hid with ⟨w, hw, hwkey, hwid⟩ | hid
      · exact ⟨w, hw, hwid, hwkey⟩
      · omega
    · exact ⟨v, hv, rfl, rfl⟩

/-- A row that belongs to a stored request may be put into the table of options. -/
theorem upholds_putOption {s : Store} {row : RequestOption} (h : s.hasRequest row.request = true) :
    s.Upholds { s with options := putRow RequestOption.tableKey row s.options } := by
  refine ⟨fun hs => ?_, .of_eq rfl rfl rfl rfl⟩
  refine { hs with options := hs.options.putRow row, optionOwner := fun o ho => ?_ }
  rcases mem_of_mem_putRow ho with rfl | ho
  · exact h
  · exact hs.optionOwner o ho

theorem upholds_declareOption {s s' : Store} {request name : String}
    (h : s.declareOption request name = .ok s') : s.Upholds s' := by
  obtain ⟨hrequest, ⟨-, rfl⟩ | ⟨-, rfl⟩⟩ := declareOption_eq_ok.1 h
  · exact Std.Refl.refl s'
  · exact upholds_putOption hrequest

theorem upholds_setOption {s s' : Store} {request name : String} {value : Option String}
    {row : RequestOption} (h : s.setOption request name value = .ok (row, s')) : s.Upholds s' := by
  obtain ⟨hrequest, rfl, rfl⟩ := setOption_eq_ok.1 h
  exact upholds_putOption hrequest

theorem upholds_putExtraction {s s' : Store} {e row : Extraction}
    (h : s.putExtraction e = .ok (row, s')) : s.Upholds s' := by
  obtain ⟨-, hrequest, rfl, rfl⟩ := putExtraction_eq_ok.1 h
  refine ⟨fun hs => ?_, .of_eq rfl rfl rfl rfl⟩
  refine { hs with extractions := hs.extractions.putRow row, extractionOwner := fun x hx => ?_ }
  rcases mem_of_mem_putRow hx with rfl | hx
  · exact hrequest
  · exact hs.extractionOwner x hx

/-- A response gets a number that was never used. -/
theorem upholds_recordResponse {s s' : Store} {r row : Response}
    (h : s.recordResponse r = .ok (row, s')) : s.Upholds s' := by
  obtain ⟨hrequest, hrow, rfl⟩ := recordResponse_eq_ok.1 h
  have howner : row.request = r.request := by rw [hrow]
  have hid : row.id = s.lastResponse + 1 := by rw [hrow]; simp
  constructor
  · intro hs
    refine { hs with responseOwner := ?_, responseOrder := ?_, responseBound := ?_ }
    · intro x hx
      rcases List.mem_append.1 hx with hx | hx
      · exact hs.responseOwner x hx
      · rw [List.mem_singleton.1 hx, howner]
        exact hrequest
    · rw [List.pairwise_append]
      refine ⟨hs.responseOrder, List.pairwise_singleton _ _, fun x hx y hy => ?_⟩
      have := hs.responseBound x hx
      rw [List.mem_singleton.1 hy]
      omega
    · intro x hx
      change x.id ≤ ((s.lastResponse + 1 : Nat) : Int)
      rcases List.mem_append.1 hx with hx | hx
      · have := hs.responseBound x hx
        omega
      · rw [List.mem_singleton.1 hx]
        omega
  · refine ⟨fun v hv _ => ⟨v, hv, rfl, rfl⟩, fun x hx hle => ?_, Nat.le_refl _, Nat.le_succ _⟩
    rcases List.mem_append.1 hx with hx | hx
    · exact hx
    · rw [List.mem_singleton.1 hx] at hle
      omega

/-! ## Changes -/

/-- Every change that a rule does not forbid keeps the rules. -/
theorem upholds_apply {s s' : Store} {c : Change} (h : Change.apply s c = .ok s') :
    s.Upholds s' := by
  cases c with
  | insertRequest r =>
    obtain ⟨row, hrow⟩ := eq_ok_of_map_snd h
    exact upholds_insertRequest hrow
  | dropRequest name => cases h; exact upholds_dropRequest s name
  | putVariable name env value source => cases h; exact upholds_putVariable s name env value source
  | deleteVariables doomed => cases h; exact upholds_deleteVariablesBy s doomed
  | declareOption request name => exact upholds_declareOption h
  | setOption request name value =>
    obtain ⟨row, hrow⟩ := eq_ok_of_map_snd h
    exact upholds_setOption hrow
  | deleteOptions name request => cases h; exact upholds_deleteOptionsNamed s name request
  | putExtraction e =>
    obtain ⟨row, hrow⟩ := eq_ok_of_map_snd h
    exact upholds_putExtraction hrow
  | recordResponse r =>
    obtain ⟨row, hrow⟩ := eq_ok_of_map_snd h
    exact upholds_recordResponse hrow
  | forgetResponses request => cases h; exact upholds_forgetResponses s request

/-- Requests come and go by their own changes only. -/
theorem requests_apply {s s' : Store} {c : Change} (h : Change.apply s c = .ok s')
    (hinsert : ∀ r, c ≠ .insertRequest r) (hdrop : ∀ name, c ≠ .dropRequest name) :
    s'.requests = s.requests := by
  cases c with
  | insertRequest r => exact absurd rfl (hinsert r)
  | dropRequest name => exact absurd rfl (hdrop name)
  | putVariable name env value source => cases h; rfl
  | deleteVariables doomed => cases h; rfl
  | declareOption request name =>
    obtain ⟨-, ⟨-, rfl⟩ | ⟨-, rfl⟩⟩ := declareOption_eq_ok.1 h <;> rfl
  | setOption request name value =>
    obtain ⟨row, hrow⟩ := eq_ok_of_map_snd h
    obtain ⟨-, -, rfl⟩ := setOption_eq_ok.1 hrow
    rfl
  | deleteOptions name request => cases h; rfl
  | putExtraction e =>
    obtain ⟨row, hrow⟩ := eq_ok_of_map_snd h
    obtain ⟨-, -, -, rfl⟩ := putExtraction_eq_ok.1 hrow
    rfl
  | recordResponse r =>
    obtain ⟨row, hrow⟩ := eq_ok_of_map_snd h
    obtain ⟨-, -, rfl⟩ := recordResponse_eq_ok.1 hrow
    rfl
  | forgetResponses request => cases h; rfl

/-- A request stays what it is until it is deleted. -/
theorem request?_apply {s s' : Store} {c : Change} {name : String} (hc : c ≠ .dropRequest name)
    (h : Change.apply s c = .ok s') {x : Request} (hx : s.request? name = some x) :
    s'.request? name = some x := by
  by_cases hinsert : ∃ r, c = .insertRequest r
  · obtain ⟨r, rfl⟩ := hinsert
    obtain ⟨row, hrow⟩ := eq_ok_of_map_snd h
    exact request?_insertRequest hrow hx
  · by_cases hdrop : ∃ other, c = .dropRequest other
    · obtain ⟨other, rfl⟩ := hdrop
      cases h
      have hne : other ≠ name := fun heq => hc (heq ▸ rfl)
      rw [request?_dropRequest, if_neg hne.symm, hx]
    · have hsame : s'.requests = s.requests :=
        requests_apply h (fun r heq => hinsert ⟨r, heq⟩) fun other heq => hdrop ⟨other, heq⟩
      rw [request?, hsame]
      exact hx

theorem Changes.request? {P : Change → Prop} {s s' : Store} (h : Changes P s s') {name : String}
    (hP : ∀ c, P c → c ≠ .dropRequest name) {x : Request} (hx : s.request? name = some x) :
    s'.request? name = some x := by
  induction h with
  | refl => exact hx
  | tail _ hlast ih =>
    obtain ⟨c, hc, happly⟩ := hlast
    exact request?_apply (hP c hc) happly ih

/-- Whatever operations do to a store, they keep the rules. -/
theorem Changes.upholds {P : Change → Prop} {s s' : Store} (h : Changes P s s') : s.Upholds s' :=
  h.lift fun _ _ _ _ happly => upholds_apply happly

end Courier.Store
