/-
Courier.Proofs.Session.Creation — a new request starts clean.

Creating a request makes sure that it has its options, and would leave the value of an option
alone that is there already. That there is none rests on the rules of the store: an option, an
extraction or a response belongs to a request that is stored, and nothing of the new name was
stored (`starts_clean`). So it does not matter what was done before, and whether a request of
this name was deleted (`new_request_starts_clean`).
-/
import Courier.Proofs.Run.Expansion
import Courier.Proofs.Session.Permanence
import Courier.Proofs.Session.Refusal

namespace Courier

open Courier.Text Courier.Http Courier.Store Session

/-! ## Declaring options -/

/-- A table of options, with one without a value for each of these names. -/
def declared (request : String) (names : List String) (options : List RequestOption) :
    List RequestOption :=
  names.foldl (fun options name => putRow RequestOption.tableKey ⟨request, name, none⟩ options)
    options

section
variable {request : String} {names : List String} {options : List RequestOption}

theorem ordered_declared (h : Ordered RequestOption.tableKey options) :
    Ordered RequestOption.tableKey (declared request names options) := by
  induction names generalizing options with
  | nil => exact h
  | cons name names ih => exact ih (h.putRow _)

theorem mem_declared (h : Ordered RequestOption.tableKey options) {o : RequestOption} :
    o ∈ declared request names options ↔
      o.request = request ∧ o.name ∈ names ∧ o.value = none ∨
        o ∈ options ∧ (o.request = request → o.name ∉ names) := by
  induction names generalizing options with
  | nil => simp [declared]
  | cons name names ih =>
    let row : RequestOption := ⟨request, name, none⟩
    have hrow : o = row ↔ o.request = request ∧ o.name = name ∧ o.value = none := by
      cases o
      simp [row]
    have hkey : o.tableKey ≠ row.tableKey ↔ (o.request = request → o.name ≠ name) := by
      simp [RequestOption.tableKey, row]
    change o ∈ declared request names (putRow RequestOption.tableKey row options) ↔ _
    rw [ih (h.putRow row), mem_putRow_iff h, hrow, hkey, List.mem_cons]
    grind

/-- Where a request had no options, it has those that were declared. -/
theorem filter_declared (h : Ordered RequestOption.tableKey options)
    (hnew : ∀ o ∈ options, o.request ≠ request) (hnames : names.Pairwise (· < ·)) :
    (declared request names options).filter (fun o => o.request = request) =
      names.map fun name => ⟨request, name, none⟩ := by
  refine ((ordered_declared h).filter _).ext ?_ fun o => ?_
  · refine List.pairwise_map.2 (hnames.imp fun hlt => ?_)
    simpa [keyBefore, RequestOption.tableKey] using hlt
  · rw [List.mem_filter, mem_declared h, decide_eq_true_eq, List.mem_map]
    constructor
    · rintro ⟨⟨rfl, hname, hvalue⟩ | ⟨hold, -⟩, hrequest⟩
      · exact ⟨o.name, hname, by rw [← hvalue]⟩
      · exact absurd hrequest (hnew o hold)
    · rintro ⟨name, hname, rfl⟩
      exact ⟨.inl ⟨rfl, hname, rfl⟩, rfl⟩

/-- The options of other requests are what they were. -/
theorem filter_declared_others :
    (declared request names options).filter (fun o => o.request ≠ request) =
      options.filter fun o => o.request ≠ request := by
  induction names generalizing options with
  | nil => rfl
  | cons name names ih =>
    refine ih.trans (filter_putRow fun o hkey => ?_)
    simpa using (Prod.mk.inj hkey).1

/-- Where a request does not have the options yet, all of them are stored. -/
theorem ends_declareOptions {s : Store} (hwritable : s.readOnly = false)
    (hthere : s.hasRequest request = true) (hnames : names.Nodup)
    (hnew : ∀ o ∈ s.options, o.request = request → o.name ∉ names) :
    Ends (declareOptions request names) s fun r s' =>
      r = .ok () ∧ s' = { s with options := declared request names s.options } := by
  induction names generalizing s with
  | nil => exact ends_pure.2 ⟨rfl, rfl⟩
  | cons name names ih =>
    obtain ⟨hname, hnames⟩ := List.nodup_cons.1 hnames
    have hnone : s.option? request name = none := by
      rw [option?, List.find?_eq_none]
      intro o ho hkey
      rw [Bool.and_eq_true, decide_eq_true_eq, decide_eq_true_eq] at hkey
      exact hnew o ho hkey.1 (hkey.2 ▸ List.mem_cons_self)
    have hdeclare := declareOption_eq_ok.2 ⟨hthere, .inr ⟨hnone, rfl⟩⟩
    refine ends_bind.2 (ends_tryEdit.2 ?_)
    rw [if_neg (Bool.eq_false_iff.1 hwritable), hdeclare]
    refine ih hwritable hthere hnames fun o ho hrequest hmem => ?_
    rcases mem_of_mem_putRow ho with rfl | hold
    · exact hname hmem
    · exact hnew o hold hrequest (List.mem_cons_of_mem name hmem)

end

/-! ## A new request -/

section
variable {disk : Disk} {d : Draft} {s s' : Store} {created : Request}

/-- Creating a request stores it and its options, and nothing else. -/
theorem eq_of_createRequest (hs : s.Sound) (h : createRequest disk d s = .ok created s') :
    s.hasRequest created.name = false ∧ s' = { s with
      requests := putRow Request.tableKey created s.requests
      options := declared created.name created.placeholders s.options } := by
  obtain ⟨r, t, -, hwritable, hinsert, hoptions⟩ := createRequest_ok_inv h
  obtain ⟨hnew, hrow, htable⟩ := insertRequest_eq_ok.1 hinsert
  have hname : s.hasRequest created.name = false := by rwa [hrow]
  refine ⟨hname, ?_⟩
  have hthere : t.hasRequest created.name = true := by
    rw [hasRequest, request?_of_insertRequest hinsert]
    rfl
  have hnodup : created.placeholders.Nodup := created.pairwise_placeholders.imp ne_of_lt
  have hnone : ∀ o ∈ t.options, o.request = created.name → o.name ∉ created.placeholders := by
    rw [htable]
    rintro o ho hrequest -
    have howner := hs.optionOwner o ho
    rw [hrequest, hname] at howner
    exact absurd howner Bool.false_ne_true
  have hdeclared := (ends_declareOptions (htable ▸ hwritable) hthere hnodup hnone).eq_ok
  rw [hoptions] at hdeclared
  cases hdeclared
  rw [htable]

/-- A new request has its options without values and nothing else, and without it the rows are
those from before. -/
theorem starts_clean (hs : s.Sound) (h : createRequest disk d s = .ok created s') :
    s'.optionsOf (some created.name) =
        created.placeholders.map (fun name => ⟨created.name, name, none⟩) ∧
      s'.extractionsOf created.name = [] ∧ s'.responsesOf (some created.name) = [] ∧
      s.hasRequest created.name = false ∧ s'.dropRequest created.name = s := by
  obtain ⟨hname, rfl⟩ := eq_of_createRequest hs h
  have hnone {name : String} (howner : s.hasRequest name = true) : name ≠ created.name := by
    rintro rfl
    exact absurd (hname.symm.trans howner) Bool.false_ne_true
  have hoptions : ∀ o ∈ s.options, o.request ≠ created.name :=
    fun o ho => hnone (hs.optionOwner o ho)
  have hextractions : ∀ e ∈ s.extractions, e.request ≠ created.name :=
    fun e he => hnone (hs.extractionOwner e he)
  have hresponses : ∀ x ∈ s.responses, x.request ≠ created.name :=
    fun x hx => hnone (hs.responseOwner x hx)
  have hrequests : ∀ r ∈ s.requests, r.name ≠ created.name :=
    fun r hr => hnone (hasRequest_iff.2 ⟨r, hr, rfl⟩)
  refine ⟨?_, ?_, ?_, hname, ?_⟩
  · rw [← filter_declared hs.options hoptions created.pairwise_placeholders, optionsOf]
    refine List.filter_congr fun o _ => ?_
    simp [eq_comm]
  · simpa [extractionsOf, List.filter_eq_nil_iff] using hextractions
  · exact List.filter_eq_nil_iff.2 fun x hx => by simpa using (hresponses x hx).symm
  · have hrow : (putRow Request.tableKey created s.requests).filter
          (fun r => r.name ≠ created.name) =
        s.requests.filter fun r => r.name ≠ created.name :=
      filter_putRow fun r hkey => by simpa using (Prod.mk.inj hkey).1
    simp only [dropRequest, hrow, filter_declared_others]
    rw [List.filter_eq_self.2 (by simpa using hrequests),
      List.filter_eq_self.2 (by simpa using hoptions),
      List.filter_eq_self.2 (by simpa using hextractions),
      List.filter_eq_self.2 (by simpa using hresponses)]

end

/-- **A new request starts clean.** Whatever was done before, a request that is created has one
option for each of its placeholders, in ascending order and without a value, and it has no
extractions and no responses. Its name was not stored, and all other rows of the workspace are
what they were: if the request and what belongs to it are taken away, the rows from before are
left. The rows of other workspaces are not touched. -/
theorem new_request_starts_clean (host : Host) (disk : Disk) (dataDir : Path) (wire : Wire)
    (ops : List Operation) {d : Draft} {s' : Session} {created : Request}
    (h : Current.createRequest d (Operation.run ops { host, disk, dataDir, wire })
      = .ok created s') :
    let s := Operation.run ops { host, disk, dataDir, wire }
    ∃ shelf, s'.shelf? = some shelf ∧
      (s'.rowsAt shelf).request? created.name = some created ∧
      created.placeholders.Pairwise (· < ·) ∧
      (s'.rowsAt shelf).optionsOf (some created.name) =
        created.placeholders.map (fun name => ⟨created.name, name, none⟩) ∧
      (s'.rowsAt shelf).extractionsOf created.name = [] ∧
      (s'.rowsAt shelf).responsesOf (some created.name) = [] ∧
      (s.rowsAt shelf).hasRequest created.name = false ∧
      (s'.rowsAt shelf).dropRequest created.name = s.rowsAt shelf ∧
      ∀ other, other ≠ shelf → s'.rowsAt other = s.rowsAt other := by
  intro s
  have hsound : s.Sound := sound_run_fresh host disk dataDir wire ops
  obtain ⟨s₁, shelf, t, hopened, hshelf, hcreate, rfl⟩ := Current.createRequest_ok_inv h
  have hrows : s₁.store.writable = s.rowsAt shelf :=
    (writable_store hshelf).trans (hopened.rowsAt_eq shelf)
  have hsound₁ : s₁.Sound := fun shelf => by
    rw [hopened.rowsAt_eq shelf]
    exact hsound shelf
  obtain ⟨hoptions, hextractions, hresponses, hnew, hrest⟩ := starts_clean hsound₁.store hcreate
  have hnow : (s₁.putBench { store := t, wire := s₁.wire }).rowsAt shelf = t.writable := by
    rw [rowsAt_putBench, if_pos hshelf]
  have hthere : t.request? created.name = some created := request?_of_createRequest hcreate
  refine ⟨shelf, (shelf?_putBench s₁ _).trans hshelf, ?_⟩
  rw [hnow, ← hrows]
  refine ⟨hthere, created.pairwise_placeholders, hoptions, hextractions,
    hresponses, hnew, congrArg Store.writable hrest, fun other hne => ?_⟩
  have hother : s₁.shelf? ≠ some other := by simpa [hshelf] using Ne.symm hne
  rw [rowsAt_putBench, if_neg hother, hopened.rowsAt_eq other]

/-- A request that had an option with a value, an extraction and a response is deleted and then
created again. -/
theorem new_request_starts_clean_again :
    let ops : List Operation := [
      .line "create request ping http://h/\x7bid\x7d", .line "set request ping",
      .line "set environment dev", .line "set option id 5", .line "extract header X -t token",
      .expect [.answer 200 "OK" [("X", "v")] ""], .line "run", .line "delete request ping"]
    let d : Draft := { name := "ping", url := "http://h/\x7bid\x7d/\x7bat\x7d" }
    let s := Operation.run ops {}
    (s.rowsAt .playground).vars.map Variable.name = ["token"] ∧
      ∃ created s', Current.createRequest d s = .ok created s' ∧
        (s'.rowsAt .playground).optionsOf (some "ping") =
          [⟨"ping", "at", none⟩, ⟨"ping", "id", none⟩] ∧
        (s'.rowsAt .playground).extractionsOf "ping" = [] ∧
        (s'.rowsAt .playground).responsesOf (some "ping") = [] := by
  intro ops d s
  refine ⟨by decide +kernel, ?_⟩
  have hcreates : succeedsWith (Current.createRequest d) s (fun created s' =>
      decide (s'.shelf? = some .playground ∧ created.name = "ping" ∧
        created.placeholders = ["at", "id"])) = true := by
    decide +kernel
  obtain ⟨created, s', hcreate, hleft⟩ := exists_ok_of_succeedsWith hcreates
  obtain ⟨hshelf, hname, hnames⟩ := of_decide_eq_true hleft
  obtain ⟨shelf, hshelf', -, -, hoptions, hextractions, hresponses, -⟩ :=
    new_request_starts_clean {} {} (Path.parse "data") {} ops hcreate
  obtain rfl : Shelf.playground = shelf := Option.some.inj (hshelf.symm.trans hshelf')
  rw [hname] at hoptions hextractions hresponses
  rw [hnames] at hoptions
  exact ⟨created, s', hcreate, hoptions, hextractions, hresponses⟩

end Courier
