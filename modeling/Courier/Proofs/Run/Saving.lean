/-
Courier.Proofs.Run.Saving — what a run saves in variables.

Of each exchange a run takes the values that the extractions of its request find
(`foundIn`), and gives them to variables of the environment. `Given` says what it comes to when
variables get values one after the other: of several values for a variable the last one
counts, and what asks for none of these variables sees no difference. `Saved` says it of the
part of a run that sends `ps`, together with what is noted in the records.

A request has one extraction for each variable. So the values that a variable gets are those
that its extraction finds, exchange by exchange (`lastValue?_flatMap_foundIn`).
-/
import Courier.Proofs.Run.Record
import Courier.Proofs.Session.Operation

namespace Courier

open Courier.Text Courier.Http Courier.Store

/-! ## What is found -/

/-- The value that an extraction finds in an exchange. -/
def Store.Extraction.found? (e : Extraction) (x : Exchange) : Option String :=
  match extractFromExchange e.source e.path x with
  | .ok (some us) => text? us
  | _ => none

/-- The variables for which extractions find a value in an exchange, and these values. -/
def foundIn (es : List Extraction) (x : Exchange) : List (String × String) :=
  es.filterMap fun e => (e.found? x).map fun value => (e.target, value)

/-- The last value that a variable gets. -/
def lastValue? (target : String) (pairs : List (String × String)) : Option String :=
  pairs.reverse.lookup target

theorem lastValue?_append (target : String) (pairs pairs' : List (String × String)) :
    lastValue? target (pairs ++ pairs') = (lastValue? target pairs').or (lastValue? target pairs) := by
  rw [lastValue?, List.reverse_append, List.lookup_append]
  rfl

theorem lastValue?_singleton (target other value : String) :
    lastValue? target [(other, value)] = if target = other then some value else none := by
  by_cases h : target = other
  · simp [lastValue?, h]
  · simp [lastValue?, h, List.lookup_cons, beq_false_of_ne h]

theorem foundIn_cons (e : Extraction) (es : List Extraction) (x : Exchange) :
    foundIn (e :: es) x = ((e.found? x).map fun value => (e.target, value)).toList ++ foundIn es x := by
  rw [foundIn, List.filterMap_cons]
  cases e.found? x <;> rfl

section
variable {es : List Extraction}

theorem lastValue?_foundIn_of_ne {target : String} (h : ∀ e ∈ es, e.target ≠ target)
    (x : Exchange) : lastValue? target (foundIn es x) = none := by
  induction es with
  | nil => rfl
  | cons e es ih =>
    obtain ⟨he, hes⟩ := List.forall_mem_cons.1 h
    rw [foundIn_cons, lastValue?_append, ih hes, Option.none_or]
    cases e.found? x with
    | none => rfl
    | some value => exact (lastValue?_singleton _ _ _).trans (if_neg he.symm)

/-- If no two extractions have the same variable then a variable gets what its own finds. -/
theorem lastValue?_foundIn (hes : (es.map Extraction.target).Nodup) {e : Extraction} (he : e ∈ es)
    (x : Exchange) : lastValue? e.target (foundIn es x) = e.found? x := by
  induction es with
  | nil => exact absurd he List.not_mem_nil
  | cons first es ih =>
    rw [List.map_cons, List.nodup_cons] at hes
    rw [foundIn_cons, lastValue?_append]
    rcases List.mem_cons.1 he with rfl | he
    · have hothers : ∀ e' ∈ es, e'.target ≠ e.target := fun e' he' heq =>
        hes.1 (List.mem_map.2 ⟨e', he', heq⟩)
      rw [lastValue?_foundIn_of_ne hothers, Option.none_or]
      cases e.found? x with
      | none => rfl
      | some value => exact (lastValue?_singleton _ _ _).trans (if_pos rfl)
    · have hne : e.target ≠ first.target := fun heq => hes.1 (List.mem_map.2 ⟨e, he, heq⟩)
      have hfirst : lastValue? e.target
          ((first.found? x).map fun value => (first.target, value)).toList = none := by
        cases first.found? x with
        | none => rfl
        | some value => exact (lastValue?_singleton _ _ _).trans (if_neg hne)
      rw [ih hes.2 he, hfirst, Option.or_none]

/-- The last value that a variable gets is the one of the last exchange in which there is one. -/
theorem lastValue?_flatMap_foundIn (hes : (es.map Extraction.target).Nodup) {e : Extraction}
    (he : e ∈ es) (xs : List Exchange) :
    lastValue? e.target (xs.flatMap (foundIn es)) = (xs.filterMap e.found?).getLast? := by
  induction xs with
  | nil => rfl
  | cons x xs ih =>
    rw [List.flatMap_cons, lastValue?_append, ih, lastValue?_foundIn hes he, List.filterMap_cons]
    cases e.found? x with
    | none => exact Option.or_none
    | some value =>
      rw [List.getLast?_cons]
      cases (xs.filterMap e.found?).getLast? <;> rfl

theorem lastValue?_flatMap_of_ne {target : String} (h : ∀ e ∈ es, e.target ≠ target)
    (xs : List Exchange) : lastValue? target (xs.flatMap (foundIn es)) = none := by
  induction xs with
  | nil => rfl
  | cons x xs ih =>
    rw [List.flatMap_cons, lastValue?_append, ih, lastValue?_foundIn_of_ne h]
    rfl

end

/-! ## Values for variables -/

/-- Variables of an environment got values, one after the other. -/
structure Given (name env : String) (pairs : List (String × String)) (s s' : Store) : Prop where
  /-- The last value counts. -/
  last : ∀ target value, lastValue? target pairs = some value → ∃ row ∈ s'.vars,
    row.tableKey = (target, env) ∧ row.value = some value ∧ row.source = some name
  /-- What asks for none of these variables finds the same rows. -/
  others : ∀ p : Variable → Bool,
    (∀ v, p v = true → v.env = env → lastValue? v.name pairs = none) →
      s'.vars.filter p = s.vars.filter p

section
variable {name env : String}

theorem Given.nil (s : Store) : Given name env [] s s where
  last := nofun
  others _ _ := rfl

theorem Given.put (s : Store) (target value : String) :
    Given name env [(target, value)] s
      (s.putVariable target env (some value) (some name)).2 where
  last := by
    intro target' value' hlast
    rw [lastValue?_singleton, Option.ite_none_right_eq_some] at hlast
    obtain ⟨rfl, ⟨⟩⟩ := hlast
    exact ⟨_, mem_putRow_self _ s.vars, rfl, rfl, rfl⟩
  others := by
    intro p hp
    refine filter_putRow fun v hkey => Bool.eq_false_iff.2 fun hv => ?_
    obtain ⟨rfl, rfl⟩ := Prod.mk.inj hkey
    have hnone := hp v hv rfl
    rw [lastValue?_singleton, if_pos rfl] at hnone
    exact nomatch hnone

theorem Given.append {pairs pairs' : List (String × String)} {s s' s'' : Store}
    (h : Given name env pairs s s') (h' : Given name env pairs' s' s'') :
    Given name env (pairs ++ pairs') s s'' where
  last := by
    intro target value hlast
    rw [lastValue?_append] at hlast
    cases hlater : lastValue? target pairs' with
    | some later =>
      rw [hlater, Option.some_or, Option.some.injEq] at hlast
      exact h'.last target value (hlast ▸ hlater)
    | none =>
      rw [hlater, Option.none_or] at hlast
      obtain ⟨row, hrow, hkey, hvalue⟩ := h.last target value hlast
      -- the row is still there, because the later values are for other variables
      have hsame := h'.others (fun v => decide (v = row)) fun v hv _ => by
        rw [of_decide_eq_true hv, (Prod.mk.inj hkey).1, hlater]
      have hmem : row ∈ s'.vars.filter (fun v => decide (v = row)) :=
        List.mem_filter.2 ⟨hrow, decide_eq_true rfl⟩
      rw [← hsame] at hmem
      exact ⟨row, (List.mem_filter.1 hmem).1, hkey, hvalue⟩
  others := by
    intro p hp
    have hnone (v : Variable) (hv : p v = true) (henv : v.env = env) :=
      Option.or_eq_none_iff.1 (lastValue?_append v.name pairs pairs' ▸ hp v hv henv)
    rw [h'.others p fun v hv henv => (hnone v hv henv).1,
      h.others p fun v hv henv => (hnone v hv henv).2]

/-! ## One exchange -/

/-- What is done with one extraction: what it finds is saved, and what it does not find is
reported. -/
theorem ends_applyExtraction (x : Exchange) (e : Extraction) (s : Store) :
    Ends (applyExtraction name env x e) s fun r s' => ∀ outcome, r = .ok outcome →
      extractFromExchange e.source e.path x = .ok ((e.found? x).map units) ∧
      match e.found? x with
      | none => outcome = .error e.notFound ∧ s' = s
      | some value =>
        outcome = .ok (s.putVariable e.target env (some value) (some name)).1 ∧
          s' = (s.putVariable e.target env (some value) (some name)).2 := by
  unfold applyExtraction Extraction.found?
  cases extractFromExchange e.source e.path x with
  | error fault => exact ends_throw.2 nofun
  | ok found =>
    cases found with
    | none =>
      refine ends_pure.2 ?_
      rintro _ ⟨⟩
      exact ⟨rfl, rfl, rfl⟩
    | some us =>
      dsimp only
      cases htext : text? us with
      | none => exact ends_throw.2 nofun
      | some value =>
        refine ends_bind.2 (ends_edit.2 ?_)
        split
        · exact nofun
        · refine ends_pure.2 ?_
          rintro _ ⟨⟩
          rw [Option.map_some, units_of_text? htext]
          exact ⟨rfl, rfl, rfl⟩

/-- What is done with all extractions. -/
theorem ends_applyExtractions (x : Exchange) (es : List Extraction) (s : Store) :
    Ends (applyExtractions name env x es) s fun r s' => ∀ saved failed, r = .ok (saved, failed) →
      (∀ e ∈ es, extractFromExchange e.source e.path x = .ok ((e.found? x).map units)) ∧
      Given name env (foundIn es x) s s' ∧
      saved.map (fun v => (v.name, v.value.getD "")) = foundIn es x ∧
      saved.length + failed.length = es.length := by
  induction es generalizing s with
  | nil =>
    refine ends_pure.2 ?_
    rintro _ _ ⟨⟩
    exact ⟨by simp, .nil s, rfl, rfl⟩
  | cons e es ih =>
    refine ends_bind.2 ((ends_applyExtraction x e s).mono fun outcome s' houtcome => ?_)
    cases outcome with
    | error e => exact nofun
    | ok outcome =>
      obtain ⟨he, houtcome⟩ := houtcome outcome rfl
      refine ends_bind.2 ((ih s').mono fun rest s'' hrest => ?_)
      cases rest with
      | error e => exact nofun
      | ok rest =>
        obtain ⟨hes, hgiven, hsaved, hcount⟩ := hrest rest.1 rest.2 rfl
        rw [foundIn_cons]
        cases hfound : e.found? x with
        | none =>
          rw [hfound] at houtcome
          obtain ⟨rfl, rfl⟩ := houtcome
          refine ends_pure.2 ?_
          rintro _ _ ⟨⟩
          refine ⟨List.forall_mem_cons.2 ⟨he, hes⟩, hgiven, hsaved, ?_⟩
          rw [List.length_cons, List.length_cons, ← hcount]
          rfl
        | some value =>
          rw [hfound] at houtcome
          obtain ⟨rfl, rfl⟩ := houtcome
          refine ends_pure.2 ?_
          rintro _ _ ⟨⟩
          refine ⟨List.forall_mem_cons.2 ⟨he, hes⟩, (Given.put s e.target value).append hgiven, ?_, ?_⟩
          · rw [List.map_cons, hsaved]
            rfl
          · rw [List.length_cons, List.length_cons, ← hcount]
            omega

end

/-! ## A run -/

/-- What a part of a run has saved when it comes to its end. -/
structure Saved (name env : String) (es : List Extraction) (b b' : Bench) (report : RunReport) :
    Prop where
  /-- Each extraction was looked for in each exchange. -/
  searched : ∀ x ∈ report.exchanges, ∀ e ∈ es,
    extractFromExchange e.source e.path x = .ok ((e.found? x).map units)
  given : Given name env (report.exchanges.flatMap (foundIn es)) b.store b'.store
  noted : report.responses.map Response.extractions = report.exchanges.map (foundIn es)
  count : report.extracted.length + report.failedExtractions.length
    = report.exchanges.length * es.length

section
variable {name env : String} {es : List Extraction}

theorem Saved.nil (b : Bench) : Saved name env es b b {} where
  searched := by simp
  given := .nil b.store
  noted := rfl
  count := by simp

theorem saved_runOne {p : PreparedRequest} {b b' : Bench} {report : RunReport}
    (h : runOne name env es p b = .ok report b') : Saved name env es b b' report := by
  obtain ⟨-, x, saved, failed, s, record, -, hfound, hrecord, rfl⟩ :=
    (ends_runOne name env es p b).of_eq_ok h
  obtain ⟨hsearched, hgiven, hsaved, hcount⟩ :=
    (ends_applyExtractions x es b.store).of_eq_ok hfound saved failed rfl
  obtain ⟨-, rfl, hrow⟩ := recordResponse_eq_ok.1 hrecord
  have hvars : b'.store.vars = s.vars := by rw [hrow]
  refine ⟨by simpa using hsearched, ?_, by simp [recordOf, hsaved], by simpa using hcount⟩
  rw [List.flatMap_singleton]
  exact ⟨hvars.symm ▸ hgiven.last, hvars.symm ▸ hgiven.others⟩

theorem Saved.append {b b' b'' : Bench} {first rest : RunReport}
    (h : Saved name env es b b' first) (h' : Saved name env es b' b'' rest) :
    Saved name env es b b'' (first.append rest) where
  searched := by
    intro x hx
    exact (List.mem_append.1 hx).elim (h.searched x) (h'.searched x)
  given := by
    rw [RunReport.append, List.flatMap_append]
    exact h.given.append h'.given
  noted := by
    rw [RunReport.append, List.map_append, List.map_append, h.noted, h'.noted]
  count := by
    have hfirst := h.count
    have hrest := h'.count
    simp only [RunReport.append, List.length_append, Nat.add_mul]
    omega

end

/-- A run saves what is found in each of its exchanges, up to the one that stops. -/
theorem saved_runAll (name env : String) (es : List Extraction) (ps : List PreparedRequest)
    (b : Bench) :
    Ends (runAll name env es ps) b fun r b' => ∀ report, r = .ok report →
      Saved name env es b b' report := by
  refine (ends_runAll (R := fun _ => Saved name env es) Saved.nil (fun _ _ _ _ h => saved_runOne h)
    (fun _ _ _ _ _ _ _ h h' => h.append h') ps b).mono fun r b' hr report heq => ?_
  rw [heq] at hr
  exact hr

/-- In a store that is sound the extractions of a request have different variables. -/
theorem nodup_extractionsOf {s : Store} (hs : s.Sound) (name : String) :
    ((s.extractionsOf name).map Extraction.target).Nodup := by
  have hkeys : ((s.extractionsOf name).map Extraction.tableKey).Nodup :=
    (hs.extractions.filter _).nodup
  refine List.Nodup.map_on (fun e he e' he' htarget => ?_) hkeys.of_map
  have hname := of_decide_eq_true (List.mem_filter.1 he).2
  have hname' := of_decide_eq_true (List.mem_filter.1 he').2
  exact List.inj_on_of_nodup_map hkeys he he' (Prod.ext (hname.trans hname'.symm) htarget)

/-- What asks for a variable of an environment asks for its key. -/
theorem asksFor_iff {target here : String} {v : Variable} :
    ((some target).all (· = v.name) && (some here).all (· = v.env)) = true ↔
      v.tableKey = (target, here) := by
  rw [Bool.and_eq_true, Option.all_some, Option.all_some, decide_eq_true_eq, decide_eq_true_eq,
    Variable.tableKey, Prod.mk.injEq, eq_comm, eq_comm (a := here)]

/-- **Extractions save what they find.** Take a store that operations lead to, and a run of one of
its requests that comes to its end, whatever the far end answers. Each extraction of the request
has a variable of its own. It was looked for in every exchange, and the variable has the value
that it found in the last exchange in which it found one; if there is none then the variable is
what it was. No other variable has changed. Each record notes the values that were found in its
exchange, and whatever was looked for was either found or reported. -/
theorem extractions_save_what_they_find (host : Host) (disk : Disk) (dataDir : Path)
    (before wire : Wire) (ops : List Operation) {name : String} {env : Option String}
    {report : RunReport} {b' : Bench}
    (h : runStored name env
      { store := (Operation.run ops { host, disk, dataDir, wire := before }).store, wire } =
        .ok report b') :
    let s := (Operation.run ops { host, disk, dataDir, wire := before }).store
    let es := s.extractionsOf name
    (es.map Extraction.target).Nodup ∧
    (∀ x ∈ report.exchanges, ∀ e ∈ es,
      extractFromExchange e.source e.path x = .ok ((e.found? x).map units)) ∧
    (∀ e ∈ es, ∃ here, env = some here ∧
      match (report.exchanges.filterMap e.found?).getLast? with
      | some value => ∃ row, b'.store.variablesWhere (some e.target) (some here) = [row] ∧
          row.value = some value ∧ row.source = some name
      | none => b'.store.variablesWhere (some e.target) (some here) =
          s.variablesWhere (some e.target) (some here)) ∧
    (let other (v : Variable) : Bool := env ≠ some v.env || es.all (fun e => e.target ≠ v.name)
     b'.store.vars.filter other = s.vars.filter other) ∧
    (b'.store.responsesOf (some name)).map Response.extractions = report.exchanges.map (fun x =>
      es.filterMap fun e => (e.found? x).map fun value => (e.target, value)) ∧
    report.extracted.length + report.failedExtractions.length =
      report.exchanges.length * es.length := by
  intro s es
  have hs : s.Sound := (sound_run_fresh host disk dataDir before ops).store
  have hes : (es.map Extraction.target).Nodup := nodup_extractionsOf hs name
  obtain ⟨_, prepared, hplan, hrun⟩ := runStored_eq_ok h
  obtain ⟨r, -, rfl, henv, -⟩ := planRun_eq_ok hplan
  have hrecorded := (recorded_runAll _ _ _ _ _).of_eq_ok hrun
  have hsaved := (saved_runAll _ _ _ _ _).of_eq_ok hrun report rfl
  have hsound : b'.store.Sound :=
    ((keeps_runStored (P := fun _ => True) (fun _ _ _ => trivial) (fun _ _ => trivial)
      trivial _).of_eq_ok h).upholds.sound hs
  refine ⟨hes, hsaved.searched, fun e he => ?_, ?_, ?_, hsaved.count⟩
  · obtain ⟨here, rfl⟩ := Option.ne_none_iff_exists'.1 (henv (List.ne_nil_of_mem he))
    refine ⟨here, rfl, ?_⟩
    have hlast := lastValue?_flatMap_foundIn hes he report.exchanges
    cases hfound : (report.exchanges.filterMap e.found?).getLast? with
    | some value =>
      obtain ⟨row, hrow, hkey, hvalue, hsource⟩ := hsaved.given.last _ _ (hlast.trans hfound)
      refine ⟨row, hsound.vars.filter_key hrow fun v => ?_, hvalue, hsource⟩
      rw [hkey]
      exact asksFor_iff
    | none =>
      refine hsaved.given.others _ fun v hv _ => ?_
      rw [(Prod.mk.inj (asksFor_iff.1 hv)).1, hlast, hfound]
  · refine hsaved.given.others _ fun v hv hhere => lastValue?_flatMap_of_ne ?_ _
    intro e he heq
    obtain ⟨here, rfl⟩ := Option.ne_none_iff_exists'.1 (henv (List.ne_nil_of_mem he))
    rcases Bool.or_eq_true_iff.1 hv with hother | hall
    · exact of_decide_eq_true hother (congrArg some hhere.symm)
    · exact of_decide_eq_true (List.all_eq_true.1 hall e he) heq
  · rw [hrecorded.responses_eq.1, hsaved.noted]
    rfl

/-- A request that stands for two, a variable from before, and three extractions: a header that
only the first answer has, a field of both bodies, and one that neither has. -/
def extractingOperations : List Operation :=
  [.insertRequest ⟨"ping", "GET", "http://h/\x7bid\x7d", [], none⟩, .putOption "ping" "id" (some "1\n2"),
    .putVariable "missing" "dev" (some "kept") none, .putExtraction ⟨"ping", "token", "header", "X-Token"⟩,
    .putExtraction ⟨"ping", "who", "body", "name"⟩, .putExtraction ⟨"ping", "missing", "body", "gone"⟩]

def extractingWire : Wire where
  queue := [.answer 200 none [("x-token", "a")] "\x7b\"name\": \"ann\"\x7d",
    .answer 200 none [] "\x7b\"name\": \"bob\"\x7d"]

/-- The token is that of the first exchange and the name that of the second, and the variable for
which nothing was found is what it was. -/
theorem extractions_save_what_they_find_earlier :
    let s := (Operation.run extractingOperations {}).store
    ∃ report b', runStored "ping" (some "dev") { store := s, wire := extractingWire } =
        .ok report b' ∧
      b'.store.vars.map (fun v => (v.name, v.value)) =
        [("missing", some "kept"), ("token", some "a"), ("who", some "bob")] ∧
      ((s.extractionsOf "ping").map Extraction.target).Nodup ∧
      (b'.store.responsesOf (some "ping")).map Response.extractions = report.exchanges.map (fun x =>
        (s.extractionsOf "ping").filterMap fun e =>
          (e.found? x).map fun value => (e.target, value)) ∧
      report.extracted.length + report.failedExtractions.length =
        report.exchanges.length * (s.extractionsOf "ping").length := by
  intro s
  have hruns : succeedsWith (runStored "ping" (some "dev")) { store := s, wire := extractingWire }
      (fun _ b' => decide (b'.store.vars.map (fun v => (v.name, v.value)) =
        [("missing", some "kept"), ("token", some "a"), ("who", some "bob")])) = true := by
    decide +kernel
  obtain ⟨report, b', hrun, hvalues⟩ := exists_ok_of_succeedsWith hruns
  obtain ⟨hes, -, -, -, hnoted, hcount⟩ := extractions_save_what_they_find {} {}
    (Path.parse "data") {} extractingWire extractingOperations hrun
  exact ⟨report, b', hrun, of_decide_eq_true hvalues, hes, hnoted, hcount⟩

end Courier
