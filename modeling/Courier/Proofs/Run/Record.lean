/-
Courier.Proofs.Run.Record — what is recorded of a run.

A run sends prepared requests one after the other, and between two calls it writes: the
values that the extractions find go into variables, and the exchange is recorded. `Recorded`
says what the part of a run that sends `ps` leaves on the bench if it comes to its end. It
holds of nothing sent (`Recorded.nil`) and of one request (`recorded_runOne`), and two parts
in a row are recorded as one (`Recorded.append`), so it holds of every run. The extractions
in between do not matter, because they only change variables (`OnlyVariables`).
-/
import Courier.Proofs.Run.Course

namespace Courier

open Courier.Text Courier.Http Courier.Store

/-! ## Exchanges and records -/

/-- An exchange and its record say what was sent and what came back. -/
structure Exchanged (name : String) (p : PreparedRequest) (reply : Reply) (x : Exchange)
    (record : Response) : Prop where
  sent : x.request = p
  received : ∃ reason headers, reply = .answer x.status reason headers x.text ∧
    x.reason = reason.getD "" ∧ x.headers = mergePairs headers
  request : record.request = name
  method : record.method = p.method
  url : record.url = p.url
  requestBody : record.requestBody = p.body
  status : record.status = x.status
  reason : record.reason = x.reason
  body : record.body = x.text

/-! ## Parts of a run -/

/-- What the part of a run that sends `ps` has done when it comes to its end. -/
structure Recorded (name : String) (ps : List PreparedRequest) (b b' : Bench)
    (report : RunReport) : Prop where
  calls : b'.wire.calls = b.wire.calls ++ ps.map PreparedRequest.call
  queue : b'.wire.queue = b.wire.queue.drop ps.length
  exchanges : report.exchanges.length = ps.length
  responses : report.responses.length = ps.length
  exchanged : ∀ i p, ps[i]? = some p → ∃ x record, report.exchanges[i]? = some x ∧
    report.responses[i]? = some record ∧ Exchanged name p (b.wire.reply i) x record
  requestHeaders : report.responses.map Response.requestHeaders =
    ps.map fun p => storedLines (headerLines p.headers)
  rows : ∃ vars lastVariable lastResponse, b'.store = { b.store with
    vars, lastVariable, lastResponse, responses := b.store.responses ++ report.responses }

theorem recorded_runOne {name env : String} {es : List Extraction} {p : PreparedRequest}
    {b b' : Bench} {report : RunReport} (h : runOne name env es p b = .ok report b') :
    Recorded name [p] b b' report := by
  obtain ⟨hwire, x, saved, failed, s, record, hx, hfound, hrecord, rfl⟩ :=
    (ends_runOne name env es p b).of_eq_ok h
  obtain ⟨vars, last, rfl⟩ :=
    (keeps_applyExtractions_onlyVariables name env x es b.store).of_eq_ok hfound
  obtain ⟨-, rfl, hrow⟩ := recordResponse_eq_ok.1 hrecord
  cases hreply : b.wire.reply 0 with
  | unreachable reason =>
    rw [Wire.exchange?, hreply] at hx
    cases hx
  | answer status reason headers text =>
    rw [Wire.exchange?, hreply] at hx
    obtain rfl := Option.some.inj hx
    refine ⟨by simp [hwire, Wire.behind], by simp [hwire, Wire.behind], rfl, rfl, ?_, rfl,
      ⟨_, _, _, hrow⟩⟩
    intro i q hq
    obtain ⟨rfl, rfl⟩ : i = 0 ∧ q = p := by
      cases i with
      | zero => simpa [eq_comm] using hq
      | succ i => simp at hq
    rw [hreply]
    exact ⟨_, _, rfl, rfl, rfl, ⟨_, _, rfl, rfl, rfl⟩, rfl, rfl, rfl, rfl, rfl, rfl, rfl⟩

theorem Recorded.nil (name : String) (b : Bench) : Recorded name [] b b {} where
  calls := by simp
  queue := by simp
  exchanges := rfl
  responses := rfl
  exchanged := by simp
  requestHeaders := rfl
  rows := ⟨b.store.vars, b.store.lastVariable, b.store.lastResponse, by simp⟩

theorem Recorded.append {name : String} {ps qs : List PreparedRequest} {b b' b'' : Bench}
    {first rest : RunReport} (h : Recorded name ps b b' first)
    (h' : Recorded name qs b' b'' rest) : Recorded name (ps ++ qs) b b'' (first.append rest) where
  calls := by simp [h'.calls, h.calls]
  queue := by simp [h'.queue, h.queue]
  exchanges := by simp [RunReport.append, h.exchanges, h'.exchanges]
  responses := by simp [RunReport.append, h.responses, h'.responses]
  exchanged := by
    intro i p hp
    simp only [RunReport.append]
    by_cases hi : i < ps.length
    · rw [List.getElem?_append_left hi] at hp
      rw [List.getElem?_append_left (h.exchanges.symm ▸ hi),
        List.getElem?_append_left (h.responses.symm ▸ hi)]
      exact h.exchanged i p hp
    · have hle : ps.length ≤ i := Nat.le_of_not_lt hi
      rw [List.getElem?_append_right hle] at hp
      rw [List.getElem?_append_right (h.exchanges.symm ▸ hle),
        List.getElem?_append_right (h.responses.symm ▸ hle), h.exchanges, h.responses]
      -- the replies that the rest of the run gets are those behind the first ones
      have hreply : b'.wire.reply (i - ps.length) = b.wire.reply i := by
        simp [Wire.reply, h.queue, Nat.add_sub_cancel' hle]
      rw [← hreply]
      exact h'.exchanged (i - ps.length) p hp
  requestHeaders := by
    rw [RunReport.append, List.map_append, List.map_append, h.requestHeaders, h'.requestHeaders]
  rows := by
    obtain ⟨_, _, _, hb'⟩ := h.rows
    obtain ⟨vars, lastVariable, lastResponse, hb''⟩ := h'.rows
    exact ⟨vars, lastVariable, lastResponse, by simp [hb'', hb', RunReport.append]⟩

/-- Sending prepared requests one after the other records each exchange in its turn, up to the one
that stops. -/
theorem recorded_runAll (name env : String) (es : List Extraction) (ps : List PreparedRequest)
    (b : Bench) :
    Ends (runAll name env es ps) b fun r b' =>
      match r with
      | .ok report => Recorded name ps b b' report
      | .error e => ∃ i p mid report, ps[i]? = some p ∧ Recorded name (ps.take i) b mid report ∧
          runOne name env es p mid = .error e b' :=
  ends_runAll (Recorded.nil name) (fun _ _ _ _ h => recorded_runOne h)
    (fun _ _ _ _ _ _ _ h h' => h.append h') ps b

/-- Every record of a run is one of the stored request that was run. -/
theorem Recorded.request_eq {name : String} {ps : List PreparedRequest} {b b' : Bench}
    {report : RunReport} (h : Recorded name ps b b' report) {record : Response}
    (hrecord : record ∈ report.responses) : record.request = name := by
  obtain ⟨i, hi, rfl⟩ := List.getElem_of_mem hrecord
  have hlt : i < ps.length := h.responses ▸ hi
  obtain ⟨x, record, -, hget, hx⟩ := h.exchanged i ps[i] (List.getElem?_eq_getElem hlt)
  rw [List.getElem?_eq_getElem hi, Option.some.injEq] at hget
  rw [hget]
  exact hx.request

/-! ## A run -/

/-- The records of a request that exists are all its responses. -/
theorem recordedResponses_eq_ok {s : Store} {name : String} {r : Request}
    (h : s.request? name = some r) :
    recordedResponses name s = .ok (s.responsesOf (some name)) s := by
  refine Ends.eq_ok (ends_bind.2 (ends_requireRequest.2 ?_))
  rw [h]
  exact ends_bind.2 (ends_get.2 (ends_pure.2 ⟨rfl, rfl⟩))

/-- Of the responses behind a run those of its request are the new ones, and the others are the
old ones. -/
theorem Recorded.responses_eq {name : String} {ps : List PreparedRequest} {b b' : Bench}
    {report : RunReport}
    (h : Recorded name ps { b with store := (b.store.forgetResponses name).2 } b' report) :
    b'.store.responsesOf (some name) = report.responses ∧
      b'.store.responses.filter (fun x => x.request ≠ name) =
        b.store.responses.filter (fun x => x.request ≠ name) := by
  obtain ⟨vars, lastVariable, lastResponse, hrows⟩ := h.rows
  have hresponses : b'.store.responses =
      b.store.responses.filter (fun x => x.request ≠ name) ++ report.responses := by
    rw [hrows]
    rfl
  have hnew : ∀ x ∈ report.responses, x.request = name := fun x hx => h.request_eq hx
  constructor
  · have hold : ∀ x ∈ b.store.responses.filter (fun x => x.request ≠ name),
        ¬ (some name).all (· = x.request) = true := by
      intro x hx hname
      exact of_decide_eq_true (List.mem_filter.1 hx).2 (of_decide_eq_true hname).symm
    have hall : ∀ x ∈ report.responses, (some name).all (· = x.request) = true := by
      intro x hx
      simp [hnew x hx]
    rw [responsesOf, hresponses, List.filter_append, List.filter_eq_nil_iff.2 hold,
      List.filter_eq_self.2 hall, List.nil_append]
  · have hnone : ∀ x ∈ report.responses, ¬ decide (x.request ≠ name) = true := by
      intro x hx
      simp [hnew x hx]
    rw [hresponses, List.filter_append, List.filter_eq_nil_iff.2 hnone, List.append_nil,
      List.filter_filter]
    simp only [Bool.and_self]

/-- A run that comes to its end has sent each prepared request once, in order, and what is
recorded for its request is exactly what was sent and what came back, and nothing of the runs
before. No request, option or extraction has changed, and no record of another request. -/
theorem finished_run_is_recorded {name : String} {env : Option String} {b b' : Bench}
    {report : RunReport} (h : runStored name env b = .ok report b') :
    ∃ r prepared, b.store.request? name = some r ∧ expandRequest b.store r env = .ok prepared ∧
      b'.wire.calls = b.wire.calls ++ prepared.map PreparedRequest.call ∧
      report.exchanges.length = prepared.length ∧ report.responses.length = prepared.length ∧
      (∀ i p, prepared[i]? = some p → ∃ x record, report.exchanges[i]? = some x ∧
        report.responses[i]? = some record ∧ Exchanged name p (b.wire.reply i) x record) ∧
      recordedResponses name b'.store = .ok report.responses b'.store ∧
      b'.store.requests = b.store.requests ∧ b'.store.options = b.store.options ∧
      b'.store.extractions = b.store.extractions ∧
      b'.store.responses.filter (fun x => x.request ≠ name) =
        b.store.responses.filter (fun x => x.request ≠ name) := by
  obtain ⟨es, prepared, hplan, hrun⟩ := runStored_eq_ok h
  have hrecorded := (recorded_runAll name (env.getD "") es prepared _).of_eq_ok hrun
  obtain ⟨r, hr, -, -, hexpand⟩ := planRun_eq_ok hplan
  obtain ⟨vars, lastVariable, lastResponse, hrows⟩ := hrecorded.rows
  obtain ⟨hnew, hold⟩ := hrecorded.responses_eq
  have hrequest : b'.store.request? name = some r := by
    rw [hrows]
    exact hr
  refine ⟨r, prepared, hr, hexpand, hrecorded.calls, hrecorded.exchanges, hrecorded.responses,
    hrecorded.exchanged, ?_, ?_, ?_, ?_, hold⟩
  · rw [recordedResponses_eq_ok hrequest, hnew]
  · rw [hrows]
    rfl
  · rw [hrows]
    rfl
  · rw [hrows]
    rfl

/-- A request that stands for two, with what an earlier run and another request have left, in
front of a far end that answers twice. -/
def twoValuedBench : Bench where
  store := {
    requests := [⟨"other", "GET", "http://h/", [], none⟩,
      ⟨"ping", "GET", "http://h/\x7bid\x7d", [], none⟩]
    options := [⟨"ping", "id", some "1\n2"⟩]
    extractions := [⟨"ping", "token", "header", "X-Token"⟩]
    responses := [⟨1, "ping", "GET", "http://h/9", 500, "Gone", [], none, [], "old", []⟩,
      ⟨2, "other", "GET", "http://h/", 200, "OK", [], none, [], "kept", []⟩]
    lastResponse := 2 }
  wire := {
    queue := [.answer 201 (some "Made") [("x-token", "a")] "first", .answer 404 none [] "second"] }

theorem finished_run_is_recorded_twoValued :
    ∃ report b', runStored "ping" (some "dev") twoValuedBench = .ok report b' ∧
      report.responses.map Response.body = ["first", "second"] ∧
      ∃ r prepared, twoValuedBench.store.request? "ping" = some r ∧
        expandRequest twoValuedBench.store r (some "dev") = .ok prepared ∧
        report.responses.length = prepared.length ∧
        recordedResponses "ping" b'.store = .ok report.responses b'.store := by
  have hbodies : (match runStored "ping" (some "dev") twoValuedBench with
      | .ok report _ => decide (report.responses.map Response.body = ["first", "second"])
      | .error _ _ => false) = true := by decide +kernel
  cases hrun : runStored "ping" (some "dev") twoValuedBench with
  | error e b' =>
    rw [hrun] at hbodies
    exact nomatch hbodies
  | ok report b' =>
    rw [hrun] at hbodies
    obtain ⟨r, prepared, hr, hprepared, -, -, hlength, -, hrecords, -⟩ :=
      finished_run_is_recorded hrun
    exact ⟨report, b', rfl, of_decide_eq_true hbodies, r, prepared, hr, hprepared, hlength, hrecords⟩

end Courier
