/-
Courier.Proofs.Run.Interruption — what is left of a run that fails.

A run may be refused, and then nothing has happened. Once it has begun the records of the run
before are gone: it forgets them before it sends anything, and not when it has something to put
in their place. So what is recorded behind a run that stopped are the exchanges before the one
that stopped (`failed_run_leaves_a_part`), and if that is the first one then it is nothing.
-/
import Courier.Proofs.Run.Record
import Courier.Proofs.Session.Operation

namespace Courier

open Courier.Text Courier.Http Courier.Store

section
variable {name env : String} {es : List Extraction} {ps : List PreparedRequest} {b b' : Bench}
  {e : Failure}

/-- What a run has done that stops with the request behind the first `n`. Its call was made and
nothing of it was recorded. -/
structure StoppedAfter (name : String) (ps : List PreparedRequest) (n : Nat) (b b' : Bench)
    (report : RunReport) : Prop where
  more : n < ps.length
  calls : b'.wire.calls = b.wire.calls ++ (ps.take (n + 1)).map PreparedRequest.call
  recorded : ∃ mid, Recorded name (ps.take n) b mid report ∧ OnlyVariables mid.store b'.store

theorem stoppedAfter_runAll (h : runAll name env es ps b = .error e b') :
    ∃ n report, StoppedAfter name ps n b b' report := by
  obtain ⟨n, p, mid, report, hp, hpart, hstop⟩ := (recorded_runAll name env es ps b).of_eq_error h
  obtain ⟨hwire, hvariables⟩ := (ends_runOne name env es p mid).of_eq_error hstop
  refine ⟨n, report, (List.getElem?_eq_some_iff.1 hp).1, ?_, mid, hpart, hvariables⟩
  rw [hwire, Wire.behind, hpart.calls, List.take_add_one, hp, List.map_append, List.append_assoc]
  rfl

variable {n : Nat} {report : RunReport}

theorem StoppedAfter.length (h : StoppedAfter name ps n b b' report) :
    report.responses.length = n := by
  obtain ⟨mid, hpart, -⟩ := h.recorded
  rw [hpart.responses, List.length_take, Nat.min_eq_left h.more.le]

/-- Each record is that of an exchange before the one that stopped. -/
theorem StoppedAfter.exchanged (h : StoppedAfter name ps n b b' report) {i : Nat}
    {record : Response} (hrecord : report.responses[i]? = some record) :
    ∃ p x, ps[i]? = some p ∧ Exchanged name p (b.wire.reply i) x record := by
  obtain ⟨mid, hpart, -⟩ := h.recorded
  have hi : i < n := h.length ▸ (List.getElem?_eq_some_iff.1 hrecord).1
  obtain ⟨p, hp⟩ : ∃ p, ps[i]? = some p := ⟨_, List.getElem?_eq_getElem (hi.trans h.more)⟩
  obtain ⟨x, record', -, hget, hx⟩ :=
    hpart.exchanged i p ((List.getElem?_take_of_lt hi).trans hp)
  obtain rfl := Option.some.inj (hget.symm.trans hrecord)
  exact ⟨_, x, hp, hx⟩

theorem StoppedAfter.request? (h : StoppedAfter name ps n b b' report) (other : String) :
    b'.store.request? other = b.store.request? other := by
  obtain ⟨mid, hpart, vars, lastVariable, hb'⟩ := h.recorded
  obtain ⟨vars', lastVariable', lastResponse, hmid⟩ := hpart.rows
  rw [hb', hmid]
  rfl

/-- Of the responses behind a run that stopped those of its request are the new ones, and the
others are the old ones. -/
theorem StoppedAfter.responses_eq
    (h : StoppedAfter name ps n { b with store := (b.store.forgetResponses name).2 } b' report) :
    b'.store.responsesOf (some name) = report.responses ∧
      b'.store.responses.filter (fun x => x.request ≠ name) =
        b.store.responses.filter (fun x => x.request ≠ name) := by
  obtain ⟨mid, hpart, vars, lastVariable, hb'⟩ := h.recorded
  rw [hb']
  exact hpart.responses_eq

end

/-- No record of a run is one that was there before, because it has a number of its own. -/
theorem not_recorded_before {s s' : Store} {name : String} (hs : s.Sound)
    (hfollows : (s.forgetResponses name).2.Follows s') {record : Response}
    (hrecord : record ∈ s'.responsesOf (some name)) : record ∉ s.responsesOf (some name) := by
  intro hbefore
  obtain ⟨hmem, -⟩ := List.mem_filter.1 hbefore
  obtain ⟨hmem', hname⟩ := List.mem_filter.1 hrecord
  have hkept := hfollows.responses record hmem' (hs.responseBound record hmem)
  have hother := of_decide_eq_true (List.mem_filter.1 hkept).2
  exact hother (of_decide_eq_true hname).symm

/-- So the responses are the same ones only if there are none. -/
theorem responsesOf_eq_iff {s s' : Store} {name : String} (hs : s.Sound)
    (hfollows : (s.forgetResponses name).2.Follows s') :
    s'.responsesOf (some name) = s.responsesOf (some name) ↔
      s.responsesOf (some name) = [] ∧ s'.responsesOf (some name) = [] := by
  constructor
  · intro hsame
    have hnone : s'.responsesOf (some name) = [] :=
      List.eq_nil_iff_forall_not_mem.2 fun record hrecord =>
        not_recorded_before hs hfollows hrecord (hsame ▸ hrecord)
    exact ⟨hsame.symm.trans hnone, hnone⟩
  · rintro ⟨hbefore, hafter⟩
    rw [hbefore, hafter]

/-- **What a failed run leaves.** Take a store that operations lead to, and a run that fails,
whatever the far end answers. If the run was refused, because of what is stored or because nothing
can be written, then nothing has happened. Otherwise some of its calls were made, in order, and all
but the last of these are recorded, each with what was sent and what came back. Nothing else is
recorded for the request, so its earlier responses are kept only if the run was refused, or if
there were none and the first call failed; those of other requests are kept always. -/
theorem failed_run_leaves_a_part (host : Host) (disk : Disk) (dataDir : Path) (before wire : Wire)
    (ops : List Operation) {name : String} {env : Option String} {e : Failure} {b' : Bench}
    (h : runStored name env
      { store := (Operation.run ops { host, disk, dataDir, wire := before }).store, wire } =
        .error e b') :
    let s := (Operation.run ops { host, disk, dataDir, wire := before }).store
    (match planRun s name env with
    | .error refusal => e = .refused refusal ∧ b' = { store := s, wire }
    | .ok (_, prepared) =>
      s.readOnly = true ∧ e = .storage .readOnly ∧ b' = { store := s, wire } ∨
      ∃ n records, n < prepared.length ∧
        b'.wire.calls = wire.calls ++ (prepared.take (n + 1)).map PreparedRequest.call ∧
        recordedResponses name b'.store = .ok records b'.store ∧ records.length = n ∧
        ∀ i record, records[i]? = some record → ∃ p x, prepared[i]? = some p ∧
          Exchanged name p (wire.reply i) x record) ∧
    b'.store.responses.filter (fun x => x.request ≠ name) =
      s.responses.filter (fun x => x.request ≠ name) ∧
    (b'.store.responsesOf (some name) = s.responsesOf (some name) ↔
      b' = { store := s, wire } ∨
        s.responsesOf (some name) = [] ∧ b'.store.responsesOf (some name) = []) := by
  intro s
  have hs : s.Sound := (sound_run_fresh host disk dataDir before ops).store
  have hends := (ends_runStored name env { store := s, wire }).of_eq_error h
  cases hplan : planRun s name env with
  | error refusal =>
    rw [hplan] at hends
    obtain ⟨he, rfl⟩ := hends
    exact ⟨⟨Except.error.inj he, rfl⟩, rfl, iff_of_true rfl (.inl rfl)⟩
  | ok plan =>
    rw [hplan] at hends
    obtain ⟨hread, he, rfl⟩ | ⟨-, hrun⟩ := hends
    · exact ⟨.inl ⟨hread, Except.error.inj he, rfl⟩, rfl, iff_of_true rfl (.inl rfl)⟩
    · obtain ⟨n, report, hstopped⟩ := stoppedAfter_runAll hrun
      obtain ⟨hnew, hothers⟩ := hstopped.responses_eq
      obtain ⟨r, hr, -⟩ := planRun_eq_ok hplan
      refine ⟨.inr ⟨n, report.responses, hstopped.more, hstopped.calls, ?_, hstopped.length,
        fun i record => hstopped.exchanged⟩, hothers, ?_⟩
      · rw [recordedResponses_eq_ok ((hstopped.request? name).trans hr), hnew]
      · have hfollows : (s.forgetResponses name).2.Follows b'.store :=
          ((keeps_runAll (P := fun _ => True) (fun _ _ _ => trivial) (fun _ _ => trivial) _).of_eq_error
            hrun).upholds.follows
        have hsame := responsesOf_eq_iff hs hfollows
        refine ⟨fun h => .inr (hsame.1 h), ?_⟩
        rintro (rfl | hnone)
        · rfl
        · exact hsame.2 hnone

/-- A request that stands for two and was run once. -/
def runOperations : List Operation :=
  [.insertRequest ⟨"ping", "GET", "http://h/\x7bid\x7d", [], none⟩,
    .putOption "ping" "id" (some "1\n2"), .send "ping" none]

/-- The second of two calls fails. The first one is recorded, and of the two responses from before
none is left. -/
theorem failed_run_leaves_a_part_first :
    let s := (Operation.run runOperations {}).store
    let wire : Wire := { queue := [.answer 201 none [] "new", .unreachable "refused"] }
    ∃ e b', runStored "ping" none { store := s, wire } = .error e b' ∧
      (b'.store.responsesOf (some "ping")).map Response.status = [201] ∧
      b'.store.responses.filter (fun x => x.request ≠ "ping") =
        s.responses.filter (fun x => x.request ≠ "ping") ∧
      b'.store.responsesOf (some "ping") ≠ s.responsesOf (some "ping") := by
  intro s wire
  have hfails : failsWith (runStored "ping" none) { store := s, wire }
      (fun _ b' => decide (b' ≠ { store := s, wire } ∧
        (b'.store.responsesOf (some "ping")).map Response.status = [201])) = true := by
    decide +kernel
  obtain ⟨e, b', hrun, hleft⟩ := exists_error_of_failsWith hfails
  obtain ⟨hne, hstatus⟩ := of_decide_eq_true hleft
  obtain ⟨-, hothers, hkept⟩ := failed_run_leaves_a_part {} {} (Path.parse "data") {} wire
    runOperations hrun
  refine ⟨e, b', hrun, hstatus, hothers, fun hsame => ?_⟩
  obtain heq | ⟨-, hnone⟩ := hkept.1 hsame
  · exact hne heq
  · rw [hnone] at hstatus
    exact nomatch hstatus

/-- The first call fails, and both responses from before are gone. -/
theorem failed_run_forgets_responses :
    let s := (Operation.run runOperations {}).store
    ∃ b', runStored "ping" none { store := s, wire := { queue := [.unreachable "refused"] } } =
        .error (.refused (.requestFailed "ping" "refused")) b' ∧
      (s.responsesOf (some "ping")).length = 2 ∧
      recordedResponses "ping" b'.store = .ok [] b'.store := by
  intro s
  have hfails : failsWith (runStored "ping" none)
      { store := s, wire := { queue := [.unreachable "refused"] } }
      (fun e b' => decide (e = .refused (.requestFailed "ping" "refused") ∧
        (s.responsesOf (some "ping")).length = 2 ∧ b'.store.responsesOf (some "ping") = [] ∧
        (b'.store.request? "ping").isSome = true)) = true := by decide +kernel
  obtain ⟨e, b', hrun, hleft⟩ := exists_error_of_failsWith hfails
  obtain ⟨rfl, hbefore, hafter, hthere⟩ := of_decide_eq_true hleft
  obtain ⟨r, hr⟩ := Option.isSome_iff_exists.1 hthere
  exact ⟨b', hrun, hbefore, hafter ▸ recordedResponses_eq_ok hr⟩

end Courier
