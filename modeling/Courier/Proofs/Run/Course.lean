/-
Courier.Proofs.Run.Course — how a run goes.

A run is planned, the records of the run before are forgotten, and the prepared requests are
sent one after the other (`ends_runStored`). With each of them the same is done, and it either
comes to its end or stops somewhere (`ends_runOne`). If it stops, the call was made and
variables may have been saved, but nothing was recorded.

What every exchange that comes to its end does to a bench, the run does (`ends_runAll`). A run
that fails has a first part that came to its end, and then one exchange that stopped.
-/
import Courier.Proofs.Store.Change

namespace Courier

open Courier.Text Courier.Http Courier.Store

/-! ## Calls and replies -/

/-- What goes out for a prepared request. -/
def Http.PreparedRequest.call (p : PreparedRequest) : Call :=
  { method := p.method, url := p.url, headers := mergePairs p.headers, data := p.body }

/-- The reply to a call: to the first one from now on, to the second one, and so on. -/
def Http.Wire.reply (w : Wire) (i : Nat) : Reply := (w.queue[i]?).getD .allWell

/-- The exchange that the next reply makes of a prepared request, if it is an answer. -/
def Http.Wire.exchange? (w : Wire) (p : PreparedRequest) : Option Exchange :=
  match w.reply 0 with
  | .unreachable _ => none
  | .answer status reason headers text =>
    some { request := p, status, reason := reason.getD "", headers := mergePairs headers, text
           depth := w.depth }

/-- The wire behind a call. -/
def Http.Wire.behind (w : Wire) (p : PreparedRequest) : Wire :=
  { w with queue := w.queue.tail, calls := w.calls ++ [p.call] }

theorem ends_sendPrepared {name : String} {p : PreparedRequest} {b : Bench}
    {Q : Except Failure Exchange → Bench → Prop} :
    Ends (sendPrepared name p) b Q ↔
      match b.wire.reply 0 with
      | .unreachable reason => Q (.error (.refused (.requestFailed name reason)))
          { b with wire := b.wire.behind p }
      | .answer status reason headers text =>
        Q (.ok { request := p, status, reason := reason.getD "", headers := mergePairs headers, text
                 depth := b.wire.depth })
          { b with wire := b.wire.behind p } := by
  have hreply : b.wire.reply 0 = (b.wire.queue.head?).getD .allWell := by
    simp [Wire.reply, List.head?_eq_getElem?]
  rw [hreply]
  refine ends_bind.trans (ends_get.trans (ends_bind.trans (ends_modifyGet.trans ?_)))
  simp only [Wire.send]
  cases (b.wire.queue.head?).getD .allWell with
  | unreachable reason => exact ends_throw
  | answer status reason headers text => exact ends_pure

/-! ## Extractions only change variables -/

/-- Two stores differ in their variables at most. -/
def OnlyVariables (s s' : Store) : Prop :=
  ∃ vars lastVariable, s' = { s with vars, lastVariable }

instance : Std.Refl OnlyVariables where
  refl _ := ⟨_, _, rfl⟩

instance : IsTrans Store OnlyVariables where
  trans := by
    rintro s _ _ ⟨_, _, rfl⟩ ⟨vars, last, rfl⟩
    exact ⟨vars, last, rfl⟩

theorem keeps_applyExtractions_onlyVariables (name env : String) (x : Exchange)
    (es : List Extraction) : Keeps OnlyVariables (applyExtractions name env x es) := by
  have h : Keeps (Changes fun c => ∃ name env value source, c = .putVariable name env value source)
      (applyExtractions name env x es) :=
    keeps_applyExtractions fun e _ value => ⟨e.target, env, some value, some name, rfl⟩
  refine h.mono fun s s' hs => hs.lift ?_
  rintro s _ s' ⟨name, env, value, source, rfl⟩ happly
  rw [Change.apply, Except.ok.injEq] at happly
  subst happly
  exact ⟨_, _, rfl⟩

/-! ## One exchange -/

/-- A response that cannot be recorded changes nothing. -/
theorem ends_recordResponse (r : Response) (s : Store) :
    Ends (recordResponse r) s fun result s' =>
      match result with
      | .ok record => s.recordResponse r = .ok (record, s')
      | .error _ => s' = s := by
  unfold recordResponse
  split
  next =>
    refine ends_tryEdit.2 ?_
    split
    next => rfl
    next => cases hrecord : s.recordResponse r <;> rfl
  next => exact ends_throw.2 rfl

/-- What is done with one prepared request, whether it comes to its end or not. -/
theorem ends_runOne (name env : String) (es : List Extraction) (p : PreparedRequest) (b : Bench) :
    Ends (runOne name env es p) b fun r b' => b'.wire = b.wire.behind p ∧
      match r with
      | .ok report => ∃ x saved failed s record, b.wire.exchange? p = some x ∧
          applyExtractions name env x es b.store = .ok (saved, failed) s ∧
          s.recordResponse (recordOf name x saved) = .ok (record, b'.store) ∧
          report = {
            exchanges := [x], extracted := saved, failedExtractions := failed,
            responses := [record] }
      | .error _ => OnlyVariables b.store b'.store := by
  refine ends_bind.2 (ends_sendPrepared.2 ?_)
  cases hreply : b.wire.reply 0 with
  | unreachable reason => exact ⟨rfl, Std.Refl.refl (r := OnlyVariables) b.store⟩
  | answer status reason headers text =>
    have hexchange : b.wire.exchange? p = some {
        request := p, status, reason := reason.getD "", headers := mergePairs headers, text
        depth := b.wire.depth } := by
      rw [Wire.exchange?, hreply]
    refine ends_bind.2 (ends_onStore.2 ?_)
    refine ((ends_runsTo _ _).and
      (keeps_applyExtractions_onlyVariables name env _ es b.store)).mono fun found s hs => ?_
    obtain ⟨hfound, hvariables⟩ := hs
    cases found with
    | error e => exact ⟨rfl, hvariables⟩
    | ok found =>
      refine ends_bind.2 (ends_onStore.2 ((ends_recordResponse _ s).mono fun record s' hrecord => ?_))
      cases record with
      | error e =>
        obtain rfl : s' = s := hrecord
        exact ⟨rfl, hvariables⟩
      | ok record => exact ends_pure.2 ⟨rfl, _, _, _, s, record, hexchange, hfound, hrecord, rfl⟩

/-! ## One after the other -/

/-- What holds of nothing sent and of each exchange that came to its end, and of two parts of a
run if it holds of both, holds of a run. If a run fails then it holds of the part of it before the
exchange that stopped. -/
theorem ends_runAll {name env : String} {es : List Extraction}
    {R : List PreparedRequest → Bench → Bench → RunReport → Prop} (hnil : ∀ b, R [] b b {})
    (hone : ∀ p b report b', runOne name env es p b = .ok report b' → R [p] b b' report)
    (happend : ∀ ps qs b b' b'' first rest, R ps b b' first → R qs b' b'' rest →
      R (ps ++ qs) b b'' (first.append rest))
    (ps : List PreparedRequest) (b : Bench) :
    Ends (runAll name env es ps) b fun r b' =>
      match r with
      | .ok report => R ps b b' report
      | .error e => ∃ i p mid report, ps[i]? = some p ∧ R (ps.take i) b mid report ∧
          runOne name env es p mid = .error e b' := by
  induction ps generalizing b with
  | nil => exact ends_pure.2 (hnil b)
  | cons p ps ih =>
    refine ends_bind.2 ((ends_runsTo _ b).mono fun first b' hfirst => ?_)
    cases first with
    | error e => exact ⟨0, p, b, {}, rfl, hnil b, hfirst⟩
    | ok first =>
      -- where the rest stops, the run stops one place further on
      have hp := hone p b first b' hfirst
      refine ends_bind.2 ((ih b').mono fun rest b'' hrest => ?_)
      cases rest with
      | error e =>
        obtain ⟨i, q, mid, report, hq, hpart, hstop⟩ := hrest
        exact ⟨i + 1, q, mid, first.append report, hq, happend _ _ _ _ _ _ _ hp hpart, hstop⟩
      | ok rest => exact ends_pure.2 (happend _ _ _ _ _ _ _ hp hrest)

/-! ## A run -/

/-- A run is refused before anything is done, or forgets the records of the run before it and sends
what was planned. -/
theorem ends_runStored (name : String) (env : Option String) (b : Bench) :
    Ends (runStored name env) b fun r b' =>
      match planRun b.store name env with
      | .error refusal => r = .error (.refused refusal) ∧ b' = b
      | .ok (es, prepared) =>
        b.store.readOnly = true ∧ r = .error (.storage .readOnly) ∧ b' = b ∨
        b.store.readOnly = false ∧ RunsTo (runAll name (env.getD "") es prepared)
          { b with store := (b.store.forgetResponses name).2 } r b' := by
  refine ends_bind.2 (ends_get.2 ?_)
  dsimp only
  cases planRun b.store name env with
  | error refusal => exact ends_throw.2 ⟨rfl, rfl⟩
  | ok plan =>
    refine ends_bind.2 (ends_onStore.2 (ends_edit.2 ?_))
    split
    next hread => exact .inl ⟨hread, rfl, rfl⟩
    next hwrite =>
      exact (ends_runsTo _ _).mono fun r b' hr => .inr ⟨Bool.eq_false_iff.2 hwrite, hr⟩

/-- A run that comes to its end has sent what was planned. -/
theorem runStored_eq_ok {name : String} {env : Option String} {b b' : Bench} {report : RunReport}
    (h : runStored name env b = .ok report b') :
    ∃ es prepared, planRun b.store name env = .ok (es, prepared) ∧
      runAll name (env.getD "") es prepared
        { b with store := (b.store.forgetResponses name).2 } = .ok report b' := by
  have hends := (ends_runStored name env b).of_eq_ok h
  cases hplan : planRun b.store name env with
  | error refusal =>
    rw [hplan] at hends
    exact nomatch hends.1
  | ok plan =>
    rw [hplan] at hends
    obtain ⟨-, hrefused, -⟩ | ⟨-, hrun⟩ := hends
    · exact nomatch hrefused
    · exact ⟨plan.1, plan.2, rfl, hrun⟩

end Courier
