/-
Courier.Proofs.Run.Sending — the headers that are sent, and those that are recorded.

The headers of a prepared request take two ways. For the call they are merged, so that each key
is there once (`mergePairs_eq_self_iff`). For the record they are written as lines, which are
stored as one text and read back from it (`storedLines_headerLines_eq_iff`). The first way loses
a header whose key is repeated, and the second one splits a header that has a line break in it.
`headers_sent_and_recorded` says that nothing else is lost in either of them, whether a run comes
to its end or stops.
-/
import Courier.Proofs.Run.Interruption
import Courier.Proofs.Store.Lines
import Mathlib.Data.List.Induction
import Mathlib.Data.List.Perm.Subperm

namespace Courier

open Courier.Text Courier.Http Courier.Store

/-! ## Merged pairs -/

namespace Http

theorem putPair_of_not_mem {key value : String} {pairs : List (String × String)}
    (h : key ∉ pairs.map Prod.fst) : putPair key value pairs = pairs ++ [(key, value)] := by
  induction pairs with
  | nil => rfl
  | cons pair pairs ih =>
    rw [List.map_cons, List.mem_cons, not_or] at h
    rw [putPair, if_neg (Ne.symm h.1), ih h.2, List.cons_append]

/-- The keys after a key got its value. -/
theorem map_fst_putPair (key value : String) (pairs : List (String × String)) :
    (putPair key value pairs).map Prod.fst =
      if key ∈ pairs.map Prod.fst then pairs.map Prod.fst else pairs.map Prod.fst ++ [key] := by
  split
  next hmem =>
    induction pairs with
    | nil => exact absurd hmem List.not_mem_nil
    | cons pair pairs ih =>
      rw [putPair]
      split
      next => rfl
      next hne =>
        rw [List.map_cons, List.map_cons, ih ((List.mem_cons.1 hmem).resolve_left (Ne.symm hne))]
  next hnew => rw [putPair_of_not_mem hnew, List.map_append, List.map_singleton]

theorem mergePairs_concat (pairs : List (String × String)) (key value : String) :
    mergePairs (pairs ++ [(key, value)]) = putPair key value (mergePairs pairs) := by
  rw [mergePairs, List.foldl_append]
  rfl

theorem mem_keys_mergePairs {key : String} {pairs : List (String × String)} :
    key ∈ (mergePairs pairs).map Prod.fst ↔ key ∈ pairs.map Prod.fst := by
  induction pairs using List.reverseRecOn with
  | nil => rfl
  | append_singleton pairs pair ih =>
    rw [mergePairs_concat, map_fst_putPair, List.map_append, List.map_singleton, List.mem_append,
      List.mem_singleton]
    split
    next hmem =>
      rw [ih]
      refine (or_iff_left_of_imp ?_).symm
      rintro rfl
      exact ih.1 hmem
    next => rw [List.mem_append, List.mem_singleton, ih]

theorem nodup_keys_mergePairs (pairs : List (String × String)) :
    ((mergePairs pairs).map Prod.fst).Nodup := by
  induction pairs using List.reverseRecOn with
  | nil => exact List.nodup_nil
  | append_singleton pairs pair ih =>
    rw [mergePairs_concat, map_fst_putPair]
    split
    next => exact ih
    next hnew =>
      rw [← List.concat_eq_append]
      exact ih.concat hnew

/-- Merging leaves pairs as they are if no key is repeated. -/
theorem mergePairs_eq_self_iff {pairs : List (String × String)} :
    mergePairs pairs = pairs ↔ (pairs.map Prod.fst).Nodup := by
  refine ⟨fun h => h ▸ nodup_keys_mergePairs pairs, fun h => ?_⟩
  induction pairs using List.reverseRecOn with
  | nil => rfl
  | append_singleton pairs pair ih =>
    rw [List.map_append, List.map_singleton, ← List.concat_eq_append, List.nodup_concat] at h
    rw [mergePairs_concat, ih h.2, putPair_of_not_mem h.1]

/-- If a key is repeated then merging makes the pairs fewer. -/
theorem length_mergePairs_lt {pairs : List (String × String)} (h : ¬ (pairs.map Prod.fst).Nodup) :
    (mergePairs pairs).length < pairs.length := by
  refine Nat.lt_of_not_le fun hle => h ?_
  have hkeys := (nodup_keys_mergePairs pairs).subperm fun _ => mem_keys_mergePairs.1
  exact (hkeys.perm_of_length_le (by simpa using hle)).nodup_iff.1 (nodup_keys_mergePairs pairs)

end Http

/-! ## Headers as lines -/

section
variable {pairs : List (String × String)}

/-- Headers are read back as they were written if there is no line break in them. -/
theorem storedLines_headerLines_eq_iff :
    storedLines (headerLines pairs) = headerLines pairs ↔
      ∀ pair ∈ pairs, '\n' ∉ pair.1.toList ∧ '\n' ∉ pair.2.toList := by
  rw [storedLines_eq_self_iff, headerLines, List.forall_mem_map]
  exact forall₂_congr fun _ _ => writeHeader_line_iff

theorem length_le_storedLines_headerLines :
    pairs.length ≤ (storedLines (headerLines pairs)).length := by
  have hlines : ∀ line ∈ headerLines pairs, lines line ≠ [] := by
    intro line hline
    obtain ⟨pair, -, rfl⟩ := List.mem_map.1 hline
    exact lines_ne_nil (colon_mem_writeHeader pair.1 pair.2) (by decide)
  simpa [headerLines] using length_le_storedLines hlines

/-- What is recorded are the headers that were sent if no key is repeated and there is no line
break in them. -/
theorem storedLines_headerLines_eq_merged_iff :
    storedLines (headerLines pairs) = headerLines (mergePairs pairs) ↔
      (pairs.map Prod.fst).Nodup ∧
        ∀ pair ∈ pairs, '\n' ∉ pair.1.toList ∧ '\n' ∉ pair.2.toList := by
  rw [← storedLines_headerLines_eq_iff]
  constructor
  · intro h
    -- the record has at least as many lines as there are headers, so none was lost on the other way
    have hnodup : (pairs.map Prod.fst).Nodup := by
      by_contra hrepeated
      have hfewer : (headerLines (mergePairs pairs)).length < pairs.length :=
        (List.length_map _).trans_lt (length_mergePairs_lt hrepeated)
      rw [← h] at hfewer
      exact Nat.not_lt.2 length_le_storedLines_headerLines hfewer
    rw [mergePairs_eq_self_iff.2 hnodup] at h
    exact ⟨hnodup, h⟩
  · rintro ⟨hnodup, h⟩
    rw [h, mergePairs_eq_self_iff.2 hnodup]

end

/-! ## A run -/

/-- However sending ends, the exchanges that were recorded are those of all calls that were made, or
of all but the last one. -/
theorem recorded_of_runsTo {name env : String} {es : List Extraction} {ps : List PreparedRequest}
    {b b' : Bench} {r : Except Failure RunReport} (h : RunsTo (runAll name env es ps) b r b') :
    ∃ n k mid report, (n = k ∨ n = k + 1) ∧ n ≤ ps.length ∧
      b'.wire.calls = b.wire.calls ++ (ps.take n).map PreparedRequest.call ∧
      Recorded name (ps.take k) b mid report ∧ OnlyVariables mid.store b'.store := by
  cases r with
  | ok report =>
    have hrecorded := (recorded_runAll name env es ps b).of_eq_ok h
    refine ⟨ps.length, ps.length, b', report, .inl rfl, Nat.le_refl _, ?_, ?_,
      Std.Refl.refl (r := OnlyVariables) b'.store⟩
    · rw [List.take_length]
      exact hrecorded.calls
    · rw [List.take_length]
      exact hrecorded
  | error e =>
    obtain ⟨k, report, hstopped⟩ := stoppedAfter_runAll h
    obtain ⟨mid, hpart, hvariables⟩ := hstopped.recorded
    exact ⟨k + 1, k, mid, report, .inr rfl, hstopped.more, hstopped.calls, hpart, hvariables⟩

theorem Recorded.requestHeaders_eq {name : String} {ps : List PreparedRequest} {b b' : Bench}
    {report : RunReport} (h : Recorded name ps b b' report) {i : Nat} {p : PreparedRequest}
    {record : Response} (hp : ps[i]? = some p) (hrecord : report.responses[i]? = some record) :
    record.requestHeaders = storedLines (headerLines p.headers) := by
  have hget := congrArg (fun headers => headers[i]?) h.requestHeaders
  simpa [List.getElem?_map, hp, hrecord] using hget

/-- **What is sent and what is recorded of it.** A run that is not refused makes some of its calls,
in order, and all of these are recorded but perhaps the last one, whose exchange stopped. A call has
the headers of its prepared request if and only if no key is repeated there, and the record lists
them if and only if there is no line break in a key or a value. So the record lists the headers that
were sent if and only if both are so. -/
theorem headers_sent_and_recorded (name : String) (env : Option String) (b : Bench) :
    let b' := stateAfter (runStored name env) b
    match planRun b.store name env with
    | .error _ => b' = b
    | .ok (_, prepared) => b.store.readOnly = true ∧ b' = b ∨
      ∃ n records, b'.wire.calls = b.wire.calls ++ (prepared.take n).map PreparedRequest.call ∧
        b'.store.responsesOf (some name) = records ∧
        (n = records.length ∨ n = records.length + 1) ∧ n ≤ prepared.length ∧
        ∀ (i : Nat) (p : PreparedRequest), (prepared.take n)[i]? = some p →
          (p.call.headers = p.headers ↔ (p.headers.map Prod.fst).Nodup) ∧
          ∀ record : Response, records[i]? = some record →
            (record.requestHeaders = headerLines p.headers ↔
              ∀ pair ∈ p.headers, '\n' ∉ pair.1.toList ∧ '\n' ∉ pair.2.toList) ∧
            (record.requestHeaders = headerLines p.call.headers ↔
              (p.headers.map Prod.fst).Nodup ∧
                ∀ pair ∈ p.headers, '\n' ∉ pair.1.toList ∧ '\n' ∉ pair.2.toList) := by
  intro b'
  obtain ⟨r, hends⟩ := (ends_runStored name env b).exists_result
  cases hplan : planRun b.store name env with
  | error refusal =>
    rw [hplan] at hends
    exact hends.2
  | ok plan =>
    rw [hplan] at hends
    obtain ⟨hread, -, hsame⟩ | ⟨-, hrun⟩ := hends
    · exact .inl ⟨hread, hsame⟩
    · obtain ⟨n, k, mid, report, hn, hle, hcalls, hpart, vars, last, hstore⟩ :=
        recorded_of_runsTo hrun
      have hk : report.responses.length = k := by
        rw [hpart.responses, List.length_take]
        omega
      have hrecords : b'.store.responsesOf (some name) = report.responses := by
        rw [hstore]
        exact hpart.responses_eq.1
      refine .inr ⟨n, report.responses, hcalls, hrecords, hk.symm ▸ hn, hle, fun i p hp => ?_⟩
      refine ⟨mergePairs_eq_self_iff, fun record hrecord => ?_⟩
      have hi : i < k := hk ▸ (List.getElem?_eq_some_iff.1 hrecord).1
      have hp' : (plan.2.take k)[i]? = some p := by
        rw [List.getElem?_take_of_lt hi]
        rwa [List.getElem?_take_of_lt (by omega)] at hp
      rw [hpart.requestHeaders_eq hp' hrecord]
      exact ⟨storedLines_headerLines_eq_iff, storedLines_headerLines_eq_merged_iff⟩

/-- A request is given the same header twice. Both are recorded, and one of them was sent. -/
theorem headers_sent_and_recorded_repeated :
    let line := "create request ping http://h/ -H 'A: 1' -H 'A: 2'"
    let b : Bench := { store := (Operation.run [.line line] {}).store }
    let b' := stateAfter (runStored "ping" none) b
    (planRun b.store "ping" none).toOption.map (fun plan => plan.2.map PreparedRequest.headers) =
        some [[("A", "1"), ("A", "2")]] ∧
      b'.wire.calls.map Call.headers = [[("A", "2")]] ∧
      (b'.store.responsesOf (some "ping")).map Response.requestHeaders = [["A: 1", "A: 2"]] := by
  decide +kernel

end Courier
