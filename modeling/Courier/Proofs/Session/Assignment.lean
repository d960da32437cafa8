/-
Courier.Proofs.Session.Assignment — a variable is set in all environments that are asked for, or
in none.

What can be wrong with the name and the pairs (`Unsettable`) is found out before the workspace is
opened, and only this is refused as an input. Once nothing is wrong with them, the values are one
change to the rows (`ends_onRows_edit`), which is made as a whole or, if the rows cannot be
written, not at all.
-/
import Courier.Proofs.Session.Readiness
import Courier.Proofs.Store.Assignment

namespace Courier

open Courier.Text Courier.Http Courier.Store Courier.Database Session

variable {name : String} {pairs : List String}

/-- If something is wrong with the name or the pairs then this is refused, and nothing is done. -/
theorem createVariable_of_unsettable (h : Unsettable name pairs) (source : String) (s : Session) :
    ∃ fault, Current.createVariable name pairs source s =
      .error (.refused (.invalidInput fault)) s := by
  cases hcheck : checkVariable name pairs with
  | ok checked => exact absurd h (checkVariable_eq_ok_iff.1 hcheck).1
  | error fault =>
    refine ⟨fault, ?_⟩
    rw [Current.createVariable, hcheck]
    rfl

/-- Otherwise it is one change to the rows. -/
theorem createVariable_of_settable (h : ¬ Unsettable name pairs) (source : String) :
    Current.createVariable name pairs source =
      onRows (StoreAction.edit fun rows => rows.setVariable (strip name) source
        (pairs.map fun pair => (environmentOf pair, valueOf pair))) := by
  have hcheck := checkVariable_eq_ok_iff.2 ⟨h, rfl⟩
  have hcreate : Courier.createVariable name pairs source =
      StoreAction.edit fun rows => rows.setVariable (strip name) source
        (pairs.map fun pair => (environmentOf pair, valueOf pair)) := by
    unfold Courier.createVariable
    rw [hcheck]
  rw [Current.createVariable, hcheck, hcreate]
  rfl

/-- **A variable is set everywhere or nowhere.** In every session that began without rows, for
every name, list of pairs and source, setting the variable is refused as an invalid input if and
only if the name is blank, there are no pairs, some pair has no sign or no environment in front of
the first one, or two pairs have the same environment; then nothing is changed. If it is not
refused and the rows of the current workspace can be written, as they can in an ordinary data
directory with no locks, no permissions and nobody else at work (`Session.Writable`), then it
succeeds: there is exactly one row for the name, without blanks around it, and the environment of
each pair, with the text behind the first sign and the source, and with the number of the row that
was there before; the result lists these rows in the order of the pairs; and all other rows are what
they were and stand where they stood. If the rows cannot be written then the storage refuses it, and
no row is changed. -/
theorem variable_is_set_everywhere_or_nowhere (host : Host) (disk : Disk) (dataDir : Path)
    (wire : Wire) (ops : List Operation) (name source : String) (pairs : List String) :
    let s := Operation.run ops { host, disk, dataDir, wire }
    let values := pairs.map fun pair => (environmentOf pair, valueOf pair)
    (isPlainDir dataDir = true → s.Writable) ∧
    ((∃ fault s', Current.createVariable name pairs source s =
        .error (.refused (.invalidInput fault)) s') ↔ Unsettable name pairs) ∧
    (∀ fault s', Current.createVariable name pairs source s =
        .error (.refused (.invalidInput fault)) s' → s' = s) ∧
    (¬ Unsettable name pairs → s.Writable → ∃ rows s',
      Current.createVariable name pairs source s = .ok rows s' ∧
      s.store.SetIn (strip name) source values rows s'.store ∧ s.Rewritten s'.store s') ∧
    (¬ Unsettable name pairs → ¬ s.Writable → ∃ fault s',
      Current.createVariable name pairs source s = .error (.storage fault) s' ∧
      s.Rewritten s.store s') := by
  intro s values
  have hsound : s.store.Sound := (sound_run_fresh host disk dataDir wire ops).store
  have hlock (rows : Store) :
      (rows.setVariable (strip name) source values).2.readOnly = rows.readOnly := by
    rw [setVariable_rest]
  refine ⟨fun hplain => writable_run_fresh host disk hplain wire ops, ?_⟩
  by_cases hsettable : Unsettable name pairs
  · obtain ⟨fault, hrefused⟩ := createVariable_of_unsettable hsettable source s
    refine ⟨iff_of_true ⟨fault, s, hrefused⟩ hsettable, fun fault s' h => ?_,
      fun h => absurd hsettable h, fun h => absurd hsettable h⟩
    rw [hrefused] at h
    cases h
    rfl
  · have hset := createVariable_of_settable hsettable source
    have hunrefused (fault : InputFault) (s' : Session) :
        Current.createVariable name pairs source s ≠ .error (.refused (.invalidInput fault)) s' := by
      intro hrefused
      rw [hset] at hrefused
      by_cases hwritable : s.Writable
      · obtain ⟨t, hrun, -⟩ := onRows_edit_of_writable hlock hwritable
        exact nomatch hrun.symm.trans hrefused
      · obtain ⟨e, t, hrun, -⟩ := onRows_edit_of_not_writable hlock hwritable
        exact nomatch hrun.symm.trans hrefused
    refine ⟨iff_of_false (fun ⟨fault, s', h⟩ => hunrefused fault s' h) hsettable,
      fun fault s' h => absurd h (hunrefused fault s'), fun _ hwritable => ?_, fun _ hlocked => ?_⟩
    · obtain ⟨s', hrun, hrows⟩ := onRows_edit_of_writable hlock hwritable
      have henvironments : (values.map Prod.fst).Nodup := by
        simp only [Unsettable, not_or, not_not] at hsettable
        rw [List.map_map]
        exact hsettable.2.2.2
      refine ⟨(s.store.setVariable (strip name) source values).1, s', ?_, ?_, ?_⟩
      · rw [hset]
        exact hrun
      · rw [hrows.store]
        exact setIn_setVariable hsound.vars henvironments
      · rw [hrows.store]
        exact hrows
    · rw [hset]
      exact onRows_edit_of_not_writable hlock hlocked

/-- A variable that is there in one environment is set in this and in another one. A variable of
another name is there, too. -/
theorem variable_is_set_everywhere_or_nowhere_again :
    let ops : List Operation := [.putVariable "token" "dev" (some "old") (some "ping"),
      .putVariable "user" "dev" (some "me") none]
    let s := Operation.run ops {}
    s.store.vars = [⟨1, "token", "dev", some "old", some "ping"⟩,
        ⟨2, "user", "dev", some "me", none⟩] ∧
      ∃ rows s', Current.createVariable " token " ["prod=a=b", "dev="] "user" s = .ok rows s' ∧
        s.store.SetIn "token" "user" [("prod", "a=b"), ("dev", "")] rows s'.store ∧
        rows.map Variable.env = ["prod", "dev"] ∧
        s'.store.vars.filter (fun v => v.name = "token" && v.env = "dev") =
          [⟨1, "token", "dev", some "", some "user"⟩] := by
  intro ops s
  have hvars : s.store.vars = [⟨1, "token", "dev", some "old", some "ping"⟩,
      ⟨2, "user", "dev", some "me", none⟩] := by decide +kernel
  refine ⟨hvars, ?_⟩
  have hsettable : ¬ Unsettable " token " ["prod=a=b", "dev="] := by decide +kernel
  have hname : strip " token " = "token" := by decide +kernel
  have hvalues : ["prod=a=b", "dev="].map (fun pair => (environmentOf pair, valueOf pair)) =
      [("prod", "a=b"), ("dev", "")] := by decide +kernel
  obtain ⟨hwritable, -, -, hdone, -⟩ := variable_is_set_everywhere_or_nowhere {} {}
    (Path.parse "data") {} ops " token " "user" ["prod=a=b", "dev="]
  obtain ⟨rows, s', hrun, hset, -⟩ := hdone hsettable (hwritable (by decide +kernel))
  rw [hname, hvalues] at hset
  refine ⟨rows, s', hrun, hset, ?_, ?_⟩
  · simpa [List.map_map, Function.comp_def] using
      congrArg (List.map fun row => row.2.1) hset.listed
  · obtain ⟨row, hrow, hlisted⟩ : ∃ row ∈ rows, (row.name, row.env, row.value, row.source) =
        ("token", "dev", some "", some "user") := by
      rw [← List.mem_map, hset.listed]
      simp
    obtain ⟨id, _, _, _, _⟩ := row
    cases hlisted
    have hthere : ⟨1, "token", "dev", some "old", some "ping"⟩ ∈ s.store.vars := by
      rw [hvars]
      exact List.mem_cons_self
    obtain rfl : id = 1 := hset.number _ hrow _ hthere rfl rfl
    exact hset.only _ hrow

end Courier
