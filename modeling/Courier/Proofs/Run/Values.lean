/-
Courier.Proofs.Run.Values — the values that an option was given, when its request is prepared.

A request that needs one name alone stands for one prepared request for each value of the option
of that name, whatever variables there are (`expandRequest_of_option`). The values are stored as
lines of one text. So a value with line breaks in it is several values afterwards, and the values
that are sent are those that were given if and only if there is no line break in them
(`one_request_for_each_value_iff`).
-/
import Courier.Proofs.Run.Expansion
import Courier.Proofs.Session.Setting

namespace Courier

open Courier.Text Courier.Http Courier.Store Session

/-! ## A request that needs one name -/

section
variable {s : Store} {r : Request} {name value : String} {values : List String}

/-- An option goes before a variable, so that the variables do not matter. -/
theorem expandRequest_of_option (hs : s.Sound) (hneeds : r.placeholders = [name])
    (hoption : s.option? r.name name = some ⟨r.name, name, some value⟩) (env : Option String) :
    expandRequest s r env = .ok ((splitOn '\n' value).map fun v => r.fill [(name, v)]) := by
  have hgiven : s.givenValues? r name = some (splitOn '\n' value) := by
    rw [givenValues?, hoption]
    rfl
  have hvalues : optionValues s r = [(name, splitOn '\n' value)] := by
    rw [optionValues_eq hs, optionNames, hneeds]
    simp [hgiven]
  have hmissing : missingValues s r env = [] := by
    rw [missingValues_eq hs, hneeds]
    simp [hgiven]
  have hfill (v : String) : r.fill ([(name, v)] ++ variableValues s env) = r.fill [(name, v)] := by
    refine fill_congr fun other hother => ?_
    rw [hneeds, List.mem_singleton] at hother
    simp [hother]
  have hcombinations : combinations [(name, splitOn '\n' value)] =
      (splitOn '\n' value).map fun v => [(name, v)] := by
    simp [combinations, List.map_eq_flatMap]
  simp only [expandRequest, hmissing, List.isEmpty_nil, if_true, hvalues, hcombinations,
    List.map_map, Function.comp_def, hfill]

/-- What is stored of values is split into the parts of each of them. -/
theorem expandRequest_of_values (hs : s.Sound) (hneeds : r.placeholders = [name])
    (hvalues : values ≠ [])
    (hoption : s.option? r.name name = some ⟨r.name, name, storedValue values⟩)
    (env : Option String) :
    expandRequest s r env =
      .ok ((values.flatMap (splitOn '\n')).map fun v => r.fill [(name, v)]) := by
  have hstored : storedValue values = some (joinLines values) :=
    if_neg (by simpa using hvalues)
  rw [hstored] at hoption
  rw [expandRequest_of_option hs hneeds hoption, splitOn_joinLines hvalues]

end

/-- Parts of values are as many as the values if there is no line break in these, and only then. -/
theorem map_parts_eq_iff {values : List String} {f : String → PreparedRequest} :
    (values.flatMap (splitOn '\n')).map f = values.map f ↔
      ∀ value ∈ values, '\n' ∉ value.toList := by
  constructor
  · intro h
    have hlength := congrArg List.length h
    rw [List.length_map, List.length_map] at hlength
    exact length_flatMap_splitOn_eq_iff.1 hlength
  · intro h
    rw [flatMap_splitOn_eq_self h]

/-! ## Setting and preparing -/

/-- **One request for each value.** After an option was given values, and for as long as no
operation touches it, its request is prepared once for each part of each value, if it needs no
other name; whatever the environment. These are the values themselves if and only if there is no
line break in them. -/
theorem one_request_for_each_value_iff (host : Host) (disk : Disk) (dataDir : Path) (wire : Wire)
    (before : List Operation) {r : Request} {name : String} {values : List String}
    {row : RequestOption} {s : Session} (hneeds : r.placeholders = [name]) (hvalues : values ≠ [])
    (hset : onRows (assignOption r.name name values)
      (Operation.run before { host, disk, dataDir, wire }) = .ok row s) :
    ∃ shelf, s.shelf? = some shelf ∧
      ∀ after, s.leavesOption r.name name shelf after = true →
        let s' := Operation.run after s
        s'.shelf? = some shelf → ∀ env,
          expandRequest s'.store r env =
            .ok ((values.flatMap (splitOn '\n')).map fun v => r.fill [(name, v)]) ∧
          (expandRequest s'.store r env = .ok (values.map fun v => r.fill [(name, v)]) ↔
            ∀ value ∈ values, '\n' ∉ value.toList) := by
  obtain ⟨s₁, shelf, t, -, hshelf, hassign, hs⟩ := onRows_ok_inv hset
  obtain ⟨rfl, -, hthere⟩ := assignOption_eq_ok hassign
  have hhere : s.shelf? = some shelf := hs ▸ (shelf?_putBench s₁ _).trans hshelf
  have hrow : (s.rowsAt shelf).option? r.name name = some ⟨r.name, name, storedValue values⟩ := by
    rw [hs, rowsAt_putBench, if_pos hshelf]
    exact hthere
  have hsound : s.Sound := by
    have hperform : (Operation.assignOption r.name name values).perform
        (Operation.run before { host, disk, dataDir, wire }) = .ok () s :=
      bind_of_eq_ok hset
    have hafter := sound_perform (.assignOption r.name name values)
      (sound_run_fresh host disk dataDir wire before)
    rwa [stateAfter, hperform] at hafter
  refine ⟨shelf, hhere, fun after hleaves => ?_⟩
  intro s' hback env
  have hkept := option?_run hrow hleaves
  have hoption : s'.store.option? r.name name = some ⟨r.name, name, storedValue values⟩ := by
    rw [← writable_store hback] at hkept
    exact hkept
  have hexpand := expandRequest_of_values (sound_run after hsound).store hneeds hvalues hoption env
  refine ⟨hexpand, ?_⟩
  rw [hexpand, Except.ok.injEq]
  exact map_parts_eq_iff

/-- Another request with an option of that name, a variable of that name, a run, and a request of
its name in another workspace, which is deleted there. -/
def operationsBetween : List Operation :=
  [.createRequest { name := "get-y", url := "http://h/\x7bid\x7d" },
    .assignOption "get-y" "id" ["9"], .createVariable "id" ["dev=8"] "user",
    .send "get-x" (some "dev"), .switchWorkspace "shop",
    .createRequest { name := "get-x", url := "http://h/\x7bid\x7d" }, .line "delete request get-x",
    .switchWorkspace "playground"]

theorem one_request_for_each_value_iff_between :
    let r : Request := { name := "get-x", method := "GET", url := "http://h/\x7bid\x7d" }
    let before : List Operation := [.createRequest { name := r.name, url := r.url }]
    ∃ row s, onRows (assignOption r.name "id" ["1", ""]) (Operation.run before {}) = .ok row s ∧
      let s' := Operation.run operationsBetween s
      s'.store.request? r.name = some r ∧
      expandRequest s'.store r (some "dev") =
        .ok [⟨"GET", "http://h/1", [], none⟩, ⟨"GET", "http://h/", [], none⟩] := by
  intro r before
  have hsets : succeedsWith (onRows (assignOption r.name "id" ["1", ""]))
      (Operation.run before {}) (fun _ s => s.shelf?.any fun shelf =>
        decide (s.leavesOption r.name "id" shelf operationsBetween = true ∧
          (Operation.run operationsBetween s).shelf? = some shelf ∧
          (Operation.run operationsBetween s).store.request? r.name = some r)) = true := by
    decide +kernel
  obtain ⟨row, s, hset, hlater⟩ := exists_ok_of_succeedsWith hsets
  obtain ⟨shelf, hshelf, hexpand⟩ := one_request_for_each_value_iff {} {} (Path.parse "data") {}
    before (r := r) (by decide +kernel) (by decide) hset
  rw [hshelf] at hlater
  obtain ⟨hleaves, hhere, hstored⟩ := of_decide_eq_true hlater
  have hvalues := (hexpand operationsBetween hleaves hhere (some "dev")).2.2 (by decide)
  have hfilled : ["1", ""].map (fun v => r.fill [("id", v)]) =
      [⟨"GET", "http://h/1", [], none⟩, ⟨"GET", "http://h/", [], none⟩] := by decide +kernel
  exact ⟨row, s, hset, hstored, hfilled ▸ hvalues⟩

/-- One value with a line break in it, and two requests. -/
theorem one_request_for_two_lines :
    let r : Request := { name := "get-x", method := "GET", url := "http://h/\x7bid\x7d" }
    let before : List Operation := [.createRequest { name := r.name, url := r.url }]
    r.placeholders = ["id"] ∧
      ∃ row s, onRows (assignOption r.name "id" ["a\nb"]) (Operation.run before {}) = .ok row s ∧
        s.store.request? r.name = some r ∧
        expandRequest s.store r none =
          .ok [⟨"GET", "http://h/a", [], none⟩, ⟨"GET", "http://h/b", [], none⟩] := by
  intro r before
  have hsets : succeedsWith (onRows (assignOption r.name "id" ["a\nb"]))
      (Operation.run before {}) (fun _ s =>
        decide (s.store.request? r.name = some r ∧ expandRequest s.store r none =
          .ok [⟨"GET", "http://h/a", [], none⟩, ⟨"GET", "http://h/b", [], none⟩])) = true := by
    decide +kernel
  obtain ⟨row, s, hset, htwo⟩ := exists_ok_of_succeedsWith hsets
  exact ⟨by decide +kernel, row, s, hset, of_decide_eq_true htwo⟩

end Courier
