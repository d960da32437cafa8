/-
Courier.Proofs.Session.Suggestion — which names are suggested for a new request.

Names have a verb, a dash and a suffix: what is behind the first dash of a name, if anything is
(`nameSuffix?_eq_some_iff`). Each suffix that is known goes with each verb, and such a name is
suggested unless there is a request with it.

No verb has a dash in it. So the suffix of a suggested name is the one that it was made with,
whatever dashes are in that suffix, and no name is suggested twice: it says itself which verb and
which suffix it comes from (`dashed_inj`).

Lists in which nothing is repeated keep each member where it first appears
(`appears_eraseDups`), so that suffixes are in the order of the names that have them.
-/
import Courier.Proofs.Text.Parts
import Courier.Session.Suggest
import Mathlib.Data.List.Induction

namespace Courier

open Courier.Grammar Courier.Text

/-! ## First appearances -/

/-- The list has `x` before it has `y`: some beginning of it has `x` already and `y` not yet. -/
def AppearsBefore {α : Type} (xs : List α) (x y : α) : Prop :=
  ∃ seen, seen <+: xs ∧ x ∈ seen ∧ y ∉ seen

theorem AppearsBefore.ne {α : Type} {xs : List α} {x y : α} (h : AppearsBefore xs x y) :
    x ≠ y := by
  obtain ⟨seen, -, hx, hy⟩ := h
  intro hxy
  exact hy (hxy ▸ hx)

/-- What is left without repetitions stands in the order in which it first appears. -/
theorem appears_eraseDups (xs : List String) : xs.eraseDups.Pairwise (AppearsBefore xs) := by
  induction xs using List.reverseRecOn with
  | nil => simp
  | append_singleton xs x ih =>
    have hkept {y z : String} (h : AppearsBefore xs y z) : AppearsBefore (xs ++ [x]) y z := by
      obtain ⟨seen, hseen, hy, hz⟩ := h
      exact ⟨seen, hseen.trans (List.prefix_append xs [x]), hy, hz⟩
    rw [List.eraseDups_append, List.pairwise_append]
    refine ⟨ih.imp hkept, ?_, ?_⟩
    · by_cases hx : x ∈ xs <;> simp [List.removeAll, List.eraseDups_cons, hx]
    · intro y hy z hz
      simp only [List.mem_eraseDups, List.removeAll, List.mem_filter, List.mem_singleton] at hy hz
      obtain ⟨rfl, hnew⟩ := hz
      exact ⟨xs, List.prefix_append xs [z], hy, by simpa using hnew⟩

theorem nodup_eraseDups (xs : List String) : xs.eraseDups.Nodup :=
  (appears_eraseDups xs).imp AppearsBefore.ne

/-! ## Suffixes -/

theorem cut_dashed {front : String} (h : '-' ∉ front.toList) (suffix : String) :
    cut '-' (dashed front suffix) = (front, some suffix) :=
  cut_eq_some_iff.2 ⟨h, by simp [dashed]⟩

/-- Where a name has no dash in front of its suffix, it tells both. -/
theorem dashed_inj {front front' suffix suffix' : String} (h : '-' ∉ front.toList)
    (h' : '-' ∉ front'.toList) (heq : dashed front suffix = dashed front' suffix') :
    front = front' ∧ suffix = suffix' := by
  have hcut := congrArg (cut '-') heq
  rw [cut_dashed h, cut_dashed h'] at hcut
  simpa using hcut

/-- The suffix of a name is what stands behind its first dash, if anything does. -/
theorem nameSuffix?_eq_some_iff {name suffix : String} :
    nameSuffix? name = some suffix ↔
      suffix ≠ "" ∧ ∃ front, '-' ∉ front.toList ∧ name = dashed front suffix := by
  constructor
  · intro h
    rw [nameSuffix?, Option.filter_eq_some_iff] at h
    obtain ⟨hsome, hnonempty⟩ := h
    obtain ⟨hfront, hname⟩ := cut_eq_some_iff.1 (Prod.ext rfl hsome)
    refine ⟨by simpa using hnonempty, (cut '-' name).1, hfront, ?_⟩
    rw [← String.toList_inj, hname]
    simp [dashed]
  · intro h
    obtain ⟨hnonempty, front, hfront, rfl⟩ := h
    simp [nameSuffix?, cut_dashed hfront, hnonempty]

/-- The suffixes of names, each where it first appears. -/
def knownSuffixes (names : List String) : List String := (names.filterMap nameSuffix?).eraseDups

theorem mem_knownSuffixes {names : List String} {suffix : String} :
    suffix ∈ knownSuffixes names ↔ ∃ name ∈ names, nameSuffix? name = some suffix := by
  rw [knownSuffixes, List.mem_eraseDups, List.mem_filterMap]

theorem mem_knownSuffixes_iff {names : List String} {suffix : String} :
    suffix ∈ knownSuffixes names ↔
      suffix ≠ "" ∧ ∃ front, '-' ∉ front.toList ∧ dashed front suffix ∈ names := by
  rw [mem_knownSuffixes]
  constructor
  · intro ⟨name, hname, hsuffix⟩
    obtain ⟨hnonempty, front, hfront, rfl⟩ := nameSuffix?_eq_some_iff.mp hsuffix
    exact ⟨hnonempty, front, hfront, hname⟩
  · intro ⟨hnonempty, front, hfront, hname⟩
    exact ⟨_, hname, nameSuffix?_eq_some_iff.mpr ⟨hnonempty, front, hfront, rfl⟩⟩

/-- Suffixes stand in the order in which names first have them. -/
theorem ordered_knownSuffixes (names : List String) :
    (knownSuffixes names).Pairwise fun s t => ∃ seen, seen <+: names ∧
      (∃ name ∈ seen, nameSuffix? name = some s) ∧ ∀ name ∈ seen, nameSuffix? name ≠ some t := by
  refine (appears_eraseDups _).imp ?_
  intro s t ⟨suffixes, hbegin, hs, ht⟩
  obtain ⟨seen, hseen, rfl⟩ := List.prefix_filterMap_iff.mp hbegin
  refine ⟨seen, hseen, List.mem_filterMap.mp hs, ?_⟩
  intro name hname hsuffix
  exact ht (List.mem_filterMap.mpr ⟨name, hname, hsuffix⟩)

/-! ## Names made of verbs and suffixes -/

theorem dash_not_mem_verb {verb : String} (h : verb ∈ nameVerbs) : '-' ∉ verb.toList := by
  revert verb
  decide

/-- The names that verbs and suffixes make, by suffix and then by verb. -/
def combinedNames (suffixes : List String) : List String :=
  suffixes.flatMap fun suffix => nameVerbs.map fun verb => dashed verb suffix

theorem mem_combinedNames {suffixes : List String} {name : String} :
    name ∈ combinedNames suffixes ↔ ∃ s ∈ suffixes, ∃ verb ∈ nameVerbs, name = dashed verb s := by
  simp [combinedNames, eq_comm]

/-- The first name has the suffix that comes first, or the same suffix and the verb that does. -/
def StandsBefore (suffixes : List String) (name name' : String) : Prop :=
  ∃ s ∈ suffixes, ∃ verb ∈ nameVerbs, ∃ s' ∈ suffixes, ∃ verb' ∈ nameVerbs,
    name = dashed verb s ∧ name' = dashed verb' s' ∧
      ([s, s'].Sublist suffixes ∨ s = s' ∧ [verb, verb'].Sublist nameVerbs)

theorem ordered_combinedNames (suffixes : List String) :
    (combinedNames suffixes).Pairwise (StandsBefore suffixes) := by
  rw [combinedNames, List.pairwise_flatMap]
  constructor
  · intro s hs
    rw [List.pairwise_map, List.pairwise_iff_forall_sublist]
    intro verb verb' hverbs
    exact ⟨s, hs, verb, hverbs.subset (by simp), s, hs, verb', hverbs.subset (by simp), rfl, rfl,
      .inr ⟨rfl, hverbs⟩⟩
  · rw [List.pairwise_iff_forall_sublist]
    intro s s' hsuffixes name hname name' hname'
    obtain ⟨verb, hverb, rfl⟩ := List.mem_map.mp hname
    obtain ⟨verb', hverb', rfl⟩ := List.mem_map.mp hname'
    exact ⟨s, hsuffixes.subset (by simp), verb, hverb, s', hsuffixes.subset (by simp), verb',
      hverb', rfl, rfl, .inl hsuffixes⟩

/-- No name stands before itself. -/
theorem StandsBefore.ne {suffixes : List String} (hnodup : suffixes.Nodup) {name name' : String}
    (h : StandsBefore suffixes name name') : name ≠ name' := by
  obtain ⟨s, -, verb, hverb, s', -, verb', hverb', rfl, rfl, hbefore⟩ := h
  intro hsame
  obtain ⟨rfl, rfl⟩ := dashed_inj (dash_not_mem_verb hverb) (dash_not_mem_verb hverb') hsame
  rcases hbefore with hsuffixes | ⟨-, hverbs⟩
  · simpa using hnodup.sublist hsuffixes
  · have hdistinct : nameVerbs.Nodup := by decide
    simpa using hdistinct.sublist hverbs

theorem suggestedNames_of_no_suffix {existing : List String} (h : knownSuffixes existing = []) :
    suggestedNames existing = ["create-", "update-", "get-", "delete-"] := by
  rw [knownSuffixes] at h
  rw [suggestedNames, h]
  rfl

theorem suggestedNames_of_suffix {existing : List String} (h : knownSuffixes existing ≠ []) :
    suggestedNames existing
      = (combinedNames (knownSuffixes existing)).filter fun name => !existing.contains name := by
  rw [knownSuffixes] at *
  rw [suggestedNames]
  split
  next hnone => exact absurd hnone h
  next => rfl

/-- A name that is made of a verb and a known suffix has that suffix. -/
theorem nameSuffix?_of_mem_suggestedNames {existing : List String} {name : String}
    (h : name ∈ suggestedNames existing) {suffix : String}
    (hsuffix : nameSuffix? name = some suffix) : suffix ∈ knownSuffixes existing := by
  by_cases hnone : knownSuffixes existing = []
  · rw [suggestedNames_of_no_suffix hnone] at h
    have hopen : ∀ name ∈ ["create-", "update-", "get-", "delete-"], nameSuffix? name = none := by
      decide
    rw [hopen name h] at hsuffix
    exact nomatch hsuffix
  · rw [suggestedNames_of_suffix hnone] at h
    obtain ⟨s, hs, verb, hverb, rfl⟩ := mem_combinedNames.mp (List.mem_of_mem_filter h)
    obtain ⟨-, front, hfront, hname⟩ := nameSuffix?_eq_some_iff.mp hsuffix
    obtain ⟨-, rfl⟩ := dashed_inj (dash_not_mem_verb hverb) hfront hname
    exact hs

theorem nodup_suggestedNames (existing : List String) : (suggestedNames existing).Nodup := by
  by_cases hnone : knownSuffixes existing = []
  · rw [suggestedNames_of_no_suffix hnone]
    decide
  · rw [suggestedNames_of_suffix hnone]
    have hnodup : (combinedNames (knownSuffixes existing)).Nodup :=
      (ordered_combinedNames _).imp fun h => h.ne (nodup_eraseDups _)
    exact hnodup.filter _

/-- **The names that are suggested.** The known suffixes are what stands behind the first dash of
the names that exist, if anything does, each once and in the order in which names first have them.
Without any, each verb is suggested with a dash behind it. Otherwise a name is suggested exactly
if a verb and a known suffix make it and it does not exist, by suffix and then by verb. No name is
suggested twice, and with a suggested name among the others the known suffixes are the same. -/
theorem suggested_names_combine_verbs_and_suffixes (existing : List String) :
    (∀ s, s ∈ knownSuffixes existing ↔
      s ≠ "" ∧ ∃ front, '-' ∉ front.toList ∧ front ++ "-" ++ s ∈ existing) ∧
    (knownSuffixes existing).Nodup ∧
    ((knownSuffixes existing).Pairwise fun s t => ∃ seen, seen <+: existing ∧
      (∃ name ∈ seen, nameSuffix? name = some s) ∧ ∀ name ∈ seen, nameSuffix? name ≠ some t) ∧
    (knownSuffixes existing = [] →
      suggestedNames existing = ["create-", "update-", "get-", "delete-"]) ∧
    (knownSuffixes existing ≠ [] →
      (∀ name, name ∈ suggestedNames existing ↔
        (∃ s ∈ knownSuffixes existing, ∃ verb ∈ nameVerbs, name = verb ++ "-" ++ s) ∧
          name ∉ existing) ∧
      (suggestedNames existing).Pairwise (StandsBefore (knownSuffixes existing))) ∧
    (suggestedNames existing).Nodup ∧
    ∀ name ∈ suggestedNames existing, ∀ s,
      s ∈ knownSuffixes (name :: existing) ↔ s ∈ knownSuffixes existing := by
  refine ⟨fun s => mem_knownSuffixes_iff, nodup_eraseDups _, ordered_knownSuffixes existing,
    suggestedNames_of_no_suffix, ?_, nodup_suggestedNames existing, ?_⟩
  · intro hsome
    rw [suggestedNames_of_suffix hsome]
    constructor
    · intro name
      rw [List.mem_filter, mem_combinedNames]
      simp [dashed]
    · exact (ordered_combinedNames _).filter _
  · intro name hname s
    rw [mem_knownSuffixes, List.exists_mem_cons_iff, ← mem_knownSuffixes]
    constructor
    · intro h
      rcases h with hsuffix | hknown
      · exact nameSuffix?_of_mem_suggestedNames hname hsuffix
      · exact hknown
    · exact Or.inr

/-- A suffix may look like a name that has one itself. -/
theorem suggested_names_combine_verbs_and_suffixes_nested :
    let existing := ["x-get-a", "ping", "get-a", "get-get-a"]
    knownSuffixes existing = ["get-a", "a"] ∧
      suggestedNames existing = ["create-get-a", "update-get-a", "delete-get-a", "create-a",
        "update-a", "delete-a"] ∧
      (∃ s ∈ knownSuffixes existing, ∃ verb ∈ nameVerbs, "create-get-a" = verb ++ "-" ++ s) ∧
      "create-get-a" ∉ existing ∧
      (∀ s, s ∈ knownSuffixes ("create-get-a" :: existing) ↔ s ∈ knownSuffixes existing) ∧
      knownSuffixes ["create-"] = [] ∧
      suggestedNames ["create-"] = ["create-", "update-", "get-", "delete-"] := by
  intro existing
  have hsuffixes : knownSuffixes existing = ["get-a", "a"] := by decide +kernel
  have hsuggested : suggestedNames existing = ["create-get-a", "update-get-a", "delete-get-a",
      "create-a", "update-a", "delete-a"] := by decide +kernel
  have hfirst : "create-get-a" ∈ suggestedNames existing := by
    rw [hsuggested]
    exact List.mem_cons_self
  obtain ⟨-, -, -, -, hcombined, -, hclosed⟩ := suggested_names_combine_verbs_and_suffixes existing
  obtain ⟨hmade, hnew⟩ := ((hcombined (by simp [hsuffixes])).1 "create-get-a").mp hfirst
  have hnone : knownSuffixes ["create-"] = [] := by decide +kernel
  obtain ⟨-, -, -, hopen, -, -, -⟩ := suggested_names_combine_verbs_and_suffixes ["create-"]
  exact ⟨hsuffixes, hsuggested, hmade, hnew, hclosed _ hfirst, hnone, hopen hnone⟩

end Courier
