/-
Courier.Proofs.Grammar.Spelling — options are told apart by how they are spelled.

A word names an option by the part in front of its first sign `=`. `CommandSpec.Distinct`
is what makes that a name: no two options share a key or a spelling, and a spelling is a
dash with something behind it and no sign in it. Every command of the shell is such a
command (`distinct_of_mem_leaves`).

* `optionSpelled?_eq_some_iff`, `optionSpelled?_eq_none_iff` — what is found under a
  spelling, without the search.
* `cut_sign`, `cut_eq` — cutting a word at its first sign and writing it with a sign undo
  each other.
* `isDashed_spelling`, `isDashed_inline` — a bare word that begins with a spelling is
  dashed, so that only such a word can be an option.
-/
import Courier.Grammar.Builder
import Courier.Grammar.Table
import Courier.Proofs.Text.Parts
import Mathlib.Data.List.Nodup
import Mathlib.Data.List.Pairwise

namespace Courier.Grammar

open Courier.Text Courier.Line

/-! ## Cutting a word at its first sign -/

/-- A name, the sign and a value are cut into the name and the value. -/
theorem cut_sign {name : String} (h : '=' ∉ name.toList) (value : String) :
    cut '=' (name ++ "=" ++ value) = (name, some value) :=
  cut_eq_some_iff.2 ⟨h, by simp⟩

/-- The two parts of a word and the sign give the word back. -/
theorem cut_eq (text : String) :
    text = match cut '=' text with
      | (name, none) => name
      | (name, some value) => name ++ "=" ++ value := by
  rcases hcut : cut '=' text with ⟨name, _ | value⟩
  · exact (cut_eq_none_iff.1 hcut).1.symm
  · rw [← String.toList_inj, (cut_eq_some_iff.1 hcut).2]
    simp

/-! ## Options that can be told apart -/

/-- What is in two parts of a list without repetitions is in one part: they are the same. -/
theorem eq_of_nodup_flatMap {α β : Type} {f : α → List β} {xs : List α}
    (h : (xs.flatMap f).Nodup) {x y : α} (hx : x ∈ xs) (hy : y ∈ xs) {z : β} (hzx : z ∈ f x)
    (hzy : z ∈ f y) : x = y := by
  by_contra hne
  have : Std.Symm (Function.onFun List.Disjoint f) := ⟨fun _ _ h => List.disjoint_symm h⟩
  have hdisjoint := (List.nodup_flatMap.mp h).2.forall hx hy hne
  exact hdisjoint hzx hzy

theorem CommandSpec.mem_knownOptions {s : CommandSpec} {o : OptionSpec} (h : o ∈ s.opts) :
    o ∈ s.knownOptions := by
  unfold CommandSpec.knownOptions
  split
  · exact List.mem_append_left _ h
  · exact h

/-- A command whose options can be told apart: by their keys, by their spellings, and from
words that are no options. -/
structure CommandSpec.Distinct (s : CommandSpec) : Prop where
  keys : (s.knownOptions.map OptionSpec.key).Nodup
  spellings : (s.knownOptions.flatMap OptionSpec.spellings).Nodup
  dashed : ∀ o ∈ s.knownOptions, ∀ spelling ∈ o.spellings,
    startsWith "-" spelling = true ∧ 1 < spelling.length ∧ '=' ∉ spelling.toList

instance (s : CommandSpec) : Decidable s.Distinct :=
  decidable_of_iff
    ((s.knownOptions.map OptionSpec.key).Nodup
      ∧ (s.knownOptions.flatMap OptionSpec.spellings).Nodup
      ∧ ∀ o ∈ s.knownOptions, ∀ spelling ∈ o.spellings,
        startsWith "-" spelling = true ∧ 1 < spelling.length ∧ '=' ∉ spelling.toList)
    ⟨fun ⟨keys, spellings, dashed⟩ => ⟨keys, spellings, dashed⟩,
      fun ⟨keys, spellings, dashed⟩ => ⟨keys, spellings, dashed⟩⟩

/-- Every command of the shell tells its options apart. -/
theorem distinct_of_mem_leaves : ∀ n ∈ root.leaves, n.spec.Distinct := by decide

namespace CommandSpec.Distinct

variable {s : CommandSpec} {o p : OptionSpec} {spelling : String}

theorem eq_of_key (h : s.Distinct) (ho : o ∈ s.knownOptions) (hp : p ∈ s.knownOptions)
    (hkey : o.key = p.key) : o = p :=
  List.inj_on_of_nodup_map h.keys ho hp hkey

theorem eq_of_spelling (h : s.Distinct) (ho : o ∈ s.knownOptions) (hp : p ∈ s.knownOptions)
    (hso : spelling ∈ o.spellings) (hsp : spelling ∈ p.spellings) : o = p :=
  eq_of_nodup_flatMap h.spellings ho hp hso hsp

theorem not_mem_sign (h : s.Distinct) (ho : o ∈ s.knownOptions) (hs : spelling ∈ o.spellings) :
    '=' ∉ spelling.toList :=
  (h.dashed o ho spelling hs).2.2

/-- The option with a spelling is the one that is found. -/
theorem optionSpelled?_eq_some_iff (h : s.Distinct) :
    s.optionSpelled? spelling = some o ↔ o ∈ s.knownOptions ∧ spelling ∈ o.spellings := by
  constructor
  · intro hfind
    have hhas := List.find?_some hfind
    exact ⟨List.mem_of_find?_eq_some hfind, by simpa using hhas⟩
  · rintro ⟨ho, hs⟩
    have hsome : (s.optionSpelled? spelling).isSome = true :=
      List.find?_isSome.mpr ⟨o, ho, by simpa using hs⟩
    obtain ⟨p, hp⟩ := Option.isSome_iff_exists.mp hsome
    have hhas := List.find?_some hp
    rw [hp, h.eq_of_spelling (List.mem_of_find?_eq_some hp) ho (by simpa using hhas) hs]

end CommandSpec.Distinct

theorem optionSpelled?_eq_none_iff {s : CommandSpec} {spelling : String} :
    s.optionSpelled? spelling = none ↔ ∀ o ∈ s.knownOptions, spelling ∉ o.spellings := by
  simp [CommandSpec.optionSpelled?, List.find?_eq_none]

/-! ## Words that name options -/

theorem kind_of_isDashed {t : Token} (h : isDashed t = true) : t.kind = .bare := by
  simp only [isDashed, Bool.and_eq_true, decide_eq_true_eq] at h
  exact h.1.1

theorem isDashed_iff {t : Token} :
    isDashed t = true ↔ t.kind = .bare ∧ startsWith "-" t.text = true ∧ t.text ≠ "-" := by
  simp [isDashed, and_assoc]

theorem startsWith_append {p s : String} (h : startsWith p s = true) (rest : String) :
    startsWith p (s ++ rest) = true := by
  simp only [startsWith, List.isPrefixOf_iff_prefix, String.toList_append] at *
  exact h.trans (List.prefix_append _ _)

/-- A bare word that begins with a spelling is dashed. -/
theorem isDashed_inline {s : CommandSpec} (h : s.Distinct) {o : OptionSpec}
    (ho : o ∈ s.knownOptions) {t : Token} (hkind : t.kind = .bare) {spelling rest : String}
    (hs : spelling ∈ o.spellings) (htext : t.text = spelling ++ rest) : isDashed t = true := by
  obtain ⟨hdash, hlong, -⟩ := h.dashed o ho spelling hs
  rw [isDashed_iff, htext]
  refine ⟨hkind, startsWith_append hdash rest, fun hone => ?_⟩
  have hlength := congrArg String.length hone
  rw [String.length_append] at hlength
  have : "-".length = 1 := by decide
  omega

/-- A bare word that is a spelling is dashed. -/
theorem isDashed_spelling {s : CommandSpec} (h : s.Distinct) {o : OptionSpec}
    (ho : o ∈ s.knownOptions) {t : Token} (hkind : t.kind = .bare)
    (hs : t.text ∈ o.spellings) : isDashed t = true :=
  isDashed_inline h ho hkind hs (String.append_empty).symm

end Courier.Grammar
