/-
Courier.Proofs.Grammar.Resolution — from the words of a line to a command and the rest.

The first words of a line lead down the tree of commands. `walkFrom_spec` is what can be
said of any walk: the words are those that were taken and those that remain, and the
commands below the node that is reached are commands below the node it began at.

A property of all specs of the tree is checked once (`CommandSpec.everywhere`) and holds
wherever words lead (`everywhere_walkFrom`).

`findLeaf_cases` says what that means for a line. Either its first words name a command of
the tree, and that is at least one word, or there is an error at a word or at the end. The
case of a walk that fails without a word does not occur.
-/
import Courier.Command
import Mathlib.Data.List.Basic

namespace Courier.Grammar

open Courier.Line

/-! ## Commands below a node -/

theorem mem_leaves_self {n : Node} (h : n.isLeaf = true) : n ∈ n.leaves := by
  obtain ⟨⟨name, aliases, help, args, rest, opts, children, literal, kind⟩, path⟩ := n
  cases children with
  | nil => simp [Node.leaves, leavesAt]
  | cons c cs => simp [Node.isLeaf, CommandSpec.isLeaf] at h

theorem leavesAt_subset_leavesBelow (path : List String) {c : CommandSpec}
    {cs : List CommandSpec} (h : c ∈ cs) :
    leavesAt (path ++ [c.name]) c ⊆ leavesBelow path cs := by
  induction cs with
  | nil => simp at h
  | cons d ds ih =>
    rw [leavesBelow]
    rcases List.mem_cons.mp h with rfl | h
    · exact List.subset_append_left _ _
    · exact List.subset_append_of_subset_right _ (ih h)

/-- The commands below a child are commands below the group. -/
theorem leaves_child_subset {n child : Node} {name : String} (h : n.child? name = some child) :
    child.leaves ⊆ n.leaves := by
  obtain ⟨c, hc, rfl⟩ := List.mem_map.mp (List.mem_of_find?_eq_some h)
  obtain ⟨⟨name, aliases, help, args, rest, opts, children, literal, kind⟩, path⟩ := n
  cases children with
  | nil => simp at hc
  | cons d ds =>
    have hsubset := leavesAt_subset_leavesBelow path hc
    simpa only [Node.leaves, leavesAt, Node.below] using hsubset

/-! ## Walks -/

/-- How far the words lead: to a node below, behind some words, and if that is because a
word failed to name a child then that word is the next one. -/
theorem walkFrom_spec (n : Node) (ts : List Token) :
    (walkFrom n ts).node.leaves ⊆ n.leaves ∧
    (∃ taken, ts = taken ++ (walkFrom n ts).remaining ∧
      (taken = [] → (walkFrom n ts).node = n)) ∧
    ((walkFrom n ts).matched = false → (walkFrom n ts).remaining ≠ []) := by
  induction ts generalizing n with
  | nil => exact ⟨List.Subset.refl _, ⟨[], rfl, fun _ => rfl⟩, by simp [walkFrom]⟩
  | cons t ts ih =>
    rw [walkFrom]
    split
    · exact ⟨List.Subset.refl _, ⟨[], rfl, fun _ => rfl⟩, by simp⟩
    · split
      · exact ⟨List.Subset.refl _, ⟨[], rfl, fun _ => rfl⟩, by simp⟩
      · next child hchild =>
        obtain ⟨hleaves, ⟨taken, htaken, -⟩, hfault⟩ := ih child
        exact ⟨List.Subset.trans hleaves (leaves_child_subset hchild),
          ⟨t :: taken, by rw [List.cons_append, ← htaken], by simp⟩, hfault⟩

/-! ## What holds of the whole tree -/

mutual

/-- Whether a property holds of a spec and of all that is below it. -/
def CommandSpec.everywhere (p : CommandSpec → Bool) : CommandSpec → Bool
  | ⟨name, aliases, help, args, rest, opts, children, literal, kind⟩ =>
    p ⟨name, aliases, help, args, rest, opts, children, literal, kind⟩
      && everywhereAmong p children

/-- Whether a property holds of specs and of all that is below them. -/
def everywhereAmong (p : CommandSpec → Bool) : List CommandSpec → Bool
  | [] => true
  | c :: cs => c.everywhere p && everywhereAmong p cs

end

variable {p : CommandSpec → Bool}

theorem everywhereAmong_iff {cs : List CommandSpec} :
    everywhereAmong p cs = true ↔ ∀ c ∈ cs, c.everywhere p = true := by
  induction cs with
  | nil => simp [everywhereAmong]
  | cons c cs ih => simp [everywhereAmong, ih]

theorem CommandSpec.everywhere_iff {s : CommandSpec} :
    s.everywhere p = true ↔ p s = true ∧ ∀ c ∈ s.children, c.everywhere p = true := by
  cases s
  rw [CommandSpec.everywhere, Bool.and_eq_true, everywhereAmong_iff]

/-- What holds of the whole tree holds where words lead. -/
theorem everywhere_walkFrom {n : Node} (h : n.spec.everywhere p = true) (ts : List Token) :
    (walkFrom n ts).node.spec.everywhere p = true := by
  induction ts generalizing n with
  | nil => exact h
  | cons t ts ih =>
    rw [walkFrom]
    split
    · exact h
    · split
      · exact h
      · next child hchild =>
        obtain ⟨c, hc, rfl⟩ := List.mem_map.mp (List.mem_of_find?_eq_some hchild)
        exact ih ((CommandSpec.everywhere_iff.mp h).2 c hc)

/-! ## The command of a line -/

/-- A line begins with the name of a command, which is at least one word, or it has an
error at a word or at the end. -/
theorem findLeaf_cases (ts : List Token) (stop : Int) :
    (∃ n remaining taken, findLeaf ts stop = .ok (n, remaining) ∧ n ∈ root.leaves ∧
      taken ≠ [] ∧ ts = taken ++ remaining) ∨
    ∃ e : ParseError, findLeaf ts stop = .error e ∧
      ((e.token? = none ∧ e.place = stop) ∨ ∃ t ∈ ts, e.token? = some t) := by
  obtain ⟨hleaves, ⟨taken, htaken, hroot⟩, hfault⟩ := walkFrom_spec root ts
  unfold findLeaf walk
  by_cases hmatched : (walkFrom root ts).matched = true
  · by_cases hleaf : (walkFrom root ts).node.isLeaf = true
    · refine .inl ⟨_, _, taken, by simp only [hmatched, hleaf, if_true],
        hleaves (mem_leaves_self hleaf), fun hnil => ?_, htaken⟩
      -- no words lead to the root, which is a group
      rw [hroot hnil] at hleaf
      simp [Node.isLeaf, CommandSpec.isLeaf, root, commands] at hleaf
    · exact .inr ⟨_, by simp only [hmatched, hleaf, if_true, if_false, Bool.false_eq_true]; rfl,
        .inl ⟨rfl, rfl⟩⟩
  · have hremaining := hfault (by simpa using hmatched)
    cases hwords : (walkFrom root ts).remaining with
    | nil => exact absurd hwords hremaining
    | cons t rest =>
      have hmem : t ∈ ts := by
        rw [htaken, hwords]
        simp
      by_cases hpath : (walkFrom root ts).node.path.isEmpty = true
      · exact .inr ⟨_, by simp only [hmatched, hwords, hpath, if_true]; rfl, .inr ⟨t, hmem, rfl⟩⟩
      · exact .inr ⟨_, by simp only [hmatched, hwords, hpath]; rfl, .inr ⟨t, hmem, rfl⟩⟩

theorem mem_leaves_of_findLeaf {ts : List Token} {stop : Int} {n : Node} {remaining : List Token}
    (h : findLeaf ts stop = .ok (n, remaining)) : n ∈ root.leaves := by
  rcases findLeaf_cases ts stop with ⟨m, rest, taken, hfound, hm, -⟩ | ⟨e, hfound, -⟩
  · rw [hfound] at h
    cases h
    exact hm
  · rw [hfound] at h
    exact nomatch h

/-- The place behind a command name is the place behind a word. -/
theorem nameStop_append {taken : List Token} (h : taken ≠ []) (remaining : List Token) :
    ∃ t ∈ taken, nameStop (taken ++ remaining) remaining = t.stop := by
  refine ⟨taken.getLast h, List.getLast_mem h, ?_⟩
  have htake : (taken ++ remaining).length - remaining.length = taken.length := by
    rw [List.length_append]
    omega
  rw [nameStop, htake, List.take_left, List.getLast?_eq_getLast_of_ne_nil h]
  rfl

end Courier.Grammar
