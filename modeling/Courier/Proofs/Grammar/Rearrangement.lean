/-
Courier.Proofs.Grammar.Rearrangement — options may stand anywhere and be spelled any way.

`Reading.Rearranged` relates two readings that say the same: the same positional values in
the same order, and for each option the same values in the same order. Where the options
stand between the values, which of their spellings is used, and whether a value is a word
of its own, is left open.

`command_rearranged` says that nothing of this matters. A command that can be read from
one of them can be read from the other, and it is the same command.

## Texts and places

The two builders do not agree: their words stand at different places, and the places are in
the tokens. They are `Alike`, which is to agree on texts. A builder that succeeds is read by
its texts alone; only the errors are about places.
-/
import Courier.Proofs.Grammar.Acceptance
import Courier.Proofs.Grammar.Finishing

namespace Courier.Grammar

open Courier.Text Courier.Line

/-! ## Checks and fields read texts -/

/-- Of two lists with the same texts, each word of one has its like in the other. -/
theorem exists_mem_of_texts {ts us : List Token} (h : ts.map Token.text = us.map Token.text)
    {u : Token} (hu : u ∈ us) : ∃ t ∈ ts, t.text = u.text := by
  have hmem : u.text ∈ ts.map Token.text := by
    rw [h]
    exact List.mem_map_of_mem hu
  exact List.mem_map.mp hmem

theorem length_eq_of_texts {ts us : List Token} (h : ts.map Token.text = us.map Token.text) :
    ts.length = us.length := by
  have := congrArg List.length h
  rwa [List.length_map, List.length_map] at this

theorem eq_nil_iff_of_texts {ts us : List Token} (h : ts.map Token.text = us.map Token.text) :
    ts = [] ↔ us = [] := by
  rw [← List.length_eq_zero_iff, ← List.length_eq_zero_iff, length_eq_of_texts h]

theorem Slot.check_eq_ok_of_text {a : Slot} {t u : Token} (h : t.text = u.text)
    (ht : a.check t = .ok ()) : a.check u = .ok () := by
  unfold Slot.check at ht ⊢
  rw [← h]
  split at ht
  · simp at ht
  · next hchoices =>
    rw [if_neg hchoices]
    split at ht
    · next hshape => rw [if_pos hshape]
    · simp at ht

theorem OptionSpec.check_eq_ok_of_text {o : OptionSpec} {t u : Token} (h : t.text = u.text)
    (ht : o.check t = .ok ()) : o.check u = .ok () := by
  unfold OptionSpec.check at ht ⊢
  rw [← h]
  split at ht
  · next hpass => rw [if_pos hpass]
  · simp at ht

theorem OptionSpec.field_eq_of_texts {o : OptionSpec} {ts us : List Token}
    (h : ts.map Token.text = us.map Token.text) : o.field ts = o.field us := by
  cases ts with
  | nil =>
    cases us with
    | nil => rfl
    | cons u us => simp at h
  | cons t ts =>
    cases us with
    | nil => simp at h
    | cons u us =>
      have hhead : t.text = u.text := (List.cons.inj h).1
      simp only [OptionSpec.field, h, hhead, List.isEmpty_cons]

/-! ## Builders that hold the same texts -/

namespace Builder

/-- Two builders of a command hold the same texts, and no option waits. -/
structure Alike (b b' : Builder) : Prop where
  node : b.node = b'.node
  args : b.args.map Token.text = b'.args.map Token.text
  rest : b.rest.map Token.text = b'.rest.map Token.text
  given : ∀ key, (b.given key).map Token.text = (b'.given key).map Token.text
  pending : b.pending = none
  pending' : b'.pending = none

namespace Alike

variable {b b' : Builder} (h : b.Alike b')

include h

theorem spec_eq : b.spec = b'.spec := congrArg Node.spec h.node

theorem given_eq_nil_iff (key : OptionRole) : b.given key = [] ↔ b'.given key = [] :=
  eq_nil_iff_of_texts (h.given key)

/-- The slots with the texts of their values. -/
theorem slots_eq :
    (b.spec.args.zip b.args).map (fun p => (p.1, p.2.text))
      = (b'.spec.args.zip b'.args).map (fun p => (p.1, p.2.text)) := by
  have hzip (slots : List Slot) (ts : List Token) :
      (slots.zip ts).map (fun p => (p.1, p.2.text)) = slots.zip (ts.map Token.text) := by
    rw [List.zip_map_right]
    rfl
  rw [hzip, hzip, h.spec_eq, h.args]

theorem sound (hb : b.Sound) : b'.Sound where
  args := by
    intro p' hp'
    have hmem : (p'.1, p'.2.text) ∈ (b.spec.args.zip b.args).map (fun p => (p.1, p.2.text)) := by
      rw [h.slots_eq]
      exact List.mem_map_of_mem hp'
    obtain ⟨p, hp, heq⟩ := List.mem_map.mp hmem
    obtain ⟨hslot, htext⟩ := Prod.mk.inj heq
    rw [← hslot]
    exact Slot.check_eq_ok_of_text htext (hb.args p hp)
  rest := by
    intro a ha t' ht'
    obtain ⟨t, ht, htext⟩ := exists_mem_of_texts h.rest ht'
    exact Slot.check_eq_ok_of_text htext (hb.rest a (by rwa [h.spec_eq]) t ht)
  opts := by
    intro o ho t' ht'
    obtain ⟨t, ht, htext⟩ := exists_mem_of_texts (h.given o.key) ht'
    exact OptionSpec.check_eq_ok_of_text htext (hb.opts o (by rwa [h.spec_eq]) t ht)

theorem complete (hb : b.missing? = none) : b'.missing? = none := by
  obtain ⟨hargs, hrest, hopts⟩ := missing?_eq_none_iff.mp hb
  rw [h.spec_eq, length_eq_of_texts h.args] at hargs
  rw [h.spec_eq, length_eq_of_texts h.rest] at hrest
  refine missing?_eq_none_iff.mpr ⟨hargs, hrest, fun o ho hrequired => ?_⟩
  rw [Ne, ← h.given_eq_nil_iff]
  exact hopts o (by rwa [h.spec_eq]) hrequired

theorem entries_eq : b.entries = b'.entries := by
  have hslots := congrArg (List.map fun p : Slot × String => (p.1.dest, FieldValue.text p.2))
    h.slots_eq
  rw [List.map_map, List.map_map] at hslots
  have hargs : b.argEntries = b'.argEntries := by
    unfold argEntries
    rw [h.spec_eq, length_eq_of_texts h.args]
    rw [h.spec_eq] at hslots
    exact congrArg (· ++ _) hslots
  have hrest : b.restEntries = b'.restEntries := by
    unfold restEntries
    rw [h.spec_eq, h.rest]
  have hopts : b.optEntries = b'.optEntries := by
    unfold optEntries
    rw [h.spec_eq]
    exact List.map_congr_left fun o _ => by rw [OptionSpec.field_eq_of_texts (h.given o.key)]
  rw [entries, entries, hargs, hrest, hopts]

/-- A builder that is read as a form is read by its texts alone. -/
theorem finish_eq_ok {f : Filled} (hb : b.finish = .ok f) : b'.finish = .ok f := by
  have hfinished := b.finished_finish
  rw [hb] at hfinished
  have hfinished' := b'.finished_finish
  cases hfinished with
  | help _ asked =>
    rw [Ne, h.given_eq_nil_iff] at asked
    generalize b'.finish = out at hfinished'
    cases hfinished' with
    | starved o name waits => simp [h.pending'] at waits
    | help => rw [h.node]
    | missing e _ unasked => exact absurd unasked asked
    | refused t reason _ unasked => exact absurd unasked asked
    | filled _ unasked => exact absurd unasked asked
  | filled _ unasked complete sound =>
    rw [h.given_eq_nil_iff] at unasked
    generalize b'.finish = out at hfinished'
    cases hfinished' with
    | starved o name waits => simp [h.pending'] at waits
    | help _ asked => exact absurd unasked asked
    | missing e _ _ lacks => simp [h.complete complete] at lacks
    | refused t reason _ _ _ unsound => exact absurd (h.sound sound) unsound
    | filled => rw [h.entries_eq]

end Alike

end Builder

/-! ## Readings that say the same -/

/-- Two readings say the same: the positional values, and the values of each option, have
the same texts in the same order. In particular this holds of readings with the same values
in front of the break and the same words behind it, whatever order values and options stand
in. -/
structure Reading.Rearranged (r s : Reading) : Prop where
  positionals : r.positionals.map Token.text = s.positionals.map Token.text
  uses : ∀ o, (r.uses o).map Token.text = (s.uses o).map Token.text

namespace Reading.Rearranged

variable {r s : Reading} (h : r.Rearranged s)

include h

theorem allowed {spec : CommandSpec} (hr : r.Allowed spec) : s.Allowed spec where
  once := by
    intro o ho honce
    rw [← length_eq_of_texts (h.uses o)]
    exact hr.once o ho honce
  room := by
    intro hrest
    rw [← length_eq_of_texts h.positionals]
    exact hr.room hrest

/-- Builders that hold readings which say the same are alike. -/
theorem alike {b b' : Builder} (hnode : b.node = b'.node) (hb : b.HoldsReading r)
    (hb' : b'.HoldsReading s) : b.Alike b' where
  node := hnode
  args := by
    have hspec : b.spec = b'.spec := congrArg Node.spec hnode
    rw [hb.args, hb'.args, List.map_take, List.map_take, h.positionals, hspec]
  rest := by
    have hspec : b.spec = b'.spec := congrArg Node.spec hnode
    rw [hb.rest, hb'.rest, List.map_drop, List.map_drop, h.positionals, hspec]
  given := by
    intro key
    have hspec : b.spec = b'.spec := congrArg Node.spec hnode
    by_cases hkey : ∃ o ∈ b.spec.knownOptions, o.key = key
    · obtain ⟨o, ho, rfl⟩ := hkey
      rw [hb.given o ho, hb'.given o (by rwa [← hspec]), h.uses]
    · have habsent : ∀ o ∈ b.spec.knownOptions, o.key ≠ key := fun o ho heq => hkey ⟨o, ho, heq⟩
      rw [hb.absent key habsent, hb'.absent key (by rwa [← hspec])]
  pending := hb.pending
  pending' := hb'.pending

end Reading.Rearranged

/-! ## Commands -/

theorem command_eq_ok {n : Node} {place : Int} {ts : List Token} {c : Command}
    (h : n.command place ts = .ok c) :
    (({ node := n, offset := place } : Builder).consume ts).2 = none := by
  unfold Node.command at h
  split at h
  · simp at h
  · next hconsume => rw [hconsume]

theorem command_of_consume {n : Node} {place : Int} {ts : List Token} {b : Builder}
    (h : ({ node := n, offset := place } : Builder).consume ts = (b, none)) :
    n.command place ts = b.finish.map (Command.ofFilled n.spec.kind) := by
  unfold Node.command
  rw [h]

/-- **Options may stand anywhere and be spelled any way.** If a command can be read from
one arrangement of its values and options, it can be read from every other. -/
theorem command_rearranged {n : Node} (hn : n ∈ root.leaves) {r s : Reading}
    (hr : r.Fits n.spec) (hs : s.Fits n.spec) (same : r.Rearranged s) (place place' : Int)
    {c : Command} (h : n.command place r.words = .ok c) :
    n.command place' s.words = .ok c := by
  have distinct := distinct_of_mem_leaves n hn
  have hfresh := Builder.holdsReading_fresh n
  have hallowed : r.Allowed n.spec :=
    allowed_of_consume (hfresh place) distinct hr (command_eq_ok h)
  obtain ⟨b, htaken, hnode, hholds⟩ := consume_allowed (hfresh place) distinct hr hallowed
  obtain ⟨b', htaken', hnode', hholds'⟩ :=
    consume_allowed (hfresh place') distinct hs (same.allowed hallowed)
  have halike : b.Alike b' := same.alike (hnode.trans hnode'.symm) hholds hholds'
  rw [command_of_consume htaken] at h
  rw [command_of_consume htaken']
  cases hfinish : b.finish with
  | error e =>
    rw [hfinish] at h
    simp [Except.map] at h
  | ok f =>
    rw [hfinish] at h
    rw [halike.finish_eq_ok hfinish]
    exact h

/-- The headers keep their order; the method and the values around them do not. -/
theorem command_rearranged_headers :
    let n : Node := ⟨createSpec.children.head (by decide), ["create", "request"]⟩
    let r : Reading :=
      { items := [.value ⟨"foo", 11, 14, .bare⟩,
          .option headerOpt (.separate ⟨"-H", 15, 17, .bare⟩ ⟨"A: 1", 18, 24, .quoted .single⟩),
          .value ⟨"http://x", 25, 33, .bare⟩,
          .option headerOpt (.inline ⟨"--header=B:2", 34, 46, .bare⟩ "--header" "B:2"),
          .option methodOpt (.separate ⟨"-m", 47, 49, .bare⟩ ⟨"GET", 50, 53, .bare⟩)] }
    let s : Reading :=
      { items := [.option methodOpt (.inline ⟨"--method=GET", 11, 23, .bare⟩ "--method" "GET"),
          .value ⟨"foo", 24, 27, .bare⟩,
          .option headerOpt
            (.separate ⟨"--header", 28, 36, .bare⟩ ⟨"A: 1", 37, 43, .quoted .double⟩),
          .option headerOpt (.separate ⟨"-H", 44, 46, .bare⟩ ⟨"B:2", 47, 50, .bare⟩)]
        tail := some (⟨"--", 51, 53, .break⟩, [⟨"http://x", 54, 62, .bare⟩]) }
    n ∈ root.leaves ∧ r.Fits n.spec ∧ s.Fits n.spec ∧ r.Rearranged s ∧
      n.command 10 s.words
        = .ok (.createRequest "foo" "http://x" (some "GET") ["A: 1", "B:2"] none) := by
  intro n r s
  have hn : n ∈ root.leaves := List.mem_of_getElem? (i := 5) rfl
  have hr : r.Fits n.spec := by decide
  have hs : s.Fits n.spec := by decide
  have same : r.Rearranged s := by
    refine ⟨rfl, fun o => ?_⟩
    by_cases hm : methodOpt = o
    · subst hm
      rfl
    · by_cases hh : headerOpt = o
      · subst hh
        rfl
      · simp [r, s, Reading.uses, List.filterMap_cons, Item.use?, hm, hh]
  have h : n.command 10 r.words
      = .ok (.createRequest "foo" "http://x" (some "GET") ["A: 1", "B:2"] none) := rfl
  exact ⟨hn, hr, hs, same, command_rearranged hn hr hs same 10 10 h⟩

end Courier.Grammar
