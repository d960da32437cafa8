/-
Courier.Proofs.Grammar.Consistency — what a builder holds after any words.

Completion feeds a builder with words that nobody has checked, and a builder stays in use
behind a word that it has refused. `feedEach` goes on in this way, and `Consistent` is what
can be relied on wherever it has got to: the slots are filled before the catch-all, an option
that may be given once is given once, flags have no text, and an option that waits for a
value is one that may wait.

* `Consistent.feed` — one word keeps this, whatever it does (`fed_feed`).
* `feed_refused` — a word that is refused leaves everything in place but the offset.
* `opts_feedEach_sealed` — behind the break no option changes.
* `consistent_after_any_words` — all of it, after any words.

## Keys

A builder keeps the values of an option under its key. Two options with one key would be
given the values of each other, and a flag could have a text; so the keys have to differ.
-/
import Courier.Proofs.Grammar.Feeding

namespace Courier.Grammar

open Courier.Line

namespace Builder

variable {b : Builder} {t : Token} {o : OptionSpec} {n : Node}

/-! ## What a builder holds -/

/-- The option may wait for a value: it is known and takes one, it may be given now, and the
break has not been seen. -/
structure MayWait (b : Builder) (o : OptionSpec) : Prop where
  known : o ∈ b.spec.knownOptions
  takes : o.takesValue = true
  again : o.repeatable = true ∨ b.given o.key = []
  unsealed : b.sealed = false

/-- What holds of a builder after any words, those that were refused included. -/
structure Consistent (b : Builder) : Prop where
  /-- There is a slot for every value. -/
  slots : b.args.length ≤ b.spec.args.length
  /-- The catch-all begins behind the last slot. -/
  full : b.rest ≠ [] → b.args.length = b.spec.args.length
  /-- An option that may be given once has one value at most. -/
  once : ∀ o ∈ b.spec.knownOptions, o.repeatable = false → (b.given o.key).length ≤ 1
  /-- A flag has no text. -/
  flags : ∀ o ∈ b.spec.knownOptions, o.takesValue = false → ∀ t ∈ b.given o.key, t.text = ""
  /-- Only an option that may wait does. -/
  waiting : ∀ o name, b.pending = some (o, name) → b.MayWait o

theorem consistent_fresh (n : Node) (place : Int) :
    ({ node := n, offset := place } : Builder).Consistent where
  slots := Nat.zero_le _
  full := by simp
  once := by simp [given, valuesOf]
  flags := by simp [given, valuesOf]
  waiting := by simp

/-- Whether an option waits or not, what else is held stays as it is. -/
theorem Consistent.idle (h : b.Consistent) :
    ({ b with pending := none } : Builder).Consistent where
  slots := h.slots
  full := h.full
  once := h.once
  flags := h.flags
  waiting := by simp

/-! ## One word -/

theorem Consistent.saw (h : b.Consistent) (t : Token) : (b.saw t).Consistent where
  slots := h.slots
  full := h.full
  once := h.once
  flags := h.flags
  waiting := by
    intro o name hwaits
    obtain ⟨known, takes, again, unsealed⟩ := h.waiting o name hwaits
    exact ⟨known, takes, again, unsealed⟩

/-- An option that may be given is given: its values are the only ones that change. -/
theorem Consistent.store (h : b.Consistent)
    (keys : (b.spec.knownOptions.map OptionSpec.key).Nodup) (free : b.pending = none)
    (known : o ∈ b.spec.knownOptions) (again : o.repeatable = true ∨ b.given o.key = [])
    (text : o.takesValue = false → t.text = "") : (b.store o t).Consistent where
  slots := h.slots
  full := h.full
  once := by
    intro p hp honce
    rw [given_store]
    split
    · next hkey =>
      obtain rfl : p = o := List.inj_on_of_nodup_map keys hp known hkey
      have hnone : b.given p.key = [] := again.resolve_left (by simp [honce])
      simp [hnone]
    · exact h.once p hp honce
  flags := by
    intro p hp hflag x hx
    rw [given_store] at hx
    split at hx
    · next hkey =>
      obtain rfl : p = o := List.inj_on_of_nodup_map keys hp known hkey
      rcases List.mem_append.mp hx with hx | hx
      · exact h.flags p hp hflag x hx
      · rw [List.mem_singleton.mp hx]
        exact text hflag
    · exact h.flags p hp hflag x hx
  waiting := by
    intro p name hwaits
    have hnone : (b.store o t).pending = none := free
    simp [hnone] at hwaits

/-- **No word makes a builder inconsistent**, be it taken or refused. -/
theorem Consistent.feed (h : b.Consistent)
    (keys : (b.spec.knownOptions.map OptionSpec.key).Nodup) (t : Token) :
    (b.feed t).1.Consistent := by
  have hsaw := h.saw t
  cases hout : b.feed t with
  | mk after e =>
    have hfed := fed_feed b t
    rw [hout] at hfed
    cases hfed with
    | starved o name waits => exact hsaw
    | refused e free fault => exact hsaw
    | value o name waits kind plain =>
      have hmay := h.waiting o name waits
      exact hsaw.idle.store keys rfl hmay.known hmay.again (by simp [hmay.takes])
    | flag o free unsealed known isFlag again =>
      exact hsaw.store keys free known again (fun _ => rfl)
    | inline o spelling value free unsealed known takes again bare parts =>
      exact hsaw.store keys free known again (by simp [takes])
    | sealing free unsealed kind => exact { hsaw with waiting := by simp [Builder.saw, free] }
    | slot free room =>
      refine { hsaw with slots := ?_, full := ?_, waiting := by simp [Builder.saw, free] }
      · show (b.args ++ [t]).length ≤ b.spec.args.length
        simp only [List.length_append, List.length_singleton]
        omega
      · -- the catch-all is empty as long as there is room
        intro hrest
        have hfull := h.full hrest
        omega
    | rest free full more =>
      refine { hsaw with full := ?_, waiting := by simp [Builder.saw, free] }
      intro _
      exact Nat.le_antisymm h.slots full
    | waits o free unsealed known takes again =>
      refine { hsaw with waiting := ?_ }
      intro p name hwaits
      obtain ⟨rfl, rfl⟩ : o = p ∧ t = name := by simpa using hwaits
      exact ⟨known, takes, again, unsealed⟩

/-- **A word that is refused changes nothing** but where errors about missing things point. -/
theorem feed_refused {e : ParseError} (h : (b.feed t).2 = some e) : (b.feed t).1 = b.saw t := by
  cases hout : b.feed t with
  | mk after e' =>
    have hfed := fed_feed b t
    rw [hout] at hfed h
    cases hfed with
    | starved => rfl
    | refused => rfl
    | value | sealing | slot | rest | flag | inline | waits => simp at h

/-- Behind the break a word is positional, so that no option changes. -/
theorem feed_keeps_opts (free : b.pending = none) (hs : b.sealed = true) (t : Token) :
    (b.feed t).1.opts = b.opts ∧ (b.feed t).1.pending = none ∧ (b.feed t).1.sealed = true := by
  rw [feed_sealed free hs]
  unfold feedPositional
  split
  · exact ⟨rfl, free, hs⟩
  · split <;> exact ⟨rfl, free, hs⟩

/-! ## Any words -/

/-- The builder after these words, each of them fed whatever became of those in front of it. -/
def feedEach (b : Builder) (ts : List Token) : Builder := ts.foldl (fun b t => (b.feed t).1) b

theorem feedEach_cons (b : Builder) (t : Token) (ts : List Token) :
    b.feedEach (t :: ts) = (b.feed t).1.feedEach ts := rfl

theorem Reached.feedEach (h : Reached n b) (ts : List Token) : Reached n (b.feedEach ts) := by
  induction ts generalizing b with
  | nil => exact h
  | cons t ts ih => exact ih (h.feed t)

theorem Reached.node_eq (h : Reached n b) : b.node = n := by
  induction h with
  | fresh place => rfl
  | feed h t ih => rw [node_feed, ih]

theorem Reached.consistent (h : Reached n b)
    (keys : (n.spec.knownOptions.map OptionSpec.key).Nodup) : b.Consistent := by
  induction h with
  | fresh place => exact consistent_fresh n place
  | feed h t ih =>
    refine ih.feed ?_ t
    rw [Builder.spec, h.node_eq]
    exact keys

theorem opts_feedEach_sealed (free : b.pending = none) (hs : b.sealed = true)
    (ts : List Token) : (b.feedEach ts).opts = b.opts ∧ (b.feedEach ts).sealed = true := by
  induction ts generalizing b with
  | nil => exact ⟨rfl, hs⟩
  | cons t ts ih =>
    obtain ⟨hopts, hfree, hsealed⟩ := feed_keeps_opts free hs t
    rw [feedEach_cons, ← hopts]
    exact ih hfree hsealed

/-- **A builder is consistent after any words.** Let no two options of a command share a key,
and let its builder be fed with any words, some of which may be refused. Then what it holds is
consistent; once it has seen the break, no further words change what is held of its options;
and a word that it refuses changes nothing but the place that errors point to. -/
theorem consistent_after_any_words (keys : (n.spec.knownOptions.map OptionSpec.key).Nodup)
    (place : Int) (ts : List Token) :
    let b := ({ node := n, offset := place } : Builder).feedEach ts
    b.node = n ∧ b.Consistent ∧
      (b.sealed = true → ∀ us, (b.feedEach us).opts = b.opts ∧ (b.feedEach us).sealed = true) ∧
      ∀ t e, (b.feed t).2 = some e → (b.feed t).1 = { b with offset := t.stop } := by
  intro b
  have hb : Reached n b := (Reached.fresh place).feedEach ts
  refine ⟨hb.node_eq, hb.consistent keys, ?_, ?_⟩
  · intro hs us
    exact opts_feedEach_sealed (hb.pending_of_sealed hs) hs us
  · intro t e hrefused
    exact feed_refused hrefused

/-- An extraction goes on behind three words that are refused: a value too many, the break in
the place of a value, and an option that is given again. -/
theorem consistent_after_any_words_refused :
    let n : Node := ⟨extractSpec, ["extract"]⟩
    let ts : List Token := [⟨"body", 8, 12, .bare⟩, ⟨"id", 13, 15, .bare⟩, ⟨"x", 16, 17, .bare⟩,
      ⟨"-t", 18, 20, .bare⟩, ⟨"--", 21, 23, .break⟩, ⟨"token", 24, 29, .bare⟩,
      ⟨"-t=y", 30, 34, .bare⟩, ⟨"--", 35, 37, .break⟩]
    let b := ({ node := n, offset := 7 } : Builder).feedEach ts
    (n.spec.knownOptions.map OptionSpec.key).Nodup ∧ b.Consistent ∧ b.sealed = true ∧
      b.args.map Token.text = ["body", "id"] ∧ (b.given .toVar).map Token.text = ["token"] ∧
      (b.feedEach [⟨"-t=z", 38, 42, .bare⟩]).opts = b.opts := by
  intro n ts b
  have keys : (n.spec.knownOptions.map OptionSpec.key).Nodup := by decide
  have hsealed : b.sealed = true := by decide
  obtain ⟨-, hconsistent, hstays, -⟩ := consistent_after_any_words keys 7 ts
  exact ⟨keys, hconsistent, hsealed, by decide, by decide, (hstays hsealed _).1⟩

end Builder

end Courier.Grammar
