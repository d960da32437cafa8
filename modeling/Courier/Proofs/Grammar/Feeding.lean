/-
Courier.Proofs.Grammar.Feeding — what one word does to a builder.

`feed` decides by the state of the builder first and by the word second. Two readings of
it are given here, and no proof below this module unfolds it.

* Forwards, an equation for each role that a word can have: the value that an option waits
  for (`feed_pending`), the break (`feed_break`), a positional value (`feed_sealed`,
  `feed_plain`, `feed_literal`) and an option (`feed_option`).
* Backwards, `Fed`: everything that a word can have done, with what was true before.
  `fed_feed` is the inversion that invariants are proved from.

`Reached` are the builders of a command after any words, refused ones included. One thing
holds of all of them that `feed` does not check: an option never waits for a value behind
the break (`Reached.pending_of_sealed`).
-/
import Courier.Proofs.Grammar.Spelling

namespace Courier.Grammar

open Courier.Text Courier.Line

/-! ## The values of options -/

theorem valuesOf_pushValue (key k : OptionRole) (t : Token)
    (opts : List (OptionRole × List Token)) :
    valuesOf key (pushValue k t opts)
      = if key = k then valuesOf key opts ++ [t] else valuesOf key opts := by
  have hne {k' : OptionRole} (h : key ≠ k') : (key == k') = false := beq_eq_false_iff_ne.mpr h
  induction opts with
  | nil => by_cases h : key = k <;> simp [pushValue, valuesOf, List.lookup_cons, h, hne]
  | cons entry entries ih =>
    obtain ⟨k', ts⟩ := entry
    rw [pushValue]
    by_cases hk : k' = k
    · subst hk
      by_cases h : key = k' <;> simp [valuesOf, List.lookup_cons, h, hne]
    · by_cases h : key = k'
      · subst h
        simp [valuesOf, hk]
      · have hskip (rest : List (OptionRole × List Token)) :
            valuesOf key ((k', ts) :: rest) = valuesOf key rest := by
          simp [valuesOf, List.lookup_cons, hne h]
        rw [if_neg hk, hskip, hskip, ih]

namespace Builder

variable {b : Builder} {t : Token} {o : OptionSpec}

theorem given_store (b : Builder) (o : OptionSpec) (t : Token) (key : OptionRole) :
    (b.store o t).given key = if key = o.key then b.given key ++ [t] else b.given key :=
  valuesOf_pushValue key o.key t b.opts

theorem has_eq_false_iff {key : OptionRole} : b.has key = false ↔ b.given key = [] := by
  simp [has]

theorem has_eq_true_iff {key : OptionRole} : b.has key = true ↔ b.given key ≠ [] := by
  simp [has]

/-! ## A word by its role -/

/-- The builder after it has seen a word, whatever became of it. -/
def saw (b : Builder) (t : Token) : Builder := { b with offset := t.stop }

theorem feed_pending {name : Token} (hp : b.pending = some (o, name)) (hk : t.kind ≠ .break)
    (hd : isDashed t = false) :
    b.feed t = ({ (b.saw t).store o t with pending := none }, none) := by
  simp [feed, hp, hk, hd, saw]

theorem feed_pending_refused {name : Token} (hp : b.pending = some (o, name))
    (h : t.kind = .break ∨ isDashed t = true) :
    b.feed t = (b.saw t, some (.missingOptionValue name)) := by
  rcases h with h | h <;> simp [feed, hp, h, saw]

theorem feed_free (hp : b.pending = none) : b.feed t = (b.saw t).feedFree t := by
  simp [feed, hp, saw]

theorem feed_sealed (hp : b.pending = none) (hs : b.sealed = true) :
    b.feed t = (b.saw t).feedPositional t := by
  simp [feed_free hp, feedFree, saw, hs]

theorem feed_break (hp : b.pending = none) (hs : b.sealed = false) (hk : t.kind = .break) :
    b.feed t = ({ b.saw t with sealed := true }, none) := by
  simp [feed_free hp, feedFree, saw, hs, hk]

/-- A word that is neither dashed nor the break is positional, sealed or not. -/
theorem feed_plain (hp : b.pending = none) (hk : t.kind ≠ .break) (hd : isDashed t = false) :
    b.feed t = (b.saw t).feedPositional t := by
  cases hs : b.sealed with
  | true => exact feed_sealed hp hs
  | false => simp [feed_free hp, feedFree, saw, hs, hk, hd]

theorem feed_dashed (hp : b.pending = none) (hs : b.sealed = false) (hd : isDashed t = true) :
    b.feed t = match b.spec.optionSpelled? (cut '=' t.text).1 with
      | some option => (b.saw t).feedOption option t (cut '=' t.text).1 (cut '=' t.text).2
      | none => if b.spec.dashIsLiteral then (b.saw t).feedPositional t
        else (b.saw t, some (.unknownOption t)) := by
  have hk : t.kind ≠ .break := by rw [kind_of_isDashed hd]; simp
  rw [feed_free hp, feedFree, if_neg (by simp [saw, hs]), if_neg hk, if_pos hd]
  rfl

theorem feed_option (hp : b.pending = none) (hs : b.sealed = false) (hd : isDashed t = true)
    (hfound : b.spec.optionSpelled? (cut '=' t.text).1 = some o) :
    b.feed t = (b.saw t).feedOption o t (cut '=' t.text).1 (cut '=' t.text).2 := by
  rw [feed_dashed hp hs hd, hfound]

theorem feed_literal (hp : b.pending = none) (hs : b.sealed = false) (hd : isDashed t = true)
    (hnone : b.spec.optionSpelled? (cut '=' t.text).1 = none)
    (hlit : b.spec.dashIsLiteral = true) :
    b.feed t = (b.saw t).feedPositional t := by
  rw [feed_dashed hp hs hd, hnone]
  exact if_pos hlit

theorem feed_unknown (hp : b.pending = none) (hs : b.sealed = false) (hd : isDashed t = true)
    (hnone : b.spec.optionSpelled? (cut '=' t.text).1 = none)
    (hlit : b.spec.dashIsLiteral = false) :
    b.feed t = (b.saw t, some (.unknownOption t)) := by
  rw [feed_dashed hp hs hd, hnone]
  exact if_neg (by simp [hlit])

/-! ## Everything that a word can do -/

/-- What a word has done to a builder, and what was true before it did. -/
inductive Fed (b : Builder) (t : Token) : Outcome → Prop where
  /-- An option waits for a value and the word is none. -/
  | starved (o : OptionSpec) (name : Token) (waits : b.pending = some (o, name)) :
    Fed b t (b.saw t, some (.missingOptionValue name))
  /-- An option waits for a value and the word is it. -/
  | value (o : OptionSpec) (name : Token) (waits : b.pending = some (o, name))
      (kind : t.kind ≠ .break) (plain : isDashed t = false) :
    Fed b t ({ (b.saw t).store o t with pending := none }, none)
  /-- The word is the break. -/
  | sealing (free : b.pending = none) (unsealed : b.sealed = false) (kind : t.kind = .break) :
    Fed b t ({ b.saw t with sealed := true }, none)
  /-- The word fills a slot. -/
  | slot (free : b.pending = none) (room : b.args.length < b.spec.args.length) :
    Fed b t ({ b.saw t with args := b.args ++ [t] }, none)
  /-- The word goes to the catch-all. -/
  | rest (free : b.pending = none) (full : b.spec.args.length ≤ b.args.length)
      (more : b.spec.rest.isSome = true) :
    Fed b t ({ b.saw t with rest := b.rest ++ [t] }, none)
  /-- The word is a flag. -/
  | flag (o : OptionSpec) (free : b.pending = none) (unsealed : b.sealed = false)
      (known : o ∈ b.spec.knownOptions) (isFlag : o.takesValue = false)
      (again : o.repeatable = true ∨ b.given o.key = []) :
    Fed b t ((b.saw t).store o { t with text := "" }, none)
  /-- The word is an option with its value. -/
  | inline (o : OptionSpec) (spelling value : String) (free : b.pending = none)
      (unsealed : b.sealed = false) (known : o ∈ b.spec.knownOptions)
      (takes : o.takesValue = true) (again : o.repeatable = true ∨ b.given o.key = [])
      (bare : t.kind = .bare) (parts : cut '=' t.text = (spelling, some value)) :
    Fed b t ((b.saw t).store o
      { t with text := value, start := t.start + spelling.length + 1 }, none)
  /-- The word is an option whose value comes next. -/
  | waits (o : OptionSpec) (free : b.pending = none) (unsealed : b.sealed = false)
      (known : o ∈ b.spec.knownOptions) (takes : o.takesValue = true)
      (again : o.repeatable = true ∨ b.given o.key = []) :
    Fed b t ({ b.saw t with pending := some (o, t) }, none)
  /-- The word itself is at fault. -/
  | refused (e : ParseError) (free : b.pending = none) (fault : e.token? = some t) :
    Fed b t (b.saw t, some e)

theorem fed_feedPositional (hp : b.pending = none) : b.Fed t ((b.saw t).feedPositional t) := by
  rw [feedPositional]
  split
  · next hroom => exact .slot hp hroom
  · next hfull =>
    split
    · next hrest => exact .rest hp (Nat.le_of_not_lt hfull) hrest
    · exact .refused _ hp rfl

theorem fed_feedOption (hp : b.pending = none) (hs : b.sealed = false)
    (ho : o ∈ b.spec.knownOptions) (hk : t.kind = .bare) :
    b.Fed t ((b.saw t).feedOption o t (cut '=' t.text).1 (cut '=' t.text).2) := by
  unfold feedOption
  split
  · exact .refused _ hp rfl
  · next hagain =>
    have again : o.repeatable = true ∨ b.given o.key = [] := by
      simp only [Bool.and_eq_true, Bool.not_eq_true', not_and, Bool.not_eq_true] at hagain
      by_cases hr : o.repeatable = true
      · exact .inl hr
      · exact .inr (has_eq_false_iff.mp (hagain (by simpa using hr)))
    split
    · next htakes =>
      split
      · next value hcut => exact .inline o _ value hp hs ho htakes again hk (by rw [← hcut])
      · exact .waits o hp hs ho htakes again
    · next hflag =>
      split
      · exact .refused _ hp rfl
      · exact .flag o hp hs ho (by simpa using hflag) again

/-- **Every word does one of these things.** -/
theorem fed_feed (b : Builder) (t : Token) : b.Fed t (b.feed t) := by
  cases hp : b.pending with
  | some waiting =>
    obtain ⟨o, name⟩ := waiting
    by_cases h : t.kind = .break ∨ isDashed t = true
    · rw [feed_pending_refused hp h]
      exact .starved o name hp
    · rw [not_or, Bool.not_eq_true] at h
      rw [feed_pending hp h.1 h.2]
      exact .value o name hp h.1 h.2
  | none =>
    cases hs : b.sealed with
    | true =>
      rw [feed_sealed hp hs]
      exact fed_feedPositional hp
    | false =>
      by_cases hk : t.kind = .break
      · rw [feed_break hp hs hk]
        exact .sealing hp hs hk
      · cases hd : isDashed t with
        | false =>
          rw [feed_plain hp hk hd]
          exact fed_feedPositional hp
        | true =>
          rw [feed_dashed hp hs hd]
          split
          · next o hfound =>
            exact fed_feedOption hp hs (List.mem_of_find?_eq_some hfound) (kind_of_isDashed hd)
          · split
            · exact fed_feedPositional hp
            · exact .refused _ hp rfl

/-! ## Builders after any words -/

/-- Words are fed one by one, so that those in front decide what those behind them meet. -/
theorem feedAll_append (b : Builder) (ts us : List Token) :
    b.feedAll (ts ++ us) = match b.feedAll ts with
      | (after, none) => after.feedAll us
      | (after, some e) => (after, some e) := by
  induction ts generalizing b with
  | nil => rfl
  | cons t ts ih =>
    rw [List.cons_append, feedAll, feedAll]
    rcases b.feed t with ⟨after, _ | e⟩
    · exact ih after
    · rfl

/-- What each of some words keeps, all of them keep. -/
theorem feedAll_keeps {P : Builder → Prop} {ts : List Token}
    (hstep : ∀ b, P b → ∀ t ∈ ts, P (b.feed t).1) {b : Builder} (hb : P b) :
    P (b.feedAll ts).1 := by
  induction ts generalizing b with
  | nil => exact hb
  | cons t ts ih =>
    have hnext := hstep b hb t List.mem_cons_self
    rw [feedAll]
    rcases hfeed : b.feed t with ⟨after, _ | e⟩
    · rw [hfeed] at hnext
      exact ih (fun b hb u hu => hstep b hb u (List.mem_cons_of_mem t hu)) hnext
    · rw [hfeed] at hnext
      exact hnext

/-- The builders of a command after any words, whether they were taken or refused. -/
inductive Reached (n : Node) : Builder → Prop where
  | fresh (place : Int) : Reached n { node := n, offset := place }
  | feed {b : Builder} (h : Reached n b) (t : Token) : Reached n (b.feed t).1

theorem node_feed (b : Builder) (t : Token) : (b.feed t).1.node = b.node := by
  cases h : b.feed t with
  | mk after e =>
    have hfed := fed_feed b t
    rw [h] at hfed
    cases hfed <;> rfl

theorem node_feedAll (b : Builder) (ts : List Token) : (b.feedAll ts).1.node = b.node :=
  feedAll_keeps (P := fun c => c.node = b.node) (fun c hc t _ => (node_feed c t).trans hc) rfl

theorem node_consume (b : Builder) (ts : List Token) : (b.consume ts).1.node = b.node := by
  rw [← node_feedAll b ts, consume]
  rcases b.feedAll ts with ⟨after, _ | e⟩ <;> rfl

/-- One word does not make an option wait behind the break. -/
theorem pending_of_sealed_feed (h : b.sealed = true → b.pending = none) (t : Token) :
    (b.feed t).1.sealed = true → (b.feed t).1.pending = none := by
  cases hout : b.feed t with
  | mk after e =>
    have hfed := fed_feed b t
    rw [hout] at hfed
    intro hsealed
    cases hfed with
    | starved o name waits => exact h hsealed
    | value => rfl
    | sealing free => exact free
    | slot free => exact free
    | rest free => exact free
    | flag o free => exact free
    | inline o spelling value free => exact free
    | waits o free unsealed => exact absurd hsealed (by simp [saw, unsealed])
    | refused e free => exact free

theorem Reached.feedAll {n : Node} (h : Reached n b) (ts : List Token) :
    Reached n (b.feedAll ts).1 :=
  feedAll_keeps (P := Reached n) (fun _ hc t _ => hc.feed t) h

/-- No option waits for a value behind the break, after any words. -/
theorem Reached.pending_of_sealed {n : Node} (h : Reached n b) :
    b.sealed = true → b.pending = none := by
  induction h with
  | fresh place => exact fun _ => rfl
  | feed h t ih => exact pending_of_sealed_feed ih t

end Builder

end Courier.Grammar
