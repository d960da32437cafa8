/-
Courier.Proofs.Grammar.Expectation — what is expected is what happens.

`expect` says what the word that is being typed would be, and takes nothing; `feed` takes a
word. They decide the same question in two places, and completion is only right if they
decide it the same way. `expect_predicts_feed` says that they do, for every word that
cannot be the beginning of an option (`Literal`): it is quoted, it has no dash in front, or
it stands behind the break.

The three answers of `expect` are compared with three things that a builder can do with a
word: `StoresAs`, `CommitsTo`, and the error about an argument too many. For words of any kind
`expects_expect` lists the answers once, each with what was true for it.

## Why builders must have been reached

Behind the break every word is positional, while an option that waits takes the next word.
A builder in both states would store a word that is expected in neither. No words lead
there (`Builder.Reached.pending_of_sealed`).
-/
import Courier.Proofs.Grammar.Feeding

namespace Courier.Line

/-- The quotes that a word is written in. -/
def Token.quote? (t : Token) : Option Quote :=
  match t.kind with
  | .quoted q => some q
  | _ => none

/-- A tail that reads like a word: the same text in the same quotes. -/
def Tail.ReadsLike (p : Tail) (t : Token) : Prop := p.text = t.text ∧ p.quote = t.quote?

end Courier.Line

namespace Courier.Grammar

open Courier.Text Courier.Line

namespace Builder

variable {b : Builder} {t : Token} {o : OptionSpec} {a : Slot} {p : Tail}

/-! ## What a builder does with a word -/

/-- A word that cannot be the beginning of an option. -/
def Literal (b : Builder) (t : Token) : Prop :=
  (∃ q, t.kind = .quoted q) ∨ (t.kind = .bare ∧ startsWith "-" t.text = false) ∨ b.sealed = true

/-- The word becomes a value of an option: of the one that waits, and of nothing else. -/
structure StoresAs (b : Builder) (t : Token) (o : OptionSpec) : Prop where
  waits : ∃ name, b.pending = some (o, name)
  taken : (b.feed t).2 = none
  given : ∀ key, (b.feed t).1.given key = if key = o.key then b.given key ++ [t] else b.given key
  args : (b.feed t).1.args = b.args
  rest : (b.feed t).1.rest = b.rest

/-- The word becomes the value of a slot: of the next one, or of the catch-all once all
slots are full. -/
structure CommitsTo (b : Builder) (t : Token) (a : Slot) : Prop where
  taken : (b.feed t).2 = none
  given : ∀ key, (b.feed t).1.given key = b.given key
  place :
    (b.spec.args[b.args.length]? = some a ∧ (b.feed t).1.args = b.args ++ [t]
        ∧ (b.feed t).1.rest = b.rest)
      ∨ (b.spec.args.length ≤ b.args.length ∧ b.spec.rest = some a
        ∧ (b.feed t).1.args = b.args ∧ (b.feed t).1.rest = b.rest ++ [t])

/-! ## An option that waits -/

theorem expect_of_pending {name : Token} (h : b.pending = some (o, name)) (tail : Option Tail) :
    b.expect tail = .optionValue o "" := by
  simp [expect, h]

/-- In front of the break a literal word is no break and not dashed. -/
theorem Literal.plain (h : b.Literal t) (hs : b.sealed = false) :
    t.kind ≠ .break ∧ isDashed t = false := by
  rcases h with ⟨q, hq⟩ | ⟨hbare, hdash⟩ | hsealed
  · simp [isDashed, hq]
  · simp [isDashed, hbare, hdash]
  · simp [hs] at hsealed

theorem storesAs_of_pending {name : Token} (h : b.pending = some (o, name))
    (hk : t.kind ≠ .break) (hd : isDashed t = false) : b.StoresAs t o := by
  have hfeed := feed_pending h hk hd
  refine ⟨⟨name, h⟩, by rw [hfeed], fun key => ?_, by rw [hfeed]; rfl, by rw [hfeed]; rfl⟩
  rw [hfeed]
  exact given_store (b.saw t) o t key

/-! ## Everything that can be expected -/

/-- What is expected when no option waits for a value, and what was true for it. -/
inductive Expects (b : Builder) : Option Tail → Expectation → Prop where
  /-- A positional value, or what stands in for one where none fits. -/
  | positional (tail : Option Tail) : Expects b tail (b.expectPositional tail.isSome)
  /-- The name of an option has been begun. -/
  | names {p : Tail} (unsealed : b.sealed = false) :
    Expects b (some p) (.optionName (b.available true))
  /-- The value of an option has been begun, behind its name and the sign. -/
  | inline {p : Tail} (o : OptionSpec) (name begun : String) (unsealed : b.sealed = false)
      (dashed : startsWith "-" p.text = true) (parts : cut '=' p.text = (name, some begun))
      (found : b.spec.optionSpelled? name = some o) (takes : o.takesValue = true) :
    Expects b (some p) (.optionValue o (name ++ "="))
  /-- A value has been begun behind something that takes none. -/
  | nothing {p : Tail} : Expects b (some p) .nothing

/-- **Nothing else is expected.** -/
theorem expects_expect (free : b.pending = none) (tail : Option Tail) :
    b.Expects tail (b.expect tail) := by
  unfold expect
  rw [free]
  cases tail with
  | none => exact .positional none
  | some p =>
    dsimp only
    by_cases htyping : (p.quote = none && !b.sealed && startsWith "-" p.text) = true
    · rw [if_pos htyping]
      simp only [Bool.and_eq_true, Bool.not_eq_true', decide_eq_true_eq] at htyping
      obtain ⟨⟨-, unsealed⟩, dashed⟩ := htyping
      rcases hcut : cut '=' p.text with ⟨name, _ | begun⟩
      · dsimp only
        split
        · exact .positional (some p)
        · exact .names unsealed
      · dsimp only
        cases hfound : b.spec.optionSpelled? name with
        | none => exact .nothing
        | some o =>
          dsimp only
          split
          · next htakes => exact .inline o name begun unsealed dashed hcut hfound htakes
          · exact .nothing
    · rw [if_neg htyping]
      exact .positional (some p)

/-- A slot is expected whether or not a word has been begun; where none is left, options may be
named in its place as long as no word has been begun. -/
theorem expectPositional_cases (b : Builder) (typing : Bool) :
    (∃ a, b.expectPositional typing = .positional a ∧ b.expectPositional true = .positional a) ∨
      (b.expectPositional true = .nothing ∧ (b.expectPositional typing = .nothing ∨
        b.expectPositional typing = .optionName (b.available false))) := by
  unfold expectPositional
  cases hslot : b.spec.args[b.args.length]? with
  | some a => exact .inl ⟨a, rfl, rfl⟩
  | none =>
    cases hrest : b.spec.rest with
    | some a => exact .inl ⟨a, rfl, rfl⟩
    | none =>
      refine .inr ⟨by simp, ?_⟩
      dsimp only
      split
      · exact .inl rfl
      · exact .inr rfl

/-! ## A positional word -/

/-- A tail that reads like a literal word is not taken for the beginning of an option. -/
theorem expect_of_literal (hp : b.pending = none) (h : b.Literal t) (hread : p.ReadsLike t) :
    b.expect (some p) = b.expectPositional true := by
  obtain ⟨htext, hquote⟩ := hread
  have hno : (p.quote = none && !b.sealed && startsWith "-" p.text) = false := by
    rcases h with ⟨q, hq⟩ | ⟨hbare, hdash⟩ | hsealed
    · simp [hquote, Token.quote?, hq]
    · simp [htext, hdash]
    · simp [hsealed]
  simp only [expect, hp, hno, Bool.false_eq_true, ↓reduceIte]

theorem feed_of_literal (hp : b.pending = none) (h : b.Literal t) :
    b.feed t = (b.saw t).feedPositional t := by
  cases hs : b.sealed with
  | true => exact feed_sealed hp hs
  | false => exact feed_plain hp (h.plain hs).1 (h.plain hs).2

/-- A word that is taken for a positional one goes where it is expected, or is refused where
nothing is. -/
theorem commitsTo_or_refused_of_feed (hfeed : b.feed t = (b.saw t).feedPositional t) :
    (∃ a, b.expectPositional true = .positional a ∧ b.CommitsTo t a) ∨
      (b.expectPositional true = .nothing ∧
        (b.feed t).2 = some (.unexpectedArgument t)) := by
  unfold feedPositional at hfeed
  cases hslot : b.spec.args[b.args.length]? with
  | some a =>
    have hroom : b.args.length < b.spec.args.length := (List.getElem?_eq_some_iff.mp hslot).1
    rw [if_pos (show (b.saw t).args.length < (b.saw t).spec.args.length from hroom)] at hfeed
    refine .inl ⟨a, by simp [expectPositional, hslot], by rw [hfeed], fun key => ?_,
      .inl ⟨hslot, by rw [hfeed]; rfl, by rw [hfeed]; rfl⟩⟩
    rw [hfeed]
    rfl
  | none =>
    have hfull : b.spec.args.length ≤ b.args.length := List.getElem?_eq_none_iff.mp hslot
    rw [if_neg (show ¬ (b.saw t).args.length < (b.saw t).spec.args.length from
      Nat.not_lt.mpr hfull)] at hfeed
    cases hrest : b.spec.rest with
    | some a =>
      have hmore : (b.saw t).spec.rest.isSome = true := Option.isSome_iff_exists.mpr ⟨a, hrest⟩
      rw [if_pos hmore] at hfeed
      refine .inl ⟨a, by simp [expectPositional, hslot, hrest], by rw [hfeed], fun key => ?_,
        .inr ⟨hfull, hrest, by rw [hfeed]; rfl, by rw [hfeed]; rfl⟩⟩
      rw [hfeed]
      rfl
    | none =>
      have hmore : ¬ (b.saw t).spec.rest.isSome = true := by
        change ¬ b.spec.rest.isSome = true
        simp [hrest]
      rw [if_neg hmore] at hfeed
      exact .inr ⟨by simp [expectPositional, hslot, hrest], by rw [hfeed]⟩

theorem commitsTo_or_refused (hp : b.pending = none) (h : b.Literal t) :
    (∃ a, b.expectPositional true = .positional a ∧ b.CommitsTo t a) ∨
      (b.expectPositional true = .nothing ∧
        (b.feed t).2 = some (.unexpectedArgument t)) :=
  commitsTo_or_refused_of_feed (feed_of_literal hp h)

/-- A word that is taken for a positional one goes to the slot that is expected. -/
theorem commitsTo_of_feed (hslot : b.expectPositional true = .positional a)
    (hfeed : b.feed t = (b.saw t).feedPositional t) : b.CommitsTo t a := by
  rcases commitsTo_or_refused_of_feed hfeed with ⟨a', hslot', hcommits⟩ | ⟨hnothing, -⟩
  · rw [hslot, Expectation.positional.injEq] at hslot'
    exact hslot' ▸ hcommits
  · rw [hslot] at hnothing
    simp at hnothing

theorem not_storesAs (hp : b.pending = none) : ¬ b.StoresAs t o := by
  rintro ⟨⟨name, hwaits⟩, -⟩
  rw [hp] at hwaits
  simp at hwaits

/-- The values of the slots grow. -/
theorem CommitsTo.grows (h : b.CommitsTo t a) :
    (b.feed t).1.args ≠ b.args ∨ (b.feed t).1.rest ≠ b.rest := by
  rcases h.place with ⟨-, hargs, -⟩ | ⟨-, -, -, hrest⟩
  · exact .inl (by rw [hargs]; simp)
  · exact .inr (by rw [hrest]; simp)

/-- A word goes to one slot only. -/
theorem CommitsTo.slot_eq {a' : Slot} (h : b.CommitsTo t a) (h' : b.CommitsTo t a') :
    a = a' := by
  have hfull {c : Slot} (hslot : b.spec.args[b.args.length]? = some c) :
      b.args.length < b.spec.args.length := (List.getElem?_eq_some_iff.mp hslot).1
  rcases h.place with ⟨hslot, -⟩ | ⟨hlen, hrest, -⟩ <;>
    rcases h'.place with ⟨hslot', -⟩ | ⟨hlen', hrest', -⟩
  · rw [hslot] at hslot'
    exact Option.some.inj hslot'
  · exact absurd (hfull hslot) (Nat.not_lt.mpr hlen')
  · exact absurd (hfull hslot') (Nat.not_lt.mpr hlen)
  · rw [hrest] at hrest'
    exact Option.some.inj hrest'

/-! ## The prediction -/

/-- **What is expected is what happens.** For every builder that words lead to, and every
word that cannot be the beginning of an option: a value for an option is expected exactly
if the word becomes a value of that option, a value for a slot exactly if the word becomes
the value of that slot, and nothing exactly if the word is an argument too many. Nothing
else is ever expected. -/
theorem expect_predicts_feed {n : Node} (hb : Reached n b) (ht : b.Literal t)
    (hread : p.ReadsLike t) :
    (∀ o, b.expect (some p) = .optionValue o "" ↔ b.StoresAs t o) ∧
    (∀ a, b.expect (some p) = .positional a ↔ b.CommitsTo t a) ∧
    (b.expect (some p) = .nothing ↔ (b.feed t).2 = some (.unexpectedArgument t)) ∧
    ((∃ o, b.expect (some p) = .optionValue o "") ∨ (∃ a, b.expect (some p) = .positional a) ∨
      b.expect (some p) = .nothing) := by
  cases hp : b.pending with
  | some waiting =>
    obtain ⟨o, name⟩ := waiting
    have hs : b.sealed = false := by
      by_contra hsealed
      have := hb.pending_of_sealed (by simpa using hsealed)
      simp [this] at hp
    obtain ⟨hk, hd⟩ := ht.plain hs
    have hstores := storesAs_of_pending hp hk hd
    rw [expect_of_pending hp]
    refine ⟨fun o' => ⟨?_, ?_⟩, fun a => ⟨by simp, fun hcommits => ?_⟩,
      ⟨by simp, by simp [hstores.taken]⟩, .inl ⟨o, rfl⟩⟩
    · rintro ⟨⟩
      exact hstores
    · rintro ⟨⟨name', hwaits⟩, -⟩
      rw [hp] at hwaits
      cases hwaits
      rfl
    · -- the values of the option that waits have grown
      have hgiven := hstores.given o.key
      rw [hcommits.given, if_pos rfl] at hgiven
      simp at hgiven
  | none =>
    rw [expect_of_literal hp ht hread]
    rcases commitsTo_or_refused hp ht with ⟨a, hexpect, hcommits⟩ | ⟨hexpect, hrefused⟩
    · rw [hexpect]
      refine ⟨fun o => ⟨by simp, fun h => absurd h (not_storesAs hp)⟩,
        fun a' => ⟨?_, fun h => by rw [hcommits.slot_eq h]⟩,
        ⟨by simp, by simp [hcommits.taken]⟩, .inr (.inl ⟨a, rfl⟩)⟩
      rintro ⟨⟩
      exact hcommits
    · rw [hexpect]
      refine ⟨fun o => ⟨by simp, fun h => absurd h (not_storesAs hp)⟩,
        fun a => ⟨by simp, fun h => ?_⟩, ⟨fun _ => hrefused, fun _ => rfl⟩, .inr (.inr rfl)⟩
      rw [h.taken] at hrefused
      simp at hrefused

/-- An option waits, and the word in quotes becomes its value although it begins with a
dash. -/
theorem expect_predicts_feed_quoted :
    let b := (({ node := ⟨extractSpec, ["extract"]⟩, offset := 7 } : Builder).feed
      ⟨"-t", 8, 10, .bare⟩).1
    let t : Token := ⟨"-1", 11, 15, .quoted .single⟩
    let p : Tail := { text := "-1", start := 11, quote := some .single, closed := true }
    Reached ⟨extractSpec, ["extract"]⟩ b ∧ b.Literal t ∧ p.ReadsLike t ∧
      b.StoresAs t (extractSpec.opts.head (by decide)) := by
  intro b t p
  have hb : Reached ⟨extractSpec, ["extract"]⟩ b := .feed (.fresh 7) _
  have ht : b.Literal t := .inl ⟨.single, rfl⟩
  have hread : p.ReadsLike t := ⟨rfl, rfl⟩
  obtain ⟨hstores, -⟩ := expect_predicts_feed hb ht hread
  exact ⟨hb, ht, hread, (hstores _).mp (by decide)⟩

end Builder

end Courier.Grammar
