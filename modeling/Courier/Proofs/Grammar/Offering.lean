/-
Courier.Proofs.Grammar.Offering — what is offered can be given.

While a word is being typed, `expect` offers the options that may still be given, or the values
behind an option and its sign. The word is then fed, and `feed` decides for itself what becomes
of it. The two theorems here say when they agree.

* `offered_option_is_accepted_iff` — a spelling that is offered is accepted in front of the
  break only. Behind the break `expect` still offers options where all slots are full and no
  word has been begun, and the builder takes their spellings for arguments too many.
* `offered_inline_value_is_given_iff` — a value behind a sign is given exactly if the option may
  be given again, or has not been given. `expect` looks for the spelling alone.

## Options with one spelling or one key

The first theorem is about every command, also one whose options cannot be told apart. Which
option a spelling means there is part of its statement (`Recognises`): the first one that has
it, if a bare word with this text can be an option at all. That is the option that was offered,
or a flag that is kept under the same key. For a command that tells its options apart the
condition always holds (`recognises_of_distinct`).
-/
import Courier.Proofs.Grammar.Acceptance
import Courier.Proofs.Grammar.Consistency
import Courier.Proofs.Grammar.Expectation

namespace Courier.Grammar

open Courier.Text Courier.Line

/-! ## Names in front of a sign -/

/-- There is no sign in the name that a word begins with. -/
theorem not_mem_of_cut {text name : String} {inline : Option String}
    (h : cut '=' text = (name, inline)) : '=' ∉ name.toList := by
  have hfirst := not_mem_cut_fst '=' text
  rwa [h] at hfirst

/-- A word that begins with a dash does so in front of its sign. -/
theorem startsWith_dash_sign {name rest : String}
    (h : startsWith "-" (name ++ "=" ++ rest) = true) : startsWith "-" (name ++ "=") = true := by
  have hdash : "-".toList = ['-'] := rfl
  have hsign : "=".toList = ['='] := rfl
  simp only [startsWith, String.toList_append, hdash, hsign] at h ⊢
  cases hname : name.toList with
  | nil => simp [hname] at h
  | cons c cs => simpa [hname] using h

namespace Builder

variable {b : Builder} {t : Token} {tail : Option Tail} {o f : OptionSpec}
  {options : List OptionSpec}

/-! ## Options that are offered -/

theorem mem_available_iff {includeHelp : Bool} :
    o ∈ b.available includeHelp ↔ o ∈ b.spec.knownOptions ∧
      (includeHelp = true ∨ o.key ≠ .help) ∧ (o.repeatable = true ∨ b.given o.key = []) := by
  simp [available, has_eq_false_iff]

theorem available_subset {includeHelp : Bool} (h : o ∈ b.available includeHelp) :
    o ∈ b.available true := by
  obtain ⟨known, -, again⟩ := mem_available_iff.mp h
  exact mem_available_iff.mpr ⟨known, .inl rfl, again⟩

/-- Only options that may still be given are offered, and behind the break only if no value
fits. -/
theorem expect_eq_optionName (free : b.pending = none)
    (h : b.expect tail = .optionName options) :
    (∀ o ∈ options, o ∈ b.available true) ∧
      (b.sealed = true → b.expectPositional true = .nothing) := by
  have hexpects := expects_expect free tail
  rw [h] at hexpects
  generalize hexpected : Expectation.optionName options = expected at hexpects
  cases hexpects with
  | positional tail =>
    rcases b.expectPositional_cases tail.isSome with ⟨a, hslot, -⟩ | ⟨hnothing, hnone | hnames⟩
    · simp [hslot] at hexpected
    · simp [hnone] at hexpected
    · simp only [hnames, Expectation.optionName.injEq] at hexpected
      rw [hexpected]
      exact ⟨fun o ho => available_subset ho, fun _ => hnothing⟩
  | names unsealed =>
    simp only [Expectation.optionName.injEq] at hexpected
    simp [hexpected, unsealed]
  | inline => simp at hexpected
  | nothing => simp at hexpected

/-! ## A word as the name of an option -/

/-- The builder once it has taken a word for an option: a flag is recorded, any other option
waits for its value. -/
def taking (b : Builder) (t : Token) (o : OptionSpec) : Builder :=
  if o.takesValue then { b with pending := some (o, t) } else b.store o { t with text := "" }

/-- The word is taken for the option, and nothing else comes of it. -/
def Accepts (b : Builder) (t : Token) (o : OptionSpec) : Prop :=
  b.feed t = ((b.saw t).taking t o, none)

/-- The word reads as the option: it is dashed and has no sign in it, and the option that is
spelled like this may be given and is this one, or both are flags that are kept under one key. -/
def Recognises (b : Builder) (t : Token) (o : OptionSpec) : Prop :=
  isDashed t = true ∧ '=' ∉ t.text.toList ∧
    ∃ f ∈ b.available true, b.spec.optionSpelled? t.text = some f ∧
      (f = o ∨ (f.takesValue = false ∧ o.takesValue = false ∧ f.key = o.key))

/-- What has been stored tells the keys and the values apart. -/
theorem store_inj {x y : Token} (h : b.store f x = b.store o y) : f.key = o.key ∧ x = y := by
  have hgiven := congrArg (fun c => c.given f.key) h
  simp only [given_store, if_true] at hgiven
  split at hgiven
  · next hkey => exact ⟨hkey, by simpa using hgiven⟩
  · simp at hgiven

theorem store_congr (h : f.key = o.key) (t : Token) : b.store f t = b.store o t := by
  unfold store
  rw [h]

theorem slots_taking (b : Builder) (t : Token) (o : OptionSpec) :
    (b.taking t o).args = b.args ∧ (b.taking t o).rest = b.rest := by
  unfold taking
  split <;> exact ⟨rfl, rfl⟩

/-- A word that goes to a slot is not taken for an option. -/
theorem not_accepts_of_positional (hfeed : b.feed t = (b.saw t).feedPositional t) :
    ¬ b.Accepts t o := by
  intro h
  rcases commitsTo_or_refused_of_feed hfeed with ⟨a, -, hcommits⟩ | ⟨-, hrefused⟩
  · obtain ⟨hargs, hrest⟩ := slots_taking (b.saw t) t o
    have hgrows := hcommits.grows
    rw [h] at hgrows
    exact hgrows.elim (absurd hargs) (absurd hrest)
  · rw [h] at hrefused
    simp at hrefused

/-- An option `f` is taken for `o` if nothing stands behind its name, it may be given, and it
does what `o` does. -/
theorem feedOption_eq_taking_iff {name : String} {inline : Option String}
    (free : b.pending = none) :
    b.feedOption f t name inline = (b.taking t o, none) ↔
      inline = none ∧ (f.repeatable = true ∨ b.given f.key = []) ∧
        (f = o ∨ (f.takesValue = false ∧ o.takesValue = false ∧ f.key = o.key)) := by
  by_cases again : f.repeatable = true ∨ b.given f.key = []
  · simp only [again, true_and]
    cases inline with
    | none =>
      cases hf : f.takesValue with
      | true =>
        rw [feedOption_waits again hf, taking]
        cases ho : o.takesValue with
        | true => simp
        | false =>
          have hne : f ≠ o := by
            rintro rfl
            simp [hf] at ho
          simp [hne, store, free]
      | false =>
        rw [feedOption_flag again hf, taking]
        cases ho : o.takesValue with
        | true =>
          have hne : f ≠ o := by
            rintro rfl
            simp [hf] at ho
          simp [hne, store, free]
        | false =>
          simp only [Bool.false_eq_true, if_false, Prod.mk.injEq, and_true, true_and]
          constructor
          · intro h
            exact .inr (store_inj h).1
          · rintro (rfl | hkey)
            · rfl
            · exact store_congr hkey _
    | some value =>
      refine iff_of_false ?_ (by simp)
      intro h
      cases hf : f.takesValue with
      | false => exact feedOption_valued value hf (by rw [h])
      | true =>
        rw [feedOption_inline value again hf, taking] at h
        cases ho : o.takesValue with
        | true => simp [ho, store, free] at h
        | false =>
          -- the value that would be stored begins behind the sign, and that of a flag at the dash
          simp only [ho, Bool.false_eq_true, if_false, Prod.mk.injEq, and_true] at h
          have hstart := congrArg Token.start (store_inj h).2
          simp only at hstart
          omega
  · rw [not_or, Bool.not_eq_true] at again
    rw [feedOption_again again.1 again.2]
    simp [again]

/-- In front of the break a bare word is taken for the option that it reads as. -/
theorem accepts_iff (free : b.pending = none) (unsealed : b.sealed = false)
    (hbare : t.kind = .bare) : b.Accepts t o ↔ b.Recognises t o := by
  cases hd : isDashed t with
  | false =>
    have hfeed := feed_plain free (by simp [hbare]) hd
    exact iff_of_false (not_accepts_of_positional hfeed) (by simp [Recognises, hd])
  | true =>
    rcases hcut : cut '=' t.text with ⟨name, inline⟩
    cases hfound : b.spec.optionSpelled? name with
    | none =>
      have hunfound : b.spec.optionSpelled? (cut '=' t.text).1 = none := by rw [hcut, hfound]
      refine iff_of_false ?_ ?_
      · cases hlit : b.spec.dashIsLiteral with
        | true => exact not_accepts_of_positional (feed_literal free unsealed hd hunfound hlit)
        | false =>
          intro h
          rw [Accepts, feed_unknown free unsealed hd hunfound hlit] at h
          simp at h
      · rintro ⟨-, hsign, f, -, hspelled, -⟩
        rw [cut_of_not_mem hsign, hspelled] at hunfound
        simp at hunfound
    | some f =>
      have hfeed := feed_option free unsealed hd (by rw [hcut]; exact hfound)
      rw [hcut] at hfeed
      rw [Accepts, hfeed, feedOption_eq_taking_iff (show (b.saw t).pending = none from free)]
      constructor
      · rintro ⟨rfl, again, hsame⟩
        have hsign := not_mem_of_cut hcut
        obtain ⟨rfl, -⟩ := cut_eq_none_iff.1 hcut
        have known : f ∈ b.spec.knownOptions := List.mem_of_find?_eq_some hfound
        exact ⟨hd, hsign, f, mem_available_iff.mpr ⟨known, .inl rfl, again⟩, hfound, hsame⟩
      · rintro ⟨-, hsign, f', havailable, hspelled, hsame⟩
        rw [cut_of_not_mem hsign, Prod.mk.injEq] at hcut
        obtain ⟨rfl, rfl⟩ := hcut
        obtain rfl : f = f' := Option.some.inj (hfound.symm.trans hspelled)
        exact ⟨rfl, (mem_available_iff.mp havailable).2.2, hsame⟩

/-- If the options of a command can be told apart, a spelling of an option that may be given
reads as that option. -/
theorem recognises_of_distinct (distinct : b.spec.Distinct) (ho : o ∈ b.available true)
    (hbare : t.kind = .bare) (hs : t.text ∈ o.spellings) : b.Recognises t o := by
  have known := (mem_available_iff.mp ho).1
  exact ⟨isDashed_spelling distinct known hbare hs, distinct.not_mem_sign known hs, o, ho,
    distinct.optionSpelled?_eq_some_iff.mpr ⟨known, hs⟩, .inl rfl⟩

/-- **An option that is offered is accepted in front of the break.** Let no option wait for a
value, and let the names of options be expected. Then a bare word that spells one of them is
taken for that option exactly if the break has not been seen and the word reads as the option;
if the options of the command can be told apart, every such word does. Behind the break the
word is an argument too many. -/
theorem offered_option_is_accepted_iff (free : b.pending = none)
    (hoffer : b.expect tail = .optionName options) (ho : o ∈ options) (hbare : t.kind = .bare)
    (hs : t.text ∈ o.spellings) :
    (b.Accepts t o ↔ b.sealed = false ∧ b.Recognises t o) ∧
      (b.spec.Distinct → b.Recognises t o) ∧
      (b.sealed = true → b.feed t = (b.saw t, some (.unexpectedArgument t))) := by
  obtain ⟨havailable, hbehind⟩ := expect_eq_optionName free hoffer
  refine ⟨?_, fun distinct => recognises_of_distinct distinct (havailable o ho) hbare hs, ?_⟩
  · cases hsealed : b.sealed with
    | true =>
      have hfeed := feed_sealed (t := t) free hsealed
      exact iff_of_false (not_accepts_of_positional hfeed) (by simp)
    | false => simp [accepts_iff free hsealed hbare]
  · intro hsealed
    rcases commitsTo_or_refused_of_feed (t := t) (feed_sealed free hsealed) with
      ⟨a, hslot, -⟩ | ⟨-, hrefused⟩
    · rw [hbehind hsealed] at hslot
      simp at hslot
    · exact Prod.ext (feed_refused hrefused) hrefused

/-- A flag of a run is offered for a dash, and the long spelling of it is accepted. -/
theorem offered_option_is_accepted_iff_flag :
    let b : Builder := { node := ⟨runSpec, ["run"]⟩, offset := 3 }
    let p : Tail := { text := "-", start := 4 }
    let t : Token := ⟨"--quiet", 4, 11, .bare⟩
    let o : OptionSpec := runSpec.opts.head (by decide)
    b.expect (some p) = .optionName (b.available true) ∧ o ∈ b.available true ∧
      t.text ∈ o.spellings ∧ b.Accepts t o := by
  intro b p t o
  have hoffer : b.expect (some p) = .optionName (b.available true) := by decide
  have ho : o ∈ b.available true := by decide
  have hs : t.text ∈ o.spellings := by decide
  obtain ⟨haccepts, hrecognises, -⟩ := offered_option_is_accepted_iff rfl hoffer ho rfl hs
  exact ⟨hoffer, ho, hs, haccepts.mpr ⟨rfl, hrecognises (by decide)⟩⟩

/-- Behind the break a creation with all its values still offers `--method`, and refuses it. -/
theorem offered_option_is_refused_behind_break :
    let n : Node := ⟨createSpec.children.head (by decide), ["create", "request"]⟩
    let b := (({ node := n, offset := 14 } : Builder).feedAll [⟨"ping", 15, 19, .bare⟩,
      ⟨"http://h/", 20, 29, .bare⟩, ⟨"--", 30, 32, .break⟩]).1
    Reached n b ∧ b.pending = none ∧
      b.expect none = .optionName [methodOpt, headerOpt, dataOpt] ∧
      ¬ b.Accepts ⟨"--method", 33, 41, .bare⟩ methodOpt := by
  intro n b
  have hb : Reached n b := (Reached.fresh 14).feedAll _
  have hrefused : (b.feed ⟨"--method", 33, 41, .bare⟩).2
      = some (.unexpectedArgument ⟨"--method", 33, 41, .bare⟩) := by decide
  refine ⟨hb, rfl, by decide, ?_⟩
  intro haccepts
  rw [haccepts] at hrefused
  simp at hrefused

/-! ## Values behind a sign -/

/-- The values of an option are expected behind its name and a sign only if the option takes a
value. -/
theorem expect_eq_optionValue {lead : String} (h : b.expect tail = .optionValue o lead)
    (hlead : lead ≠ "") :
    ∃ name, lead = name ++ "=" ∧ '=' ∉ name.toList ∧ startsWith "-" lead = true ∧
      b.pending = none ∧ b.sealed = false ∧ b.spec.optionSpelled? name = some o ∧
      o.takesValue = true := by
  cases free : b.pending with
  | some waiting =>
    obtain ⟨o', name⟩ := waiting
    rw [expect_of_pending free] at h
    simp only [Expectation.optionValue.injEq] at h
    exact absurd h.2.symm hlead
  | none =>
    have hexpects := expects_expect free tail
    rw [h] at hexpects
    generalize hexpected : Expectation.optionValue o lead = expected at hexpects
    cases hexpects with
    | positional tail =>
      rcases b.expectPositional_cases tail.isSome with ⟨a, hslot, -⟩ | ⟨-, hnone | hnames⟩
      · simp [hslot] at hexpected
      · simp [hnone] at hexpected
      · simp [hnames] at hexpected
    | names => simp at hexpected
    | nothing => simp at hexpected
    | @inline p o' name begun unsealed dashed parts found takes =>
      obtain ⟨rfl, rfl⟩ : o = o' ∧ lead = name ++ "=" := by simpa using hexpected
      have htext := cut_eq p.text
      rw [parts] at htext
      rw [htext] at dashed
      exact ⟨name, rfl, not_mem_of_cut parts, startsWith_dash_sign dashed, rfl, unsealed, found,
        takes⟩

/-- **A value that is offered behind a sign is given if the option may be given.** Let the values
of an option be expected behind something in the same word. Then a bare word with any value
there is taken, and the value is added to those of the option and to no others, exactly if the
option may be given again or has not been given; otherwise the word is refused as one value too
many. -/
theorem offered_inline_value_is_given_iff {lead value : String}
    (hoffer : b.expect tail = .optionValue o lead) (hlead : lead ≠ "") (hbare : t.kind = .bare)
    (htext : t.text = lead ++ value) :
    ((b.feed t).2 = none ∧ (∀ key, ((b.feed t).1.given key).map Token.text
        = if key = o.key then (b.given key).map Token.text ++ [value]
          else (b.given key).map Token.text)
      ↔ o.repeatable = true ∨ b.given o.key = []) ∧
    (o.repeatable = false → b.given o.key ≠ [] →
      ∃ name, lead = name ++ "=" ∧ b.feed t = (b.saw t, some (.tooManyValues name t))) := by
  obtain ⟨name, rfl, hsign, hdash, free, unsealed, found, takes⟩ :=
    expect_eq_optionValue hoffer hlead
  have hcut : cut '=' t.text = (name, some value) := by
    rw [htext]
    exact cut_sign hsign value
  have hd : isDashed t = true := by
    rw [isDashed_iff, htext]
    refine ⟨hbare, startsWith_append hdash value, ?_⟩
    intro hone
    have hmem : '=' ∈ (name ++ "=" ++ value).toList := by simp
    rw [hone] at hmem
    exact absurd hmem (by decide)
  have hfeed := feed_option free unsealed hd (by rw [hcut]; exact found)
  rw [hcut] at hfeed
  by_cases again : o.repeatable = true ∨ b.given o.key = []
  · have hgiven := hfeed.trans (feedOption_inline value again takes)
    refine ⟨iff_of_true ⟨by rw [hgiven], ?_⟩ again, ?_⟩
    · intro key
      rw [hgiven, given_store]
      split
      · simp [saw, given]
      · rfl
    · intro honce hused
      simp [honce, hused] at again
  · have hnot := again
    rw [not_or, Bool.not_eq_true] at hnot
    have hrefused := hfeed.trans (feedOption_again hnot.1 hnot.2)
    refine ⟨iff_of_false ?_ again, fun _ _ => ⟨name, rfl, hrefused⟩⟩
    rintro ⟨htaken, -⟩
    simp [hrefused] at htaken

/-- The second header of a creation is given behind the sign. -/
theorem offered_inline_value_is_given_iff_header :
    let n : Node := ⟨createSpec.children.head (by decide), ["create", "request"]⟩
    let b := (({ node := n, offset := 14 } : Builder).feed ⟨"-H=A:1", 15, 21, .bare⟩).1
    let p : Tail := { text := "--header=B", start := 22 }
    let t : Token := ⟨"--header=B:2", 22, 34, .bare⟩
    b.expect (some p) = .optionValue headerOpt "--header=" ∧
      (b.feed t).2 = none ∧ ((b.feed t).1.given .header).map Token.text = ["A:1", "B:2"] := by
  intro n b p t
  have hoffer : b.expect (some p) = .optionValue headerOpt "--header=" := by decide
  have htext : t.text = "--header=" ++ "B:2" := by decide
  obtain ⟨hgives, -⟩ := offered_inline_value_is_given_iff hoffer (by decide) rfl htext
  obtain ⟨htaken, hgiven⟩ := hgives.mpr (.inl rfl)
  exact ⟨hoffer, htaken, hgiven .header⟩

/-- The method of a creation has been given, and its values are offered once more. -/
theorem offered_inline_value_is_refused :
    let n : Node := ⟨createSpec.children.head (by decide), ["create", "request"]⟩
    let b := (({ node := n, offset := 14 } : Builder).feedAll [⟨"-m", 15, 17, .bare⟩,
      ⟨"GET", 18, 21, .bare⟩]).1
    let p : Tail := { text := "--method=P", start := 22 }
    Reached n b ∧ b.pending = none ∧ b.expect (some p) = .optionValue methodOpt "--method=" ∧
      (b.feed ⟨"--method=PUT", 22, 34, .bare⟩).2 ≠ none := by
  intro n b p
  have hb : Reached n b := (Reached.fresh 14).feedAll _
  exact ⟨hb, rfl, by decide, by decide⟩

end Builder

end Courier.Grammar
