/-
Courier.Proofs.Completion.Acceptance — what becomes of a candidate that is taken.

A candidate that is complete is put in the place of the last word of the line, and the line is
read again. `accepted_value_is_given_iff` says when the value is then what it was offered for:
the last word of the line has its text and goes to the slot, or to the option, that asked for
a value.

Two things stand in the way, and the condition `ReadsBack` is that neither does.

* A word that is written bare and begins with a dash is taken for an option, unless the break
  is in front of it, or the command takes such words for values (`Builder.TakesBare`).
* A word with both quotes in it falls apart, if a quote of its own is not held
  (`splitTail_broken`).
-/
import Courier.Proofs.Completion.Rendering
import Courier.Proofs.Completion.Typing
import Courier.Proofs.Grammar.Expectation
import Courier.Proofs.Line.Retyping

namespace Courier

open Courier.Grammar Courier.Line Courier.Text

/-! ## What a word is given for -/

/-- What stands in front of the values that are expected, in the same word. -/
def Grammar.Expectation.lead? : Expectation → Option String
  | .positional _ => some ""
  | .optionValue _ lead => some lead
  | .optionName _ => none
  | .nothing => none

namespace Grammar.Builder

variable {b : Builder} {t : Token} {tail : Option Tail}

/-- The word goes where a value was expected. -/
def Gives (b : Builder) (t : Token) : Expectation → Prop
  | .positional a => b.CommitsTo t a
  | .optionValue o _ => b.StoresAs t o
  | .optionName _ => False
  | .nothing => False

theorem Gives.taken {e : Expectation} (h : b.Gives t e) : (b.feed t).2 = none := by
  cases e with
  | positional a => exact CommitsTo.taken h
  | optionValue o lead => exact StoresAs.taken h
  | optionName os => exact h.elim
  | nothing => exact h.elim

/-- Whether a bare word is a value here, and not an option or something like it. -/
def TakesBare (b : Builder) (text : String) : Prop :=
  startsWith "-" text = false ∨ b.sealed = true ∨
    (b.pending = none ∧ b.spec.dashIsLiteral = true
      ∧ b.spec.optionSpelled? (cut '=' text).1 = none)

instance (b : Builder) (text : String) : Decidable (b.TakesBare text) :=
  inferInstanceAs (Decidable (_ ∨ _ ∨ (_ ∧ _ ∧ _)))

/-- A value that is a word of its own is expected for the option that waits, or for a slot. -/
theorem expect_cases_of_lead (h : (b.expect tail).lead? = some "") :
    (∃ o name, b.pending = some (o, name) ∧ b.expect tail = .optionValue o "") ∨
      (b.pending = none ∧
        ∃ a, b.expect tail = .positional a ∧ b.expectPositional true = .positional a) := by
  cases hp : b.pending with
  | some waiting =>
    obtain ⟨o, name⟩ := waiting
    exact .inl ⟨o, name, rfl, expect_of_pending hp tail⟩
  | none =>
    refine .inr ⟨rfl, ?_⟩
    have hexpects := expects_expect hp tail
    generalize b.expect tail = expected at h hexpects
    cases hexpects with
    | positional tail =>
      rcases b.expectPositional_cases tail.isSome with hslot | ⟨-, hnone | hnames⟩
      · exact hslot
      · simp [hnone, Expectation.lead?] at h
      · simp [hnames, Expectation.lead?] at h
    | names => simp [Expectation.lead?] at h
    | inline =>
      -- what leads up to the value has a sign in it
      simp [Expectation.lead?] at h
    | nothing => simp [Expectation.lead?] at h

/-- A word that is not dashed is given for what was expected. -/
theorem gives_of_plain (hasks : (b.expect tail).lead? = some "") (hk : t.kind ≠ .break)
    (hd : isDashed t = false) : b.Gives t (b.expect tail) := by
  rcases expect_cases_of_lead hasks with ⟨o, name, hp, hexpect⟩ | ⟨hp, a, hexpect, hslot⟩
  · rw [hexpect]
    exact storesAs_of_pending hp hk hd
  · rw [hexpect]
    exact commitsTo_of_feed hslot (feed_plain hp hk hd)

theorem slots_feedOption (b : Builder) (o : OptionSpec) (t : Token) (name : String)
    (inline : Option String) :
    (b.feedOption o t name inline).1.args = b.args
      ∧ (b.feedOption o t name inline).1.rest = b.rest := by
  unfold feedOption
  split
  · exact ⟨rfl, rfl⟩
  · split
    · split <;> exact ⟨rfl, rfl⟩
    · split <;> exact ⟨rfl, rfl⟩

/-- A word that is dashed is given for what was expected only if no option is looked for in
it, or none is found and none is missed. -/
theorem gives_iff_of_dashed {n : Node} (hb : Reached n b) (hd : isDashed t = true)
    (hasks : (b.expect tail).lead? = some "") :
    b.Gives t (b.expect tail) ↔ b.sealed = true ∨
      (b.pending = none ∧ b.spec.dashIsLiteral = true
        ∧ b.spec.optionSpelled? (cut '=' t.text).1 = none) := by
  cases hs : b.sealed with
  | true =>
    have hfree := hb.pending_of_sealed hs
    rcases expect_cases_of_lead hasks with ⟨o, name, hp, -⟩ | ⟨hp, a, hexpect, hslot⟩
    · simp [hp] at hfree
    · rw [hexpect]
      exact ⟨fun _ => .inl rfl, fun _ => commitsTo_of_feed hslot (feed_sealed hp hs)⟩
  | false =>
    rcases expect_cases_of_lead hasks with ⟨o, name, hp, hexpect⟩ | ⟨hp, a, hexpect, hslot⟩
    · -- the option that waits misses its value
      refine ⟨fun h => ?_, by simp [hp]⟩
      have htaken := h.taken
      simp [feed_pending_refused hp (.inr hd)] at htaken
    · rw [hexpect]
      cases hfound : b.spec.optionSpelled? (cut '=' t.text).1 with
      | some o =>
        refine ⟨fun h => ?_, by simp⟩
        have hsame := slots_feedOption (b.saw t) o t (cut '=' t.text).1 (cut '=' t.text).2
        rw [← feed_option hp hs hd hfound] at hsame
        exact (CommitsTo.grows h).elim (absurd hsame.1) (absurd hsame.2)
      | none =>
        cases hlit : b.spec.dashIsLiteral with
        | true =>
          exact ⟨fun _ => .inr ⟨hp, rfl, rfl⟩,
            fun _ => commitsTo_of_feed hslot (feed_literal hp hs hd hfound hlit)⟩
        | false =>
          refine ⟨fun h => ?_, by simp⟩
          have htaken := CommitsTo.taken h
          simp [feed_unknown hp hs hd hfound hlit] at htaken

/-- **What a word that is put into the line is given for.** Between quotes it always goes where
a value was expected, and bare if it is a value there. -/
theorem gives_iff {n : Node} (hb : Reached n b) (hk : t.kind ≠ .break) (hne : t.text ≠ "-")
    (hasks : (b.expect tail).lead? = some "") :
    b.Gives t (b.expect tail) ↔ (t.kind = .bare → b.TakesBare t.text) := by
  cases hd : isDashed t with
  | false =>
    refine ⟨fun _ hbare => .inl ?_, fun _ => gives_of_plain hasks hk hd⟩
    simpa [isDashed, hbare, hne] using hd
  | true =>
    obtain ⟨hbare, hdash, -⟩ := isDashed_iff.mp hd
    rw [gives_iff_of_dashed hb hd hasks, TakesBare]
    simp [hbare, hdash]

end Grammar.Builder

/-! ## Lines that are taken word by word -/

/-- The complete words of a line lead to the command `n`, and its builder takes the words `ts`
behind the name. -/
structure Typed (line : String) (n : Node) (ts : List Token) (b : Builder) : Prop where
  leads : walk (tokenizeUnfinished line).1 = ⟨n, ts, true⟩
  leaf : n.isLeaf = true
  fed : ({ node := n } : Builder).feedAll ts = (b, none)

/-- The words of a line are taken, and the last of them is this text and goes where it
should. -/
def EndsIn (goes : Builder → Token → Prop) (line : String) (n : Node) (text : String) : Prop :=
  ∃ us u before after, Typed line n (us ++ [u]) after ∧
    ({ node := n } : Builder).feedAll us = (before, none) ∧ goes before u ∧ u.text = text

namespace Typed

variable {line line' : String} {n : Node} {ts us : List Token} {b after : Builder}
  {tail : Option Tail}

theorem reached (h : Typed line n ts b) : Builder.Reached n b := by
  have hreached := Builder.Reached.feedAll (.fresh (n := n) 0) ts
  rwa [h.fed] at hreached

/-- A line with more complete words has its builder feed on them. -/
theorem append_iff (h : Typed line n ts b)
    (hread : tokenizeUnfinished line' = ((tokenizeUnfinished line).1 ++ us, tail))
    {ts' : List Token} :
    Typed line' n ts' after ↔ ts' = ts ++ us ∧ b.feedAll us = (after, none) := by
  have hleads : walk (tokenizeUnfinished line').1 = ⟨n, ts ++ us, true⟩ := by
    have hwalk := h.leads
    rw [walk] at hwalk
    rw [hread, walk, walkFrom_append, hwalk]
    simp [h.leaf]
  have hfed : ({ node := n } : Builder).feedAll (ts ++ us) = b.feedAll us := by
    rw [Builder.feedAll_append, h.fed]
  constructor
  · intro h'
    have hsame := h'.leads
    rw [hleads, Walk.mk.injEq] at hsame
    obtain ⟨-, rfl, -⟩ := hsame
    exact ⟨rfl, hfed ▸ h'.fed⟩
  · rintro ⟨rfl, hafter⟩
    exact ⟨hleads, h.leaf, hfed.trans hafter⟩

/-- With one word more, a line ends in that word. -/
theorem endsIn_word_iff (h : Typed line n ts b) {u : Token}
    (hread : tokenizeUnfinished line' = ((tokenizeUnfinished line).1 ++ [u], tail))
    {goes : Builder → Token → Prop} (hgoes : goes b u → (b.feed u).2 = none) :
    EndsIn goes line' n u.text ↔ goes b u := by
  constructor
  · rintro ⟨us, u', before, after, htyped, hbefore, hu, -⟩
    obtain ⟨hwords, -⟩ := (h.append_iff hread).mp htyped
    obtain ⟨rfl, hlast⟩ := List.append_inj' hwords rfl
    obtain rfl : u' = u := by simpa using hlast
    rw [h.fed, Prod.mk.injEq] at hbefore
    exact hbefore.1 ▸ hu
  · intro hu
    have hfed : b.feedAll [u] = ((b.feed u).1, none) := by
      rw [Builder.feedAll]
      rcases hfeed : b.feed u with ⟨after, _ | e⟩
      · rfl
      · simpa [hfeed] using hgoes hu
    exact ⟨ts, u, b, _, (h.append_iff hread).mpr ⟨rfl, hfed⟩, h.fed, hu, rfl⟩

/-- With several words more, none of which is the text, a line does not end in the text. -/
theorem not_endsIn (h : Typed line n ts b) (hne : us ≠ [])
    (hread : tokenizeUnfinished line' = ((tokenizeUnfinished line).1 ++ us, tail))
    {text : String} (htext : ∀ u ∈ us, u.text ≠ text) (goes : Builder → Token → Prop) :
    ¬ EndsIn goes line' n text := by
  rintro ⟨us', u, before, after, htyped, -, -, hu⟩
  obtain ⟨hwords, -⟩ := (h.append_iff hread).mp htyped
  have hlast := congrArg List.getLast? hwords
  rw [List.getLast?_concat, List.getLast?_append_of_ne_nil _ hne] at hlast
  exact htext u (List.mem_of_getLast? hlast.symm) hu

end Typed

/-! ## A candidate in the line -/

/-- What has been typed, with a candidate in the place of its last word. -/
def accept (typed : String) (ask : Query → List String) (c : Candidate) : String :=
  String.ofList (typed.toList.take (complete typed typed.length ask).start) ++ c.replacement

theorem complete_end (typed : String) (ask : Query → List String) :
    complete typed typed.length ask =
      { start := ((tokenizeUnfinished typed).2.map Tail.start).getD typed.length
        cursor := typed.length
        candidates := candidates ask (tokenizeUnfinished typed).2
          (offer (tokenizeUnfinished typed).1 (tokenizeUnfinished typed).2) } := by
  have hclamp : clampCursor typed typed.length = typed.length := by
    rw [clampCursor, Int.toNat_natCast, Nat.min_self]
  rw [complete, beforeCursor_end, hclamp]

/-- A candidate for a value is the value behind what leads up to it, as it is written. -/
theorem Typed.replacement_eq {typed : String} {n : Node} {ts : List Token} {b : Builder}
    (h : Typed typed n ts b) {ask : Query → List String} {c : Candidate}
    (hc : c ∈ (complete typed typed.length ask).candidates) {lead : String}
    (hlead : (b.expect (tokenizeUnfinished typed).2).lead? = some lead) :
    c.replacement = render (lead ++ c.display) (tokenizeUnfinished typed).2 true := by
  have hwalk := h.leads
  have hoffer : offer (tokenizeUnfinished typed).1 (tokenizeUnfinished typed).2
      = offerOf b (tokenizeUnfinished typed).2 :=
    offer_of_fed (by rw [hwalk]) (by rw [hwalk]; exact h.leaf) (by rw [hwalk]; exact h.fed)
  have hvalue : ∃ names, c ∈ valueCandidates lead (tokenizeUnfinished typed).2 names := by
    rw [complete_end, hoffer, offerOf] at hc
    cases hexpect : b.expect (tokenizeUnfinished typed).2 with
    | nothing => simp [hexpect, Expectation.lead?] at hlead
    | optionName os => simp [hexpect, Expectation.lead?] at hlead
    | positional a =>
      rw [hexpect, Expectation.lead?, Option.some.injEq] at hlead
      subst hlead
      simp only [hexpect, Offer.fixedOr] at hc
      split at hc <;> exact ⟨_, hc⟩
    | optionValue o lead' =>
      rw [hexpect, Expectation.lead?, Option.some.injEq] at hlead
      subst hlead
      simp only [hexpect, Offer.fixedOr] at hc
      split at hc <;> exact ⟨_, hc⟩
  obtain ⟨names, hmem⟩ := hvalue
  obtain ⟨v, -, rfl⟩ := List.mem_map.mp hmem
  rfl

/-- With a candidate that is a complete word, the line has its words and what the candidate is
read as. -/
theorem tokenizeUnfinished_accept (typed : String) (ask : Query → List String) {c : Candidate}
    {word : Lexeme} (hword : c.replacement = word.source ++ " ") :
    ∃ place : Nat, tokenizeUnfinished (accept typed ask c)
      = ((tokenizeUnfinished typed).1
          ++ (splitTail (place + (word.source.toList ++ [' ']).length)
            (pieces place (word.source.toList ++ [' ']))).1,
        (splitTail (place + (word.source.toList ++ [' ']).length)
          (pieces place (word.source.toList ++ [' ']))).2) := by
  have hne : c.replacement ≠ "" := by
    rw [hword]
    simp
  have hread := tokenizeUnfinished_retyped typed hne
  have hchars : c.replacement.toList = word.source.toList ++ [' '] := by
    rw [hword, String.toList_append]
    rfl
  rw [accept, complete_end]
  rw [hchars] at hread
  exact ⟨_, hread⟩

/-- A well-formed word is read as one word more. -/
theorem accept_of_wellFormed (typed : String) (ask : Query → List String) {c : Candidate}
    {word : Lexeme} (hword : c.replacement = word.source ++ " ") (hx : word.WellFormed)
    (hends : endsEscaped word.text = false) :
    ∃ place : Nat, tokenizeUnfinished (accept typed ask c)
      = ((tokenizeUnfinished typed).1 ++ [word.at place], none) := by
  obtain ⟨place, hread⟩ := tokenizeUnfinished_accept typed ask hword
  exact ⟨place, by rw [hread, splitTail_word hx hends]⟩

/-- A word that falls apart is read as several words, none of which is the value. -/
theorem accept_of_broken (typed : String) (ask : Query → List String) {c : Candidate}
    {lead value : String} {q : Quote}
    (hword : c.replacement = (Lexeme.mk (lead ++ value) (.quoted q)).source ++ " ")
    (hbroken : quotesHeld q.char (lead ++ value).toList = false) (hlead : q.char ∉ lead.toList)
    (hother : ∃ d ∈ value.toList, d ≠ q.char) :
    ∃ first more tail, tokenizeUnfinished (accept typed ask c)
        = ((tokenizeUnfinished typed).1 ++ first :: more, tail) ∧
      first.kind = .quoted q ∧ first.text.length < (lead ++ value).length ∧
      ∀ t ∈ more, t.text.length ≤ value.length ∧ t.text ≠ value := by
  obtain ⟨place, hread⟩ := tokenizeUnfinished_accept typed ask hword
  rw [String.toList_append] at hbroken
  obtain ⟨first, more, tail, hsplit, hkind, hshort, hmore⟩ :=
    splitTail_broken hbroken hlead hother place
  have hchars : (Lexeme.mk (lead ++ value) (.quoted q)).source.toList ++ [' ']
      = q.char :: (lead.toList ++ value.toList ++ [q.char, ' ']) := by
    rw [Lexeme.source_quoted]
    simp
  rw [hchars, hsplit] at hread
  refine ⟨first, more, tail, hread, hkind, ?_, fun t ht => ?_⟩
  · rwa [String.length_append, ← String.length_toList (s := lead),
      ← String.length_toList (s := value), ← List.length_append]
  · obtain ⟨hle, hne⟩ := hmore t ht
    rw [String.length_toList] at hle
    exact ⟨hle, fun h => hne (by rw [h])⟩

/-! ## A value as a word of its own -/

/-- Whether a value that is put into the line is read back as it was meant: between quotes it
must hold the quote, and bare it must be a value to the builder. -/
def ReadsBack (b : Builder) (value : String) (tail : Option Tail) : Prop :=
  match writtenQuote? value tail with
  | some q => quotesHeld q.char value.toList = true
  | none => b.TakesBare value

instance (b : Builder) (value : String) (tail : Option Tail) :
    Decidable (ReadsBack b value tail) := by
  unfold ReadsBack
  split <;> infer_instance

theorem readsBack_iff {b : Builder} {value : String} {tail : Option Tail}
    (hends : endsEscaped value = false) :
    ReadsBack b value tail ↔ (writtenWord value tail).WellFormed ∧
      ((writtenWord value tail).kind = .bare → b.TakesBare value) := by
  rw [wellFormed_writtenWord_iff hends, ReadsBack, writtenWord]
  cases writtenQuote? value tail <;> simp

theorem kind_writtenWord_ne (value : String) (tail : Option Tail) :
    (writtenWord value tail).kind ≠ .break := by
  unfold writtenWord
  cases writtenQuote? value tail <;> simp

section

variable {typed : String} {n : Node} {ts : List Token} {b : Builder}
  {ask : Query → List String} {c : Candidate}

/-- A candidate that is a well-formed word goes where a value was expected if it is a value. -/
theorem Typed.endsIn_accept_iff (h : Typed typed n ts b)
    (hword : c.replacement = (writtenWord c.display (tokenizeUnfinished typed).2).source ++ " ")
    (hends : endsEscaped c.display = false) (hne : c.display ≠ "-")
    (hasks : (b.expect (tokenizeUnfinished typed).2).lead? = some "")
    (hx : (writtenWord c.display (tokenizeUnfinished typed).2).WellFormed) :
    EndsIn (fun before word => before.Gives word (b.expect (tokenizeUnfinished typed).2))
        (accept typed ask c) n c.display
      ↔ ((writtenWord c.display (tokenizeUnfinished typed).2).kind = .bare →
          b.TakesBare c.display) := by
  obtain ⟨place, hread⟩ := accept_of_wellFormed typed ask hword hx hends
  have hgives := Builder.gives_iff h.reached
    (t := (writtenWord c.display (tokenizeUnfinished typed).2).at place)
    (kind_writtenWord_ne _ _) hne hasks
  exact (h.endsIn_word_iff hread Builder.Gives.taken).trans hgives

/-- A candidate that falls apart goes nowhere as a whole. -/
theorem Typed.not_endsIn_accept (h : Typed typed n ts b)
    (hword : c.replacement = (writtenWord c.display (tokenizeUnfinished typed).2).source ++ " ")
    (hends : endsEscaped c.display = false)
    (hx : ¬ (writtenWord c.display (tokenizeUnfinished typed).2).WellFormed)
    (goes : Builder → Token → Prop) : ¬ EndsIn goes (accept typed ask c) n c.display := by
  rw [wellFormed_writtenWord_iff hends] at hx
  push Not at hx
  obtain ⟨q, hquote, hbroken⟩ := hx
  rw [ne_eq, Bool.not_eq_true] at hbroken
  have hsource : writtenWord c.display (tokenizeUnfinished typed).2
      = ⟨"" ++ c.display, .quoted q⟩ := by
    rw [writtenWord, hquote, String.empty_append]
  rw [hsource] at hword
  obtain ⟨first, more, tail, hread, -, hshort, hmore⟩ := accept_of_broken typed ask hword
    (by rwa [String.empty_append]) (by simp) (exists_ne_of_broken hquote hbroken)
  refine h.not_endsIn (by simp) hread (fun t ht heq => ?_) goes
  rcases List.mem_cons.mp ht with rfl | ht
  · rw [heq, String.empty_append] at hshort
    exact absurd hshort (Nat.lt_irrefl _)
  · exact (hmore t ht).2 heq

/-- **A value that is offered is given if it reads back.** Let the complete words of a line be
taken for a command, and let a value be expected there that is a word of its own: for a slot,
for the catch-all, or for an option that waits. If a candidate with a space behind it is put in
the place of the last word, then the words are taken again, and the last of them has the text
of the candidate and goes where the value was expected; unless the candidate is written bare
and looks like an option, or holds a quote that ends it. -/
theorem accepted_value_is_given_iff (h : Typed typed n ts b)
    (hc : c ∈ (complete typed typed.length ask).candidates)
    (hspace : endsWith " " c.replacement = true)
    (hasks : (b.expect (tokenizeUnfinished typed).2).lead? = some "") :
    EndsIn (fun before word => before.Gives word (b.expect (tokenizeUnfinished typed).2))
        (accept typed ask c) n c.display
      ↔ ReadsBack b c.display (tokenizeUnfinished typed).2 := by
  have hrender := h.replacement_eq hc hasks
  rw [String.empty_append] at hrender
  obtain ⟨hopen, hends, hword⟩ := render_of_space (hrender ▸ hspace)
  rw [← hrender] at hword
  have hne : c.display ≠ "-" := by
    intro heq
    rw [heq] at hopen
    exact absurd hopen (by decide)
  rw [readsBack_iff hends]
  by_cases hx : (writtenWord c.display (tokenizeUnfinished typed).2).WellFormed
  · rw [h.endsIn_accept_iff hword hends hne hasks hx, and_iff_right hx]
  · exact iff_of_false (h.not_endsIn_accept hword hends hx _) (fun hreads => hx hreads.1)

/-- The quote that has been typed is in the value, so that the value is written in the other
one. -/
theorem accepted_value_is_given_iff_requoted :
    let n : Node := ⟨runSpec, ["run"]⟩
    let c : Candidate := { display := "it's x", replacement := "\"it's x\" " }
    Typed "run 'it" n [] { node := n } ∧
      c ∈ (complete "run 'it" "run 'it".length fun _ => ["it's x"]).candidates ∧
      EndsIn (fun before word => before.CommitsTo word (runSpec.args.head (by decide)))
        (accept "run 'it" (fun _ => ["it's x"]) c) n "it's x" := by
  intro n c
  have hread : tokenizeUnfinished "run 'it"
      = ([⟨"run", 0, 3, .bare⟩], some ⟨"it", 4, some .single, false⟩) := by decide +kernel
  have h : Typed "run 'it" n [] { node := n } := ⟨by rw [hread]; rfl, rfl, rfl⟩
  have hc : c ∈ (complete "run 'it" "run 'it".length fun _ => ["it's x"]).candidates := by
    decide +kernel
  have hgiven := (accepted_value_is_given_iff h hc (by decide) (by rw [hread]; rfl)).mpr
    (by rw [hread]; decide)
  rw [hread] at hgiven
  exact ⟨h, hc, hgiven⟩

/-- A stored name that begins with a dash is offered, and refused once it is taken. -/
theorem accepted_value_is_refused :
    let n : Node := ⟨runSpec, ["run"]⟩
    let c : Candidate := { display := "-foo", replacement := "-foo " }
    Typed "run " n [] { node := n } ∧
      c ∈ (complete "run " "run ".length fun _ => ["-foo"]).candidates ∧
      (({ node := n } : Builder).expect none).lead? = some "" ∧
      ¬ EndsIn (fun before word => before.Gives word (({ node := n } : Builder).expect none))
        (accept "run " (fun _ => ["-foo"]) c) n "-foo" := by
  intro n c
  have hread : tokenizeUnfinished "run " = ([⟨"run", 0, 3, .bare⟩], none) := by decide +kernel
  have h : Typed "run " n [] { node := n } := ⟨by rw [hread]; rfl, rfl, rfl⟩
  have htaken : tokenizeUnfinished (accept "run " (fun _ => ["-foo"]) c)
      = ((tokenizeUnfinished "run ").1 ++ [⟨"-foo", 4, 8, .bare⟩], none) := by decide +kernel
  refine ⟨h, by decide +kernel, rfl, fun hends => ?_⟩
  have hgives := (h.endsIn_word_iff htaken Builder.Gives.taken).mp hends
  exact absurd hgives.taken (by decide)

end

end Courier
