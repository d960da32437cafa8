/-
Courier.Proofs.Grammar.Acceptance — a builder takes exactly what its command accepts.

`Courier.Proofs.Grammar.Reading` says without a builder what a command accepts. `Holds`
says what a builder holds that has taken such words: the positional values in its slots
and then in its catch-all, and for each option the values it was given.

`consume_accepts` is the tie: a builder takes exactly the words of the readings that fit
and are allowed, and it then holds exactly what they say.

## One item at a time

A value option makes the builder wait between two words, so that `Holds` is no invariant
of single words. It is one of items: an item that is `Welcome` is taken (`holds_item`), and
any other item ends in an error, whatever follows (`refuses_item`). Both run along the items
(`holds_items`, `refuses_items`), and behind the break every word is an item of its own
(`Holds.takes_behind`). `Takes` is what the steps are put together with.
-/
import Courier.Proofs.Grammar.Reading

namespace Courier.Grammar

open Courier.Text Courier.Line

/-! ## Words one after the other -/

namespace Builder

/-- A builder takes these words and is then another one, whatever words follow. -/
structure Takes (b : Builder) (ts : List Token) (after : Builder) : Prop where
  run : ∀ more, b.feedAll (ts ++ more) = after.feedAll more
  node : after.node = b.node

theorem takes_nil (b : Builder) : b.Takes [] b := ⟨fun _ => rfl, rfl⟩

theorem takes_of_feed {b after : Builder} {t : Token} (h : b.feed t = (after, none)) :
    b.Takes [t] after where
  run := by
    intro more
    rw [List.singleton_append, feedAll, h]
  node := by
    have hnode := node_feed b t
    rwa [h] at hnode

namespace Takes

variable {b next after : Builder} {ts us : List Token}

theorem trans (h : b.Takes ts next) (h' : next.Takes us after) : b.Takes (ts ++ us) after where
  run := by
    intro more
    rw [List.append_assoc, h.run, h'.run]
  node := h'.node.trans h.node

theorem spec_eq (h : b.Takes ts after) : after.spec = b.spec := congrArg Node.spec h.node

theorem consume_append (h : b.Takes ts after) (more : List Token) :
    b.consume (ts ++ more) = after.consume more := by
  rw [consume, consume, h.run]

theorem consume_eq (h : b.Takes ts after) : b.consume ts = (after, after.pendingError?) := by
  have happend := h.consume_append []
  rwa [List.append_nil] at happend

end Takes

theorem feedAll_cons_of_some {b after : Builder} {t : Token} {e : ParseError}
    (h : b.feed t = (after, some e)) (ts : List Token) :
    b.feedAll (t :: ts) = (after, some e) := by
  rw [feedAll, h]

theorem consume_ne_none {b : Builder} {ts : List Token} (h : (b.feedAll ts).2 ≠ none) :
    (b.consume ts).2 ≠ none := by
  rw [consume]
  split
  · next hall => simp [hall] at h
  · simp

/-! ## What a builder holds -/

/-- A builder holds these positional values, these values for each option, and nothing
else. -/
structure Holds (b : Builder) (positionals : List Token) (uses : OptionSpec → List Token)
    (isSealed : Bool) : Prop where
  args : b.args = positionals.take b.spec.args.length
  rest : b.rest = positionals.drop b.spec.args.length
  given : ∀ o ∈ b.spec.knownOptions, b.given o.key = uses o
  absent : ∀ key, (∀ o ∈ b.spec.knownOptions, o.key ≠ key) → b.given key = []
  isSealed : b.sealed = isSealed
  pending : b.pending = none

/-- A builder holds what a reading says. -/
abbrev HoldsReading (b : Builder) (r : Reading) : Prop :=
  b.Holds r.positionals r.uses r.tail.isSome

theorem holdsReading_fresh (n : Node) (place : Int) :
    ({ node := n, offset := place } : Builder).HoldsReading ⟨[], none⟩ where
  args := List.take_nil.symm
  rest := List.drop_nil.symm
  given := fun _ _ => rfl
  absent := fun _ _ => rfl
  isSealed := rfl
  pending := rfl

variable {b : Builder} {o : OptionSpec} {positionals : List Token}
  {uses : OptionSpec → List Token} {isSealed : Bool}

/-- A positional value goes to the next slot, or to the catch-all behind them. -/
theorem Holds.feedPositional (h : b.Holds positionals uses isSealed) (t : Token)
    (room : b.spec.rest = none → positionals.length < b.spec.args.length) :
    ∃ after, (b.saw t).feedPositional t = (after, none) ∧
      after.Holds (positionals ++ [t]) uses isSealed := by
  have hlength : b.args.length = min b.spec.args.length positionals.length := by
    rw [h.args, List.length_take]
  by_cases hslot : positionals.length < b.spec.args.length
  · have htake : positionals.take b.spec.args.length = positionals :=
      List.take_of_length_le (by omega)
    refine ⟨{ b.saw t with args := b.args ++ [t] }, ?_,
      ?_, ?_, h.given, h.absent, h.isSealed, h.pending⟩
    · exact if_pos (by change b.args.length < b.spec.args.length; omega)
    · change b.args ++ [t] = (positionals ++ [t]).take b.spec.args.length
      rw [h.args, htake, List.take_of_length_le (by simp; omega)]
    · change b.rest = (positionals ++ [t]).drop b.spec.args.length
      rw [h.rest, List.drop_of_length_le (by omega), List.drop_of_length_le (by simp; omega)]
  · have hrest : b.spec.rest.isSome = true := by
      rw [Option.isSome_iff_ne_none]
      exact fun hnone => hslot (room hnone)
    refine ⟨{ b.saw t with rest := b.rest ++ [t] }, ?_,
      ?_, ?_, h.given, h.absent, h.isSealed, h.pending⟩
    · unfold Builder.feedPositional
      rw [if_neg (by change ¬ b.args.length < b.spec.args.length; omega)]
      exact if_pos hrest
    · change b.args = (positionals ++ [t]).take b.spec.args.length
      rw [h.args, List.take_append_of_le_length (by omega)]
    · change b.rest ++ [t] = (positionals ++ [t]).drop b.spec.args.length
      rw [h.rest, List.drop_append_of_le_length (by omega)]

theorem Holds.feedPositional_refused (h : b.Holds positionals uses isSealed) (t : Token)
    (hrest : b.spec.rest = none) (full : b.spec.args.length ≤ positionals.length) :
    (b.saw t).feedPositional t = (b.saw t, some (.unexpectedArgument t)) := by
  have hlength : b.args.length = min b.spec.args.length positionals.length := by
    rw [h.args, List.length_take]
  have hrest' : (b.saw t).spec.rest = none := hrest
  unfold Builder.feedPositional
  rw [if_neg (by change ¬ b.args.length < b.spec.args.length; omega),
    if_neg (by simp [hrest'])]

/-- The values of each option when one option is given one more. -/
def addUse (uses : OptionSpec → List Token) (o : OptionSpec) (t : Token) :
    OptionSpec → List Token :=
  fun p => if o = p then uses p ++ [t] else uses p

theorem Holds.store (distinct : b.spec.Distinct) (h : b.Holds positionals uses isSealed)
    (ho : o ∈ b.spec.knownOptions) (t : Token) :
    (b.store o t).Holds positionals (addUse uses o t) isSealed := by
  refine ⟨h.args, h.rest, fun p hp => ?_, fun key hkey => ?_, h.isSealed, h.pending⟩
  · change p ∈ b.spec.knownOptions at hp
    rw [given_store, h.given p hp, addUse]
    by_cases heq : o = p
    · subst heq
      simp
    · have hkey : p.key ≠ o.key := fun hkey => heq (distinct.eq_of_key hp ho hkey).symm
      rw [if_neg hkey, if_neg heq]
  · rw [given_store, if_neg (fun heq => hkey o ho heq.symm)]
    exact h.absent key hkey

end Builder

/-! ## The word that names an option -/

namespace Form

/-- The word that names the option. -/
def head : Form → Token
  | .flag name => name
  | .separate name _ => name
  | .inline word _ _ => word

/-- How the option is spelled in that word. -/
def spelling : Form → String
  | .flag name => name.text
  | .separate name _ => name.text
  | .inline _ spelling _ => spelling

/-- What stands behind the sign in that word. -/
def inline? : Form → Option String
  | .inline _ _ value => some value
  | _ => none

variable {form : Form} {o : OptionSpec} {s : CommandSpec}

theorem Fits.spelling_mem (h : form.Fits o) : form.spelling ∈ o.spellings := by
  match form, h with
  | .flag _, ⟨_, _, hs⟩ => exact hs
  | .separate _ _, ⟨_, _, hs, _⟩ => exact hs
  | .inline _ _ _, ⟨_, _, hs, _⟩ => exact hs

theorem Fits.cut_head (h : form.Fits o) (distinct : s.Distinct) (ho : o ∈ s.knownOptions) :
    cut '=' form.head.text = (form.spelling, form.inline?) := by
  have hsign := distinct.not_mem_sign ho h.spelling_mem
  match form, h with
  | .flag _, _ => exact cut_of_not_mem hsign
  | .separate _ _, _ => exact cut_of_not_mem hsign
  | .inline word spelling value, ⟨_, _, _, htext⟩ =>
    change cut '=' word.text = _
    rw [htext]
    exact cut_sign hsign value

theorem Fits.isDashed_head (h : form.Fits o) (distinct : s.Distinct)
    (ho : o ∈ s.knownOptions) : isDashed form.head = true := by
  match form, h with
  | .flag _, ⟨_, hkind, hs⟩ => exact isDashed_spelling distinct ho hkind hs
  | .separate _ _, ⟨_, hkind, hs, _⟩ => exact isDashed_spelling distinct ho hkind hs
  | .inline _ _ _, ⟨_, hkind, hs, htext⟩ =>
    rw [String.append_assoc] at htext
    exact isDashed_inline distinct ho hkind hs htext

/-- The word that names an option is taken as that option. -/
theorem Fits.feed_head {b : Builder} (h : form.Fits o) (distinct : b.spec.Distinct)
    (ho : o ∈ b.spec.knownOptions) (hp : b.pending = none) (hs : b.sealed = false) :
    b.feed form.head = (b.saw form.head).feedOption o form.head form.spelling form.inline? := by
  have hcut := h.cut_head distinct ho
  have hfound : b.spec.optionSpelled? (cut '=' form.head.text).1 = some o := by
    rw [hcut, distinct.optionSpelled?_eq_some_iff]
    exact ⟨ho, h.spelling_mem⟩
  rw [Builder.feed_option hp hs (h.isDashed_head distinct ho) hfound, hcut]

end Form

namespace Builder

variable {b : Builder} {o : OptionSpec} {positionals : List Token}
  {uses : OptionSpec → List Token}

/-! What becomes of an option that is named: it is refused if it must not be given again
(`feedOption_again`), and otherwise it is stored or waits. -/

theorem feedOption_again {t : Token} {name : String} {inline : Option String}
    (honce : o.repeatable = false) (hgiven : b.given o.key ≠ []) :
    b.feedOption o t name inline = (b, some (.tooManyValues name t)) := by
  unfold feedOption
  rw [if_pos (by simp [honce, has_eq_true_iff.mpr hgiven])]

theorem again_eq_false (again : o.repeatable = true ∨ b.given o.key = []) :
    (!o.repeatable && b.has o.key) = false := by
  rcases again with h | h
  · simp [h]
  · simp [has_eq_false_iff.mpr h]

theorem feedOption_flag {t : Token} {name : String}
    (again : o.repeatable = true ∨ b.given o.key = []) (hflag : o.takesValue = false) :
    b.feedOption o t name none = (b.store o { t with text := "" }, none) := by
  simp [feedOption, again_eq_false again, hflag]

theorem feedOption_inline {t : Token} {name : String} (value : String)
    (again : o.repeatable = true ∨ b.given o.key = []) (htakes : o.takesValue = true) :
    b.feedOption o t name (some value)
      = (b.store o { t with text := value, start := t.start + name.length + 1 }, none) := by
  simp [feedOption, again_eq_false again, htakes]

theorem feedOption_waits {t : Token} {name : String}
    (again : o.repeatable = true ∨ b.given o.key = []) (htakes : o.takesValue = true) :
    b.feedOption o t name none = ({ b with pending := some (o, t) }, none) := by
  simp [feedOption, again_eq_false again, htakes]

theorem feedOption_valued {t : Token} {name : String} (value : String)
    (hflag : o.takesValue = false) : (b.feedOption o t name (some value)).2 ≠ none := by
  unfold feedOption
  split <;> simp [hflag]

/-- An option is taken with its value, however it is written. -/
theorem Holds.takes_form (h : b.Holds positionals uses false) (distinct : b.spec.Distinct)
    {form : Form} (ho : o ∈ b.spec.knownOptions) (hf : form.Fits o)
    (again : o.repeatable = true ∨ uses o = []) :
    ∃ after, b.Takes form.words after ∧
      after.Holds positionals (addUse uses o form.given) false := by
  have hagain : o.repeatable = true ∨ (b.saw form.head).given o.key = [] := by
    rw [← h.given o ho] at again
    exact again
  have hfeed := hf.feed_head distinct ho h.pending h.isSealed
  have hstore := h.store distinct ho form.given
  match form, hf with
  | .flag name, ⟨hflag, _⟩ =>
    refine ⟨_, takes_of_feed (hfeed.trans (feedOption_flag hagain hflag)), ?_⟩
    exact { hstore with }
  | .separate name value, ⟨htakes, _, _, hkind, hplain⟩ =>
    have hname := takes_of_feed (hfeed.trans (feedOption_waits hagain htakes))
    refine ⟨_, hname.trans (takes_of_feed (feed_pending rfl hkind hplain)), ?_⟩
    exact { hstore with pending := rfl }
  | .inline word spelling value, ⟨htakes, _⟩ =>
    refine ⟨_, takes_of_feed (hfeed.trans (feedOption_inline value hagain htakes)), ?_⟩
    exact { hstore with }

end Builder

/-! ## Items -/

/-- Whether there is a place for one more item: a slot or the catch-all for a positional
value, and for an option that it may be given again or was not given yet. -/
def Item.Welcome (s : CommandSpec) (done : List Item) : Item → Prop
  | .value _ => s.rest = none → (Reading.mk done none).positionals.length < s.args.length
  | .option o _ => o.repeatable = true ∨ (Reading.mk done none).uses o = []

theorem allowed_nil (s : CommandSpec) : (Reading.mk [] none).Allowed s :=
  ⟨fun _ _ _ => Nat.zero_le _, fun _ => Nat.zero_le _⟩

theorem positionals_items (items : List Item) :
    (Reading.mk items none).positionals = items.filterMap Item.value? :=
  List.append_nil _

theorem positionals_append (done items : List Item) :
    (Reading.mk (done ++ items) none).positionals
      = (Reading.mk done none).positionals ++ items.filterMap Item.value? := by
  simp [Reading.positionals, Reading.values, Reading.behind]

theorem uses_append (done items : List Item) (o : OptionSpec) :
    (Reading.mk (done ++ items) none).uses o
      = (Reading.mk done none).uses o ++ items.filterMap (Item.use? o) :=
  List.filterMap_append

theorem uses_option (done : List Item) (o : OptionSpec) (form : Form) :
    (Reading.mk (done ++ [.option o form]) none).uses
      = Builder.addUse (Reading.mk done none).uses o form.given := by
  funext p
  rw [uses_append, Builder.addUse]
  by_cases h : o = p <;> simp [Item.use?, h]

/-- Allowed items stay allowed with one more that is welcome, and only then. -/
theorem allowed_append_iff {s : CommandSpec} {done : List Item} {i : Item} (hi : i.Fits s)
    (hdone : (Reading.mk done none).Allowed s) :
    (Reading.mk (done ++ [i]) none).Allowed s ↔ i.Welcome s done := by
  match i, hi with
  | .value t, _ =>
    have huses (o : OptionSpec) :
        (Reading.mk (done ++ [.value t]) none).uses o = (Reading.mk done none).uses o := by
      simp [uses_append, Item.use?]
    have hlength : (Reading.mk (done ++ [.value t]) none).positionals.length
        = (Reading.mk done none).positionals.length + 1 := by
      simp [positionals_append, Item.value?]
    constructor
    · intro h hrest
      have := h.room hrest
      omega
    · intro hroom
      refine ⟨fun o ho honce => by rw [huses]; exact hdone.once o ho honce, fun hrest => ?_⟩
      have : (Reading.mk done none).positionals.length < s.args.length := hroom hrest
      omega
  | .option o form, ⟨ho, _⟩ =>
    have hpositionals : (Reading.mk (done ++ [.option o form]) none).positionals
        = (Reading.mk done none).positionals := by
      simp [positionals_append, Item.value?]
    constructor
    · intro h
      cases hr : o.repeatable with
      | true => exact .inl hr
      | false =>
        have hlength := h.once o ho hr
        rw [uses_option, Builder.addUse, if_pos rfl, List.length_append,
          List.length_singleton] at hlength
        exact .inr (List.length_eq_zero_iff.mp (by omega))
    · intro hwelcome
      refine ⟨fun p hp honce => ?_, fun hrest => by rw [hpositionals]; exact hdone.room hrest⟩
      rw [uses_option, Builder.addUse]
      by_cases heq : o = p
      · subst heq
        rcases hwelcome with hrepeat | hempty
        · rw [hrepeat] at honce
          simp at honce
        · simp [hempty]
      · rw [if_neg heq]
        exact hdone.once p hp honce

variable {b : Builder} {done : List Item}

/-- A positional value in front of the break is taken as one. -/
theorem feed_value {t : Token} (hi : (Item.value t).Fits b.spec) (hp : b.pending = none)
    (hs : b.sealed = false) : b.feed t = (b.saw t).feedPositional t := by
  obtain ⟨hk, hplain | ⟨hlit, hnameless⟩⟩ := hi
  · exact Builder.feed_plain hp hk hplain
  · cases hd : isDashed t with
    | false => exact Builder.feed_plain hp hk hd
    | true => exact Builder.feed_literal hp hs hd (optionSpelled?_eq_none_iff.mpr hnameless) hlit

/-- **A welcome item is taken.** -/
theorem holds_item (hb : b.HoldsReading ⟨done, none⟩) (distinct : b.spec.Distinct) {i : Item}
    (hi : i.Fits b.spec) (hwelcome : i.Welcome b.spec done) :
    ∃ after, b.Takes i.words after ∧ after.HoldsReading ⟨done ++ [i], none⟩ := by
  match i, hi with
  | .value t, hi =>
    obtain ⟨after, hfeed, hafter⟩ := hb.feedPositional t hwelcome
    refine ⟨after, ?_, ?_⟩
    · exact Builder.takes_of_feed ((feed_value hi hb.pending hb.isSealed).trans hfeed)
    · have huses : (Reading.mk (done ++ [.value t]) none).uses = (Reading.mk done none).uses := by
        funext o
        simp [uses_append, Item.use?]
      rw [Builder.HoldsReading, positionals_append, huses]
      exact hafter
  | .option o form, ⟨ho, hf⟩ =>
    obtain ⟨after, htakes, hafter⟩ := hb.takes_form distinct ho hf hwelcome
    refine ⟨after, htakes, ?_⟩
    have hpositionals : (Reading.mk (done ++ [.option o form]) none).positionals
        = (Reading.mk done none).positionals := by
      simp [positionals_append, Item.value?]
    rw [Builder.HoldsReading, uses_option, hpositionals]
    exact hafter

/-- **An item that is not welcome ends in an error, whatever follows.** -/
theorem refuses_item (hb : b.HoldsReading ⟨done, none⟩) (distinct : b.spec.Distinct) {i : Item}
    (hi : i.Fits b.spec) (hnot : ¬ i.Welcome b.spec done) (ts : List Token) :
    (b.feedAll (i.words ++ ts)).2 ≠ none := by
  match i, hi with
  | .value t, hi =>
    simp only [Item.Welcome, Classical.not_imp, Nat.not_lt] at hnot
    have hfeed := (feed_value hi hb.pending hb.isSealed).trans
      (hb.feedPositional_refused t hnot.1 hnot.2)
    change (b.feedAll (t :: ts)).2 ≠ none
    rw [Builder.feedAll_cons_of_some hfeed]
    simp
  | .option o form, ⟨ho, hf⟩ =>
    simp only [Item.Welcome, not_or, Bool.not_eq_true] at hnot
    have hgiven : (b.saw form.head).given o.key ≠ [] := by
      rw [← hb.given o ho] at hnot
      exact hnot.2
    have hfeed := (hf.feed_head distinct ho hb.pending hb.isSealed).trans
      (Builder.feedOption_again hnot.1 hgiven)
    have hwords : form.words ++ ts = form.head :: (form.words.tail ++ ts) := by
      cases form <;> rfl
    change (b.feedAll (form.words ++ ts)).2 ≠ none
    rw [hwords, Builder.feedAll_cons_of_some hfeed]
    simp

/-- Allowed items are taken one after the other. -/
theorem holds_items {items : List Item} (hb : b.HoldsReading ⟨done, none⟩)
    (distinct : b.spec.Distinct) (hitems : ∀ i ∈ items, i.Fits b.spec)
    (hdone : (Reading.mk done none).Allowed b.spec)
    (hallowed : (Reading.mk (done ++ items) none).Allowed b.spec) :
    ∃ after, b.Takes (items.flatMap Item.words) after ∧
      after.HoldsReading ⟨done ++ items, none⟩ := by
  induction items generalizing b done with
  | nil => exact ⟨b, b.takes_nil, by rwa [List.append_nil]⟩
  | cons i items ih =>
    rw [List.append_cons] at hallowed
    have hi := hitems i (by simp)
    have hdone' := hallowed.of_append
    obtain ⟨next, htakes, hnext⟩ :=
      holds_item hb distinct hi ((allowed_append_iff hi hdone).mp hdone')
    have hspec := htakes.spec_eq
    obtain ⟨after, htakes', hafter⟩ := ih hnext (by rwa [hspec])
      (fun j hj => by rw [hspec]; exact hitems j (by simp [hj])) (by rwa [hspec]) (by rwa [hspec])
    refine ⟨after, htakes.trans htakes', ?_⟩
    rwa [List.append_cons]

/-- Items that are not allowed end in an error, whatever follows. -/
theorem refuses_items {items : List Item} (hb : b.HoldsReading ⟨done, none⟩)
    (distinct : b.spec.Distinct) (hitems : ∀ i ∈ items, i.Fits b.spec)
    (hdone : (Reading.mk done none).Allowed b.spec)
    (hnot : ¬ (Reading.mk (done ++ items) none).Allowed b.spec) (ts : List Token) :
    (b.feedAll (items.flatMap Item.words ++ ts)).2 ≠ none := by
  induction items generalizing b done with
  | nil => exact absurd (by rwa [List.append_nil]) hnot
  | cons i items ih =>
    have hi := hitems i (by simp)
    rw [List.flatMap_cons, List.append_assoc]
    by_cases hwelcome : i.Welcome b.spec done
    · obtain ⟨next, htakes, hnext⟩ := holds_item hb distinct hi hwelcome
      have hspec := htakes.spec_eq
      rw [htakes.run]
      rw [List.append_cons] at hnot
      exact ih hnext (by rwa [hspec]) (fun j hj => by rw [hspec]; exact hitems j (by simp [hj]))
        (by rw [hspec]; exact (allowed_append_iff hi hdone).mpr hwelcome) (by rwa [hspec])
    · exact refuses_item hb distinct hi hwelcome _

/-! ## Behind the break -/

namespace Builder

variable {positionals : List Token} {uses : OptionSpec → List Token}

/-- Behind the break every word is positional. -/
theorem Holds.takes_behind (hb : b.Holds positionals uses true) (ts : List Token)
    (room : b.spec.rest = none → (positionals ++ ts).length ≤ b.spec.args.length) :
    ∃ after, b.Takes ts after ∧ after.Holds (positionals ++ ts) uses true := by
  induction ts generalizing b positionals with
  | nil => exact ⟨b, b.takes_nil, by rwa [List.append_nil]⟩
  | cons t ts ih =>
    have hslot : b.spec.rest = none → positionals.length < b.spec.args.length := by
      intro hrest
      have := room hrest
      simp only [List.length_append, List.length_cons] at this
      omega
    obtain ⟨next, hfeed, hnext⟩ := hb.feedPositional t hslot
    have htakes := takes_of_feed ((feed_sealed hb.pending hb.isSealed).trans hfeed)
    obtain ⟨after, htakes', hafter⟩ := ih hnext (by
      rw [htakes.spec_eq, ← List.append_cons]
      exact room)
    refine ⟨after, htakes.trans htakes', ?_⟩
    rwa [List.append_cons]

theorem Holds.refuses_behind {ts : List Token} (hb : b.Holds positionals uses true)
    (hrest : b.spec.rest = none) (hroom : positionals.length ≤ b.spec.args.length)
    (hfull : b.spec.args.length < (positionals ++ ts).length) : (b.feedAll ts).2 ≠ none := by
  induction ts generalizing b positionals with
  | nil =>
    rw [List.append_nil] at hfull
    omega
  | cons t ts ih =>
    have hfeed := feed_sealed (t := t) hb.pending hb.isSealed
    by_cases hslot : positionals.length < b.spec.args.length
    · obtain ⟨next, hnext, hholds⟩ := hb.feedPositional t (fun _ => hslot)
      have htakes := takes_of_feed (hfeed.trans hnext)
      have hspec := htakes.spec_eq
      rw [← List.singleton_append, htakes.run]
      refine ih hholds (by rwa [hspec]) ?_ (by rwa [hspec, ← List.append_cons])
      rw [hspec, List.length_append, List.length_singleton]
      omega
    · rw [feedAll_cons_of_some
        (hfeed.trans (hb.feedPositional_refused t hrest (Nat.le_of_not_lt hslot)))]
      simp

/-- The break seals a builder and leaves what it holds as it is. -/
theorem Holds.takes_mark (hb : b.Holds positionals uses false) {mark : Token}
    (hk : mark.kind = .break) : ∃ after, b.Takes [mark] after ∧ after.Holds positionals uses true :=
  ⟨_, takes_of_feed (feed_break hb.pending hb.isSealed hk),
    hb.args, hb.rest, hb.given, hb.absent, rfl, hb.pending⟩

end Builder

/-! ## Readings -/

/-- A reading that fits and is allowed is taken, and the builder then holds it. -/
theorem takes_allowed (hb : b.HoldsReading ⟨[], none⟩) (distinct : b.spec.Distinct)
    {r : Reading} (hr : r.Fits b.spec) (hallowed : r.Allowed b.spec) :
    ∃ after, b.Takes r.words after ∧ after.HoldsReading r := by
  obtain ⟨items, tail⟩ := r
  have hitems : (Reading.mk items none).Allowed b.spec :=
    Reading.Allowed.of_append (by rwa [List.append_nil])
  obtain ⟨next, htakes, hnext⟩ := holds_items hb distinct hr.items (allowed_nil _) hitems
  cases tail with
  | none =>
    refine ⟨next, ?_, hnext⟩
    rwa [Reading.words, Option.elim_none, List.append_nil]
  | some behind =>
    obtain ⟨mark, ts⟩ := behind
    have hpositionals : (Reading.mk items (some (mark, ts))).positionals
        = (Reading.mk items none).positionals ++ ts := by
      simp [Reading.positionals, Reading.behind, Reading.values]
    obtain ⟨shut, hmark, hshut⟩ := Builder.Holds.takes_mark hnext (hr.tail _ rfl)
    have hfront := htakes.trans hmark
    obtain ⟨after, hbehind, hafter⟩ := hshut.takes_behind ts (by
      rw [hfront.spec_eq, List.nil_append, ← hpositionals]
      exact hallowed.room)
    refine ⟨after, ?_, ?_⟩
    · have hall := hfront.trans hbehind
      rwa [List.append_assoc] at hall
    · rw [Builder.HoldsReading, hpositionals]
      exact hafter

theorem consume_allowed (hb : b.HoldsReading ⟨[], none⟩) (distinct : b.spec.Distinct)
    {r : Reading} (hr : r.Fits b.spec) (hallowed : r.Allowed b.spec) :
    ∃ after, b.consume r.words = (after, none) ∧ after.node = b.node ∧ after.HoldsReading r := by
  obtain ⟨after, htakes, hafter⟩ := takes_allowed hb distinct hr hallowed
  refine ⟨after, ?_, htakes.node, hafter⟩
  rw [htakes.consume_eq, Builder.pendingError?, hafter.pending]
  rfl

/-- Of the readings that fit, only those that are allowed are taken. -/
theorem allowed_of_consume (hb : b.HoldsReading ⟨[], none⟩) (distinct : b.spec.Distinct)
    {r : Reading} (hr : r.Fits b.spec) (h : (b.consume r.words).2 = none) :
    r.Allowed b.spec := by
  obtain ⟨items, tail⟩ := r
  by_contra hnot
  by_cases hitems : (Reading.mk items none).Allowed b.spec
  · obtain ⟨next, htakes, hnext⟩ := holds_items hb distinct hr.items (allowed_nil _) hitems
    cases tail with
    | none => exact hnot hitems
    | some behind =>
      -- the options are those of the items, so that a word behind the break has no slot
      obtain ⟨mark, ts⟩ := behind
      obtain ⟨shut, hmark, hshut⟩ := Builder.Holds.takes_mark hnext (hr.tail _ rfl)
      have hfront := htakes.trans hmark
      have hspec := hfront.spec_eq
      have hfull : ¬ (b.spec.rest = none →
          (Reading.mk items (some (mark, ts))).positionals.length ≤ b.spec.args.length) :=
        fun hroom => hnot ⟨hitems.once, hroom⟩
      simp only [Classical.not_imp, Nat.not_le, Reading.positionals, Reading.values,
        Reading.behind, Option.elim_some] at hfull
      have hroom := hitems.room hfull.1
      rw [positionals_items] at hroom
      refine Builder.consume_ne_none ?_ h
      change (b.feedAll (items.flatMap Item.words ++ ([mark] ++ ts))).2 ≠ none
      rw [← List.append_assoc, hfront.run]
      refine hshut.refuses_behind (by rw [hspec]; exact hfull.1) ?_ ?_
      · rwa [List.nil_append, positionals_items, hspec]
      · rw [List.nil_append, positionals_items, hspec]
        exact hfull.2
  · exact Builder.consume_ne_none (refuses_items hb distinct hr.items (allowed_nil _) hitems _) h

/-- Words that go astray are refused at the latest when the line ends. -/
theorem Stray.consume_ne_none {ts : List Token} (h : Stray b.spec ts)
    (distinct : b.spec.Distinct) (hp : b.pending = none) (hs : b.sealed = false) :
    (b.consume ts).2 ≠ none := by
  cases h with
  | unknown dashed nameless strict =>
    refine Builder.consume_ne_none ?_
    rw [Builder.feedAll_cons_of_some
      (Builder.feed_unknown hp hs dashed (optionSpelled?_eq_none_iff.mpr nameless) strict)]
    simp
  | @valued t ts o spelling value known isFlag bare spelled text =>
    have hcut : cut '=' t.text = (spelling, some value) := by
      rw [text]
      exact cut_sign (distinct.not_mem_sign known spelled) value
    have hdashed : isDashed t = true :=
      isDashed_inline distinct known bare spelled (by rw [text, String.append_assoc])
    have hfound : b.spec.optionSpelled? (cut '=' t.text).1 = some o := by
      rw [hcut, distinct.optionSpelled?_eq_some_iff]
      exact ⟨known, spelled⟩
    have hfeed : (b.feed t).2 ≠ none := by
      rw [Builder.feed_option hp hs hdashed hfound, hcut]
      exact Builder.feedOption_valued value isFlag
    refine Builder.consume_ne_none ?_
    rw [Builder.feedAll]
    split
    · next heq => exact absurd (by rw [heq]) hfeed
    · simp
  | @starved t ts o known takes bare spelled next =>
    have hcut : cut '=' t.text = (t.text, none) :=
      cut_of_not_mem (distinct.not_mem_sign known spelled)
    have hfound : b.spec.optionSpelled? (cut '=' t.text).1 = some o := by
      rw [hcut, distinct.optionSpelled?_eq_some_iff]
      exact ⟨known, spelled⟩
    have hfeed := Builder.feed_option hp hs (isDashed_spelling distinct known bare spelled) hfound
    rw [hcut] at hfeed
    by_cases hagain : o.repeatable = true ∨ (b.saw t).given o.key = []
    · rw [Builder.feedOption_waits hagain takes] at hfeed
      have htakes := Builder.takes_of_feed hfeed
      cases ts with
      | nil =>
        rw [htakes.consume_eq]
        simp [Builder.pendingError?]
      | cons v ts =>
        refine Builder.consume_ne_none ?_
        rw [← List.singleton_append, htakes.run,
          Builder.feedAll_cons_of_some (Builder.feed_pending_refused rfl (next v rfl))]
        simp
    · rw [not_or, Bool.not_eq_true] at hagain
      rw [Builder.feedOption_again hagain.1 hagain.2] at hfeed
      refine Builder.consume_ne_none ?_
      rw [Builder.feedAll_cons_of_some hfeed]
      simp

/-- **A builder takes exactly what its command accepts.** Words are taken if and only if
they have a reading that fits and is allowed. The builder then holds what the reading says:
the positional values of the items and all words behind the break, in order, first in the
slots and then in the catch-all, and for each option the values of its items, in order. -/
theorem consume_accepts (n : Node) (distinct : n.spec.Distinct) (place : Int)
    (ts : List Token) :
    ((({ node := n, offset := place } : Builder).consume ts).2 = none ↔
      ∃ r : Reading, r.Fits n.spec ∧ r.Allowed n.spec ∧ r.words = ts) ∧
    ∀ r : Reading, r.Fits n.spec → r.Allowed n.spec → r.words = ts →
      (({ node := n, offset := place } : Builder).consume ts).1.Holds
        r.positionals r.uses r.tail.isSome := by
  have hfresh := Builder.holdsReading_fresh n place
  refine ⟨⟨fun htaken => ?_, ?_⟩, ?_⟩
  · rcases exists_reading_or_stray n.spec ts with
      ⟨r, hr, rfl⟩ | ⟨items, rest, hitems, hstray, rfl⟩
    · exact ⟨r, hr, allowed_of_consume hfresh distinct hr htaken, rfl⟩
    · -- whatever the items in front are, the words behind them are refused
      exfalso
      by_cases hallowed : (Reading.mk items none).Allowed n.spec
      · obtain ⟨next, htakes, hnext⟩ :=
          holds_items hfresh distinct hitems (allowed_nil _) hallowed
        rw [htakes.consume_append] at htaken
        refine Stray.consume_ne_none ?_ ?_ hnext.pending hnext.isSealed htaken
        · rwa [htakes.spec_eq]
        · rwa [htakes.spec_eq]
      · exact Builder.consume_ne_none
          (refuses_items hfresh distinct hitems (allowed_nil _) hallowed rest) htaken
  · rintro ⟨r, hr, hallowed, rfl⟩
    obtain ⟨after, htaken, -⟩ := consume_allowed hfresh distinct hr hallowed
    rw [htaken]
  · rintro r hr hallowed rfl
    obtain ⟨after, htaken, -, hholds⟩ := consume_allowed hfresh distinct hr hallowed
    rw [htaken]
    exact hholds

/-- The option stands between two values, and the second value would name an option in
front of the break. -/
theorem consume_accepts_extract :
    extractSpec.Distinct ∧
    (({ node := ⟨extractSpec, ["extract"]⟩, offset := 7 } : Builder).consume
      [⟨"body", 8, 12, .bare⟩, ⟨"-t=user", 13, 20, .bare⟩, ⟨"--", 21, 23, .break⟩,
        ⟨"-t", 24, 26, .bare⟩]).2 = none ∧
    (({ node := ⟨extractSpec, ["extract"]⟩, offset := 7 } : Builder).consume
      [⟨"body", 8, 12, .bare⟩, ⟨"-t=user", 13, 20, .bare⟩, ⟨"--", 21, 23, .break⟩,
        ⟨"-t", 24, 26, .bare⟩]).1.args = [⟨"body", 8, 12, .bare⟩, ⟨"-t", 24, 26, .bare⟩] := by
  have distinct : extractSpec.Distinct := by decide
  obtain ⟨taken, holds⟩ := consume_accepts ⟨extractSpec, ["extract"]⟩ distinct 7
    [⟨"body", 8, 12, .bare⟩, ⟨"-t=user", 13, 20, .bare⟩, ⟨"--", 21, 23, .break⟩,
      ⟨"-t", 24, 26, .bare⟩]
  let r : Reading :=
    { items := [.value ⟨"body", 8, 12, .bare⟩,
        .option (extractSpec.opts.head (by decide))
          (.inline ⟨"-t=user", 13, 20, .bare⟩ "-t" "user")]
      tail := some (⟨"--", 21, 23, .break⟩, [⟨"-t", 24, 26, .bare⟩]) }
  have hfits : r.Fits extractSpec := by decide
  have hallowed : r.Allowed extractSpec := by decide
  exact ⟨distinct, taken.mpr ⟨r, hfits, hallowed, rfl⟩, (holds r hfits hallowed rfl).args⟩

end Courier.Grammar
