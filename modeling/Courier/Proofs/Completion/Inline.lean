/-
Courier.Proofs.Completion.Inline — candidates for the value behind an inline option.

In `-t=…` the value of an option stands in the word that names it, and completion offers the
word as a whole. `inline_value_is_given_iff` says that the option is given the value exactly if
no white space is in the value. With white space the word is written between quotes, and only
a bare word can name an option: the builder takes the word for a positional value.

That nothing else in the line gives the value, however the quotes fall, is an invariant of the
words (`given_feed_ne`): none of them is the value, or long enough to have it behind a sign.
-/
import Courier.Proofs.Completion.Acceptance
import Courier.Proofs.Grammar.Acceptance

namespace Courier

open Courier.Grammar Courier.Line Courier.Text

/-! ## Options without the value -/

namespace Grammar.Builder

variable {b : Builder} {t : Token} {key : OptionRole}

/-- A word that is not the value, and is no longer than it, does not give the value. -/
theorem given_feed_ne {value : String} (hvalue : value ≠ "")
    (hb : ∀ x ∈ b.given key, x.text ≠ value)
    (ht : t.text.length ≤ value.length ∧ t.text ≠ value) :
    ∀ x ∈ (b.feed t).1.given key, x.text ≠ value := by
  have hstore (o : OptionSpec) {u : Token} (hu : u.text ≠ value) :
      ∀ x ∈ ((b.saw t).store o u).given key, x.text ≠ value := by
    intro x hx
    rw [given_store] at hx
    split at hx
    · rcases List.mem_append.mp hx with hx | hx
      · exact hb x hx
      · rw [List.mem_singleton] at hx
        exact hx ▸ hu
    · exact hb x hx
  rcases hout : b.feed t with ⟨after, e⟩
  have hfed := fed_feed b t
  rw [hout] at hfed
  cases hfed with
  | starved o name waits => exact hb
  | value o name waits kind plain => exact hstore o ht.2
  | sealing free unsealed kind => exact hb
  | slot free room => exact hb
  | rest free full more => exact hb
  | flag o free unsealed known isFlag again => exact hstore o (Ne.symm hvalue)
  | waits o free unsealed known takes again => exact hb
  | refused e free fault => exact hb
  | inline o spelling inner free unsealed known takes again bare parts =>
    refine hstore o (fun heq => ?_)
    -- the sign alone makes the word longer
    have htext := cut_eq t.text
    rw [parts] at htext
    have hlength := congrArg String.length htext
    simp only [String.length_append] at hlength
    change inner = value at heq
    have hsign : "=".length = 1 := by decide
    rw [heq] at hlength
    omega

/-- A word between quotes is no option. -/
theorem given_feed_quoted {q : Quote} (hp : b.pending = none) (hk : t.kind = .quoted q) :
    (b.feed t).1.given key = b.given key := by
  rw [feed_plain hp (by simp [hk]) (by simp [isDashed, hk]), feedPositional]
  split
  · rfl
  · split <;> rfl

end Grammar.Builder

/-! ## Spellings -/

/-- No spelling of an option has white space or a quote in it. -/
theorem spelling_plain : ∀ n ∈ root.leaves, ∀ o ∈ n.spec.knownOptions, ∀ s ∈ o.spellings,
    ∀ c ∈ s.toList, isSpace c = false ∧ Quote.ofChar? c = none := by
  have hplain : ∀ n ∈ root.leaves, ∀ o ∈ n.spec.knownOptions, ∀ s ∈ o.spellings,
      s.toList.all (fun c => !isSpace c && (Quote.ofChar? c).isNone) = true := by decide
  intro n hn o ho s hs c hc
  simpa using List.all_eq_true.mp (hplain n hn o ho s hs) c hc

/-- The last word of a line is begun as an option with its value behind a sign, and the option
takes one and has none yet. -/
structure Inline (b : Builder) (tail : Option Tail) (name : String) (o : OptionSpec) :
    Prop where
  form : ∃ p ∈ tail, p.quote = none ∧ ∃ begun, cut '=' p.text = (name, some begun)
  free : b.pending = none
  unsealed : b.sealed = false
  known : b.spec.optionSpelled? name = some o
  takes : o.takesValue = true
  fresh : b.given o.key = []

/-- The value of the option is expected behind its name and the sign. -/
theorem Inline.lead {b : Builder} {tail : Option Tail} {name : String} {o : OptionSpec}
    (h : Inline b tail name o) (hdash : startsWith "-" name = true) :
    (b.expect tail).lead? = some (name ++ "=") := by
  obtain ⟨p, rfl, hquote, begun, hcut⟩ := h.form
  have htext := cut_eq p.text
  rw [hcut] at htext
  have hstarts : startsWith "-" p.text = true := by
    rw [htext]
    exact startsWith_append (startsWith_append hdash _) _
  simp [Builder.expect, h.free, h.unsealed, hquote, hstarts, hcut, h.known, h.takes,
    Expectation.lead?]

/-- A command that words lead to is one of the commands. -/
theorem Typed.mem_leaves {line : String} {n : Node} {ts : List Token} {b : Builder}
    (h : Typed line n ts b) : n ∈ root.leaves := by
  have hleaves := (walkFrom_spec root (tokenizeUnfinished line).1).1
  have hleads := h.leads
  rw [walk] at hleads
  rw [hleads] at hleaves
  exact hleaves (mem_leaves_self h.leaf)

theorem Typed.spec_eq {line : String} {n : Node} {ts : List Token} {b : Builder}
    (h : Typed line n ts b) : b.spec = n.spec := by
  have hnode := Builder.node_feedAll { node := n } ts
  rw [h.fed] at hnode
  rw [Builder.spec, hnode]

/-! ## The word as a whole -/

/-- A word that begins with a spelling and a sign needs quotes for white space only. -/
theorem needsQuotes_inline {name : String} (hname : name ≠ "")
    (hplain : ∀ c ∈ name.toList, isSpace c = false ∧ Quote.ofChar? c = none) (value : String) :
    needsQuotes (name ++ "=" ++ value) = value.toList.any isSpace := by
  have hchars : (name ++ "=" ++ value).toList = name.toList ++ '=' :: value.toList := by simp
  cases hhead : name.toList with
  | nil => exact absurd (String.toList_eq_nil_iff.mp hhead) hname
  | cons c cs =>
    rw [hhead] at hplain
    have hbreak : (c :: (cs ++ '=' :: value.toList) == ['-', '-']) = false := by
      rw [beq_eq_false_iff_ne]
      intro heq
      have hsign : '=' ∈ c :: (cs ++ '=' :: value.toList) := by simp
      rw [heq] at hsign
      exact absurd hsign (by decide)
    have hspaces : cs.any isSpace = false := by
      rw [List.any_eq_false]
      intro d hd
      simp [(hplain d (List.mem_cons_of_mem c hd)).1]
    have hfirst := hplain c List.mem_cons_self
    rw [needsQuotes, hchars, hhead, List.cons_append, needsQuotesChars, hbreak, hfirst.2,
      List.any_cons, List.any_append, List.any_cons, hfirst.1, hspaces]
    rfl

/-- White space alone decides whether the word is written between quotes. -/
theorem Inline.writtenQuote?_eq {b : Builder} {tail : Option Tail} {name : String}
    {o : OptionSpec} (h : Inline b tail name o) (hname : name ≠ "")
    (hplain : ∀ c ∈ name.toList, isSpace c = false ∧ Quote.ofChar? c = none) (value : String) :
    writtenQuote? (name ++ "=" ++ value) tail
      = if value.toList.any isSpace then some (preferredQuote (name ++ "=" ++ value)) else none := by
  obtain ⟨p, rfl, hbare, -⟩ := h.form
  rw [writtenQuote?, tailQuote?_of_bare _ hbare, needsQuotes_inline hname hplain]
  rfl

theorem quote_not_mem_lead {name : String}
    (hplain : ∀ c ∈ name.toList, isSpace c = false ∧ Quote.ofChar? c = none) (q : Quote) :
    q.char ∉ (name ++ "=").toList := by
  rw [String.toList_append, List.mem_append, not_or]
  refine ⟨fun hmem => ?_, by cases q <;> decide⟩
  have hnone := (hplain _ hmem).2
  simp [Quote.ofChar?_char] at hnone

section

variable {typed : String} {n : Node} {ts : List Token} {b : Builder}
  {ask : Query → List String} {c : Candidate} {name : String} {o : OptionSpec}

/-- A bare word with the name, the sign and a value gives the value to the option. -/
theorem Inline.feed_eq {tail : Option Tail} (h : Inline b tail name o)
    (distinct : b.spec.Distinct) {t : Token} (hk : t.kind = .bare) {value : String}
    (htext : t.text = name ++ "=" ++ value) :
    b.feed t
      = ((b.saw t).store o { t with text := value, start := t.start + name.length + 1 }, none) := by
  obtain ⟨ho, hs⟩ := distinct.optionSpelled?_eq_some_iff.mp h.known
  have hcut : cut '=' t.text = (name, some value) := by
    rw [htext]
    exact cut_sign (distinct.not_mem_sign ho hs) value
  have hdashed : isDashed t = true :=
    isDashed_inline distinct ho hk hs (htext.trans (String.append_assoc ..))
  rw [Builder.feed_option h.free h.unsealed hdashed (by rw [hcut]; exact h.known), hcut]
  exact Builder.feedOption_inline value (.inr h.fresh) h.takes

/-- A word that is written bare gives the value to the option. -/
theorem Inline.given_bare (h : Inline b (tokenizeUnfinished typed).2 name o)
    (distinct : b.spec.Distinct) (htyped : Typed typed n ts b) {value : String} {t : Token}
    (hk : t.kind = .bare) (htext : t.text = name ++ "=" ++ value)
    (hread : tokenizeUnfinished (accept typed ask c)
      = ((tokenizeUnfinished typed).1 ++ [t], none)) :
    ∃ ts' after, Typed (accept typed ask c) n ts' after ∧
      ∃ x ∈ after.given o.key, x.text = value := by
  have hfeed := h.feed_eq distinct hk htext
  refine ⟨_, _, (htyped.append_iff hread).mpr ⟨rfl, by rw [Builder.feedAll, hfeed]; rfl⟩,
    { t with text := value, start := t.start + name.length + 1 }, ?_, rfl⟩
  rw [Builder.given_store, if_pos rfl]
  exact List.mem_append_right _ List.mem_cons_self

/-- A word between quotes is read as a quoted word in front, and behind it as nothing or as
words of which none is the value. -/
theorem accept_quoted (typed : String) (ask : Query → List String) {lead value : String}
    {q : Quote} (hword : c.replacement = (Lexeme.mk (lead ++ value) (.quoted q)).source ++ " ")
    (hends : endsEscaped (lead ++ value) = false) (hlead : q.char ∉ lead.toList)
    (hother : ∃ d ∈ value.toList, d ≠ q.char) :
    ∃ first more tail, tokenizeUnfinished (accept typed ask c)
        = ((tokenizeUnfinished typed).1 ++ first :: more, tail) ∧
      first.kind = .quoted q ∧ ∀ t ∈ more, t.text.length ≤ value.length ∧ t.text ≠ value := by
  cases hheld : quotesHeld q.char (lead ++ value).toList with
  | true =>
    obtain ⟨place, hread⟩ := accept_of_wellFormed typed ask hword ⟨hheld, hends⟩ hends
    exact ⟨_, [], none, hread, rfl, by simp⟩
  | false =>
    obtain ⟨first, more, tail, hread, hkind, -, hmore⟩ :=
      accept_of_broken typed ask hword hheld hlead hother
    exact ⟨first, more, tail, hread, hkind, hmore⟩

/-- A word that is written between quotes, and what else it is read as, does not give the value
to the option. -/
theorem Inline.not_given_quoted (h : Inline b (tokenizeUnfinished typed).2 name o)
    (htyped : Typed typed n ts b) {value : String} (hvalue : value ≠ "") {first : Token}
    {more : List Token} {tail : Option Tail} {q : Quote}
    (hread : tokenizeUnfinished (accept typed ask c)
      = ((tokenizeUnfinished typed).1 ++ first :: more, tail))
    (hfirst : first.kind = .quoted q)
    (hmore : ∀ t ∈ more, t.text.length ≤ value.length ∧ t.text ≠ value) :
    ¬ ∃ ts' after, Typed (accept typed ask c) n ts' after ∧
      ∃ x ∈ after.given o.key, x.text = value := by
  rintro ⟨ts', after, htyped', x, hx, htext⟩
  obtain ⟨-, hfed⟩ := (htyped.append_iff hread).mp htyped'
  have hquoted : ∀ x ∈ (b.feed first).1.given o.key, x.text ≠ value := by
    rw [Builder.given_feed_quoted h.free hfirst, h.fresh]
    simp
  have hkeeps := Builder.feedAll_keeps (P := fun b => ∀ x ∈ b.given o.key, x.text ≠ value)
    (fun b hb t ht => Builder.given_feed_ne hvalue hb (hmore t ht)) hquoted
  rw [Builder.feedAll] at hfed
  rcases hfeed : b.feed first with ⟨next, _ | e⟩
  · simp only [hfeed] at hfed hkeeps
    rw [hfed] at hkeeps
    exact hkeeps x hx htext
  · simp [hfeed] at hfed

/-- An extraction whose variable is begun behind the sign. -/
theorem inline_extract :
    let n : Node := ⟨extractSpec, ["extract"]⟩
    let ts : List Token := [⟨"body", 8, 12, .bare⟩, ⟨"id", 13, 15, .bare⟩]
    let b : Builder := { node := n, args := ts, offset := 15 }
    Typed "extract body id -t=m" n ts b ∧
      Inline b (tokenizeUnfinished "extract body id -t=m").2 "-t"
        (extractSpec.opts.head (by decide)) := by
  intro n ts b
  have hread : tokenizeUnfinished "extract body id -t=m"
      = ([⟨"extract", 0, 7, .bare⟩, ⟨"body", 8, 12, .bare⟩, ⟨"id", 13, 15, .bare⟩],
        some ⟨"-t=m", 16, none, false⟩) := by decide +kernel
  have htyped : Typed "extract body id -t=m" n ts b := ⟨by rw [hread]; rfl, rfl, rfl⟩
  refine ⟨htyped, ?_⟩
  rw [hread]
  exact ⟨⟨_, rfl, rfl, "m", by decide⟩, rfl, rfl, by decide, rfl, rfl⟩

/-- **The value behind an inline option is given if it has no white space.** Let the last word of
a line be an option with a sign and the beginning of a value, and let the words in front of it be
taken. If a candidate with a space behind it is put in its place, then the words are taken and
the option has the text of the candidate for its value, unless white space is in the text. -/
theorem inline_value_is_given_iff (htyped : Typed typed n ts b)
    (h : Inline b (tokenizeUnfinished typed).2 name o)
    (hc : c ∈ (complete typed typed.length ask).candidates)
    (hspace : endsWith " " c.replacement = true) :
    (∃ ts' after, Typed (accept typed ask c) n ts' after ∧
        ∃ x ∈ after.given o.key, x.text = c.display)
      ↔ c.display.toList.any isSpace = false := by
  have distinct : b.spec.Distinct := htyped.spec_eq ▸ distinct_of_mem_leaves n htyped.mem_leaves
  obtain ⟨ho, hs⟩ := distinct.optionSpelled?_eq_some_iff.mp h.known
  obtain ⟨hdash, hlong, -⟩ := distinct.dashed o ho name hs
  have hplain := spelling_plain n htyped.mem_leaves o (htyped.spec_eq ▸ ho) name hs
  have hrender := htyped.replacement_eq hc (h.lead hdash)
  obtain ⟨-, hends, hword⟩ := render_of_space (hrender ▸ hspace)
  rw [← hrender] at hword
  have hname : name ≠ "" := by
    rintro rfl
    exact absurd hlong (by decide)
  have hquote := h.writtenQuote?_eq hname hplain c.display
  rw [writtenWord, hquote] at hword
  cases hspaces : c.display.toList.any isSpace with
  | false =>
    simp only [hspaces, Bool.false_eq_true, ↓reduceIte] at hword hquote
    have hx : (Lexeme.mk (name ++ "=" ++ c.display) .bare).WellFormed := by
      have hwritten :
          (writtenWord (name ++ "=" ++ c.display) (tokenizeUnfinished typed).2).WellFormed :=
        (wellFormed_writtenWord_iff hends).mpr (by rw [hquote]; simp)
      rwa [writtenWord, hquote] at hwritten
    obtain ⟨place, hread⟩ := accept_of_wellFormed typed ask hword hx hends
    exact iff_of_true (h.given_bare distinct htyped rfl rfl hread) rfl
  | true =>
    obtain ⟨d, hd, hblank⟩ := List.any_eq_true.mp hspaces
    have hvalue : c.display ≠ "" := by
      rintro heq
      rw [heq] at hd
      simp at hd
    simp only [hspaces, ↓reduceIte] at hword
    have hother : d ≠ (preferredQuote (name ++ "=" ++ c.display)).char := by
      rintro rfl
      simp [Quote.isSpace_char] at hblank
    obtain ⟨first, more, tail, hread, hfirst, hmore⟩ := accept_quoted typed ask hword hends
      (quote_not_mem_lead hplain _) ⟨d, hd, hother⟩
    exact iff_of_false (h.not_given_quoted htyped hvalue hread hfirst hmore) (by simp)

/-- A variable with a quote in its name is the value of the option. -/
theorem inline_value_is_given_iff_variable :
    let n : Node := ⟨extractSpec, ["extract"]⟩
    let ts : List Token := [⟨"body", 8, 12, .bare⟩, ⟨"id", 13, 15, .bare⟩]
    let b : Builder := { node := n, args := ts, offset := 15 }
    let typed := "extract body id -t=m"
    let c : Candidate := { display := "m\"y", replacement := "-t=m\"y " }
    let o : OptionSpec := extractSpec.opts.head (by decide)
    Typed typed n ts b ∧ Inline b (tokenizeUnfinished typed).2 "-t" o ∧
      c ∈ (complete typed typed.length fun _ => ["m\"y"]).candidates ∧
      ∃ ts' after, Typed (accept typed (fun _ => ["m\"y"]) c) n ts' after ∧
        ∃ x ∈ after.given o.key, x.text = "m\"y" := by
  intro n ts b typed c o
  obtain ⟨htyped, h⟩ := inline_extract
  have hc : c ∈ (complete typed typed.length fun _ => ["m\"y"]).candidates := by decide +kernel
  exact ⟨htyped, h, hc,
    (inline_value_is_given_iff htyped h hc (by decide)).mpr (by decide)⟩

/-- A variable with a space in its name is offered for the option, and is taken for an argument
too many. -/
theorem inline_value_is_refused :
    let n : Node := ⟨extractSpec, ["extract"]⟩
    let ts : List Token := [⟨"body", 8, 12, .bare⟩, ⟨"id", 13, 15, .bare⟩]
    let b : Builder := { node := n, args := ts, offset := 15 }
    let typed := "extract body id -t=m"
    let c : Candidate := { display := "my var", replacement := "'-t=my var' " }
    let o : OptionSpec := extractSpec.opts.head (by decide)
    Typed typed n ts b ∧ Inline b (tokenizeUnfinished typed).2 "-t" o ∧
      c ∈ (complete typed typed.length fun _ => ["my var"]).candidates ∧
      ¬ ∃ ts' after, Typed (accept typed (fun _ => ["my var"]) c) n ts' after ∧
        ∃ x ∈ after.given o.key, x.text = "my var" := by
  intro n ts b typed c o
  obtain ⟨htyped, h⟩ := inline_extract
  have htaken : tokenizeUnfinished (accept typed (fun _ => ["my var"]) c)
      = ((tokenizeUnfinished typed).1 ++ [⟨"-t=my var", 16, 27, .quoted .single⟩], none) := by
    decide +kernel
  exact ⟨htyped, h, by decide +kernel,
    h.not_given_quoted htyped (by decide) htaken rfl (by simp)⟩

end

end Courier
