/-
Courier.Proofs.Grammar.Unplaced — where words stand is no part of what they mean.

Tokens carry places, a builder keeps them with its values, and the value of `-m=GET` is even
given a place of its own. `unplaced` forgets all of that, in a token, in a builder and in an
error. `same_words_same_outcome` says that nothing else of a line is lost with it: two lines
with the same words ask for the same command, or are refused by the same error at other
places.

## One step at a time

Forgetting first and acting then comes to the same as acting first and forgetting then.
For a word this is `Builder.feed_unplaced`, and `Builder.feedAll_congr` carries it along the
words of two lines. It cannot be an equation between builders, because the place of a value
behind a sign is counted from the place of its word: both sides are forgotten once more.
-/
import Courier.Proofs.Grammar.Rearrangement
import Courier.Proofs.Line.Layout

namespace Courier.Line

/-- A token that stands nowhere in particular. -/
def Token.unplaced (t : Token) : Token := { t with start := 0, stop := 0 }

@[simp] theorem Token.text_unplaced (t : Token) : t.unplaced.text = t.text := rfl

@[simp] theorem Token.kind_unplaced (t : Token) : t.unplaced.kind = t.kind := rfl

@[simp] theorem Token.unplaced_unplaced (t : Token) : t.unplaced.unplaced = t.unplaced := rfl

/-- Without its place, a token is its text and its kind. -/
theorem map_unplaced_of_lexemes {ts ts' : List Token}
    (h : ts.map Token.lexeme = ts'.map Token.lexeme) :
    ts.map Token.unplaced = ts'.map Token.unplaced := by
  have hmap := congrArg (List.map fun x : Lexeme => Token.mk x.text 0 0 x.kind) h
  rwa [List.map_map, List.map_map] at hmap

/-- The texts of words are read the same wherever the words stand. -/
theorem map_text_unplaced (ts : List Token) :
    (ts.map Token.unplaced).map Token.text = ts.map Token.text := by
  rw [List.map_map]
  rfl

end Courier.Line

namespace Courier.Grammar

open Courier.Text Courier.Line

/-! ## Errors -/

namespace ParseError

/-- The same error at no place: its class, and all that its message is made of. -/
def unplaced : ParseError → ParseError
  | .quote (.unterminated _) => .quote (.unterminated 0)
  | .quote (.trailing _) => .quote (.trailing 0)
  | .unknownCommand token valid => .unknownCommand token.unplaced valid
  | .unknownSubcommand token path valid => .unknownSubcommand token.unplaced path valid
  | .missingSubcommand path valid _ => .missingSubcommand path valid 0
  | .unknownOption token => .unknownOption token.unplaced
  | .missingOptionValue token => .missingOptionValue token.unplaced
  | .tooManyValues spelling token => .tooManyValues spelling token.unplaced
  | .unexpectedArgument token => .unexpectedArgument token.unplaced
  | .missingArgument arg metavar _ => .missingArgument arg metavar 0
  | .missingOption option spelling _ => .missingOption option spelling 0
  | .invalidValue token reason => .invalidValue token.unplaced reason

@[simp] theorem unplaced_unplaced (e : ParseError) : e.unplaced.unplaced = e.unplaced := by
  cases e with
  | quote cause => cases cause <;> rfl
  | _ => rfl

/-- No message says where. -/
theorem message_unplaced (e : ParseError) : e.unplaced.message = e.message := by
  cases e with
  | quote cause => cases cause <;> rfl
  | _ => rfl

end ParseError

theorem mapError_bind {ε ε' α β : Type} (x : Except ε α) (f : α → Except ε β) (g : ε → ε') :
    (x >>= f).mapError g = x.mapError g >>= fun a => (f a).mapError g := by
  cases x <;> rfl

theorem mapError_map {ε ε' α β : Type} (x : Except ε α) (f : α → β) (g : ε → ε') :
    (x.map f).mapError g = (x.mapError g).map f := by
  cases x <;> rfl

/-- Checks in a row find the same fault in the same words at other places. -/
theorem forM_unplaced {α β : Type} {f : β → Except ParseError Unit}
    {g : α → Except ParseError Unit} {r : α → β}
    (h : ∀ x, (f (r x)).mapError ParseError.unplaced = (g x).mapError ParseError.unplaced)
    (xs : List α) :
    ((xs.map r).forM f).mapError ParseError.unplaced
      = (xs.forM g).mapError ParseError.unplaced := by
  induction xs with
  | nil => rfl
  | cons x xs ih =>
    change (f (r x) >>= fun _ => (xs.map r).forM f).mapError _
      = (g x >>= fun _ => xs.forM g).mapError _
    rw [mapError_bind, mapError_bind, h, ih]

/-! ## Builders -/

namespace Builder

/-- The values of options, wherever they stand. -/
def unplacedOpts (opts : List (OptionRole × List Token)) : List (OptionRole × List Token) :=
  opts.map fun (key, ts) => (key, ts.map Token.unplaced)

/-- A builder that remembers what was said, and not where. -/
def unplaced (b : Builder) : Builder :=
  { b with
    args := b.args.map Token.unplaced
    rest := b.rest.map Token.unplaced
    opts := unplacedOpts b.opts
    pending := b.pending.map fun (o, name) => (o, name.unplaced)
    offset := 0 }

/-- What became of a word, without places. -/
def unplacedOutcome (r : Outcome) : Outcome := (r.1.unplaced, r.2.map ParseError.unplaced)

variable {b b' : Builder} {t t' : Token}

theorem lookup_unplacedOpts (key : OptionRole) (opts : List (OptionRole × List Token)) :
    (unplacedOpts opts).lookup key = (opts.lookup key).map (List.map Token.unplaced) := by
  induction opts with
  | nil => rfl
  | cons entry entries ih =>
    obtain ⟨k, ts⟩ := entry
    simp only [unplacedOpts, List.map_cons, List.lookup_cons] at ih ⊢
    cases key == k <;> simp [ih]

theorem pushValue_unplaced (key : OptionRole) (t : Token)
    (opts : List (OptionRole × List Token)) :
    unplacedOpts (pushValue key t opts) = pushValue key t.unplaced (unplacedOpts opts) := by
  induction opts with
  | nil => rfl
  | cons entry entries ih =>
    obtain ⟨k, ts⟩ := entry
    simp only [unplacedOpts, List.map_cons, pushValue] at ih ⊢
    split
    · simp
    · rw [List.map_cons, ih]

@[simp] theorem spec_unplaced (b : Builder) : b.unplaced.spec = b.spec := rfl

@[simp] theorem given_unplaced (b : Builder) (key : OptionRole) :
    b.unplaced.given key = (b.given key).map Token.unplaced := by
  change ((unplacedOpts b.opts).lookup key).getD [] = ((b.opts.lookup key).getD []).map _
  rw [lookup_unplacedOpts]
  cases b.opts.lookup key <;> rfl

@[simp] theorem has_unplaced (b : Builder) (key : OptionRole) :
    b.unplaced.has key = b.has key := by
  simp [has]

theorem store_unplaced (b : Builder) (o : OptionSpec) (t : Token) :
    (b.store o t).unplaced = b.unplaced.store o t.unplaced := by
  simp [store, unplaced, pushValue_unplaced]

@[simp] theorem unplaced_unplaced (b : Builder) : b.unplaced.unplaced = b.unplaced := by
  obtain ⟨node, args, rest, opts, sealed, pending, offset⟩ := b
  simp [unplaced, unplacedOpts, Function.comp_def]

@[simp] theorem unplacedOutcome_taken (b : Builder) :
    unplacedOutcome (b, none) = (b.unplaced, none) := rfl

@[simp] theorem unplacedOutcome_refused (b : Builder) (e : ParseError) :
    unplacedOutcome (b, some e) = (b.unplaced, some e.unplaced) := rfl

/-! ## One word -/

theorem feedPositional_unplaced (b : Builder) (t : Token) :
    unplacedOutcome (b.feedPositional t)
      = unplacedOutcome (b.unplaced.feedPositional t.unplaced) := by
  have hlen : b.unplaced.args.length = b.args.length := List.length_map _
  unfold feedPositional
  rw [spec_unplaced, hlen]
  split
  · simp [unplaced, unplacedOpts, Function.comp_def]
  · split
    · simp [unplaced, unplacedOpts, Function.comp_def]
    · simp [ParseError.unplaced]

/-- The value behind a sign has a place that is counted from its word; that is forgotten on
both sides. -/
theorem feedOption_unplaced (b : Builder) (o : OptionSpec) (t : Token) (name : String)
    (inline : Option String) :
    unplacedOutcome (b.feedOption o t name inline)
      = unplacedOutcome (b.unplaced.feedOption o t.unplaced name inline) := by
  unfold feedOption
  rw [has_unplaced]
  split
  · simp [ParseError.unplaced]
  · split
    · cases inline with
      | some value => simp [store_unplaced, Token.unplaced]
      | none => simp [unplaced, unplacedOpts, Function.comp_def]
    · cases inline with
      | some value => simp [ParseError.unplaced]
      | none => simp [store_unplaced, Token.unplaced]

theorem feedFree_unplaced (b : Builder) (t : Token) :
    unplacedOutcome (b.feedFree t) = unplacedOutcome (b.unplaced.feedFree t.unplaced) := by
  have hsealed : b.unplaced.sealed = b.sealed := rfl
  have hdashed : isDashed t.unplaced = isDashed t := rfl
  unfold feedFree
  rw [hsealed, hdashed, Token.kind_unplaced, Token.text_unplaced, spec_unplaced]
  split
  · exact feedPositional_unplaced b t
  · split
    · simp [unplaced, unplacedOpts, Function.comp_def]
    · split
      · rcases cut '=' t.text with ⟨name, inline⟩
        cases hfound : b.spec.optionSpelled? name with
        | some o => simpa only [hfound] using feedOption_unplaced b o t name inline
        | none =>
          simp only [hfound]
          split
          · exact feedPositional_unplaced b t
          · simp [ParseError.unplaced]
      · exact feedPositional_unplaced b t

@[simp] theorem unplaced_saw (b : Builder) (t : Token) : (b.saw t).unplaced = b.unplaced := rfl

@[simp] theorem saw_unplaced (b : Builder) (t : Token) :
    b.unplaced.saw t.unplaced = b.unplaced := rfl

/-- **Forgetting places and feeding a word can be exchanged.** -/
theorem feed_unplaced (b : Builder) (t : Token) :
    unplacedOutcome (b.feed t) = unplacedOutcome (b.unplaced.feed t.unplaced) := by
  cases hp : b.pending with
  | none =>
    have hp' : b.unplaced.pending = none := by simp [unplaced, hp]
    rw [feed_free hp, feed_free hp', feedFree_unplaced, unplaced_saw, saw_unplaced]
  | some waiting =>
    obtain ⟨o, name⟩ := waiting
    have hp' : b.unplaced.pending = some (o, name.unplaced) := by simp [unplaced, hp]
    by_cases h : t.kind = .break ∨ isDashed t = true
    · have h' : t.unplaced.kind = .break ∨ isDashed t.unplaced = true := h
      rw [feed_pending_refused hp h, feed_pending_refused hp' h']
      simp [ParseError.unplaced]
    · rw [not_or, Bool.not_eq_true] at h
      have hk : t.unplaced.kind ≠ .break := h.1
      rw [feed_pending hp h.1 h.2, feed_pending hp' hk h.2, saw_unplaced]
      have hstore := store_unplaced (b.saw t) o t
      rw [unplaced_saw] at hstore
      rw [← hstore]
      simp [unplaced, unplacedOpts, Function.comp_def]

/-! ## All words -/

theorem feed_congr (hb : b.unplaced = b'.unplaced) (ht : t.unplaced = t'.unplaced) :
    unplacedOutcome (b.feed t) = unplacedOutcome (b'.feed t') := by
  rw [feed_unplaced b t, feed_unplaced b' t', hb, ht]

theorem unplacedOutcome_eq {r r' : Outcome} (h : unplacedOutcome r = unplacedOutcome r') :
    r.1.unplaced = r'.1.unplaced ∧ r.2.map ParseError.unplaced = r'.2.map ParseError.unplaced :=
  Prod.mk.inj h

/-- Words that differ in their places only are taken alike, up to the word at fault. -/
theorem feedAll_congr {ts ts' : List Token} (hb : b.unplaced = b'.unplaced)
    (hts : ts.map Token.unplaced = ts'.map Token.unplaced) :
    unplacedOutcome (b.feedAll ts) = unplacedOutcome (b'.feedAll ts') := by
  induction ts generalizing b b' ts' with
  | nil =>
    rw [List.map_nil, eq_comm, List.map_eq_nil_iff] at hts
    subst hts
    simp [feedAll, hb]
  | cons t ts ih =>
    cases ts' with
    | nil => simp at hts
    | cons t' ts' =>
      obtain ⟨ht, hrest⟩ := List.cons.inj hts
      obtain ⟨hafter, herror⟩ := unplacedOutcome_eq (feed_congr hb ht)
      unfold feedAll
      rcases hfeed : b.feed t with ⟨after, _ | e⟩ <;>
        rcases hfeed' : b'.feed t' with ⟨after', _ | e'⟩ <;>
        simp only [hfeed, hfeed', Option.map_none, Option.map_some, reduceCtorEq] at hafter herror
      · exact ih hafter hrest
      · simp [hafter, Option.some.inj herror]

theorem pendingError?_unplaced (b : Builder) :
    b.unplaced.pendingError? = b.pendingError?.map ParseError.unplaced := by
  cases hp : b.pending <;> simp [pendingError?, unplaced, hp, ParseError.unplaced]

theorem consume_congr {ts ts' : List Token} (hb : b.unplaced = b'.unplaced)
    (hts : ts.map Token.unplaced = ts'.map Token.unplaced) :
    unplacedOutcome (b.consume ts) = unplacedOutcome (b'.consume ts') := by
  obtain ⟨hafter, herror⟩ := unplacedOutcome_eq (feedAll_congr hb hts)
  unfold consume
  rcases hrun : b.feedAll ts with ⟨after, _ | e⟩ <;>
    rcases hrun' : b'.feedAll ts' with ⟨after', _ | e'⟩ <;>
    simp only [hrun, hrun', Option.map_none, Option.map_some, reduceCtorEq] at hafter herror
  · simp only [unplacedOutcome, ← pendingError?_unplaced, hafter]
  · simp [hafter, Option.some.inj herror]

/-! ## The end of the words -/

theorem slotCheck_unplaced (a : Slot) (t : Token) :
    (a.check t.unplaced).mapError ParseError.unplaced
      = (a.check t).mapError ParseError.unplaced := by
  unfold Slot.check
  rw [Token.text_unplaced]
  split
  · rfl
  · split <;> rfl

theorem optionCheck_unplaced (o : OptionSpec) (t : Token) :
    (o.check t.unplaced).mapError ParseError.unplaced
      = (o.check t).mapError ParseError.unplaced := by
  unfold OptionSpec.check
  rw [Token.text_unplaced]
  split <;> rfl

theorem missing?_unplaced (b : Builder) :
    b.unplaced.missing? = b.missing?.map ParseError.unplaced := by
  have hargs : b.unplaced.args.length = b.args.length := List.length_map _
  have hrest : b.unplaced.rest.length = b.rest.length := List.length_map _
  unfold missing?
  simp only [spec_unplaced, hargs, hrest, has_unplaced]
  split
  · rfl
  · split
    · rfl
    · rw [Option.map_map]
      rfl

theorem argFields_unplaced (b : Builder) :
    b.unplaced.argFields.mapError ParseError.unplaced
      = b.argFields.mapError ParseError.unplaced := by
  have hargs : b.unplaced.args = b.args.map Token.unplaced := rfl
  have hzip : b.spec.args.zip b.unplaced.args
      = (b.spec.args.zip b.args).map (Prod.map id Token.unplaced) := by
    rw [hargs, List.zip_map_right]
  have hchecks := forM_unplaced (f := fun p : Slot × Token => p.1.check p.2)
    (r := Prod.map id Token.unplaced) (fun p => slotCheck_unplaced p.1 p.2) (b.spec.args.zip b.args)
  unfold argFields
  rw [spec_unplaced, mapError_bind, mapError_bind, hzip, hchecks, hargs, List.length_map,
    List.map_map]
  rfl

theorem restFields_unplaced (b : Builder) :
    b.unplaced.restFields.mapError ParseError.unplaced
      = b.restFields.mapError ParseError.unplaced := by
  unfold restFields
  rw [spec_unplaced]
  cases b.spec.rest with
  | none => rfl
  | some a =>
    have hchecks := forM_unplaced (slotCheck_unplaced a) b.rest
    have hrest : b.unplaced.rest = b.rest.map Token.unplaced := rfl
    simp only [mapError_bind, hrest, hchecks, map_text_unplaced]

theorem optFields_unplaced (b : Builder) :
    b.unplaced.optFields.mapError ParseError.unplaced
      = b.optFields.mapError ParseError.unplaced := by
  have hcheck (o : OptionSpec) := forM_unplaced (optionCheck_unplaced o) (b.given o.key)
  have hchecks := forM_unplaced (r := id)
    (f := fun o => ((b.given o.key).map Token.unplaced).forM o.check) hcheck b.spec.opts
  have hfield (o : OptionSpec) :
      o.field ((b.given o.key).map Token.unplaced) = o.field (b.given o.key) :=
    OptionSpec.field_eq_of_texts (map_text_unplaced _)
  rw [List.map_id] at hchecks
  unfold optFields
  simp only [spec_unplaced, given_unplaced, mapError_bind, hchecks, hfield]

/-- What comes of a builder says nothing of places, except where an error is. -/
theorem finish_unplaced (b : Builder) :
    b.unplaced.finish.mapError ParseError.unplaced = b.finish.mapError ParseError.unplaced := by
  unfold finish
  rw [pendingError?_unplaced, has_unplaced, missing?_unplaced]
  cases b.pendingError? with
  | some e => exact congrArg Except.error e.unplaced_unplaced
  | none =>
    cases b.has .help with
    | true => rfl
    | false =>
      cases b.missing? with
      | some e => exact congrArg Except.error e.unplaced_unplaced
      | none =>
        let fields (b : Builder) : Except ParseError Filled := do
          let args ← b.argFields
          let rest ← b.restFields
          let opts ← b.optFields
          return .fields (args ++ rest ++ opts)
        change (fields b.unplaced).mapError _ = (fields b).mapError _
        simp only [fields, mapError_bind, argFields_unplaced, restFields_unplaced,
          optFields_unplaced]

theorem finish_congr (h : b.unplaced = b'.unplaced) :
    b.finish.mapError ParseError.unplaced = b'.finish.mapError ParseError.unplaced := by
  rw [← finish_unplaced b, h, finish_unplaced b']

end Builder

/-! ## The name of the command -/

theorem walkFrom_unplaced (n : Node) (ts : List Token) :
    walkFrom n (ts.map Token.unplaced)
      = { walkFrom n ts with remaining := (walkFrom n ts).remaining.map Token.unplaced } := by
  induction ts generalizing n with
  | nil => rfl
  | cons t ts ih =>
    rw [List.map_cons, walkFrom, walkFrom, Token.text_unplaced]
    split
    · rfl
    · split
      · rfl
      · exact ih _

/-- What a line begins with, without places. -/
def unplacedLeaf (r : Except ParseError (Node × List Token)) :
    Except ParseError (Node × List Token) :=
  match r with
  | .ok (n, remaining) => .ok (n, remaining.map Token.unplaced)
  | .error e => .error e.unplaced

theorem findLeaf_unplaced (ts : List Token) (stop : Int) :
    findLeaf (ts.map Token.unplaced) 0 = unplacedLeaf (findLeaf ts stop) := by
  unfold findLeaf walk
  rw [walkFrom_unplaced]
  rcases walkFrom root ts with ⟨n, remaining, matched⟩
  cases matched with
  | true => cases hleaf : n.isLeaf <;> simp [unplacedLeaf, hleaf, ParseError.unplaced]
  | false =>
    cases remaining with
    | nil => rfl
    | cons t rest =>
      cases hpath : n.path.isEmpty <;> simp [unplacedLeaf, hpath, ParseError.unplaced]

/-! ## Lines -/

theorem command_congr (n : Node) (place place' : Int) {ts ts' : List Token}
    (h : ts.map Token.unplaced = ts'.map Token.unplaced) :
    (n.command place ts).mapError ParseError.unplaced
      = (n.command place' ts').mapError ParseError.unplaced := by
  have hfresh : ({ node := n, offset := place } : Builder).unplaced
      = ({ node := n, offset := place' } : Builder).unplaced := rfl
  obtain ⟨hafter, herror⟩ := Builder.unplacedOutcome_eq (Builder.consume_congr hfresh h)
  unfold Node.command
  rcases hrun : ({ node := n, offset := place } : Builder).consume ts with ⟨b, _ | e⟩ <;>
    rcases hrun' : ({ node := n, offset := place' } : Builder).consume ts' with ⟨b', _ | e'⟩ <;>
    simp only [hrun, hrun', Option.map_none, Option.map_some, reduceCtorEq] at hafter herror
  · simp only [mapError_map, Builder.finish_congr hafter]
  · simp [Except.mapError, Option.some.inj herror]

theorem ofTokens_congr (stop stop' : Int) {ts ts' : List Token}
    (h : ts.map Token.unplaced = ts'.map Token.unplaced) :
    (Command.ofTokens ts stop).mapError ParseError.unplaced
      = (Command.ofTokens ts' stop').mapError ParseError.unplaced := by
  have hleaf : unplacedLeaf (findLeaf ts stop) = unplacedLeaf (findLeaf ts' stop') := by
    rw [← findLeaf_unplaced, ← findLeaf_unplaced, h]
  rw [ofTokens_eq, ofTokens_eq]
  rcases hfound : findLeaf ts stop with e | ⟨n, remaining⟩ <;>
    rcases hfound' : findLeaf ts' stop' with e' | ⟨n', remaining'⟩ <;>
    simp only [hfound, hfound', unplacedLeaf, reduceCtorEq, Except.error.injEq, Except.ok.injEq,
      Prod.mk.injEq] at hleaf
  · simp [Except.bind, Except.mapError, hleaf]
  · obtain ⟨rfl, hremaining⟩ := hleaf
    exact command_congr n _ _ hremaining

/-- What a line with these words asks for. -/
theorem ofLine_of_tokenize {line : String} {ts : List Token} (h : tokenize line = .ok ts) :
    Command.ofLine line
      = if ts = [] then .ok none else (Command.ofTokens ts (stripEnd line).length).map some := by
  unfold Command.ofLine readTokens
  rw [h]
  cases ts with
  | nil => rfl
  | cons t ts =>
    rw [if_neg (List.cons_ne_nil t ts)]
    change (Command.ofTokens (t :: ts) _).bind (fun c => .ok (some c)) = _
    cases Command.ofTokens (t :: ts) (stripEnd line).length <;> rfl

/-- A line that asks for a command has words that name it and words behind that it takes. -/
theorem exists_command_of_ofLine {line : String} {c : Command}
    (h : Command.ofLine line = .ok (some c)) :
    ∃ ts n remaining, tokenize line = .ok ts ∧
      findLeaf ts (stripEnd line).length = .ok (n, remaining) ∧
      n.command (nameStop ts remaining) remaining = .ok c := by
  cases hread : tokenize line with
  | error e => simp [Command.ofLine, readTokens, hread, Except.mapError, bind, Except.bind] at h
  | ok ts =>
    rw [ofLine_of_tokenize hread] at h
    split at h
    · simp at h
    · rw [ofTokens_eq] at h
      rcases hfound : findLeaf ts (stripEnd line).length with e | ⟨n, remaining⟩
      · simp [hfound, Except.bind, Except.map] at h
      · refine ⟨ts, n, remaining, rfl, hfound, ?_⟩
        cases hcommand : n.command (nameStop ts remaining) remaining with
        | error e => simp [hfound, Except.bind, hcommand, Except.map] at h
        | ok c' =>
          simp only [hfound, Except.bind, hcommand, Except.map, Except.ok.injEq,
            Option.some.injEq] at h
          rw [h]

/-- **Places never influence meaning.** Two lines with the same words, in the same quotes,
are both blank, or ask for the same command, or are refused by errors of the same class and
with the same message. -/
theorem same_words_same_outcome {line line' : String} {ts ts' : List Token}
    (h : tokenize line = .ok ts) (h' : tokenize line' = .ok ts')
    (same : ts.map Token.lexeme = ts'.map Token.lexeme) :
    (∃ c, Command.ofLine line = .ok c ∧ Command.ofLine line' = .ok c) ∨
    ∃ e e', Command.ofLine line = .error e ∧ Command.ofLine line' = .error e' ∧
      e.unplaced = e'.unplaced ∧ e.message = e'.message := by
  have hunplaced := map_unplaced_of_lexemes same
  have hnil : ts = [] ↔ ts' = [] := by
    rw [← List.map_eq_nil_iff (f := Token.lexeme), same, List.map_eq_nil_iff]
  have houtcome : (Command.ofLine line).mapError ParseError.unplaced
      = (Command.ofLine line').mapError ParseError.unplaced := by
    rw [ofLine_of_tokenize h, ofLine_of_tokenize h']
    by_cases hblank : ts = []
    · rw [if_pos hblank, if_pos (hnil.mp hblank)]
    · rw [if_neg hblank, if_neg (mt hnil.mpr hblank), mapError_map, mapError_map,
        ofTokens_congr _ _ hunplaced]
  cases hline : Command.ofLine line with
  | ok c =>
    cases hline' : Command.ofLine line' with
    | ok c' =>
      rw [hline, hline'] at houtcome
      cases houtcome
      exact .inl ⟨c, rfl, rfl⟩
    | error e' => simp [hline, hline', Except.mapError] at houtcome
  | error e =>
    cases hline' : Command.ofLine line' with
    | ok c' => simp [hline, hline', Except.mapError] at houtcome
    | error e' =>
      rw [hline, hline'] at houtcome
      have hunplaced : e.unplaced = e'.unplaced := Except.error.inj houtcome
      refine .inr ⟨e, e', rfl, rfl, hunplaced, ?_⟩
      rw [← e.message_unplaced, hunplaced, e'.message_unplaced]

/-- The part of `-H=x` behind the sign is refused on both lines, at different places. -/
theorem same_words_same_outcome_inline :
    let ts : List Token := [⟨"create", 0, 6, .bare⟩, ⟨"req", 7, 10, .bare⟩, ⟨"a", 11, 12, .bare⟩,
      ⟨"b", 13, 14, .bare⟩, ⟨"-H=x", 15, 19, .bare⟩]
    let ts' : List Token := [⟨"create", 1, 7, .bare⟩, ⟨"req", 9, 12, .bare⟩, ⟨"a", 13, 14, .bare⟩,
      ⟨"b", 15, 16, .bare⟩, ⟨"-H=x", 18, 22, .bare⟩]
    tokenize "create req a b -H=x" = .ok ts ∧ tokenize " create  req a b\t -H=x " = .ok ts' ∧
      ts.map Token.lexeme = ts'.map Token.lexeme ∧
      ∃ e e', Command.ofLine "create req a b -H=x" = .error e ∧
        Command.ofLine " create  req a b\t -H=x " = .error e' ∧
        e.unplaced = e'.unplaced ∧ e.message = e'.message ∧ e.offset = 18 ∧ e'.offset = 21 := by
  intro ts ts'
  have h : tokenize "create req a b -H=x" = .ok ts := by
    simp [tokenize, pieces, scanBare, isSpace, isHeld, Quote.ofChar?, tokensOf, Piece.token,
      Piece.glued, Except.map, ts]
  have h' : tokenize " create  req a b\t -H=x " = .ok ts' := by
    simp [tokenize, pieces, scanBare, isSpace, isHeld, Quote.ofChar?, tokensOf, Piece.token,
      Piece.glued, Except.map, ts']
  have hline : Command.ofLine "create req a b -H=x" = .error (.invalidValue ⟨"x", 18, 19, .bare⟩
      "Headers must look like 'Key: Value' (got 'x')") := by
    rw [ofLine_of_tokenize h]
    rfl
  have hline' : Command.ofLine " create  req a b\t -H=x " = .error (.invalidValue
      ⟨"x", 21, 22, .bare⟩ "Headers must look like 'Key: Value' (got 'x')") := by
    rw [ofLine_of_tokenize h']
    rfl
  refine ⟨h, h', rfl, ?_⟩
  rcases same_words_same_outcome h h' rfl with ⟨c, hc, -⟩ | ⟨e, e', he, he', hsame, hmessage⟩
  · rw [hline] at hc
    simp at hc
  · rw [hline] at he
    rw [hline'] at he'
    cases he
    cases he'
    exact ⟨_, _, hline, hline', hsame, hmessage, rfl, rfl⟩

end Courier.Grammar
