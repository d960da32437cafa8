/-
Courier.Proofs.Grammar.Fault — every error points at the right characters.

An error of a line is found in one of four stages, and each has its own way to say where.
`ParseError.Sited` is what they have in common: the word at fault stands in the line, or
there is none and the place of the error lies in the line. Stage by stage:

* the quotes of the line, `Courier.Line.place_le_length`;
* the name of the command, `findLeaf_cases`;
* the words behind it, `Builder.Within.feed` for one word and `Builder.Within.consume` for
  all of them;
* the command as a whole, `Builder.Within.finish`.

`error_points_at_source` puts the stages together, and says what follows for the texts that are
printed: the carets stand under the source of the word at fault, and nothing has to be moved into
the line.

## What a builder has to remember

The last stage blames words that were taken long before. `Within` therefore says of every
value that a builder holds that it stands in the line. The values of flags are left out: a
flag has an empty text at the place of a word that is not empty. No check looks at them,
and `Distinct` keeps them apart from the values that are checked.
-/
import Courier.Proofs.Grammar.Finishing
import Courier.Proofs.Grammar.Resolution
import Courier.Proofs.Line.Places
import Courier.Session.Shell

namespace Courier.Grammar

open Courier.Text Courier.Line Courier.Screen

/-! ## Errors in a line -/

/-- An error belongs to a line: the word at fault stands in it, or the place does. -/
structure ParseError.Sited (e : ParseError) (line : String) : Prop where
  token : ∀ t ∈ e.token?, t.StandsIn line
  place : e.token? = none → 0 ≤ e.place ∧ e.place ≤ line.length

namespace ParseError

variable {e : ParseError} {line : String}

theorem sited_of_token {t : Token} (he : e.token? = some t) (ht : t.StandsIn line) :
    e.Sited line where
  token := by
    intro u hu
    rw [he] at hu
    cases hu
    exact ht
  place := fun hnone => by simp [he] at hnone

theorem sited_of_place (he : e.token? = none) (hlower : 0 ≤ e.place)
    (hupper : e.place ≤ line.length) : e.Sited line where
  token := fun t ht => by simp [he] at ht
  place := fun _ => ⟨hlower, hupper⟩

/-- How many carets an error is shown with: one under each character of the word at fault,
and one if there is nothing to underline. -/
def carets (e : ParseError) : Nat :=
  match e.token? with
  | some t => max 1 t.source.length
  | none => 1

namespace Sited

variable (h : e.Sited line)

include h

theorem bounds : 0 ≤ e.offset ∧ e.offset ≤ e.stop ∧ e.stop ≤ line.length := by
  cases he : e.token? with
  | some t =>
    have ht := h.token t he
    simp only [offset, stop, he]
    exact ⟨ht.start_nonneg, ht.start_le_stop, ht.stop_le_length⟩
  | none =>
    have hplace := h.place he
    simp only [offset, stop, he]
    exact ⟨hplace.1, Int.le_refl _, hplace.2⟩

theorem excerpt : ∀ t ∈ e.token?, excerpt line e.offset e.stop = t.source := by
  intro t ht
  have he : e.token? = some t := ht
  simp only [offset, stop, he]
  exact (h.token t he).excerpt

theorem width : max 1 (e.stop - e.offset) = e.carets := by
  cases he : e.token? with
  | some t =>
    have hlength := (h.token t he).length_source
    simp only [carets, offset, stop, he]
    omega
  | none =>
    simp only [carets, offset, stop, he]
    omega

/-- The carets stand where the error says, and there are as many as it says. -/
theorem events :
    parseErrorEvents line e = [sayQuietly ("[red]Error:[/red] " ++ e.message),
      sayPlainly ("  " ++ line),
      say ("  " ++ repeated e.offset.toNat ' ' ++ styled "red" (repeated e.carets '^'))] := by
  obtain ⟨-, hle, hupper⟩ := h.bounds
  have hoffset : min e.offset line.length = e.offset := by omega
  have hstop : min e.stop line.length = e.stop := by omega
  simp only [parseErrorEvents, hoffset, hstop, h.width, Int.toNat_natCast]

end Sited

end ParseError

/-! ## The words behind the name -/

namespace Builder

/-- What a builder holds stands in the line: every positional value, every value of an
option that takes values, and the word of an option that waits. -/
structure Within (b : Builder) (line : String) : Prop where
  args : ∀ t ∈ b.args, t.StandsIn line
  rest : ∀ t ∈ b.rest, t.StandsIn line
  given : ∀ o ∈ b.spec.knownOptions, o.takesValue = true → ∀ t ∈ b.given o.key, t.StandsIn line
  pending : ∀ o name, b.pending = some (o, name) → name.StandsIn line
  lower : 0 ≤ b.offset
  upper : b.offset ≤ line.length

variable {b : Builder} {line : String} {t : Token}

theorem within_fresh (n : Node) {place : Int} (hlower : 0 ≤ place) (hupper : place ≤ line.length) :
    ({ node := n, offset := place } : Builder).Within line where
  args := by simp
  rest := by simp
  given := fun o _ _ t ht => by simp [given, valuesOf] at ht
  pending := by simp
  lower := hlower
  upper := hupper

theorem Within.saw (h : b.Within line) (ht : t.StandsIn line) : (b.saw t).Within line :=
  { h with
    lower := Int.le_trans ht.start_nonneg ht.start_le_stop
    upper := ht.stop_le_length }

/-- A value that stands in the line may be stored. -/
theorem Within.store (h : b.Within line) (o : OptionSpec) {v : Token} (hv : v.StandsIn line) :
    (b.store o v).Within line := by
  refine { h with given := ?_ }
  intro p hp htakes u hu
  rw [given_store] at hu
  split at hu
  · rcases List.mem_append.mp hu with hu | hu
    · exact h.given p hp htakes u hu
    · rw [List.mem_singleton.mp hu]
      exact hv
  · exact h.given p hp htakes u hu

/-- What a flag stores is not a value of any other option. -/
theorem Within.store_flag (h : b.Within line) (distinct : b.spec.Distinct) {o : OptionSpec}
    (ho : o ∈ b.spec.knownOptions) (hflag : o.takesValue = false) (v : Token) :
    (b.store o v).Within line := by
  refine { h with given := ?_ }
  intro p hp htakes u hu
  have hkey : p.key ≠ o.key := by
    intro hkey
    rw [distinct.eq_of_key hp ho hkey, hflag] at htakes
    simp at htakes
  rw [given_store, if_neg hkey] at hu
  exact h.given p hp htakes u hu

/-- The value behind the sign stands in the line where it is said to. -/
theorem standsIn_inline {spelling value : String} (ht : t.StandsIn line) (hkind : t.kind = .bare)
    (hparts : cut '=' t.text = (spelling, some value)) :
    ({ t with text := value, start := t.start + spelling.length + 1 } : Token).StandsIn line := by
  have htext : t.text = spelling ++ "=" ++ value := by
    have := cut_eq t.text
    rwa [hparts] at this
  have hlead : ((spelling ++ "=").length : Int) = spelling.length + 1 := by
    rw [String.length_append]
    rfl
  have hbehind := ht.behind hkind htext
  rwa [hlead, ← Int.add_assoc] at hbehind

/-- **One word.** Whatever a word of the line does, the builder stays within the line, and
an error is about a word of it. -/
theorem Within.feed (h : b.Within line) (distinct : b.spec.Distinct) (ht : t.StandsIn line) :
    (b.feed t).1.Within line ∧ ∀ e, (b.feed t).2 = some e → e.Sited line := by
  have hfed := fed_feed b t
  generalize b.feed t = out at hfed
  have hsaw := h.saw ht
  have hmore {ts : List Token} (hts : ∀ u ∈ ts, u.StandsIn line) :
      ∀ u ∈ ts ++ [t], u.StandsIn line := by
    intro u hu
    rcases List.mem_append.mp hu with hu | hu
    · exact hts u hu
    · rwa [List.mem_singleton.mp hu]
  cases hfed with
  | starved o name waits =>
    refine ⟨hsaw, ?_⟩
    rintro e ⟨⟩
    exact ParseError.sited_of_token rfl (h.pending o name waits)
  | value o =>
    have hstored := hsaw.store o ht
    exact ⟨{ hstored with pending := by simp }, by simp⟩
  | sealing =>
    exact ⟨{ hsaw with }, by simp⟩
  | slot =>
    exact ⟨{ hsaw with args := hmore h.args }, by simp⟩
  | rest =>
    exact ⟨{ hsaw with rest := hmore h.rest }, by simp⟩
  | flag o _ _ known isFlag =>
    exact ⟨hsaw.store_flag distinct known isFlag _, by simp⟩
  | inline o spelling value _ _ _ _ _ bare parts =>
    exact ⟨hsaw.store o (standsIn_inline ht bare parts), by simp⟩
  | waits o =>
    refine ⟨{ hsaw with pending := ?_ }, by simp⟩
    rintro p name ⟨⟩
    exact ht
  | refused e _ fault =>
    refine ⟨hsaw, ?_⟩
    rintro e' ⟨⟩
    exact ParseError.sited_of_token fault ht

/-- All words of the line. -/
theorem Within.feedAll {ts : List Token} (h : b.Within line) (distinct : b.spec.Distinct)
    (hts : ∀ t ∈ ts, t.StandsIn line) :
    (b.feedAll ts).1.Within line ∧ ∀ e, (b.feedAll ts).2 = some e → e.Sited line := by
  induction ts generalizing b with
  | nil => exact ⟨h, by simp [Builder.feedAll]⟩
  | cons t ts ih =>
    obtain ⟨hafter, herror⟩ := h.feed distinct (hts t (by simp))
    have hspec : (b.feed t).1.spec = b.spec := congrArg Node.spec (node_feed b t)
    rw [Builder.feedAll]
    rcases hfeed : b.feed t with ⟨after, _ | e⟩
    · rw [hfeed] at hafter hspec
      exact ih hafter (by rwa [hspec]) fun u hu => hts u (by simp [hu])
    · rw [hfeed] at hafter herror
      exact ⟨hafter, herror⟩

theorem Within.consume {ts : List Token} (h : b.Within line) (distinct : b.spec.Distinct)
    (hts : ∀ t ∈ ts, t.StandsIn line) :
    (b.consume ts).1.Within line ∧ ∀ e, (b.consume ts).2 = some e → e.Sited line := by
  obtain ⟨hafter, herror⟩ := h.feedAll distinct hts
  rw [Builder.consume]
  rcases hfeed : b.feedAll ts with ⟨after, _ | e⟩
  · rw [hfeed] at hafter
    refine ⟨hafter, fun e he => ?_⟩
    obtain ⟨⟨o, name⟩, hp, rfl⟩ := Option.map_eq_some_iff.mp he
    exact ParseError.sited_of_token rfl (hafter.pending o name hp)
  · rw [hfeed] at hafter herror
    exact ⟨hafter, herror⟩

/-! ## The command as a whole -/

/-- Every value that is checked stands in the line. -/
theorem Within.value (h : b.Within line) (ht : b.IsValue t) : t.StandsIn line := by
  rcases ht with ht | ht | ⟨o, ho, htakes, ht⟩
  · exact h.args t ht
  · exact h.rest t ht
  · exact h.given o (CommandSpec.mem_knownOptions ho) htakes t ht

theorem Within.finish (h : b.Within line) {e : ParseError} (he : b.finish = .error e) :
    e.Sited line := by
  have hfinished := finished_finish b
  rw [he] at hfinished
  cases hfinished with
  | starved o name waits => exact ParseError.sited_of_token rfl (h.pending o name waits)
  | missing _ _ _ lacks =>
    obtain ⟨htoken, hplace⟩ := missing?_eq_some lacks
    exact ParseError.sited_of_place htoken (by rw [hplace]; exact h.lower)
      (by rw [hplace]; exact h.upper)
  | refused t reason _ _ value => exact ParseError.sited_of_token rfl (h.value value)

end Builder

theorem command_sited {n : Node} (distinct : n.spec.Distinct) {line : String} {place : Int}
    (hlower : 0 ≤ place) (hupper : place ≤ line.length) {ts : List Token}
    (hts : ∀ t ∈ ts, t.StandsIn line) {e : ParseError} (h : n.command place ts = .error e) :
    e.Sited line := by
  obtain ⟨hwithin, herror⟩ := (Builder.within_fresh n hlower hupper).consume distinct hts
  unfold Node.command at h
  split at h
  · next b e' hconsume =>
    cases h
    rw [hconsume] at herror
    exact herror e rfl
  · next b hconsume =>
    rw [hconsume] at hwithin
    cases hfinish : b.finish with
    | error e' =>
      rw [hfinish] at h
      cases h
      exact hwithin.finish hfinish
    | ok f =>
      rw [hfinish] at h
      simp [Except.map] at h

/-! ## Lines -/

theorem ofTokens_sited {line : String} {ts : List Token} (hts : ∀ t ∈ ts, t.StandsIn line)
    {stop : Int} (hlower : 0 ≤ stop) (hupper : stop ≤ line.length) {e : ParseError}
    (h : Command.ofTokens ts stop = .error e) : e.Sited line := by
  rw [ofTokens_eq] at h
  rcases findLeaf_cases ts stop with
    ⟨n, remaining, taken, hfound, hn, htaken, rfl⟩ | ⟨e', hfound, hfault⟩
  · rw [hfound] at h
    obtain ⟨t, ht, hplace⟩ := nameStop_append htaken remaining
    have hstands := hts t (by simp [ht])
    refine command_sited (distinct_of_mem_leaves n hn) ?_ ?_ (fun u hu => hts u (by simp [hu])) h
    · rw [hplace]
      exact Int.le_trans hstands.start_nonneg hstands.start_le_stop
    · rw [hplace]
      exact hstands.stop_le_length
  · rw [hfound] at h
    cases h
    rcases hfault with ⟨htoken, rfl⟩ | ⟨t, ht, htoken⟩
    · exact ParseError.sited_of_place htoken hlower hupper
    · exact ParseError.sited_of_token htoken (hts t ht)

theorem ofLine_sited {line : String} {e : ParseError} (h : Command.ofLine line = .error e) :
    e.Sited line := by
  unfold Command.ofLine readTokens at h
  cases hread : tokenize line with
  | error cause =>
    rw [hread] at h
    cases h
    have hplace := place_le_length hread
    have heq : (ParseError.quote cause).place = cause.place := by cases cause <;> rfl
    exact ParseError.sited_of_place rfl (by rw [heq]; omega) (by rw [heq]; omega)
  | ok ts =>
    rw [hread] at h
    cases ts with
    | nil => cases h
    | cons t ts =>
      have hlength := length_stripEnd_le line
      refine ofTokens_sited (standsIn_of_tokenize hread) (Int.natCast_nonneg _)
        (Int.ofNat_le.mpr hlength) (e := e) ?_
      change (Command.ofTokens (t :: ts) (stripEnd line).length).bind (fun c => .ok (some c))
        = .error e at h
      cases hcommand : Command.ofTokens (t :: ts) (stripEnd line).length with
      | error e' =>
        rw [hcommand] at h
        cases h
        rfl
      | ok c =>
        rw [hcommand] at h
        cases h

/-- **Every error points at the right characters.** Its places lie in the line; between
them stands the source of the word at fault, if there is one; and the texts that are given to
the console are the line with two blanks in front, and below it two blanks, a blank for each
character in front of that source and a caret for each character of it, or one caret if there
is nothing to underline. That a caret then stands under its character is a matter of the
console, which has its own ways with tabs, wide characters and long lines. -/
theorem error_points_at_source (line : String) (e : ParseError)
    (h : Command.ofLine line = .error e) :
    (0 ≤ e.offset ∧ e.offset ≤ e.stop ∧ e.stop ≤ line.length) ∧
    (∀ t ∈ e.token?, excerpt line e.offset e.stop = t.source) ∧
    parseErrorEvents line e = [sayQuietly ("[red]Error:[/red] " ++ e.message),
      sayPlainly ("  " ++ line),
      say ("  " ++ repeated e.offset.toNat ' ' ++ styled "red" (repeated e.carets '^'))] := by
  have hsited := ofLine_sited h
  exact ⟨hsited.bounds, hsited.excerpt, hsited.events⟩

/-- The word at fault is the part of `-H=x` behind the sign. -/
theorem error_points_at_source_inline :
    let e : ParseError := .invalidValue ⟨"x", 18, 19, .bare⟩
      "Headers must look like 'Key: Value' (got 'x')"
    Command.ofLine "create req a b -H=x" = .error e ∧
      excerpt "create req a b -H=x" 18 19 = "x" ∧
      parseErrorEvents "create req a b -H=x" e
        = [sayQuietly "[red]Error:[/red] Headers must look like 'Key: Value' (got 'x')",
          sayPlainly "  create req a b -H=x",
          say ("  " ++ repeated 18 ' ' ++ styled "red" "^")] := by
  intro e
  have hread : tokenize "create req a b -H=x" = .ok [⟨"create", 0, 6, .bare⟩,
      ⟨"req", 7, 10, .bare⟩, ⟨"a", 11, 12, .bare⟩, ⟨"b", 13, 14, .bare⟩,
      ⟨"-H=x", 15, 19, .bare⟩] := by
    simp [tokenize, pieces, scanBare, isSpace, isHeld, Quote.ofChar?, tokensOf, Piece.token,
      Piece.glued, Except.map]
  have h : Command.ofLine "create req a b -H=x" = .error e := by
    rw [Command.ofLine, readTokens, hread]
    rfl
  obtain ⟨-, hexcerpt, hevents⟩ := error_points_at_source _ e h
  exact ⟨h, hexcerpt _ rfl, hevents⟩

end Courier.Grammar
