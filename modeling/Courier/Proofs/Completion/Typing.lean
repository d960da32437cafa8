/-
Courier.Proofs.Completion.Typing — completion while a command is being typed.

Completion refuses nothing: a line that no command begins with, or that a builder refuses,
calls for `Offer.nothing`, and so does a command that is complete. `sighted_while_typing` says
that these are not mixed up. As long as what has been typed can become a command, every word
in front of the cursor is understood, and the builder is asked what it expects.

The reason is that each stage takes a beginning as it takes the whole: the words of the
beginning are the first words of the line (`typed_prefix`), the walk down the tree makes the
same steps (`walkFrom_append`), and a builder that takes all words takes the first ones
(`Builder.feedAll_append`). What the stages make of errors never comes up.

When no candidates are left, `Offer.Silent` says why: `candidates_eq_nil_iff`.
-/
import Courier.Completion
import Courier.Proofs.Grammar.Resolution
import Courier.Proofs.Grammar.Unplaced
import Courier.Proofs.Line.Unfinished

namespace Courier

open Courier.Grammar Courier.Line Courier.Text

/-! ## Beginnings -/

/-- What is read of a beginning of a line is read of the line. -/
theorem typed_prefix {typed more : String} {ts : List Token}
    (h : tokenize (typed ++ more) = .ok ts) : (tokenizeUnfinished typed).1 <+: ts := by
  have hstays := (continues_append 0 typed.toList more.toList).1
  have hwhole := @splitTail_eq_reopen 0 (typed ++ more).toList ts h
  rw [String.toList_append] at hwhole
  rw [hwhole, Nat.zero_add, Nat.zero_add, String.length_toList] at hstays
  refine hstays.trans ?_
  unfold reopen
  cases ts.getLast? with
  | none => exact List.nil_prefix
  | some t =>
    dsimp only
    split
    · exact List.prefix_rfl
    · exact List.dropLast_prefix ts

/-- A walk that has not come to a command, or to a word that is no name, goes on with the
next words; otherwise they are left. -/
theorem walkFrom_append (n : Node) (ts us : List Token) :
    walkFrom n (ts ++ us)
      = if (walkFrom n ts).matched && !(walkFrom n ts).node.isLeaf then
          walkFrom (walkFrom n ts).node us
        else { walkFrom n ts with remaining := (walkFrom n ts).remaining ++ us } := by
  induction ts generalizing n with
  | nil =>
    cases hleaf : n.isLeaf with
    | false => simp [walkFrom, hleaf]
    | true => cases us <;> simp [walkFrom, hleaf]
  | cons t ts ih =>
    rw [List.cons_append, walkFrom, walkFrom]
    cases hleaf : n.isLeaf with
    | true => simp [hleaf]
    | false =>
      cases hchild : n.child? t.text with
      | none => simp
      | some child => exact ih child

/-! ## A line that is a command -/

/-- A command name that is found is where the walk ends. -/
theorem walk_of_findLeaf {ts : List Token} {stop : Int} {n : Node} {remaining : List Token}
    (h : findLeaf ts stop = .ok (n, remaining)) :
    walk ts = ⟨n, remaining, true⟩ ∧ n.isLeaf = true := by
  obtain ⟨-, -, hfault⟩ := walkFrom_spec root ts
  unfold findLeaf at h
  unfold walk at h ⊢
  rcases hwalk : walkFrom root ts with ⟨m, rest, matched⟩
  rw [hwalk] at h hfault
  cases matched with
  | true =>
    cases hleaf : m.isLeaf with
    | true =>
      simp only [hleaf, if_true, Except.ok.injEq, Prod.mk.injEq] at h
      obtain ⟨rfl, rfl⟩ := h
      exact ⟨rfl, hleaf⟩
    | false => simp [hleaf] at h
  | false =>
    cases rest with
    | nil => exact absurd rfl (hfault rfl)
    | cons t rest => cases hpath : m.path.isEmpty <;> simp [hpath] at h

/-- The stages of a line that asks for a command: its words, its name, the words behind. -/
theorem stages_of_ofLine {line : String} {c : Command} (h : Command.ofLine line = .ok (some c)) :
    ∃ ts n place remaining, tokenize line = .ok ts ∧ walk ts = ⟨n, remaining, true⟩ ∧
      n.isLeaf = true ∧ (({ node := n, offset := place } : Builder).feedAll remaining).2 = none := by
  obtain ⟨ts, n, remaining, hread, hfound, hcommand⟩ := exists_command_of_ofLine h
  obtain ⟨hwalk, hleaf⟩ := walk_of_findLeaf hfound
  refine ⟨ts, n, nameStop ts remaining, remaining, hread, hwalk, hleaf, ?_⟩
  by_contra hrefused
  exact Builder.consume_ne_none hrefused (command_eq_ok hcommand)

/-- No word is taken or refused because of where errors about missing things point. -/
theorem feedAll_fresh {n : Node} {place : Int} {ts : List Token}
    (h : (({ node := n, offset := place } : Builder).feedAll ts).2 = none) :
    (({ node := n } : Builder).feedAll ts).2 = none := by
  have hfresh : ({ node := n } : Builder).unplaced
      = ({ node := n, offset := place } : Builder).unplaced := rfl
  obtain ⟨-, herror⟩ := Builder.unplacedOutcome_eq (Builder.feedAll_congr hfresh (Eq.refl (ts.map _)))
  rwa [h, Option.map_none, Option.map_eq_none_iff] at herror

/-- What has been typed of a command leads down the tree, and if it leads to a command then
the builder takes the words behind the name. -/
theorem stages_of_typed {typed more : String} {c : Command}
    (h : Command.ofLine (typed ++ more) = .ok (some c)) {w : Walk}
    (hw : walk (tokenizeUnfinished typed).1 = w) :
    w.matched = true ∧
      (w.node.isLeaf = true → ∃ b, ({ node := w.node } : Builder).feedAll w.remaining = (b, none)) := by
  obtain ⟨ts, n, place, remaining, hread, hwalk, -, hfed⟩ := stages_of_ofLine h
  obtain ⟨us, rfl⟩ := typed_prefix hread
  rw [walk] at hw
  rw [walk, walkFrom_append, hw] at hwalk
  cases hmatched : w.matched with
  | false => simp [hmatched] at hwalk
  | true =>
    refine ⟨rfl, fun hleaf => ?_⟩
    simp only [hmatched, hleaf, Bool.not_true, Bool.and_false, Bool.false_eq_true, if_false,
      Walk.mk.injEq] at hwalk
    obtain ⟨rfl, rfl, -⟩ := hwalk
    rw [Builder.feedAll_append] at hfed
    rcases hrun : ({ node := w.node, offset := place } : Builder).feedAll w.remaining with
      ⟨b, _ | e⟩
    · have hfresh := feedAll_fresh (by rw [hrun])
      exact ⟨_, Prod.ext rfl hfresh⟩
    · simp [hrun] at hfed

/-! ## No candidates -/

/-- Whether a value goes on from what has been typed of the word at the cursor. -/
def GoesOn (tail : Option Tail) (value : String) : Prop :=
  startsWith ((tail.map Tail.text).getD "") value = true

instance (tail : Option Tail) (value : String) : Decidable (GoesOn tail value) :=
  inferInstanceAs (Decidable (_ = _))

/-- Why nothing is left of an offer: there was none; no value, no spelling or no answer goes
on from what has been typed; or there is no answer, be it because the question failed. -/
inductive Offer.Silent (ask : Query → List String) (tail : Option Tail) : Offer → Prop where
  | nothing : Silent ask tail .nothing
  | values {lead : String} {names : List String} (h : ∀ v ∈ names, ¬ GoesOn tail (lead ++ v)) :
    Silent ask tail (.values lead names)
  | options {opts : List OptionSpec} (h : ∀ o ∈ opts, ∀ s ∈ o.spellings, ¬ GoesOn tail s) :
    Silent ask tail (.options opts)
  | unanswered {lead : String} {query : Query} (h : ask query = []) :
    Silent ask tail (.ask lead query)
  | answers {lead : String} {query : Query} (h : ∀ v ∈ ask query, ¬ GoesOn tail (lead ++ v)) :
    Silent ask tail (.ask lead query)

theorem valueCandidates_eq_nil_iff {lead : String} {tail : Option Tail} {names : List String} :
    valueCandidates lead tail names = [] ↔ ∀ v ∈ names, ¬ GoesOn tail (lead ++ v) := by
  simp [valueCandidates, GoesOn, List.filter_eq_nil_iff]

theorem optionCandidates_eq_nil_iff {tail : Option Tail} {o : OptionSpec} :
    optionCandidates tail o = [] ↔ ∀ s ∈ o.spellings, ¬ GoesOn tail s := by
  simp [optionCandidates, GoesOn, List.filter_eq_nil_iff]

/-- There are no candidates exactly if there is a reason for it. -/
theorem candidates_eq_nil_iff {ask : Query → List String} {tail : Option Tail} {offer : Offer} :
    candidates ask tail offer = [] ↔ offer.Silent ask tail := by
  cases offer with
  | nothing => exact ⟨fun _ => .nothing, fun _ => rfl⟩
  | values lead names =>
    rw [candidates, valueCandidates_eq_nil_iff]
    exact ⟨.values, fun h => by cases h with | values h => exact h⟩
  | options opts =>
    rw [candidates, List.flatMap_eq_nil_iff]
    simp only [optionCandidates_eq_nil_iff]
    exact ⟨.options, fun h => by cases h with | options h => exact h⟩
  | ask lead query =>
    rw [candidates, valueCandidates_eq_nil_iff]
    refine ⟨.answers, fun h => ?_⟩
    cases h with
    | unanswered h => simp [h]
    | answers h => exact h

/-- A builder calls for nothing only if it expects nothing. -/
theorem offerOf_eq_nothing_iff {b : Builder} {tail : Option Tail} :
    offerOf b tail = .nothing ↔ b.expect tail = .nothing := by
  unfold offerOf Offer.fixedOr
  cases b.expect tail <;> simp <;> split <;> simp

/-! ## Every beginning of a command -/

theorem beforeCursor_end (line : String) : beforeCursor line line.length = line := by
  have hclamp : clampCursor line line.length = line.toList.length := by
    rw [clampCursor, Int.toNat_natCast, Nat.min_self, String.length_toList]
  rw [beforeCursor, hclamp, List.take_length, String.ofList_toList]

theorem offer_of_group {tokens : List Token} {tail : Option Tail}
    (hmatched : (walk tokens).matched = true) (hgroup : (walk tokens).node.isLeaf = false) :
    offer tokens tail = .values "" (walk tokens).node.childNames := by
  simp [offer, hmatched, hgroup]

theorem offer_of_fed {tokens : List Token} {tail : Option Tail} {b : Builder}
    (hmatched : (walk tokens).matched = true) (hleaf : (walk tokens).node.isLeaf = true)
    (hb : ({ node := (walk tokens).node } : Builder).feedAll (walk tokens).remaining = (b, none)) :
    offer tokens tail = offerOf b tail := by
  simp [offer, hmatched, hleaf, hb]

/-- **Completion never goes blind inside a command.** Of every beginning of a line that asks
for a command, the complete words lead down the tree of commands. At a group its names are
offered; at a command the builder takes all words behind the name, and the offer is what it
expects next. If there are no candidates then for a reason (`Offer.Silent`), and nothing is
offered at all only where the builder expects nothing. -/
theorem sighted_while_typing {typed more : String} {c : Command}
    (h : Command.ofLine (typed ++ more) = .ok (some c)) (ask : Query → List String) :
    let tokens := (tokenizeUnfinished typed).1
    let tail := (tokenizeUnfinished typed).2
    let w := walk tokens
    w.matched = true ∧
    (w.node.isLeaf = false → offer tokens tail = .values "" w.node.childNames) ∧
    (w.node.isLeaf = true → ∃ b, ({ node := w.node } : Builder).feedAll w.remaining = (b, none) ∧
      offer tokens tail = offerOf b tail ∧
      (offer tokens tail = .nothing ↔ b.expect tail = .nothing)) ∧
    ((complete typed typed.length ask).candidates = [] ↔ (offer tokens tail).Silent ask tail) := by
  intro tokens tail w
  obtain ⟨hmatched, hfed⟩ := stages_of_typed h (w := w) rfl
  refine ⟨hmatched, fun hgroup => ?_, fun hleaf => ?_, ?_⟩
  · exact offer_of_group hmatched hgroup
  · obtain ⟨b, hb⟩ := hfed hleaf
    have hoffer : offer tokens tail = offerOf b tail := offer_of_fed hmatched hleaf hb
    exact ⟨b, hb, hoffer, by rw [hoffer, offerOf_eq_nothing_iff]⟩
  · rw [← candidates_eq_nil_iff]
    have hcandidates : (complete typed typed.length ask).candidates
        = candidates ask tail (offer tokens tail) := by
      simp only [complete, beforeCursor_end]
      rfl
    rw [hcandidates]

/-- Cut inside a quoted value of an option, the line still asks which variable is meant. -/
theorem sighted_while_typing_quoted :
    let typed := "extract body id -t 'my "
    let more := "token'"
    let ask : Query → List String := fun _ => ["my token", "token"]
    Command.ofLine (typed ++ more) = .ok (some (.extract "body" "id" "my token")) ∧
      (∃ query, offer (tokenizeUnfinished typed).1 (tokenizeUnfinished typed).2 = .ask "" query) ∧
      (complete typed typed.length ask).candidates ≠ [] := by
  intro typed more ask
  have hread : tokenize (typed ++ more) = .ok [⟨"extract", 0, 7, .bare⟩, ⟨"body", 8, 12, .bare⟩,
      ⟨"id", 13, 15, .bare⟩, ⟨"-t", 16, 18, .bare⟩, ⟨"my token", 19, 29, .quoted .single⟩] := by
    simp [typed, more, tokenize, pieces, scanBare, scanQuoted, isSpace, isHeld, Quote.ofChar?,
      Quote.char, tokensOf, Piece.token, Piece.glued, Except.map]
  have htyped : tokenizeUnfinished typed = ([⟨"extract", 0, 7, .bare⟩, ⟨"body", 8, 12, .bare⟩,
      ⟨"id", 13, 15, .bare⟩, ⟨"-t", 16, 18, .bare⟩], some ⟨"my ", 19, some .single, false⟩) := by
    have hlength : typed.length = 23 := by decide
    rw [tokenizeUnfinished, hlength]
    simp [typed, splitTail, pieces, scanBare, scanQuoted, isSpace, isHeld,
      Quote.ofChar?, Quote.char, Piece.token, Piece.tail]
  have hline : Command.ofLine (typed ++ more) = .ok (some (.extract "body" "id" "my token")) := by
    rw [ofLine_of_tokenize hread]
    rfl
  obtain ⟨-, -, hcommand, hsilent⟩ := sighted_while_typing hline ask
  rw [htyped] at hcommand hsilent ⊢
  obtain ⟨b, hfed, hoffer, -⟩ := hcommand rfl
  cases hfed
  refine ⟨hline, ⟨_, hoffer⟩, ?_⟩
  rw [ne_eq, hsilent, hoffer]
  intro h
  cases h with
  | unanswered h => exact absurd h (by decide)
  | answers h => exact h "my token" (by decide) (by decide)

end Courier
