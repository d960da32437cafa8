/-
Courier.Proofs.Line.Layout — a line and its words determine each other.

A `Layout` is a line that is still in parts: the white space in front of the words,
and each word with the white space behind it. `Layout.line` writes it, `Layout.tokens`
says which words stand in it and where. `Layout.Valid` are the layouts whose parts
survive being written side by side.

* `tokenize_line` — a valid layout is read back: the words come out as they went in,
  each with the span of its source.
* `tokenize_lossless` — every line that is read is a valid layout of its tokens, and
  writing the tokens with single spaces changes none of the words.

## What follows a word matters

The gap stands behind its word and not in front of it. A backslash at the end of a bare
word would hold on to a space behind it, so the condition on a word (`Separated`) speaks
of the gap that follows. `tokensOf_word` is the one step of both theorems: a word that
is written in front of `rest` is read as that word, provided that `rest` begins with
white space or is nothing.
-/
import Courier.Proofs.Line.Pieces

namespace Courier.Line

/-! ## Words without a place -/

/-- A word as it is written: its text and its kind. -/
structure Lexeme where
  text : String
  kind : TokenKind
  deriving DecidableEq, Repr

def Token.lexeme (t : Token) : Lexeme := ⟨t.text, t.kind⟩

/-- A word as it stands in a line. -/
def Lexeme.source (x : Lexeme) : String :=
  Token.source { text := x.text, start := 0, stop := 0, kind := x.kind }

theorem Token.source_eq (t : Token) : t.source = t.lexeme.source := rfl

/-- The token of a word that is written at a place. -/
def Lexeme.at (x : Lexeme) (pos : Nat) : Token :=
  { text := x.text, start := pos, stop := (pos + x.source.length : Nat), kind := x.kind }

theorem Lexeme.lexeme_at (x : Lexeme) (pos : Nat) : (x.at pos).lexeme = x := rfl

theorem Lexeme.source_quoted (q : Quote) (text : String) :
    (Lexeme.mk text (.quoted q)).source.toList = q.char :: (text.toList ++ [q.char]) := by
  simp [Lexeme.source, Token.source]

theorem Lexeme.length_source_quoted (q : Quote) (text : String) :
    (Lexeme.mk text (.quoted q)).source.length = text.length + 2 := by
  rw [← String.length_toList, Lexeme.source_quoted]
  simp [String.length_toList]

/--
Whether a word can be read back as it is written. A quoted word has its own quote only
behind a backslash, and does not end in a backslash that would hold on to the closing
quote. A bare word is not empty, does not begin with a quote, is not the break, and has
white space only behind a backslash.
-/
def Lexeme.WellFormed : Lexeme → Prop
  | ⟨text, .quoted q⟩ => quotesHeld q.char text.toList = true ∧ endsEscaped text = false
  | ⟨text, .bare⟩ =>
    text ≠ "" ∧ startsQuoted text.toList = false ∧ text ≠ "--"
      ∧ spacesHeld text.toList = true
  | ⟨text, .break⟩ => text = "--"

instance : (x : Lexeme) → Decidable x.WellFormed
  | ⟨text, .quoted q⟩ =>
    inferInstanceAs (Decidable (quotesHeld q.char text.toList = true ∧ endsEscaped text = false))
  | ⟨text, .bare⟩ =>
    inferInstanceAs (Decidable (text ≠ "" ∧ startsQuoted text.toList = false
      ∧ text ≠ "--" ∧ spacesHeld text.toList = true))
  | ⟨text, .break⟩ => inferInstanceAs (Decidable (text = "--"))

/-- A text that needs no quotes is read back as a bare word. -/
theorem Lexeme.wellFormed_bare {text : String} (h : needsQuotes text = false) :
    (Lexeme.mk text .bare).WellFormed := by
  unfold needsQuotes at h
  cases hchars : text.toList with
  | nil => simp [hchars, needsQuotesChars] at h
  | cons c cs =>
    rw [hchars] at h
    simp only [needsQuotesChars, Bool.or_eq_false_iff] at h
    obtain ⟨⟨hbreak, hhead⟩, hspaces⟩ := h
    refine ⟨fun hempty => by simp [hempty] at hchars, by rw [hchars]; exact hhead,
      fun hmark => ?_, by rw [hchars]; exact spacesHeld_of_plain hspaces⟩
    rw [hmark] at hchars
    simp [← hchars] at hbreak

/-! ## Reading one word -/

theorem tokensOf_cons {p : Piece} {ps : List Piece} (hclosed : p.quote.isSome → p.closed)
    (hglued : p.glued ps = false) :
    tokensOf (p :: ps) = (tokensOf ps).map (p.token :: ·) := by
  rw [tokensOf, if_neg, if_neg]
  · simp [hglued]
  · simpa using hclosed

/-- What is read of a piece and those behind it, if it can be read. -/
theorem tokensOf_cons_eq_ok {p : Piece} {ps : List Piece} {ts : List Token}
    (h : tokensOf (p :: ps) = .ok ts) :
    p.glued ps = false ∧ ∃ us, tokensOf ps = .ok us ∧ ts = p.token :: us := by
  rw [tokensOf] at h
  split at h
  · simp at h
  · split at h
    · simp at h
    · next _ hglued =>
      cases hps : tokensOf ps with
      | error e => simp [hps, Except.map] at h
      | ok us =>
        simp only [hps, Except.map, Except.ok.injEq] at h
        exact ⟨by simpa using hglued, us, rfl, h.symm⟩

theorem glued_bare (p : Piece) (hq : p.quote = none) (ps : List Piece) :
    p.glued ps = false := by
  cases ps <;> simp [Piece.glued, hq]

theorem token_quoted (q : Quote) (w : List Char) (pos : Nat) :
    Piece.token ⟨w, pos, pos + 2 + w.length, some q, true⟩
      = (Lexeme.mk (String.ofList w) (.quoted q)).at pos := by
  have hstop : pos + 2 + w.length = pos + (w.length + 2) := by omega
  simp only [Piece.token, Lexeme.at, Lexeme.length_source_quoted, String.length_ofList, hstop]

/-- The kind of a word without quotes. -/
def bareKind (w : List Char) : TokenKind := if w = ['-', '-'] then .break else .bare

theorem Lexeme.source_bareKind (text : String) (w : List Char) :
    (Lexeme.mk text (bareKind w)).source = text := by
  rw [bareKind]
  split <;> rfl

theorem token_bare (w : List Char) (pos : Nat) :
    Piece.token ⟨w, pos, pos + w.length, none, false⟩
      = (Lexeme.mk (String.ofList w) (bareKind w)).at pos := by
  simp only [Piece.token, Lexeme.at, Lexeme.source_bareKind, String.length_ofList]
  rfl

/-- A word without quotes that the scanner has read is well-formed. -/
theorem Bare.wellFormed {w : List Char} (hw : Bare w) :
    (Lexeme.mk (String.ofList w) (bareKind w)).WellFormed := by
  by_cases hbreak : w = ['-', '-']
  · subst hbreak; rfl
  · obtain ⟨hne, hhead, held⟩ := hw
    have htext : String.ofList w ≠ "--" := by
      intro h
      exact hbreak (by rw [← String.toList_ofList (l := w), h]; rfl)
    rw [bareKind, if_neg hbreak]
    simp only [Lexeme.WellFormed, String.toList_ofList]
    exact ⟨by simpa using hne, hhead, htext, held⟩

/-- A well-formed word without quotes, as the scanner sees it. -/
theorem Lexeme.WellFormed.bare {x : Lexeme} (hx : x.WellFormed)
    (hkind : ∀ q, x.kind ≠ .quoted q) :
    Bare x.text.toList ∧ x.kind = bareKind x.text.toList ∧ x.source = x.text := by
  obtain ⟨text, kind⟩ := x
  cases kind with
  | quoted q => exact absurd rfl (hkind q)
  | bare =>
    obtain ⟨hne, hhead, hbreak, held⟩ := hx
    refine ⟨⟨by simpa using hne, hhead, held⟩, ?_, rfl⟩
    have : text.toList ≠ ['-', '-'] := fun h => hbreak (String.toList_inj.mp h)
    simp [bareKind, this]
  | «break» =>
    change text = "--" at hx
    subst hx
    exact ⟨⟨by decide, by decide, by decide⟩, by decide, rfl⟩

/-- **One word.** A word in front of white space or nothing is read as that word. -/
theorem tokensOf_word {x : Lexeme} (hx : x.WellFormed) {rest : List Char} (apart : Apart rest)
    (last : endsEscaped x.text = true → rest = []) (pos : Nat) :
    tokensOf (pieces pos (x.source.toList ++ rest))
      = (tokensOf (pieces (pos + x.source.length) rest)).map (x.at pos :: ·) := by
  by_cases hquoted : ∃ q, x.kind = .quoted q
  · obtain ⟨text, kind⟩ := x
    obtain ⟨q, rfl⟩ := hquoted
    have hpos : pos + 2 + text.toList.length
        = pos + (Lexeme.mk text (.quoted q)).source.length := by
      rw [Lexeme.length_source_quoted, String.length_toList]; omega
    rw [Lexeme.source_quoted, List.cons_append, List.append_assoc, List.singleton_append,
      pieces_quoted hx, tokensOf_cons (fun _ => rfl) ((glued_pieces_iff rfl).mpr apart),
      token_quoted, String.ofList_toList, hpos]
  · obtain ⟨hbare, hkind, hsource⟩ := hx.bare (fun q h => hquoted ⟨q, h⟩)
    have hx' : Lexeme.mk x.text (bareKind x.text.toList) = x := by rw [← hkind]
    rw [hsource, pieces_bare hbare ⟨apart, last⟩, tokensOf_cons (by simp) (glued_bare _ rfl _),
      token_bare, String.ofList_toList, hx', String.length_toList]

/-! ## Layouts -/

/-- A word of a line, with the white space behind it. -/
structure Spaced where
  word : Lexeme
  gap : String
  deriving DecidableEq, Repr

/-- A line in parts: the white space in front of its words, and the words. -/
structure Layout where
  lead : String
  words : List Spaced
  deriving DecidableEq, Repr

/-- Words and gaps, written one behind the other. -/
def write : List Spaced → String
  | [] => ""
  | w :: ws => w.word.source ++ w.gap ++ write ws

/-- The tokens of words that are written from a place on. -/
def place (pos : Nat) : List Spaced → List Token
  | [] => []
  | w :: ws => w.word.at pos :: place (pos + w.word.source.length + w.gap.length) ws

def Layout.line (l : Layout) : String := l.lead ++ write l.words

/-- The words of a layout, each with the span of its source. -/
def Layout.tokens (l : Layout) : List Token := place l.lead.length l.words

def Blank (gap : String) : Prop := gap.toList.all isSpace = true

instance (gap : String) : Decidable (Blank gap) :=
  inferInstanceAs (Decidable (gap.toList.all isSpace = true))

/-- Only behind the last word may the gap be empty, and only with nothing behind it may a
word end in a backslash that would hold on to what follows. -/
def Separated : List Spaced → Prop
  | [] => True
  | w :: ws =>
    (w.gap = "" → ws = []) ∧ (endsEscaped w.word.text = true → w.gap = "") ∧ Separated ws

instance decidableSeparated : (ws : List Spaced) → Decidable (Separated ws)
  | [] => inferInstanceAs (Decidable True)
  | w :: ws =>
    have := decidableSeparated ws
    inferInstanceAs (Decidable ((w.gap = "" → ws = []) ∧
      (endsEscaped w.word.text = true → w.gap = "") ∧ Separated ws))

/-- A layout whose words can be told apart again. -/
structure Layout.Valid (l : Layout) : Prop where
  lead : Blank l.lead
  words : ∀ w ∈ l.words, w.word.WellFormed ∧ Blank w.gap
  separated : Separated l.words

theorem lexeme_place (pos : Nat) (ws : List Spaced) :
    (place pos ws).map Token.lexeme = ws.map Spaced.word := by
  induction ws generalizing pos with
  | nil => rfl
  | cons w ws ih => rw [place, List.map_cons, List.map_cons, ih, Lexeme.lexeme_at]

/-- A token's span is exactly the span of its source. -/
def Token.StandsIn (t : Token) (line : String) : Prop :=
  ∃ before after, line = before ++ t.source ++ after ∧ t.start = before.length
    ∧ t.stop = (before.length + t.source.length : Nat)

theorem standsIn_place (lead : String) (ws : List Spaced) :
    ∀ t ∈ place lead.length ws, t.StandsIn (lead ++ write ws) := by
  induction ws generalizing lead with
  | nil => simp [place]
  | cons w ws ih =>
    intro t ht
    rcases List.mem_cons.mp ht with rfl | ht
    · exact ⟨lead, w.gap ++ write ws, by simp [write, Token.source_eq, Lexeme.lexeme_at,
        String.append_assoc], rfl, rfl⟩
    · have hlen : lead.length + w.word.source.length + w.gap.length
          = (lead ++ w.word.source ++ w.gap).length := by simp
      have hline : lead ++ write (w :: ws) = lead ++ w.word.source ++ w.gap ++ write ws := by
        simp [write, String.append_assoc]
      rw [hlen] at ht
      rw [hline]
      exact ih _ t ht

/-! ## Reading what is written -/

theorem Blank.apart {gap : String} (h : Blank gap) {rest : List Char}
    (hrest : gap = "" → rest = []) : Apart (gap.toList ++ rest) := by
  cases hg : gap.toList with
  | nil => rw [hrest (String.toList_eq_nil_iff.mp hg)]; exact apart_nil
  | cons c cs =>
    rw [Blank, hg, List.all_cons, Bool.and_eq_true] at h
    exact apart_cons.mpr h.1

/-- Words that are written are read back, each at its place. -/
theorem tokensOf_write {ws : List Spaced}
    (hwords : ∀ w ∈ ws, w.word.WellFormed ∧ Blank w.gap) (hsep : Separated ws) (pos : Nat) :
    tokensOf (pieces pos (write ws).toList) = .ok (place pos ws) := by
  induction ws generalizing pos with
  | nil => rw [write, String.toList_empty, pieces_nil, tokensOf, place]
  | cons w ws ih =>
    obtain ⟨hgap, hlast, hsep⟩ := hsep
    obtain ⟨hword, hblank⟩ := hwords w (by simp)
    have hend : w.gap = "" → (write ws).toList = [] := by
      intro h; rw [hgap h, write, String.toList_empty]
    have hrest : endsEscaped w.word.text = true → w.gap.toList ++ (write ws).toList = [] := by
      intro h; rw [hend (hlast h), hlast h]; rfl
    rw [write, String.toList_append, String.toList_append, List.append_assoc,
      tokensOf_word hword (hblank.apart hend) hrest, pieces_blank hblank,
      ih (fun v hv => hwords v (by simp [hv])) hsep, String.length_toList, place]
    rfl

/-- **Words that are laid out are read back.** A line made of well-formed words, white
space between any two of them, before and behind, is read as these words in order, each
with the span of its source; a word that ends in an odd run of backslashes can only be
the last, with nothing behind it. -/
theorem tokenize_line (l : Layout) (h : l.Valid) :
    tokenize l.line = .ok l.tokens ∧ l.tokens.map Token.lexeme = l.words.map Spaced.word
      ∧ ∀ t ∈ l.tokens, t.StandsIn l.line := by
  refine ⟨?_, lexeme_place _ _, standsIn_place _ _⟩
  rw [tokenize, Layout.line, String.toList_append, pieces_blank h.lead,
    tokensOf_write h.words h.separated, String.length_toList, Nat.zero_add, Layout.tokens]

/-- Of the three backslashes at the end, the first two are a pair and the last one has
nothing to hold on to. -/
theorem tokenize_line_loose_backslash :
    Layout.Valid ⟨" ", [⟨⟨"it\\'s", .quoted .single⟩, "\t "⟩, ⟨⟨"--", .break⟩, " "⟩,
      ⟨⟨"a\\ b\\\\\\", .bare⟩, ""⟩]⟩ ∧
    tokenize " 'it\\'s'\t -- a\\ b\\\\\\" = .ok [⟨"it\\'s", 1, 8, .quoted .single⟩,
      ⟨"--", 10, 12, .break⟩, ⟨"a\\ b\\\\\\", 13, 20, .bare⟩] := by
  have h : Layout.Valid ⟨" ", [⟨⟨"it\\'s", .quoted .single⟩, "\t "⟩, ⟨⟨"--", .break⟩, " "⟩,
      ⟨⟨"a\\ b\\\\\\", .bare⟩, ""⟩]⟩ := ⟨by decide, by decide, by decide⟩
  exact ⟨h, (tokenize_line _ h).1⟩

/-! ## Every line that is read is laid out -/

theorem Lexeme.WellFormed.not_apart {x : Lexeme} (hx : x.WellFormed) (rest : List Char) :
    ¬ Apart (x.source.toList ++ rest) := by
  by_cases hquoted : ∃ q, x.kind = .quoted q
  · obtain ⟨text, kind⟩ := x
    obtain ⟨q, rfl⟩ := hquoted
    rw [Lexeme.source_quoted, List.cons_append, apart_cons, q.isSpace_char]
    simp
  · obtain ⟨hbare, -, hsource⟩ := hx.bare (fun q h => hquoted ⟨q, h⟩)
    rw [hsource]
    cases htext : x.text.toList with
    | nil => exact absurd htext hbare.1
    | cons c w =>
      rw [htext] at hbare
      rw [List.cons_append, apart_cons, hbare.isSpace_head]
      simp

/-- One word more in front of a line. -/
def Layout.cons (x : Lexeme) (l : Layout) : Layout := ⟨"", ⟨x, l.lead⟩ :: l.words⟩

theorem Layout.line_cons (x : Lexeme) (l : Layout) : (l.cons x).line = x.source ++ l.line := by
  simp [Layout.cons, Layout.line, write, String.append_assoc]

theorem Layout.Valid.cons {l : Layout} (h : l.Valid) {x : Lexeme} (hx : x.WellFormed)
    (apart : Apart l.line.toList) (last : endsEscaped x.text = true → l.line = "") :
    (l.cons x).Valid where
  lead := by simp [Layout.cons, Blank]
  words := by
    intro w hw
    rcases List.mem_cons.mp hw with rfl | hw
    · exact ⟨hx, h.lead⟩
    · exact h.words w hw
  separated := by
    refine ⟨fun hlead => ?_, fun hends => ?_, h.separated⟩
    · -- without a gap the next word would have to begin with white space
      cases hws : l.words with
      | nil => rfl
      | cons w ws =>
        have hline : l.line.toList = w.word.source.toList ++ (w.gap ++ write ws).toList := by
          change l.lead = "" at hlead
          simp [Layout.line, hlead, hws, write]
        rw [hline] at apart
        exact absurd apart ((h.words w (by simp [hws])).1.not_apart _)
    · have hline := congrArg String.toList (last hends)
      simp only [Layout.line, String.toList_append, String.toList_empty,
        List.append_eq_nil_iff] at hline
      exact String.toList_eq_nil_iff.mp hline.1

theorem Layout.Valid.space {l : Layout} (h : l.Valid) {c : Char} (hc : isSpace c = true) :
    Layout.Valid ⟨String.singleton c ++ l.lead, l.words⟩ where
  lead := by
    have hlead : l.lead.toList.all isSpace = true := h.lead
    simp [Blank, hc, hlead]
  words := h.words
  separated := h.separated

/-- What is read of a line are the words of a layout of that line. -/
theorem exists_layout {pos : Nat} {cs : List Char} {ts : List Token}
    (h : tokensOf (pieces pos cs) = .ok ts) :
    ∃ l : Layout, l.Valid ∧ l.line.toList = cs ∧ ts = place (pos + l.lead.length) l.words := by
  induction pos, cs using line_induction generalizing ts with
  | nil pos =>
    rw [pieces_nil, tokensOf, Except.ok.injEq] at h
    exact ⟨⟨"", []⟩, ⟨by decide, by simp, trivial⟩, rfl, h.symm⟩
  | space pos c cs hc ih =>
    rw [pieces_space hc] at h
    obtain ⟨l, hl, hline, rfl⟩ := ih h
    refine ⟨⟨String.singleton c ++ l.lead, l.words⟩, hl.space hc, ?_, ?_⟩
    · rw [← hline]; simp [Layout.line]
    · simp only [String.length_append, String.length_singleton]
      congr 1
      omega
  | unclosed pos q w held => simp [pieces_unclosed held, tokensOf] at h
  | quoted pos q w rest hw ih =>
    rw [pieces_quoted hw] at h
    obtain ⟨hglued, us, hus, rfl⟩ := tokensOf_cons_eq_ok h
    obtain ⟨l, hl, hline, rfl⟩ := ih hus
    have hx : (Lexeme.mk (String.ofList w) (.quoted q)).WellFormed := by
      simpa [Lexeme.WellFormed, endsEscaped_eq, Enclosed] using hw
    have apart : Apart rest := (glued_pieces_iff rfl).mp hglued
    refine ⟨l.cons ⟨String.ofList w, .quoted q⟩, hl.cons hx (by rwa [hline]) ?_, ?_, ?_⟩
    · intro hends; simp [endsEscaped_eq, hw.2] at hends
    · rw [Layout.line_cons, String.toList_append, Lexeme.source_quoted, hline]; simp
    · have hpos : pos + 2 + w.length
          = pos + (Lexeme.mk (String.ofList w) (.quoted q)).source.length := by
        rw [Lexeme.length_source_quoted, String.length_ofList]; omega
      rw [token_quoted, hpos]
      rfl
  | bare pos w rest hw ends ih =>
    rw [pieces_bare hw ends] at h
    obtain ⟨-, us, hus, rfl⟩ := tokensOf_cons_eq_ok h
    obtain ⟨l, hl, hline, rfl⟩ := ih hus
    refine ⟨l.cons ⟨String.ofList w, bareKind w⟩,
      hl.cons hw.wellFormed (by rw [hline]; exact ends.1) ?_, ?_, ?_⟩
    · intro hends
      rw [endsEscaped_eq, String.toList_ofList] at hends
      rw [ends.2 hends] at hline
      exact String.toList_eq_nil_iff.mp hline
    · rw [Layout.line_cons, String.toList_append, Lexeme.source_bareKind,
        String.toList_ofList, hline]
    · have hpos : pos + w.length
          = pos + (Lexeme.mk (String.ofList w) (bareKind w)).source.length := by
        rw [Lexeme.source_bareKind, String.length_ofList]
      rw [token_bare, hpos]
      rfl

/-! ## Words with single spaces -/

/-- The same words with a single space between two of them and nothing behind the last. -/
def singleSpaced : List Spaced → List Spaced
  | [] => []
  | [w] => [⟨w.word, ""⟩]
  | w :: v :: ws => ⟨w.word, " "⟩ :: singleSpaced (v :: ws)

theorem word_singleSpaced (ws : List Spaced) :
    (singleSpaced ws).map Spaced.word = ws.map Spaced.word := by
  fun_induction singleSpaced ws with
  | case1 => rfl
  | case2 w => rfl
  | case3 w v ws ih => rw [List.map_cons, ih]; rfl

theorem write_singleSpaced (ws : List Spaced) :
    write (singleSpaced ws) = " ".intercalate (ws.map fun w => w.word.source) := by
  fun_induction singleSpaced ws with
  | case1 => rfl
  | case2 w => simp [write]
  | case3 w v ws ih =>
    rw [write, ih]
    simp only [List.map_cons, String.intercalate_cons_cons]

/-- Single spaces keep words apart that were apart before: a word that could only be the
last still is. -/
theorem Separated.singleSpaced {ws : List Spaced} (h : Separated ws) :
    Separated (singleSpaced ws) := by
  fun_induction Line.singleSpaced ws with
  | case1 => trivial
  | case2 w => exact ⟨fun _ => rfl, fun _ => rfl, trivial⟩
  | case3 w v ws ih =>
    obtain ⟨hgap, hlast, hrest⟩ := h
    refine ⟨fun h => absurd h (show " " ≠ "" by decide), fun hends => ?_, ih hrest⟩
    exact absurd (hgap (hlast hends)) (by simp)

theorem words_singleSpaced {ws : List Spaced}
    (h : ∀ w ∈ ws, w.word.WellFormed ∧ Blank w.gap) :
    ∀ w ∈ singleSpaced ws, w.word.WellFormed ∧ Blank w.gap := by
  fun_induction singleSpaced ws with
  | case1 => simp
  | case2 w =>
    intro v hv
    rw [List.mem_singleton.mp hv]
    exact ⟨(h w (by simp)).1, by simp [Blank]⟩
  | case3 w v ws ih =>
    intro u hu
    rcases List.mem_cons.mp hu with rfl | hu
    · exact ⟨(h w (by simp)).1, show Blank " " by decide⟩
    · exact ih (fun x hx => h x (by simp [hx])) u hu

/-- **Reading loses nothing.** A line that can be read is the sources of its tokens, with
white space between any two of them, before and behind, and every token's span is that of
its source. Written with single spaces the tokens are read as the same words again. -/
theorem tokenize_lossless (line : String) (ts : List Token) (h : tokenize line = .ok ts) :
    (∃ l : Layout, l.Valid ∧ line = l.line ∧ ts = l.tokens) ∧
    (∀ t ∈ ts, t.StandsIn line) ∧
    ∃ us, tokenize (" ".intercalate (ts.map Token.source)) = .ok us ∧
      us.map Token.lexeme = ts.map Token.lexeme := by
  obtain ⟨l, hl, hline, hts⟩ := exists_layout h
  rw [Nat.zero_add] at hts
  have hsources : ts.map Token.source = l.words.map fun w => w.word.source := by
    have hlex : ts.map Token.lexeme = l.words.map Spaced.word := by rw [hts, lexeme_place]
    have hmap := congrArg (List.map Lexeme.source) hlex
    rw [List.map_map, List.map_map] at hmap
    exact hmap
  have hread : tokenize (" ".intercalate (ts.map Token.source))
      = .ok (place 0 (singleSpaced l.words)) := by
    rw [hsources, ← write_singleSpaced]
    exact tokensOf_write (words_singleSpaced hl.words) hl.separated.singleSpaced 0
  refine ⟨⟨l, hl, (String.toList_inj.mp hline).symm, hts⟩, ?_, _, hread, ?_⟩
  · rw [← String.toList_inj.mp hline, hts]
    exact standsIn_place l.lead l.words
  · rw [lexeme_place, word_singleSpaced, hts, lexeme_place]

/-- The tab behind the quotes becomes a space; the one behind the backslash is part of its
word and stays. -/
theorem tokenize_lossless_tabs :
    tokenize "\"c d\"\ta\\\tb x\\" = .ok [⟨"c d", 0, 5, .quoted .double⟩,
      ⟨"a\\\tb", 6, 10, .bare⟩, ⟨"x\\", 11, 13, .bare⟩] ∧
    ∃ us, tokenize "\"c d\" a\\\tb x\\" = .ok us ∧
      us.map Token.lexeme
        = [⟨"c d", .quoted .double⟩, ⟨"a\\\tb", .bare⟩, ⟨"x\\", .bare⟩] := by
  have h : tokenize "\"c d\"\ta\\\tb x\\" = .ok [⟨"c d", 0, 5, .quoted .double⟩,
      ⟨"a\\\tb", 6, 10, .bare⟩, ⟨"x\\", 11, 13, .bare⟩] := by
    simp [tokenize, pieces, scanQuoted, scanBare, isSpace, isHeld, Quote.ofChar?, Quote.char,
      tokensOf, Piece.token, Piece.glued, Except.map]
  exact ⟨h, (tokenize_lossless _ _ h).2.2⟩

end Courier.Line
