/-
Courier.Completion — what may be typed next.

Completion works on the part of a line in front of the cursor. It reads the words
of that part with the reader that refuses nothing, follows them down the tree of
commands, feeds what is left to the builder of the command, and asks the builder
what it expects. The answer is an `Offer`: names known from the grammar, or a `Query`
about names that only the store knows.

* `offer tokens tail` is what the words call for.
* `candidates offer ask tail` turns it into candidates: those of the values that go on
  from what has been typed, written so that they can stand in the line. `ask` answers
  the query.
* `complete line cursor ask` puts the two together, with the part of the line that a
  candidate replaces.
* `completeForEditor line cursor ask` gives an editor the candidates in the form in which
  it takes them, with places counted from its cursor. A cursor outside the line is a
  `CursorFault`.

A line that no command begins with calls for nothing, and neither does one that the
builder refuses.
-/
import Courier.Command
import Courier.Failure
import Courier.Line.Quoting

namespace Courier

open Courier.Grammar Courier.Line Courier.Text

/-! ## Questions -/

/-- The part of a command that a value is for. -/
inductive Field where
  /-- A positional value. -/
  | arg (k : SlotRole)
  /-- The value of an option. -/
  | opt (k : OptionRole)
  deriving DecidableEq, Repr

/-- A question about the values that fit a part of a command. -/
structure Query where
  /-- The command. -/
  kind : CommandKind
  /-- The part of it. -/
  field : Field
  /-- What has been typed of it. -/
  snapshot : Snapshot
  deriving DecidableEq, Repr

/-- What the words in front of the cursor call for. -/
inductive Offer where
  /-- Nothing. -/
  | nothing
  /-- One of these values; `lead` stands in front of each in the same word. -/
  | values (lead : String) (names : List String)
  /-- One of these options. -/
  | options (opts : List OptionSpec)
  /-- One of the values that answer the question. -/
  | ask (lead : String) (query : Query)
  deriving DecidableEq, Repr

/-- The offer of fixed values, or the question if there are none. -/
def Offer.fixedOr (lead : String) (fixed : List String) (query : Query) : Offer :=
  if fixed.isEmpty then .ask lead query else .values lead fixed

/-- What a builder calls for. -/
def offerOf (b : Builder) (tail : Option Tail) : Offer :=
  match b.expect tail with
  | .nothing => .nothing
  | .optionName opts => .options opts
  | .positional a => .fixedOr "" a.choices ⟨b.spec.kind, .arg a.key, b.snapshot⟩
  | .optionValue o lead => .fixedOr lead o.suggestions ⟨b.spec.kind, .opt o.key, b.snapshot⟩

/-- What the words in front of the cursor call for. -/
def offer (tokens : List Token) (tail : Option Tail) : Offer :=
  let w := walk tokens
  if !w.matched then .nothing
  else if !w.node.isLeaf then .values "" w.node.childNames
  else
    match { node := w.node : Builder }.feedAll w.remaining with
    | (_, some _) => .nothing
    | (b, none) => offerOf b tail

/-! ## Candidates -/

/-- One thing that may be typed next. -/
structure Candidate where
  /-- What is shown. -/
  display : String
  /-- What is put into the line. -/
  replacement : String
  /-- One line on it, if there is anything to say. -/
  note : String := ""
  deriving DecidableEq, Repr

/-- Whether a value is meant to be gone on with, so that no space follows it. -/
def openEnded (value : String) : Bool :=
  match value.toList.getLast? with
  | some c => c = '-' || c = '=' || c = ':'
  | none => false

/-- The quote of a tail, if the value can be written between such quotes. -/
def tailQuote? (value : String) (tail : Option Tail) : Option Quote :=
  (tail.bind Tail.quote).filter fun q => !value.toList.contains q.char && !endsEscaped value

/-- A text without its last character. -/
def dropLast (s : String) : String := String.ofList s.toList.dropLast

/--
A value as it is put into the line. It keeps the quote that has been typed if it can
be written inside it. A value that is gone on with has no closing quote. Behind a
complete value comes a space, if asked for.
-/
def render (value : String) (tail : Option Tail) (space : Bool) : String :=
  let opened := openEnded value
  let escaped := endsEscaped value
  let text :=
    match tailQuote? value tail with
    | some q => if opened then String.singleton q.char ++ value else enclose q value
    | none =>
      if needsQuotes value && !escaped then
        if opened then dropLast (quote value) else quote value
      else value
  if space && !opened && !escaped then text ++ " " else text

/-- The candidates among values, none twice; `lead` stands in front of each. -/
def valueCandidates (lead : String) (tail : Option Tail) (names : List String) : List Candidate :=
  let typed := (tail.map Tail.text).getD ""
  (names.eraseDups.filter (fun v => startsWith typed (lead ++ v))).map fun v =>
    { display := v, replacement := render (lead ++ v) tail true }

/-- The candidates among the spellings of an option. -/
def optionCandidates (tail : Option Tail) (o : OptionSpec) : List Candidate :=
  let typed := (tail.map Tail.text).getD ""
  (o.spellings.filter (fun s => startsWith typed s)).map fun s =>
    { display := s, replacement := render s tail (!o.takesValue), note := o.help }

/-- The candidates of an offer. -/
def candidates (ask : Query → List String) (tail : Option Tail) : Offer → List Candidate
  | .nothing => []
  | .values lead names => valueCandidates lead tail names
  | .options opts => opts.flatMap (optionCandidates tail)
  | .ask lead query => valueCandidates lead tail (ask query)

/-! ## Completion of a line -/

/-- What may be typed at a place of a line. -/
structure Completion where
  /-- The place where a candidate begins. -/
  start : Nat
  /-- The cursor, where what it replaces ends. -/
  cursor : Nat
  /-- What may be typed. -/
  candidates : List Candidate
  deriving DecidableEq, Repr

/-- The cursor at or in a line that is nearest to the one asked for. -/
def clampCursor (line : String) (cursor : Int) : Nat :=
  min cursor.toNat line.length

/-- The part of a line in front of the cursor. -/
def beforeCursor (line : String) (cursor : Int) : String :=
  String.ofList (line.toList.take (clampCursor line cursor))

/-- What the part of a line in front of the cursor calls for. -/
def offerAt (line : String) (cursor : Int) : Offer :=
  let (tokens, tail) := tokenizeUnfinished (beforeCursor line cursor)
  offer tokens tail

/-- What may be typed at the cursor. -/
def complete (line : String) (cursor : Int) (ask : Query → List String) : Completion :=
  let stop := clampCursor line cursor
  let (tokens, tail) := tokenizeUnfinished (beforeCursor line cursor)
  { start := (tail.map Tail.start).getD stop
    cursor := stop
    candidates := candidates ask tail (offer tokens tail) }

/-! ## Editors -/

/-- A candidate as an editor takes it. -/
structure Insertion where
  /-- What is put into the line. -/
  text : String
  /-- Where it begins, counted from the cursor; what lies between is replaced. -/
  start : Int
  /-- What is shown. -/
  display : String
  /-- One line on it, if there is anything to say. -/
  note : String
  deriving DecidableEq, Repr

/-- Checks that the cursor of an editor is not behind the end of its line. -/
def checkCursor (line : String) (cursor : Int) : Except CursorFault Unit :=
  if (line.length : Int) < cursor then .error (.behindEnd cursor line.length) else .ok ()

/-- The candidates as an editor takes them; none of them may begin behind its cursor. -/
def Completion.insertions (c : Completion) (cursor : Int) : Except CursorFault (List Insertion) :=
  if cursor < c.start && !c.candidates.isEmpty then .error .beforeStart
  else
    .ok (c.candidates.map fun x =>
      { text := x.replacement, start := c.start - cursor, display := x.display, note := x.note })

/-- What may be typed at the cursor of an editor. -/
def completeForEditor (line : String) (cursor : Int) (ask : Query → List String) :
    Except CursorFault (List Insertion) := do
  checkCursor line cursor
  (complete line cursor ask).insertions cursor

end Courier
