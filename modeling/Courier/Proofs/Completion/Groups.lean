/-
Courier.Proofs.Completion.Groups — the names of commands are completed exactly.

As long as the words of a line have led to a group and not yet to a command, completion offers
the names in that group. `command_names_are_completed` says what comes of this for every line:
which names are offered, what they replace, and where the words lead once one of them is taken.

Nothing can go wrong with a name because of two properties of the tree, which are checked for
every group at once (`orderly_root`): no two names of a group are the same, and every name is a
word that can be put into a line in any way that a word is begun (`PlainName`).
-/
import Courier.Proofs.Completion.Acceptance

namespace Courier

open Courier.Grammar Courier.Line Courier.Text

/-! ## Names in the tree -/

/-- A name that is complete once it is written, and may stand between quotes of either kind. -/
structure PlainName (name : String) : Prop where
  closed : openEnded name = false
  unescaped : endsEscaped name = false
  unquoted : '\'' ∉ name.toList ∧ '"' ∉ name.toList

instance (name : String) : Decidable (PlainName name) :=
  decidable_of_iff
    (openEnded name = false ∧ endsEscaped name = false
      ∧ ('\'' ∉ name.toList ∧ '"' ∉ name.toList))
    ⟨fun ⟨closed, unescaped, unquoted⟩ => ⟨closed, unescaped, unquoted⟩,
      fun ⟨closed, unescaped, unquoted⟩ => ⟨closed, unescaped, unquoted⟩⟩

theorem PlainName.quote_not_mem {name : String} (h : PlainName name) (q : Quote) :
    q.char ∉ name.toList := by
  cases q with
  | single => exact h.unquoted.1
  | double => exact h.unquoted.2

/-- A group whose names can be told apart and put into a line. -/
structure Grammar.CommandSpec.Orderly (s : CommandSpec) : Prop where
  nodup : (s.children.flatMap CommandSpec.names).Nodup
  plain : ∀ name ∈ s.children.flatMap CommandSpec.names, PlainName name

instance (s : CommandSpec) : Decidable s.Orderly :=
  decidable_of_iff
    ((s.children.flatMap CommandSpec.names).Nodup
      ∧ ∀ name ∈ s.children.flatMap CommandSpec.names, PlainName name)
    ⟨fun ⟨nodup, plain⟩ => ⟨nodup, plain⟩, fun ⟨nodup, plain⟩ => ⟨nodup, plain⟩⟩

/-- Every group of the shell is in order. -/
theorem orderly_root : root.spec.everywhere (fun s => decide s.Orderly) = true := by decide

theorem orderly_walk (tokens : List Token) : (walk tokens).node.spec.Orderly := by
  have hwalk := CommandSpec.everywhere_iff.mp (everywhere_walkFrom orderly_root tokens)
  exact of_decide_eq_true hwalk.1

/-! ## The child with a name -/

/-- A name in an orderly group is the name of one child, and leads to it. -/
theorem exists_child_of_mem {n : Node} (h : n.spec.Orderly) {name : String}
    (hname : name ∈ n.childNames) :
    ∃ child ∈ n.children, n.child? name = some child ∧
      ∀ other ∈ n.children, name ∈ other.spec.names ↔ other = child := by
  obtain ⟨c, hc, hnames⟩ := List.mem_flatMap.mp hname
  have hsome : (n.child? name).isSome = true :=
    List.find?_isSome.mpr ⟨n.below c, List.mem_map_of_mem hc, by simpa [Node.below] using hnames⟩
  obtain ⟨child, hchild⟩ := Option.isSome_iff_exists.mp hsome
  have hmem := List.mem_of_find?_eq_some hchild
  have hbears : name ∈ child.spec.names := by simpa using List.find?_some hchild
  refine ⟨child, hmem, hchild, ?_⟩
  intro other hother
  constructor
  · intro hother'
    obtain ⟨d, hd, rfl⟩ := List.mem_map.mp hother
    obtain ⟨d', hd', rfl⟩ := List.mem_map.mp hmem
    rw [eq_of_nodup_flatMap h.nodup hd hd' hother' hbears]
  · rintro rfl
    exact hbears

/-- Behind words that lead to a group, the name of a child leads to that child. -/
theorem walk_append_name {tokens : List Token} (hmatched : (walk tokens).matched = true)
    (hgroup : (walk tokens).node.isLeaf = false) {word : Token} {child : Node}
    (hchild : (walk tokens).node.child? word.text = some child) :
    walk (tokens ++ [word]) = ⟨child, [], true⟩ := by
  unfold walk at *
  rw [walkFrom_append, if_pos (by simp [hmatched, hgroup]), walkFrom, if_neg (by simp [hgroup]),
    hchild]
  rfl

/-! ## The names that are offered -/

theorem eraseDups_of_nodup {names : List String} (h : names.Nodup) : names.eraseDups = names := by
  induction names with
  | nil => rfl
  | cons name names ih =>
    obtain ⟨hnew, hrest⟩ := List.nodup_cons.mp h
    have hkept : names.filter (fun other => !other == name) = names := by
      rw [List.filter_eq_self]
      intro other hother
      have hne : other ≠ name := by
        rintro rfl
        exact hnew hother
      simp [hne]
    rw [List.eraseDups_cons, hkept, ih hrest]

/-- The candidates for names that are all different are those that go on from what has been
typed, in their order. -/
theorem display_valueCandidates {names : List String} (h : names.Nodup) (tail : Option Tail) :
    (valueCandidates "" tail names).map Candidate.display
      = names.filter (startsWith ((tail.map Tail.text).getD "")) := by
  simp [valueCandidates, eraseDups_of_nodup h, Function.comp_def]

/-- A plain name that is put into the line is read as one word more. -/
theorem accept_of_plain (typed : String) (ask : Query → List String) {c : Candidate}
    (hc : c.replacement = render c.display (tokenizeUnfinished typed).2 true)
    (hplain : PlainName c.display) :
    ∃ word, word.text = c.display ∧
      tokenizeUnfinished (accept typed ask c) = ((tokenizeUnfinished typed).1 ++ [word], none) := by
  have hword := hc.trans (render_finished hplain.closed hplain.unescaped)
  have hx : (writtenWord c.display (tokenizeUnfinished typed).2).WellFormed :=
    (wellFormed_writtenWord_iff hplain.unescaped).mpr
      (fun q _ => quotesHeld_of_not_mem (hplain.quote_not_mem q))
  obtain ⟨place, hread⟩ := accept_of_wellFormed typed ask hword hx hplain.unescaped
  exact ⟨_, rfl, hread⟩

/-- **The names of commands are completed exactly.** Let the complete words of a line lead to a
group. Then completion at its end replaces the last word, if there is no white space behind it,
and offers the names in the group that begin with that word, in their order and none twice. With
one of them in its place, the line has its words and one more with this name, and these lead to
the child of the group that bears it. -/
theorem command_names_are_completed {typed : String} (ask : Query → List String)
    (hmatched : (walk (tokenizeUnfinished typed).1).matched = true)
    (hgroup : (walk (tokenizeUnfinished typed).1).node.isLeaf = false) :
    let tokens := (tokenizeUnfinished typed).1
    let tail := (tokenizeUnfinished typed).2
    let group := (walk tokens).node
    let offered := complete typed typed.length ask
    offered.start = (tail.map Tail.start).getD typed.length ∧ offered.cursor = typed.length ∧
      offered.candidates.map Candidate.display
        = group.childNames.filter (startsWith ((tail.map Tail.text).getD "")) ∧
      (offered.candidates.map Candidate.display).Nodup ∧
      ∀ c ∈ offered.candidates, ∃ word, ∃ child ∈ group.children,
        tokenizeUnfinished (accept typed ask c) = (tokens ++ [word], none) ∧
        word.text = c.display ∧ walk (tokens ++ [word]) = ⟨child, [], true⟩ ∧
        ∀ other ∈ group.children, c.display ∈ other.spec.names ↔ other = child := by
  intro tokens tail group offered
  have horderly : group.spec.Orderly := orderly_walk tokens
  have hoffered : offered = ⟨(tail.map Tail.start).getD typed.length, typed.length,
      valueCandidates "" tail group.childNames⟩ := by
    show complete typed typed.length ask = _
    rw [complete_end, offer_of_group hmatched hgroup]
    rfl
  have hdisplay : offered.candidates.map Candidate.display
      = group.childNames.filter (startsWith ((tail.map Tail.text).getD "")) := by
    rw [hoffered]
    exact display_valueCandidates horderly.nodup tail
  refine ⟨by rw [hoffered], by rw [hoffered], hdisplay, ?_, ?_⟩
  · rw [hdisplay]
    exact horderly.nodup.filter _
  · intro c hc
    have hname : c.display ∈ group.childNames := by
      have hmem := List.mem_map_of_mem (f := Candidate.display) hc
      rw [hdisplay] at hmem
      exact List.mem_of_mem_filter hmem
    have hreplacement : c.replacement = render c.display tail true := by
      rw [hoffered] at hc
      obtain ⟨v, -, rfl⟩ := List.mem_map.mp hc
      simp
    obtain ⟨word, htext, hread⟩ := accept_of_plain typed ask hreplacement (horderly.plain _ hname)
    obtain ⟨child, hmem, hchild, hbears⟩ := exists_child_of_mem horderly hname
    rw [← htext] at hchild
    exact ⟨word, child, hmem, hread, htext, walk_append_name hmatched hgroup hchild, hbears⟩

/-- The name of the group is in quotes, and the name of a child is begun right behind them in
quotes of the other kind. -/
theorem command_names_are_completed_glued :
    let typed := "'print'\"re"
    let ask : Query → List String := fun _ => []
    let tokens := (tokenizeUnfinished typed).1
    let offered := complete typed typed.length ask
    (walk tokens).matched = true ∧ (walk tokens).node.isLeaf = false ∧ offered.start = 7 ∧
      offered.candidates.map Candidate.display = ["requests", "request", "reqs", "req"] ∧
      ∀ c ∈ offered.candidates, ∃ word child,
        tokenizeUnfinished (accept typed ask c) = (tokens ++ [word], none) ∧
        walk (tokens ++ [word]) = ⟨child, [], true⟩ := by
  intro typed ask tokens offered
  have hread : tokenizeUnfinished typed
      = ([⟨"print", 0, 7, .quoted .single⟩], some ⟨"re", 7, some .double, false⟩) := by
    decide +kernel
  have hmatched : (walk tokens).matched = true := by
    show (walk (tokenizeUnfinished typed).1).matched = true
    rw [hread]
    rfl
  have hgroup : (walk tokens).node.isLeaf = false := by
    show (walk (tokenizeUnfinished typed).1).node.isLeaf = false
    rw [hread]
    rfl
  obtain ⟨hstart, -, hdisplay, -, htaken⟩ := command_names_are_completed ask hmatched hgroup
  refine ⟨hmatched, hgroup, ?_, ?_, ?_⟩
  · rw [hread] at hstart
    exact hstart
  · rw [hread] at hdisplay
    exact hdisplay.trans (by decide)
  · intro c hc
    obtain ⟨word, child, -, hword, -, hwalk, -⟩ := htaken c hc
    exact ⟨word, child, hword, hwalk⟩

end Courier
