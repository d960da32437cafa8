/-
Courier.Proofs.Http.Segments — a text is its placeholders and what stands between them.

Two functions look for placeholders: one lists their names, the other puts values in their
place. That they see the same ones is said here of the text itself. `Segmented` is a text that
is cut at placeholders, and it is `Proper` if every name between braces is one and no segment
between them has a placeholder in it. Then there is nothing left to choose: a text is cut
properly in one way (`Segmented.Proper.eq_segments`).

The reason is that placeholders cannot overlap, since no brace stands in a name. So the scanner,
which takes the first one from the left and goes on behind it, reads a proper segmentation off
piece by piece (`Segmented.Proper.parts_source`), and any placeholder, wherever it stands, is one
of those that the scanner takes (`Segmented.Proper.mem_of_occurs`).

`placeholders_listed_and_filled` puts it together.
-/
import Courier.Proofs.Http.Template
import Mathlib.Data.List.TakeWhile

namespace Courier.Http

open Courier.Text

/-! ## Names -/

/-- Characters that are the name of a placeholder. -/
def IsName (name : List Char) : Prop :=
  ∃ c cs, name = c :: cs ∧ isNameStart c = true ∧ ∀ d ∈ cs, isNameChar d = true

theorem IsName.isNameChar {name : List Char} (h : IsName name) {c : Char} (hc : c ∈ name) :
    isNameChar c = true := by
  obtain ⟨first, cs, rfl, hstart, hrest⟩ := h
  cases hc with
  | head => simp [Http.isNameChar, hstart]
  | tail _ hc => exact hrest c hc

/-- A brace is no character of a name. -/
theorem IsName.not_mem_brace {name : List Char} (h : IsName name) :
    '\x7b' ∉ name ∧ '\x7d' ∉ name := by
  constructor
  · intro hopen
    exact absurd (h.isNameChar hopen) (by decide)
  · intro hclose
    exact absurd (h.isNameChar hclose) (by decide)

/-- A placeholder is found where its source stands. -/
theorem hole?_source {name : List Char} (h : IsName name) (rest : List Char) :
    hole? ((Part.hole name).source ++ rest) = some (name, rest) := by
  obtain ⟨c, cs, rfl, hstart, hrest⟩ := h
  have hclose : isNameChar '\x7d' = false := by decide
  have hdrop : (cs ++ '\x7d' :: rest).dropWhile isNameChar = '\x7d' :: rest := by
    rw [List.dropWhile_append_of_pos hrest, List.dropWhile_cons, hclose]
    simp
  have htake : (cs ++ '\x7d' :: rest).takeWhile isNameChar = cs := by
    rw [List.takeWhile_append_of_pos hrest, List.takeWhile_cons, hclose]
    simp
  simp [Part.source, hole?, hstart, hdrop, htake]

/-- What is found is the source of a placeholder with a name. -/
theorem isName_of_hole? {cs name rest : List Char} (h : hole? cs = some (name, rest)) :
    IsName name := by
  unfold hole? at h
  split at h
  next c cs =>
    split at h
    next hstart =>
      split at h
      next =>
        cases h
        exact ⟨c, _, rfl, hstart, fun d hd => List.mem_takeWhile_imp hd⟩
      next => exact nomatch h
    next => exact nomatch h
  next => exact nomatch h

/-! ## Segments -/

/-- No placeholder stands in these characters. -/
def Vacant (cs : List Char) : Prop :=
  ∀ front name behind, IsName name → cs ≠ front ++ ((Part.hole name).source ++ behind)

theorem vacant_nil : Vacant [] := by
  intro front name behind _ h
  simp [Part.source] at h

/-- A text that is cut at placeholders. -/
structure Segmented where
  /-- What stands in front of the first one. -/
  lead : List Char
  /-- The names, each with what stands behind it. -/
  holes : List (List Char × List Char)
  deriving DecidableEq, Repr

namespace Segmented

/-- The names in order. -/
def names (t : Segmented) : List String := t.holes.map fun hole => String.ofList hole.1

/-- The text itself. -/
def source (t : Segmented) : List Char :=
  t.lead ++ t.holes.flatMap fun hole => (Part.hole hole.1).source ++ hole.2

/-- The text with the values of the names that have one; the others stay as they are written. -/
def filled (value? : String → Option String) (t : Segmented) : List Char :=
  t.lead ++ t.holes.flatMap fun hole =>
    (match value? (String.ofList hole.1) with
      | some value => value.toList
      | none => (Part.hole hole.1).source) ++ hole.2

/-- The cuts are at placeholders, and at all of them. -/
structure Proper (t : Segmented) : Prop where
  lead : Vacant t.lead
  holes : ∀ hole ∈ t.holes, IsName hole.1 ∧ Vacant hole.2

/-- The pieces of the text. -/
def pieces (t : Segmented) : List Part :=
  t.lead.map .char ++ t.holes.flatMap fun hole => .hole hole.1 :: hole.2.map .char

end Segmented

/-- The segments that pieces make. -/
def segments : List Part → Segmented
  | [] => ⟨[], []⟩
  | .char c :: ps => ⟨c :: (segments ps).lead, (segments ps).holes⟩
  | .hole name :: ps => ⟨[], (name, (segments ps).lead) :: (segments ps).holes⟩

theorem pieces_segments (ps : List Part) : (segments ps).pieces = ps := by
  induction ps with
  | nil => rfl
  | cons p ps ih =>
    unfold Segmented.pieces at *
    cases p with
    | char c => simp [segments, ih]
    | hole name => simp [segments, ih]

namespace Segmented

theorem source_eq (t : Segmented) : t.source = t.pieces.flatMap Part.source := by
  simp [source, pieces, List.flatMap_map, List.flatMap_assoc, Part.source]

theorem names_eq (t : Segmented) : t.names = t.pieces.filterMap Part.name? := by
  obtain ⟨lead, holes⟩ := t
  have hchars (cs : List Char) : (cs.map Part.char).filterMap Part.name? = [] := by
    simp [List.filterMap_map, Function.comp_def, Part.name?]
  simp only [names, pieces, List.filterMap_append, hchars, List.nil_append]
  induction holes with
  | nil => rfl
  | cons hole holes ih =>
    rw [List.map_cons, List.flatMap_cons, List.filterMap_append, List.filterMap_cons, hchars, ← ih]
    rfl

theorem filled_eq (t : Segmented) (values : List (String × String)) :
    t.filled (fun name => values.lookup name) = t.pieces.flatMap (Part.fill values) := by
  have hpieces : t.pieces.flatMap (Part.fill values)
      = t.lead ++ t.holes.flatMap fun hole => Part.fill values (.hole hole.1) ++ hole.2 := by
    simp [pieces, List.flatMap_map, List.flatMap_assoc, Part.fill]
  exact hpieces.symm

/-- The segments of the pieces of a text are the text as it is cut. -/
theorem segments_pieces (t : Segmented) : segments t.pieces = t := by
  have hlead (lead : List Char) (ps : List Part) : segments (lead.map .char ++ ps)
      = ⟨lead ++ (segments ps).lead, (segments ps).holes⟩ := by
    induction lead with
    | nil => rfl
    | cons c lead ih => simp [segments, ih]
  obtain ⟨lead, holes⟩ := t
  rw [pieces, hlead]
  induction holes generalizing lead with
  | nil => simp [segments]
  | cons hole holes ih =>
    have hrest := ih hole.2
    simp only [Segmented.mk.injEq, List.append_right_eq_self] at hrest
    simp [segments, hlead, hrest]

end Segmented

/-! ## Placeholders do not overlap -/

theorem Vacant.tail {c : Char} {cs : List Char} (h : Vacant (c :: cs)) : Vacant cs := by
  intro front name behind hname hcs
  exact h (c :: front) name behind hname (by rw [hcs, List.cons_append])

/-- No placeholder begins in front of where one may begin. -/
theorem Vacant.hole?_eq_none {c : Char} {cs rest : List Char} (h : Vacant (c :: cs))
    (hrest : ∀ d ∈ rest.head?, d = '\x7b') : hole? (c :: cs ++ rest) = none := by
  cases hhole : hole? (c :: cs ++ rest) with
  | none => rfl
  | some found =>
    obtain ⟨name, behind⟩ := found
    have hname := isName_of_hole? hhole
    rcases List.append_eq_append_iff.mp (hole?_eq_some hhole) with
      ⟨beyond, hsource, hbeyond⟩ | ⟨after, hcs, -⟩
    · cases beyond with
      | nil => exact absurd (by simpa using hsource.symm) (h [] name [] hname)
      | cons d beyond =>
        -- it would reach beyond the brace that follows
        obtain rfl : d = '\x7b' := hrest d (by simp [hbeyond])
        have hmem : '\x7b' ∈ name ++ ['\x7d'] := by
          have htail := congrArg List.tail hsource
          simp only [Part.source, List.cons_append, List.tail_cons] at htail
          rw [htail]
          exact List.mem_append_right cs List.mem_cons_self
        simp [hname.not_mem_brace.1] at hmem
    · exact absurd hcs (h [] name after hname)

/-- The scanner leaves characters alone in which no placeholder stands. -/
theorem Vacant.parts_append {cs rest : List Char} (h : Vacant cs)
    (hrest : ∀ d ∈ rest.head?, d = '\x7b') :
    parts (cs ++ rest) = cs.map .char ++ parts rest := by
  induction cs with
  | nil => rfl
  | cons c cs ih =>
    have hnone := h.hole?_eq_none hrest
    rw [List.cons_append] at hnone
    rw [List.cons_append, parts_char hnone, ih h.tail]
    rfl

namespace Segmented

variable {t : Segmented}

/-- **The scanner reads a proper segmentation off.** -/
theorem Proper.parts_source (h : t.Proper) : parts t.source = t.pieces := by
  obtain ⟨lead, holes⟩ := t
  obtain ⟨hlead, hholes⟩ := h
  induction holes generalizing lead with
  | nil =>
    have hparts : parts (lead ++ []) = lead.map .char ++ parts [] := hlead.parts_append (by simp)
    simpa [source, pieces] using hparts
  | cons hole holes ih =>
    obtain ⟨hname, hbehind⟩ := hholes hole List.mem_cons_self
    have hrest := ih hole.2 hbehind fun other hother =>
      hholes other (List.mem_cons_of_mem _ hother)
    simp only [source, pieces, List.flatMap_cons, List.append_assoc] at hrest ⊢
    rw [hlead.parts_append (by simp [Part.source]), parts_hole (hole?_source hname _), hrest]
    rfl

theorem Proper.eq_segments (h : t.Proper) {cs : List Char} (hsource : t.source = cs) :
    t = segments (parts cs) := by
  rw [← hsource, h.parts_source, segments_pieces]

end Segmented

/-! ## The segments of a text -/

theorem source_segments (cs : List Char) : (segments (parts cs)).source = cs := by
  rw [Segmented.source_eq, pieces_segments, flatMap_source_parts]

/-- The scanner cuts at placeholders, and at all of them. -/
theorem proper_segments (cs : List Char) : (segments (parts cs)).Proper := by
  induction cs using parts.induct with
  | case1 =>
    rw [parts_nil]
    exact ⟨vacant_nil, by simp [segments]⟩
  | case2 c cs name rest hhole _ ih =>
    rw [parts_hole hhole]
    refine ⟨vacant_nil, ?_⟩
    intro hole hmem
    rcases List.mem_cons.mp hmem with rfl | hmem
    · exact ⟨isName_of_hole? hhole, ih.lead⟩
    · exact ih.holes hole hmem
  | case3 c cs hhole ih =>
    rw [parts_char hhole]
    refine ⟨?_, ih.holes⟩
    intro front name behind hname hlead
    cases front with
    | cons d front =>
      exact ih.lead front name behind hname (List.cons.inj hlead).2
    | nil =>
      -- it begins the text too, so the scanner would have taken it
      have hcs : (c :: (segments (parts cs)).lead) ++ _ = c :: cs :=
        congrArg (c :: ·) (source_segments cs)
      have hfront : c :: (segments (parts cs)).lead = (Part.hole name).source ++ behind := hlead
      rw [← hcs, hfront, List.append_assoc, hole?_source hname] at hhole
      cases hhole

/-- A placeholder, wherever it stands, is one of those that the text is cut at. -/
theorem Segmented.Proper.mem_of_occurs {t : Segmented} (h : t.Proper)
    {front name behind : List Char} (hname : IsName name)
    (hsource : t.source = front ++ ((Part.hole name).source ++ behind)) :
    ∃ before segment after, t.holes = before ++ (name, segment) :: after ∧
      front = (Segmented.mk t.lead before).source := by
  have hproper : (Segmented.mk (segments (parts front)).lead ((segments (parts front)).holes
      ++ (name, (segments (parts behind)).lead) :: (segments (parts behind)).holes)).Proper := by
    refine ⟨(proper_segments front).lead, ?_⟩
    intro hole hmem
    rcases List.mem_append.mp hmem with hmem | hmem
    · exact (proper_segments front).holes hole hmem
    · rcases List.mem_cons.mp hmem with rfl | hmem
      · exact ⟨hname, (proper_segments behind).lead⟩
      · exact (proper_segments behind).holes hole hmem
  have hsame : t = _ := (h.eq_segments hsource).trans (hproper.eq_segments ?_).symm
  · rw [hsame]
    exact ⟨_, _, _, rfl, (source_segments front).symm⟩
  · have hfront := source_segments front
    have hbehind := source_segments behind
    simp only [Segmented.source, List.flatMap_append, List.flatMap_cons] at hfront hbehind ⊢
    rw [← List.append_assoc, hfront, List.append_assoc, hbehind]

/-! ## Listing and filling -/

theorem mem_placeholders_iff {s : String} {t : Segmented} (h : t.Proper)
    (hsource : t.source = s.toList) {name : String} : name ∈ placeholders s ↔ name ∈ t.names := by
  rw [placeholders, mem_ascending, placeholderNames, ← hsource, h.parts_source, t.names_eq]

theorem substitute_eq_filled {s : String} {t : Segmented} (h : t.Proper)
    (hsource : t.source = s.toList) (values : List (String × String)) :
    substitute s values = String.ofList (t.filled fun name => values.lookup name) := by
  rw [substitute, ← hsource, h.parts_source, t.filled_eq]

/-- Without a name there is one segment. -/
theorem Segmented.filled_of_names_eq_nil {t : Segmented} (h : t.names = [])
    (value? : String → Option String) : t.filled value? = t.source := by
  have hholes : t.holes = [] := List.map_eq_nil_iff.mp h
  simp [filled, source, hholes]

/-- **Listing and filling see the same placeholders.** A text is cut in one way into segments with
placeholders between them so that no placeholder stands in a segment, and every place where a
placeholder stands is one of the cuts. The names at the cuts are those that are listed, in
ascending order. Whatever the values are, the text is filled by putting its value, as it is, in
the place of each name that has one, and nothing else changes. So only the values of the names
that are listed matter, and a text without any stays as it is. -/
theorem placeholders_listed_and_filled (s : String) :
    (∃! t : Segmented, t.Proper ∧ t.source = s.toList) ∧
    (∀ t : Segmented, t.Proper → t.source = s.toList →
      (∀ front name behind, IsName name →
        s.toList = front ++ ((Part.hole name).source ++ behind) →
        ∃ before segment after, t.holes = before ++ (name, segment) :: after ∧
          front = (Segmented.mk t.lead before).source) ∧
      (placeholders s).Pairwise (· < ·) ∧
      (∀ name, name ∈ placeholders s ↔ name ∈ t.names) ∧
      ∀ values, substitute s values = String.ofList (t.filled fun name => values.lookup name)) ∧
    (∀ values values' : List (String × String),
      (∀ name ∈ placeholders s, values.lookup name = values'.lookup name) →
      substitute s values = substitute s values') ∧
    (placeholders s = [] → ∀ values, substitute s values = s) := by
  have hproper := proper_segments s.toList
  have hsource := source_segments s.toList
  refine ⟨⟨segments (parts s.toList), ⟨hproper, hsource⟩, ?_⟩, ?_, ?_, ?_⟩
  · intro t ⟨ht, hts⟩
    exact ht.eq_segments hts
  · intro t ht hts
    refine ⟨?_, pairwise_ascending _, fun name => mem_placeholders_iff ht hts,
      substitute_eq_filled ht hts⟩
    intro front name behind hname hs
    exact ht.mem_of_occurs hname (hts.trans hs)
  · intro values values' hsame
    refine substitute_congr ?_
    intro name hname
    exact hsame name (mem_ascending.mpr hname)
  · intro hnone values
    have hnames : (segments (parts s.toList)).names = [] := by
      rw [List.eq_nil_iff_forall_not_mem]
      intro name hname
      rw [← mem_placeholders_iff hproper hsource, hnone] at hname
      exact nomatch hname
    rw [substitute_eq_filled hproper hsource, Segmented.filled_of_names_eq_nil hnames, hsource,
      String.ofList_toList]

/-- Braces within braces: a name is put in for another one, and is not looked at again. -/
theorem placeholders_listed_and_filled_nested :
    let s := "\x7b\x7ba\x7d\x7d \x7ba\x7bb\x7d\x7bb\x7d"
    let t : Segmented :=
      ⟨['\x7b'], [(['a'], ['\x7d', ' ', '\x7b', 'a']), (['b'], []), (['b'], [])]⟩
    (t.Proper ∧ t.source = s.toList ∧ ∀ t' : Segmented, t'.Proper → t'.source = s.toList → t' = t) ∧
      (∀ name, name ∈ placeholders s ↔ name = "a" ∨ name = "b") ∧
      substitute s [("a", "\x7bb\x7d"), ("c", "x")] =
        "\x7b\x7bb\x7d\x7d \x7ba\x7bb\x7d\x7bb\x7d" ∧
      substitute s [("a", "\x7bb\x7d"), ("c", "x")] = substitute s [("a", "\x7bb\x7d")] ∧
      placeholders "\x7b\x7d" = [] ∧ substitute "\x7b\x7d" [("", "x")] = "\x7b\x7d" := by
  intro s t
  have ht : segments (parts s.toList) = t := by decide +kernel
  have hproper : t.Proper := ht ▸ proper_segments s.toList
  have hsource : t.source = s.toList := by decide +kernel
  obtain ⟨hunique, hcut, hagree, -⟩ := placeholders_listed_and_filled s
  obtain ⟨-, -, hnames, hfilled⟩ := hcut t hproper hsource
  have hlisted (name : String) : name ∈ placeholders s ↔ name = "a" ∨ name = "b" := by
    have hmem : name ∈ t.names ↔ name = "a" ∨ name = "b" := by
      show name ∈ ["a", "b", "b"] ↔ _
      simp
    exact (hnames name).trans hmem
  refine ⟨⟨hproper, hsource, fun t' ht' hts' => ?_⟩, hlisted, ?_, ?_, ?_⟩
  · exact hunique.unique ⟨ht', hts'⟩ ⟨hproper, hsource⟩
  · rw [hfilled]
    decide +kernel
  · refine hagree _ _ ?_
    intro name hname
    rcases (hlisted name).mp hname with rfl | rfl <;> rfl
  · have hnone : placeholders "\x7b\x7d" = [] := by decide +kernel
    obtain ⟨-, -, -, hplain⟩ := placeholders_listed_and_filled "\x7b\x7d"
    exact ⟨hnone, hplain hnone _⟩

end Courier.Http
