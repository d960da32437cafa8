/-
Courier.Proofs.Grammar.Reading — the words behind a command name, read as items.

What a command accepts is said here without a builder. An `Item` is one thing that stands
behind a command name: a positional value, or an option in one of the three ways to write
it (`Form`). A `Reading` is a list of items and, behind the break, any words at all.

* `Reading.Fits` — every item is written as the command wants it.
* `Reading.Allowed` — no option is repeated that must not be, and there is a place for
  every positional word.

`exists_reading_or_stray` says that this is all there is: a list of words either has a
reading that fits, or goes astray behind some of its items, with a word that no command
takes there (`Stray`).
-/
import Courier.Proofs.Grammar.Feeding

namespace Courier.Grammar

open Courier.Text Courier.Line

/-! ## Items -/

/-- A way to write an option. -/
inductive Form where
  /-- A flag. -/
  | flag (name : Token)
  /-- The value is a word of its own. -/
  | separate (name value : Token)
  /-- The value stands behind the sign in the same word. -/
  | inline (word : Token) (spelling value : String)

/-- One thing that stands behind a command name. -/
inductive Item where
  | value (t : Token)
  | option (o : OptionSpec) (form : Form)

def Form.words : Form → List Token
  | .flag name => [name]
  | .separate name value => [name, value]
  | .inline word _ _ => [word]

/-- The value that an option is given: the part of the word behind the sign, and for a
flag nothing, where the flag stands. -/
def Form.given : Form → Token
  | .flag name => { name with text := "" }
  | .separate _ value => value
  | .inline word spelling value =>
    { word with text := value, start := word.start + spelling.length + 1 }

/-- Whether an option may be written like this. -/
def Form.Fits (o : OptionSpec) : Form → Prop
  | .flag name => o.takesValue = false ∧ name.kind = .bare ∧ name.text ∈ o.spellings
  | .separate name value =>
    o.takesValue = true ∧ name.kind = .bare ∧ name.text ∈ o.spellings
      ∧ value.kind ≠ .break ∧ isDashed value = false
  | .inline word spelling value =>
    o.takesValue = true ∧ word.kind = .bare ∧ spelling ∈ o.spellings
      ∧ word.text = spelling ++ "=" ++ value

instance (o : OptionSpec) : (form : Form) → Decidable (form.Fits o)
  | .flag name => inferInstanceAs (Decidable (o.takesValue = false ∧ name.kind = .bare
      ∧ name.text ∈ o.spellings))
  | .separate name value => inferInstanceAs (Decidable (o.takesValue = true
      ∧ name.kind = .bare ∧ name.text ∈ o.spellings ∧ value.kind ≠ .break
      ∧ isDashed value = false))
  | .inline word spelling value => inferInstanceAs (Decidable (o.takesValue = true
      ∧ word.kind = .bare ∧ spelling ∈ o.spellings ∧ word.text = spelling ++ "=" ++ value))

def Item.words : Item → List Token
  | .value t => [t]
  | .option _ form => form.words

/-- Whether an item may stand in front of the break. A dashed word is a value only for a
command that takes such words literally, and only if it names no option. -/
def Item.Fits (s : CommandSpec) : Item → Prop
  | .value t =>
    t.kind ≠ .break ∧ (isDashed t = false
      ∨ s.dashIsLiteral = true ∧ ∀ o ∈ s.knownOptions, (cut '=' t.text).1 ∉ o.spellings)
  | .option o form => o ∈ s.knownOptions ∧ form.Fits o

instance (s : CommandSpec) : (i : Item) → Decidable (i.Fits s)
  | .value t => inferInstanceAs (Decidable (t.kind ≠ .break ∧ (isDashed t = false
      ∨ s.dashIsLiteral = true ∧ ∀ o ∈ s.knownOptions, (cut '=' t.text).1 ∉ o.spellings)))
  | .option o form => inferInstanceAs (Decidable (o ∈ s.knownOptions ∧ form.Fits o))

def Item.value? : Item → Option Token
  | .value t => some t
  | .option .. => none

/-- What an item gives to an option. -/
def Item.use? (o : OptionSpec) : Item → Option Token
  | .value _ => none
  | .option p form => if p = o then some form.given else none

/-! ## Readings -/

/-- The words behind a command name: items, and perhaps the break with the words behind it. -/
structure Reading where
  items : List Item
  tail : Option (Token × List Token) := none

namespace Reading

variable (r : Reading)

def words : List Token :=
  r.items.flatMap Item.words ++ r.tail.elim [] fun (mark, ts) => mark :: ts

/-- The positional values in front of the break. -/
def values : List Token := r.items.filterMap Item.value?

/-- The words behind the break. -/
def behind : List Token := r.tail.elim [] Prod.snd

/-- All positional values, in order. -/
def positionals : List Token := r.values ++ r.behind

/-- The values that an option is given, in order. -/
def uses (o : OptionSpec) : List Token := r.items.filterMap (Item.use? o)

/-- Every item is written as the command wants it, and the break is a break. -/
structure Fits (s : CommandSpec) : Prop where
  items : ∀ i ∈ r.items, i.Fits s
  tail : ∀ p ∈ r.tail, p.1.kind = .break

/-- No option is repeated that must not be, and without a catch-all there is a slot for
every positional word. -/
structure Allowed (s : CommandSpec) : Prop where
  once : ∀ o ∈ s.knownOptions, o.repeatable = false → (r.uses o).length ≤ 1
  room : s.rest = none → r.positionals.length ≤ s.args.length

instance (s : CommandSpec) : Decidable (r.Fits s) :=
  decidable_of_iff ((∀ i ∈ r.items, i.Fits s) ∧ ∀ p ∈ r.tail, p.1.kind = .break)
    ⟨fun ⟨items, tail⟩ => ⟨items, tail⟩, fun ⟨items, tail⟩ => ⟨items, tail⟩⟩

instance (s : CommandSpec) : Decidable (r.Allowed s) :=
  decidable_of_iff
    ((∀ o ∈ s.knownOptions, o.repeatable = false → (r.uses o).length ≤ 1)
      ∧ (s.rest = none → r.positionals.length ≤ s.args.length))
    ⟨fun ⟨once, room⟩ => ⟨once, room⟩, fun ⟨once, room⟩ => ⟨once, room⟩⟩

end Reading

/-- Items in front of others that are allowed are allowed. -/
theorem Reading.Allowed.of_append {s : CommandSpec} {done items : List Item}
    {tail : Option (Token × List Token)} (h : (Reading.mk (done ++ items) tail).Allowed s) :
    (Reading.mk done none).Allowed s where
  once := by
    intro o ho honce
    have hlength := h.once o ho honce
    simp only [uses, List.filterMap_append, List.length_append] at hlength ⊢
    omega
  room := by
    intro hrest
    have hlength := h.room hrest
    simp only [positionals, values, behind, List.filterMap_append, List.length_append,
      Option.elim_none, List.length_nil] at hlength ⊢
    omega

/-! ## Words that are not read -/

/-- Words that begin with something no command takes in front of the break: a dashed word
that names no option, a flag with a value, or an option whose value does not follow. -/
inductive Stray (s : CommandSpec) : List Token → Prop where
  | unknown {t : Token} {ts : List Token} (dashed : isDashed t = true)
      (nameless : ∀ o ∈ s.knownOptions, (cut '=' t.text).1 ∉ o.spellings)
      (strict : s.dashIsLiteral = false) : Stray s (t :: ts)
  | valued {t : Token} {ts : List Token} {o : OptionSpec} {spelling value : String}
      (known : o ∈ s.knownOptions) (isFlag : o.takesValue = false) (bare : t.kind = .bare)
      (spelled : spelling ∈ o.spellings) (text : t.text = spelling ++ "=" ++ value) :
      Stray s (t :: ts)
  | starved {t : Token} {ts : List Token} {o : OptionSpec} (known : o ∈ s.knownOptions)
      (takes : o.takesValue = true) (bare : t.kind = .bare) (spelled : t.text ∈ o.spellings)
      (next : ∀ v ∈ ts.head?, v.kind = .break ∨ isDashed v = true) : Stray s (t :: ts)

/-- What a dashed word that names an option is the beginning of. -/
theorem item_or_stray {s : CommandSpec} {o : OptionSpec} (ho : o ∈ s.knownOptions) {t : Token}
    (hd : isDashed t = true) (hs : (cut '=' t.text).1 ∈ o.spellings) (ts : List Token) :
    (∃ (form : Form) (rest : List Token), form.Fits o ∧ t :: ts = form.words ++ rest)
      ∨ Stray s (t :: ts) := by
  have hkind := kind_of_isDashed hd
  have htext := cut_eq t.text
  rcases hcut : cut '=' t.text with ⟨spelling, _ | value⟩
  · rw [hcut] at hs htext
    change t.text = spelling at htext
    change spelling ∈ o.spellings at hs
    rw [← htext] at hs
    cases htakes : o.takesValue with
    | false => exact .inl ⟨.flag t, ts, ⟨htakes, hkind, hs⟩, rfl⟩
    | true =>
      by_cases hnext : ∀ v ∈ ts.head?, v.kind = .break ∨ isDashed v = true
      · exact .inr (.starved ho htakes hkind hs hnext)
      · cases ts with
        | nil => exact absurd (by simp) hnext
        | cons v rest =>
          simp only [List.head?_cons, Option.mem_some_iff, forall_eq', not_or,
            Bool.not_eq_true] at hnext
          exact .inl ⟨.separate t v, rest, ⟨htakes, hkind, hs, hnext.1, hnext.2⟩, rfl⟩
  · rw [hcut] at hs htext
    cases htakes : o.takesValue with
    | false => exact .inr (.valued ho htakes hkind hs htext)
    | true => exact .inl ⟨.inline t spelling value, ts, ⟨htakes, hkind, hs, htext⟩, rfl⟩

theorem length_words_pos (i : Item) : 0 < i.words.length := by
  match i with
  | .value t => exact Nat.one_pos
  | .option _ (.flag _) => exact Nat.one_pos
  | .option _ (.separate _ _) => exact Nat.two_pos
  | .option _ (.inline _ _ _) => exact Nat.one_pos

/-- A list of words is empty, or begins with the break, with an item, or with something
that no command takes. -/
theorem words_cases (s : CommandSpec) (ts : List Token) :
    ts = [] ∨ (∃ mark rest, mark.kind = .break ∧ ts = mark :: rest)
      ∨ (∃ (i : Item) (rest : List Token), i.Fits s ∧ ts = i.words ++ rest) ∨ Stray s ts := by
  cases ts with
  | nil => exact .inl rfl
  | cons t ts =>
    right
    by_cases hk : t.kind = .break
    · exact .inl ⟨t, ts, hk, rfl⟩
    · right
      cases hd : isDashed t with
      | false => exact .inl ⟨.value t, ts, ⟨hk, .inl hd⟩, rfl⟩
      | true =>
        by_cases hname : ∃ o ∈ s.knownOptions, (cut '=' t.text).1 ∈ o.spellings
        · obtain ⟨o, ho, hs⟩ := hname
          rcases item_or_stray ho hd hs ts with ⟨form, rest, hfits, heq⟩ | hstray
          · exact .inl ⟨.option o form, rest, ⟨ho, hfits⟩, heq⟩
          · exact .inr hstray
        · have hname' : ∀ o ∈ s.knownOptions, (cut '=' t.text).1 ∉ o.spellings :=
            fun o ho hs => hname ⟨o, ho, hs⟩
          cases hlit : s.dashIsLiteral with
          | true => exact .inl ⟨.value t, ts, ⟨hk, .inr ⟨hlit, hname'⟩⟩, rfl⟩
          | false => exact .inr (.unknown hd hname' hlit)

/-- **Every list of words is read, or goes astray behind some items.** -/
theorem exists_reading_or_stray (s : CommandSpec) (ts : List Token) :
    (∃ r : Reading, r.Fits s ∧ r.words = ts) ∨
      ∃ (items : List Item) (rest : List Token), (∀ i ∈ items, i.Fits s) ∧ Stray s rest ∧
        ts = items.flatMap Item.words ++ rest := by
  rcases words_cases s ts with hts | ⟨mark, rest, hk, hts⟩ | ⟨i, rest, hi, hts⟩ | hstray
  · exact .inl ⟨⟨[], none⟩, ⟨by simp, by simp⟩, hts.symm⟩
  · exact .inl ⟨⟨[], some (mark, rest)⟩, ⟨by simp, by simpa using hk⟩, hts.symm⟩
  · have hshort : rest.length < ts.length := by
      have := length_words_pos i
      rw [hts, List.length_append]
      omega
    rcases exists_reading_or_stray s rest with
      ⟨r, hr, hwords⟩ | ⟨items, more, hitems, hstray, hmore⟩
    · refine .inl ⟨⟨i :: r.items, r.tail⟩, ⟨by simpa using ⟨hi, hr.items⟩, hr.tail⟩, ?_⟩
      rw [hts, ← hwords]
      simp [Reading.words]
    · refine .inr ⟨i :: items, more, by simpa using ⟨hi, hitems⟩, hstray, ?_⟩
      rw [hts, hmore, List.flatMap_cons, List.append_assoc]
  · exact .inr ⟨[], ts, by simp, hstray, rfl⟩
termination_by ts.length

end Courier.Grammar
