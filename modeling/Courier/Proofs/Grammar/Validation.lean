/-
Courier.Proofs.Grammar.Validation — what a command holds has passed its checks.

A builder that is read as a command is sound: every value in it has passed the check of
its slot or option. That is said of words. `accepts_of_ofLine` says it of the command that
a line asks for, whose fields are filled from these words by name.

`CommandSpec.Checks` is what ties a field to a form: whatever fills it with texts checks
that they have the form. It is decided for the commands of the shell once, and no proof
looks at a slot or an option by name.
-/
import Courier.Proofs.Grammar.Resolution
import Courier.Proofs.Grammar.Unplaced

namespace Courier.Grammar

open Courier.Text Courier.Line

/-! ## Checks -/

/-- A value that passes the check of a slot has the form that the slot asks for. -/
theorem Slot.accepts_of_check {a : Slot} {t : Token} (h : a.check t = .ok ()) {shape : Shape}
    (hshape : a.shape = some shape) : shape.accepts t.text = true := by
  unfold Slot.check at h
  split at h
  · exact nomatch h
  · split at h
    next haccepts => simpa [hshape] using haccepts
    next => exact nomatch h

theorem OptionSpec.accepts_of_check {o : OptionSpec} {t : Token} (h : o.check t = .ok ())
    (htakes : o.takesValue = true) {shape : Shape} (hshape : o.shape = some shape) :
    shape.accepts t.text = true := by
  unfold OptionSpec.check at h
  split at h
  next haccepts => simpa [htakes, hshape] using haccepts
  next => exact nomatch h

/-- An option whose field holds texts takes values, and the texts are those values. -/
theorem OptionSpec.field_eq_texts {o : OptionSpec} {ts : List Token} {values : List String}
    (h : o.field ts = .texts values) : o.takesValue = true ∧ values = ts.map Token.text := by
  unfold OptionSpec.field at h
  split at h
  · exact nomatch h
  next htakes =>
    split at h
    · exact ⟨by simpa using htakes, (FieldValue.texts.inj h).symm⟩
    · split at h <;> exact nomatch h

/-- Whether everything that can fill a field of a command with texts checks them for a form. -/
structure CommandSpec.Checks (s : CommandSpec) (dest : String) (shape : Shape) : Prop where
  rest : ∀ a ∈ s.rest, a.dest = dest → a.shape = some shape
  opts : ∀ o ∈ s.opts, o.dest = dest → o.shape = some shape

instance (s : CommandSpec) (dest : String) (shape : Shape) : Decidable (s.Checks dest shape) :=
  decidable_of_iff
    ((∀ a ∈ s.rest, a.dest = dest → a.shape = some shape)
      ∧ ∀ o ∈ s.opts, o.dest = dest → o.shape = some shape)
    ⟨fun ⟨rest, opts⟩ => ⟨rest, opts⟩, fun ⟨rest, opts⟩ => ⟨rest, opts⟩⟩

/-! ## Fields -/

/-- A text in a field stands in an entry of that name. -/
theorem exists_entry_of_mem_textsField {entries : List (String × FieldValue)} {name value : String}
    (h : value ∈ textsField entries name) :
    ∃ values, (name, .texts values) ∈ entries ∧ value ∈ values := by
  unfold textsField at h
  split at h
  next values hfield =>
    obtain ⟨front, back, rfl, -⟩ := List.lookup_eq_some_iff.1 hfield
    exact ⟨values, by simp, h⟩
  next => exact absurd h List.not_mem_nil

/-- The texts in a field that is checked have its form. -/
theorem Builder.Sound.accepts {b : Builder} (h : b.Sound) {dest : String} {shape : Shape}
    (hchecks : b.spec.Checks dest shape) {value : String}
    (hvalue : value ∈ textsField b.entries dest) : shape.accepts value = true := by
  obtain ⟨values, hfield, hvalue⟩ := exists_entry_of_mem_textsField hvalue
  rw [entries, List.mem_append, List.mem_append] at hfield
  rcases hfield with (hargs | hrest) | hopts
  · -- a slot is filled with one text or with none
    rw [argEntries, List.mem_append, List.mem_map, List.mem_map] at hargs
    obtain ⟨⟨_, _⟩, -, ⟨⟩⟩ | ⟨_, -, ⟨⟩⟩ := hargs
  · cases ha : b.spec.rest with
    | none => simp [restEntries, ha] at hrest
    | some a =>
      obtain ⟨rfl, rfl⟩ : dest = a.dest ∧ values = b.rest.map Token.text := by
        simpa [restEntries, ha] using hrest
      obtain ⟨t, ht, rfl⟩ := List.mem_map.1 hvalue
      exact Slot.accepts_of_check (h.rest a ha t ht) (hchecks.rest a ha rfl)
  · obtain ⟨o, ho, hentry⟩ := List.mem_map.1 hopts
    obtain ⟨rfl, hvalues⟩ := Prod.mk.inj hentry
    obtain ⟨htakes, rfl⟩ := OptionSpec.field_eq_texts hvalues
    obtain ⟨t, ht, rfl⟩ := List.mem_map.1 hvalue
    exact OptionSpec.accepts_of_check (h.opts o ho t ht) htakes (hchecks.opts o ho rfl)

/-! ## From a line to a builder -/

/-- A command is read from a builder of its own that could be finished. -/
theorem exists_builder_of_command {n : Node} {place : Int} {ts : List Token} {c : Command}
    (h : n.command place ts = .ok c) :
    ∃ (b : Builder) (f : Filled), b.node = n ∧ b.finish = .ok f ∧
      c = Command.ofFilled n.spec.kind f := by
  rcases hconsume : ({ node := n, offset := place } : Builder).consume ts with ⟨b, _ | e⟩
  · rw [command_of_consume hconsume] at h
    have hnode : b.node = n := by
      have hkept := Builder.node_consume { node := n, offset := place } ts
      rwa [hconsume] at hkept
    cases hfinish : b.finish with
    | error e =>
      rw [hfinish] at h
      exact nomatch h
    | ok f =>
      rw [hfinish] at h
      exact ⟨b, f, hnode, hfinish, (Except.ok.inj h).symm⟩
  · have htaken := command_eq_ok h
    rw [hconsume] at htaken
    exact nomatch htaken

end Courier.Grammar

namespace Courier

open Courier.Grammar Courier.Http Courier.Line

/-! ## Commands -/

/-- The headers of a command that stores a request. -/
def Command.headers : Command → List String
  | .createRequest _ _ _ headers _ => headers
  | _ => []

/-- The pairs of a command that sets a variable. -/
def Command.pairs : Command → List String
  | .createVariable _ pairs => pairs
  | _ => []

theorem headers_ofFields (kind : CommandKind) (entries : List (String × FieldValue)) :
    (Command.ofFields kind entries).headers =
      if kind = .createRequest then textsField entries "headers" else [] := by
  cases kind <;> rfl

theorem pairs_ofFields (kind : CommandKind) (entries : List (String × FieldValue)) :
    (Command.ofFields kind entries).pairs =
      if kind = .createVariable then textsField entries "env_vals" else [] := by
  cases kind <;> rfl

/-- Commands with headers and commands with pairs check them. -/
theorem checks_of_mem_leaves : ∀ n ∈ root.leaves,
    (n.spec.kind = .createRequest → n.spec.Checks "headers" .header) ∧
      (n.spec.kind = .createVariable → n.spec.Checks "env_vals" .envValue) := by
  decide

/-- The headers and the pairs of a command that a line asks for have passed their checks. -/
theorem accepts_of_ofLine {line : String} {c : Command} (h : Command.ofLine line = .ok (some c)) :
    (∀ header ∈ c.headers, isHeader header = true) ∧
      ∀ pair ∈ c.pairs, isEnvValue pair = true := by
  obtain ⟨ts, n, remaining, -, hfound, hcommand⟩ := exists_command_of_ofLine h
  obtain ⟨b, f, rfl, hfinish, rfl⟩ := exists_builder_of_command hcommand
  have hfinished := b.finished_finish
  rw [hfinish] at hfinished
  cases hfinished with
  | help free asked => exact ⟨nofun, nofun⟩
  | filled free unasked complete sound =>
    obtain ⟨hheaders, hpairs⟩ := checks_of_mem_leaves b.node (mem_leaves_of_findLeaf hfound)
    rw [Command.ofFilled, headers_ofFields, pairs_ofFields]
    constructor
    · intro header hmem
      split at hmem
      next hkind => exact sound.accepts (hheaders hkind) hmem
      next => exact absurd hmem List.not_mem_nil
    · intro pair hmem
      split at hmem
      next hkind => exact sound.accepts (hpairs hkind) hmem
      next => exact absurd hmem List.not_mem_nil

end Courier
