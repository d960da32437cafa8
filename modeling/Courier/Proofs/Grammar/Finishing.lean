/-
Courier.Proofs.Grammar.Finishing — what comes of a builder when its words end.

`finish` looks at a builder in the order in which it would be read aloud: an option that
still waits, a wish for help, something missing, the values one after the other. `Finished`
is everything that can come of it, with what was true of the builder, and `finished_finish`
says that nothing else does. No proof below this module unfolds `finish`.

Two parts of a builder are named on the way. `Sound` says that every value passes its
check, and `entries` are the fields that a sound builder is read as.

`Node.command` is the whole way from the words behind a name to a command: they are
consumed by a fresh builder, and the builder is finished.
-/
import Courier.Command
import Courier.Proofs.Grammar.Feeding

namespace Courier.Grammar

open Courier.Text Courier.Line

/-! ## Checks -/

/-- Checks in a row pass, or end at the first that does not. -/
theorem forM_cases {α ε : Type} (f : α → Except ε Unit) (xs : List α) :
    (∀ x ∈ xs, f x = .ok ()) ∧ xs.forM f = .ok () ∨
      ∃ x ∈ xs, ∃ e, f x = .error e ∧ xs.forM f = .error e := by
  induction xs with
  | nil => exact .inl ⟨by simp, rfl⟩
  | cons x xs ih =>
    have hcons : (x :: xs).forM f = (f x >>= fun _ => xs.forM f) := rfl
    cases hx : f x with
    | error e => exact .inr ⟨x, by simp, e, hx, by rw [hcons, hx]; rfl⟩
    | ok u =>
      have hnext : (x :: xs).forM f = xs.forM f := by rw [hcons, hx]; rfl
      rw [hnext]
      rcases ih with ⟨hall, hrun⟩ | ⟨y, hy, e, hbad, hrun⟩
      · exact .inl ⟨by simpa [hx] using hall, hrun⟩
      · exact .inr ⟨y, by simp [hy], e, hbad, hrun⟩

/-- A check blames the value that it is of. -/
theorem Slot.check_eq_error {a : Slot} {t : Token} {e : ParseError} (h : a.check t = .error e) :
    ∃ reason, e = .invalidValue t reason := by
  unfold Slot.check at h
  split at h
  · exact ⟨_, (Except.error.inj h).symm⟩
  · split at h
    · simp at h
    · exact ⟨_, (Except.error.inj h).symm⟩

theorem OptionSpec.check_eq_error {o : OptionSpec} {t : Token} {e : ParseError}
    (h : o.check t = .error e) : o.takesValue = true ∧ ∃ reason, e = .invalidValue t reason := by
  unfold OptionSpec.check at h
  split at h
  · simp at h
  · next hbad =>
    simp only [Bool.or_eq_true, Bool.not_eq_true', not_or, Bool.not_eq_false] at hbad
    exact ⟨hbad.1, _, (Except.error.inj h).symm⟩

namespace Builder

variable {b : Builder}

/-! ## Values and fields -/

/-- A value that `finish` checks. -/
def IsValue (b : Builder) (t : Token) : Prop :=
  t ∈ b.args ∨ t ∈ b.rest ∨ ∃ o ∈ b.spec.opts, o.takesValue = true ∧ t ∈ b.given o.key

/-- Every value passes its check. -/
structure Sound (b : Builder) : Prop where
  args : ∀ p ∈ b.spec.args.zip b.args, p.1.check p.2 = .ok ()
  rest : ∀ a ∈ b.spec.rest, ∀ t ∈ b.rest, a.check t = .ok ()
  opts : ∀ o ∈ b.spec.opts, ∀ t ∈ b.given o.key, o.check t = .ok ()

def argEntries (b : Builder) : List (String × FieldValue) :=
  (b.spec.args.zip b.args).map (fun (a, t) => (a.dest, .text t.text))
    ++ (b.spec.args.drop b.args.length).map (fun a => (a.dest, .absent))

def restEntries (b : Builder) : List (String × FieldValue) :=
  b.spec.rest.elim [] fun a => [(a.dest, .texts (b.rest.map Token.text))]

def optEntries (b : Builder) : List (String × FieldValue) :=
  b.spec.opts.map fun o => (o.dest, o.field (b.given o.key))

/-- The fields of a builder, if nothing is missing and every value is accepted. -/
def entries (b : Builder) : List (String × FieldValue) :=
  b.argEntries ++ b.restEntries ++ b.optEntries

theorem argFields_cases (b : Builder) :
    (∀ p ∈ b.spec.args.zip b.args, p.1.check p.2 = .ok ()) ∧ b.argFields = .ok b.argEntries ∨
      ∃ p ∈ b.spec.args.zip b.args, ∃ e, p.1.check p.2 = .error e ∧ b.argFields = .error e := by
  unfold argFields
  rcases forM_cases (fun p : Slot × Token => p.1.check p.2) (b.spec.args.zip b.args) with
    ⟨hall, hrun⟩ | ⟨p, hp, e, hbad, hrun⟩
  · exact .inl ⟨hall, by rw [hrun]; rfl⟩
  · exact .inr ⟨p, hp, e, hbad, by rw [hrun]; rfl⟩

theorem restFields_cases (b : Builder) :
    (∀ a ∈ b.spec.rest, ∀ t ∈ b.rest, a.check t = .ok ()) ∧ b.restFields = .ok b.restEntries ∨
      ∃ a ∈ b.spec.rest, ∃ t ∈ b.rest, ∃ e, a.check t = .error e ∧ b.restFields = .error e := by
  unfold restFields restEntries
  cases b.spec.rest with
  | none => exact .inl ⟨by simp, rfl⟩
  | some a =>
    rcases forM_cases a.check b.rest with ⟨hall, hrun⟩ | ⟨t, ht, e, hbad, hrun⟩
    · exact .inl ⟨by simpa using hall, by simp only [hrun]; rfl⟩
    · exact .inr ⟨a, rfl, t, ht, e, hbad, by simp only [hrun]; rfl⟩

theorem optFields_cases (b : Builder) :
    (∀ o ∈ b.spec.opts, ∀ t ∈ b.given o.key, o.check t = .ok ()) ∧
        b.optFields = .ok b.optEntries ∨
      ∃ o ∈ b.spec.opts, ∃ t ∈ b.given o.key, ∃ e, o.check t = .error e ∧
        b.optFields = .error e := by
  unfold optFields
  rcases forM_cases (fun o : OptionSpec => (b.given o.key).forM o.check) b.spec.opts with
    ⟨hall, hrun⟩ | ⟨o, ho, e, hbad, hrun⟩
  · refine .inl ⟨fun o ho t ht => ?_, by rw [hrun]; rfl⟩
    rcases forM_cases o.check (b.given o.key) with ⟨hpass, -⟩ | ⟨-, -, e, -, hfail⟩
    · exact hpass t ht
    · rw [hall o ho] at hfail
      simp at hfail
  · rcases forM_cases o.check (b.given o.key) with ⟨-, hpass⟩ | ⟨t, ht, e', hfault, hfail⟩
    · rw [hpass] at hbad
      simp at hbad
    · rw [hfail] at hbad
      cases hbad
      exact .inr ⟨o, ho, t, ht, e, hfault, by rw [hrun]; rfl⟩

/-! ## Something missing -/

/-- What is missing is reported behind the last word. -/
theorem missing?_eq_some {e : ParseError} (h : b.missing? = some e) :
    e.token? = none ∧ e.place = b.offset := by
  unfold missing? at h
  split at h
  · cases h
    exact ⟨rfl, rfl⟩
  · split at h
    · cases h
      exact ⟨rfl, rfl⟩
    · obtain ⟨o, -, rfl⟩ := Option.map_eq_some_iff.mp h
      exact ⟨rfl, rfl⟩

theorem missing?_eq_none_iff :
    b.missing? = none ↔
      (∀ a ∈ b.spec.args.drop b.args.length, a.required = false) ∧
      (∀ a ∈ b.spec.rest, a.minCount ≤ b.rest.length) ∧
      (∀ o ∈ b.spec.opts, o.required = true → b.given o.key ≠ []) := by
  have hopts : b.spec.opts.find? (fun o => o.required && !b.has o.key) = none ↔
      ∀ o ∈ b.spec.opts, o.required = true → b.given o.key ≠ [] := by
    simp [List.find?_eq_none, has_eq_true_iff]
  unfold missing?
  cases hargs : (b.spec.args.drop b.args.length).find? Slot.required with
  | some a =>
    have ha := List.find?_some hargs
    have hmem := List.mem_of_find?_eq_some hargs
    simp only [reduceCtorEq, false_iff]
    rintro ⟨hfree, -⟩
    rw [hfree a hmem] at ha
    simp at ha
  | none =>
    have hfree : ∀ a ∈ b.spec.args.drop b.args.length, a.required = false := by
      simpa [List.find?_eq_none] using hargs
    cases hrest : b.spec.rest with
    | none => simpa [hopts] using fun _ => hfree
    | some a =>
      by_cases hcount : (b.rest.length : Int) < a.minCount
      · simp only [Option.filter, hcount, decide_true, if_true, reduceCtorEq, false_iff]
        exact fun ⟨_, henough, _⟩ => absurd (henough a rfl) (Int.not_le.mpr hcount)
      · simpa [Option.filter, hcount, hopts, Int.not_lt.mp hcount] using fun _ => hfree

/-! ## Everything that can come of a builder -/

/-- What comes of a builder when its words end, and what was true of it. -/
inductive Finished (b : Builder) : Except ParseError Filled → Prop where
  /-- An option still waits for its value. -/
  | starved (o : OptionSpec) (name : Token) (waits : b.pending = some (o, name)) :
    Finished b (.error (.missingOptionValue name))
  /-- Help is wanted; nothing else matters then. -/
  | help (free : b.pending = none) (asked : b.given .help ≠ []) :
    Finished b (.ok (.help b.node.path))
  /-- Something is missing. -/
  | missing (e : ParseError) (free : b.pending = none) (unasked : b.given .help = [])
      (lacks : b.missing? = some e) : Finished b (.error e)
  /-- A value does not pass its check. -/
  | refused (t : Token) (reason : String) (free : b.pending = none)
      (unasked : b.given .help = []) (value : b.IsValue t) (unsound : ¬ b.Sound) :
    Finished b (.error (.invalidValue t reason))
  /-- The builder is read as its fields. -/
  | filled (free : b.pending = none) (unasked : b.given .help = [])
      (complete : b.missing? = none) (sound : b.Sound) : Finished b (.ok (.fields b.entries))

/-- **Nothing else comes of a builder.** -/
theorem finished_finish (b : Builder) : b.Finished b.finish := by
  cases hp : b.pending with
  | some waiting =>
    obtain ⟨o, name⟩ := waiting
    have hfinish : b.finish = .error (.missingOptionValue name) := by
      simp only [finish, pendingError?, hp, Option.map_some]
      rfl
    rw [hfinish]
    exact .starved o name hp
  | none =>
    cases hh : b.has .help with
    | true =>
      have hfinish : b.finish = .ok (.help b.node.path) := by
        simp only [finish, pendingError?, hp, hh, Option.map_none]
        rfl
      rw [hfinish]
      exact .help hp (has_eq_true_iff.mp hh)
    | false =>
      have unasked := has_eq_false_iff.mp hh
      cases hm : b.missing? with
      | some e =>
        have hfinish : b.finish = .error e := by
          simp only [finish, pendingError?, hp, hh, hm, Option.map_none]
          rfl
        rw [hfinish]
        exact .missing e hp unasked hm
      | none =>
        have hfinish : b.finish = (do
            let args ← b.argFields
            let rest ← b.restFields
            let opts ← b.optFields
            return .fields (args ++ rest ++ opts)) := by
          simp only [finish, pendingError?, hp, hh, hm, Option.map_none]
          rfl
        rw [hfinish]
        rcases b.argFields_cases with ⟨hargs, hrun⟩ | ⟨p, hmem, e, hbad, hrun⟩ <;> rw [hrun]
        · rcases b.restFields_cases with ⟨hrest, hrun⟩ | ⟨a, ha, t, ht, e, hbad, hrun⟩ <;>
            rw [hrun]
          · rcases b.optFields_cases with ⟨hopts, hrun⟩ | ⟨o, ho, t, ht, e, hbad, hrun⟩ <;>
              rw [hrun]
            · exact .filled hp unasked hm ⟨hargs, hrest, hopts⟩
            · obtain ⟨htakes, reason, rfl⟩ := OptionSpec.check_eq_error hbad
              exact .refused t reason hp unasked (.inr (.inr ⟨o, ho, htakes, ht⟩))
                fun hsound => by simp [hsound.opts o ho t ht] at hbad
          · obtain ⟨reason, rfl⟩ := Slot.check_eq_error hbad
            exact .refused t reason hp unasked (.inr (.inl ht))
              fun hsound => by simp [hsound.rest a ha t ht] at hbad
        · obtain ⟨reason, rfl⟩ := Slot.check_eq_error hbad
          exact .refused p.2 reason hp unasked (.inl (List.of_mem_zip hmem).2)
            fun hsound => by simp [hsound.args p hmem] at hbad

end Builder

/-! ## From words to a command -/

/-- The command that the words behind a name ask for. -/
def Node.command (n : Node) (place : Int) (ts : List Token) : Except ParseError Command :=
  match ({ node := n, offset := place } : Builder).consume ts with
  | (_, some e) => .error e
  | (b, none) => b.finish.map (Command.ofFilled n.spec.kind)

theorem ofTokens_eq (ts : List Token) (stop : Int) :
    Command.ofTokens ts stop = (findLeaf ts stop).bind fun (n, remaining) =>
      n.command (nameStop ts remaining) remaining := by
  unfold Command.ofTokens
  cases findLeaf ts stop with
  | error e => rfl
  | ok found =>
    obtain ⟨n, remaining⟩ := found
    simp only [Node.command, Except.bind, bind]
    rcases ({ node := n, offset := nameStop ts remaining } : Builder).consume remaining with
      ⟨b, _ | e⟩
    · cases b.finish <;> rfl
    · rfl

end Courier.Grammar
