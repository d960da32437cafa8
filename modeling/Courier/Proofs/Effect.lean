/-
Courier.Proofs.Effect — what actions do to their state.

An action ends with a result or a failure, and there is a state afterwards in both cases
(`stateAfter`). `Ends act s Q` says how it ends from the state `s`; it is computed along the
action, a bind at a time. `Keeps R act` says that the states before and after are related
by `R`, from wherever the action starts and however it ends. If `R` is a preorder then what
is kept by the parts of an action is kept by all of it. `FailsFrom E act s` says that every
failure of the action is one of `E` if it starts from `s`, and `Fails E act` that this is so
wherever it starts. `Errs E r` says it of a computation that has no state. `Parallel R act s t`
is about two runs of one action.
-/
import Mathlib.Order.Defs.Unbundled

namespace Courier

section
variable {ε σ α β : Type} {act : EStateM ε σ α} {s : σ} {R : σ → σ → Prop}

/-! ## Where an action ends -/

/-- The state behind an action, whether it succeeded or failed. -/
def stateAfter (act : EStateM ε σ α) (s : σ) : σ :=
  match act s with
  | .ok _ s' => s'
  | .error _ s' => s'

/-- How an action ends: with what result or failure, and in what state. -/
def Ends (act : EStateM ε σ α) (s : σ) (Q : Except ε α → σ → Prop) : Prop :=
  match act s with
  | .ok a s' => Q (.ok a) s'
  | .error e s' => Q (.error e) s'

theorem Ends.exists_result {Q : Except ε α → σ → Prop} (h : Ends act s Q) :
    ∃ r, Q r (stateAfter act s) := by
  unfold Ends stateAfter at *
  cases hrun : act s with
  | ok a s' =>
    rw [hrun] at h
    exact ⟨_, h⟩
  | error e s' =>
    rw [hrun] at h
    exact ⟨_, h⟩

theorem ends_stateAfter {P : σ → Prop} : Ends act s (fun _ s' => P s') ↔ P (stateAfter act s) := by
  unfold Ends stateAfter
  cases act s <;> rfl

theorem Ends.stateAfter {P : σ → Prop} (h : Ends act s fun _ s' => P s') : P (stateAfter act s) :=
  ends_stateAfter.1 h

theorem Ends.mono {Q Q' : Except ε α → σ → Prop} (h : Ends act s Q)
    (hQ : ∀ r s', Q r s' → Q' r s') : Ends act s Q' := by
  unfold Ends at *
  cases hrun : act s with
  | ok a s' =>
    rw [hrun] at h
    exact hQ _ _ h
  | error e s' =>
    rw [hrun] at h
    exact hQ _ _ h

theorem ends_iff {Q Q' : Except ε α → σ → Prop} (hQ : ∀ r s', Q r s' ↔ Q' r s') :
    Ends act s Q ↔ Ends act s Q' :=
  ⟨fun h => h.mono fun r s' => (hQ r s').1, fun h => h.mono fun r s' => (hQ r s').2⟩

/-- Only the run from the state at hand counts. -/
theorem ends_congr {act' : EStateM ε σ α} {t : σ} (h : act s = act' t)
    {Q : Except ε α → σ → Prop} : Ends act s Q ↔ Ends act' t Q := by
  unfold Ends
  rw [h]

theorem ends_of_forall {Q : Except ε α → σ → Prop} (h : ∀ r s', Q r s') : Ends act s Q := by
  unfold Ends
  cases act s <;> exact h _ _

/-- Whether this is how an action ends. -/
def RunsTo (act : EStateM ε σ α) (s : σ) : Except ε α → σ → Prop
  | .ok a, s' => act s = .ok a s'
  | .error e, s' => act s = .error e s'

theorem runsTo_congr {act' : EStateM ε σ α} {t s' : σ} (h : act s = act' t) {r : Except ε α} :
    RunsTo act s r s' ↔ RunsTo act' t r s' := by
  cases r <;> rw [RunsTo, RunsTo, h]

theorem ends_runsTo (act : EStateM ε σ α) (s : σ) : Ends act s (RunsTo act s) := by
  unfold Ends
  cases hrun : act s <;> exact hrun

theorem RunsTo.stateAfter {r : Except ε α} {s' : σ} (h : RunsTo act s r s') :
    stateAfter act s = s' := by
  unfold Courier.stateAfter
  cases r <;> rw [show act s = _ from h]

theorem Ends.and {Q Q' : Except ε α → σ → Prop} (h : Ends act s Q) (h' : Ends act s Q') :
    Ends act s fun r s' => Q r s' ∧ Q' r s' := by
  unfold Ends at *
  cases hrun : act s with
  | ok a s' =>
    rw [hrun] at h h'
    exact ⟨h, h'⟩
  | error e s' =>
    rw [hrun] at h h'
    exact ⟨h, h'⟩

@[simp]
theorem ends_pure {a : α} {Q : Except ε α → σ → Prop} :
    Ends (pure a : EStateM ε σ α) s Q ↔ Q (.ok a) s :=
  Iff.rfl

@[simp]
theorem ends_throw {e : ε} {Q : Except ε α → σ → Prop} :
    Ends (throw e : EStateM ε σ α) s Q ↔ Q (.error e) s :=
  Iff.rfl

@[simp]
theorem ends_get {Q : Except ε σ → σ → Prop} :
    Ends (get : EStateM ε σ σ) s Q ↔ Q (.ok s) s :=
  Iff.rfl

@[simp]
theorem ends_set {s' : σ} {Q : Except ε PUnit → σ → Prop} :
    Ends (set s' : EStateM ε σ PUnit) s Q ↔ Q (.ok ⟨⟩) s' :=
  Iff.rfl

@[simp]
theorem ends_modify {f : σ → σ} {Q : Except ε PUnit → σ → Prop} :
    Ends (modify f : EStateM ε σ PUnit) s Q ↔ Q (.ok ⟨⟩) (f s) :=
  Iff.rfl

@[simp]
theorem ends_modifyGet {f : σ → α × σ} {Q : Except ε α → σ → Prop} :
    Ends (modifyGet f : EStateM ε σ α) s Q ↔ Q (.ok (f s).1) (f s).2 :=
  Iff.rfl

theorem ends_bind {f : α → EStateM ε σ β} {Q : Except ε β → σ → Prop} :
    Ends (act >>= f) s Q ↔ Ends act s fun r s' =>
      match r with
      | .ok a => Ends (f a) s' Q
      | .error e => Q (.error e) s' := by
  change (match EStateM.bind act f s with | .ok b s' => _ | .error e s' => _) ↔ _
  unfold EStateM.bind Ends
  cases act s <;> rfl

theorem Ends.of_eq_ok {Q : Except ε α → σ → Prop} {a : α} {s' : σ} (h : Ends act s Q)
    (hrun : act s = .ok a s') : Q (.ok a) s' := by
  unfold Ends at h
  rw [hrun] at h
  exact h

theorem ends_of_eq_error {Q : Except ε α → σ → Prop} {e : ε} {s' : σ}
    (hrun : act s = .error e s') : Ends act s Q ↔ Q (.error e) s' := by
  unfold Ends
  rw [hrun]

theorem Ends.of_eq_error {Q : Except ε α → σ → Prop} {e : ε} {s' : σ} (h : Ends act s Q)
    (hrun : act s = .error e s') : Q (.error e) s' :=
  (ends_of_eq_error hrun).1 h

/-- An action that has to end with this result succeeds. -/
theorem Ends.exists_ok {a : α} {P : σ → Prop} (h : Ends act s fun r t => r = .ok a ∧ P t) :
    ∃ t, act s = .ok a t ∧ P t := by
  unfold Ends at h
  cases hrun : act s with
  | ok a' t =>
    rw [hrun] at h
    obtain ⟨⟨⟩, ht⟩ := h
    exact ⟨t, rfl, ht⟩
  | error e t =>
    rw [hrun] at h
    exact nomatch h.1

/-- An action that has to end with this result in this state is known as a whole. -/
theorem Ends.eq_ok {a : α} {s' : σ} (h : Ends act s fun r t => r = .ok a ∧ t = s') :
    act s = .ok a s' := by
  obtain ⟨_, hrun, rfl⟩ := h.exists_ok
  exact hrun

theorem ends_bind_of_eq_ok {f : α → EStateM ε σ β} {a : α} {s' : σ} (hrun : act s = .ok a s')
    {Q : Except ε β → σ → Prop} : Ends (act >>= f) s Q ↔ Ends (f a) s' Q := by
  rw [ends_bind]
  unfold Ends
  rw [hrun]

theorem bind_of_eq_ok {f : α → EStateM ε σ β} {a : α} {s' : σ} (hrun : act s = .ok a s') :
    (act >>= f) s = f a s' := by
  change EStateM.bind act f s = f a s'
  rw [EStateM.bind, hrun]

theorem bind_congr_run {act' : EStateM ε σ α} (h : act s = act' s) (f : α → EStateM ε σ β) :
    (act >>= f) s = (act' >>= f) s := by
  change EStateM.bind act f s = EStateM.bind act' f s
  rw [EStateM.bind, EStateM.bind, h]

theorem bind_of_eq_error {f : α → EStateM ε σ β} {e : ε} {s' : σ} (hrun : act s = .error e s') :
    (act >>= f) s = .error e s' := by
  change EStateM.bind act f s = .error e s'
  rw [EStateM.bind, hrun]

/-- Whether an action succeeds, with a result and a state that pass a test. -/
def succeedsWith (act : EStateM ε σ α) (s : σ) (test : α → σ → Bool) : Bool :=
  match act s with
  | .ok a s' => test a s'
  | .error _ _ => false

theorem exists_ok_of_succeedsWith {test : α → σ → Bool} (h : succeedsWith act s test = true) :
    ∃ a s', act s = .ok a s' ∧ test a s' = true := by
  unfold succeedsWith at h
  split at h
  next a s' hrun => exact ⟨a, s', hrun, h⟩
  next => exact absurd h Bool.false_ne_true

/-- Whether an action fails, with a failure and a state that pass a test. -/
def failsWith (act : EStateM ε σ α) (s : σ) (test : ε → σ → Bool) : Bool :=
  match act s with
  | .ok _ _ => false
  | .error e s' => test e s'

theorem exists_error_of_failsWith {test : ε → σ → Bool} (h : failsWith act s test = true) :
    ∃ e s', act s = .error e s' ∧ test e s' = true := by
  unfold failsWith at h
  split at h
  next => exact absurd h Bool.false_ne_true
  next e s' hrun => exact ⟨e, s', hrun, h⟩

/-! ## What an action keeps -/

/-- The states before and after an action are related, however it ends. -/
def Keeps (R : σ → σ → Prop) (act : EStateM ε σ α) : Prop :=
  ∀ s, Ends act s fun _ s' => R s s'

theorem Keeps.stateAfter (h : Keeps R act) (s : σ) : R s (stateAfter act s) :=
  ends_stateAfter.1 (h s)

theorem Keeps.mono {R' : σ → σ → Prop} (h : Keeps R act) (hR : ∀ s s', R s s' → R' s s') :
    Keeps R' act :=
  fun s => (h s).mono fun _ s' => hR s s'

theorem Keeps.modify {f : σ → σ} (h : ∀ s, R s (f s)) :
    Keeps R (modify f : EStateM ε σ PUnit) :=
  h

theorem Keeps.modifyGet {f : σ → α × σ} (h : ∀ s, R s (f s).2) :
    Keeps R (modifyGet f : EStateM ε σ α) :=
  h

section
variable [Std.Refl R]

theorem Keeps.pure (a : α) : Keeps R (pure a : EStateM ε σ α) :=
  fun s => Std.Refl.refl s

theorem Keeps.throw (e : ε) : Keeps R (throw e : EStateM ε σ α) :=
  fun s => Std.Refl.refl s

theorem Keeps.get : Keeps R (get : EStateM ε σ σ) :=
  fun s => Std.Refl.refl s

end

theorem Keeps.bind [IsTrans σ R] {f : α → EStateM ε σ β} (h : Keeps R act)
    (hf : ∀ a, Keeps R (f a)) : Keeps R (act >>= f) := by
  intro s
  refine ends_bind.2 ((h s).mono fun r s' hs => ?_)
  cases r with
  | ok a => exact (hf a s').mono fun _ s'' => IsTrans.trans s s' s'' hs
  | error e => exact hs

theorem Keeps.forM [Std.Refl R] [IsTrans σ R] {f : α → EStateM ε σ PUnit} {xs : List α}
    (h : ∀ x ∈ xs, Keeps R (f x)) : Keeps R (xs.forM f) := by
  induction xs with
  | nil => exact Keeps.pure PUnit.unit
  | cons x xs ih =>
    obtain ⟨hx, hxs⟩ := List.forall_mem_cons.1 h
    exact hx.bind fun _ => ih hxs

/-- What comes after the state was read may depend on it. -/
theorem Keeps.get_bind {f : σ → EStateM ε σ α} (h : ∀ s, Ends (f s) s fun _ s' => R s s') :
    Keeps R (MonadState.get >>= f) :=
  fun s => ends_bind.2 (h s)

/-! ## How an action fails -/

/-- Every failure of an action that starts from this state is one of these. -/
def FailsFrom (E : ε → Prop) (act : EStateM ε σ α) (s : σ) : Prop :=
  Ends act s fun r _ => ∀ e, r = .error e → E e

/-- Every failure of an action is one of these, wherever it starts. -/
def Fails (E : ε → Prop) (act : EStateM ε σ α) : Prop := ∀ s, FailsFrom E act s

section
variable {E : ε → Prop}

theorem Fails.pure (a : α) : Fails E (pure a : EStateM ε σ α) := nofun

theorem Fails.throw {e : ε} (h : E e) : Fails E (throw e : EStateM ε σ α) := by
  rintro s _ ⟨⟩
  exact h

theorem Fails.get : Fails E (get : EStateM ε σ σ) := nofun

theorem Fails.set (s : σ) : Fails E (set s : EStateM ε σ PUnit) := nofun

theorem Fails.modify (f : σ → σ) : Fails E (modify f : EStateM ε σ PUnit) := nofun

theorem Fails.modifyGet (f : σ → α × σ) : Fails E (modifyGet f : EStateM ε σ α) := nofun

theorem FailsFrom.bind {f : α → EStateM ε σ β} (h : FailsFrom E act s)
    (hf : ∀ a, Fails E (f a)) : FailsFrom E (act >>= f) s := by
  refine ends_bind.2 (Ends.mono h fun r s' hr => ?_)
  cases r with
  | ok a => exact hf a s'
  | error e =>
    rintro _ ⟨⟩
    exact hr e rfl

theorem Fails.bind {f : α → EStateM ε σ β} (h : Fails E act) (hf : ∀ a, Fails E (f a)) :
    Fails E (act >>= f) :=
  fun s => (h s).bind hf

/-- What would come after a failure does not matter. -/
theorem FailsFrom.throw_bind {f : α → EStateM ε σ β} {e : ε} (h : E e) :
    FailsFrom E (throw e >>= f) s :=
  ends_bind.2 (Fails.throw h s)

theorem Fails.forM {f : α → EStateM ε σ PUnit} {xs : List α} (h : ∀ x ∈ xs, Fails E (f x)) :
    Fails E (xs.forM f) := by
  induction xs with
  | nil => exact Fails.pure PUnit.unit
  | cons x xs ih =>
    obtain ⟨hx, hxs⟩ := List.forall_mem_cons.1 h
    exact hx.bind fun _ => ih hxs

theorem FailsFrom.failure {e : ε} {s' : σ} (h : FailsFrom E act s) (hrun : act s = .error e s') :
    E e :=
  Ends.of_eq_error h hrun e rfl

theorem Fails.mono {E' : ε → Prop} (h : Fails E act) (hE : ∀ e, E e → E' e) : Fails E' act :=
  fun s => Ends.mono (h s) fun _ _ hr e heq => hE e (hr e heq)

/-- Every error of a computation without a state is one of these. -/
def Errs (E : ε → Prop) (r : Except ε α) : Prop := ∀ e, r = .error e → E e

section
variable {r : Except ε α}

theorem Errs.ok (a : α) : Errs E (.ok a : Except ε α) := nofun

theorem Errs.error {e : ε} (h : E e) : Errs E (.error e : Except ε α) := by
  rintro _ ⟨⟩
  exact h

theorem Errs.bind {f : α → Except ε β} (h : Errs E r) (hf : ∀ a, Errs E (f a)) :
    Errs E (r >>= f) := by
  cases r with
  | ok a => exact hf a
  | error e => exact .error (h e rfl)

/-- What is checked first may fail in its own way. -/
theorem Errs.guard {c : Prop} [Decidable c] {e : ε} {f : α → Except ε β} {rest : Except ε β}
    (he : E e) (h : Errs E rest) : Errs E (if c then throw e >>= f else rest) := by
  split
  · exact .error he
  · exact h

theorem Errs.map (f : α → β) (h : Errs E r) : Errs E (r.map f) := by
  cases r with
  | ok a => exact .ok (f a)
  | error e => exact .error (h e rfl)

theorem Errs.mapError {ε' : Type} {E : ε' → Prop} {f : ε → ε'} (h : Errs (fun e => E (f e)) r) :
    Errs E (r.mapError f) := by
  cases r with
  | ok a => exact .ok a
  | error e => exact .error (h e rfl)

end

/-! ## What a failure leaves alone -/

/-- Unless an action fails in one of these ways, its failure leaves the state as it was, up to
`R`. -/
def Spares (E : ε → Prop) (R : σ → σ → Prop) (act : EStateM ε σ α) : Prop :=
  ∀ s, Ends act s fun r s' => ∀ e, r = .error e → ¬ E e → R s s'

theorem Keeps.spares (h : Keeps R act) : Spares E R act :=
  fun s => (h s).mono fun _ _ hs _ _ _ => hs

theorem Fails.spares (h : Fails E act) : Spares E R act :=
  fun s => Ends.mono (h s) fun _ _ hr e heq hE => absurd (hr e heq) hE

/-- What comes before the first change may fail in any way. -/
theorem Keeps.bind_spares [IsTrans σ R] {f : α → EStateM ε σ β} (h : Keeps R act)
    (hf : ∀ a, Spares E R (f a)) : Spares E R (act >>= f) := by
  intro s
  refine ends_bind.2 ((h s).mono fun r s' hs => ?_)
  cases r with
  | ok a => exact (hf a s').mono fun _ s'' hr e heq hE => IsTrans.trans s s' s'' hs (hr e heq hE)
  | error e => exact fun _ _ _ => hs

/-- What comes after it may not. -/
theorem Spares.bind {f : α → EStateM ε σ β} (h : Spares E R act) (hf : ∀ a, Fails E (f a)) :
    Spares E R (act >>= f) := by
  intro s
  refine ends_bind.2 ((h s).mono fun r s' hr => ?_)
  cases r with
  | ok a => exact Ends.mono (hf a s') fun _ _ hfa e heq hE => absurd (hfa e heq) hE
  | error e =>
    rintro _ ⟨⟩ hE
    exact hr e rfl hE

theorem Spares.failure {e : ε} {s' : σ} (h : Spares E R act) (hrun : act s = .error e s')
    (hE : ¬ E e) : R s s' :=
  (h s).of_eq_error hrun e rfl hE

end

end

/-! ## Two runs -/

section
variable {t : σ}

/-- An action that starts from two states ends in the same way, and in states that are related. -/
def Parallel (R : σ → σ → Prop) (act : EStateM ε σ α) (s t : σ) : Prop :=
  Ends act s fun r s' => Ends act t fun r' t' => r' = r ∧ R s' t'

theorem Parallel.stateAfter (h : Parallel R act s t) :
    R (stateAfter act s) (stateAfter act t) := by
  have hs : Ends act s fun _ s' => Ends act t fun _ t' => R s' t' :=
    Ends.mono h fun _ _ ht => ht.mono fun _ _ hr => hr.2
  exact ends_stateAfter.1 (ends_stateAfter.1 hs)

theorem Parallel.congr {act' : EStateM ε σ α} (hs : act s = act' s) (ht : act t = act' t)
    (h : Parallel R act' s t) : Parallel R act s t :=
  (ends_congr hs).2 (h.mono fun _ _ => (ends_congr ht).2)

/-- An action is a function of its state. -/
theorem Parallel.refl (act : EStateM ε σ α) (s : σ) : Parallel (fun s' t' => t' = s') act s s := by
  unfold Parallel Ends
  cases act s with
  | ok a s' => exact ⟨rfl, rfl⟩
  | error e s' => exact ⟨rfl, rfl⟩

theorem Parallel.pure {a : α} (h : R s t) : Parallel R (pure a : EStateM ε σ α) s t :=
  ends_pure.2 (ends_pure.2 ⟨rfl, h⟩)

theorem Parallel.throw {e : ε} (h : R s t) : Parallel R (throw e : EStateM ε σ α) s t :=
  ends_throw.2 (ends_throw.2 ⟨rfl, h⟩)

/-- What would come after a failure does not matter. -/
theorem Parallel.throw_bind {f : α → EStateM ε σ β} {e : ε} (h : R s t) :
    Parallel R (MonadExcept.throw e >>= f) s t :=
  ends_bind.2 (ends_throw.2 (ends_bind.2 (ends_throw.2 ⟨rfl, h⟩)))

theorem Parallel.modify {f : σ → σ} (h : R (f s) (f t)) :
    Parallel R (modify f : EStateM ε σ PUnit) s t :=
  ends_modify.2 (ends_modify.2 ⟨rfl, h⟩)

theorem Parallel.bind {f : α → EStateM ε σ β} (h : Parallel R act s t)
    (hf : ∀ a s' t', R s' t' → Parallel R (f a) s' t') : Parallel R (act >>= f) s t := by
  unfold Parallel at *
  refine ends_bind.2 (h.mono fun r s' ht => ?_)
  cases r with
  | error e =>
    refine ends_bind.2 (ht.mono fun r' t' hr => ?_)
    rw [hr.1]
    exact ⟨rfl, hr.2⟩
  | ok a =>
    have hboth : Ends act t fun r' t' => r' = .ok a ∧ Parallel R (f a) s' t' :=
      ht.mono fun r' t' hr => ⟨hr.1, hf a s' t' hr.2⟩
    obtain ⟨t', hact, hboth⟩ := hboth.exists_ok
    exact Ends.mono hboth fun r s'' hr => (ends_bind_of_eq_ok hact).2 hr

end

-- How an action ends is computed by these rules from here on, and not by running it.
attribute [irreducible] Ends

end Courier
