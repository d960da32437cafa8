/-
Courier.Proofs.Session.Rewriting — changes that no rule forbids, in the current workspace.

The rows of the current workspace can be rewritten if the workspace can be opened and is not one
that is only read (`Session.Writable`). If so then an operation that no rule forbids is a function
of these rows: its result and the rows afterwards are computed from them, and it touches nothing
else (`Session.Rewritten`). If not then the storage refuses it, and no row changes. Opening the
workspace, which comes first, has no part in this (`ends_onRows_edit`).
-/
import Courier.Proofs.Session.Permanence
import Courier.Proofs.Session.Switching

namespace Courier

open Courier.Text Courier.Store Courier.Database Session

namespace Session

/--
The current workspace can be opened, and its rows can be written. That is a property of the disk as
it is modelled here: nothing on it is locked or forbidden, and nobody else is at work on it, so that
what can be written now can be written until the end of an operation.
-/
structure Writable (s : Session) : Prop where
  opens : ∃ t, openCurrent s = .ok () t
  unlocked : s.store.readOnly = false

/-- The current workspace has these rows now, and all other rows and what is selected are what they
were. -/
structure Rewritten (s : Session) (rows : Store) (s' : Session) : Prop where
  store : s'.store = rows
  elsewhere : ∀ shelf, s.shelf? ≠ some shelf → s'.rowsAt shelf = s.rowsAt shelf
  workspace : s'.workspace = s.workspace
  dataDir : s'.dataDir = s.dataDir
  environment : s'.environment = s.environment
  request : s'.request = s.request

theorem Rewritten.refl (s : Session) : s.Rewritten s.store s :=
  ⟨rfl, fun _ _ => rfl, rfl, rfl, rfl, rfl⟩

/-- What a workspace is given it has, if its name leads to a shelf. -/
theorem store_putStore_of_shelf? {s : Session} {shelf : Shelf} (h : s.shelf? = some shelf)
    {rows : Store} (hlock : rows.readOnly = s.store.readOnly) : (s.putStore rows).store = rows := by
  unfold shelf? at h
  cases hplayground : s.inPlayground with
  | true =>
    have hput : s.putStore rows = { s with playground := rows } := if_pos hplayground
    rw [hput]
    exact if_pos hplayground
  | false =>
    cases hlocation : s.location with
    | error fault => simp [hplayground, hlocation] at h
    | ok l =>
      have hput : s.putStore rows =
          { s with saved := putSaved l.home { rows with readOnly := false } s.saved } := by
        simp [putStore, hplayground, hlocation]
      have hlocked : rows.readOnly = l.readOnly := by
        simpa [store, hplayground, hlocation] using hlock
      have hthere (t : Session) (hworkspace : t.workspace = s.workspace)
          (hdir : t.dataDir = s.dataDir) : t.inPlayground = false ∧ t.location = .ok l := by
        rw [← hplayground, ← hlocation, inPlayground, inPlayground, location, location, hworkspace,
          hdir]
        exact ⟨rfl, rfl⟩
      obtain ⟨hplayground', hlocation'⟩ := hthere (s.putStore rows) (by rw [hput]) (by rw [hput])
      rw [store, hplayground', hlocation', hput]
      simp [lookup_putSaved, ← hlocked]

theorem store_putBench_of_shelf? {s : Session} {shelf : Shelf} (h : s.shelf? = some shelf)
    {b : Bench} (hlock : b.store.readOnly = s.store.readOnly) : (s.putBench b).store = b.store :=
  (store_putBench s b).trans (store_putStore_of_shelf? h hlock)

/-- Opening is no change, and after it other rows can be put in place of those that are there. -/
theorem Worked.rewritten {s s₁ : Session} (h : s.Worked (fun _ => False) s₁) {shelf : Shelf}
    (hshelf : s₁.shelf? = some shelf) {b : Bench} (hlock : b.store.readOnly = s₁.store.readOnly) :
    s.Rewritten b.store (s₁.putBench b) := by
  obtain ⟨playground, saved, hput⟩ := putStore_eq s₁ b.store
  refine ⟨store_putBench_of_shelf? hshelf hlock, fun other hother => ?_, ?_, ?_, ?_, ?_⟩
  · rw [rowsAt_putBench, if_neg (h.shelf? ▸ hother), h.elsewhere other hother]
  all_goals rw [Session.putBench, hput]
  · exact h.workspace
  · exact h.dataDir
  · exact h.environment
  · exact h.request

end Session

/-! ## Opening -/

/-- Opening a workspace leaves the rows of the current one as they are. -/
theorem ends_openNamed_store (name : String) (s : Session) :
    Ends (openNamed name) s fun r s' => s'.store = s.store ∧ ∃ result, r = .ok result := by
  unfold openNamed
  split
  · exact ends_pure.2 ⟨rfl, _, rfl⟩
  · refine ends_bind.2 (ends_get.2 ?_)
    dsimp only
    rcases openWorkspace s.disk s.knows s.dataDir name with ⟨result, disk⟩
    cases result with
    | error fault =>
      refine ends_bind.2 (ends_set.2 (ends_pure.2 ⟨?_, _, rfl⟩))
      exact store_congr rfl rfl rfl rfl
    | ok l =>
      refine ends_bind.2 (ends_set.2 (ends_pure.2 ⟨?_, _, rfl⟩))
      obtain ⟨saved, htables⟩ := withTables_eq { s with disk } l.home
      have hrows := rowsOf_withTables { s with disk } l.home s.workspace
      rw [htables] at hrows ⊢
      exact (store_congr rfl rfl rfl rfl).trans (hrows.trans (store_congr rfl rfl rfl rfl))

/-- The current workspace has the same rows when it is opened, or the storage refuses to open
it. -/
theorem ends_openCurrent_store (s : Session) :
    Ends openCurrent s fun r s' =>
      s'.store = s.store ∧ (r = .ok () ∨ ∃ fault, r = .error (.storage fault)) := by
  refine ends_bind.2 (ends_get.2 (ends_bind.2 ((ends_openNamed_store _ s).mono fun r s' h => ?_)))
  obtain ⟨hstore, result, rfl⟩ := h
  cases result with
  | ok _ => exact ends_pure.2 ⟨hstore, .inl rfl⟩
  | error fault => exact ends_throw.2 ⟨hstore, .inr ⟨fault, rfl⟩⟩

/-! ## Rewriting -/

variable {α : Type} {change : Store → α × Store}

/-- A change that no rule forbids is made to the rows that are there, if they can be written. -/
theorem ends_onRows_edit (hlock : ∀ rows, (change rows).2.readOnly = rows.readOnly) (s : Session) :
    Ends (onRows (StoreAction.edit change)) s fun r s' =>
      (s.Writable ∧ r = .ok (change s.store).1 ∧ s.Rewritten (change s.store).2 s') ∨
      (¬ s.Writable ∧ (∃ fault, r = .error (.storage fault)) ∧ s.Rewritten s.store s') := by
  have hworks : Keeps (Worked fun _ => False) openCurrent := keeps_openCurrent
  have hopen := ((ends_runsTo openCurrent s).and (hworks s)).and
    ((ends_openCurrent_store s).and (ends_openCurrent_shelf s))
  refine ends_bind.2 (hopen.mono fun r s₁ h => ?_)
  obtain ⟨⟨hrun, hworked⟩, ⟨hstore, hresult⟩, hshelf⟩ := h
  cases r with
  | error e =>
    obtain ⟨fault, ⟨⟩⟩ := hresult.resolve_left nofun
    refine .inr ⟨?_, ⟨fault, rfl⟩, ?_⟩
    · rintro ⟨⟨t, hopens⟩, -⟩
      exact nomatch hopens.symm.trans hrun
    · exact ⟨hstore, hworked.elsewhere, hworked.workspace, hworked.dataDir, hworked.environment,
        hworked.request⟩
  | ok _ =>
    obtain ⟨shelf, hshelf⟩ := hshelf rfl
    refine ends_onOpened.2 (ends_onStore.2 (ends_edit.2 ?_))
    dsimp only
    rw [hstore]
    split
    next hlocked =>
      refine .inr ⟨fun hwritable => ?_, ⟨_, rfl⟩, ?_⟩
      · exact absurd hlocked (hwritable.unlocked ▸ Bool.false_ne_true)
      · exact hworked.rewritten (b := ⟨s.store, s₁.wire⟩) hshelf (by rw [hstore])
    next hunlocked =>
      refine .inl ⟨⟨⟨s₁, hrun⟩, Bool.eq_false_of_not_eq_true hunlocked⟩, rfl, ?_⟩
      exact hworked.rewritten (b := ⟨(change s.store).2, s₁.wire⟩) hshelf (by rw [hlock, hstore])

theorem onRows_edit_of_writable (hlock : ∀ rows, (change rows).2.readOnly = rows.readOnly)
    {s : Session} (h : s.Writable) :
    ∃ s', onRows (StoreAction.edit change) s = .ok (change s.store).1 s' ∧
      s.Rewritten (change s.store).2 s' := by
  refine Ends.exists_ok ((ends_onRows_edit hlock s).mono fun r s' hr => ?_)
  obtain ⟨-, hr⟩ | ⟨hlocked, -⟩ := hr
  · exact hr
  · exact absurd h hlocked

theorem onRows_edit_of_not_writable (hlock : ∀ rows, (change rows).2.readOnly = rows.readOnly)
    {s : Session} (h : ¬ s.Writable) :
    ∃ fault s', onRows (StoreAction.edit change) s = .error (.storage fault) s' ∧
      s.Rewritten s.store s' := by
  have hends := ends_onRows_edit hlock s
  cases hrun : onRows (StoreAction.edit change) s with
  | ok a s' =>
    obtain ⟨hwritable, -⟩ | ⟨-, ⟨fault, hfault⟩, -⟩ := hends.of_eq_ok hrun
    · exact absurd hwritable h
    · exact nomatch hfault
  | error e s' =>
    obtain ⟨hwritable, -⟩ | ⟨-, ⟨fault, ⟨⟩⟩, hsame⟩ := hends.of_eq_error hrun
    · exact absurd hwritable h
    · exact ⟨fault, s', rfl, hsame⟩

end Courier
