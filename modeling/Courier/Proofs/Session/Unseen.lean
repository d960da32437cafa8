/-
Courier.Proofs.Session.Unseen — what is not looked at.

The shell shows things and never looks at them again. Nor does it look at every file: the
workspaces of a data directory may overlook in what two disks differ (`Overlooks`). So a command
that is done in two sessions that differ in what has been shown, and in such disks
(`Session.Abreast`), succeeds in both with the same result or fails in both (`Agrees`), and the
sessions behind it differ in nothing else again. Only the body of a new request may be read from
any file, so that it has to be the same (`Command.SameBody`).

Most commands are local, so that one induction on local actions says so of all of them
(`Local.agrees`); only the switch, the list of workspaces and the run have a lemma of their own.
-/
import Courier.Proofs.Session.Hidden
import Courier.Proofs.Session.Local

namespace Courier

open Courier.Text Courier.Store Courier.Database Courier.Screen

namespace Session

/-- The second session is the first one, but for what has been shown, and for its disk, which is
related to that of the first one. -/
def SameButShown (D : Disk → Disk → Prop) (s t : Session) : Prop :=
  ∃ disk shown, t = { s with disk, shown } ∧ D s.disk disk

/-- Two sessions with this data directory are the same in this sense. -/
structure Abreast (dir : Path) (D : Disk → Disk → Prop) (s t : Session) : Prop where
  dataDir : s.dataDir = dir
  named : isWorkspaceName s.workspace = true
  same : s.SameButShown D t

section
variable {dir : Path} {D : Disk → Disk → Prop} {s t : Session}

theorem SameButShown.mono {D' : Disk → Disk → Prop} (h : s.SameButShown D t)
    (hD : ∀ d d', D d d' → D' d d') : s.SameButShown D' t := by
  obtain ⟨disk, shown, rfl, hdisk⟩ := h
  exact ⟨disk, shown, rfl, hD _ _ hdisk⟩

theorem SameButShown.store (h : s.SameButShown D t) : t.store = s.store := by
  obtain ⟨disk, shown, rfl, -⟩ := h
  exact store_congr rfl rfl rfl rfl

theorem SameButShown.alike (h : s.SameButShown D t) : s.Alike t := by
  obtain ⟨disk, shown, rfl, -⟩ := h
  exact ⟨rfl, rfl, rfl, rfl, rfl⟩

/-- What has been shown in the second session is no matter. -/
theorem Abreast.withShown (h : s.Abreast dir D t) (events : List Event) :
    s.Abreast dir D (t.withShown events) := by
  obtain ⟨disk, shown, rfl, hdisk⟩ := h.same
  exact ⟨h.dataDir, h.named, disk, shown ++ events, rfl, hdisk⟩

/-- What is done to both sessions, without regard to disks and to what was shown, keeps them
abreast. -/
theorem Abreast.map {f : Session → Session} (h : s.Abreast dir D t)
    (hf : ∀ s disk shown, ∃ shown', f { s with disk, shown } = { f s with disk, shown := shown' })
    (hdisk : (f s).disk = s.disk) (hdir : (f s).dataDir = s.dataDir)
    (hworkspace : (f s).workspace = s.workspace) : (f s).Abreast dir D (f t) := by
  obtain ⟨disk, shown, rfl, hD⟩ := h.same
  obtain ⟨shown', hshown⟩ := hf s disk shown
  refine ⟨hdir.trans h.dataDir, hworkspace ▸ h.named, disk, shown', hshown, ?_⟩
  rw [hdisk]
  exact hD

theorem Abreast.putBench (h : s.Abreast dir D t) (b : Bench) :
    (s.putBench b).Abreast dir D (t.putBench b) := by
  obtain ⟨playground, saved, hput⟩ := putStore_eq s b.store
  refine h.map (f := fun s => s.putBench b) (fun s disk shown => ⟨shown, ?_⟩) ?_ ?_ ?_
  · have hplayground : ({ s with disk, shown } : Session).inPlayground = s.inPlayground := rfl
    have hlocation : ({ s with disk, shown } : Session).location = s.location := rfl
    unfold Session.putBench Session.putStore
    rw [hplayground, hlocation]
    cases s.inPlayground with
    | true => rfl
    | false => cases s.location <;> rfl
  · rw [Session.putBench, hput]
  · rw [Session.putBench, hput]
  · rw [Session.putBench, hput]

theorem Abreast.withTables (h : s.Abreast dir D t) (home : Home) :
    (s.withTables home).Abreast dir D (t.withTables home) := by
  obtain ⟨saved, htables⟩ := withTables_eq s home
  refine h.map (f := fun s => s.withTables home) (fun s disk shown => ⟨shown, ?_⟩) ?_ ?_ ?_
  · have hknows : ({ s with disk, shown } : Session).knows home = s.knows home := rfl
    unfold Session.withTables
    rw [hknows]
    split <;> rfl
  · rw [htables]
  · rw [htables]
  · rw [htables]

end

end Session

open Session

/-! ## Actions that agree -/

section
variable {α β : Type} {R : Session → Session → Prop} {s t : Session}

/-- An action succeeds in two sessions with the same result, or fails in both, and the sessions
behind it are related. -/
def Agrees (R : Session → Session → Prop) (act : Action α) (s t : Session) : Prop :=
  Ends act s fun r s' => Ends act t fun r' t' => r'.toOption = r.toOption ∧ R s' t'

theorem Parallel.agrees {act : Action α} (h : Parallel R act s t) : Agrees R act s t :=
  Ends.mono h fun _ _ ht => ht.mono fun _ _ hr => ⟨by rw [hr.1], hr.2⟩

theorem Agrees.stateAfter {act : Action α} (h : Agrees R act s t) :
    R (stateAfter act s) (stateAfter act t) := by
  have hs : Ends act s fun _ s' => Ends act t fun _ t' => R s' t' :=
    Ends.mono h fun _ _ ht => ht.mono fun _ _ hr => hr.2
  exact ends_stateAfter.1 (ends_stateAfter.1 hs)

theorem Agrees.exists_ok {act : Action α} (h : Agrees R act s t) {a : α} {s' : Session}
    (hrun : act s = .ok a s') : ∃ t', act t = .ok a t' ∧ R s' t' := by
  refine Ends.exists_ok ((Ends.of_eq_ok h hrun).mono fun r t' hr => ⟨?_, hr.2⟩)
  cases r with
  | ok b => exact congrArg Except.ok (Option.some.inj hr.1)
  | error e => exact nomatch hr.1

theorem Agrees.bind {act : Action α} {f : α → Action β} (h : Agrees R act s t)
    (hf : ∀ a s' t', R s' t' → Agrees R (f a) s' t') : Agrees R (act >>= f) s t := by
  refine ends_bind.2 ((Ends.and h (ends_runsTo act s)).mono fun r s' hr => ?_)
  obtain ⟨hends, hrun⟩ := hr
  cases r with
  | error e =>
    refine ends_bind.2 (hends.mono fun r' t' hr => ?_)
    cases r' with
    | ok a => exact nomatch hr.1
    | error e' => exact ⟨rfl, hr.2⟩
  | ok a =>
    obtain ⟨t', hact, hR⟩ := h.exists_ok hrun
    exact Ends.mono (hf a s' t' hR) fun r s'' hr => (ends_bind_of_eq_ok hact).2 hr

end

/-- An action that sees nothing of what may differ. -/
def Blind (dir : Path) (D : Disk → Disk → Prop) {α : Type} (act : Action α) : Prop :=
  ∀ s t, s.Abreast dir D t → Agrees (Abreast dir D) act s t

section
variable {dir : Path} {D : Disk → Disk → Prop} {α β : Type}

namespace Blind

theorem pure (a : α) : Blind dir D (pure a : Action α) := fun _ _ h => (Parallel.pure h).agrees

theorem throw (e : Failure) : Blind dir D (throw e : Action α) :=
  fun _ _ h => (Parallel.throw h).agrees

theorem bind {act : Action α} {f : α → Action β} (h : Blind dir D act)
    (hf : ∀ a, Blind dir D (f a)) : Blind dir D (act >>= f) :=
  fun s t hst => (h s t hst).bind fun a s' t' => hf a s' t'

theorem modify {f : Session → Session}
    (h : ∀ s t, s.Abreast dir D t → (f s).Abreast dir D (f t)) :
    Blind dir D (modify f : Action PUnit) :=
  fun s t hst => (Parallel.modify (h s t hst)).agrees

/-- What comes after the session was read may depend on all of it but on what may differ. -/
theorem look {f : Session → Action α}
    (hf : ∀ s, isWorkspaceName s.workspace = true → Blind dir D (f s))
    (hsame : ∀ s t, s.Abreast dir D t → f t = f s) : Blind dir D (get >>= f) := by
  intro s t hst
  refine ends_bind.2 (ends_get.2 (Ends.mono (hf s hst.named s t hst) fun r s' hr => ?_))
  refine ends_bind.2 (ends_get.2 ?_)
  dsimp only
  rw [hsame s t hst]
  exact hr

theorem forM {f : α → Action PUnit} (h : ∀ x, Blind dir D (f x)) (xs : List α) :
    Blind dir D (xs.forM f) := by
  induction xs with
  | nil => exact .pure PUnit.unit
  | cons x xs ih => exact (h x).bind fun _ => ih

end Blind

/-! ## Workspaces -/

theorem blind_showEvents (events : List Event) : Blind dir D (showEvents events) := by
  intro s t hst
  refine (parallel_showEvents (fun s t h => ?_) (fun s t event h => ?_) events hst).agrees
  · exact h.same.alike.host
  · exact h.map (f := fun s => s.withShown [event]) (fun s _ shown => ⟨shown ++ [event], rfl⟩)
      rfl rfl rfl

theorem blind_orFail {ε : Type} (cause : ε → Failure) (r : Except ε α) :
    Blind dir D (orFail cause r) := by
  cases r with
  | ok a => exact .pure a
  | error e => exact .throw _

/-- Of the disks it matters only how the opening of the workspace ends. -/
theorem agrees_openNamed {s : Session} {name : String} {disk : Disk} (shown : List Event)
    (hdir : s.dataDir = dir) (hnamed : isWorkspaceName s.workspace = true)
    (hplayground : name = playgroundName → D s.disk disk)
    (hopens : (openWorkspace disk s.knows s.dataDir name).1
        = (openWorkspace s.disk s.knows s.dataDir name).1 ∧
      D (openWorkspace s.disk s.knows s.dataDir name).2
        (openWorkspace disk s.knows s.dataDir name).2) :
    Agrees (Abreast dir D) (openNamed name) s { s with disk, shown } := by
  obtain ⟨hresult, hdisk⟩ := hopens
  unfold openNamed
  split
  next h => exact (Parallel.pure ⟨hdir, hnamed, disk, shown, rfl, hplayground h⟩).agrees
  next =>
    refine ends_bind.2 (ends_get.2 ?_)
    dsimp only
    -- What the other session knows is the same.
    have hopen' : openWorkspace disk ({ s with disk, shown } : Session).knows s.dataDir name
        = openWorkspace disk s.knows s.dataDir name := rfl
    rcases hopen : openWorkspace s.disk s.knows s.dataDir name with ⟨result, d⟩
    rcases hopened : openWorkspace disk s.knows s.dataDir name with ⟨result', d'⟩
    rw [hopen, hopened] at hresult hdisk
    obtain rfl : result' = result := hresult
    have habreast : ({ s with disk := d } : Session).Abreast dir D { s with disk := d', shown } :=
      ⟨hdir, hnamed, d', shown, rfl, hdisk⟩
    cases result' with
    | error fault =>
      refine ends_bind.2 (ends_set.2 (ends_pure.2 (ends_bind.2 (ends_get.2 ?_))))
      dsimp only
      rw [hopen', hopened]
      exact ends_bind.2 (ends_set.2 (ends_pure.2 ⟨rfl, habreast⟩))
    | ok l =>
      refine ends_bind.2 (ends_set.2 (ends_pure.2 (ends_bind.2 (ends_get.2 ?_))))
      dsimp only
      rw [hopen', hopened]
      exact ends_bind.2 (ends_set.2 (ends_pure.2 ⟨rfl, habreast.withTables l.home⟩))

theorem blind_openNamed (hD : Overlooks dir D) {name : String}
    (hname : isWorkspaceName name = true) : Blind dir D (openNamed name) := by
  intro s t hst
  obtain ⟨rfl, hnamed, disk, shown, rfl, hdisk⟩ := hst
  exact agrees_openNamed shown rfl hnamed (fun _ => hdisk) (hD.opens hname hdisk s.knows)

theorem blind_openCurrent (hD : Overlooks dir D) : Blind dir D openCurrent :=
  .look (fun _ hnamed => (blind_openNamed hD hnamed).bind fun _ => blind_orFail _ _)
    fun _ _ h => by rw [h.same.alike.workspace]

/-- The bench is the same in both sessions. -/
theorem blind_onOpened (act : BenchAction α) : Blind dir D (onOpened act) := by
  intro s t hst
  have hwire : t.wire = s.wire := by
    obtain ⟨_, _, rfl, -⟩ := hst.same
    rfl
  refine Parallel.agrees ?_
  unfold Parallel
  refine ends_onOpened.2 (Ends.mono (Parallel.refl act _) fun r b hr => ends_onOpened.2 ?_)
  rw [hst.same.store, hwire]
  refine hr.mono fun r' b' h => ?_
  obtain ⟨rfl, rfl⟩ := h
  exact ⟨rfl, hst.putBench b'⟩

theorem blind_onBench (hD : Overlooks dir D) (act : BenchAction α) : Blind dir D (onBench act) :=
  (blind_openCurrent hD).bind fun _ => blind_onOpened act

theorem blind_askRows (hD : Overlooks dir D) (question : Store → α) :
    Blind dir D (askRows question) :=
  (blind_openCurrent hD).bind fun _ => .look (fun _ _ => .pure _) fun _ _ h => by
    rw [h.same.store]

/-- A local action sees nothing of what may differ. -/
theorem Local.blind (hD : Overlooks dir D) {act : Action α} (h : Local act) : Blind dir D act := by
  induction h with
  | pure a => exact .pure a
  | throw e => exact .throw e
  | bind _ _ ih ihf => exact ih.bind ihf
  | shown events => exact blind_showEvents events
  | rows act => exact blind_onBench hD _
  | ask question => exact blind_askRows hD question
  | look _ hsame ihf => exact .look (fun s _ => ihf s) fun s t h => hsame s t h.same.alike
  | selectEnvironment env =>
    exact .modify fun _ _ h => h.map (f := fun s => { s with environment := env })
      (fun _ _ shown => ⟨shown, rfl⟩) rfl rfl rfl
  | selectRequest choose =>
    exact .modify fun _ _ h => h.map (f := fun s => { s with request := choose s.request })
      (fun _ _ shown => ⟨shown, rfl⟩) rfl rfl rfl

theorem LocalOn.agrees {Sees : Disk → Disk → Prop} (hD : Overlooks dir D) {act : Action α}
    (h : LocalOn Sees act) {s t : Session} (hst : s.Abreast dir D t)
    (hsees : Sees s.contents t.contents) : Agrees (Abreast dir D) act s t := by
  obtain ⟨f, hlocal, hsame, hrun⟩ := h
  have hboth := (hlocal s.contents).blind hD s t hst
  refine (ends_congr (hrun s)).2 (Ends.mono hboth fun r s' hr => (ends_congr ?_).2 hr)
  rw [hrun t, hsame _ _ hsees]

end

end Courier
