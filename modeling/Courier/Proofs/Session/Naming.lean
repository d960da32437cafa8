/-
Courier.Proofs.Session.Naming — where the names of variables come from.

Variables are saved by two commands. One creates them and checks their names, the other is a run,
which saves what extractions take, under the targets that are stored with them and in the
environment that is selected. So the names of variables, the targets of extractions and the
selected environment are an invariant together (`Session.NamesFrom`): whatever is true of the
names that are checked, of the targets that are extracted into and of the environments that are
selected, is true of the variables.

What is extracted into is not checked, and neither is what is selected. Otherwise no variable
has a blank name, and each has an environment (`nameless_only_where_asked_for`).
-/
import Courier.Proofs.Session.Selection
import Courier.Proofs.Text.Parts

namespace Courier

open Courier.Text Courier.Http Courier.Store Courier.Screen Session

/-! ## Names that are checked -/

theorem parsePair_ne_empty {pair : String} {parsed : String × String}
    (h : parsePair pair = .ok parsed) : parsed.1 ≠ "" := by
  unfold parsePair at h
  split at h
  · split at h
    · exact nomatch h
    next henv =>
      cases h
      simpa using henv
  · exact nomatch h

theorem parsePairs_ne_empty {seen pairs : List String} {values : List (String × String)}
    (h : parsePairs seen pairs = .ok values) : ∀ x ∈ values, x.1 ≠ "" := by
  induction pairs generalizing seen values with
  | nil =>
    cases h
    exact nofun
  | cons pair pairs ih =>
    rw [parsePairs] at h
    cases hpair : parsePair pair with
    | error fault =>
      rw [hpair] at h
      exact nomatch h
    | ok parsed =>
      simp only [hpair] at h
      split at h
      · exact nomatch h
      · cases hrest : parsePairs (parsed.1 :: seen) pairs with
        | error fault =>
          rw [hrest] at h
          exact nomatch h
        | ok rest =>
          rw [hrest] at h
          cases h
          exact List.forall_mem_cons.2 ⟨parsePair_ne_empty hpair, ih hrest⟩

/-- What is created as a variable has a name that is not blank, and environments. -/
theorem checkVariable_ne_empty {name : String} {pairs : List String}
    {checked : String × List (String × String)} (h : checkVariable name pairs = .ok checked) :
    strip checked.1 ≠ "" ∧ ∀ x ∈ checked.2, x.1 ≠ "" := by
  unfold checkVariable at h
  simp only [bind, Except.bind, pure, Except.pure, throw, throwThe, MonadExceptOf.throw] at h
  split at h
  · exact nomatch h
  next hname =>
    cases hvalues : parsePairs [] pairs with
    | error fault =>
      rw [hvalues] at h
      exact nomatch h
    | ok values =>
      rw [hvalues] at h
      dsimp only at h
      split at h
      · exact nomatch h
      · cases h
        rw [strip_strip]
        exact ⟨by simpa using hname, parsePairs_ne_empty hvalues⟩

/-! ## Names of rows -/

section
variable {names envs : String → Prop}

/-- Whether variables have only such names and environments, also those that extractions will
save. -/
structure Store.NamesFrom (names envs : String → Prop) (s : Store) : Prop where
  vars : ∀ v ∈ s.vars, names v.name ∧ envs v.env
  targets : ∀ e ∈ s.extractions, names e.target

/-- Whether a change saves variables and targets under such names only. -/
def Store.Change.NamesFrom (names envs : String → Prop) : Change → Prop
  | .putVariable name env _ _ => names name ∧ envs env
  | .putExtraction e => names e.target
  | _ => True

theorem Store.Change.IsPlain.namesFrom {c : Change} (h : c.IsPlain) : c.NamesFrom names envs := by
  cases c with
  | putVariable name env value source => exact absurd rfl (h.2.1 name env value source)
  | putExtraction e => exact absurd rfl (h.2.2 e)
  | _ => trivial

theorem Store.NamesFrom.apply {s s' : Store} {c : Change} (h : s.NamesFrom names envs)
    (hc : c.NamesFrom names envs) (happly : Change.apply s c = .ok s') :
    s'.NamesFrom names envs := by
  cases c with
  | insertRequest r =>
    obtain ⟨row, hinsert⟩ := eq_ok_of_map_snd happly
    obtain ⟨-, -, rfl⟩ := insertRequest_eq_ok.1 hinsert
    exact ⟨h.vars, h.targets⟩
  | dropRequest name =>
    cases happly
    exact ⟨h.vars, fun e he => h.targets e (List.mem_of_mem_filter he)⟩
  | putVariable name env value source =>
    cases happly
    refine ⟨fun v hv => ?_, h.targets⟩
    rcases mem_of_mem_putRow hv with rfl | hv
    · exact hc
    · exact h.vars v hv
  | deleteVariables doomed =>
    cases happly
    exact ⟨fun v hv => h.vars v (List.mem_of_mem_filter hv), h.targets⟩
  | declareOption request name =>
    obtain ⟨-, ⟨-, rfl⟩ | ⟨-, rfl⟩⟩ := declareOption_eq_ok.1 happly
    · exact h
    · exact ⟨h.vars, h.targets⟩
  | setOption request name value =>
    obtain ⟨row, hset⟩ := eq_ok_of_map_snd happly
    obtain ⟨-, -, rfl⟩ := setOption_eq_ok.1 hset
    exact ⟨h.vars, h.targets⟩
  | deleteOptions name request =>
    cases happly
    exact ⟨h.vars, h.targets⟩
  | putExtraction e =>
    obtain ⟨row, hput⟩ := eq_ok_of_map_snd happly
    obtain ⟨-, -, rfl, rfl⟩ := putExtraction_eq_ok.1 hput
    refine ⟨h.vars, fun e' he' => ?_⟩
    rcases mem_of_mem_putRow he' with rfl | he'
    · exact hc
    · exact h.targets e' he'
  | recordResponse r =>
    obtain ⟨row, hrecord⟩ := eq_ok_of_map_snd happly
    obtain ⟨-, -, rfl⟩ := recordResponse_eq_ok.1 hrecord
    exact ⟨h.vars, h.targets⟩
  | forgetResponses request =>
    cases happly
    exact ⟨h.vars, h.targets⟩

theorem Store.NamesFrom.changes {s s' : Store} (h : s.NamesFrom names envs)
    (hchanges : Changes (Change.NamesFrom names envs) s s') : s'.NamesFrom names envs := by
  induction hchanges with
  | refl => exact h
  | tail _ hlast ih =>
    obtain ⟨c, hc, happly⟩ := hlast
    exact ih.apply hc happly

/-! ## Names in a session -/

/-- Whether names are such in all workspaces, and the selected environment is too. -/
structure Session.NamesFrom (names envs : String → Prop) (s : Session) : Prop where
  rows : ∀ shelf, (s.rowsAt shelf).NamesFrom names envs
  environment : ∀ env ∈ s.environment, envs env

theorem Session.NamesFrom.store {s : Session} (h : s.NamesFrom names envs) :
    s.store.NamesFrom names envs := by
  cases hshelf : s.shelf? with
  | none =>
    rw [store_of_shelf?_none hshelf]
    exact ⟨nofun, nofun⟩
  | some shelf =>
    have hrows := h.rows shelf
    rw [← writable_store hshelf] at hrows
    exact ⟨hrows.vars, hrows.targets⟩

/-- What an action does that brings no other names. -/
def Session.KeepsNames (names envs : String → Prop) (s s' : Session) : Prop :=
  s.NamesFrom names envs → s'.NamesFrom names envs

instance : Std.Refl (Session.KeepsNames names envs) where
  refl _ := id

instance : IsTrans Session (Session.KeepsNames names envs) where
  trans _ _ _ h h' := h' ∘ h

theorem Session.Worked.keepsNames {s s' : Session} (h : s.Worked (Change.NamesFrom names envs) s') :
    KeepsNames names envs s s' := fun hs =>
  { rows := fun shelf => (hs.rows shelf).changes (h.rowsChange shelf)
    environment := h.environment ▸ hs.environment }

theorem Session.Worked.keepsNames_of_plain {s s' : Session} (h : s.Worked Change.IsPlain s') :
    KeepsNames names envs s s' :=
  (h.mono fun _ => Change.IsPlain.namesFrom).keepsNames

theorem Session.Worked.keepsNames_of_idle {s s' : Session} (h : s.Worked (fun _ => False) s') :
    KeepsNames names envs s s' :=
  (h.mono fun _ => False.elim).keepsNames

theorem keepsNames_modify {f : Session → Session}
    (h : ∀ s, (f s).playground = s.playground ∧ (f s).saved = s.saved ∧
      ∀ env ∈ (f s).environment, env ∈ s.environment ∨ envs env) :
    Keeps (KeepsNames names envs) (modify f : Action PUnit) :=
  Keeps.modify fun s hs =>
    { rows := fun shelf => by
        rw [rowsAt_congr (h s).1 (h s).2.1 shelf]
        exact hs.rows shelf
      environment := fun env henv => ((h s).2.2 env henv).elim (hs.environment env) id }

theorem keepsNames_showEvents (events : List Event) :
    Keeps (KeepsNames names envs) (showEvents events) :=
  (keeps_showEvents events).mono fun _ _ => Worked.keepsNames_of_idle

/-! ## Commands -/

/-- A run saves variables under the targets that are stored, in the selected environment. -/
theorem keepsNames_run (name : String) (s : Session) :
    Ends (onBench (runStored name s.environment)) s fun _ s' => KeepsNames names envs s s' := by
  by_cases hs : s.NamesFrom names envs
  · refine ends_bind.2 ((keeps_openCurrent (P := fun _ => False) s).mono fun r s₁ hopened => ?_)
    have hs₁ : s₁.NamesFrom names envs := hopened.keepsNames_of_idle hs
    cases r with
    | error e => exact fun _ => hs₁
    | ok _ =>
      have hsaved : ∀ e ∈ s₁.store.extractionsOf name, ∀ env ∈ s.environment, ∀ value,
          Change.NamesFrom names envs (.putVariable e.target env (some value) (some name)) :=
        fun e he env henv _ =>
          ⟨hs₁.store.targets e (List.mem_of_mem_filter he), hs.environment env henv⟩
      refine ends_onOpened.2 ((ends_runStored_changes (P := Change.NamesFrom names envs) hsaved
        (fun _ _ => trivial) trivial).mono fun _ b hb _ => ?_)
      have hworked : s₁.Worked (Change.NamesFrom names envs) (s₁.putBench b) := Worked.putBench hb
      exact hworked.keepsNames hs₁
  · exact ends_of_forall fun _ _ h => absurd h hs

theorem keepsNames_doSetEnvironment {name : Option String} (h : ∀ env ∈ name, envs env) :
    Keeps (KeepsNames names envs) (doSetEnvironment name) := by
  refine keeps_doSetEnvironment_of (fun _ _ => Worked.keepsNames_of_idle) (keepsNames_modify ?_)
  exact fun _ => ⟨rfl, rfl, fun env henv => .inr (h env henv)⟩

theorem keepsNames_doSetWorkspace (name : String) :
    Keeps (KeepsNames names envs) (doSetWorkspace name) := by
  have henter : Keeps (KeepsNames names envs)
      (modify fun s => { s with workspace := name } : Action PUnit) := by
    refine keepsNames_modify ?_
    exact fun _ => ⟨rfl, rfl, fun _ => .inl⟩
  have hclear : Keeps (KeepsNames names envs) clearSelection := by
    refine keepsNames_modify ?_
    exact fun _ => ⟨rfl, rfl, nofun⟩
  exact (keeps_switchWorkspace_of (fun _ _ => Worked.keepsNames_of_idle) henter).bind fun _ =>
    hclear.bind fun _ => keepsNames_showEvents _

theorem keepsNames_doSetRequest (name : Option String) :
    Keeps (KeepsNames names envs) (doSetRequest name) := by
  have hselect (name : Option String) : Keeps (KeepsNames names envs)
      (modify fun s => { s with request := name } : Action PUnit) := by
    refine keepsNames_modify ?_
    exact fun _ => ⟨rfl, rfl, fun _ => .inl⟩
  cases name with
  | none => exact (hselect none).bind fun _ => keepsNames_showEvents _
  | some name =>
    refine ((keeps_onRows (keeps_requireRequest name)).mono fun _ _ =>
      Worked.keepsNames_of_idle).bind fun r => (hselect r.name).bind fun _ => ?_
    exact keepsNames_showEvents _

theorem keepsNames_doDeleteRequests (ns : List String) :
    Keeps (KeepsNames names envs) (doDeleteRequests ns) := by
  have hdelete : Keeps (KeepsNames names envs) (Current.deleteRequests ns) :=
    (Current.keeps_deleteRequests fun _ _ => trivial).mono fun _ _ => Worked.keepsNames
  refine hdelete.bind fun deleted => (keepsNames_modify fun s => ?_).bind fun _ =>
    keepsNames_showEvents _
  split <;> exact ⟨rfl, rfl, fun _ => .inl⟩

/-- Whether a command extracts into such targets and selects such environments only. -/
def Command.NamesFrom (names envs : String → Prop) : Command → Prop
  | .extract _ _ target => names target
  | .setEnvironment name => ∀ env ∈ name, envs env
  | _ => True

section
variable (hnames : ∀ name, strip name ≠ "" → names name) (henvs : ∀ env, env ≠ "" → envs env)
include hnames henvs

/-- If all names that are checked are allowed, a command brings those that it extracts into and
selects, and no others. -/
theorem keepsNames_execute {c : Command} (hc : c.NamesFrom names envs) :
    Keeps (KeepsNames names envs) (execute c) := by
  refine keeps_execute_of_plain (fun _ _ => Worked.keepsNames_of_plain) ?_ ?_
    (fun _ _ => keeps_doRun_of (fun _ _ => Worked.keepsNames_of_idle) keepsNames_run)
    (fun ns _ => keepsNames_doDeleteRequests ns) ?_ keepsNames_doSetWorkspace
    keepsNames_doSetRequest
  · rintro name pairs -
    refine (keeps_doCreateVariable fun checked hcheck x hx => ?_).mono fun _ _ => Worked.keepsNames
    obtain ⟨hname, hpairs⟩ := checkVariable_ne_empty hcheck
    exact ⟨hnames _ hname, henvs _ (hpairs x hx)⟩
  · rintro source path target rfl
    exact (keeps_doExtract fun _ => hc).mono fun _ _ => Worked.keepsNames
  · rintro name rfl
    exact keepsNames_doSetEnvironment hc

theorem Session.NamesFrom.afterLines {lines : List String}
    (hlines : ∀ line ∈ lines, ∀ c, Command.ofLine line = .ok (some c) → c.NamesFrom names envs)
    {s : Session} (hs : s.NamesFrom names envs) : (s.afterLines lines).NamesFrom names envs := by
  induction lines generalizing s with
  | nil => exact hs
  | cons line lines ih =>
    obtain ⟨hline, hlines⟩ := List.forall_mem_cons.1 hlines
    have hkeeps : Keeps (KeepsNames names envs) (doLine line) :=
      keeps_doLine (fun c hc => keepsNames_execute hnames henvs (hline c hc))
        (fun _ _ h => ⟨h.rows, h.environment⟩)
    exact ih hlines (hkeeps.stateAfter s hs)

end

end

/-- **Where nameless variables come from.** A session begins without rows, on any disk and with
any far end. After any lines, in every workspace, a variable has a name that is not blank, unless
a line extracts into just this name, and it has an environment, unless a line selects the empty
one. -/
theorem nameless_only_where_asked_for (host : Host) (disk : Disk) (dataDir : Path) (wire : Wire)
    (lines : List String) (shelf : Shelf) :
    ∀ v ∈ ((Session.afterLines { host, disk, dataDir, wire } lines).rowsAt shelf).vars,
      (strip v.name ≠ "" ∨ ∃ line ∈ lines, ∃ source path,
        Command.ofLine line = .ok (some (.extract source path v.name))) ∧
      (v.env ≠ "" ∨
        ∃ line ∈ lines, Command.ofLine line = .ok (some (.setEnvironment (some "")))) := by
  let names (name : String) : Prop := strip name ≠ "" ∨ ∃ line ∈ lines, ∃ source path,
    Command.ofLine line = .ok (some (.extract source path name))
  let envs (env : String) : Prop :=
    env ≠ "" ∨ ∃ line ∈ lines, Command.ofLine line = .ok (some (.setEnvironment (some "")))
  have hfresh : Session.NamesFrom names envs { host, disk, dataDir, wire } := by
    refine ⟨fun shelf => ?_, nofun⟩
    cases shelf <;> exact ⟨nofun, nofun⟩
  have hlines : ∀ line ∈ lines, ∀ c, Command.ofLine line = .ok (some c) →
      c.NamesFrom names envs := by
    intro line hline c hc
    cases c with
    | extract source path target => exact .inr ⟨line, hline, source, path, hc⟩
    | setEnvironment name =>
      rintro env rfl
      by_cases henv : env = ""
      · exact .inr ⟨line, hline, henv ▸ hc⟩
      · exact .inl henv
    | _ => trivial
  exact ((hfresh.afterLines (fun _ => .inl) (fun _ => .inl) hlines).rows shelf).vars

/-- What a far end says whose answer has one header. -/
def oneHeader : Wire := { queue := [.answer 200 "OK" [("X", "v")] ""] }

/-- A variable without a name has it from the line that extracts into nothing. -/
theorem nameless_only_where_asked_for_extracted :
    let lines := ["create request ping http://h/", "set request ping",
      "extract header X --to-var ''", "set environment dev", "run"]
    let s := Session.afterLines { wire := oneHeader } lines
    ∃ v ∈ (s.rowsAt .playground).vars, v.env = "dev" ∧ ∃ line ∈ lines, ∃ source path,
      Command.ofLine line = .ok (some (.extract source path v.name)) := by
  intro lines s
  have hvars : (s.rowsAt .playground).vars = [⟨1, "", "dev", some "v", some "ping"⟩] := by
    decide +kernel
  have hv : ⟨1, "", "dev", some "v", some "ping"⟩ ∈ (s.rowsAt .playground).vars :=
    hvars ▸ List.mem_cons_self
  obtain ⟨hname, -⟩ :=
    nameless_only_where_asked_for {} {} (Path.parse "data") oneHeader lines .playground _ hv
  exact ⟨_, hv, rfl, hname.resolve_left fun hblank => hblank (by decide +kernel)⟩

/-- A variable is saved without a name and without an environment. -/
theorem nameless_only_where_asked_for_saved :
    let s := Session.afterLines { wire := oneHeader } ["create request ping http://h/",
      "set request ping", "extract header X --to-var ''", "set environment ''", "run"]
    ∃ v ∈ (s.rowsAt .playground).vars, strip v.name = "" ∧ v.env = "" := by
  decide +kernel

end Courier
