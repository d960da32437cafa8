/-
Courier.Proofs.Store.Assignment — setting a variable in several environments at once.

A pair `env=value` is taken apart at its first sign (`environmentOf`, `valueOf`). A name and pairs
are taken if none of four things is wrong with them (`Unsettable`), and then every pair counts:
no pair can be refused once the first one is stored.

The values are stored one after the other. Their environments are different, so that a row that
was put stays when the next one is, and a row that is still to be put is found with the number
that it had at the beginning. `Store.SetIn` says what has become of the store at the end.
-/
import Courier.Proofs.Store.Rules
import Courier.Store.Variables

namespace Courier

open Courier.Text Courier.Store

/-! ## Pairs -/

/-- The text in front of the first sign of a pair. -/
def environmentOf (pair : String) : String := String.ofList (pair.toList.takeWhile (· ≠ '='))

/-- The text behind the first sign of a pair. -/
def valueOf (pair : String) : String := String.ofList (pair.toList.dropWhile (· ≠ '=')).tail

/-- What is wrong with a pair: it has no sign, or no environment in front of it. -/
def Unpaired (pair : String) : Prop := '=' ∉ pair.toList ∨ environmentOf pair = ""

instance (pair : String) : Decidable (Unpaired pair) := inferInstanceAs (Decidable (_ ∨ _))

/-- What can be wrong with a variable that is to be set: its name is blank, there is no pair, a
pair is none, or two pairs are about one environment. -/
def Unsettable (name : String) (pairs : List String) : Prop :=
  strip name = "" ∨ pairs = [] ∨ (∃ pair ∈ pairs, Unpaired pair) ∨
    ¬ (pairs.map environmentOf).Nodup

instance (name : String) (pairs : List String) : Decidable (Unsettable name pairs) :=
  inferInstanceAs (Decidable (_ ∨ _ ∨ _ ∨ _))

theorem cutChars_eq (c : Char) (cs : List Char) :
    cutChars c cs = (cs.takeWhile (· ≠ c),
      if c ∈ cs then some (cs.dropWhile (· ≠ c)).tail else none) := by
  induction cs with
  | nil => rfl
  | cons x xs ih =>
    rw [cutChars]
    by_cases hx : x = c
    · simp [hx]
    · simp [hx, ih, Ne.symm hx]

theorem cut_pair (pair : String) :
    cut '=' pair =
      (environmentOf pair, if '=' ∈ pair.toList then some (valueOf pair) else none) := by
  rw [cut, cutChars_eq]
  by_cases hsign : '=' ∈ pair.toList
  · simp only [if_pos hsign]
    rfl
  · simp only [if_neg hsign]
    rfl

theorem parsePair_eq (pair : String) :
    parsePair pair =
      if Unpaired pair then .error (.malformedPair pair)
      else .ok (environmentOf pair, valueOf pair) := by
  rw [parsePair, cut_pair]
  by_cases hsign : '=' ∈ pair.toList
  · simp only [Unpaired, hsign, if_true, not_true, false_or, String.isEmpty_iff]
  · simp [Unpaired, hsign]

/-- What is asked of pairs: each of them is one, and no environment occurs twice or was seen
before. -/
structure Pairable (seen pairs : List String) : Prop where
  paired : ∀ pair ∈ pairs, ¬ Unpaired pair
  unseen : ∀ pair ∈ pairs, environmentOf pair ∉ seen
  nodup : (pairs.map environmentOf).Nodup

theorem pairable_cons {seen pairs : List String} {pair : String} :
    Pairable seen (pair :: pairs) ↔
      ¬ Unpaired pair ∧ environmentOf pair ∉ seen ∧ Pairable (environmentOf pair :: seen) pairs := by
  constructor
  · rintro ⟨hpaired, hunseen, hnodup⟩
    obtain ⟨hpair, hpaired⟩ := List.forall_mem_cons.1 hpaired
    obtain ⟨hfirst, hunseen⟩ := List.forall_mem_cons.1 hunseen
    obtain ⟨hnew, hnodup⟩ := List.nodup_cons.1 hnodup
    refine ⟨hpair, hfirst, hpaired, fun other hother hmem => ?_, hnodup⟩
    rcases List.mem_cons.1 hmem with hsame | hmem
    · exact hnew (hsame ▸ List.mem_map_of_mem hother)
    · exact hunseen other hother hmem
  · rintro ⟨hpair, hfirst, hpaired, hunseen, hnodup⟩
    refine ⟨List.forall_mem_cons.2 ⟨hpair, hpaired⟩,
      List.forall_mem_cons.2 ⟨hfirst, fun other hother hmem => ?_⟩,
      List.nodup_cons.2 ⟨fun hmem => ?_, hnodup⟩⟩
    · exact hunseen other hother (List.mem_cons_of_mem _ hmem)
    · obtain ⟨other, hother, hsame⟩ := List.mem_map.1 hmem
      exact hunseen other hother (hsame ▸ List.mem_cons_self)

theorem parsePairs_eq_ok_iff {seen pairs : List String} {values : List (String × String)} :
    parsePairs seen pairs = .ok values ↔ Pairable seen pairs ∧
      values = pairs.map fun pair => (environmentOf pair, valueOf pair) := by
  induction pairs generalizing seen values with
  | nil =>
    have hnone : Pairable seen [] := ⟨nofun, nofun, List.nodup_nil⟩
    simp [parsePairs, hnone, eq_comm]
  | cons pair pairs ih =>
    rw [parsePairs, parsePair_eq, pairable_cons]
    by_cases hpair : Unpaired pair
    · simp [hpair]
    · by_cases hseen : environmentOf pair ∈ seen
      · simp [hpair, hseen]
      · simp only [hpair, hseen, List.contains_iff_mem, if_false, not_false_eq_true, true_and]
        cases hrest : parsePairs (environmentOf pair :: seen) pairs with
        | error fault =>
          have hunpairable : ¬ Pairable (environmentOf pair :: seen) pairs := fun h =>
            nomatch hrest.symm.trans (ih.2 ⟨h, rfl⟩)
          simp [hunpairable, Except.map]
        | ok rest =>
          obtain ⟨hpairable, rfl⟩ := ih.1 hrest
          simp only [Except.map, hpairable, true_and, Except.ok.injEq, List.map_cons]
          exact eq_comm

theorem not_unsettable_iff {name : String} {pairs : List String} :
    ¬ Unsettable name pairs ↔ strip name ≠ "" ∧ pairs ≠ [] ∧ Pairable [] pairs := by
  simp only [Unsettable, not_or, not_exists, not_and, not_not]
  constructor
  · rintro ⟨hname, hsome, hpaired, hnodup⟩
    exact ⟨hname, hsome, hpaired, fun _ _ => List.not_mem_nil, hnodup⟩
  · rintro ⟨hname, hsome, hpaired, -, hnodup⟩
    exact ⟨hname, hsome, hpaired, hnodup⟩

/-- A variable can be set if nothing is wrong with it. -/
theorem checkVariable_eq_ok_iff {name : String} {pairs : List String}
    {checked : String × List (String × String)} :
    checkVariable name pairs = .ok checked ↔ ¬ Unsettable name pairs ∧
      checked = (strip name, pairs.map fun pair => (environmentOf pair, valueOf pair)) := by
  rw [not_unsettable_iff, checkVariable]
  simp only [bind, Except.bind, pure, Except.pure, throw, throwThe, MonadExceptOf.throw,
    String.isEmpty_iff]
  by_cases hname : strip name = ""
  · simp [hname]
  · cases hvalues : parsePairs [] pairs with
    | error fault =>
      have hunpairable : ¬ Pairable [] pairs := fun h =>
        nomatch hvalues.symm.trans (parsePairs_eq_ok_iff.2 ⟨h, rfl⟩)
      simp [hname, hunpairable]
    | ok values =>
      obtain ⟨hpairable, rfl⟩ := parsePairs_eq_ok_iff.1 hvalues
      by_cases hsome : pairs = []
      · simp [hname, hsome]
      · simp only [hname, hsome, hpairable, if_false, List.isEmpty_iff, List.map_eq_nil_iff,
          Except.ok.injEq, ne_eq, not_false_eq_true, true_and]
        exact eq_comm

namespace Store

/-! ## Rows -/

/-- What has become of a store in which a variable was set in several environments. -/
structure SetIn (s : Store) (name source : String) (values : List (String × String))
    (rows : List Variable) (s' : Store) : Prop where
  /-- There is a row for each value, and they are listed in the order of the values. -/
  listed : rows.map (fun v => (v.name, v.env, v.value, v.source)) =
    values.map fun x => (name, x.1, some x.2, some source)
  /-- It is the only row of its name and environment. -/
  only : ∀ row ∈ rows, s'.vars.filter (fun v => v.name = row.name && v.env = row.env) = [row]
  /-- If there was a row of this name and environment then it has the number of that. -/
  number : ∀ row ∈ rows, ∀ v ∈ s.vars, v.name = row.name → v.env = row.env → row.id = v.id
  /-- The other variables are what they were, in the order in which they stood. -/
  others : s'.vars.filter (fun v => v.name ≠ name || v.env ∉ values.map Prod.fst) =
    s.vars.filter (fun v => v.name ≠ name || v.env ∉ values.map Prod.fst)
  /-- And so is everything else. -/
  rest : s' = { s with vars := s'.vars, lastVariable := s'.lastVariable }

theorem variableAt?_of_mem {s : Store} (h : Ordered Variable.tableKey s.vars) {v : Variable}
    (hv : v ∈ s.vars) : s.variableAt? v.name v.env = some v := by
  cases hfound : s.variableAt? v.name v.env with
  | none =>
    have hnone := List.find?_eq_none.1 hfound v hv
    simp at hnone
  | some w =>
    obtain ⟨hw, hkey⟩ := variableAt?_eq_some hfound
    exact congrArg some (h.eq_of_key hw hv hkey)

/-- A row that is there keeps its number when it is given another value. -/
theorem putVariable_id {s : Store} (h : Ordered Variable.tableKey s.vars) {v : Variable}
    (hv : v ∈ s.vars) (value source : Option String) :
    (s.putVariable v.name v.env value source).1.id = v.id := by
  simp only [putVariable, variableAt?_of_mem h hv]

/-- What asks for none of the rows that are put does not see them. -/
theorem filter_setVariable (s : Store) {name source : String} {values : List (String × String)}
    {p : Variable → Bool} (h : ∀ x ∈ values, ∀ v : Variable, v.tableKey = (name, x.1) → p v = false) :
    (s.setVariable name source values).2.vars.filter p = s.vars.filter p := by
  induction values generalizing s with
  | nil => rfl
  | cons x values ih =>
    obtain ⟨hx, hvalues⟩ := List.forall_mem_cons.1 h
    rw [setVariable]
    exact (ih _ hvalues).trans (filter_putRow hx)

theorem ordered_setVariable {s : Store} (h : Ordered Variable.tableKey s.vars) (name source : String)
    (values : List (String × String)) :
    Ordered Variable.tableKey (s.setVariable name source values).2.vars := by
  induction values generalizing s with
  | nil => exact h
  | cons x values ih => exact ih (h.putRow _)

/-- Setting a variable touches variables only. -/
theorem setVariable_rest (s : Store) (name source : String) (values : List (String × String)) :
    (s.setVariable name source values).2 =
      { s with
        vars := (s.setVariable name source values).2.vars
        lastVariable := (s.setVariable name source values).2.lastVariable } := by
  induction values generalizing s with
  | nil => rfl
  | cons x values ih => exact ih _

/-- A row that is put stays when rows of other environments are put behind it. -/
theorem mem_setVariable {s : Store} {name source : String} {values : List (String × String)}
    {row : Variable} (hrow : row ∈ s.vars) (henv : row.env ∉ values.map Prod.fst) :
    row ∈ (s.setVariable name source values).2.vars := by
  have hkept : (s.setVariable name source values).2.vars.filter (fun v => v.env = row.env) =
      s.vars.filter (fun v => v.env = row.env) := by
    refine s.filter_setVariable fun x hx v hkey => decide_eq_false fun hsame => henv ?_
    have hxenv : v.env = x.1 := congrArg Prod.snd hkey
    exact List.mem_map.2 ⟨x, hx, hxenv.symm.trans hsame⟩
  refine List.mem_of_mem_filter (p := fun v => v.env = row.env) ?_
  rw [hkept]
  exact List.mem_filter.2 ⟨hrow, decide_eq_true rfl⟩

/-- The rows that are given back are those of the values, in their order. -/
theorem listed_setVariable (s : Store) (name source : String) (values : List (String × String)) :
    (s.setVariable name source values).1.map (fun v => (v.name, v.env, v.value, v.source)) =
      values.map fun x => (name, x.1, some x.2, some source) := by
  induction values generalizing s with
  | nil => rfl
  | cons x values ih =>
    rw [setVariable, List.map_cons, List.map_cons, ih]
    rfl

theorem tableKey_of_mem_setVariable {s : Store} {name source : String}
    {values : List (String × String)} {row : Variable}
    (hrow : row ∈ (s.setVariable name source values).1) :
    row.name = name ∧ row.env ∈ values.map Prod.fst := by
  have hmem : (row.name, row.env, row.value, row.source) ∈
      values.map fun x => (name, x.1, some x.2, some source) := by
    rw [← listed_setVariable s]
    exact List.mem_map_of_mem hrow
  obtain ⟨x, hx, hsame⟩ := List.mem_map.1 hmem
  simp only [Prod.mk.injEq] at hsame
  exact ⟨hsame.1.symm, List.mem_map.2 ⟨x, hx, hsame.2.1⟩⟩

/-- They are there at the end. -/
theorem mem_vars_setVariable {s : Store} {name source : String} {values : List (String × String)}
    (hnodup : (values.map Prod.fst).Nodup) {row : Variable}
    (hrow : row ∈ (s.setVariable name source values).1) :
    row ∈ (s.setVariable name source values).2.vars := by
  induction values generalizing s with
  | nil => exact nomatch hrow
  | cons x values ih =>
    obtain ⟨hnew, hvalues⟩ := List.nodup_cons.1 hnodup
    rw [setVariable] at hrow ⊢
    rcases List.mem_cons.1 hrow with rfl | hrow
    · exact mem_setVariable (mem_putRow_self _ _) hnew
    · exact ih hvalues hrow

/-- If there was a row of its name and environment then a row has the number of that. -/
theorem id_of_mem_setVariable {s : Store} (h : Ordered Variable.tableKey s.vars)
    {name source : String} {values : List (String × String)} (hnodup : (values.map Prod.fst).Nodup)
    {row v : Variable} (hrow : row ∈ (s.setVariable name source values).1) (hv : v ∈ s.vars)
    (hkey : v.tableKey = row.tableKey) : row.id = v.id := by
  induction values generalizing s with
  | nil => exact nomatch hrow
  | cons x values ih =>
    obtain ⟨env, value⟩ := x
    obtain ⟨hnew, hvalues⟩ := List.nodup_cons.1 hnodup
    rw [setVariable] at hrow
    rcases List.mem_cons.1 hrow with rfl | hrow
    · obtain ⟨hname, henv⟩ := Prod.mk.inj hkey
      obtain rfl : v.name = name := hname
      obtain rfl : v.env = env := henv
      exact putVariable_id h hv _ _
    · refine ih (h.putRow _) hvalues hrow (mem_putRow_of_ne hv fun hsame => hnew ?_)
      -- the row that was put has another environment, so that it did not take the place of `v`
      have henv : row.env = env := congrArg Prod.snd (hkey.symm.trans hsame)
      exact henv ▸ (tableKey_of_mem_setVariable hrow).2

/-- A variable is set in the environments that are asked for, and nowhere else. -/
theorem setIn_setVariable {s : Store} (h : Ordered Variable.tableKey s.vars) {name source : String}
    {values : List (String × String)} (hnodup : (values.map Prod.fst).Nodup) :
    s.SetIn name source values (s.setVariable name source values).1
      (s.setVariable name source values).2 where
  listed := s.listed_setVariable name source values
  only := by
    intro row hrow
    have hthere := mem_vars_setVariable hnodup hrow
    refine (ordered_setVariable h name source values).filter_key hthere fun v => ?_
    simp [Variable.tableKey]
  number := by
    intro row hrow v hv hname henv
    exact id_of_mem_setVariable h hnodup hrow hv (Prod.ext hname henv)
  others := by
    refine s.filter_setVariable fun x hx v hkey => ?_
    obtain ⟨hname, henv⟩ := Prod.mk.inj hkey
    simp only [hname, henv]
    simpa using ⟨_, hx⟩
  rest := setVariable_rest s name source values

end Store

end Courier
