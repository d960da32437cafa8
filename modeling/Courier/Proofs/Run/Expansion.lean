/-
Courier.Proofs.Run.Expansion — the requests that a stored request stands for.

An option gives a name of a request one value for each line (`Store.givenValues?`), a
variable of the environment gives it one (`Store.variableValue?`). The names with an option
value, in ascending order (`Store.optionNames`), span a space of index tuples, and a tuple
together with the variables assigns each needed name its value (`Store.assigned?`).

`expandRequest` lists its results along the tables, this module along the names. The two
meet in `optionValues_eq` and `lookup_variableValues`, which need that the tables are in
order; `combinations_eq` then counts the combinations by their index tuples.
-/
import Courier.Proofs.Http.Template
import Courier.Proofs.Session.Operation
import Mathlib.Algebra.Order.BigOperators.GroupWithZero.List
import Mathlib.Algebra.Order.Ring.Nat

namespace Courier

open Courier.Text Courier.Http Courier.Store

/-! ## Values by name -/

namespace Store

/-- The values that the option of a request gives to a name, one for each line. -/
def givenValues? (s : Store) (r : Request) (name : String) : Option (List String) :=
  ((s.option? r.name name).bind RequestOption.value).map (splitOn '\n')

/-- The value that the variable of an environment gives to a name. -/
def variableValue? (s : Store) (env : Option String) (name : String) : Option String :=
  env.bind fun env => (s.variableAt? name env).bind Variable.value

/-- The names of a request that have option values, in ascending order. -/
def optionNames (s : Store) (r : Request) : List String :=
  r.placeholders.filter fun name => (s.givenValues? r name).isSome

/-- What a name stands for if each name with option values takes the one with its index. An
option goes before a variable. -/
def assigned? (s : Store) (r : Request) (env : Option String) (indices : List Nat)
    (name : String) : Option String :=
  match ((s.optionNames r).zip indices).lookup name with
  | some i => (s.givenValues? r name).bind fun values => values[i]?
  | none => s.variableValue? env name

end Store

theorem Store.Request.pairwise_placeholders (r : Request) : r.placeholders.Pairwise (· < ·) :=
  pairwise_ascending _

theorem pairwise_optionNames (s : Store) (r : Request) :
    (s.optionNames r).Pairwise (· < ·) :=
  r.pairwise_placeholders.filter _

/-- An option with a value has at least one line. -/
theorem ne_nil_of_givenValues? {s : Store} {r : Request} {name : String} {values : List String}
    (h : s.givenValues? r name = some values) : values ≠ [] := by
  obtain ⟨value, -, rfl⟩ := Option.map_eq_some_iff.1 h
  simp [splitOn]

theorem mem_optionNames {s : Store} {r : Request} {name : String} :
    name ∈ s.optionNames r ↔ name ∈ r.placeholders ∧ (s.givenValues? r name).isSome := by
  rw [optionNames, List.mem_filter]

/-! ## The tables, by name -/

/-- In a table that is in order, a row is found by its key. -/
theorem Store.Sound.option?_eq_some {s : Store} (h : s.Sound) {o : RequestOption}
    (ho : o ∈ s.options) : s.option? o.request o.name = some o := by
  have hfound : (s.option? o.request o.name).isSome = true := by
    rw [option?, List.find?_isSome]
    exact ⟨o, ho, by simp⟩
  obtain ⟨o', ho'⟩ := Option.isSome_iff_exists.1 hfound
  have hkey := List.find?_some ho'
  rw [Bool.and_eq_true, decide_eq_true_eq, decide_eq_true_eq] at hkey
  have hsame : o' = o :=
    h.options.eq_of_key (List.mem_of_find?_eq_some ho') ho (Prod.ext hkey.1 hkey.2)
  rw [ho', hsame]

/-- The name and the values of an option that has a value, if the name is needed. -/
def neededValues? (r : Request) (o : RequestOption) : Option (String × List String) :=
  o.value.bind fun value =>
    if r.placeholders.contains o.name then some (o.name, splitOn '\n' value) else none

theorem optionValues_eq_filterMap (s : Store) (r : Request) :
    optionValues s r = (s.optionsOf (some r.name)).filterMap (neededValues? r) := by
  rw [optionValues]
  congr 1
  funext o
  rw [neededValues?]
  cases o.value <;> rfl

theorem neededValues?_eq_some {r : Request} {o : RequestOption} {name : String}
    {values : List String} :
    neededValues? r o = some (name, values) ↔
      o.name = name ∧ name ∈ r.placeholders ∧ o.value.map (splitOn '\n') = some values := by
  rw [neededValues?, Option.bind_eq_some_iff, Option.map_eq_some_iff]
  constructor
  · rintro ⟨value, hvalue, h⟩
    split at h
    next hneeded =>
      cases h
      exact ⟨rfl, List.contains_iff_mem.1 hneeded, value, hvalue, rfl⟩
    next => exact nomatch h
  · rintro ⟨rfl, hneeded, value, hvalue, rfl⟩
    exact ⟨value, hvalue, if_pos (List.contains_iff_mem.2 hneeded)⟩

theorem mem_optionsOf {s : Store} {request : String} {o : RequestOption} :
    o ∈ s.optionsOf (some request) ↔ o ∈ s.options ∧ o.request = request := by
  simp [optionsOf, eq_comm]

theorem pairwise_optionValues {s : Store} (h : s.Sound) (r : Request) :
    (optionValues s r).Pairwise fun a b => a.1 < b.1 := by
  rw [optionValues_eq_filterMap, List.pairwise_filterMap]
  refine (h.options.filter _).imp_of_mem ?_
  intro o o' ho ho' hbefore a ha a' ha'
  have hrequest := (mem_optionsOf.1 ho).2
  have hrequest' := (mem_optionsOf.1 ho').2
  rw [← (neededValues?_eq_some.1 ha).1, ← (neededValues?_eq_some.1 ha').1]
  -- the options of one request stand in the order of their names
  simpa [keyBefore, RequestOption.tableKey, hrequest, hrequest'] using hbefore

/-- Option values along the table are option values along the names. -/
theorem optionValues_eq {s : Store} (h : s.Sound) (r : Request) :
    optionValues s r =
      (s.optionNames r).map fun name => (name, (s.givenValues? r name).getD []) := by
  have hgiven {name : String} {values : List String} :
      (name, values) ∈ optionValues s r ↔
        name ∈ r.placeholders ∧ s.givenValues? r name = some values := by
    rw [optionValues_eq_filterMap, List.mem_filterMap]
    constructor
    · rintro ⟨o, ho, hvalues⟩
      obtain ⟨ho, hrequest⟩ := mem_optionsOf.1 ho
      obtain ⟨rfl, hneeded, hvalues⟩ := neededValues?_eq_some.1 hvalues
      refine ⟨hneeded, ?_⟩
      rw [givenValues?, ← hrequest, h.option?_eq_some ho]
      exact hvalues
    · rintro ⟨hneeded, hvalues⟩
      obtain ⟨value, hvalue, rfl⟩ := Option.map_eq_some_iff.1 hvalues
      obtain ⟨o, ho, hvalue⟩ := Option.bind_eq_some_iff.1 hvalue
      have hkey := List.find?_some ho
      rw [Bool.and_eq_true, decide_eq_true_eq, decide_eq_true_eq] at hkey
      refine ⟨o, mem_optionsOf.2 ⟨List.mem_of_find?_eq_some ho, hkey.1⟩, ?_⟩
      exact neededValues?_eq_some.2 ⟨hkey.2, hneeded, by rw [hvalue]; rfl⟩
  have hsorted := pairwise_optionValues h r
  have hsorted' : ((s.optionNames r).map fun name => (name, (s.givenValues? r name).getD [])).Pairwise
      fun a b => a.1 < b.1 := by
    rw [List.pairwise_map]
    exact pairwise_optionNames s r
  refine List.Perm.eq_of_pairwise ?_ hsorted hsorted' ?_
  · intro a b _ _ hab hba
    exact absurd (hab.trans hba) (lt_irrefl _)
  · have hnodup {l : List (String × List String)} (hl : l.Pairwise fun a b => a.1 < b.1) :
        l.Nodup := by
      refine hl.imp fun hlt => ?_
      rintro rfl
      exact lt_irrefl _ hlt
    rw [List.perm_ext_iff_of_nodup (hnodup hsorted) (hnodup hsorted')]
    rintro ⟨name, values⟩
    rw [hgiven, List.mem_map]
    constructor
    · rintro ⟨hneeded, hvalues⟩
      exact ⟨name, mem_optionNames.2 ⟨hneeded, by simp [hvalues]⟩, by simp [hvalues]⟩
    · rintro ⟨name', hname, heq⟩
      obtain ⟨rfl, rfl⟩ := Prod.mk.inj heq
      obtain ⟨hneeded, hsome⟩ := mem_optionNames.1 hname
      obtain ⟨values, hvalues⟩ := Option.isSome_iff_exists.1 hsome
      exact ⟨hneeded, by simp [hvalues]⟩

/-- The first value of a name in an environment is that of its row, if there is only one. -/
theorem lookup_values_eq_find? (name env : String) {vs : List Variable}
    (h : (vs.map Variable.tableKey).Nodup) :
    ((vs.filter fun v => v.env = env).filterMap fun v =>
        v.value.map fun value => (v.name, value)).lookup name =
      (vs.find? fun v => v.name = name && v.env = env).bind Variable.value := by
  induction vs with
  | nil => rfl
  | cons v vs ih =>
    obtain ⟨hv, hvs⟩ := List.nodup_cons.1 h
    by_cases henv : v.env = env
    · by_cases hname : v.name = name
      · cases hvalue : v.value with
        | some value => simp [henv, hname, hvalue]
        | none =>
          have hrest : (vs.find? fun v => v.name = name && v.env = env) = none := by
            rw [List.find?_eq_none]
            intro w hw hkey
            rw [Bool.and_eq_true, decide_eq_true_eq, decide_eq_true_eq] at hkey
            refine hv (List.mem_map.2 ⟨w, hw, ?_⟩)
            exact Prod.ext (hkey.1.trans hname.symm) (hkey.2.trans henv.symm)
          rw [hrest] at ih
          simpa [henv, hname, hvalue] using ih hvs
      · have hskip : (name == v.name) = false := beq_false_of_ne (Ne.symm hname)
        cases hvalue : v.value with
        | some value => simpa [henv, hname, hvalue, List.lookup_cons, hskip] using ih hvs
        | none => simpa [henv, hname, hvalue] using ih hvs
    · simpa [henv] using ih hvs

/-- The values of variables along the table are their values by name. -/
theorem lookup_variableValues {s : Store} (h : s.Sound) (env : Option String) (name : String) :
    (variableValues s env).lookup name = s.variableValue? env name := by
  cases env with
  | none => rfl
  | some env =>
    have hfilter : s.variablesWhere none (some env) = s.vars.filter fun v => v.env = env := by
      simp [variablesWhere, eq_comm]
    simp only [variableValues, variableValue?, Option.bind_some, variableAt?, hfilter]
    exact lookup_values_eq_find? name env h.vars.nodup

/-- What is missing has neither an option value nor a variable. -/
theorem missingValues_eq {s : Store} (h : s.Sound) (r : Request) (env : Option String) :
    missingValues s r env = r.placeholders.filter fun name =>
      (s.givenValues? r name).isNone && (s.variableValue? env name).isNone := by
  refine List.filter_congr fun name hname => ?_
  rw [optionValues_eq h, lookup_variableValues h]
  by_cases hgiven : (s.givenValues? r name).isSome
  · have hmem : name ∈ s.optionNames r := mem_optionNames.2 ⟨hname, hgiven⟩
    rw [List.lookup_graph (f := fun name => (s.givenValues? r name).getD []) hmem]
    simp [Option.isSome_iff_ne_none.1 hgiven]
  · have hmem : name ∉ s.optionNames r := fun hmem => hgiven (mem_optionNames.1 hmem).2
    have hnone : ((s.optionNames r).map fun name =>
        (name, (s.givenValues? r name).getD [])).lookup name = none := by
      rw [List.lookup_eq_none_iff]
      rintro _ hp
      obtain ⟨name', hname', rfl⟩ := List.mem_map.1 hp
      rw [bne_iff_ne]
      rintro rfl
      exact hmem hname'
    rw [hnone, Option.not_isSome_iff_eq_none.1 hgiven]

/-! ## Index tuples -/

/-- The tuples with one index below each bound; the last index changes fastest. -/
def indexTuples : List Nat → List (List Nat)
  | [] => [[]]
  | bound :: bounds => (List.range bound).flatMap fun i => (indexTuples bounds).map (i :: ·)

theorem mem_indexTuples {bounds t : List Nat} :
    t ∈ indexTuples bounds ↔ List.Forall₂ (· < ·) t bounds := by
  induction bounds generalizing t with
  | nil => simp [indexTuples]
  | cons bound bounds ih =>
    simp only [indexTuples, List.mem_flatMap, List.mem_range, List.mem_map, ih]
    constructor
    · rintro ⟨i, hi, t, ht, rfl⟩
      exact .cons hi ht
    · intro h
      cases h with
      | cons hi ht => exact ⟨_, hi, _, ht, rfl⟩

theorem pairwise_indexTuples (bounds : List Nat) : (indexTuples bounds).Pairwise (· < ·) := by
  induction bounds with
  | nil => exact List.pairwise_singleton _ _
  | cons bound bounds ih =>
    rw [indexTuples, List.pairwise_flatMap]
    constructor
    · intro i _
      rw [List.pairwise_map]
      exact ih.imp fun hlt => List.cons_lt_cons_iff.2 (.inr ⟨rfl, hlt⟩)
    · refine List.pairwise_lt_range.imp fun hlt => ?_
      intro t ht t' ht'
      obtain ⟨u, -, rfl⟩ := List.mem_map.1 ht
      obtain ⟨u', -, rfl⟩ := List.mem_map.1 ht'
      exact List.cons_lt_cons_iff.2 (.inl hlt)

theorem length_indexTuples (bounds : List Nat) : (indexTuples bounds).length = bounds.prod := by
  induction bounds with
  | nil => rfl
  | cons bound bounds ih => simp [indexTuples, List.length_flatMap, ih]

/-- One value for each name, by its index. -/
def pick (given : List (String × List String)) (indices : List Nat) : List (String × String) :=
  List.zipWith (fun g i => (g.1, g.2.getD i "")) given indices

/-- The combinations are those of the index tuples, in their order. -/
theorem combinations_eq (given : List (String × List String)) :
    combinations given = (indexTuples (given.map fun g => g.2.length)).map (pick given) := by
  induction given with
  | nil => rfl
  | cons g given ih =>
    obtain ⟨name, values⟩ := g
    have hvalues : values = (List.range values.length).map fun i => values.getD i "" := by
      refine List.ext_getElem (by simp) fun i h _ => ?_
      simp [h]
    rw [combinations, ih]
    conv_lhs => rw [hvalues]
    simp only [List.flatMap_map, List.map_cons, indexTuples, List.map_flatMap, List.map_map]
    rfl

/-! ## What is put in -/

theorem lookup_pick (names : List String) (f : String → List String) (indices : List Nat)
    (name : String) :
    (pick (names.map fun name => (name, f name)) indices).lookup name =
      ((names.zip indices).lookup name).map fun i => (f name).getD i "" := by
  induction names generalizing indices with
  | nil => rfl
  | cons n names ih =>
    cases indices with
    | nil => rfl
    | cons i indices =>
      simp only [pick, List.map_cons, List.zipWith_cons_cons, List.zip_cons_cons, List.lookup_cons]
      by_cases hn : name = n
      · simp [hn]
      · rw [beq_false_of_ne hn]
        exact ih indices

/-- An index that a name takes is below the number of its values. -/
theorem lookup_zip_lt {names : List String} {f : String → Nat} {indices : List Nat}
    (h : List.Forall₂ (· < ·) indices (names.map f)) {name : String} {i : Nat}
    (hi : (names.zip indices).lookup name = some i) : i < f name := by
  induction names generalizing indices with
  | nil => exact nomatch hi
  | cons n names ih =>
    cases h with
    | cons hlt hrest =>
      rw [List.zip_cons_cons, List.lookup_cons] at hi
      by_cases hn : name = n
      · simp only [hn, beq_self_eq_true, Option.some.injEq] at hi
        rw [← hi, hn]
        exact hlt
      · rw [beq_false_of_ne hn] at hi
        exact ih hrest hi

theorem lookup_zip_isSome {names : List String} {indices : List Nat}
    (h : names.length = indices.length) {name : String} :
    ((names.zip indices).lookup name).isSome = true ↔ name ∈ names := by
  rw [List.lookup_isSome_iff]
  constructor
  · rintro ⟨p, hp, hname⟩
    rw [beq_iff_eq.1 hname]
    exact (List.of_mem_zip hp).1
  · intro hname
    rw [← List.map_fst_zip (Nat.le_of_eq h)] at hname
    obtain ⟨p, hp, rfl⟩ := List.mem_map.1 hname
    exact ⟨p, hp, beq_self_eq_true _⟩

/-- A request needs the names of its URL, of its headers and of its body. -/
theorem mem_placeholders {r : Request} {name : String} :
    name ∈ r.placeholders ↔ name ∈ placeholderNames r.url ∨
      (∃ line ∈ r.headers, name ∈ placeholderNames line) ∨
      ∃ bytes, r.body = some bytes ∧ name ∈ placeholderNames (decode bytes) := by
  have hempty : placeholderNames (decode []) = [] := by
    simp [placeholderNames, decode, decodeChars]
  rw [Request.placeholders, placeholdersOf, mem_ascending, List.mem_append, List.mem_append,
    List.mem_flatMap, or_assoc]
  cases r.body <;> simp [hempty]

/-- The request with one function applied to the keys of its headers and one to its other texts. -/
def Store.Request.mapTexts (r : Request) (keys texts : String → String) : PreparedRequest :=
  { method := r.method
    url := texts r.url
    headers := r.headers.map fun line => (keys (headerPair line).1, texts (headerPair line).2)
    body := r.body.map fun bytes => encode (texts (decode bytes)) }

/-- A request is filled by filling texts that have only names of the request, and no keys. -/
theorem fill_eq_mapTexts {r : Request} {values : List (String × String)} {f : String → String}
    (h : ∀ text, placeholderNames text ⊆ r.placeholders → substitute text values = f text) :
    r.fill values = r.mapTexts id f := by
  have hurl : substitute r.url values = f r.url :=
    h _ fun name hname => mem_placeholders.2 (.inl hname)
  have hheaders : ∀ line ∈ r.headers,
      substitute (headerPair line).2 values = f (headerPair line).2 := by
    intro line hline
    refine h _ fun name hname => mem_placeholders.2 (.inr (.inl ⟨line, hline, ?_⟩))
    rw [placeholderNames_headerPair]
    exact List.mem_append_right _ hname
  have hbody : ∀ bytes, r.body = some bytes →
      substitute (decode bytes) values = f (decode bytes) := fun bytes hbytes =>
    h _ fun name hname => mem_placeholders.2 (.inr (.inr ⟨bytes, hbytes, hname⟩))
  rw [Request.fill, Request.mapTexts, hurl]
  congr 1
  · rw [List.map_map]
    refine List.map_congr_left fun line hline => ?_
    simp only [Function.comp_apply, hheaders line hline, id]
  · cases hbytes : r.body with
    | none => rfl
    | some bytes => simp only [Option.map_some, hbody bytes hbytes]

/-- Of the values, only those of the names that a request needs are looked at. -/
theorem fill_congr {r : Request} {values values' : List (String × String)}
    (h : ∀ name ∈ r.placeholders, values.lookup name = values'.lookup name) :
    r.fill values = r.fill values' := by
  rw [fill_eq_mapTexts fun text hnames => substitute_congr fun name hname => h name (hnames hname),
    fill_eq_mapTexts fun _ _ => rfl]

/-- A choice of option values before the variables is what the indices assign. -/
theorem lookup_pick_append {s : Store} (h : s.Sound) (r : Request) (env : Option String)
    {indices : List Nat} (hindices : List.Forall₂ (· < ·) indices
      ((s.optionNames r).map fun name => ((s.givenValues? r name).getD []).length))
    (name : String) :
    (pick (optionValues s r) indices ++ variableValues s env).lookup name =
      s.assigned? r env indices name := by
  rw [List.lookup_append, optionValues_eq h, lookup_pick, lookup_variableValues h, assigned?]
  cases hi : ((s.optionNames r).zip indices).lookup name with
  | none => rfl
  | some i =>
    have hlt : i < ((s.givenValues? r name).getD []).length :=
      lookup_zip_lt (f := fun name => ((s.givenValues? r name).getD []).length) hindices hi
    cases hgiven : s.givenValues? r name with
    | none =>
      rw [hgiven] at hlt
      exact absurd hlt (Nat.not_lt_zero i)
    | some values =>
      rw [hgiven] at hlt
      simp only [Option.getD_some] at hlt ⊢
      simp [hlt]

/-- If nothing is missing then the indices assign a value to every name that is needed. -/
theorem isSome_assigned? {s : Store} {r : Request} {env : Option String}
    (hnone : (r.placeholders.filter fun name =>
      (s.givenValues? r name).isNone && (s.variableValue? env name).isNone) = [])
    {indices : List Nat} (hindices : List.Forall₂ (· < ·) indices
      ((s.optionNames r).map fun name => ((s.givenValues? r name).getD []).length))
    {name : String} (hname : name ∈ r.placeholders) :
    (s.assigned? r env indices name).isSome = true := by
  have hlength : (s.optionNames r).length = indices.length := by
    simpa using hindices.length_eq.symm
  rw [assigned?]
  cases hi : ((s.optionNames r).zip indices).lookup name with
  | none =>
    have hmem : name ∉ s.optionNames r := by
      intro hmem
      have hsome := (lookup_zip_isSome hlength).2 hmem
      rw [hi] at hsome
      exact nomatch hsome
    have hgiven : (s.givenValues? r name).isNone = true := by
      rw [Option.isNone_iff_eq_none, ← Option.not_isSome_iff_eq_none]
      exact fun hsome => hmem (mem_optionNames.2 ⟨hname, hsome⟩)
    have hvalue := List.filter_eq_nil_iff.1 hnone name hname
    rw [hgiven, Bool.true_and, Option.isNone_iff_eq_none] at hvalue
    exact Option.isSome_iff_ne_none.2 hvalue
  | some i =>
    have hmem : name ∈ s.optionNames r := (lookup_zip_isSome hlength).1 (by rw [hi]; rfl)
    obtain ⟨values, hvalues⟩ := Option.isSome_iff_exists.1 (mem_optionNames.1 hmem).2
    have hlt : i < ((s.givenValues? r name).getD []).length :=
      lookup_zip_lt (f := fun name => ((s.givenValues? r name).getD []).length) hindices hi
    rw [hvalues] at hlt ⊢
    simpa using hlt

/-- An option that has a value has at least one. -/
theorem valueCount_pos {s : Store} {r : Request} {bound : Nat}
    (h : bound ∈ (s.optionNames r).map fun name => ((s.givenValues? r name).getD []).length) :
    0 < bound := by
  obtain ⟨name, hname, rfl⟩ := List.mem_map.1 h
  obtain ⟨values, hvalues⟩ := Option.isSome_iff_exists.1 (mem_optionNames.1 hname).2
  rw [hvalues, Option.getD_some, List.length_pos_iff]
  exact ne_nil_of_givenValues? hvalues

/-- A request for which nothing is missing stands for one filled request for each choice of
values, in the order of their indices. -/
theorem expandRequest_eq_ok {s : Store} (hs : s.Sound) {r : Request} {env : Option String}
    (h : missingValues s r env = []) :
    expandRequest s r env = .ok
      ((indexTuples ((s.optionNames r).map fun name => ((s.givenValues? r name).getD []).length)).map
        fun t => r.fill (pick (optionValues s r) t ++ variableValues s env)) := by
  have hbounds : (optionValues s r).map (fun g => g.2.length) =
      (s.optionNames r).map fun name => ((s.givenValues? r name).getD []).length := by
    rw [optionValues_eq hs, List.map_map]
    rfl
  simp only [expandRequest, h, List.isEmpty_nil, if_true, combinations_eq, hbounds, List.map_map]
  rfl

/-- **What a request stands for.** Either there are names without a value, and the request is
refused with exactly these, or it stands for one prepared request for each index tuple, in
lexicographic order: the request with the assigned value in the place of each name. -/
theorem expandRequest_by_index (host : Host) (disk : Disk) (dataDir : Path) (wire : Wire)
    (ops : List Operation) (r : Request) (env : Option String) :
    let s := (Operation.run ops { host, disk, dataDir, wire }).store
    let bounds := (s.optionNames r).map fun name => ((s.givenValues? r name).getD []).length
    let missing := r.placeholders.filter fun name =>
      (s.givenValues? r name).isNone && (s.variableValue? env name).isNone
    r.placeholders.Pairwise (· < ·) ∧
    (missing ≠ [] → expandRequest s r env = .error (.missingValues r.name missing)) ∧
    (missing = [] → ∃ prepared, ∃ tuples : List (List Nat), expandRequest s r env = .ok prepared ∧
      (∀ t, t ∈ tuples ↔ List.Forall₂ (· < ·) t bounds) ∧ tuples.Pairwise (· < ·) ∧
      prepared.length = bounds.prod ∧ 1 ≤ bounds.prod ∧ prepared.length = tuples.length ∧
      ∀ (k : Nat) t p, tuples[k]? = some t → prepared[k]? = some p →
        (∀ name ∈ r.placeholders, (s.assigned? r env t name).isSome = true) ∧
        ∀ values : List (String × String),
          (∀ name ∈ r.placeholders, values.lookup name = s.assigned? r env t name) →
          p = {
            method := r.method
            url := substitute r.url values
            headers := r.headers.map fun line =>
              ((headerPair line).1, substitute (headerPair line).2 values)
            body := r.body.map fun bytes => encode (substitute (decode bytes) values) }) := by
  intro s bounds missing
  have hs : s.Sound := (sound_run_fresh host disk dataDir wire ops).store
  have hmissing : missingValues s r env = missing := missingValues_eq hs r env
  refine ⟨r.pairwise_placeholders, ?_, ?_⟩
  · intro hsome
    simp only [expandRequest, hmissing, List.isEmpty_iff, if_neg hsome]
  · intro hnone
    have hexpand := expandRequest_eq_ok hs (hmissing.trans hnone)
    have hbound : ∀ bound ∈ bounds, 0 < bound := fun _ => valueCount_pos
    refine ⟨_, indexTuples bounds, hexpand, fun t => mem_indexTuples, pairwise_indexTuples bounds,
      by rw [List.length_map, length_indexTuples], List.prod_pos hbound, List.length_map _, ?_⟩
    intro k t p ht hp
    rw [List.getElem?_map, ht, Option.map_some, Option.some.injEq] at hp
    have hindices := mem_indexTuples.1 (List.mem_of_getElem? ht)
    refine ⟨fun name => isSome_assigned? hnone hindices, ?_⟩
    intro values hvalues
    have hsame : ∀ name ∈ r.placeholders,
        (pick (optionValues s r) t ++ variableValues s env).lookup name = values.lookup name := by
      intro name hname
      rw [lookup_pick_append hs r env hindices, hvalues name hname]
    rw [← hp, fill_congr hsame, Request.fill, List.map_map]
    rfl

/-- An option goes before a variable, and the last name changes fastest. -/
example :
    let s : Store := {
      vars := [⟨1, "a", "dev", some "9", none⟩, ⟨2, "c", "dev", some "z", none⟩]
      options := [⟨"get", "a", some "1\n2"⟩, ⟨"get", "b", some "x\ny"⟩, ⟨"get", "c", none⟩] }
    let r : Request := { name := "get", method := "GET", url := "\x7ba\x7d\x7bc\x7d\x7bb\x7d" }
    (expandRequest s r (some "dev")).toOption.map (List.map PreparedRequest.url) =
      some ["1zx", "1zy", "2zx", "2zy"] := by
  decide +kernel

end Courier
