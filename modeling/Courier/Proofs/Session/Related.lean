/-
Courier.Proofs.Session.Related — what is offered for a new request because of its name.

A new request is offered the URLs and headers of those stored requests whose names are found with
its suffix (`Offers`). They stand in the order of the names, and what is given again is left out
where it is repeated (`Listed`). `offers_of_resembling_requests` says so for every session, and
that nothing but the length of the suffix or a workspace out of reach prevents it.

The requests that are found are those whose names resemble one with the suffix, for the suffix is
taken for a pattern. They are those whose names have the suffix if all its characters stand for
themselves only, and otherwise there are names that are found without having it.
-/
import Courier.Proofs.Completion.Groups
import Courier.Proofs.Session.Readiness
import Courier.Proofs.Session.Suggestion
import Courier.Proofs.Text.Like

namespace Courier

open Courier.Text Courier.Http Courier.Grammar Courier.Store Courier.Database Session

/-! ## What rows give -/

/-- Of what rows give, that appears first which the first row gives. -/
theorem AppearsBefore.of_flatMap {α β : Type} {R : α → α → Prop} {rows : List α}
    (hrows : rows.Pairwise R) {gives : α → List β} {x y : β}
    (h : AppearsBefore (rows.flatMap gives) x y) :
    ∃ r ∈ rows, x ∈ gives r ∧
      ∀ r' ∈ rows, y ∈ gives r' → R r r' ∨ r' = r ∧ AppearsBefore (gives r) x y := by
  induction hrows with
  | nil =>
    obtain ⟨seen, hseen, hx, -⟩ := h
    exact absurd (hseen.subset hx) List.not_mem_nil
  | @cons r rows hr _ ih =>
    -- If the first row gives `x` then it is the one.
    have hfirst (hx : x ∈ gives r) (hsame : y ∈ gives r → AppearsBefore (gives r) x y) :
        ∃ q ∈ r :: rows, x ∈ gives q ∧
          ∀ r' ∈ r :: rows, y ∈ gives r' → R q r' ∨ r' = q ∧ AppearsBefore (gives q) x y := by
      refine ⟨r, List.mem_cons_self, hx, ?_⟩
      intro r' hr' hy
      rcases List.mem_cons.mp hr' with rfl | hlater
      · exact .inr ⟨rfl, hsame hy⟩
      · exact .inl (hr r' hlater)
    obtain ⟨seen, hseen, hx, hy⟩ := h
    rw [List.flatMap_cons] at hseen
    rcases List.prefix_or_prefix_of_prefix hseen (List.prefix_append (gives r) _) with
      hwithin | ⟨later, rfl⟩
    · exact hfirst (hwithin.subset hx) fun _ => ⟨seen, hwithin, hx, hy⟩
    · rw [List.prefix_append_right_inj] at hseen
      rw [List.mem_append] at hx
      rw [List.mem_append, not_or] at hy
      rcases hx with hx | hx
      · exact hfirst hx fun hagain => absurd hagain hy.1
      · obtain ⟨q, hq, hgives, hrest⟩ := ih ⟨later, hseen, hx, hy.2⟩
        refine ⟨q, List.mem_cons_of_mem r hq, hgives, ?_⟩
        intro r' hr' hagain
        rcases List.mem_cons.mp hr' with rfl | hlater
        · exact absurd hagain hy.1
        · exact hrest r' hlater hagain

/-- What requests give, each once and where it is first given, in the order of their names. -/
structure Listed (related : Request → Prop) (gives : Request → List String) (xs : List String) :
    Prop where
  nodup : xs.Nodup
  mem : ∀ x, x ∈ xs ↔ ∃ r, related r ∧ x ∈ gives r
  ordered : xs.Pairwise fun x y => ∃ r, related r ∧ x ∈ gives r ∧
    ∀ r', related r' → y ∈ gives r' → r.name < r'.name ∨ r' = r ∧ AppearsBefore (gives r) x y

theorem listed_of_ordered {rows : List Request} (h : Ordered Request.tableKey rows)
    (gives : Request → List String) :
    Listed (· ∈ rows) gives (rows.flatMap gives).eraseDups := by
  have hnames : rows.Pairwise fun r r' => r.name < r'.name :=
    h.imp fun hkey => by simpa [keyBefore, Request.tableKey] using hkey
  refine ⟨nodup_eraseDups _, ?_, ?_⟩
  · intro x
    rw [List.mem_eraseDups, List.mem_flatMap]
  · exact (appears_eraseDups _).imp fun hbefore => hbefore.of_flatMap hnames

/-! ## What is offered -/

/-- The headers that have been given to the request being typed. -/
def givenHeaders (typed : Snapshot) : List String := (typed.options.lookup .header).getD []

/-- The headers of a request that have not been given, whatever the white space in them. -/
def newHeaders (typed : Snapshot) (r : Request) : List String :=
  r.headers.filter fun h => looseHeader h ∉ (givenHeaders typed).map looseHeader

/-- The URLs and headers of related requests, and behind them the headers that are offered
everywhere. -/
structure Offers (related : Request → Prop) (typed : Snapshot) (urls headers : List String) :
    Prop where
  urls : Listed related (fun r => [r.url]) urls
  headers : ∃ stored, Listed related (newHeaders typed) stored ∧
    headers = stored ++ (commonHeaders.map (· ++ ":")).filter (· ∉ stored)

theorem nodup_commonHeaders : (commonHeaders.map (· ++ ":")).Nodup := by decide +kernel

theorem relatedHeaders_eq (s : Store) (typed : Snapshot) :
    relatedHeaders s typed
      = (((relatedRequests s typed).flatMap (newHeaders typed))
          ++ commonHeaders.map (· ++ ":")).eraseDups := by
  have hnew : newHeaders typed = fun r => r.headers.filter fun h =>
      !((givenHeaders typed).map looseHeader).contains (looseHeader h) := by
    funext r
    rw [newHeaders]
    congr 1
    funext h
    rw [← List.elem_eq_contains, List.elem_eq_mem, decide_not]
  rw [hnew, ← List.filter_flatMap]
  rfl

theorem offers_of_ordered {s : Store} (h : Ordered Request.tableKey s.requests)
    (typed : Snapshot) :
    Offers (· ∈ relatedRequests s typed) typed (relatedUrls s typed) (relatedHeaders s typed) := by
  have hrelated : Ordered Request.tableKey (relatedRequests s typed) := by
    rw [relatedRequests]
    split
    · exact .nil
    · exact h.filter _
  constructor
  · rw [relatedUrls, List.map_eq_flatMap]
    exact listed_of_ordered hrelated _
  · refine ⟨_, listed_of_ordered hrelated _, ?_⟩
    rw [relatedHeaders_eq]
    generalize (relatedRequests s typed).flatMap (newHeaders typed) = stored
    have hcommon : ((commonHeaders.map (· ++ ":")).removeAll stored).Nodup :=
      nodup_commonHeaders.filter _
    rw [List.eraseDups_append, eraseDups_of_nodup hcommon]
    simp [List.removeAll]

theorem mem_relatedRequests {s : Store} {typed : Snapshot} {suffix : String}
    (h : nameSuffix? (newName typed) = some suffix) {r : Request} :
    r ∈ relatedRequests s typed ↔ r ∈ s.requests ∧ Resembles suffix r.name := by
  rw [relatedRequests, relatedPattern?, h]
  simp [requestsLike, like_dashed_iff]

/-! ## Answers -/

/-- Whether a pattern is looked for among these requests, rather than found too long. -/
def Searchable (pattern : String) (rows : List Request) : Prop :=
  pattern.utf8ByteSize ≤ maxPattern ∨ rows = []

theorem ends_checkPattern {pattern : String} {s : Store} {Q : Except Failure Unit → Store → Prop} :
    Ends (checkPattern pattern) s Q ↔
      (Searchable pattern s.requests → Q (.ok ()) s) ∧
      (¬ Searchable pattern s.requests → Q (.error .patternTooLong) s) := by
  have hlong : (maxPattern < pattern.utf8ByteSize && !s.requests.isEmpty) = true
      ↔ ¬ Searchable pattern s.requests := by
    simp [Searchable]
  refine ends_bind.trans (ends_get.trans ?_)
  dsimp only
  split
  next h => simp [hlong.mp h]
  next h =>
    rw [hlong, not_not] at h
    simp [h]

/-- The question is answered from the rows that are there, if the workspace is in reach. -/
theorem ends_askRows {α : Type} (question : Store → α) (s : Session) :
    Ends (askRows question) s fun r _ =>
      r = .ok (question s.store) ∨ ∃ fault, r = .error (.storage fault) := by
  refine ends_bind.2 ((ends_openCurrent_store s).mono fun r s₁ h => ?_)
  obtain ⟨hstore, rfl | ⟨fault, rfl⟩⟩ := h
  · refine ends_bind.2 (ends_get.2 (ends_pure.2 (.inl ?_)))
    rw [hstore]
  · exact .inr ⟨fault, rfl⟩

theorem ends_onRows_checkPattern (pattern : String) (s : Session) :
    Ends (onRows (checkPattern pattern)) s fun r s' => s'.store = s.store ∧
      ((Searchable pattern s.store.requests ∧ r = .ok ()) ∨
        (¬ Searchable pattern s.store.requests ∧ r = .error .patternTooLong) ∨
        ∃ fault, r = .error (.storage fault)) := by
  refine ends_bind.2 (((ends_openCurrent_store s).and (ends_openCurrent_shelf s)).mono ?_)
  intro r s₁ ⟨⟨hstore, hresult⟩, hshelf⟩
  rcases hresult with rfl | ⟨fault, rfl⟩
  · obtain ⟨shelf, hshelf⟩ := hshelf rfl
    have hkept : (s₁.putBench ⟨s₁.store, s₁.wire⟩).store = s.store :=
      (store_putBench_of_shelf? hshelf rfl).trans hstore
    refine ends_onOpened.2 (ends_onStore.2 (ends_checkPattern.2 ?_))
    dsimp only
    constructor
    · intro h
      rw [hstore] at h
      exact ⟨hkept, .inl ⟨h, rfl⟩⟩
    · intro h
      rw [hstore] at h
      exact ⟨hkept, .inr (.inl ⟨h, rfl⟩)⟩
  · exact ⟨hstore, .inr (.inr ⟨fault, rfl⟩)⟩

/-- What comes from requests that match a pattern is computed from the rows that are there, unless
the pattern is too long or the workspace out of reach. -/
theorem ends_matching (pattern : String) (values : Store → List String) (s : Session) :
    Ends (Source.matching pattern values).values s fun r _ =>
      (Searchable pattern s.store.requests ∧ r = .ok (values s.store)) ∨
      (¬ Searchable pattern s.store.requests ∧ r = .error .patternTooLong) ∨
      ∃ fault, r = .error (.storage fault) := by
  refine ends_bind.2 ((ends_onRows_checkPattern pattern s).mono fun r s₁ h => ?_)
  obtain ⟨hstore, ⟨hfits, rfl⟩ | ⟨hlong, rfl⟩ | ⟨fault, rfl⟩⟩ := h
  · refine (ends_askRows values s₁).mono fun r _ h => ?_
    rw [hstore] at h
    rcases h with rfl | hfault
    · exact .inl ⟨hfits, rfl⟩
    · exact .inr (.inr hfault)
  · exact .inr (.inl ⟨hlong, rfl⟩)
  · exact .inr (.inr ⟨fault, rfl⟩)

/-- A workspace that is open is in reach. -/
theorem failsFrom_matching {s : Session} (hs : s.Ready) (pattern : String)
    (values : Store → List String) :
    FailsFrom (· = .patternTooLong) (Source.matching pattern values).values s := by
  have hcheck : FailsFrom (· = .patternTooLong) (onRows (checkPattern pattern)) s := by
    refine (ends_bind_of_eq_ok hs.openCurrent).2 (ends_onOpened.2 (ends_onStore.2 ?_))
    exact ends_checkPattern.2 ⟨fun _ => nofun, fun _ e he => (Except.error.inj he).symm⟩
  have hinside := (Local.rows (keeps_checkPattern pattern)).inside hs
  refine ends_bind.2 ((Ends.and hcheck hinside).mono fun r s₁ h => ?_)
  cases r with
  | ok _ =>
    have hs₁ : s₁.Ready := h.2.ready hs
    refine (ends_bind_of_eq_ok hs₁.openCurrent).2 (ends_bind.2 (ends_get.2 (ends_pure.2 ?_)))
    exact nofun
  | error e =>
    intro e' he
    exact h.1 e' (by simpa using he)

/-! ## Related values -/

section
variable {typed : Snapshot} {suffix : String}

/-- The answer to a question about related requests. -/
def relatedValues (typed : Snapshot) (values : Store → Snapshot → List String) :
    Action (List String) :=
  (relatedSource typed fun s => values s typed).values

theorem values_sourceOf_url (selected : Selection) (typed : Snapshot) :
    (sourceOf selected ⟨.createRequest, .arg .url, typed⟩).values
      = relatedValues typed relatedUrls :=
  rfl

theorem values_sourceOf_header (selected : Selection) (typed : Snapshot) :
    (sourceOf selected ⟨.createRequest, .opt .header, typed⟩).values
      = relatedValues typed relatedHeaders :=
  rfl

theorem relatedValues_of_none (h : nameSuffix? (newName typed) = none)
    (values : Store → Snapshot → List String) :
    relatedValues typed values = pure (values {} typed) := by
  rw [relatedValues, relatedSource, relatedPattern?, h]
  rfl

theorem relatedValues_of_some (h : nameSuffix? (newName typed) = some suffix)
    (values : Store → Snapshot → List String) :
    relatedValues typed values
      = (Source.matching ("%-" ++ suffix) fun s => values s typed).values := by
  rw [relatedValues, relatedSource, relatedPattern?, h]
  rfl

theorem relatedUrls_of_none (h : nameSuffix? (newName typed) = none) :
    relatedUrls {} typed = [] := by
  rw [relatedUrls, relatedRequests, relatedPattern?, h]
  rfl

theorem relatedHeaders_of_none (h : nameSuffix? (newName typed) = none) :
    relatedHeaders {} typed = commonHeaders.map (· ++ ":") := by
  rw [relatedHeaders_eq, relatedRequests, relatedPattern?, h]
  exact eraseDups_of_nodup nodup_commonHeaders

/-- What is answered is computed from the rows that are there. -/
theorem eq_of_relatedValues (h : nameSuffix? (newName typed) = some suffix)
    {values : Store → Snapshot → List String} {s s' : Session} {xs : List String}
    (hrun : relatedValues typed values s = .ok xs s') : xs = values s.store typed := by
  rw [relatedValues_of_some h] at hrun
  obtain ⟨-, hxs⟩ | ⟨-, hxs⟩ | ⟨fault, hxs⟩ := (ends_matching _ _ s).of_eq_ok hrun
  · exact Except.ok.inj hxs
  · exact nomatch hxs
  · exact nomatch hxs

/-- In a workspace that is open there is an answer, unless the pattern is too long. -/
theorem relatedValues_of_ready {s : Session} (hs : s.Ready)
    (h : nameSuffix? (newName typed) = some suffix) (values : Store → Snapshot → List String) :
    (Searchable ("%-" ++ suffix) s.store.requests →
      ∃ xs s', relatedValues typed values s = .ok xs s') ∧
    (¬ Searchable ("%-" ++ suffix) s.store.requests →
      ∃ s', relatedValues typed values s = .error .patternTooLong s') := by
  rw [relatedValues_of_some h]
  have hends := ends_matching ("%-" ++ suffix) (fun s => values s typed) s
  have hfails := failsFrom_matching hs ("%-" ++ suffix) fun s => values s typed
  cases hrun : (Source.matching ("%-" ++ suffix) fun s => values s typed).values s with
  | ok xs s' =>
    obtain ⟨hfits, -⟩ | ⟨-, hxs⟩ | ⟨fault, hxs⟩ := hends.of_eq_ok hrun
    · exact ⟨fun _ => ⟨xs, s', rfl⟩, fun hlong => absurd hfits hlong⟩
    · exact nomatch hxs
    · exact nomatch hxs
  | error e s' =>
    obtain rfl := hfails.failure hrun
    obtain ⟨-, hxs⟩ | ⟨hlong, -⟩ | ⟨fault, hxs⟩ := hends.of_eq_error hrun
    · exact nomatch hxs
    · exact ⟨fun hfits => absurd hfits hlong, fun _ => ⟨s', rfl⟩⟩
    · exact nomatch hxs

theorem Offers.congr {related related' : Request → Prop} {urls headers : List String}
    (h : Offers related typed urls headers) (hsame : ∀ r, related r ↔ related' r) :
    Offers related' typed urls headers := by
  obtain rfl : related = related' := funext fun r => propext (hsame r)
  exact h

/-- The answers about URLs and headers are what is offered for a new request. -/
theorem offers_of_relatedValues {s s₁ s₂ : Session} (hsound : s.store.Sound)
    (h : nameSuffix? (newName typed) = some suffix) {us hs : List String}
    (hurls : relatedValues typed relatedUrls s = .ok us s₁)
    (hheaders : relatedValues typed relatedHeaders s = .ok hs s₂) :
    Offers (fun r => r ∈ s.store.requests ∧ Resembles suffix r.name) typed us hs := by
  rw [eq_of_relatedValues h hurls, eq_of_relatedValues h hheaders]
  exact (offers_of_ordered hsound.requests typed).congr fun r => mem_relatedRequests h

end

/-- **What is offered for a new request because of its name.** Whatever was done before, without
a suffix nothing that is stored is offered. With one, the URLs and headers of those requests are
offered whose names resemble one with the suffix. In an ordinary data directory these answers are
given unless there are requests and the pattern is too long.

Among those requests are all whose names have the suffix. No other names resemble one with it,
exactly if all characters of the suffix stand for themselves only, and then those requests are
offered whose names have it. -/
theorem offers_of_resembling_requests (host : Host) (disk : Disk) (dataDir : Path) (wire : Wire)
    (ops : List Operation) (selected : Selection) (typed : Snapshot) :
    let s := Operation.run ops { host, disk, dataDir, wire }
    let rows := s.store.requests
    let urls := (sourceOf selected ⟨.createRequest, .arg .url, typed⟩).values
    let headers := (sourceOf selected ⟨.createRequest, .opt .header, typed⟩).values
    (nameSuffix? (newName typed) = none →
      urls s = .ok [] s ∧ headers s = .ok (commonHeaders.map (· ++ ":")) s) ∧
    ∀ suffix, nameSuffix? (newName typed) = some suffix →
      (∀ us s₁ hs s₂, urls s = .ok us s₁ → headers s = .ok hs s₂ →
        Offers (fun r => r ∈ rows ∧ Resembles suffix r.name) typed us hs ∧
        ((∀ c ∈ suffix.toList, Literal c) → (∀ r ∈ rows, '\x00' ∉ r.name.toList) →
          Offers (fun r => r ∈ rows ∧ endsWith ("-" ++ suffix) r.name = true) typed us hs)) ∧
      (isPlainDir dataDir = true →
        (Searchable ("%-" ++ suffix) rows →
          (∃ us s₁, urls s = .ok us s₁) ∧ ∃ hs s₂, headers s = .ok hs s₂) ∧
        (¬ Searchable ("%-" ++ suffix) rows →
          (∃ s₁, urls s = .error .patternTooLong s₁) ∧
            ∃ s₂, headers s = .error .patternTooLong s₂)) ∧
      (∀ name, '\x00' ∉ name.toList → endsWith ("-" ++ suffix) name = true →
        Resembles suffix name) ∧
      ((∀ name, '\x00' ∉ name.toList → Resembles suffix name →
        endsWith ("-" ++ suffix) name = true) ↔ ∀ c ∈ suffix.toList, Literal c) := by
  intro s rows urls headers
  have hsound : s.store.Sound := (sound_run_fresh host disk dataDir wire ops).store
  have hready : isPlainDir dataDir = true → s.Ready :=
    fun hplain => (steady_run_fresh host disk hplain wire ops).toReady
  have hurls : urls = relatedValues typed relatedUrls := values_sourceOf_url selected typed
  have hheaders : headers = relatedValues typed relatedHeaders :=
    values_sourceOf_header selected typed
  clear_value s urls headers
  subst hurls hheaders
  constructor
  · intro hnone
    rw [relatedValues_of_none hnone, relatedValues_of_none hnone, relatedUrls_of_none hnone,
      relatedHeaders_of_none hnone]
    exact ⟨rfl, rfl⟩
  · intro suffix hsuffix
    refine ⟨?_, ?_, fun name => resembles_of_endsWith, endsWith_of_resembles_iff⟩
    · intro us s₁ hs s₂ hus hhs
      have hoffers := offers_of_relatedValues hsound hsuffix hus hhs
      refine ⟨hoffers, ?_⟩
      intro hliteral hnul
      refine hoffers.congr fun r => and_congr_right fun hr => ?_
      exact ⟨endsWith_of_resembles_iff.mpr hliteral r.name (hnul r hr),
        resembles_of_endsWith (hnul r hr)⟩
    · intro hplain
      obtain ⟨hurls, hlong⟩ := relatedValues_of_ready (hready hplain) hsuffix relatedUrls
      obtain ⟨hheaders, hlong'⟩ := relatedValues_of_ready (hready hplain) hsuffix relatedHeaders
      exact ⟨fun h => ⟨hurls h, hheaders h⟩, fun h => ⟨hlong h, hlong' h⟩⟩

/-- Two requests have the suffix, and one of them gives a header that has been given. -/
theorem offers_of_resembling_requests_numbered :
    let ops : List Operation := [
      .insertRequest ⟨"get-42", "GET", "http://h/b", ["A: 1", "B: 2"], none⟩,
      .insertRequest ⟨"fetch-42", "GET", "http://h/a", ["B: 2"], none⟩,
      .insertRequest ⟨"get-142", "GET", "http://h/", [], none⟩]
    let s := Operation.run ops {}
    let typed : Snapshot :=
      ⟨["create", "request"], [(.name, "put-42")], [], [(.header, ["A:1"])], false⟩
    let urls := (sourceOf {} ⟨.createRequest, .arg .url, typed⟩).values
    let headers := (sourceOf {} ⟨.createRequest, .opt .header, typed⟩).values
    ∃ us s₁ hs s₂, urls s = .ok us s₁ ∧ headers s = .ok hs s₂ ∧
      us = ["http://h/a", "http://h/b"] ∧ hs = "B: 2" :: commonHeaders.map (· ++ ":") ∧
      Offers (fun r => r ∈ s.store.requests ∧ endsWith "-42" r.name = true) typed us hs := by
  intro ops s typed urls headers
  obtain ⟨-, hsome⟩ :=
    offers_of_resembling_requests {} {} (Path.parse "data") {} ops {} typed
  obtain ⟨hoffers, -, -, -⟩ := hsome "42" (by decide +kernel)
  have hurls : succeedsWith urls s
      (fun us _ => decide (us = ["http://h/a", "http://h/b"])) = true := by
    decide +kernel
  have hheaders : succeedsWith headers s
      (fun hs _ => decide (hs = "B: 2" :: commonHeaders.map (· ++ ":"))) = true := by
    decide +kernel
  obtain ⟨us, s₁, hus, hurls⟩ := exists_ok_of_succeedsWith hurls
  obtain ⟨hs, s₂, hhs, hheaders⟩ := exists_ok_of_succeedsWith hheaders
  obtain ⟨-, hnamed⟩ := hoffers us s₁ hs s₂ hus hhs
  have hliteral : ∀ c ∈ "42".toList, Literal c := by
    have hdigits : Literal '4' ∧ Literal '2' := by decide
    simpa [show "42".toList = ['4', '2'] from rfl] using hdigits
  exact ⟨us, s₁, hs, s₂, hus, hhs, of_decide_eq_true hurls, of_decide_eq_true hheaders,
    hnamed hliteral (by decide +kernel)⟩

/-- A name is found because of the `_` in the suffix, and its URL is offered. -/
theorem unrelated_url_is_offered :
    let s := Operation.run [.insertRequest ⟨"get-userXid", "GET", "http://h/", [], none⟩] {}
    let typed := "create request create-user_id "
    ∃ c s', completeLine typed typed.length s.selection s = .ok c s' ∧
      c.candidates.map Candidate.display = ["http://h/"] ∧
      ∀ r ∈ s.store.requests, endsWith "-user_id" r.name = false := by
  intro s typed
  have hcompletes : succeedsWith (completeLine typed typed.length s.selection) s (fun c _ =>
      decide (c.candidates.map Candidate.display = ["http://h/"])) = true := by
    decide +kernel
  obtain ⟨c, s', hrun, hc⟩ := exists_ok_of_succeedsWith hcompletes
  exact ⟨c, s', hrun, of_decide_eq_true hc, by decide +kernel⟩

end Courier
