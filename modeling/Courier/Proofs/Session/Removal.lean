/-
Courier.Proofs.Session.Removal — which requests are deleted, and what goes with them.

A list of names may have a name more than once. Its first occurrence deletes the request, if one
of that name is stored, and all that belongs to it; then the request is gone, so that every other
occurrence finds none. What has become of a name can be told from the store as it was and from the
names in front of it (`Store.firstStored`, `Store.leftOver`).

What belongs to a request are its options, its extractions and its responses. A variable does not,
even if its value was taken from a response to the request.
-/
import Courier.Proofs.Session.Readiness
import Mathlib.Data.List.Infix

namespace Courier

open Courier.Text Courier.Http Courier.Store Courier.Database Session

/-! ## Names in their places -/

/-- The occurrences of names that pass a test, which is told what stands in front of them. -/
def occurrences (test : List String → String → Bool) (names : List String) : List String :=
  ((names.inits.zip names).filter fun place => test place.1 place.2).map Prod.snd

theorem occurrences_cons (test : List String → String → Bool) (name : String)
    (names : List String) :
    occurrences test (name :: names) =
      if test [] name then name :: occurrences (fun before => test (name :: before)) names
      else occurrences (fun before => test (name :: before)) names := by
  have htail : ((names.inits.map fun before => name :: before).zip names).filter
        (fun place => test place.1 place.2) =
      ((names.inits.zip names).filter fun place => test (name :: place.1) place.2).map
        (Prod.map (fun before => name :: before) id) := by
    rw [List.zip_map_left, List.filter_map]
    rfl
  unfold occurrences
  rw [List.inits_cons, List.zip_cons_cons, List.filter_cons, htail]
  cases htest : test [] name <;> simp

namespace Store

/-- Whether a name is that of a stored request, and stands there for the first time. -/
def isFirst (s : Store) (before : List String) (name : String) : Bool :=
  s.hasRequest name && !before.contains name

/-- The first occurrences of the names of stored requests. -/
def firstStored (s : Store) (names : List String) : List String :=
  occurrences s.isFirst names

/-- All other occurrences of names. -/
def leftOver (s : Store) (names : List String) : List String :=
  occurrences (fun before name => !s.isFirst before name) names

/-- The store without these requests and what belongs to them. -/
def withoutRequests (s : Store) (names : List String) : Store :=
  { s with
    requests := s.requests.filter fun r => r.name ∉ names
    options := s.options.filter fun o => o.request ∉ names
    extractions := s.extractions.filter fun e => e.request ∉ names
    responses := s.responses.filter fun x => x.request ∉ names }

@[simp]
theorem withoutRequests_nil (s : Store) : s.withoutRequests [] = s := by
  simp [withoutRequests]

/-- Requests can be deleted one after the other. -/
theorem withoutRequests_dropRequest (s : Store) (name : String) (names : List String) :
    (s.dropRequest name).withoutRequests names = s.withoutRequests (name :: names) := by
  have hfilter {α : Type} (owner : α → String) (rows : List α) :
      (rows.filter fun x => owner x ≠ name).filter (fun x => owner x ∉ names) =
        rows.filter fun x => owner x ∉ name :: names := by
    rw [List.filter_filter]
    congr 1
    funext x
    simp [Bool.and_comm]
  simp only [withoutRequests, dropRequest, hfilter]

/-! ## One name after the other -/

/-- Once a request is deleted its name counts as one that stands further to the front. -/
theorem isFirst_dropRequest (s : Store) (name : String) (before : List String) :
    (s.dropRequest name).isFirst before = s.isFirst (name :: before) := by
  funext other
  have hdrop : (s.dropRequest name).hasRequest other =
      (s.hasRequest other && decide (other ≠ name)) := by
    rw [Bool.eq_iff_iff, hasRequest_dropRequest]
    simp
  simp [isFirst, hdrop, Bool.and_assoc]

/-- A name without a request may stand in front or not. -/
theorem isFirst_cons_of_not_hasRequest {s : Store} {name : String}
    (h : s.hasRequest name = false) (before : List String) :
    s.isFirst (name :: before) = s.isFirst before := by
  funext other
  by_cases hother : other = name
  · simp [isFirst, hother, h]
  · simp [isFirst, hother]

/-- What deleting requests gives and leaves is a function of the store as it was. -/
theorem deleteRequests_eq (s : Store) (names : List String) :
    s.deleteRequests names =
      ((s.firstStored names, s.leftOver names), s.withoutRequests (s.firstStored names)) := by
  induction names generalizing s with
  | nil => simp [deleteRequests, firstStored, leftOver, occurrences]
  | cons name names ih =>
    have hfirst : s.isFirst [] name = s.hasRequest name := by simp [isFirst]
    rw [deleteRequests, firstStored, leftOver, occurrences_cons, occurrences_cons, hfirst]
    cases hstored : s.hasRequest name with
    | true =>
      have hrest : (fun before => s.isFirst (name :: before)) = (s.dropRequest name).isFirst :=
        funext fun before => (s.isFirst_dropRequest name before).symm
      have hleft : (fun before other => !s.isFirst (name :: before) other) =
          fun before other => !(s.dropRequest name).isFirst before other := by
        simp only [isFirst_dropRequest]
      simp only [if_true, ih, hrest, hleft, withoutRequests_dropRequest]
      rfl
    | false =>
      simp only [Bool.false_eq_true, if_false, ih, isFirst_cons_of_not_hasRequest hstored]
      rfl

end Store

/-! ## In a session -/

/-- **Each request is deleted once.** Take any session that began without rows, and any list of
names. If there are no names, or the rows of the current workspace can be written, as they can in
an ordinary data directory with no locks, no permissions and nobody else at work
(`Session.Writable`), then deleting requests succeeds. The names that are deleted are the first
occurrences of those of stored requests, in their order, and the names that are missing are all
other occurrences, in theirs. Afterwards the requests of the deleted names are gone, with their
options, extractions and responses. The rows of all other requests and all variables are what they
were and stand where they stood, and so do the rows of other workspaces and what is selected.
Otherwise the storage refuses it, and no row is changed. -/
theorem each_request_is_deleted_once (host : Host) (disk : Disk) (dataDir : Path) (wire : Wire)
    (ops : List Operation) (names : List String) :
    let s := Operation.run ops { host, disk, dataDir, wire }
    let deleted := s.store.firstStored names
    let missing := s.store.leftOver names
    (isPlainDir dataDir = true → s.Writable) ∧
    (names = [] ∨ s.Writable → ∃ s',
      Current.deleteRequests names s = .ok (deleted, missing) s' ∧
      s.Rewritten (s.store.withoutRequests deleted) s') ∧
    (¬ (names = [] ∨ s.Writable) → ∃ fault s',
      Current.deleteRequests names s = .error (.storage fault) s' ∧ s.Rewritten s.store s') := by
  intro s deleted missing
  refine ⟨fun hplain => writable_run_fresh host disk hplain wire ops, ?_⟩
  cases names with
  | nil =>
    refine ⟨fun _ => ⟨s, rfl, ?_⟩, fun h => absurd (.inl rfl) h⟩
    show s.Rewritten (s.store.withoutRequests []) s
    rw [withoutRequests_nil]
    exact .refl s
  | cons name names =>
    have hlock (rows : Store) :
        (rows.deleteRequests (name :: names)).2.readOnly = rows.readOnly := by
      rw [deleteRequests_eq]
      rfl
    constructor
    · intro h
      have hwritable : s.Writable := h.resolve_left (List.cons_ne_nil name names)
      have hdelete := onRows_edit_of_writable hlock hwritable
      rw [deleteRequests_eq] at hdelete
      exact hdelete
    · intro h
      exact onRows_edit_of_not_writable hlock fun hwritable => h (.inr hwritable)

/-- A name is listed twice, with one that is not stored between. The request of that name has an
option, an extraction and a response, and a variable has its value from that response. -/
theorem each_request_is_deleted_once_of_two :
    let ping : Request := { name := "ping", method := "GET", url := "http://h/\x7bid\x7d" }
    let pong : Request := { name := "pong", method := "GET", url := "http://h/\x7bat\x7d" }
    let ops : List Operation := [.insertRequest ping, .insertRequest pong,
      .putOption "ping" "id" (some "5"), .declareOption "pong" "at",
      .putExtraction ⟨"ping", "token", "header", "X"⟩,
      .recordResponse ⟨0, "ping", "GET", "http://h/5", 200, "OK", [], none, ["X: v"], "",
        [("token", "v")]⟩,
      .putVariable "token" "dev" (some "v") (some "ping")]
    let s := Operation.run ops {}
    s.store.responses.length = 1 ∧ ∃ s',
      Current.deleteRequests ["ping", "peng", "ping"] s = .ok (["ping"], ["peng", "ping"]) s' ∧
      s'.store = {
        requests := [pong]
        vars := [⟨1, "token", "dev", some "v", some "ping"⟩]
        options := [⟨"pong", "at", none⟩]
        lastVariable := 1
        lastResponse := 1 } := by
  intro ping pong ops s
  obtain ⟨hwritable, hdone, -⟩ := each_request_is_deleted_once {} {} (Path.parse "data") {} ops
    ["ping", "peng", "ping"]
  obtain ⟨s', hrun, hrows⟩ := hdone (.inr (hwritable (by decide +kernel)))
  have hdeleted : s.store.firstStored ["ping", "peng", "ping"] = ["ping"] := by decide +kernel
  have hmissing : s.store.leftOver ["ping", "peng", "ping"] = ["peng", "ping"] := by
    decide +kernel
  change Current.deleteRequests _ s = .ok (s.store.firstStored _, s.store.leftOver _) s' at hrun
  rw [hdeleted, hmissing] at hrun
  refine ⟨by decide +kernel, s', hrun, ?_⟩
  rw [hrows.store, hdeleted]
  decide +kernel

end Courier
