/-
Courier.Proofs.Run.Filling — what a prepared request has in the place of its placeholders.

A name of a request stands for one of the values of its option, or else for the value of its
variable (`Store.StandsFor`). `Store.Request.filled` is the request with such values in the
place of all its placeholders, those in the keys of its headers among them.

The names in the keys are needed as all others are, but `Store.Request.fill` leaves the keys
alone. So a prepared request is the filled one exactly if filling changes no key
(`placeholders_are_filled`). A body goes through its text on the way, also where there is
nothing to fill in, so it is what was stored exactly if it is a text (`body_without_placeholders`).
-/
import Courier.Proofs.Run.Expansion
import Courier.Proofs.Text.Utf8

namespace Courier

open Courier.Text Courier.Http Courier.Store

/-! ## Combinations -/

theorem combinations_ne_nil {given : List (String × List String)} (h : ∀ g ∈ given, g.2 ≠ []) :
    combinations given ≠ [] := by
  induction given with
  | nil => exact List.cons_ne_nil _ _
  | cons g given ih =>
    obtain ⟨value, values, hvalues⟩ := List.exists_cons_of_ne_nil (h g List.mem_cons_self)
    obtain ⟨chosen, rest, hrest⟩ :=
      List.exists_cons_of_ne_nil (ih fun g hg => h g (List.mem_cons_of_mem _ hg))
    rw [combinations, hvalues, hrest]
    exact List.cons_ne_nil _ _

/-- A request that is not refused is filled once for each combination, and there is one. -/
theorem expandRequest_ok_inv {s : Store} {r : Request} {env : Option String}
    {prepared : List PreparedRequest} (h : expandRequest s r env = .ok prepared) :
    missingValues s r env = [] ∧ prepared ≠ [] ∧
      ∀ p ∈ prepared, ∃ chosen, p = r.fill (chosen ++ variableValues s env) := by
  have hsome : ∀ g ∈ optionValues s r, g.2 ≠ [] := by
    rintro ⟨name, values⟩ hg
    rw [optionValues_eq_filterMap, List.mem_filterMap] at hg
    obtain ⟨o, -, hvalues⟩ := hg
    obtain ⟨-, -, hsplit⟩ := neededValues?_eq_some.1 hvalues
    obtain ⟨value, -, rfl⟩ := Option.map_eq_some_iff.1 hsplit
    simp [splitOn]
  simp only [expandRequest, List.isEmpty_iff] at h
  split at h
  next hmissing =>
    cases h
    refine ⟨hmissing, ?_, fun p hp => ?_⟩
    · rw [ne_eq, List.map_eq_nil_iff]
      exact combinations_ne_nil hsome
    · obtain ⟨chosen, -, rfl⟩ := List.mem_map.1 hp
      exact ⟨chosen, rfl⟩
  next => cases h

/-! ## Filled requests -/

namespace Store

/-- Whether a name of a request may stand for a value. -/
def StandsFor (s : Store) (r : Request) (env : Option String) (name value : String) : Prop :=
  match s.givenValues? r name with
  | some values => value ∈ values
  | none => s.variableValue? env name = some value

/-- The request with the value of its name in the place of every placeholder. -/
def Request.filled (r : Request) (value : String → String) : PreparedRequest :=
  r.mapTexts (fillEvery value) (fillEvery value)

end Store

/-- Leaving the keys of headers alone makes no difference if they would stay the same. -/
theorem mapTexts_id_eq_iff {r : Request} {f : String → String} :
    r.mapTexts id f = r.mapTexts f f ↔
      ∀ line ∈ r.headers, f (headerPair line).1 = (headerPair line).1 := by
  simp [Request.mapTexts, List.map_inj_left, eq_comm]

/-- What a choice of values assigns to a name, the name may stand for. -/
theorem standsFor_of_assigned? {s : Store} {r : Request} {env : Option String}
    {indices : List Nat} (hindices : List.Forall₂ (· < ·) indices
      ((s.optionNames r).map fun name => ((s.givenValues? r name).getD []).length))
    {name value : String} (hname : name ∈ r.placeholders)
    (h : s.assigned? r env indices name = some value) : s.StandsFor r env name value := by
  have hlength : (s.optionNames r).length = indices.length := by
    simpa using hindices.length_eq.symm
  have hchosen : (((s.optionNames r).zip indices).lookup name).isSome = true ↔
      (s.givenValues? r name).isSome = true := by
    rw [lookup_zip_isSome hlength, mem_optionNames, and_iff_right hname]
  rw [StandsFor]
  cases hi : ((s.optionNames r).zip indices).lookup name with
  | none =>
    rw [hi, Option.isSome_none, Bool.false_eq_true, false_iff, Option.not_isSome_iff_eq_none]
      at hchosen
    rw [hchosen]
    simpa only [assigned?, hi] using h
  | some i =>
    obtain ⟨values, hvalues⟩ := Option.isSome_iff_exists.1 (hchosen.1 (by rw [hi]; rfl))
    simp only [assigned?, hi, hvalues, Option.bind_some] at h
    rw [hvalues]
    exact List.mem_of_getElem? h

/-- A prepared request has values in the place of all names that it was made with. -/
theorem exists_values_of_expandRequest {s : Store} (hs : s.Sound) {r : Request}
    {env : Option String} {prepared : List PreparedRequest}
    (h : expandRequest s r env = .ok prepared) {p : PreparedRequest} (hp : p ∈ prepared) :
    ∃ value : String → String, (∀ name ∈ r.placeholders, s.StandsFor r env name (value name)) ∧
      p = r.mapTexts id (fillEvery value) := by
  have hnone := (expandRequest_ok_inv h).1
  rw [expandRequest_eq_ok hs hnone] at h
  cases h
  obtain ⟨t, ht, rfl⟩ := List.mem_map.1 hp
  have hindices := mem_indexTuples.1 ht
  rw [missingValues_eq hs] at hnone
  have hvalue : ∀ name ∈ r.placeholders,
      s.assigned? r env t name = some ((s.assigned? r env t name).getD "") := by
    intro name hname
    obtain ⟨value, hvalue⟩ := Option.isSome_iff_exists.1 (isSome_assigned? hnone hindices hname)
    rw [hvalue, Option.getD_some]
  refine ⟨fun name => (s.assigned? r env t name).getD "", fun name hname => ?_, ?_⟩
  · exact standsFor_of_assigned? hindices hname (hvalue name hname)
  · refine fill_eq_mapTexts fun text hnames => substitute_eq_fillEvery fun name hname => ?_
    exact (lookup_pick_append hs r env hindices name).trans (hvalue name (hnames hname))

/-! ## What is filled -/

/-- **What is filled.** Every request that is prepared has, in its URL, in the values of its
headers and in its body, a value of its name in the place of every placeholder. The names in the
keys of headers are needed like the others, but the keys stay as they are: the request is the
filled one if and only if filling would not change them, as it is if they have no placeholders. -/
theorem placeholders_are_filled (host : Host) (disk : Disk) (dataDir : Path) (wire : Wire)
    (ops : List Operation) {r : Request} {env : Option String} {prepared : List PreparedRequest}
    (h : expandRequest (Operation.run ops { host, disk, dataDir, wire }).store r env
      = .ok prepared) :
    let s := (Operation.run ops { host, disk, dataDir, wire }).store
    prepared ≠ [] ∧
    (∀ line ∈ r.headers, placeholderNames (headerPair line).1 ⊆ r.placeholders) ∧
    ∀ p ∈ prepared, ∃ value : String → String,
      (∀ name ∈ r.placeholders, s.StandsFor r env name (value name)) ∧
      p = r.mapTexts id (fillEvery value) ∧
      (p = r.filled value ↔
        ∀ line ∈ r.headers, fillEvery value (headerPair line).1 = (headerPair line).1) ∧
      ((∀ line ∈ r.headers, placeholderNames (headerPair line).1 = []) → p = r.filled value) := by
  intro s
  have hs : s.Sound := (sound_run_fresh host disk dataDir wire ops).store
  refine ⟨(expandRequest_ok_inv h).2.1, fun line hline name hname => ?_, fun p hp => ?_⟩
  · refine mem_placeholders.2 (.inr (.inl ⟨line, hline, ?_⟩))
    rw [placeholderNames_headerPair]
    exact List.mem_append_left _ hname
  · obtain ⟨value, hvalue, rfl⟩ := exists_values_of_expandRequest hs h hp
    exact ⟨value, hvalue, rfl, mapTexts_id_eq_iff, fun hnone =>
      mapTexts_id_eq_iff.2 fun line hline => fillEvery_eq_self (hnone line hline) value⟩

/-- A request of which only the keys have no placeholders. -/
theorem placeholders_are_filled_here :
    let ops : List Operation := [
      .line "create request ping http://h/\x7bid\x7d -H 'A: \x7bid\x7d'",
      .line "set request ping", .line "set option id 5"]
    let s := (Operation.run ops {}).store
    ∃ r p, s.request? "ping" = some r ∧ expandRequest s r none = .ok [p] ∧
      p.url = "http://h/5" ∧ p.headers = [("A", "5")] ∧ ∃ value, p = r.filled value := by
  intro ops s
  let r : Request := {
    name := "ping"
    method := "GET"
    url := "http://h/\x7bid\x7d"
    headers := ["A: \x7bid\x7d"] }
  let p : PreparedRequest :=
    { method := "GET", url := "http://h/5", headers := [("A", "5")], body := none }
  have hrun : s.request? "ping" = some r ∧ expandRequest s r none = .ok [p] := by decide +kernel
  obtain ⟨hr, hp⟩ := hrun
  obtain ⟨-, -, hfilled⟩ := placeholders_are_filled {} {} (Path.parse "data") {} ops hp
  obtain ⟨value, -, -, -, hkeys⟩ := hfilled p List.mem_cons_self
  exact ⟨r, p, hr, hp, rfl, rfl, value, hkeys (by decide +kernel)⟩

/-- A placeholder in the key of a header is needed and is sent as it is written. -/
theorem placeholders_are_filled_but_keys :
    let ops : List Operation := [
      .line "create request ping http://h/ -H 'X-\x7bid\x7d: \x7bid\x7d'",
      .line "set request ping", .line "set option id 5"]
    let s := (Operation.run ops {}).store
    ∃ r p, s.request? "ping" = some r ∧ expandRequest s r none = .ok [p] ∧
      r.placeholders = ["id"] ∧ p.headers = [("X-\x7bid\x7d", "5")] ∧
      ∀ value, (∀ name ∈ r.placeholders, s.StandsFor r none name (value name)) →
        (r.filled value).headers = [("X-5", "5")] := by
  intro ops s
  let r : Request := {
    name := "ping"
    method := "GET"
    url := "http://h/"
    headers := ["X-\x7bid\x7d: \x7bid\x7d"] }
  let p : PreparedRequest :=
    { method := "GET", url := "http://h/", headers := [("X-\x7bid\x7d", "5")], body := none }
  have hrun : s.request? "ping" = some r ∧ expandRequest s r none = .ok [p] ∧
      s.givenValues? r "id" = some ["5"] := by decide +kernel
  obtain ⟨hr, hp, hgiven⟩ := hrun
  have hnames : r.placeholders = ["id"] := by decide +kernel
  refine ⟨r, p, hr, hp, hnames, rfl, fun value hvalue => ?_⟩
  have hid : value "id" = "5" := by
    have h := hvalue "id" (hnames ▸ List.mem_singleton_self _)
    rw [StandsFor, hgiven] at h
    exact List.mem_singleton.1 h
  have hkey : parts (headerPair "X-\x7bid\x7d: \x7bid\x7d").1.toList =
      [.char 'X', .char '-', .hole ['i', 'd']] := by decide +kernel
  have hrest : parts (headerPair "X-\x7bid\x7d: \x7bid\x7d").2.toList = [.hole ['i', 'd']] := by
    decide +kernel
  have hname : String.ofList ['i', 'd'] = "id" := rfl
  simp [r, Request.filled, Request.mapTexts, fillEvery, hkey, hrest, Part.valued, hname, hid]

/-! ## Bodies without placeholders -/

/-- **Bodies without placeholders.** All requests that are prepared have the bytes of the text of
the stored body, read and written again. These are the stored bytes if and only if those are a
text, that is, their UTF-8 form. -/
theorem body_without_placeholders {s : Store} {r : Request} {env : Option String}
    {prepared : List PreparedRequest} (h : expandRequest s r env = .ok prepared)
    (hnone : ∀ bytes ∈ r.body, placeholderNames (decode bytes) = []) :
    prepared ≠ [] ∧ ∀ p ∈ prepared,
      p.body = r.body.map (fun bytes => encode (decode bytes)) ∧
      (p.body = r.body ↔ ∀ bytes ∈ r.body, IsUtf8 bytes) := by
  obtain ⟨-, hsome, hfilled⟩ := expandRequest_ok_inv h
  refine ⟨hsome, fun p hp => ?_⟩
  obtain ⟨chosen, rfl⟩ := hfilled p hp
  have hbody : (r.fill (chosen ++ variableValues s env)).body =
      r.body.map fun bytes => encode (decode bytes) := by
    rw [Request.fill]
    refine Option.map_congr fun bytes hbytes => congrArg encode ?_
    have hnames := hnone bytes hbytes
    have hfill : substitute (decode bytes) (chosen ++ variableValues s env) =
        fillEvery id (decode bytes) := substitute_eq_fillEvery (by simp [hnames])
    rw [hfill, fillEvery_eq_self hnames]
  refine ⟨hbody, ?_⟩
  rw [hbody]
  cases r.body with
  | none => simp
  | some bytes => simp [encode_decode_eq_self_iff]

/-- A body that is a text beyond ASCII, next to an option with two values. -/
theorem body_without_placeholders_text :
    let s : Store := { options := [⟨"ping", "id", some "1\n2"⟩] }
    let r : Request := {
      name := "ping"
      method := "POST"
      url := "http://h/\x7bid\x7d"
      body := some [0xC3, 0xA9] }
    ∃ p p', expandRequest s r none = .ok [p, p'] ∧ p.body = some [0xC3, 0xA9] ∧
      p'.body = some [0xC3, 0xA9] := by
  intro s r
  let prepare (url : String) : PreparedRequest :=
    { method := "POST", url := url, headers := [], body := some [0xC3, 0xA9] }
  have hp : expandRequest s r none = .ok [prepare "http://h/1", prepare "http://h/2"] := by
    decide +kernel
  have hutf8 : ∀ bytes ∈ r.body, IsUtf8 bytes := by decide +kernel
  obtain ⟨-, hbody⟩ := body_without_placeholders hp (by decide +kernel)
  exact ⟨_, _, hp, (hbody _ (by simp)).2.2 hutf8, (hbody _ (by simp)).2.2 hutf8⟩

/-- A file with one byte that is no text is sent as the three bytes of a replacement. -/
theorem body_without_placeholders_changed :
    let disk : Disk := { files := [(Disk.workPlace ++ ["b.bin"], [0xFF])] }
    let s := (Operation.run [.line "create request ping http://h/ -d @b.bin"] { disk }).store
    ∃ r p, s.request? "ping" = some r ∧ r.placeholders = [] ∧ r.body = some [0xFF] ∧
      expandRequest s r none = .ok [p] ∧ p.body = some [0xEF, 0xBF, 0xBD] := by
  intro disk s
  let r : Request := { name := "ping", method := "GET", url := "http://h/", body := some [0xFF] }
  let p : PreparedRequest :=
    { method := "GET", url := "http://h/", headers := [], body := some [0xEF, 0xBF, 0xBD] }
  have hrun : s.request? "ping" = some r ∧ expandRequest s r none = .ok [p] := by decide +kernel
  exact ⟨r, p, hrun.1, by decide +kernel, rfl, hrun.2, rfl⟩

end Courier
