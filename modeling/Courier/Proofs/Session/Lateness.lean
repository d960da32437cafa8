/-
Courier.Proofs.Session.Lateness — what fails on the way.

Most refusals answer what was asked for: there is no such request, a pair is malformed, a
value is missing. They come before anything is done. The other failures come on the way: a
call cannot be made, or something happens that the shell has not foreseen (`Failure.Late`).
Here are the actions that fail on the way or not at all, whatever they start from: changes of
rows, all that a run does behind its plan, and what is shown.
-/
import Courier.Proofs.Session.Rows
import Courier.Session.Execute

namespace Courier

open Courier.Text Courier.Http Courier.Store Courier.Screen

/-- A failure on the way: a request could not be sent, or nobody has foreseen it. -/
def Failure.Late : Failure → Prop
  | .refused (.requestFailed ..) => True
  | .refused _ => False
  | _ => True

open Failure

section
variable {α : Type}

/-! ## On a store -/

theorem fails_requireWritable : Fails Late StoreAction.requireWritable := by
  refine Fails.get.bind fun s => ?_
  split
  · exact .throw trivial
  · exact .pure ()

theorem fails_edit (change : Store → α × Store) : Fails Late (StoreAction.edit change) :=
  fails_requireWritable.bind fun _ => .modifyGet change

theorem fails_tryEdit (change : Store → Except Constraint (α × Store)) :
    Fails Late (StoreAction.tryEdit change) := by
  refine fails_requireWritable.bind fun _ => Fails.get.bind fun s => ?_
  cases change s with
  | ok r => exact (Fails.set r.2).bind fun _ => .pure r.1
  | error broken => exact .throw trivial

theorem fails_declareOptions (request : String) (names : List String) :
    Fails Late (declareOptions request names) := by
  induction names with
  | nil => exact .pure ()
  | cons name names ih => exact (fails_tryEdit _).bind fun _ => ih

/-- The work of storing a request that can be stored. -/
theorem fails_storeRequest (s : Store) (r : Request) :
    Fails Late (do
      set s
      declareOptions r.name r.placeholders
      return r : StoreAction Request) :=
  (Fails.set s).bind fun _ => (fails_declareOptions _ _).bind fun _ => .pure r

theorem fails_deleteVariables (env : Option String) (items : List String) :
    Fails Late (deleteVariables env items) := by
  have hnumber (item : String) : Fails Late (deleteVariableAsNumber item) := by
    unfold deleteVariableAsNumber deleteVariableNumbered
    split
    · exact .pure 0
    · split
      · exact fails_edit _
      · exact .throw trivial
    · exact .throw trivial
  have hone (item : String) : Fails Late (deleteVariableItem env item) := by
    refine (hnumber item).bind fun count => ?_
    split
    · exact fails_edit _
    · exact .pure _
  induction items with
  | nil => exact .pure _
  | cons item items ih => exact (hone item).bind fun _ => ih.bind fun _ => .pure _

theorem fails_recordResponse (r : Response) : Fails Late (recordResponse r) := by
  unfold recordResponse
  split
  · exact fails_tryEdit _
  · exact .throw trivial

theorem fails_applyExtractions (name env : String) (x : Exchange) (es : List Extraction) :
    Fails Late (applyExtractions name env x es) := by
  have hone (e : Extraction) : Fails Late (applyExtraction name env x e) := by
    unfold applyExtraction
    split
    next fault _ => cases fault <;> exact .throw trivial
    · exact .pure _
    · split
      · exact .throw trivial
      · exact (fails_edit _).bind fun _ => .pure _
  induction es with
  | nil => exact .pure _
  | cons e es ih =>
    refine (hone e).bind fun outcome => ih.bind fun _ => ?_
    cases outcome <;> exact .pure _

/-! ## On a bench -/

theorem fails_onStore {E : Failure → Prop} {act : StoreAction α} (h : Fails E act) :
    Fails E (onStore act) :=
  fun b => ends_onStore.2 (h b.store)

theorem fails_sendPrepared (name : String) (p : PreparedRequest) :
    Fails Late (sendPrepared name p) := by
  refine Fails.get.bind fun _ => Fails.bind (.modifyGet _) fun reply => ?_
  cases reply with
  | unreachable reason => exact .throw trivial
  | answer status reason headers text => exact .pure _

theorem fails_runAll (name env : String) (es : List Extraction) (ps : List PreparedRequest) :
    Fails Late (runAll name env es ps) := by
  have hone (p : PreparedRequest) : Fails Late (runOne name env es p) :=
    (fails_sendPrepared name p).bind fun _ =>
      (fails_onStore (fails_applyExtractions _ _ _ _)).bind fun _ =>
        (fails_onStore (fails_recordResponse _)).bind fun _ => .pure _
  induction ps with
  | nil => exact .pure _
  | cons p ps ih => exact (hone p).bind fun _ => ih.bind fun _ => .pure _

/-- Once a run is planned nothing is refused any more. -/
theorem fails_runPlanned (name env : String) (es : List Extraction) (ps : List PreparedRequest) :
    Fails Late (do
      let _ ← onStore (StoreAction.edit fun s => s.forgetResponses name)
      runAll name env es ps) :=
  (fails_onStore (fails_edit _)).bind fun _ => fails_runAll name env es ps

/-! ## In the current workspace -/

theorem fails_showEvents (events : List Screen.Event) : Fails Late (showEvents events) := by
  intro s
  refine (ends_showEvents events s).mono fun r _ hr e he => ?_
  obtain ⟨_, _, -, rfl⟩ := hr.2 e he
  trivial

theorem fails_openCurrent : Fails Late openCurrent := by
  have hopen (name : String) : Fails Late (openNamed name) := by
    unfold openNamed
    split
    · exact .pure _
    · refine Fails.get.bind fun s => ?_
      rcases openWorkspace s.disk s.knows s.dataDir name with ⟨result, disk⟩
      cases result with
      | ok l => exact (Fails.set _).bind fun _ => .pure _
      | error fault => exact (Fails.set _).bind fun _ => .pure _
  refine Fails.get.bind fun s => (hopen _).bind fun result => ?_
  cases result with
  | ok _ => exact .pure ()
  | error fault => exact .throw trivial

theorem fails_onRows {act : StoreAction α} (h : Fails Late act) : Fails Late (onRows act) :=
  fails_openCurrent.bind fun _ _ => ends_onOpened.2 (ends_onStore.2 (h _))

theorem fails_askRows (f : Store → α) : Fails Late (askRows f) :=
  fails_openCurrent.bind fun _ => Fails.get.bind fun _ => .pure _

/-- What cuts the showing of an exchange short is the document in it. -/
theorem exchange_failure (x : Exchange) (quiet : Bool) {e : Failure}
    (h : (exchange x quiet).2 = some e) : ∃ kind, e = .tooDeep kind := by
  cases quiet with
  | true => exact nomatch h
  | false =>
    change (body x).2 = some e at h
    unfold body at h
    split at h
    · exact nomatch h
    · split at h
      · exact nomatch h
      next kind _ => exact ⟨kind, (Option.some.inj h).symm⟩
      · exact nomatch h

theorem fails_present (x : Exchange) (quiet : Bool) :
    Fails Late (present (exchange x quiet)) := by
  refine (fails_showEvents _).bind fun _ => ?_
  cases hcut : (exchange x quiet).2 with
  | none => exact .pure ()
  | some failure =>
    obtain ⟨kind, rfl⟩ := exchange_failure x quiet hcut
    exact .throw trivial

end

end Courier
