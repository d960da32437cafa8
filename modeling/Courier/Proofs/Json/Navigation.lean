/-
Courier.Proofs.Json.Navigation — what a dotted path selects from the body of a response.

`Selects` is one step of a path and `Reaches` is all of them: a part names a member of an object,
or it writes the number of an item of an array, and a negative number counts from the end. A body
is JSON or is none, and if it is JSON then its value is saved that the path reaches
(`body_extraction_iff`).

There is one exception. A path stumbles where one of its parts, at an array, passes for a number
and is misread. Then nothing is selected and nothing is missing either, and it is a failure.
-/
import Courier.Run.Extract
import Courier.Proofs.Text.Numeral
import Mathlib.Control.Monad.Basic

namespace Courier.Json

open Courier.Text Courier.Http

/-! ## Items -/

theorem itemAt?_natCast (items : List Value) (k : Nat) : itemAt? items k = items[k]? := by
  rw [itemAt?, if_pos (Int.natCast_nonneg k), Int.toNat_natCast]

/-- The first item from the end is at -1. -/
theorem itemAt?_negSucc (items : List Value) (k : Nat) :
    itemAt? items (Int.negSucc k) = items.reverse[k]? := by
  rw [itemAt?, if_neg (by omega)]
  by_cases hk : k < items.length
  · rw [if_pos (by omega), List.getElem?_reverse hk]
    congr 1
    omega
  · rw [if_neg (by omega), List.getElem?_eq_none (by simpa using hk)]

/-! ## Steps -/

/-- The value one step further: a member by its name, or an item by its number, which counts from
the end if it is negative. -/
inductive Selects : Value → String → Value → Prop where
  | member {members : List (Units × Value)} {part : String} {v : Value}
      (h : member? (units part) members = some v) : Selects (.object members) part v
  | item {items : List Value} {part : String} {v : Value} {k : Nat}
      (hpart : integer? part = some (k : Int)) (h : items[k]? = some v) :
      Selects (.array items) part v
  | itemFromEnd {items : List Value} {part : String} {v : Value} {k : Nat}
      (hpart : integer? part = some (Int.negSucc k)) (h : items.reverse[k]? = some v) :
      Selects (.array items) part v

theorem selects_array_iff {items : List Value} {part : String} {v : Value} :
    Selects (.array items) part v ↔ (integer? part).bind (itemAt? items) = some v := by
  rw [Option.bind_eq_some_iff]
  constructor
  · rintro (_ | ⟨hpart, h⟩ | ⟨hpart, h⟩)
    · exact ⟨_, hpart, (itemAt?_natCast items _).trans h⟩
    · exact ⟨_, hpart, (itemAt?_negSucc items _).trans h⟩
  · rintro ⟨k | k, hpart, h⟩
    · exact .item hpart ((itemAt?_natCast items k).symm.trans h)
    · exact .itemFromEnd hpart ((itemAt?_negSucc items k).symm.trans h)

theorem selects_object_iff {members : List (Units × Value)} {part : String} {v : Value} :
    Selects (.object members) part v ↔ member? (units part) members = some v :=
  ⟨fun | .member h => h, .member⟩

/-- A value at which a part of a path is misread. -/
inductive Trips : Value → String → Prop where
  | intro {items : List Value} {part : String} (h : Misread part) : Trips (.array items) part

/-- What one step gives. -/
theorem step_cases (v : Value) (part : String) :
    (Trips v part ∧ ∃ cause, step v part = .error cause) ∨
      ¬ Trips v part ∧ ∃ found, step v part = .ok found ∧
        ∀ next, Selects v part next ↔ found = some next := by
  cases v with
  | array items =>
    by_cases hlooks : looksLikeIndex part = true
    · have hstep : step (.array items) part = (readInteger part).map (itemAt? items) :=
        if_pos hlooks
      by_cases hmis : Misread part
      · have hread := mt (exists_readInteger_iff_not_misread hlooks).mp (not_not_intro hmis)
        refine .inl ⟨.intro hmis, ?_⟩
        cases hint : readInteger part with
        | ok i => exact absurd ⟨i, hint⟩ hread
        | error cause => exact ⟨cause, by rw [hstep, hint]; rfl⟩
      · obtain ⟨i, hread⟩ := (exists_readInteger_iff_not_misread hlooks).mpr hmis
        refine .inr ⟨fun | .intro h => hmis h, itemAt? items i, by rw [hstep, hread]; rfl, ?_⟩
        intro next
        rw [selects_array_iff, (readInteger_eq_ok_iff.mp hread).1, Option.bind_some]
    · -- what is no digits behind minus signs writes no number
      have hnone : integer? part = none :=
        Option.eq_none_iff_forall_ne_some.mpr fun i hi => hlooks (isNumericChars_of_integer? hi)
      refine .inr ⟨fun | .intro h => hlooks h.1, none, if_neg hlooks, fun next => ?_⟩
      rw [selects_array_iff, hnone, Option.bind_none]
  | object members => exact .inr ⟨nofun, _, rfl, fun next => selects_object_iff⟩
  | null | bool | integer | double | string =>
    exact .inr ⟨nofun, none, rfl, fun next => iff_of_false nofun nofun⟩

/-! ## Paths -/

/-- The value that the parts of a path lead to. -/
inductive Reaches : Value → List String → Value → Prop where
  | here (v : Value) : Reaches v [] v
  | further {v next w : Value} {part : String} {parts : List String} (h : Selects v part next)
      (hnext : Reaches next parts w) : Reaches v (part :: parts) w

/-- A path one of whose parts is misread, at the array that the parts in front of it lead to. -/
inductive Stumbles : Value → List String → Prop where
  | here {v : Value} {part : String} {parts : List String} (h : Trips v part) :
      Stumbles v (part :: parts)
  | further {v next : Value} {part : String} {parts : List String} (h : Selects v part next)
      (hnext : Stumbles next parts) : Stumbles v (part :: parts)

/-- What all the steps give: the value that is reached, unless the path stumbles. -/
theorem follow_cases (v : Value) (parts : List String) :
    (Stumbles v parts ∧ ∃ cause, follow v parts = .error cause) ∨
      ¬ Stumbles v parts ∧ ∃ found, follow v parts = .ok found ∧
        ∀ w, Reaches v parts w ↔ found = some w := by
  induction parts generalizing v with
  | nil =>
    refine .inr ⟨nofun, some v, rfl, fun w => ⟨fun | .here _ => rfl, ?_⟩⟩
    rintro h
    obtain rfl := Option.some.inj h
    exact .here v
  | cons part parts ih =>
    rcases step_cases v part with ⟨htrips, cause, hstep⟩ | ⟨htrips, found, hstep, hselects⟩
    · exact .inl ⟨.here htrips, cause, by rw [follow, hstep]; rfl⟩
    · cases found with
      | none =>
        refine .inr ⟨?_, none, by rw [follow, hstep]; rfl, fun w => iff_of_false ?_ nofun⟩
        · rintro (h | ⟨h, -⟩)
          · exact htrips h
          · exact nomatch (hselects _).mp h
        · rintro (_ | ⟨h, -⟩)
          exact nomatch (hselects _).mp h
      | some next =>
        have hfollow : follow v (part :: parts) = follow next parts := by
          rw [follow, hstep]
          rfl
        have honly : ∀ {other}, Selects v part other → other = next := fun h =>
          (Option.some.inj ((hselects _).mp h)).symm
        have hnext : Selects v part next := (hselects next).mpr rfl
        rw [hfollow]
        rcases ih next with ⟨hstumbles, hfails⟩ | ⟨hstumbles, found, hfound, hreaches⟩
        · exact .inl ⟨.further hnext hstumbles, hfails⟩
        · refine .inr ⟨?_, found, hfound, fun w => Iff.trans ?_ (hreaches w)⟩
          · rintro (h | ⟨h, hlater⟩)
            · exact htrips h
            · exact hstumbles (honly h ▸ hlater)
          · exact ⟨fun | .further h hlater => honly h ▸ hlater, .further hnext⟩

/-! ## Bodies -/

/-- **What a path selects from a body.** If the body is JSON, that is the value which the path
reaches, the content of a string and the form of everything else, and nothing if the path reaches
no value; only a path that stumbles is a failure. Nothing is selected from a body that is no
JSON. -/
theorem body_extraction_iff (path : String) (x : Exchange) :
    match parse x.depth x.text with
    | .error .malformed => extractFromExchange "body" path x = .ok none
    | .error (.tooDeep kind) => extractFromExchange "body" path x = .error (.tooDeep kind)
    | .ok v =>
      (∀ us, extractFromExchange "body" path x = .ok (some us) ↔
        ¬ Stumbles v (splitOn '.' path) ∧ ∃ w, Reaches v (splitOn '.' path) w ∧ us = w.saved) ∧
      (extractFromExchange "body" path x = .ok none ↔
        ¬ Stumbles v (splitOn '.' path) ∧ ∀ w, ¬ Reaches v (splitOn '.' path) w) ∧
      ((∃ cause, extractFromExchange "body" path x = .error (.numeral cause)) ↔
        Stumbles v (splitOn '.' path)) := by
  have hselect : extractFromExchange "body" path x = select x.depth path x.text := by
    rw [extractFromExchange, if_neg (by decide)]
  rw [hselect, select]
  cases parse x.depth x.text with
  | error fault => cases fault <;> rfl
  | ok v =>
    dsimp only
    rcases follow_cases v (splitOn '.' path) with
      ⟨hstumbles, cause, hfollow⟩ | ⟨hstumbles, found, hfollow, hreaches⟩
    · rw [hfollow]
      simp [hstumbles]
    · rw [hfollow]
      simp only [hstumbles, not_false_eq_true, true_and, hreaches]
      cases found <;> simp [eq_comm]

/-- The last item of an array that a member holds. -/
theorem body_extraction_iff_nested :
    let x : Exchange :=
      ⟨⟨"GET", "http://h", [], none⟩, 200, "OK", [], "\x7b\"ids\": [1, \"x\"]\x7d", 991⟩
    ∃ v w, parse x.depth x.text = .ok v ∧ Reaches v (splitOn '.' "ids.-1") w ∧ w.saved = units "x" := by
  intro x
  have hjson : (parse x.depth x.text).toBool = true := by decide +kernel
  have hextract : extractFromExchange "body" "ids.-1" x = .ok (some (units "x")) := by
    decide +kernel
  have h := body_extraction_iff "ids.-1" x
  cases hv : parse x.depth x.text with
  | error fault => exact absurd hjson (by rw [hv]; exact Bool.false_ne_true)
  | ok v =>
    rw [hv] at h
    obtain ⟨-, w, hreaches, hsaved⟩ := (h.1 _).mp hextract
    exact ⟨v, w, rfl, hreaches, hsaved.symm⟩

/-- A part with two minus signs, a superscript: a body that is JSON, and no value of it, and a
failure. -/
theorem body_extraction_fails :
    let x : Exchange := ⟨⟨"GET", "http://h", [], none⟩, 200, "OK", [], "[1]", 991⟩
    (parse x.depth x.text).toBool = true ∧
      extractFromExchange "body" "--1" x = .error (.numeral (.malformed "--1")) ∧
      extractFromExchange "body" "\u00b2" x = .error (.numeral (.malformed "\u00b2")) := by
  decide +kernel

end Courier.Json
