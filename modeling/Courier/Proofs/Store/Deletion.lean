/-
Courier.Proofs.Store.Deletion — which variables are deleted, and which items are left over.

The items of a list have their turns one after the other. At its turn an item asks for the
variable whose number it writes, and if there is none then for the variables with its name
(`afterTurn`). So what an item finds depends on what the items in front of it have left, and an
item is missing if it finds nothing at its turn.

An item of digits may be one that nothing can be asked for with (`Unanswerable`): it is no number,
or a number that no row can have. This ends the deletion at its turn, and what was deleted before
stays deleted, but how much that was is not said.
-/
import Courier.Proofs.Store.Change
import Courier.Proofs.Text.Numeral

namespace Courier

open Courier.Text Courier.Store

/-! ## Items that are digits -/

/-- An item of digits that nothing can be asked for with: it is misread, or it writes a number
that no row can have. -/
def Unanswerable (item : String) : Prop :=
  isNumeric item = true ∧
    (Misread item ∨ ∃ n, natural? item.toList = some n ∧ fitsRow n = false)

theorem unsigned_of_isNumeric {item : String} (h : isNumeric item = true) :
    unsigned item = item.toList ∧ minusSigns item = 0 := by
  have hdigits : ∀ c ∈ item.toList, isDigitChar c = true := by
    rw [isNumeric, isNumericChars, Bool.and_eq_true, List.all_eq_true] at h
    exact h.2
  rw [unsigned, minusSigns]
  cases hchars : item.toList with
  | nil => exact ⟨rfl, rfl⟩
  | cons c cs =>
    have hc : c ≠ '-' := by
      rintro rfl
      exact absurd (hdigits '-' (hchars ▸ List.mem_cons_self)) (by decide)
    simp [hc]

theorem integer?_of_isNumeric {item : String} (h : isNumeric item = true) :
    integer? item = (natural? item.toList).map fun n : Nat => (n : Int) := by
  obtain ⟨hdigits, hsigns⟩ := unsigned_of_isNumeric h
  rw [integer?, hsigns, hdigits]
  rfl

theorem natural?_of_not_isNumeric {item : String} (h : ¬ isNumeric item = true) :
    natural? item.toList = none := by
  refine Option.eq_none_iff_forall_ne_some.mpr fun n hn => h ?_
  obtain ⟨hne, hdecimal⟩ := (natural?_eq_some_iff.mp hn).1
  exact isNumericChars_of_decimal hne hdecimal

/-- What an item is taken for: for the number that its digits write, if they write one, or else
for a number that there is no row for. -/
theorem itemNumber?_cases (item : String) :
    Unanswerable item ∧ (∀ id, itemNumber? item = .ok id → ∃ i, id = some i ∧ fitsRow i = false) ∨
    ¬ Unanswerable item ∧
      itemNumber? item = .ok ((natural? item.toList).map fun n : Nat => (n : Int)) ∧
      ∀ n, natural? item.toList = some n → fitsRow n = true := by
  rw [itemNumber?]
  by_cases hnumeric : isNumeric item = true
  · have hunsigned : isNumericChars (unsigned item) = true := by
      rwa [(unsigned_of_isNumeric hnumeric).1]
    have hread := exists_readInteger_iff_not_misread hunsigned
    rw [if_pos hnumeric]
    cases hitem : readInteger item with
    | error cause =>
      have hmis : Misread item := by simpa [hitem] using hread
      refine .inl ⟨⟨hnumeric, .inl hmis⟩, ?_⟩
      rintro _ ⟨⟩
    | ok i =>
      have hmis : ¬ Misread item := hread.mp ⟨i, hitem⟩
      obtain ⟨n, hn, rfl⟩ := Option.map_eq_some_iff.mp
        ((integer?_of_isNumeric hnumeric).symm.trans (readInteger_eq_ok_iff.mp hitem).1)
      cases hfits : fitsRow n with
      | false =>
        refine .inl ⟨⟨hnumeric, .inr ⟨n, hn, hfits⟩⟩, ?_⟩
        rintro _ ⟨⟩
        exact ⟨n, rfl, hfits⟩
      | true =>
        have hall : ∀ m, natural? item.toList = some m → fitsRow m = true := fun m hm =>
          Option.some.inj (hn.symm.trans hm) ▸ hfits
        refine .inr ⟨?_, by rw [hn]; rfl, hall⟩
        rintro ⟨-, h | ⟨m, hm, hbig⟩⟩
        · exact hmis h
        · exact Bool.false_ne_true (hbig.symm.trans (hall m hm))
  · rw [if_neg hnumeric, natural?_of_not_isNumeric hnumeric]
    refine .inr ⟨fun h => hnumeric h.1, rfl, ?_⟩
    rintro _ ⟨⟩

/-! ## Turns -/

/-- Whether an item writes the number of a variable. -/
def asksForNumber (item : String) (v : Variable) : Bool := natural? item.toList = some v.id

/-- Whether an item is the name of a variable, in this environment if one is given. -/
def asksForName (env : Option String) (item : String) (v : Variable) : Bool :=
  v.name = item && env.all (· = v.env)

/-- The variables that are left when the turn of an item is over. -/
def afterTurn (env : Option String) (vars : List Variable) (item : String) : List Variable :=
  if vars.any (asksForNumber item) then vars.filter fun v => !asksForNumber item v
  else vars.filter fun v => !asksForName env item v

theorem afterTurn_sublist (env : Option String) (vars : List Variable) (item : String) :
    (afterTurn env vars item).Sublist vars := by
  unfold afterTurn
  split <;> exact List.filter_sublist

/-- What is gone after a turn was asked for. -/
theorem asked_of_not_mem_afterTurn {env : Option String} {vars : List Variable} {item : String}
    {v : Variable} (hv : v ∈ vars) (hgone : v ∉ afterTurn env vars item) :
    asksForNumber item v = true ∨ asksForName env item v = true := by
  unfold afterTurn at hgone
  split at hgone
  · exact .inl (by simpa [List.mem_filter, hv] using hgone)
  · exact .inr (by simpa [List.mem_filter, hv] using hgone)

theorem filter_not_of_countP_eq_zero {vars : List Variable} {doomed : Variable → Bool}
    (h : vars.countP doomed = 0) : (vars.filter fun v => !doomed v) = vars :=
  List.filter_eq_self.mpr fun v hv => by simpa using List.countP_eq_zero.mp h v hv

/-- The variable whose number an item writes is deleted, unless nothing can be asked for with the
item, or nothing can be written. -/
theorem ends_deleteVariableAsNumber (item : String) (s : Store) :
    Ends (deleteVariableAsNumber item) s fun r s' =>
      (s.readOnly = true ∨ Unanswerable item) ∧ (∃ e, r = .error e) ∧ s' = s ∨
      ¬ Unanswerable item ∧ (s.readOnly = true → s.vars.countP (asksForNumber item) = 0) ∧
        r = .ok (s.vars.countP (asksForNumber item)) ∧
        s' = { s with vars := s.vars.filter fun v => !asksForNumber item v } := by
  unfold deleteVariableAsNumber
  rcases itemNumber?_cases item with ⟨hun, hnumber⟩ | ⟨hanswer, hnumber, hfits⟩
  · cases hitem : itemNumber? item with
    | error cause => exact ends_throw.mpr (.inl ⟨.inr hun, ⟨_, rfl⟩, rfl⟩)
    | ok id =>
      obtain ⟨i, rfl, hbig⟩ := hnumber id hitem
      dsimp only
      rw [deleteVariableNumbered, hbig, if_neg Bool.false_ne_true]
      exact ends_throw.mpr (.inl ⟨.inr hun, ⟨_, rfl⟩, rfl⟩)
  · rw [hnumber]
    cases hn : natural? item.toList with
    | none =>
      have hzero : s.vars.countP (asksForNumber item) = 0 :=
        List.countP_eq_zero.mpr fun v _ => by simp [asksForNumber, hn]
      refine ends_pure.mpr (.inr ⟨hanswer, fun _ => hzero, by rw [hzero], ?_⟩)
      rw [filter_not_of_countP_eq_zero hzero]
    | some n =>
      have hsame : asksForNumber item = fun v : Variable => decide ((v.id : Int) = n) := by
        funext v
        rw [asksForNumber, hn, decide_eq_decide, Option.some.injEq]
        omega
      simp only [Option.map_some]
      rw [deleteVariableNumbered, hfits n hn, if_pos rfl, ends_edit]
      split
      next hlocked => exact .inl ⟨.inl hlocked, ⟨_, rfl⟩, rfl⟩
      next hfree =>
        rw [hsame]
        exact .inr ⟨hanswer, fun h => absurd h hfree, rfl, rfl⟩

/-- One turn: nothing is done, or what is asked for is gone and was counted. -/
theorem ends_deleteVariableItem (env : Option String) (item : String) (s : Store) :
    Ends (deleteVariableItem env item) s fun r s' =>
      (s.readOnly = true ∨ Unanswerable item) ∧ (∃ e, r = .error e) ∧ s' = s ∨
      (s.readOnly = false ∧ ¬ Unanswerable item) ∧ ∃ n, r = .ok n ∧
        s' = { s with vars := afterTurn env s.vars item } ∧
        n + (afterTurn env s.vars item).length = s.vars.length := by
  have hcount (doomed : Variable → Bool) :
      s.vars.countP doomed + (s.vars.filter fun v => !doomed v).length = s.vars.length := by
    rw [← List.countP_eq_length_filter, List.length_eq_countP_add_countP doomed]
    simp
  refine ends_bind.mpr ((ends_deleteVariableAsNumber item s).mono fun r s' h => ?_)
  obtain ⟨hwhy, ⟨e, rfl⟩, rfl⟩ | ⟨hanswer, hlocked, rfl, rfl⟩ := h
  · exact .inl ⟨hwhy, ⟨e, rfl⟩, rfl⟩
  · dsimp only
    split
    next hzero =>
      have hleft : afterTurn env s.vars item = s.vars.filter fun v => !asksForName env item v := by
        rw [afterTurn, if_neg]
        simpa [List.countP_eq_zero] using hzero
      rw [filter_not_of_countP_eq_zero hzero, ends_edit]
      split
      next hfree => exact .inl ⟨.inl hfree, ⟨_, rfl⟩, rfl⟩
      next hfree =>
        rw [hleft]
        exact .inr ⟨⟨by simpa using hfree, hanswer⟩, _, rfl, rfl, hcount _⟩
    next hsome =>
      have hleft : afterTurn env s.vars item = s.vars.filter fun v => !asksForNumber item v := by
        rw [afterTurn, if_pos]
        simpa [List.countP_eq_zero] using hsome
      have hfree : s.readOnly = false := by simpa using mt hlocked hsome
      rw [hleft]
      exact ends_pure.mpr (.inr ⟨⟨hfree, hanswer⟩, _, rfl, rfl, hcount _⟩)

/-! ## All turns -/

/-- The variables that are left when all turns are over. -/
def afterTurns (env : Option String) (vars : List Variable) (items : List String) :
    List Variable :=
  items.foldl (afterTurn env) vars

/-- The items that delete nothing, each judged by the variables that are there at its turn. -/
def idleItems (env : Option String) (vars : List Variable) (items : List String) : List String :=
  ((items.zip (items.scanl (afterTurn env) vars)).filter fun (item, there) =>
    afterTurn env there item = there).map Prod.fst

theorem idleItems_cons (env : Option String) (vars : List Variable) (item : String)
    (items : List String) :
    idleItems env vars (item :: items) =
      if afterTurn env vars item = vars then item :: idleItems env (afterTurn env vars item) items
      else idleItems env (afterTurn env vars item) items := by
  rw [idleItems, List.scanl_cons, List.zip_cons_cons, List.filter_cons]
  by_cases h : afterTurn env vars item = vars <;> simp [h, idleItems]

theorem afterTurns_sublist (env : Option String) (vars : List Variable) (items : List String) :
    (afterTurns env vars items).Sublist vars := by
  induction items generalizing vars with
  | nil => exact .refl vars
  | cons item items ih => exact (ih _).trans (afterTurn_sublist env vars item)

/-- What is gone after all turns was asked for at one of them. -/
theorem asked_of_not_mem_afterTurns {env : Option String} {vars : List Variable}
    {items : List String} {v : Variable} (hv : v ∈ vars) (hgone : v ∉ afterTurns env vars items) :
    ∃ item ∈ items, asksForNumber item v = true ∨ asksForName env item v = true := by
  induction items generalizing vars with
  | nil => exact absurd hv hgone
  | cons item items ih =>
    by_cases hleft : v ∈ afterTurn env vars item
    · obtain ⟨other, hother, hasked⟩ := ih hleft hgone
      exact ⟨other, List.mem_cons_of_mem item hother, hasked⟩
    · exact ⟨item, List.mem_cons_self, asked_of_not_mem_afterTurn hv hleft⟩

/-- All turns: they end at the first item that nothing can be asked for with, or all of them are
taken. -/
theorem ends_deleteVariables (env : Option String) (items : List String) (s : Store) :
    Ends (deleteVariables env items) s fun r s' =>
      (∃ before item after, items = before ++ item :: after ∧
        (s.readOnly = true ∧ before = [] ∨ Unanswerable item) ∧ (∃ e, r = .error e) ∧
        (∀ done ∈ before, ¬ Unanswerable done) ∧
        s' = { s with vars := afterTurns env s.vars before }) ∨
      (items = [] ∨ s.readOnly = false) ∧ (∀ item ∈ items, ¬ Unanswerable item) ∧
        ∃ n, r = .ok (n, idleItems env s.vars items) ∧
          s' = { s with vars := afterTurns env s.vars items } ∧
          n + (afterTurns env s.vars items).length = s.vars.length := by
  induction items generalizing s with
  | nil => exact ends_pure.mpr (.inr ⟨.inl rfl, nofun, 0, rfl, rfl, Nat.zero_add _⟩)
  | cons item items ih =>
    refine ends_bind.mpr ((ends_deleteVariableItem env item s).mono fun r s₁ hturn => ?_)
    obtain ⟨hwhy, ⟨e, rfl⟩, rfl⟩ | ⟨⟨hfree, hanswer⟩, n, rfl, rfl, hcount⟩ := hturn
    · exact .inl ⟨[], item, items, rfl, hwhy.imp_left fun h => ⟨h, rfl⟩, ⟨e, rfl⟩, nofun, rfl⟩
    · refine ends_bind.mpr ((ih _).mono fun r s₂ hturns => ?_)
      obtain ⟨before, bad, after, rfl, hwhy, ⟨e, rfl⟩, hbefore, rfl⟩ |
        ⟨-, hitems, m, rfl, rfl, hcounts⟩ := hturns
      · have hbad : Unanswerable bad := hwhy.resolve_left fun h => by simp [hfree] at h
        exact .inl ⟨item :: before, bad, after, rfl, .inr hbad, ⟨e, rfl⟩,
          List.forall_mem_cons.mpr ⟨hanswer, hbefore⟩, rfl⟩
      · -- an item deletes nothing if and only if it counts nothing
        have hidle : afterTurn env s.vars item = s.vars ↔ n = 0 := by
          constructor
          · intro h
            rw [h] at hcount
            omega
          · rintro rfl
            exact (afterTurn_sublist env s.vars item).eq_of_length (by omega)
        refine ends_pure.mpr (.inr ⟨.inr hfree, List.forall_mem_cons.mpr ⟨hanswer, hitems⟩,
          n + m, ?_, rfl, ?_⟩)
        · simp only [idleItems_cons, hidle]
        · have hcounts' : m + (afterTurns env s.vars (item :: items)).length =
              (afterTurn env s.vars item).length := hcounts
          omega

/-- **Items are accounted for.** Deleting variables gives a result if and only if rows can be
written and no item is one that nothing can be asked for with. Then the count is that of the
variables that are gone, the items that are given back are those that deleted nothing at their
turn, and only variables that were asked for are gone. Otherwise it ends at the first such item,
and what the items in front of it asked for is gone. -/
theorem deleted_variables_are_accounted_for (env : Option String) (items : List String)
    (s : Store) :
    ((∃ result s', deleteVariables env items s = .ok result s') ↔
      (items = [] ∨ s.readOnly = false) ∧ ∀ item ∈ items, ¬ Unanswerable item) ∧
    (∀ n missing s', deleteVariables env items s = .ok (n, missing) s' →
      n + s'.vars.length = s.vars.length ∧ missing = idleItems env s.vars items ∧
        s' = { s with vars := afterTurns env s.vars items } ∧ s'.vars.Sublist s.vars ∧
        ∀ v ∈ s.vars, v ∉ s'.vars →
          ∃ item ∈ items, asksForNumber item v = true ∨ asksForName env item v = true) ∧
    ∀ e s', deleteVariables env items s = .error e s' →
      ∃ before item after, items = before ++ item :: after ∧
        (s.readOnly = true ∧ before = [] ∨ Unanswerable item) ∧
        (∀ done ∈ before, ¬ Unanswerable done) ∧
        s' = { s with vars := afterTurns env s.vars before } := by
  have hends := ends_deleteVariables env items s
  refine ⟨⟨?_, ?_⟩, ?_, ?_⟩
  · rintro ⟨result, s', hrun⟩
    obtain ⟨before, item, after, -, -, ⟨e, he⟩, -⟩ | ⟨hfree, hitems, -⟩ := hends.of_eq_ok hrun
    · exact nomatch he
    · exact ⟨hfree, hitems⟩
  · rintro ⟨hfree, hitems⟩
    cases hrun : deleteVariables env items s with
    | ok result s' => exact ⟨result, s', rfl⟩
    | error e s' =>
      obtain ⟨before, item, after, rfl, hwhy, -⟩ | ⟨-, -, n, hn, -⟩ := hends.of_eq_error hrun
      · rcases hwhy with ⟨hlocked, -⟩ | hbad
        · simp [hlocked] at hfree
        · exact absurd hbad (hitems item (by simp))
      · exact nomatch hn
  · intro n missing s' hrun
    obtain ⟨before, item, after, -, -, ⟨e, he⟩, -⟩ | ⟨-, -, m, hm, rfl, hcount⟩ :=
      hends.of_eq_ok hrun
    · exact nomatch he
    · obtain ⟨rfl, rfl⟩ := Prod.mk.inj (Except.ok.inj hm)
      exact ⟨hcount, rfl, rfl, afterTurns_sublist .., fun v hv => asked_of_not_mem_afterTurns hv⟩
  · intro e s' hrun
    obtain ⟨before, item, after, hitems, hwhy, -, hbefore, hs'⟩ | ⟨-, -, n, hn, -⟩ :=
      hends.of_eq_error hrun
    · exact ⟨before, item, after, hitems, hwhy, hbefore, hs'⟩
    · exact nomatch hn

/-- A number, the name of the variable that had it, and the name of two variables, one of them in
the environment that is given. -/
theorem deleted_variables_are_accounted_for_in_turn :
    let s : Store := { vars := [⟨1, "a", "dev", none, none⟩, ⟨2, "b", "dev", none, none⟩,
      ⟨3, "b", "prod", none, none⟩], lastVariable := 3 }
    let items := ["1", "a", "b"]
    ∃ n s', deleteVariables (some "dev") items s = .ok (n, ["a"]) s' ∧
      s'.vars = [⟨3, "b", "prod", none, none⟩] ∧ n + s'.vars.length = s.vars.length ∧
      idleItems (some "dev") s.vars items = ["a"] := by
  intro s items
  have hrun : succeedsWith (deleteVariables (some "dev") items) s (fun result s' =>
      result.2 = ["a"] ∧ s'.vars = [⟨3, "b", "prod", none, none⟩]) = true := by decide +kernel
  obtain ⟨⟨n, missing⟩, s', hok, hresult⟩ := exists_ok_of_succeedsWith hrun
  obtain ⟨rfl, hvars⟩ : missing = ["a"] ∧ s'.vars = [⟨3, "b", "prod", none, none⟩] := by
    simpa using hresult
  obtain ⟨hcount, hidle, -⟩ :=
    (deleted_variables_are_accounted_for (some "dev") items s).2.1 n _ s' hok
  exact ⟨n, s', hok, hvars, hcount, hidle.symm⟩

/-- A superscript digit is asked for as a number and is none, when a variable is gone already. -/
theorem deleted_variables_are_not_accounted_for :
    let s : Store := { vars := [⟨1, "a", "dev", some "1", some "user"⟩], lastVariable := 1 }
    failsWith (deleteVariables none ["a", "\u00b2"]) s (fun e s' =>
      e = .numeral (.malformed "\u00b2") ∧ s'.vars = []) = true := by
  decide +kernel

end Courier
