/-
Courier.Proofs.Store.Table — what a table holds after a row was put into it.

A table is a list of rows that stand in the order of their keys (`Ordered`), each key before
the next one. So a table has no key twice, and `putRow` is told by what it holds: the new row,
and of the others those with another key (`mem_putRow_iff`). It need not be opened again.
-/
import Courier.Store.Basic
import Mathlib.Data.List.Nodup
import Mathlib.Data.Prod.Lex
import Mathlib.Data.String.Basic

namespace Courier.Store

/-! ## Keys -/

/-- Keys stand in lexicographic order. -/
theorem keyBefore_iff {a b : String × String} : keyBefore a b = true ↔ toLex a < toLex b := by
  rw [Prod.Lex.toLex_lt_toLex]
  simp [keyBefore]

theorem keyBefore_trans {a b c : String × String} (hab : keyBefore a b = true)
    (hbc : keyBefore b c = true) : keyBefore a c = true := by
  rw [keyBefore_iff] at *
  exact hab.trans hbc

theorem ne_of_keyBefore {a b : String × String} (h : keyBefore a b = true) : a ≠ b := by
  rintro rfl
  exact lt_irrefl _ (keyBefore_iff.1 h)

/-- Of two keys one is before the other, unless they are the same. -/
theorem keyBefore_of_not {a b : String × String} (h : keyBefore a b = false) (hne : a ≠ b) :
    keyBefore b a = true := by
  rw [← Bool.not_eq_true, keyBefore_iff, not_lt] at h
  exact keyBefore_iff.2 (lt_of_le_of_ne h (fun heq => hne (toLex.injective heq).symm))

/-! ## Tables -/

section
variable {α : Type} {key : α → String × String}

/-- Whether rows stand in the order of their keys. -/
def Ordered (key : α → String × String) (rows : List α) : Prop :=
  rows.Pairwise fun a b => keyBefore (key a) (key b) = true

theorem Ordered.nil : Ordered key [] := List.Pairwise.nil

theorem Ordered.filter {rows : List α} (h : Ordered key rows) (p : α → Bool) :
    Ordered key (rows.filter p) :=
  List.Pairwise.filter p h

/-- No two rows of a table have the same key. -/
theorem Ordered.nodup {rows : List α} (h : Ordered key rows) : (rows.map key).Nodup :=
  List.Pairwise.map key (fun _ _ => ne_of_keyBefore) h

theorem Ordered.eq_of_key {rows : List α} (h : Ordered key rows) {a b : α} (ha : a ∈ rows)
    (hb : b ∈ rows) (hkey : key a = key b) : a = b :=
  List.inj_on_of_nodup_map h.nodup ha hb hkey

theorem mem_of_mem_putRow {row x : α} {rows : List α} (h : x ∈ putRow key row rows) :
    x = row ∨ x ∈ rows := by
  induction rows with
  | nil => exact .inl (List.mem_singleton.1 h)
  | cons r rs ih =>
    rw [putRow] at h
    split at h
    · exact List.mem_cons.1 h
    · split at h
      · exact (List.mem_cons.1 h).imp_right (List.mem_cons_of_mem r)
      · rcases List.mem_cons.1 h with rfl | h
        · exact .inr List.mem_cons_self
        · exact (ih h).imp_right (List.mem_cons_of_mem r)

theorem mem_putRow_self (row : α) (rows : List α) : row ∈ putRow key row rows := by
  induction rows with
  | nil => exact List.mem_singleton_self row
  | cons r rs ih =>
    rw [putRow]
    split
    · exact List.mem_cons_self
    · split
      · exact List.mem_cons_self
      · exact List.mem_cons_of_mem r ih

theorem mem_putRow_of_ne {row x : α} {rows : List α} (hx : x ∈ rows) (hne : key x ≠ key row) :
    x ∈ putRow key row rows := by
  induction rows with
  | nil => exact absurd hx List.not_mem_nil
  | cons r rs ih =>
    rw [putRow]
    split
    · exact List.mem_cons_of_mem row hx
    · split
      next hsame =>
        rcases List.mem_cons.1 hx with rfl | hx
        · exact absurd hsame.symm hne
        · exact List.mem_cons_of_mem row hx
      next =>
        rcases List.mem_cons.1 hx with rfl | hx
        · exact List.mem_cons_self
        · exact List.mem_cons_of_mem r (ih hx)

/-- In a table the new row takes the place of the row with its key. -/
theorem eq_of_mem_putRow {row x : α} {rows : List α} (h : Ordered key rows)
    (hx : x ∈ putRow key row rows) (hkey : key x = key row) : x = row := by
  induction rows with
  | nil => exact List.mem_singleton.1 hx
  | cons r rs ih =>
    obtain ⟨hr, hrs⟩ := List.pairwise_cons.1 h
    rw [putRow] at hx
    split at hx
    next hbefore =>
      rcases List.mem_cons.1 hx with rfl | hx
      · rfl
      · rcases List.mem_cons.1 hx with rfl | hx
        · exact absurd hkey.symm (ne_of_keyBefore hbefore)
        · exact absurd hkey.symm (ne_of_keyBefore (keyBefore_trans hbefore (hr x hx)))
    next =>
      split at hx
      next hsame =>
        rcases List.mem_cons.1 hx with rfl | hx
        · rfl
        · exact absurd (hsame.symm.trans hkey.symm) (ne_of_keyBefore (hr x hx))
      next hne =>
        rcases List.mem_cons.1 hx with rfl | hx
        · exact absurd hkey.symm hne
        · exact ih hrs hx

/-- What a table holds after a row was put into it. -/
theorem mem_putRow_iff {row x : α} {rows : List α} (h : Ordered key rows) :
    x ∈ putRow key row rows ↔ x = row ∨ x ∈ rows ∧ key x ≠ key row := by
  constructor
  · intro hx
    by_cases hkey : key x = key row
    · exact .inl (eq_of_mem_putRow h hx hkey)
    · exact (mem_of_mem_putRow hx).imp_right fun hx => ⟨hx, hkey⟩
  · rintro (rfl | ⟨hx, hne⟩)
    · exact mem_putRow_self x rows
    · exact mem_putRow_of_ne hx hne

theorem Ordered.putRow {rows : List α} (h : Ordered key rows) (row : α) :
    Ordered key (putRow key row rows) := by
  induction rows with
  | nil => exact List.pairwise_singleton _ _
  | cons r rs ih =>
    obtain ⟨hr, hrs⟩ := List.pairwise_cons.1 h
    rw [Store.putRow]
    split
    next hbefore =>
      refine List.pairwise_cons.2 ⟨fun y hy => ?_, h⟩
      rcases List.mem_cons.1 hy with rfl | hy
      · exact hbefore
      · exact keyBefore_trans hbefore (hr y hy)
    next hbefore =>
      split
      next hsame =>
        refine List.pairwise_cons.2 ⟨fun y hy => ?_, hrs⟩
        rw [hsame]
        exact hr y hy
      next hne =>
        refine List.pairwise_cons.2 ⟨fun y hy => ?_, ih hrs⟩
        rcases mem_of_mem_putRow hy with rfl | hy
        · exact keyBefore_of_not (Bool.eq_false_of_not_eq_true hbefore) hne
        · exact hr y hy

/-- What asks for no row with the key of the new one does not see it. -/
theorem filter_putRow {row : α} {rows : List α} {p : α → Bool}
    (h : ∀ r, key r = key row → p r = false) : (putRow key row rows).filter p = rows.filter p := by
  have hrow : ¬ p row = true := Bool.eq_false_iff.1 (h row rfl)
  induction rows with
  | nil => rw [putRow, List.filter_cons_of_neg hrow]
  | cons r rs ih =>
    rw [putRow]
    split
    next => rw [List.filter_cons_of_neg hrow]
    next =>
      split
      next hsame =>
        rw [List.filter_cons_of_neg hrow,
          List.filter_cons_of_neg (Bool.eq_false_iff.1 (h r hsame.symm))]
      next => rw [List.filter_cons, List.filter_cons, ih]

/-- A table is told by what it holds. -/
theorem Ordered.ext {rows rows' : List α} (h : Ordered key rows) (h' : Ordered key rows')
    (hmem : ∀ r, r ∈ rows ↔ r ∈ rows') : rows = rows' := by
  have hperm : rows.Perm rows' :=
    (List.perm_ext_iff_of_nodup h.nodup.of_map h'.nodup.of_map).2 hmem
  refine List.Perm.eq_of_pairwise (fun a b _ _ hab hba => ?_) h h' hperm
  exact absurd rfl (ne_of_keyBefore (keyBefore_trans hab hba))

/-- What asks for the key of a row of a table finds this row alone. -/
theorem Ordered.filter_key {rows : List α} (h : Ordered key rows) {row : α} (hrow : row ∈ rows)
    {p : α → Bool} (hp : ∀ r, p r = true ↔ key r = key row) : rows.filter p = [row] := by
  refine (h.filter p).ext (List.pairwise_singleton _ row) fun r => ?_
  rw [List.mem_filter, hp, List.mem_singleton]
  constructor
  · exact fun hr => h.eq_of_key hr.1 hrow hr.2
  · rintro rfl
    exact ⟨hrow, rfl⟩

end

end Courier.Store
