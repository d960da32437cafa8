/-
Courier.Proofs.Text.Like — which texts match a pattern.

`Fits` is the rule of matching as a relation between the characters of a pattern and those of a
text: a character that is not `%` fits one character, and `%` any run of them
(`likeChars_eq_true_iff`).

Names are looked for by what stands behind a dash. With that suffix in a pattern, its characters
are characters of a pattern too: a name is found if it resembles one with the suffix
(`Resembles`). Each name with the suffix is found (`resembles_of_endsWith`). No other name is,
exactly if every character of the suffix stands for itself only (`endsWith_of_resembles_iff`).
-/
import Courier.Text.Basic
import Courier.Text.Like
import Courier.Text.Utf16
import Mathlib.Data.Char
import Mathlib.Data.List.TakeWhile

namespace Courier.Text

/-! ## Characters -/

/-- Whether a character of a pattern that is not `%` stands for a character. -/
def Covers (p c : Char) : Prop := p = '_' ∨ likeForm p = likeForm c

theorem likeOne_eq_true_iff {p c : Char} : likeOne p c = true ↔ Covers p c := by
  simp [likeOne, Covers]

theorem Covers.refl (c : Char) : Covers c c := .inr rfl

/-- A character that stands for itself in a pattern and for nothing else. -/
def Literal (c : Char) : Prop :=
  c.isAlpha = false ∧ c ∉ ['%', '_', '\x00', '\uFFFD', '\uFFFE', '\uFFFF']

instance : DecidablePred Literal := fun c =>
  inferInstanceAs (Decidable (c.isAlpha = false ∧ c ∉ _))

theorem toNat_ofNat_of_lt {n : Nat} (h : n < 0xD800) : (Char.ofNat n).toNat = n :=
  toNat_ofNat_of_not_isHalf (by simp [isHalf]; omega) (by omega)

theorem isUpper_iff_le {c : Char} : c.isUpper = true ↔ 'A' ≤ c ∧ c ≤ 'Z' := decide_eq_true_iff

theorem isUpper_iff {c : Char} : c.isUpper = true ↔ 65 ≤ c.toNat ∧ c.toNat ≤ 90 :=
  isUpper_iff_le.trans (and_congr UInt32.le_iff_toNat_le UInt32.le_iff_toNat_le)

theorem isLower_iff {c : Char} : c.isLower = true ↔ 97 ≤ c.toNat ∧ c.toNat ≤ 122 := by
  have hlower : c.isLower = true ↔ 'a' ≤ c ∧ c ≤ 'z' :=
    Bool.and_eq_true_iff.trans (and_congr decide_eq_true_iff decide_eq_true_iff)
  exact hlower.trans (and_congr UInt32.le_iff_toNat_le UInt32.le_iff_toNat_le)

theorem isAlpha_eq_false_iff {c : Char} :
    c.isAlpha = false ↔ c.isUpper = false ∧ c.isLower = false :=
  Bool.or_eq_false_iff

theorem likeForm_eq (c : Char) :
    likeForm c = if c.isUpper then Char.ofNat (c.toNat + 32)
      else if c = '\uFFFE' ∨ c = '\uFFFF' then '\uFFFD' else c := by
  have hupper : ('A' ≤ c && c ≤ 'Z') = c.isUpper := by
    rw [Bool.eq_iff_iff, isUpper_iff_le, Bool.and_eq_true, decide_eq_true_iff, decide_eq_true_iff]
  rw [likeForm, hupper]
  simp

theorem likeForm_of_isUpper {c : Char} (h : c.isUpper = true) :
    likeForm c = Char.ofNat (c.toNat + 32) := by
  rw [likeForm_eq, if_pos h]

theorem likeForm_of_not_isUpper {c : Char} (h : c.isUpper = false) :
    likeForm c = if c = '\uFFFE' ∨ c = '\uFFFF' then '\uFFFD' else c := by
  rw [likeForm_eq, h, if_neg Bool.false_ne_true]

/-- An upper-case letter counts as a lower-case one. -/
theorem isLower_likeForm {c : Char} (h : c.isUpper = true) : (likeForm c).isLower = true := by
  have hrange := isUpper_iff.mp h
  rw [likeForm_of_isUpper h, isLower_iff, toNat_ofNat_of_lt (by omega)]
  omega

theorem isUpper_of_isLower {c : Char} (h : c.isLower = true) : c.isUpper = false := by
  rw [isLower_iff] at h
  rw [Bool.eq_false_iff, Ne, isUpper_iff]
  omega

theorem likeForm_of_isLower {c : Char} (h : c.isLower = true) : likeForm c = c := by
  rw [likeForm_of_not_isUpper (isUpper_of_isLower h), if_neg]
  intro hmark
  rcases hmark with rfl | rfl <;> exact absurd h (by decide)

/-- A lower-case letter is what its upper case counts as. -/
theorem exists_isUpper {c : Char} (h : c.isLower = true) :
    ∃ d, d.isUpper = true ∧ likeForm d = c := by
  have hrange := isLower_iff.mp h
  have hnat : (Char.ofNat (c.toNat - 32)).toNat = c.toNat - 32 := toNat_ofNat_of_lt (by omega)
  have hupper : (Char.ofNat (c.toNat - 32)).isUpper = true := by
    rw [isUpper_iff, hnat]
    omega
  refine ⟨_, hupper, ?_⟩
  rw [likeForm_of_isUpper hupper, hnat, Nat.sub_add_cancel (by omega), Char.ofNat_toNat]

theorem covers_iff_of_literal {p c : Char} (h : Literal p) : Covers p c ↔ c = p := by
  obtain ⟨halpha, hspecial⟩ := h
  rw [isAlpha_eq_false_iff] at halpha
  simp only [List.mem_cons, List.not_mem_nil, or_false, not_or] at hspecial
  obtain ⟨-, hany, -, hmark, hmark', hmark''⟩ := hspecial
  have hform : likeForm p = p := by
    rw [likeForm_of_not_isUpper halpha.1, if_neg (by simp [hmark', hmark''])]
  constructor
  · intro h
    have hsame : p = likeForm c := hform.symm.trans (h.resolve_left hany)
    cases hupper : c.isUpper with
    | true =>
      have hlower := isLower_likeForm hupper
      rw [← hsame, halpha.2] at hlower
      exact absurd hlower Bool.false_ne_true
    | false =>
      rw [likeForm_of_not_isUpper hupper] at hsame
      split at hsame
      · exact absurd hsame hmark
      · exact hsame.symm
  · intro h
    exact h ▸ .refl p

/-- Any other character that stands for one character stands for more than itself. -/
theorem exists_covers_ne {p : Char} (h : ¬ Literal p) (hrun : p ≠ '%') (hnul : p ≠ '\x00') :
    ∃ c, c ≠ p ∧ c ≠ '\x00' ∧ Covers p c := by
  cases hupper : p.isUpper with
  | true =>
    have hlower := isLower_likeForm hupper
    refine ⟨likeForm p, ?_, ?_, .inr (likeForm_of_isLower hlower).symm⟩
    · intro hsame
      rw [isUpper_of_isLower (hsame ▸ hlower)] at hupper
      exact nomatch hupper
    · intro hzero
      exact absurd (hzero ▸ hlower) (by decide)
  | false =>
    cases hlower : p.isLower with
    | true =>
      obtain ⟨d, hd, hform⟩ := exists_isUpper hlower
      refine ⟨d, ?_, ?_, .inr ((likeForm_of_isLower hlower).trans hform.symm)⟩
      · intro hsame
        rw [hsame, hupper] at hd
        exact nomatch hd
      · intro hzero
        exact absurd (hzero ▸ hd) (by decide)
    | false =>
      have hspecial : p = '_' ∨ p = '\uFFFD' ∨ p = '\uFFFE' ∨ p = '\uFFFF' := by
        have hmem : p ∈ ['%', '_', '\x00', '\uFFFD', '\uFFFE', '\uFFFF'] := by
          by_contra hnot
          exact h ⟨isAlpha_eq_false_iff.mpr ⟨hupper, hlower⟩, hnot⟩
        simpa [hrun, hnul] using hmem
      rcases hspecial with rfl | rfl | rfl | rfl
      · exact ⟨'a', by decide, by decide, .inl rfl⟩
      · exact ⟨'\uFFFE', by decide, by decide, .inr (by decide)⟩
      · exact ⟨'\uFFFD', by decide, by decide, .inr (by decide)⟩
      · exact ⟨'\uFFFD', by decide, by decide, .inr (by decide)⟩

/-! ## Patterns -/

/-- Whether the characters of a pattern fit those of a text. -/
inductive Fits : List Char → List Char → Prop
  | nil : Fits [] []
  | run (skipped : List Char) {ps cs : List Char} (h : Fits ps cs) :
    Fits ('%' :: ps) (skipped ++ cs)
  | one {p c : Char} {ps cs : List Char} (hp : p ≠ '%') (hc : Covers p c) (h : Fits ps cs) :
    Fits (p :: ps) (c :: cs)

theorem fits_of_likeChars {ps cs : List Char} (h : likeChars ps cs = true) : Fits ps cs := by
  fun_induction likeChars ps cs with
  | case1 cs =>
    rw [List.isEmpty_iff.mp h]
    exact .nil
  | case2 p ps ih =>
    simp only [Bool.and_eq_true, beq_iff_eq] at h
    obtain ⟨rfl, h⟩ := h
    exact .run [] (ih h)
  | case3 ps c cs ih ihrun =>
    rw [Bool.or_eq_true] at h
    rcases h with h | h
    · exact .run [] (ih h)
    · -- `%` is still there for the rest, so that its run is longer by this character
      cases ihrun h with
      | run skipped hrest => exact .run (c :: skipped) hrest
      | one hp _ _ => exact absurd rfl hp
  | case4 p ps c cs hp ih =>
    rw [Bool.and_eq_true, likeOne_eq_true_iff] at h
    exact .one hp h.1 (ih h.2)

theorem likeChars_run {ps cs : List Char} (skipped : List Char) (h : likeChars ps cs = true) :
    likeChars ('%' :: ps) (skipped ++ cs) = true := by
  induction skipped with
  | nil => cases cs <;> simp [likeChars, h]
  | cons c skipped ih => simp [likeChars, ih]

theorem likeChars_of_fits {ps cs : List Char} (h : Fits ps cs) : likeChars ps cs = true := by
  induction h with
  | nil => simp [likeChars]
  | run skipped _ ih => exact likeChars_run skipped ih
  | one hp hc _ ih => simp [likeChars, hp, likeOne_eq_true_iff.mpr hc, ih]

theorem likeChars_eq_true_iff {ps cs : List Char} : likeChars ps cs = true ↔ Fits ps cs :=
  ⟨fits_of_likeChars, likeChars_of_fits⟩

/-- A pattern fits itself: every wildcard in it may be taken for itself. -/
theorem Fits.refl (ps : List Char) : Fits ps ps := by
  induction ps with
  | nil => exact .nil
  | cons p ps ih =>
    by_cases hp : p = '%'
    · subst hp
      exact .run ['%'] ih
    · exact .one hp (.refl p) ih

theorem Fits.append {ps cs qs ds : List Char} (h : Fits ps cs) (h' : Fits qs ds) :
    Fits (ps ++ qs) (cs ++ ds) := by
  induction h with
  | nil => exact h'
  | run skipped _ ih =>
    rw [List.append_assoc]
    exact .run skipped ih
  | one hp hc _ ih => exact .one hp hc ih

theorem eq_of_fits {ps cs : List Char} (hps : ∀ p ∈ ps, Literal p) (h : Fits ps cs) : cs = ps := by
  induction h with
  | nil => rfl
  | run _ _ _ => exact absurd (hps '%' List.mem_cons_self) (by decide)
  | one _ hc _ ih =>
    obtain ⟨hp, hps⟩ := List.forall_mem_cons.mp hps
    rw [(covers_iff_of_literal hp).mp hc, ih hps]

/-! ## Names that end alike -/

/-- Whether what stands behind some dash of a name fits a suffix, which is taken for a pattern. -/
def Resembles (suffix name : String) : Prop :=
  ∃ front ending, untilNul name = front ++ '-' :: ending ∧ Fits (untilNul suffix) ending

theorem untilNul_append {s : String} (h : '\x00' ∉ s.toList) (t : String) :
    untilNul (s ++ t) = s.toList ++ untilNul t := by
  rw [untilNul, untilNul, String.toList_append, List.takeWhile_append_of_pos]
  intro c hc
  exact decide_eq_true fun hnul => h (hnul ▸ hc)

theorem untilNul_of_not_mem {s : String} (h : '\x00' ∉ s.toList) : untilNul s = s.toList := by
  simpa [untilNul] using untilNul_append h ""

theorem nul_not_mem_untilNul (s : String) : '\x00' ∉ untilNul s := by
  intro hnul
  exact absurd (List.mem_takeWhile_imp hnul) (by decide)

/-- The names that are found are those that resemble one with the suffix. -/
theorem like_dashed_iff {suffix name : String} :
    like ("%-" ++ suffix) name = true ↔ Resembles suffix name := by
  rw [like_eq, likeChars_eq_true_iff, untilNul_append (by decide)]
  show Fits ('%' :: '-' :: untilNul suffix) (untilNul name) ↔ _
  constructor
  · intro h
    generalize hname : untilNul name = cs at h
    cases h with
    | run front hrest =>
      cases hrest with
      | one _ hdash hending =>
        obtain rfl := (covers_iff_of_literal (by decide)).mp hdash
        exact ⟨front, _, hname, hending⟩
    | one hp _ _ => exact absurd rfl hp
  · intro ⟨front, ending, hname, hending⟩
    rw [hname]
    exact .run front (.one (by decide) (.refl '-') hending)

example : Resembles "USER_ID" "get-user-id" := like_dashed_iff.mp (by decide +kernel)

theorem endsWith_iff {suffix name : String} :
    endsWith suffix name = true ↔ ∃ front, name.toList = front ++ suffix.toList := by
  rw [endsWith, List.isSuffixOf_iff_suffix]
  constructor
  · intro ⟨front, h⟩
    exact ⟨front, h.symm⟩
  · intro ⟨front, h⟩
    exact ⟨front, h.symm⟩

/-- Every name with the suffix is found. -/
theorem resembles_of_endsWith {suffix name : String} (hnul : '\x00' ∉ name.toList)
    (h : endsWith ("-" ++ suffix) name = true) : Resembles suffix name := by
  obtain ⟨front, hname⟩ := endsWith_iff.mp h
  simp only [String.toList_append] at hname
  have hsuffix : '\x00' ∉ suffix.toList := by
    intro hmem
    exact hnul (by simp [hname, hmem])
  refine ⟨front, suffix.toList, ?_, ?_⟩
  · simpa [untilNul_of_not_mem hnul] using hname
  · rw [untilNul_of_not_mem hsuffix]
    exact .refl _

/-- What fits a suffix in another way is found behind a dash, and is not the suffix. -/
theorem exists_resembles_of_fits {suffix : String} {ending : List Char}
    (hfits : Fits (untilNul suffix) ending) (hnul : '\x00' ∉ ending)
    (hlength : ending.length ≤ suffix.toList.length) (hne : ending ≠ suffix.toList) :
    ∃ name, '\x00' ∉ name.toList ∧ Resembles suffix name ∧
      endsWith ("-" ++ suffix) name = false := by
  have hname : '\x00' ∉ (String.ofList ('-' :: ending)).toList := by simpa using hnul
  refine ⟨String.ofList ('-' :: ending), hname, ⟨[], ending, ?_, hfits⟩, ?_⟩
  · rw [untilNul_of_not_mem hname]
    simp
  · rw [Bool.eq_false_iff, Ne, endsWith_iff]
    intro ⟨front, h⟩
    simp only [String.toList_ofList, String.toList_append] at h
    have hfront : front.length = 0 := by
      have hcount := congrArg List.length h
      simp at hcount
      omega
    rw [List.length_eq_zero_iff.mp hfront] at h
    exact hne (by simpa using h)

/-- A suffix fits more than itself if one of its characters does not stand for itself only. -/
theorem exists_fits_ne {suffix : String} {c : Char} (hc : c ∈ suffix.toList)
    (hliteral : ¬ Literal c) :
    ∃ ending, Fits (untilNul suffix) ending ∧ '\x00' ∉ ending ∧
      ending.length ≤ suffix.toList.length ∧ ending ≠ suffix.toList := by
  by_cases hnul : '\x00' ∈ suffix.toList
  · refine ⟨untilNul suffix, .refl _, nul_not_mem_untilNul suffix, ?_, ?_⟩
    · exact (List.takeWhile_prefix _).length_le
    · intro heq
      exact nul_not_mem_untilNul suffix (heq ▸ hnul)
  · obtain ⟨before, after, hsplit⟩ := List.append_of_mem hc
    rw [untilNul_of_not_mem hnul, hsplit]
    simp only [hsplit, List.mem_append, List.mem_cons, not_or] at hnul
    obtain ⟨hbefore, hcne, hafter⟩ := hnul
    by_cases hrun : c = '%'
    · -- The run that `%` stands for may be empty.
      subst hrun
      have hfits : Fits (before ++ '%' :: after) (before ++ after) :=
        (Fits.refl before).append (.run [] (.refl after))
      refine ⟨before ++ after, hfits, by simp [hbefore, hafter], by simp, ?_⟩
      intro heq
      simpa using congrArg List.length heq
    · obtain ⟨d, hne, hd, hcovers⟩ := exists_covers_ne hliteral hrun (Ne.symm hcne)
      have hfits : Fits (before ++ c :: after) (before ++ d :: after) :=
        (Fits.refl before).append (.one hrun hcovers (.refl after))
      exact ⟨before ++ d :: after, hfits, by simp [hbefore, hafter, Ne.symm hd], by simp,
        by simp [hne]⟩

/-- A suffix finds no other names than those that have it, exactly if all its characters stand for
themselves only. -/
theorem endsWith_of_resembles_iff {suffix : String} :
    (∀ name, '\x00' ∉ name.toList → Resembles suffix name →
      endsWith ("-" ++ suffix) name = true) ↔ ∀ c ∈ suffix.toList, Literal c := by
  constructor
  · intro hsame c hc
    by_contra hliteral
    obtain ⟨ending, hfits, hnul, hlength, hne⟩ := exists_fits_ne hc hliteral
    obtain ⟨name, hname, hresembles, hends⟩ := exists_resembles_of_fits hfits hnul hlength hne
    rw [hsame name hname hresembles] at hends
    exact nomatch hends
  · intro hliteral name hname ⟨front, ending, hsplit, hfits⟩
    have hsuffix : '\x00' ∉ suffix.toList := fun hmem => absurd (hliteral _ hmem) (by decide)
    rw [untilNul_of_not_mem hsuffix] at hfits
    rw [untilNul_of_not_mem hname, eq_of_fits hliteral hfits] at hsplit
    refine endsWith_iff.mpr ⟨front, ?_⟩
    simpa using hsplit

end Courier.Text
