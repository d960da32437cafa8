/-
Courier.Proofs.Line.Word — what the two scanners read as one word.

A word is described without a scanner by what its backslashes hold on to:

* `quotesHeld` — between quotes, the quote stands only behind a backslash that
  holds on to it;
* `spacesHeld` — in a bare word, white space stands only behind a backslash that
  holds on to it;
* `endsHolding` — the word ends in a backslash that would hold on to whatever
  comes next.

`scanQuoted_closed`, `scanQuoted_open` and `scanBare_word` say that the scanners
read such words and stop behind them; `scanQuoted_eq_closed`, `scanQuoted_eq_open`
and `scanBare_eq` say that they read nothing else.

The scanners look one character ahead, so what they make of a word depends on what
follows it. `Ends` is that dependence: a bare word stops in front of `rest` when
`rest` is white space or nothing, and an `endsHolding` word stops at the end only.
-/
import Courier.Line.Quoting

namespace Courier.Line

/-! ## Backslashes at the end -/

/-- Whether a word ends in a backslash that would hold on to the next character:
in an odd run of backslashes. -/
def endsHolding (w : List Char) : Bool := oddBackslashes w.reverse

theorem oddBackslashes_append_cons {d : Char} (hd : d ≠ '\\') (xs ys : List Char) :
    oddBackslashes (xs ++ d :: ys) = oddBackslashes xs := by
  induction xs with
  | nil => simp [oddBackslashes, hd]
  | cons x xs ih =>
    by_cases hx : x = '\\'
    · subst hx; simp [oddBackslashes, ih]
    · simp [oddBackslashes, hx]

/-- Two backslashes more do not change whether a run of them is odd. -/
theorem oddBackslashes_append_pair (xs : List Char) :
    oddBackslashes (xs ++ ['\\', '\\']) = oddBackslashes xs := by
  induction xs with
  | nil => rfl
  | cons x xs ih =>
    by_cases hx : x = '\\'
    · subst hx; simp [oddBackslashes, ih]
    · simp [oddBackslashes, hx]

@[simp] theorem endsHolding_nil : endsHolding [] = false := rfl

@[simp] theorem endsHolding_backslash : endsHolding ['\\'] = true := rfl

theorem endsHolding_cons {c : Char} (hc : c ≠ '\\') (w : List Char) :
    endsHolding (c :: w) = endsHolding w := by
  rw [endsHolding, List.reverse_cons, oddBackslashes_append_cons hc, endsHolding]

/-- A backslash and whatever it holds on to leave the end of a word as it is. -/
theorem endsHolding_pair (d : Char) (w : List Char) :
    endsHolding ('\\' :: d :: w) = endsHolding w := by
  have hrev : ('\\' :: d :: w).reverse = w.reverse ++ [d, '\\'] := by simp
  rw [endsHolding, hrev]
  by_cases hd : d = '\\'
  · subst hd; exact oddBackslashes_append_pair _
  · exact oddBackslashes_append_cons hd _ _

theorem endsEscaped_eq (text : String) : endsEscaped text = endsHolding text.toList := rfl

/-- Whether the quote `q` stands in a word only behind a backslash that holds on to it.
Every character may follow that backslash. -/
def quotesHeld (q : Char) : List Char → Bool
  | [] => true
  | [c] => c != q
  | c :: d :: w => if c = '\\' then quotesHeld q w else c != q && quotesHeld q (d :: w)

/-- What may stand between two quotes. -/
def Enclosed (q : Char) (w : List Char) : Prop :=
  quotesHeld q w = true ∧ endsHolding w = false

theorem quotesHeld_pair (q d : Char) (w : List Char) :
    quotesHeld q ('\\' :: d :: w) = quotesHeld q w := by
  simp [quotesHeld]

theorem quotesHeld_cons {c : Char} (hc : c ≠ '\\') (q : Char) (w : List Char) :
    quotesHeld q (c :: w) = (c != q && quotesHeld q w) := by
  cases w with
  | nil => simp [quotesHeld]
  | cons d w => simp [quotesHeld, hc]

theorem quotesHeld_of_not_mem {q : Char} {w : List Char} (h : q ∉ w) : quotesHeld q w = true := by
  fun_induction quotesHeld q w with
  | case1 => rfl
  | case2 c => simpa using Ne.symm (List.ne_of_not_mem_cons h)
  | case3 d w ih => exact ih (fun hq => h (by simp [hq]))
  | case4 c d w hc ih =>
    rw [List.mem_cons, not_or] at h
    rw [ih h.2, Bool.and_true, bne_iff_ne]
    exact Ne.symm h.1

/-! Equations for `scanQuoted`, one for each thing that can stand in front. -/

theorem scanQuoted_quote {q : Char} (hq : q ≠ '\\') (rest : List Char) :
    scanQuoted q (q :: rest) = ([], some rest) := by
  cases rest with
  | nil => simp [scanQuoted]
  | cons d rest => simp [scanQuoted, hq]

theorem scanQuoted_pair (q d : Char) (cs : List Char) :
    scanQuoted q ('\\' :: d :: cs) = ('\\' :: d :: (scanQuoted q cs).1, (scanQuoted q cs).2) := by
  simp [scanQuoted]

theorem scanQuoted_cons {q c : Char} (hc : c ≠ '\\') (hq : c ≠ q) (cs : List Char) :
    scanQuoted q (c :: cs) = (c :: (scanQuoted q cs).1, (scanQuoted q cs).2) := by
  cases cs with
  | nil => simp [scanQuoted, hq]
  | cons d cs => simp [scanQuoted, hc, hq]

/-- A word that may stand between quotes is read up to the closing quote. -/
theorem scanQuoted_closed {q : Char} (hq : q ≠ '\\') {w : List Char} (hw : Enclosed q w)
    (rest : List Char) : scanQuoted q (w ++ q :: rest) = (w, some rest) := by
  obtain ⟨held, ends⟩ := hw
  fun_induction quotesHeld q w with
  | case1 => exact scanQuoted_quote hq rest
  | case2 c =>
    -- a backslash here would hold on to the closing quote
    have hc : c ≠ '\\' := by rintro rfl; simp at ends
    rw [List.cons_append, scanQuoted_cons hc (by simpa using held), List.nil_append,
      scanQuoted_quote hq]
  | case3 d w ih =>
    rw [endsHolding_pair] at ends
    rw [List.cons_append, List.cons_append, scanQuoted_pair, ih held ends]
  | case4 c d w hc ih =>
    simp only [Bool.and_eq_true, bne_iff_ne] at held
    rw [endsHolding_cons hc] at ends
    rw [List.cons_append, scanQuoted_cons hc held.1, ih held.2 ends]

/-- A word without a quote of its own is read to the end of the line. -/
theorem scanQuoted_open {q : Char} {w : List Char} (held : quotesHeld q w = true) :
    scanQuoted q w = (w, none) := by
  fun_induction quotesHeld q w with
  | case1 => rfl
  | case2 c => simp_all [scanQuoted]
  | case3 d w ih => rw [scanQuoted_pair, ih held]
  | case4 c d w hc ih =>
    simp only [Bool.and_eq_true, bne_iff_ne] at held
    rw [scanQuoted_cons hc held.1, ih held.2]

/-- What is read up to a closing quote may stand between quotes. -/
theorem scanQuoted_eq_closed {q : Char} {cs rest : List Char}
    (h : (scanQuoted q cs).2 = some rest) :
    cs = (scanQuoted q cs).1 ++ q :: rest ∧ Enclosed q (scanQuoted q cs).1 := by
  fun_induction scanQuoted q cs with
  | case1 => simp at h
  | case2 => simp at h; subst h; exact ⟨rfl, rfl, rfl⟩
  | case3 => simp at h
  | case4 d cs r ih =>
    obtain ⟨heq, held, ends⟩ := ih h
    refine ⟨by rw [List.cons_append, List.cons_append, ← heq], ?_, ?_⟩
    · rwa [quotesHeld_pair]
    · rwa [endsHolding_pair]
  | case5 d cs _ => simp at h; subst h; exact ⟨rfl, rfl, rfl⟩
  | case6 c d cs hc hq r ih =>
    obtain ⟨heq, held, ends⟩ := ih h
    refine ⟨by rw [List.cons_append, ← heq], ?_, ?_⟩
    · rw [quotesHeld_cons hc]; simpa [hq] using held
    · rwa [endsHolding_cons hc]

/-- What is read without a closing quote is the whole rest of the line. -/
theorem scanQuoted_eq_open {q : Char} {cs : List Char} (h : (scanQuoted q cs).2 = none) :
    (scanQuoted q cs).1 = cs ∧ quotesHeld q cs = true := by
  fun_induction scanQuoted q cs with
  | case1 => exact ⟨rfl, rfl⟩
  | case2 => simp at h
  | case3 c hq => exact ⟨rfl, by simpa [quotesHeld] using hq⟩
  | case4 d cs r ih =>
    obtain ⟨heq, held⟩ := ih h
    exact ⟨by rw [heq], by rwa [quotesHeld_pair]⟩
  | case5 => simp at h
  | case6 c d cs hc hq r ih =>
    obtain ⟨heq, held⟩ := ih h
    exact ⟨by rw [heq], by rw [quotesHeld_cons hc]; simpa [hq] using held⟩

/-! ## Bare words -/

/-- Whether white space stands in a word only behind a backslash that holds on to it.
Only white space and backslashes are held. -/
def spacesHeld : List Char → Bool
  | [] => true
  | [c] => !isSpace c
  | c :: d :: w =>
    if c = '\\' && isHeld d then spacesHeld w else !isSpace c && spacesHeld (d :: w)

/-- Without white space there is none to hold. -/
theorem spacesHeld_of_plain {w : List Char} (h : w.any isSpace = false) : spacesHeld w = true := by
  fun_induction spacesHeld w with
  | case1 => rfl
  | case2 c => simpa using h
  | case3 c d w hpair ih =>
    simp only [List.any_cons, Bool.or_eq_false_iff] at h
    exact ih h.2.2
  | case4 c d w hpair ih =>
    rw [List.any_cons, Bool.or_eq_false_iff] at h
    rw [h.1, ih h.2]
    rfl

/-- White space follows, or nothing. -/
def Apart : List Char → Prop
  | [] => True
  | c :: _ => isSpace c = true

/-- A bare word ends in front of `rest`. -/
def Ends (w rest : List Char) : Prop :=
  Apart rest ∧ (endsHolding w = true → rest = [])

theorem isSpace_backslash : isSpace '\\' = false := rfl

/-- What is neither held nor a backslash's partner is no backslash. -/
theorem ne_backslash_of_not_isHeld {d : Char} (hd : isHeld d = false) : d ≠ '\\' := by
  rintro rfl; simp [isHeld] at hd

theorem not_isSpace_of_not_isHeld {d : Char} (hd : isHeld d = false) : isSpace d = false := by
  simp only [isHeld, Bool.or_eq_false_iff] at hd; exact hd.1

theorem apart_nil : Apart [] := trivial

theorem apart_cons {c : Char} {cs : List Char} : Apart (c :: cs) ↔ isSpace c = true := Iff.rfl

/-- Once something follows a word, more behind that changes nothing. -/
theorem Ends.append {w rest : List Char} (h : Ends w rest) (hrest : rest ≠ [])
    (more : List Char) : Ends w (rest ++ more) := by
  obtain ⟨apart, last⟩ := h
  refine ⟨?_, fun hends => absurd (last hends) hrest⟩
  cases rest with
  | nil => exact absurd rfl hrest
  | cons c cs => exact apart_cons.mpr (apart_cons.mp apart)

theorem Apart.take {rest : List Char} (h : Apart rest) (n : Nat) : Apart (rest.take n) := by
  cases n with
  | zero => exact apart_nil
  | succ n =>
    cases rest with
    | nil => exact apart_nil
    | cons c cs => exact apart_cons.mpr (apart_cons.mp h)

theorem Ends.take {w rest : List Char} (h : Ends w rest) (n : Nat) : Ends w (rest.take n) := by
  refine ⟨h.1.take n, fun hends => ?_⟩
  rw [h.2 hends, List.take_nil]

/-! Equations for `scanBare` and `spacesHeld`, one for each thing that can stand in front. -/

theorem scanBare_apart {rest : List Char} (h : Apart rest) : scanBare rest = ([], rest) := by
  match rest, h with
  | [], _ => rfl
  | [c], h => simp [scanBare, apart_cons.mp h]
  | c :: d :: cs, h => simp [scanBare, apart_cons.mp h]

theorem scanBare_pair {d : Char} (hd : isHeld d = true) (cs : List Char) :
    scanBare ('\\' :: d :: cs) = ('\\' :: d :: (scanBare cs).1, (scanBare cs).2) := by
  simp [scanBare, isSpace_backslash, hd]

/-- A backslash in front of a character that it does not hold on to is an ordinary one. -/
theorem scanBare_cons {c : Char} {cs : List Char} (hc : isSpace c = false)
    (hd : c = '\\' → ∀ d ∈ cs.head?, isHeld d = false) :
    scanBare (c :: cs) = (c :: (scanBare cs).1, (scanBare cs).2) := by
  cases cs with
  | nil => simp [scanBare, hc]
  | cons d cs =>
    have hpair : ¬ (c = '\\' ∧ isHeld d = true) := by
      rintro ⟨rfl, hheld⟩; simp [hd rfl d rfl] at hheld
    simp [scanBare, hc, hpair]

theorem spacesHeld_pair {d : Char} (hd : isHeld d = true) (w : List Char) :
    spacesHeld ('\\' :: d :: w) = spacesHeld w := by
  simp [spacesHeld, hd]

theorem spacesHeld_cons {c : Char} {w : List Char}
    (hd : c = '\\' → ∀ d ∈ w.head?, isHeld d = false) :
    spacesHeld (c :: w) = (!isSpace c && spacesHeld w) := by
  cases w with
  | nil => simp [spacesHeld]
  | cons d w =>
    have hpair : ¬ (c = '\\' ∧ isHeld d = true) := by
      rintro ⟨rfl, hheld⟩; simp [hd rfl d rfl] at hheld
    simp [spacesHeld, hpair]

/-- An ordinary character in front leaves the end of a word as it is, unless it is the
last one. -/
theorem endsHolding_ordinary {c d : Char} (hd : c = '\\' → isHeld d = false) (w : List Char) :
    endsHolding (c :: d :: w) = endsHolding (d :: w) := by
  by_cases hc : c = '\\'
  · subst hc
    rw [endsHolding_pair, endsHolding_cons (ne_backslash_of_not_isHeld (hd rfl))]
  · exact endsHolding_cons hc _

/-- A word without white space of its own is read up to the place where it ends. -/
theorem scanBare_word {w rest : List Char} (held : spacesHeld w = true) (ends : Ends w rest) :
    scanBare (w ++ rest) = (w, rest) := by
  obtain ⟨apart, last⟩ := ends
  fun_induction spacesHeld w with
  | case1 => exact scanBare_apart apart
  | case2 c =>
    -- a backslash at the end of the word would hold on to the white space behind it
    have hd : c = '\\' → ∀ d ∈ rest.head?, isHeld d = false := by
      rintro rfl
      simp [last rfl]
    rw [List.cons_append, List.nil_append, scanBare_cons (by simpa using held) hd,
      scanBare_apart apart]
  | case3 c d w hpair ih =>
    simp only [Bool.and_eq_true, decide_eq_true_eq] at hpair
    obtain ⟨rfl, hd⟩ := hpair
    rw [endsHolding_pair] at last
    rw [List.cons_append, List.cons_append, scanBare_pair hd, ih held last]
  | case4 c d w hpair ih =>
    simp only [Bool.and_eq_true, decide_eq_true_eq, not_and, Bool.not_eq_true] at hpair
    simp only [Bool.and_eq_true, Bool.not_eq_true'] at held
    rw [endsHolding_ordinary hpair] at last
    rw [List.cons_append, scanBare_cons held.1 (by simpa using hpair), ih held.2 last]

/-- What is read as a bare word has no white space of its own, and ends where it stops. -/
theorem scanBare_eq (cs : List Char) :
    spacesHeld (scanBare cs).1 = true ∧ Ends (scanBare cs).1 (scanBare cs).2 := by
  fun_induction scanBare cs with
  | case1 => exact ⟨rfl, apart_nil, fun _ => rfl⟩
  | case2 c hc => exact ⟨rfl, apart_cons.mpr hc, fun h => by simp at h⟩
  | case3 c hc => exact ⟨by simpa [spacesHeld] using hc, apart_nil, fun _ => rfl⟩
  | case4 c d cs hc => exact ⟨rfl, apart_cons.mpr hc, fun h => by simp at h⟩
  | case5 c d cs hc hpair r ih =>
    simp only [Bool.and_eq_true, decide_eq_true_eq] at hpair
    obtain ⟨rfl, hd⟩ := hpair
    obtain ⟨held, apart, last⟩ := ih
    refine ⟨by rwa [spacesHeld_pair hd], apart, ?_⟩
    rwa [endsHolding_pair]
  | case6 c d cs hc hpair r ih =>
    simp only [Bool.and_eq_true, decide_eq_true_eq, not_and, Bool.not_eq_true] at hpair
    obtain ⟨held, apart, last⟩ := ih
    -- the word goes on with `d`, or stops in front of it
    have happ : (scanBare (d :: cs)).1 ++ (scanBare (d :: cs)).2 = d :: cs := scanBare_append _
    cases hw : (scanBare (d :: cs)).1 with
    | nil =>
      rw [hw, List.nil_append] at happ
      rw [happ, apart_cons] at apart
      have hne : c ≠ '\\' := by
        rintro rfl; simp [not_isSpace_of_not_isHeld (hpair rfl)] at apart
      refine ⟨by simpa [hw, spacesHeld] using hc, by rw [happ, apart_cons]; exact apart, ?_⟩
      intro h
      change endsHolding [c] = true at h
      rw [endsHolding_cons hne] at h
      simp at h
    | cons e w =>
      rw [hw, List.cons_append, List.cons.injEq] at happ
      obtain ⟨rfl, -⟩ := happ
      rw [hw] at held last
      refine ⟨?_, apart, ?_⟩
      · change spacesHeld (c :: e :: w) = true
        rw [spacesHeld_cons (by simpa using hpair), held]
        simpa using hc
      · change endsHolding (c :: e :: w) = true → _
        rw [endsHolding_ordinary hpair]
        exact last

end Courier.Line
