/-
Courier.Proofs.Session.Admission — which names a switch to a workspace takes.

The name of a workspace becomes the name of a file. It is said to have letters, digits, dots,
dashes and underscores only and no dot in front (`Documented`), and this is what a refusal says
(`badWorkspaceName`). What is taken is a little more: one line break may stand behind such a name
(`admitted_iff`).

A name that is not taken is refused before anything is opened, so that nothing is changed: neither
the workspace nor, by the command that switches, what is selected in it.
-/
import Courier.Proofs.Session.Commands
import Mathlib.Data.List.Basic

namespace Courier

open Courier.Text Session

/-! ## Names -/

/-- What is said about the names of workspaces. Letters and digits are those of ASCII. -/
structure Documented (name : String) : Prop where
  nonempty : name ≠ ""
  chars : ∀ c ∈ name.toList, c.isAlphanum = true ∨ c = '.' ∨ c = '_' ∨ c = '-'
  undotted : name.toList.head? ≠ some '.'

/-- What a switch takes: a documented name, or one in front of a line break. -/
def Admitted (name : String) : Prop :=
  Documented name ∨ ∃ base, Documented base ∧ name = base ++ "\n"

theorem isWorkspaceChar_iff {c : Char} :
    isWorkspaceChar c = true ↔ c.isAlphanum = true ∨ c = '.' ∨ c = '_' ∨ c = '-' := by
  have halphanum : c.isAlphanum = true ↔
      (c.isUpper = true ∨ c.isLower = true) ∨ c.isDigit = true := by
    rw [← Bool.or_eq_true, ← Bool.or_eq_true]
    rfl
  have hupper : c.isUpper = true ↔ 'A' ≤ c ∧ c ≤ 'Z' := decide_eq_true_iff
  have hlower : c.isLower = true ↔ 'a' ≤ c ∧ c ≤ 'z' :=
    Bool.and_eq_true_iff.trans (and_congr decide_eq_true_iff decide_eq_true_iff)
  have hdigit : c.isDigit = true ↔ '0' ≤ c ∧ c ≤ '9' :=
    Bool.and_eq_true_iff.trans (and_congr decide_eq_true_iff decide_eq_true_iff)
  rw [halphanum, hupper, hlower, hdigit]
  simp only [isWorkspaceChar, Bool.or_eq_true, Bool.and_eq_true, decide_eq_true_eq, beq_iff_eq,
    or_assoc]
  rw [or_left_comm (a := c = '_')]

theorem documented_iff {cs : List Char} :
    Documented (String.ofList cs) ↔
      (!cs.isEmpty && cs.all isWorkspaceChar && cs.head? != some '.') = true := by
  simp only [Bool.and_eq_true, List.all_eq_true, isWorkspaceChar_iff]
  constructor
  · rintro ⟨hnonempty, hchars, hundotted⟩
    rw [String.toList_ofList] at hchars hundotted
    refine ⟨⟨?_, hchars⟩, ?_⟩
    · simpa using hnonempty
    · simpa using hundotted
  · rintro ⟨⟨hnonempty, hchars⟩, hundotted⟩
    refine ⟨?_, ?_, ?_⟩
    · simpa using hnonempty
    · simpa using hchars
    · simpa using hundotted

theorem not_documented_of_line_break {name : String} (h : '\n' ∈ name.toList) : ¬ Documented name := by
  intro hname
  exact absurd (hname.chars '\n' h) (by decide)

/-- What is taken is what the check says. -/
theorem admitted_iff {name : String} : Admitted name ↔ isWorkspaceName name = true := by
  by_cases hlast : name.toList.getLast? = some '\n'
  · obtain ⟨cs, hcs⟩ : ∃ cs, name.toList = cs ++ ['\n'] :=
      ⟨_, (List.dropLast_append_getLast? _ hlast).symm⟩
    have hname : name = String.ofList cs ++ "\n" := by
      rw [← String.toList_inj, hcs]
      simp
    have hcheck : isWorkspaceName name = true ↔ Documented (String.ofList cs) := by
      rw [documented_iff, isWorkspaceName, dropLineEnd, if_pos hlast, hcs, List.dropLast_concat]
    rw [hcheck]
    constructor
    · rintro (hdocumented | ⟨base, hdocumented, hbase⟩)
      · exact absurd hdocumented (not_documented_of_line_break (by simp [hcs]))
      · obtain rfl : String.ofList cs = base := by
          have happend := congrArg String.toList (hname.symm.trans hbase)
          rw [String.toList_append, String.toList_append] at happend
          exact String.toList_inj.1 (List.append_cancel_right happend)
        exact hdocumented
    · intro hdocumented
      exact .inr ⟨_, hdocumented, hname⟩
  · have hcheck : isWorkspaceName name = true ↔ Documented name := by
      rw [isWorkspaceName, dropLineEnd, if_neg hlast, ← documented_iff, String.ofList_toList]
    rw [hcheck]
    constructor
    · rintro (hdocumented | ⟨base, -, rfl⟩)
      · exact hdocumented
      · exact absurd (by simp) hlast
    · exact .inl

/-! ## Switches -/

section
variable {s : Session} {name : String}

/-- Once its database is opened, a workspace whose name passes the check is current. -/
theorem switchWorkspace_of_opened (hname : isWorkspaceName name = true) {t : Session}
    (hopen : openNamed name s = .ok (.ok ()) t) :
    switchWorkspace name s = .ok () { t with workspace := name } := by
  unfold switchWorkspace
  rw [if_neg (by simp [hname])]
  exact bind_of_eq_ok hopen

/-- A name that does not pass the check is refused, and nothing is done. -/
theorem switchWorkspace_of_bad_name (hname : isWorkspaceName name = false) :
    switchWorkspace name s = .error (.refused (.workspace name badWorkspaceName)) s := by
  unfold switchWorkspace
  rw [if_pos (by simp [hname])]
  rfl

theorem execute_setWorkspace_of_bad_name (hname : isWorkspaceName name = false) :
    execute (.setWorkspace name) s =
      .error (.refused (.workspace name badWorkspaceName)) s :=
  bind_of_eq_error (bind_of_eq_error (switchWorkspace_of_bad_name hname))

end

/-- Opening can be tried out. -/
theorem exists_opened {s : Session} {name : String}
    (h : succeedsWith (openNamed name) s (fun r _ => r.isOk) = true) :
    ∃ t, openNamed name s = .ok (.ok ()) t := by
  obtain ⟨r, t, hopen, hr⟩ := exists_ok_of_succeedsWith h
  cases r with
  | error fault => exact nomatch hr
  | ok _ => exact ⟨t, hopen⟩

/-- **One line break more than is documented is taken.** In every session, if the database of a
name can be opened then a switch makes it the current workspace if and only if the name is
documented, or a documented name stands in front of a line break at its end. A switch to any
other name is refused with the reason that is documented, and leaves the session as it was; so does
the command, and of a line with the command nothing is left but what it shows. -/
theorem names_that_a_switch_takes (s : Session) (name : String) :
    ((∃ t, openNamed name s = .ok (.ok ()) t) →
      ((∃ s', switchWorkspace name s = .ok () s' ∧ s'.workspace = name) ↔
        Documented name ∨ ∃ base, Documented base ∧ name = base ++ "\n")) ∧
    (¬ (Documented name ∨ ∃ base, Documented base ∧ name = base ++ "\n") →
      switchWorkspace name s = .error (.refused (.workspace name badWorkspaceName)) s ∧
      execute (.setWorkspace name) s = .error (.refused (.workspace name badWorkspaceName)) s ∧
      ∀ line, Command.ofLine line = .ok (some (.setWorkspace name)) →
        ∃ events, stateAfter (doLine line) s = s.withShown events) := by
  have hadmitted : (Documented name ∨ ∃ base, Documented base ∧ name = base ++ "\n") ↔
      isWorkspaceName name = true := admitted_iff
  rw [hadmitted, Bool.not_eq_true]
  constructor
  · rintro ⟨t, hopen⟩
    constructor
    · rintro ⟨s', hswitch, -⟩
      by_contra hbad
      have hrefused := switchWorkspace_of_bad_name (s := s) (Bool.eq_false_iff.2 hbad)
      exact nomatch hrefused.symm.trans hswitch
    · intro hname
      exact ⟨_, switchWorkspace_of_opened hname hopen, rfl⟩
  · intro hbad
    have hcommand := execute_setWorkspace_of_bad_name (s := s) hbad
    refine ⟨switchWorkspace_of_bad_name hbad, hcommand, fun line hline => ?_⟩
    obtain ⟨events, hshown⟩ := stateAfter_doLine line s
    refine ⟨events, ?_⟩
    rw [hshown, stateAfter_dispatch hline, stateAfter, hcommand]

/-- A documented name is taken. A name with a blank in it is not, and what is selected stays. -/
theorem names_that_a_switch_takes_shop :
    let s : Session := { environment := some "dev", request := some "ping" }
    (∃ s', switchWorkspace "shop-2.0" s = .ok () s' ∧ s'.workspace = "shop-2.0") ∧
      execute (.setWorkspace "my shop") s =
        .error (.refused (.workspace "my shop" badWorkspaceName)) s := by
  intro s
  constructor
  · have hopens : ∃ t, openNamed "shop-2.0" s = .ok (.ok ()) t := exists_opened (by decide +kernel)
    have hadmitted : Admitted "shop-2.0" := admitted_iff.2 (by decide +kernel)
    exact ((names_that_a_switch_takes s "shop-2.0").1 hopens).2 hadmitted
  · obtain ⟨-, hcommand, -⟩ := (names_that_a_switch_takes s "my shop").2
      fun hadmitted => absurd (admitted_iff.1 hadmitted) (by decide +kernel)
    exact hcommand

/-- The name of a workspace with a line break at its end is not documented, and it is taken. -/
theorem undocumented_name_is_taken :
    let s : Session := {}
    ¬ Documented "work\n" ∧ (∃ t, openNamed "work\n" s = .ok (.ok ()) t) ∧
      ∃ s', switchWorkspace "work\n" s = .ok () s' ∧ s'.workspace = "work\n" := by
  intro s
  obtain ⟨t, hopen⟩ : ∃ t, openNamed "work\n" s = .ok (.ok ()) t := exists_opened (by decide +kernel)
  exact ⟨not_documented_of_line_break (by decide), ⟨t, hopen⟩, _,
    switchWorkspace_of_opened (by decide +kernel) hopen, rfl⟩

end Courier
